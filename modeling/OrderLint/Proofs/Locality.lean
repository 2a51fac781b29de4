import OrderLint.Proofs.Leniency
import OrderLint.Proofs.Sortedness

/-!
# What a class body sees of the comments

Two lists of comments with one set of section lines are each at least as lenient as the other, so
they give the same findings, whatever else there is in them. On bodies whose lines ascend less is
seen: the gaps between neighbours. They avoid every member of the body and lie between its braces.
A body nested in a member therefore hides its lines from the body around it, and the lines outside
it are hidden from the nested one.
-/
namespace OrderLint

namespace Outline

open ClassChecker (methodOn sectionOn)

/-- Comments matter only through the set of the lines on which they open a section. -/
theorem check_eq_of_sectionLines {outline other : Outline}
    (himports : outline.imports = other.imports) (hbodies : outline.bodies = other.bodies)
    {options options' : Options}
    (hfirst : options.constructorFirst = options'.constructorFirst)
    (hlines : ∀ line, IsSectionLine outline.comments options.delimiter line ↔
      IsSectionLine other.comments options'.delimiter line) :
    outline.check options = other.check options' := by
  apply Findings.Within.antisymm
  · exact check_within himports hbodies (fun line => (hlines line).mpr) (by simp [hfirst])
  · exact check_within himports.symm hbodies.symm (fun line => (hlines line).mp) (by simp [hfirst])

-- A block comment, an ordinary one and a repeated section line; the last member starts too early.
def scatteredOutline : Outline where
  path := utf8 "scattered.js"
  comments := [sectionOn 5, ⟨true, utf8 " -- block", ⟨⟨4, 0⟩, ⟨4, 9⟩⟩⟩, sectionOn 3, sectionOn 5,
    ⟨false, utf8 " plain", ⟨⟨7, 0⟩, ⟨7, 6⟩⟩⟩]
  imports := []
  bodies := [⟨[methodOn 1 2 "c", methodOn 4 4 "b", methodOn 6 6 "a", methodOn 2 2 "A"],
    ⟨⟨1, 0⟩, ⟨8, 1⟩⟩⟩]

def gatheredOutline : Outline :=
  { scatteredOutline with
    comments := [⟨false, utf8 "## one", ⟨⟨3, 8⟩, ⟨9, 0⟩⟩⟩,
      ⟨false, utf8 "## two", ⟨⟨5, 0⟩, ⟨5, 6⟩⟩⟩] }

theorem scatteredOutline_check_eq :
    (∀ line, IsSectionLine scatteredOutline.comments [] line ↔
      IsSectionLine gatheredOutline.comments (utf8 "## ") line) ∧
    scatteredOutline.check ⟨[], true⟩ = gatheredOutline.check ⟨utf8 "## ", true⟩ ∧
    gatheredOutline.check ⟨utf8 "## ", true⟩ =
      ⟨[⟨.sortClassBody, .member (methodOn 2 2 "A")⟩], none⟩ := by
  have hscattered : (SectionMap.ofComments scatteredOutline.comments []).lines = [3, 5, 5] := by
    decide
  have hgathered :
      (SectionMap.ofComments gatheredOutline.comments (utf8 "## ")).lines = [3, 5] := by
    decide
  have hlines : ∀ line, IsSectionLine scatteredOutline.comments [] line ↔
      IsSectionLine gatheredOutline.comments (utf8 "## ") line := by
    intro line
    rw [← SectionMap.mem_ofComments, ← SectionMap.mem_ofComments, hscattered, hgathered]
    simp
  refine ⟨hlines, ?_, by decide +kernel⟩
  exact check_eq_of_sectionLines (by rfl) (by rfl) (by rfl) hlines

end Outline

def Span.Covers (span : Span) (line : Int64) : Prop :=
  span.start.line ≤ line ∧ line ≤ span.finish.line

/-- The lines of a body ascend, and its last member ends no later than the body. -/
structure ClassBody.EnclosesMembers (body : ClassBody) : Prop extends body.WellLaidOut where
  finish_le : ∀ last ∈ body.members.getLast?, last.span.finish.line ≤ body.span.finish.line

def ClassBody.IsGapLine (body : ClassBody) (line : Int64) : Prop :=
  ∃ i, ∃ before ∈ body.members[i]?, ∃ after ∈ body.members[i + 1]?,
    before.span.finish.line < line ∧ line < after.span.start.line

namespace ClassBody

variable {body : ClassBody}

theorem WellLaidOut.of_append (h : body.WellLaidOut) {before after : List Member}
    (hmembers : body.members = before ++ after) : { body with members := before }.WellLaidOut := by
  obtain ⟨hstart, hspans, hgaps⟩ := h
  rw [hmembers] at hstart hspans hgaps
  refine ⟨?_, fun m hm => hspans m (List.mem_append_left _ hm), hgaps.left_of_append⟩
  intro first (hfirst : before.head? = some first)
  exact hstart first (by simp [hfirst])

theorem WellLaidOut.not_covers_of_isGapLine (h : body.WellLaidOut) {line : Int64}
    (hgap : body.IsGapLine line) {member : Member} (hm : member ∈ body.members) :
    ¬ member.span.Covers line := by
  rintro ⟨hstart, hfinish⟩
  obtain ⟨i, before, hbefore, after, hafter, hlower, hupper⟩ := hgap
  obtain ⟨k, hk⟩ := List.mem_iff_getElem?.mp hm
  rcases Nat.lt_or_ge i k with hik | hki
  · have hle := (h.span_le_span hik hafter hk).2
    exact Int64.lt_irrefl (Int64.lt_of_lt_of_le hupper (Int64.le_trans hle hstart))
  · have hle := (h.span_le_span hki hk hbefore).1
    exact Int64.lt_irrefl (Int64.lt_of_lt_of_le hlower (Int64.le_trans hfinish hle))

theorem EnclosesMembers.covers_of_isGapLine (h : body.EnclosesMembers) {line : Int64}
    (hgap : body.IsGapLine line) : body.span.Covers line := by
  obtain ⟨i, before, hbefore, after, hafter, hlower, hupper⟩ := hgap
  have hstart := h.start_le_finish (List.mem_of_getElem? hbefore)
  have hspan := (h.spans after (List.mem_of_getElem? hafter)).1
  obtain ⟨hi, -⟩ := List.getElem?_eq_some_iff.mp hafter
  obtain ⟨last, hlast⟩ : ∃ last, body.members.getLast? = some last :=
    ⟨_, List.getLast?_eq_some_getLast (List.ne_nil_of_length_pos (by omega))⟩
  have hle := (h.span_le_span (by omega) hafter (List.getLast?_eq_getElem? ▸ hlast)).1
  have hfinish := h.finish_le last hlast
  constructor
  · exact Int64.le_of_lt (Int64.lt_of_le_of_lt hstart hlower)
  · exact Int64.le_of_lt (Int64.lt_of_lt_of_le hupper
      (Int64.le_trans hspan (Int64.le_trans hle hfinish)))

end ClassBody

section Comments

variable {comments comments' : List Comment} {delimiter delimiter' : Bytes}

theorem isChain_separated_iff {body : ClassBody}
    (h : ∀ line, body.IsGapLine line →
      (IsSectionLine comments delimiter line ↔ IsSectionLine comments' delimiter' line)) :
    body.members.IsChain fun before after =>
      Separated comments delimiter before after ↔ Separated comments' delimiter' before after := by
  refine List.isChain_iff_getElem.mpr fun i hi => ?_
  have hgap : ∀ line, body.members[i].span.finish.line < line →
      line < body.members[i + 1].span.start.line → body.IsGapLine line :=
    fun line hlower hupper => ⟨i, _, List.getElem?_eq_getElem _, _, List.getElem?_eq_getElem hi,
      hlower, hupper⟩
  constructor
  · rintro ⟨line, hline, hlower, hupper⟩
    exact ⟨line, (h line (hgap line hlower hupper)).mp hline, hlower, hupper⟩
  · rintro ⟨line, hline, hlower, hupper⟩
    exact ⟨line, (h line (hgap line hlower hupper)).mpr hline, hlower, hupper⟩

namespace ClassChecker

def run (checker : ClassChecker) (bodies : List ClassBody) : List Findings :=
  bodies.map checker.check

/-- Two checkers find the same in a body, wherever it stands among the bodies they are given. -/
def Agree (checker checker' : ClassChecker) (body : ClassBody) : Prop :=
  ∀ (bodies bodies' : List ClassBody) (i i' : ℕ), bodies[i]? = some body →
    bodies'[i']? = some body → ∃ findings, (checker.run bodies)[i]? = some findings ∧
      (checker'.run bodies')[i']? = some findings

theorem agree_of_check_eq {checker checker' : ClassChecker} {body : ClassBody}
    (h : checker.check body = checker'.check body) : checker.Agree checker' body := by
  intro bodies bodies' i i' hi hi'
  refine ⟨checker.check body, ?_, ?_⟩
  · simp [run, hi]
  · simp [run, hi', h]

theorem check_congr_of_isRecognized {body : ClassBody} (hkinds : body.IsRecognized)
    (hlayout : body.WellLaidOut)
    (hgaps : body.members.IsChain fun before after =>
      Separated comments delimiter before after ↔ Separated comments' delimiter' before after)
    (constructorFirst : Bool) :
    check ⟨SectionMap.ofComments comments delimiter, constructorFirst⟩ body =
      check ⟨SectionMap.ofComments comments' delimiter', constructorFirst⟩ body := by
  have hsuffix := compared_suffix ⟨SectionMap.ofComments comments delimiter, constructorFirst⟩
    body.members
  have hfollowers := followers_congr (R := Descends comments delimiter)
    (S := Descends comments' delimiter')
    ((hgaps.suffix hsuffix).imp fun before after h => by rw [Descends, Descends, h])
  rw [check_of_wellLaidOut constructorFirst hkinds hlayout,
    check_of_wellLaidOut constructorFirst hkinds hlayout, hfollowers]
  rfl

theorem check_congr_of_gapLines {body : ClassBody} (hlayout : body.WellLaidOut)
    (h : ∀ line, body.IsGapLine line →
      (IsSectionLine comments delimiter line ↔ IsSectionLine comments' delimiter' line))
    (constructorFirst : Bool) :
    check ⟨SectionMap.ofComments comments delimiter, constructorFirst⟩ body =
      check ⟨SectionMap.ofComments comments' delimiter', constructorFirst⟩ body := by
  have hgaps := isChain_separated_iff h
  by_cases hkinds : body.IsRecognized
  · exact check_congr_of_isRecognized hkinds hlayout hgaps constructorFirst
  · -- A bad member cuts the body off, and what is left has none.
    obtain ⟨before, member, hfirst⟩ := exists_firstNot hkinds
    obtain ⟨after, hmembers⟩ := hfirst.1
    have hkept : { body with members := before }.IsRecognized := hfirst.2.1
    rw [hmembers] at hgaps
    rw [check_of_firstNot _ hfirst, check_of_firstNot _ hfirst,
      check_congr_of_isRecognized hkept (hlayout.of_append hmembers) hgaps.left_of_append]

end ClassChecker

end Comments

namespace ClassChecker

/-- A body nested in a member of another: the section lines inside it do not matter to the outer
body, and those outside it do not matter to the nested one. -/
theorem check_nested {outer inner : ClassBody} (houter : outer.EnclosesMembers)
    (hinner : inner.EnclosesMembers) {member : Member} (hmember : member ∈ outer.members)
    (hinside : ∀ line, inner.span.Covers line → member.span.Covers line)
    (constructorFirst : Bool) (comments comments' : List Comment) (delimiter delimiter' : Bytes) :
    ((∀ line, ¬ inner.span.Covers line →
        (IsSectionLine comments delimiter line ↔ IsSectionLine comments' delimiter' line)) →
      Agree ⟨SectionMap.ofComments comments delimiter, constructorFirst⟩
        ⟨SectionMap.ofComments comments' delimiter', constructorFirst⟩ outer) ∧
    ((∀ line, inner.span.Covers line →
        (IsSectionLine comments delimiter line ↔ IsSectionLine comments' delimiter' line)) →
      Agree ⟨SectionMap.ofComments comments delimiter, constructorFirst⟩
        ⟨SectionMap.ofComments comments' delimiter', constructorFirst⟩ inner) := by
  refine ⟨fun h => agree_of_check_eq ?_, fun h => agree_of_check_eq ?_⟩
  · refine check_congr_of_gapLines houter.toWellLaidOut (fun line hgap => ?_) constructorFirst
    have hout := houter.not_covers_of_isGapLine hgap hmember
    exact h line fun hcovers => hout (hinside line hcovers)
  · refine check_congr_of_gapLines hinner.toWellLaidOut (fun line hgap => ?_) constructorFirst
    exact h line (hinner.covers_of_isGapLine hgap)

def outerBody : ClassBody := ⟨[methodOn 2 8 "b", methodOn 10 10 "a"], ⟨⟨1, 0⟩, ⟨11, 1⟩⟩⟩

def innerBody : ClassBody := ⟨[methodOn 4 4 "y", methodOn 6 6 "x"], ⟨⟨3, 0⟩, ⟨7, 1⟩⟩⟩

theorem check_outerBody_innerBody :
    outerBody.EnclosesMembers ∧ innerBody.EnclosesMembers ∧
    methodOn 2 8 "b" ∈ outerBody.members ∧
    (∀ line, innerBody.span.Covers line → (methodOn 2 8 "b").span.Covers line) ∧
    Agree ⟨SectionMap.ofComments [sectionOn 5, sectionOn 9] [], true⟩
      ⟨SectionMap.ofComments [sectionOn 9] [], true⟩ outerBody ∧
    Agree ⟨SectionMap.ofComments [sectionOn 5, sectionOn 9] [], true⟩
      ⟨SectionMap.ofComments [sectionOn 5] [], true⟩ innerBody := by
  have houter : outerBody.EnclosesMembers := ⟨by decide, by decide⟩
  have hinner : innerBody.EnclosesMembers := ⟨by decide, by decide⟩
  have hmember : methodOn 2 8 "b" ∈ outerBody.members := by decide
  have hinside : ∀ line, innerBody.span.Covers line → (methodOn 2 8 "b").span.Covers line := by
    rintro line ⟨hstart, hfinish⟩
    exact ⟨Int64.le_trans (by decide) hstart, Int64.le_trans hfinish (by decide)⟩
  have hboth : (SectionMap.ofComments [sectionOn 5, sectionOn 9] []).lines = [5, 9] := by decide
  have hlast : (SectionMap.ofComments [sectionOn 9] []).lines = [9] := by decide
  have hfirst : (SectionMap.ofComments [sectionOn 5] []).lines = [5] := by decide
  have hin : innerBody.span.Covers 5 := ⟨by decide, by decide⟩
  have hout : ¬ innerBody.span.Covers 9 := fun h => absurd h.2 (by decide)
  refine ⟨houter, hinner, hmember, hinside, ?_, ?_⟩
  · refine (check_nested houter hinner hmember hinside true _ _ _ _).1 fun line hline => ?_
    simp only [← SectionMap.mem_ofComments, hboth, hlast, List.mem_cons, List.not_mem_nil, or_false,
      or_iff_right_iff_imp]
    rintro rfl
    exact absurd hin hline
  · refine (check_nested houter hinner hmember hinside true _ _ _ _).2 fun line hline => ?_
    simp only [← SectionMap.mem_ofComments, hboth, hfirst, List.mem_cons, List.not_mem_nil,
      or_false, or_iff_left_iff_imp]
    rintro rfl
    exact absurd hline hout

end ClassChecker

end OrderLint
