import OrderLint.Proofs.ClassOrder
import OrderLint.Proofs.MemberWalk
import OrderLint.Proofs.Provenance

/-!
# Leniency

Section comments and the exemption of a leading constructor only ever excuse members. Two runs over
one body are compared, the second with more section lines, or with its constructor skipped. Their
cursors stand at different lines from then on; what holds at every member is that the second cursor
is not ahead of the first and that the second run compares with the same key as the first or with
none. So whenever a section opens for the first run it opens for the second, and the second run
reports a part of what the first reports.
-/
namespace OrderLint

/-- Part of the violations in the same order, and the same failure. -/
structure Findings.Within (findings all : Findings) : Prop where
  violations : findings.violations.Sublist all.violations
  failure : findings.failure = all.failure

namespace Findings.Within

theorem refl (findings : Findings) : findings.Within findings := ⟨List.Sublist.refl _, rfl⟩

theorem antisymm {a b : Findings} (hab : a.Within b) (hba : b.Within a) : a = b := by
  obtain ⟨vs, f⟩ := a
  obtain ⟨ws, g⟩ := b
  obtain rfl : vs = ws := hab.violations.antisymm hba.violations
  obtain rfl : f = g := hab.failure
  rfl

theorem andThen {a b c d : Findings} (hab : a.Within b) (hcd : c.Within d) :
    (a.andThen c).Within (b.andThen d) := by
  obtain ⟨vs, f⟩ := a
  obtain ⟨ws, g⟩ := b
  obtain rfl : f = g := hab.failure
  cases f with
  | none => exact ⟨hab.violations.append hcd.violations, hcd.failure⟩
  | some e => exact hab

end Findings.Within

theorem IsSectionLine.of_sublist {comments more : List Comment} {delimiter : Bytes} {line : Int64}
    (h : comments.Sublist more) (hline : IsSectionLine comments delimiter line) :
    IsSectionLine more delimiter line := by
  obtain ⟨comment, hmem, hopens⟩ := hline
  exact ⟨comment, h.subset hmem, hopens⟩

namespace ClassChecker

theorem outOfOrder_sublist {last last' : Option Bytes} (h : last' = none ∨ last' = last)
    (key : Bytes) (member : Member) :
    (outOfOrder last' key member).Sublist (outOfOrder last key member) := by
  rcases h with rfl | rfl
  · exact List.nil_sublist _
  · exact List.Sublist.refl _

section Runs

variable {sections more : SectionMap} (hasc : sections.lines.Ascending)
  (hasc' : more.lines.Ascending) (hlines : ∀ line ∈ sections.lines, line ∈ more.lines)

include hasc hasc' hlines in
theorem checkMembers_within {first first' : Int64} (hfirst : first' ≤ first)
    {last last' : Option Bytes} (hlast : last' = none ∨ last' = last) (members : List Member) :
    (checkMembers (more.cursor first') last' members).Within
      (checkMembers (sections.cursor first) last members) := by
  induction members generalizing first first' last last' with
  | nil => exact .refl _
  | cons member rest ih =>
    by_cases hk : member.IsRecognized
    · have hown := outOfOrder_sublist hlast member.name member
      cases rest with
      | nil =>
        rw [checkMembers_singleton _ _ hk, checkMembers_singleton _ _ hk]
        exact ⟨hown, rfl⟩
      | cons next rest =>
        rw [checkMembers_step hasc _ _ hk, checkMembers_step hasc' _ _ hk]
        have hpassed := member.passedFrom_le_passedFrom hfirst
        refine Findings.Within.andThen ⟨hown, rfl⟩ (ih hpassed ?_)
        by_cases ho : sections.Opens (member.passedFrom first) next.span.start.line
        · rw [if_pos (ho.mono hlines hpassed)]
          exact .inl rfl
        · rw [if_neg ho]
          split_ifs
          · exact .inl rfl
          · exact .inr rfl
    · rw [checkMembers_cons_unrecognized _ _ hk, checkMembers_cons_unrecognized _ _ hk]
      exact .refl _

include hasc hasc' hlines in
theorem checkMembers_tail_within (first : Int64) {member : Member} (hk : member.IsRecognized)
    (rest : List Member) :
    (checkMembers (more.cursor first) none rest).Within
      (checkMembers (sections.cursor first) none (member :: rest)) := by
  cases rest with
  | nil =>
    rw [checkMembers_singleton _ _ hk]
    exact .refl _
  | cons next rest =>
    -- Skipping the member leaves its lines ahead of the cursor, and no key to compare with.
    rw [checkMembers_step hasc _ _ hk]
    exact checkMembers_within hasc hasc' hlines (member.le_passedFrom first) (.inl rfl)
      (next :: rest)

include hasc hasc' hlines in
theorem check_within {constructorFirst constructorFirst' : Bool}
    (hfirst : constructorFirst = true → constructorFirst' = true) (body : ClassBody) :
    (check ⟨more, constructorFirst'⟩ body).Within (check ⟨sections, constructorFirst⟩ body) := by
  have hsame : ∀ members, (checkMembers (more.cursor body.span.start.line) none members).Within
      (checkMembers (sections.cursor body.span.start.line) none members) :=
    checkMembers_within hasc hasc' hlines (Int64.le_refl _) (.inr rfl)
  unfold check
  cases body.members with
  | nil => exact .refl _
  | cons member rest =>
    simp only [compared, Bool.and_eq_true]
    by_cases hskip : constructorFirst' = true ∧ member.isConstructor = true
    · have hk : member.IsRecognized := by
        by_contra hk
        exact absurd hskip.2 (by simp [Member.not_isConstructor_of_not_isRecognized hk])
      rw [if_pos hskip]
      split_ifs
      · exact hsame rest
      · exact checkMembers_tail_within hasc hasc' hlines _ hk rest
    · have hkeep : ¬ (constructorFirst = true ∧ member.isConstructor = true) :=
        fun h => hskip ⟨hfirst h.1, h.2⟩
      rw [if_neg hskip, if_neg hkeep]
      exact hsame _

include hasc hasc' hlines in
theorem checkAll_within {constructorFirst constructorFirst' : Bool}
    (hfirst : constructorFirst = true → constructorFirst' = true) (bodies : List ClassBody) :
    (checkAll ⟨more, constructorFirst'⟩ bodies).Within
      (checkAll ⟨sections, constructorFirst⟩ bodies) := by
  induction bodies with
  | nil => exact .refl _
  | cons body rest ih => exact (check_within hasc hasc' hlines hfirst body).andThen ih

end Runs

end ClassChecker

namespace Outline

open ClassChecker (methodOn sectionOn)

theorem check_within {outline lenient : Outline} {options options' : Options}
    (himports : lenient.imports = outline.imports) (hbodies : lenient.bodies = outline.bodies)
    (hlines : ∀ line, IsSectionLine outline.comments options.delimiter line →
      IsSectionLine lenient.comments options'.delimiter line)
    (hfirst : options.constructorFirst = true → options'.constructorFirst = true) :
    (lenient.check options').Within (outline.check options) := by
  unfold check
  rw [himports, hbodies]
  apply (Findings.Within.refl _).andThen
  apply ClassChecker.checkAll_within (SectionMap.ofComments_ascending _ _)
    (SectionMap.ofComments_ascending _ _) _ hfirst
  intro line hline
  exact SectionMap.mem_ofComments.mpr (hlines line (SectionMap.mem_ofComments.mp hline))

/-- With more comments, or with leading constructors exempt, the failure and the violations of
imports stay what they were, and what remains of the violations of class members is a sublist. -/
theorem check_lenient (outline : Outline) (options : Options) (comments : List Comment)
    (hcomments : outline.comments.Sublist comments) (constructorFirst : Bool)
    (hfirst : options.constructorFirst = true → constructorFirst = true) :
    let found := outline.check options
    let lenient := { outline with comments }.check { options with constructorFirst }
    lenient.failure = found.failure ∧ lenient.importViolations = found.importViolations ∧
      lenient.classViolations.Sublist found.classViolations := by
  intro found lenient
  have hwithin : lenient.Within found :=
    check_within rfl rfl (fun line hline => hline.of_sublist hcomments) hfirst
  refine ⟨hwithin.failure, ?_, hwithin.violations.filter _⟩
  rw [importViolations_check, importViolations_check]

-- The second class descends in lines, and its first method ends on the last line there is.
def untidyOutline : Outline where
  path := utf8 "untidy.js"
  comments := [sectionOn 9]
  imports := [⟨utf8 "./util", [], default⟩, ⟨utf8 "react", [], default⟩]
  bodies := [
    ⟨[methodOn 3 3 "constructor", methodOn 4 4 "b", methodOn 6 6 "a"], ⟨⟨2, 0⟩, ⟨7, 1⟩⟩⟩,
    ⟨[methodOn 8 Int64.maxValue "c", methodOn 10 7 "b", methodOn 9 9 "a"], ⟨⟨5, 0⟩, ⟨10, 1⟩⟩⟩]

def untidyComments : List Comment := [sectionOn 5, sectionOn 9, sectionOn 8]

theorem untidyOutline_check_lenient :
    untidyOutline.comments.Sublist untidyComments ∧
    (untidyOutline.check ⟨[], false⟩).classViolations =
      [⟨.sortClassBody, .member (methodOn 4 4 "b")⟩, ⟨.sortClassBody, .member (methodOn 6 6 "a")⟩,
        ⟨.sortClassBody, .member (methodOn 9 9 "a")⟩] ∧
    (check { untidyOutline with comments := untidyComments } ⟨[], true⟩).classViolations.Sublist
      (untidyOutline.check ⟨[], false⟩).classViolations := by
  have hcomments : untidyOutline.comments.Sublist untidyComments := by decide
  refine ⟨hcomments, by decide +kernel, ?_⟩
  exact (check_lenient untidyOutline ⟨[], false⟩ untidyComments hcomments true (by decide)).2.2

end Outline

end OrderLint
