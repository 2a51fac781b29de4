import OrderLint.Proofs.Locality

/-!
# Renumbering lines

A map on line numbers acts on spans, on the nodes of an outline and on findings. The import check
reads no line, so it commutes with every map. The class check compares section lines with the lines
where bodies and members start and with the line after the end of a member. A map that increases on
the lines of an outline keeps these comparisons, although it does not commute with going to the next
line. The invariant of two walks, one over the section lines and one over their images, is that a
section line is ahead of the first cursor exactly when its image is ahead of the second.
-/
namespace OrderLint

section Actions

variable (f : Int64 → Int64)

def Position.renumber (position : Position) : Position := { position with line := f position.line }

def Span.renumber (span : Span) : Span := ⟨span.start.renumber f, span.finish.renumber f⟩

def Comment.renumber (comment : Comment) : Comment :=
  { comment with span := comment.span.renumber f }

def Specifier.renumber (specifier : Specifier) : Specifier :=
  { specifier with span := specifier.span.renumber f }

def ImportDecl.renumber (decl : ImportDecl) : ImportDecl :=
  { decl with specifiers := decl.specifiers.map (·.renumber f), span := decl.span.renumber f }

def Member.renumber (member : Member) : Member := { member with span := member.span.renumber f }

def ClassBody.renumber (body : ClassBody) : ClassBody :=
  ⟨body.members.map (·.renumber f), body.span.renumber f⟩

def Outline.renumber (outline : Outline) : Outline where
  path := outline.path
  comments := outline.comments.map (·.renumber f)
  imports := outline.imports.map (·.renumber f)
  bodies := outline.bodies.map (·.renumber f)

def Anchor.renumber : Anchor → Anchor
  | .declaration d => .declaration (d.renumber f)
  | .specifier s => .specifier (s.renumber f)
  | .member m => .member (m.renumber f)

def Violation.renumber (violation : Violation) : Violation :=
  { violation with anchor := violation.anchor.renumber f }

def UnrecognizedKind.renumber (e : UnrecognizedKind) : UnrecognizedKind :=
  { e with node := e.node.map (·.renumber f) }

def Findings.renumber (findings : Findings) : Findings :=
  ⟨findings.violations.map (·.renumber f), findings.failure.map (·.renumber f)⟩

theorem Findings.renumber_andThen (first second : Findings) :
    (first.andThen second).renumber f = (first.renumber f).andThen (second.renumber f) := by
  obtain ⟨vs, _ | e⟩ := first
  · simp [renumber]
  · rfl

theorem Outline.node?_renumber (outline : Outline) (place : Place) :
    (outline.renumber f).node? place = (outline.node? place).map (·.renumber f) := by
  cases place with
  | declaration i => cases h : outline.imports[i]? <;> simp [node?, renumber, h, Anchor.renumber]
  | specifier i j =>
    cases h : outline.imports[i]? with
    | none => simp [node?, renumber, h]
    | some decl =>
      cases hs : decl.specifiers[j]? <;>
        simp [node?, renumber, h, ImportDecl.renumber, hs, Anchor.renumber]
  | member i j =>
    cases h : outline.bodies[i]? with
    | none => simp [node?, renumber, h]
    | some body =>
      cases hm : body.members[j]? <;>
        simp [node?, renumber, h, ClassBody.renumber, hm, Anchor.renumber]

end Actions

section Imports

variable (f : Int64 → Int64)

theorem ImportDecl.record_renumber (decl : ImportDecl) :
    (decl.renumber f).record = decl.record := by
  obtain ⟨source, specifiers, span⟩ := decl
  cases specifiers <;> rfl

theorem ImportDecl.unrecognized?_renumber (decl : ImportDecl) :
    (decl.renumber f).unrecognized? = decl.unrecognized?.map (·.renumber f) := by
  simp only [unrecognized?, renumber, List.find?_map]
  rfl

theorem ImportDecl.namedSpecifiers_renumber (decl : ImportDecl) :
    (decl.renumber f).namedSpecifiers = decl.namedSpecifiers.map (·.renumber f) := by
  simp only [namedSpecifiers, renumber, List.filter_map]
  rfl

theorem specifierViolations_renumber (last : Option Bytes) (specifiers : List Specifier) :
    specifierViolations last (specifiers.map (·.renumber f)) =
      (specifierViolations last specifiers).map (·.renumber f) := by
  induction specifiers generalizing last with
  | nil => rfl
  | cons specifier rest ih =>
    have hname : (specifier.renumber f).binding = specifier.binding := rfl
    simp only [List.map_cons, specifierViolations, hname, ih, List.map_append]
    congr 1
    split_ifs <;> rfl

theorem declarationViolations_renumber (last : Option ImportRecord) (decl : ImportDecl) :
    declarationViolations last (decl.renumber f) =
      (declarationViolations last decl).map (·.renumber f) := by
  cases last with
  | none => rfl
  | some prior =>
    simp only [declarationViolations, ImportDecl.record_renumber]
    cases brokenRule? prior decl.record <;> rfl

namespace ImportChecker

theorem check_decl_renumber (checker : ImportChecker) (decl : ImportDecl) :
    checker.check (decl.renumber f) =
      ((checker.check decl).1.renumber f, (checker.check decl).2) := by
  simp only [check, ImportDecl.classify, ImportDecl.unrecognized?_renumber]
  cases decl.unrecognized? with
  | some specifier => rfl
  | none =>
    simp only [Option.map_none, ImportDecl.record_renumber, ImportDecl.namedSpecifiers_renumber,
      specifierViolations_renumber, declarationViolations_renumber, Findings.renumber,
      List.map_append]

theorem checkAll_renumber (checker : ImportChecker) (decls : List ImportDecl) :
    checker.checkAll (decls.map (·.renumber f)) = (checker.checkAll decls).renumber f := by
  induction decls generalizing checker with
  | nil => rfl
  | cons decl rest ih =>
    simp only [List.map_cons, checkAll, check_decl_renumber, ih, Findings.renumber_andThen]

end ImportChecker

end Imports

section Walk

variable {f : Int64 → Int64} {sections moved : SectionMap}

/-- The section lines at or after `first` are those whose images are at or after `first'`. -/
def SameAhead (f : Int64 → Int64) (sections : SectionMap) (first first' : Int64) : Prop :=
  ∀ line ∈ sections.lines, first ≤ line ↔ first' ≤ f line

/-- The lines of a member divide the section lines as their images divide the images. -/
def Member.KeepsSections (f : Int64 → Int64) (sections : SectionMap) (member : Member) : Prop :=
  SameAhead f sections member.span.start.line (f member.span.start.line) ∧
    SameAhead f sections (member.span.finish.line + 1) (f member.span.finish.line + 1)

theorem SameAhead.passedFrom {first first' : Int64} (h : SameAhead f sections first first')
    {member : Member} (hm : member.KeepsSections f sections) :
    SameAhead f sections (member.passedFrom first) ((member.renumber f).passedFrom first') := by
  intro line hline
  rw [Member.passedFrom_le_iff, Member.passedFrom_le_iff]
  exact and_congr (h line hline) (and_congr (hm.1 line hline) (hm.2 line hline))

theorem SameAhead.opens_iff (hlines : ∀ line, line ∈ moved.lines ↔ ∃ l ∈ sections.lines, f l = line)
    {first first' before before' : Int64} (hfirst : SameAhead f sections first first')
    (hbefore : SameAhead f sections before before') :
    moved.Opens first' before' ↔ sections.Opens first before := by
  have hlt : ∀ line ∈ sections.lines, line < before ↔ f line < before' := by
    intro line hline
    rw [← Int64.not_le, ← Int64.not_le, hbefore line hline]
  constructor
  · rintro ⟨line', hline', hle, hbefore'⟩
    obtain ⟨line, hline, rfl⟩ := (hlines line').mp hline'
    exact ⟨line, hline, (hfirst line hline).mpr hle, (hlt line hline).mpr hbefore'⟩
  · rintro ⟨line, hline, hle, hbefore⟩
    exact ⟨f line, (hlines _).mpr ⟨line, hline, rfl⟩, (hfirst line hline).mp hle,
      (hlt line hline).mp hbefore⟩

namespace ClassChecker

theorem outOfOrder_renumber (f : Int64 → Int64) (last : Option Bytes) (key : Bytes)
    (member : Member) :
    outOfOrder last key (member.renumber f) = (outOfOrder last key member).map (·.renumber f) := by
  cases last with
  | none => rfl
  | some before =>
    simp only [outOfOrder]
    split_ifs <;> rfl

theorem compared_renumber (f : Int64 → Int64) (constructorFirst : Bool) (members : List Member) :
    compared ⟨moved, constructorFirst⟩ (members.map (·.renumber f)) =
      (compared ⟨sections, constructorFirst⟩ members).map (·.renumber f) := by
  cases members with
  | nil => rfl
  | cons member rest =>
    have hc : (member.renumber f).isConstructor = member.isConstructor := rfl
    simp only [List.map_cons, compared, hc]
    split_ifs <;> rfl

variable (hasc : sections.lines.Ascending) (hasc' : moved.lines.Ascending)
  (hlines : ∀ line, line ∈ moved.lines ↔ ∃ l ∈ sections.lines, f l = line)

include hasc hasc' hlines in
theorem checkMembers_renumber {first first' : Int64} (hfirst : SameAhead f sections first first')
    (last : Option Bytes) {members : List Member}
    (hmembers : ∀ m ∈ members, m.KeepsSections f sections) :
    checkMembers (moved.cursor first') last (members.map (·.renumber f)) =
      (checkMembers (sections.cursor first) last members).renumber f := by
  induction members generalizing first first' last with
  | nil => rfl
  | cons member rest ih =>
    obtain ⟨hmember, hrest⟩ := List.forall_mem_cons.mp hmembers
    by_cases hk : member.IsRecognized
    · have hk' : (member.renumber f).IsRecognized := hk
      have hname : (member.renumber f).name = member.name := rfl
      cases rest with
      | nil =>
        rw [List.map_singleton, checkMembers_singleton _ _ hk', checkMembers_singleton _ _ hk,
          hname, outOfOrder_renumber]
        rfl
      | cons next rest =>
        have hpassed := hfirst.passedFrom hmember
        have hopens := SameAhead.opens_iff hlines hpassed (hrest next (by simp)).1
        have hstep := ih hpassed
          (if sections.Opens (member.passedFrom first) next.span.start.line then none
            else some member.name) hrest
        rw [List.map_cons, List.map_cons, checkMembers_step hasc' _ _ hk',
          checkMembers_step hasc _ _ hk, Findings.renumber_andThen, ← hstep, hname,
          outOfOrder_renumber, List.map_cons]
        simp only [← hopens]
        rfl
    · have hk' : ¬ (member.renumber f).IsRecognized := hk
      rw [List.map_cons, checkMembers_cons_unrecognized _ _ hk',
        checkMembers_cons_unrecognized _ _ hk]
      rfl

include hasc hasc' hlines in
theorem checkAll_renumber (constructorFirst : Bool) {bodies : List ClassBody}
    (hbodies : ∀ body ∈ bodies,
      SameAhead f sections body.span.start.line (f body.span.start.line) ∧
        ∀ m ∈ body.members, m.KeepsSections f sections) :
    checkAll ⟨moved, constructorFirst⟩ (bodies.map (·.renumber f)) =
      (checkAll ⟨sections, constructorFirst⟩ bodies).renumber f := by
  induction bodies with
  | nil => rfl
  | cons body rest ih =>
    obtain ⟨⟨hstart, hmembers⟩, hrest⟩ := List.forall_mem_cons.mp hbodies
    have hsub := (compared_suffix ⟨sections, constructorFirst⟩ body.members).subset
    have hbody : check ⟨moved, constructorFirst⟩ (body.renumber f) =
        (check ⟨sections, constructorFirst⟩ body).renumber f := by
      rw [check, ClassBody.renumber, compared_renumber]
      exact checkMembers_renumber hasc hasc' hlines hstart none fun m hm => hmembers m (hsub hm)
    rw [List.map_cons, checkAll, checkAll, hbody, ih hrest, Findings.renumber_andThen]

end ClassChecker

end Walk

section Increasing

def Span.lines (span : Span) : List Int64 := [span.start.line, span.finish.line]

def Outline.lines (outline : Outline) : List Int64 :=
  outline.comments.flatMap (·.span.lines) ++
    outline.imports.flatMap (fun decl =>
      decl.span.lines ++ decl.specifiers.flatMap (·.span.lines)) ++
    outline.bodies.flatMap (fun body => body.span.lines ++ body.members.flatMap (·.span.lines))

def IncreasesOn (f : Int64 → Int64) (lines : List Int64) : Prop :=
  ∀ a ∈ lines, ∀ b ∈ lines, a < b → f a < f b

theorem IncreasesOn.le_iff {f : Int64 → Int64} {lines : List Int64} (h : IncreasesOn f lines)
    {a b : Int64} (ha : a ∈ lines) (hb : b ∈ lines) : a ≤ b ↔ f a ≤ f b := by
  constructor
  · intro hle
    by_cases hab : a = b
    · exact hab ▸ Int64.le_refl _
    · exact Int64.le_of_lt (h a ha b hb (Int64.lt_of_le_of_ne hle hab))
  · intro hle
    by_contra hlt
    have hgt := h b hb a ha (Int64.not_le.mp hlt)
    exact Int64.lt_irrefl (Int64.lt_of_lt_of_le hgt hle)

theorem IncreasesOn.add_one_le_iff {f : Int64 → Int64} {lines : List Int64}
    (h : IncreasesOn f lines) {a b : Int64} (ha : a ∈ lines) (hb : b ∈ lines)
    (hlast : a < Int64.maxValue) (hlast' : f a < Int64.maxValue) :
    a + 1 ≤ b ↔ f a + 1 ≤ f b := by
  have hnext : ∀ x y : Int64, x < Int64.maxValue → (x + 1 ≤ y ↔ x < y) := by
    intro x y hx
    grind
  rw [hnext a b hlast, hnext _ _ hlast', ← Int64.not_le, ← Int64.not_le, h.le_iff hb ha]

theorem isSectionLine_renumber (f : Int64 → Int64) (comments : List Comment) (delimiter : Bytes)
    (line : Int64) :
    IsSectionLine (comments.map (·.renumber f)) delimiter line ↔
      ∃ l, IsSectionLine comments delimiter l ∧ f l = line := by
  constructor
  · rintro ⟨moved, hmem, hblock, htext, hline⟩
    obtain ⟨comment, hcomment, rfl⟩ := List.mem_map.mp hmem
    exact ⟨_, ⟨comment, hcomment, hblock, htext, rfl⟩, hline⟩
  · rintro ⟨l, ⟨comment, hcomment, hblock, htext, rfl⟩, hline⟩
    exact ⟨comment.renumber f, List.mem_map_of_mem hcomment, hblock, htext, hline⟩

namespace Outline

variable {outline : Outline}

theorem mem_lines_of_isSectionLine {delimiter : Bytes} {line : Int64}
    (h : IsSectionLine outline.comments delimiter line) : line ∈ outline.lines := by
  obtain ⟨comment, hmem, -, -, rfl⟩ := h
  apply List.mem_append_left
  apply List.mem_append_left
  exact List.mem_flatMap.mpr ⟨comment, hmem, by simp [Span.lines]⟩

theorem start_mem_lines {body : ClassBody} (hbody : body ∈ outline.bodies) :
    body.span.start.line ∈ outline.lines := by
  apply List.mem_append_right
  exact List.mem_flatMap.mpr ⟨body, hbody, by simp [Span.lines]⟩

theorem member_lines_subset {body : ClassBody} (hbody : body ∈ outline.bodies) {member : Member}
    (hmember : member ∈ body.members) : member.span.lines ⊆ outline.lines := by
  intro line hline
  apply List.mem_append_right
  refine List.mem_flatMap.mpr ⟨body, hbody, List.mem_append_right _ ?_⟩
  exact List.mem_flatMap.mpr ⟨member, hmember, hline⟩

theorem check_renumber_of_increasesOn {f : Int64 → Int64} (hf : IncreasesOn f outline.lines)
    (hends : ∀ body ∈ outline.bodies, ∀ m ∈ body.members,
      m.span.finish.line < Int64.maxValue ∧ f m.span.finish.line < Int64.maxValue)
    (options : Options) :
    (outline.renumber f).check options = (outline.check options).renumber f := by
  have hmem : ∀ line ∈ (SectionMap.ofComments outline.comments options.delimiter).lines,
      line ∈ outline.lines :=
    fun line hline => mem_lines_of_isSectionLine (SectionMap.mem_ofComments.mp hline)
  rw [check, check, Findings.renumber_andThen, renumber, ImportChecker.checkAll_renumber]
  congr 1
  apply ClassChecker.checkAll_renumber (SectionMap.ofComments_ascending _ _)
    (SectionMap.ofComments_ascending _ _)
  · intro line
    simp only [SectionMap.mem_ofComments, isSectionLine_renumber]
  · intro body hbody
    refine ⟨fun line hline => hf.le_iff (start_mem_lines hbody) (hmem line hline), ?_⟩
    intro m hm
    have hsub := member_lines_subset hbody hm
    refine ⟨fun line hline => hf.le_iff (hsub (by simp [Span.lines])) (hmem line hline), ?_⟩
    intro line hline
    obtain ⟨hlast, hlast'⟩ := hends body hbody m hm
    exact hf.add_one_le_iff (hsub (by simp [Span.lines])) (hmem line hline) hlast hlast'

end Outline

def moveLine (f : ℤ → ℤ) (line : Int64) : Int64 := Int64.ofInt (f line.toInt)

theorem toInt_moveLine {f : ℤ → ℤ} {line : Int64}
    (h : Int64.minValue.toInt ≤ f line.toInt ∧ f line.toInt ≤ Int64.maxValue.toInt) :
    (moveLine f line).toInt = f line.toInt := by
  have hmin : Int64.minValue.toInt = -2 ^ 63 := by decide
  have hmax : Int64.maxValue.toInt = 2 ^ 63 - 1 := by decide
  exact Int64.toInt_ofInt_of_le (by omega) (by omega)

theorem increasesOn_moveLine {f : ℤ → ℤ} (hf : StrictMono f) {lines : List Int64}
    (h : ∀ line ∈ lines,
      Int64.minValue.toInt ≤ f line.toInt ∧ f line.toInt ≤ Int64.maxValue.toInt) :
    IncreasesOn (moveLine f) lines := by
  intro a ha b hb hab
  rw [Int64.lt_iff_toInt_lt, toInt_moveLine (h a ha), toInt_moveLine (h b hb)]
  exact hf (Int64.lt_iff_toInt_lt.mp hab)

end Increasing

namespace Outline

open ClassChecker (methodOn sectionOn)

/-- Two nodes stand at one place of their outlines. -/
def SameNode (outline other : Outline) (node node' : Anchor) : Prop :=
  ∃ place, outline.node? place = some node ∧ other.node? place = some node'

theorem sameNode_renumber (f : Int64 → Int64) {outline : Outline} {place : Place} {node : Anchor}
    (h : outline.node? place = some node) :
    SameNode outline (outline.renumber f) node (node.renumber f) :=
  ⟨place, h, by rw [node?_renumber, h, Option.map_some]⟩

theorem violations_sameNode_renumber (f : Int64 → Int64) (outline : Outline) (options : Options) :
    List.Forall₂
      (fun v w => v.code = w.code ∧ SameNode outline (outline.renumber f) v.anchor w.anchor)
      (outline.check options).violations ((outline.check options).renumber f).violations := by
  rw [Findings.renumber, List.forall₂_map_right_iff, List.forall₂_same]
  intro v hv
  obtain ⟨place, hplace⟩ := (check_all_placed outline options).violations v hv
  exact ⟨rfl, sameNode_renumber f hplace⟩

theorem failure_sameNode_renumber (f : Int64 → Int64) (outline : Outline) (options : Options) :
    Option.Rel
      (fun e e' => e.what = e'.what ∧ e.kind = e'.kind ∧
        ∃ node ∈ e.node, ∃ node' ∈ e'.node, SameNode outline (outline.renumber f) node node')
      (outline.check options).failure ((outline.check options).renumber f).failure := by
  rw [Findings.renumber]
  cases he : (outline.check options).failure with
  | none => exact .none
  | some e =>
    obtain ⟨place, node, hnode, hplace⟩ := (check_all_placed outline options).failure e he
    refine .some ⟨rfl, rfl, node, hnode, node.renumber f, ?_, sameNode_renumber f hplace⟩
    simp only [UnrecognizedKind.renumber, hnode, Option.map_some, Option.mem_some_iff]

/-- A strictly increasing renumbering that stays in the range of line numbers only renumbers the
findings: the same codes stand on the nodes at the same places, and so does a failure. -/
theorem check_renumber (outline : Outline) (options : Options) (f : ℤ → ℤ) (hf : StrictMono f)
    (hlines : ∀ line ∈ outline.lines,
      Int64.minValue.toInt ≤ f line.toInt ∧ f line.toInt ≤ Int64.maxValue.toInt)
    (hends : ∀ body ∈ outline.bodies, ∀ m ∈ body.members,
      m.span.finish.line.toInt < Int64.maxValue.toInt ∧
        f m.span.finish.line.toInt < Int64.maxValue.toInt) :
    let moved := outline.renumber (moveLine f)
    moved.check options = (outline.check options).renumber (moveLine f) ∧
      List.Forall₂ (fun v w => v.code = w.code ∧ SameNode outline moved v.anchor w.anchor)
        (outline.check options).violations (moved.check options).violations ∧
      Option.Rel (fun e e' => e.what = e'.what ∧ e.kind = e'.kind ∧
          ∃ node ∈ e.node, ∃ node' ∈ e'.node, SameNode outline moved node node')
        (outline.check options).failure (moved.check options).failure := by
  intro moved
  have hcheck : moved.check options = (outline.check options).renumber (moveLine f) := by
    apply check_renumber_of_increasesOn (increasesOn_moveLine hf hlines)
    intro body hbody m hm
    have hmem : m.span.finish.line ∈ outline.lines :=
      member_lines_subset hbody hm (by simp [Span.lines])
    rw [Int64.lt_iff_toInt_lt, Int64.lt_iff_toInt_lt, toInt_moveLine (hlines _ hmem)]
    exact hends body hbody m hm
  rw [hcheck]
  exact ⟨rfl, violations_sameNode_renumber _ outline options,
    failure_sameNode_renumber _ outline options⟩

def insertBlank (before : ℤ) (count : ℕ) (line : ℤ) : ℤ :=
  if line < before then line else line + count

theorem insertBlank_strictMono (before : ℤ) (count : ℕ) :
    StrictMono (insertBlank before count) := by
  intro a b hab
  simp only [insertBlank]
  split_ifs <;> omega

def staticBlock : Member := ⟨.unrecognized (utf8 "class_static_block"), [], ⟨⟨9, 2⟩, ⟨9, 11⟩⟩⟩

-- The blank lines fall between the first method and the section line below it.
def stoppedOutline : Outline where
  path := utf8 "stopped.js"
  comments := [sectionOn 3]
  imports := []
  bodies := [⟨[methodOn 1 2 "c", methodOn 4 4 "b", methodOn 2 2 "A", staticBlock],
    ⟨⟨1, 0⟩, ⟨10, 1⟩⟩⟩]

theorem stoppedOutline_check_renumber :
    StrictMono (insertBlank 3 2) ∧
    (∀ line ∈ stoppedOutline.lines, Int64.minValue.toInt ≤ insertBlank 3 2 line.toInt ∧
      insertBlank 3 2 line.toInt ≤ Int64.maxValue.toInt) ∧
    (∀ body ∈ stoppedOutline.bodies, ∀ m ∈ body.members,
      m.span.finish.line.toInt < Int64.maxValue.toInt ∧
        insertBlank 3 2 m.span.finish.line.toInt < Int64.maxValue.toInt) ∧
    stoppedOutline.check ⟨[], true⟩ =
      ⟨[⟨.sortClassBody, .member (methodOn 2 2 "A")⟩], some (.ofMember staticBlock)⟩ ∧
    (stoppedOutline.renumber (moveLine (insertBlank 3 2))).check ⟨[], true⟩ =
      (stoppedOutline.check ⟨[], true⟩).renumber (moveLine (insertBlank 3 2)) := by
  have hsmall : ∀ line ∈ stoppedOutline.lines, 0 ≤ line.toInt ∧ line.toInt ≤ 10 := by
    have hall : stoppedOutline.lines = [3, 3, 1, 10, 1, 2, 4, 4, 2, 2, 9, 9] := rfl
    simp [hall]
  have hlines : ∀ line ∈ stoppedOutline.lines, Int64.minValue.toInt ≤ insertBlank 3 2 line.toInt ∧
      insertBlank 3 2 line.toInt ≤ Int64.maxValue.toInt := by
    intro line hline
    have hrange := hsmall line hline
    have hmin : Int64.minValue.toInt = -2 ^ 63 := by decide
    have hmax : Int64.maxValue.toInt = 2 ^ 63 - 1 := by decide
    simp only [insertBlank]
    split_ifs <;> omega
  have hends : ∀ body ∈ stoppedOutline.bodies, ∀ m ∈ body.members,
      m.span.finish.line.toInt < Int64.maxValue.toInt ∧
        insertBlank 3 2 m.span.finish.line.toInt < Int64.maxValue.toInt := by
    decide
  have hmono := insertBlank_strictMono 3 2
  refine ⟨hmono, hlines, hends, by decide +kernel, ?_⟩
  exact (check_renumber stoppedOutline ⟨[], true⟩ _ hmono hlines hends).1

end Outline

end OrderLint
