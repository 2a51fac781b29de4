import OrderLint.Proofs.ImportOrder

/-!
# Where findings come from

Every finding points at a node of the outline: a violation of the class check at a member, one of
the import check at a declaration or at one of its specifiers, and a failure at the node that has an
unrecognized kind. The rule for class members is reported by the class check and by nothing else,
so the violations of the two checks can be told apart by their codes.
-/
namespace OrderLint

/-- The address of a node, by positions in the lists of an outline. -/
inductive Place where
  | declaration (i : ℕ)
  | specifier (i j : ℕ)
  | member (i j : ℕ)

def Outline.node? (outline : Outline) : Place → Option Anchor
  | .declaration i => outline.imports[i]?.map .declaration
  | .specifier i j => (outline.imports[i]?.bind (·.specifiers[j]?)).map .specifier
  | .member i j => (outline.bodies[i]?.bind (·.members[j]?)).map .member

def Findings.importViolations (findings : Findings) : List Violation :=
  findings.violations.filter fun v => v.code ≠ .sortClassBody

def Findings.classViolations (findings : Findings) : List Violation :=
  findings.violations.filter fun v => v.code = .sortClassBody

structure Findings.All (P : Violation → Prop) (Q : UnrecognizedKind → Prop) (findings : Findings) :
    Prop where
  violations : ∀ v ∈ findings.violations, P v
  failure : ∀ e ∈ findings.failure, Q e

namespace Findings.All

variable {P P' : Violation → Prop} {Q Q' : UnrecognizedKind → Prop}

theorem empty : All P Q {} := ⟨by simp, by simp⟩

theorem andThen {first second : Findings} (h : first.All P Q) (h' : second.All P Q) :
    (first.andThen second).All P Q := by
  obtain ⟨vs, _ | e⟩ := first
  · refine ⟨?_, h'.failure⟩
    intro v hv
    rcases List.mem_append.mp hv with hv | hv
    · exact h.violations v hv
    · exact h'.violations v hv
  · exact h

theorem imp {findings : Findings} (h : findings.All P Q) (hP : ∀ v, P v → P' v)
    (hQ : ∀ e, Q e → Q' e) : findings.All P' Q' :=
  ⟨fun v hv => hP v (h.violations v hv), fun e he => hQ e (h.failure e he)⟩

end Findings.All

namespace ClassChecker

theorem mem_outOfOrder {last : Option Bytes} {key : Bytes} {member : Member} {v : Violation}
    (hv : v ∈ outOfOrder last key member) : v = ⟨.sortClassBody, .member member⟩ := by
  unfold outOfOrder at hv
  split at hv
  · split at hv
    · simpa using hv
    · simp at hv
  · simp at hv

theorem checkMembers_all (cursor : SectionCursor) (last : Option Bytes) (members : List Member) :
    (checkMembers cursor last members).All
      (fun v => ∃ m ∈ members, v = ⟨.sortClassBody, .member m⟩)
      (fun e => ∃ m ∈ members, e = .ofMember m) := by
  induction members generalizing cursor last with
  | nil => exact .empty
  | cons member rest ih =>
    rw [checkMembers]
    by_cases hk : member.IsRecognized
    · simp only [Member.sortKey_of_isRecognized hk]
      refine Findings.All.andThen ⟨?_, by simp⟩ ((ih _ _).imp ?_ ?_)
      · intro v hv
        exact ⟨member, by simp, mem_outOfOrder hv⟩
      · rintro v ⟨m, hm, hv⟩
        exact ⟨m, List.mem_cons_of_mem _ hm, hv⟩
      · rintro e ⟨m, hm, he⟩
        exact ⟨m, List.mem_cons_of_mem _ hm, he⟩
    · simp only [Member.sortKey_of_not_isRecognized hk]
      exact ⟨by simp, by simp⟩

theorem checkAll_all (checker : ClassChecker) (bodies : List ClassBody) :
    (checker.checkAll bodies).All
      (fun v => ∃ body ∈ bodies, ∃ m ∈ body.members, v = ⟨.sortClassBody, .member m⟩)
      (fun e => ∃ body ∈ bodies, ∃ m ∈ body.members, e = .ofMember m) := by
  induction bodies with
  | nil => exact .empty
  | cons body rest ih =>
    have hsub := (checker.compared_suffix body.members).subset
    refine Findings.All.andThen ((checkMembers_all _ _ _).imp ?_ ?_) (ih.imp ?_ ?_)
    · rintro v ⟨m, hm, hv⟩
      exact ⟨body, by simp, m, hsub hm, hv⟩
    · rintro e ⟨m, hm, he⟩
      exact ⟨body, by simp, m, hsub hm, he⟩
    · rintro v ⟨other, hother, hv⟩
      exact ⟨other, List.mem_cons_of_mem _ hother, hv⟩
    · rintro e ⟨other, hother, he⟩
      exact ⟨other, List.mem_cons_of_mem _ hother, he⟩

end ClassChecker

namespace ImportChecker

/-- A violation of an import: on the declaration or on one of its specifiers, and never by the rule
for class members. -/
def IsOwn (decl : ImportDecl) (v : Violation) : Prop :=
  v.code ≠ .sortClassBody ∧
    (v.anchor = .declaration decl ∨ ∃ s ∈ decl.specifiers, v.anchor = .specifier s)

theorem check_all (checker : ImportChecker) (decl : ImportDecl) :
    (checker.check decl).1.All (IsOwn decl)
      (fun e => ∃ s ∈ decl.specifiers, e = .ofSpecifier s) := by
  by_cases h : decl.IsRecognized
  · rw [checker.check_of_isRecognized h]
    refine ⟨?_, by simp⟩
    intro v hv
    rcases List.mem_append.mp hv with hv | hv
    · obtain ⟨s, hs, rfl⟩ := List.mem_map.mp hv
      have hmem : s ∈ decl.namedSpecifiers := mem_of_mem_elementsAt hs
      exact ⟨by simp, .inr ⟨s, List.mem_of_mem_filter hmem, rfl⟩⟩
    · obtain ⟨hanchor, prior, -, hbreaks⟩ := mem_declarationViolations.mp hv
      refine ⟨?_, .inl hanchor⟩
      intro hcode
      rw [hcode] at hbreaks
      cases hbreaks
  · obtain ⟨before, s, ⟨⟨after, hs⟩, -, -⟩, hcheck⟩ := checker.exists_check_of_not_isRecognized h
    rw [hcheck]
    refine ⟨by simp, ?_⟩
    intro e he
    exact ⟨s, by simp [hs], by simpa using he.symm⟩

theorem checkAll_all (checker : ImportChecker) (decls : List ImportDecl) :
    (checker.checkAll decls).All (fun v => ∃ decl ∈ decls, IsOwn decl v)
      (fun e => ∃ decl ∈ decls, ∃ s ∈ decl.specifiers, e = .ofSpecifier s) := by
  induction decls generalizing checker with
  | nil => exact .empty
  | cons decl rest ih =>
    refine Findings.All.andThen ((checker.check_all decl).imp ?_ ?_) ((ih _).imp ?_ ?_)
    · intro v hv
      exact ⟨decl, by simp, hv⟩
    · intro e he
      exact ⟨decl, by simp, he⟩
    · rintro v ⟨other, hother, hv⟩
      exact ⟨other, List.mem_cons_of_mem _ hother, hv⟩
    · rintro e ⟨other, hother, he⟩
      exact ⟨other, List.mem_cons_of_mem _ hother, he⟩

end ImportChecker

namespace Outline

variable {outline : Outline}

theorem exists_node?_declaration {decl : ImportDecl} (hdecl : decl ∈ outline.imports) :
    ∃ place, outline.node? place = some (.declaration decl) := by
  obtain ⟨i, hi⟩ := List.mem_iff_getElem?.mp hdecl
  exact ⟨.declaration i, by simp [node?, hi]⟩

theorem exists_node?_specifier {decl : ImportDecl} (hdecl : decl ∈ outline.imports)
    {s : Specifier} (hs : s ∈ decl.specifiers) :
    ∃ place, outline.node? place = some (.specifier s) := by
  obtain ⟨i, hi⟩ := List.mem_iff_getElem?.mp hdecl
  obtain ⟨j, hj⟩ := List.mem_iff_getElem?.mp hs
  exact ⟨.specifier i j, by simp [node?, hi, hj]⟩

theorem exists_node?_member {body : ClassBody} (hbody : body ∈ outline.bodies)
    {m : Member} (hm : m ∈ body.members) : ∃ place, outline.node? place = some (.member m) := by
  obtain ⟨i, hi⟩ := List.mem_iff_getElem?.mp hbody
  obtain ⟨j, hj⟩ := List.mem_iff_getElem?.mp hm
  exact ⟨.member i j, by simp [node?, hi, hj]⟩

/-- Every finding points at a node of the outline. -/
theorem check_all_placed (outline : Outline) (options : Options) :
    (outline.check options).All (fun v => ∃ place, outline.node? place = some v.anchor)
      (fun e => ∃ place anchor, e.node = some anchor ∧ outline.node? place = some anchor) := by
  refine Findings.All.andThen ((ImportChecker.checkAll_all _ _).imp ?_ ?_)
    ((ClassChecker.checkAll_all _ _).imp ?_ ?_)
  · rintro v ⟨decl, hdecl, -, hanchor | ⟨s, hs, hanchor⟩⟩
    · exact hanchor ▸ exists_node?_declaration hdecl
    · exact hanchor ▸ exists_node?_specifier hdecl hs
  · rintro e ⟨decl, hdecl, s, hs, rfl⟩
    obtain ⟨place, hplace⟩ := exists_node?_specifier hdecl hs
    exact ⟨place, _, rfl, hplace⟩
  · rintro v ⟨body, hbody, m, hm, rfl⟩
    exact exists_node?_member hbody hm
  · rintro e ⟨body, hbody, m, hm, rfl⟩
    obtain ⟨place, hplace⟩ := exists_node?_member hbody hm
    exact ⟨place, _, rfl, hplace⟩

theorem importViolations_check (outline : Outline) (options : Options) :
    (outline.check options).importViolations =
      (ImportChecker.checkAll {} outline.imports).violations := by
  have himports := (ImportChecker.checkAll_all {} outline.imports).violations
  have hclasses := ((outline.classChecker options).checkAll_all outline.bodies).violations
  have hself : (ImportChecker.checkAll {} outline.imports).violations.filter
      (fun v => v.code ≠ .sortClassBody) =
        (ImportChecker.checkAll {} outline.imports).violations := by
    apply List.filter_eq_self.mpr
    intro v hv
    obtain ⟨decl, -, hcode, -⟩ := himports v hv
    simpa using hcode
  have hnone : ((outline.classChecker options).checkAll outline.bodies).violations.filter
      (fun v => v.code ≠ .sortClassBody) = [] := by
    apply List.filter_eq_nil_iff.mpr
    intro v hv
    obtain ⟨body, -, m, -, rfl⟩ := hclasses v hv
    simp
  rw [Findings.importViolations, check, Findings.andThen]
  split
  · exact hself
  · rw [List.filter_append, hself, hnone, List.append_nil]

end Outline

end OrderLint
