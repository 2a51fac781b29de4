import OrderLint.Check
import OrderLint.Proofs.Sequence

/-!
# Recognized kinds and failing checks

A check fails on a node whose kind is outside the taxonomy and on nothing else. The predicates
below say which nodes, declarations, bodies and outlines the checks accept; classification and
member keys are settled by them. Findings are composed one after the other, and what follows a
failure is not looked at.
-/
namespace OrderLint

def SpecifierKind.IsRecognized (kind : SpecifierKind) : Prop :=
  kind = .named ∨ kind = .wildcard ∨ kind = .default

instance : DecidablePred SpecifierKind.IsRecognized :=
  fun _ => inferInstanceAs (Decidable (_ ∨ _))

def MemberKind.IsRecognized (kind : MemberKind) : Prop := kind = .method ∨ kind = .property

instance : DecidablePred MemberKind.IsRecognized :=
  fun _ => inferInstanceAs (Decidable (_ ∨ _))

def Specifier.IsRecognized (specifier : Specifier) : Prop := specifier.kind.IsRecognized

instance : DecidablePred Specifier.IsRecognized :=
  fun specifier => inferInstanceAs (Decidable specifier.kind.IsRecognized)

def Member.IsRecognized (member : Member) : Prop := member.kind.IsRecognized

instance : DecidablePred Member.IsRecognized :=
  fun member => inferInstanceAs (Decidable member.kind.IsRecognized)

def ImportDecl.IsRecognized (decl : ImportDecl) : Prop := ∀ s ∈ decl.specifiers, s.IsRecognized

instance : DecidablePred ImportDecl.IsRecognized :=
  fun decl => inferInstanceAs (Decidable (∀ s ∈ decl.specifiers, s.IsRecognized))

def ClassBody.IsRecognized (body : ClassBody) : Prop := ∀ m ∈ body.members, m.IsRecognized

instance : DecidablePred ClassBody.IsRecognized :=
  fun body => inferInstanceAs (Decidable (∀ m ∈ body.members, m.IsRecognized))

structure Outline.IsRecognized (outline : Outline) : Prop where
  imports : ∀ decl ∈ outline.imports, decl.IsRecognized
  bodies : ∀ body ∈ outline.bodies, body.IsRecognized

instance : DecidablePred Outline.IsRecognized := fun outline =>
  decidable_of_iff
    ((∀ decl ∈ outline.imports, decl.IsRecognized) ∧ ∀ body ∈ outline.bodies, body.IsRecognized)
    ⟨fun h => ⟨h.1, h.2⟩, fun h => ⟨h.1, h.2⟩⟩

theorem SpecifierKind.bucket?_eq_none_iff (kind : SpecifierKind) :
    kind.bucket? = none ↔ ¬ kind.IsRecognized := by
  cases kind <;> simp [bucket?, IsRecognized]

theorem SpecifierKind.isRecognized_ofTag_iff (tag : Bytes) :
    (ofTag tag).IsRecognized ↔
      tag = utf8 "named" ∨ tag = utf8 "namespace" ∨ tag = utf8 "default" := by
  unfold ofTag
  split_ifs <;> simp_all [IsRecognized]

namespace ImportDecl

theorem unrecognized?_eq_some_iff {decl : ImportDecl} {specifier : Specifier} :
    decl.unrecognized? = some specifier ↔
      ∃ before, FirstNot Specifier.IsRecognized decl.specifiers before specifier := by
  simp only [unrecognized?, List.find?_eq_some_iff_append, Option.isNone_iff_eq_none,
    SpecifierKind.bucket?_eq_none_iff, FirstNot, Specifier.IsRecognized, Bool.not_eq_true',
    Bool.eq_false_iff, ne_eq, not_not]
  constructor
  · rintro ⟨hs, before, after, he, hb⟩
    exact ⟨before, ⟨after, he⟩, hb, hs⟩
  · rintro ⟨before, ⟨after, he⟩, hb, hs⟩
    exact ⟨hs, before, after, he, hb⟩

theorem unrecognized?_eq_none_iff {decl : ImportDecl} :
    decl.unrecognized? = none ↔ decl.IsRecognized := by
  simp only [unrecognized?, List.find?_eq_none, Option.isNone_iff_eq_none,
    SpecifierKind.bucket?_eq_none_iff, not_not, IsRecognized, Specifier.IsRecognized]

theorem classify_of_isRecognized {decl : ImportDecl} (h : decl.IsRecognized) :
    decl.classify = .ok decl.record := by
  simp only [classify, unrecognized?_eq_none_iff.mpr h]

theorem classify_of_firstNot {decl : ImportDecl} {before : List Specifier} {specifier : Specifier}
    (h : FirstNot Specifier.IsRecognized decl.specifiers before specifier) :
    decl.classify = .error (.ofSpecifier specifier) := by
  simp only [classify, unrecognized?_eq_some_iff.mpr ⟨before, h⟩]

end ImportDecl

namespace Member

theorem sortKey_of_isRecognized {member : Member} (h : member.IsRecognized) :
    member.sortKey = .ok member.name := by
  rcases h with h | h <;> simp only [sortKey, h]

theorem sortKey_of_not_isRecognized {member : Member} (h : ¬ member.IsRecognized) :
    member.sortKey = .error (.ofMember member) := by
  cases hk : member.kind with
  | method => exact absurd (Or.inl hk) h
  | property => exact absurd (Or.inr hk) h
  | unrecognized tag => simp only [sortKey, hk]

theorem not_isConstructor_of_not_isRecognized {member : Member} (h : ¬ member.IsRecognized) :
    member.isConstructor = false := by
  have hk : member.kind ≠ .method := fun hk => h (Or.inl hk)
  simp [isConstructor, hk]

end Member

namespace Findings

@[simp] theorem andThen_success (violations : List Violation) (second : Findings) :
    andThen ⟨violations, none⟩ second = ⟨violations ++ second.violations, second.failure⟩ := rfl

@[simp] theorem andThen_failure (violations : List Violation) (e : UnrecognizedKind)
    (second : Findings) : andThen ⟨violations, some e⟩ second = ⟨violations, some e⟩ := rfl

theorem andThen_of_success {first : Findings} (h : first.failure = none) (second : Findings) :
    first.andThen second = ⟨first.violations ++ second.violations, second.failure⟩ := by
  obtain ⟨vs, f⟩ := first
  cases h
  rfl

theorem andThen_assoc (first second third : Findings) :
    (first.andThen second).andThen third = first.andThen (second.andThen third) := by
  obtain ⟨vs, _ | e⟩ := first
  · obtain ⟨ws, _ | e⟩ := second <;> simp
  · rfl

theorem andThen_empty (findings : Findings) : findings.andThen {} = findings := by
  obtain ⟨vs, _ | e⟩ := findings <;> simp

theorem empty_andThen (findings : Findings) : andThen {} findings = findings := by
  simp

theorem andThen_eq_empty_iff (first second : Findings) :
    first.andThen second = {} ↔ first = {} ∧ second = {} := by
  obtain ⟨vs, _ | e⟩ := first
  · obtain ⟨ws, f⟩ := second
    simp [and_assoc]
  · simp

end Findings

namespace ClassChecker

theorem compared_suffix (checker : ClassChecker) (members : List Member) :
    checker.compared members <:+ members := by
  cases members with
  | nil => exact List.suffix_refl _
  | cons first rest =>
    simp only [compared]
    split_ifs
    · exact List.suffix_cons first rest
    · exact List.suffix_refl _

theorem checkAll_append (checker : ClassChecker) (before after : List ClassBody) :
    checker.checkAll (before ++ after) =
      (checker.checkAll before).andThen (checker.checkAll after) := by
  induction before with
  | nil => exact (Findings.empty_andThen _).symm
  | cons body rest ih => simp only [List.cons_append, checkAll, ih, Findings.andThen_assoc]

theorem checkAll_eq_empty_iff (checker : ClassChecker) (bodies : List ClassBody) :
    checker.checkAll bodies = {} ↔ ∀ body ∈ bodies, checker.check body = {} := by
  induction bodies with
  | nil => simp [checkAll]
  | cons body rest ih => simp only [checkAll, Findings.andThen_eq_empty_iff, ih, List.forall_mem_cons]

end ClassChecker

end OrderLint
