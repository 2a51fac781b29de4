import OrderLint.Proofs.ClassOrder
import OrderLint.Proofs.ImportOrder

/-!
# Clean outlines are sorted

The checks only ever compare neighbours. Nevertheless a clean answer means that every two imports,
every two named specifiers of an import and every two members of a section are in order, however
far apart they stand. For class members there are two ways to say that a section opens between
the members at `i` and `j`: on some line after the end of the one and before the start of the
other, or in a gap between two neighbours from `i` to `j`, so that the lines inside a member do not
count. On bodies whose lines ascend a clean answer gives the order for the larger class of pairs
and follows from it for the smaller one.
-/
namespace OrderLint

section Members

variable (comments : List Comment) (delimiter : Bytes)

def SectionBetween (members : List Member) (i j : ℕ) : Prop :=
  ∃ a ∈ members[i]?, ∃ b ∈ members[j]?, Separated comments delimiter a b

def SectionInGap (members : List Member) (i j : ℕ) : Prop :=
  ∃ k, i ≤ k ∧ k < j ∧ SectionBetween comments delimiter members k (k + 1)

/-- Every two members ascend by name, unless the earlier one is exempt or the two are apart. -/
def AscendsUnless (constructorFirst : Bool) (members : List Member) (apart : ℕ → ℕ → Prop) :
    Prop :=
  ∀ i j, i < j → ∀ a ∈ members[i]?, ∀ b ∈ members[j]?,
    ¬ IsExempt constructorFirst members i → ¬ apart i j → a.name ≤ b.name

variable {comments delimiter} {constructorFirst : Bool} {members : List Member}

theorem name_le_of_not_misplaced {k : ℕ} {a b : Member} (ha : members[k]? = some a)
    (hb : members[k + 1]? = some b)
    (h : ¬ Misplaced comments delimiter constructorFirst members (k + 1))
    (hx : ¬ IsExempt constructorFirst members k) (hs : ¬ Separated comments delimiter a b) :
    a.name ≤ b.name := by
  intro hlt
  exact h ⟨⟨Nat.succ_pos k, a, ha, b, hb, hlt, hs⟩, hx⟩

theorem ascendsUnless_sectionInGap
    (h : ∀ k < members.length, ¬ Misplaced comments delimiter constructorFirst members k) :
    AscendsUnless constructorFirst members (SectionInGap comments delimiter members) := by
  intro i j hij a ha b hb hx hgap
  -- Names ascend from each member to the next; only position 0 can be exempt, and `i` is not.
  induction j generalizing b with
  | zero => omega
  | succ j ih =>
    obtain ⟨hlen, -⟩ := List.getElem?_eq_some_iff.mp hb
    have hj : members[j]? = some members[j] := List.getElem?_eq_getElem (by omega)
    have hlast : ¬ Separated comments delimiter members[j] b :=
      fun hs => hgap ⟨j, by omega, by omega, _, hj, b, hb, hs⟩
    have hstep := fun hxj => name_le_of_not_misplaced hj hb (h (j + 1) hlen) hxj hlast
    rcases Nat.lt_succ_iff_lt_or_eq.mp hij with hlt | rfl
    · have hprior : a.name ≤ members[j].name := by
        apply ih hlt _ hj
        rintro ⟨k, hik, hkj, hk⟩
        exact hgap ⟨k, hik, by omega, hk⟩
      have hxj : ¬ IsExempt constructorFirst members j := fun he => by
        have hzero := he.1
        omega
      exact List.le_trans hprior (hstep hxj)
    · obtain rfl : members[i] = a := Option.some.inj (hj.symm.trans ha)
      exact hstep hx

theorem not_misplaced_of_ascendsUnless
    (h : AscendsUnless constructorFirst members (SectionBetween comments delimiter members))
    (k : ℕ) : ¬ Misplaced comments delimiter constructorFirst members k := by
  rintro ⟨⟨hk, a, ha, b, hb, hlt, hs⟩, hx⟩
  refine h (k - 1) k (by omega) a ha b hb hx ?_ hlt
  rintro ⟨a', ha', b', hb', hs'⟩
  obtain rfl : a = a' := Option.some.inj (ha.symm.trans ha')
  obtain rfl : b = b' := Option.some.inj (hb.symm.trans hb')
  exact hs hs'

end Members

section Layout

variable {comments : List Comment} {delimiter : Bytes} {constructorFirst : Bool} {body : ClassBody}

theorem ClassBody.WellLaidOut.span_le_span (h : body.WellLaidOut) {i k : ℕ} (hik : i ≤ k)
    {a b : Member} (ha : body.members[i]? = some a) (hb : body.members[k]? = some b) :
    a.span.finish.line ≤ b.span.finish.line ∧ a.span.start.line ≤ b.span.start.line := by
  obtain ⟨hi, rfl⟩ := List.getElem?_eq_some_iff.mp ha
  obtain ⟨hk, rfl⟩ := List.getElem?_eq_some_iff.mp hb
  rcases Nat.eq_or_lt_of_le hik with rfl | hlt
  · exact ⟨Int64.le_refl _, Int64.le_refl _⟩
  · have hgap := List.pairwise_iff_getElem.mp h.finish_le_start i k hi hk hlt
    have hspan := (h.spans _ (List.getElem_mem hi)).1
    have hspan' := (h.spans _ (List.getElem_mem hk)).1
    exact ⟨Int64.le_trans hgap hspan', Int64.le_trans hspan hgap⟩

theorem sectionBetween_of_sectionInGap (h : body.WellLaidOut) {i j : ℕ}
    (hj : j < body.members.length) (hs : SectionInGap comments delimiter body.members i j) :
    SectionBetween comments delimiter body.members i j := by
  obtain ⟨k, hik, hkj, a, ha, b, hb, line, hline, hafter, hbefore⟩ := hs
  have hi : body.members[i]? = some body.members[i] := List.getElem?_eq_getElem (by omega)
  have hj' : body.members[j]? = some body.members[j] := List.getElem?_eq_getElem hj
  refine ⟨_, hi, _, hj', line, hline, ?_, ?_⟩
  · exact Int64.lt_of_le_of_lt (h.span_le_span hik hi ha).1 hafter
  · exact Int64.lt_of_lt_of_le hbefore (h.span_le_span hkj hb hj').2

theorem ascendsUnless_sectionBetween (h : body.WellLaidOut)
    (ha : AscendsUnless constructorFirst body.members
      (SectionInGap comments delimiter body.members)) :
    AscendsUnless constructorFirst body.members
      (SectionBetween comments delimiter body.members) := by
  intro i j hij a hai b hbj hx hs
  obtain ⟨hj, -⟩ := List.getElem?_eq_some_iff.mp hbj
  exact ha i j hij a hai b hbj hx fun hgap => hs (sectionBetween_of_sectionInGap h hj hgap)

theorem ClassChecker.check_eq_empty_iff (hkinds : body.IsRecognized) (hlayout : body.WellLaidOut) :
    check ⟨SectionMap.ofComments comments delimiter, constructorFirst⟩ body = {} ↔
      ∀ k < body.members.length,
        ¬ Misplaced comments delimiter constructorFirst body.members k := by
  rw [check_of_wellLaidOut constructorFirst hkinds hlayout, ← elementsAt_misplaced,
    ← elementsAt_eq_nil_iff]
  simp

end Layout

theorem declarationViolations_eq_nil_iff (prior : ImportRecord) (decl : ImportDecl) :
    declarationViolations (some prior) decl = [] ↔ prior.Precedes decl.record := by
  rw [← brokenRule?_eq_none_iff, declarationViolations]
  cases brokenRule? prior decl.record <;> simp

theorem followers_nameDescends_eq_nil_iff (specifiers : List Specifier) :
    followers Specifier.NameDescends specifiers = [] ↔
      specifiers.Pairwise fun a b => lower a.binding ≤ lower b.binding := by
  let R : Specifier → Specifier → Prop := fun a b => lower a.binding ≤ lower b.binding
  have : Trans R R R := ⟨fun hab hbc => List.le_trans hab hbc⟩
  rw [followers_eq_nil_iff]
  exact List.isChain_iff_pairwise (R := R)

namespace ImportChecker

theorem check_eq_empty_iff (checker : ImportChecker) {decl : ImportDecl} (h : decl.IsRecognized) :
    (checker.check decl).1 = {} ↔
      (decl.namedSpecifiers.Pairwise fun a b => lower a.binding ≤ lower b.binding) ∧
        declarationViolations checker.last decl = [] := by
  rw [checker.check_of_isRecognized h, ← followers_nameDescends_eq_nil_iff]
  simp

theorem checkAll_eq_empty_iff (prior : ImportRecord) {decls : List ImportDecl}
    (h : ∀ decl ∈ decls, decl.IsRecognized) :
    checkAll ⟨some prior⟩ decls = {} ↔
      List.IsChain ImportRecord.Precedes (prior :: decls.map ImportDecl.record) ∧
        ∀ decl ∈ decls,
          decl.namedSpecifiers.Pairwise fun a b => lower a.binding ≤ lower b.binding := by
  induction decls generalizing prior with
  | nil => simp [checkAll]
  | cons decl rest ih =>
    obtain ⟨hdecl, hrest⟩ := List.forall_mem_cons.mp h
    have hstep : (check ⟨some prior⟩ decl).2 = ⟨some decl.record⟩ := by
      rw [check_of_isRecognized _ hdecl]
    rw [checkAll, Findings.andThen_eq_empty_iff, hstep, ih decl.record hrest,
      check_eq_empty_iff _ hdecl, declarationViolations_eq_nil_iff, List.map_cons,
      List.isChain_cons_cons, List.forall_mem_cons]
    tauto

theorem checkAll_fresh_eq_empty_iff {decls : List ImportDecl}
    (h : ∀ decl ∈ decls, decl.IsRecognized) :
    checkAll {} decls = {} ↔
      (decls.Pairwise fun a b => a.record.Precedes b.record) ∧
        ∀ decl ∈ decls,
          decl.namedSpecifiers.Pairwise fun a b => lower a.binding ≤ lower b.binding := by
  have hchain : (decls.map ImportDecl.record).IsChain ImportRecord.Precedes ↔
      decls.Pairwise fun a b => a.record.Precedes b.record :=
    List.isChain_iff_pairwise.trans List.pairwise_map
  rw [← hchain]
  cases decls with
  | nil => simp [checkAll]
  | cons decl rest =>
    obtain ⟨hdecl, hrest⟩ := List.forall_mem_cons.mp h
    have hstep : (check {} decl).2 = ⟨some decl.record⟩ := by
      rw [check_of_isRecognized _ hdecl]
    rw [checkAll, Findings.andThen_eq_empty_iff, hstep, checkAll_eq_empty_iff _ hrest,
      check_eq_empty_iff _ hdecl, List.map_cons, List.forall_mem_cons]
    have hfirst : declarationViolations (ImportChecker.last {}) decl = [] := rfl
    tauto

end ImportChecker

namespace Outline

open ClassChecker (methodOn sectionOn)

/-- Imports, named specifiers and class members are in order, pair by pair; `apart` says which
members of a body need not be. -/
structure Sorted (outline : Outline) (constructorFirst : Bool)
    (apart : List Member → ℕ → ℕ → Prop) : Prop where
  imports : outline.imports.Pairwise fun a b => a.record.Precedes b.record
  specifiers : ∀ decl ∈ outline.imports,
    decl.namedSpecifiers.Pairwise fun a b => lower a.binding ≤ lower b.binding
  members : ∀ body ∈ outline.bodies,
    AscendsUnless constructorFirst body.members (apart body.members)

theorem check_eq_empty_iff_not_misplaced {outline : Outline} (options : Options)
    (hkinds : outline.IsRecognized) (hlayout : ∀ body ∈ outline.bodies, body.WellLaidOut) :
    outline.check options = {} ↔
      ((outline.imports.Pairwise fun a b => a.record.Precedes b.record) ∧
        ∀ decl ∈ outline.imports,
          decl.namedSpecifiers.Pairwise fun a b => lower a.binding ≤ lower b.binding) ∧
      ∀ body ∈ outline.bodies, ∀ k < body.members.length,
        ¬ Misplaced outline.comments options.delimiter options.constructorFirst body.members k := by
  rw [check, Findings.andThen_eq_empty_iff,
    ImportChecker.checkAll_fresh_eq_empty_iff hkinds.imports, ClassChecker.checkAll_eq_empty_iff]
  refine and_congr_right fun _ => forall₂_congr fun body hbody => ?_
  exact ClassChecker.check_eq_empty_iff (hkinds.bodies body hbody) (hlayout body hbody)

/-- The answer is clean exactly on sorted outlines, whichever way a section between two members is
understood. -/
theorem check_eq_empty_iff_sorted (outline : Outline) (options : Options)
    (hkinds : outline.IsRecognized) (hlayout : ∀ body ∈ outline.bodies, body.WellLaidOut) :
    (outline.check options = ⟨[], none⟩ ↔
        outline.Sorted options.constructorFirst
          (SectionBetween outline.comments options.delimiter)) ∧
      (outline.check options = ⟨[], none⟩ ↔
        outline.Sorted options.constructorFirst
          (SectionInGap outline.comments options.delimiter)) := by
  rw [check_eq_empty_iff_not_misplaced options hkinds hlayout]
  refine ⟨⟨fun h => ?_, fun h => ?_⟩, ⟨fun h => ?_, fun h => ?_⟩⟩
  · refine ⟨h.1.1, h.1.2, fun body hbody => ?_⟩
    exact ascendsUnless_sectionBetween (hlayout body hbody)
      (ascendsUnless_sectionInGap (h.2 body hbody))
  · refine ⟨⟨h.imports, h.specifiers⟩, fun body hbody k _ => ?_⟩
    exact not_misplaced_of_ascendsUnless (h.members body hbody) k
  · refine ⟨h.1.1, h.1.2, fun body hbody => ?_⟩
    exact ascendsUnless_sectionInGap (h.2 body hbody)
  · refine ⟨⟨h.imports, h.specifiers⟩, fun body hbody k _ => ?_⟩
    exact not_misplaced_of_ascendsUnless
      (ascendsUnless_sectionBetween (hlayout body hbody) (h.members body hbody)) k

-- A section line runs through the third method, so the second and the fourth are still compared.
def tidyOutline : Outline where
  path := utf8 "tidy.js"
  comments := [sectionOn 6, sectionOn 3]
  imports := [
    ⟨utf8 "react", [⟨.named, utf8 "a", default⟩, ⟨.wildcard, utf8 "W", default⟩,
      ⟨.named, utf8 "B", default⟩], default⟩,
    ⟨utf8 "./util", [], default⟩]
  bodies := [⟨[methodOn 1 1 "constructor", methodOn 1 1 "a", methodOn 2 4 "b", methodOn 4 5 "c",
    methodOn 7 7 "a"], ⟨⟨1, 0⟩, ⟨8, 1⟩⟩⟩]

theorem tidyOutline_sorted : tidyOutline.IsRecognized ∧
    (∀ body ∈ tidyOutline.bodies, body.WellLaidOut) ∧
    tidyOutline.Sorted true (SectionInGap tidyOutline.comments []) := by
  have hkinds : tidyOutline.IsRecognized := by decide
  have hlayout : ∀ body ∈ tidyOutline.bodies, body.WellLaidOut := by decide
  have hclean : tidyOutline.check ⟨[], true⟩ = ⟨[], none⟩ := by decide +kernel
  exact ⟨hkinds, hlayout, (check_eq_empty_iff_sorted _ _ hkinds hlayout).2.mp hclean⟩

end Outline

end OrderLint
