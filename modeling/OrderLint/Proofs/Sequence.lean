import Mathlib

/-!
# Neighbours and first failures in a sequence

Both checkers read a sequence once and look one element back. What they ought to report is said
here by positions: the elements at the positions that satisfy a condition, and in particular those
that stand in a given relation to their predecessor. A check that fails does so at the first
element outside a predicate, which splits the sequence into what was read and what was not.
-/
namespace OrderLint

variable {α : Type*}

def elementsAt (P : ℕ → Prop) [DecidablePred P] (xs : List α) : List α :=
  ((List.finRange xs.length).filter fun i => P i.val).map xs.get

section ElementsAt

variable (P Q : ℕ → Prop) [DecidablePred P] [DecidablePred Q]

@[simp] theorem elementsAt_nil : elementsAt P ([] : List α) = [] := rfl

theorem elementsAt_cons (x : α) (xs : List α) :
    elementsAt P (x :: xs) = (if P 0 then [x] else []) ++ elementsAt (fun i => P (i + 1)) xs := by
  have hs : ∀ is : List (Fin xs.length),
      ((is.map Fin.succ).filter fun i => P i.val).map (x :: xs).get =
        (is.filter fun i => P (i.val + 1)).map xs.get := by
    intro is
    rw [List.filter_map, List.map_map]
    rfl
  simp only [elementsAt, List.length_cons, List.finRange_succ, List.filter_cons, Fin.val_zero]
  by_cases h : P 0
  · simp only [h, decide_true, if_true, List.map_cons, hs]
    rfl
  · simp only [h, decide_false, Bool.false_eq_true, if_false, hs, List.nil_append]

theorem elementsAt_congr {xs : List α} (h : ∀ i < xs.length, P i ↔ Q i) :
    elementsAt P xs = elementsAt Q xs := by
  unfold elementsAt
  congr 1
  apply List.filter_congr
  intro i _
  simp only [h i i.isLt]

theorem elementsAt_eq_nil_iff {xs : List α} :
    elementsAt P xs = [] ↔ ∀ i < xs.length, ¬ P i := by
  simp only [elementsAt, List.map_eq_nil_iff, List.filter_eq_nil_iff, List.mem_finRange,
    true_implies, decide_eq_true_eq]
  exact ⟨fun h i hi => h ⟨i, hi⟩, fun h i => h i i.isLt⟩

variable {P} in
theorem mem_of_mem_elementsAt {xs : List α} {x : α} (h : x ∈ elementsAt P xs) : x ∈ xs := by
  obtain ⟨i, -, rfl⟩ := List.mem_map.mp h
  exact List.get_mem xs i

end ElementsAt

theorem pairwise_of_isChain {R : α → α → Prop} {xs : List α} (h : xs.IsChain R)
    (htrans : ∀ x, ∀ y ∈ xs, ∀ z, R x y → R y z → R x z) : xs.Pairwise R := by
  induction h with
  | nil => exact List.Pairwise.nil
  | singleton x => exact List.pairwise_singleton _ _
  | @cons_cons x y rest hxy _ ih =>
    have hrest := ih fun x y hy => htrans x y (List.mem_cons_of_mem _ hy)
    refine List.pairwise_cons.mpr ⟨?_, hrest⟩
    intro z hz
    rcases List.mem_cons.mp hz with rfl | hz
    · exact hxy
    · have hyz := (List.pairwise_cons.mp hrest).1 z hz
      exact htrans x y (by simp) z hxy hyz

section Followers

variable (R : α → α → Prop) [DecidableRel R]

def Follows (xs : List α) (i : ℕ) : Prop :=
  0 < i ∧ ∃ before ∈ xs[i - 1]?, ∃ x ∈ xs[i]?, R before x

instance (xs : List α) : DecidablePred (Follows R xs) :=
  fun _ => inferInstanceAs (Decidable (_ ∧ _))

def followers (xs : List α) : List α := elementsAt (Follows R xs) xs

omit [DecidableRel R] in
theorem not_follows_zero (xs : List α) : ¬ Follows R xs 0 := fun h => absurd h.1 (lt_irrefl 0)

omit [DecidableRel R] in
theorem follows_one (x y : α) (rest : List α) : Follows R (x :: y :: rest) 1 ↔ R x y := by
  simp [Follows]

omit [DecidableRel R] in
theorem follows_cons_succ (x : α) (xs : List α) (i : ℕ) (hi : 0 < i) :
    Follows R (x :: xs) (i + 1) ↔ Follows R xs i := by
  obtain ⟨k, rfl⟩ : ∃ k, i = k + 1 := ⟨i - 1, by omega⟩
  simp [Follows]

@[simp] theorem followers_nil : followers R [] = [] := rfl

@[simp] theorem followers_singleton (x : α) : followers R [x] = [] := by
  simp [followers, elementsAt_cons, not_follows_zero]

theorem followers_cons_cons (x y : α) (rest : List α) :
    followers R (x :: y :: rest) = (if R x y then [y] else []) ++ followers R (y :: rest) := by
  have ht : elementsAt (fun i => Follows R (x :: y :: rest) (i + 1 + 1)) rest =
      elementsAt (fun i => Follows R (y :: rest) (i + 1)) rest := by
    apply elementsAt_congr
    intro i _
    exact follows_cons_succ R x (y :: rest) (i + 1) (by omega)
  simp only [followers]
  rw [elementsAt_cons, elementsAt_cons, elementsAt_cons _ y rest, ht]
  simp only [not_follows_zero, follows_one, if_false, zero_add, List.nil_append]

theorem followers_eq_nil_iff (xs : List α) :
    followers R xs = [] ↔ xs.IsChain fun x y => ¬ R x y := by
  induction xs with
  | nil => simp
  | cons x rest ih =>
    cases rest with
    | nil => simp
    | cons y rest =>
      rw [followers_cons_cons, List.append_eq_nil_iff, ih, List.isChain_cons_cons]
      by_cases h : R x y <;> simp [h]

variable {R} {S : α → α → Prop} [DecidableRel S]

theorem followers_congr {xs : List α} (h : xs.IsChain fun x y => R x y ↔ S x y) :
    followers R xs = followers S xs := by
  induction xs with
  | nil => rfl
  | cons x rest ih =>
    cases rest with
    | nil => simp
    | cons y rest =>
      obtain ⟨hxy, hrest⟩ := List.isChain_cons_cons.mp h
      simp only [followers_cons_cons, hxy, ih hrest]

end Followers

/-- `x` is the first element of `xs` outside `P`, and `before` is what precedes it. -/
def FirstNot (P : α → Prop) (xs before : List α) (x : α) : Prop :=
  (∃ after, xs = before ++ x :: after) ∧ (∀ y ∈ before, P y) ∧ ¬ P x

theorem FirstNot.not_forall {P : α → Prop} {xs before : List α} {x : α}
    (h : FirstNot P xs before x) : ¬ ∀ y ∈ xs, P y := by
  obtain ⟨⟨after, rfl⟩, -, hx⟩ := h
  intro hall
  exact hx (hall x (by simp))

theorem FirstNot.map {β : Type*} {P : α → Prop} {Q : β → Prop} {f : α → β} {xs before : List α}
    {x : α} (h : FirstNot P xs before x) (hPQ : ∀ y ∈ xs, P y ↔ Q (f y)) :
    FirstNot Q (xs.map f) (before.map f) (f x) := by
  obtain ⟨⟨after, rfl⟩, hbefore, hx⟩ := h
  refine ⟨⟨after.map f, by simp⟩, ?_, fun hfx => hx ((hPQ x (by simp)).mpr hfx)⟩
  intro z hz
  obtain ⟨y, hy, rfl⟩ := List.mem_map.mp hz
  exact (hPQ y (by simp [hy])).mp (hbefore y hy)

theorem FirstNot.filter {P : α → Prop} {p : α → Bool} {xs before : List α} {x : α}
    (h : FirstNot P xs before x) (hp : ∀ y, ¬ P y → p y = true) :
    FirstNot P (xs.filter p) (before.filter p) x := by
  obtain ⟨⟨after, rfl⟩, hbefore, hx⟩ := h
  refine ⟨⟨after.filter p, by simp [hp x hx]⟩, ?_, hx⟩
  exact fun y hy => hbefore y (List.mem_of_mem_filter hy)

theorem exists_firstNot {P : α → Prop} {xs : List α} (h : ¬ ∀ y ∈ xs, P y) :
    ∃ before x, FirstNot P xs before x := by
  induction xs with
  | nil => simp at h
  | cons x rest ih =>
    by_cases hx : P x
    · have hrest : ¬ ∀ y ∈ rest, P y := fun hall => h (List.forall_mem_cons.mpr ⟨hx, hall⟩)
      obtain ⟨before, y, ⟨after, rfl⟩, hbefore, hy⟩ := ih hrest
      exact ⟨x :: before, y, ⟨after, rfl⟩, List.forall_mem_cons.mpr ⟨hx, hbefore⟩, hy⟩
    · exact ⟨[], x, ⟨rest, rfl⟩, by simp, hx⟩

theorem exists_of_mem_right {β : Type*} {R : α → β → Prop} {xs : List α} {ys : List β}
    (h : List.Forall₂ R xs ys) {y : β} (hy : y ∈ ys) : ∃ x ∈ xs, R x y := by
  induction h with
  | nil => simp at hy
  | cons hfirst _ ih =>
    rcases List.mem_cons.mp hy with rfl | hy
    · exact ⟨_, by simp, hfirst⟩
    · obtain ⟨x, hx, hr⟩ := ih hy
      exact ⟨x, by simp [hx], hr⟩

end OrderLint
