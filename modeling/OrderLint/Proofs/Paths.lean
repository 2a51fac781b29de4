import OrderLint.Files.Path
import OrderLint.Proofs.Records

/-!
# Clean paths

Cleaning keeps a stack of components. No empty or single-dot component gets onto it, and a double
dot stays only above other double dots and only in a path that is not rooted, so that a clean stack
is built up again from its own components. What a path means is therefore fixed by whether it is
rooted and by its components, and going on from a path and from its clean form is the same.
-/
namespace OrderLint

namespace Bytes

theorem splitAt_append (separator : UInt8) (s t : Bytes) :
    splitAt separator (s ++ separator :: t) = splitAt separator s ++ splitAt separator t := by
  induction s with
  | nil => simp [splitAt]
  | cons b rest ih =>
    by_cases hb : b = separator
    · simp [splitAt, hb, ih]
    · obtain ⟨piece, pieces, hrest⟩ := List.exists_cons_of_ne_nil (splitAt_ne_nil separator rest)
      rw [hrest] at ih
      rw [List.cons_append, splitAt_cons_of_ne separator hb ih,
        splitAt_cons_of_ne separator hb hrest]
      rfl

theorem joined_append_singleton (separator : UInt8) {parts : List Bytes} (h : parts ≠ [])
    (last : Bytes) :
    joined [separator] (parts ++ [last]) = joined [separator] parts ++ separator :: last := by
  induction parts with
  | nil => exact absurd rfl h
  | cons part parts ih =>
    cases parts with
    | nil => simp [joined]
    | cons next parts =>
      have hrest := ih (by simp)
      simp only [List.cons_append, joined] at hrest ⊢
      rw [hrest]
      simp

end Bytes

namespace Path

structure IsName (name : Bytes) : Prop where
  ne_nil : name ≠ []
  ne_dot : name ≠ utf8 "."
  ne_dots : name ≠ utf8 ".."
  separator_notMem : separator ∉ name

instance : DecidablePred IsName := fun name =>
  decidable_of_iff (name ≠ [] ∧ name ≠ utf8 "." ∧ name ≠ utf8 ".." ∧ separator ∉ name)
    ⟨fun ⟨hnil, hdot, hdots, hseparator⟩ => ⟨hnil, hdot, hdots, hseparator⟩,
      fun h => ⟨h.ne_nil, h.ne_dot, h.ne_dots, h.separator_notMem⟩⟩

theorem IsName.not_skipped {name : Bytes} (h : IsName name) : ¬ (name = [] ∨ name = utf8 ".") :=
  not_or.mpr ⟨h.ne_nil, h.ne_dot⟩

/-- Components that cleaning leaves as they are, the last one first. -/
def IsCleanStack (rooted : Bool) : List Bytes → Prop
  | [] => True
  | top :: below => (top ≠ [] ∧ top ≠ utf8 "." ∧ separator ∉ top) ∧
      (top = utf8 ".." → rooted = false ∧ ∀ component ∈ below, component = utf8 "..") ∧
      IsCleanStack rooted below

section Stack

variable {rooted : Bool}

theorem push_of_isName {name : Bytes} (h : IsName name) (stack : List Bytes) :
    push rooted stack name = name :: stack := by
  simp [push, h.not_skipped, h.ne_dots]

theorem dots_ne : ¬ (utf8 ".." = [] ∨ utf8 ".." = utf8 ".") := by decide

theorem push_dots_nil :
    push rooted [] (utf8 "..") = if rooted then [] else [utf8 ".."] := by
  simp only [push, dots_ne, if_false, if_true]

theorem push_dots_cons (last : Bytes) (rest : List Bytes) :
    push rooted (last :: rest) (utf8 "..") =
      if last = utf8 ".." then utf8 ".." :: last :: rest else rest := by
  simp only [push, dots_ne, if_false, if_true]

theorem push_isCleanStack {stack : List Bytes} (h : IsCleanStack rooted stack) {component : Bytes}
    (hseparator : separator ∉ component) : IsCleanStack rooted (push rooted stack component) := by
  by_cases hskip : component = [] ∨ component = utf8 "."
  · simp only [push, hskip, if_true]
    exact h
  obtain ⟨hnil, hdot⟩ := not_or.mp hskip
  by_cases hdots : component = utf8 ".."
  · subst hdots
    cases stack with
    | nil =>
      rw [push_dots_nil]
      cases rooted with
      | true => exact h
      | false => exact ⟨⟨hnil, hdot, hseparator⟩, fun _ => ⟨rfl, by simp⟩, h⟩
    | cons last rest =>
      rw [push_dots_cons]
      split_ifs with hlast
      · obtain ⟨hrooted, hall⟩ := h.2.1 hlast
        refine ⟨⟨hnil, hdot, hseparator⟩, fun _ => ⟨hrooted, ?_⟩, h⟩
        exact List.forall_mem_cons.mpr ⟨hlast, hall⟩
      · exact h.2.2
  · rw [push_of_isName ⟨hnil, hdot, hdots, hseparator⟩]
    exact ⟨⟨hnil, hdot, hseparator⟩, fun he => absurd he hdots, h⟩

theorem foldl_push_isCleanStack {stack : List Bytes} (h : IsCleanStack rooted stack)
    {added : List Bytes} (hadded : ∀ component ∈ added, separator ∉ component) :
    IsCleanStack rooted (added.foldl (push rooted) stack) := by
  induction added generalizing stack with
  | nil => exact h
  | cons component rest ih =>
    obtain ⟨hcomponent, hrest⟩ := List.forall_mem_cons.mp hadded
    exact ih (push_isCleanStack h hcomponent) hrest

theorem push_of_isCleanStack {top : Bytes} {below : List Bytes}
    (h : IsCleanStack rooted (top :: below)) : push rooted below top = top :: below := by
  obtain ⟨⟨hnil, hdot, hseparator⟩, hdots, -⟩ := h
  by_cases he : top = utf8 ".."
  · obtain ⟨hrooted, hall⟩ := hdots he
    subst he
    cases below with
    | nil => simp [push_dots_nil, hrooted]
    | cons last rest => simp [push_dots_cons, hall last (by simp)]
  · exact push_of_isName ⟨hnil, hdot, he, hseparator⟩ below

theorem IsCleanStack.of_append {above below : List Bytes}
    (h : IsCleanStack rooted (above ++ below)) : IsCleanStack rooted below := by
  induction above with
  | nil => exact h
  | cons top rest ih => exact ih h.2.2

theorem IsCleanStack.mem {stack : List Bytes} (h : IsCleanStack rooted stack) {component : Bytes}
    (hmem : component ∈ stack) : component ≠ [] ∧ component ≠ utf8 "." ∧ separator ∉ component := by
  induction stack with
  | nil => simp at hmem
  | cons top below ih =>
    rcases List.mem_cons.mp hmem with rfl | hmem
    · exact h.1
    · exact ih h.2.2 hmem

theorem foldl_push_of_isCleanStack {added stack : List Bytes}
    (h : IsCleanStack rooted (added.reverse ++ stack)) :
    added.foldl (push rooted) stack = added.reverse ++ stack := by
  induction added generalizing stack with
  | nil => rfl
  | cons component rest ih =>
    have hrest : IsCleanStack rooted (rest.reverse ++ component :: stack) := by simpa using h
    rw [List.foldl_cons, push_of_isCleanStack hrest.of_append, ih hrest]
    simp

theorem foldl_push_of_isName {names : List Bytes} (h : ∀ name ∈ names, IsName name)
    (stack : List Bytes) : names.foldl (push rooted) stack = names.reverse ++ stack := by
  induction names generalizing stack with
  | nil => rfl
  | cons name rest ih =>
    obtain ⟨hname, hrest⟩ := List.forall_mem_cons.mp h
    rw [List.foldl_cons, push_of_isName hname, ih hrest]
    simp

end Stack

theorem components_isCleanStack (path : Bytes) :
    IsCleanStack (isRooted path) (components path).reverse := by
  have hnil : IsCleanStack (isRooted path) [] := trivial
  rw [components, List.reverse_reverse]
  exact foldl_push_isCleanStack hnil fun _ h => Bytes.notMem_of_mem_splitAt separator h

theorem ne_of_mem_components {path component : Bytes} (h : component ∈ components path) :
    component ≠ [] ∧ component ≠ utf8 "." ∧ separator ∉ component :=
  (components_isCleanStack path).mem (List.mem_reverse.mpr h)

theorem joined_components_eq_nil_iff (path : Bytes) :
    Bytes.joined [separator] (components path) = [] ↔ components path = [] := by
  constructor
  · intro h
    cases hc : components path with
    | nil => rfl
    | cons first rest =>
      have hmem : first ∈ components path := by simp [hc]
      obtain ⟨b, first, rfl⟩ := List.exists_cons_of_ne_nil (ne_of_mem_components hmem).1
      rw [hc, Bytes.joined_cons_cons] at h
      simp at h
  · intro h
    rw [h]
    rfl

theorem splitAt_clean (path : Bytes) :
    (clean path).splitAt separator =
      if isRooted path then [] :: (if components path = [] then [[]] else components path)
      else if components path = [] then [utf8 "."] else components path := by
  have hsplit : components path ≠ [] →
      (Bytes.joined [separator] (components path)).splitAt separator = components path :=
    fun h => Bytes.splitAt_joined separator h fun _ hc => (ne_of_mem_components hc).2.2
  simp only [clean, joined_components_eq_nil_iff]
  split_ifs with hrooted hnil hnil
  · simp [Bytes.splitAt, hnil, Bytes.joined]
  · simp [Bytes.splitAt, hsplit hnil]
  · decide
  · exact hsplit hnil

theorem isRooted_clean (path : Bytes) : isRooted (clean path) = isRooted path := by
  cases hrooted : isRooted path with
  | true =>
    rw [clean, if_pos hrooted]
    simp [isRooted]
  | false =>
    by_contra hne
    have hclean : isRooted (clean path) = true := by simpa using hne
    obtain ⟨rest, hrest⟩ : ∃ rest, clean path = separator :: rest := by
      simpa [isRooted, List.head?_eq_some_iff] using hclean
    -- A separator in front would leave an empty piece.
    have hsplit := splitAt_clean path
    rw [hrest, hrooted] at hsplit
    simp only [Bytes.splitAt, if_true, Bool.false_eq_true, if_false] at hsplit
    split_ifs at hsplit with hnil
    · have hdot := (List.cons.inj hsplit).1
      revert hdot
      decide
    · have hmem : [] ∈ components path := by
        rw [← hsplit]
        simp
      exact (ne_of_mem_components hmem).1 rfl

theorem components_clean (path : Bytes) : components (clean path) = components path := by
  have hstack : IsCleanStack (isRooted path) ((components path).reverse ++ []) := by
    simpa using components_isCleanStack path
  have hagain := foldl_push_of_isCleanStack hstack
  rw [components, isRooted_clean, splitAt_clean]
  split_ifs with hrooted hnil hnil
  · simp [push, hnil]
  · simp [push, hagain]
  · simp [push, hnil]
  · simp [hagain]

theorem clean_congr {path other : Bytes} (hrooted : isRooted path = isRooted other)
    (h : components path = components other) : clean path = clean other := by
  simp only [clean, hrooted, h]

theorem clean_ne_nil (path : Bytes) : clean path ≠ [] := by
  simp only [clean]
  split_ifs with hrooted hnil
  · simp
  · decide
  · exact hnil

theorem clean_clean (path : Bytes) : clean (clean path) = clean path :=
  clean_congr (isRooted_clean path) (components_clean path)

theorem join_ne_nil (directory name : Bytes) : join directory name ≠ [] := by
  rw [join]
  split_ifs
  · exact clean_ne_nil _
  · exact clean_ne_nil _

section Append

variable {directory : Bytes} (h : directory ≠ [])

include h in
theorem isRooted_append (rest : Bytes) : isRooted (directory ++ rest) = isRooted directory := by
  obtain ⟨b, directory, rfl⟩ := List.exists_cons_of_ne_nil h
  rfl

include h in
theorem components_append (rest : Bytes) :
    components (directory ++ separator :: rest) =
      ((rest.splitAt separator).foldl (push (isRooted directory))
        (components directory).reverse).reverse := by
  simp only [components, isRooted_append h, Bytes.splitAt_append, List.foldl_append,
    List.reverse_reverse]

include h in
theorem clean_append_clean (rest : Bytes) :
    clean (clean directory ++ separator :: rest) = clean (directory ++ separator :: rest) := by
  have hclean := clean_ne_nil directory
  apply clean_congr
  · rw [isRooted_append hclean, isRooted_append h, isRooted_clean]
  · rw [components_append hclean, components_append h, components_clean, isRooted_clean]

end Append

/-- The path of what `relative` leads to from `argument`: the argument itself as it is written, and
everything below it under a clean path. -/
def under (argument : Bytes) (relative : List Bytes) : Bytes :=
  if relative = [] then argument
  else clean (argument ++ separator :: Bytes.joined [separator] relative)

@[simp] theorem under_nil (argument : Bytes) : under argument [] = argument := rfl

section Under

variable {argument : Bytes} (h : argument ≠ [])

include h in
theorem join_under (relative : List Bytes) (name : Bytes) :
    join (under argument relative) name = under argument (relative ++ [name]) := by
  by_cases hnil : relative = []
  · simp [hnil, under, join, h, Bytes.joined]
  · have hne : argument ++ separator :: Bytes.joined [separator] relative ≠ [] := by simp
    simp only [under, hnil, if_false, join, clean_ne_nil, clean_append_clean hne,
      Bytes.joined_append_singleton separator hnil]
    simp

include h in
theorem components_under {relative : List Bytes} (hnames : ∀ name ∈ relative, IsName name) :
    components (under argument relative) = components argument ++ relative := by
  by_cases hnil : relative = []
  · simp [hnil]
  · have hsplit := Bytes.splitAt_joined separator hnil fun name hname =>
      (hnames name hname).separator_notMem
    rw [under, if_neg hnil, components_clean, components_append h, hsplit,
      foldl_push_of_isName hnames]
    simp

include h in
theorem under_injective {first second : List Bytes} (hfirst : ∀ name ∈ first, IsName name)
    (hsecond : ∀ name ∈ second, IsName name) (he : under argument first = under argument second) :
    first = second := by
  have hcomponents := congrArg components he
  rw [components_under h hfirst, components_under h hsecond] at hcomponents
  exact List.append_cancel_left hcomponents

end Under

end Path

end OrderLint
