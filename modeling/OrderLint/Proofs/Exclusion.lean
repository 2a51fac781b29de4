import OrderLint.Files.Exclude
import OrderLint.Proofs.CodePoints
import OrderLint.Proofs.Paths

/-!
# Paths through a name

A pattern that has a plain name between two double stars is matched by comparing the name with one
component of the path after the other: a comparison that fails goes back to the first double star,
which then takes one more component. So the pattern matches exactly the paths that have the name
among their components. A path is excluded by its clean form, whatever its spelling.
-/
namespace OrderLint

namespace Bytes

theorem splitAt_eq (separator : UInt8) (s : Bytes) :
    splitAt separator s = s.takeWhile (· != separator) ::
      match s.dropWhile (· != separator) with
      | [] => []
      | _ :: rest => splitAt separator rest := by
  induction s with
  | nil => rfl
  | cons b rest ih =>
    by_cases hb : b = separator
    · simp [splitAt, hb]
    · rw [splitAt_cons_of_ne separator hb ih]
      simp [hb]

end Bytes

namespace Glob

/-- A byte that stands for itself in a pattern, and for a character of its own. -/
def IsPlain (b : UInt8) : Prop := b < 0x80 ∧ b ∉ utf8 "*?[]\x7b\x7d\\"

instance : DecidablePred IsPlain := fun _ => inferInstanceAs (Decidable (_ ∧ _))

theorem IsPlain.ne {b : UInt8} (h : IsPlain b) :
    b ≠ 42 ∧ b ≠ 63 ∧ b ≠ 91 ∧ b ≠ 123 ∧ b ≠ 92 := by
  have hspecial : utf8 "*?[]\x7b\x7d\\" = [42, 63, 91, 93, 123, 125, 92] := by decide
  have hb := h.2
  simp only [hspecial, List.mem_cons, not_or] at hb
  tauto

theorem charAt_of_ascii {s rest : Bytes} {i : ℕ} {b : UInt8} (h : s.drop i = b :: rest)
    (hb : b < 0x80) : charAt s i = (b.toNat, 1) := by
  simp [charAt, h, decode?, hb]

theorem charAt_eq_iff {s rest : Bytes} {i : ℕ} {c b : UInt8} (h : s.drop i = c :: rest)
    (hb : b < 0x80) : b.toNat = (charAt s i).1 ↔ c = b := by
  have hlt : b.toNat < 128 := hb
  by_cases hc : c < 0x80
  · rw [charAt_of_ascii h hc, eq_comm, UInt8.toNat_inj]
  · have hne : c ≠ b := by
      rintro rfl
      exact hc hb
    have hle : 128 ≤ (charAt s i).1 := by
      simp only [charAt, h]
      cases hd : decode? (c :: rest) with
      | none => decide
      | some found => exact le_of_decode? hc hd
    simp only [hne, iff_false]
    omega

theorem matchesEmpty_ne_true {b : UInt8} {rest : Bytes} (hb : b ≠ 123)
    (h : b :: rest ∉ emptyPatterns) (limit : ℕ) : matchesEmpty limit (b :: rest) ≠ some true := by
  cases limit with
  | zero => simp [matchesEmpty]
  | succ limit =>
    unfold matchesEmpty
    rw [if_neg (by simpa using h)]
    split
    · next heq => exact absurd (List.cons.inj heq).1 hb
    · split_ifs <;> simp

def outcome (name : Bytes) (limit : ℕ) : Move → Option Bool
  | .done verdict => verdict
  | .next s => run name limit s
  | .choose options => firstSuccess (run name limit) options

theorem run_succ (name : Bytes) (limit : ℕ) (s : State) :
    run name (limit + 1) s = outcome name limit (step name s) := by
  rw [run]
  cases step name s <;> rfl

theorem step_of_drop_eq_nil {name : Bytes} {s : State} (h : name.drop s.nameIndex = []) :
    step name s = .done (matchesEmpty (s.pattern.length + 1) (s.pattern.drop s.index)) := by
  rw [step, if_pos (List.drop_eq_nil_iff.mp h)]

theorem step_of_isPlain {name rest after : Bytes} {s : State} {b c : UInt8}
    (hpattern : s.pattern.drop s.index = b :: after) (hb : IsPlain b)
    (hname : name.drop s.nameIndex = c :: rest) : step name s = onLiteral name s s.index := by
  have hlength : ¬ name.length ≤ s.nameIndex := fun hle => by
    rw [List.drop_eq_nil_iff.mpr hle] at hname
    simp at hname
  have hget : s.pattern[s.index]? = some b := by
    rw [← List.head?_drop, hpattern]
    rfl
  obtain ⟨hstar, hmark, hbracket, hbrace, hbackslash⟩ := hb.ne
  rw [step, if_neg hlength, hget]
  split <;> simp_all

theorem emptyPatterns_eq :
    emptyPatterns = [[], [42], [42, 42], [47, 42, 42], [42, 42, 47], [47, 42, 42, 47]] := by
  decide

theorem notMem_emptyPatterns {b : UInt8} (hb : IsPlain b) (hslash : b ≠ 47) (rest : Bytes) :
    b :: rest ∉ emptyPatterns := by
  simp [emptyPatterns_eq, hb.ne.1, hslash]

theorem matchesEmpty_of_mem {pattern : Bytes} (h : pattern ∈ emptyPatterns) (limit : ℕ) :
    matchesEmpty (limit + 1) pattern = some true := by
  unfold matchesEmpty
  rw [if_pos (by simpa using h)]

theorem run_of_doubleStar {name : Bytes} {s : State} (hpattern : s.pattern.drop s.index = [42, 42])
    (hstart : s.componentStart = true) (limit : ℕ) : run name (limit + 1) s = some true := by
  rw [run_succ]
  by_cases hname : name.drop s.nameIndex = []
  · rw [step_of_drop_eq_nil hname, hpattern]
    exact matchesEmpty_of_mem (by decide) s.pattern.length
  · have hlength : ¬ name.length ≤ s.nameIndex := fun hle => hname (List.drop_eq_nil_iff.mpr hle)
    have hget : ∀ i, s.pattern[s.index + i]? = ([42, 42] : Bytes)[i]? := by
      intro i
      rw [← hpattern, List.getElem?_drop]
    have hfirst : s.pattern[s.index]? = some 42 := hget 0
    have hsecond : s.pattern[s.index + 1]? = some 42 := hget 1
    have hend : s.index + 2 = s.pattern.length := by
      have hlen := congrArg List.length hpattern
      simp only [List.length_drop, List.length_cons, List.length_nil] at hlen
      omega
    simp [step, hlength, hfirst, onStar, hsecond, hstart, hend, outcome]

/-- The machine compares the name with a component that begins at `start`; it goes back to the
double star in front when they differ. -/
structure Comparing (pattern : Bytes) (start : ℕ) (s : State) : Prop where
  pattern_eq : s.pattern = pattern
  star_eq : s.star = none
  doubleStar_eq : s.doubleStar = some (3, start)

def State.passed (s : State) (b : UInt8) : State :=
  { s with
    index := s.index + 1, nameIndex := s.nameIndex + 1, componentStart := b.toNat == slash }

namespace Comparing

variable {name pattern rest after : Bytes} {start : ℕ} {s : State} {b c : UInt8}

theorem passed (h : Comparing pattern start s) (b : UInt8) : Comparing pattern start (s.passed b) :=
  ⟨h.pattern_eq, h.star_eq, h.doubleStar_eq⟩

theorem step_eq (hpattern : s.pattern.drop s.index = b :: after) (hb : IsPlain b)
    (hname : name.drop s.nameIndex = b :: rest) : step name s = .next (s.passed b) := by
  rw [step_of_isPlain hpattern hb hname, onLiteral, charAt_of_ascii hpattern hb.1,
    charAt_of_ascii hname hb.1]
  simp [State.passed]

theorem exists_step_eq (h : Comparing pattern start s)
    (hpattern : s.pattern.drop s.index = b :: after) (hb : IsPlain b)
    (hname : name.drop s.nameIndex = c :: rest) (hne : c ≠ b) :
    ∃ t, Comparing pattern start t ∧ step name s = returnToStar name t := by
  have hchar : ¬ (b.toNat == (charAt name s.nameIndex).1) = true := by
    simpa [charAt_eq_iff hname hb.1] using hne
  rw [step_of_isPlain hpattern hb hname, onLiteral, charAt_of_ascii hpattern hb.1]
  simp only [hchar, Bool.false_eq_true, if_false]
  refine ⟨_, ?_, rfl⟩
  exact ⟨h.pattern_eq, h.star_eq, h.doubleStar_eq⟩

theorem drop_passed {l : Bytes} {i : ℕ} (h : l.drop i = b :: rest) : l.drop (i + 1) = rest := by
  rw [← List.tail_drop, h, List.tail_cons]

variable {bound : ℕ} {Later : Prop}

/-- When the comparison comes upon a difference, the answer is that of the later components. -/
theorem run_iff (h : Comparing pattern start s)
    (hreturn : ∀ limit t, bound ≤ limit → Comparing pattern start t →
      (outcome name limit (returnToStar name t) = some true ↔ Later))
    {todo text : Bytes} (htodo : ∀ b ∈ todo, IsPlain b ∧ b ≠ 47) (hlater : 47 ∉ text → ¬ Later)
    (hpattern : s.pattern.drop s.index = todo ++ [47, 42, 42])
    (hname : name.drop s.nameIndex = text) {limit : ℕ} (hlimit : bound + todo.length + 2 ≤ limit) :
    run name limit s = some true ↔ text.takeWhile (· != 47) = todo ∨ Later := by
  induction todo generalizing text s limit with
  | nil =>
    obtain ⟨limit, rfl⟩ : ∃ k, limit = k + 2 := ⟨limit - 2, by omega⟩
    rw [run_succ]
    cases text with
    | nil =>
      have hempty : [47, 42, 42] ∈ emptyPatterns := by decide
      rw [step_of_drop_eq_nil hname, hpattern]
      simp [outcome, matchesEmpty_of_mem hempty]
    | cons c rest =>
      have hplain : IsPlain 47 := by decide
      by_cases hc : c = 47
      · subst hc
        rw [step_eq hpattern hplain hname, outcome, run_of_doubleStar (drop_passed hpattern) rfl]
        simp
      · obtain ⟨t, ht, hstep⟩ := h.exists_step_eq hpattern hplain hname hc
        have hle : bound ≤ limit + 1 := by omega
        rw [hstep, hreturn (limit + 1) t hle ht]
        simp [hc]
  | cons b todo ih =>
    rw [List.length_cons] at hlimit
    obtain ⟨limit, rfl⟩ : ∃ k, limit = k + 1 := ⟨limit - 1, by omega⟩
    obtain ⟨⟨hb, hslash⟩, hrest⟩ := List.forall_mem_cons.mp htodo
    rw [run_succ]
    cases text with
    | nil =>
      -- the name ends inside the component, where the machine does not go back
      have hverdict := matchesEmpty_ne_true hb.ne.2.2.2.1
        (notMem_emptyPatterns hb hslash (todo ++ [47, 42, 42])) (s.pattern.length + 1)
      rw [step_of_drop_eq_nil hname, hpattern, List.cons_append]
      simp [outcome, hverdict, hlater]
    | cons c rest =>
      by_cases hc : c = b
      · subst hc
        have hlater' : 47 ∉ rest → ¬ Later := by
          intro hmem
          exact hlater (by simp [hmem, Ne.symm hslash])
        have hle : bound + todo.length + 2 ≤ limit := by omega
        rw [step_eq hpattern hb hname, outcome, ih (h.passed c) hrest hlater' (drop_passed hpattern)
          (drop_passed hname) hle]
        simp [hslash]
      · obtain ⟨t, ht, hstep⟩ := h.exists_step_eq hpattern hb hname hc
        have hle : bound ≤ limit := by omega
        rw [hstep, hreturn limit t hle ht]
        by_cases hend : c = 47 <;> simp [hend, hc]

end Comparing

section Seek

variable (name : Bytes)

theorem dropWhile_drop (i : ℕ) :
    (name.drop i).dropWhile (· != 47) =
      name.drop (i + ((name.drop i).takeWhile (· != 47)).length) := by
  have hleft : ((name.drop i).takeWhile (· != 47) ++ (name.drop i).dropWhile (· != 47)).drop
      ((name.drop i).takeWhile (· != 47)).length = (name.drop i).dropWhile (· != 47) :=
    List.drop_left
  rw [List.takeWhile_append_dropWhile, List.drop_drop] at hleft
  exact hleft.symm

theorem afterSlash?_eq_none_iff (i : ℕ) : afterSlash? name i = none ↔ 47 ∉ name.drop i := by
  have hall : 47 ∉ name.drop i ↔ (name.drop i).dropWhile (· != 47) = [] := by
    rw [List.dropWhile_eq_nil_iff]
    simp only [bne_iff_ne, ne_eq]
    exact ⟨fun h b hb he => h (he ▸ hb), fun h hmem => h 47 hmem rfl⟩
  rw [hall, dropWhile_drop, List.drop_eq_nil_iff]
  simp [afterSlash?]

theorem splitAt_drop (i : ℕ) :
    Bytes.splitAt 47 (name.drop i) = (name.drop i).takeWhile (· != 47) ::
      match afterSlash? name i with
      | none => []
      | some next => Bytes.splitAt 47 (name.drop next) := by
  rw [Bytes.splitAt_eq, dropWhile_drop]
  congr 1
  simp only [afterSlash?]
  split_ifs with hlt
  · rw [List.drop_eq_getElem_cons hlt]
  · rw [List.drop_eq_nil_iff.mpr (Nat.not_lt.mp hlt)]

theorem afterSlash?_bounds {i next : ℕ} (h : afterSlash? name i = some next) :
    i < next ∧ next ≤ name.length := by
  simp only [afterSlash?] at h
  split_ifs at h
  obtain rfl := Option.some.inj h
  omega

def seeking (pattern : Bytes) (start : ℕ) : State :=
  { pattern, index := 3, nameIndex := start, doubleStar := some (3, start) }

theorem Comparing.returnToStar_eq {pattern : Bytes} {start : ℕ} {s : State}
    (h : Comparing pattern start s) :
    (afterSlash? name start = none → ∃ verdict ≠ some true,
        returnToStar name s = .done verdict) ∧
      ∀ next, afterSlash? name start = some next →
        returnToStar name s = .next (seeking pattern next) := by
  obtain ⟨rfl, hstar, hdouble⟩ := h
  simp only [returnToStar, hstar, returnToDoubleStar, hdouble]
  refine ⟨?_, ?_⟩
  · intro hnone
    rw [hnone]
    split_ifs
    · exact ⟨none, by simp, rfl⟩
    · exact ⟨some false, by simp, rfl⟩
  · intro next hnext
    rw [hnext]
    simp [seeking]

variable {name} {part : Bytes}

def through (part : Bytes) : Bytes := utf8 "**/" ++ part ++ utf8 "/**"

theorem through_eq (part : Bytes) : through part = 42 :: 42 :: 47 :: (part ++ [47, 42, 42]) := by
  have hfront : utf8 "**/" = [42, 42, 47] := by decide
  have hback : utf8 "/**" = [47, 42, 42] := by decide
  simp [through, hfront, hback]

theorem run_seeking (hpart : ∀ b ∈ part, IsPlain b ∧ b ≠ 47) (start : ℕ) {limit : ℕ}
    (hlimit : (part.length + 2) * (name.length - start + 1) ≤ limit) :
    run name limit (seeking (through part) start) = some true ↔
      part ∈ Bytes.splitAt 47 (name.drop start) := by
  -- on the bytes left in the name: each return to the double star leaves fewer, so that the moves
  -- left over from one component are enough for the components after it
  induction hleft : name.length - start using Nat.strong_induction_on generalizing start limit with
  | h left ih =>
    subst hleft
    have hreturn : ∀ limit s, (part.length + 2) * (name.length - start) ≤ limit →
        Comparing (through part) start s →
        (outcome name limit (returnToStar name s) = some true ↔
          ∃ next, afterSlash? name start = some next ∧
            part ∈ Bytes.splitAt 47 (name.drop next)) := by
      intro limit s hle hs
      obtain ⟨hnone, hsome⟩ := hs.returnToStar_eq name
      cases hafter : afterSlash? name start with
      | none =>
        obtain ⟨verdict, hverdict, hmove⟩ := hnone hafter
        simp [hmove, outcome, hverdict]
      | some next =>
        obtain ⟨hlt, hlength⟩ := afterSlash?_bounds name hafter
        have hleft : name.length - next + 1 ≤ name.length - start := by omega
        have hnext := ih _ (by omega) next ((Nat.mul_le_mul_left _ hleft).trans hle) rfl
        simp [hsome next hafter, outcome, hnext]
    have hlater : 47 ∉ name.drop start →
        ¬ ∃ next, afterSlash? name start = some next ∧
          part ∈ Bytes.splitAt 47 (name.drop next) := by
      intro hmem
      simp [(afterSlash?_eq_none_iff name start).mpr hmem]
    have hcomparing : Comparing (through part) start (seeking (through part) start) :=
      ⟨rfl, rfl, rfl⟩
    have hpattern : (through part).drop 3 = part ++ [47, 42, 42] := by rw [through_eq]; rfl
    have henough : (part.length + 2) * (name.length - start) + part.length + 2 ≤ limit := by
      rw [Nat.mul_succ] at hlimit
      omega
    rw [hcomparing.run_iff hreturn hpart hlater hpattern rfl henough, splitAt_drop]
    cases afterSlash? name start with
    | none => simp [eq_comm]
    | some next => simp [eq_comm]

theorem lt_moves (part name : Bytes) :
    (part.length + 2) * (name.length + 1) < moves (through part) name := by
  have hlength : (through part).length = part.length + 6 := by simp [through_eq]
  have hleft : part.length + 2 ≤ (part.length + 6 + 2) ^ 2 := by nlinarith
  have hright : name.length + 2 ≤ ((part.length + 6 + 1) * (name.length + 1) + 1) ^ 2 := by
    nlinarith [Nat.zero_le (part.length * name.length)]
  calc (part.length + 2) * (name.length + 1)
      < (part.length + 2) * (name.length + 2) := by
        apply Nat.mul_lt_mul_of_pos_left <;> omega
    _ ≤ (part.length + 6 + 2) ^ 2 * ((part.length + 6 + 1) * (name.length + 1) + 1) ^ 2 :=
        Nat.mul_le_mul hleft hright
    _ = moves (through part) name := by rw [moves, hlength]; rfl

theorem isMatch_through_iff (hne : part ≠ []) (hpart : ∀ b ∈ part, IsPlain b ∧ b ≠ 47)
    (name : Bytes) : isMatch (through part) name = true ↔ part ∈ Bytes.splitAt 47 name := by
  obtain ⟨limit, hlimit⟩ : ∃ k, moves (through part) name = k + 1 :=
    Nat.exists_eq_succ_of_ne_zero (Nat.ne_zero_of_lt (lt_moves part name))
  have hmoves := lt_moves part name
  rw [isMatch, beq_iff_eq, hlimit, run_succ]
  cases name with
  | nil =>
    have hempty : 42 :: 42 :: 47 :: (part ++ [47, 42, 42]) ∉ emptyPatterns := by
      simp [emptyPatterns_eq]
    have hverdict := matchesEmpty_ne_true (by decide) hempty
    rw [step_of_drop_eq_nil rfl, outcome, List.drop_zero, through_eq]
    simp [hverdict, Bytes.splitAt, hne]
  | cons b rest =>
    have hstep : step (b :: rest) ⟨through part, 0, 0, none, none, true⟩ =
        .next (seeking (through part) 0) := by
      simp [step, through_eq, onStar, seeking]
    have henough : (part.length + 2) * ((b :: rest).length - 0 + 1) ≤ limit := by
      rw [Nat.sub_zero]
      omega
    rw [hstep, outcome, run_seeking hpart 0 henough, List.drop_zero]

end Seek

end Glob

namespace Path

theorem mem_foldl_push {rooted : Bool} {component : Bytes} {after stack : List Bytes}
    (hafter : utf8 ".." ∉ after) (h : component ∈ stack) :
    component ∈ after.foldl (push rooted) stack := by
  induction after generalizing stack with
  | nil => exact h
  | cons next rest ih =>
    obtain ⟨hnext, hrest⟩ := List.ne_and_not_mem_of_not_mem_cons hafter
    have hpush : component ∈ push rooted stack next := by
      unfold push
      rw [if_neg (Ne.symm hnext)]
      split_ifs
      · exact h
      · exact List.mem_cons_of_mem next h
    exact ih hrest hpush

theorem mem_components {path part : Bytes} (hname : IsName part) {before after : List Bytes}
    (h : path.splitAt separator = before ++ part :: after) (hafter : utf8 ".." ∉ after) :
    part ∈ components path := by
  rw [components, h, List.foldl_append, List.foldl_cons, push_of_isName hname, List.mem_reverse]
  exact mem_foldl_push hafter List.mem_cons_self

theorem mem_splitAt_clean {path component : Bytes} (h : component ∈ components path) :
    component ∈ (clean path).splitAt separator := by
  have hne : components path ≠ [] := List.ne_nil_of_mem h
  rw [splitAt_clean]
  split_ifs <;> simp [h]

end Path

/-- A plain name between two double stars excludes the paths that have it among the components of
their clean form, and no others. In any spelling, a path is excluded from this component on as long
as no double dot comes after it. -/
theorem isExcluded_through_iff {part : Bytes} (hname : Path.IsName part)
    (hplain : ∀ b ∈ part, Glob.IsPlain b) (path : Bytes) :
    (isExcluded [utf8 "**/" ++ part ++ utf8 "/**"] path = true ↔
        part ∈ (Path.clean path).splitAt Path.separator) ∧
      ∀ before after, path.splitAt Path.separator = before ++ part :: after →
        utf8 ".." ∉ after → isExcluded [utf8 "**/" ++ part ++ utf8 "/**"] path = true := by
  have hpart : ∀ b ∈ part, Glob.IsPlain b ∧ b ≠ 47 := by
    intro b hb
    refine ⟨hplain b hb, ?_⟩
    rintro rfl
    exact hname.separator_notMem hb
  have hmatch := Glob.isMatch_through_iff hname.ne_nil hpart
  have hiff : isExcluded [Glob.through part] path = true ↔
      part ∈ (Path.clean path).splitAt Path.separator := by
    simp [isExcluded, hmatch, Path.separator, Bytes.splitAt_append, Bytes.splitAt, hname.ne_nil]
  refine ⟨hiff, ?_⟩
  intro before after hsplit hafter
  exact hiff.mpr (Path.mem_splitAt_clean (Path.mem_components hname hsplit hafter))

theorem isExcluded_through_nodeModules :
    Path.IsName (utf8 "node_modules") ∧ (∀ b ∈ utf8 "node_modules", Glob.IsPlain b) ∧
      isExcluded [utf8 "**/node_modules/**"] (utf8 "./a//b/../node_modules/c.js") = true ∧
      isExcluded [utf8 "**/node_modules/**"] (utf8 "a/node_modules2/node_modules/..") = false := by
  have hname : Path.IsName (utf8 "node_modules") := by decide
  have hplain : ∀ b ∈ utf8 "node_modules", Glob.IsPlain b := by decide +kernel
  have hiff := fun path => (isExcluded_through_iff hname hplain path).1
  refine ⟨hname, hplain, (hiff _).mpr (by decide +kernel), ?_⟩
  exact Bool.eq_false_iff.mpr (mt (hiff _).mp (by decide +kernel))

end OrderLint
