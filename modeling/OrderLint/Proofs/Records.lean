import Mathlib
import OrderLint.Text.Csv

/-!
# Lists joined into one record

Joining texts with commas and reading the result as one record are inverse to each other only on
some lists. Reading never gives back more bytes than it was given: quotes and line breaks are used
up, and so is a carriage return at the end. When the fields that are read make up the whole text,
there was none of these, and the fields are the pieces between the commas. So the lists that come
back are exactly those in which nothing is used up or cut.
-/
namespace OrderLint

namespace Bytes

variable (separator : UInt8)

theorem splitAt_ne_nil (s : Bytes) : s.splitAt separator ≠ [] := by
  cases s with
  | nil => simp [splitAt]
  | cons b rest =>
    rw [splitAt]
    split_ifs
    · simp
    · split <;> simp

theorem joined_nil_cons {parts : List Bytes} (h : parts ≠ []) :
    joined [separator] ([] :: parts) = separator :: joined [separator] parts := by
  obtain ⟨part, parts, rfl⟩ := List.exists_cons_of_ne_nil h
  rfl

theorem joined_cons_cons (b : UInt8) (part : Bytes) (parts : List Bytes) :
    joined [separator] ((b :: part) :: parts) = b :: joined [separator] (part :: parts) := by
  cases parts <;> rfl

theorem splitAt_cons_of_ne {b : UInt8} (h : b ≠ separator) {rest piece : Bytes}
    {pieces : List Bytes} (hrest : rest.splitAt separator = piece :: pieces) :
    splitAt separator (b :: rest) = (b :: piece) :: pieces := by
  simp only [splitAt, h, if_false, hrest]

theorem notMem_of_mem_splitAt {s piece : Bytes} (h : piece ∈ s.splitAt separator) :
    separator ∉ piece := by
  induction s generalizing piece with
  | nil =>
    obtain rfl : piece = [] := by simpa [splitAt] using h
    simp
  | cons b rest ih =>
    by_cases hb : b = separator
    · rw [splitAt, if_pos hb] at h
      rcases List.mem_cons.mp h with rfl | h
      · simp
      · exact ih h
    · obtain ⟨first, pieces, hrest⟩ := List.exists_cons_of_ne_nil (splitAt_ne_nil separator rest)
      rw [splitAt_cons_of_ne separator hb hrest] at h
      rw [hrest] at ih
      rcases List.mem_cons.mp h with rfl | h
      · have hfirst : separator ∉ first := ih (by simp)
        simp [Ne.symm hb, hfirst]
      · exact ih (by simp [h])

theorem splitAt_append_of_notMem {part : Bytes} (h : separator ∉ part) (rest : Bytes) :
    splitAt separator (part ++ separator :: rest) = part :: splitAt separator rest := by
  induction part with
  | nil => simp [splitAt]
  | cons b part ih =>
    obtain ⟨hb, hpart⟩ := List.ne_and_not_mem_of_not_mem_cons h
    exact splitAt_cons_of_ne separator (Ne.symm hb) (ih hpart)

theorem splitAt_of_notMem {part : Bytes} (h : separator ∉ part) :
    splitAt separator part = [part] := by
  induction part with
  | nil => rfl
  | cons b part ih =>
    obtain ⟨hb, hpart⟩ := List.ne_and_not_mem_of_not_mem_cons h
    exact splitAt_cons_of_ne separator (Ne.symm hb) (ih hpart)

theorem splitAt_joined {parts : List Bytes} (hne : parts ≠ [])
    (h : ∀ part ∈ parts, separator ∉ part) :
    splitAt separator (joined [separator] parts) = parts := by
  induction parts with
  | nil => exact absurd rfl hne
  | cons part parts ih =>
    obtain ⟨hpart, hparts⟩ := List.forall_mem_cons.mp h
    cases parts with
    | nil => exact splitAt_of_notMem separator hpart
    | cons next parts =>
      have hjoined : joined [separator] (part :: next :: parts) =
          part ++ separator :: joined [separator] (next :: parts) := by
        simp [joined]
      rw [hjoined, splitAt_append_of_notMem separator hpart, ih (by simp) hparts]

theorem mem_joined {parts : List Bytes} {b : UInt8} (h : b ∈ joined [separator] parts) :
    b = separator ∨ ∃ part ∈ parts, b ∈ part := by
  induction parts with
  | nil => simp [joined] at h
  | cons part parts ih =>
    cases parts with
    | nil => exact .inr ⟨part, by simp, h⟩
    | cons next parts =>
      simp only [joined, List.mem_append, List.mem_singleton] at h
      rcases h with (h | h) | h
      · exact .inr ⟨part, by simp, h⟩
      · exact .inl h
      · rcases ih h with h | ⟨found, hfound, h⟩
        · exact .inl h
        · exact .inr ⟨found, by simp [hfound], h⟩

theorem notMem_joined {b : UInt8} {parts : List Bytes} (hb : b ≠ separator)
    (h : ∀ part ∈ parts, b ∉ part) : b ∉ joined [separator] parts := by
  intro hmem
  rcases mem_joined separator hmem with heq | ⟨part, hpart, hmem⟩
  · exact hb heq
  · exact h part hpart hmem

theorem mem_joined_of_mem {parts : List Bytes} {part : Bytes} (hpart : part ∈ parts) {b : UInt8}
    (h : b ∈ part) : b ∈ joined [separator] parts := by
  induction parts with
  | nil => simp at hpart
  | cons first parts ih =>
    cases parts with
    | nil => simpa [joined, List.mem_singleton.mp hpart] using h
    | cons next parts =>
      simp only [joined, List.mem_append]
      rcases List.mem_cons.mp hpart with rfl | hpart
      · exact .inl (.inl h)
      · exact .inr (ih hpart)

theorem getLast?_joined {b : UInt8} (hb : b ≠ separator) (parts : List Bytes) :
    (joined [separator] parts).getLast? = some b ↔
      ∃ part ∈ parts.getLast?, part.getLast? = some b := by
  induction parts with
  | nil => simp [joined]
  | cons part parts ih =>
    cases parts with
    | nil => simp [joined]
    | cons next parts =>
      rw [List.getLast?_cons_cons, ← ih]
      cases hrest : (joined [separator] (next :: parts)).getLast? with
      | none => simp [joined, List.getLast?_cons, hrest, Ne.symm hb]
      | some last => simp [joined, List.getLast?_cons, hrest]

end Bytes

theorem map_eq_ok {ε α β : Type*} {f : α → β} {x : Except ε α} {y : β}
    (h : x.map f = .ok y) : ∃ a, x = .ok a ∧ f a = y := by
  cases x with
  | error e => cases h
  | ok a => exact ⟨a, rfl, Except.ok.inj h⟩

namespace Csv

/-- The lists that come back when they are joined with commas and read as one record. -/
structure Joinable (items : List Bytes) : Prop where
  ne_blank : items ≠ [[]]
  comma : ∀ item ∈ items, 44 ∉ item
  quote : ∀ item ∈ items, 34 ∉ item
  lineFeed : ∀ item ∈ items, 10 ∉ item
  carriageReturn : ∀ item ∈ items.getLast?, item.getLast? ≠ some 13

theorem consByte_eq (b : UInt8) {fields : List Bytes} (h : fields ≠ []) :
    Bytes.joined [44] (consByte b fields) = b :: Bytes.joined [44] fields := by
  obtain ⟨field, fields, rfl⟩ := List.exists_cons_of_ne_nil h
  exact Bytes.joined_cons_cons 44 b field fields

theorem consByte_ne_nil (b : UInt8) (fields : List Bytes) : consByte b fields ≠ [] := by
  cases fields <;> simp [consByte]

theorem scan_eq_splitAt (recordLine : ℕ) {state : State} (hstate : state = .fresh ∨ state = .plain)
    (line column : ℕ) {s : Bytes} (hquote : 34 ∉ s) (hfeed : 10 ∉ s) :
    scan recordLine state line column s = .ok (s.splitAt 44) := by
  induction s generalizing state column with
  | nil => rcases hstate with rfl | rfl <;> rfl
  | cons b rest ih =>
    obtain ⟨hb, hquote⟩ := List.ne_and_not_mem_of_not_mem_cons hquote
    obtain ⟨hb', hfeed⟩ := List.ne_and_not_mem_of_not_mem_cons hfeed
    have hfresh := ih (.inl rfl) (column + 1) hquote hfeed
    have hplain := ih (.inr rfl) (column + 1) hquote hfeed
    by_cases hcomma : b = 44
    · rcases hstate with rfl | rfl <;> simp [scan, Bytes.splitAt, hcomma, hfresh, Except.map]
    · obtain ⟨piece, pieces, hpieces⟩ :=
        List.exists_cons_of_ne_nil (Bytes.splitAt_ne_nil 44 rest)
      rw [Bytes.splitAt_cons_of_ne 44 hcomma hpieces]
      rcases hstate with rfl | rfl <;>
        simp [scan, hcomma, Ne.symm hb, Ne.symm hb', hplain, hpieces, Except.map, consByte]

/-- How much of a text fields read from it can make up: less than the whole from inside quotes, and
from outside when a quote or a line break is still to come. -/
structure Fits (state : State) (s : Bytes) (fields : List Bytes) : Prop where
  ne_nil : fields ≠ []
  length_le : (Bytes.joined [44] fields).length ≤ s.length
  length_lt : state = .quoted ∨ state ≠ .closed ∧ (34 ∈ s ∨ 10 ∈ s) →
    (Bytes.joined [44] fields).length < s.length

namespace Fits

variable {state : State} {b : UInt8} {rest : Bytes} {fields : List Bytes}

theorem ended (hstate : state ≠ .quoted) : Fits state [] [[]] :=
  ⟨by simp, by simp [Bytes.joined], by simp [hstate]⟩

theorem lineEnd : Fits state (b :: rest) [[]] :=
  ⟨by simp, by simp [Bytes.joined], by simp [Bytes.joined]⟩

theorem comma (h : Fits .fresh rest fields) (hstate : state ≠ .quoted) :
    Fits state (44 :: rest) ([] :: fields) := by
  have hlength := congrArg List.length (Bytes.joined_nil_cons 44 h.ne_nil)
  have hle := h.length_le
  have hlt := h.length_lt
  refine ⟨by simp, ?_, ?_⟩ <;> simp_all

theorem byte (h : Fits .plain rest fields) (hstate : state ≠ .quoted) (hquote : b ≠ 34)
    (hfeed : b ≠ 10) : Fits state (b :: rest) (consByte b fields) := by
  have hlength := congrArg List.length (consByte_eq b h.ne_nil)
  have hle := h.length_le
  have hlt := h.length_lt
  refine ⟨consByte_ne_nil b fields, ?_, ?_⟩ <;> simp_all [Ne.symm hquote, Ne.symm hfeed]

theorem quotedByte (h : Fits .quoted rest fields) : Fits state (b :: rest) (consByte b fields) := by
  have hlength := congrArg List.length (consByte_eq b h.ne_nil)
  have hlt := h.length_lt (.inl rfl)
  simp only [List.length_cons] at hlength
  exact ⟨consByte_ne_nil b fields, by simp; omega, fun _ => by simp; omega⟩

theorem openQuote (h : Fits .quoted rest fields) : Fits state (b :: rest) fields := by
  have hlt := h.length_lt (.inl rfl)
  exact ⟨h.ne_nil, by simp; omega, fun _ => by simp; omega⟩

theorem closeQuote (h : Fits .closed rest fields) : Fits state (b :: rest) fields := by
  have hle := h.length_le
  exact ⟨h.ne_nil, by simp; omega, fun _ => by simp; omega⟩

end Fits

theorem fits_scan (recordLine : ℕ) {state : State} {line column : ℕ} {s : Bytes}
    {fields : List Bytes} (h : scan recordLine state line column s = .ok fields) :
    Fits state s fields := by
  induction s generalizing state line column fields with
  | nil => cases state <;> cases h <;> exact .ended (by simp)
  | cons b rest ih =>
    cases state with
    | fresh =>
      simp only [scan] at h
      split_ifs at h with hcomma hfeed hquote
      · obtain ⟨inner, hinner, rfl⟩ := map_eq_ok h
        exact hcomma ▸ (ih hinner).comma (by simp)
      · cases h
        exact .lineEnd
      · exact (ih h).openQuote
      · obtain ⟨inner, hinner, rfl⟩ := map_eq_ok h
        exact (ih hinner).byte (by simp) hquote hfeed
    | plain =>
      simp only [scan, reduceCtorEq, if_false] at h
      split_ifs at h with hcomma hfeed hquote
      · obtain ⟨inner, hinner, rfl⟩ := map_eq_ok h
        exact hcomma ▸ (ih hinner).comma (by simp)
      · cases h
        exact .lineEnd
      · obtain ⟨inner, hinner, rfl⟩ := map_eq_ok h
        exact (ih hinner).byte (by simp) hquote hfeed
    | quoted =>
      simp only [scan] at h
      split_ifs at h with hquote hfeed
      · exact (ih h).closeQuote
      · obtain ⟨inner, hinner, rfl⟩ := map_eq_ok h
        exact (ih hinner).quotedByte
      · obtain ⟨inner, hinner, rfl⟩ := map_eq_ok h
        exact (ih hinner).quotedByte
    | closed =>
      simp only [scan] at h
      split_ifs at h with hquote hcomma hfeed
      · obtain ⟨inner, hinner, rfl⟩ := map_eq_ok h
        exact (ih hinner).quotedByte
      · obtain ⟨inner, hinner, rfl⟩ := map_eq_ok h
        exact hcomma ▸ (ih hinner).comma (by simp)
      · cases h
        exact .lineEnd

theorem fits_scanRecord {line : ℕ} {s : Bytes} {fields : List Bytes}
    (h : scanRecord line s = .ok fields) : Fits .fresh s fields := by
  induction s generalizing line with
  | nil => cases h
  | cons b rest ih =>
    rw [scanRecord] at h
    split_ifs at h with hfeed
    · have hrest := ih h
      have hle := hrest.length_le
      exact ⟨hrest.ne_nil, by simp; omega, fun _ => by simp; omega⟩
    · exact fits_scan line h

theorem normalized_sublist (s : Bytes) : (normalized s).Sublist s := by
  fun_induction normalized s with
  | case1 => exact .slnil
  | case2 => simp
  | case3 b h => simp
  | case4 b c rest h ih => exact ih.cons b
  | case5 b c rest h ih => exact ih.cons_cons b

theorem normalized_eq_self {s : Bytes} (hfeed : 10 ∉ s) (hlast : s.getLast? ≠ some 13) :
    normalized s = s := by
  fun_induction normalized s with
  | case1 => rfl
  | case2 => simp at hlast
  | case3 b h => rfl
  | case4 b c rest h ih => simp [h.2] at hfeed
  | case5 b c rest h ih =>
    rw [ih (fun hmem => hfeed (List.mem_cons_of_mem b hmem)) (by simpa using hlast)]

theorem length_normalized_lt {s : Bytes} (hlast : s.getLast? = some 13) :
    (normalized s).length < s.length := by
  fun_induction normalized s with
  | case1 => simp at hlast
  | case2 => simp
  | case3 b h => simp_all
  | case4 b c rest h ih =>
    have hrest := ih (by simpa using hlast)
    simp only [List.length_cons] at hrest ⊢
    omega
  | case5 b c rest h ih =>
    have hrest := ih (by simpa using hlast)
    simp only [List.length_cons] at hrest ⊢
    omega

theorem scanRecord_eq_splitAt {line : ℕ} {s : Bytes} (hne : s ≠ []) (hquote : 34 ∉ s)
    (hfeed : 10 ∉ s) : scanRecord line s = .ok (s.splitAt 44) := by
  obtain ⟨b, rest, rfl⟩ := List.exists_cons_of_ne_nil hne
  have hb : b ≠ 10 := fun h => hfeed (by simp [h])
  rw [scanRecord, if_neg hb]
  exact scan_eq_splitAt line (.inl rfl) line 1 hquote hfeed

theorem members_joined_of_joinable {items : List Bytes} (h : Joinable items) :
    members (Bytes.joined [44] items) = .ok items := by
  by_cases hnil : items = []
  · rw [hnil]
    rfl
  have hsplit := Bytes.splitAt_joined 44 hnil h.comma
  have hne : Bytes.joined [44] items ≠ [] := by
    intro hempty
    rw [hempty] at hsplit
    exact h.ne_blank hsplit.symm
  have hquote : 34 ∉ Bytes.joined [44] items := Bytes.notMem_joined 44 (by decide) h.quote
  have hfeed : 10 ∉ Bytes.joined [44] items := Bytes.notMem_joined 44 (by decide) h.lineFeed
  have hlast : (Bytes.joined [44] items).getLast? ≠ some 13 := by
    rw [ne_eq, Bytes.getLast?_joined 44 (by decide)]
    rintro ⟨item, hitem, hend⟩
    exact h.carriageReturn item hitem hend
  rw [members, if_neg hne, record, normalized_eq_self hfeed hlast,
    scanRecord_eq_splitAt hne hquote hfeed, hsplit]

theorem joinable_of_members_joined {items : List Bytes}
    (h : members (Bytes.joined [44] items) = .ok items) : Joinable items := by
  by_cases hne : Bytes.joined [44] items = []
  · rw [hne] at h
    obtain rfl : [] = items := Except.ok.inj h
    constructor <;> simp
  rw [members, if_neg hne, record] at h
  -- The fields make up all that was given, so nothing was used up on the way.
  have hfits := fits_scanRecord h
  have hsublist := normalized_sublist (Bytes.joined [44] items)
  have hwhole : normalized (Bytes.joined [44] items) = Bytes.joined [44] items :=
    hsublist.eq_of_length (le_antisymm hsublist.length_le hfits.length_le)
  have hmarks : ¬ (34 ∈ Bytes.joined [44] items ∨ 10 ∈ Bytes.joined [44] items) := by
    intro hmem
    have hlt := hfits.length_lt (.inr ⟨by simp, by rwa [hwhole]⟩)
    rw [hwhole] at hlt
    exact lt_irrefl _ hlt
  obtain ⟨hquote, hfeed⟩ := not_or.mp hmarks
  rw [hwhole, scanRecord_eq_splitAt hne hquote hfeed] at h
  have hsplit := Except.ok.inj h
  refine ⟨fun hblank => hne (by rw [hblank]; rfl), ?_, ?_, ?_, ?_⟩
  · intro item hitem
    exact Bytes.notMem_of_mem_splitAt 44 (hsplit ▸ hitem)
  · exact fun item hitem hmem => hquote (Bytes.mem_joined_of_mem 44 hitem hmem)
  · exact fun item hitem hmem => hfeed (Bytes.mem_joined_of_mem 44 hitem hmem)
  · intro item hitem hend
    have hlast := (Bytes.getLast?_joined 44 (by decide) items).mpr ⟨item, hitem, hend⟩
    have hlt := length_normalized_lt hlast
    rw [hwhole] at hlt
    exact lt_irrefl _ hlt

theorem members_joined_iff (items : List Bytes) :
    members (Bytes.joined [44] items) = .ok items ↔ Joinable items :=
  ⟨joinable_of_members_joined, members_joined_of_joinable⟩

end Csv

end OrderLint
