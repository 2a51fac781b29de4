import Mathlib.Data.List.Basic
import Mathlib.Tactic.SplitIfs
import OrderLint.Text.Base64
import OrderLint.Text.CodePoint

/-!
# Code points and their bytes

The first byte of a code point tells how many bytes it has. So code points that are written one
after the other are told apart again, and a well-formed text is what its code points are written as.
Bytes that are no text are written in base 64, from which they are read back.
-/
namespace OrderLint

/-- Words of a code that are told apart, whatever follows them, are told apart in a row of them, up
to where no word begins. -/
theorem flatMap_append_inj {α : Type*} {word : α → Bytes} (Word : α → Prop) (Next : Bytes → Prop)
    (hword : ∀ a b r r', Word a → Word b → Next r → Next r' → word a ++ r = word b ++ r' →
      a = b ∧ r = r')
    (hnext : ∀ a r, Word a → Next r → Next (word a ++ r)) {stop stop' : Bytes}
    (hstop : Next stop ∧ ∀ a r, Word a → stop ≠ word a ++ r)
    (hstop' : Next stop' ∧ ∀ a r, Word a → stop' ≠ word a ++ r) {xs ys : List α}
    (hxs : ∀ a ∈ xs, Word a) (hys : ∀ a ∈ ys, Word a)
    (h : xs.flatMap word ++ stop = ys.flatMap word ++ stop') : xs = ys ∧ stop = stop' := by
  have hnexts : ∀ (zs : List α) (r : Bytes), (∀ a ∈ zs, Word a) → Next r →
      Next (zs.flatMap word ++ r) := by
    intro zs r hzs hr
    induction zs with
    | nil => exact hr
    | cons a zs ih =>
      rw [List.flatMap_cons, List.append_assoc]
      exact hnext a _ (hzs a (by simp)) (ih fun b hb => hzs b (by simp [hb]))
  induction xs generalizing ys with
  | nil =>
    cases ys with
    | nil => exact ⟨rfl, h⟩
    | cons b ys =>
      rw [List.flatMap_cons, List.append_assoc] at h
      exact absurd h (hstop.2 b _ (hys b (by simp)))
  | cons a xs ih =>
    rw [List.flatMap_cons, List.append_assoc] at h
    cases ys with
    | nil => exact absurd h.symm (hstop'.2 a _ (hxs a (by simp)))
    | cons b ys =>
      rw [List.flatMap_cons, List.append_assoc] at h
      have hxs' : ∀ a ∈ xs, Word a := fun c hc => hxs c (by simp [hc])
      have hys' : ∀ a ∈ ys, Word a := fun c hc => hys c (by simp [hc])
      obtain ⟨rfl, hrest⟩ := hword a b _ _ (hxs a (by simp)) (hys b (by simp))
        (hnexts xs stop hxs' hstop.1) (hnexts ys stop' hys' hstop'.1) h
      obtain ⟨rfl, rfl⟩ := ih hxs' hys' hrest
      exact ⟨rfl, rfl⟩

/-! ## Code points -/

theorem encode_append_inj {c d : ℕ} (hc : c < 0x200000) (hd : d < 0x200000) {r r' : Bytes}
    (h : encode c ++ r = encode d ++ r') : c = d ∧ r = r' := by
  unfold encode at h
  split_ifs at h
  all_goals
    simp only [List.cons_append, List.nil_append, List.cons.injEq, ← UInt8.toNat_inj, Nat.toUInt8,
      UInt8.toNat_ofNat'] at h
    first
    | exact ⟨by omega, by tauto⟩
    | omega

theorem encode_eq_singleton {c : ℕ} (h : c < 128) : encode c = [c.toUInt8] := if_pos h

theorem eq_of_encode_append_eq_cons {c : ℕ} (hc : c < 0x200000) {b : UInt8} (hb : b.toNat < 128)
    {r r' : Bytes} (h : encode c ++ r = b :: r') : c = b.toNat ∧ r = r' := by
  have hencode : encode b.toNat = [b] := by
    rw [encode_eq_singleton hb, Nat.toUInt8, UInt8.ofNat_toNat]
  rw [← List.singleton_append, ← hencode] at h
  exact encode_append_inj hc (by omega) h

theorem encode_of_decode? {a : UInt8} {rest : Bytes} {code width : ℕ}
    (h : decode? (a :: rest) = some (code, width)) :
    code < 0x200000 ∧ 0 < width ∧ encode code = (a :: rest).take width := by
  have ha := a.toNat_lt
  simp only [decode?.eq_def, isContinuation, UInt8.lt_iff_toNat_lt, UInt8.le_iff_toNat_le,
    ← UInt8.toNat_inj, UInt8.reduceToNat, Bool.and_eq_true, decide_eq_true_eq] at h
  by_cases hone : a.toNat < 128
  · simp only [hone, if_true, Option.some.injEq, Prod.mk.injEq] at h
    obtain ⟨rfl, rfl⟩ := h
    exact ⟨by omega, by omega, by simp [encode, hone, Nat.toUInt8]⟩
  by_cases htwo : a.toNat < 224
  · simp only [hone, htwo, if_false, if_true, Option.ite_none_left_eq_some] at h
    obtain ⟨hlow, h⟩ := h
    split at h
    case h_2 => cases h
    case h_1 b tail =>
      simp only [Option.ite_none_right_eq_some, Option.some.injEq, Prod.mk.injEq] at h
      obtain ⟨hb, rfl, rfl⟩ := h
      refine ⟨by omega, by omega, ?_⟩
      rw [encode, if_neg (by omega), if_pos (by omega)]
      simp only [List.take_succ_cons, List.take_zero, List.cons.injEq, ← UInt8.toNat_inj,
        Nat.toUInt8, UInt8.toNat_ofNat', and_true]
      omega
  have hlow : ¬ a.toNat < 194 := by omega
  by_cases hthree : a.toNat < 240
  · simp only [hone, hlow, htwo, hthree, if_false, if_true] at h
    split at h
    case h_2 => cases h
    case h_1 b c tail =>
      simp only [Option.ite_none_right_eq_some, Option.some.injEq, Prod.mk.injEq] at h
      obtain ⟨⟨⟨hlowest, hhighest⟩, hc⟩, rfl, rfl⟩ := h
      -- Overlong forms and surrogates are left out by the bounds on the second byte.
      have hb : (a.toNat = 224 → 160 ≤ b.toNat) ∧ 128 ≤ b.toNat ∧ b.toNat ≤ 191 := by
        split_ifs at hlowest hhighest <;> simp only [UInt8.reduceToNat] at hlowest hhighest <;>
          omega
      refine ⟨by omega, by omega, ?_⟩
      rw [encode, if_neg (by omega), if_neg (by omega), if_pos (by omega)]
      simp only [List.take_succ_cons, List.take_zero, List.cons.injEq, ← UInt8.toNat_inj,
        Nat.toUInt8, UInt8.toNat_ofNat', and_true]
      omega
  simp only [hone, hlow, htwo, hthree, if_false, Option.ite_none_right_eq_some] at h
  obtain ⟨hfour, h⟩ := h
  split at h
  case h_2 => cases h
  case h_1 b c d tail =>
    simp only [Option.ite_none_right_eq_some, Option.some.injEq, Prod.mk.injEq] at h
    obtain ⟨⟨⟨⟨hlowest, hhighest⟩, hc⟩, hd⟩, rfl, rfl⟩ := h
    have hb : (a.toNat = 240 → 144 ≤ b.toNat) ∧ 128 ≤ b.toNat ∧ b.toNat ≤ 191 := by
      split_ifs at hlowest hhighest <;> simp only [UInt8.reduceToNat] at hlowest hhighest <;> omega
    refine ⟨by omega, by omega, ?_⟩
    rw [encode, if_neg (by omega), if_neg (by omega), if_neg (by omega)]
    simp only [List.take_succ_cons, List.take_zero, List.cons.injEq, ← UInt8.toNat_inj,
      Nat.toUInt8, UInt8.toNat_ofNat', and_true]
    omega

theorem le_of_decode? {b : UInt8} {rest : Bytes} {code width : ℕ} (hb : ¬ b < 0x80)
    (h : decode? (b :: rest) = some (code, width)) : 128 ≤ code := by
  obtain ⟨-, hwidth, hencode⟩ := encode_of_decode? h
  obtain ⟨width, rfl⟩ := Nat.exists_eq_add_one.mpr hwidth
  by_contra hlt
  rw [encode_eq_singleton (by omega), List.take_succ_cons] at hencode
  obtain ⟨rfl, -⟩ := List.cons.inj hencode
  simp only [UInt8.lt_iff_toNat_lt, Nat.toUInt8, UInt8.toNat_ofNat', UInt8.reduceToNat] at hb
  omega

theorem encode_firstPiece (b : UInt8) (rest : Bytes) : (firstPiece b rest).code < 0x200000 ∧
    ((firstPiece b rest).isChar → encode (firstPiece b rest).code
      ++ rest.drop ((firstPiece b rest).bytes.length - 1) = b :: rest) := by
  rw [firstPiece]
  cases hd : decode? (b :: rest) with
  | none => exact ⟨by simp [Piece.code, replacement], by simp [Piece.isChar]⟩
  | some found =>
    obtain ⟨code, width⟩ := found
    obtain ⟨hcode, hwidth, hencode⟩ := encode_of_decode? hd
    obtain ⟨width, rfl⟩ := Nat.exists_eq_add_one.mpr hwidth
    refine ⟨hcode, fun _ => ?_⟩
    simp only [Piece.code, Piece.bytes, hencode]
    rw [List.take_succ_cons, Nat.add_sub_cancel, List.length_cons, Nat.add_sub_cancel,
      List.length_take, List.cons_append, List.take_eq_take_min, List.take_append_drop]

theorem flatMap_encode_piecesUpTo {limit : ℕ} {s : Bytes} (hlimit : s.length ≤ limit) :
    (∀ piece ∈ piecesUpTo limit s, piece.code < 0x200000) ∧
    ((piecesUpTo limit s).all Piece.isChar →
      ((piecesUpTo limit s).map (·.code)).flatMap encode = s) := by
  induction limit generalizing s with
  | zero => simp [piecesUpTo, List.length_eq_zero_iff.mp (Nat.le_zero.mp hlimit)]
  | succ limit ih =>
    cases s with
    | nil => simp [piecesUpTo]
    | cons b rest =>
      obtain ⟨hcode, hfirst⟩ := encode_firstPiece b rest
      have hlength : (rest.drop ((firstPiece b rest).bytes.length - 1)).length ≤ limit := by
        simp at hlimit ⊢
        omega
      obtain ⟨hcodes, hrest⟩ := ih hlength
      rw [piecesUpTo]
      refine ⟨by simpa using ⟨hcode, hcodes⟩, fun hall => ?_⟩
      obtain ⟨hchar, hchars⟩ := Bool.and_eq_true_iff.mp hall
      rw [List.map_cons, List.flatMap_cons, hrest hchars, hfirst hchar]

theorem isUtf8_of_ascii {s : Bytes} (h : ∀ b ∈ s, b.toNat < 128) : isUtf8 s := by
  have hpieces : ∀ (limit : ℕ) (s : Bytes), (∀ b ∈ s, b.toNat < 128) →
      (piecesUpTo limit s).all Piece.isChar := by
    intro limit
    induction limit with
    | zero => simp [piecesUpTo]
    | succ limit ih =>
      intro s hs
      cases s with
      | nil => simp [piecesUpTo]
      | cons b rest =>
        have hb : b < 0x80 := hs b (by simp)
        have hfirst : firstPiece b rest = .char b.toNat [b] := by simp [firstPiece, decode?, hb]
        rw [piecesUpTo, List.all_cons, hfirst,
          ih _ fun c hc => hs c (by simp [List.mem_of_mem_drop hc])]
        rfl
  exact hpieces s.length s h

/-! ## Base 64 -/

namespace Base64

theorem digit_range (n : ℕ) : 32 < (digit n).toNat ∧ (digit n).toNat < 128 := by
  unfold digit
  split_ifs <;> simp only [Nat.toUInt8, UInt8.toNat_ofNat', UInt8.reduceToNat] <;> omega

theorem encode_range (s : Bytes) : ∀ b ∈ encode s, 32 < b.toNat ∧ b.toNat < 128 := by
  fun_induction encode s with
  | case1 => simp
  | case2 | case3 => simp [digit_range, filler]
  | case4 a b c rest n ih => simpa [digit_range] using ih

theorem digitValue?_digit : ∀ n < 64, digitValue? (digit n) = some n := by
  decide

theorem digit_ne_filler {n : ℕ} (h : n < 64) : digit n ≠ 61 := by
  intro heq
  have hvalue := digitValue?_digit n h
  rw [heq] at hvalue
  cases hvalue

theorem decodeGroups?_encode (s : Bytes) : decodeGroups? (encode s) = some s := by
  fun_induction encode s with
  | case1 => rfl
  | case2 a n =>
    have ha := a.toNat_lt
    rw [filler, decodeGroups?, digitValue?_digit _ (by omega), digitValue?_digit _ (by omega)]
    simp only [Option.bind_eq_bind, Option.bind_some, Option.pure_def, Option.some.injEq,
      List.cons.injEq, ← UInt8.toNat_inj, Nat.toUInt8, UInt8.toNat_ofNat', and_true]
    omega
  | case3 a b n =>
    have ha := a.toNat_lt
    have hb := b.toNat_lt
    have hdigit : digit (n % 64) ≠ 61 := digit_ne_filler (by omega)
    rw [filler, decodeGroups?, digitValue?_digit _ (by omega), digitValue?_digit _ (by omega),
      digitValue?_digit _ (by omega)]
    · simp only [Option.bind_eq_bind, Option.bind_some, Option.pure_def, Option.some.injEq,
        List.cons.injEq, ← UInt8.toNat_inj, Nat.toUInt8, UInt8.toNat_ofNat', and_true]
      omega
    · exact hdigit
  | case4 a b c rest n ih =>
    have ha := a.toNat_lt
    have hb := b.toNat_lt
    have hc := c.toNat_lt
    -- A group that ends in a digit is no last group with fillers.
    have hdigit : digit (n % 64) ≠ 61 := digit_ne_filler (by omega)
    rw [decodeGroups?, ih, digitValue?_digit _ (by omega), digitValue?_digit _ (by omega),
      digitValue?_digit _ (by omega), digitValue?_digit _ (by omega)]
    · simp only [Option.bind_eq_bind, Option.bind_some, Option.pure_def, Option.some.injEq,
        List.cons.injEq, ← UInt8.toNat_inj, Nat.toUInt8, UInt8.toNat_ofNat', and_true]
      omega
    · exact fun _ h _ => hdigit h
    · exact fun h _ => hdigit h

theorem encode_injective : Function.Injective encode := by
  intro s t h
  have hs := decodeGroups?_encode s
  rw [h, decodeGroups?_encode t] at hs
  exact (Option.some.inj hs).symm

end Base64

end OrderLint
