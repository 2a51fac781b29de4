import Mathlib
import OrderLint.Text.Decimal
import OrderLint.Text.Numeral

/-!
# Numerals that are read back

The numeral of a machine integer has no leading zero and no underscore, so it is read in base ten,
and the value that is read is the integer itself.
-/
namespace OrderLint

def decimalDigit (n : ℕ) : UInt8 := (48 + n).toUInt8

theorem decimalNat_eq (n : ℕ) :
    decimalNat n =
      (if n < 10 then [] else decimalNat (n / 10)) ++ [decimalDigit (n % 10)] := by
  have hdigit : ∀ d < 10, (Nat.digitChar d).toNat.toUInt8 = decimalDigit d := by decide
  unfold decimalNat
  rw [Nat.toDigits_eq_if (by omega)]
  split_ifs with h
  · simp [hdigit n h, Nat.mod_eq_of_lt h]
  · simp [hdigit (n % 10) (Nat.mod_lt _ (by omega))]

theorem mem_decimalNat {n : ℕ} {b : UInt8} (h : b ∈ decimalNat n) : isAsciiDigit b = true := by
  induction n using Nat.strong_induction_on with
  | _ n ih =>
    have hdigit : ∀ d < 10, isAsciiDigit (decimalDigit d) = true := by decide
    rw [decimalNat_eq, List.mem_append, List.mem_singleton] at h
    rcases h with h | rfl
    · split_ifs at h with hn
      · simp at h
      · exact ih (n / 10) (by omega) h
    · exact hdigit _ (Nat.mod_lt _ (by omega))

theorem decimalNat_ne_nil (n : ℕ) : decimalNat n ≠ [] := by
  rw [decimalNat_eq]
  simp

theorem head?_decimalNat {n : ℕ} (h : 0 < n) : (decimalNat n).head? ≠ some 48 := by
  induction n using Nat.strong_induction_on with
  | _ n ih =>
    have hdigit : ∀ d < 10, 0 < d → decimalDigit d ≠ 48 := by decide
    rw [decimalNat_eq]
    split_ifs with hn
    · simpa [Nat.mod_eq_of_lt hn] using hdigit n hn h
    · rw [List.head?_append_of_ne_nil _ (decimalNat_ne_nil _)]
      exact ih (n / 10) (by omega) (by omega)

namespace Numeral

theorem accumulate_append {base read m : ℕ} {s : Bytes} (h : accumulate base read s = .ok m)
    (t : Bytes) : accumulate base read (s ++ t) = accumulate base m t := by
  induction s generalizing read with
  | nil =>
    cases h
    rfl
  | cons b rest ih =>
    rw [List.cons_append, accumulate]
    rw [accumulate] at h
    split_ifs at h ⊢ with hmark
    · exact ih h
    · split at h
      · cases h
      · split_ifs at h ⊢
        exact ih h

theorem accumulate_decimalNat {n : ℕ} (h : n < Nat.pow 2 64) :
    accumulate 10 0 (decimalNat n) = .ok n := by
  induction n using Nat.strong_induction_on with
  | _ n ih =>
    have hdigit : ∀ d < 10, decimalDigit d ≠ 95 ∧ digitValue? (decimalDigit d) = some d := by decide
    obtain ⟨hmark, hvalue⟩ := hdigit (n % 10) (Nat.mod_lt _ (by omega))
    have hlast : ∀ read, read * 10 + n % 10 = n →
        accumulate 10 read [decimalDigit (n % 10)] = .ok n := by
      intro read hread
      have hten : ¬ 10 ≤ n % 10 := by omega
      have hfits : ¬ Nat.pow 2 64 ≤ n := by omega
      simp only [accumulate, beq_iff_eq, hmark, hvalue, hten, hread, hfits, if_false]
    rw [decimalNat_eq]
    split_ifs with hn
    · exact hlast 0 (by omega)
    · rw [accumulate_append (ih (n / 10) (by omega) (by omega))]
      exact hlast (n / 10) (by omega)

theorem separated_of_notMem {s : Bytes} (h : 95 ∉ s) (afterDigit : Bool) :
    separated afterDigit s = true := by
  induction s generalizing afterDigit with
  | nil => rfl
  | cons b rest ih =>
    obtain ⟨hb, hrest⟩ := List.ne_and_not_mem_of_not_mem_cons h
    unfold separated
    split
    · rfl
    · simp_all
    · simp_all

theorem readUnsigned_decimalNat {n : ℕ} (h : n < Nat.pow 2 64) :
    readUnsigned (decimalNat n) = .ok n := by
  by_cases hn : n = 0
  · rw [hn]
    decide
  have hhead := head?_decimalNat (Nat.pos_of_ne_zero hn)
  have hmarks : 95 ∉ decimalNat n := fun hmem => absurd (mem_decimalNat hmem) (by decide)
  have hvalue := accumulate_decimalNat h
  obtain ⟨b, rest, hs⟩ := List.exists_cons_of_ne_nil (decimalNat_ne_nil n)
  rw [hs] at hhead hmarks hvalue ⊢
  have hb : b ≠ 48 := fun hb => hhead (by simp [hb])
  have hbase : splitBase (b :: rest) = (10, b :: rest) := by
    unfold splitBase
    split <;> simp_all
  have hplaced : underscoresPlaced (b :: rest) = true := by
    unfold underscoresPlaced
    split
    · simp_all
    · exact separated_of_notMem hmarks false
  simp [readUnsigned, hbase, hvalue, hplaced]

theorem withSign_of_ne (size : Bytes → Except NumberFault ℕ) {b : UInt8} {rest : Bytes}
    (hplus : b ≠ 43) (hminus : b ≠ 45) :
    withSign size (b :: rest) = match size (b :: rest) with
      | .error fault => .error fault
      | .ok n => if Nat.pow 2 63 ≤ n then .error .outOfRange else .ok (Int64.ofInt n) := by
  unfold withSign
  split
  next negative digits hdigits =>
    obtain ⟨rfl, rfl⟩ : negative = false ∧ b :: rest = digits := by
      simpa [hplus, hminus] using hdigits
    rfl

theorem readSigned_decimal (n : Int64) : readSigned (decimal n) = .ok n := by
  have hlow := n.le_toInt
  have hhigh := n.toInt_lt
  have hsize : n.toInt.natAbs < Nat.pow 2 64 := by norm_num; omega
  have hread := readUnsigned_decimalNat hsize
  unfold decimal decimalInt
  split_ifs with hneg
  · have habs : (-(n.toInt.natAbs : ℤ)) = n.toInt := by omega
    have hfits : ¬ Nat.pow 2 63 < n.toInt.natAbs := by norm_num; omega
    simp only [readSigned, withSign, hread, if_true, hfits, if_false, habs, Int64.ofInt_toInt]
  · have habs : (n.toInt.natAbs : ℤ) = n.toInt := by omega
    have hfits : ¬ Nat.pow 2 63 ≤ n.toInt.natAbs := by norm_num; omega
    obtain ⟨b, rest, hs⟩ := List.exists_cons_of_ne_nil (decimalNat_ne_nil n.toInt.natAbs)
    have hb : isAsciiDigit b = true := mem_decimalNat (hs ▸ List.mem_cons_self)
    have hplus : b ≠ 43 := by rintro rfl; simp [isAsciiDigit] at hb
    have hminus : b ≠ 45 := by rintro rfl; simp [isAsciiDigit] at hb
    rw [readSigned, hs, withSign_of_ne _ hplus hminus, ← hs, hread]
    simp [hfits, habs]

end Numeral

end OrderLint
