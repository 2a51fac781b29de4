import OrderLint.Text.Bytes

/-!
# Decimal numerals

Numbers are written in base ten, without leading zeros, a minus sign before a negative one.
-/
namespace OrderLint

def decimalNat (n : Nat) : Bytes := (Nat.toDigits 10 n).map fun c => c.toNat.toUInt8

def decimalInt (n : Int) : Bytes :=
  if n < 0 then 45 :: decimalNat n.natAbs else decimalNat n.natAbs

def decimal (n : Int64) : Bytes := decimalInt n.toInt

end OrderLint
