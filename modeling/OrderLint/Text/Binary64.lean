import OrderLint.Text.Decimal

/-!
# Binary floating-point numbers and their decimals

A finite number of the 64-bit binary format is `mantissa * 2 ^ exponent` with a mantissa below
`2 ^ 53`. A decimal is read as the nearest such number, a tie going to the even mantissa, and a
number is written with the fewest digits that read back as it, the nearest of these. All of it is
exact arithmetic on natural numbers.
-/
namespace OrderLint

structure Binary64 where
  mantissa : Nat
  exponent : Int
  deriving DecidableEq

inductive Real64 where
  | finite (negative : Bool) (size : Binary64)
  | infinite (negative : Bool)
  | notANumber
  deriving DecidableEq

namespace Binary64

def leastExponent : Int := -1074

def greatestExponent : Int := 971

def scaled (base : Nat) (power : Int) (numerator denominator : Nat) : Nat × Nat :=
  if 0 ≤ power then (numerator * base.pow power.toNat, denominator)
  else (numerator, denominator * base.pow (-power).toNat)

def roundedQuotient (numerator denominator : Nat) : Nat :=
  let quotient := numerator / denominator
  let doubled := 2 * (numerator % denominator)
  if doubled < denominator || (doubled == denominator && quotient % 2 == 0) then quotient
  else quotient + 1

/-- The exponent at which a positive fraction has a mantissa of 53 bits, or the least one. -/
def fittingExponent (numerator denominator : Nat) : Int :=
  let guess : Int := (numerator.log2 : Int) - (denominator.log2 : Int) - 52
  let (n, d) := scaled 2 (-guess) numerator denominator
  max leastExponent (if n < d * Nat.pow 2 52 then guess - 1 else guess)

def ofFraction? (numerator denominator : Nat) : Option Binary64 :=
  if numerator = 0 then some ⟨0, 0⟩
  else
    let exponent := fittingExponent numerator denominator
    let (n, d) := scaled 2 (-exponent) numerator denominator
    let mantissa := roundedQuotient n d
    let rounded : Binary64 :=
      if mantissa = Nat.pow 2 53 then ⟨Nat.pow 2 52, exponent + 1⟩ else ⟨mantissa, exponent⟩
    if greatestExponent < rounded.exponent then none else some rounded

def quarters (x : Binary64) : Nat × Nat := scaled 2 (x.exponent - 2) 1 1

/-- The numbers nearest to which is `x`, in quarters of its last place: the two ends, which belong
to them when the mantissa is even. -/
def roundingInterval (x : Binary64) : Nat × Nat :=
  let below := if x.mantissa == Nat.pow 2 52 && leastExponent < x.exponent then 1 else 2
  (4 * x.mantissa - below, 4 * x.mantissa + 2)

def readsBack (x : Binary64) (coefficient : Nat) (power : Int) : Bool :=
  let (unit, whole) := x.quarters
  let (low, high) := x.roundingInterval
  let (n, d) := scaled 10 power coefficient 1
  let value := n * whole
  if x.mantissa % 2 == 0 then low * unit * d ≤ value && value ≤ high * unit * d
  else low * unit * d < value && value < high * unit * d

def coefficientAt? (x : Binary64) (power : Int) : Option Nat :=
  let (n, d) := scaled 2 x.exponent x.mantissa 1
  let (n, d) := scaled 10 (-power) n d
  let below := n / d
  let nearest := roundedQuotient n d
  let other := if nearest = below then below + 1 else below
  if x.readsBack nearest power then some nearest
  else if x.readsBack other power then some other
  else none

def shortestFrom (x : Binary64) : Nat → Int → Nat × Int
  | 0, power => (0, power)
  | limit + 1, power => match x.coefficientAt? power with
    | some coefficient => if coefficient = 0 then shortestFrom x limit (power - 1)
      else (coefficient, power)
    | none => shortestFrom x limit (power - 1)

/-- The shortest decimal that reads back as a number other than zero: a coefficient and a power of
ten. The search begins above the number. -/
def shortest (x : Binary64) : Nat × Int :=
  let (n, d) := scaled 2 x.exponent x.mantissa 1
  let above : Int := (Nat.toDigits 10 n).length - (Nat.toDigits 10 d).length + 1
  shortestFrom x 20 above

def positional (coefficient : Nat) (power : Int) : Bytes :=
  let digits := decimalNat coefficient
  if 0 ≤ power then digits ++ List.replicate power.toNat 48
  else
    let places := (-power).toNat
    if places < digits.length then
      digits.take (digits.length - places) ++ 46 :: digits.drop (digits.length - places)
    else utf8 "0." ++ List.replicate (places - digits.length) 48 ++ digits

def text (x : Binary64) : Bytes :=
  if x.mantissa = 0 then utf8 "0"
  else
    let (coefficient, power) := x.shortest
    positional coefficient power

end Binary64

def Real64.text : Real64 → Bytes
  | .finite negative size => (if negative then utf8 "-" else []) ++ size.text
  | .infinite negative => utf8 (if negative then "-Inf" else "+Inf")
  | .notANumber => utf8 "NaN"

end OrderLint
