import OrderLint.Text.Quoted

/-!
# Reading integers

A numeral may have a sign and a base mark: `0x` for sixteen, `0o` or a mere `0` for eight, `0b` for
two. Underscores may stand between digits. A numeral is read from left to right, so that a value
that grows too large is noticed before a bad digit further on.
-/
namespace OrderLint

inductive NumberFault where
  | malformed
  | outOfRange
  deriving DecidableEq

def NumberFault.reason : NumberFault → Bytes
  | .malformed => utf8 "invalid syntax"
  | .outOfRange => utf8 "value out of range"

namespace Numeral

def digitValue? (b : UInt8) : Option Nat :=
  if isAsciiDigit b then some (b.toNat - 48)
  else if 97 ≤ b && b ≤ 122 then some (b.toNat - 87)
  else if 65 ≤ b && b ≤ 90 then some (b.toNat - 55)
  else none

def markedBase? (b : UInt8) : Option Nat :=
  if b == 98 || b == 66 then some 2
  else if b == 111 || b == 79 then some 8
  else if b == 120 || b == 88 then some 16
  else none

/-- The base of an unsigned numeral, and its digits. A base mark needs something after it. -/
def splitBase (s : Bytes) : Nat × Bytes :=
  match s with
  | 48 :: mark :: digit :: rest =>
    match markedBase? mark with
    | some base => (base, digit :: rest)
    | none => (8, mark :: digit :: rest)
  | 48 :: rest => (8, rest)
  | _ => (10, s)

/-- Whether each underscore stands after a digit or base mark and before a digit; `afterDigit` when
one may come next. -/
def separated (afterDigit : Bool) : Bytes → Bool
  | [] => true
  | 95 :: rest => afterDigit && (match rest with
    | [] => false
    | b :: _ => b != 95 && separated false rest)
  | _ :: rest => separated true rest

/-- The value of digits, after digits of the value `read`; underscores are passed over. The value
stays below two to the power 64. -/
def accumulate (base : Nat) : Nat → Bytes → Except NumberFault Nat
  | read, [] => .ok read
  | read, b :: rest =>
    if b == 95 then accumulate base read rest
    else match digitValue? b with
      | none => .error .malformed
      | some digit =>
        if base ≤ digit then .error .malformed
        else if Nat.pow 2 64 ≤ read * base + digit then .error .outOfRange
        else accumulate base (read * base + digit) rest

def underscoresPlaced (s : Bytes) : Bool :=
  match s with
  | 48 :: mark :: rest =>
    if (markedBase? mark).isSome then separated true rest else separated false s
  | _ => separated false s

def readUnsigned (s : Bytes) : Except NumberFault Nat :=
  if s = [] then .error .malformed
  else
    let (base, digits) := splitBase s
    match accumulate base 0 digits with
    | .ok n => if underscoresPlaced s then .ok n else .error .malformed
    | .error fault => .error fault

def readDigits (base : Nat) (s : Bytes) : Except NumberFault Nat :=
  if s = [] || s.contains 95 then .error .malformed else accumulate base 0 s

def withSign (size : Bytes → Except NumberFault Nat) (s : Bytes) : Except NumberFault Int64 :=
  let (negative, digits) := match s with
    | 43 :: rest => (false, rest)
    | 45 :: rest => (true, rest)
    | _ => (false, s)
  match size digits with
  | .error fault => .error fault
  | .ok n =>
    if negative then
      if Nat.pow 2 63 < n then .error .outOfRange else .ok (Int64.ofInt (-(n : Int)))
    else if Nat.pow 2 63 ≤ n then .error .outOfRange
    else .ok (Int64.ofInt n)

def readSigned (s : Bytes) : Except NumberFault Int64 := withSign readUnsigned s

end Numeral

def readTruth? (s : Bytes) : Option Bool :=
  if ["1", "t", "T", "TRUE", "true", "True"].any fun word => utf8 word == s then some true
  else if ["0", "f", "F", "FALSE", "false", "False"].any fun word => utf8 word == s then some false
  else none

end OrderLint
