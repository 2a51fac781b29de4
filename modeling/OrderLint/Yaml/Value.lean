import OrderLint.Text.Binary64
import OrderLint.Text.Numeral
import OrderLint.Yaml.Timestamp

/-!
# YAML values

What a plain scalar stands for: nothing, a truth value, a number, a point in time, or else its own
text. The first character decides which of these it can be.
-/
namespace OrderLint.Yaml

inductive Value where
  | null
  | truth (b : Bool)
  | integer (n : Int)
  | real (x : Real64)
  | time (t : Timestamp)
  | text (s : Bytes)
  | list (items : List Value)
  | map (entries : List (Value × Value))

mutual

def Value.decEq : (a b : Value) → Decidable (a = b)
  | .null, b => match b with
    | .null => isTrue rfl
    | .truth _ | .integer _ | .real _ | .time _ | .text _ | .list _ | .map _ => isFalse nofun
  | .truth x, b => match b with
    | .truth y => decidable_of_iff (x = y) ⟨congrArg _, Value.truth.inj⟩
    | .null | .integer _ | .real _ | .time _ | .text _ | .list _ | .map _ => isFalse nofun
  | .integer x, b => match b with
    | .integer y => decidable_of_iff (x = y) ⟨congrArg _, Value.integer.inj⟩
    | .null | .truth _ | .real _ | .time _ | .text _ | .list _ | .map _ => isFalse nofun
  | .real x, b => match b with
    | .real y => decidable_of_iff (x = y) ⟨congrArg _, Value.real.inj⟩
    | .null | .truth _ | .integer _ | .time _ | .text _ | .list _ | .map _ => isFalse nofun
  | .time x, b => match b with
    | .time y => decidable_of_iff (x = y) ⟨congrArg _, Value.time.inj⟩
    | .null | .truth _ | .integer _ | .real _ | .text _ | .list _ | .map _ => isFalse nofun
  | .text x, b => match b with
    | .text y => decidable_of_iff (x = y) ⟨congrArg _, Value.text.inj⟩
    | .null | .truth _ | .integer _ | .real _ | .time _ | .list _ | .map _ => isFalse nofun
  | .list xs, b => match b with
    | .list ys =>
      match Value.itemsDecEq xs ys with
      | isTrue h => isTrue (congrArg _ h)
      | isFalse h => isFalse fun heq => h (Value.list.inj heq)
    | .null | .truth _ | .integer _ | .real _ | .time _ | .text _ | .map _ => isFalse nofun
  | .map xs, b => match b with
    | .map ys =>
      match Value.entriesDecEq xs ys with
      | isTrue h => isTrue (congrArg _ h)
      | isFalse h => isFalse fun heq => h (Value.map.inj heq)
    | .null | .truth _ | .integer _ | .real _ | .time _ | .text _ | .list _ => isFalse nofun

def Value.itemsDecEq : (xs ys : List Value) → Decidable (xs = ys)
  | [], [] => isTrue rfl
  | [], _ :: _ | _ :: _, [] => isFalse nofun
  | x :: xs, y :: ys =>
    match Value.decEq x y, Value.itemsDecEq xs ys with
    | isTrue hx, isTrue hxs => isTrue (hx ▸ hxs ▸ rfl)
    | isFalse hx, _ => isFalse fun h => hx (List.cons.inj h).1
    | _, isFalse hxs => isFalse fun h => hxs (List.cons.inj h).2

def Value.entriesDecEq : (xs ys : List (Value × Value)) → Decidable (xs = ys)
  | [], [] => isTrue rfl
  | [], _ :: _ | _ :: _, [] => isFalse nofun
  | (k, x) :: xs, (l, y) :: ys =>
    match Value.decEq k l, Value.decEq x y, Value.entriesDecEq xs ys with
    | isTrue hk, isTrue hx, isTrue hxs => isTrue (hk ▸ hx ▸ hxs ▸ rfl)
    | isFalse hk, _, _ => isFalse fun h => hk (Prod.mk.inj (List.cons.inj h).1).1
    | _, isFalse hx, _ => isFalse fun h => hx (Prod.mk.inj (List.cons.inj h).1).2
    | _, _, isFalse hxs => isFalse fun h => hxs (List.cons.inj h).2

end

instance : DecidableEq Value := Value.decEq

namespace Value

def tag : Value → Bytes
  | .null => utf8 "!!null"
  | .truth _ => utf8 "!!bool"
  | .integer _ => utf8 "!!int"
  | .real _ => utf8 "!!float"
  | .time _ => utf8 "!!timestamp"
  | .text _ => utf8 "!!str"
  | .list _ => utf8 "!!seq"
  | .map _ => utf8 "!!map"

def scalarText : Value → Bytes
  | .null => []
  | .truth b => utf8 (if b then "true" else "false")
  | .integer n => decimalInt n
  | .real x => x.text
  | .time t => t.text
  | .text s => s
  | .list _ => []
  | .map _ => []

def isText : Value → Bool
  | .text _ => true
  | _ => false

end Value

mutual

def Value.spelled : Value → Bytes
  | .null => utf8 "interface \x7b\x7d(nil)"
  | .text s => quoted s
  | .list items => utf8 "[]interface \x7b\x7d\x7b" ++ spelledItems items ++ utf8 "\x7d"
  | .map entries =>
    let keys := if entries.all (·.1.isText) then utf8 "string" else utf8 "interface \x7b\x7d"
    utf8 "map[" ++ keys ++ utf8 "]interface \x7b\x7d\x7b" ++ spelledEntries entries ++ utf8 "\x7d"
  | scalar => scalar.scalarText

def spelledItems : List Value → Bytes
  | [] => []
  | [item] => item.spelled
  | item :: rest => item.spelled ++ utf8 ", " ++ spelledItems rest

def spelledEntries : List (Value × Value) → Bytes
  | [] => []
  | [(key, value)] => key.spelled ++ utf8 ":" ++ value.spelled
  | (key, value) :: rest =>
    key.spelled ++ utf8 ":" ++ value.spelled ++ utf8 ", " ++ spelledEntries rest

end

/-! ## Plain scalars -/

def spelling? (s : Bytes) : Option Value :=
  let isOneOf := fun (words : List String) => words.any fun word => utf8 word == s
  if isOneOf ["true", "True", "TRUE"] then some (.truth true)
  else if isOneOf ["false", "False", "FALSE"] then some (.truth false)
  else if isOneOf ["", "~", "null", "Null", "NULL"] then some .null
  else if isOneOf [".nan", ".NaN", ".NAN"] then some (.real .notANumber)
  else if isOneOf [".inf", ".Inf", ".INF", "+.inf", "+.Inf", "+.INF"] then
    some (.real (.infinite false))
  else if isOneOf ["-.inf", "-.Inf", "-.INF"] then some (.real (.infinite true))
  else none

structure DecimalFraction where
  negative : Bool
  digits : Bytes
  power : Int

def readExponent? : Bytes → Option Int
  | [] => some 0
  | mark :: rest =>
    if mark = 101 ∨ mark = 69 then
      let (negative, digits) := match rest with
        | 43 :: digits => (false, digits)
        | 45 :: digits => (true, digits)
        | digits => (false, digits)
      if digits ≠ [] ∧ digits.all isAsciiDigit then
        let n : Int := Timestamp.number digits
        some (if negative then -n else n)
      else none
    else none

def readDecimal? (s : Bytes) : Option DecimalFraction :=
  let (negative, s) := match s with
    | 43 :: rest => (false, rest)
    | 45 :: rest => (true, rest)
    | rest => (false, rest)
  let whole := s.takeWhile isAsciiDigit
  let s := s.drop whole.length
  let (places, s) := match s with
    | 46 :: rest => (rest.takeWhile isAsciiDigit, rest.dropWhile isAsciiDigit)
    | rest => ([], rest)
  if whole = [] ∧ places = [] then none
  else (readExponent? s).map fun exponent =>
    ⟨negative, whole ++ places, exponent - places.length⟩

/-- The number nearest to a decimal fraction; none when it is too large. Fractions far outside the
range of numbers are not worked out. -/
def DecimalFraction.toReal? (x : DecimalFraction) : Option Real64 :=
  let coefficient := Timestamp.number x.digits
  let magnitude : Int := (decimalNat coefficient).length + x.power
  if coefficient = 0 ∨ magnitude < -400 then some (.finite x.negative ⟨0, 0⟩)
  else if 400 < magnitude then none
  else
    let (numerator, denominator) := Binary64.scaled 10 x.power coefficient 1
    (Binary64.ofFraction? numerator denominator).map (.finite x.negative)

def readReal? (s : Bytes) : Option Real64 := (readDecimal? s).bind (·.toReal?)

/-- Whether each underscore stands between two digits; `afterDigit` when a digit comes before. -/
def betweenDigits (afterDigit : Bool) : Bytes → Bool
  | [] => true
  | b :: rest =>
    if b = 95 then afterDigit && rest.head?.any isAsciiDigit && betweenDigits false rest
    else betweenDigits (isAsciiDigit b) rest

def withoutUnderscores (s : Bytes) : Bytes := s.filter (· != 95)

def readMarked? (mark : String) (base : Nat) (s : Bytes) : Option Int :=
  let marked := s.startsWith (utf8 mark)
  let negated := s.startsWith (utf8 "-" ++ utf8 mark)
  if marked then
    match Numeral.withSign (Numeral.readDigits base) (s.drop 2), Numeral.readDigits base (s.drop 2) with
    | .ok n, _ => some n.toInt
    | .error _, .ok n => some n
    | .error _, .error _ => none
  else if negated then
    match Numeral.withSign (Numeral.readDigits base) (45 :: s.drop 3) with
    | .ok n => some n.toInt
    | .error _ => none
  else none

def readWhole? (s : Bytes) : Option Int :=
  match Numeral.readSigned s, Numeral.readUnsigned s with
  | .ok n, _ => some n.toInt
  | .error _, .ok n => some n
  | .error _, .error _ => none

def readNumber? (s : Bytes) : Option Value :=
  let s := withoutUnderscores s
  match readWhole? s with
  | some n => some (.integer n)
  | none => match readReal? s with
    | some x => some (.real x)
    | none => ((readMarked? "0b" 2 s).orElse fun _ => readMarked? "0o" 8 s).map .integer

def resolve (dates : Bool) (s : Bytes) : Value :=
  let first := s.headD 126
  let isNumeric := first = 43 ∨ first = 45 ∨ isAsciiDigit first
  let isWord := (utf8 "yYnNtTfFoO~").contains first
  if !(isNumeric || isWord || first = 46) then .text s
  else match spelling? s with
    | some value => value
    | none =>
      if isNumeric then
        match (if dates then Timestamp.parse? s else none) with
        | some t => .time t
        | none => (readNumber? s).getD (.text s)
      else if first = 46 ∧ betweenDigits false s then
        match readReal? (withoutUnderscores s) with
        | some x => .real x
        | none => .text s
      else .text s

end OrderLint.Yaml
