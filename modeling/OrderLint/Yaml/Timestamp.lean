import OrderLint.Text.Decimal

/-!
# Points in time

A point in time is written as a date, `year-month-day`, alone, or followed by a letter T, a time of
the day and a zone, or by a space and a time. The year has four digits, the other numbers one or two.
-/
namespace OrderLint.Yaml

structure Timestamp where
  year : Nat
  month : Nat
  day : Nat
  hour : Nat := 0
  minute : Nat := 0
  second : Nat := 0
  fraction : Bytes := []
  zone : Int := 0
  deriving DecidableEq

namespace Timestamp

def isLeapYear (year : Nat) : Bool := year % 4 == 0 && (year % 100 != 0 || year % 400 == 0)

def daysOfMonth (year month : Nat) : Nat :=
  if month = 2 then (if isLeapYear year then 29 else 28)
  else if month = 4 ∨ month = 6 ∨ month = 9 ∨ month = 11 then 30
  else 31

def number (digits : Bytes) : Nat := digits.foldl (fun n d => n * 10 + (d.toNat - 48)) 0

def readNumber? : Bytes → Option (Nat × Bytes)
  | a :: b :: rest =>
    if !isAsciiDigit a then none
    else if isAsciiDigit b then some (number [a, b], rest)
    else some (number [a], b :: rest)
  | [a] => if isAsciiDigit a then some (number [a], []) else none
  | [] => none

def expect? (b : UInt8) : Bytes → Option Bytes
  | c :: rest => if b = c then some rest else none
  | [] => none

def readDate? (s : Bytes) : Option (Timestamp × Bytes) := do
  let digits := s.takeWhile isAsciiDigit
  if digits.length ≠ 4 then none
  else
    let year := number digits
    let (month, s) ← readNumber? (← expect? 45 (s.drop 4))
    let (day, s) ← readNumber? (← expect? 45 s)
    if month < 1 ∨ 12 < month ∨ day < 1 ∨ daysOfMonth year month < day then none
    else some ({ year, month, day }, s)

def readFraction (s : Bytes) : Bytes × Bytes :=
  match s with
  | mark :: rest =>
    let digits := rest.takeWhile isAsciiDigit
    if (mark = 46 ∨ mark = 44) ∧ digits ≠ [] then (digits.take 9, rest.drop digits.length)
    else ([], s)
  | [] => ([], [])

def readTime? (t : Timestamp) (s : Bytes) : Option (Timestamp × Bytes) := do
  let (hour, s) ← readNumber? s
  let (minute, s) ← readNumber? (← expect? 58 s)
  let (second, s) ← readNumber? (← expect? 58 s)
  let (fraction, s) := readFraction s
  if 23 < hour ∨ 59 < minute ∨ 59 < second then none
  else some ({ t with hour, minute, second, fraction }, s)

def readZone? (s : Bytes) : Option Int :=
  match s with
  | [90] => some 0
  | [sign, a, b, 58, c, d] =>
    if (sign = 43 ∨ sign = 45) ∧ [a, b, c, d].all isAsciiDigit ∧ number [a, b] ≤ 24
        ∧ number [c, d] ≤ 60 then
      let minutes : Int := number [a, b] * 60 + number [c, d]
      some (if sign = 45 then -minutes else minutes)
    else none
  | _ => none

def parse? (s : Bytes) : Option Timestamp := do
  let (date, s) ← readDate? s
  match s with
  | [] => some date
  | separator :: s =>
    if separator = 84 ∨ separator = 116 then
      let (time, s) ← readTime? date s
      return { time with zone := ← readZone? s }
    else if separator = 32 then
      let (time, s) ← readTime? date s
      if s = [] then some time else none
    else none

def padded (width n : Nat) : Bytes :=
  let digits := decimalNat n
  List.replicate (width - digits.length) 48 ++ digits

def zoneText (zone : Int) : Bytes :=
  utf8 (if zone < 0 then "-" else "+") ++ padded 2 (zone.natAbs / 60) ++ padded 2 (zone.natAbs % 60)

def text (t : Timestamp) : Bytes :=
  let fraction := (t.fraction.reverse.dropWhile (· == 48)).reverse
  padded 4 t.year ++ utf8 "-" ++ padded 2 t.month ++ utf8 "-" ++ padded 2 t.day ++ utf8 " "
    ++ padded 2 t.hour ++ utf8 ":" ++ padded 2 t.minute ++ utf8 ":" ++ padded 2 t.second
    ++ (if fraction = [] then [] else 46 :: fraction)
    ++ utf8 " " ++ zoneText t.zone ++ utf8 " "
    ++ (if t.zone = 0 then utf8 "UTC" else zoneText t.zone)

end Timestamp

end OrderLint.Yaml
