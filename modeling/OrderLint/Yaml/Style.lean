import OrderLint.Text.CodePoint
import OrderLint.Yaml.Value

/-!
# How a text is written in YAML

A text is written plain if it reads back as itself, between single quotes if it only looks like
something else by its punctuation, between double quotes if it would read as a value of another kind
or holds characters that need an escape, and as a block if it has several lines.
-/
namespace OrderLint.Yaml

inductive WrittenStyle where
  | plain
  | singleQuoted
  | doubleQuoted
  | literal
  deriving DecidableEq

def isBreakCode (c : Nat) : Bool :=
  c == 10 || c == 13 || c == 0x85 || c == 0x2028 || c == 0x2029

/-- Whether a code point is written as it is: the line feed, and the graphic characters of the
basic plane without the mark of the byte order. -/
def isPlainCode (c : Nat) : Bool :=
  c == 10 || (0x20 ≤ c && c ≤ 0x7E) || (0xA0 ≤ c && c ≤ 0xD7FF)
    || (0xE000 ≤ c && c ≤ 0xFFFD && c != 0xFEFF)

def isBlankCode (c : Nat) : Bool := c == 32 || c == 9

def hasNeighbours (first second : Nat → Bool) (codes : List Nat) : Bool :=
  (codes.zip (codes.drop 1)).any fun pair => first pair.1 && second pair.2

def isFollowedByGap (c : Nat) (codes : List Nat) : Bool :=
  codes.getLast? == some c || hasNeighbours (· == c) isBlankCode codes

def leadingIndicators : List Nat :=
  (utf8 "#,[]\x7b\x7d&*!|>'\"%@\x60").map (·.toNat)

def hasIndicators (codes : List Nat) : Bool :=
  let dash := 45
  let dot := 46
  let question := 63
  let colon := 58
  let hash := 35
  codes.take 3 == [dash, dash, dash] || codes.take 3 == [dot, dot, dot]
    || codes.head?.any leadingIndicators.contains
    || ((codes.head? == some question || codes.head? == some dash)
      && ((codes.drop 1).head?.all isBlankCode))
    || isFollowedByGap colon codes
    || hasNeighbours (fun c => isBlankCode c || isBreakCode c) (· == hash) codes

/-- Digits and underscores after a first digit, with a sign or not, and then parts below sixty after
colons: a number in base sixty. -/
def isBaseSixty (s : Bytes) : Bool :=
  let s := match s with
    | 43 :: rest => rest
    | 45 :: rest => rest
    | rest => rest
  let (whole, rest) := s.span fun b => isAsciiDigit b || b == 95
  whole.head?.any isAsciiDigit && parts false rest
where
  parts (begun : Bool) : Bytes → Bool
    | [] => begun
    | 58 :: a :: b :: rest =>
      if isAsciiDigit a && isAsciiDigit b then a ≤ 53 && parts true rest
      else isAsciiDigit a && parts true (b :: rest)
    | [58, a] => isAsciiDigit a
    | 46 :: rest => begun && rest.all fun b => isAsciiDigit b || b == 95
    | _ => false

def isOldTruth (s : Bytes) : Bool :=
  ["y", "Y", "yes", "Yes", "YES", "on", "On", "ON", "n", "N", "no", "No", "NO", "off", "Off",
    "OFF"].any fun word => utf8 word == s

def readsAsText (s : Bytes) : Bool := (resolve true s).isText && !isBaseSixty s && !isOldTruth s

def styleOf (readable : Bool) (codes : List Nat) : WrittenStyle :=
  let isSpace := fun c => c == 32
  let special := codes.any fun c => c != 9 && !isPlainCode c
  let spaceBreak := hasNeighbours isSpace isBreakCode codes
  let breakSpace := hasNeighbours isBreakCode isSpace codes
  let trailingSpace := codes.getLast? == some 32
  let escaped := special || spaceBreak || breakSpace || codes.contains 9
  if codes.contains 10 then
    if special || spaceBreak || trailingSpace then .doubleQuoted else .literal
  else if !readable || escaped then .doubleQuoted
  else if codes.head? == some 32 || trailingSpace || codes.any isBreakCode || hasIndicators codes then
    .singleQuoted
  else .plain

end OrderLint.Yaml
