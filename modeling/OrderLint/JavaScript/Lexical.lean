import OrderLint.JavaScript.Place

/-!
# Words, numbers and white space

The lexical classes of the grammar. Every character outside ASCII that is not a space may stand in
an identifier; a Unicode escape may stand for one.
-/
namespace OrderLint.JavaScript

def isBlank (c : Nat) : Bool :=
  (9 ≤ c && c ≤ 13) || c == 32 || c == 0x85 || c == 0xA0 || c == 0x1680
    || (0x2000 ≤ c && c ≤ 0x200B) || c == 0x2028 || c == 0x2029 || c == 0x202F || c == 0x205F
    || c == 0x2060 || c == 0x3000 || c == 0xFEFF

def isLineBreak (c : Nat) : Bool := c == 10 || c == 0x2028 || c == 0x2029

def endsLineComment (c : Nat) : Bool := isLineBreak c || c == 13

def beginsWord (c : Nat) : Bool :=
  if c < 0x80 then (65 ≤ c && c ≤ 90) || (97 ≤ c && c ≤ 122) || c == 36 || c == 95 || c == 127
  else !isBlank c

def continuesWord (c : Nat) : Bool := beginsWord c || (48 ≤ c && c ≤ 57)

def countWhile (test : UInt8 → Bool) (s : Bytes) : Nat := (s.takeWhile test).length

def unicodeEscapeWidth? : Bytes → Option Nat
  | 92 :: 117 :: 123 :: rest =>
    let digits := countWhile isHexDigit rest
    if 0 < digits && (rest.drop digits).head? == some 125 then some (digits + 4) else none
  | 92 :: 117 :: rest =>
    if (rest.take 4).length == 4 && (rest.take 4).all isHexDigit then some 6 else none
  | _ => none

def wordCharWidth? (test : Nat → Bool) (p : Place) : Option Nat :=
  match unicodeEscapeWidth? p.rest with
  | some width => some width
  | none => match p.ahead? with
    | some (code, width) =>
      if test code && (code != replacement || (decode? p.rest).isSome) then some width else none
    | none => none

def skipWordChars : Nat → Place → Place
  | 0, p => p
  | limit + 1, p =>
    match wordCharWidth? continuesWord p with
    | some width => skipWordChars limit (p.skip width)
    | none => p

def afterWord? (p : Place) : Option Place :=
  (wordCharWidth? beginsWord p).map fun width => skipWordChars p.rest.length (p.skip width)

/-- The width of digits in which single underscores may stand between two digits. -/
def digitsWidth (digit : UInt8 → Bool) : Bytes → Nat
  | [] => 0
  | [b] => if digit b then 1 else 0
  | b :: c :: rest =>
    if !digit b then 0
    else if c == 95 then
      match rest with
      | d :: _ => if digit d then 2 + digitsWidth digit rest else 1
      | [] => 1
    else 1 + digitsWidth digit (c :: rest)

def exponentWidth (s : Bytes) : Nat :=
  match s with
  | e :: rest =>
    if e == 101 || e == 69 then
      let sign := match rest with
        | b :: _ => if b == 43 || b == 45 then 1 else 0
        | [] => 0
      let digits := digitsWidth isAsciiDigit (rest.drop sign)
      if 0 < digits then 1 + sign + digits else 0
    else 0
  | [] => 0

def basedWidth (s : Bytes) (letter : UInt8) (digit : UInt8 → Bool) : Nat :=
  match s with
  | 48 :: b :: rest =>
    if b == letter || b == letter - 32 then
      let digits := digitsWidth digit rest
      if 0 < digits then 2 + digits else 0
    else 0
  | _ => 0

def withBigMark (s : Bytes) (width : Nat) : Nat :=
  if (s.drop width).head? == some 110 then width + 1 else width

def numberWidth (s : Bytes) : Nat :=
  let hex := basedWidth s 120 isHexDigit
  let octal := basedWidth s 111 fun b => 48 ≤ b && b ≤ 55
  let binary := basedWidth s 98 fun b => b == 48 || b == 49
  if 0 < hex then withBigMark s hex
  else if 0 < octal then withBigMark s octal
  else if 0 < binary then withBigMark s binary
  else
    let whole := digitsWidth isAsciiDigit s
    let afterWhole := s.drop whole
    if whole == 0 then
      match s with
      | 46 :: rest =>
        let fraction := digitsWidth isAsciiDigit rest
        if 0 < fraction then 1 + fraction + exponentWidth (rest.drop fraction) else 0
      | _ => 0
    else match afterWhole with
      | 110 :: _ => whole + 1
      | 46 :: rest =>
        let fraction := digitsWidth isAsciiDigit rest
        whole + 1 + fraction + exponentWidth (rest.drop fraction)
      | _ => whole + exponentWidth afterWhole

def marks : List String :=
  [">>>=", "...", "===", "!==", "**=", "<<=", ">>=", ">>>", "&&=", "||=", "??=", "=>", "==", "!=",
    "<=", ">=", "&&", "||", "??", "?.", "++", "--", "+=", "-=", "*=", "/=", "%=", "&=", "|=", "^=",
    "<<", ">>", "**", "\x7b", "\x7d", "(", ")", "[", "]", ";", ",", "<", ">", "+", "-", "*", "/",
    "%", "&", "|", "^", "!", "~", "?", ":", "=", ".", "@", "`", "#"]

inductive Token where
  | word (text : String) (width : Nat)
  | privateName (width : Nat)
  | number (width : Nat)
  | quote (mark : UInt8)
  | mark (text : String)
  | stray (width : Nat)
  | endOfText
  deriving DecidableEq

/-- The bytes of a word as characters; words are only compared with ASCII ones. -/
def wordText (s : Bytes) : String := String.ofList (s.map fun b => Char.ofNat b.toNat)

def Place.token (p : Place) : Token :=
  match p.rest with
  | [] => .endOfText
  | b :: rest =>
    match afterWord? p with
    | some q => .word (wordText (p.upTo q)) (q.offset - p.offset)
    | none =>
      if b == 34 || b == 39 then .quote b
      else if 0 < numberWidth p.rest then .number (numberWidth p.rest)
      else match (if b == 35 then afterWord? p.step else none) with
        | some q => .privateName (q.offset - p.offset)
        | none =>
          match marks.find? fun mark => p.sees mark with
          | some mark =>
            if mark == "?." && (match rest with
              | _ :: d :: _ => isAsciiDigit d
              | _ => false) then .mark "?" else .mark mark
          | none => .stray ((p.ahead?.map (·.2)).getD 1)

def Token.width : Token → Nat
  | .word _ width => width
  | .privateName width => width
  | .number width => width
  | .quote _ => 1
  | .mark text => text.utf8ByteSize
  | .stray width => width
  | .endOfText => 0

end OrderLint.JavaScript
