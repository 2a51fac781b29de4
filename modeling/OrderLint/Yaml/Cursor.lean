import OrderLint.Text.CodePoint
import OrderLint.Yaml.Error

/-!
# Reading a YAML text character by character

A text is UTF-8 without control characters. The cursor stands between two characters of it and
knows its line and column. A line ends at a line feed, a carriage return with or without a line
feed, a next-line character, or a line or paragraph separator.
-/
namespace OrderLint.Yaml

def announcedWidth (b : UInt8) : Nat :=
  if b < 0x80 then 1
  else if 0xC0 ≤ b && b < 0xE0 then 2
  else if 0xE0 ≤ b && b < 0xF0 then 3
  else if 0xF0 ≤ b && b < 0xF8 then 4
  else 0

def isAllowed (code : Nat) : Bool :=
  code == 9 || code == 10 || code == 13 || (0x20 ≤ code && code ≤ 0x7E) || code == 0x85
    || (0xA0 ≤ code && code ≤ 0xFFFD) || 0x10000 ≤ code

def garbleOf (first : UInt8) (rest : Bytes) : Garble :=
  let width := announcedWidth first
  let trailing := rest.take (width - 1)
  if width = 0 then .leadingByte
  else if trailing.length < width - 1 then .incomplete
  else if !trailing.all isContinuation then .trailingByte
  else if first = 0xC0 || first = 0xC1 || (first = 0xE0 && trailing.head?.any (· < 0xA0))
      || (first = 0xF0 && trailing.head?.any (· < 0x90)) then .overlong
  else .surrogate

def characters : Nat → Bytes → Except Garble (List Char)
  | 0, _ => .ok []
  | _ + 1, [] => .ok []
  | limit + 1, b :: rest =>
    match decode? (b :: rest) with
    | none => .error (garbleOf b rest)
    | some (code, width) =>
      if isAllowed code then (characters limit (rest.drop (width - 1))).map (Char.ofNat code :: ·)
      else .error .control

def readCharacters (s : Bytes) : Except Garble (List Char) :=
  characters s.length (s.dropHead [0xEF, 0xBB, 0xBF])

def bytesOf (text : List Char) : Bytes := utf8 (String.ofList text)

def isBlank (c : Char) : Bool := c == ' ' || c == '\t'

def isBreak (c : Char) : Bool :=
  c == '\n' || c == '\r' || c == '\x85' || c == '\u2028' || c == '\u2029'

def isGap : Option Char → Bool
  | none => true
  | some c => isBlank c || isBreak c

def isLineEnd : Option Char → Bool
  | none => true
  | some c => isBreak c

def isNameChar (c : Char) : Bool := c.isAlphanum || c == '_' || c == '-'

def hexDigit? (c : Char) : Option Nat := if c.toNat < 128 then hexValue? c.toNat.toUInt8 else none

def hexNumber? : Nat → Nat → List Char → Option Nat
  | 0, read, _ => some read
  | _ + 1, _, [] => none
  | count + 1, read, c :: rest => match hexDigit? c with
    | some digit => hexNumber? count (read * 16 + digit) rest
    | none => none

structure Cursor where
  rest : List Char
  mark : Mark := {}
  -- Whether nothing but blanks has been passed since the last line break.
  freshLine : Bool := false

namespace Cursor

def ahead? (c : Cursor) (distance : Nat) : Option Char := c.rest[distance]?

def head? (c : Cursor) : Option Char := c.rest.head?

def sees (c : Cursor) (char : Char) : Bool := c.rest.head? == some char

def skip (c : Cursor) : Cursor :=
  match c.rest with
  | [] => c
  | char :: rest =>
    { rest
      mark := { c.mark with index := c.mark.index + 1, column := c.mark.column + 1 }
      freshLine := c.freshLine && isBlank char }

def skipMany : Nat → Cursor → Cursor
  | 0, c => c
  | count + 1, c => skipMany count c.skip

def skipWhile (p : Char → Bool) (c : Cursor) : Cursor :=
  skipMany (c.rest.takeWhile p).length c

def takeBreak (c : Cursor) : List Char × Cursor :=
  let next := fun (width : Nat) (rest : List Char) =>
    ({ rest
       mark := { index := c.mark.index + width, line := c.mark.line + 1, column := 0 }
       freshLine := true } : Cursor)
  match c.rest with
  | '\r' :: '\n' :: rest => (['\n'], next 2 rest)
  | char :: rest =>
    if char == '\u2028' || char == '\u2029' then ([char], next 1 rest)
    else if isBreak char then (['\n'], next 1 rest)
    else ([], c)
  | [] => ([], c)

def skipBreak (c : Cursor) : Cursor := c.takeBreak.2

def seesMarker (c : Cursor) (char : Char) : Bool :=
  c.mark.column == 0 && c.rest.take 3 == [char, char, char] && isGap (c.ahead? 3)

def seesDocumentMarker (c : Cursor) : Bool := c.seesMarker '-' || c.seesMarker '.'

def skipLineComment (c : Cursor) : Cursor :=
  let next := c.skipWhile isBlank
  if !c.freshLine && next.sees '#' then next.skipWhile fun char => !isBreak char else c

/-- Passes over a comment and those that follow it with nothing but white space between. -/
def skipComments : Nat → Cursor → Cursor
  | 0, c => c
  | limit + 1, c =>
    let atEnd := c.skipWhile fun char => !isBreak char
    let next := passGap limit atEnd
    if next.sees '#' then skipComments limit next else atEnd
where
  passGap : Nat → Cursor → Cursor
    | 0, c => c
    | limit + 1, c => match c.head? with
      | some char =>
        if isBlank char then passGap limit c.skip
        else if isBreak char then passGap limit c.skipBreak
        else c
      | none => c

end Cursor

end OrderLint.Yaml
