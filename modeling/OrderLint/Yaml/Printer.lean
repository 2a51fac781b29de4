import OrderLint.Text.Base64
import OrderLint.Yaml.Style

/-!
# Writing YAML

A map is written with one entry a line, and a list as its value with one item a line, indented by
two columns; an empty list is a pair of brackets.
-/
namespace OrderLint.Yaml

structure Page where
  text : Bytes := []
  -- Whether a line has just been ended.
  fresh : Bool := true

namespace Page

def write (p : Page) (s : Bytes) : Page := ⟨p.text ++ s, false⟩

def newLine (p : Page) (indent : Nat) : Page :=
  let p : Page := if p.fresh then p else ⟨p.text ++ [10], true⟩
  ⟨p.text ++ List.replicate indent 32, false⟩

def writeBreak (p : Page) (c : Nat) : Page := ⟨p.text ++ encode c, true⟩

end Page

/-! ## Quotes -/

def escapeLetter? (c : Nat) : Option String :=
  match c with
  | 0 => some "0"
  | 7 => some "a"
  | 8 => some "b"
  | 9 => some "t"
  | 10 => some "n"
  | 11 => some "v"
  | 12 => some "f"
  | 13 => some "r"
  | 0x1B => some "e"
  | 0x22 => some "\""
  | 0x5C => some "\\"
  | 0x85 => some "N"
  | 0x2028 => some "L"
  | 0x2029 => some "P"
  | _ => none

def upperHex : Nat → Nat → Bytes
  | 0, _ => []
  | width + 1, n =>
    let digit := n % 16
    upperHex width (n / 16) ++ [(if digit < 10 then 48 + digit else 55 + digit).toUInt8]

def doubleQuotedChar (c : Nat) : Bytes :=
  if isPlainCode c && !isBreakCode c && c != 0x22 && c != 0x5C then encode c
  else match escapeLetter? c with
    | some letter => utf8 "\\" ++ utf8 letter
    | none =>
      if c ≤ 0xFF then utf8 "\\x" ++ upperHex 2 c
      else if c ≤ 0xFFFF then utf8 "\\u" ++ upperHex 4 c
      else utf8 "\\U" ++ upperHex 8 c

/-- Writes the inside of single quotes: a quote is doubled, and what follows a line break is
indented; `broken` after a break. -/
def writeSingleQuoted (indent : Nat) : Bool → List Nat → Page → Page
  | _, [], p => p
  | broken, c :: rest, p =>
    if isBreakCode c then writeSingleQuoted indent true rest (p.writeBreak c)
    else
      let p := if broken then p.newLine indent else p
      writeSingleQuoted indent false rest (p.write (if c = 39 then [39, 39] else encode c))

/-! ## Blocks -/

def writeLines (indent : Nat) : Bool → List Nat → Page → Page
  | _, [], p => p
  | broken, c :: rest, p =>
    if isBreakCode c then writeLines indent true rest (p.writeBreak c)
    else
      let p := if broken then p.newLine indent else p
      writeLines indent false rest (p.write (encode c))

def indentStep : Nat := 2

/-- What the header of a block says: its indentation when that cannot be told from the first line,
and which breaks at the end belong to the text. -/
def blockHints (codes : List Nat) : Bytes :=
  let hidden := codes.head?.any fun c => c == 32 || isBreakCode c
  let ending := match codes.reverse with
    | [] => utf8 "-"
    | [c] => utf8 (if isBreakCode c then "+" else "-")
    | c :: before :: _ =>
      utf8 (if !isBreakCode c then "-" else if isBreakCode before then "+" else "")
  (if hidden then decimalNat indentStep else []) ++ ending

/-! ## Scalars and maps -/

def codesOf (s : Bytes) : List Nat := (pieces s).map (·.code)

def writeStyled (indent : Nat) (style : WrittenStyle) (codes : List Nat) (p : Page) : Page :=
  match style with
  | .plain => p.write (utf8 " " ++ codes.flatMap encode)
  | .singleQuoted => (writeSingleQuoted indent false codes (p.write (utf8 " '"))).write (utf8 "'")
  | .doubleQuoted => p.write (utf8 " \"" ++ codes.flatMap doubleQuotedChar ++ utf8 "\"")
  | .literal => writeLines indent true codes (p.write (utf8 " |" ++ blockHints codes))

def base64Width : Nat := 70

def cutLines : Nat → Bytes → Bytes
  | 0, _ => []
  | limit + 1, s =>
    if s = [] then [] else s.take base64Width ++ 10 :: cutLines limit (s.drop base64Width)

def binaryText (s : Bytes) : Bytes :=
  let encoded := Base64.encode s
  if encoded.length < base64Width then encoded else cutLines encoded.length encoded

def writeText (indent : Nat) (s : Bytes) (p : Page) : Page :=
  if isUtf8 s then
    let codes := codesOf s
    writeStyled indent (styleOf (readsAsText s) codes) codes p
  else
    let codes := codesOf (binaryText s)
    writeStyled indent (styleOf true codes) codes (p.write (utf8 " !!binary"))

def writeScalar (indent : Nat) (value : Value) (p : Page) : Page :=
  match value with
  | .text s => writeText indent s p
  | scalar => p.write (utf8 " " ++ scalar.scalarText)

def writeItems (items : List Value) (p : Page) : Page :=
  items.foldl (fun p item =>
    writeScalar (2 * indentStep) item ((p.newLine indentStep).write (utf8 "-"))) p

def writeEntry (p : Page) (entry : Bytes × Value) : Page :=
  let p := (p.newLine 0).write (entry.1 ++ utf8 ":")
  match entry.2 with
  | .list [] => p.write (utf8 " []")
  | .list items => writeItems items p
  | value => writeScalar indentStep value p

def printMap (entries : List (Bytes × Value)) : Bytes :=
  ((entries.foldl writeEntry {}).newLine 0).text

end OrderLint.Yaml
