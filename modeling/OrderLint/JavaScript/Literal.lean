import OrderLint.JavaScript.Grammar

/-!
# Strings, templates and regular expressions

A string literal is a quote, runs of plain characters and escapes in any order, and the quote
again. A template may also hold expressions. The body of a regular expression ends at the first
slash outside a class.
-/
namespace OrderLint.JavaScript

open Parse

def escapeWidth (p : Place) : Nat :=
  match p.rest with
  | 92 :: 117 :: _ => (unicodeEscapeWidth? p.rest).getD 0
  | 92 :: 120 :: a :: b :: _ => if isHexDigit a && isHexDigit b then 4 else 0
  | 92 :: 120 :: _ => 0
  | 92 :: 13 :: 10 :: _ => 3
  | 92 :: d :: rest =>
    let octal := fun b : UInt8 => 48 ≤ b && b ≤ 55
    if octal d then 2 + countWhile octal (rest.take 2)
    else match (p.skip 1).ahead? with
      | some (_, width) => 1 + width
      | none => 0
  | _ => 0

def escapeSequence : Parse Forest := do
  match escapeWidth (← get).place with
  | 0 => unfinished
  | width => take "escape_sequence" true width

def fragmentUpTo (stop : Place) : Parse Forest := do
  take "string_fragment" true (stop.offset - (← get).place.offset)

def stringPiece (quote : UInt8) : Parse (Option Forest) := do
  let p := (← get).place
  let stop := p.dropWhile fun c => c != quote.toNat && c != 92 && c != 10 && c != 13
  if p.offset < stop.offset then return some (← fragmentUpTo stop)
  else if p.rest.head? == some 92 then return some (← escapeSequence)
  else return none

def stringLiteral : Parse Forest := do
  match ← peekStart with
  | .quote quote => asOne do
    let name := if quote == 34 then "\"" else "'"
    let opening ← take name false 1
    let inside ← repeated (stringPiece quote)
    if (← get).place.rest.head? == some quote then
      return construct "string" (opening ++ inside ++ (← take name false 1))
    else unfinished
  | _ => unexpected

def templateStop : Nat → Place → Place
  | 0, p => p
  | limit + 1, p =>
    match p.rest with
    | [] | 0 :: _ | 96 :: _ | 92 :: _ | 36 :: 123 :: _ => p
    | _ => templateStop limit p.step

def templateLiteral (rules : Rules) : Parse Forest := asOne do
  let opening ← mark "`"
  let inside ← repeated do
    let p := (← get).place
    let stop := templateStop p.rest.length p
    if p.offset < stop.offset then return some (← fragmentUpTo stop)
    match p.rest with
    | 92 :: _ => return some (← escapeSequence)
    | 36 :: 123 :: _ =>
      let dollar ← take "$\x7b" false 2
      let value ← rules (.expressions .inside)
      return some (construct "template_substitution" (dollar ++ value ++ (← mark "\x7d")))
    | _ => return none
  if (← get).place.rest.head? == some 96 then
    return construct "template_string" (opening ++ inside ++ (← take "`" false 1))
  else unfinished

def regexStop? : Nat → Bool → Place → Option Place
  | 0, _, _ => none
  | limit + 1, inClass, p =>
    match p.rest with
    | [] | 0 :: _ | 10 :: _ => none
    | 92 :: 10 :: _ => none
    | 92 :: _ => regexStop? limit inClass (p.skip 2)
    | 91 :: _ => regexStop? limit true p.step
    | 93 :: _ => regexStop? limit false p.step
    | 47 :: _ => if inClass then regexStop? limit inClass p.step else some p
    | _ => regexStop? limit inClass p.step

def regexLiteral : Parse Forest := asOne do
  let opening ← take "/" false 1
  let p := (← get).place
  match regexStop? p.rest.length false p with
  | none => unfinished
  | some stop =>
    let pattern ← take "regex_pattern" true (stop.offset - p.offset)
    let closing ← take "/" false 1
    let flags := countWhile (fun b => 97 ≤ b && b ≤ 122) (← get).place.rest
    let trailing ← if 0 < flags then take "regex_flags" true flags else pure []
    return construct "regex" (opening ++ pattern ++ closing ++ trailing)

end OrderLint.JavaScript
