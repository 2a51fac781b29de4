import OrderLint.JavaScript.Class

/-!
# Markup elements

Elements hold text, character references, expressions in braces and other elements. The name in a
closing tag need not be the one in the opening tag.
-/
namespace OrderLint.JavaScript

open Parse

def afterTagWord? (p : Place) : Option Place :=
  (afterWord? p).map fun q =>
    q.skip (countWhile (fun b => isAsciiLetter b || isAsciiDigit b || b == 36 || b == 45 || b == 95)
      q.rest)

def tagWord : Parse Forest := do
  let _ ← peek
  let p := (← get).place
  match afterTagWord? p with
  | some q => take "identifier" true (q.offset - p.offset)
  | none => unexpected

def tagName : Parse Forest := do
  let first ← tagWord
  let rest ← repeated do
    match ← peek with
    | .mark "." => return some ((← mark ".") ++ (← tagWord))
    | .mark ":" => return some ((← mark ":") ++ (← tagWord))
    | _ => return none
  return if rest.isEmpty then first else construct "nested_identifier" (first ++ rest)

def bracedExpression (rules : Rules) : Parse Forest := do
  let opening ← mark "\x7b"
  let inside ← match ← peekStart with
    | .mark "\x7d" => pure []
    | .mark "..." =>
      let dots ← mark "..."
      pure (construct "spread_element" (dots ++ (← rules (.expression .inside))))
    | _ => rules (.expressions .inside)
  return construct "jsx_expression" (opening ++ inside ++ (← mark "\x7d"))

def attributeValue (rules : Rules) : Parse Forest := do
  match ← peek with
  | .quote quote =>
    let p := (← get).place
    let stop := p.step.dropWhile fun c => c != quote.toNat
    if stop.rest.head? == some quote then take "string" true (stop.offset + 1 - p.offset)
    else unfinished
  | .mark "\x7b" => bracedExpression rules
  | .mark "<" => rules .element
  | _ => unexpected

def attributes (rules : Rules) : Parse Forest := repeated do
  match ← peek with
  | .mark "\x7b" => return some (← bracedExpression rules)
  | .word _ _ =>
    let name ← tagName
    match ← mark? "=" with
    | some equals =>
      return some (construct "jsx_attribute" (name ++ equals ++ (← attributeValue rules)))
    | none => return some (construct "jsx_attribute" name)
  | _ => return none

/-- Whether a run of text is more than line breaks with indentation. -/
def hasText : Bool → Bytes → Bool
  | _, [] => false
  | broken, b :: rest =>
    if b == 10 then hasText true rest
    else if broken && isAsciiSpace b then hasText true rest
    else true

def endsText (c : Nat) : Bool := c == 60 || c == 62 || c == 123 || c == 125 || c == 38

def referenceWidth (s : Bytes) : Nat :=
  let body := (s.drop 1).takeWhile (· != 59)
  let known := match body with
    | 35 :: x :: digits =>
      if x == 120 || x == 88 then 0 < digits.length && digits.length ≤ 6 && digits.all isHexDigit
      else digits.length ≤ 4 && (x :: digits).all isAsciiDigit
    | _ => 0 < body.length && body.length ≤ 30 && body.all isAsciiLetter
  if known && (s.drop (1 + body.length)).head? == some 59 then body.length + 2 else 0

def textRun : Parse Forest := do
  let r ← get
  let stop := r.after.dropWhile fun c => !endsText c
  if hasText false (r.after.upTo stop) then
    set { r with place := r.after, pending := [] }
    take "jsx_text" true (stop.offset - r.after.offset)
  else return []

def elementChildren (rules : Rules) : Parse Forest := repeated do
  let text ← textRun
  if !text.isEmpty then return some text
  match ← peek with
  | .mark "\x7b" => return some (← bracedExpression rules)
  | .mark "<" =>
    if (← peekSecond) == .mark "/" then return none else return some (← rules .element)
  | .mark mark =>
    let ahead := (← get).place.rest
    let width := if mark.startsWith "&" then referenceWidth ahead else 0
    if 0 < width then return some (← take "html_character_reference" true width) else unexpected
  | _ => unexpected

def closingTag : Parse Forest := do
  let opening ← mark "<"
  let slash ← mark "/"
  let name ← if (← peek) == .mark ">" then pure [] else tagName
  return construct "jsx_closing_element" (opening ++ slash ++ name ++ (← mark ">"))

def markupElement (rules : Rules) : Parse Forest := do
  let opening ← mark "<"
  let head ← if (← peek) == .mark ">" then pure [] else do
    let name ← tagName
    pure (name ++ (← attributes rules))
  let slash ← if head.isEmpty then pure none else mark? "/"
  match slash with
  | some slash =>
    return construct "jsx_self_closing_element" (opening ++ head ++ slash ++ (← mark ">"))
  | none =>
    let bracket ← mark ">"
    let children ← elementChildren rules
    return construct "jsx_element" (opening ++ head ++ bracket ++ children ++ (← closingTag))

end OrderLint.JavaScript
