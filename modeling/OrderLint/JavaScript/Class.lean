import OrderLint.JavaScript.Function

/-!
# Classes and their members

A member begins with its decorators and modifiers. `static`, `async`, `get` and `set` are modifiers
unless they are the member's own name: when a parameter list, an initializer or the end of the
member follows.
-/
namespace OrderLint.JavaScript

open Parse

def callArguments (rules : Rules) : Parse Forest := do
  let opening ← mark "("
  let inside ← sparseItems ")" do
    match ← mark? "..." with
    | some dots => return construct "spread_element" (dots ++ (← rules (.expression .inside)))
    | none => rules (.expression .inside)
  return construct "arguments" (opening ++ inside)

def decorator (rules : Rules) : Parse Forest := do
  let sign ← mark "@"
  let name ← anyWord "identifier"
  let rest ← repeated do
    match ← mark? "." with
    | some dot => return some (dot ++ (← anyWord "property_identifier"))
    | none => return none
  let call ← if (← peek) == .mark "(" then callArguments rules else pure []
  return construct "decorator" (sign ++ name ++ rest ++ call)

def decorators (rules : Rules) : Parse Forest := repeated do
  if (← peekStart) == .mark "@" then return some (← decorator rules) else return none

def propertyName (rules : Rules) : Parse Forest := do
  match ← peekStart with
  | .word _ width => take "property_identifier" true width
  | .privateName width => take "private_property_identifier" true width
  | .number width => take "number" true width
  | .quote _ => stringLiteral
  | .mark "[" =>
    let opening ← mark "["
    let inside ← rules (.expressions .inside)
    return construct "computed_property_name" (opening ++ inside ++ (← mark "]"))
  | _ => unexpected

/-- Whether the word that is next is a modifier and not a name. In a class body a line break after
the word may make it a field of that name. -/
def isModifier (inClass : Bool) (width : Nat) : Parse Bool := do
  let r ← get
  let after := r.place.skip width
  if inClass && after.endsStatement true r.atEnd then return false
  return ["(", "=", ";", "\x7d", ",", ":"].all fun text => after.nextToken != .mark text

def modifier? (inClass : Bool) (text : String) : Parse (Option Forest) := do
  match ← peekStart with
  | .word found width =>
    if found == text && (← isModifier inClass width) then return some (← take text false width)
    else return none
  | _ => return none

/-- The width of `static` and `get` with a line break after them, which stand together whatever
follows. -/
def staticGetterWidth? (s : Bytes) : Option Nat :=
  let afterStatic : Bytes := s.drop 6
  let blanks := countWhile isAsciiSpace afterStatic
  let afterGet : Bytes := afterStatic.drop (blanks + 3)
  if s.startsWith (utf8 "static") && 0 < blanks
      && Bytes.startsWith (afterStatic.drop blanks) (utf8 "get")
      && (afterGet.takeWhile isAsciiSpace).contains 10 then some (6 + blanks + 3)
  else none

def staticModifier (inClass : Bool) : Parse Forest := do
  let _ ← peekStart
  let ahead := (← get).place.rest
  match (if inClass then staticGetterWidth? ahead else none) with
  | some width => take "static get" false width
  | none => return (← modifier? inClass "static").getD []

def methodModifiers (inClass : Bool) : Parse Forest := do
  let async ← modifier? inClass "async"
  let accessor ← match ← modifier? inClass "get" with
    | some found => pure (some found)
    | none => match ← modifier? inClass "set" with
      | some found => pure (some found)
      | none => mark? "*"
  return async.getD [] ++ accessor.getD []

def methodRest (rules : Rules) (head name : Forest) : Parse Forest := do
  let parameters ← formalParameters rules
  let body ← statementBlock rules
  return construct "method_definition" (head ++ inRole "name" name ++ parameters ++ body)

def fieldRest (rules : Rules) (head name : Forest) : Parse Forest := do
  let value ← initializer rules .statement
  let definition := construct "field_definition" (head ++ inRole "property" name ++ value)
  return definition ++ (← semicolon value.isEmpty)

def staticBlock (rules : Rules) : Parse Forest := do
  let static ← keyword "static"
  return construct "class_static_block" (static ++ (← statementBlock rules))

def seesStaticBlock : Parse Bool := do
  if ← seesWord "static" then return (← peekSecond) == .mark "\x7b" else return false

def classMember (rules : Rules) : Parse Forest := do
  if ← seesStaticBlock then staticBlock rules
  else
    let decoration ← decorators rules
    let static ← staticModifier true
    let modifiers ← methodModifiers true
    let name ← propertyName rules
    let head := decoration ++ static ++ modifiers
    if (← peek) == .mark "(" then methodRest rules head name
    else if modifiers.isEmpty then fieldRest rules head name
    else unexpected

def classBody (rules : Rules) : Parse Forest := do
  let opening ← mark "\x7b"
  let inside ← repeated do
    match ← peekStart with
    | .mark "\x7d" => return none
    | .endOfText => return none
    | .mark ";" => return some (← mark ";")
    | _ => return some (← classMember rules)
  return construct "class_body" (opening ++ inside ++ (← mark "\x7d"))

def classRest (rules : Rules) (kind : String) (decoration : Forest) : Parse Forest := do
  let classWord ← keyword "class"
  let name ← match ← peekStart with
    | .word text width => if text == "extends" then pure [] else take "identifier" true width
    | _ => pure []
  let heritage ← if ← seesWord "extends" then
      let extendsWord ← keyword "extends"
      pure (construct "class_heritage" (extendsWord ++ (← rules (.expression .inside))))
    else pure []
  return construct kind (decoration ++ classWord ++ name ++ heritage ++ (← classBody rules))

end OrderLint.JavaScript
