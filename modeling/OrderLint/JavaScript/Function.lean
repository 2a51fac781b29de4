import OrderLint.JavaScript.Literal

/-!
# Binding targets, parameters, blocks and functions
-/
namespace OrderLint.JavaScript

open Parse

/-! ## Targets -/

mutual

/-- Whether a tree can be given a value: a name, a member, or a pattern of such trees, which is read
like an array or an object. -/
def Tree.isTarget : Tree → Bool
  | .node label children =>
    ["identifier", "member_expression", "subscript_expression"].contains label.kind
      || ["array", "object"].contains label.kind && areParts children

def Tree.isPart : Tree → Bool
  | .node label children =>
    match label.kind with
    | "property_identifier" | "object_assignment_pattern" | "comment" => true
    | "spread_element" | "rest_pattern" => areParts children
    | "assignment_expression" => beginsWithTarget children
    | "pair" => endsInPart children
    | _ => !label.named || Tree.isTarget (.node label children)

def areParts : Forest → Bool
  | [] => true
  | tree :: rest => tree.isPart && areParts rest

def beginsWithTarget : Forest → Bool
  | [] => false
  | tree :: rest => if isComment tree then beginsWithTarget rest else tree.isTarget

def endsInPart : Forest → Bool
  | [] => false
  | [tree] => tree.isPart
  | _ :: rest => endsInPart rest

end

def initializer (rules : Rules) (context : Context) : Parse Forest := do
  match ← mark? "=" with
  | some equals => return equals ++ (← rules (.expression context))
  | none => return []

def bindingPattern (rules : Rules) : Parse Forest := do
  let found ← rules (.operand .inside)
  if areParts found then return found else unexpected

def bindingTarget (rules : Rules) : Parse Forest := do
  match ← peekStart with
  | .word _ width => take "identifier" true width
  | .mark "[" => bindingPattern rules
  | .mark "\x7b" => bindingPattern rules
  | _ => unexpected

def parameter (rules : Rules) : Parse Forest := do
  match ← peekStart with
  | .mark "..." =>
    let dots ← mark "..."
    return construct "rest_pattern" (dots ++ (← bindingTarget rules))
  | .word _ width =>
    let name ← take "identifier" true width
    let value ← initializer rules .inside
    return if value.isEmpty then name else construct "assignment_pattern" (name ++ value)
  | _ => bindingTarget rules

def formalParameters (rules : Rules) : Parse Forest := do
  let opening ← mark "("
  return construct "formal_parameters" (opening ++ (← items ")" (parameter rules)))

def statements (rules : Rules) : Parse Forest := repeated do
  match ← peekStart with
  | .mark "\x7d" => return none
  | .endOfText => return none
  | _ => return some (← rules .statement)

def statementBlock (rules : Rules) : Parse Forest := do
  let opening ← mark "\x7b"
  let inside ← statements rules
  return construct "statement_block" (opening ++ inside ++ (← mark "\x7d"))

def functionRest (rules : Rules) : Parse Forest := do
  let star ← mark? "*"
  let name ← match ← peekStart with
    | .word _ width => take "identifier" true width
    | _ => pure []
  let parameters ← formalParameters rules
  return star.getD [] ++ name ++ parameters ++ (← statementBlock rules)

end OrderLint.JavaScript
