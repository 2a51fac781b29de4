import OrderLint.JavaScript.Markup

/-!
# Expressions

Binary operators are read in one row: their precedence decides nothing that an outline shows.
Parentheses are read the same way whether they turn out to hold the parameters of an arrow function
or an expression.
-/
namespace OrderLint.JavaScript

open Parse

structure Operand where
  trees : Forest
  assignable : Bool := false

def binaryMarks : List String :=
  ["&&", "||", "??", "|", "^", "&", "==", "!=", "===", "!==", "<", ">", "<=", ">=", "<<", ">>",
    ">>>", "+", "-", "*", "/", "%", "**"]

def assignmentMarks : List String :=
  ["=", "+=", "-=", "*=", "/=", "%=", "^=", "&=", "|=", ">>=", ">>>=", "<<=", "**=", "&&=", "||=",
    "??="]

def prefixMarks : List String := ["!", "~", "-", "+"]

def prefixWords : List String := ["typeof", "void", "delete"]

def openingMarks : List String :=
  ["(", "[", "\x7b", "`", "+", "-", "!", "~", "++", "--", "/", "/=", "<", "@"]

def Token.opensExpression : Token → Bool
  | .word text _ => text != "in" && text != "of" && text != "instanceof"
  | .privateName _ => true
  | .number _ => true
  | .quote _ => true
  | .mark text => openingMarks.contains text
  | .stray _ => false
  | .endOfText => false

def arrowRest (rules : Rules) (context : Context) (parameters : Forest) : Parse Forest := do
  let arrow ← mark "=>"
  let body ← if (← peekStart) == .mark "\x7b" then statementBlock rules
    else rules (.expression context)
  return construct "arrow_function" (parameters ++ arrow ++ body)

def parenthesizedItem (rules : Rules) : Parse Forest := do
  match ← mark? "..." with
  | some dots => return construct "rest_pattern" (dots ++ (← bindingTarget rules))
  | none => rules (.expression .inside)

/-- Whether what stands in parentheses is one or more expressions: no rest element, no comma at the
end, not empty. -/
def isPlain (inside : Forest) : Bool :=
  match (inside.filter (!isComment ·)).reverse with
  | _ :: last :: rest => last.kind != "," && !(last :: rest).any (·.kind == "rest_pattern")
  | _ => false

def parenthesized (rules : Rules) (context : Context) : Parse Operand := do
  let opening ← mark "("
  let inside ← items ")" (parenthesizedItem rules)
  if (← peek) == .mark "=>" && areParts inside then
    return ⟨← arrowRest rules context (construct "formal_parameters" (opening ++ inside)), false⟩
  else if isPlain inside then
    return ⟨construct "parenthesized_expression" (opening ++ inside), true⟩
  else unexpected

def arrayLiteral (rules : Rules) : Parse Operand := do
  let opening ← mark "["
  let inside ← sparseItems "]" do
    match ← mark? "..." with
    | some dots => return construct "spread_element" (dots ++ (← rules (.expression .inside)))
    | none => rules (.expression .inside)
  return ⟨construct "array" (opening ++ inside), areParts inside⟩

def objectMember (rules : Rules) : Parse Forest := do
  match ← mark? "..." with
  | some dots => return construct "spread_element" (dots ++ (← rules (.expression .inside)))
  | none =>
    let static ← staticModifier false
    let modifiers ← methodModifiers false
    let start ← peekStart
    let name ← propertyName rules
    match ← peek with
    | .mark "(" => methodRest rules (static ++ modifiers) name
    | .mark ":" =>
      if static.isEmpty && modifiers.isEmpty then
        let colon ← mark ":"
        return construct "pair" (inRole "key" name ++ colon ++ (← rules (.expression .inside)))
      else unexpected
    | _ =>
      match start with
      | .word _ _ =>
        if static.isEmpty && modifiers.isEmpty then
          let value ← initializer rules .inside
          return if value.isEmpty then name
            else construct "object_assignment_pattern" (name ++ value)
        else unexpected
      | _ => unexpected

def objectLiteral (rules : Rules) : Parse Operand := do
  let opening ← mark "\x7b"
  let inside ← sparseItems "\x7d" (objectMember rules)
  return ⟨construct "object" (opening ++ inside), areParts inside⟩

def functionExpression (rules : Rules) (head : Forest) : Parse Operand := do
  let function ← keyword "function"
  return ⟨construct "function_expression" (head ++ function ++ (← functionRest rules)), false⟩

def nameOperand (rules : Rules) (context : Context) : Parse Operand := do
  let name ← anyWord "identifier"
  if (← peek) == .mark "=>" then return ⟨← arrowRest rules context name, false⟩
  else return ⟨name, true⟩

def asyncOperand (rules : Rules) (context : Context) (width : Nat) : Parse Operand := do
  let r ← get
  let after := r.place.skip width
  let (_, second) := after.trivia false
  if context.lineEnds && after.endsStatement false r.atEnd then nameOperand rules context
  else match second.token with
  | .word text secondWidth =>
    if text == "function" then functionExpression rules (← take "async" false width)
    else if (second.skip secondWidth).nextToken == .mark "=>" then
      let async ← take "async" false width
      let name ← anyWord "identifier"
      return ⟨← arrowRest rules context (async ++ name), false⟩
    else nameOperand rules context
  | .mark "(" =>
    let async ← take "identifier" true width
    let inside ← callArguments rules
    if (← peek) == .mark "=>" && inside.all (areParts ·.children) then
      return ⟨← arrowRest rules context (async ++ inside), false⟩
    else return ⟨construct "call_expression" (async ++ inside), false⟩
  | _ => nameOperand rules context

def wordOperand (rules : Rules) (context : Context) (text : String) (width : Nat) :
    Parse Operand := do
  match text with
  | "function" => functionExpression rules []
  | "class" => return ⟨← classRest rules "class" [], false⟩
  | "async" => asyncOperand rules context width
  | "new" => return ⟨← rules .construction, false⟩
  | "import" =>
    let importWord ← take "import" true width
    match ← peek with
    | .mark "." => return ⟨importWord, false⟩
    | .mark "(" => return ⟨importWord, false⟩
    | _ => unexpected
  | "this" => return ⟨← take "this" true width, false⟩
  | "super" => return ⟨← take "super" true width, false⟩
  | "true" => return ⟨← take "true" true width, false⟩
  | "false" => return ⟨← take "false" true width, false⟩
  | "null" => return ⟨← take "null" true width, false⟩
  | _ => nameOperand rules context

def primary (rules : Rules) (context : Context) : Parse Operand := do
  match ← peekStart with
  | .word text width => wordOperand rules context text width
  | .privateName width => return ⟨← take "private_property_identifier" true width, false⟩
  | .number width => return ⟨← take "number" true width, false⟩
  | .quote _ => return ⟨← stringLiteral, false⟩
  | .mark "(" => parenthesized rules context
  | .mark "[" => arrayLiteral rules
  | .mark "\x7b" => objectLiteral rules
  | .mark "`" => return ⟨← templateLiteral rules, false⟩
  | .mark "/" => return ⟨← regexLiteral, false⟩
  | .mark "/=" => return ⟨← regexLiteral, false⟩
  | .mark "<" => return ⟨← rules .element, false⟩
  | .mark "@" =>
    let decoration ← decorators rules
    return ⟨← classRest rules "class" decoration, false⟩
  | _ => unexpected

def memberName : Parse Forest := do
  match ← peek with
  | .word _ width => take "property_identifier" true width
  | .privateName width => take "private_property_identifier" true width
  | _ => unexpected

def subscript (rules : Rules) : Parse Forest := do
  let opening ← mark "["
  let inside ← rules (.expressions .inside)
  return opening ++ inside ++ (← mark "]")

def optionalLink (rules : Rules) (operand : Operand) : Parse Operand := do
  let dot ← take "optional_chain" true 2
  match ← peek with
  | .mark "[" =>
    return ⟨construct "subscript_expression" (operand.trees ++ dot ++ (← subscript rules)), true⟩
  | .mark "(" =>
    return ⟨construct "call_expression" (operand.trees ++ dot ++ (← callArguments rules)), false⟩
  | _ => return ⟨construct "member_expression" (operand.trees ++ dot ++ (← memberName)), true⟩

/-- The operand with the member, subscript, template or, where `calls` is set, call that follows
it. -/
def link? (rules : Rules) (calls : Bool) (operand : Operand) : Parse (Option Operand) := do
  match ← peek with
  | .mark "." =>
    let dot ← mark "."
    return some ⟨construct "member_expression" (operand.trees ++ dot ++ (← memberName)), true⟩
  | .mark "?." => return some (← optionalLink rules operand)
  | .mark "[" =>
    return some ⟨construct "subscript_expression" (operand.trees ++ (← subscript rules)), true⟩
  | .mark "`" =>
    return some ⟨construct "call_expression" (operand.trees ++ (← templateLiteral rules)), false⟩
  | .mark "(" =>
    if calls then
      return some ⟨construct "call_expression" (operand.trees ++ (← callArguments rules)), false⟩
    else return none
  | _ => return none

def chain (rules : Rules) (calls : Bool) : Nat → Operand → Parse Operand
  | 0, operand => return operand
  | limit + 1, operand => do
    match ← link? rules calls operand with
    | some longer => chain rules calls limit longer
    | none => return operand

def chained (rules : Rules) (calls : Bool) (operand : Operand) : Parse Operand := do
  chain rules calls ((← get).place.rest.length + 1) operand

def construction (rules : Rules) : Parse Forest := do
  let new ← keyword "new"
  match ← mark? "." with
  | some dot => return construct "meta_property" (new ++ dot ++ (← anyWord "property_identifier"))
  | none =>
    let constructor ← if ← seesWord "new" then rules .construction
      else do
        let operand ← primary rules .inside
        pure (← chained rules false operand).trees
    let inside ← if (← peek) == .mark "(" then callArguments rules else pure []
    return construct "new_expression" (new ++ constructor ++ inside)

def increments (context : Context) (operand : Operand) : Parse Operand := do
  match ← peek with
  | .mark text =>
    if text == "++" || text == "--" then
      if context.lineEnds && (← endsHere false) then return operand
      else return ⟨construct "update_expression" (operand.trees ++ (← mark text)), false⟩
    else return operand
  | _ => return operand

def assignment (rules : Rules) (context : Context) (operand : Operand) : Parse Forest := do
  match ← peek with
  | .mark text =>
    if operand.assignable && assignmentMarks.contains text then
      let sign ← mark text
      let value ← rules (.expression context)
      return construct "assignment_expression" (operand.trees ++ sign ++ value)
    else return operand.trees
  | _ => return operand.trees

def postfixOperand (rules : Rules) (context : Context) : Parse Forest := do
  let operand ← chained rules true (← primary rules context)
  assignment rules context (← increments context operand)

def yieldOperand (rules : Rules) (context : Context) (width : Nat) : Parse Forest := do
  let yield ← take "yield" false width
  if context.lineEnds && (← endsHere false) then return construct "yield_expression" yield
  let star ← mark? "*"
  let value ← if star.isSome || (← peekStart).opensExpression then rules (.expression context)
    else pure []
  return construct "yield_expression" (yield ++ star.getD [] ++ value)

def operand (rules : Rules) (context : Context) : Parse Forest := do
  match ← peekStart with
  | .mark text =>
    if prefixMarks.contains text then
      let sign ← mark text
      return construct "unary_expression" (sign ++ (← rules (.operand context)))
    else if text == "++" || text == "--" then
      let sign ← mark text
      return construct "update_expression" (sign ++ (← rules (.operand context)))
    else postfixOperand rules context
  | .word text width =>
    if prefixWords.contains text then
      let sign ← take text false width
      return construct "unary_expression" (sign ++ (← rules (.operand context)))
    else if text == "await" then
      let await ← take text false width
      return construct "await_expression" (await ++ (← rules (.operand context)))
    else if text == "yield" then yieldOperand rules context width
    else postfixOperand rules context
  | _ => postfixOperand rules context

def binaryOperator? (context : Context) : Parse (Option Forest) := do
  match ← peek with
  | .mark text => if binaryMarks.contains text then return some (← mark text) else return none
  | .word text width =>
    if text == "instanceof" || (text == "in" && context.allowIn) then
      return some (← take text false width)
    else return none
  | _ => return none

def expression (rules : Rules) (context : Context) : Parse Forest := do
  let first ← rules (.operand context)
  let rest ← repeated do
    match ← binaryOperator? context with
    | some operator => return some (operator ++ (← rules (.operand context)))
    | none => return none
  let value := if rest.isEmpty then first else construct "binary_expression" (first ++ rest)
  match ← mark? "?" with
  | none => return value
  | some question =>
    let whenTrue ← rules (.expression .inside)
    let colon ← mark ":"
    let whenFalse ← rules (.expression context)
    return construct "ternary_expression" (value ++ question ++ whenTrue ++ colon ++ whenFalse)

def expressions (rules : Rules) (context : Context) : Parse Forest := do
  let first ← rules (.expression context)
  let rest ← repeated do
    match ← mark? "," with
    | some comma => return some (comma ++ (← rules (.expression context)))
    | none => return none
  return if rest.isEmpty then first else construct "sequence_expression" (first ++ rest)

end OrderLint.JavaScript
