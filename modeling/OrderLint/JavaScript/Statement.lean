import OrderLint.JavaScript.Expression

/-!
# Statements

Imports and exports are statements like any other, in whatever place they stand. A word that
begins no statement where it stands begins an expression or a label.
-/
namespace OrderLint.JavaScript

open Parse

def condition (rules : Rules) : Parse Forest := do
  let opening ← mark "("
  let inside ← rules (.expressions .inside)
  return construct "parenthesized_expression" (opening ++ inside ++ (← mark ")"))

/-! ## Imports and exports -/

def aliasClause (kind : String) : Parse Forest := do
  let asWord ← keyword "as"
  return asWord ++ inRole "alias" (← anyWord kind)

/-- A specifier between braces. A string or `default` needs an alias. -/
def importSpecifier : Parse Forest := do
  match ← peekStart with
  | .quote _ =>
    let name ← stringLiteral
    return construct "import_specifier" (inRole "name" name ++ (← aliasClause "identifier"))
  | .word text width =>
    let name ← take "identifier" true width
    let other ← if text == "default" || (← seesWord "as") then aliasClause "identifier" else pure []
    return construct "import_specifier" (inRole "name" name ++ other)
  | _ => unexpected

def namespaceImport : Parse Forest := do
  let star ← mark "*"
  let asWord ← keyword "as"
  return construct "namespace_import" (star ++ asWord ++ (← anyWord "identifier"))

def namedImports : Parse Forest := do
  let opening ← mark "\x7b"
  return construct "named_imports" (opening ++ (← items "\x7d" importSpecifier))

def groupedImport : Parse Forest := do
  if (← peekStart) == .mark "*" then namespaceImport else namedImports

def importClause : Parse Forest := do
  match ← peekStart with
  | .word _ width =>
    let name ← take "identifier" true width
    match ← mark? "," with
    | some comma => return construct "import_clause" (name ++ comma ++ (← groupedImport))
    | none => return construct "import_clause" name
  | _ => return construct "import_clause" (← groupedImport)

def fromClause : Parse Forest := do
  let fromWord ← keyword "from"
  return fromWord ++ inRole "source" (← stringLiteral)

def importAttribute (rules : Rules) : Parse Forest := do
  if ← seesWord "with" then
    let withWord ← keyword "with"
    return construct "import_attribute" (withWord ++ (← objectLiteral rules).trees)
  else return []

def importStatement (rules : Rules) : Parse Forest := do
  let importWord ← keyword "import"
  let what ← match ← peekStart with
    | .quote _ => pure (inRole "source" (← stringLiteral))
    | _ => do
      let clause ← importClause
      pure (clause ++ (← fromClause))
  let attributes ← importAttribute rules
  return construct "import_statement" (importWord ++ what ++ attributes ++ (← semicolon true))

def exportName : Parse Forest := do
  match ← peekStart with
  | .quote _ => stringLiteral
  | _ => anyWord "identifier"

def exportSpecifier : Parse Forest := do
  let name ← exportName
  if ← seesWord "as" then
    let asWord ← keyword "as"
    return construct "export_specifier" (name ++ asWord ++ (← exportName))
  else return construct "export_specifier" name

def seesDeclaration : Parse Bool := do
  match ← peekStart with
  | .word text _ =>
    match text with
    | "function" | "class" =>
      match ← peekSecond with
      | .word name _ => return name != "extends"
      | .mark "*" => return true
      | _ => return false
    | "var" | "let" | "const" => return true
    | "async" =>
      match ← peekSecond with
      | .word second _ => return second == "function"
      | _ => return false
    | _ => return false
  | .mark "@" => return true
  | _ => return false

def defaultExport (rules : Rules) : Parse Forest := do
  if ← seesDeclaration then rules .statement
  else
    let value ← rules (.expression .statement)
    return value ++ (← semicolon false)

def namespaceExport (rules : Rules) : Parse Forest := do
  let star ← mark "*"
  let name ← if ← seesWord "as" then do
      let asWord ← keyword "as"
      pure (asWord ++ (← exportName))
    else pure []
  let source ← fromClause
  return star ++ name ++ source ++ (← importAttribute rules) ++ (← semicolon true)

def exportClause (rules : Rules) : Parse Forest := do
  let opening ← mark "\x7b"
  let clause := construct "export_clause" (opening ++ (← items "\x7d" exportSpecifier))
  let source ← if ← seesWord "from" then do
      let source ← fromClause
      pure (source ++ (← importAttribute rules))
    else pure []
  return clause ++ source ++ (← semicolon true)

def exportStatement (rules : Rules) (decoration : Forest) : Parse Forest := do
  let exportWord ← keyword "export"
  let what ← match ← peekStart with
    | .mark "*" => namespaceExport rules
    | .mark "\x7b" => exportClause rules
    | .word "default" _ => do
      let defaultWord ← keyword "default"
      pure (defaultWord ++ (← defaultExport rules))
    | _ => if ← seesDeclaration then rules .statement else unexpected
  return construct "export_statement" (decoration ++ exportWord ++ what)

/-! ## Declarations -/

def declarators (rules : Rules) (context : Context) : Parse Forest := do
  let one : Parse Forest := do
    let target ← bindingTarget rules
    return construct "variable_declarator" (target ++ (← initializer rules context))
  let first ← one
  return first ++ (← repeated do
    match ← mark? "," with
    | some comma => return some (comma ++ (← one))
    | none => return none)

def endsInitialized (declared : Forest) : Bool :=
  match declared.getLast? with
  | some last => 1 < (last.children.filter (!isComment ·)).length
  | none => false

def variableDeclaration (rules : Rules) (kind : String) (width : Nat) : Parse Forest := do
  let word ← take kind false width
  let declared ← declarators rules .statement
  let ending ← semicolon (!endsInitialized declared)
  return construct "variable_declaration" (word ++ declared ++ ending)

def functionDeclaration (rules : Rules) (head : Forest) : Parse Forest := do
  let function ← keyword "function"
  return construct "function_declaration" (head ++ function ++ (← functionRest rules))

/-! ## Control flow -/

def ifStatement (rules : Rules) : Parse Forest := do
  let ifWord ← keyword "if"
  let test ← condition rules
  let whenTrue ← rules .statement
  let _ ← peekStart
  let whenFalse ← if ← seesWord "else" then do
      let elseWord ← keyword "else"
      pure (construct "else_clause" (elseWord ++ (← rules .statement)))
    else pure []
  return construct "if_statement" (ifWord ++ test ++ whenTrue ++ whenFalse)

def iteration (rules : Rules) : Parse Forest := do
  match ← peek with
  | .word text width =>
    if text == "in" || text == "of" then
      let word ← take text false width
      let value ← rules (.expressions .inside)
      return word ++ value ++ (← mark ")")
    else unexpected
  | _ => unexpected

def loopRest (rules : Rules) : Parse Forest := do
  let first ← mark ";"
  let test ← if (← peekStart) == .mark ";" then pure [] else rules (.expressions .inside)
  let second ← mark ";"
  let increment ← if (← peekStart) == .mark ")" then pure [] else rules (.expressions .inside)
  return first ++ test ++ second ++ increment ++ (← mark ")")

def forHeader (rules : Rules) : Parse Forest := do
  let context : Context := { allowIn := false }
  let iterates : Parse Bool := do return (← seesWord "in") || (← seesWord "of")
  let declares ← match ← peekStart with
    | .word text _ =>
      if text == "var" || text == "const" then pure true
      else if text == "let" then
        match ← peekSecond with
        | .word second _ => pure (second != "in" && second != "of")
        | .mark second => pure (second == "[" || second == "\x7b")
        | _ => pure false
      else pure false
    | _ => pure false
  if declares then
    let word ← match ← peekStart with
      | .word text width => take text false width
      | _ => unexpected
    let declared ← declarators rules context
    let rest ← if ← iterates then iteration rules else loopRest rules
    return word ++ declared ++ rest
  else if (← peekStart) == .mark ";" then loopRest rules
  else
    let first ← rules (.expressions context)
    if ← iterates then
      let isIterated := fun (tree : Tree) =>
        isComment tree || tree.isTarget || tree.kind == "parenthesized_expression"
      if first.all isIterated then return first ++ (← iteration rules) else unexpected
    else return first ++ (← loopRest rules)

def forStatement (rules : Rules) : Parse Forest := do
  let forWord ← keyword "for"
  let await ← if ← seesWord "await" then keyword "await" else pure []
  let opening ← mark "("
  let header ← forHeader rules
  return construct "for_statement" (forWord ++ await ++ opening ++ header ++ (← rules .statement))

def whileStatement (rules : Rules) : Parse Forest := do
  let whileWord ← keyword "while"
  let test ← condition rules
  return construct "while_statement" (whileWord ++ test ++ (← rules .statement))

/-- The semicolon after a `do` loop may be left out even on the same line. -/
def doStatement (rules : Rules) : Parse Forest := do
  let doWord ← keyword "do"
  let body ← rules .statement
  let _ ← peekStart
  let whileWord ← keyword "while"
  let test ← condition rules
  let ending ← if ← endsHere true then pure none else mark? ";"
  return construct "do_statement" (doWord ++ body ++ whileWord ++ test ++ ending.getD [])

def withStatement (rules : Rules) : Parse Forest := do
  let withWord ← keyword "with"
  let object ← condition rules
  return construct "with_statement" (withWord ++ object ++ (← rules .statement))

def switchCase (rules : Rules) : Parse (Option Forest) := do
  let _ ← peekStart
  let head ← if ← seesWord "case" then do
      let caseWord ← keyword "case"
      pure (some (caseWord ++ (← rules (.expressions .inside))))
    else if ← seesWord "default" then pure (some (← keyword "default"))
    else pure none
  match head with
  | none => return none
  | some head =>
    let colon ← mark ":"
    let body ← repeated do
      match ← peekStart with
      | .mark "\x7d" => return none
      | .endOfText => return none
      | .word text _ =>
        if text == "case" || text == "default" then return none
        else return some (← rules .statement)
      | _ => return some (← rules .statement)
    return some (construct "switch_case" (head ++ colon ++ body))

def switchStatement (rules : Rules) : Parse Forest := do
  let switch ← keyword "switch"
  let value ← condition rules
  let opening ← mark "\x7b"
  let cases ← repeated (switchCase rules)
  let body := construct "switch_body" (opening ++ cases ++ (← mark "\x7d"))
  return construct "switch_statement" (switch ++ value ++ body)

def tryStatement (rules : Rules) : Parse Forest := do
  let tryWord ← keyword "try"
  let body ← statementBlock rules
  let _ ← peekStart
  let handler ← if ← seesWord "catch" then do
      let catchWord ← keyword "catch"
      let bound ← match ← mark? "(" with
        | some opening => do
          let target ← bindingTarget rules
          pure (opening ++ target ++ (← mark ")"))
        | none => pure []
      pure (construct "catch_clause" (catchWord ++ bound ++ (← statementBlock rules)))
    else pure []
  let _ ← peekStart
  let finalizer ← if ← seesWord "finally" then do
      let finallyWord ← keyword "finally"
      pure (construct "finally_clause" (finallyWord ++ (← statementBlock rules)))
    else pure []
  return construct "try_statement" (tryWord ++ body ++ handler ++ finalizer)

def jumpStatement (text kind : String) : Parse Forest := do
  let word ← keyword text
  if ← endsHere true then return construct kind word
  let label ← match ← peek with
    | .word _ width => take "statement_identifier" true width
    | _ => pure []
  return construct kind (word ++ label ++ (← semicolon true))

def returnStatement (rules : Rules) : Parse Forest := do
  let returnWord ← keyword "return"
  if ← endsHere true then return construct "return_statement" returnWord
  let value ← if (← peekStart) == .mark ";" then pure [] else rules (.expressions .statement)
  return construct "return_statement" (returnWord ++ value ++ (← semicolon value.isEmpty))

def throwStatement (rules : Rules) : Parse Forest := do
  let throwWord ← keyword "throw"
  let value ← rules (.expressions .statement)
  return construct "throw_statement" (throwWord ++ value ++ (← semicolon false))

def expressionStatement (rules : Rules) : Parse Forest := do
  let value ← rules (.expressions .statement)
  return construct "expression_statement" (value ++ (← semicolon false))

def wordStatement (rules : Rules) : Parse Forest := do
  if (← peekSecond) == .mark ":" then
    let label ← anyWord "statement_identifier"
    let colon ← mark ":"
    return construct "labeled_statement" (label ++ colon ++ (← rules .statement))
  else expressionStatement rules

def decoratedStatement (rules : Rules) : Parse Forest := do
  let decoration ← decorators rules
  if ← seesWord "export" then exportStatement rules decoration
  else classRest rules "class_declaration" decoration

def statement (rules : Rules) : Parse Forest := do
  match ← peekStart with
  | .mark "\x7b" => statementBlock rules
  | .mark ";" => return construct "empty_statement" (← mark ";")
  | .mark "@" => decoratedStatement rules
  | .word text width =>
    match text with
    | "import" =>
      match ← peekSecond with
      | .mark "(" => expressionStatement rules
      | .mark "." => expressionStatement rules
      | _ => importStatement rules
    | "export" => exportStatement rules []
    | "var" | "const" => variableDeclaration rules text width
    | "let" =>
      match ← peekSecond with
      | .word second _ =>
        if second == "in" || second == "instanceof" then expressionStatement rules
        else variableDeclaration rules text width
      | .mark "[" => variableDeclaration rules text width
      | .mark "\x7b" => variableDeclaration rules text width
      | _ => wordStatement rules
    | "function" =>
      if ← seesDeclaration then functionDeclaration rules [] else expressionStatement rules
    | "async" =>
      let r ← get
      if (← seesDeclaration) && !(r.place.skip width).endsStatement false r.atEnd then
        functionDeclaration rules (← take "async" false width)
      else wordStatement rules
    | "class" =>
      if ← seesDeclaration then classRest rules "class_declaration" []
      else expressionStatement rules
    | "if" => ifStatement rules
    | "for" => forStatement rules
    | "while" => whileStatement rules
    | "do" => doStatement rules
    | "switch" => switchStatement rules
    | "try" => tryStatement rules
    | "with" => withStatement rules
    | "break" => jumpStatement "break" "break_statement"
    | "continue" => jumpStatement "continue" "continue_statement"
    | "return" => returnStatement rules
    | "throw" => throwStatement rules
    | "debugger" => do
      let word ← keyword "debugger"
      return construct "debugger_statement" (word ++ (← semicolon true))
    | _ => wordStatement rules
  | _ => expressionStatement rules

end OrderLint.JavaScript
