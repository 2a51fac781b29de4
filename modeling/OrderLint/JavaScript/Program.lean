import OrderLint.JavaScript.Statement

/-!
# Programs

A program is a sequence of statements. Reading a text that is not a program stops at a token in a
statement.
-/
namespace OrderLint.JavaScript

open Parse

def rule (rules : Rules) : Rules
  | .statement => statement rules
  | .expressions context => expressions rules context
  | .expression context => expression rules context
  | .operand context => operand rules context
  | .construction => construction rules
  | .element => markupElement rules

def rulesTo : Nat → Rules
  | 0, _ => unfinished
  | depth + 1, nonterminal => rule (rulesTo depth) nonterminal

def interpreterLine : Parse Forest := do
  let _ ← peekStart
  let p := (← get).place
  if p.sees "#!" then
    take "hash_bang_line" true ((p.dropWhile fun c => !endsLineComment c).offset - p.offset)
  else return []

/-- Where reading stopped: the place where the statement begins, and why it failed. -/
structure Stop where
  statement : Place
  failure : Failure

def readStatements (rules : Rules) : Nat → List Forest → Reader → Except Stop Forest
  | 0, done, r => .ok (done.reverse.flatten ++ r.pending)
  | limit + 1, done, r =>
    match peekStart.run r with
    | .error failure => .error ⟨r.place, failure⟩
    | .ok (token, r) =>
      if token == .endOfText then .ok (done.reverse.flatten ++ r.pending)
      else match (rules .statement).run r with
        | .error failure => .error ⟨r.place, failure⟩
        | .ok (forest, next) => readStatements rules limit (forest :: done) next

def readProgram (atEnd : Bool) (src : Bytes) : Except Stop Forest :=
  let start : Place := { rest := src }
  let rules := rulesTo (8 * src.length + 64)
  match interpreterLine.run { place := start, after := start, atEnd } with
  | .error failure => .error ⟨start, failure⟩
  | .ok (line, r) => readStatements rules (src.length + 1) [line] r

def isProgram (atEnd : Bool) (src : Bytes) : Bool :=
  match readProgram atEnd src with
  | .ok _ => true
  | .error _ => false

end OrderLint.JavaScript
