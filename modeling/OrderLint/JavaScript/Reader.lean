import OrderLint.JavaScript.Semicolon

/-!
# Reading tokens

A reader stands between two tokens. Comments that it has passed wait until the next token is taken
and are placed in the tree in front of it. A parser is a function on readers that may fail at a
token.
-/
namespace OrderLint.JavaScript

structure Lexeme where
  offset : Nat
  width : Nat
  deriving DecidableEq

structure Reader where
  place : Place
  -- Comments passed and not yet placed.
  pending : Forest := []
  after : Place
  -- The last token of the statement that is being read.
  last : Option Lexeme := none
  atEnd : Bool := true

/-- Why the text could not be read on: the token that does not fit, and the token before it; no
token at the end of the text or inside an unfinished literal. -/
structure Failure where
  token : Option Lexeme
  before : Option Lexeme

abbrev Parse := StateT Reader (Except Failure)

namespace Parse

def settle (markup : Bool) : Parse Unit := modify fun r =>
  let (comments, place) := r.place.trivia markup
  { r with place, pending := r.pending ++ comments }

def peek : Parse Token := do
  settle false
  return (← get).place.token

def peekStart : Parse Token := do
  settle true
  return (← get).place.token

def peekSecond : Parse Token := do
  let r ← get
  let (_, p) := r.place.trivia true
  return (p.skip p.token.width).nextToken

def unexpected {α : Type} : Parse α := do
  settle false
  let r ← get
  match r.place.token with
  | .endOfText => throw ⟨none, none⟩
  | token => throw ⟨some ⟨r.place.offset, token.width⟩, r.last⟩

def unfinished {α : Type} : Parse α := throw ⟨none, none⟩

def take (kind : String) (named : Bool) (width : Nat) : Parse Forest := do
  let r ← get
  let next := r.place.skip width
  let last := some ⟨r.place.offset, width⟩
  set { r with place := next, after := next, pending := [], last }
  return r.pending ++ [Place.leaf kind named r.place next]

/-- What `parse` takes counts as one token. The reader stands right before it. -/
def asOne (parse : Parse Forest) : Parse Forest := do
  let first := (← get).place.offset
  let forest ← parse
  modify fun r => { r with last := some ⟨first, r.place.offset - first⟩ }
  return forest

def mark (text : String) : Parse Forest := do
  if (← peek) == .mark text then take text false text.utf8ByteSize else unexpected

def mark? (text : String) : Parse (Option Forest) := do
  if (← peek) == .mark text then return some (← take text false text.utf8ByteSize)
  else return none

def keyword (text : String) : Parse Forest := do
  match ← peekStart with
  | .word found width => if found == text then take text false width else unexpected
  | _ => unexpected

def seesWord (text : String) : Parse Bool := do
  match ← peek with
  | .word found _ => return found == text
  | _ => return false

def anyWord (kind : String) : Parse Forest := do
  match ← peekStart with
  | .word _ width => take kind true width
  | _ => unexpected

/-- Whether a statement or field ends without a semicolon after the last token. When it does, no
last token stands before what comes next. -/
def endsHere (alone : Bool) : Parse Bool := do
  let r ← get
  if r.after.endsStatement alone r.atEnd then
    set { r with last := none }
    return true
  else return false

def semicolon (alone : Bool) : Parse Forest := do
  if ← endsHere alone then return [] else mark ";"

def repeatUpTo (step : Parse (Option Forest)) : Nat → List Forest → Parse Forest
  | 0, done => return done.reverse.flatten
  | limit + 1, done => do
    match ← step with
    | some forest => repeatUpTo step limit (forest :: done)
    | none => return done.reverse.flatten

/-- Repeats a step until it declines. Each repetition takes a token, so there are no more of them
than bytes ahead. -/
def repeated (step : Parse (Option Forest)) : Parse Forest := do
  repeatUpTo step ((← get).place.rest.length + 1) []

def items (close : String) (item : Parse Forest) : Parse Forest := do
  let found ← repeated do
    if (← peekStart) == .mark close then return none
    let forest ← item
    if (← peek) == .mark close then return some forest
    return some (forest ++ (← mark ","))
  return found ++ (← mark close)

def sparseItems (close : String) (item : Parse Forest) : Parse Forest := do
  let found ← repeated do
    let token ← peekStart
    if token == .mark close then return none
    if token == .mark "," then return some (← mark ",")
    let forest ← item
    if (← peek) == .mark close then return some forest
    return some (forest ++ (← mark ","))
  return found ++ (← mark close)

end Parse

end OrderLint.JavaScript
