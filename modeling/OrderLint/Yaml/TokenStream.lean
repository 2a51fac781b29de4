import OrderLint.Yaml.Property
import OrderLint.Yaml.Scalar

/-!
# YAML tokens in a text

Tokens are read ahead of their use. A node may turn out to be the key of a mapping only when the
colon after it is met, on the same line and not too far on: a key token is then put before it, and a
token that begins the mapping if this is its first key. Indentation opens and closes blocks, except
inside brackets and braces.
-/
namespace OrderLint.Yaml

/-- A token that may turn out to begin a key. -/
structure KeyCandidate where
  required : Bool
  number : Nat
  mark : Mark

def longestKey : Nat := 1024

structure TokenStream where
  cursor : Cursor
  -- Tokens that have been read ahead.
  queue : List Token := []
  used : Nat := 0
  started : Bool := false
  -- The column of the innermost block, and those of the blocks around it.
  indent : Int := -1
  outerIndents : List Int := []
  -- The candidate at each level of brackets and braces, innermost first; the last is outside.
  candidates : List (Option KeyCandidate) := [none]
  -- Whether a key may begin at the cursor.
  keyAllowed : Bool := true

namespace TokenStream

def ofText (text : List Char) : TokenStream := { cursor := { rest := text } }

def inFlow (s : TokenStream) : Bool := 1 < s.candidates.length

def candidate (s : TokenStream) : Option KeyCandidate := s.candidates.head?.join

def setCandidate (s : TokenStream) (candidate : Option KeyCandidate) : TokenStream :=
  { s with candidates := candidate :: s.candidates.drop 1 }

def nextNumber (s : TokenStream) : Nat := s.used + s.queue.length

def push (s : TokenStream) (kind : TokenKind) (start : Mark) : TokenStream :=
  { s with queue := s.queue ++ [⟨kind, start⟩] }

def insert (s : TokenStream) (number : Nat) (kind : TokenKind) (start : Mark) : TokenStream :=
  let place := number - s.used
  { s with queue := s.queue.take place ++ ⟨kind, start⟩ :: s.queue.drop place }

/-! ## Keys -/

def liveCandidate (s : TokenStream) (candidate : Option KeyCandidate) :
    Except Error (Option KeyCandidate) :=
  match candidate with
  | none => .ok none
  | some key =>
    if key.mark.line < s.cursor.mark.line || key.mark.index + longestKey < s.cursor.mark.index then
      if key.required then .error (.token key.mark s.cursor.mark .noColon) else .ok none
    else .ok (some key)

def dropCandidate (s : TokenStream) : Except Error TokenStream :=
  match s.candidate with
  | none => .ok s
  | some key =>
    if key.required then .error (.token key.mark s.cursor.mark .noColon)
    else .ok (s.setCandidate none)

def noteCandidate (s : TokenStream) : Except Error TokenStream :=
  if s.keyAllowed then
    let required := !s.inFlow && s.indent == (s.cursor.mark.column : Int)
    match s.dropCandidate with
    | .error e => .error e
    | .ok dropped => .ok (dropped.setCandidate (some ⟨required, s.nextNumber, s.cursor.mark⟩))
  else .ok s

/-! ## Indentation -/

/-- Opens a block at a column, if it is deeper than the current one, before the token with the given
number. -/
def openBlock (s : TokenStream) (column number : Nat) (kind : TokenKind) (start : Mark) :
    TokenStream :=
  if s.inFlow || (column : Int) ≤ s.indent then s
  else
    let s := { s with indent := column, outerIndents := s.indent :: s.outerIndents }
    s.insert number kind start

def closeBlocks (column : Int) (mark : Mark) : Nat → TokenStream → TokenStream
  | 0, s => s
  | limit + 1, s =>
    if column < s.indent then
      let closed := s.push .blockEnd mark
      closeBlocks column mark limit
        { closed with indent := s.outerIndents.headD (-1), outerIndents := s.outerIndents.drop 1 }
    else s

def closeTo (s : TokenStream) (column : Int) (mark : Mark) : TokenStream :=
  if s.inFlow then s else closeBlocks column mark s.outerIndents.length s

/-! ## Reading tokens -/

def passGap : Nat → TokenStream → TokenStream
  | 0, s => s
  | limit + 1, s =>
    let c := s.cursor
    let c := if c.mark.column == 0 && c.sees '\ufeff' then c.skip else c
    let c := c.skipWhile fun char => char == ' ' || ((s.inFlow || !s.keyAllowed) && char == '\t')
    let c := if c.sees '#' then c.skipComments (c.rest.length + 1) else c
    if c.head?.any isBreak then
      passGap limit { s with cursor := c.skipBreak, keyAllowed := s.keyAllowed || !s.inFlow }
    else { s with cursor := c }

def takeIndicator (s : TokenStream) (kind : TokenKind) (width : Nat) : TokenStream :=
  { s.push kind s.cursor.mark with cursor := s.cursor.skipMany width }

def endStream (s : TokenStream) : Except Error TokenStream :=
  let mark := s.cursor.mark
  let mark := if mark.column = 0 then mark else { mark with line := mark.line + 1, column := 0 }
  let s := { s with cursor := { s.cursor with mark } }
  match (s.closeTo (-1) mark).dropCandidate with
  | .error e => .error e
  | .ok s => .ok ({ s with keyAllowed := false }.push .streamEnd mark)

def takeDirective (s : TokenStream) : Except Error TokenStream := do
  let s ← (s.closeTo (-1) s.cursor.mark).dropCandidate
  let (kind, after) ← readDirective s.cursor
  return { s.push kind s.cursor.mark with cursor := after, keyAllowed := false }

def takeDocumentMarker (s : TokenStream) (kind : TokenKind) : Except Error TokenStream := do
  let s ← (s.closeTo (-1) s.cursor.mark).dropCandidate
  return { s with keyAllowed := false }.takeIndicator kind 3

def openFlow (s : TokenStream) (kind : TokenKind) : Except Error TokenStream := do
  let s ← s.noteCandidate
  return { s with candidates := none :: s.candidates, keyAllowed := true }.takeIndicator kind 1

def closeFlow (s : TokenStream) (kind : TokenKind) : Except Error TokenStream := do
  let s ← s.dropCandidate
  let candidates := if s.inFlow then s.candidates.drop 1 else s.candidates
  return { s with candidates, keyAllowed := false }.takeIndicator kind 1

def takeFlowEntry (s : TokenStream) : Except Error TokenStream := do
  let s ← s.dropCandidate
  return { s with keyAllowed := true }.takeIndicator .flowEntry 1

def takeBlockEntry (s : TokenStream) : Except Error TokenStream := do
  if !s.inFlow && !s.keyAllowed then .error (.token s.cursor.mark s.cursor.mark .entryNotAllowed)
  else
    let s := s.openBlock s.cursor.mark.column s.nextNumber .blockListStart s.cursor.mark
    let s ← s.dropCandidate
    return { s with keyAllowed := true }.takeIndicator .blockEntry 1

def takeKey (s : TokenStream) : Except Error TokenStream := do
  if !s.inFlow && !s.keyAllowed then .error (.token s.cursor.mark s.cursor.mark .keyNotAllowed)
  else
    let s := s.openBlock s.cursor.mark.column s.nextNumber .blockMapStart s.cursor.mark
    let s ← s.dropCandidate
    return { s with keyAllowed := !s.inFlow }.takeIndicator .key 1

/-- A colon before a value: it makes the candidate a key, if there is one. -/
def takeValue (s : TokenStream) : Except Error TokenStream := do
  match ← s.liveCandidate s.candidate with
  | some key =>
    let s := s.insert key.number .key key.mark
    let s := s.openBlock key.mark.column key.number .blockMapStart key.mark
    return { s.setCandidate none with keyAllowed := false }.takeIndicator .value 1
  | none =>
    let s := s.setCandidate none
    if !s.inFlow && !s.keyAllowed then .error (.token s.cursor.mark s.cursor.mark .valueNotAllowed)
    else
      let s := s.openBlock s.cursor.mark.column s.nextNumber .blockMapStart s.cursor.mark
      return { s with keyAllowed := !s.inFlow }.takeIndicator .value 1

def takeName (s : TokenStream) (kind : Bytes → TokenKind) : Except Error TokenStream := do
  let s ← s.noteCandidate
  let (name, after) ← readName s.cursor
  return { s.push (kind name) s.cursor.mark with cursor := after, keyAllowed := false }

def takeTag (s : TokenStream) : Except Error TokenStream := do
  let s ← s.noteCandidate
  let (handle, suffix, after) ← readTag s.cursor
  return { s.push (.tag handle suffix) s.cursor.mark with cursor := after, keyAllowed := false }

def takeBlockScalar (s : TokenStream) (literal : Bool) : Except Error TokenStream := do
  let s ← s.dropCandidate
  let (text, after) ← readBlock literal s.indent s.cursor
  let s' := s.push (.scalar (bytesOf text) .block) s.cursor.mark
  return { s' with cursor := after, keyAllowed := true }

def takeQuotedScalar (s : TokenStream) (quote : Char) : Except Error TokenStream := do
  let s ← s.noteCandidate
  let (text, after) ← readQuoted quote s.cursor
  let s' := s.push (.scalar (bytesOf text) .quoted) s.cursor.mark
  return { s' with cursor := after, keyAllowed := false }

def takePlainScalar (s : TokenStream) : Except Error TokenStream := do
  let s ← s.noteCandidate
  let scalar ← readPlain s.inFlow s.indent s.cursor
  let s' := s.push (.scalar (bytesOf scalar.text) .plain) s.cursor.mark
  return { s' with cursor := scalar.after, keyAllowed := scalar.broken }

def indicators : List Char :=
  ['-', '?', ':', ',', '[', ']', '\x7b', '\x7d', '#', '&', '*', '!', '|', '>', '\'', '"', '%', '@',
    '\x60']

def beginsPlain (inFlow : Bool) (char : Char) (next : Option Char) : Bool :=
  !(isGap (some char) || indicators.contains char)
    || (char == '-' && !next.any isBlank)
    || (!inFlow && (char == '?' || char == ':') && !isGap next)

def takeToken (s : TokenStream) (char : Char) : Except Error TokenStream :=
  let next := s.cursor.ahead? 1
  if char == '[' then s.openFlow .flowListStart
  else if char == '\x7b' then s.openFlow .flowMapStart
  else if char == ']' then s.closeFlow .flowListEnd
  else if char == '\x7d' then s.closeFlow .flowMapEnd
  else if char == ',' then s.takeFlowEntry
  else if char == '-' && isGap next then s.takeBlockEntry
  else if char == '?' && (s.inFlow || isGap next) then s.takeKey
  else if char == ':' && (s.inFlow || isGap next) then s.takeValue
  else if char == '*' then s.takeName .reference
  else if char == '&' then s.takeName .anchor
  else if char == '!' then s.takeTag
  else if char == '|' && !s.inFlow then s.takeBlockScalar true
  else if char == '>' && !s.inFlow then s.takeBlockScalar false
  else if char == '\'' || char == '"' then s.takeQuotedScalar char
  else if beginsPlain s.inFlow char next then s.takePlainScalar
  else .error (.token s.cursor.mark s.cursor.mark .noToken)

/-- Passes over a comment after the token just taken; after the dash of a list entry it belongs to
what follows. -/
def passLineComment (s : TokenStream) : TokenStream :=
  match s.queue.getLast? with
  | some ⟨.blockEntry, _⟩ => s
  | _ => { s with cursor := s.cursor.skipLineComment }

def fetch (s : TokenStream) : Except Error TokenStream :=
  if !s.started then .ok ({ s with started := true }.push .streamStart s.cursor.mark)
  else
    let gapStart := s.cursor.mark
    let s := s.passGap (s.cursor.rest.length + 1)
    let s := s.closeTo s.cursor.mark.column gapStart
    match s.cursor.head? with
    | none => s.endStream
    | some char =>
      if s.cursor.mark.column == 0 && char == '%' then s.takeDirective
      else if s.cursor.seesMarker '-' then s.takeDocumentMarker .documentStart
      else if s.cursor.seesMarker '.' then s.takeDocumentMarker .documentEnd
      else (s.takeToken char).map passLineComment

def firstUndecided (s : TokenStream) : Except Error Bool :=
  match s.candidates.reduceOption.find? fun key => key.number == s.used with
  | none => .ok false
  | some key => (s.liveCandidate (some key)).map (·.isSome)

def fill : Nat → TokenStream → Except Error TokenStream
  | 0, s => .ok s
  | limit + 1, s => do
    let more ← if s.queue.length < 3 then pure true else s.firstUndecided
    if more then fill limit (← s.fetch) else return s

def peek (s : TokenStream) : Except Error (Token × TokenStream) := do
  let s ← fill (s.cursor.rest.length + 4) s
  return (s.queue.headD ⟨.streamEnd, s.cursor.mark⟩, s)

def drop (s : TokenStream) : TokenStream := { s with queue := s.queue.drop 1, used := s.used + 1 }

end TokenStream

end OrderLint.Yaml
