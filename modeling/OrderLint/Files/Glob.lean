import OrderLint.Text.CodePoint

/-!
# Glob patterns

`?` stands for one character, `*` for a run of characters within a component, `**` as a whole
component for any number of components, `[…]` for one character of a class, `{…}` for one of the
alternatives in it, and a backslash takes the character after it literally.

A pattern is matched from left to right by a small machine. It remembers the last star and the last
double star, and returns to them, the star first, when the text does not go on as the pattern says.
Alternatives are put into the pattern in turn. A pattern that turns out to be malformed matches
nothing.
-/
namespace OrderLint.Glob

def slash : Nat := 47

def charAt (s : Bytes) (i : Nat) : Nat × Nat :=
  match s.drop i with
  | [] => (replacement, 0)
  | rest => (decode? rest).getD (replacement, 1)

/-- Whether a pattern, or the rest of one, is well formed: no lone backslash at the end, no empty or
open class, no unbalanced brace. `depth` counts the open braces. -/
def validFrom : Nat → Nat → Bytes → Bool
  | 0, _, _ => false
  | _ + 1, depth, [] => depth == 0
  | limit + 1, depth, b :: rest =>
    if b == 92 then
      match rest with
      | [] => false
      | _ :: after => validFrom limit depth after
    else if b == 91 then
      let inside := match rest with
        | c :: after => if c == 94 || c == 33 then after else rest
        | [] => []
      match inside with
      | [] => false
      | c :: _ => if c == 93 then false else match afterClass limit inside with
        | some after => validFrom limit depth after
        | none => false
    else if b == 123 then validFrom limit (depth + 1) rest
    else if b == 125 then depth != 0 && validFrom limit (depth - 1) rest
    else validFrom limit depth rest
where
  afterClass : Nat → Bytes → Option Bytes
    | 0, _ => none
    | _ + 1, [] => none
    | limit + 1, b :: rest =>
      if b == 92 then afterClass limit (rest.drop 1)
      else if b == 93 then some rest
      else afterClass limit rest

def isValid (pattern : Bytes) : Bool := validFrom (pattern.length + 1) 0 pattern

def splitBraces? : Nat → Bytes → Option (Bytes × Bytes)
  | _, [] => none
  | depth, 92 :: c :: rest => (splitBraces? depth rest).map fun (a, b) => (92 :: c :: a, b)
  | depth, b :: rest =>
    if b == 125 then
      match depth with
      | 0 => some ([], rest)
      | depth + 1 => (splitBraces? depth rest).map fun (a, after) => (b :: a, after)
    else if b == 123 then (splitBraces? (depth + 1) rest).map fun (a, after) => (b :: a, after)
    else (splitBraces? depth rest).map fun (a, after) => (b :: a, after)

def alternatives : Nat → Bytes → List Bytes
  | _, [] => [[]]
  | depth, 92 :: c :: rest => prepend [92, c] (alternatives depth rest)
  | depth, b :: rest =>
    if b == 44 && depth == 0 then [] :: alternatives depth rest
    else if b == 123 then prepend [b] (alternatives (depth + 1) rest)
    else if b == 125 then prepend [b] (alternatives (depth - 1) rest)
    else prepend [b] (alternatives depth rest)
where
  prepend (head : Bytes) : List Bytes → List Bytes
    | [] => [head]
    | first :: rest => (head ++ first) :: rest

def emptyPatterns : List Bytes :=
  [[], utf8 "*", utf8 "**", utf8 "/**", utf8 "**/", utf8 "/**/"]

/-- Tries options in order until one does not fail; `none` for a malformed pattern. -/
def firstSuccess {α : Type} (attempt : α → Option Bool) : List α → Option Bool
  | [] => some false
  | option :: rest => match attempt option with
    | some false => firstSuccess attempt rest
    | verdict => verdict

/-- Whether the rest of a pattern can stand for nothing; `none` for a malformed pattern. Each
choice among alternatives shortens the pattern, so `limit` need not exceed its length. -/
def matchesEmpty : Nat → Bytes → Option Bool
  | 0, _ => some false
  | limit + 1, pattern =>
    if emptyPatterns.contains pattern then some true
    else match pattern with
      | 123 :: rest => match splitBraces? 0 rest with
        | none => none
        | some (inside, after) =>
          firstSuccess (fun chosen => matchesEmpty limit (chosen ++ after)) (alternatives 0 inside)
      | _ => if isValid pattern then some false else none

/-- Where the machine stands: the pattern with alternatives chosen so far, the index in it, the
index in the name, the indices to return to after a star and after a double star, and whether a
component of the pattern begins here. -/
structure State where
  pattern : Bytes
  index : Nat
  nameIndex : Nat
  star : Option (Nat × Nat) := none
  doubleStar : Option (Nat × Nat) := none
  componentStart : Bool := true

inductive Move where
  | done (verdict : Option Bool)
  | next (state : State)
  | choose (options : List State)

def afterSlash? (name : Bytes) (i : Nat) : Option Nat :=
  let skipped := ((name.drop i).takeWhile (· != 47)).length
  if i + skipped < name.length then some (i + skipped + 1) else none

def returnToDoubleStar (name : Bytes) (s : State) : Move :=
  let failed : Move :=
    if s.index < s.pattern.length && !isValid (s.pattern.drop s.index) then .done none
    else .done (some false)
  match s.doubleStar with
  | none => failed
  | some (index, nameIndex) => match afterSlash? name nameIndex with
    | none => failed
    | some next => .next { s with
        index, nameIndex := next, doubleStar := some (index, next), componentStart := true }

def returnToStar (name : Bytes) (s : State) : Move :=
  match s.star with
  | none => returnToDoubleStar name s
  | some (index, nameIndex) =>
    let (char, width) := charAt name nameIndex
    if char == slash then returnToDoubleStar name s
    else .next { s with
      index, nameIndex := nameIndex + width, star := some (index, nameIndex + width),
      componentStart := false }

def onStar (s : State) : Move :=
  let single := fun (index : Nat) =>
    Move.next { s with index, star := some (index, s.nameIndex), componentStart := false }
  if s.pattern[s.index + 1]? == some 42 then
    let index := s.index + 2
    if s.componentStart then
      if index == s.pattern.length then .done (some true)
      else if s.pattern[index]? == some 47 then
        .next { s with
          index := index + 1, star := none, doubleStar := some (index + 1, s.nameIndex) }
      else single index
    else single index
  else single (s.index + 1)

/-- Looks for `char` in the class that goes on at `index`; `last` is the character that a range may
begin with. Answers whether it was found, and where the search stopped. -/
def searchClass (pattern : Bytes) (char : Nat) : Nat → Option Nat → Nat → Bool × Nat
  | 0, _, index => (false, index)
  | limit + 1, last, index =>
    if pattern.length ≤ index || pattern[index]? == some 93 then (false, index)
    else
      let (first, width) := charAt pattern index
      let index := index + width
      let ranged := first == 45 && index < pattern.length && pattern[index]? != some 93
      match (if ranged then last else none) with
      | some low =>
        let index := if pattern[index]? == some 92 then index + 1 else index
        let (high, width) := charAt pattern index
        if low ≤ char && char ≤ high then (true, index + width)
        else searchClass pattern char limit none (index + width)
      | none =>
        let (literal, width) := if first == 92 then charAt pattern index else (first, 0)
        if literal == char then (true, index + width)
        else searchClass pattern char limit (some literal) (index + width)

def afterBracket? (pattern : Bytes) (index : Nat) : Option Nat :=
  (validFrom.afterClass (pattern.length + 1) (pattern.drop index)).map fun rest =>
    pattern.length - rest.length

def onClass (name : Bytes) (s : State) : Move :=
  let s : State := { s with componentStart := false }
  let opened := s.index + 1
  let negated := s.pattern[opened]? == some 33 || s.pattern[opened]? == some 94
  let start := if negated then opened + 1 else opened
  if s.pattern.length ≤ start || s.pattern[start]? == some 93 then .done none
  else
    let (char, width) := charAt name s.nameIndex
    let (found, index) := searchClass s.pattern char s.pattern.length none start
    if found == negated then
      if s.pattern.length ≤ index then .done none else returnToStar name { s with index }
    else match afterBracket? s.pattern index with
      | none => .done none
      | some index => .next { s with index, nameIndex := s.nameIndex + width }

def onBraces (s : State) : Move :=
  match splitBraces? 0 (s.pattern.drop (s.index + 1)) with
  | none => .done none
  | some (inside, after) =>
    .choose ((alternatives 0 inside).map fun chosen =>
      { s with pattern := s.pattern.take s.index ++ chosen ++ after, componentStart := true })

def onLiteral (name : Bytes) (s : State) (index : Nat) : Move :=
  let (expected, width) := charAt s.pattern index
  let (char, nameWidth) := charAt name s.nameIndex
  if expected == char then .next { s with
    index := index + width, nameIndex := s.nameIndex + nameWidth,
    componentStart := expected == slash }
  else
    let escaped := 0 < index && s.pattern[index - 1]? == some 92
    returnToStar name { s with index := if escaped then index - 1 else index }

def step (name : Bytes) (s : State) : Move :=
  if name.length ≤ s.nameIndex then
    .done (matchesEmpty (s.pattern.length + 1) (s.pattern.drop s.index))
  else match s.pattern[s.index]? with
    | none => returnToStar name s
    | some 42 => onStar s
    | some 63 =>
      let (char, width) := charAt name s.nameIndex
      if char == slash then returnToStar name { s with componentStart := false }
      else .next { s with
        index := s.index + 1, nameIndex := s.nameIndex + width, componentStart := false }
    | some 91 => onClass name s
    | some 123 => onBraces s
    | some 92 =>
      if s.pattern.length ≤ s.index + 1 then .done none else onLiteral name s (s.index + 1)
    | some _ => onLiteral name s s.index

def run (name : Bytes) : Nat → State → Option Bool
  | 0, _ => some false
  | limit + 1, s => match step name s with
    | .done verdict => verdict
    | .next s => run name limit s
    | .choose options => firstSuccess (run name limit) options

/-- More moves than the machine can make: between two returns it passes over the pattern at most
once, and each return moves on one of the two pairs of indices. -/
def moves (pattern name : Bytes) : Nat :=
  (pattern.length + 2).pow 2 * ((pattern.length + 1) * (name.length + 1) + 1).pow 2

def isMatch (pattern name : Bytes) : Bool :=
  run name (moves pattern name) { pattern, index := 0, nameIndex := 0 } == some true

end OrderLint.Glob
