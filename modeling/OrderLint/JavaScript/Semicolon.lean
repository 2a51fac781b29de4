import OrderLint.JavaScript.Trivia

/-!
# Automatic semicolons

A statement or class field may end without a semicolon: at a closing brace, at the end of the text,
or at a line break after which the statement cannot go on. The rule looks only at the text after
the last token. Comments count for it in two ways: where the statement could not go on with a
logical operator, a line comment ends it by itself; elsewhere the rule is tried again after each
comment.
-/
namespace OrderLint.JavaScript

namespace Semicolon

def breakWidth : Bytes → Nat
  | 10 :: _ => 1
  | 0xE2 :: 0x80 :: b :: _ => if b == 0xA8 || b == 0xA9 then 3 else 0
  | _ => 0

inductive Scan where
  | slash
  | accept (rest : Bytes)
  -- The text after a block comment within one line.
  | sameLine (rest : Bytes)

def afterLine : Bytes → Bytes
  | [] => []
  | b :: rest => if 0 < breakWidth (b :: rest) || b == 0 then b :: rest else afterLine rest

def afterBlock : Bytes → Bytes × Bool
  | [] => ([], false)
  | 42 :: 47 :: rest => (rest, false)
  | b :: rest =>
    let (after, found) := afterBlock rest
    (after, found || 0 < breakWidth (b :: rest))

/-- Skips white space and comments. With `through` unset it stops after the first block comment
that is not followed by a slash. -/
def scanBlank (through : Bool) : Nat → Bool → Bytes → Scan
  | 0, _, s => .accept s
  | limit + 1, broken, s =>
    match s.dropWhile isAsciiSpace with
    | 47 :: 47 :: rest => scanBlank through limit broken (afterLine rest)
    | 47 :: 42 :: rest =>
      let (after, found) := afterBlock rest
      let broken := broken || found
      if after.isEmpty || through || after.head? == some 47 then scanBlank through limit broken after
      else if broken then .accept after
      else .sameLine after
    | 47 :: _ => .slash
    | rest => .accept rest

def continues : List UInt8 :=
  [96, 44, 58, 59, 42, 37, 62, 60, 61, 91, 40, 63, 94, 124, 38, 47]

def beginsWithOperatorWord (s : Bytes) : Bool :=
  let rest : Bytes := s.drop 2
  let endsHere := fun (t : Bytes) => match t with
    | [] => true
    | b :: _ => !isAsciiLetter b
  s.startsWith (utf8 "in") &&
    (endsHere rest || (rest.startsWith (utf8 "stanceof") && endsHere (rest.drop 8)))

/-- Whether a new line that begins with `s` begins a new statement. `atEnd` is the answer at the
end of the text. -/
def beginsStatement (atEnd : Bool) : Bytes → Bool
  | [] => atEnd
  | 46 :: rest => (rest.head?.map isAsciiDigit).getD false
  | 43 :: rest => rest.head? == some 43
  | 45 :: rest => rest.head? == some 45
  | 33 :: rest => rest.head? != some 61
  | b :: rest => !continues.contains b && !beginsWithOperatorWord (b :: rest)

def afterBreak (atEnd : Bool) (s : Bytes) : Bool :=
  match scanBlank true (s.length + 1) false s with
  | .accept rest => beginsStatement atEnd rest
  | _ => false

/-- The rule on the text `s` right after a token. With `alone` set a line comment ends the
statement by itself. -/
def ends (alone atEnd : Bool) : Nat → Bytes → Bool
  | 0, _ => false
  | _ + 1, [] => atEnd
  | limit + 1, b :: rest =>
    let proceed := fun (s : Bytes) =>
      match s with
      | [] => false
      | c :: after =>
        if c == 125 then true
        else if 0 < breakWidth s then afterBreak atEnd (s.drop (breakWidth s))
        else if isAsciiSpace c then ends alone atEnd limit after
        else false
    if b == 47 then
      match scanBlank false (rest.length + 2) false (b :: rest) with
      | .slash => false
      | .accept after =>
        if alone && after.head? != some 44 && after.head? != some 61 then true else proceed after
      | .sameLine after => proceed after
    else proceed (b :: rest)

def endsAmong (alone atEnd : Bool) : Nat → Place → Bool
  | 0, _ => false
  | limit + 1, p =>
    ends alone atEnd (p.rest.length + 1) p.rest ||
      match afterComment? (p.dropWhile isBlank) with
      | some q => endsAmong alone atEnd limit q
      | none => false

end Semicolon

def Place.endsStatement (alone atEnd : Bool) (p : Place) : Bool :=
  Semicolon.endsAmong alone atEnd (p.rest.length + 1) p

end OrderLint.JavaScript
