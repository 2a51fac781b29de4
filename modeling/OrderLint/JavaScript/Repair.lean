import OrderLint.JavaScript.Program

/-!
# Repairs

A text that is not a program still gets a tree, with one bad node where the least repair would be
made: a closing brace that is missing at the end, a token that is one too many, or else the whole
statement that cannot be completed. A token that does not fit may be surplus itself, or the token
before it may be. Of two such repairs the one that loses fewer bytes is made.
-/
namespace OrderLint.JavaScript

def blankOut (src : Bytes) (token : Lexeme) : Bytes :=
  src.take token.offset ++ List.replicate token.width 32 ++ src.drop (token.offset + token.width)

/-- The text without a token inside a statement: what follows the token goes on in its place, so
that neither a line break beside it nor the end of the text ends the statement. -/
def joinAround (src : Bytes) (token : Lexeme) : Bytes :=
  let front := ((src.take token.offset).reverse.dropWhile isAsciiSpace).reverse
  front ++ 32 :: (src.drop (token.offset + token.width)).dropWhile isAsciiSpace

/-- The trees of the text without the token that does not fit, when that is a program. With no
token before it in its statement the token stands between statements, and what surrounds it is
left as it is. -/
def withoutMisfit? (src : Bytes) (before : Option Lexeme) (token : Lexeme) : Option Forest :=
  let isLast := (src.drop (token.offset + token.width)).all isAsciiSpace
  let read := if before.isNone then readProgram true (blankOut src token)
    else readProgram (!isLast) (joinAround src token)
  read.toOption

def closesBracket (src : Bytes) (token : Lexeme) : Bool :=
  [utf8 ")", utf8 "]", utf8 "\x7d"].contains (src.slice token.offset (token.offset + token.width))

/-- Whether the text is a program without the token before the one that does not fit. A closing
bracket belongs to what it closes and cannot be left out by itself. -/
def isProgramWithout (src : Bytes) (stop : Stop) (before : Lexeme) : Bool :=
  stop.statement.offset ≤ before.offset && !closesBracket src before &&
    isProgram true (blankOut src before)

/-- Whether some construct of the repaired text begins with the token `before` and goes on after it.
A comma begins the next item of a list. -/
def beginsConstruct (src : Bytes) (forest : Forest) (before : Lexeme) : Bool :=
  src.slice before.offset (before.offset + before.width) == utf8 "," ||
    forest.any fun tree => tree.preorder.any fun node =>
      node.label.first == before.offset && before.offset + before.width < node.label.last

def surplus? (src : Bytes) (stop : Stop) (token : Lexeme) : Option Lexeme :=
  let before? := stop.failure.before.filter (isProgramWithout src stop)
  match withoutMisfit? src stop.failure.before token, before? with
  | none, before? => before?
  | some _, none => some token
  | some forest, some before =>
    if before.width < token.width ||
        (before.width == token.width && beginsConstruct src forest before) then some before
    else some token

def lastEnd : Nat → Place → Place → Place
  | 0, last, _ => last
  | limit + 1, last, p =>
    match p.ahead? with
    | none => last
    | some (code, width) =>
      let next := p.skip width
      lastEnd limit (if isBlank code then last else next) next

def missingBrace (p : Place) : Tree :=
  .node ⟨"\x7d", false, none, p.offset, p.offset, p.point, p.point, true, true⟩ []

def errorNode (p q : Place) : Tree :=
  .node ⟨errorKind, true, none, p.offset, q.offset, p.point, q.point, false, true⟩ []

def repair (src : Bytes) (stop : Stop) : Tree :=
  let start : Place := { rest := src }
  let whole := errorNode stop.statement (stop.statement.skip stop.statement.rest.length)
  match stop.failure.token with
  | none =>
    if isProgram false (src ++ utf8 "\n\x7d") then missingBrace (lastEnd src.length start start)
    else whole
  | some token =>
    match surplus? src stop token with
    | some lexeme =>
      let first := start.skip lexeme.offset
      errorNode first (first.skip lexeme.width)
    | none => whole

def programTree (src : Bytes) (forest : Forest) : Tree :=
  let start : Place := { rest := src }
  let finish := start.skip src.length
  .node ⟨"program", true, none, 0, src.length, start.point, finish.point, false,
    forest.any (·.label.flagged)⟩ forest

def syntaxTree (src : Bytes) : Tree :=
  match readProgram true src with
  | .ok forest => programTree src forest
  | .error stop => programTree src [repair src stop]

end OrderLint.JavaScript
