import OrderLint.Outline
import OrderLint.Sections.LineList

/-!
# Section lines and the cursor over them

A line comment whose text starts with the delimiter opens a new section of a class body. The lines
of all section comments of a file are collected once, in ascending order; a cursor then walks them
forward and never returns to a line it has passed.
-/
namespace OrderLint

def defaultDelimiter : Bytes := utf8 " -- "

def effectiveDelimiter (delimiter : Bytes) : Bytes :=
  if delimiter = [] then defaultDelimiter else delimiter

def Comment.opensSection (delimiter : Bytes) (comment : Comment) : Bool :=
  !comment.block && comment.text.startsWith (effectiveDelimiter delimiter)

structure SectionMap where
  lines : LineList
  deriving DecidableEq

structure SectionCursor where
  lines : LineList
  next : Nat
  deriving DecidableEq

/-- The least index in `[low, high)` whose line is at least `line`, or `high`, found by halving;
right when the lines are ascending. -/
def lowerBound (lines : LineList) (line : Int64) (low high : Nat) : Nat :=
  if low < high then
    let middle := (low + high) / 2
    if lines.getD middle line < line then lowerBound lines line (middle + 1) high
    else lowerBound lines line low middle
  else low
termination_by high - low

def advance (lines : LineList) (line : Int64) (next : Nat) : Nat :=
  next + ((lines.drop next).takeWhile (· < line)).length

namespace SectionMap

def ofComments (comments : List Comment) (delimiter : Bytes) : SectionMap :=
  let lines : LineList :=
    (comments.filter (·.opensSection delimiter)).map fun comment => comment.span.start.line
  ⟨if lines.isAscending then lines else lines.sort⟩

def cursor (sections : SectionMap) (line : Int64) : SectionCursor :=
  ⟨sections.lines, lowerBound sections.lines line 0 sections.lines.length⟩

end SectionMap

namespace SectionCursor

def peek? (cursor : SectionCursor) : Option Int64 := cursor.lines[cursor.next]?

def seek (cursor : SectionCursor) (line : Int64) : SectionCursor :=
  { cursor with next := advance cursor.lines line cursor.next }

/-- Whether a section line lies strictly between `after` and `before`; passes the lines up to
`after`. -/
def between (cursor : SectionCursor) (after before : Int64) : Bool × SectionCursor :=
  let cursor := cursor.seek (after + 1)
  match cursor.peek? with
  | some line => (decide (line < before), cursor)
  | none => (false, cursor)

end SectionCursor

end OrderLint
