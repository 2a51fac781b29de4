import OrderLint.JavaScript.Tree
import OrderLint.Text.CodePoint

/-!
# Places in a source text

A place is a byte offset in a source text together with its row and column and the text that is
still ahead. Moving a place forward keeps the three in step.
-/
namespace OrderLint.JavaScript

structure Place where
  rest : Bytes
  offset : Nat := 0
  row : Nat := 0
  column : Nat := 0

namespace Place

def point (p : Place) : Point := ⟨p.row.toUInt32, p.column.toUInt32⟩

def step (p : Place) : Place :=
  match p.rest with
  | [] => p
  | b :: rest =>
    if b = 10 then ⟨rest, p.offset + 1, p.row + 1, 0⟩
    else ⟨rest, p.offset + 1, p.row, p.column + 1⟩

def skip (p : Place) : Nat → Place
  | 0 => p
  | n + 1 => p.step.skip n

def upTo (p q : Place) : Bytes := p.rest.take (q.offset - p.offset)

def sees (p : Place) (text : String) : Bool := p.rest.startsWith (utf8 text)

/-- The code point ahead and its width; an invalid byte counts as the replacement character, and
nothing is ahead at the end and at a null character. -/
def ahead? (p : Place) : Option (Nat × Nat) :=
  match p.rest with
  | [] | 0 :: _ => none
  | _ => some ((decode? p.rest).getD (replacement, 1))

def leaf (kind : String) (named : Bool) (p q : Place) : Tree :=
  .node ⟨kind, named, none, p.offset, q.offset, p.point, q.point, false, false⟩ []

def skipWhile (keep : Nat → Bool) : Nat → Place → Place
  | 0, p => p
  | limit + 1, p =>
    match p.ahead? with
    | some (code, width) => if keep code then skipWhile keep limit (p.skip width) else p
    | none => p

def dropWhile (keep : Nat → Bool) (p : Place) : Place := skipWhile keep p.rest.length p

end Place

namespace Tree

def ofForest? (kind : String) (forest : Forest) : Option Tree :=
  match forest, forest.getLast? with
  | first :: _, some last => some (.node ⟨kind, true, none, first.label.first, last.label.last,
      first.label.start, last.label.finish, false, forest.any (·.label.flagged)⟩ forest)
  | _, _ => none

end Tree

def isComment (tree : Tree) : Bool := tree.kind == "comment"

/-- A construct of the given kind made of a forest. Comments in front of it stay outside. -/
def construct (kind : String) (forest : Forest) : Forest :=
  let inside := forest.dropWhile isComment
  forest.takeWhile isComment ++ (Tree.ofForest? kind inside).toList

def inRole (field : String) (forest : Forest) : Forest :=
  forest.map fun tree => if isComment tree then tree else tree.withField field

end OrderLint.JavaScript
