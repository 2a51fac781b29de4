import OrderLint.JavaScript.Outline
import OrderLint.JavaScript.Repair

/-!
# From a text to its outline

A text whose tree is sound is outlined; any other is refused with the position of the first bad
node of its tree.
-/
namespace OrderLint.JavaScript

structure SyntaxError where
  path : Bytes
  position : Option Position
  deriving DecidableEq

def SyntaxError.message (e : SyntaxError) : Bytes :=
  match e.position with
  | some position => e.path ++ utf8 ":" ++ position.label ++ utf8 " syntax error"
  | none => e.path ++ utf8 ": syntax error"

def Tree.toOutline (path src : Bytes) (tree : Tree) : Except SyntaxError Outline :=
  if tree.label.flagged then
    .error ⟨path, tree.firstBad?.map fun bad => bad.label.start.position⟩
  else .ok (tree.outline path src)

def parse (path src : Bytes) : Except SyntaxError Outline :=
  (syntaxTree src).toOutline path src

end OrderLint.JavaScript
