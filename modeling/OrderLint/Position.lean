import OrderLint.Text.Decimal

/-!
# Positions and spans

A position counts lines from one and columns from zero, in bytes. Both are machine integers, so
the column shown to a reader, which counts from one, wraps at the largest of them.
-/
namespace OrderLint

structure Position where
  line : Int64
  column : Int64
  deriving DecidableEq, Inhabited

namespace Position

def label (p : Position) : Bytes :=
  decimal p.line ++ utf8 ":" ++ decimal (p.column + 1) ++ utf8 ":"

end Position

structure Span where
  start : Position
  finish : Position
  deriving DecidableEq, Inhabited

end OrderLint
