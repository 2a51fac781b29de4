import OrderLint.Text.Bytes

/-!
# Lists of line numbers

Line numbers are collected in any order and sorted afterwards. An index is a machine integer and
may lie outside the list.
-/
namespace OrderLint

abbrev LineList := List Int64

namespace LineList

def index? (lines : LineList) (i : Int64) : Option Nat :=
  if 0 ≤ i ∧ i.toInt < lines.length then some i.toInt.toNat else none

def add (lines : LineList) (line : Int64) : LineList := lines ++ [line]

def pair? (lines : LineList) (i j : Int64) : Option (Int64 × Int64) := do
  let i ← lines.index? i
  let j ← lines.index? j
  return (← lines[i]?, ← lines[j]?)

def less? (lines : LineList) (i j : Int64) : Option Bool :=
  (lines.pair? i j).map fun (a, b) => decide (a < b)

def swap? (lines : LineList) (i j : Int64) : Option LineList := do
  let (a, b) ← lines.pair? i j
  let i ← lines.index? i
  let j ← lines.index? j
  return (lines.set i b).set j a

def insert (line : Int64) : LineList → LineList
  | [] => [line]
  | next :: rest => if line ≤ next then line :: next :: rest else next :: insert line rest

def sort : LineList → LineList
  | [] => []
  | line :: rest => insert line (sort rest)

def isAscending : LineList → Bool
  | line :: next :: rest => line ≤ next && isAscending (next :: rest)
  | _ => true

end LineList

end OrderLint
