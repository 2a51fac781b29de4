import OrderLint.JavaScript.Reader

/-!
# Nonterminals

The grammar is recursive through a few nonterminals. A rule is written against the nonterminals as
a parameter, and the knot is tied once, with a bound on the depth of nesting.
-/
namespace OrderLint.JavaScript

structure Context where
  allowIn : Bool := true
  -- A line break may end the statement that the expression stands in.
  lineEnds : Bool := false
  deriving DecidableEq

def Context.inside : Context := {}

def Context.statement : Context := { lineEnds := true }

inductive Nonterminal where
  | statement
  | expressions (context : Context)
  | expression (context : Context)
  | operand (context : Context)
  | construction
  | element

abbrev Rules := Nonterminal → Parse Forest

end OrderLint.JavaScript
