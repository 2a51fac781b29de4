import OrderLint.ClassChecker
import OrderLint.Imports.Checker

/-!
# Checking an outline

The imports of a file are checked first, as one sequence, and then each class body in document
order. The first node of an unrecognized kind ends the check; what was found before it stands.
-/
namespace OrderLint

structure Options where
  -- The text that opens a section; the empty one stands for the default.
  delimiter : Bytes := defaultDelimiter
  constructorFirst : Bool := true
  deriving DecidableEq

def ClassChecker.checkAll (checker : ClassChecker) : List ClassBody → Findings
  | [] => {}
  | body :: rest => (checker.check body).andThen (checker.checkAll rest)

def Outline.classChecker (outline : Outline) (options : Options) : ClassChecker :=
  ⟨SectionMap.ofComments outline.comments options.delimiter, options.constructorFirst⟩

def Outline.check (outline : Outline) (options : Options) : Findings :=
  (ImportChecker.checkAll {} outline.imports).andThen
    ((outline.classChecker options).checkAll outline.bodies)

end OrderLint
