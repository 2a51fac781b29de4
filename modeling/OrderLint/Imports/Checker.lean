import OrderLint.Imports.Record

/-!
# The order of import declarations

The declarations of a file are checked one after the other. Each is compared with the last one
that could be classified, and becomes the new baseline whether or not it was out of order. A
declaration that cannot be classified reports nothing and leaves the baseline as it was.
-/
namespace OrderLint

def ImportDecl.namedSpecifiers (decl : ImportDecl) : List Specifier :=
  decl.specifiers.filter fun specifier => specifier.kind = .named

/-- The violations of named specifiers whose lower-cased name is smaller than the one before;
`last` is the name before the first of them. -/
def specifierViolations : Option Bytes → List Specifier → List Violation
  | _, [] => []
  | last, specifier :: rest =>
    let name := lower specifier.binding
    let outOfOrder := match last with
      | some before => decide (name < before)
      | none => false
    let found := if outOfOrder then [⟨.alphabetSpecifierOrder, .specifier specifier⟩] else []
    found ++ specifierViolations (some name) rest

def brokenRule? (last next : ImportRecord) : Option Code :=
  if next.external && !last.external then some .relativeGroupOrder
  else if next.external != last.external then none
  else if last.bucket.rank > next.bucket.rank then some .specifierGroupOrder
  else if last.bucket = next.bucket ∧ next.sortKey < last.sortKey then some .alphabetImportOrder
  else none

def declarationViolations (last : Option ImportRecord) (decl : ImportDecl) : List Violation :=
  match last with
  | none => []
  | some last => match brokenRule? last decl.record with
    | some code => [⟨code, .declaration decl⟩]
    | none => []

structure ImportChecker where
  last : Option ImportRecord := none
  deriving DecidableEq

namespace ImportChecker

def check (checker : ImportChecker) (decl : ImportDecl) : Findings × ImportChecker :=
  match decl.classify with
  | .error e => (⟨[], some e⟩, checker)
  | .ok record =>
    (⟨specifierViolations none decl.namedSpecifiers ++ declarationViolations checker.last decl,
      none⟩, ⟨some record⟩)

def run (checker : ImportChecker) : List ImportDecl → List Findings
  | [] => []
  | decl :: rest =>
    let (findings, checker) := checker.check decl
    findings :: checker.run rest

def checkAll (checker : ImportChecker) : List ImportDecl → Findings
  | [] => {}
  | decl :: rest =>
    let (findings, checker) := checker.check decl
    findings.andThen (checker.checkAll rest)

end ImportChecker

end OrderLint
