import OrderLint.Outline
import OrderLint.Text.Quoted

/-!
# Violations and unrecognized kinds

A violation names the rule that is broken and the node that is out of place. A node of a kind
outside the taxonomy is not a violation: it stops the analysis of its file.
-/
namespace OrderLint

inductive Code where
  | relativeGroupOrder
  | specifierGroupOrder
  | alphabetImportOrder
  | alphabetSpecifierOrder
  | sortClassBody
  | unassigned (number : Int64)
  deriving DecidableEq

namespace Code

def ofNumber (n : Int64) : Code :=
  if n = 1 then .relativeGroupOrder
  else if n = 2 then .specifierGroupOrder
  else if n = 3 then .alphabetImportOrder
  else if n = 4 then .alphabetSpecifierOrder
  else if n = 5 then .sortClassBody
  else .unassigned n

def message : Code → Bytes
  | .relativeGroupOrder => utf8 "external modules should be imported before internal modules"
  | .specifierGroupOrder =>
    utf8 "import groupings should follow the order: unnamed, destructured, wildcard, default"
  | .alphabetImportOrder => utf8 "import declarations should be sorted alphabetically"
  | .alphabetSpecifierOrder => utf8 "import names should be sorted alphabetically"
  | .sortClassBody => utf8 "class methods and properties should be sorted alphabetically"
  | .unassigned _ => []

def rule : Code → Bytes
  | .sortClassBody => utf8 "sort-class"
  | _ => utf8 "sort-imports"

def name : Code → Bytes
  | .relativeGroupOrder => utf8 "RELATIVE_GROUP_ORDER"
  | .specifierGroupOrder => utf8 "SPECIFIER_GROUP_ORDER"
  | .alphabetImportOrder => utf8 "ALPHABET_IMPORT_ORDER"
  | .alphabetSpecifierOrder => utf8 "ALPHABET_SPECIFIER_ORDER"
  | .sortClassBody => utf8 "SORT_CLASS_BODY"
  | .unassigned number => utf8 "Code(" ++ decimal number ++ utf8 ")"

end Code

structure Violation where
  code : Code
  anchor : Anchor
  deriving DecidableEq

namespace Violation

def position (v : Violation) : Position := v.anchor.span.start

def text (v : Violation) : Bytes :=
  v.position.label ++ utf8 " " ++ v.code.message ++ utf8 " (" ++ v.code.rule ++ utf8 ")"

end Violation

structure UnrecognizedKind where
  what : Bytes
  kind : Bytes
  node : Option Anchor
  deriving DecidableEq

namespace UnrecognizedKind

def ofSpecifier (specifier : Specifier) : UnrecognizedKind :=
  ⟨utf8 "import specifier", specifier.kind.tag, some (.specifier specifier)⟩

def ofMember (member : Member) : UnrecognizedKind :=
  ⟨utf8 "class body member", member.kind.tag, some (.member member)⟩

def message (e : UnrecognizedKind) : Bytes :=
  let complaint := utf8 "unrecognized " ++ e.what ++ utf8 " " ++ quoted e.kind
  match e.node with
  | none => complaint
  | some node => node.span.start.label ++ utf8 " " ++ complaint

/-- The message in the file `path`: the path is glued to the position when there is one. -/
def messageIn (path : Bytes) (e : UnrecognizedKind) : Bytes :=
  match e.node with
  | none => path ++ utf8 ": " ++ e.message
  | some _ => path ++ utf8 ":" ++ e.message

end UnrecognizedKind

structure Findings where
  violations : List Violation := []
  failure : Option UnrecognizedKind := none
  deriving DecidableEq

namespace Findings

def andThen (first : Findings) (second : Findings) : Findings :=
  match first.failure with
  | some _ => first
  | none => ⟨first.violations ++ second.violations, second.failure⟩

end Findings

end OrderLint
