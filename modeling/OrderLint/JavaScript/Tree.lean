import OrderLint.Position

/-!
# Syntax trees

A node has a kind, a byte range, the points where it starts and ends, and its children in document
order. Kinds and field names are those of the grammar. Only named nodes are constructs of the
language; the others are its keywords and punctuation. Each node carries a flag that says whether
something below it, or the node itself, went wrong; `Tree.FlagsExact` says that the flags tell the
truth.
-/
namespace OrderLint.JavaScript

structure Point where
  row : UInt32
  column : UInt32
  deriving DecidableEq

namespace Point

def position (p : Point) : Position :=
  ⟨Int64.ofNat (p.row.toNat + 1), Int64.ofNat p.column.toNat⟩

end Point

structure Label where
  kind : String
  named : Bool := true
  field : Option String := none
  first : Nat
  last : Nat
  start : Point
  finish : Point
  -- The node stands for a token that the text lacks.
  missing : Bool := false
  -- The node or one of its descendants is bad.
  flagged : Bool := false
  deriving DecidableEq

inductive Tree where
  | node (label : Label) (children : List Tree)

abbrev Forest := List Tree

def errorKind : String := "ERROR"

namespace Label

def isBad (label : Label) : Bool := label.kind == errorKind || label.missing

def span (label : Label) : Span := ⟨label.start.position, label.finish.position⟩

end Label

namespace Tree

def label : Tree → Label
  | .node label _ => label

def children : Tree → Forest
  | .node _ children => children

def kind (tree : Tree) : String := tree.label.kind

def span (tree : Tree) : Span := tree.label.span

def content (src : Bytes) (tree : Tree) : Bytes := src.slice tree.label.first tree.label.last

def namedChildren (tree : Tree) : Forest := tree.children.filter (·.label.named)

def childByField? (tree : Tree) (field : String) : Option Tree :=
  tree.children.find? fun child => child.label.field == some field

def withField (field : String) : Tree → Tree
  | .node label children => .node { label with field := some field } children

def preorder : Tree → Forest
  | .node label children => .node label children :: preorderAll children
where
  preorderAll : List Tree → Forest
    | [] => []
    | tree :: rest => preorder tree ++ preorderAll rest

mutual

/-- The first bad node, looked for only below children whose flag is set or that are missing. -/
def firstBad? : Tree → Option Tree
  | .node label children =>
    if label.isBad then some (.node label children) else firstBadAmong? children

def firstBadAmong? : List Tree → Option Tree
  | [] => none
  | tree :: rest =>
    if tree.label.flagged || tree.label.missing then
      match firstBad? tree with
      | some bad => some bad
      | none => firstBadAmong? rest
    else firstBadAmong? rest

end

def FlagsExact (tree : Tree) : Prop :=
  ∀ node ∈ tree.preorder, node.label.flagged = node.preorder.any (·.label.isBad)

end Tree

end OrderLint.JavaScript
