import OrderLint.JavaScript.Tree
import OrderLint.Outline

/-!
# The outline of a syntax tree

One walk over the tree gathers the comments, the imports directly under the program, and the class
bodies, each in document order. The walk does not look below a comment; it does look below class
bodies, so that nested classes are found after the class around them.
-/
namespace OrderLint.JavaScript

def commentText (raw : Bytes) : Bytes × Bool :=
  if raw.startsWith (utf8 "//") then (raw.drop 2, true)
  else ((raw.dropHead (utf8 "/*")).dropTail (utf8 "*/"), false)

def unquote (raw : Bytes) : Bytes :=
  if 2 ≤ raw.length then raw.slice 1 (raw.length - 1) else raw

namespace Tree

/-- The value of a string literal: its first run of plain characters, or all that stands between
the quotes when it has none. -/
def stringValue (src : Bytes) (tree : Tree) : Bytes :=
  match tree.namedChildren.find? (·.kind == "string_fragment") with
  | some fragment => fragment.content src
  | none => unquote (tree.content src)

/-- The name that a member's key stands for. A computed key with nothing but a string literal in it
is named by that string; any other key is named by its text. -/
def keyName (src : Bytes) (key : Tree) : Bytes :=
  if key.kind == "string" then key.stringValue src
  else if key.kind == "computed_property_name" then
    match key.namedChildren with
    | [inner] => if inner.kind == "string" then inner.stringValue src else key.content src
    | _ => key.content src
  else key.content src

def fieldName (src : Bytes) (tree : Tree) (field : String) : Bytes :=
  match tree.childByField? field with
  | some key => key.keyName src
  | none => []

def bindingName (src : Bytes) (tree : Tree) : Bytes :=
  match tree.childByField? "alias" with
  | some chosen => chosen.content src
  | none => match tree.childByField? "name" with
    | none => tree.content src
    | some name => if name.kind == "string" then name.stringValue src else name.content src

def namespaceName (src : Bytes) (tree : Tree) : Bytes :=
  match (tree.namedChildren.filter (·.kind == "identifier")).getLast? with
  | some identifier => identifier.content src
  | none => []

def clauseSpecifiers (src : Bytes) (tree : Tree) : List Specifier :=
  if tree.kind == "identifier" then [⟨.default, tree.content src, tree.span⟩]
  else if tree.kind == "namespace_import" then [⟨.wildcard, tree.namespaceName src, tree.span⟩]
  else if tree.kind == "named_imports" then
    (tree.namedChildren.filter (·.kind == "import_specifier")).map fun specifier =>
      ⟨.named, specifier.bindingName src, specifier.span⟩
  else []

def importDecl (src : Bytes) (tree : Tree) : ImportDecl where
  source := match tree.childByField? "source" with
    | some source => source.stringValue src
    | none => []
  specifiers := (tree.namedChildren.filter (·.kind == "import_clause")).flatMap fun clause =>
    clause.namedChildren.flatMap (clauseSpecifiers src)
  span := tree.span

def classMember (src : Bytes) (tree : Tree) : Member :=
  if tree.kind == "method_definition" then ⟨.method, tree.fieldName src "name", tree.span⟩
  else if tree.kind == "field_definition" || tree.kind == "public_field_definition" then
    ⟨.property, tree.fieldName src "property", tree.span⟩
  else ⟨.ofTag (utf8 tree.kind), [], tree.span⟩

def classBody (src : Bytes) (tree : Tree) : ClassBody where
  members := (tree.namedChildren.filter (·.kind != "comment")).map (classMember src)
  span := tree.span

def comment (src : Bytes) (tree : Tree) : Comment :=
  let (text, line) := commentText (tree.content src)
  ⟨!line, text, tree.span⟩

end Tree

structure Gathering where
  comments : List Comment := []
  imports : List ImportDecl := []
  bodies : List ClassBody := []

namespace Gathering

def append (first second : Gathering) : Gathering :=
  ⟨first.comments ++ second.comments, first.imports ++ second.imports,
    first.bodies ++ second.bodies⟩

instance : Append Gathering := ⟨append⟩

def ofNode (src : Bytes) (parent : Option String) (tree : Tree) : Gathering :=
  if tree.kind == "import_statement" then
    if parent == some "program" then { imports := [tree.importDecl src] } else {}
  else if tree.kind == "class_body" then { bodies := [tree.classBody src] }
  else {}

end Gathering

namespace Tree

mutual

def gather (src : Bytes) (parent : Option String) : Tree → Gathering
  | .node label children =>
    if label.kind == "comment" then { comments := [(Tree.node label children).comment src] }
    else Gathering.ofNode src parent (.node label children) ++
      gatherAll src (some label.kind) children

def gatherAll (src : Bytes) (parent : Option String) : List Tree → Gathering
  | [] => {}
  | tree :: rest => gather src parent tree ++ gatherAll src parent rest

end

def outline (path src : Bytes) (tree : Tree) : Outline :=
  let gathered := tree.gather src none
  ⟨path, gathered.comments, gathered.imports, gathered.bodies⟩

end Tree

end OrderLint.JavaScript
