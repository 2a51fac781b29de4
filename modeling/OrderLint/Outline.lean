import OrderLint.Position

/-!
# Outlines

An outline is all that the order of a file depends on: its comments, its module-level import
declarations and its class bodies, each in document order. Kinds of import specifiers and of class
members come from the front end as tags; a tag outside the taxonomy is kept, and it is for the
checks to reject it.
-/
namespace OrderLint

structure Comment where
  block : Bool
  -- The body without its markers, not trimmed.
  text : Bytes
  span : Span
  deriving DecidableEq

inductive SpecifierKind where
  | named
  | wildcard
  | default
  | unrecognized (tag : Bytes)
  deriving DecidableEq

namespace SpecifierKind

def ofTag (tag : Bytes) : SpecifierKind :=
  if tag = utf8 "named" then .named
  else if tag = utf8 "namespace" then .wildcard
  else if tag = utf8 "default" then .default
  else .unrecognized tag

def tag : SpecifierKind → Bytes
  | .named => utf8 "named"
  | .wildcard => utf8 "namespace"
  | .default => utf8 "default"
  | .unrecognized tag => tag

end SpecifierKind

structure Specifier where
  kind : SpecifierKind
  binding : Bytes
  span : Span
  deriving DecidableEq

structure ImportDecl where
  source : Bytes
  specifiers : List Specifier
  span : Span
  deriving DecidableEq

inductive MemberKind where
  | method
  | property
  | unrecognized (tag : Bytes)
  deriving DecidableEq

namespace MemberKind

def ofTag (tag : Bytes) : MemberKind :=
  if tag = utf8 "method" then .method
  else if tag = utf8 "property" then .property
  else .unrecognized tag

def tag : MemberKind → Bytes
  | .method => utf8 "method"
  | .property => utf8 "property"
  | .unrecognized tag => tag

end MemberKind

structure Member where
  kind : MemberKind
  name : Bytes
  span : Span
  deriving DecidableEq

structure ClassBody where
  members : List Member
  -- From the opening to the closing brace.
  span : Span
  deriving DecidableEq

structure Outline where
  path : Bytes
  comments : List Comment
  imports : List ImportDecl
  bodies : List ClassBody
  deriving DecidableEq

inductive Anchor where
  | declaration (decl : ImportDecl)
  | specifier (specifier : Specifier)
  | member (member : Member)
  deriving DecidableEq

namespace Anchor

def span : Anchor → Span
  | .declaration d => d.span
  | .specifier s => s.span
  | .member m => m.span

end Anchor

end OrderLint
