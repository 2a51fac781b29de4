import OrderLint.Text.LowerCase
import OrderLint.Violation

/-!
# Import records

Two import declarations are compared through their records: whether the imported module is
external, the bucket of the declaration's binding form, and the key that sorts it inside the
bucket. The first specifier decides bucket and key; an import without specifiers is sorted by its
source.
-/
namespace OrderLint

inductive Bucket where
  | unnamed
  | named
  | wildcard
  | default
  deriving DecidableEq

namespace Bucket

def rank : Bucket → Nat
  | .unnamed => 0
  | .named => 1
  | .wildcard => 2
  | .default => 3

def tag : Bucket → Bytes
  | .unnamed => utf8 "none"
  | .named => SpecifierKind.named.tag
  | .wildcard => SpecifierKind.wildcard.tag
  | .default => SpecifierKind.default.tag

end Bucket

def SpecifierKind.bucket? : SpecifierKind → Option Bucket
  | .named => some .named
  | .wildcard => some .wildcard
  | .default => some .default
  | .unrecognized _ => none

structure ImportRecord where
  external : Bool
  bucket : Bucket
  sortKey : Bytes
  deriving DecidableEq

def isExternal (source : Bytes) : Bool :=
  !source.startsWith (utf8 "./") && !source.startsWith (utf8 "../")

namespace ImportDecl

def unrecognized? (decl : ImportDecl) : Option Specifier :=
  decl.specifiers.find? fun specifier => specifier.kind.bucket?.isNone

/-- Bucket and key of a declaration; a leading specifier of an unrecognized kind counts as none. -/
def bucketAndKey (decl : ImportDecl) : Bucket × Bytes :=
  match decl.specifiers with
  | [] => (.unnamed, decl.source)
  | first :: _ => (first.kind.bucket?.getD .unnamed, lower first.binding)

def record (decl : ImportDecl) : ImportRecord :=
  let (bucket, sortKey) := decl.bucketAndKey
  ⟨isExternal decl.source, bucket, sortKey⟩

def classify (decl : ImportDecl) : Except UnrecognizedKind ImportRecord :=
  match decl.unrecognized? with
  | some specifier => .error (.ofSpecifier specifier)
  | none => .ok decl.record

end ImportDecl

end OrderLint
