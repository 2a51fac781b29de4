import OrderLint.Yaml.Cursor

/-!
# YAML tokens
-/
namespace OrderLint.Yaml

inductive ScalarStyle where
  | plain
  | quoted
  | block
  deriving DecidableEq

inductive TokenKind where
  | streamStart
  | streamEnd
  | version (major minor : Nat)
  | handle (name expansion : Bytes)
  | documentStart
  | documentEnd
  | blockListStart
  | blockMapStart
  | blockEnd
  | flowListStart
  | flowListEnd
  | flowMapStart
  | flowMapEnd
  | blockEntry
  | flowEntry
  | key
  | value
  | reference (name : Bytes)
  | anchor (name : Bytes)
  | tag (handle suffix : Bytes)
  | scalar (text : Bytes) (style : ScalarStyle)
  deriving DecidableEq

structure Token where
  kind : TokenKind
  start : Mark
  deriving DecidableEq

end OrderLint.Yaml
