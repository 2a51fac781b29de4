import OrderLint.Text.Base64
import OrderLint.Yaml.Node
import OrderLint.Yaml.Value

/-!
# The values of YAML nodes

A document that is a configuration is a map from texts. Keys that repeat, and nodes of the wrong
kind, are gathered and reported together; other faults are reported at once. The map that a key
`<<` holds adds the entries whose keys are not there already.
-/
namespace OrderLint.Yaml

abbrev Decoding := StateT (List Mismatch) (Except Error)

namespace Decoding

def note (mismatch : Mismatch) : Decoding Unit := modify (· ++ [mismatch])

def resolvedTags : List Bytes :=
  [utf8 "!!bool", utf8 "!!int", utf8 "!!float", utf8 "!!null", utf8 "!!timestamp"]

def wholeAsReal? (n : Int) : Option Value :=
  if -Int.pow 2 63 ≤ n ∧ n < Int.pow 2 63 then
    (Binary64.ofFraction? n.natAbs 1).map fun size => .real (.finite (n < 0) size)
  else none

def taggedValue (tag text : Bytes) : Except Error Value :=
  if tag = utf8 "!!binary" then
    match Base64.decode? text with
    | some bytes => .ok (.text bytes)
    | none => .error .badBase64
  else if !resolvedTags.contains tag then .ok (.text text)
  else
    let value := resolve (tag = utf8 "!!timestamp") text
    let refusal := Error.undecodable value.tag text tag
    if value.tag = tag then .ok value
    else match value with
      | .integer n =>
        if tag = utf8 "!!float" then
          match wholeAsReal? n with
          | some x => .ok x
          | none => .error refusal
        else .error refusal
      | _ => .error refusal

def scalarValue (tag : Option Bytes) (style : ScalarStyle) (text : Bytes) : Except Error Value :=
  match tag with
  | some tag => taggedValue tag text
  | none => .ok (if style = .plain then resolve true text else .text text)

def scalarTag (tag : Option Bytes) (style : ScalarStyle) (text : Bytes) : Bytes :=
  match tag with
  | some tag => tag
  | none =>
    if style ≠ .plain then utf8 "!!str"
    else if text = utf8 "<<" then utf8 "!!merge"
    else (resolve true text).tag

def excerpt (tag text : Bytes) : Bytes :=
  if tag = utf8 "!!seq" ∨ tag = utf8 "!!map" then tag
  else
    let text := if 10 < text.length then text.take 7 ++ utf8 "..." else text
    tag ++ utf8 " \x60" ++ text ++ utf8 "\x60"

/-- What two keys of a map may not have in common. -/
def keyIdentity : Node → Nat × Bytes
  | .scalar _ _ _ text => (0, text)
  | .list _ _ _ => (1, [])
  | .map _ _ _ => (2, [])
  | .reference _ name _ => (3, name)
  | .loop _ name => (3, name)

def repeatedKeys : List (Node × Node) → List Mismatch
  | [] => []
  | (key, _) :: rest =>
    let repetitions := rest.filter fun other => keyIdentity other.1 == keyIdentity key
    repetitions.map (fun other => .repeatedKey other.1.line (keyIdentity key).2 key.line)
      ++ repeatedKeys rest

def isMerge : Node → Bool
  | .scalar _ none .plain text => text == utf8 "<<"
  | .scalar _ (some tag) _ text => tag == utf8 "!!merge" && text == utf8 "<<"
  | _ => false

def sameKey (key : Value) (entry : Value × Value) : Bool := entry.1.spelled == key.spelled

structure Entries where
  own : List (Value × Value) := []
  merged : List (Value × Value) := []

namespace Entries

def all (entries : Entries) : List (Value × Value) :=
  entries.own ++ entries.merged.filter fun entry => !entries.own.any (sameKey entry.1)

/-- Adds an entry before the others; of entries with the same key the last one counts. -/
def cons (key value : Value) (entries : Entries) : Entries :=
  if entries.own.any (sameKey key) then entries
  else { entries with own := (key, value) :: entries.own }

end Entries

def mergedWith (first second : List (Value × Value)) : List (Value × Value) :=
  first ++ second.filter fun entry => !first.any (sameKey entry.1)

def refuseKey (line : Nat) (tag : Bytes) : Decoding (Option Value) := do
  note (.wrongKind line (excerpt tag []) (utf8 "string"))
  return none

/-- The key that a scalar is; an empty one is none where keys are texts. -/
def scalarKey (textual : Bool) (text : Bytes) (value : Value) : Option Value :=
  match textual, value with
  | false, value => some value
  | true, .null => none
  | true, .text s => some (.text s)
  | true, _ => some (.text text)

def unlessRepeated (entries : List (Node × Node)) (read : Decoding Entries) :
    Decoding (List (Value × Value)) := do
  match repeatedKeys entries with
  | [] => return (← read).all
  | repeated =>
    repeated.forM note
    return []

mutual

def nodeValue : Node → Decoding Value
  | .scalar _ tag style text => (scalarValue tag style text : Except Error Value)
  | .list _ _ items => do return .list (← itemValues items)
  | .map _ _ entries => do return .map (← unlessRepeated entries (entryValues false entries))
  | .reference _ _ target => nodeValue target
  | .loop _ name => throw (.selfReference name)

def itemValues : List Node → Decoding (List Value)
  | [] => return []
  | item :: rest => do
    let value ← nodeValue item
    return value :: (← itemValues rest)

/-- The key that a node is, a text when `textual`; none for one that is passed over. -/
def keyValue (textual : Bool) : Node → Decoding (Option Value)
  | .scalar _ tag style text => do
    return scalarKey textual text (← (scalarValue tag style text : Except Error Value))
  | .list line tag items => do
    if textual then refuseKey line (tag.getD (utf8 "!!seq"))
    else
      let value := Value.list (← itemValues items)
      throw (.keyNotScalar value.spelled)
  | .map line tag entries => do
    if textual then refuseKey line (tag.getD (utf8 "!!map"))
    else
      let value := Value.map (← unlessRepeated entries (entryValues false entries))
      throw (.keyNotScalar value.spelled)
  | .reference _ _ target => keyValue textual target
  | .loop _ name => throw (.selfReference name)

def entryValues (textual : Bool) : List (Node × Node) → Decoding Entries
  | [] => return {}
  | (key, value) :: rest => do
    if isMerge key then
      let merged ← mergedEntries textual value
      return { ← entryValues textual rest with merged }
    else match ← keyValue textual key with
      | none => entryValues textual rest
      | some key =>
        let value ← nodeValue value
        return (← entryValues textual rest).cons key value

def mergedEntries (textual : Bool) : Node → Decoding (List (Value × Value))
  | .map _ _ entries => unlessRepeated entries (entryValues textual entries)
  | .reference _ _ target => mergedTarget textual target
  | .list _ _ items => mergedItems textual items
  | .loop _ name => throw (.selfReference name)
  | .scalar _ _ _ _ => throw .mergeOfNonMap

def mergedTarget (textual : Bool) : Node → Decoding (List (Value × Value))
  | .map _ _ entries => unlessRepeated entries (entryValues textual entries)
  | _ => throw .mergeOfNonMap

def mergedItems (textual : Bool) : List Node → Decoding (List (Value × Value))
  | [] => return []
  | item :: rest => do
    let first ← mergedItem textual item
    return mergedWith first (← mergedItems textual rest)

def mergedItem (textual : Bool) : Node → Decoding (List (Value × Value))
  | .map _ _ entries => unlessRepeated entries (entryValues textual entries)
  | .reference _ _ target => mergedTarget textual target
  | .loop _ name => throw (.selfReference name)
  | _ => throw .mergeOfNonMap

end

def mapType : Bytes := utf8 "map[string]interface \x7b\x7d"

def documentEntries : Node → Decoding (List (Value × Value))
  | .scalar line tag style text => do
    match ← (scalarValue tag style text : Except Error Value) with
    | .null => return []
    | _ =>
      note (.wrongKind line (excerpt (scalarTag tag style text) text) mapType)
      return []
  | .list line tag _ => do
    note (.wrongKind line (excerpt (tag.getD (utf8 "!!seq")) []) mapType)
    return []
  | .map line tag entries => mergedEntries true (.map line tag entries)
  | .reference _ _ _ => return []
  | .loop _ _ => return []

end Decoding

def textEntries (entries : List (Value × Value)) : List (Bytes × Value) :=
  entries.filterMap fun entry => match entry.1 with
    | .text key => some (key, entry.2)
    | _ => none

def readMap (s : Bytes) : Except Error (List (Bytes × Value)) := do
  match readCharacters s with
  | .error garble => .error (.unreadable garble)
  | .ok text =>
    match ← Node.ofText? text with
    | none => return []
    | some node =>
      let (entries, mismatches) ← (Decoding.documentEntries node).run []
      if mismatches.isEmpty then return textEntries entries else .error (.mismatched mismatches)

end OrderLint.Yaml
