import OrderLint.Yaml.TokenStream

/-!
# YAML nodes

A document is a node: a scalar, a list, a map, or a reference to a node that was given a name
before. A node that is missing counts as an empty plain scalar. Nodes know the number of their
line, and the tag that was put before them.
-/
namespace OrderLint.Yaml

inductive Node where
  | scalar (line : Nat) (tag : Option Bytes) (style : ScalarStyle) (text : Bytes)
  | list (line : Nat) (tag : Option Bytes) (items : List Node)
  | map (line : Nat) (tag : Option Bytes) (entries : List (Node × Node))
  | reference (line : Nat) (name : Bytes) (target : Node)
  | loop (line : Nat) (name : Bytes)

namespace Node

def line : Node → Nat
  | .scalar line .. | .list line .. | .map line .. | .reference line .. | .loop line .. => line

def absent (mark : Mark) : Node := .scalar (mark.line + 1) none .plain []

end Node

/-- What is known while nodes are read: the tokens to come, the handles of tags, and the named
nodes, newest first, a node without content being still read. -/
structure NodeReader where
  tokens : TokenStream
  handles : List (Bytes × Bytes) := []
  named : List (Bytes × Option Node) := []

abbrev ReadNode := StateT NodeReader (Except Error)

namespace ReadNode

def refuse {α : Type} (context place : Mark) (fault : NodeFault) : ReadNode α :=
  throw (.node context place fault)

def peek : ReadNode Token := do
  let r ← get
  let (token, tokens) ← (r.tokens.peek : Except Error _)
  set { r with tokens }
  return token

def drop : ReadNode Unit := modify fun r => { r with tokens := r.tokens.drop }

/-! ## Tags and names -/

def coreTags : Bytes := utf8 "tag:yaml.org,2002:"

def shortTag (tag : Bytes) : Bytes :=
  if tag.startsWith coreTags then utf8 "!!" ++ tag.drop coreTags.length else tag

def expandTag (start place : Mark) (handle suffix : Bytes) : ReadNode (Option Bytes) := do
  if handle = [] then return if suffix = utf8 "!" then none else some (shortTag suffix)
  else match (← get).handles.lookup handle with
    | some expansion => return some (shortTag (expansion ++ suffix))
    | none => refuse start place .undefinedHandle

def openName (name : Option Bytes) : ReadNode Nat := do
  let r ← get
  match name with
  | some name => set { r with named := (name, none) :: r.named }
  | none => pure ()
  return r.named.length

def closeName (name : Option Bytes) (number : Nat) (node : Node) : ReadNode Unit :=
  match name with
  | some name => modify fun r =>
    { r with named := r.named.set (r.named.length - 1 - number) (name, some node) }
  | none => pure ()

def refer (line : Nat) (name : Bytes) : ReadNode Node := do
  match (← get).named.lookup name with
  | some (some target) => return .reference line name target
  | some none => return .loop line name
  | none => throw (.unknownAnchor name)

structure Properties where
  start : Mark
  name : Option Bytes := none
  tag : Option Bytes := none
  tagged : Bool := false

def readTag (p : Properties) : ReadNode (Properties × Option (Mark × Bytes × Bytes)) := do
  let token ← peek
  match token.kind with
  | .tag handle suffix =>
    drop
    return ({ p with tagged := true }, some (token.start, handle, suffix))
  | _ => return (p, none)

def readAnchor (p : Properties) : ReadNode Properties := do
  let token ← peek
  match token.kind with
  | .anchor name =>
    drop
    return { p with name := some name }
  | _ => return p

def readProperties : ReadNode Properties := do
  let token ← peek
  let p ← readAnchor { start := token.start }
  let (p, tag) ← readTag p
  let p ← if p.name.isNone then readAnchor p else pure p
  let _ ← peek
  match tag with
  | none => return p
  | some (place, handle, suffix) => return { p with tag := ← expandTag p.start place handle suffix }

/-! ## Nodes -/

inductive Shape where
  | flow
  | block
  -- A node of a block that may also be a list at the indentation of its parent.
  | value

inductive Goal where
  | node (shape : Shape)
  | blockList (start : Mark) (done : List Node)
  | flushList (done : List Node)
  | blockMap (start : Mark) (done : List (Node × Node))
  | flowList (start : Mark) (done : List Node)
  | flowMap (start : Mark) (done : List (Node × Node))

inductive Yield where
  | node (node : Node)
  | items (items : List Node)
  | entries (entries : List (Node × Node))

namespace Yield

def toNode : Yield → Node
  | .node found => found
  | _ => .absent {}

def toItems : Yield → List Node
  | .items found => found
  | _ => []

def toEntries : Yield → List (Node × Node)
  | .entries found => found
  | _ => []

end Yield

def endsMapPlace : TokenKind → Bool
  | .key | .value | .blockEnd => true
  | _ => false

def endsListPlace (flush : Bool) : TokenKind → Bool
  | .blockEntry | .blockEnd => true
  | .key | .value => flush
  | _ => false

def endsFlowPlace (closing : TokenKind) (kind : TokenKind) : Bool :=
  kind == .flowEntry || kind == closing

def nodeUnless (recur : Goal → ReadNode Yield) (shape : Shape) (ended : TokenKind → Bool)
    (mark : Mark) : ReadNode Node := do
  let token ← peek
  if ended token.kind then return .absent mark else return (← recur (.node shape)).toNode

def readContent (recur : Goal → ReadNode Yield) (shape : Shape) (p : Properties) :
    ReadNode Node := do
  let token ← peek
  let line := p.start.line + 1
  let named := fun (content : ReadNode Node) => do
    let number ← openName p.name
    let node ← content
    closeName p.name number node
    return node
  match token.kind, shape with
  | .blockEntry, .value =>
    named do return .list line p.tag (← recur (.flushList [])).toItems
  | .scalar text style, _ =>
    drop
    named (pure (.scalar line p.tag style text))
  | .flowListStart, _ =>
    drop
    named do return .list line p.tag (← recur (.flowList token.start [])).toItems
  | .flowMapStart, _ =>
    drop
    named do return .map line p.tag (← recur (.flowMap token.start [])).toEntries
  | .blockListStart, .block | .blockListStart, .value =>
    drop
    named do return .list line p.tag (← recur (.blockList token.start [])).toItems
  | .blockMapStart, .block | .blockMapStart, .value =>
    drop
    named do return .map line p.tag (← recur (.blockMap token.start [])).toEntries
  | _, _ =>
    if p.name.isSome || p.tagged then named (pure (.scalar line p.tag .plain []))
    else refuse p.start token.start .noContent

def readNode (recur : Goal → ReadNode Yield) (shape : Shape) : ReadNode Node := do
  let token ← peek
  match token.kind with
  | .reference name =>
    drop
    refer (token.start.line + 1) name
  | _ => readContent recur shape (← readProperties)

def readBlockList (recur : Goal → ReadNode Yield) (start : Mark) (done : List Node) :
    ReadNode Yield := do
  let token ← peek
  match token.kind with
  | .blockEntry =>
    drop
    let item ← nodeUnless recur .block (endsListPlace false) token.start
    recur (.blockList start (done ++ [item]))
  | .blockEnd =>
    drop
    return .items done
  | _ => refuse start token.start .noEntry

/-- Reads the entries of a list at the indentation of the map that it is a value of. -/
def readFlushList (recur : Goal → ReadNode Yield) (done : List Node) : ReadNode Yield := do
  let token ← peek
  match token.kind with
  | .blockEntry =>
    drop
    let item ← nodeUnless recur .block (endsListPlace true) token.start
    recur (.flushList (done ++ [item]))
  | _ => return .items done

def readBlockMap (recur : Goal → ReadNode Yield) (start : Mark) (done : List (Node × Node)) :
    ReadNode Yield := do
  let token ← peek
  match token.kind with
  | .key =>
    drop
    let key ← nodeUnless recur .value endsMapPlace token.start
    let colon ← peek
    let value ←
      if colon.kind == .value then do
        drop
        nodeUnless recur .value endsMapPlace colon.start
      else pure (Node.absent colon.start)
    recur (.blockMap start (done ++ [(key, value)]))
  | .blockEnd =>
    drop
    return .entries done
  | _ => refuse start token.start .noKey

def readFlowValue (recur : Goal → ReadNode Yield) (closing : TokenKind) : ReadNode Node := do
  let colon ← peek
  if colon.kind == .value then
    drop
    nodeUnless recur .flow (endsFlowPlace closing) (← peek).start
  else return .absent colon.start

def readLonePair (recur : Goal → ReadNode Yield) (start : Mark) : ReadNode Node := do
  let token ← peek
  let key ←
    if token.kind == .value || endsFlowPlace .flowListEnd token.kind then do
      drop
      pure (Node.absent token.start)
    else do pure (← recur (.node .flow)).toNode
  let value ← readFlowValue recur .flowListEnd
  return .map (start.line + 1) none [(key, value)]

/-- Passes over the comma between two members, which is needed unless the first one comes next; the
answer is the token after it. -/
def passComma (first : Bool) (closing : TokenKind) (refusal : Mark → ReadNode Token) :
    ReadNode Token := do
  let token ← peek
  if first || token.kind == closing then return token
  else if token.kind == .flowEntry then
    drop
    peek
  else refusal token.start

def readFlowList (recur : Goal → ReadNode Yield) (start : Mark) (done : List Node) :
    ReadNode Yield := do
  let token ← passComma done.isEmpty .flowListEnd fun place => refuse start place .noListEnd
  if token.kind == .flowListEnd then
    drop
    return .items done
  else if token.kind == .key then
    drop
    let pair ← readLonePair recur token.start
    recur (.flowList start (done ++ [pair]))
  else
    let item := (← recur (.node .flow)).toNode
    recur (.flowList start (done ++ [item]))

def readFlowMap (recur : Goal → ReadNode Yield) (start : Mark) (done : List (Node × Node)) :
    ReadNode Yield := do
  let token ← passComma done.isEmpty .flowMapEnd fun place => refuse start place .noMapEnd
  if token.kind == .flowMapEnd then
    drop
    return .entries done
  else if token.kind == .key then
    drop
    let next ← peek
    let key ←
      if next.kind == .value || endsFlowPlace .flowMapEnd next.kind then pure (Node.absent next.start)
      else do pure (← recur (.node .flow)).toNode
    let value ← readFlowValue recur .flowMapEnd
    recur (.flowMap start (done ++ [(key, value)]))
  else
    let key := (← recur (.node .flow)).toNode
    let next ← peek
    recur (.flowMap start (done ++ [(key, .absent next.start)]))

def pursue : Nat → Goal → ReadNode Yield
  | 0, _ => refuse {} {} .noContent
  | limit + 1, goal => match goal with
    | .node shape => do return .node (← readNode (pursue limit) shape)
    | .blockList start done => readBlockList (pursue limit) start done
    | .flushList done => readFlushList (pursue limit) done
    | .blockMap start done => readBlockMap (pursue limit) start done
    | .flowList start done => readFlowList (pursue limit) start done
    | .flowMap start done => readFlowMap (pursue limit) start done

/-! ## Documents -/

def commonHandles : List (Bytes × Bytes) := [(utf8 "!", utf8 "!"), (utf8 "!!", coreTags)]

def readDirectives : Nat → Bool → List (Bytes × Bytes) → ReadNode Unit
  | 0, _, _ => pure ()
  | limit + 1, versioned, handles => do
    let token ← peek
    match token.kind with
    | .version major minor =>
      if versioned then refuse {} token.start .repeatedVersion
      else if major != 1 || minor != 1 then refuse {} token.start .wrongVersion
      else
        drop
        readDirectives limit true handles
    | .handle name expansion =>
      if handles.any (·.1 == name) then refuse {} token.start .repeatedHandle
      else
        drop
        readDirectives limit versioned (handles ++ [(name, expansion)])
    | _ => modify fun r => { r with handles := handles ++ commonHandles }

def endsDocument : TokenKind → Bool
  | .version _ _ | .handle _ _ | .documentStart | .documentEnd | .streamEnd => true
  | _ => false

def readDocument (limit : Nat) : ReadNode (Option Node) := do
  let _ ← peek
  drop
  let token ← peek
  if token.kind == .streamEnd then return none
  let explicit := endsDocument token.kind && token.kind != .documentEnd
  readDirectives limit false []
  if explicit then
    let token ← peek
    if token.kind != .documentStart then refuse {} token.start .noDocumentStart
    drop
  let content ←
    if explicit then nodeUnless (pursue limit) .block endsDocument (← peek).start
    else do pure (← pursue limit (.node .block)).toNode
  let _ ← peek
  return some content

end ReadNode

def Node.ofText? (text : List Char) : Except Error (Option Node) :=
  match (ReadNode.readDocument (2 * text.length + 16)).run { tokens := .ofText text } with
  | .ok (node, _) => .ok node
  | .error e => .error e

end OrderLint.Yaml
