import OrderLint.Yaml.Token

/-!
# Anchors, tags and directives of YAML

An anchor names a node and a reference repeats it; both are names after one character. A tag says
what a node is, by a handle and a suffix or in full between angle brackets. A directive at the
beginning of a document declares the version or a handle. Each reader takes the cursor at the first
character and gives back the one after the last.
-/
namespace OrderLint.Yaml

def mayFollowName (c : Option Char) : Bool :=
  isGap c || c.any fun char => ['?', ':', ',', ']', '\x7d', '%', '@', '\x60'].contains char

def readName (c : Cursor) : Except Error (Bytes × Cursor) :=
  let name := c.skip.rest.takeWhile isNameChar
  let after := c.skip.skipMany name.length
  if name.isEmpty || !mayFollowName after.head? then
    .error (.token c.mark after.mark .anchorName)
  else .ok (bytesOf name, after)

/-! ## Tags -/

def isUriChar (c : Char) : Bool :=
  isNameChar c || [';', '/', '?', ':', '@', '&', '=', '+', '$', '.', '!', '~', '*', '\'', '(', ')',
    '%'].contains c

def uriByte? (c : Cursor) : Option UInt8 :=
  match c.rest with
  | '%' :: high :: low :: _ => match hexNumber? 2 0 [high, low] with
    | some n => some n.toUInt8
    | none => none
  | _ => none

def readTrailingBytes (start : Mark) : Nat → Bytes → Cursor → Except Error (Bytes × Cursor)
  | 0, read, c => .ok (read, c)
  | count + 1, read, c => match uriByte? c with
    | none => .error (.token start c.mark .uriEscape)
    | some b =>
      if isContinuation b then readTrailingBytes start count (read ++ [b]) (c.skipMany 3)
      else .error (.token start c.mark .uriTrailing)

def readUriEscape (start : Mark) (c : Cursor) : Except Error (Bytes × Cursor) :=
  match uriByte? c with
  | none => .error (.token start c.mark .uriEscape)
  | some b =>
    if announcedWidth b = 0 then .error (.token start c.mark .uriLeading)
    else readTrailingBytes start (announcedWidth b - 1) [b] (c.skipMany 3)

def readUri (start : Mark) : Nat → Bytes → Cursor → Except Error (Bytes × Cursor)
  | 0, read, c => .ok (read, c)
  | limit + 1, read, c => match c.head? with
    | none => .ok (read, c)
    | some char =>
      if char == '%' then match readUriEscape start c with
        | .error e => .error e
        | .ok (b, next) => readUri start limit (read ++ b) next
      else if isUriChar char then readUri start limit (read ++ bytesOf [char]) c.skip
      else .ok (read, c)

def readSomeUri (start : Mark) (c : Cursor) : Except Error (Bytes × Cursor) :=
  match readUri start c.rest.length [] c with
  | .error e => .error e
  | .ok (uri, after) =>
    if after.mark = c.mark then .error (.token start after.mark .tagUri) else .ok (uri, after)

def readHandle (c : Cursor) : List Char × Cursor :=
  let name := c.skip.rest.takeWhile isNameChar
  let after := c.skip.skipMany name.length
  if after.sees '!' then ('!' :: name ++ ['!'], after.skip) else ('!' :: name, after)

def readFullTag (c : Cursor) : Except Error (Bytes × Bytes × Cursor) :=
  match readSomeUri c.mark (c.skipMany 2) with
  | .error e => .error e
  | .ok (uri, after) =>
    if after.sees '>' then .ok ([], uri, after.skip)
    else .error (.token c.mark after.mark .tagClose)

def readShortTag (c : Cursor) : Except Error (Bytes × Bytes × Cursor) :=
  let (handle, after) := readHandle c
  if 1 < handle.length && handle.getLast? == some '!' then
    match readSomeUri c.mark after with
    | .error e => .error e
    | .ok (suffix, after) => .ok (bytesOf handle, suffix, after)
  else match readUri c.mark after.rest.length (bytesOf (handle.drop 1)) after with
    | .error e => .error e
    | .ok (suffix, after) =>
      if suffix = [] then .ok ([], utf8 "!", after) else .ok (utf8 "!", suffix, after)

def readTag (c : Cursor) : Except Error (Bytes × Bytes × Cursor) :=
  let tag := if c.ahead? 1 == some '<' then readFullTag c else readShortTag c
  match tag with
  | .error e => .error e
  | .ok (handle, suffix, after) =>
    if isGap after.head? then .ok (handle, suffix, after)
    else .error (.token c.mark after.mark .tagEnd)

/-! ## Directives -/

def readVersionNumber (start : Mark) (c : Cursor) : Except Error (Nat × Cursor) :=
  let digits := c.rest.takeWhile (·.isDigit)
  if digits.isEmpty then .error (.token start c.mark .versionDigit)
  else if 2 < digits.length then .error (.token start (c.skipMany 2).mark .versionLong)
  else .ok (digits.foldl (fun n d => n * 10 + (d.toNat - 48)) 0, c.skipMany digits.length)

def readVersion (start : Mark) (c : Cursor) : Except Error (TokenKind × Cursor) := do
  let (major, c) ← readVersionNumber start (c.skipWhile isBlank)
  if !c.sees '.' then .error (.token start c.mark .versionDot)
  else
    let (minor, c) ← readVersionNumber start c.skip
    return (.version major minor, c)

def readHandleDirective (start : Mark) (c : Cursor) : Except Error (TokenKind × Cursor) := do
  let c := c.skipWhile isBlank
  if !c.sees '!' then .error (.token start c.mark .tagOpen)
  else
    let (handle, c) := readHandle c
    if handle.getLast? != some '!' then .error (.token start c.mark .tagOpen)
    else if !c.head?.any isBlank then .error (.token start c.mark .tagSpace)
    else
      let (expansion, c) ← readSomeUri start (c.skipWhile isBlank)
      if !isGap c.head? then .error (.token start c.mark .tagLineEnd)
      else return (.handle (bytesOf handle) expansion, c)

def readDirective (c : Cursor) : Except Error (TokenKind × Cursor) := do
  let start := c.mark
  let name := c.skip.rest.takeWhile isNameChar
  let after := c.skip.skipMany name.length
  if name.isEmpty then .error (.token start after.mark .directiveName)
  else if !isGap after.head? then .error (.token start after.mark .directiveCharacter)
  else
    let (kind, c) ←
      if name == ['Y', 'A', 'M', 'L'] then readVersion start after
      else if name == ['T', 'A', 'G'] then readHandleDirective start after
      else .error (.token start after.mark .directiveUnknown)
    let c := c.skipWhile isBlank
    let c := if c.sees '#' then c.skipWhile fun char => !isBreak char else c
    if !isLineEnd c.head? then .error (.token start c.mark .noLineEnd)
    else return (kind, c.skipBreak)

end OrderLint.Yaml
