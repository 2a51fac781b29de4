import OrderLint.Yaml.Token

/-!
# The text of YAML scalars

Scalars come plain, in single or double quotes, or as blocks of lines. In plain and quoted ones the
white space between words is folded: a line break counts as a space, and more breaks as one less.
Each reader takes the cursor at the first character of the scalar and gives back the one after it.
-/
namespace OrderLint.Yaml

structure Gap where
  spaces : List Char := []
  firstBreak : List Char := []
  laterBreaks : List Char := []
  broken : Bool := false

def Gap.folded (gap : Gap) : List Char :=
  if !gap.broken then gap.spaces
  else if gap.firstBreak.head? == some '\n' then
    if gap.laterBreaks.isEmpty then [' '] else gap.laterBreaks
  else gap.firstBreak ++ gap.laterBreaks

/-- Reads white space on from `gap`. After a break a tab may not stand left of the column
`leftmost`; `start` is where the scalar began. -/
def readGap (start : Mark) (leftmost : Int) : Nat → Gap → Cursor → Except Error (Gap × Cursor)
  | 0, gap, c => .ok (gap, c)
  | limit + 1, gap, c => match c.head? with
    | none => .ok (gap, c)
    | some char =>
      if isBlank char then
        if !gap.broken then
          readGap start leftmost limit { gap with spaces := gap.spaces ++ [char] } c.skip
        else if (c.mark.column : Int) < leftmost && char == '\t' then
          .error (.token start c.mark .tabInPlain)
        else readGap start leftmost limit gap c.skip
      else if isBreak char then
        let (text, next) := c.takeBreak
        if gap.broken then
          readGap start leftmost limit { gap with laterBreaks := gap.laterBreaks ++ text } next
        else readGap start leftmost limit { gap with firstBreak := text, broken := true } next
      else .ok (gap, c)

/-! ## Plain scalars -/

def endsPlain (inFlow : Bool) (char : Char) (next : Option Char) : Bool :=
  (char == ':' && isGap next) || (inFlow && [',', '?', '[', ']', '\x7b', '\x7d'].contains char)

def plainWord (inFlow : Bool) : List Char → List Char
  | [] => []
  | char :: rest =>
    if isBlank char || isBreak char || endsPlain inFlow char rest.head? then []
    else char :: plainWord inFlow rest

structure PlainScalar where
  text : List Char
  after : Cursor
  broken : Bool

def readPlainFrom (start : Mark) (inFlow : Bool) (leftmost : Int) :
    Nat → List Char → Gap → Cursor → Except Error PlainScalar
  | 0, read, gap, c => .ok ⟨read, c, gap.broken⟩
  | limit + 1, read, gap, c =>
    if c.seesDocumentMarker || c.sees '#' then .ok ⟨read, c, gap.broken⟩
    else
      let word := plainWord inFlow c.rest
      let c := c.skipMany word.length
      let read := if word.isEmpty then read else read ++ gap.folded ++ word
      let gap := if word.isEmpty then gap else {}
      if !c.rest.head?.any fun char => isBlank char || isBreak char then .ok ⟨read, c, gap.broken⟩
      else match readGap start leftmost c.rest.length gap c with
        | .error e => .error e
        | .ok (gap, c) =>
          if !inFlow && (c.mark.column : Int) < leftmost then .ok ⟨read, c, gap.broken⟩
          else readPlainFrom start inFlow leftmost limit read gap c

def readPlain (inFlow : Bool) (indentation : Int) (c : Cursor) : Except Error PlainScalar :=
  readPlainFrom c.mark inFlow (indentation + 1) (c.rest.length + 1) [] {} c

/-! ## Quoted scalars -/

def simpleEscape? : Char → Option Char
  | '0' => some '\x00'
  | 'a' => some '\x07'
  | 'b' => some '\x08'
  | 't' | '\t' => some '\t'
  | 'n' => some '\n'
  | 'v' => some '\x0b'
  | 'f' => some '\x0c'
  | 'r' => some '\r'
  | 'e' => some '\x1b'
  | ' ' => some ' '
  | '"' => some '"'
  | '\'' => some '\''
  | '\\' => some '\\'
  | 'N' => some '\x85'
  | '_' => some '\xa0'
  | 'L' => some '\u2028'
  | 'P' => some '\u2029'
  | _ => none

def escapeWidth? : Char → Option Nat
  | 'x' => some 2
  | 'u' => some 4
  | 'U' => some 8
  | _ => none

def readEscape (start : Mark) (c : Cursor) : Except Error (Char × Cursor) :=
  let letter := (c.ahead? 1).getD '\x00'
  match simpleEscape? letter, escapeWidth? letter with
  | some char, _ => .ok (char, c.skipMany 2)
  | none, none => .error (.token start c.mark .unknownEscape)
  | none, some width =>
    let digits := c.skipMany 2
    match hexNumber? width 0 digits.rest with
    | none => .error (.token start digits.mark .notHexadecimal)
    | some code =>
      if (0xD800 ≤ code && code ≤ 0xDFFF) || 0x10FFFF < code then
        .error (.token start digits.mark .invalidEscape)
      else .ok (Char.ofNat code, digits.skipMany width)

/-- Reads characters of a quoted scalar up to white space or the closing quote; the answer also says
whether the word ended with an escaped line break. -/
def quotedWord (start : Mark) (quote : Char) :
    Nat → List Char → Cursor → Except Error (List Char × Bool × Cursor)
  | 0, read, c => .ok (read, false, c)
  | limit + 1, read, c => match c.head? with
    | none => .ok (read, false, c)
    | some char =>
      if isBlank char || isBreak char then .ok (read, false, c)
      else if char == quote then
        if quote == '\'' && c.ahead? 1 == some '\'' then
          quotedWord start quote limit (read ++ ['\'']) (c.skipMany 2)
        else .ok (read, false, c)
      else if quote == '"' && char == '\\' then
        if (c.ahead? 1).any isBreak then .ok (read, true, c.skip.skipBreak)
        else match readEscape start c with
          | .error e => .error e
          | .ok (char, next) => quotedWord start quote limit (read ++ [char]) next
      else quotedWord start quote limit (read ++ [char]) c.skip

def readQuotedFrom (start : Mark) (quote : Char) :
    Nat → List Char → Cursor → Except Error (List Char × Cursor)
  | 0, _, c => .error (.token start c.mark .endInQuotes)
  | limit + 1, read, c =>
    if c.seesDocumentMarker then .error (.token start c.mark .documentInQuotes)
    else if c.rest.isEmpty then .error (.token start c.mark .endInQuotes)
    else match quotedWord start quote c.rest.length read c with
      | .error e => .error e
      | .ok (read, escapedBreak, c) =>
        if c.sees quote then .ok (read, c.skip)
        else match readGap start (-1) c.rest.length { broken := escapedBreak } c with
          | .error e => .error e
          | .ok (gap, c) => readQuotedFrom start quote limit (read ++ gap.folded) c

def readQuoted (quote : Char) (c : Cursor) : Except Error (List Char × Cursor) :=
  readQuotedFrom c.mark quote (c.rest.length + 1) [] c.skip

/-! ## Block scalars -/

inductive Chomping where
  | strip
  | clip
  | keep
  deriving DecidableEq

def Chomping.ofChar? : Char → Option Chomping
  | '+' => some .keep
  | '-' => some .strip
  | _ => none

def indicatorDigit? (c : Option Char) : Option Nat :=
  c.bind fun char => if char.isDigit then some (char.toNat - 48) else none

/-- The header of a block scalar: the chomping, and how much deeper than its parent it is indented,
zero when it does not say. -/
def readBlockHeader (start : Mark) (c : Cursor) : Except Error (Chomping × Nat × Cursor) :=
  let refuse := fun (c : Cursor) => Except.error (.token start c.mark .zeroIndentation)
  match c.head?.bind Chomping.ofChar? with
  | some chomping =>
    match indicatorDigit? c.skip.head? with
    | some 0 => refuse c.skip
    | some digit => .ok (chomping, digit, c.skip.skip)
    | none => .ok (chomping, 0, c.skip)
  | none =>
    match indicatorDigit? c.head? with
    | some 0 => refuse c
    | some digit =>
      match c.skip.head?.bind Chomping.ofChar? with
      | some chomping => .ok (chomping, digit, c.skip.skip)
      | none => .ok (.clip, digit, c.skip)
    | none => .ok (.clip, 0, c)

structure BlockGap where
  breaks : List Char
  -- The largest column reached by indentation.
  deepest : Nat
  after : Cursor

def readBlockGap (start : Mark) (indent : Nat) :
    Nat → List Char → Nat → Cursor → Except Error BlockGap
  | 0, breaks, deepest, c => .ok ⟨breaks, deepest, c⟩
  | limit + 1, breaks, deepest, c =>
    let within := fun (c : Cursor) => indent = 0 ∨ c.mark.column < indent
    if within c ∧ c.sees ' ' then
      readBlockGap start indent limit breaks deepest c.skip
    else
      let deepest := max deepest c.mark.column
      if within c ∧ c.sees '\t' then .error (.token start c.mark .tabInBlock)
      else if c.head?.any isBreak then
        let (text, next) := c.takeBreak
        readBlockGap start indent limit (breaks ++ text) deepest next
      else .ok ⟨breaks, deepest, c⟩

/-- Reads the lines of a block scalar on from the text `read`, the break `lineBreak` after it and the
breaks `breaks` of empty lines after that; `blank` says whether the last line began with a blank. -/
def readBlockLines (start : Mark) (literal : Bool) (chomping : Chomping) (indent : Nat) :
    Nat → List Char → List Char → List Char → Bool → Cursor → Except Error (List Char × Cursor)
  | 0, read, _, _, _, c => .ok (read, c)
  | limit + 1, read, lineBreak, breaks, blank, c =>
    if c.mark.column ≠ indent ∨ c.rest.isEmpty then
      let read := if chomping = .strip then read else read ++ lineBreak
      .ok (if chomping = .keep then read ++ breaks else read, c)
    else
      let startsBlank := c.head?.any isBlank
      let folds := !literal && !blank && !startsBlank && lineBreak.head? == some '\n'
      let joint := if folds then (if breaks.isEmpty then [' '] else []) else lineBreak
      let line := c.rest.takeWhile fun char => !isBreak char
      let (text, next) := (c.skipMany line.length).takeBreak
      match readBlockGap start indent (next.rest.length + 1) [] 0 next with
      | .error e => .error e
      | .ok gap =>
        readBlockLines start literal chomping indent limit (read ++ joint ++ breaks ++ line) text
          gap.breaks startsBlank gap.after

def readBlock (literal : Bool) (indentation : Int) (c : Cursor) :
    Except Error (List Char × Cursor) :=
  let start := c.mark
  match readBlockHeader start c.skip with
  | .error e => .error e
  | .ok (chomping, increment, c) =>
    let c := c.skipWhile isBlank
    let c := if c.sees '#' then c.skipWhile fun char => !isBreak char else c
    if !isLineEnd c.head? then .error (.token start c.mark .noLineEnd)
    else
      let c := c.skipBreak
      let given := if increment = 0 then 0 else (max indentation 0).toNat + increment
      match readBlockGap start given (c.rest.length + 1) [] 0 c with
      | .error e => .error e
      | .ok gap =>
        let indent := if given = 0 then max (max gap.deepest (indentation + 1).toNat) 1 else given
        readBlockLines start literal chomping indent (c.rest.length + 1) [] [] gap.breaks false
          gap.after

end OrderLint.Yaml
