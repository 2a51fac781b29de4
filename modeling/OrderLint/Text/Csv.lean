import OrderLint.Text.Decimal

/-!
# Comma-separated records

A record is a line of fields with commas between them. A field that begins with a double quote runs
to the next one that is not doubled, and may hold commas, line breaks and doubled quotes, each of
which stands for one. Only the first record of a text is read; empty lines before it are skipped.
-/
namespace OrderLint.Csv

inductive Fault where
  | bareQuote
  | unbalancedQuote
  deriving DecidableEq

inductive Error where
  | noRecord
  | misplaced (recordLine line column : Nat) (fault : Fault)
  deriving DecidableEq

def Fault.reason : Fault → Bytes
  | .bareQuote => utf8 "bare \" in non-quoted-field"
  | .unbalancedQuote => utf8 "extraneous or missing \" in quoted-field"

def Error.message : Error → Bytes
  | .noRecord => utf8 "EOF"
  | .misplaced recordLine line column fault =>
    let place := utf8 "parse error on line " ++ decimalNat line ++ utf8 ", column "
      ++ decimalNat column ++ utf8 ": " ++ fault.reason
    if recordLine = line then place
    else utf8 "record on line " ++ decimalNat recordLine ++ utf8 "; " ++ place

/-- A text with each carriage return before a line feed dropped, and one at the very end. -/
def normalized : Bytes → Bytes
  | [] => []
  | [b] => if b = 13 then [] else [b]
  | b :: c :: rest =>
    if b = 13 ∧ c = 10 then normalized (c :: rest) else b :: normalized (c :: rest)

def consByte (b : UInt8) : List Bytes → List Bytes
  | [] => [[b]]
  | field :: fields => (b :: field) :: fields

/-- Where the reader is: before a field, in a field without quotes, between quotes, or after a quote
that may be the closing one. -/
inductive State where
  | fresh
  | plain
  | quoted
  | closed
  deriving DecidableEq

/-- Reads the rest of a record, from a place in a field. The first field of the answer is the rest
of that field. -/
def scan (recordLine : Nat) : State → Nat → Nat → Bytes → Except Error (List Bytes)
  | .quoted, line, column, [] => .error (.misplaced recordLine line column .unbalancedQuote)
  | _, _, _, [] => .ok [[]]
  | state, line, column, b :: rest =>
    let atComma := (scan recordLine .fresh line (column + 1) rest).map ([] :: ·)
    match state with
    | .fresh | .plain =>
      if b = 44 then atComma
      else if b = 10 then .ok [[]]
      else if b = 34 then
        if state = .fresh then scan recordLine .quoted line (column + 1) rest
        else .error (.misplaced recordLine line column .bareQuote)
      else (scan recordLine .plain line (column + 1) rest).map (consByte b)
    | .quoted =>
      if b = 34 then scan recordLine .closed line (column + 1) rest
      else if b = 10 ∧ rest ≠ [] then
        (scan recordLine .quoted (line + 1) 1 rest).map (consByte b)
      else (scan recordLine .quoted line (column + 1) rest).map (consByte b)
    | .closed =>
      if b = 34 then (scan recordLine .quoted line (column + 1) rest).map (consByte b)
      else if b = 44 then atComma
      else if b = 10 then .ok [[]]
      else .error (.misplaced recordLine line (column - 1) .unbalancedQuote)

def scanRecord : Nat → Bytes → Except Error (List Bytes)
  | _, [] => .error .noRecord
  | line, b :: rest =>
    if b = 10 then scanRecord (line + 1) rest else scan line .fresh line 1 (b :: rest)

def record (s : Bytes) : Except Error (List Bytes) := scanRecord 1 (normalized s)

def members (s : Bytes) : Except Error (List Bytes) := if s = [] then .ok [] else record s

end OrderLint.Csv
