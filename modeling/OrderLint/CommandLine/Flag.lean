import OrderLint.Text.Csv
import OrderLint.Text.Numeral

/-!
# Flags

A flag has a name, perhaps a letter for short, and a value of one of four kinds. It is given as
`--name=value` or `--name value`, or by its letter, as `-x=value`, `-xvalue` or `-x value`; a switch
is given alone, and several letters may share one dash. Two dashes alone end the flags. Everything
else is an argument, wherever it stands.
-/
namespace OrderLint

/-- The value of a flag. The first text given for a list replaces its items, a further one adds to
them. -/
inductive FlagValue where
  | switch (on : Bool)
  | count (n : Int64)
  | text (s : Bytes)
  | list (items : List Bytes) (replaced : Bool)
  deriving DecidableEq

inductive ValueFault where
  | truth (text : Bytes)
  | number (text : Bytes) (fault : NumberFault)
  | record (e : Csv.Error)
  deriving DecidableEq

def ValueFault.message : ValueFault → Bytes
  | .truth text =>
    utf8 "strconv.ParseBool: parsing " ++ quoted text ++ utf8 ": " ++ NumberFault.malformed.reason
  | .number text fault =>
    utf8 "strconv.ParseInt: parsing " ++ quoted text ++ utf8 ": " ++ fault.reason
  | .record e => e.message

def FlagValue.set (s : Bytes) : FlagValue → Except ValueFault FlagValue
  | .switch _ => match readTruth? s with
    | some on => .ok (.switch on)
    | none => .error (.truth s)
  | .count _ => match Numeral.readSigned s with
    | .ok n => .ok (.count n)
    | .error fault => .error (.number s fault)
  | .text _ => .ok (.text s)
  | .list items replaced => match Csv.members s with
    | .ok added => .ok (.list (if replaced then items ++ added else added) true)
    | .error e => .error (.record e)

structure Flag where
  name : Bytes
  letter : Option UInt8 := none
  usage : Bytes
  value : FlagValue
  -- Whether a value has been given.
  given : Bool := false
  deriving DecidableEq

inductive FlagError where
  | malformed (argument : Bytes)
  | unknown (name : Bytes)
  | unknownLetter (letter : UInt8) (letters : Bytes)
  | valueMissing (argument : Bytes)
  | letterValueMissing (letter : UInt8) (letters : Bytes)
  | invalid (value label : Bytes) (fault : ValueFault)
  deriving DecidableEq

def FlagError.message : FlagError → Bytes
  | .malformed argument => utf8 "bad flag syntax: " ++ argument
  | .unknown name => utf8 "unknown flag: --" ++ name
  | .unknownLetter letter letters =>
    utf8 "unknown shorthand flag: " ++ quotedChar letter.toNat ++ utf8 " in -" ++ letters
  | .valueMissing argument => utf8 "flag needs an argument: " ++ argument
  | .letterValueMissing letter letters =>
    utf8 "flag needs an argument: " ++ quotedChar letter.toNat ++ utf8 " in -" ++ letters
  | .invalid value label fault =>
    utf8 "invalid argument " ++ quoted value ++ utf8 " for " ++ quoted label ++ utf8 " flag: "
      ++ fault.message

namespace Flag

def label (flag : Flag) : Bytes :=
  match flag.letter with
  | some letter => utf8 "-" ++ letter :: utf8 ", --" ++ flag.name
  | none => utf8 "--" ++ flag.name

def isSwitch (flag : Flag) : Bool :=
  match flag.value with
  | .switch _ => true
  | _ => false

def give (s : Bytes) (flag : Flag) : Except FlagError Flag :=
  match flag.value.set s with
  | .ok value => .ok { flag with value, given := true }
  | .error fault => .error (.invalid s flag.label fault)

end Flag

namespace Flags

def give (name s : Bytes) : List Flag → Except FlagError (List Flag)
  | [] => .ok []
  | flag :: rest =>
    if flag.name = name then (flag.give s).map (· :: rest)
    else (give name s rest).map (flag :: ·)

structure Taken where
  flags : List Flag
  usedNext : Bool

/-- Takes a flag given by its name; `next` is the argument behind it. -/
def takeLong (flags : List Flag) (argument : Bytes) (next : Option Bytes) :
    Except FlagError Taken :=
  let body := argument.drop 2
  if body.head? = none ∨ body.head? = some 45 ∨ body.head? = some 61 then
    .error (.malformed argument)
  else
    let (name, rest) := body.span (· != 61)
    match flags.find? (·.name == name) with
    | none => .error (.unknown name)
    | some flag =>
      let given := fun (s : Bytes) (usedNext : Bool) =>
        (give name s flags).map fun flags => (⟨flags, usedNext⟩ : Taken)
      match rest, next with
      | _ :: value, _ => given value false
      | [], next =>
        if flag.isSwitch then given (utf8 "true") false
        else match next with
          | some value => given value true
          | none => .error (.valueMissing argument)

/-- Letters that are passed over, with what follows them. -/
def reservedLetters : Bytes := utf8 "test."

def takeLetters (next : Option Bytes) : List Flag → Bytes → Except FlagError Taken
  | flags, [] => .ok ⟨flags, false⟩
  | flags, letter :: rest =>
    if reservedLetters.isPrefixOf (letter :: rest) then .ok ⟨flags, false⟩
    else match flags.find? (·.letter == some letter) with
    | none => .error (.unknownLetter letter (letter :: rest))
    | some flag =>
      let given := fun (s : Bytes) (usedNext : Bool) =>
        (give flag.name s flags).map fun flags => (⟨flags, usedNext⟩ : Taken)
      if rest.head? = some 61 ∧ 2 ≤ rest.length then given (rest.drop 1) false
      else if flag.isSwitch then
        match give flag.name (utf8 "true") flags with
        | .error e => .error e
        | .ok flags => takeLetters next flags rest
      else if rest ≠ [] then given rest false
      else match next with
        | some value => given value true
        | none => .error (.letterValueMissing letter [letter])

def take (flags : List Flag) (argument : Bytes) (next : Option Bytes) : Except FlagError Taken :=
  if argument.startsWith (utf8 "--") then takeLong flags argument next
  else takeLetters next flags (argument.drop 1)

def isPositional (argument : Bytes) : Bool := argument.head? != some 45 || argument.length == 1

structure Parsed where
  flags : List Flag
  arguments : List Bytes

def parse (flags : List Flag) : List Bytes → Except FlagError Parsed
  | [] => .ok ⟨flags, []⟩
  | argument :: rest =>
    if isPositional argument then
      (parse flags rest).map fun parsed => ⟨parsed.flags, argument :: parsed.arguments⟩
    else if argument = utf8 "--" then .ok ⟨flags, rest⟩
    else match take flags argument rest.head? with
      | .error e => .error e
      | .ok taken => match taken.usedNext, rest with
        | true, _ :: rest => parse taken.flags rest
        | _, rest => parse taken.flags rest

def value? (flags : List Flag) (name : Bytes) : Option FlagValue :=
  (flags.find? (·.name == name)).map (·.value)

def isOn (flags : List Flag) (name : Bytes) : Bool := value? flags name == some (.switch true)

end Flags

end OrderLint
