import OrderLint.CommandLine.Command

/-!
# Which command is called

The command is the first argument that is neither a flag nor, as far as can be told before the
command is known, the value of one: a flag without an equals sign is taken to use up the argument
behind it. A name that no command has is answered with names close to it.
-/
namespace OrderLint.Dispatch

def takesValue (argument : Bytes) : Bool :=
  !argument.contains 61 && (argument.startsWith (utf8 "--")
    || (argument.head? == some 45 && argument.length == 2))

def positionals : List Bytes → List Bytes
  | [] => []
  | argument :: rest =>
    if argument = utf8 "--" then []
    else if takesValue argument then
      match rest with
      | _ :: next :: rest => positionals (next :: rest)
      | _ => []
    else if argument.head? = none ∨ argument.head? = some 45 then positionals rest
    else argument :: positionals rest

/-- The arguments without the first one that is `name` and no value of a flag. -/
def without (name : Bytes) : List Bytes → List Bytes
  | [] => []
  | argument :: rest =>
    if argument = utf8 "--" then argument :: rest
    else if takesValue argument then
      match rest with
      | value :: rest => argument :: value :: without name rest
      | [] => [argument]
    else if argument = name then rest
    else argument :: without name rest

/-- The next row of the table of distances: `above` is the rest of the row above, from the column to
the left on, and `left` the distance to the left. -/
def nextRow (b : UInt8) : Nat → List Nat → Bytes → List Nat
  | left, diagonal :: above :: row, c :: rest =>
    let distance := min (min (left + 1) (above + 1)) (if b = c then diagonal else diagonal + 1)
    distance :: nextRow b distance (above :: row) rest
  | _, _, _ => []

def editDistance (s t : Bytes) : Nat :=
  let first := List.range (t.length + 1)
  let step := fun (state : Nat × List Nat) (b : UInt8) =>
    (state.1 + 1, (state.1 + 1) :: nextRow b (state.1 + 1) state.2 t)
  ((s.foldl step (0, first)).2.getLast?).getD 0

def suggestionDistance : Nat := 2

def suggestions (name : Bytes) : List Command :=
  let name := lower name
  Command.all.filter fun command => command != .help &&
    (editDistance name command.name ≤ suggestionDistance || name.isPrefixOf command.name)

structure Call where
  command : Command
  arguments : List Bytes

def find (arguments : List Bytes) : Except Bytes Call :=
  match positionals arguments with
  | [] => .ok ⟨.main, arguments⟩
  | name :: _ => match Command.all.find? (·.name == name) with
    | some command => .ok ⟨command, without name arguments⟩
    | none => .error name

end OrderLint.Dispatch
