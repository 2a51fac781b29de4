import OrderLint.CommandLine.Flag
import OrderLint.Files.Tree
import OrderLint.Text.LowerCase
import OrderLint.Text.WhiteSpace
import OrderLint.Yaml.Decoding

/-!
# Where settings come from

A setting that is not given on the command line is taken from an environment variable, or else from
the configuration file in the working directory, or keeps its default. An empty variable and an
empty entry count as absent. Keys of the file may be written in any case.
-/
namespace OrderLint

/-- An order in which the entries of a configuration file are visited. It is not the order in which
they are written, and may be another one each time that the file is loaded. -/
structure VisitOrder where
  visit : List (Bytes × Yaml.Value) → List (Bytes × Yaml.Value)
  perm : ∀ entries, (visit entries).Perm entries

def VisitOrder.asWritten : VisitOrder := ⟨id, fun _ => .refl _⟩

structure Sources where
  environment : List (Bytes × Bytes)
  entries : List (Bytes × Yaml.Value)

namespace Sources

def variableStem : Bytes := utf8 "CAKESORT_"

def upperByte (b : UInt8) : UInt8 := if 97 ≤ b && b ≤ 122 then b - 32 else b

def variableName (name : Bytes) : Bytes :=
  variableStem ++ name.map fun b => if b = 45 then 95 else upperByte b

def fromEnvironment? (sources : Sources) (name : Bytes) : Option Bytes :=
  (sources.environment.lookup (variableName name)).filter (· ≠ [])

/-- The entry for a setting. A spelling with capitals counts more than one without, and of several
with capitals the one that is visited last. -/
def spelled? (entries : List (Bytes × Yaml.Value)) (name : Bytes) : Option (Bytes × Yaml.Value) :=
  let spelled := entries.filter fun entry => lower entry.1 == name
  let capitals := spelled.filter fun entry => entry.1 != name
  capitals.getLast?.or spelled.getLast?

def fromFile? (sources : Sources) (name : Bytes) : Option Yaml.Value :=
  match spelled? sources.entries name with
  | some (_, .null) => none
  | found => found.map (·.2)

def provided? (sources : Sources) (name : Bytes) : Option Yaml.Value :=
  match sources.fromEnvironment? name with
  | some text => some (.text text)
  | none => sources.fromFile? name

end Sources

/-- The items that a value provides for a list: those of a list, the words of a text, nothing for a
map, and the text of anything else. -/
def providedItems : Yaml.Value → List Bytes
  | .list items => items.map (·.scalarText)
  | .text s => words s
  | .map _ => []
  | value => [value.scalarText]

structure BindingError where
  name : Bytes
  reason : Bytes
  deriving DecidableEq

def BindingError.message (e : BindingError) : Bytes :=
  utf8 "invalid value for " ++ e.name ++ utf8 ": " ++ e.reason

namespace Flag

def bindValue (flag : Flag) (value : Yaml.Value) : Except BindingError Flag :=
  match flag.value with
  | .list _ _ =>
    match flag.value.set (Bytes.joined [44] (providedItems value)) with
    | .ok value => .ok { flag with value }
    | .error fault => .error ⟨flag.name, fault.message⟩
  | _ =>
    match flag.give value.scalarText with
    | .ok flag => .ok flag
    | .error e => .error ⟨flag.name, e.message⟩

def bind (sources : Sources) (flag : Flag) : Except BindingError Flag :=
  if flag.given then .ok flag
  else match sources.provided? flag.name with
    | some value => flag.bindValue value
    | none => .ok flag

end Flag

def bindFlags (sources : Sources) : List Flag → Except BindingError (List Flag)
  | [] => .ok []
  | flag :: rest =>
    match flag.bind sources with
    | .error e => .error e
    | .ok bound => (bindFlags sources rest).map (bound :: ·)

/-! ## The configuration file -/

def configurationNames : List Bytes :=
  ([".json", ".toml", ".yaml", ".yml", ".properties", ".props", ".prop", ".hcl", ".tfvars",
    ".dotenv", ".env", ".ini", ""].map fun ending => utf8 ".cakesort" ++ utf8 ending)

def configurationName? (tree : FileTree) : Option Bytes :=
  configurationNames.find? fun name => match tree.inspect name with
    | .ok node => !node.isDirectory
    | .error _ => false

def configurationText? (tree : FileTree) : Option Bytes :=
  (configurationName? tree).bind fun name => (tree.read name).toOption

inductive ConfigurationError where
  | unreadable (e : FileError)
  | malformed (e : Yaml.Error)
  deriving DecidableEq

def ConfigurationError.message : ConfigurationError → Bytes
  | .unreadable e => e.message
  | .malformed e => utf8 "While parsing config: " ++ e.message

def loadSources (order : VisitOrder) (tree : FileTree) (environment : List (Bytes × Bytes)) :
    Except ConfigurationError Sources :=
  match configurationName? tree with
  | none => .ok ⟨environment, []⟩
  | some name => match tree.read name with
    | .error e => .error (.unreadable { e with path := Path.join tree.path name })
    | .ok text => match Yaml.readMap text with
      | .error e => .error (.malformed e)
      | .ok entries => .ok ⟨environment, order.visit entries⟩

end OrderLint
