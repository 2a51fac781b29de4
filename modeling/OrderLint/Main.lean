import OrderLint.CommandLine.Program

/-!
# The executable

Gathers what a call depends on, and writes out what it comes to. Of the files, only those are looked
at that the arguments name, and those that the configuration can be in; what cannot be read is
gathered as that.
-/
namespace OrderLint.Main

def text (s : Bytes) : String := (String.fromUTF8? (ByteArray.mk s.toArray)).getD ""

partial def readAll (stream : IO.FS.Stream) (read : ByteArray) : IO ByteArray := do
  let chunk ← stream.read 65536
  if chunk.isEmpty then return read else readAll stream (read ++ chunk)

def components (path : Bytes) : List Bytes := (path.splitAt Path.separator).filter (· ≠ [])

-- Without links; none if it leads nowhere.
def realPath? (name : String) : IO (Option Bytes) := do
  match ← (IO.FS.realPath name).toBaseIO with
  | .ok path => return some (utf8 path.toString)
  | .error _ => return none

/-- Reads what stands under a name; a directory is read `deep`ly or for what it allows only. A link
is read as the path of what it leads to in the end. -/
partial def readNode (deep : Bool) (name : String) : IO (Option FileNode) := do
  let path := (← IO.currentDir) / name
  match ← path.symlinkMetadata.toBaseIO with
  | .error _ => return none
  | .ok data => match data.type with
    | .symlink => return some (.link ((← realPath? name).getD [0]))
    | .dir =>
      let found ← path.readDir.toBaseIO
      let inside ← (path / ".").symlinkMetadata.toBaseIO
      let access : Access := ⟨found.toBool, inside.toBool⟩
      let mut entries : Entries := []
      if deep then
        for entry in found.toOption.getD #[] do
          if let some node ← readNode deep (name ++ "/" ++ entry.fileName) then
            entries := entries.put (utf8 entry.fileName) node
      return some (.directory access entries)
    | .file =>
      let content ← (IO.FS.readBinFile path).toBaseIO
      return some (.file (content.toOption.map (·.data.toList)))
    | .other => return some (.file none)

def nodeAt? : List Bytes → Entries → Option FileNode
  | [], _ => none
  | [name], entries => entries.child? name
  | name :: rest, entries => nodeAt? rest (entries.directoryAt name).entries

partial def targets : FileNode → List Bytes
  | .file _ => []
  | .link target => [target]
  | .directory _ entries => entries.flatMap fun entry => targets entry.2

mutual

/-- Adds what stands under a name to the entries of the root, at its real place. What is known of a
directory is not forgotten when it is found once more. -/
partial def addNode (deep : Bool) (name : String) (location : List Bytes) (root : Entries) :
    IO Entries := do
  match nodeAt? location root, ← readNode deep name with
  | _, none => return root
  | some (.directory _ _), some (.directory _ []) => return root
  | _, some node =>
    let grown := match location, node with
      | [], .directory _ entries => entries
      | location, node => root.add location node
    (targets node).foldlM (fun root target => addPath false (text target) root) grown

partial def addPath (deep : Bool) (name : String) (root : Entries) : IO Entries := do
  let mut root := root
  let mut outer := if Path.isRooted (utf8 name) then "/" else "."
  for component in components (utf8 name) do
    let inner := outer ++ "/" ++ text component
    unless [utf8 ".", utf8 ".."].contains component do
      if let some place ← realPath? outer then
        root ← addNode false inner (components place ++ [component]) root
    outer := inner
  match ← realPath? name with
  | some place => if deep then addNode true (text place) (components place) root else return root
  | none => return root

end

def readTree (arguments : List String) : IO FileTree := do
  let mut root : Entries := []
  let some path ← realPath? "." | return .ofEntries root
  for name in configurationNames do
    root ← addPath false (text name) root
  for argument in arguments do
    if Flags.isPositional (utf8 argument) then root ← addPath true argument root
  let working := (components path).foldl (fun (place : Location) name =>
    place.enter (place.here.entries.directoryAt name)) ⟨⟨{}, root⟩, []⟩
  return ⟨working, path⟩

def readEnvironment : IO (List (Bytes × Bytes)) := do
  let flags := (Command.main :: Command.all).flatMap (Command.flags (.default 1))
  let mut found := []
  for name in flags.map fun flag => Sources.variableName flag.name do
    if let some value ← IO.getEnv (text name) then found := (name, utf8 value) :: found
  return found

def countProcessors : IO Int64 := do
  try
    let lines := (← IO.FS.readFile "/proc/cpuinfo").splitOn "\n"
    let count := (lines.filter fun line => line.startsWith "processor").length
    return Int64.ofNat (max count 1)
  catch _ => return 1

def gather (arguments : List String) : IO Invocation := do
  let stdin ← IO.getStdin
  let input ← if ← stdin.isTty then pure none
    else pure (some (← readAll stdin ByteArray.empty).data.toList)
  return {
    arguments := arguments.map utf8
    environment := ← readEnvironment
    tree := ← readTree arguments
    input
    processors := ← countProcessors }

def recordLine (record : LogRecord) : Bytes :=
  record.level.name ++ utf8 " " ++ record.message
    ++ record.attributes.flatMap (fun (key, value) => utf8 " " ++ key ++ utf8 "=" ++ value)
    ++ utf8 "\n"

end OrderLint.Main

open OrderLint in
def main (arguments : List String) : IO UInt32 := do
  let outcome := (← Main.gather arguments).outcome
  let stdout ← IO.getStdout
  let stderr ← IO.getStderr
  stderr.write (ByteArray.mk (outcome.log.flatMap Main.recordLine).toArray)
  stdout.write (ByteArray.mk outcome.output.toArray)
  stderr.write (ByteArray.mk outcome.errors.toArray)
  return if outcome.failure.isSome then 1 else 0
