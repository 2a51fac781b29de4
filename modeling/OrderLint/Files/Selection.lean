import OrderLint.Files.Exclude
import OrderLint.Files.Tree
import OrderLint.Log
import OrderLint.Settings

/-!
# Which files are checked

An argument that leads to a file is checked whatever its extension, unless it is excluded. A
directory stands for the files below it with one of the extensions, in bytewise order of their
components. Nothing is looked for below an excluded or hidden directory; the argument itself may be
hidden. A directory that is entered and cannot be listed ends the search with an error.

The walk over a directory starts from the argument as it stands: a link to a directory is an entry
like any other there, and links are never followed. What lies below is named by clean paths, and it
is by these that the directories are listed. Where a clean path leads elsewhere, so does the walk.
-/
namespace OrderLint

structure Selection where
  files : List Bytes := []
  log : List LogRecord := []
  failure : Option FileError := none

namespace Selection

def failed (e : FileError) : Selection := { failure := some e }

def skipped (path : Bytes) : Selection :=
  { log := [.about (utf8 "skipping excluded path") path] }

-- What comes after a failure is not looked at any more.
def append (first second : Selection) : Selection :=
  match first.failure with
  | some _ => first
  | none => ⟨first.files ++ second.files, first.log ++ second.log, second.failure⟩

instance : Append Selection := ⟨append⟩

def concat : List Selection → Selection
  | [] => {}
  | first :: rest => first ++ concat rest

end Selection

def isHidden (name : Bytes) : Bool := name.head? == some 46

def selectLeaf (settings : Settings) (path : Bytes) : Selection :=
  if isExcluded settings.exclude path then .skipped path
  else if Path.hasExtension path settings.extensions then { files := [path] }
  else {}

def selectDirectory (settings : Settings) (hidden : Bool) (path : Bytes)
    (listed : Except FileError Directory) (below : Directory → Selection) : Selection :=
  if isExcluded settings.exclude path then .skipped path
  else if hidden then {}
  else match listed with
    | .error e => .failed e
    | .ok directory => below directory

mutual

/-- What a node of a listed directory stands for; `reachable` says whether that directory may be
passed through. -/
def selectNode (settings : Settings) (reachable : Bool) (path name : Bytes) : FileNode → Selection
  | .directory access entries =>
    selectDirectory settings (isHidden name) path
      (if reachable && access.list then .ok ⟨access, entries⟩
        else .error ⟨.opening, path, .denied⟩)
      fun _ => selectEntries settings access.search path entries
  | _ => selectLeaf settings path

def selectEntries (settings : Settings) (reachable : Bool) (path : Bytes) :
    List (Bytes × FileNode) → Selection
  | [] => {}
  | (name, node) :: rest =>
    selectNode settings reachable (Path.join path name) name node ++
      selectEntries settings reachable path rest

end

/-- What an entry of the argument stands for. The argument need not be clean, so a directory is
looked up under its own path. -/
def selectEntry (settings : Settings) (tree : FileTree) (path name : Bytes) : FileNode → Selection
  | .directory _ _ =>
    selectDirectory settings (isHidden name) path (tree.list path) fun directory =>
      selectEntries settings directory.access.search path directory.entries
  | _ => selectLeaf settings path

def walk (settings : Settings) (tree : FileTree) (argument : Bytes) : Selection :=
  match tree.inspectLink argument with
  | .error e => .failed e
  | .ok (.directory _ _) =>
    selectDirectory settings false argument (tree.list argument) fun directory =>
      .concat (directory.entries.map fun entry =>
        selectEntry settings tree (Path.join argument entry.1) entry.1 entry.2)
  | .ok _ => selectLeaf settings argument

def selectArgument (settings : Settings) (tree : FileTree) (argument : Bytes) : Selection :=
  match tree.inspect argument with
  | .error e => .failed e
  | .ok (.directory _ _) =>
    { log := [.about (utf8 "processing directory") argument] } ++ walk settings tree argument
  | .ok _ =>
    if isExcluded settings.exclude argument then
      { log := [.about (utf8 "skipping excluded file") argument] }
    else { files := [argument] }

structure SelectionOutcome where
  log : List LogRecord
  files : Except FileError (List Bytes)

def Selection.outcome (selection : Selection) : SelectionOutcome :=
  ⟨selection.log, match selection.failure with
    | some e => .error e
    | none => .ok selection.files⟩

def selectFiles (settings : Settings) (tree : FileTree) (arguments : List Bytes) :
    SelectionOutcome :=
  (Selection.concat (arguments.map (selectArgument settings tree))).outcome

end OrderLint
