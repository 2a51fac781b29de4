import OrderLint.Files.Path

/-!
# File trees

The files that a run can see from its working directory. An entry of a directory is a file, a link
to another path, or a directory. A file may be barred from being read; a directory may be barred
from having its entries listed, and from being passed through on the way to one of them.

A path is followed component by component. A double dot leads to the directory above, the root being
above itself, and a link is replaced by its target, from the directory that it stands in or from the
root. A path may be taken as it stands, and then a link at its very end is not followed.
-/
namespace OrderLint

structure Access where
  list : Bool := true
  search : Bool := true
  deriving DecidableEq

-- A file without content is one that may not be read.
inductive FileNode where
  | file (content : Option Bytes)
  | link (target : Bytes)
  | directory (access : Access) (entries : List (Bytes × FileNode))

abbrev Entries := List (Bytes × FileNode)

structure Directory where
  access : Access := {}
  entries : Entries := []

def Directory.node (directory : Directory) : FileNode :=
  .directory directory.access directory.entries

structure Location where
  here : Directory
  above : List Directory := []

structure FileTree where
  working : Location
  path : Bytes := utf8 "/"

inductive FileFault where
  | missing
  | notDirectory
  | isDirectory
  | denied
  | tooManyLinks
  deriving DecidableEq

inductive FileAction where
  | inspect
  | inspectLink
  | opening
  | reading
  deriving DecidableEq

structure FileError where
  action : FileAction
  path : Bytes
  fault : FileFault
  deriving DecidableEq

def FileAction.name : FileAction → Bytes
  | .inspect => utf8 "stat"
  | .inspectLink => utf8 "lstat"
  | .opening => utf8 "open"
  | .reading => utf8 "read"

def FileFault.reason : FileFault → Bytes
  | .missing => utf8 "no such file or directory"
  | .notDirectory => utf8 "not a directory"
  | .isDirectory => utf8 "is a directory"
  | .denied => utf8 "permission denied"
  | .tooManyLinks => utf8 "too many levels of symbolic links"

def FileError.message (e : FileError) : Bytes :=
  e.action.name ++ utf8 " " ++ e.path ++ utf8 ": " ++ e.fault.reason

def FileNode.isDirectory : FileNode → Bool
  | .directory _ _ => true
  | _ => false

namespace Entries

def child? (entries : Entries) (name : Bytes) : Option FileNode := List.lookup name entries

def put (name : Bytes) (node : FileNode) : Entries → Entries
  | [] => [(name, node)]
  | entry :: rest =>
    if entry.1 = name then (name, node) :: rest
    else if name < entry.1 then (name, node) :: entry :: rest
    else entry :: put name node rest

def directoryAt (entries : Entries) (name : Bytes) : Directory :=
  match entries.child? name with
  | some (.directory access entries) => ⟨access, entries⟩
  | _ => {}

def add : List Bytes → FileNode → Entries → Entries
  | [], _, entries => entries
  | [name], node, entries => entries.put name node
  | name :: rest, node, entries =>
    entries.put name (.directory (entries.directoryAt name).access
      (add rest node (entries.directoryAt name).entries))

end Entries

namespace Location

def parent (place : Location) : Location :=
  match place.above with
  | [] => place
  | outer :: above => ⟨outer, above⟩

def root (place : Location) : Location := ⟨place.above.getLastD place.here, []⟩

def enter (place : Location) (inner : Directory) : Location := ⟨inner, place.here :: place.above⟩

def start (place : Location) (path : Bytes) : Location :=
  if Path.isRooted path then place.root else place

inductive Reached where
  | place (place : Location)
  | file (content : Option Bytes)
  | link (target : Bytes)

def step (place : Location) (component : Bytes) : Except FileFault Reached :=
  if component = [] then .ok (.place place)
  else if !place.here.access.search then .error .denied
  else if component = utf8 "." then .ok (.place place)
  else if component = utf8 ".." then .ok (.place place.parent)
  else match place.here.entries.child? component with
    | none => .error .missing
    | some (.file content) => .ok (.file content)
    | some (.link target) => .ok (.link target)
    | some (.directory access entries) => .ok (.place (place.enter ⟨access, entries⟩))

/-- Follows components; `jump` goes on where a link leads, and `keep` leaves a last link alone. -/
def follow (keep : Bool) (jump : Location → List Bytes → Except FileFault FileNode) :
    Location → List Bytes → Except FileFault FileNode
  | place, [] => .ok place.here.node
  | place, component :: rest =>
    match place.step component with
    | .error fault => .error fault
    | .ok (.place next) => follow keep jump next rest
    | .ok (.file content) => if rest = [] then .ok (.file content) else .error .notDirectory
    | .ok (.link target) =>
      if keep ∧ rest = [] then .ok (.link target)
      else jump (place.start target) (target.splitAt Path.separator ++ rest)

def resolve (keep : Bool) : Nat → Location → List Bytes → Except FileFault FileNode
  | 0 => follow keep fun _ _ => .error .tooManyLinks
  | links + 1 => follow keep (resolve keep links)

end Location

namespace FileTree

def ofEntries (entries : Entries) : FileTree := ⟨⟨⟨{}, entries⟩, []⟩, utf8 "/"⟩

def linkLimit : Nat := 40

def node (tree : FileTree) (keep : Bool) (path : Bytes) : Except FileFault FileNode :=
  if path = [] then .error .missing
  else (tree.working.start path).resolve keep linkLimit (path.splitAt Path.separator)

def inspect (tree : FileTree) (path : Bytes) : Except FileError FileNode :=
  match tree.node false path with
  | .ok node => .ok node
  | .error fault => .error ⟨.inspect, path, fault⟩

def inspectLink (tree : FileTree) (path : Bytes) : Except FileError FileNode :=
  match tree.node true path with
  | .ok node => .ok node
  | .error fault => .error ⟨.inspectLink, path, fault⟩

def list (tree : FileTree) (path : Bytes) : Except FileError Directory :=
  match tree.node false path with
  | .ok (.directory access entries) =>
    if access.list then .ok ⟨access, entries⟩ else .error ⟨.opening, path, .denied⟩
  | .ok _ => .error ⟨.opening, path, .notDirectory⟩
  | .error fault => .error ⟨.opening, path, fault⟩

def read (tree : FileTree) (path : Bytes) : Except FileError Bytes :=
  match tree.node false path with
  | .ok (.file (some content)) => .ok content
  | .ok (.file none) => .error ⟨.opening, path, .denied⟩
  | .ok (.link _) => .error ⟨.opening, path, .tooManyLinks⟩
  | .ok (.directory access _) =>
    if access.list then .error ⟨.reading, path, .isDirectory⟩
    else .error ⟨.opening, path, .denied⟩
  | .error fault => .error ⟨.opening, path, fault⟩

end FileTree

end OrderLint
