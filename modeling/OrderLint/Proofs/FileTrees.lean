import OrderLint.Files.Tree
import OrderLint.Proofs.Paths

/-!
# What lies below a directory

The nodes at and below a node are listed with the names that lead to them. In a tree whose entries
have proper names in ascending order, each is listed once, and in ascending order of the lists of
names. Such trees are what one gets by adding nodes under proper names.
-/
namespace OrderLint

namespace FileNode

theorem induction {motive : FileNode → Prop} (file : ∀ content, motive (.file content))
    (link : ∀ target, motive (.link target))
    (directory : ∀ access (entries : Entries), (∀ entry ∈ entries, motive entry.2) →
      motive (.directory access entries)) (node : FileNode) : motive node :=
  @FileNode.rec motive (fun entries => ∀ entry ∈ entries, motive entry.2)
    (fun entry => motive entry.2) file link directory (by simp)
    (fun _ _ h hs => List.forall_mem_cons.mpr ⟨h, hs⟩) (fun _ _ h => h) node

/-- The entries of every directory have proper names, in strictly ascending order. -/
inductive WellFormed : FileNode → Prop
  | file (content : Option Bytes) : WellFormed (.file content)
  | link (target : Bytes) : WellFormed (.link target)
  | directory {access : Access} {entries : Entries}
      (names : ∀ entry ∈ entries, Path.IsName entry.1)
      (ascending : entries.Pairwise fun entry other => entry.1 < other.1)
      (nodes : ∀ entry ∈ entries, WellFormed entry.2) : WellFormed (.directory access entries)

mutual

/-- A node and all that lies below it, each with the names that lead to it, in the order in which
they are met: a directory before its entries, and the entries as they are listed. -/
def nodes : FileNode → List (List Bytes × FileNode)
  | .directory access entries => ([], .directory access entries) :: nodesAmong entries
  | node => [([], node)]

def nodesAmong : List (Bytes × FileNode) → List (List Bytes × FileNode)
  | [] => []
  | (name, node) :: rest =>
    (node.nodes.map fun below => (name :: below.1, below.2)) ++ nodesAmong rest

end

/-- The node to which names lead from a node, through directories only. -/
def descend : List Bytes → FileNode → Option FileNode
  | [], node => some node
  | name :: rest, .directory _ entries => (Entries.child? entries name).bind (descend rest)
  | _ :: _, _ => none

theorem nodesAmong_eq_flatMap (entries : Entries) :
    nodesAmong entries = entries.flatMap fun entry =>
      entry.2.nodes.map fun below => (entry.1 :: below.1, below.2) := by
  induction entries with
  | nil => rfl
  | cons entry rest ih => rw [nodesAmong, ih, List.flatMap_cons]

theorem mem_nodesAmong {entries : Entries} {relative : List Bytes} {node : FileNode} :
    (relative, node) ∈ nodesAmong entries ↔ ∃ entry ∈ entries, ∃ rest,
      relative = entry.1 :: rest ∧ (rest, node) ∈ entry.2.nodes := by
  rw [nodesAmong_eq_flatMap, List.mem_flatMap]
  constructor
  · intro h
    obtain ⟨entry, hentry, hmem⟩ := h
    obtain ⟨below, hbelow, heq⟩ := List.mem_map.mp hmem
    cases heq
    exact ⟨entry, hentry, below.1, rfl, hbelow⟩
  · intro h
    obtain ⟨entry, hentry, rest, rfl, hrest⟩ := h
    exact ⟨entry, hentry, List.mem_map.mpr ⟨(rest, node), hrest, rfl⟩⟩

theorem WellFormed.pairwise_nodes {node : FileNode} (h : node.WellFormed) :
    node.nodes.Pairwise fun below other => below.1 < other.1 := by
  induction h with
  | file content => simp [nodes]
  | link target => simp [nodes]
  | @directory access entries names ascending nodes ih =>
    rw [FileNode.nodes, List.pairwise_cons]
    refine ⟨?_, ?_⟩
    · intro below hbelow
      obtain ⟨entry, -, rest, hrest, -⟩ := mem_nodesAmong.mp hbelow
      rw [hrest]
      exact List.nil_lt_cons _ _
    rw [nodesAmong_eq_flatMap, List.pairwise_flatMap]
    refine ⟨?_, ?_⟩
    · intro entry hentry
      rw [List.pairwise_map]
      refine (ih entry hentry).imp ?_
      intro below other hlt
      exact List.cons_lt_cons_iff.mpr (.inr ⟨rfl, hlt⟩)
    · refine ascending.imp ?_
      intro entry other hlt first hfirst second hsecond
      obtain ⟨first, -, rfl⟩ := List.mem_map.mp hfirst
      obtain ⟨second, -, rfl⟩ := List.mem_map.mp hsecond
      exact List.cons_lt_cons_iff.mpr (.inl hlt)

end FileNode

namespace Entries

variable {entries : Entries}

theorem child?_eq_some_iff (h : entries.Pairwise fun entry other => entry.1 < other.1)
    (name : Bytes) (node : FileNode) :
    entries.child? name = some node ↔ (name, node) ∈ entries := by
  induction entries with
  | nil => simp [child?]
  | cons entry rest ih =>
    obtain ⟨hentry, hrest⟩ := List.pairwise_cons.mp h
    obtain ⟨first, firstNode⟩ := entry
    have hlookup := ih hrest
    simp only [child?, List.lookup_cons, List.mem_cons, Prod.mk.injEq] at hlookup ⊢
    by_cases hname : name = first
    · subst hname
      have hnot : (name, node) ∉ rest := fun hmem => List.lt_irrefl name (hentry (name, node) hmem)
      simp [hnot, eq_comm]
    · have hbeq : (name == first) = false := beq_eq_false_iff_ne.mpr hname
      simp only [hbeq, hname, hlookup, false_and, false_or]

end Entries

namespace FileNode

theorem WellFormed.child?_eq_some_iff {access : Access} {entries : Entries}
    (h : (FileNode.directory access entries).WellFormed) (name : Bytes) (node : FileNode) :
    entries.child? name = some node ↔ (name, node) ∈ entries := by
  cases h with
  | directory names ascending nodes => exact Entries.child?_eq_some_iff ascending name node

theorem WellFormed.isName {access : Access} {entries : Entries}
    (h : (FileNode.directory access entries).WellFormed) {name : Bytes} {node : FileNode}
    (hentry : (name, node) ∈ entries) : Path.IsName name := by
  cases h with
  | directory names ascending nodes => exact names (name, node) hentry

theorem WellFormed.of_mem {access : Access} {entries : Entries}
    (h : (FileNode.directory access entries).WellFormed) {name : Bytes} {node : FileNode}
    (hentry : (name, node) ∈ entries) : node.WellFormed := by
  cases h with
  | directory names ascending nodes => exact nodes (name, node) hentry

theorem WellFormed.mem_nodes_iff {node : FileNode} (h : node.WellFormed) (relative : List Bytes)
    (found : FileNode) : (relative, found) ∈ node.nodes ↔ node.descend relative = some found := by
  induction relative generalizing node with
  | nil =>
    cases node with
    | file content => simp [nodes, descend, eq_comm]
    | link target => simp [nodes, descend, eq_comm]
    | directory access entries => simp [nodes, descend, mem_nodesAmong, eq_comm]
  | cons name rest ih =>
    cases node with
    | file content => simp [nodes, descend]
    | link target => simp [nodes, descend]
    | directory access entries =>
      have hmem : (name :: rest, found) ∈ (FileNode.directory access entries).nodes ↔
          ∃ inner, (name, inner) ∈ entries ∧ (rest, found) ∈ inner.nodes := by
        simp [nodes, mem_nodesAmong]
      rw [hmem, descend, Option.bind_eq_some_iff]
      refine exists_congr fun inner => ?_
      rw [h.child?_eq_some_iff]
      exact and_congr_right fun hinner => ih (h.of_mem hinner)

theorem WellFormed.isName_of_descend {node found : FileNode} (h : node.WellFormed)
    {relative : List Bytes} (hfound : node.descend relative = some found) :
    ∀ name ∈ relative, Path.IsName name := by
  induction relative generalizing node with
  | nil => simp
  | cons name rest ih =>
    cases node with
    | file content => simp [descend] at hfound
    | link target => simp [descend] at hfound
    | directory access entries =>
      obtain ⟨inner, hinner, hrest⟩ := Option.bind_eq_some_iff.mp hfound
      have hentry := (h.child?_eq_some_iff name inner).mp hinner
      exact List.forall_mem_cons.mpr ⟨h.isName hentry, ih (h.of_mem hentry) hrest⟩

end FileNode

namespace Directory

def WellFormed (directory : Directory) : Prop := directory.node.WellFormed

theorem node_injective {directory other : Directory} (h : directory.node = other.node) :
    directory = other := by
  cases directory
  cases other
  simpa [node] using h

end Directory

namespace Entries

section Building

variable {entries : Entries}

theorem mem_put {name : Bytes} {node : FileNode} {entry : Bytes × FileNode}
    (h : entry ∈ entries.put name node) : entry = (name, node) ∨ entry ∈ entries := by
  induction entries with
  | nil => exact .inl (by simpa [put] using h)
  | cons first rest ih =>
    rw [put] at h
    split_ifs at h with heq hlt
    · rcases List.mem_cons.mp h with h | h
      · exact .inl h
      · exact .inr (List.mem_cons_of_mem _ h)
    · rcases List.mem_cons.mp h with h | h
      · exact .inl h
      · exact .inr h
    · rcases List.mem_cons.mp h with rfl | h
      · exact .inr List.mem_cons_self
      · rcases ih h with h | h
        · exact .inl h
        · exact .inr (List.mem_cons_of_mem _ h)

theorem put_ascending (h : entries.Pairwise fun entry other => entry.1 < other.1) (name : Bytes)
    (node : FileNode) : (entries.put name node).Pairwise fun entry other => entry.1 < other.1 := by
  induction entries with
  | nil => simp [put]
  | cons first rest ih =>
    obtain ⟨hfirst, hrest⟩ := List.pairwise_cons.mp h
    rw [put]
    split_ifs with heq hlt
    · subst heq
      exact List.pairwise_cons.mpr ⟨hfirst, hrest⟩
    · refine List.pairwise_cons.mpr ⟨?_, h⟩
      intro entry hentry
      rcases List.mem_cons.mp hentry with rfl | hentry
      · exact hlt
      · exact List.lt_trans hlt (hfirst entry hentry)
    · refine List.pairwise_cons.mpr ⟨?_, ih hrest⟩
      intro entry hentry
      rcases mem_put hentry with rfl | hentry
      · exact Std.lt_of_le_of_ne hlt heq
      · exact hfirst entry hentry

theorem wellFormed_nil (access : Access) : (FileNode.directory access []).WellFormed :=
  .directory (by simp) .nil (by simp)

theorem wellFormed_put {access : Access} (h : (FileNode.directory access entries).WellFormed)
    {name : Bytes} (hname : Path.IsName name) {node : FileNode} (hnode : node.WellFormed) :
    (FileNode.directory access (entries.put name node)).WellFormed := by
  cases h with
  | directory names ascending nodes =>
    refine .directory ?_ (put_ascending ascending name node) ?_
    · intro entry hentry
      rcases mem_put hentry with rfl | hentry
      · exact hname
      · exact names entry hentry
    · intro entry hentry
      rcases mem_put hentry with rfl | hentry
      · exact hnode
      · exact nodes entry hentry

theorem wellFormed_directoryAt {access : Access}
    (h : (FileNode.directory access entries).WellFormed) (name : Bytes) :
    (entries.directoryAt name).WellFormed := by
  rw [directoryAt]
  split
  · rename_i inner hchild
    exact h.of_mem ((h.child?_eq_some_iff name _).mp hchild)
  · exact wellFormed_nil _

theorem wellFormed_add {access : Access} (h : (FileNode.directory access entries).WellFormed)
    {components : List Bytes} (hnames : ∀ name ∈ components, Path.IsName name) {node : FileNode}
    (hnode : node.WellFormed) :
    (FileNode.directory access (entries.add components node)).WellFormed := by
  fun_induction Entries.add components node entries generalizing access with
  | case1 => exact h
  | case2 name => exact wellFormed_put h (hnames name (by simp)) hnode
  | case3 name rest node entries hrest ih =>
    obtain ⟨hname, hnames⟩ := List.forall_mem_cons.mp hnames
    exact wellFormed_put h hname (ih (wellFormed_directoryAt h name) hnames hnode)

theorem wellFormed_foldr_add (access : Access) {files : List (List Bytes × FileNode)}
    (h : ∀ file ∈ files, (∀ name ∈ file.1, Path.IsName name) ∧ file.2.WellFormed) :
    (FileNode.directory access
      (files.foldr (fun file entries => add file.1 file.2 entries) [])).WellFormed := by
  induction files with
  | nil => exact wellFormed_nil access
  | cons file rest ih =>
    obtain ⟨hfile, hrest⟩ := List.forall_mem_cons.mp h
    exact wellFormed_add (ih hrest) hfile.1 hfile.2

end Building

end Entries

end OrderLint
