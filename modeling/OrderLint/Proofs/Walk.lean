import OrderLint.Files.Selection
import OrderLint.Proofs.PathResolution
import OrderLint.Proofs.Sequence

/-!
# The walk over a directory

The walk decides at every node whether it goes on. What it does at one node depends on the names
that lead there: nothing below a directory that is not entered, a record at an excluded path, an
error at a directory that is entered and cannot be listed, and a file with one of the extensions.
The walk is what it does at the nodes one after the other, up to the first error. So it fails with
the error of the first directory that it enters and cannot list, and else selects the files below
the directory by a condition on the names that lead to them, in their order.
-/
namespace OrderLint

namespace Selection

theorem mk_append (files : List Bytes) (log : List LogRecord) (selection : Selection) :
    (⟨files, log, none⟩ : Selection) ++ selection =
      ⟨files ++ selection.files, log ++ selection.log, selection.failure⟩ := rfl

@[simp] theorem empty_append (selection : Selection) : ({} : Selection) ++ selection = selection :=
  rfl

@[simp] theorem append_empty (selection : Selection) :
    selection ++ ({} : Selection) = selection := by
  obtain ⟨files, log, failure⟩ := selection
  cases failure with
  | none => simp [mk_append]
  | some e => rfl

@[simp] theorem failed_append (e : FileError) (selection : Selection) :
    failed e ++ selection = failed e := rfl

theorem append_assoc (first second third : Selection) :
    first ++ second ++ third = first ++ (second ++ third) := by
  obtain ⟨files, log, failure⟩ := first
  obtain ⟨files', log', failure'⟩ := second
  cases failure with
  | some e => rfl
  | none =>
    cases failure' with
    | some e => rfl
    | none => simp [mk_append]

theorem failure_append (first second : Selection) :
    (first ++ second).failure = first.failure.or second.failure := by
  obtain ⟨files, log, failure⟩ := first
  cases failure <;> rfl

theorem files_append {first : Selection} (h : first.failure = none) (second : Selection) :
    (first ++ second).files = first.files ++ second.files := by
  obtain ⟨files, log, failure⟩ := first
  cases h
  rfl

theorem concat_append (first second : List Selection) :
    concat (first ++ second) = concat first ++ concat second := by
  induction first with
  | nil => rfl
  | cons selection rest ih => rw [List.cons_append, concat, concat, ih, append_assoc]

theorem concat_eq_empty {selections : List Selection} (h : ∀ s ∈ selections, s = {}) :
    concat selections = {} := by
  induction selections with
  | nil => rfl
  | cons first rest ih =>
    obtain ⟨rfl, hrest⟩ := List.forall_mem_cons.mp h
    rw [concat, ih hrest, empty_append]

theorem concat_map_flatMap {α β : Type*} (f : β → Selection) (g : α → List β) (xs : List α) :
    concat ((xs.flatMap g).map f) = concat (xs.map fun x => concat ((g x).map f)) := by
  induction xs with
  | nil => rfl
  | cons x rest ih =>
    rw [List.flatMap_cons, List.map_append, concat_append, ih, List.map_cons, concat]

theorem failure_concat (selections : List Selection) :
    (concat selections).failure = selections.findSome? (·.failure) := by
  induction selections with
  | nil => rfl
  | cons first rest ih =>
    rw [concat, failure_append, ih, List.findSome?_cons]
    cases first.failure <;> rfl

theorem files_concat {selections : List Selection} (h : ∀ s ∈ selections, s.failure = none) :
    (concat selections).files = selections.flatMap (·.files) := by
  induction selections with
  | nil => rfl
  | cons first rest ih =>
    obtain ⟨hfirst, hrest⟩ := List.forall_mem_cons.mp h
    rw [concat, files_append hfirst, ih hrest, List.flatMap_cons]

end Selection

theorem isHidden_eq_false_iff (name : Bytes) : isHidden name = false ↔ ¬ utf8 "." <+: name := by
  have hdot : utf8 "." = [46] := by decide
  rw [hdot, Bool.eq_false_iff, not_iff_not]
  cases name with
  | nil => simp [isHidden]
  | cons b rest => simp [isHidden, List.cons_prefix_cons, @eq_comm _ b]

/-- The walk from `argument` goes on below the directory to which the names `relative` lead: no path
on the way is excluded, the argument and the directory included, and no name is hidden. -/
def Entered (settings : Settings) (argument : Bytes) (relative : List Bytes) : Prop :=
  (∀ upTo, upTo <+: relative → isExcluded settings.exclude (Path.under argument upTo) = false) ∧
    ∀ name ∈ relative, isHidden name = false

instance (settings : Settings) (argument : Bytes) : DecidablePred (Entered settings argument) :=
  fun relative => decidable_of_iff ((∀ upTo ∈ relative.inits,
    isExcluded settings.exclude (Path.under argument upTo) = false) ∧
      ∀ name ∈ relative, isHidden name = false) (by simp only [List.mem_inits, Entered])

section Entered

variable {settings : Settings} {argument : Bytes} {relative : List Bytes}

theorem entered_nil_iff :
    Entered settings argument [] ↔ isExcluded settings.exclude argument = false := by
  simp [Entered]

theorem entered_concat_iff (name : Bytes) :
    Entered settings argument (relative ++ [name]) ↔ Entered settings argument relative ∧
      isExcluded settings.exclude (Path.under argument (relative ++ [name])) = false ∧
        isHidden name = false := by
  simp only [Entered, List.prefix_concat_iff, List.mem_append, List.mem_singleton]
  constructor
  · intro h
    exact ⟨⟨fun upTo hupTo => h.1 upTo (.inr hupTo), fun n hn => h.2 n (.inl hn)⟩,
      h.1 _ (.inl rfl), h.2 name (.inr rfl)⟩
  · intro h
    refine ⟨?_, ?_⟩
    · intro upTo hupTo
      rcases hupTo with rfl | hupTo
      · exact h.2.1
      · exact h.1.1 upTo hupTo
    · intro n hn
      rcases hn with hn | rfl
      · exact h.1.2 n hn
      · exact h.2.2

theorem Entered.of_append {more : List Bytes} (h : Entered settings argument (relative ++ more)) :
    Entered settings argument relative :=
  ⟨fun upTo hupTo => h.1 upTo (hupTo.trans (List.prefix_append _ _)),
    fun name hname => h.2 name (List.mem_append_left _ hname)⟩

end Entered

def visit (settings : Settings) (tree : FileTree) (argument : Bytes)
    (below : List Bytes × FileNode) : Selection :=
  if Entered settings argument below.1.dropLast then
    if below.2.isDirectory then
      selectDirectory settings (isHidden (below.1.getLastD [])) (Path.under argument below.1)
        (tree.list (Path.under argument below.1)) fun _ => {}
    else selectLeaf settings (Path.under argument below.1)
  else {}

section Walk

variable {settings : Settings} {tree : FileTree} {argument : Bytes}

theorem visit_eq_empty {relative rest : List Bytes} (h : ¬ Entered settings argument relative)
    (hrest : rest ≠ []) (node : FileNode) :
    visit settings tree argument (relative ++ rest, node) = {} := by
  refine if_neg fun hentered => h ?_
  rw [List.dropLast_append_of_ne_nil hrest] at hentered
  exact hentered.of_append

theorem visit_concat {relative : List Bytes} (h : Entered settings argument relative)
    (name : Bytes) (access : Access) (entries : Entries) :
    visit settings tree argument (relative ++ [name], .directory access entries) =
      selectDirectory settings (isHidden name) (Path.under argument (relative ++ [name]))
        (tree.list (Path.under argument (relative ++ [name]))) fun _ => {} := by
  simp [visit, h, FileNode.isDirectory]

theorem selectEntries_eq_concat (reachable : Bool) (path : Bytes) (entries : Entries) :
    selectEntries settings reachable path entries = .concat (entries.map fun entry =>
      selectNode settings reachable (Path.join path entry.1) entry.1 entry.2) := by
  induction entries with
  | nil => rfl
  | cons entry rest ih => rw [selectEntries, ih, List.map_cons, Selection.concat]

theorem selectNode_leaf {node : FileNode} (h : node.isDirectory = false) (reachable : Bool)
    (path name : Bytes) :
    selectNode settings reachable path name node = selectLeaf settings path := by
  cases node with
  | file content => simp [selectNode]
  | link target => simp [selectNode]
  | directory access entries => cases h

theorem selectEntry_leaf {node : FileNode} (h : node.isDirectory = false) (path name : Bytes) :
    selectEntry settings tree path name node = selectLeaf settings path := by
  cases node with
  | file content => simp [selectEntry]
  | link target => simp [selectEntry]
  | directory access entries => cases h

/-- A directory that is not entered comes to the same whatever lies below it. -/
theorem selectDirectory_of_not {hidden : Bool} {path : Bytes}
    (h : ¬ (isExcluded settings.exclude path = false ∧ hidden = false))
    (listed : Except FileError Directory) (below other : Directory → Selection) :
    selectDirectory settings hidden path listed below =
      selectDirectory settings hidden path listed other := by
  unfold selectDirectory
  split_ifs with hexcluded hhidden
  · rfl
  · rfl
  · exact absurd ⟨by simpa using hexcluded, by simpa using hhidden⟩ h

theorem selectDirectory_error {hidden : Bool} {path : Bytes}
    (hexcluded : isExcluded settings.exclude path = false) (hhidden : hidden = false)
    (e : FileError) (below : Directory → Selection) :
    selectDirectory settings hidden path (.error e) below = .failed e := by
  simp [selectDirectory, hexcluded, hhidden]

theorem selectDirectory_ok {hidden : Bool} {path : Bytes}
    (hexcluded : isExcluded settings.exclude path = false) (hhidden : hidden = false)
    (directory : Directory) (below : Directory → Selection) :
    selectDirectory settings hidden path (.ok directory) below = below directory := by
  simp [selectDirectory, hexcluded, hhidden]

theorem Path.clean_under {relative : List Bytes} (h : relative ≠ []) :
    Path.clean (Path.under argument relative) = Path.under argument relative := by
  rw [Path.under, if_neg h]
  exact Path.clean_clean _

theorem Path.under_ne_nil (hargument : argument ≠ []) (relative : List Bytes) :
    Path.under argument relative ≠ [] := by
  rw [Path.under]
  split_ifs
  · exact hargument
  · exact Path.clean_ne_nil _

/-- Below a directory that is entered, the walk is what it does at the nodes one after the other. -/
theorem selectNode_eq_concat (hargument : argument ≠ []) {node : FileNode} (hnode : node.WellFormed)
    {relative : List Bytes} (hentered : Entered settings argument relative) (name : Bytes)
    (reachable : Bool)
    (hlist : ∀ access entries, node = .directory access entries →
      tree.list (Path.under argument (relative ++ [name])) =
        if reachable && access.list then .ok ⟨access, entries⟩
        else .error ⟨.opening, Path.under argument (relative ++ [name]), .denied⟩) :
    selectNode settings reachable (Path.under argument (relative ++ [name])) name node =
      .concat (node.nodes.map fun below =>
        visit settings tree argument (relative ++ name :: below.1, below.2)) := by
  induction hnode generalizing relative name reachable with
  | file content =>
    rw [selectNode_leaf rfl]
    simp [FileNode.nodes, Selection.concat, visit, hentered, FileNode.isDirectory]
  | link target =>
    rw [selectNode_leaf rfl]
    simp [FileNode.nodes, Selection.concat, visit, hentered, FileNode.isDirectory]
  | @directory access entries names ascending nodes ih =>
    have hlisted := hlist access entries rfl
    rw [selectNode, ← hlisted, FileNode.nodes, List.map_cons, Selection.concat,
      visit_concat hentered]
    by_cases hgoes : isExcluded settings.exclude (Path.under argument (relative ++ [name])) =
        false ∧ isHidden name = false
    · obtain ⟨hexcluded, hhidden⟩ := hgoes
      cases hreach : reachable && access.list with
      | false =>
        rw [hreach, if_neg Bool.false_ne_true] at hlisted
        rw [hlisted, selectDirectory_error hexcluded hhidden,
          selectDirectory_error hexcluded hhidden, Selection.failed_append]
      | true =>
        rw [hreach, if_pos rfl] at hlisted
        rw [hlisted, selectDirectory_ok hexcluded hhidden, selectDirectory_ok hexcluded hhidden,
          Selection.empty_append, selectEntries_eq_concat, FileNode.nodesAmong_eq_flatMap,
          Selection.concat_map_flatMap]
        congr 1
        apply List.map_congr_left
        intro entry hentry
        have hinner := (entered_concat_iff name).mpr ⟨hentered, hexcluded, hhidden⟩
        have hpath := Path.under_ne_nil hargument (relative ++ [name])
        have hplace := FileTree.node_of_list hlisted
        rw [← Path.clean_under (by simp)] at hplace
        rw [Path.join_under hargument, ih entry hentry hinner entry.1 access.search ?_,
          List.map_map]
        · simp [Function.comp_def]
        · rw [← Path.join_under hargument]
          exact FileTree.list_entry hpath hplace (.directory names ascending nodes) hentry
    · -- Nothing is done at the nodes below.
      have hskipped : ¬ Entered settings argument (relative ++ [name]) :=
        fun h => hgoes ((entered_concat_iff name).mp h).2
      have hbelow : Selection.concat ((FileNode.nodesAmong entries).map fun below =>
          visit settings tree argument (relative ++ name :: below.1, below.2)) = {} := by
        apply Selection.concat_eq_empty
        intro selection hselection
        obtain ⟨⟨rest, found⟩, hmem, rfl⟩ := List.mem_map.mp hselection
        obtain ⟨entry, -, rest, rfl, -⟩ := FileNode.mem_nodesAmong.mp hmem
        have hvisit : visit settings tree argument (relative ++ [name] ++ entry.1 :: rest, found) =
            {} := visit_eq_empty hskipped (List.cons_ne_nil entry.1 rest) found
        simpa using hvisit
      rw [hbelow, Selection.append_empty]
      exact selectDirectory_of_not hgoes _ _ _

theorem selectDirectory_congr {hidden : Bool} {path : Bytes} {listed : Except FileError Directory}
    {below other : Directory → Selection}
    (h : ∀ directory, listed = .ok directory → below directory = other directory) :
    selectDirectory settings hidden path listed below =
      selectDirectory settings hidden path listed other := by
  cases listed with
  | error e => rfl
  | ok directory => simp only [selectDirectory, h directory rfl]

theorem selectEntry_eq_selectNode {path : Bytes} (name : Bytes) {node : FileNode} {reachable : Bool}
    (hlist : ∀ access entries, node = .directory access entries → tree.list path =
      if reachable && access.list then .ok ⟨access, entries⟩
      else .error ⟨.opening, path, .denied⟩) :
    selectEntry settings tree path name node = selectNode settings reachable path name node := by
  cases node with
  | file content => rw [selectEntry_leaf rfl, selectNode_leaf rfl]
  | link target => rw [selectEntry_leaf rfl, selectNode_leaf rfl]
  | directory access entries =>
    rw [selectEntry, selectNode, ← hlist access entries rfl]
    apply selectDirectory_congr
    intro directory hdirectory
    rw [hlist access entries rfl] at hdirectory
    split_ifs at hdirectory
    cases hdirectory
    rfl

section LeadsTo

variable {directory : Directory} (h : tree.LeadsTo argument directory)
  (hdirectory : directory.WellFormed)

include h hdirectory

theorem walk_eq_concat (hexcluded : isExcluded settings.exclude argument = false) :
    walk settings tree argument =
      .concat (directory.node.nodes.map (visit settings tree argument)) := by
  have hentered := entered_nil_iff.mpr hexcluded
  have hvisit : visit settings tree argument ([], directory.node) =
      selectDirectory settings false argument (tree.list argument) fun _ => {} := by
    simp [visit, hentered, Directory.node, FileNode.isDirectory, isHidden]
  have hwalk : walk settings tree argument =
      selectDirectory settings false argument (tree.list argument) fun listed =>
        .concat (listed.entries.map fun entry =>
          selectEntry settings tree (Path.join argument entry.1) entry.1 entry.2) := by
    rw [walk, h.itself]
    rfl
  rw [hwalk, Directory.node, FileNode.nodes, List.map_cons, Selection.concat, ← Directory.node,
    hvisit]
  cases hlisted : tree.list argument with
  | error e =>
    rw [selectDirectory_error hexcluded rfl, selectDirectory_error hexcluded rfl,
      Selection.failed_append]
  | ok listed =>
    obtain rfl : listed = directory := by
      rw [h.list_eq] at hlisted
      split_ifs at hlisted
      exact (Except.ok.inj hlisted).symm
    rw [selectDirectory_ok hexcluded rfl, selectDirectory_ok hexcluded rfl, Selection.empty_append,
      FileNode.nodesAmong_eq_flatMap, Selection.concat_map_flatMap]
    congr 1
    apply List.map_congr_left
    intro entry hentry
    have hjoin := Path.join_under h.ne_nil [] entry.1
    rw [Path.under_nil] at hjoin
    have hlist := FileTree.list_entry h.ne_nil h.node_clean hdirectory hentry
    rw [selectEntry_eq_selectNode entry.1 hlist]
    rw [hjoin] at hlist ⊢
    rw [selectNode_eq_concat h.ne_nil (hdirectory.of_mem hentry) hentered entry.1 _ hlist,
      List.map_map]
    rfl

omit h hdirectory in
theorem visit_of_excluded (hexcluded : isExcluded settings.exclude argument = true)
    (below : List Bytes × FileNode) : visit settings tree argument below = {} := by
  refine if_neg fun hentered => ?_
  have hargument := hentered.1 [] (List.nil_prefix)
  rw [Path.under_nil, hexcluded] at hargument
  cases hargument

omit hdirectory in
theorem walk_of_excluded (hexcluded : isExcluded settings.exclude argument = true) :
    walk settings tree argument = .skipped argument := by
  rw [walk, h.itself]
  simp [Directory.node, selectDirectory, hexcluded]

theorem failure_walk : (walk settings tree argument).failure =
    directory.node.nodes.findSome? fun below => (visit settings tree argument below).failure := by
  cases hexcluded : isExcluded settings.exclude argument with
  | false =>
    rw [walk_eq_concat h hdirectory hexcluded, Selection.failure_concat, List.findSome?_map]
    rfl
  | true =>
    rw [walk_of_excluded h hexcluded, eq_comm, List.findSome?_eq_none_iff.mpr]
    · rfl
    · intro below _
      rw [visit_of_excluded hexcluded]

theorem files_walk (hfailure : (walk settings tree argument).failure = none) :
    (walk settings tree argument).files =
      directory.node.nodes.flatMap fun below => (visit settings tree argument below).files := by
  cases hexcluded : isExcluded settings.exclude argument with
  | false =>
    rw [failure_walk h hdirectory, List.findSome?_eq_none_iff] at hfailure
    rw [walk_eq_concat h hdirectory hexcluded,
      Selection.files_concat (List.forall_mem_map.mpr hfailure), List.flatMap_map]
  | true =>
    rw [walk_of_excluded h hexcluded]
    simp [visit_of_excluded hexcluded, Selection.skipped]

end LeadsTo

theorem failure_selectLeaf (path : Bytes) : (selectLeaf settings path).failure = none := by
  rw [selectLeaf]
  split_ifs <;> rfl

theorem failure_selectDirectory_eq_some_iff {hidden : Bool} {path : Bytes}
    {listed : Except FileError Directory} {e : FileError} :
    (selectDirectory settings hidden path listed fun _ => {}).failure = some e ↔
      isExcluded settings.exclude path = false ∧ hidden = false ∧ listed = .error e := by
  cases hexcluded : isExcluded settings.exclude path with
  | true => simp [selectDirectory, hexcluded, Selection.skipped]
  | false =>
    cases hidden with
    | true => simp [selectDirectory, hexcluded]
    | false =>
      cases listed with
      | error fault => simp [selectDirectory_error hexcluded, Selection.failed]
      | ok directory => simp [selectDirectory_ok hexcluded]

theorem failure_visit_eq_some_iff {relative : List Bytes} {node : FileNode} {e : FileError} :
    (visit settings tree argument (relative, node)).failure = some e ↔
      node.isDirectory = true ∧ Entered settings argument relative ∧
        tree.list (Path.under argument relative) = .error e := by
  -- A directory is entered when the one above it is, and it is neither excluded nor hidden.
  have hentered : Entered settings argument relative ↔
      Entered settings argument relative.dropLast ∧
        isExcluded settings.exclude (Path.under argument relative) = false ∧
          isHidden (relative.getLastD []) = false := by
    rcases List.eq_nil_or_concat' relative with rfl | ⟨upTo, name, rfl⟩
    · simp [entered_nil_iff, isHidden]
    · simp [entered_concat_iff]
  rw [hentered, visit]
  by_cases habove : Entered settings argument relative.dropLast
  · cases node.isDirectory with
    | true => simp [habove, failure_selectDirectory_eq_some_iff, and_assoc]
    | false => simp [habove, failure_selectLeaf]
  · simp [habove]

theorem files_selectDirectory (hidden : Bool) (path : Bytes)
    (listed : Except FileError Directory) :
    (selectDirectory settings hidden path listed fun _ => {}).files = [] := by
  unfold selectDirectory
  split_ifs
  · rfl
  · rfl
  · cases listed <;> rfl

def Taken (settings : Settings) (argument : Bytes) (below : List Bytes × FileNode) : Prop :=
  below.2.isDirectory = false ∧ Entered settings argument below.1.dropLast ∧
    isExcluded settings.exclude (Path.under argument below.1) = false ∧
      Path.hasExtension (Path.under argument below.1) settings.extensions = true

instance : DecidablePred (Taken settings argument) :=
  fun _ => inferInstanceAs (Decidable (_ ∧ _ ∧ _ ∧ _))

theorem files_visit (below : List Bytes × FileNode) :
    (visit settings tree argument below).files =
      if Taken settings argument below then [Path.under argument below.1] else [] := by
  rw [visit]
  by_cases habove : Entered settings argument below.1.dropLast
  · cases hnode : below.2.isDirectory with
    | true => simp [habove, hnode, Taken, files_selectDirectory]
    | false =>
      rw [if_pos habove, if_neg Bool.false_ne_true, selectLeaf]
      cases hexcluded : isExcluded settings.exclude (Path.under argument below.1) with
      | true => simp [Taken, hexcluded, Selection.skipped]
      | false =>
        cases hextension : Path.hasExtension (Path.under argument below.1) settings.extensions with
        | true => simp [Taken, hnode, habove, hexcluded, hextension]
        | false => simp [Taken, hextension]
  · simp [habove, Taken]

end Walk

/-! ## Where the walk fails -/

/-- The error is that of listing a directory at or below a path. -/
def FileError.IsBelow (e : FileError) (path : Bytes) : Prop :=
  e.action = .opening ∧ ∃ relative, (∀ name ∈ relative, Path.IsName name) ∧
    e.path = Path.under path relative

section Below

variable {settings : Settings} {tree : FileTree} {path : Bytes} {e : FileError}

theorem FileError.isBelow_self (h : e.action = .opening) (hpath : e.path = path) :
    e.IsBelow path :=
  ⟨h, [], by simp, hpath⟩

theorem FileError.IsBelow.of_join (hpath : path ≠ []) {name : Bytes} (hname : Path.IsName name)
    (h : e.IsBelow (Path.join path name)) : e.IsBelow path := by
  obtain ⟨haction, relative, hrelative, heq⟩ := h
  refine ⟨haction, name :: relative, List.forall_mem_cons.mpr ⟨hname, hrelative⟩, ?_⟩
  rw [heq, Path.join, if_neg hpath, Path.under, Path.under, if_neg (List.cons_ne_nil name relative)]
  split_ifs with hnil
  · simp [hnil, Bytes.joined]
  · obtain ⟨next, rest, rfl⟩ := List.exists_cons_of_ne_nil hnil
    have hne : path ++ Path.separator :: name ≠ [] := by simp
    rw [Path.clean_append_clean hne]
    simp [Bytes.joined]

theorem FileTree.list_error (h : tree.list path = .error e) :
    e.action = .opening ∧ e.path = path := by
  rw [FileTree.list] at h
  split at h
  · split_ifs at h
    cases h
    exact ⟨rfl, rfl⟩
  · cases h
    exact ⟨rfl, rfl⟩
  · cases h
    exact ⟨rfl, rfl⟩

theorem FileTree.isBelow_of_list (h : tree.list path = .error e) : e.IsBelow path :=
  FileError.isBelow_self (FileTree.list_error h).1 (FileTree.list_error h).2

theorem FileTree.list_path (h : tree.list path = .error e) : tree.list e.path = .error e := by
  rw [(FileTree.list_error h).2, h]

theorem FileTree.wellFormed_of_list (htree : tree.working.WellFormed) {directory : Directory}
    (h : tree.list path = .ok directory) : directory.WellFormed :=
  (htree.start path).of_leads (FileTree.leads_of_node (FileTree.node_of_list h))

theorem failure_selectDirectory_cases {hidden : Bool} {listed : Except FileError Directory}
    {below : Directory → Selection}
    (h : (selectDirectory settings hidden path listed below).failure = some e) :
    listed = .error e ∨ isExcluded settings.exclude path = false ∧
      ∃ directory, listed = .ok directory ∧ (below directory).failure = some e := by
  unfold selectDirectory at h
  split_ifs at h with hexcluded hhidden
  · cases h
  · cases listed with
    | error fault =>
      cases h
      exact .inl rfl
    | ok directory => exact .inr ⟨by simpa using hexcluded, directory, rfl, h⟩

theorem exists_of_failure_concat {α : Type*} {f : α → Selection} {xs : List α}
    (h : (Selection.concat (xs.map f)).failure = some e) : ∃ x ∈ xs, (f x).failure = some e := by
  rw [Selection.failure_concat, List.findSome?_map] at h
  exact List.exists_of_findSome?_eq_some h

theorem isBelow_of_selectNode {node : FileNode} (hnode : node.WellFormed) {reachable : Bool}
    {name : Bytes} (hpath : path ≠ [])
    (h : (selectNode settings reachable path name node).failure = some e) : e.IsBelow path := by
  induction hnode generalizing reachable path name with
  | file content =>
    rw [selectNode_leaf rfl, failure_selectLeaf] at h
    cases h
  | link target =>
    rw [selectNode_leaf rfl, failure_selectLeaf] at h
    cases h
  | directory names ascending nodes ih =>
    rw [selectNode] at h
    rcases failure_selectDirectory_cases h with hlisted | ⟨-, directory, -, hbelow⟩
    · split_ifs at hlisted
      cases hlisted
      exact FileError.isBelow_self rfl rfl
    · rw [selectEntries_eq_concat] at hbelow
      obtain ⟨entry, hentry, hfailure⟩ := exists_of_failure_concat hbelow
      exact (ih entry hentry (Path.join_ne_nil path entry.1) hfailure).of_join hpath
        (names entry hentry)

theorem isBelow_of_entries {directory : Directory} (hdirectory : directory.WellFormed)
    {f : Bytes × FileNode → Selection} (hpath : path ≠ [])
    (hf : ∀ entry ∈ directory.entries, (f entry).failure = some e →
      e.IsBelow (Path.join path entry.1))
    (h : (Selection.concat (directory.entries.map f)).failure = some e) : e.IsBelow path := by
  obtain ⟨entry, hentry, hfailure⟩ := exists_of_failure_concat h
  exact (hf entry hentry hfailure).of_join hpath (hdirectory.isName hentry)

theorem isBelow_of_selectEntry (htree : tree.working.WellFormed) {name : Bytes} (node : FileNode)
    (hpath : path ≠ []) (h : (selectEntry settings tree path name node).failure = some e) :
    e.IsBelow path := by
  cases node with
  | file content =>
    rw [selectEntry_leaf rfl, failure_selectLeaf] at h
    cases h
  | link target =>
    rw [selectEntry_leaf rfl, failure_selectLeaf] at h
    cases h
  | directory access entries =>
    rw [selectEntry] at h
    rcases failure_selectDirectory_cases h with hlisted | ⟨-, directory, hlisted, hbelow⟩
    · exact FileTree.isBelow_of_list hlisted
    · have hdirectory := FileTree.wellFormed_of_list htree hlisted
      rw [selectEntries_eq_concat] at hbelow
      refine isBelow_of_entries hdirectory hpath ?_ hbelow
      intro entry hentry hfailure
      exact isBelow_of_selectNode (hdirectory.of_mem hentry) (Path.join_ne_nil path entry.1)
        hfailure

theorem list_of_selectEntries {directory : Directory} (hdirectory : directory.WellFormed)
    (hpath : path ≠ []) (hplace : tree.node false (Path.clean path) = .ok directory.node)
    (hexcluded : isExcluded settings.exclude path = false)
    (h : (selectEntries settings directory.access.search path directory.entries).failure = some e) :
    tree.list e.path = .error e := by
  rw [selectEntries_eq_concat] at h
  obtain ⟨entry, hentry, hfailure⟩ := exists_of_failure_concat h
  have hlist := FileTree.list_entry hpath hplace hdirectory hentry
  have hjoin := Path.join_under hpath [] entry.1
  rw [Path.under_nil] at hjoin
  rw [hjoin] at hlist hfailure
  rw [selectNode_eq_concat hpath (hdirectory.of_mem hentry) (entered_nil_iff.mpr hexcluded) entry.1
    _ hlist] at hfailure
  obtain ⟨below, -, hvisit⟩ := exists_of_failure_concat hfailure
  exact FileTree.list_path (failure_visit_eq_some_iff.mp hvisit).2.2

theorem list_of_selectEntry (htree : tree.working.WellFormed) {name : Bytes} (node : FileNode)
    (hpath : path ≠ []) (hclean : Path.clean path = path)
    (h : (selectEntry settings tree path name node).failure = some e) :
    tree.list e.path = .error e := by
  cases node with
  | file content =>
    rw [selectEntry_leaf rfl, failure_selectLeaf] at h
    cases h
  | link target =>
    rw [selectEntry_leaf rfl, failure_selectLeaf] at h
    cases h
  | directory access entries =>
    rw [selectEntry] at h
    rcases failure_selectDirectory_cases h with hlisted | ⟨hexcluded, directory, hlisted, hbelow⟩
    · exact FileTree.list_path hlisted
    · have hplace := FileTree.node_of_list hlisted
      rw [← hclean] at hplace
      exact list_of_selectEntries (FileTree.wellFormed_of_list htree hlisted) hpath hplace hexcluded
        hbelow

theorem isBelow_of_listed (htree : tree.working.WellFormed) {argument : Bytes}
    (hargument : argument ≠ [])
    (h : (selectDirectory settings false argument (tree.list argument) fun directory =>
      .concat (directory.entries.map fun entry =>
        selectEntry settings tree (Path.join argument entry.1) entry.1 entry.2)).failure = some e) :
    e.IsBelow argument := by
  rcases failure_selectDirectory_cases h with hlisted | ⟨-, directory, hlisted, hbelow⟩
  · exact FileTree.isBelow_of_list hlisted
  · refine isBelow_of_entries (FileTree.wellFormed_of_list htree hlisted) hargument ?_ hbelow
    intro entry _ hfailure
    exact isBelow_of_selectEntry htree entry.2 (Path.join_ne_nil argument entry.1) hfailure

theorem list_of_walk (htree : tree.working.WellFormed) {argument : Bytes}
    (hargument : (tree.inspect argument).isOk = true)
    (h : (walk settings tree argument).failure = some e) :
    tree.list e.path = .error e ∧ e.IsBelow argument := by
  obtain ⟨found, hfound⟩ := FileTree.exists_inspectLink hargument
  have hne := FileTree.ne_nil_of_node (FileTree.inspectLink_eq_ok_iff.mp hfound)
  have hleaf : (selectLeaf settings argument).failure ≠ some e := by simp [failure_selectLeaf]
  rw [walk, hfound] at h
  cases found with
  | file content => exact absurd h hleaf
  | link target => exact absurd h hleaf
  | directory access entries =>
    refine ⟨?_, isBelow_of_listed htree hne h⟩
    rcases failure_selectDirectory_cases h with hlisted | ⟨-, directory, hlisted, hbelow⟩
    · exact FileTree.list_path hlisted
    · obtain ⟨entry, hentry, hfailure⟩ := exists_of_failure_concat hbelow
      have hjoin : Path.clean (Path.join argument entry.1) = Path.join argument entry.1 := by
        rw [Path.join, if_neg hne]
        exact Path.clean_clean _
      exact list_of_selectEntry htree entry.2 (Path.join_ne_nil argument entry.1) hjoin hfailure

end Below

end OrderLint
