import OrderLint.Proofs.Walk

/-!
# What arguments expand to

A directory expands to the files below it that satisfy a condition on the names that lead to them,
unless the walk enters a directory that cannot be listed. A list of arguments expands to what its
members expand to, one after the other, and the first of them that fails is the error of all.
-/
namespace OrderLint

/-- The walk from `argument`, which leads to `directory`, enters the directory to which the names
`relative` lead from there. -/
structure Enters (settings : Settings) (argument : Bytes) (directory : Directory)
    (relative : List Bytes) : Prop where
  isDirectory : ∃ access entries, directory.node.descend relative = some (.directory access entries)
  included : ∀ upTo, upTo <+: relative →
    isExcluded settings.exclude (Path.under argument upTo) = false
  visible : ∀ name ∈ relative, ¬ utf8 "." <+: name

/-- The names `relative` lead from the directory `argument` to something that belongs to it and is
no directory: no path on the way is excluded, from the argument to the file itself, and no directory
in between is hidden. -/
structure Selects (settings : Settings) (argument : Bytes) (directory : Directory)
    (relative : List Bytes) : Prop where
  isFile : ∃ node, directory.node.descend relative = some node ∧ node.isDirectory = false
  extension : Path.hasExtension (Path.under argument relative) settings.extensions = true
  included : ∀ upTo, upTo <+: relative →
    isExcluded settings.exclude (Path.under argument upTo) = false
  visible : ∀ name ∈ relative.dropLast, ¬ utf8 "." <+: name

section Directory

variable {settings : Settings} {tree : FileTree} {argument : Bytes} {directory : Directory}

theorem enters_iff (hdirectory : directory.WellFormed) (relative : List Bytes) :
    Enters settings argument directory relative ↔ Entered settings argument relative ∧
      ∃ node, (relative, node) ∈ directory.node.nodes ∧ node.isDirectory = true := by
  simp only [hdirectory.mem_nodes_iff]
  constructor
  · intro h
    obtain ⟨access, entries, hnode⟩ := h.isDirectory
    exact ⟨⟨h.included, fun name hname => (isHidden_eq_false_iff name).mpr (h.visible name hname)⟩,
      _, hnode, rfl⟩
  · intro h
    obtain ⟨hentered, node, hnode, hkind⟩ := h
    have hvisible : ∀ name ∈ relative, ¬ utf8 "." <+: name := fun name hname =>
      (isHidden_eq_false_iff name).mp (hentered.2 name hname)
    refine ⟨?_, hentered.1, hvisible⟩
    cases node with
    | file content => cases hkind
    | link target => cases hkind
    | directory access entries => exact ⟨access, entries, hnode⟩

theorem included_iff (relative : List Bytes) :
    (∀ upTo, upTo <+: relative → isExcluded settings.exclude (Path.under argument upTo) = false) ↔
      (∀ upTo, upTo <+: relative.dropLast →
        isExcluded settings.exclude (Path.under argument upTo) = false) ∧
      isExcluded settings.exclude (Path.under argument relative) = false := by
  rcases List.eq_nil_or_concat' relative with rfl | ⟨before, name, rfl⟩
  · simp
  · simp only [List.dropLast_concat, List.prefix_concat_iff, forall_eq_or_imp]
    exact and_comm

theorem selects_iff (hdirectory : directory.WellFormed) (relative : List Bytes) :
    Selects settings argument directory relative ↔
      ∃ node, (relative, node) ∈ directory.node.nodes ∧
        Taken settings argument (relative, node) := by
  simp only [hdirectory.mem_nodes_iff, Taken, Entered, isHidden_eq_false_iff]
  constructor
  · intro h
    obtain ⟨node, hnode, hkind⟩ := h.isFile
    obtain ⟨habove, hself⟩ := (included_iff relative).mp h.included
    exact ⟨node, hnode, hkind, ⟨habove, h.visible⟩, hself, h.extension⟩
  · intro h
    obtain ⟨node, hnode, hkind, ⟨habove, hvisible⟩, hself, hextension⟩ := h
    exact ⟨⟨node, hnode, hkind⟩, hextension, (included_iff relative).mpr ⟨habove, hself⟩, hvisible⟩

theorem Selection.files_outcome_eq_ok_iff {selection : Selection} {files : List Bytes} :
    selection.outcome.files = .ok files ↔ selection.failure = none ∧ selection.files = files := by
  rw [outcome]
  cases selection.failure <;> simp

theorem Selection.files_outcome_eq_error_iff {selection : Selection} {e : FileError} :
    selection.outcome.files = .error e ↔ selection.failure = some e := by
  rw [outcome]
  cases selection.failure <;> simp

theorem selectFiles_singleton (settings : Settings) (tree : FileTree) (argument : Bytes) :
    selectFiles settings tree [argument] = (selectArgument settings tree argument).outcome := by
  simp [selectFiles, Selection.concat]

theorem selectArgument_directory (h : tree.LeadsTo argument directory) :
    selectArgument settings tree argument =
      { log := [.about (utf8 "processing directory") argument] } ++
        walk settings tree argument := by
  rw [selectArgument, FileTree.inspect_eq_ok_iff.mpr h.node_eq]
  rfl

theorem selectFiles_of_listed (h : tree.LeadsTo argument directory)
    (hdirectory : directory.WellFormed)
    (hfailure : (walk settings tree argument).failure = none) :
    ∃ relatives : List (List Bytes),
      (selectFiles settings tree [argument]).files = .ok (relatives.map (Path.under argument)) ∧
      relatives.Pairwise (· < ·) ∧ (relatives.map (Path.under argument)).Nodup ∧
      ∀ relative, relative ∈ relatives ↔ Selects settings argument directory relative := by
  have hascending : ((directory.node.nodes.filter fun below =>
      Taken settings argument below).map (·.1)).Pairwise (· < ·) :=
    List.pairwise_map.mpr (hdirectory.pairwise_nodes.filter _)
  have hmem : ∀ relative, relative ∈ (directory.node.nodes.filter fun below =>
      Taken settings argument below).map (·.1) ↔ Selects settings argument directory relative := by
    intro relative
    simp [selects_iff hdirectory]
  refine ⟨_, ?_, hascending, ?_, hmem⟩
  · rw [selectFiles_singleton, Selection.files_outcome_eq_ok_iff, selectArgument_directory h]
    refine ⟨hfailure, ?_⟩
    have hfiles := files_walk h hdirectory hfailure
    simp only [files_visit] at hfiles
    rw [Selection.files_append rfl, List.nil_append, hfiles, List.map_map]
    induction directory.node.nodes with
    | nil => rfl
    | cons below rest ih =>
      rw [List.flatMap_cons, ih]
      by_cases htaken : Taken settings argument below <;> simp [htaken]
  · apply List.Nodup.map_on
    · intro first hfirst second hsecond
      obtain ⟨node, hnode, -⟩ := ((hmem first).mp hfirst).isFile
      obtain ⟨other, hother, -⟩ := ((hmem second).mp hsecond).isFile
      exact Path.under_injective h.ne_nil (hdirectory.isName_of_descend hnode)
        (hdirectory.isName_of_descend hother)
    · rw [List.nodup_iff_pairwise_ne]
      refine hascending.imp ?_
      intro first second hlt heq
      exact List.lt_irrefl first (heq ▸ hlt)

theorem exists_enters_of_failure (h : tree.LeadsTo argument directory)
    (hdirectory : directory.WellFormed) {e : FileError}
    (hfailure : (walk settings tree argument).failure = some e) :
    ∃ relative, Enters settings argument directory relative ∧
      tree.list (Path.under argument relative) = .error e ∧
      ∀ other, Enters settings argument directory other → other < relative →
        (tree.list (Path.under argument other)).isOk = true := by
  rw [failure_walk h hdirectory, List.findSome?_eq_some_iff] at hfailure
  obtain ⟨before, ⟨relative, node⟩, after, hnodes, hvisit, hbefore⟩ := hfailure
  obtain ⟨hkind, hentered, hlist⟩ := failure_visit_eq_some_iff.mp hvisit
  have hmem : (relative, node) ∈ directory.node.nodes := by simp [hnodes]
  refine ⟨relative, (enters_iff hdirectory relative).mpr ⟨hentered, node, hmem, hkind⟩, hlist, ?_⟩
  intro other hother hlt
  obtain ⟨hentered', node', hmem', hkind'⟩ := (enters_iff hdirectory other).mp hother
  have hascending := hdirectory.pairwise_nodes
  rw [hnodes, List.pairwise_append, List.pairwise_cons] at hascending
  rw [hnodes, List.mem_append, List.mem_cons] at hmem'
  rcases hmem' with hmem' | hmem' | hmem'
  · cases hlist' : tree.list (Path.under argument other) with
    | ok listed => rfl
    | error fault =>
      have hvisit' := failure_visit_eq_some_iff.mpr ⟨hkind', hentered', hlist'⟩
      rw [hbefore _ hmem'] at hvisit'
      cases hvisit'
  · cases hmem'
    exact absurd hlt (List.lt_irrefl relative)
  · exact absurd (List.lt_trans hlt (hascending.2.1.1 _ hmem')) (List.lt_irrefl other)

theorem isOk_list_of_enters (h : tree.LeadsTo argument directory)
    (hdirectory : directory.WellFormed)
    (hfailure : (walk settings tree argument).failure = none) {relative : List Bytes}
    (hrelative : Enters settings argument directory relative) :
    (tree.list (Path.under argument relative)).isOk = true := by
  rw [failure_walk h hdirectory, List.findSome?_eq_none_iff] at hfailure
  obtain ⟨hentered, node, hmem, hkind⟩ := (enters_iff hdirectory relative).mp hrelative
  cases hlist : tree.list (Path.under argument relative) with
  | ok listed => rfl
  | error e =>
    have hvisit := failure_visit_eq_some_iff.mpr ⟨hkind, hentered, hlist⟩
    rw [hfailure _ hmem] at hvisit
    cases hvisit

end Directory

section Arguments

variable (settings : Settings) (tree : FileTree)

theorem selectFiles_of_inspect_error {argument : Bytes} {e : FileError}
    (h : tree.inspect argument = .error e) :
    (selectFiles settings tree [argument]).files = .error e := by
  rw [selectFiles_singleton, Selection.files_outcome_eq_error_iff, selectArgument, h]
  rfl

variable {settings tree} in
theorem selectArgument_file {argument : Bytes} {node : FileNode}
    (h : tree.inspect argument = .ok node) (hnode : node.isDirectory = false) :
    selectArgument settings tree argument =
      if isExcluded settings.exclude argument then
        { log := [.about (utf8 "skipping excluded file") argument] }
      else { files := [argument] } := by
  cases node with
  | file content => rw [selectArgument, h]
  | link target => rw [selectArgument, h]
  | directory access entries => cases hnode

theorem selectFiles_of_file {argument : Bytes} {node : FileNode}
    (h : tree.inspect argument = .ok node) (hnode : node.isDirectory = false) :
    (selectFiles settings tree [argument]).files =
      .ok (if isExcluded settings.exclude argument then [] else [argument]) := by
  rw [selectFiles_singleton, selectArgument_file h hnode, Selection.files_outcome_eq_ok_iff]
  split_ifs <;> exact ⟨rfl, rfl⟩

theorem selectFiles_cons (argument : Bytes) (rest : List Bytes) :
    selectFiles settings tree (argument :: rest) =
      (selectArgument settings tree argument ++
        .concat (rest.map (selectArgument settings tree))).outcome := rfl

theorem selectFiles_eq_flatten {arguments : List Bytes}
    (h : ∀ a ∈ arguments, (selectFiles settings tree [a]).files.isOk = true) :
    ∃ parts, List.Forall₂ (fun argument part =>
        (selectFiles settings tree [argument]).files = .ok part) arguments parts ∧
      (selectFiles settings tree arguments).files = .ok parts.flatten := by
  induction arguments with
  | nil => exact ⟨[], .nil, rfl⟩
  | cons first rest ih =>
    obtain ⟨hfirst, hrest⟩ := List.forall_mem_cons.mp h
    obtain ⟨parts, hparts, hfiles⟩ := ih hrest
    cases hpart : (selectFiles settings tree [first]).files with
    | error e =>
      rw [hpart] at hfirst
      cases hfirst
    | ok part =>
      refine ⟨part :: parts, .cons hpart hparts, ?_⟩
      rw [selectFiles_singleton, Selection.files_outcome_eq_ok_iff] at hpart
      rw [selectFiles, Selection.files_outcome_eq_ok_iff] at hfiles
      rw [selectFiles_cons, Selection.files_outcome_eq_ok_iff, Selection.failure_append, hpart.1,
        Selection.files_append hpart.1, hpart.2, hfiles.2, List.flatten_cons]
      exact ⟨hfiles.1, rfl⟩

theorem selectFiles_of_firstNot {arguments before : List Bytes} {argument : Bytes}
    (h : FirstNot (fun a => (selectFiles settings tree [a]).files.isOk = true) arguments before
      argument) :
    ∃ e, (selectFiles settings tree [argument]).files = .error e ∧
      (selectFiles settings tree arguments).files = .error e := by
  obtain ⟨⟨after, rfl⟩, hbefore, hnot⟩ := h
  cases he : (selectFiles settings tree [argument]).files with
  | ok files => exact absurd (by simp only [he]; rfl) hnot
  | error e =>
    refine ⟨e, rfl, ?_⟩
    rw [selectFiles_singleton, Selection.files_outcome_eq_error_iff] at he
    rw [selectFiles, Selection.files_outcome_eq_error_iff, Selection.failure_concat,
      List.findSome?_map, List.findSome?_append, List.findSome?_eq_none_iff.mpr, Option.none_or,
      List.findSome?_cons]
    · simp [he]
    · intro other hother
      have hok : (selectFiles settings tree [other]).files.isOk = true := hbefore other hother
      rw [selectFiles_singleton, Selection.outcome] at hok
      cases hfailure : (selectArgument settings tree other).failure with
      | none => exact hfailure
      | some fault =>
        rw [hfailure] at hok
        cases hok

end Arguments

/-- A directory that the argument is, under its clean path too, expands to what it selects, each
once and in ascending order of the names that lead there, unless the walk enters a directory that
cannot be listed: then the first such one is the error. Anything else stands for itself unless it is
excluded, and what leads nowhere is an error. The arguments are expanded one after the other, and
the first that fails is the error of all. -/
theorem selectFiles_expands (settings : Settings) (tree : FileTree)
    (htree : tree.working.WellFormed) (arguments : List Bytes) :
    (∀ argument directory, tree.LeadsTo argument directory →
      ((∀ relative, Enters settings argument directory relative →
          (tree.list (Path.under argument relative)).isOk = true) ∧
        ∃ relatives : List (List Bytes),
          (selectFiles settings tree [argument]).files =
            .ok (relatives.map (Path.under argument)) ∧
          relatives.Pairwise (· < ·) ∧ (relatives.map (Path.under argument)).Nodup ∧
          ∀ relative, relative ∈ relatives ↔ Selects settings argument directory relative) ∨
      ∃ relative e, Enters settings argument directory relative ∧
        tree.list (Path.under argument relative) = .error e ∧
        (∀ other, Enters settings argument directory other → other < relative →
          (tree.list (Path.under argument other)).isOk = true) ∧
        (selectFiles settings tree [argument]).files = .error e) ∧
      (∀ argument node, tree.inspect argument = .ok node → node.isDirectory = false →
        (selectFiles settings tree [argument]).files =
          .ok (if isExcluded settings.exclude argument then [] else [argument])) ∧
      (∀ argument e, tree.inspect argument = .error e →
        (selectFiles settings tree [argument]).files = .error e) ∧
      ((∀ argument ∈ arguments, (selectFiles settings tree [argument]).files.isOk = true) →
        ∃ parts, List.Forall₂ (fun argument part =>
            (selectFiles settings tree [argument]).files = .ok part) arguments parts ∧
          (selectFiles settings tree arguments).files = .ok parts.flatten) ∧
      ∀ before argument,
        FirstNot (fun a => (selectFiles settings tree [a]).files.isOk = true) arguments before
          argument →
        ∃ e, (selectFiles settings tree [argument]).files = .error e ∧
          (selectFiles settings tree arguments).files = .error e := by
  refine ⟨?_, ?_, ?_, ?_, ?_⟩
  · intro argument directory h
    have hdirectory := h.wellFormed htree
    cases hfailure : (walk settings tree argument).failure with
    | none =>
      refine .inl ⟨?_, selectFiles_of_listed h hdirectory hfailure⟩
      exact fun relative hrelative => isOk_list_of_enters h hdirectory hfailure hrelative
    | some e =>
      obtain ⟨relative, henters, hlist, hfirst⟩ := exists_enters_of_failure h hdirectory hfailure
      refine .inr ⟨relative, e, henters, hlist, hfirst, ?_⟩
      rw [selectFiles_singleton, Selection.files_outcome_eq_error_iff, selectArgument_directory h]
      exact hfailure
  · intro argument node h hnode
    exact selectFiles_of_file settings tree h hnode
  · intro argument e h
    exact selectFiles_of_inspect_error settings tree h
  · intro h
    exact selectFiles_eq_flatten settings tree h
  · intro before argument h
    exact selectFiles_of_firstNot settings tree h

def treeOf (files : List (List Bytes × FileNode)) : FileTree :=
  .ofEntries (files.foldr (fun file entries => Entries.add file.1 file.2 entries) [])

theorem wellFormed_treeOf {files : List (List Bytes × FileNode)}
    (hnames : ∀ file ∈ files, ∀ name ∈ file.1, Path.IsName name)
    (hnodes : ∀ file ∈ files, file.2.WellFormed) : (treeOf files).working.WellFormed :=
  FileTree.wellFormed_ofEntries
    (Entries.wellFormed_foldr_add {} fun file hfile => ⟨hnames file hfile, hnodes file hfile⟩)

def barred : FileNode := .directory ⟨false, false⟩ []

-- A hidden directory that is barred, an excluded one, a plain one, and in it a hidden file, a file
-- that may not be read and a link.
def sampleTree : FileTree :=
  treeOf [([utf8 "src", utf8 "node_modules", utf8 "e.js"], .file (some [])),
    ([utf8 "src", utf8 "lib", utf8 "l.js"], .link (utf8 "..")),
    ([utf8 "src", utf8 "lib", utf8 "d.mjs"], .file none),
    ([utf8 "src", utf8 "lib", utf8 ".c.JS"], .file (some [])),
    ([utf8 "src", utf8 "b.txt"], .file (some [])), ([utf8 "src", utf8 "a.js"], .file (some [])),
    ([utf8 "src", utf8 ".git"], barred)]

theorem wellFormed_sampleTree : sampleTree.working.WellFormed := by
  apply wellFormed_treeOf
  · decide
  · simp only [List.forall_mem_cons]
    exact ⟨.file _, .link _, .file _, .file _, .file _, .file _, Entries.wellFormed_nil _, by simp⟩

theorem selectFiles_expands_sample : sampleTree.working.WellFormed ∧
    ∃ directory, sampleTree.LeadsTo (utf8 "./src/") directory ∧
      ∃ relatives : List (List Bytes), relatives.Pairwise (· < ·) ∧
        (∀ relative ∈ relatives,
          Selects (Settings.default 1) (utf8 "./src/") directory relative) ∧
        relatives.map (Path.under (utf8 "./src/")) =
          [utf8 "src/a.js", utf8 "src/lib/.c.JS", utf8 "src/lib/d.mjs", utf8 "src/lib/l.js"] := by
  obtain ⟨directory, hleads⟩ :
      ∃ directory, sampleTree.LeadsTo (utf8 "./src/") directory :=
    ⟨_, FileTree.leadsTo_of_linkFree (by decide) rfl⟩
  have hfiles : (selectFiles (Settings.default 1) sampleTree [utf8 "./src/"]).files =
      .ok [utf8 "src/a.js", utf8 "src/lib/.c.JS", utf8 "src/lib/d.mjs", utf8 "src/lib/l.js"] := by
    rfl
  refine ⟨wellFormed_sampleTree, directory, hleads, ?_⟩
  rcases (selectFiles_expands (Settings.default 1) sampleTree wellFormed_sampleTree []).1 _ _
    hleads with ⟨-, relatives, hexpands, hascending, -, hselects⟩ | ⟨_, e, -, -, -, hfails⟩
  · exact ⟨relatives, hascending, fun relative => (hselects relative).mp,
      Except.ok.inj (hexpands.symm.trans hfiles)⟩
  · cases hfiles.symm.trans hfails

-- A directory with a file and a directory that is barred, a link to it, and a link from which a
-- double dot leads elsewhere than its clean form.
def barredTree : FileTree :=
  treeOf [([utf8 "d", utf8 "a.js"], .file (some [])), ([utf8 "d", utf8 "locked"], barred),
    ([utf8 "e", utf8 "f", utf8 "b.js"], .file (some [])), ([utf8 "ln"], .link (utf8 "d")),
    ([utf8 "up"], .link (utf8 "e/f"))]

theorem wellFormed_barredTree : barredTree.working.WellFormed := by
  apply wellFormed_treeOf
  · decide
  · simp only [List.forall_mem_cons]
    exact ⟨.file _, Entries.wellFormed_nil _, .file _, .link _, .link _, by simp⟩

theorem selectFiles_barred : barredTree.working.WellFormed ∧
    ∃ directory other, barredTree.LeadsTo (utf8 "d") directory ∧
      directory.node.descend [utf8 "a.js"] = some (.file (some [])) ∧
      (selectFiles (Settings.default 1) barredTree [utf8 "d"]).files =
        .error ⟨.opening, utf8 "d/locked", .denied⟩ ∧
      barredTree.inspect (utf8 "ln") = .ok directory.node ∧
      (selectFiles (Settings.default 1) barredTree [utf8 "ln"]).files = .ok [] ∧
      barredTree.inspect (utf8 "up/..") = .ok other ∧
      other.descend [utf8 "f", utf8 "b.js"] = some (.file (some [])) ∧
      (selectFiles (Settings.default 1) barredTree [utf8 "up/.."]).files =
        .error ⟨.opening, utf8 "f", .missing⟩ :=
  ⟨wellFormed_barredTree, _, _, FileTree.leadsTo_of_linkFree (by decide) rfl, rfl, rfl, rfl, rfl,
    rfl, rfl, rfl⟩

end OrderLint
