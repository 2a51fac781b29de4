import OrderLint.Proofs.Selection

/-!
# Narrower settings

With more patterns to exclude and fewer extensions the walk does the same at fewer nodes. Where the
wider walk ends with an error, the narrower one ends with the same error, unless it has been kept
from the directory that could not be listed: one of the added patterns excludes the directory or one
on the way to it. This is carried through the walk as a relation between what the two of them come
to, which selections that follow each other inherit.
-/
namespace OrderLint

/-- The added patterns keep the walk from the directory that could not be listed. -/
def Spared (wide narrow : Settings) (e : FileError) : Prop :=
  ∃ path, isExcluded narrow.exclude path = true ∧ isExcluded wide.exclude path = false ∧
    e.IsBelow path

/-- What the narrower of two walks comes to, against what the wider one comes to. -/
structure Narrows (wide narrow : Settings) (all fewer : Selection) : Prop where
  files : all.failure = none → fewer.failure = none ∧ fewer.files.Sublist all.files
  failure : ∀ e, all.failure = some e → fewer.failure = some e ∨ Spared wide narrow e

namespace Narrows

variable {wide narrow : Settings}

theorem refl (selection : Selection) : Narrows wide narrow selection selection :=
  ⟨fun h => ⟨h, .refl _⟩, fun _ h => .inl h⟩

theorem of_empty {all fewer : Selection} (hfiles : fewer.files = []) (hfewer : fewer.failure = none)
    (hfailure : ∀ e, all.failure = some e → Spared wide narrow e) :
    Narrows wide narrow all fewer :=
  ⟨fun _ => ⟨hfewer, hfiles ▸ List.nil_sublist _⟩, fun e he => .inr (hfailure e he)⟩

theorem append {first second first' second' : Selection} (h : Narrows wide narrow first first')
    (h' : Narrows wide narrow second second') :
    Narrows wide narrow (first ++ second) (first' ++ second') := by
  refine ⟨?_, ?_⟩
  · intro hnone
    rw [Selection.failure_append, Option.or_eq_none_iff] at hnone
    obtain ⟨hfailure, hsublist⟩ := h.files hnone.1
    obtain ⟨hfailure', hsublist'⟩ := h'.files hnone.2
    rw [Selection.failure_append, hfailure, hfailure', Selection.files_append hfailure,
      Selection.files_append hnone.1]
    exact ⟨rfl, hsublist.append hsublist'⟩
  · intro e he
    rw [Selection.failure_append, Option.or_eq_some_iff] at he
    rw [Selection.failure_append]
    rcases he with he | ⟨hnone, he⟩
    · exact (h.failure e he).imp_left fun hsame => by rw [hsame, Option.some_or]
    · rw [(h.files hnone).1, Option.none_or]
      exact h'.failure e he

theorem concat {α : Type*} {f g : α → Selection} {xs : List α}
    (h : ∀ x ∈ xs, Narrows wide narrow (f x) (g x)) :
    Narrows wide narrow (.concat (xs.map f)) (.concat (xs.map g)) := by
  induction xs with
  | nil => exact refl _
  | cons x rest ih =>
    obtain ⟨hfirst, hrest⟩ := List.forall_mem_cons.mp h
    exact hfirst.append (ih hrest)

end Narrows

theorem isExcluded_of_subset {patterns more : List Bytes} (h : patterns ⊆ more) {path : Bytes}
    (hpath : isExcluded patterns path = true) : isExcluded more path = true := by
  simp only [isExcluded, List.any_eq_true] at hpath ⊢
  obtain ⟨pattern, hpattern, hmatch⟩ := hpath
  exact ⟨pattern, h hpattern, hmatch⟩

theorem hasExtension_of_subset {extensions more : List Bytes} (h : extensions ⊆ more)
    {path : Bytes} (hpath : Path.hasExtension path extensions = true) :
    Path.hasExtension path more = true := by
  simp only [Path.hasExtension, List.any_eq_true] at hpath ⊢
  obtain ⟨extension, hextension, heq⟩ := hpath
  exact ⟨extension, h hextension, heq⟩

section Walk

variable {wide narrow : Settings} (hexclude : wide.exclude ⊆ narrow.exclude)
  (hextensions : narrow.extensions ⊆ wide.extensions)

include hexclude in
theorem isExcluded_wide {path : Bytes} (h : isExcluded narrow.exclude path = false) :
    isExcluded wide.exclude path = false := by
  rw [Bool.eq_false_iff] at h ⊢
  exact fun hwide => h (isExcluded_of_subset hexclude hwide)

include hexclude hextensions in
theorem narrows_selectLeaf (path : Bytes) :
    Narrows wide narrow (selectLeaf wide path) (selectLeaf narrow path) := by
  have hfailure : ∀ e, (selectLeaf wide path).failure = some e → Spared wide narrow e := by
    intro e he
    rw [failure_selectLeaf] at he
    cases he
  cases hnarrow : isExcluded narrow.exclude path with
  | true =>
    have hfiles : (selectLeaf narrow path).files = [] := by
      simp [selectLeaf, hnarrow, Selection.skipped]
    exact .of_empty hfiles (failure_selectLeaf path) hfailure
  | false =>
    cases hextension : Path.hasExtension path narrow.extensions with
    | false =>
      have hfiles : (selectLeaf narrow path).files = [] := by
        simp [selectLeaf, hnarrow, hextension]
      exact .of_empty hfiles (failure_selectLeaf path) hfailure
    | true =>
      have hsame : selectLeaf narrow path = selectLeaf wide path := by
        simp [selectLeaf, hnarrow, hextension, isExcluded_wide hexclude hnarrow,
          hasExtension_of_subset hextensions hextension]
      rw [hsame]
      exact .refl _

include hexclude in
theorem narrows_selectDirectory {hidden : Bool} {path : Bytes}
    {listed : Except FileError Directory} {below below' : Directory → Selection}
    (hbelow : ∀ directory, listed = .ok directory →
      Narrows wide narrow (below directory) (below' directory))
    (hwithin : ∀ e, (selectDirectory wide hidden path listed below).failure = some e →
      e.IsBelow path) :
    Narrows wide narrow (selectDirectory wide hidden path listed below)
      (selectDirectory narrow hidden path listed below') := by
  cases hnarrow : isExcluded narrow.exclude path with
  | true =>
    have hskipped : selectDirectory narrow hidden path listed below' = .skipped path := by
      simp [selectDirectory, hnarrow]
    rw [hskipped]
    cases hwide : isExcluded wide.exclude path with
    | true =>
      have hskipped' : selectDirectory wide hidden path listed below = .skipped path := by
        simp [selectDirectory, hwide]
      rw [hskipped']
      exact .refl _
    | false => exact .of_empty rfl rfl fun e he => ⟨path, hnarrow, hwide, hwithin e he⟩
  | false =>
    have hwide := isExcluded_wide hexclude hnarrow
    cases hidden with
    | true =>
      simp only [selectDirectory, hnarrow, hwide, if_neg Bool.false_ne_true, if_true]
      exact .refl _
    | false =>
      cases listed with
      | error e =>
        rw [selectDirectory_error hwide rfl, selectDirectory_error hnarrow rfl]
        exact .refl _
      | ok directory =>
        rw [selectDirectory_ok hwide rfl, selectDirectory_ok hnarrow rfl]
        exact hbelow directory rfl

include hexclude hextensions in
theorem narrows_selectNode {node : FileNode} (hnode : node.WellFormed) (reachable : Bool)
    {path : Bytes} (hpath : path ≠ []) (name : Bytes) :
    Narrows wide narrow (selectNode wide reachable path name node)
      (selectNode narrow reachable path name node) := by
  induction hnode generalizing reachable path name with
  | file content =>
    rw [selectNode_leaf rfl, selectNode_leaf rfl]
    exact narrows_selectLeaf hexclude hextensions path
  | link target =>
    rw [selectNode_leaf rfl, selectNode_leaf rfl]
    exact narrows_selectLeaf hexclude hextensions path
  | @directory access entries names ascending nodes ih =>
    have hwithin : ∀ e, (selectNode wide reachable path name (.directory access entries)).failure =
        some e → e.IsBelow path :=
      fun e he => isBelow_of_selectNode (.directory names ascending nodes) hpath he
    rw [selectNode] at hwithin ⊢
    rw [selectNode]
    refine narrows_selectDirectory hexclude ?_ hwithin
    intro directory _
    rw [selectEntries_eq_concat, selectEntries_eq_concat]
    refine .concat fun entry hentry => ?_
    exact ih entry hentry access.search (Path.join_ne_nil path entry.1) entry.1

include hexclude hextensions in
theorem narrows_selectEntry {tree : FileTree} (htree : tree.working.WellFormed) {path : Bytes}
    (hpath : path ≠ []) (name : Bytes) (node : FileNode) :
    Narrows wide narrow (selectEntry wide tree path name node)
      (selectEntry narrow tree path name node) := by
  have hwithin : ∀ e, (selectEntry wide tree path name node).failure = some e →
      e.IsBelow path := fun e he => isBelow_of_selectEntry htree node hpath he
  cases node with
  | file content =>
    rw [selectEntry_leaf rfl, selectEntry_leaf rfl]
    exact narrows_selectLeaf hexclude hextensions path
  | link target =>
    rw [selectEntry_leaf rfl, selectEntry_leaf rfl]
    exact narrows_selectLeaf hexclude hextensions path
  | directory access entries =>
    rw [selectEntry] at hwithin ⊢
    rw [selectEntry]
    refine narrows_selectDirectory hexclude ?_ hwithin
    intro directory hlisted
    have hdirectory := FileTree.wellFormed_of_list htree hlisted
    rw [selectEntries_eq_concat, selectEntries_eq_concat]
    refine .concat fun entry hentry => ?_
    exact narrows_selectNode hexclude hextensions (hdirectory.of_mem hentry) _
      (Path.join_ne_nil path entry.1) entry.1

include hexclude hextensions in
theorem narrows_walk {tree : FileTree} (htree : tree.working.WellFormed) (argument : Bytes) :
    Narrows wide narrow (walk wide tree argument) (walk narrow tree argument) := by
  cases hnode : tree.inspectLink argument with
  | error e =>
    rw [walk, walk, hnode]
    exact .refl _
  | ok node =>
    have hargument := FileTree.ne_nil_of_node (FileTree.inspectLink_eq_ok_iff.mp hnode)
    cases node with
    | file content =>
      rw [walk, walk, hnode]
      exact narrows_selectLeaf hexclude hextensions argument
    | link target =>
      rw [walk, walk, hnode]
      exact narrows_selectLeaf hexclude hextensions argument
    | directory access entries =>
      rw [walk, walk, hnode]
      apply narrows_selectDirectory hexclude
      · intro directory _
        refine .concat fun entry _ => ?_
        exact narrows_selectEntry hexclude hextensions htree (Path.join_ne_nil argument entry.1)
          entry.1 entry.2
      · exact fun e he => isBelow_of_listed htree hargument he

include hexclude hextensions in
theorem narrows_selectArgument {tree : FileTree} (htree : tree.working.WellFormed)
    (argument : Bytes) :
    Narrows wide narrow (selectArgument wide tree argument)
      (selectArgument narrow tree argument) := by
  cases hnode : tree.inspect argument with
  | error e =>
    rw [selectArgument, selectArgument, hnode]
    exact .refl _
  | ok node =>
    have hfile : node.isDirectory = false →
        Narrows wide narrow (selectArgument wide tree argument)
          (selectArgument narrow tree argument) := by
      intro hkind
      rw [selectArgument_file hnode hkind, selectArgument_file hnode hkind]
      cases hnarrow : isExcluded narrow.exclude argument with
      | true =>
        refine .of_empty rfl rfl fun e he => ?_
        split_ifs at he
      | false =>
        rw [isExcluded_wide hexclude hnarrow]
        exact .refl _
    cases node with
    | file content => exact hfile rfl
    | link target => exact hfile rfl
    | directory access entries =>
      rw [selectArgument, selectArgument, hnode]
      exact (Narrows.refl _).append (narrows_walk hexclude hextensions htree argument)

end Walk

/-- With more patterns to exclude and fewer extensions, arguments that expand do so still, to a
sublist. Arguments that do not expand fail with the same error, unless it is that of listing a
directory which the added patterns exclude, itself or with a directory that it lies in. -/
theorem selectFiles_narrows (tree : FileTree) (htree : tree.working.WellFormed)
    (arguments : List Bytes) {wide narrow : Settings}
    (hexclude : wide.exclude ⊆ narrow.exclude)
    (hextensions : narrow.extensions ⊆ wide.extensions) :
    (∀ all, (selectFiles wide tree arguments).files = .ok all →
      ∃ fewer, (selectFiles narrow tree arguments).files = .ok fewer ∧ fewer.Sublist all) ∧
    (∀ e, (selectFiles narrow tree arguments).files = .error e →
      ∃ e', (selectFiles wide tree arguments).files = .error e') ∧
    ∀ e, (selectFiles wide tree arguments).files = .error e →
      (selectFiles narrow tree arguments).files = .error e ∨
        e.action = .opening ∧ ∃ path relative, isExcluded narrow.exclude path = true ∧
          isExcluded wide.exclude path = false ∧ (∀ name ∈ relative, Path.IsName name) ∧
          e.path = Path.under path relative := by
  have hnarrows := Narrows.concat fun argument (_ : argument ∈ arguments) =>
    narrows_selectArgument hexclude hextensions htree argument
  have hexpands : ∀ all, (selectFiles wide tree arguments).files = .ok all →
      ∃ fewer, (selectFiles narrow tree arguments).files = .ok fewer ∧ fewer.Sublist all := by
    intro all hall
    obtain ⟨hnone, rfl⟩ := Selection.files_outcome_eq_ok_iff.mp hall
    obtain ⟨hnone', hsublist⟩ := hnarrows.files hnone
    exact ⟨_, Selection.files_outcome_eq_ok_iff.mpr ⟨hnone', rfl⟩, hsublist⟩
  refine ⟨hexpands, ?_, ?_⟩
  · intro e he
    cases hwide : (selectFiles wide tree arguments).files with
    | error e' => exact ⟨e', rfl⟩
    | ok all =>
      obtain ⟨fewer, hfewer, -⟩ := hexpands all hwide
      cases hfewer.symm.trans he
  · intro e he
    rcases hnarrows.failure e (Selection.files_outcome_eq_error_iff.mp he) with hsame | hspared
    · exact .inl (Selection.files_outcome_eq_error_iff.mpr hsame)
    · obtain ⟨path, hnarrow, hwide, haction, relative, hnames, hpath⟩ := hspared
      exact .inr ⟨haction, path, relative, hnarrow, hwide, hnames, hpath⟩

def narrowSettings : Settings :=
  { Settings.default 1 with
    exclude := [utf8 "**/locked/**", utf8 "**/lib/.*", utf8 "**/node_modules/**"]
    extensions := [utf8 ".js"] }

theorem selectFiles_narrows_sample :
    (Settings.default 1).exclude ⊆ narrowSettings.exclude ∧
      narrowSettings.extensions ⊆ (Settings.default 1).extensions ∧
      ∃ fewer, (selectFiles narrowSettings sampleTree [utf8 "src/b.txt", utf8 "src"]).files =
          .ok fewer ∧
        fewer.Sublist [utf8 "src/b.txt", utf8 "src/a.js", utf8 "src/lib/.c.JS",
          utf8 "src/lib/d.mjs", utf8 "src/lib/l.js"] := by
  have hexclude : (Settings.default 1).exclude ⊆ narrowSettings.exclude := by decide
  have hextensions : narrowSettings.extensions ⊆ (Settings.default 1).extensions := by decide
  refine ⟨hexclude, hextensions, ?_⟩
  exact (selectFiles_narrows sampleTree wellFormed_sampleTree [utf8 "src/b.txt", utf8 "src"]
    hexclude hextensions).1 _ rfl

theorem selectFiles_spared : barredTree.working.WellFormed ∧
    (Settings.default 1).exclude ⊆ narrowSettings.exclude ∧
    narrowSettings.extensions ⊆ (Settings.default 1).extensions ∧
    (selectFiles (Settings.default 1) barredTree [utf8 "d"]).files =
      .error ⟨.opening, utf8 "d/locked", .denied⟩ ∧
    (selectFiles narrowSettings barredTree [utf8 "d"]).files = .ok [utf8 "d/a.js"] :=
  ⟨wellFormed_barredTree, by decide, by decide, rfl, rfl⟩

end OrderLint
