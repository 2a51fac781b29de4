import OrderLint.Proofs.Schedule
import OrderLint.Proofs.Selection
import OrderLint.Proofs.Truncation
import OrderLint.Run

/-!
# What a run prints and how it ends

A run either fails at the first argument that does not expand, before it has printed anything, or it
reports on all files that the arguments stand for. What the report says is fixed by the sources
alone: the violations of each, also of one that a bad node stops, and whether each can be read, is a
program and has only nodes of recognized kinds. The tasks that analyze the files do not show in it.
-/
namespace OrderLint

structure Source where
  path : Bytes
  content : Except FileError Bytes

namespace Source

def ofFile (tree : FileTree) (path : Bytes) : Source := ⟨path, tree.read path⟩

def violations (options : Options) (source : Source) : List Violation :=
  match source.content with
  | .error _ => []
  | .ok src => match JavaScript.parse source.path src with
    | .error _ => []
    | .ok outline => (outline.check options).violations

/-- A source can be read, is a program, and has only nodes of recognized kinds. -/
def IsCheckable (source : Source) : Prop :=
  ∃ src outline, source.content = .ok src ∧ JavaScript.parse source.path src = .ok outline ∧
    outline.IsRecognized

instance : DecidablePred IsCheckable := fun source =>
  match hread : source.content with
  | .error _ => isFalse (by simp [IsCheckable, hread])
  | .ok src => match hparse : JavaScript.parse source.path src with
    | .error _ => isFalse (by simp [IsCheckable, hread, hparse])
    | .ok outline => decidable_of_iff outline.IsRecognized (by simp [IsCheckable, hread, hparse])

end Source

def countSources (options : Options) (sources : List Source) : Verdict :=
  ⟨(sources.map fun source => (source.violations options).length).sum,
    sources.countP fun source => ¬ source.IsCheckable⟩

/-- A run that comes to `outcome` reports on `sources`. -/
structure Reports (options : Options) (sources : List Source) (outcome : RunOutcome) : Prop where
  output : outcome.output = sources.flatMap fun source =>
    (source.violations options).flatMap fun v => source.path ++ utf8 ":" ++ v.text ++ utf8 "\n"
  success : outcome.error = none ↔
    ∀ source ∈ sources, source.IsCheckable ∧ source.violations options = []
  message : ∀ e ∈ outcome.error, e.message =
    decimalNat (countSources options sources).violations ++ utf8 " ordering violations" ++
      if (countSources options sources).failures = 0 then []
      else utf8 ", " ++ decimalNat (countSources options sources).failures ++
        utf8 " files could not be checked"

structure FileResult.Describes (options : Options) (source : Source) (result : FileResult) :
    Prop where
  path : result.path = source.path
  violations : result.violations = source.violations options
  error : result.error = none ↔ source.IsCheckable

theorem analyze_describes (options : Options) (path src : Bytes) :
    (analyze options path src).Describes options ⟨path, .ok src⟩ := by
  cases hparse : JavaScript.parse path src with
  | error e =>
    constructor <;> simp [analyze, hparse, Source.violations, Source.IsCheckable]
  | ok outline =>
    have hfailure := outline.failure_check_eq_none_iff options
    constructor <;> simp [analyze, hparse, Source.violations, Source.IsCheckable, hfailure]

theorem analyzeFile_describes (options : Options) (tree : FileTree) (path : Bytes) :
    (analyzeFile options tree path).Describes options (.ofFile tree path) := by
  cases hread : tree.read path with
  | error e =>
    constructor <;> simp [analyzeFile, hread, Source.ofFile, Source.violations, Source.IsCheckable]
  | ok src =>
    rw [analyzeFile, hread, Source.ofFile, hread]
    exact analyze_describes options path src

section Report

variable {options : Options} {sources : List Source} {results : List FileResult}
  (h : List.Forall₂ (FileResult.Describes options) sources results)

include h in
theorem tally_eq_countSources :
    tally (results.map .ofResult) = countSources options sources := by
  induction h with
  | nil => rfl
  | @cons source result sources results hresult _ ih =>
    simp only [tally, countSources, Verdict.mk.injEq, List.map_cons, List.flatMap_cons] at ih ⊢
    have herror : (ReportEntry.ofResult result).failure.isSome = !decide source.IsCheckable := by
      cases he : result.error <;> simp [ReportEntry.ofResult, ← hresult.error, he]
    have hviolations : (ReportEntry.ofResult result).violations = source.violations options :=
      hresult.violations
    refine ⟨?_, ?_⟩
    · rw [List.length_append, ih.1, hviolations, List.sum_cons]
    · rw [List.filter_cons, List.countP_cons, ← ih.2, herror]
      by_cases hc : source.IsCheckable <;> simp [hc]

include h in
theorem flatMap_lines_eq :
    (results.map ReportEntry.ofResult).flatMap (·.lines) = sources.flatMap fun source =>
      (source.violations options).flatMap fun v =>
        source.path ++ utf8 ":" ++ v.text ++ utf8 "\n" := by
  induction h with
  | nil => rfl
  | @cons source result sources results hresult _ ih =>
    rw [List.map_cons, List.flatMap_cons, List.flatMap_cons, ih, ← hresult.path,
      ← hresult.violations]
    rfl

theorem countSources_eq_zero_iff (options : Options) (sources : List Source) :
    countSources options sources = ⟨0, 0⟩ ↔
      ∀ source ∈ sources, source.IsCheckable ∧ source.violations options = [] := by
  simp only [countSources, Verdict.mk.injEq, List.sum_eq_zero_iff, List.forall_mem_map,
    List.countP_eq_zero, List.length_eq_zero_iff, decide_eq_true_eq, not_not]
  exact ⟨fun h source hs => ⟨h.2 source hs, h.1 source hs⟩,
    fun h => ⟨fun source hs => (h source hs).2, fun source hs => (h source hs).1⟩⟩

theorem Verdict.message_eq (v : Verdict) :
    v.message = decimalNat v.violations ++ utf8 " ordering violations" ++
      if v.failures = 0 then []
      else utf8 ", " ++ decimalNat v.failures ++ utf8 " files could not be checked" := by
  unfold message
  split_ifs <;> simp

include h in
theorem reports_ofResults (log : List LogRecord) :
    Reports options sources (.ofResults log results) := by
  have hcounts := tally_eq_countSources h
  have herror : (RunOutcome.ofResults log results).error =
      if countSources options sources = ⟨0, 0⟩ then none
      else some (.verdict (countSources options sources)) := by
    simp only [RunOutcome.ofResults, report, hcounts]
    split_ifs <;> rfl
  refine ⟨flatMap_lines_eq h, ?_, ?_⟩
  · rw [herror, ← countSources_eq_zero_iff]
    split_ifs with hzero <;> simp [hzero]
  · intro e he
    rw [herror] at he
    split_ifs at he with hzero
    · simp at he
    · obtain rfl := Option.some.inj he
      exact (countSources options sources).message_eq

end Report

/-- An argument fails to expand because it leads nowhere, or because a directory at or below it
cannot be listed. -/
theorem selectFiles_error_cases {settings : Settings} {tree : FileTree}
    (htree : tree.working.WellFormed) {argument : Bytes} {e : FileError}
    (h : (selectFiles settings tree [argument]).files = .error e) :
    tree.inspect argument = .error e ∨ tree.list e.path = .error e ∧
      ∃ relative, (∀ name ∈ relative, Path.IsName name) ∧
        e.path = Path.under argument relative := by
  rw [selectFiles_singleton, Selection.files_outcome_eq_error_iff] at h
  cases hnode : tree.inspect argument with
  | error fault =>
    rw [selectArgument, hnode] at h
    cases h
    exact .inl rfl
  | ok node =>
    have hwalk : (walk settings tree argument).failure = some e := by
      cases hkind : node.isDirectory with
      | false =>
        rw [selectArgument_file hnode hkind] at h
        split_ifs at h
      | true =>
        cases node with
        | file content => cases hkind
        | link target => cases hkind
        | directory access entries =>
          rw [selectArgument, hnode] at h
          exact h
    obtain ⟨hlist, -, hbelow⟩ := list_of_walk htree (by rw [hnode]; rfl) hwalk
    exact .inr ⟨hlist, hbelow⟩

/-- A run with arguments fails at the first one that leads nowhere, or that stands for a directory
with one in it that is entered and cannot be listed, and has printed nothing then. Otherwise it
reports on the files that the arguments stand for; it comes to the same under every schedule of the
tasks that is not called off, and there are such schedules. Without arguments it reports on the
standard input. -/
theorem run_reports (settings : Settings) (tree : FileTree) (htree : tree.working.WellFormed)
    (input : Bytes) (arguments : List Bytes) (hjobs : 1 ≤ settings.jobs) :
    (∀ before argument,
      FirstNot (fun a => (selectFiles settings tree [a]).files.isOk = true) arguments before
        argument →
      ∃ e, (tree.inspect argument = .error e ∨ (tree.inspect argument).isOk = true ∧
          tree.list e.path = .error e ∧ ∃ relative, (∀ name ∈ relative, Path.IsName name) ∧
            e.path = Path.under argument relative) ∧
        (run settings tree input arguments).error = some (.file e) ∧
        (run settings tree input arguments).output = []) ∧
      (∀ argument, (tree.inspect argument).isOk = false →
        (selectFiles settings tree [argument]).files.isOk = false) ∧
      (arguments ≠ [] →
        (∀ a ∈ arguments, (selectFiles settings tree [a]).files.isOk = true) →
        ∃ files, (selectFiles settings tree arguments).files = .ok files ∧
          Reports settings.options (files.map (.ofFile tree)) (run settings tree input arguments) ∧
          (∃ events answer, .cancel ∉ events ∧
            Pool.Answers (.ofSettings settings tree files) events answer) ∧
          ∀ events answer, .cancel ∉ events →
            Pool.Answers (.ofSettings settings tree files) events answer →
            ∃ results, answer = .ok (results.map fun result => some (.finished result)) ∧
              run settings tree input arguments =
                .ofResults ((selectFiles settings tree arguments).log ++ analysisLog files)
                  results) ∧
      (arguments = [] → Reports settings.options [⟨utf8 "stdin.js", .ok input⟩]
        (run settings tree input arguments)) := by
  refine ⟨?_, ?_, ?_, ?_⟩
  · intro before argument hfirst
    have hsome : arguments ≠ [] := by
      intro hnil
      obtain ⟨⟨after, hafter⟩, -⟩ := hfirst
      simp [hnil] at hafter
    obtain ⟨e, hargument, hfiles⟩ := selectFiles_of_firstNot settings tree hfirst
    have hrun : run settings tree input arguments =
        { log := (selectFiles settings tree arguments).log, error := some (.file e) } := by
      simp only [run, hsome, if_false, runFiles, hfiles]
    refine ⟨e, ?_, by rw [hrun], by rw [hrun]⟩
    cases hnode : tree.inspect argument with
    | error fault =>
      have hfault := selectFiles_of_inspect_error settings tree hnode
      exact .inl (congrArg _ (Except.error.inj (hfault.symm.trans hargument)))
    | ok node =>
      rcases selectFiles_error_cases htree hargument with hinspect | hlist
      · cases hnode.symm.trans hinspect
      · exact .inr ⟨rfl, hlist⟩
  · intro argument hargument
    cases hnode : tree.inspect argument with
    | error e => rw [selectFiles_of_inspect_error settings tree hnode]; rfl
    | ok node =>
      rw [hnode] at hargument
      cases hargument
  · intro hsome hall
    obtain ⟨parts, -, hfiles⟩ := selectFiles_eq_flatten settings tree hall
    have hrun : run settings tree input arguments =
        .ofResults ((selectFiles settings tree arguments).log ++ analysisLog parts.flatten)
          (parts.flatten.map (analyzeFile settings.options tree)) := by
      simp only [run, hsome, if_false, runFiles, hfiles]
    refine ⟨parts.flatten, hfiles, ?_, ?_, ?_⟩
    · rw [hrun]
      apply reports_ofResults
      rw [List.forall₂_map_left_iff, List.forall₂_map_right_iff, List.forall₂_same]
      exact fun path _ => analyzeFile_describes settings.options tree path
    · obtain ⟨events, hcancel, hanswers⟩ :=
        Pool.exists_answers (Pool.one_le_jobs_ofSettings hjobs tree parts.flatten)
      exact ⟨events, _, hcancel, hanswers⟩
    · intro events answer hcancel hanswers
      refine ⟨parts.flatten.map (analyzeFile settings.options tree), ?_, hrun⟩
      rw [hanswers.eq_sequential hcancel, List.map_map]
      rfl
  · intro hnil
    subst hnil
    apply reports_ofResults
    exact .cons (analyze_describes settings.options inputName input) .nil

-- The class has a misplaced member before the block that stops the check. Of the others in the
-- directory, one may not be read, one is a link that leads nowhere and one a link to a directory.
def mixedTree : FileTree :=
  treeOf [([utf8 "a.js"], .file (some (utf8 "import 'b'\nimport 'a'\n"))),
    ([utf8 "src", utf8 "b.js"], .file (some (utf8 "class A { b() {} a() {} static {} }"))),
    ([utf8 "src", utf8 "c.js"], .file none), ([utf8 "src", utf8 "d.js"], .link (utf8 "nowhere")),
    ([utf8 "src", utf8 "e.js"], .link (utf8 "../src"))]

theorem wellFormed_mixedTree : mixedTree.working.WellFormed := by
  apply wellFormed_treeOf
  · decide
  · simp only [List.forall_mem_cons]
    exact ⟨.file _, .file _, .file _, .link _, .link _, by simp⟩

def plainSettings : Settings := { Settings.default 1 with exclude := [] }

theorem run_mixedTree : 1 ≤ plainSettings.jobs ∧ mixedTree.working.WellFormed ∧
    (∀ a ∈ [utf8 "src", utf8 "a.js"],
      (selectFiles plainSettings mixedTree [a]).files.isOk = true) ∧
    ∃ e, (run plainSettings mixedTree [] [utf8 "src", utf8 "a.js"]).error = some e ∧
      e.message = utf8 "2 ordering violations, 4 files could not be checked" := by
  have hjobs : 1 ≤ plainSettings.jobs := by decide
  have hall : ∀ a ∈ [utf8 "src", utf8 "a.js"],
      (selectFiles plainSettings mixedTree [a]).files.isOk = true := by
    decide +kernel
  obtain ⟨files, hfiles, hreports, -⟩ := (run_reports plainSettings mixedTree wellFormed_mixedTree
    [] [utf8 "src", utf8 "a.js"] hjobs).2.2.1 (by simp) hall
  obtain rfl : files = [utf8 "src/b.js", utf8 "src/c.js", utf8 "src/d.js", utf8 "src/e.js",
      utf8 "a.js"] := by
    have hselected : (selectFiles plainSettings mixedTree [utf8 "src", utf8 "a.js"]).files =
        .ok [utf8 "src/b.js", utf8 "src/c.js", utf8 "src/d.js", utf8 "src/e.js",
          utf8 "a.js"] := by rfl
    exact Except.ok.inj (hfiles.symm.trans hselected)
  have hcounts : countSources plainSettings.options
      ([utf8 "src/b.js", utf8 "src/c.js", utf8 "src/d.js", utf8 "src/e.js", utf8 "a.js"].map
        (.ofFile mixedTree)) = ⟨2, 4⟩ := by decide +kernel
  refine ⟨hjobs, wellFormed_mixedTree, hall, ?_⟩
  cases herror : (run plainSettings mixedTree [] [utf8 "src", utf8 "a.js"]).error with
  | none =>
    have hzero := (countSources_eq_zero_iff _ _).mpr (hreports.success.mp herror)
    rw [hcounts] at hzero
    simp at hzero
  | some e =>
    refine ⟨e, rfl, ?_⟩
    rw [hreports.message e herror, hcounts]
    decide

-- A file with a violation, and a directory with one in it that may not be listed.
def guardedTree : FileTree :=
  treeOf [([utf8 "a.js"], .file (some (utf8 "import 'b'\nimport 'a'\n"))),
    ([utf8 "d", utf8 "locked"], barred)]

theorem run_guardedTree : guardedTree.working.WellFormed ∧
    (∀ a ∈ [utf8 "a.js", utf8 "d"], (guardedTree.inspect a).isOk = true) ∧
    (Source.ofFile guardedTree (utf8 "a.js")).violations plainSettings.options ≠ [] ∧
    (run plainSettings guardedTree [] [utf8 "a.js", utf8 "d"]).output = [] ∧
    (run plainSettings guardedTree [] [utf8 "a.js", utf8 "d"]).error =
      some (.file ⟨.opening, utf8 "d/locked", .denied⟩) := by
  refine ⟨?_, by decide +kernel, by decide +kernel, rfl, rfl⟩
  apply wellFormed_treeOf
  · decide
  · simp only [List.forall_mem_cons]
    exact ⟨.file _, Entries.wellFormed_nil _, by simp⟩

end OrderLint
