import OrderLint.Proofs.Recognition

/-!
# Runs of the import checker

The rule that an import breaks is decided by two records, and no rule is broken exactly when the
records are in lexicographic order: external before relative, then by bucket, then by key. A run
feeds declarations to one checker and goes on after failures. Its baseline is the record of the
nearest earlier declaration that did not fail, so a failing declaration leaves no trace in the
violations of the others.
-/
namespace OrderLint

/-- The lexicographic order of records: external before relative, then by bucket, then by key. -/
def ImportRecord.Precedes (a b : ImportRecord) : Prop :=
  a.external = true ∧ b.external = false ∨
    a.external = b.external ∧ (a.bucket.rank < b.bucket.rank ∨
      a.bucket.rank = b.bucket.rank ∧ a.sortKey ≤ b.sortKey)

inductive Breaks (prior next : ImportRecord) : Code → Prop
  | group (hnext : next.external = true) (hprior : prior.external = false) :
      Breaks prior next .relativeGroupOrder
  | bucket (hgroup : next.external = prior.external)
      (hbucket : next.bucket.rank < prior.bucket.rank) : Breaks prior next .specifierGroupOrder
  | key (hgroup : next.external = prior.external)
      (hbucket : next.bucket.rank = prior.bucket.rank) (hkey : next.sortKey < prior.sortKey) :
      Breaks prior next .alphabetImportOrder

theorem Bucket.rank_injective : Function.Injective Bucket.rank := by
  intro a b h
  cases a <;> cases b <;> simp [rank] at h ⊢

theorem ImportRecord.Precedes.trans {a b c : ImportRecord} (hab : a.Precedes b)
    (hbc : b.Precedes c) : a.Precedes c := by
  have hkey : a.sortKey ≤ b.sortKey → b.sortKey ≤ c.sortKey → a.sortKey ≤ c.sortKey :=
    List.le_trans
  unfold Precedes at *
  grind

instance : Trans ImportRecord.Precedes ImportRecord.Precedes ImportRecord.Precedes :=
  ⟨ImportRecord.Precedes.trans⟩

theorem brokenRule?_eq_some_iff (prior next : ImportRecord) (code : Code) :
    brokenRule? prior next = some code ↔ Breaks prior next code := by
  have hbucket : prior.bucket = next.bucket ↔ next.bucket.rank = prior.bucket.rank :=
    ⟨fun h => by rw [h], fun h => (Bucket.rank_injective h).symm⟩
  constructor
  · intro h
    unfold brokenRule? at h
    split_ifs at h with hgroup hsame hrank hkey <;> cases h
    · simp only [Bool.and_eq_true, Bool.not_eq_true'] at hgroup
      exact .group hgroup.1 hgroup.2
    · exact .bucket (by simpa using hsame) hrank
    · exact .key (by simpa using hsame) (hbucket.mp hkey.1) hkey.2
  · intro h
    cases h with
    | group hnext hprior => simp [brokenRule?, hnext, hprior]
    | bucket hgroup hrank => simp [brokenRule?, hgroup, hrank]
    | key hgroup hrank hkey => simp [brokenRule?, hgroup, hrank, hbucket, hkey]

theorem brokenRule?_eq_none_iff (prior next : ImportRecord) :
    brokenRule? prior next = none ↔ prior.Precedes next := by
  have hnone : brokenRule? prior next = none ↔ ∀ code, ¬ Breaks prior next code := by
    simp only [← brokenRule?_eq_some_iff, Option.eq_none_iff_forall_ne_some, ne_eq]
  have hkey : prior.sortKey ≤ next.sortKey ↔ ¬ next.sortKey < prior.sortKey := Iff.rfl
  rw [hnone, ImportRecord.Precedes, hkey]
  constructor
  · intro h
    have hgroup := fun h₁ h₂ => h _ (.group h₁ h₂)
    have hbucket := fun h₁ h₂ => h _ (.bucket h₁ h₂)
    have hkeys := fun h₁ h₂ h₃ => h _ (.key h₁ h₂ h₃)
    grind
  · intro h code hb
    cases hb <;> grind

def Specifier.NameDescends (before after : Specifier) : Prop :=
  lower after.binding < lower before.binding

instance : DecidableRel Specifier.NameDescends :=
  fun before after => inferInstanceAs (Decidable (lower after.binding < lower before.binding))

theorem specifierViolations_some (before : Specifier) (specifiers : List Specifier) :
    specifierViolations (some (lower before.binding)) specifiers =
      (followers Specifier.NameDescends (before :: specifiers)).map
        fun s => ⟨.alphabetSpecifierOrder, .specifier s⟩ := by
  induction specifiers generalizing before with
  | nil => simp [specifierViolations]
  | cons specifier rest ih =>
    rw [specifierViolations, ih, followers_cons_cons, List.map_append]
    by_cases h : lower specifier.binding < lower before.binding <;>
      simp [h, Specifier.NameDescends]

theorem specifierViolations_none (specifiers : List Specifier) :
    specifierViolations none specifiers =
      (followers Specifier.NameDescends specifiers).map
        fun s => ⟨.alphabetSpecifierOrder, .specifier s⟩ := by
  cases specifiers with
  | nil => rfl
  | cons specifier rest => rw [← specifierViolations_some]; rfl

theorem mem_declarationViolations {last : Option ImportRecord} {decl : ImportDecl}
    {violation : Violation} :
    violation ∈ declarationViolations last decl ↔
      violation.anchor = .declaration decl ∧
        ∃ prior ∈ last, Breaks prior decl.record violation.code := by
  obtain ⟨code, anchor⟩ := violation
  cases last with
  | none => simp [declarationViolations]
  | some prior =>
    simp only [declarationViolations, Option.mem_some_iff, exists_eq_left',
      ← brokenRule?_eq_some_iff]
    cases brokenRule? prior decl.record with
    | none => simp
    | some broken => simp [and_comm, eq_comm]

theorem length_declarationViolations_le (last : Option ImportRecord) (decl : ImportDecl) :
    (declarationViolations last decl).length ≤ 1 := by
  unfold declarationViolations
  split
  · simp
  · split <;> simp

def nearestRecognized? (decls : List ImportDecl) (n : ℕ) : Option ImportDecl :=
  ((decls.take n).filter (·.IsRecognized)).getLast?

namespace ImportChecker

def after (checker : ImportChecker) (decls : List ImportDecl) : ImportChecker :=
  decls.foldl (fun checker decl => (checker.check decl).2) checker

/-- What one step of a run of a fresh checker finds in the declaration at position `n`. -/
structure StepOutcome (decls : List ImportDecl) (n : ℕ) (decl : ImportDecl) (findings : Findings) :
    Prop where
  fails_iff : findings.failure ≠ none ↔ ∃ s ∈ decl.specifiers, ¬ s.IsRecognized
  /-- A failure carries the first bad specifier, reports nothing and keeps the baseline. -/
  of_failure : ∀ e ∈ findings.failure,
    (∃ before s, FirstNot Specifier.IsRecognized decl.specifiers before s ∧ e = .ofSpecifier s) ∧
      findings.violations = [] ∧ after {} (decls.take (n + 1)) = after {} (decls.take n)
  /-- Otherwise the named specifiers below their predecessor are reported, and then the declaration
  itself when its record breaks a rule after the nearest earlier one that did not fail. -/
  of_success : findings.failure = none →
    decl.classify = .ok decl.record ∧ after {} (decls.take (n + 1)) = ⟨some decl.record⟩ ∧
      ∃ own : List Violation, findings.violations =
          (followers Specifier.NameDescends decl.namedSpecifiers).map
            (fun s => ⟨.alphabetSpecifierOrder, .specifier s⟩) ++ own ∧
        own.length ≤ 1 ∧
        ∀ violation, violation ∈ own ↔ violation.anchor = .declaration decl ∧
          ∃ prior ∈ nearestRecognized? decls n, Breaks prior.record decl.record violation.code

theorem check_of_isRecognized (checker : ImportChecker) {decl : ImportDecl}
    (h : decl.IsRecognized) :
    checker.check decl =
      (⟨(followers Specifier.NameDescends decl.namedSpecifiers).map
          (fun s => ⟨.alphabetSpecifierOrder, .specifier s⟩) ++
            declarationViolations checker.last decl, none⟩, ⟨some decl.record⟩) := by
  simp only [check, ImportDecl.classify_of_isRecognized h, specifierViolations_none]

theorem check_of_firstNot (checker : ImportChecker) {decl : ImportDecl} {before : List Specifier}
    {specifier : Specifier}
    (h : FirstNot Specifier.IsRecognized decl.specifiers before specifier) :
    checker.check decl = (⟨[], some (.ofSpecifier specifier)⟩, checker) := by
  simp only [check, ImportDecl.classify_of_firstNot h]

theorem exists_check_of_not_isRecognized (checker : ImportChecker) {decl : ImportDecl}
    (h : ¬ decl.IsRecognized) : ∃ before specifier,
      FirstNot Specifier.IsRecognized decl.specifiers before specifier ∧
        checker.check decl = (⟨[], some (.ofSpecifier specifier)⟩, checker) := by
  obtain ⟨before, specifier, hfirst⟩ := exists_firstNot h
  exact ⟨before, specifier, hfirst, checker.check_of_firstNot hfirst⟩

theorem length_run (checker : ImportChecker) (decls : List ImportDecl) :
    (checker.run decls).length = decls.length := by
  induction decls generalizing checker with
  | nil => rfl
  | cons decl rest ih => simp only [run, List.length_cons, ih]

theorem getElem?_run (checker : ImportChecker) (decls : List ImportDecl) (n : ℕ) :
    (checker.run decls)[n]? =
      decls[n]?.map fun decl => ((checker.after (decls.take n)).check decl).1 := by
  induction decls generalizing checker n with
  | nil => rfl
  | cons decl rest ih =>
    cases n with
    | zero => rfl
    | succ n =>
      simp only [run, List.getElem?_cons_succ, ih, List.take_succ_cons]
      rfl

theorem after_take_succ (checker : ImportChecker) {decls : List ImportDecl} {n : ℕ}
    {decl : ImportDecl} (h : decls[n]? = some decl) :
    checker.after (decls.take (n + 1)) = ((checker.after (decls.take n)).check decl).2 := by
  obtain ⟨hn, rfl⟩ := List.getElem?_eq_some_iff.mp h
  rw [List.take_succ_eq_append_getElem hn]
  simp only [after, List.foldl_append, List.foldl_cons, List.foldl_nil]

theorem last_after (checker : ImportChecker) (decls : List ImportDecl) :
    (checker.after decls).last =
      ((decls.filter (·.IsRecognized)).getLast?.map ImportDecl.record).or checker.last := by
  induction decls generalizing checker with
  | nil => rfl
  | cons decl rest ih =>
    have hstep : checker.after (decl :: rest) = (checker.check decl).2.after rest := rfl
    rw [hstep, ih]
    by_cases h : decl.IsRecognized
    · rw [checker.check_of_isRecognized h, List.filter_cons_of_pos (by simpa using h)]
      cases hrest : (rest.filter (·.IsRecognized)).getLast? <;> simp [List.getLast?_cons, hrest]
    · obtain ⟨_, _, -, hcheck⟩ := checker.exists_check_of_not_isRecognized h
      rw [hcheck, List.filter_cons_of_neg (by simpa using h)]

theorem last_after_take (decls : List ImportDecl) (n : ℕ) :
    (after {} (decls.take n)).last = (nearestRecognized? decls n).map ImportDecl.record := by
  simp [last_after, nearestRecognized?]

theorem checkAll_filter (checker : ImportChecker) (decls : List ImportDecl) :
    checker.checkAll (decls.filter (·.IsRecognized)) =
      ⟨(checker.run decls).flatMap (·.violations), none⟩ := by
  induction decls generalizing checker with
  | nil => rfl
  | cons decl rest ih =>
    by_cases h : decl.IsRecognized
    · rw [List.filter_cons_of_pos (by simpa using h), checkAll, run]
      simp only [checker.check_of_isRecognized h, ih, Findings.andThen_success, List.flatMap_cons]
    · obtain ⟨_, _, -, hcheck⟩ := checker.exists_check_of_not_isRecognized h
      rw [List.filter_cons_of_neg (by simpa using h), run]
      simp only [hcheck, ih, List.flatMap_cons, List.nil_append]

theorem checkAll_eq_run (checker : ImportChecker) {decls : List ImportDecl}
    (h : ∀ decl ∈ decls, decl.IsRecognized) :
    checker.checkAll decls = ⟨(checker.run decls).flatMap (·.violations), none⟩ := by
  have hf : decls.filter (·.IsRecognized) = decls :=
    List.filter_eq_self.mpr fun decl hdecl => by simpa using h decl hdecl
  rw [← checkAll_filter, hf]

theorem flatMap_run_filter (checker : ImportChecker) (decls : List ImportDecl) :
    (checker.run (decls.filter (·.IsRecognized))).flatMap (·.violations) =
      (checker.run decls).flatMap (·.violations) := by
  have h := checker.checkAll_filter (decls.filter (·.IsRecognized))
  rw [List.filter_filter] at h
  simp only [Bool.and_self, checkAll_filter] at h
  exact (congrArg Findings.violations h).symm

theorem stepOutcome_check {decls : List ImportDecl} {n : ℕ} {decl : ImportDecl}
    (hn : decls[n]? = some decl) :
    StepOutcome decls n decl ((after {} (decls.take n)).check decl).1 := by
  have hafter := after_take_succ {} hn
  by_cases h : decl.IsRecognized
  · rw [check_of_isRecognized _ h] at hafter ⊢
    refine ⟨?_, by simp, ?_⟩
    · simpa [ImportDecl.IsRecognized] using h
    · intro _
      refine ⟨ImportDecl.classify_of_isRecognized h, hafter, _, rfl,
        length_declarationViolations_le _ _, ?_⟩
      intro violation
      rw [mem_declarationViolations, last_after_take]
      simp
  · obtain ⟨before, s, hfirst, hcheck⟩ :=
      (after {} (decls.take n)).exists_check_of_not_isRecognized h
    rw [hcheck] at hafter ⊢
    refine ⟨?_, ?_, by simp⟩
    · simpa using hfirst.not_forall
    · intro e he
      obtain rfl : .ofSpecifier s = e := by simpa using he
      exact ⟨⟨before, s, hfirst, rfl⟩, rfl, hafter⟩

/-- A run of a fresh checker over any declarations, failures included: every step has its outcome,
and the violations of the run are those of the run without the failing declarations. -/
theorem run_outcomes (decls : List ImportDecl) :
    ¬ (SpecifierKind.ofTag (utf8 "none")).IsRecognized ∧
      (run {} decls).length = decls.length ∧
      (∀ n, ∀ decl ∈ decls[n]?, ∃ findings ∈ (run {} decls)[n]?,
        StepOutcome decls n decl findings) ∧
      (run {} decls).flatMap (·.violations) =
        (run {} (decls.filter (·.IsRecognized))).flatMap (·.violations) ∧
      checkAll {} (decls.filter (·.IsRecognized)) =
        ⟨(run {} decls).flatMap (·.violations), none⟩ := by
  refine ⟨?_, length_run _ _, ?_, (flatMap_run_filter _ _).symm, checkAll_filter _ _⟩
  · rw [SpecifierKind.isRecognized_ofTag_iff]
    decide
  · intro n decl hn
    refine ⟨_, ?_, stepOutcome_check hn⟩
    rw [Option.mem_def, getElem?_run, hn, Option.map_some]

end ImportChecker

end OrderLint
