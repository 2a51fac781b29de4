import OrderLint.Proofs.Sortedness

/-!
# Accepted orders of imports, and single edits

A declaration is displaced when its record does not follow the one before it, and these are the
declarations that a fresh checker reports as a whole. The records are totally preordered, and only
equal records are tied. So any declarations have an order that is accepted, in which the sequence of
records is the only possible one. An edit replaces one pair of neighbours by two, or two by one, and
the preorder leaves room for one displaced declaration more at most.
-/
namespace OrderLint

def Code.isPlacement : Code → Bool
  | .relativeGroupOrder | .specifierGroupOrder | .alphabetImportOrder => true
  | _ => false

namespace ImportRecord.Precedes

variable {a b : ImportRecord}

theorem total (a b : ImportRecord) : a.Precedes b ∨ b.Precedes a := by
  have hkeys : a.sortKey ≤ b.sortKey ∨ b.sortKey ≤ a.sortKey := List.le_total _ _
  have hranks := Nat.lt_trichotomy a.bucket.rank b.bucket.rank
  unfold Precedes
  cases a.external <;> cases b.external <;> grind

theorem antisymm (hab : a.Precedes b) (hba : b.Precedes a) : a = b := by
  unfold Precedes at hab hba
  have hgroup : a.external = b.external := by grind
  have hrank : a.bucket.rank = b.bucket.rank := by grind
  have hkey : a.sortKey = b.sortKey := by
    apply List.le_antisymm <;> grind
  obtain ⟨external, bucket, sortKey⟩ := a
  cases Bucket.rank_injective hrank
  simp_all

end ImportRecord.Precedes

instance : DecidableRel ImportRecord.Precedes :=
  fun a b => decidable_of_iff _ (brokenRule?_eq_none_iff a b)

namespace ImportDecl

/-- A declaration after another one whose record it does not follow. -/
def Displaced (before decl : ImportDecl) : Prop := ¬ before.record.Precedes decl.record

instance : DecidableRel Displaced := fun _ _ => inferInstanceAs (Decidable (¬ _))

theorem Displaced.trans {a b c : ImportDecl} (hab : a.Displaced b) (hbc : b.Displaced c) :
    a.Displaced c := by
  have hba := (ImportRecord.Precedes.total a.record b.record).resolve_left hab
  intro hac
  exact hbc (hba.trans hac)

theorem not_displaced_trans {a b c : ImportDecl} (hab : ¬ a.Displaced b) (hbc : ¬ b.Displaced c) :
    ¬ a.Displaced c := by
  simp only [Displaced, not_not] at *
  exact hab.trans hbc

theorem exists_perm_pairwise (decls : List ImportDecl) :
    ∃ order : List ImportDecl, order.Perm decls ∧
      order.Pairwise fun a b => a.record.Precedes b.record := by
  let le : ImportDecl → ImportDecl → Bool := fun a b => a.record.Precedes b.record
  refine ⟨decls.mergeSort le, List.mergeSort_perm _ _, ?_⟩
  have htrans : ∀ a b c, le a b = true → le b c = true → le a c = true := by
    intro a b c hab hbc
    simp only [le, decide_eq_true_eq] at *
    exact hab.trans hbc
  have htotal : ∀ a b, (le a b || le b a) = true := by
    intro a b
    simpa [le] using ImportRecord.Precedes.total a.record b.record
  exact (List.pairwise_mergeSort htrans htotal decls).imp fun h => by simpa [le] using h

theorem map_record_eq_of_perm {xs ys : List ImportDecl} (h : xs.Perm ys)
    (hx : xs.Pairwise fun a b => a.record.Precedes b.record)
    (hy : ys.Pairwise fun a b => a.record.Precedes b.record) :
    xs.map record = ys.map record := by
  have hx' : (xs.map record).Pairwise ImportRecord.Precedes := List.pairwise_map.mpr hx
  have hy' : (ys.map record).Pairwise ImportRecord.Precedes := List.pairwise_map.mpr hy
  refine List.Perm.eq_of_pairwise ?_ hx' hy' (h.map record)
  exact fun a b _ _ hab hba => hab.antisymm hba

end ImportDecl

namespace ImportChecker

/-- The violations that a fresh checker reports on whole declarations. -/
def placements (decls : List ImportDecl) : List Violation :=
  (checkAll {} decls).violations.filter (·.code.isPlacement)

theorem filter_checkAll_cons (checker : ImportChecker) {decl : ImportDecl}
    (h : decl.IsRecognized) (rest : List ImportDecl) :
    (checker.checkAll (decl :: rest)).violations.filter (·.code.isPlacement) =
      declarationViolations checker.last decl ++
        (checkAll ⟨some decl.record⟩ rest).violations.filter (·.code.isPlacement) := by
  have hspecifiers : ((followers Specifier.NameDescends decl.namedSpecifiers).map
      (fun s => (⟨.alphabetSpecifierOrder, .specifier s⟩ : Violation))).filter
        (·.code.isPlacement) = [] := by
    simp [List.filter_eq_nil_iff, Code.isPlacement]
  have hown : (declarationViolations checker.last decl).filter (·.code.isPlacement) =
      declarationViolations checker.last decl := by
    apply List.filter_eq_self.mpr
    intro violation hv
    obtain ⟨-, prior, -, hbreaks⟩ := mem_declarationViolations.mp hv
    cases violation
    cases hbreaks <;> rfl
  simp only [checkAll, checker.check_of_isRecognized h, Findings.andThen_success,
    List.filter_append, hspecifiers, hown, List.nil_append]

theorem anchors_declarationViolations (before decl : ImportDecl) :
    (declarationViolations (some before.record) decl).map (·.anchor) =
      if before.Displaced decl then [.declaration decl] else [] := by
  have hrule := brokenRule?_eq_none_iff before.record decl.record
  cases hbroken : brokenRule? before.record decl.record with
  | none =>
    have hplace : ¬ before.Displaced decl := not_not.mpr (hrule.mp hbroken)
    simp [declarationViolations, hbroken, hplace]
  | some code =>
    have hplace : before.Displaced decl := fun h => by simp [hrule.mpr h] at hbroken
    simp [declarationViolations, hbroken, hplace]

theorem anchors_filter_checkAll (before : ImportDecl) {decls : List ImportDecl}
    (h : ∀ decl ∈ decls, decl.IsRecognized) :
    ((checkAll ⟨some before.record⟩ decls).violations.filter (·.code.isPlacement)).map (·.anchor) =
      (followers ImportDecl.Displaced (before :: decls)).map .declaration := by
  induction decls generalizing before with
  | nil => simp [checkAll]
  | cons decl rest ih =>
    obtain ⟨hdecl, hrest⟩ := List.forall_mem_cons.mp h
    rw [filter_checkAll_cons _ hdecl, List.map_append, anchors_declarationViolations, ih decl hrest,
      followers_cons_cons, List.map_append]
    split_ifs <;> rfl

theorem anchors_placements {decls : List ImportDecl} (h : ∀ decl ∈ decls, decl.IsRecognized) :
    (placements decls).map (·.anchor) =
      (followers ImportDecl.Displaced decls).map .declaration := by
  cases decls with
  | nil => rfl
  | cons decl rest =>
    obtain ⟨hdecl, hrest⟩ := List.forall_mem_cons.mp h
    rw [← anchors_filter_checkAll decl hrest, placements, filter_checkAll_cons _ hdecl]
    rfl

theorem length_placements {decls : List ImportDecl} (h : ∀ decl ∈ decls, decl.IsRecognized) :
    (placements decls).length = (followers ImportDecl.Displaced decls).length := by
  simpa using congrArg List.length (anchors_placements h)

theorem placements_eq_nil_iff {decls : List ImportDecl} (h : ∀ decl ∈ decls, decl.IsRecognized) :
    placements decls = [] ↔ decls.Pairwise fun a b => a.record.Precedes b.record := by
  have hchain : (decls.map ImportDecl.record).IsChain ImportRecord.Precedes ↔
      decls.Pairwise fun a b => a.record.Precedes b.record :=
    List.isChain_iff_pairwise.trans List.pairwise_map
  rw [← List.length_eq_zero_iff, length_placements h, List.length_eq_zero_iff,
    followers_eq_nil_iff, ← hchain, List.isChain_map]
  simp only [ImportDecl.Displaced, not_not]

end ImportChecker

/-! ## Named specifiers -/

def placeNames : List Specifier → List Specifier → List Specifier
  | [], _ => []
  | specifier :: rest, names =>
    if specifier.kind = .named then names.headD specifier :: placeNames rest names.tail
    else specifier :: placeNames rest names

def Specifier.Replaces (before after : Specifier) : Prop :=
  after.kind = before.kind ∧ (before.kind ≠ .named → after = before)

/-- `sorted` is `decl` with its named specifiers rearranged, among their own places, so that their
lower-cased names ascend. -/
structure ImportDecl.SortsNames (decl sorted : ImportDecl) : Prop where
  source : sorted.source = decl.source
  span : sorted.span = decl.span
  places : List.Forall₂ Specifier.Replaces decl.specifiers sorted.specifiers
  names : sorted.namedSpecifiers.Perm decl.namedSpecifiers
  ascending : sorted.namedSpecifiers.Pairwise fun a b => lower a.binding ≤ lower b.binding

theorem placeNames_replaces (specifiers : List Specifier) {names : List Specifier}
    (hnamed : ∀ name ∈ names, name.kind = .named) :
    List.Forall₂ Specifier.Replaces specifiers (placeNames specifiers names) := by
  induction specifiers generalizing names with
  | nil => exact .nil
  | cons specifier rest ih =>
    rw [placeNames]
    split_ifs with h
    · have htail : ∀ name ∈ names.tail, name.kind = .named :=
        fun name hname => hnamed name (List.mem_of_mem_tail hname)
      refine .cons ⟨?_, fun hne => absurd h hne⟩ (ih htail)
      cases names with
      | nil => rfl
      | cons name names => rw [h]; exact hnamed name (by simp)
    · exact .cons ⟨rfl, fun _ => rfl⟩ (ih hnamed)

theorem filter_placeNames (specifiers : List Specifier) {names : List Specifier}
    (hnamed : ∀ name ∈ names, name.kind = .named)
    (hlength : names.length = (specifiers.filter fun s => s.kind = .named).length) :
    (placeNames specifiers names).filter (fun s => s.kind = .named) = names := by
  induction specifiers generalizing names with
  | nil => exact (List.length_eq_zero_iff.mp hlength).symm
  | cons specifier rest ih =>
    rw [placeNames]
    split_ifs with h
    · cases names with
      | nil => simp [h] at hlength
      | cons name names =>
        obtain ⟨hname, hnames⟩ := List.forall_mem_cons.mp hnamed
        have hrest := ih hnames (by simpa [h] using hlength)
        simp [hname, hrest]
    · have hrest := ih hnamed (by simpa [h] using hlength)
      simp [h, hrest]

theorem exists_sortsNames (decl : ImportDecl) : ∃ sorted, decl.SortsNames sorted := by
  let le : Specifier → Specifier → Bool := fun a b => lower a.binding ≤ lower b.binding
  have htrans : ∀ a b c, le a b = true → le b c = true → le a c = true := by
    intro a b c hab hbc
    simp only [le, decide_eq_true_eq] at *
    exact List.le_trans hab hbc
  have htotal : ∀ a b, (le a b || le b a) = true := by
    intro a b
    simpa [le] using List.le_total (lower a.binding) (lower b.binding)
  have hperm := List.mergeSort_perm decl.namedSpecifiers le
  have hnamed : ∀ name ∈ decl.namedSpecifiers.mergeSort le, name.kind = .named := by
    intro name hname
    simpa using (List.mem_filter.mp (hperm.mem_iff.mp hname)).2
  have hplaced := filter_placeNames decl.specifiers hnamed hperm.length_eq
  refine ⟨⟨decl.source, placeNames decl.specifiers _, decl.span⟩, rfl, rfl,
    placeNames_replaces _ hnamed, ?_, ?_⟩
  · rw [ImportDecl.namedSpecifiers, hplaced]
    exact hperm
  · rw [ImportDecl.namedSpecifiers, hplaced]
    exact (List.pairwise_mergeSort htrans htotal _).imp fun h => by simpa [le] using h

theorem ImportDecl.SortsNames.isRecognized {decl sorted : ImportDecl} (h : decl.SortsNames sorted)
    (hdecl : decl.IsRecognized) : sorted.IsRecognized := by
  intro specifier hs
  obtain ⟨before, hbefore, hkind, -⟩ := exists_of_mem_right h.places hs
  rw [Specifier.IsRecognized, hkind]
  exact hdecl before hbefore

namespace ImportChecker

/-- Any declarations have an order in which none is reported as a whole, and all such orders show
the same records. Once the names inside each declaration are sorted, some order of the declarations
is accepted without any report. -/
theorem accepted_order (decls : List ImportDecl) (h : ∀ decl ∈ decls, decl.IsRecognized) :
    (∃ order : List ImportDecl, order.Perm decls ∧ placements order = []) ∧
      (∀ order order' : List ImportDecl, order.Perm decls → order'.Perm decls →
        placements order = [] → placements order' = [] →
        order.map ImportDecl.record = order'.map ImportDecl.record) ∧
      (∃ sorted, List.Forall₂ ImportDecl.SortsNames decls sorted) ∧
      ∀ sorted, List.Forall₂ ImportDecl.SortsNames decls sorted →
        ∃ order : List ImportDecl, order.Perm sorted ∧ checkAll {} order = ⟨[], none⟩ := by
  have hperm : ∀ {order : List ImportDecl}, order.Perm decls →
      ∀ decl ∈ order, decl.IsRecognized := fun hp decl hdecl => h decl (hp.mem_iff.mp hdecl)
  refine ⟨?_, ?_, ?_, ?_⟩
  · obtain ⟨order, hp, hsorted⟩ := ImportDecl.exists_perm_pairwise decls
    exact ⟨order, hp, (placements_eq_nil_iff (hperm hp)).mpr hsorted⟩
  · intro order order' hp hp' hnil hnil'
    exact ImportDecl.map_record_eq_of_perm (hp.trans hp'.symm)
      ((placements_eq_nil_iff (hperm hp)).mp hnil) ((placements_eq_nil_iff (hperm hp')).mp hnil')
  · choose sort hsort using exists_sortsNames
    exact ⟨decls.map sort, List.forall₂_map_right_iff.mpr
      (List.forall₂_same.mpr fun decl _ => hsort decl)⟩
  · intro sorted hsorts
    obtain ⟨order, hp, hsorted⟩ := ImportDecl.exists_perm_pairwise sorted
    have hfrom : ∀ decl ∈ order, ∃ origin ∈ decls, origin.SortsNames decl :=
      fun decl hdecl => exists_of_mem_right hsorts (hp.mem_iff.mp hdecl)
    refine ⟨order, hp, (checkAll_fresh_eq_empty_iff ?_).mpr ⟨hsorted, ?_⟩⟩
    · intro decl hdecl
      obtain ⟨origin, horigin, hs⟩ := hfrom decl hdecl
      exact hs.isRecognized (h origin horigin)
    · intro decl hdecl
      obtain ⟨origin, -, hs⟩ := hfrom decl hdecl
      exact hs.ascending

-- Once its names are sorted the last declaration is keyed by `a`, and comes before the first one.
def shuffledImports : List ImportDecl := [
  ⟨utf8 "react", [⟨.named, utf8 "m", default⟩], default⟩,
  ⟨utf8 "./b", [], default⟩,
  ⟨utf8 "lodash", [⟨.named, utf8 "Z", default⟩, ⟨.wildcard, utf8 "W", default⟩,
    ⟨.named, utf8 "a", default⟩], default⟩]

theorem accepted_order_shuffledImports :
    (∀ decl ∈ shuffledImports, decl.IsRecognized) ∧ placements shuffledImports ≠ [] ∧
      (∃ order : List ImportDecl, order.Perm shuffledImports ∧ placements order = []) ∧
      ∃ sorted order : List ImportDecl, List.Forall₂ ImportDecl.SortsNames shuffledImports sorted ∧
        order.Perm sorted ∧ checkAll {} order = ⟨[], none⟩ := by
  have hkinds : ∀ decl ∈ shuffledImports, decl.IsRecognized := by decide
  obtain ⟨horder, -, ⟨sorted, hsorts⟩, hclean⟩ := accepted_order shuffledImports hkinds
  obtain ⟨order, hperm, hempty⟩ := hclean sorted hsorts
  exact ⟨hkinds, by decide +kernel, horder, sorted, order, hsorts, hperm, hempty⟩

end ImportChecker

/-! ## Single edits -/

section Insertion

variable {α : Type*} {R : α → α → Prop} [DecidableRel R]
  (hR : ∀ a b c, R a b → R b c → R a c) (hnot : ∀ a b c, ¬ R a b → ¬ R b c → ¬ R a c)

include hR hnot in
theorem length_followers_insert (xs ys : List α) (d : α) :
    (followers R (xs ++ d :: ys)).length = (followers R (xs ++ ys)).length ∨
      (followers R (xs ++ d :: ys)).length = (followers R (xs ++ ys)).length + 1 := by
  induction xs with
  | nil =>
    cases ys with
    | nil => simp
    | cons y ys =>
      simp only [List.nil_append, followers_cons_cons, List.length_append]
      by_cases hdy : R d y <;> simp [hdy, Nat.add_comm]
  | cons x xs ih =>
    cases xs with
    | cons x' xs =>
      simp only [List.cons_append, followers_cons_cons, List.length_append] at ih ⊢
      omega
    | nil =>
      -- The pair `x`, `y` gives way to `x`, `d` and `d`, `y`.
      cases ys with
      | nil =>
        simp only [List.cons_append, List.nil_append, followers_cons_cons, List.length_append]
        by_cases hxd : R x d <;> simp [hxd]
      | cons y ys =>
        simp only [List.cons_append, List.nil_append, followers_cons_cons, List.length_append]
        have hboth : R x d → R d y → R x y := hR x d y
        have hneither : ¬ R x d → ¬ R d y → ¬ R x y := hnot x d y
        by_cases hxd : R x d <;> by_cases hdy : R d y <;> by_cases hxy : R x y <;>
          simp [hxd, hdy, hxy] at hboth hneither ⊢ <;> omega

end Insertion

namespace ImportChecker

/-- One more declaration, wherever it is put, is one more report on whole declarations or none. So
no report arises when a declaration is taken away, and one at most when one is added to a list
without reports. -/
theorem placements_insert (xs ys : List ImportDecl) (d : ImportDecl)
    (h : ∀ decl ∈ xs ++ [d] ++ ys, decl.IsRecognized) :
    ((placements (xs ++ [d] ++ ys)).length = (placements (xs ++ ys)).length ∨
        (placements (xs ++ [d] ++ ys)).length = (placements (xs ++ ys)).length + 1) ∧
      (placements (xs ++ ys)).length ≤ (placements (xs ++ [d] ++ ys)).length ∧
      (placements (xs ++ ys) = [] → (placements (xs ++ [d] ++ ys)).length ≤ 1) := by
  have hrest : ∀ decl ∈ xs ++ ys, decl.IsRecognized := by
    intro decl hdecl
    apply h
    simp only [List.append_assoc, List.mem_append, List.mem_singleton] at hdecl ⊢
    tauto
  have hcount := length_followers_insert (R := ImportDecl.Displaced)
    (fun _ _ _ => ImportDecl.Displaced.trans) (fun _ _ _ => ImportDecl.not_displaced_trans) xs ys d
  rw [← length_placements hrest, List.append_cons, ← length_placements h] at hcount
  refine ⟨hcount, by omega, ?_⟩
  intro hclean
  rw [hclean, List.length_nil] at hcount
  omega

-- The declaration in the middle follows a relative import and precedes one that sorts before it.
theorem placements_insert_external :
    let relative : ImportDecl := ⟨utf8 "./b", [⟨.default, utf8 "b", default⟩], default⟩
    let external : ImportDecl := ⟨utf8 "react", [], default⟩
    let earlier : ImportDecl := ⟨utf8 "lodash", [], default⟩
    (∀ decl ∈ [relative] ++ [external] ++ [earlier], decl.IsRecognized) ∧
      (placements ([relative] ++ [earlier])).length = 1 ∧
      (placements ([relative] ++ [external] ++ [earlier])).length = 2 := by
  intro relative external earlier
  have hkinds : ∀ decl ∈ [relative] ++ [external] ++ [earlier], decl.IsRecognized := by decide
  have hbefore : (placements ([relative] ++ [earlier])).length = 1 := by decide +kernel
  obtain ⟨hcount, -⟩ := placements_insert [relative] [earlier] external hkinds
  have hafter : (placements ([relative] ++ [external] ++ [earlier])).length ≠ 1 := by
    decide +kernel
  refine ⟨hkinds, hbefore, ?_⟩
  rw [hbefore] at hcount
  exact hcount.resolve_left hafter

end ImportChecker

end OrderLint
