import Mathlib
import OrderLint.JavaScript.Parse
import OrderLint.Proofs.TreeWalk

/-!
# The first bad node of a syntax tree

A file is refused at its first bad node. The search for it looks only below children that are
flagged or missing, so it depends on the flags. Where they are exact, a child that is skipped has
nothing bad in it and a child that is searched yields a bad node, and the search agrees with the one
that reads every node in pre-order. A flagged tree is then always refused at a position.
-/
namespace OrderLint.JavaScript

namespace Tree

def IsBad (node : Tree) : Prop := node.kind = "ERROR" ∨ node.label.missing = true

instance : DecidablePred IsBad := fun _ => inferInstanceAs (Decidable (_ ∨ _))

/-- `bad` is the first bad node of the tree in pre-order. -/
def FirstBad (tree bad : Tree) : Prop :=
  ∃ before after, tree.preorder = before ++ bad :: after ∧ (∀ node ∈ before, ¬node.IsBad) ∧ bad.IsBad

instance : DecidablePred FlagsExact := fun tree =>
  inferInstanceAs (Decidable (∀ node ∈ tree.preorder,
    node.label.flagged = node.preorder.any (·.label.isBad)))

theorem isBad_iff (node : Tree) : node.label.isBad = true ↔ node.IsBad := by
  simp [Label.isBad, IsBad, errorKind, kind]

def bad? (tree : Tree) : Option Tree := tree.preorder.find? (·.label.isBad)

theorem bad?_eq_none_iff (tree : Tree) :
    tree.bad? = none ↔ ∀ node ∈ tree.preorder, ¬node.IsBad := by
  simp only [bad?, List.find?_eq_none, isBad_iff]

theorem bad?_eq_some_iff (tree bad : Tree) : tree.bad? = some bad ↔ tree.FirstBad bad := by
  simp only [bad?, List.find?_eq_some_iff_append, FirstBad, isBad_iff, Bool.not_eq_true']
  constructor
  · rintro ⟨hbad, before, after, hsplit, hbefore⟩
    refine ⟨before, after, hsplit, ?_, hbad⟩
    intro node hnode
    rw [← isBad_iff, hbefore node hnode]
    exact Bool.false_ne_true
  · rintro ⟨before, after, hsplit, hbefore, hbad⟩
    refine ⟨hbad, before, after, hsplit, ?_⟩
    intro node hnode
    rw [← Bool.not_eq_true, isBad_iff]
    exact hbefore node hnode

theorem bad?_node (label : Label) (children : List Tree) :
    (Tree.node label children).bad? = if label.isBad then some (.node label children)
      else (children.flatMap preorder).find? (·.label.isBad) := by
  rw [bad?, preorder_node, List.find?_cons]
  change (match label.isBad with | true => _ | false => _) = _
  cases label.isBad <;> rfl

namespace FlagsExact

variable {tree : Tree}

theorem child (h : tree.FlagsExact) {child : Tree} (hchild : child ∈ tree.children) :
    child.FlagsExact :=
  fun node hnode => h node (mem_preorder_of_mem hchild hnode)

theorem flagged_iff (h : tree.FlagsExact) :
    tree.label.flagged = true ↔ ∃ node ∈ tree.preorder, node.IsBad := by
  rw [h tree tree.self_mem_preorder, List.any_eq_true]
  simp only [isBad_iff]

theorem bad?_of_skipped (h : tree.FlagsExact)
    (hskipped : ¬(tree.label.flagged || tree.label.missing) = true) : tree.bad? = none := by
  rw [bad?_eq_none_iff]
  intro node hnode hbad
  have hflagged := h.flagged_iff.mpr ⟨node, hnode, hbad⟩
  simp [hflagged] at hskipped

theorem exists_bad? (h : tree.FlagsExact) (hflagged : tree.label.flagged = true) :
    ∃ bad, tree.bad? = some bad := by
  rw [← Option.ne_none_iff_exists', ne_eq, bad?_eq_none_iff]
  intro hsound
  obtain ⟨node, hnode, hbad⟩ := h.flagged_iff.mp hflagged
  exact hsound node hnode hbad

end FlagsExact

theorem firstBadAmong?_eq {children : List Tree} (h : ∀ child ∈ children, child.FlagsExact)
    (hfirst : ∀ child ∈ children, child.firstBad? = child.bad?) :
    firstBadAmong? children = (children.flatMap preorder).find? (·.label.isBad) := by
  induction children with
  | nil => rfl
  | cons child rest ih =>
    obtain ⟨hexact, hexacts⟩ := List.forall_mem_cons.mp h
    obtain ⟨hchild, hrest⟩ := List.forall_mem_cons.mp hfirst
    rw [firstBadAmong?, List.flatMap_cons, List.find?_append, ih hexacts hrest, ← bad?]
    split_ifs with hsearched
    · rw [hchild]
      cases child.bad? <;> rfl
    · rw [hexact.bad?_of_skipped hsearched, Option.none_or]

theorem FlagsExact.firstBad?_eq {tree : Tree} (h : tree.FlagsExact) :
    tree.firstBad? = tree.bad? := by
  induction tree using Tree.induction with
  | node label children ih =>
    have hchildren : ∀ child ∈ children, child.FlagsExact := fun child hchild => h.child hchild
    rw [firstBad?, bad?_node,
      firstBadAmong?_eq hchildren fun child hchild => ih child hchild (hchildren child hchild)]

theorem FlagsExact.toOutline_eq {tree : Tree} (h : tree.FlagsExact)
    (hflagged : tree.label.flagged = true) (path src : Bytes) :
    ∃ bad, tree.bad? = some bad ∧
      tree.toOutline path src = .error ⟨path, some bad.label.start.position⟩ := by
  obtain ⟨bad, hbad⟩ := h.exists_bad? hflagged
  refine ⟨bad, hbad, ?_⟩
  rw [toOutline, if_pos hflagged, h.firstBad?_eq, hbad, Option.map_some]

theorem flagsExact_of_badLeaf {label leaf : Label} (hlabel : label.isBad = false)
    (hflagged : label.flagged = true) (hleaf : leaf.isBad = true) (hflag : leaf.flagged = true) :
    (Tree.node label [.node leaf []]).FlagsExact ∧
      (Tree.node label [.node leaf []]).bad? = some (.node leaf []) := by
  have hpreorder : (Tree.node label [.node leaf []]).preorder =
      [.node label [.node leaf []], .node leaf []] := by
    simp [preorder_node]
  refine ⟨?_, ?_⟩
  · intro node hnode
    rw [hpreorder] at hnode
    rcases List.mem_pair.mp hnode with rfl | rfl
    · rw [hpreorder]
      simp [Tree.label, hflagged, hleaf]
    · simp [preorder_node, Tree.label, hflag, hleaf]
  · rw [bad?, hpreorder]
    simp [Tree.label, hlabel, hleaf]

end Tree

theorem repair_leaf (src : Bytes) (stop : Stop) : ∃ leaf : Label,
    repair src stop = .node leaf [] ∧ leaf.isBad = true ∧ leaf.flagged = true := by
  rw [repair]
  split
  · split_ifs <;> exact ⟨_, rfl, rfl, rfl⟩
  · split <;> exact ⟨_, rfl, rfl, rfl⟩

theorem syntaxTree_of_error {src : Bytes} {stop : Stop} (h : readProgram true src = .error stop) :
    (syntaxTree src).FlagsExact ∧ (syntaxTree src).label.flagged = true ∧
      (syntaxTree src).bad? = some (repair src stop) := by
  obtain ⟨leaf, hrepair, hbad, hflag⟩ := repair_leaf src stop
  have htree : syntaxTree src = programTree src [.node leaf []] := by
    rw [← hrepair, syntaxTree, h]
  have hflagged : (programTree src [.node leaf []]).label.flagged = true := by
    simp [programTree, Tree.label, hflag]
  obtain ⟨hexact, hfirst⟩ := Tree.flagsExact_of_badLeaf rfl hflagged hbad hflag
  rw [htree, hrepair]
  exact ⟨hexact, hflagged, hfirst⟩

namespace Tree

/-- A text that is no program is refused where it is repaired. -/
theorem parse_refused {path src : Bytes} {stop : Stop} (h : readProgram true src = .error stop) :
    parse path src = .error ⟨path, some (repair src stop).label.start.position⟩ := by
  obtain ⟨hexact, hflagged, hrepair⟩ := syntaxTree_of_error h
  obtain ⟨bad, hbad, hrefused⟩ := hexact.toOutline_eq hflagged path src
  obtain rfl := Option.some.inj (hrepair.symm.trans hbad)
  exact hrefused

example : parse (utf8 "a.js") (utf8 "import a b from 'x'\n") =
    .error ⟨utf8 "a.js", some ⟨1, 9⟩⟩ := by decide +kernel

/-- The search finds the first bad node of a tree with exact flags, and nothing exactly when no node
of it is bad. So such a tree is refused exactly when its flag is set, at the start of its first bad
node, and never without a position. -/
theorem refused_at_firstBad (path src : Bytes) (tree : Tree) (hexact : tree.FlagsExact) :
    (∀ bad, tree.firstBad? = some bad ↔ tree.FirstBad bad) ∧
    (tree.firstBad? = none ↔ ∀ node ∈ tree.preorder, ¬node.IsBad) ∧
    (tree.label.flagged = true → ∃ bad, tree.FirstBad bad ∧
      tree.toOutline path src = .error ⟨path, some bad.label.start.position⟩) ∧
    ∀ e, tree.toOutline path src = .error e → tree.label.flagged = true ∧ e.position ≠ none := by
  have hrefused : tree.label.flagged = true → ∃ bad, tree.FirstBad bad ∧
      tree.toOutline path src = .error ⟨path, some bad.label.start.position⟩ := by
    intro hflagged
    obtain ⟨bad, hbad, hrefused⟩ := hexact.toOutline_eq hflagged path src
    exact ⟨bad, (bad?_eq_some_iff tree bad).mp hbad, hrefused⟩
  refine ⟨?_, ?_, hrefused, ?_⟩
  · intro bad
    rw [hexact.firstBad?_eq, bad?_eq_some_iff]
  · rw [hexact.firstBad?_eq, bad?_eq_none_iff]
  · intro e he
    by_cases hflagged : tree.label.flagged = true
    · obtain ⟨bad, -, hrefused⟩ := hrefused hflagged
      obtain rfl := Except.error.inj (hrefused.symm.trans he)
      exact ⟨hflagged, Option.some_ne_none _⟩
    · rw [toOutline, if_neg hflagged] at he
      cases he

def markedNode (kind : String) (flagged : Bool) (start : Point) (children : List Tree) : Tree :=
  .node { kind, flagged, start, finish := start, first := 0, last := 0 } children

def missingSemicolon : Tree :=
  .node { kind := ";", missing := true, flagged := true, start := ⟨2, 7⟩, finish := ⟨2, 7⟩,
          first := 0, last := 0 } []

-- The missing semicolon lies deeper than the error nodes, which come after it.
def brokenProgram : Tree :=
  markedNode "program" true ⟨0, 0⟩
    [markedNode "class_declaration" false ⟨0, 0⟩ [markedNode "class_body" false ⟨0, 8⟩ []],
      markedNode "statement_block" true ⟨1, 0⟩
        [markedNode "expression_statement" true ⟨2, 2⟩
          [markedNode "identifier" false ⟨2, 2⟩ [], missingSemicolon],
          markedNode "ERROR" true ⟨3, 2⟩ [markedNode "identifier" false ⟨3, 2⟩ []]],
      markedNode "ERROR" true ⟨5, 0⟩ []]

theorem refused_at_missingSemicolon :
    brokenProgram.FlagsExact ∧ brokenProgram.FirstBad missingSemicolon ∧
      brokenProgram.toOutline (utf8 "a.js") [] = .error ⟨utf8 "a.js", some ⟨3, 7⟩⟩ := by
  have hexact : brokenProgram.FlagsExact := by decide
  obtain ⟨hfirst, -, hrefused, -⟩ := refused_at_firstBad (utf8 "a.js") [] _ hexact
  obtain ⟨bad, hbad, hrefused⟩ := hrefused rfl
  obtain rfl : missingSemicolon = bad := Option.some.inj ((hfirst bad).mpr hbad)
  exact ⟨hexact, hbad, hrefused⟩

end Tree

end OrderLint.JavaScript
