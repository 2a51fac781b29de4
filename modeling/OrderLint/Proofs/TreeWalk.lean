import Mathlib
import OrderLint.JavaScript.Outline

/-!
# What the walk over a syntax tree gathers

The walk fills three lists in one pass and stops at comments. What belongs into them is said here
one by one, over the nodes of the tree in pre-order, each taken together with the nodes that it lies
in: the comments, the imports right under a program, and the class bodies, always outside of
comments. The walk gathers these nodes, in this order, and no others.
-/
namespace OrderLint.JavaScript

theorem Tree.induction {motive : Tree → Prop}
    (node : ∀ label children, (∀ child ∈ children, motive child) → motive (.node label children))
    (tree : Tree) : motive tree :=
  @Tree.rec motive (fun trees => ∀ tree ∈ trees, motive tree) node (by simp)
    (fun _ _ h hs => List.forall_mem_cons.mpr ⟨h, hs⟩) tree

/-- A node of a tree together with the nodes that it lies in, innermost first. -/
structure Occurrence where
  node : Tree
  above : List Tree

namespace Occurrence

def OutsideComments (o : Occurrence) : Prop := ∀ outer ∈ o.above, outer.kind ≠ "comment"

instance : DecidablePred OutsideComments :=
  fun o => inferInstanceAs (Decidable (∀ outer ∈ o.above, outer.kind ≠ "comment"))

def IsComment (o : Occurrence) : Prop := o.OutsideComments ∧ o.node.kind = "comment"

instance : DecidablePred IsComment := fun _ => inferInstanceAs (Decidable (_ ∧ _))

def IsModuleImport (o : Occurrence) : Prop :=
  o.OutsideComments ∧ o.node.kind = "import_statement" ∧
    ∃ parent ∈ o.above.head?, parent.kind = "program"

instance : DecidablePred IsModuleImport := fun _ => inferInstanceAs (Decidable (_ ∧ _ ∧ _))

def IsClassBody (o : Occurrence) : Prop := o.OutsideComments ∧ o.node.kind = "class_body"

instance : DecidablePred IsClassBody := fun _ => inferInstanceAs (Decidable (_ ∧ _))

end Occurrence

namespace Tree

mutual

/-- The nodes of a tree in pre-order, when the tree lies in the nodes `above`. -/
def occurrences (above : List Tree) : Tree → List Occurrence
  | .node label children =>
    ⟨.node label children, above⟩ :: occurrencesAmong (.node label children :: above) children

def occurrencesAmong (above : List Tree) : List Tree → List Occurrence
  | [] => []
  | tree :: rest => occurrences above tree ++ occurrencesAmong above rest

end

def nodesWhere (P : Occurrence → Prop) [DecidablePred P] (tree : Tree) : List Tree :=
  ((tree.occurrences []).filter (P ·)).map (·.node)

theorem occurrencesAmong_eq_flatMap (above trees : List Tree) :
    occurrencesAmong above trees = trees.flatMap (occurrences above) := by
  induction trees with
  | nil => rfl
  | cons tree rest ih => rw [occurrencesAmong, ih, List.flatMap_cons]

theorem preorderAll_eq_flatMap (trees : List Tree) :
    preorder.preorderAll trees = trees.flatMap preorder := by
  induction trees with
  | nil => rfl
  | cons tree rest ih => rw [preorder.preorderAll, ih, List.flatMap_cons]

theorem preorder_node (label : Label) (children : List Tree) :
    (Tree.node label children).preorder = .node label children :: children.flatMap preorder := by
  rw [preorder, preorderAll_eq_flatMap]

theorem self_mem_preorder (tree : Tree) : tree ∈ tree.preorder := by
  obtain ⟨label, children⟩ := tree
  simp [preorder_node]

theorem mem_preorder_of_mem {tree child node : Tree} (h : child ∈ tree.children)
    (hnode : node ∈ child.preorder) : node ∈ tree.preorder := by
  obtain ⟨label, children⟩ := tree
  rw [preorder_node]
  exact List.mem_cons_of_mem _ (List.mem_flatMap.mpr ⟨child, h, hnode⟩)

theorem preorder_subset {tree node : Tree} (h : node ∈ tree.preorder) :
    node.preorder ⊆ tree.preorder := by
  induction tree using Tree.induction with
  | node label children ih =>
    intro other hother
    have hnode := h
    rw [preorder_node] at hnode
    rcases List.mem_cons.mp hnode with rfl | hnode
    · exact hother
    · obtain ⟨child, hchild, hnode⟩ := List.mem_flatMap.mp hnode
      exact mem_preorder_of_mem hchild (ih child hchild hnode hother)

theorem map_node_occurrences (tree : Tree) (above : List Tree) :
    (tree.occurrences above).map (·.node) = tree.preorder := by
  induction tree using Tree.induction generalizing above with
  | node label children ih =>
    rw [occurrences, preorder_node, occurrencesAmong_eq_flatMap, List.map_cons, List.map_flatMap]
    congr 1
    exact List.flatMap_congr fun child hchild => ih child hchild _

theorem nodesWhere_sublist (P : Occurrence → Prop) [DecidablePred P] (tree : Tree) :
    (tree.nodesWhere P).Sublist tree.preorder := by
  rw [← map_node_occurrences tree []]
  exact List.filter_sublist.map _

theorem suffix_above {tree : Tree} {above : List Tree} {o : Occurrence}
    (ho : o ∈ tree.occurrences above) : above <:+ o.above := by
  induction tree using Tree.induction generalizing above with
  | node label children ih =>
    rw [occurrences, occurrencesAmong_eq_flatMap] at ho
    rcases List.mem_cons.mp ho with rfl | ho
    · exact List.suffix_refl _
    · obtain ⟨child, hchild, ho⟩ := List.mem_flatMap.mp ho
      exact (List.suffix_cons _ _).trans (ih child hchild ho)

end Tree

namespace Gathering

def ofOccurrences (src : Bytes) (os : List Occurrence) : Gathering :=
  ⟨(os.filter (·.IsComment)).map (·.node.comment src),
    (os.filter (·.IsModuleImport)).map (·.node.importDecl src),
    (os.filter (·.IsClassBody)).map (·.node.classBody src)⟩

theorem ofOccurrences_append (src : Bytes) (os os' : List Occurrence) :
    ofOccurrences src (os ++ os') = ofOccurrences src os ++ ofOccurrences src os' := by
  simp only [ofOccurrences, List.filter_append, List.map_append]
  rfl

theorem append_empty (g : Gathering) : g ++ ({} : Gathering) = g := by
  obtain ⟨comments, imports, bodies⟩ := g
  change Gathering.mk _ _ _ = _
  simp only [List.append_nil]

theorem ofOccurrences_eq_empty {src : Bytes} {os : List Occurrence}
    (h : ∀ o ∈ os, ¬ o.OutsideComments) : ofOccurrences src os = {} := by
  have hnone : ∀ (P : Occurrence → Prop) [DecidablePred P], (∀ o, P o → o.OutsideComments) →
      os.filter (P ·) = [] := by
    intro P _ hP
    apply List.filter_eq_nil_iff.mpr
    intro o ho hPo
    exact h o ho (hP o (by simpa using hPo))
  simp only [ofOccurrences, hnone Occurrence.IsComment fun _ h => h.1,
    hnone Occurrence.IsModuleImport fun _ h => h.1, hnone Occurrence.IsClassBody fun _ h => h.1]
  rfl

theorem ofOccurrences_comment (src : Bytes) {tree : Tree} {above : List Tree}
    (habove : ∀ outer ∈ above, outer.kind ≠ "comment") (h : tree.kind = "comment") :
    ofOccurrences src [⟨tree, above⟩] = { comments := [tree.comment src] } := by
  have hcomment : (⟨tree, above⟩ : Occurrence).IsComment := ⟨habove, h⟩
  have himport : ¬ (⟨tree, above⟩ : Occurrence).IsModuleImport := by
    simp [Occurrence.IsModuleImport, h]
  have hbody : ¬ (⟨tree, above⟩ : Occurrence).IsClassBody := by
    simp [Occurrence.IsClassBody, h]
  simp [ofOccurrences, hcomment, himport, hbody]

theorem ofOccurrences_node (src : Bytes) {tree : Tree} {above : List Tree}
    (habove : ∀ outer ∈ above, outer.kind ≠ "comment") (h : tree.kind ≠ "comment") :
    ofOccurrences src [⟨tree, above⟩] = ofNode src (above.head?.map Tree.kind) tree := by
  have hcomment : ¬ (⟨tree, above⟩ : Occurrence).IsComment := fun hc => h hc.2
  have himport : (⟨tree, above⟩ : Occurrence).IsModuleImport ↔
      tree.kind = "import_statement" ∧ above.head?.map Tree.kind = some "program" := by
    rw [Option.map_eq_some_iff]
    exact ⟨fun hi => hi.2, fun hi => ⟨habove, hi⟩⟩
  have hbody : (⟨tree, above⟩ : Occurrence).IsClassBody ↔ tree.kind = "class_body" :=
    ⟨fun hb => hb.2, fun hb => ⟨habove, hb⟩⟩
  by_cases hi : tree.kind = "import_statement"
  · by_cases hp : above.head?.map Tree.kind = some "program" <;>
      simp [ofOccurrences, ofNode, hcomment, himport, hbody, hi, hp]
  · by_cases hb : tree.kind = "class_body" <;>
      simp [ofOccurrences, ofNode, hcomment, himport, hbody, hi, hb]

end Gathering

namespace Tree

theorem gatherAll_eq {src : Bytes} {above children : List Tree}
    (h : ∀ child ∈ children, child.gather src (above.head?.map kind) =
      .ofOccurrences src (child.occurrences above)) :
    gatherAll src (above.head?.map kind) children =
      .ofOccurrences src (occurrencesAmong above children) := by
  induction children with
  | nil => rfl
  | cons child rest ih =>
    obtain ⟨hchild, hrest⟩ := List.forall_mem_cons.mp h
    rw [gatherAll, occurrencesAmong, Gathering.ofOccurrences_append, hchild, ih hrest]

/-- Outside of comments, the walk gathers from a tree what belongs into each list. -/
theorem gather_eq (src : Bytes) (tree : Tree) {above : List Tree}
    (habove : ∀ outer ∈ above, outer.kind ≠ "comment") :
    tree.gather src (above.head?.map kind) = .ofOccurrences src (tree.occurrences above) := by
  induction tree using Tree.induction generalizing above with
  | node label children ih =>
    rw [occurrences, ← List.singleton_append, Gathering.ofOccurrences_append, gather]
    by_cases hkind : (Tree.node label children).kind = "comment"
    · -- Whatever lies below the comment has it above itself and is not gathered.
      have hbelow : ∀ o ∈ occurrencesAmong (.node label children :: above) children,
          ¬ o.OutsideComments := by
        intro o ho hout
        rw [occurrencesAmong_eq_flatMap] at ho
        obtain ⟨child, -, ho⟩ := List.mem_flatMap.mp ho
        exact hout _ ((suffix_above ho).subset (by simp)) hkind
      have hlabel : (label.kind == "comment") = true := beq_iff_eq.mpr hkind
      rw [if_pos hlabel, Gathering.ofOccurrences_comment src habove hkind,
        Gathering.ofOccurrences_eq_empty hbelow, Gathering.append_empty]
    · have hinside : ∀ outer ∈ .node label children :: above, outer.kind ≠ "comment" :=
        List.forall_mem_cons.mpr ⟨hkind, habove⟩
      have hlabel : ¬ (label.kind == "comment") = true := mt beq_iff_eq.mp hkind
      rw [if_neg hlabel, Gathering.ofOccurrences_node src habove hkind,
        ← gatherAll_eq fun child hchild => ih child hchild hinside]
      rfl

theorem gather_none (src : Bytes) (tree : Tree) :
    tree.gather src none = .ofOccurrences src (tree.occurrences []) :=
  @gather_eq src tree [] (by simp)

section Outline

variable (path src : Bytes) (tree : Tree)

theorem comments_outline : (tree.outline path src).comments =
    (tree.nodesWhere Occurrence.IsComment).map (comment src) := by
  simp [outline, gather_none, Gathering.ofOccurrences, nodesWhere]

theorem imports_outline : (tree.outline path src).imports =
    (tree.nodesWhere Occurrence.IsModuleImport).map (importDecl src) := by
  simp [outline, gather_none, Gathering.ofOccurrences, nodesWhere]

theorem bodies_outline : (tree.outline path src).bodies =
    (tree.nodesWhere Occurrence.IsClassBody).map (classBody src) := by
  simp [outline, gather_none, Gathering.ofOccurrences, nodesWhere]

end Outline

def memberNodes (tree : Tree) : List Tree := tree.namedChildren.filter (·.kind != "comment")

theorem memberNodes_sublist (tree : Tree) : tree.memberNodes.Sublist tree.children :=
  List.filter_sublist.trans List.filter_sublist

theorem members_classBody (src : Bytes) (tree : Tree) :
    (tree.classBody src).members = tree.memberNodes.map (classMember src) := rfl

theorem span_classMember (src : Bytes) (tree : Tree) : (tree.classMember src).span = tree.span := by
  unfold classMember
  split_ifs <;> rfl

end Tree

end OrderLint.JavaScript
