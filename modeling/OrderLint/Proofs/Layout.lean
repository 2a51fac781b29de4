import OrderLint.Proofs.ClassOrder
import OrderLint.Proofs.TreeWalk

/-!
# The layout of parsed files

The class check relies on lines that ascend. They do for every syntax tree whose nodes are placed as
in a text: a node starts before it ends, its children lie inside it, and each child ends before the
next one starts. Then the nodes start in pre-order, so every list that the walk gathers from them is
in the order of the text, and every class body is well laid out.
-/
namespace OrderLint

instance : LE Position := ⟨fun a b => a.line < b.line ∨ a.line = b.line ∧ a.column ≤ b.column⟩

theorem Position.line_le {a b : Position} (h : a ≤ b) : a.line ≤ b.line := by
  rcases h with h | ⟨h, -⟩
  · exact Int64.le_of_lt h
  · exact h ▸ Int64.le_refl _

namespace JavaScript

instance : LE Point := ⟨fun a b => a.row < b.row ∨ a.row = b.row ∧ a.column ≤ b.column⟩

instance : DecidableRel (LE.le : Point → Point → Prop) :=
  fun a b => inferInstanceAs (Decidable (a.row < b.row ∨ a.row = b.row ∧ a.column ≤ b.column))

namespace Point

theorem le_refl (p : Point) : p ≤ p := .inr ⟨rfl, UInt32.le_refl _⟩

theorem le_trans {a b c : Point} (hab : a ≤ b) (hbc : b ≤ c) : a ≤ c := by
  change _ ∨ _ at hab hbc
  change _ ∨ _
  grind

theorem toInt_line_position (p : Point) : p.position.line.toInt = p.row.toNat + 1 := by
  have hlt := p.row.toNat_lt
  rw [position, Int64.toInt_ofNat_of_lt (by omega)]
  rfl

theorem toInt_column_position (p : Point) : p.position.column.toInt = p.column.toNat := by
  have hlt := p.column.toNat_lt
  rw [position, Int64.toInt_ofNat_of_lt (by omega)]

theorem position_le {a b : Point} (h : a ≤ b) : a.position ≤ b.position := by
  rcases h with h | ⟨hrow, hcolumn⟩
  · left
    have hlt := UInt32.lt_iff_toNat_lt.mp h
    rw [Int64.lt_iff_toInt_lt, toInt_line_position, toInt_line_position]
    omega
  · right
    have hle := UInt32.le_iff_toNat_le.mp hcolumn
    refine ⟨?_, ?_⟩
    · rw [position, position, hrow]
    · rw [Int64.le_iff_toInt_le, toInt_column_position, toInt_column_position]
      omega

theorem line_le {a b : Point} (h : a ≤ b) : a.position.line ≤ b.position.line :=
  Position.line_le (position_le h)

theorem line_lt_maxValue (p : Point) : p.position.line < Int64.maxValue := by
  have hlt := p.row.toNat_lt
  have hmax : Int64.maxValue.toInt = 2 ^ 63 - 1 := by decide
  rw [Int64.lt_iff_toInt_lt, toInt_line_position, hmax]
  omega

end Point

namespace Tree

/-- A node starts no later than it ends, its children lie inside it, and each of them ends no later
than the next one starts. -/
structure Placed (tree : Tree) : Prop where
  start_le : tree.label.start ≤ tree.label.finish
  inside : ∀ child ∈ tree.children,
    tree.label.start ≤ child.label.start ∧ child.label.finish ≤ tree.label.finish
  ordered : tree.children.IsChain fun before after => before.label.finish ≤ after.label.start

instance : DecidablePred Placed := fun tree =>
  decidable_of_iff (tree.label.start ≤ tree.label.finish ∧
      (∀ child ∈ tree.children,
        tree.label.start ≤ child.label.start ∧ child.label.finish ≤ tree.label.finish) ∧
      tree.children.IsChain fun before after => before.label.finish ≤ after.label.start)
    ⟨fun h => ⟨h.1, h.2.1, h.2.2⟩, fun h => ⟨h.1, h.2, h.3⟩⟩

def WellPlaced (tree : Tree) : Prop := ∀ node ∈ tree.preorder, node.Placed

instance : DecidablePred WellPlaced :=
  fun tree => inferInstanceAs (Decidable (∀ node ∈ tree.preorder, node.Placed))

theorem WellPlaced.placed {tree : Tree} (h : tree.WellPlaced) : tree.Placed :=
  h tree tree.self_mem_preorder

theorem WellPlaced.of_mem {tree node : Tree} (h : tree.WellPlaced) (hnode : node ∈ tree.preorder) :
    node.WellPlaced :=
  fun other hother => h other (preorder_subset hnode hother)

theorem WellPlaced.child {tree child : Tree} (h : tree.WellPlaced) (hc : child ∈ tree.children) :
    child.WellPlaced :=
  h.of_mem (mem_preorder_of_mem hc child.self_mem_preorder)

theorem WellPlaced.pairwise_children {tree : Tree} (h : tree.WellPlaced) :
    tree.children.Pairwise fun before after => before.label.finish ≤ after.label.start := by
  have hspans : ∀ child ∈ tree.children, child.label.start ≤ child.label.finish :=
    fun child hc => (h.child hc).placed.start_le
  apply pairwise_of_isChain h.placed.ordered
  intro before child hchild after hbefore hafter
  exact Point.le_trans hbefore (Point.le_trans (hspans child hchild) hafter)

theorem WellPlaced.inside {tree node : Tree} (h : tree.WellPlaced) (hnode : node ∈ tree.preorder) :
    tree.label.start ≤ node.label.start ∧ node.label.finish ≤ tree.label.finish := by
  induction tree using Tree.induction with
  | node label children ih =>
    rw [preorder_node] at hnode
    rcases List.mem_cons.mp hnode with rfl | hnode
    · exact ⟨Point.le_refl _, Point.le_refl _⟩
    · obtain ⟨child, hchild, hnode⟩ := List.mem_flatMap.mp hnode
      obtain ⟨hstart, hfinish⟩ := h.placed.inside child hchild
      obtain ⟨hstart', hfinish'⟩ := ih child hchild (h.child hchild) hnode
      exact ⟨Point.le_trans hstart hstart', Point.le_trans hfinish' hfinish⟩

theorem WellPlaced.pairwise_start {tree : Tree} (h : tree.WellPlaced) :
    tree.preorder.Pairwise fun before after => before.label.start ≤ after.label.start := by
  induction tree using Tree.induction with
  | node label children ih =>
    have hroot : ∀ node ∈ children.flatMap preorder, label.start ≤ node.label.start := by
      intro node hnode
      exact (h.inside (by rw [preorder_node]; exact List.mem_cons_of_mem _ hnode)).1
    rw [preorder_node]
    refine List.pairwise_cons.mpr ⟨hroot, List.pairwise_flatMap.mpr ⟨?_, ?_⟩⟩
    · exact fun child hchild => ih child hchild (h.child hchild)
    · refine h.pairwise_children.imp_of_mem ?_
      intro before after hbefore hafter hgap first hfirst second hsecond
      -- The one node lies in a child that ends before the child of the other starts.
      have hspan := (h.child hbefore first hfirst).start_le
      have hin := ((h.child hbefore).inside hfirst).2
      have hout := ((h.child hafter).inside hsecond).1
      exact Point.le_trans hspan (Point.le_trans hin (Point.le_trans hgap hout))

theorem WellPlaced.pairwise_nodesWhere {tree : Tree} (h : tree.WellPlaced)
    (P : Occurrence → Prop) [DecidablePred P] :
    (tree.nodesWhere P).Pairwise fun before after => before.span.start ≤ after.span.start :=
  (h.pairwise_start.sublist (tree.nodesWhere_sublist P)).imp Point.position_le

theorem WellPlaced.mem_members {tree : Tree} (h : tree.WellPlaced) {src : Bytes} {member : Member}
    (hm : member ∈ (tree.classBody src).members) :
    tree.span.start.line ≤ member.span.start.line ∧
      member.span.start.line ≤ member.span.finish.line ∧
      member.span.finish.line < Int64.maxValue ∧
      member.span.finish.line ≤ tree.span.finish.line := by
  rw [members_classBody] at hm
  obtain ⟨child, hchild, rfl⟩ := List.mem_map.mp hm
  have hmem := tree.memberNodes_sublist.subset hchild
  obtain ⟨hstart, hfinish⟩ := h.placed.inside child hmem
  rw [span_classMember]
  exact ⟨Point.line_le hstart, Point.line_le (h.child hmem).placed.start_le,
    Point.line_lt_maxValue _, Point.line_le hfinish⟩

theorem WellPlaced.classBody_wellLaidOut {tree : Tree} (h : tree.WellPlaced) (src : Bytes) :
    (tree.classBody src).WellLaidOut where
  start_le first hfirst := (h.mem_members (List.mem_of_mem_head? hfirst)).1
  spans member hm := ⟨(h.mem_members hm).2.1, (h.mem_members hm).2.2.1⟩
  gaps := by
    have hpairwise := h.pairwise_children.sublist tree.memberNodes_sublist
    rw [members_classBody, List.isChain_map]
    refine (hpairwise.imp ?_).isChain
    intro before after hgap
    rw [span_classMember, span_classMember]
    exact Point.line_le hgap

/-- The outline of a tree that is placed as in a text is in the order of the text, list by list, so
that its section lines are collected in ascending order; its imports are nodes of the tree in
pre-order; and each of its class bodies is well laid out and encloses its members. -/
theorem outline_in_order (path src : Bytes) (tree : Tree) (h : tree.WellPlaced) :
    (tree.outline path src).comments.Pairwise
        (fun before after => before.span.start ≤ after.span.start) ∧
      (∀ delimiter, (SectionMap.ofComments (tree.outline path src).comments delimiter).lines =
        ((tree.outline path src).comments.filter (·.opensSection delimiter)).map
          fun comment => comment.span.start.line) ∧
      (tree.outline path src).imports.Pairwise
        (fun before after => before.span.start ≤ after.span.start) ∧
      (∃ nodes : List Tree, nodes.Sublist tree.preorder ∧
        (tree.outline path src).imports = nodes.map (importDecl src)) ∧
      (tree.outline path src).bodies.Pairwise
        (fun before after => before.span.start ≤ after.span.start) ∧
      ∀ body ∈ (tree.outline path src).bodies, body.WellLaidOut ∧
        ∀ last ∈ body.members.getLast?, last.span.finish.line ≤ body.span.finish.line := by
  have hcomments : (tree.outline path src).comments.Pairwise
      fun before after => before.span.start ≤ after.span.start := by
    rw [comments_outline, List.pairwise_map]
    exact h.pairwise_nodesWhere _
  refine ⟨hcomments, ?_, ?_, ?_, ?_, ?_⟩
  · intro delimiter
    have hascending : LineList.Ascending
        (((tree.outline path src).comments.filter (·.opensSection delimiter)).map
          fun comment => comment.span.start.line) := by
      rw [LineList.Ascending, List.pairwise_map]
      exact (hcomments.sublist List.filter_sublist).imp Position.line_le
    rw [SectionMap.ofComments, if_pos ((LineList.isAscending_iff _).mpr hascending)]
  · rw [imports_outline, List.pairwise_map]
    exact h.pairwise_nodesWhere _
  · exact ⟨_, tree.nodesWhere_sublist _, imports_outline path src tree⟩
  · rw [bodies_outline, List.pairwise_map]
    exact h.pairwise_nodesWhere _
  · intro body hbody
    rw [bodies_outline] at hbody
    obtain ⟨node, hnode, rfl⟩ := List.mem_map.mp hbody
    have hplaced : node.WellPlaced := h.of_mem ((tree.nodesWhere_sublist _).subset hnode)
    refine ⟨hplaced.classBody_wellLaidOut src, ?_⟩
    intro last hlast
    exact (hplaced.mem_members (List.mem_of_mem_getLast? hlast)).2.2.2

def nodeAt (kind : String) (start finish : Point) (children : List Tree) : Tree :=
  .node { kind, first := 0, last := 0, start, finish } children

-- A class in a method of another class, with a comment in each of the two bodies.
def nestedClasses : Tree :=
  nodeAt "program" ⟨0, 0⟩ ⟨9, 0⟩
    [nodeAt "class_body" ⟨0, 8⟩ ⟨8, 1⟩
      [nodeAt "comment" ⟨1, 2⟩ ⟨1, 9⟩ [],
        nodeAt "method_definition" ⟨2, 2⟩ ⟨6, 3⟩
          [nodeAt "class_body" ⟨3, 10⟩ ⟨5, 5⟩
            [nodeAt "comment" ⟨3, 11⟩ ⟨3, 17⟩ [],
              nodeAt "field_definition" ⟨4, 6⟩ ⟨4, 7⟩ []]],
        nodeAt "field_definition" ⟨6, 4⟩ ⟨6, 5⟩ []]]

theorem nestedClasses_in_order : nestedClasses.WellPlaced ∧
    (nestedClasses.outline [] []).bodies.map (·.members.length) = [2, 1] ∧
      ∀ body ∈ (nestedClasses.outline [] []).bodies, body.WellLaidOut := by
  have hplaced : nestedClasses.WellPlaced := by decide
  refine ⟨hplaced, by decide, ?_⟩
  intro body hbody
  exact ((outline_in_order [] [] nestedClasses hplaced).2.2.2.2.2 body hbody).1

end Tree

end JavaScript

end OrderLint
