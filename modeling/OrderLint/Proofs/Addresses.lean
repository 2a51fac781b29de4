import OrderLint.Proofs.TreeWalk

/-!
# Every node once

Two nodes of a tree may look the same, so a node is known by its address: the numbers of the
children that lead to it from the root. Addresses in ascending order are those of the nodes in
pre-order. The walk over a tree fills each of its lists from the nodes at ascending addresses, which
are just those that belong there. A member of a class body is found at the address of its body and
one number more, so it is a member of that body and of no other.
-/
namespace OrderLint.JavaScript

abbrev Address := List ℕ

/-- `found` are the addresses that satisfy `P`, each of them once and in pre-order. -/
structure Enumerates (P : Address → Prop) (found : List Address) : Prop where
  ascending : found.Pairwise (· < ·)
  mem_iff : ∀ a, a ∈ found ↔ P a

theorem Enumerates.nodup {P : Address → Prop} {found : List Address} (h : Enumerates P found) :
    found.Nodup :=
  h.ascending.imp ne_of_lt

namespace Tree

def occurrenceAt? (above : List Tree) (tree : Tree) : Address → Option Occurrence
  | [] => some ⟨tree, above⟩
  | i :: rest => tree.children[i]?.bind fun child => child.occurrenceAt? (tree :: above) rest

def at? (tree : Tree) (a : Address) : Option Tree := (tree.occurrenceAt? [] a).map (·.node)

def Has (tree : Tree) (P : Occurrence → Prop) (a : Address) : Prop :=
  ∃ o ∈ tree.occurrenceAt? [] a, P o

/-- The node at `a` is a named child, other than a comment, of the node at `body`. -/
def IsMemberOf (tree : Tree) (body a : Address) : Prop :=
  ∃ i child, a = body ++ [i] ∧ tree.at? a = some child ∧ child.label.named = true ∧
    child.kind ≠ "comment"

/-- The entries of a list are made by `f` from the nodes at the addresses `found`, which are those
that satisfy `P`. -/
structure Gathers {β : Type} (tree : Tree) (P : Address → Prop) (f : Tree → β) (entries : List β)
    (found : List Address) : Prop extends Enumerates P found where
  entries_eq : found.map (fun a => (tree.at? a).map f) = entries.map some

/-! ## The nodes with their addresses -/

mutual

def located (above : List Tree) : Tree → List (Address × Occurrence)
  | .node label children =>
    ([], ⟨.node label children, above⟩) :: locatedAmong (.node label children :: above) 0 children

def locatedAmong (above : List Tree) (i : ℕ) : List Tree → List (Address × Occurrence)
  | [] => []
  | tree :: rest =>
    (located above tree).map (Prod.map (i :: ·) id) ++ locatedAmong above (i + 1) rest

end

theorem locatedAmong_eq_flatMap (above : List Tree) (i : ℕ) (trees : List Tree) :
    locatedAmong above i trees =
      (trees.zipIdx i).flatMap fun child =>
        (child.1.located above).map (Prod.map (child.2 :: ·) id) := by
  induction trees generalizing i with
  | nil => rfl
  | cons tree rest ih => rw [locatedAmong, ih, List.zipIdx_cons, List.flatMap_cons]

theorem map_snd_located (tree : Tree) (above : List Tree) :
    (tree.located above).map Prod.snd = tree.occurrences above := by
  induction tree using Tree.induction generalizing above with
  | node label children ih =>
    rw [located, occurrences, List.map_cons, locatedAmong_eq_flatMap, occurrencesAmong_eq_flatMap,
      List.map_flatMap]
    have hnumbered : ∀ f : Tree → List Occurrence,
        (children.zipIdx.flatMap fun child => f child.1) = children.flatMap f := by
      intro f
      rw [← List.flatMap_map, List.zipIdx_map_fst]
    rw [← hnumbered]
    congr 1
    refine List.flatMap_congr fun child hchild => ?_
    have hmem : child.1 ∈ children :=
      List.mem_of_getElem? (List.mem_zipIdx_iff_getElem?.mp hchild)
    rw [List.map_map, ← ih child.1 hmem]
    rfl

theorem mem_located {tree : Tree} {above : List Tree} {a : Address} {o : Occurrence} :
    (a, o) ∈ tree.located above ↔ tree.occurrenceAt? above a = some o := by
  induction tree using Tree.induction generalizing above a with
  | node label children ih =>
    rw [located, List.mem_cons, locatedAmong_eq_flatMap, List.mem_flatMap]
    cases a with
    | nil => simp [occurrenceAt?, eq_comm]
    | cons i rest =>
      rw [occurrenceAt?, Option.bind_eq_some_iff]
      constructor
      · rintro (h | ⟨⟨child, j⟩, hchild, h⟩)
        · cases h
        · obtain ⟨⟨b, found⟩, hfound, heq⟩ := List.mem_map.mp h
          cases heq
          have hget := List.mem_zipIdx_iff_getElem?.mp hchild
          exact ⟨child, hget, (ih child (List.mem_of_getElem? hget)).mp hfound⟩
      · rintro ⟨child, hget, h⟩
        have hfound := (ih child (List.mem_of_getElem? hget)).mpr h
        exact .inr ⟨(child, i), List.mem_zipIdx_iff_getElem?.mpr hget,
          List.mem_map.mpr ⟨(rest, o), hfound, rfl⟩⟩

theorem pairwise_snd_zipIdx (trees : List Tree) (i : ℕ) :
    (trees.zipIdx i).Pairwise fun before after => before.2 < after.2 := by
  have hrange : ((trees.zipIdx i).map Prod.snd).Pairwise (· < ·) := by
    rw [List.zipIdx_map_snd]
    exact List.pairwise_lt_range' 1
  exact List.pairwise_map.mp hrange

theorem pairwise_located (tree : Tree) (above : List Tree) :
    (tree.located above).Pairwise fun before after => before.1 < after.1 := by
  induction tree using Tree.induction generalizing above with
  | node label children ih =>
    rw [located, locatedAmong_eq_flatMap]
    refine List.pairwise_cons.mpr ⟨?_, List.pairwise_flatMap.mpr ⟨?_, ?_⟩⟩
    · intro found hfound
      obtain ⟨child, -, hfound⟩ := List.mem_flatMap.mp hfound
      obtain ⟨inner, -, rfl⟩ := List.mem_map.mp hfound
      exact List.nil_lt_cons _ _
    · intro child hchild
      have hget := List.mem_zipIdx_iff_getElem?.mp hchild
      refine List.pairwise_map.mpr ((ih child.1 (List.mem_of_getElem? hget) _).imp ?_)
      exact fun h => List.cons_lt_cons_iff.mpr (.inr ⟨rfl, h⟩)
    · refine (pairwise_snd_zipIdx children 0).imp ?_
      -- All that lies in an earlier child comes before all that lies in a later one.
      intro before after hlt found hfound found' hfound'
      obtain ⟨inner, -, rfl⟩ := List.mem_map.mp hfound
      obtain ⟨inner', -, rfl⟩ := List.mem_map.mp hfound'
      exact List.cons_lt_cons_iff.mpr (.inl hlt)

section Where

variable (P : Occurrence → Prop) [DecidablePred P] (tree : Tree)

def addressesWhere : List Address := ((tree.located []).filter (P ·.2)).map Prod.fst

theorem enumerates_addressesWhere : Enumerates (tree.Has P) (tree.addressesWhere P) where
  ascending := List.pairwise_map.mpr ((tree.pairwise_located []).filter _)
  mem_iff a := by
    simp only [addressesWhere, List.mem_map, List.mem_filter, decide_eq_true_eq, Prod.exists,
      exists_and_right, exists_eq_right, mem_located]
    rfl

theorem map_addressesWhere {β : Type} (f : Tree → β) :
    (tree.addressesWhere P).map (fun a => (tree.at? a).map f) =
      ((tree.nodesWhere P).map f).map some := by
  rw [addressesWhere, nodesWhere, ← map_snd_located, List.filter_map]
  simp only [List.map_map]
  refine List.map_congr_left fun found hfound => ?_
  have hat := mem_located.mp (List.mem_of_mem_filter hfound)
  simp [at?, hat]

theorem gathers_addressesWhere {β : Type} (f : Tree → β) :
    tree.Gathers (tree.Has P) f ((tree.nodesWhere P).map f) (tree.addressesWhere P) :=
  ⟨tree.enumerates_addressesWhere P, tree.map_addressesWhere P f⟩

end Where

/-! ## Members -/

theorem occurrenceAt?_append (tree : Tree) (above : List Tree) (a b : Address) :
    tree.occurrenceAt? above (a ++ b) =
      (tree.occurrenceAt? above a).bind fun o => o.node.occurrenceAt? o.above b := by
  induction a generalizing tree above with
  | nil => rfl
  | cons i rest ih =>
    rw [List.cons_append, occurrenceAt?, occurrenceAt?]
    cases tree.children[i]? with
    | none => rfl
    | some child => exact ih child _

def childrenAt (tree : Tree) (a : Address) : List Tree := ((tree.at? a).map children).getD []

theorem at?_append_singleton (tree : Tree) (a : Address) (i : ℕ) :
    tree.at? (a ++ [i]) = (tree.childrenAt a)[i]? := by
  rw [at?, occurrenceAt?_append, childrenAt, at?]
  cases tree.occurrenceAt? [] a with
  | none => rfl
  | some o => cases h : o.node.children[i]? <;> simp [occurrenceAt?, h]

def memberAddresses (tree : Tree) (body : Address) : List Address :=
  ((tree.childrenAt body).zipIdx.filter fun child =>
    child.1.kind != "comment" && child.1.label.named).map fun child => body ++ [child.2]

theorem enumerates_memberAddresses (tree : Tree) (body : Address) :
    Enumerates (tree.IsMemberOf body) (tree.memberAddresses body) where
  ascending := by
    refine List.pairwise_map.mpr (((pairwise_snd_zipIdx _ 0).filter _).imp ?_)
    exact fun h => List.append_left_lt (List.cons_lt_cons_iff.mpr (.inl h))
  mem_iff a := by
    simp only [memberAddresses, List.mem_map, List.mem_filter, List.mem_zipIdx_iff_getElem?,
      Bool.and_eq_true, bne_iff_ne, Prod.exists, IsMemberOf]
    constructor
    · rintro ⟨child, i, ⟨hget, hkind, hnamed⟩, rfl⟩
      exact ⟨i, child, rfl, by rw [at?_append_singleton, hget], hnamed, hkind⟩
    · rintro ⟨i, child, rfl, hat, hnamed, hkind⟩
      rw [at?_append_singleton] at hat
      exact ⟨child, i, ⟨hat, hkind, hnamed⟩, rfl⟩

theorem map_memberAddresses {tree node : Tree} {body : Address} (h : tree.at? body = some node)
    {β : Type} (f : Tree → β) :
    (tree.memberAddresses body).map (fun a => (tree.at? a).map f) =
      (node.memberNodes.map f).map some := by
  have hchildren : tree.childrenAt body = node.children := by simp [childrenAt, h]
  rw [memberAddresses, hchildren, memberNodes, namedChildren, List.filter_filter]
  conv_rhs => rw [← List.zipIdx_map_fst 0 node.children, List.filter_map]
  simp only [List.map_map]
  refine List.map_congr_left fun child hchild => ?_
  have hget := List.mem_zipIdx_iff_getElem?.mp (List.mem_of_mem_filter hchild)
  simp [at?_append_singleton, hchildren, hget]

theorem IsMemberOf.body_eq {tree : Tree} {body other a : Address} (h : tree.IsMemberOf body a)
    (h' : tree.IsMemberOf other a) : body = other := by
  obtain ⟨i, -, rfl, -⟩ := h
  obtain ⟨j, -, heq, -⟩ := h'
  exact (List.append_inj' heq rfl).1

/-- The walk over a tree gathers the comments outside of other comments, the imports right under a
program and the class bodies, the last two outside of comments, each node once and in pre-order. The
members of each class body are the named children of its own node, without comments and in order, so
that a member belongs to one class body only. -/
theorem outline_gathers (path src : Bytes) (tree : Tree) :
    ∃ comments imports bodies : List Address, ∃ members : List (List Address),
      tree.Gathers (tree.Has Occurrence.IsComment) (comment src)
        (tree.outline path src).comments comments ∧
      tree.Gathers (tree.Has Occurrence.IsModuleImport) (importDecl src)
        (tree.outline path src).imports imports ∧
      tree.Gathers (tree.Has Occurrence.IsClassBody) (classBody src)
        (tree.outline path src).bodies bodies ∧
      members.length = bodies.length ∧
      (∀ (k : ℕ) a, bodies[k]? = some a →
        ∃ body found, (tree.outline path src).bodies[k]? = some body ∧ members[k]? = some found ∧
          tree.Gathers (tree.IsMemberOf a) (classMember src) body.members found) ∧
      ∀ body a, tree.Has Occurrence.IsClassBody body → tree.IsMemberOf body a →
        ∃! k : ℕ, ∃ found ∈ members[k]?, a ∈ found := by
  have hbodies := tree.gathers_addressesWhere Occurrence.IsClassBody (classBody src)
  rw [comments_outline, imports_outline, bodies_outline]
  refine ⟨_, _, _, (tree.addressesWhere Occurrence.IsClassBody).map tree.memberAddresses,
    tree.gathers_addressesWhere _ (comment src), tree.gathers_addressesWhere _ (importDecl src),
    hbodies, by simp, ?_, ?_⟩
  · intro k a ha
    obtain ⟨body, hbody, hat⟩ : ∃ body, ((tree.nodesWhere Occurrence.IsClassBody).map
        (classBody src))[k]? = some body ∧ (tree.at? a).map (classBody src) = some body := by
      have hentry := congrArg (·[k]?) hbodies.entries_eq
      simpa [ha] using hentry
    obtain ⟨node, hnode, rfl⟩ := Option.map_eq_some_iff.mp hat
    refine ⟨_, tree.memberAddresses a, hbody, by simp [ha], tree.enumerates_memberAddresses a, ?_⟩
    exact map_memberAddresses hnode (classMember src)
  · intro body a hbody hmember
    obtain ⟨k, hk⟩ := List.mem_iff_getElem?.mp ((hbodies.mem_iff body).mpr hbody)
    refine ⟨k, ⟨tree.memberAddresses body, by simp [hk],
      ((tree.enumerates_memberAddresses body).mem_iff a).mpr hmember⟩, ?_⟩
    rintro l ⟨found, hfound, ha⟩
    obtain ⟨other, hl, rfl⟩ : ∃ other, (tree.addressesWhere Occurrence.IsClassBody)[l]? =
        some other ∧ tree.memberAddresses other = found := by
      simpa using hfound
    have hother := ((tree.enumerates_memberAddresses other).mem_iff a).mp ha
    obtain rfl := hmember.body_eq hother
    obtain ⟨hlength, -⟩ := List.getElem?_eq_some_iff.mp hl
    exact (List.getElem?_inj hlength hbodies.nodup).mp (hl.trans hk.symm)

end Tree

end OrderLint.JavaScript
