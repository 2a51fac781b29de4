import OrderLint.JavaScript.Parse
import OrderLint.Proofs.Provenance
import OrderLint.Proofs.TreeWalk
import OrderLint.Proofs.Truncation

/-!
# Which parsed files stop the check

Every specifier that the walk finds in an import statement is of a recognized kind, whatever the
shape of the statement. So a parsed file is stopped in its class bodies or nowhere: by the first
named child that is neither a comment nor a method nor a field, which the walk passes on under the
kind of its node. The imports have all been checked by then.
-/
namespace OrderLint

theorem utf8_injective : Function.Injective utf8 := by
  intro a b h
  apply String.toByteArray_inj.mp
  apply ByteArray.ext
  exact Array.toList_inj.mp h

namespace ImportChecker

theorem failure_of_mem_run (checker : ImportChecker) {decls : List ImportDecl}
    (h : ∀ decl ∈ decls, decl.IsRecognized) {findings : Findings}
    (hf : findings ∈ checker.run decls) : findings.failure = none := by
  induction decls generalizing checker with
  | nil => simp [run] at hf
  | cons decl rest ih =>
    obtain ⟨hdecl, hrest⟩ := List.forall_mem_cons.mp h
    simp only [run, checker.check_of_isRecognized hdecl, List.mem_cons] at hf
    rcases hf with rfl | hf
    · rfl
    · exact ih _ hrest hf

end ImportChecker

namespace JavaScript.Tree

theorem clauseSpecifiers_isRecognized {src : Bytes} {tree : Tree} {s : Specifier}
    (hs : s ∈ tree.clauseSpecifiers src) : s.IsRecognized := by
  unfold clauseSpecifiers at hs
  split_ifs at hs with hidentifier hnamespace hnamed
  · obtain rfl := List.mem_singleton.mp hs
    exact .inr (.inr rfl)
  · obtain rfl := List.mem_singleton.mp hs
    exact .inr (.inl rfl)
  · obtain ⟨child, -, rfl⟩ := List.mem_map.mp hs
    exact .inl rfl
  · simp at hs

theorem importDecl_isRecognized (src : Bytes) (tree : Tree) : (tree.importDecl src).IsRecognized := by
  intro s hs
  obtain ⟨clause, -, hs⟩ := List.mem_flatMap.mp hs
  obtain ⟨part, -, hs⟩ := List.mem_flatMap.mp hs
  exact clauseSpecifiers_isRecognized hs

def SuitsBody (tree : Tree) : Prop :=
  tree.kind = "comment" ∨ tree.kind = "method_definition" ∨ tree.kind = "field_definition" ∨
    tree.kind = "public_field_definition"

instance : DecidablePred SuitsBody := fun _ => inferInstanceAs (Decidable (_ ∨ _))

theorem classMember_of_not_suitsBody (src : Bytes) {tree : Tree} (h : ¬ tree.SuitsBody) :
    tree.classMember src = ⟨.ofTag (utf8 tree.kind), [], tree.span⟩ := by
  simp only [SuitsBody, not_or] at h
  simp [classMember, h]

theorem kind_classMember_of_not_suitsBody (src : Bytes) {tree : Tree} (h : ¬ tree.SuitsBody)
    (hkind : tree.kind ≠ "method" ∧ tree.kind ≠ "property") :
    (tree.classMember src).kind = .unrecognized (utf8 tree.kind) := by
  have hmethod : utf8 tree.kind ≠ utf8 "method" := fun he => hkind.1 (utf8_injective he)
  have hproperty : utf8 tree.kind ≠ utf8 "property" := fun he => hkind.2 (utf8_injective he)
  simp [classMember_of_not_suitsBody src h, MemberKind.ofTag, hmethod, hproperty]

theorem classMember_isRecognized_iff (src : Bytes) {tree : Tree} (hcomment : tree.kind ≠ "comment")
    (hkind : tree.kind ≠ "method" ∧ tree.kind ≠ "property") :
    (tree.classMember src).IsRecognized ↔ tree.SuitsBody := by
  by_cases h : tree.SuitsBody
  · have hmember := h.resolve_left hcomment
    refine iff_of_true ?_ h
    rcases hmember with hm | hm | hm
    · exact .inl (by simp [classMember, hm])
    · exact .inr (by simp [classMember, hm])
    · exact .inr (by simp [classMember, hm])
  · refine iff_of_false ?_ h
    simp [Member.IsRecognized, MemberKind.IsRecognized, kind_classMember_of_not_suitsBody src h hkind]

/-- All named children of a class body are comments, methods or fields. -/
def SuitsCheck (tree : Tree) : Prop := ∀ child ∈ tree.namedChildren, child.SuitsBody

theorem mem_memberNodes {tree child : Tree} :
    child ∈ tree.memberNodes ↔ child ∈ tree.namedChildren ∧ child.kind ≠ "comment" := by
  simp [memberNodes]

theorem classBody_isRecognized_iff (src : Bytes) {tree : Tree}
    (hkinds : ∀ child ∈ tree.children, child.kind ≠ "method" ∧ child.kind ≠ "property") :
    (tree.classBody src).IsRecognized ↔ tree.SuitsCheck := by
  rw [ClassBody.IsRecognized, members_classBody, List.forall_mem_map]
  constructor
  · intro h child hchild
    by_cases hcomment : child.kind = "comment"
    · exact .inl hcomment
    · have hkind := hkinds child (List.mem_of_mem_filter hchild)
      exact (classMember_isRecognized_iff src hcomment hkind).mp
        (h child (mem_memberNodes.mpr ⟨hchild, hcomment⟩))
  · intro h child hchild
    obtain ⟨hnamed, hcomment⟩ := mem_memberNodes.mp hchild
    have hkind := hkinds child (List.mem_of_mem_filter hnamed)
    exact (classMember_isRecognized_iff src hcomment hkind).mpr (h child hnamed)

theorem firstNot_members (src : Bytes) {tree child : Tree} {earlier : List Tree}
    (hkinds : ∀ child ∈ tree.children, child.kind ≠ "method" ∧ child.kind ≠ "property")
    (h : FirstNot SuitsBody tree.namedChildren earlier child) :
    FirstNot Member.IsRecognized (tree.classBody src).members
      ((earlier.filter (·.kind != "comment")).map (classMember src)) (child.classMember src) := by
  have hfilter := h.filter (p := (·.kind != "comment")) fun node hnode => by
    simpa using fun hcomment => hnode (.inl hcomment)
  refine hfilter.map ?_
  intro node hnode
  obtain ⟨hnamed, hcomment⟩ := mem_memberNodes.mp hnode
  have hkind := hkinds node (List.mem_of_mem_filter hnamed)
  exact (classMember_isRecognized_iff src hcomment hkind).symm

section Outline

variable {path src : Bytes} {tree : Tree}
  (hkinds : ∀ node ∈ tree.preorder, node.kind ≠ "method" ∧ node.kind ≠ "property")

theorem imports_outline_isRecognized (path src : Bytes) (tree : Tree) :
    ∀ decl ∈ (tree.outline path src).imports, decl.IsRecognized := by
  rw [imports_outline, List.forall_mem_map]
  exact fun node _ => node.importDecl_isRecognized src

include hkinds in
theorem kinds_children {body : Tree} (hbody : body ∈ tree.nodesWhere Occurrence.IsClassBody) :
    ∀ child ∈ body.children, child.kind ≠ "method" ∧ child.kind ≠ "property" := by
  intro child hchild
  have hmem := (tree.nodesWhere_sublist _).subset hbody
  exact hkinds child (preorder_subset hmem (mem_preorder_of_mem hchild child.self_mem_preorder))

include hkinds in
theorem outline_isRecognized_iff :
    (tree.outline path src).IsRecognized ↔
      ∀ body ∈ tree.nodesWhere Occurrence.IsClassBody, body.SuitsCheck := by
  have hbodies : (∀ body ∈ (tree.outline path src).bodies, body.IsRecognized) ↔
      ∀ body ∈ tree.nodesWhere Occurrence.IsClassBody, body.SuitsCheck := by
    rw [bodies_outline, List.forall_mem_map]
    exact forall₂_congr fun body hbody =>
      classBody_isRecognized_iff src (kinds_children hkinds hbody)
  rw [← hbodies]
  exact ⟨fun h => h.bodies, fun h => ⟨imports_outline_isRecognized path src tree, h⟩⟩

include hkinds in
theorem failure_check_outline (options : Options) {before earlier : List Tree} {body child : Tree}
    (hbody : FirstNot SuitsCheck (tree.nodesWhere Occurrence.IsClassBody) before body)
    (hchild : FirstNot SuitsBody body.namedChildren earlier child) :
    ((tree.outline path src).check options).failure =
      some ⟨utf8 "class body member", utf8 child.kind, some (.member (child.classMember src))⟩ := by
  obtain ⟨after, hnodes⟩ := hbody.1
  have hmem : body ∈ tree.nodesWhere Occurrence.IsClassBody := by simp [hnodes]
  have hbodies : FirstNot ClassBody.IsRecognized (tree.outline path src).bodies
      (before.map (classBody src)) (body.classBody src) := by
    rw [bodies_outline]
    refine hbody.map ?_
    exact fun node hnode => (classBody_isRecognized_iff src (kinds_children hkinds hnode)).symm
  have hmembers := firstNot_members src (kinds_children hkinds hmem) hchild
  have hstops := Outline.Stops.member (imports_outline_isRecognized path src tree) hbodies hmembers
  have hnamed : child ∈ body.namedChildren := by
    obtain ⟨rest, hrest⟩ := hchild.1
    simp [hrest]
  have hkind := kinds_children hkinds hmem child (List.mem_of_mem_filter hnamed)
  rw [Outline.check_of_stops options hstops,
    kind_classMember_of_not_suitsBody src hchild.2.2 hkind]
  rfl

end Outline

/-- A parsed file is never stopped by an import. It is stopped exactly when a class body outside of
comments has a named child that is no comment, method or field, by the first such child of the first
such body, under the kind and the span of its node. All its imports are checked, without a failure,
and the violations found are all that a run of the import checker finds. -/
theorem check_parsed (path src : Bytes) (tree : Tree) (options : Options) {outline : Outline}
    (hparsed : tree.toOutline path src = .ok outline)
    (hkinds : ∀ node ∈ tree.preorder, node.kind ≠ "method" ∧ node.kind ≠ "property") :
    (∀ e ∈ (outline.check options).failure, e.what ≠ utf8 "import specifier") ∧
      ((outline.check options).failure ≠ none ↔
        ∃ body ∈ tree.nodesWhere Occurrence.IsClassBody, ∃ child ∈ body.namedChildren,
          ¬ child.SuitsBody) ∧
      (∀ before body earlier child,
        FirstNot SuitsCheck (tree.nodesWhere Occurrence.IsClassBody) before body →
        FirstNot SuitsBody body.namedChildren earlier child →
        ∃ member, (outline.check options).failure =
            some ⟨utf8 "class body member", utf8 child.kind, some (.member member)⟩ ∧
          member.span = child.span) ∧
      outline.imports = (tree.nodesWhere Occurrence.IsModuleImport).map (importDecl src) ∧
      (∀ findings ∈ ImportChecker.run {} outline.imports, findings.failure = none) ∧
      (outline.check options).importViolations =
        (ImportChecker.run {} outline.imports).flatMap (·.violations) := by
  obtain rfl : tree.outline path src = outline := by
    simp only [toOutline] at hparsed
    split_ifs at hparsed
    exact Except.ok.inj hparsed
  have himports := imports_outline_isRecognized path src tree
  have hfails : ((tree.outline path src).check options).failure ≠ none ↔
      ∃ body ∈ tree.nodesWhere Occurrence.IsClassBody, ∃ child ∈ body.namedChildren,
        ¬ child.SuitsBody := by
    rw [ne_eq, Outline.failure_check_eq_none_iff, outline_isRecognized_iff hkinds]
    simp only [SuitsCheck, not_forall, exists_prop]
  refine ⟨?_, hfails, ?_, imports_outline path src tree, ?_, ?_⟩
  · intro e he
    have hfailure := Option.mem_def.mp he
    have hbad := hfails.mp (by simp [hfailure])
    have hall : ¬ ∀ body ∈ tree.nodesWhere Occurrence.IsClassBody, body.SuitsCheck := by
      simpa [SuitsCheck] using hbad
    obtain ⟨before, body, hbody⟩ := exists_firstNot hall
    obtain ⟨earlier, child, hchild⟩ := exists_firstNot hbody.2.2
    have hwhat : utf8 "class body member" ≠ utf8 "import specifier" := by decide
    rw [failure_check_outline hkinds options hbody hchild] at hfailure
    obtain rfl := Option.some.inj hfailure
    exact hwhat
  · intro before body earlier child hbody hchild
    exact ⟨child.classMember src, failure_check_outline hkinds options hbody hchild,
      span_classMember src child⟩
  · exact fun findings hf => ImportChecker.failure_of_mem_run {} himports hf
  · rw [Outline.importViolations_check, ImportChecker.checkAll_eq_run _ himports]

def lineNode (kind : String) (children : List Tree) : Tree :=
  .node { kind, first := 0, last := 0, start := ⟨3, 2⟩, finish := ⟨3, 11⟩ } children

def bodyOfBlock : Tree :=
  lineNode "class_body" [lineNode "comment" [], lineNode "method_definition" [],
    lineNode "class_static_block" []]

-- The class body inside the comment does not count.
def staticBlock : Tree :=
  lineNode "program"
    [lineNode "comment" [lineNode "class_body" [lineNode "identifier" []]],
      lineNode "import_statement" [lineNode "import_clause" [lineNode "identifier" []]], bodyOfBlock]

theorem check_staticBlock :
    staticBlock.toOutline [] [] = .ok (staticBlock.outline [] []) ∧
      (∀ node ∈ staticBlock.preorder, node.kind ≠ "method" ∧ node.kind ≠ "property") ∧
      ∃ member, ((staticBlock.outline [] []).check {}).failure =
          some ⟨utf8 "class body member", utf8 "class_static_block", some (.member member)⟩ ∧
        member.span = ⟨⟨4, 2⟩, ⟨4, 11⟩⟩ := by
  have hparsed : staticBlock.toOutline [] [] = .ok (staticBlock.outline [] []) := rfl
  have hkinds : ∀ node ∈ staticBlock.preorder,
      node.kind ≠ "method" ∧ node.kind ≠ "property" := by decide
  refine ⟨hparsed, hkinds, ?_⟩
  have hbody : FirstNot SuitsCheck (staticBlock.nodesWhere Occurrence.IsClassBody) []
      bodyOfBlock := ⟨⟨[], rfl⟩, by simp, by unfold SuitsCheck; decide⟩
  have hchild : FirstNot SuitsBody bodyOfBlock.namedChildren
      [lineNode "comment" [], lineNode "method_definition" []] (lineNode "class_static_block" []) :=
    ⟨⟨[], rfl⟩, by decide, by decide⟩
  exact (check_parsed [] [] staticBlock {} hparsed hkinds).2.2.1 _ _ _ _ hbody hchild

end JavaScript.Tree

end OrderLint
