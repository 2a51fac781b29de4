import OrderLint.Proofs.ImportOrder

/-!
# A bad node truncates the check

A node of an unrecognized kind ends the check of an outline, and all that it does is to cut the
outline off: the violations found before it are those of the outline without the node and what
follows it. For an import the cut leaves the imports before it and no class; for a class member it
leaves all imports, the bodies before and the members before in its own body. The check of a member
looks ahead at the next one, but only for the sake of that one, so the cut does not show.
-/
namespace OrderLint

namespace ImportChecker

theorem checkAll_append (checker : ImportChecker) (before after : List ImportDecl) :
    checker.checkAll (before ++ after) =
      (checker.checkAll before).andThen ((checker.after before).checkAll after) := by
  induction before generalizing checker with
  | nil => exact (Findings.empty_andThen _).symm
  | cons decl rest ih =>
    simp only [List.cons_append, checkAll, ih, Findings.andThen_assoc]
    rfl

theorem failure_checkAll (checker : ImportChecker) {decls : List ImportDecl}
    (h : ∀ decl ∈ decls, decl.IsRecognized) : (checker.checkAll decls).failure = none := by
  rw [checker.checkAll_eq_run h]

theorem checkAll_of_firstNot (checker : ImportChecker) {decls before : List ImportDecl}
    {decl : ImportDecl} {earlier : List Specifier} {specifier : Specifier}
    (hdecl : FirstNot ImportDecl.IsRecognized decls before decl)
    (hs : FirstNot Specifier.IsRecognized decl.specifiers earlier specifier) :
    checker.checkAll decls =
      ⟨(checker.checkAll before).violations, some (.ofSpecifier specifier)⟩ := by
  obtain ⟨⟨after, rfl⟩, hbefore, -⟩ := hdecl
  rw [checkAll_append, Findings.andThen_of_success (checker.failure_checkAll hbefore), checkAll,
    check_of_firstNot _ hs]
  simp only [Findings.andThen_failure, List.append_nil]

end ImportChecker

namespace ClassChecker

theorem failure_checkMembers (cursor : SectionCursor) (last : Option Bytes) {members : List Member}
    (h : ∀ m ∈ members, m.IsRecognized) : (checkMembers cursor last members).failure = none := by
  induction members generalizing cursor last with
  | nil => rfl
  | cons member rest ih =>
    obtain ⟨hmember, hrest⟩ := List.forall_mem_cons.mp h
    rw [checkMembers]
    simp only [Member.sortKey_of_isRecognized hmember, Findings.andThen_success]
    exact ih _ _ hrest

theorem checkMembers_cons_unrecognized (cursor : SectionCursor) (last : Option Bytes)
    {member : Member} (h : ¬ member.IsRecognized) (after : List Member) :
    checkMembers cursor last (member :: after) = ⟨[], some (.ofMember member)⟩ := by
  rw [checkMembers]
  simp only [Member.sortKey_of_not_isRecognized h]

theorem checkMembers_append (cursor : SectionCursor) (last : Option Bytes)
    {before : List Member} {member : Member} (hbefore : ∀ m ∈ before, m.IsRecognized)
    (h : ¬ member.IsRecognized) (after : List Member) :
    checkMembers cursor last (before ++ member :: after) =
      ⟨(checkMembers cursor last before).violations, some (.ofMember member)⟩ := by
  induction before generalizing cursor last with
  | nil => exact checkMembers_cons_unrecognized cursor last h after
  | cons m rest ih =>
    obtain ⟨hm, hrest⟩ := List.forall_mem_cons.mp hbefore
    rw [List.cons_append, checkMembers, checkMembers]
    simp only [Member.sortKey_of_isRecognized hm, Findings.andThen_success]
    -- The last member before the cut is where the two runs reset differently.
    cases rest with
    | nil =>
      rw [List.nil_append, checkMembers_cons_unrecognized _ _ h]
      rfl
    | cons next rest =>
      have hnext : ∀ cursor, nextRun cursor m m.name (next :: rest ++ member :: after) =
          nextRun cursor m m.name (next :: rest) := fun _ => rfl
      rw [hnext, ih _ _ hrest]

theorem compared_append (checker : ClassChecker) {member : Member} (h : ¬ member.IsRecognized)
    (before after : List Member) :
    checker.compared (before ++ member :: after) =
      checker.compared before ++ member :: after := by
  cases before with
  | nil => simp [compared, Member.not_isConstructor_of_not_isRecognized h]
  | cons first rest =>
    simp only [List.cons_append, compared]
    split_ifs <;> rfl

theorem failure_check (checker : ClassChecker) {body : ClassBody} (h : body.IsRecognized) :
    (checker.check body).failure = none :=
  failure_checkMembers _ _ fun m hm => h m ((checker.compared_suffix body.members).subset hm)

theorem check_of_firstNot (checker : ClassChecker) {body : ClassBody} {before : List Member}
    {member : Member} (h : FirstNot Member.IsRecognized body.members before member) :
    checker.check body =
      ⟨(checker.check { body with members := before }).violations, some (.ofMember member)⟩ := by
  obtain ⟨⟨after, hmembers⟩, hbefore, hmember⟩ := h
  have hcompared : ∀ m ∈ checker.compared before, m.IsRecognized :=
    fun m hm => hbefore m ((checker.compared_suffix before).subset hm)
  rw [check, hmembers, compared_append _ hmember, checkMembers_append _ _ hcompared hmember]
  rfl

theorem failure_checkAll (checker : ClassChecker) {bodies : List ClassBody}
    (h : ∀ body ∈ bodies, body.IsRecognized) : (checker.checkAll bodies).failure = none := by
  induction bodies with
  | nil => rfl
  | cons body rest ih =>
    obtain ⟨hbody, hrest⟩ := List.forall_mem_cons.mp h
    rw [checkAll, Findings.andThen_of_success (checker.failure_check hbody)]
    exact ih hrest

theorem checkAll_of_firstNot (checker : ClassChecker) {bodies before : List ClassBody}
    {body : ClassBody} {earlier : List Member} {member : Member}
    (hbody : FirstNot ClassBody.IsRecognized bodies before body)
    (hm : FirstNot Member.IsRecognized body.members earlier member) :
    checker.checkAll bodies =
      ⟨(checker.checkAll (before ++ [{ body with members := earlier }])).violations,
        some (.ofMember member)⟩ := by
  obtain ⟨⟨after, rfl⟩, hbefore, -⟩ := hbody
  have hb := checker.failure_checkAll hbefore
  rw [checkAll_append, checkAll_append, Findings.andThen_of_success hb,
    Findings.andThen_of_success hb, checkAll, checker.check_of_firstNot hm, checkAll, checkAll,
    Findings.andThen_empty, Findings.andThen_failure]

end ClassChecker

namespace Outline

/-- The first bad node of an outline, in the order imports, then bodies, as the failure that it
gives, and the outline cut off just before it. -/
inductive Stops (outline : Outline) : UnrecognizedKind → Outline → Prop
  | specifier {before : List ImportDecl} {decl : ImportDecl} {earlier : List Specifier}
      {bad : Specifier} (hdecl : FirstNot ImportDecl.IsRecognized outline.imports before decl)
      (hbad : FirstNot Specifier.IsRecognized decl.specifiers earlier bad) :
      Stops outline ⟨utf8 "import specifier", bad.kind.tag, some (.specifier bad)⟩
        { outline with imports := before, bodies := [] }
  | member {before : List ClassBody} {body : ClassBody} {earlier : List Member} {bad : Member}
      (himports : ∀ decl ∈ outline.imports, decl.IsRecognized)
      (hbody : FirstNot ClassBody.IsRecognized outline.bodies before body)
      (hbad : FirstNot Member.IsRecognized body.members earlier bad) :
      Stops outline ⟨utf8 "class body member", bad.kind.tag, some (.member bad)⟩
        { outline with bodies := before ++ [{ body with members := earlier }] }

theorem failure_check {outline : Outline} (options : Options) (h : outline.IsRecognized) :
    (outline.check options).failure = none := by
  rw [check, Findings.andThen_of_success (ImportChecker.failure_checkAll _ h.imports)]
  exact ClassChecker.failure_checkAll _ h.bodies

theorem not_isRecognized_iff (outline : Outline) :
    ¬ outline.IsRecognized ↔
      (∃ decl ∈ outline.imports, ∃ s ∈ decl.specifiers, ¬ s.IsRecognized) ∨
        ∃ body ∈ outline.bodies, ∃ m ∈ body.members, ¬ m.IsRecognized := by
  have h : outline.IsRecognized ↔ (∀ decl ∈ outline.imports, decl.IsRecognized) ∧
      ∀ body ∈ outline.bodies, body.IsRecognized := ⟨fun h => ⟨h.1, h.2⟩, fun h => ⟨h.1, h.2⟩⟩
  rw [h, not_and_or]
  simp only [ImportDecl.IsRecognized, ClassBody.IsRecognized, not_forall, exists_prop]

theorem exists_stops {outline : Outline} (h : ¬ outline.IsRecognized) :
    ∃ e cut, outline.Stops e cut := by
  by_cases himports : ∀ decl ∈ outline.imports, decl.IsRecognized
  · have hbodies : ¬ ∀ body ∈ outline.bodies, body.IsRecognized := fun hall => h ⟨himports, hall⟩
    obtain ⟨before, body, hbody⟩ := exists_firstNot hbodies
    obtain ⟨earlier, bad, hbad⟩ := exists_firstNot hbody.2.2
    exact ⟨_, _, .member himports hbody hbad⟩
  · obtain ⟨before, decl, hdecl⟩ := exists_firstNot himports
    obtain ⟨earlier, bad, hbad⟩ := exists_firstNot hdecl.2.2
    exact ⟨_, _, .specifier hdecl hbad⟩

theorem Stops.isRecognized {outline cut : Outline} {e : UnrecognizedKind}
    (h : outline.Stops e cut) : cut.IsRecognized := by
  cases h with
  | specifier hdecl hbad => exact ⟨hdecl.2.1, by simp⟩
  | member himports hbody hbad =>
    refine ⟨himports, ?_⟩
    intro body hmem
    rcases List.mem_append.mp hmem with hmem | hmem
    · exact hbody.2.1 body hmem
    · obtain rfl := List.mem_singleton.mp hmem
      exact hbad.2.1

theorem check_of_stops {outline cut : Outline} {e : UnrecognizedKind} (options : Options)
    (h : outline.Stops e cut) :
    outline.check options = ⟨(cut.check options).violations, some e⟩ := by
  cases h with
  | @specifier before decl earlier bad hdecl hbad =>
    have hbefore := ImportChecker.failure_checkAll {} hdecl.2.1
    rw [check, ImportChecker.checkAll_of_firstNot _ hdecl hbad, Findings.andThen_failure, check,
      Findings.andThen_of_success hbefore, ClassChecker.checkAll, List.append_nil]
    rfl
  | @member before body earlier bad himports hbody hbad =>
    have hall := ImportChecker.failure_checkAll {} himports
    rw [check, Findings.andThen_of_success hall, ClassChecker.checkAll_of_firstNot _ hbody hbad,
      check, Findings.andThen_of_success hall]
    rfl

theorem failure_check_eq_none_iff (outline : Outline) (options : Options) :
    (outline.check options).failure = none ↔ outline.IsRecognized := by
  constructor
  · intro hf
    by_contra h
    obtain ⟨e, cut, hcut⟩ := exists_stops h
    simp [check_of_stops options hcut] at hf
  · exact failure_check options

/-- An outline fails exactly when it has a bad node; the failure is that of the first one, and the
violations beside it are those of the outline cut off before it. -/
theorem check_stops (outline : Outline) (options : Options) :
    ((outline.check options).failure ≠ none ↔
        (∃ decl ∈ outline.imports, ∃ s ∈ decl.specifiers, ¬ s.IsRecognized) ∨
          ∃ body ∈ outline.bodies, ∃ m ∈ body.members, ¬ m.IsRecognized) ∧
      (∀ e, (outline.check options).failure = some e → ∃ cut, outline.Stops e cut) ∧
      ∀ e cut, outline.Stops e cut → (outline.check options).failure = some e ∧
        cut.check options = ⟨(outline.check options).violations, none⟩ := by
  have hstops : ∀ e cut, outline.Stops e cut → (outline.check options).failure = some e ∧
      cut.check options = ⟨(outline.check options).violations, none⟩ := by
    intro e cut h
    rw [check_of_stops options h]
    exact ⟨rfl, by rw [← failure_check options h.isRecognized]⟩
  refine ⟨?_, ?_, hstops⟩
  · rw [← not_isRecognized_iff]
    constructor
    · intro hf h
      exact hf (failure_check options h)
    · intro h
      obtain ⟨e, cut, hcut⟩ := exists_stops h
      simp [(hstops e cut hcut).1]
  · intro e he
    have h : ¬ outline.IsRecognized := fun h => by simp [failure_check options h] at he
    obtain ⟨e', cut, hcut⟩ := exists_stops h
    obtain rfl : e' = e := Option.some.inj ((hstops e' cut hcut).1.symm.trans he)
    exact ⟨cut, hcut⟩

end Outline

end OrderLint
