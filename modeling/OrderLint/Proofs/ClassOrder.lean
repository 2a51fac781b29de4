import OrderLint.Proofs.Recognition
import OrderLint.Proofs.Sections

/-!
# The order of class members, pair by pair

The class checker walks the members once, with one cursor that only moves forward. On a body whose
lines ascend it reports what a plain definition asks for: a member is misplaced when its name is
smaller than the one before, the member before is not an exempt leading constructor, and no section
opens strictly between the two. The invariant of the walk is that the cursor has passed no line
after the end of the member at hand.
-/
namespace OrderLint

/-- The lines of a body ascend: it starts no later than its first member, each member ends no
earlier than it starts and no later than the next one starts, and no member ends on the last line
that a machine integer can count. -/
structure ClassBody.WellLaidOut (body : ClassBody) : Prop where
  start_le : ∀ first ∈ body.members.head?, body.span.start.line ≤ first.span.start.line
  spans : ∀ member ∈ body.members, member.span.start.line ≤ member.span.finish.line ∧
    member.span.finish.line < Int64.maxValue
  gaps : body.members.IsChain fun before after => before.span.finish.line ≤ after.span.start.line

instance : DecidablePred ClassBody.WellLaidOut := fun body =>
  decidable_of_iff
    ((∀ first ∈ body.members.head?, body.span.start.line ≤ first.span.start.line) ∧
      (∀ member ∈ body.members, member.span.start.line ≤ member.span.finish.line ∧
        member.span.finish.line < Int64.maxValue) ∧
      body.members.IsChain fun before after => before.span.finish.line ≤ after.span.start.line)
    ⟨fun h => ⟨h.1, h.2.1, h.2.2⟩, fun h => ⟨h.1, h.2, h.3⟩⟩

theorem finish_le_start_of_isChain {members : List Member}
    (hspans : ∀ m ∈ members, m.span.start.line ≤ m.span.finish.line)
    (hgaps : members.IsChain fun before after =>
      before.span.finish.line ≤ after.span.start.line) :
    members.Pairwise fun before after => before.span.finish.line ≤ after.span.start.line := by
  apply pairwise_of_isChain hgaps
  intro before member hmember after hbefore hafter
  exact Int64.le_trans hbefore (Int64.le_trans (hspans member hmember) hafter)

namespace ClassBody.WellLaidOut

variable {body : ClassBody}

theorem finish_le_start (h : body.WellLaidOut) :
    body.members.Pairwise fun before after => before.span.finish.line ≤ after.span.start.line :=
  finish_le_start_of_isChain (fun m hm => (h.spans m hm).1) h.gaps

theorem start_le_finish (h : body.WellLaidOut) {member : Member} (hm : member ∈ body.members) :
    body.span.start.line ≤ member.span.finish.line := by
  have hmember := (h.spans member hm).1
  cases hb : body.members with
  | nil => simp [hb] at hm
  | cons first rest =>
    have hstart : body.span.start.line ≤ first.span.start.line := h.start_le first (by simp [hb])
    rw [hb] at hm
    rcases List.mem_cons.mp hm with rfl | hm
    · exact Int64.le_trans hstart hmember
    · have hfirst := (h.spans first (by simp [hb])).1
      have hgap : first.span.finish.line ≤ member.span.start.line :=
        (List.pairwise_cons.mp (hb ▸ h.finish_le_start)).1 member hm
      exact Int64.le_trans (Int64.le_trans hstart hfirst) (Int64.le_trans hgap hmember)

end ClassBody.WellLaidOut

/-- The member at position `i` leads the body and is a constructor that need not be in order. -/
def IsExempt (constructorFirst : Bool) (members : List Member) (i : ℕ) : Prop :=
  i = 0 ∧ constructorFirst = true ∧
    ∃ first ∈ members[0]?, first.kind = .method ∧ first.name = utf8 "constructor"

instance (constructorFirst : Bool) (members : List Member) :
    DecidablePred (IsExempt constructorFirst members) :=
  fun _ => inferInstanceAs (Decidable (_ ∧ _ ∧ _))

section Misplaced

variable (comments : List Comment) (delimiter : Bytes)

def Separated (before after : Member) : Prop :=
  ∃ line, IsSectionLine comments delimiter line ∧
    before.span.finish.line < line ∧ line < after.span.start.line

theorem separated_iff (before after : Member) :
    Separated comments delimiter before after ↔
      ∃ line ∈ (SectionMap.ofComments comments delimiter).lines,
        before.span.finish.line < line ∧ line < after.span.start.line := by
  simp only [Separated, SectionMap.mem_ofComments]

instance : DecidableRel (Separated comments delimiter) := fun before after =>
  decidable_of_iff _ (separated_iff comments delimiter before after).symm

def Descends (before after : Member) : Prop :=
  after.name < before.name ∧ ¬ Separated comments delimiter before after

instance : DecidableRel (Descends comments delimiter) :=
  fun _ _ => inferInstanceAs (Decidable (_ ∧ _))

/-- The member at position `i` has the smaller name of two neighbours, the one before it is not
exempt, and no section opens between them. -/
def Misplaced (constructorFirst : Bool) (members : List Member) (i : ℕ) : Prop :=
  Follows (Descends comments delimiter) members i ∧ ¬ IsExempt constructorFirst members (i - 1)

instance (constructorFirst : Bool) (members : List Member) :
    DecidablePred (Misplaced comments delimiter constructorFirst members) :=
  fun _ => inferInstanceAs (Decidable (_ ∧ _))

end Misplaced

namespace ClassChecker

variable {comments : List Comment} {delimiter : Bytes}

theorem nextRun_cursor {first : Int64} {member : Member}
    (hspan : member.span.start.line ≤ member.span.finish.line ∧
      member.span.finish.line < Int64.maxValue)
    (hfirst : first ≤ member.span.finish.line + 1) (key : Bytes) (next : Member)
    (rest : List Member) :
    nextRun (((SectionMap.ofComments comments delimiter).cursor first).seek member.span.start.line)
        member key (next :: rest) =
      (if Separated comments delimiter member next then none else some key,
        (SectionMap.ofComments comments delimiter).cursor (member.span.finish.line + 1)) := by
  have hasc := SectionMap.ofComments_ascending comments delimiter
  -- Whatever was passed before, the cursor ends up right behind the member.
  have hreached : max (max first member.span.start.line) (member.span.finish.line + 1) =
      member.span.finish.line + 1 := by
    simp only [max_line_eq]
    grind
  have hafter : ∀ line, member.span.finish.line + 1 ≤ line ↔ member.span.finish.line < line := by
    intro line
    grind
  simp only [nextRun, SectionMap.seek_cursor hasc, SectionMap.between_cursor hasc, hreached,
    hafter, ← separated_iff, decide_eq_true_eq]

theorem checkMembers_cursor {first : Int64} (last : Option Bytes) {member : Member}
    {rest : List Member} (hkinds : ∀ m ∈ member :: rest, m.IsRecognized)
    (hspans : ∀ m ∈ member :: rest, m.span.start.line ≤ m.span.finish.line ∧
      m.span.finish.line < Int64.maxValue)
    (hgaps : (member :: rest).IsChain fun before after =>
      before.span.finish.line ≤ after.span.start.line)
    (hfirst : first ≤ member.span.finish.line + 1) :
    checkMembers ((SectionMap.ofComments comments delimiter).cursor first) last (member :: rest) =
      ⟨outOfOrder last member.name member ++
        (followers (Descends comments delimiter) (member :: rest)).map
          fun m => ⟨.sortClassBody, .member m⟩, none⟩ := by
  induction rest generalizing first last member with
  | nil =>
    have hkey := Member.sortKey_of_isRecognized (hkinds member (by simp))
    simp [checkMembers, hkey]
  | cons next rest ih =>
    have hkey := Member.sortKey_of_isRecognized (hkinds member (by simp))
    have hmember := hspans member (by simp)
    have hnext := hspans next (by simp)
    obtain ⟨hgap, hgaps⟩ := List.isChain_cons_cons.mp hgaps
    -- The invariant for the next member: it ends no earlier than this one.
    have hfirst' : member.span.finish.line + 1 ≤ next.span.finish.line + 1 := by
      grind
    have hrest := fun last => ih last (fun m hm => hkinds m (List.mem_cons_of_mem _ hm))
      (fun m hm => hspans m (List.mem_cons_of_mem _ hm)) hgaps hfirst'
    rw [followers_cons_cons, checkMembers]
    simp only [hkey, nextRun_cursor hmember hfirst, hrest, Findings.andThen_success,
      List.map_append]
    congr 2
    by_cases hs : Separated comments delimiter member next
    · simp [hs, outOfOrder, Descends]
    · by_cases hlt : next.name < member.name <;> simp [hs, hlt, outOfOrder, Descends]

theorem check_of_wellLaidOut (constructorFirst : Bool) {body : ClassBody}
    (hkinds : body.IsRecognized) (hlayout : body.WellLaidOut) :
    check ⟨SectionMap.ofComments comments delimiter, constructorFirst⟩ body =
      ⟨(followers (Descends comments delimiter)
          (compared ⟨SectionMap.ofComments comments delimiter, constructorFirst⟩ body.members)).map
        fun m => ⟨.sortClassBody, .member m⟩, none⟩ := by
  have hs := compared_suffix ⟨SectionMap.ofComments comments delimiter, constructorFirst⟩
    body.members
  unfold check
  generalize compared _ body.members = members at hs
  cases members with
  | nil => rfl
  | cons member rest =>
    have hmem : member ∈ body.members := hs.subset (by simp)
    have hfirst : body.span.start.line ≤ member.span.finish.line + 1 := by
      have hle := hlayout.start_le_finish hmem
      have hlt := (hlayout.spans member hmem).2
      grind
    rw [checkMembers_cursor none (fun m hm => hkinds m (hs.subset hm))
      (fun m hm => hlayout.spans m (hs.subset hm)) (hlayout.gaps.suffix hs) hfirst]
    rfl

theorem isExempt_cons_iff (checker : ClassChecker) (first : Member) (rest : List Member) (i : ℕ) :
    IsExempt checker.constructorFirst (first :: rest) i ↔
      i = 0 ∧ (checker.constructorFirst && first.isConstructor) = true := by
  simp [IsExempt, Member.isConstructor]

theorem elementsAt_misplaced (checker : ClassChecker) (members : List Member) :
    elementsAt (Misplaced comments delimiter checker.constructorFirst members) members =
      followers (Descends comments delimiter) (checker.compared members) := by
  cases members with
  | nil => rfl
  | cons first rest =>
    by_cases hx : (checker.constructorFirst && first.isConstructor) = true
    · have hzero : ¬ Misplaced comments delimiter checker.constructorFirst (first :: rest) 0 :=
        fun h => not_follows_zero _ _ h.1
      have hcompared : checker.compared (first :: rest) = rest := by
        simp only [compared, hx, if_true]
      rw [elementsAt_cons, if_neg hzero, List.nil_append, hcompared]
      apply elementsAt_congr
      intro i _
      cases i with
      | zero => simp [Misplaced, isExempt_cons_iff, hx, not_follows_zero]
      | succ i => simp [Misplaced, isExempt_cons_iff, follows_cons_succ]
    · have hcompared : checker.compared (first :: rest) = first :: rest := by
        simp only [compared, hx, Bool.false_eq_true, if_false]
      rw [hcompared]
      apply elementsAt_congr
      intro i _
      simp [Misplaced, isExempt_cons_iff, hx]

/-- On a body whose lines ascend, the one walk over the members reports exactly the misplaced ones,
in their order, and does not fail. -/
theorem check_eq_misplaced (comments : List Comment) (delimiter : Bytes) (constructorFirst : Bool)
    (body : ClassBody) (hkinds : body.IsRecognized) (hlayout : body.WellLaidOut) :
    check ⟨SectionMap.ofComments comments delimiter, constructorFirst⟩ body =
      ⟨(elementsAt (Misplaced comments delimiter constructorFirst body.members) body.members).map
        fun member => ⟨.sortClassBody, .member member⟩, none⟩ := by
  rw [check_of_wellLaidOut constructorFirst hkinds hlayout, ← elementsAt_misplaced]

def methodOn (first last : Int64) (name : String) : Member :=
  ⟨.method, utf8 name, ⟨⟨first, 2⟩, ⟨last, 3⟩⟩⟩

def sectionOn (line : Int64) : Comment := ⟨false, utf8 " -- section", ⟨⟨line, 2⟩, ⟨line, 15⟩⟩⟩

-- The second method has a section line inside it and ends where the third one starts.
def fourMethods : ClassBody :=
  ⟨[methodOn 2 2 "constructor", methodOn 2 4 "b", methodOn 4 4 "a", methodOn 6 6 "Z"],
    ⟨⟨1, 0⟩, ⟨7, 1⟩⟩⟩

theorem check_fourMethods : fourMethods.IsRecognized ∧ fourMethods.WellLaidOut ∧
    check ⟨SectionMap.ofComments [sectionOn 5, sectionOn 3] [], true⟩ fourMethods =
      ⟨[⟨.sortClassBody, .member (methodOn 4 4 "a")⟩], none⟩ := by
  have hkinds : fourMethods.IsRecognized := by decide
  have hlayout : fourMethods.WellLaidOut := by decide
  refine ⟨hkinds, hlayout, ?_⟩
  rw [check_eq_misplaced [sectionOn 5, sectionOn 3] [] true fourMethods hkinds hlayout]
  decide

end ClassChecker

end OrderLint
