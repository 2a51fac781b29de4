import OrderLint.Proofs.MemberWalk

/-!
# Calls to a section cursor

A cursor may be asked to pass lines, and whether a section opens before a line, in any order and
with any arguments: lines that it has passed already, and a line after the last machine integer,
which wraps. What it keeps of all these calls is one line, the largest that it was asked to reach.
-/
namespace OrderLint

inductive CursorCall where
  | seek (line : Int64)
  | between (after before : Int64)

namespace CursorCall

def target : CursorCall → Int64
  | .seek line => line
  | .between after _ => after + 1

/-- The largest line that a cursor made at `first` was asked to reach. -/
def furthest (first : Int64) (calls : List CursorCall) : Int64 :=
  calls.foldl (fun line call => max line call.target) first

theorem furthest_le_iff (first line : Int64) (calls : List CursorCall) :
    furthest first calls ≤ line ↔ ∀ other ∈ first :: calls.map target, other ≤ line := by
  induction calls generalizing first with
  | nil => simp [furthest]
  | cons call rest ih =>
    have hmax := max_line_le_iff first call.target line
    have hrest := ih (max first call.target)
    simp only [furthest, List.foldl_cons, List.map_cons, List.forall_mem_cons] at hrest hmax ⊢
    rw [hrest, hmax, and_assoc]

theorem furthest_mem (first : Int64) (calls : List CursorCall) :
    furthest first calls ∈ first :: calls.map target := by
  induction calls generalizing first with
  | nil => simp [furthest]
  | cons call rest ih =>
    have hrest := ih (max first call.target)
    rw [max_line_eq] at hrest
    simp only [furthest, List.foldl_cons, List.map_cons, max_line_eq, List.mem_cons] at hrest ⊢
    split_ifs at hrest ⊢ <;> tauto

def answer? (sections : SectionMap) (reached : Int64) : CursorCall → Option Bool
  | .seek _ => none
  | .between _ before => some (decide (sections.Opens reached before))

end CursorCall

namespace SectionCursor

open CursorCall

def call (cursor : SectionCursor) : CursorCall → Option Bool × SectionCursor
  | .seek line => (none, cursor.seek line)
  | .between after before =>
    (some (cursor.between after before).1, (cursor.between after before).2)

def callAll (cursor : SectionCursor) : List CursorCall → List (Option Bool) × SectionCursor
  | [] => ([], cursor)
  | call :: rest =>
    let (answer, moved) := cursor.call call
    let (answers, last) := moved.callAll rest
    (answer :: answers, last)

variable {sections : SectionMap}

theorem call_cursor (h : sections.lines.Ascending) (first : Int64) (call : CursorCall) :
    (sections.cursor first).call call =
      (call.answer? sections (max first call.target), sections.cursor (max first call.target)) := by
  cases call with
  | seek line => simp only [SectionCursor.call, SectionMap.seek_cursor h, answer?, target]
  | between after before =>
    simp only [SectionCursor.call, SectionMap.between_cursor h]
    rfl

theorem callAll_cursor (h : sections.lines.Ascending) (first : Int64) (calls : List CursorCall) :
    ((sections.cursor first).callAll calls).2 = sections.cursor (furthest first calls) := by
  induction calls generalizing first with
  | nil => rfl
  | cons call rest ih =>
    simp only [callAll, call_cursor h, ih]
    rfl

theorem answer_callAll (h : sections.lines.Ascending) (first : Int64)
    (earlier later : List CursorCall) (call : CursorCall) :
    ((sections.cursor first).callAll (earlier ++ call :: later)).1[earlier.length]? =
      some (call.answer? sections (furthest first (earlier ++ [call]))) := by
  induction earlier generalizing first with
  | nil =>
    simp only [List.nil_append, callAll, call_cursor h]
    rfl
  | cons other rest ih =>
    have hrest := ih (max first other.target)
    simp only [List.cons_append, callAll, call_cursor h, List.length_cons,
      List.getElem?_cons_succ, hrest]
    rfl

end SectionCursor

namespace SectionMap

theorem peek?_cursor_eq_some_iff {sections : SectionMap} (h : sections.lines.Ascending)
    (first line : Int64) :
    (sections.cursor first).peek? = some line ↔
      line ∈ sections.lines ∧ first ≤ line ∧
        ∀ other ∈ sections.lines, first ≤ other → line ≤ other := by
  rw [peek?_cursor h]
  constructor
  · intro hfound
    refine ⟨List.mem_of_find?_eq_some hfound, by simpa using List.find?_some hfound, ?_⟩
    intro other hother hle
    exact LineList.le_of_find?_eq_some h hfound hother hle
  · rintro ⟨hmem, hle, hleast⟩
    cases hfound : sections.lines.find? (first ≤ ·) with
    | none =>
      have hlt := List.find?_eq_none.mp hfound line hmem
      simp [hle] at hlt
    | some found =>
      have hfirst : first ≤ found := by simpa using List.find?_some hfound
      have hge := hleast found (List.mem_of_find?_eq_some hfound) hfirst
      have hfound_le := LineList.le_of_find?_eq_some h hfound hmem hle
      rw [Int64.le_antisymm hfound_le hge]

theorem peek?_cursor_eq_none_iff {sections : SectionMap} (h : sections.lines.Ascending)
    (first : Int64) :
    (sections.cursor first).peek? = none ↔ ¬ ∃ line ∈ sections.lines, first ≤ line := by
  rw [peek?_cursor h, List.find?_eq_none]
  simp

end SectionMap

/-- After any calls a cursor is the fresh cursor at the largest line that it was asked to reach,
and looks at the least section line from there on. A question is answered by the section lines
between the line reached by it and the line that it names. -/
theorem SectionMap.cursor_calls (comments : List Comment) (delimiter : Bytes) (first : Int64)
    (calls : List CursorCall) :
    let sections := SectionMap.ofComments comments delimiter
    let reached := CursorCall.furthest first calls
    let last := ((sections.cursor first).callAll calls).2
    (reached ∈ first :: calls.map CursorCall.target ∧
      ∀ line ∈ first :: calls.map CursorCall.target, line ≤ reached) ∧
    last = sections.cursor reached ∧
    (∀ line, last.peek? = some line ↔ IsSectionLine comments delimiter line ∧ reached ≤ line ∧
      ∀ other, IsSectionLine comments delimiter other → reached ≤ other → line ≤ other) ∧
    (last.peek? = none ↔ ¬ ∃ line, IsSectionLine comments delimiter line ∧ reached ≤ line) ∧
    ∀ (earlier later : List CursorCall) (after before : Int64),
      let asked := CursorCall.between after before
      ∃ answer, ((sections.cursor first).callAll (earlier ++ asked :: later)).1[earlier.length]? =
          some (some answer) ∧
        (answer = true ↔ ∃ line, IsSectionLine comments delimiter line ∧
          CursorCall.furthest first (earlier ++ [asked]) ≤ line ∧ line < before) := by
  intro sections reached last
  have hasc : sections.lines.Ascending := ofComments_ascending comments delimiter
  have hmem : ∀ line, line ∈ sections.lines ↔ IsSectionLine comments delimiter line :=
    fun line => mem_ofComments
  have hlast : last = sections.cursor reached := SectionCursor.callAll_cursor hasc first calls
  refine ⟨⟨CursorCall.furthest_mem first calls, ?_⟩, hlast, ?_, ?_, ?_⟩
  · exact (CursorCall.furthest_le_iff first reached calls).mp (Int64.le_refl _)
  · intro line
    rw [hlast, peek?_cursor_eq_some_iff hasc]
    simp only [hmem]
  · rw [hlast, peek?_cursor_eq_none_iff hasc]
    simp only [hmem]
  · intro earlier later after before asked
    refine ⟨_, SectionCursor.answer_callAll hasc first earlier later asked, ?_⟩
    simp only [decide_eq_true_eq, Opens, hmem]

end OrderLint
