import OrderLint.Proofs.Sections
import OrderLint.Proofs.Truncation

/-!
# One step of the walk over class members

Nothing is assumed here about the layout of a body: members may overlap, lines may descend, and the
line after the end of a member may wrap. The cursor of the walk is still the fresh cursor at the
largest line that it was asked to pass, and all that a step takes from the section lines is whether
one of them lies between that line and the start of the next member.
-/
namespace OrderLint

theorem max_line_le_iff (a b line : Int64) : max a b ≤ line ↔ a ≤ line ∧ b ≤ line := by
  rw [max_line_eq]
  grind

/-- Where a cursor that stood at `first` stands once it has passed a member. -/
def Member.passedFrom (member : Member) (first : Int64) : Int64 :=
  max (max first member.span.start.line) (member.span.finish.line + 1)

namespace Member

theorem passedFrom_le_iff (member : Member) (first line : Int64) :
    member.passedFrom first ≤ line ↔
      first ≤ line ∧ member.span.start.line ≤ line ∧ member.span.finish.line + 1 ≤ line := by
  simp only [passedFrom, max_line_le_iff, and_assoc]

theorem le_passedFrom (member : Member) (first : Int64) : first ≤ member.passedFrom first :=
  ((member.passedFrom_le_iff first _).mp (Int64.le_refl _)).1

theorem passedFrom_le_passedFrom (member : Member) {first first' : Int64}
    (hfirst : first' ≤ first) : member.passedFrom first' ≤ member.passedFrom first := by
  obtain ⟨hle, hspan⟩ := (member.passedFrom_le_iff first _).mp (Int64.le_refl _)
  exact (member.passedFrom_le_iff first' _).mpr ⟨Int64.le_trans hfirst hle, hspan⟩

end Member

def SectionMap.Opens (sections : SectionMap) (first before : Int64) : Prop :=
  ∃ line ∈ sections.lines, first ≤ line ∧ line < before

instance (sections : SectionMap) (first before : Int64) : Decidable (sections.Opens first before) :=
  inferInstanceAs (Decidable (∃ line ∈ sections.lines, _ ∧ _))

theorem SectionMap.Opens.mono {sections more : SectionMap}
    (hlines : ∀ line ∈ sections.lines, line ∈ more.lines) {first first' before : Int64}
    (hfirst : first' ≤ first) (h : sections.Opens first before) : more.Opens first' before := by
  obtain ⟨line, hmem, hle, hlt⟩ := h
  exact ⟨line, hlines line hmem, Int64.le_trans hfirst hle, hlt⟩

namespace ClassChecker

theorem checkMembers_singleton (cursor : SectionCursor) (last : Option Bytes) {member : Member}
    (h : member.IsRecognized) :
    checkMembers cursor last [member] = ⟨outOfOrder last member.name member, none⟩ := by
  simp [checkMembers, Member.sortKey_of_isRecognized h]

theorem checkMembers_step {sections : SectionMap} (hasc : sections.lines.Ascending) (first : Int64)
    (last : Option Bytes) {member : Member} (h : member.IsRecognized) (next : Member)
    (rest : List Member) :
    checkMembers (sections.cursor first) last (member :: next :: rest) =
      Findings.andThen ⟨outOfOrder last member.name member, none⟩
        (checkMembers (sections.cursor (member.passedFrom first))
          (if sections.Opens (member.passedFrom first) next.span.start.line then none
            else some member.name) (next :: rest)) := by
  rw [checkMembers]
  simp only [Member.sortKey_of_isRecognized h, nextRun, SectionMap.seek_cursor hasc,
    SectionMap.between_cursor hasc, decide_eq_true_eq]
  rfl

end ClassChecker

end OrderLint
