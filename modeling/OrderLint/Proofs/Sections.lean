import OrderLint.Proofs.Sequence
import OrderLint.Sections.Cursor

/-!
# Section lines and the cursor over them

The section map of a file is the ascending list of the lines on which a section opens. A cursor
over it is determined by the largest line it was asked to pass: moved from the fresh cursor at
`first` to `line` it is the fresh cursor at the larger of the two, so the walk one by one and the
search by halving agree. Whether a section opens between two lines is read off the list, whatever
the cursor has passed before.
-/
namespace OrderLint

/-- A section opens on `line`: a line comment that starts there begins with the delimiter, which is
`" -- "` when none is given. -/
def IsSectionLine (comments : List Comment) (delimiter : Bytes) (line : Int64) : Prop :=
  ∃ comment ∈ comments, comment.block = false ∧
    (if delimiter = [] then utf8 " -- " else delimiter) <+: comment.text ∧
      comment.span.start.line = line

instance (comments : List Comment) (delimiter : Bytes) :
    DecidablePred (IsSectionLine comments delimiter) :=
  fun _ => inferInstanceAs (Decidable (∃ comment ∈ comments, _ ∧ _ ∧ _))

theorem Comment.opensSection_iff (delimiter : Bytes) (comment : Comment) :
    comment.opensSection delimiter = true ↔ comment.block = false ∧
      (if delimiter = [] then utf8 " -- " else delimiter) <+: comment.text := by
  simp [opensSection, Bytes.startsWith, effectiveDelimiter, defaultDelimiter]

namespace LineList

def Ascending (lines : LineList) : Prop := List.Pairwise (· ≤ ·) lines

theorem insert_perm (line : Int64) (lines : LineList) : (insert line lines).Perm (line :: lines) := by
  induction lines with
  | nil => exact List.Perm.refl _
  | cons next rest ih =>
    simp only [insert]
    split_ifs with h
    · exact List.Perm.refl _
    · exact (ih.cons next).trans (List.Perm.swap line next rest)

theorem sort_perm (lines : LineList) : (sort lines).Perm lines := by
  induction lines with
  | nil => exact List.Perm.refl _
  | cons line rest ih => exact (insert_perm line (sort rest)).trans (ih.cons line)

theorem insert_ascending (line : Int64) {lines : LineList} (h : lines.Ascending) :
    (insert line lines).Ascending := by
  induction lines with
  | nil => exact List.pairwise_singleton _ _
  | cons next rest ih =>
    obtain ⟨hnext, hrest⟩ := List.pairwise_cons.mp h
    simp only [insert]
    split_ifs with hle
    · refine List.pairwise_cons.mpr ⟨?_, h⟩
      intro other hother
      rcases List.mem_cons.mp hother with rfl | hother
      · exact hle
      · exact Int64.le_trans hle (hnext other hother)
    · refine List.pairwise_cons.mpr ⟨?_, ih hrest⟩
      intro other hother
      rcases List.mem_cons.mp ((insert_perm line rest).mem_iff.mp hother) with rfl | hother
      · exact Int64.le_of_lt (Int64.not_le.mp hle)
      · exact hnext other hother

theorem sort_ascending (lines : LineList) : (sort lines).Ascending := by
  induction lines with
  | nil => exact List.Pairwise.nil
  | cons line rest ih => exact insert_ascending line ih

theorem isAscending_iff (lines : LineList) : lines.isAscending = true ↔ lines.Ascending := by
  have hc : lines.isAscending = true ↔ List.IsChain (· ≤ ·) lines := by
    fun_induction isAscending lines with
    | case1 line next rest ih => simp [ih]
    | case2 lines h =>
      match lines, h with
      | [], _ => simp
      | [line], _ => simp
      | line :: next :: rest, h => exact absurd rfl (h line next rest)
  exact hc.trans List.isChain_iff_pairwise

def countBefore (lines : LineList) (line : Int64) : ℕ := (lines.takeWhile (· < line)).length

theorem countBefore_cons (next line : Int64) (rest : LineList) :
    countBefore (next :: rest) line = if next < line then countBefore rest line + 1 else 0 := by
  by_cases h : next < line <;> simp [countBefore, h]

theorem countBefore_le_length (lines : LineList) (line : Int64) :
    lines.countBefore line ≤ lines.length :=
  (List.takeWhile_sublist _).length_le

theorem getD_lt_iff {lines : LineList} (h : lines.Ascending) (line : Int64) {i : ℕ}
    (hi : i < lines.length) : lines.getD i line < line ↔ i < lines.countBefore line := by
  induction lines generalizing i with
  | nil => simp at hi
  | cons next rest ih =>
    obtain ⟨hnext, hrest⟩ := List.pairwise_cons.mp h
    rw [countBefore_cons]
    cases i with
    | zero => by_cases hlt : next < line <;> simp [hlt]
    | succ i =>
      have hi' : i < rest.length := by simpa using hi
      rw [List.getD_cons_succ, ih hrest hi']
      by_cases hlt : next < line
      · simp [hlt]
      · have hle : ¬ i < countBefore rest line := by
          rw [← ih hrest hi', List.getD_eq_getElem _ _ hi']
          have hm := hnext _ (List.getElem_mem hi')
          exact Int64.not_lt.mpr (Int64.le_trans (Int64.not_lt.mp hlt) hm)
        simp [hlt, hle]

end LineList

theorem lowerBound_eq {lines : LineList} {line : Int64} {count low high : ℕ}
    (hcount : ∀ i < lines.length, lines.getD i line < line ↔ i < count)
    (hlow : low ≤ count) (hhigh : count ≤ high) (hlen : high ≤ lines.length) :
    lowerBound lines line low high = count := by
  fun_induction lowerBound lines line low high with
  | case1 low high hlt middle hm ih =>
    have hmid : middle < count := (hcount middle (by omega)).mp hm
    exact ih (by omega) hhigh hlen
  | case2 low high hlt middle hm ih =>
    have hmid : ¬ middle < count := fun h => hm ((hcount middle (by omega)).mpr h)
    exact ih hlow (by omega) (by omega)
  | case3 low high hge => omega

theorem max_line_eq (a b : Int64) : max a b = if a ≤ b then b else a := rfl

theorem advance_countBefore (lines : LineList) (first line : Int64) :
    advance lines line (lines.countBefore first) = lines.countBefore (max first line) := by
  unfold advance
  induction lines with
  | nil => rfl
  | cons next rest ih =>
    rw [LineList.countBefore_cons, LineList.countBefore_cons]
    by_cases hnext : next < first
    · have hlt : next < max first line := by
        rw [max_line_eq]
        grind
      simp only [hnext, hlt, if_true, List.drop_succ_cons]
      omega
    · simp only [hnext, if_false, List.drop_zero, Nat.zero_add]
      by_cases hle : first ≤ line
      · rw [max_line_eq, if_pos hle, ← LineList.countBefore_cons]
        rfl
      · have hline : ¬ next < line := by grind
        rw [max_line_eq, if_neg hle, if_neg hnext, List.takeWhile_cons_of_neg (by simpa using hline)]
        rfl

theorem getElem?_countBefore (lines : LineList) (line : Int64) :
    lines[lines.countBefore line]? = lines.find? (line ≤ ·) := by
  induction lines with
  | nil => rfl
  | cons next rest ih =>
    rw [LineList.countBefore_cons]
    by_cases h : next < line
    · have hle : ¬ line ≤ next := Int64.not_le.mpr h
      simp [h, hle, ih]
    · simp [h, Int64.not_lt.mp h]

theorem LineList.le_of_find?_eq_some {lines : LineList} (h : lines.Ascending) {first found : Int64}
    (hf : lines.find? (first ≤ ·) = some found) {line : Int64} (hm : line ∈ lines)
    (hle : first ≤ line) : found ≤ line := by
  obtain ⟨-, before, after, rfl, hbefore⟩ := List.find?_eq_some_iff_append.mp hf
  rcases List.mem_append.mp hm with hm | hm
  · have hn := hbefore line hm
    simp [hle] at hn
  · rcases List.mem_cons.mp hm with rfl | hm
    · exact Int64.le_refl _
    · have hs := (List.pairwise_append.mp h).2.1
      exact (List.pairwise_cons.mp hs).1 line hm

namespace SectionMap

theorem ofComments_ascending (comments : List Comment) (delimiter : Bytes) :
    (ofComments comments delimiter).lines.Ascending := by
  simp only [ofComments]
  split_ifs with h
  · exact (LineList.isAscending_iff _).mp h
  · exact LineList.sort_ascending _

theorem mem_ofComments {comments : List Comment} {delimiter : Bytes} {line : Int64} :
    line ∈ (ofComments comments delimiter).lines ↔ IsSectionLine comments delimiter line := by
  have hs : line ∈ (ofComments comments delimiter).lines ↔
      line ∈ (comments.filter (·.opensSection delimiter)).map fun c => c.span.start.line := by
    simp only [ofComments]
    split_ifs
    · rfl
    · exact (LineList.sort_perm _).mem_iff
  rw [hs]
  simp only [List.mem_map, List.mem_filter, Comment.opensSection_iff, IsSectionLine, and_assoc]

variable {sections : SectionMap}

theorem cursor_eq (h : sections.lines.Ascending) (line : Int64) :
    sections.cursor line = ⟨sections.lines, sections.lines.countBefore line⟩ := by
  have hl := lowerBound_eq (fun i hi => LineList.getD_lt_iff h line hi) (Nat.zero_le _)
    (LineList.countBefore_le_length sections.lines line) (Nat.le_refl _)
  simp only [cursor, hl]

theorem seek_cursor (h : sections.lines.Ascending) (first line : Int64) :
    (sections.cursor first).seek line = sections.cursor (max first line) := by
  simp only [cursor_eq h, SectionCursor.seek, advance_countBefore]

theorem peek?_cursor (h : sections.lines.Ascending) (line : Int64) :
    (sections.cursor line).peek? = sections.lines.find? (line ≤ ·) := by
  simp only [cursor_eq h, SectionCursor.peek?, getElem?_countBefore]

theorem between_cursor (h : sections.lines.Ascending) (first after before : Int64) :
    (sections.cursor first).between after before =
      (decide (∃ line ∈ sections.lines, max first (after + 1) ≤ line ∧ line < before),
        sections.cursor (max first (after + 1))) := by
  simp only [SectionCursor.between, seek_cursor h, peek?_cursor h]
  generalize max first (after + 1) = reached
  cases hf : sections.lines.find? (reached ≤ ·) with
  | none =>
    have hn : ¬ ∃ line ∈ sections.lines, reached ≤ line ∧ line < before := by
      rintro ⟨line, hm, hle, -⟩
      have hlt := List.find?_eq_none.mp hf line hm
      simp [hle] at hlt
    simp [hn]
  | some found =>
    have hle : reached ≤ found := by simpa using List.find?_some hf
    have hiff : found < before ↔ ∃ line ∈ sections.lines, reached ≤ line ∧ line < before := by
      constructor
      · intro hlt
        exact ⟨found, List.mem_of_find?_eq_some hf, hle, hlt⟩
      · rintro ⟨line, hm, hreached, hlt⟩
        exact Int64.lt_of_le_of_lt (LineList.le_of_find?_eq_some h hf hm hreached) hlt
    simp only [hiff]

end SectionMap

end OrderLint
