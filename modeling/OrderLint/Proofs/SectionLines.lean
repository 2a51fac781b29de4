import Mathlib
import OrderLint.Proofs.Sections

/-!
# The section map as a sorted multiset

Section lines are collected in the order of the comments, and sorted afterwards unless they ascend
as they are. The outcome is fixed by the comments as a multiset: it ascends, and it holds each line
once for every section comment that starts there. There is one such list, so it shows neither the
order of the comments nor whether and how the lines were sorted: a sort that only exchanges lines
ends at the same list.
-/
namespace OrderLint

namespace LineList

variable {lines other : LineList}

theorem Ascending.eq_of_perm (h : lines.Ascending) (hother : other.Ascending)
    (hperm : lines.Perm other) : lines = other :=
  List.Perm.eq_of_pairwise (fun _ _ _ _ => Int64.le_antisymm) h hother hperm

theorem Ascending.eq_of_count (h : lines.Ascending) (hother : other.Ascending)
    (hcount : ∀ line, lines.count line = other.count line) : lines = other :=
  h.eq_of_perm hother (List.perm_iff_count.mpr hcount)

/-- One list is the other with the lines at two indices exchanged. -/
def Exchanged (lines other : LineList) : Prop := ∃ i j, lines.swap? i j = some other

theorem Exchanged.perm (h : Exchanged lines other) : other.Perm lines := by
  obtain ⟨i, j, h⟩ := h
  simp only [swap?, pair?, Option.bind_eq_bind, Option.pure_def, Option.bind_eq_some_iff,
    Option.some.injEq] at h
  obtain ⟨⟨a, b⟩, ⟨m, hm, n, hn, c, hc, d, hd, hpair⟩, m', hm', n', hn', rfl⟩ := h
  obtain ⟨rfl, rfl⟩ := Prod.mk.inj hpair
  obtain rfl := Option.some.inj (hm.symm.trans hm')
  obtain rfl := Option.some.inj (hn.symm.trans hn')
  obtain ⟨hmlt, rfl⟩ := List.getElem?_eq_some_iff.mp hc
  obtain ⟨hnlt, rfl⟩ := List.getElem?_eq_some_iff.mp hd
  exact List.set_set_perm hmlt hnlt

theorem perm_of_exchanges (h : Relation.ReflTransGen Exchanged lines other) : other.Perm lines := by
  induction h with
  | refl => exact List.Perm.refl _
  | tail _ hstep ih => exact hstep.perm.trans ih

end LineList

/-- The comment opens a section on `line`: it is a line comment that starts there and begins with
the delimiter, which is `" -- "` when none is given. -/
def Comment.OpensOn (delimiter : Bytes) (line : Int64) (comment : Comment) : Prop :=
  comment.block = false ∧
    (if delimiter = [] then utf8 " -- " else delimiter) <+: comment.text ∧
      comment.span.start.line = line

instance (delimiter : Bytes) (line : Int64) : DecidablePred (Comment.OpensOn delimiter line) :=
  fun _ => inferInstanceAs (Decidable (_ ∧ _ ∧ _))

def collectedLines (comments : List Comment) (delimiter : Bytes) : LineList :=
  (comments.filter (·.opensSection delimiter)).map fun comment => comment.span.start.line

theorem count_collectedLines (comments : List Comment) (delimiter : Bytes) (line : Int64) :
    (collectedLines comments delimiter).count line =
      comments.countP (·.OpensOn delimiter line) := by
  rw [collectedLines, List.count_eq_countP, List.countP_map, List.countP_filter]
  apply List.countP_congr
  intro comment _
  simp only [Function.comp_apply, Bool.and_eq_true, beq_iff_eq, Comment.opensSection_iff,
    decide_eq_true_eq]
  rw [Comment.OpensOn]
  tauto

namespace SectionMap

theorem lines_perm (comments : List Comment) (delimiter : Bytes) :
    (ofComments comments delimiter).lines.Perm (collectedLines comments delimiter) := by
  simp only [ofComments]
  split_ifs
  · exact List.Perm.refl _
  · exact LineList.sort_perm _

theorem count_lines (comments : List Comment) (delimiter : Bytes) (line : Int64) :
    (ofComments comments delimiter).lines.count line =
      comments.countP (·.OpensOn delimiter line) := by
  rw [(lines_perm comments delimiter).count_eq, count_collectedLines]

/-- The lines of the section map ascend, and each line is among them once for every section comment
that starts on it. No other list is like that: the map is the same for the comments in any order,
its lines are the collected ones sorted, whether or not these ascend already, and any exchanges of
the collected lines give them as soon as the outcome ascends. -/
theorem lines_sorted_multiset (comments : List Comment) (delimiter : Bytes) :
    let sections := ofComments comments delimiter
    sections.lines.Ascending ∧
      (∀ line, sections.lines.count line = comments.countP (·.OpensOn delimiter line)) ∧
      (∀ reordered : List Comment, reordered.Perm comments →
        ofComments reordered delimiter = sections) ∧
      sections.lines = (collectedLines comments delimiter).sort ∧
      ∀ lines, Relation.ReflTransGen LineList.Exchanged (collectedLines comments delimiter) lines →
        lines.Ascending → lines = sections.lines := by
  intro sections
  have hasc : sections.lines.Ascending := ofComments_ascending comments delimiter
  have hcollected := lines_perm comments delimiter
  refine ⟨hasc, count_lines comments delimiter, ?_, ?_, ?_⟩
  · intro reordered hperm
    have hlines : (ofComments reordered delimiter).lines = sections.lines := by
      refine (ofComments_ascending reordered delimiter).eq_of_count hasc fun line => ?_
      rw [count_lines, count_lines, hperm.countP_eq]
    exact congrArg SectionMap.mk hlines
  · exact hasc.eq_of_perm (LineList.sort_ascending _)
      (hcollected.trans (LineList.sort_perm _).symm)
  · intro lines hexchanges hlines
    have hperm := LineList.perm_of_exchanges hexchanges
    exact hlines.eq_of_perm hasc (hperm.trans hcollected.symm)

def commentOn (block : Bool) (text : String) (line : Int64) : Comment :=
  ⟨block, utf8 text, ⟨⟨line, 2⟩, ⟨line, 20⟩⟩⟩

-- Out of order, with one line twice, a line below zero, and two comments that open no section.
def scatteredComments : List Comment :=
  [commentOn false " -- b" 5, commentOn true " -- c" 4, commentOn false " -- a" (-3),
    commentOn false " --" 6, commentOn false " -- b" 5]

theorem lines_scatteredComments :
    scatteredComments.reverse.Perm scatteredComments ∧
      ofComments scatteredComments.reverse [] = ofComments scatteredComments [] ∧
      LineList.Exchanged (collectedLines scatteredComments []) [-3, 5, 5] ∧
      (ofComments scatteredComments []).lines = [-3, 5, 5] ∧
      (ofComments scatteredComments []).lines.count 5 = 2 := by
  obtain ⟨-, hcount, hreordered, -, hsorted⟩ := lines_sorted_multiset scatteredComments []
  have hperm := List.reverse_perm scatteredComments
  have hexchanged : LineList.Exchanged (collectedLines scatteredComments []) [-3, 5, 5] :=
    ⟨0, 1, by decide⟩
  have hlines := hsorted [-3, 5, 5] (.single hexchanged) (by unfold LineList.Ascending; decide)
  exact ⟨hperm, hreordered _ hperm, hexchanged, hlines.symm, (hcount 5).trans (by decide)⟩

end SectionMap

end OrderLint
