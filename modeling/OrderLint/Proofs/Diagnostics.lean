import OrderLint.Proofs.Numerals
import OrderLint.Report

/-!
# What the line of a diagnostic tells

A path may hold colons, numbers and whole diagnostics, so the line of a diagnostic is read from its
end. It ends in the message and the rule of its code, and none of these endings is the end of
another. Before that stand two numbers, which hold no colon, so the colons next to them are the last
ones, and what is in front of them is the path.
-/
namespace OrderLint

theorem mem_decimal {n : Int64} {b : UInt8} (h : b ∈ decimal n) :
    b = 45 ∨ isAsciiDigit b = true := by
  unfold decimal decimalInt at h
  split_ifs at h
  · rcases List.mem_cons.mp h with hb | hb
    · exact .inl hb
    · exact .inr (mem_decimalNat hb)
  · exact .inr (mem_decimalNat h)

theorem colon_notMem_decimal (n : Int64) : 58 ∉ decimal n := by
  intro h
  rcases mem_decimal h with hb | hb
  · cases hb
  · cases hb

theorem decimal_injective : Function.Injective decimal := by
  intro m n h
  have hm := Numeral.readSigned_decimal m
  have hn := Numeral.readSigned_decimal n
  rw [h, hn] at hm
  exact (Except.ok.inj hm).symm

theorem append_cons_inj_of_notMem_right {b : UInt8} {s t x y : Bytes} (hx : b ∉ x) (hy : b ∉ y)
    (h : s ++ b :: x = t ++ b :: y) : s = t ∧ x = y := by
  rcases List.append_eq_append_iff.mp h with ⟨more, rfl, hmore⟩ | ⟨more, rfl, hmore⟩
  · cases more with
    | nil => simpa using hmore
    | cons c more =>
      obtain ⟨-, rfl⟩ := List.cons.inj hmore
      simp at hx
  · cases more with
    | nil => simpa [eq_comm] using hmore
    | cons c more =>
      obtain ⟨-, rfl⟩ := List.cons.inj hmore
      simp at hy

namespace Position

theorem append_label (s : Bytes) (p : Position) :
    s ++ utf8 ":" ++ p.label =
      (s ++ 58 :: decimal p.line) ++ 58 :: decimal (p.column + 1) ++ utf8 ":" := by
  have hcolon : utf8 ":" = [58] := rfl
  simp [label, hcolon]

theorem append_label_inj {s t : Bytes} {p q : Position}
    (h : s ++ utf8 ":" ++ p.label = t ++ utf8 ":" ++ q.label) : s = t ∧ p = q := by
  rw [append_label, append_label, List.append_left_inj] at h
  obtain ⟨hlines, hcolumn⟩ := append_cons_inj_of_notMem_right (colon_notMem_decimal _)
    (colon_notMem_decimal _) h
  obtain ⟨hpath, hline⟩ := append_cons_inj_of_notMem_right (colon_notMem_decimal _)
    (colon_notMem_decimal _) hlines
  have hcolumn' : p.column = q.column := by
    simpa using decimal_injective hcolumn
  cases p
  cases q
  exact ⟨hpath, congrArg₂ Position.mk (decimal_injective hline) hcolumn'⟩

end Position

namespace Code

def assigned : List Code :=
  [.relativeGroupOrder, .specifierGroupOrder, .alphabetImportOrder, .alphabetSpecifierOrder,
    .sortClassBody]

def ending (code : Code) : Bytes :=
  utf8 " " ++ code.message ++ utf8 " (" ++ code.rule ++ utf8 ")" ++ utf8 "\n"

theorem eq_of_ending_suffix : ∀ a ∈ assigned, ∀ b ∈ assigned, a.ending <:+ b.ending → a = b := by
  decide +kernel

end Code

namespace ReportEntry

theorem line_eq (path : Bytes) (v : Violation) :
    line path v = path ++ utf8 ":" ++ v.position.label ++ v.code.ending := by
  simp only [line, Violation.text, Code.ending, List.append_assoc]

theorem code_eq_of_line_eq {path path' : Bytes} {v w : Violation} (hv : v.code ∈ Code.assigned)
    (hw : w.code ∈ Code.assigned) (h : line path v = line path' w) : v.code = w.code := by
  have hend : v.code.ending <:+ line path v := ⟨_, (line_eq path v).symm⟩
  have hend' : w.code.ending <:+ line path v := ⟨_, h ▸ (line_eq path' w).symm⟩
  rcases List.suffix_or_suffix_of_suffix hend hend' with hsuffix | hsuffix
  · exact Code.eq_of_ending_suffix _ hv _ hw hsuffix
  · exact (Code.eq_of_ending_suffix _ hw _ hv hsuffix).symm

/-- The lines of two diagnostics are equal exactly when the diagnostics are in files of the same
path, of the same code and on nodes that start at the same place. -/
theorem line_eq_line_iff (path path' : Bytes) (v w : Violation) (hv : v.code ∈ Code.assigned)
    (hw : w.code ∈ Code.assigned) :
    line path v = line path' w ↔ path = path' ∧ v.code = w.code ∧
      v.position.line = w.position.line ∧ v.position.column = w.position.column := by
  constructor
  · intro h
    have hcode := code_eq_of_line_eq hv hw h
    rw [line_eq, line_eq, hcode, List.append_left_inj] at h
    obtain ⟨hpath, hposition⟩ := Position.append_label_inj h
    exact ⟨hpath, hcode, congrArg Position.line hposition, congrArg Position.column hposition⟩
  · rintro ⟨rfl, hcode, hline, hcolumn⟩
    rw [line_eq, line_eq, hcode, Position.label, Position.label, hline, hcolumn]

def violationAt (code : Code) (start : Position) : Violation :=
  ⟨code, .member ⟨.method, [], ⟨start, start⟩⟩⟩

-- The one path ends in what looks like the line number of the other, and the last column wraps.
theorem line_ne_line_of_numberedPath :
    Code.sortClassBody ∈ Code.assigned ∧
      line (utf8 "a.js:3") (violationAt .sortClassBody ⟨7, Int64.maxValue⟩) ≠
        line (utf8 "a.js") (violationAt .sortClassBody ⟨3, 6⟩) := by
  have hcode : Code.sortClassBody ∈ Code.assigned := by decide
  refine ⟨hcode, fun h => ?_⟩
  have hpath : utf8 "a.js:3" ≠ utf8 "a.js" := by decide
  exact hpath ((line_eq_line_iff _ _ _ _ hcode hcode).mp h).1

end ReportEntry

end OrderLint
