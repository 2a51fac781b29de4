import Mathlib
import OrderLint.Imports.Record
import OrderLint.JavaScript.Parse
import OrderLint.Proofs.LiteralReading

/-!
# What is kept of a string literal

The source of an import and the name of a member with a string for its key are values of string
literals. The value of a literal is one of its pieces, its first plain run, and only a literal
without plain runs is taken between its quotes. So a literal is kept whole exactly when it has at
most one piece, or nothing but escapes; of any other one, what comes before and after its first
plain run is lost.
-/
namespace OrderLint.JavaScript

theorem unquote_quoted (quote : UInt8) (inside : Bytes) :
    unquote (quote :: inside ++ [quote]) = inside := by
  have hlength : (quote :: inside ++ [quote]).length = inside.length + 2 := by simp
  rw [unquote, if_pos (by omega), hlength]
  simp [Bytes.slice]

namespace Tree

/-- A literal of one piece at most, or of nothing but escapes. -/
def IsUniform (literal : Tree) : Prop :=
  literal.namedChildren.length ≤ 1 ∨
    ∀ piece ∈ literal.namedChildren, piece.kind = "escape_sequence"

instance (literal : Tree) : Decidable literal.IsUniform :=
  inferInstanceAs (Decidable (_ ∨ _))

/-- The text `kept` is the first plain run of a literal, with nothing but escapes before it. -/
def FirstRun (src : Bytes) (literal : Tree) (kept : Bytes) : Prop :=
  ∃ (escapes : Forest) (run : Tree) (rest : Forest),
    literal.namedChildren = escapes ++ run :: rest ∧
      (∀ piece ∈ escapes, piece.kind = "escape_sequence") ∧ run.kind = "string_fragment" ∧
      kept = run.content src

def IsKey (literal key : Tree) : Prop :=
  key = literal ∨ key.kind = "computed_property_name" ∧ key.namedChildren = [literal]

/-- The texts that an outline keeps of a literal: as the source of an import statement, as the name
of a method and as the name of a field. -/
inductive KeptAs (src : Bytes) (literal : Tree) : Bytes → Prop
  | source (statement : Tree) (hsource : statement.childByField? "source" = some literal) :
    KeptAs src literal (statement.importDecl src).source
  | method (member key : Tree) (hmember : member.kind = "method_definition")
    (hkey : member.childByField? "name" = some key) (hliteral : literal.IsKey key) :
    KeptAs src literal (member.classMember src).name
  | field (member key : Tree)
    (hmember : member.kind = "field_definition" ∨ member.kind = "public_field_definition")
    (hkey : member.childByField? "property" = some key) (hliteral : literal.IsKey key) :
    KeptAs src literal (member.classMember src).name

section

variable {src inside kept : Bytes} {literal key : Tree}

theorem IsKey.keyName_eq (h : literal.IsKey key) (hkind : literal.kind = "string") :
    key.keyName src = literal.stringValue src := by
  obtain rfl | ⟨hcomputed, hinner⟩ := h
  · simp [keyName, hkind]
  · simp [keyName, hcomputed, hinner, hkind]

theorem KeptAs.eq_stringValue (h : literal.KeptAs src kept) (hkind : literal.kind = "string") :
    kept = literal.stringValue src := by
  cases h with
  | source statement hsource => simp [importDecl, hsource]
  | method member key hmember hkey hliteral =>
    simp [classMember, hmember, fieldName, hkey, hliteral.keyName_eq hkind]
  | field member key hmember hkey hliteral =>
    obtain hmember | hmember := hmember <;>
      simp [classMember, hmember, fieldName, hkey, hliteral.keyName_eq hkind]

namespace IsLiteral

theorem withField (h : literal.IsLiteral src inside) (role : String) :
    (literal.withField role).IsLiteral src inside := by
  cases literal
  exact ⟨h.kind, h.pieces, h.nonempty, h.inside_eq, h.quoted⟩

theorem stringValue_of_escapes (h : literal.IsLiteral src inside)
    (hescapes : ∀ piece ∈ literal.namedChildren, piece.kind = "escape_sequence") :
    literal.stringValue src = inside := by
  have hnone : literal.namedChildren.find? (·.kind == "string_fragment") = none := by
    rw [List.find?_eq_none]
    intro piece hpiece
    simp [hescapes piece hpiece]
  obtain ⟨quote, -, hcontent⟩ := h.quoted
  rw [stringValue, hnone, hcontent]
  exact unquote_quoted quote inside

theorem firstRun_stringValue (h : literal.IsLiteral src inside)
    (hrun : ¬∀ piece ∈ literal.namedChildren, piece.kind = "escape_sequence") :
    literal.FirstRun src (literal.stringValue src) := by
  cases hfind : literal.namedChildren.find? (·.kind == "string_fragment") with
  | none =>
    refine absurd ?_ hrun
    intro piece hpiece
    have hplain := List.find?_eq_none.mp hfind piece hpiece
    exact (h.pieces piece hpiece).resolve_left (by simpa using hplain)
  | some run =>
    obtain ⟨hkind, escapes, rest, hsplit, hescapes⟩ := List.find?_eq_some_iff_append.mp hfind
    refine ⟨escapes, run, rest, hsplit, ?_, by simpa using hkind, by rw [stringValue, hfind]⟩
    intro piece hpiece
    have hmem : piece ∈ literal.namedChildren := by
      rw [hsplit]
      exact List.mem_append_left _ hpiece
    exact (h.pieces piece hmem).resolve_left (by simpa using hescapes piece hpiece)

theorem length_content_lt (h : literal.IsLiteral src inside) {before after : Forest} {piece : Tree}
    (hsplit : literal.namedChildren = before ++ piece :: after)
    (hmany : 1 < literal.namedChildren.length) : (piece.content src).length < inside.length := by
  have hinside : inside = before.flatMap (content src) ++
      (piece.content src ++ after.flatMap (content src)) := by
    rw [h.inside_eq, hsplit, List.flatMap_append, List.flatMap_cons]
  have hother : before.flatMap (content src) ++ after.flatMap (content src) ≠ [] := by
    intro hnil
    rw [← List.flatMap_append, List.flatMap_eq_nil_iff] at hnil
    have hempty : before ++ after = [] := by
      refine List.eq_nil_iff_forall_not_mem.mpr ?_
      intro other hother
      refine h.nonempty other ?_ (hnil other hother)
      rw [hsplit]
      grind
    rw [hsplit] at hmany
    obtain ⟨rfl, rfl⟩ := List.append_eq_nil_iff.mp hempty
    simp at hmany
  have hpos := List.length_pos_iff.mpr hother
  rw [hinside]
  simp only [List.length_append] at hpos ⊢
  omega

theorem length_stringValue_lt (h : literal.IsLiteral src inside) (hmixed : ¬literal.IsUniform) :
    (literal.stringValue src).length < inside.length := by
  rw [IsUniform, not_or, not_le] at hmixed
  obtain ⟨escapes, run, rest, hsplit, -, -, hvalue⟩ := h.firstRun_stringValue hmixed.2
  rw [hvalue]
  exact h.length_content_lt hsplit hmixed.1

theorem stringValue_eq_iff (h : literal.IsLiteral src inside) :
    literal.stringValue src = inside ↔ literal.IsUniform := by
  constructor
  · intro heq
    by_contra hmixed
    have hlt := h.length_stringValue_lt hmixed
    rw [heq] at hlt
    exact lt_irrefl _ hlt
  · intro huniform
    by_cases hescapes : ∀ piece ∈ literal.namedChildren, piece.kind = "escape_sequence"
    · exact h.stringValue_of_escapes hescapes
    -- The first run is the only piece.
    obtain ⟨escapes, run, rest, hsplit, -, -, hvalue⟩ := h.firstRun_stringValue hescapes
    have hone := huniform.resolve_right hescapes
    rw [hsplit, List.length_append, List.length_cons] at hone
    have hbefore : escapes = [] := List.length_eq_zero_iff.mp (by omega)
    have hafter : rest = [] := List.length_eq_zero_iff.mp (by omega)
    rw [hvalue, h.inside_eq, hsplit, hbefore, hafter, List.nil_append, List.flatMap_singleton]

end IsLiteral

end

/-- What is read as a string literal has its text between two quotes, in pieces, and keeps it in
every role. -/
theorem exists_isLiteral_in_role {src : Bytes} {r s : Reader} {forest : Forest}
    (hplace : r.place.In src) (hpending : ∀ tree ∈ r.pending, isComment tree = true)
    (hread : stringLiteral r = .ok (forest, s)) :
    ∃ (comments : Forest) (literal : Tree) (inside : Bytes), forest = comments ++ [literal] ∧
      (∀ tree ∈ comments, isComment tree = true) ∧ literal.IsLiteral src inside ∧
      ∀ role, (literal.withField role).IsLiteral src inside := by
  obtain ⟨comments, literal, inside, hforest, hcomments, hliteral⟩ :=
    exists_isLiteral_of_stringLiteral hplace hpending hread
  exact ⟨comments, literal, inside, hforest, hcomments, hliteral, hliteral.withField⟩

/-- An outline keeps the whole of the text inside a literal, so that it tells literals apart and
tells packages from files as they are written, exactly when the literal is uniform. Otherwise it
keeps the first plain run alone. -/
theorem kept_eq_inside_iff (src : Bytes) (literal : Tree) (inside kept : Bytes)
    (h : literal.IsLiteral src inside) (hkept : literal.KeptAs src kept) :
    (kept = inside ↔ literal.IsUniform) ∧
    (literal.IsUniform → isExternal kept = isExternal inside) ∧
    (¬literal.IsUniform → literal.FirstRun src kept ∧ kept.length < inside.length) ∧
    ∀ (other : Tree) (inside' kept' : Bytes),
      other.IsLiteral src inside' → other.KeptAs src kept' →
      literal.IsUniform → other.IsUniform → (kept = kept' ↔ inside = inside') := by
  have hvalue := hkept.eq_stringValue h.kind
  subst hvalue
  refine ⟨h.stringValue_eq_iff, ?_, ?_, ?_⟩
  · intro huniform
    rw [h.stringValue_eq_iff.mpr huniform]
  · intro hmixed
    exact ⟨h.firstRun_stringValue (not_or.mp hmixed).2, h.length_stringValue_lt hmixed⟩
  · intro other inside' kept' h' hkept' huniform huniform'
    rw [hkept'.eq_stringValue h'.kind, h.stringValue_eq_iff.mpr huniform,
      h'.stringValue_eq_iff.mpr huniform']

def importedLiterals (src : Bytes) : Forest :=
  (syntaxTree src).namedChildren.filterMap (·.childByField? "source")

theorem keptAs_of_mem_importedLiterals {src : Bytes} {literal : Tree}
    (h : literal ∈ importedLiterals src) : literal.KeptAs src (literal.stringValue src) := by
  obtain ⟨statement, -, hsource⟩ := List.mem_filterMap.mp h
  have hvalue : (statement.importDecl src).source = literal.stringValue src := by
    simp [importDecl, hsource]
  rw [← hvalue]
  exact .source statement hsource

-- A literal with an escape between two runs, one of an escape alone and one of a run alone.
def threeImports : Bytes := utf8 "import 'b\\x41c'\nimport '\\x62'\nimport 'b'\n"

theorem kept_eq_inside_iff_threeImports :
    ∃ mixed escape run : Tree, importedLiterals threeImports = [mixed, escape, run] ∧
      (mixed.IsLiteral threeImports (utf8 "b\\x41c") ∧ mixed.KeptAs threeImports (utf8 "b")) ∧
      (escape.IsLiteral threeImports (utf8 "\\x62") ∧ escape.KeptAs threeImports (utf8 "\\x62")) ∧
      (run.IsLiteral threeImports (utf8 "b") ∧ run.KeptAs threeImports (utf8 "b")) ∧
      ¬mixed.IsUniform ∧ escape.IsUniform ∧ run.IsUniform ∧ utf8 "\\x62" ≠ utf8 "b" := by
  have hkept := kept_eq_inside_iff threeImports
  obtain ⟨mixed, escape, run, hliterals⟩ := List.length_eq_three.mp
    (by decide +kernel : (importedLiterals threeImports).length = 3)
  have hkeptAs : ∀ literal ∈ importedLiterals threeImports,
      literal.KeptAs threeImports (literal.stringValue threeImports) :=
    fun _ hliteral => keptAs_of_mem_importedLiterals hliteral
  have hinside : ∀ pair ∈ (importedLiterals threeImports).zip
      [utf8 "b\\x41c", utf8 "\\x62", utf8 "b"], pair.1.IsLiteral threeImports pair.2 := by
    decide +kernel
  have hvalues : (importedLiterals threeImports).map (·.stringValue threeImports) =
      [utf8 "b", utf8 "\\x62", utf8 "b"] := by
    decide +kernel
  rw [hliterals] at hkeptAs hinside hvalues
  simp only [List.map_cons, List.map_nil, List.cons.injEq, and_true] at hvalues
  simp only [List.forall_mem_cons, List.zip_cons_cons, hvalues] at hkeptAs hinside
  obtain ⟨hmixed, hescape, hrun, -⟩ := hkeptAs
  obtain ⟨hmixed', hescape', hrun', -⟩ := hinside
  have hlost : ¬mixed.IsUniform := by
    rw [← (hkept _ _ _ hmixed' hmixed).1]
    decide +kernel
  have hescapeWhole := (hkept _ _ _ hescape' hescape).1.mp rfl
  have hrunWhole := (hkept _ _ _ hrun' hrun).1.mp rfl
  have happart := (hkept _ _ _ hescape' hescape).2.2.2 _ _ _ hrun' hrun hescapeWhole hrunWhole
  exact ⟨mixed, escape, run, hliterals, ⟨hmixed', hmixed⟩, ⟨hescape', hescape⟩, ⟨hrun', hrun⟩,
    hlost, hescapeWhole, hrunWhole, happart.not.mpr (by decide +kernel)⟩

/-- What stands around the first plain run is lost: two keys that are written differently get one
name, and a source that names a package is kept as that of a file. -/
theorem kept_ne_inside :
    (parse (utf8 "a.js") (utf8 "import 'b\\x41c'\n")).toOption.map (·.imports.map (·.source)) =
      some [utf8 "b"] ∧
    utf8 "b" ≠ utf8 "b\\x41c" ∧
    (parse (utf8 "a.js") (utf8 "class A \x7b 'a\\x41' = 1; ['a\\x42'] = 2; \x7d\n")).toOption.map
      (·.bodies.flatMap (·.members.map (·.name))) = some [utf8 "a", utf8 "a"] ∧
    (parse (utf8 "a.js") (utf8 "import '\\x61./b'\n")).toOption.map (·.imports.map (·.source)) =
      some [utf8 "./b"] ∧
    isExternal (utf8 "\\x61./b") = true ∧ isExternal (utf8 "./b") = false := by
  decide +kernel

end Tree

end OrderLint.JavaScript
