import OrderLint.Proofs.Diagnostics
import OrderLint.Proofs.Styles
import OrderLint.Settings

/-!
# What printed settings tell

A text is written in a style, and bytes that are no text are written in base 64 behind a tag. Every
entry of printed settings ends its line, so what is printed for settings is made up of the texts of
their entries, each of which is told apart from what follows it. So settings can be told from what
is printed for them, unless a text in them begins with a line feed before a space.
-/
namespace OrderLint

namespace Yaml

/-! ## Texts and bytes that are no text -/

theorem codesOf_lt (s : Bytes) : ∀ c ∈ codesOf s, c < 0x200000 := by
  intro c hc
  obtain ⟨piece, hpiece, rfl⟩ := List.mem_map.mp hc
  exact (flatMap_encode_piecesUpTo le_rfl).1 piece hpiece

theorem flatMap_encode_codesOf {s : Bytes} (h : isUtf8 s) : (codesOf s).flatMap encode = s :=
  (flatMap_encode_piecesUpTo le_rfl).2 h

/-- Whether what is written for a text tells how it begins: not with a line feed before a space. -/
def IsLegible (s : Bytes) : Prop := ¬ [10, 32] <+: s

theorem IsLegible.codesOf {s : Bytes} (h : IsLegible s) (hs : isUtf8 s) :
    ¬ [10, 32] <+: Yaml.codesOf s := by
  intro hprefix
  obtain ⟨rest, hrest⟩ := hprefix
  refine h ⟨rest.flatMap encode, ?_⟩
  conv_rhs => rw [← flatMap_encode_codesOf hs, ← hrest]
  rfl

theorem mem_cutLines {limit : ℕ} {s : Bytes} {b : UInt8} (h : b ∈ cutLines limit s) :
    b = 10 ∨ b ∈ s := by
  induction limit generalizing s with
  | zero => cases h
  | succ limit ih =>
    rw [cutLines] at h
    split_ifs at h
    · cases h
    · rcases List.mem_append.mp h with hmem | hmem
      · exact .inr (List.mem_of_mem_take hmem)
      · rcases List.mem_cons.mp hmem with hmem | hmem
        · exact .inl hmem
        · exact (ih hmem).imp_right List.mem_of_mem_drop

theorem filter_of_notMem {s : Bytes} (h : 10 ∉ s) : s.filter (· != 10) = s := by
  rw [List.filter_eq_self]
  intro b hb
  rw [bne_iff_ne]
  exact fun heq => h (heq ▸ hb)

theorem filter_cutLines {limit : ℕ} {s : Bytes} (hlimit : s.length ≤ limit) (hs : 10 ∉ s) :
    (cutLines limit s).filter (· != 10) = s := by
  induction limit generalizing s with
  | zero =>
    obtain rfl := List.length_eq_zero_iff.mp (Nat.le_zero.mp hlimit)
    rfl
  | succ limit ih =>
    rw [cutLines]
    split_ifs with hnil
    · exact hnil.symm
    · have hrest : (s.drop base64Width).length ≤ limit := by
        have hpos := List.length_pos_iff.mpr hnil
        simp only [List.length_drop, base64Width]
        omega
      rw [List.filter_append, List.filter_cons_of_neg (by decide),
        filter_of_notMem fun hmem => hs (List.mem_of_mem_take hmem),
        ih hrest fun hmem => hs (List.mem_of_mem_drop hmem), List.take_append_drop]

theorem binaryText_range (s : Bytes) : ∀ b ∈ binaryText s, b ≠ 32 ∧ b.toNat < 128 := by
  intro b hb
  have hmem : b = 10 ∨ b ∈ Base64.encode s := by
    rw [binaryText] at hb
    split_ifs at hb
    · exact .inr hb
    · exact mem_cutLines hb
  rcases hmem with rfl | hmem
  · decide
  · obtain ⟨hlow, hhigh⟩ := Base64.encode_range s b hmem
    refine ⟨fun heq => ?_, hhigh⟩
    rw [heq] at hlow
    exact absurd hlow (by decide)

theorem binaryText_injective : Function.Injective binaryText := by
  have hfilter : ∀ s, (binaryText s).filter (· != 10) = Base64.encode s := by
    intro s
    have hfeed : 10 ∉ Base64.encode s := fun hmem =>
      absurd (Base64.encode_range s 10 hmem).1 (by decide)
    rw [binaryText]
    split_ifs
    · exact filter_of_notMem hfeed
    · exact filter_cutLines le_rfl hfeed
  intro s t h
  apply Base64.encode_injective
  rw [← hfilter, h, hfilter]

theorem isUtf8_binaryText (s : Bytes) : isUtf8 (binaryText s) :=
  isUtf8_of_ascii fun b hb => (binaryText_range s b hb).2

theorem isLegible_binaryText (s : Bytes) : IsLegible (binaryText s) := by
  intro hprefix
  obtain ⟨rest, hrest⟩ := hprefix
  exact (binaryText_range s 32 (by simp [← hrest])).1 rfl

def textLine (indent : ℕ) (s : Bytes) : Bytes :=
  if isUtf8 s then styledText indent (styleOf (readsAsText s) (codesOf s)) (codesOf s)
  else utf8 " !!binary"
    ++ styledText indent (styleOf true (codesOf (binaryText s))) (codesOf (binaryText s))

theorem ended_writeText (indent : ℕ) (s : Bytes) (p : Page) :
    (writeText indent s p).ended = p.text ++ textLine indent s := by
  rw [writeText, textLine]
  split_ifs
  · exact ended_writeStyled (fun h => List.ne_nil_of_mem (mem_of_styleOf_eq_literal h)) p
  · rw [← List.append_assoc]
    exact ended_writeStyled (fun h => List.ne_nil_of_mem (mem_of_styleOf_eq_literal h)) _

theorem textLine_append_inj {indent : ℕ} (hindent : 0 < indent) {s t r r' : Bytes}
    (hs : IsLegible s) (ht : IsLegible t) (hr : Follows indent r) (hr' : Follows indent r')
    (h : textLine indent s ++ r = textLine indent t ++ r') : s = t ∧ r = r' := by
  have hbinary : utf8 " !!binary" = 32 :: 33 :: utf8 "!binary" := rfl
  -- No text begins with the exclamation mark of a tag.
  have hmark : ∀ (u v w w' : Bytes), isUtf8 u → ¬ isUtf8 v →
      textLine indent u ++ w ≠ textLine indent v ++ w' := by
    intro u v w w' hu hv heq
    obtain ⟨b, rest, hrest, hne, -⟩ := styledText_eq_cons indent (readsAsText u) (codesOf_lt u)
    rw [textLine, textLine, if_pos hu, if_neg hv, hrest, hbinary] at heq
    exact hne (List.cons.inj (List.cons.inj heq).2).1
  by_cases hsu : isUtf8 s <;> by_cases htu : isUtf8 t
  · rw [textLine, textLine, if_pos hsu, if_pos htu] at h
    obtain ⟨hcodes, rfl⟩ := styledText_append_inj hindent (codesOf_lt s) (codesOf_lt t)
      (hs.codesOf hsu) (ht.codesOf htu) hr hr' h
    rw [← flatMap_encode_codesOf hsu, hcodes, flatMap_encode_codesOf htu]
    exact ⟨rfl, rfl⟩
  · exact absurd h (hmark s t r r' hsu htu)
  · exact absurd h.symm (hmark t s r' r htu hsu)
  · rw [textLine, textLine, if_neg hsu, if_neg htu, List.append_assoc, List.append_assoc] at h
    obtain ⟨hcodes, rfl⟩ := styledText_append_inj hindent (codesOf_lt _) (codesOf_lt _)
      ((isLegible_binaryText s).codesOf (isUtf8_binaryText s))
      ((isLegible_binaryText t).codesOf (isUtf8_binaryText t)) hr hr' (List.append_cancel_left h)
    have htexts : binaryText s = binaryText t := by
      rw [← flatMap_encode_codesOf (isUtf8_binaryText s), hcodes,
        flatMap_encode_codesOf (isUtf8_binaryText t)]
    exact ⟨binaryText_injective htexts, rfl⟩

/-! ## Entries -/

def itemLine (s : Bytes) : Bytes := utf8 "  -" ++ textLine (2 * indentStep) s

def listText (items : List Bytes) : Bytes :=
  if items = [] then utf8 " []\n" else 10 :: items.flatMap itemLine

theorem ended_writeItems (items : List Bytes) (p : Page) :
    (writeItems (items.map .text) p).ended = p.ended ++ items.flatMap itemLine := by
  induction items generalizing p with
  | nil => simp [writeItems]
  | cons s items ih =>
    have hitem : (writeText (2 * indentStep) s ((p.newLine indentStep).write (utf8 "-"))).ended =
        p.ended ++ itemLine s := by
      rw [ended_writeText, Page.text_write, Page.text_newLine, List.append_assoc, List.append_assoc,
        ← List.append_assoc (List.replicate indentStep 32)]
      rfl
    rw [List.map_cons, writeItems, List.foldl_cons, ← writeItems, writeScalar, ih, hitem,
      List.flatMap_cons, List.append_assoc]

section WriteEntry

variable (key : Bytes) (p : Page)

theorem text_key : ((p.newLine 0).write (key ++ utf8 ":")).text = p.ended ++ (key ++ utf8 ":") := by
  simp

theorem ended_writeEntry_truth (b : Bool) : (writeEntry p (key, .truth b)).ended =
    p.ended ++ (key ++ (utf8 ":" ++ (utf8 " " ++ (Value.truth b).scalarText ++ [10]))) := by
  have hvalue : writeEntry p (key, .truth b) = ((p.newLine 0).write (key ++ utf8 ":")).write
    (utf8 " " ++ (Value.truth b).scalarText) := rfl
  rw [hvalue, Page.ended_write, text_key]
  simp only [List.append_assoc]

theorem ended_writeEntry_integer (n : ℤ) : (writeEntry p (key, .integer n)).ended =
    p.ended ++ (key ++ (utf8 ":" ++ (utf8 " " ++ decimalInt n ++ [10]))) := by
  have hvalue : writeEntry p (key, .integer n) = ((p.newLine 0).write (key ++ utf8 ":")).write
    (utf8 " " ++ decimalInt n) := rfl
  rw [hvalue, Page.ended_write, text_key]
  simp only [List.append_assoc]

theorem ended_writeEntry_text (s : Bytes) : (writeEntry p (key, .text s)).ended =
    p.ended ++ (key ++ (utf8 ":" ++ textLine indentStep s)) := by
  have hvalue : writeEntry p (key, .text s) =
    writeText indentStep s ((p.newLine 0).write (key ++ utf8 ":")) := rfl
  rw [hvalue, ended_writeText, text_key]
  simp only [List.append_assoc]

theorem ended_writeEntry_list (items : List Bytes) :
    (writeEntry p (key, .list (items.map .text))).ended =
      p.ended ++ (key ++ (utf8 ":" ++ listText items)) := by
  cases items with
  | nil =>
    rw [List.map_nil, writeEntry, Page.ended_write, text_key]
    simp only [List.append_assoc]
    rfl
  | cons s items =>
    have hitems : writeEntry p (key, .list ((s :: items).map .text)) =
        writeItems ((s :: items).map .text) ((p.newLine 0).write (key ++ utf8 ":")) := rfl
    rw [hitems, ended_writeItems, Page.ended, text_key, listText, if_neg (by simp)]
    simp

end WriteEntry

theorem truth_append_inj {b b' : Bool} {r r' : Bytes}
    (h : (Value.truth b).scalarText ++ ([10] ++ r) =
      (Value.truth b').scalarText ++ ([10] ++ r')) : b = b' ∧ r = r' := by
  cases b <;> cases b'
  · exact ⟨rfl, List.append_cancel_left (List.append_cancel_left h)⟩
  · cases h
  · cases h
  · exact ⟨rfl, List.append_cancel_left (List.append_cancel_left h)⟩

theorem listText_append_inj {items items' : List Bytes} {r r' : Bytes}
    (hitems : ∀ s ∈ items, IsLegible s) (hitems' : ∀ s ∈ items', IsLegible s)
    (hr : Follows 1 r) (hr' : Follows 1 r') (h : listText items ++ r = listText items' ++ r') :
    items = items' ∧ r = r' := by
  have hdash : utf8 "  -" = List.replicate 2 32 ++ [45] := rfl
  have hempty : utf8 " []\n" = 32 :: utf8 "[]\n" := rfl
  rw [listText, listText, hempty] at h
  split_ifs at h with hnil hnil' hnil'
  · exact ⟨hnil.trans hnil'.symm, List.append_cancel_left h⟩
  · cases h
  · cases h
  have hword : ∀ s t u v, IsLegible s → IsLegible t → Follows (2 * indentStep) u →
      Follows (2 * indentStep) v → itemLine s ++ u = itemLine t ++ v → s = t ∧ u = v := by
    intro s t u v hs ht hu hv heq
    rw [itemLine, itemLine, List.append_assoc, List.append_assoc] at heq
    exact textLine_append_inj (by decide) hs ht hu hv (List.append_cancel_left heq)
  have hnext : ∀ s u, IsLegible s → Follows (2 * indentStep) u →
      Follows (2 * indentStep) (itemLine s ++ u) := by
    intro s u _ _
    rw [itemLine, hdash, List.append_assoc, List.append_assoc]
    exact ⟨2, by decide, 45, _, rfl, by decide, by decide⟩
  have hstop : ∀ u, Follows 1 u → Follows (2 * indentStep) u ∧
      ∀ s v, IsLegible s → u ≠ itemLine s ++ v := by
    intro u hu
    refine ⟨hu.mono (by decide), fun s v _ heq => ?_⟩
    obtain ⟨k, hk, b, rest, rfl, hlow, -⟩ := hu
    obtain rfl : k = 0 := by omega
    rw [itemLine, hdash] at heq
    rw [(List.cons.inj heq).1] at hlow
    exact absurd hlow (by decide)
  exact flatMap_append_inj IsLegible (Follows (2 * indentStep)) hword hnext (hstop r hr)
    (hstop r' hr') hitems hitems' (List.cons.inj h).2

end Yaml

/-! ## Settings -/

namespace Settings

def texts (settings : Settings) : List Bytes :=
  settings.delimiter :: (settings.extensions ++ settings.exclude)

/-- Whether what is printed for settings tells them. -/
def IsLegible (settings : Settings) : Prop := ∀ s ∈ settings.texts, Yaml.IsLegible s

open Yaml in
theorem print_eq (settings : Settings) : settings.print =
    utf8 "verbose" ++ (utf8 ":" ++ (utf8 " " ++ (Value.truth settings.verbose).scalarText ++ [10]))
      ++ (utf8 "constructor-first" ++ (utf8 ":"
        ++ (utf8 " " ++ (Value.truth settings.constructorFirst).scalarText ++ [10])))
      ++ (utf8 "delimiter" ++ (utf8 ":" ++ textLine indentStep settings.delimiter))
      ++ (utf8 "ext" ++ (utf8 ":" ++ listText settings.extensions))
      ++ (utf8 "exclude" ++ (utf8 ":" ++ listText settings.exclude))
      ++ (utf8 "jobs" ++ (utf8 ":" ++ (utf8 " " ++ decimalInt settings.jobs.toInt ++ [10]))) := by
  rw [print, printMap, Page.text_newLine, entries]
  simp only [List.foldl_cons, List.foldl_nil, ended_writeEntry_truth, ended_writeEntry_text,
    ended_writeEntry_list, ended_writeEntry_integer]
  simp [Page.ended]

theorem eq_of_print_eq {settings other : Settings} (hlegible : settings.IsLegible)
    (hlegible' : other.IsLegible) (h : settings.print = other.print) : settings = other := by
  -- The name of the next setting begins with a letter, without any indentation.
  have hext : ∀ r, Yaml.Follows 1 (utf8 "ext" ++ r) :=
    fun r => ⟨0, by decide, 101, _, rfl, by decide, by decide⟩
  have hexcl : ∀ r, Yaml.Follows 1 (utf8 "exclude" ++ r) :=
    fun r => ⟨0, by decide, 101, _, rfl, by decide, by decide⟩
  have hjob : ∀ r, Yaml.Follows 1 (utf8 "jobs" ++ r) :=
    fun r => ⟨0, by decide, 106, _, rfl, by decide, by decide⟩
  simp only [IsLegible, texts, List.forall_mem_cons, List.forall_mem_append] at hlegible hlegible'
  rw [print_eq, print_eq] at h
  simp only [List.append_assoc, List.append_cancel_left_eq] at h
  obtain ⟨hverbose, h⟩ := Yaml.truth_append_inj h
  simp only [List.append_cancel_left_eq] at h
  obtain ⟨hfirst, h⟩ := Yaml.truth_append_inj h
  simp only [List.append_cancel_left_eq] at h
  obtain ⟨hdelimiter, h⟩ := Yaml.textLine_append_inj (by decide) hlegible.1 hlegible'.1
    ((hext _).mono (by decide)) ((hext _).mono (by decide)) h
  simp only [List.append_cancel_left_eq] at h
  obtain ⟨hextensions, h⟩ := Yaml.listText_append_inj hlegible.2.1 hlegible'.2.1
    (hexcl _) (hexcl _) h
  simp only [List.append_cancel_left_eq] at h
  obtain ⟨hexclude, h⟩ := Yaml.listText_append_inj hlegible.2.2 hlegible'.2.2
    (hjob _) (hjob _) h
  simp only [List.append_cancel_left_eq, List.append_cancel_right_eq] at h
  have hjobs : settings.jobs = other.jobs := decimal_injective h
  cases settings
  cases other
  simp only at hverbose hfirst hdelimiter hextensions hexclude hjobs
  subst hverbose hfirst hdelimiter hextensions hexclude hjobs
  rfl

example : ({ default 1 with delimiter := utf8 "\n a\n" } : Settings).print =
    ({ default 1 with delimiter := utf8 " a\n" } : Settings).print := by decide +kernel

end Settings

end OrderLint
