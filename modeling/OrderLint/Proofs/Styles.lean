import Mathlib.Algebra.Group.Nat.Defs
import OrderLint.Proofs.CodePoints
import OrderLint.Yaml.Printer

/-!
# Styles of texts

A text is written in one of four styles, which its first character tells. Plain, it ends with its
line. Between quotes it ends at the first quote that is not doubled or escaped. A block consists of
lines that are indented more than what comes after it, and its header tells how the last of them
ends. So in each style a text is told apart from what follows it. The one thing that is not told is
a line feed before a space at the very beginning: a block begins on a line of its own with or
without it.
-/
namespace OrderLint.Yaml

namespace Page

def ended (p : Page) : Bytes := p.text ++ if p.fresh then [] else [10]

@[simp] theorem text_write (p : Page) (s : Bytes) : (p.write s).text = p.text ++ s := rfl

@[simp] theorem fresh_write (p : Page) (s : Bytes) : (p.write s).fresh = false := rfl

@[simp] theorem ended_write (p : Page) (s : Bytes) : (p.write s).ended = p.text ++ (s ++ [10]) := by
  simp [ended]

@[simp] theorem text_newLine (p : Page) (indent : ℕ) :
    (p.newLine indent).text = p.ended ++ List.replicate indent 32 := by
  rw [newLine, ended]
  split_ifs <;> simp

theorem ended_of_fresh {p : Page} (h : p.fresh = true) : p.ended = p.text := by
  simp [ended, h]

end Page

/-! ## Lines -/

/-- Characters, each with something `extra` behind it; those at the beginning of a line are indented
unless the line is empty, and `broken` says whether the first one is at the beginning of a line. -/
def lineText (extra : ℕ → Bytes) (indent : ℕ) : Bool → List ℕ → Bytes
  | _, [] => []
  | broken, c :: rest =>
    (if broken && !isBreakCode c then List.replicate indent 32 else [])
      ++ (encode c ++ (extra c ++ lineText extra indent (isBreakCode c) rest))

def endsLine (broken : Bool) : List ℕ → Bool
  | [] => broken
  | c :: rest => endsLine (isBreakCode c) rest

theorem endsLine_append (broken : Bool) (codes more : List ℕ) :
    endsLine broken (codes ++ more) = endsLine (endsLine broken codes) more := by
  induction codes generalizing broken with
  | nil => rfl
  | cons c codes ih => exact ih _

theorem lineText_append (extra : ℕ → Bytes) (indent : ℕ) (broken : Bool) (codes more : List ℕ) :
    lineText extra indent broken (codes ++ more) =
      lineText extra indent broken codes ++ lineText extra indent (endsLine broken codes) more := by
  induction codes generalizing broken with
  | nil => rfl
  | cons c codes ih => simp only [List.cons_append, lineText, endsLine, ih, List.append_assoc]

section LineText

variable {extra : ℕ → Bytes} {indent : ℕ} {broken : Bool} {codes codes' : List ℕ} {r r' : Bytes}

theorem lineText_cons_inj (hindent : 0 < indent) {c d : ℕ} (hc : c < 0x200000) (hd : d < 0x200000)
    (h : lineText extra indent broken (c :: codes) ++ r =
      lineText extra indent broken (d :: codes') ++ r') :
    c = d ∧ lineText extra indent (isBreakCode c) codes ++ r =
      lineText extra indent (isBreakCode c) codes' ++ r' := by
  -- A line break is not indented, and no line break begins with a space.
  have hspace : ∀ e < 0x200000, isBreakCode e = true → ∀ s t : Bytes,
      encode e ++ s ≠ List.replicate indent 32 ++ t := by
    intro e he hbreak s t heq
    obtain ⟨indent, rfl⟩ := Nat.exists_eq_add_one.mpr hindent
    obtain ⟨rfl, -⟩ := eq_of_encode_append_eq_cons he (b := 32) (by decide) heq
    cases hbreak
  have hencode : encode c ++ (extra c ++ lineText extra indent (isBreakCode c) codes ++ r) =
      encode d ++ (extra d ++ lineText extra indent (isBreakCode d) codes' ++ r') := by
    simp only [lineText, List.append_assoc] at h ⊢
    cases broken
    · exact h
    · cases hbreak : isBreakCode c <;> cases hbreak' : isBreakCode d <;>
        simp only [hbreak, hbreak', Bool.not_true, Bool.not_false, Bool.and_true, Bool.and_false,
          if_true, Bool.false_eq_true, if_false, List.nil_append] at h ⊢
      · exact List.append_cancel_left h
      · exact (hspace d hd hbreak' _ _ h.symm).elim
      · exact (hspace c hc hbreak _ _ h).elim
      · exact h
  obtain ⟨rfl, hrest⟩ := encode_append_inj hc hd hencode
  simp only [List.append_assoc] at hrest
  exact ⟨rfl, List.append_cancel_left hrest⟩

/-- Lines are told apart up to where none of their characters can follow. -/
theorem lineText_append_inj (hindent : 0 < indent) (Stop : Bool → Bytes → Prop)
    (hstop : ∀ broken c rest r r', c < 0x200000 → Stop broken r →
      r ≠ lineText extra indent broken (c :: rest) ++ r')
    (hcodes : ∀ c ∈ codes, c < 0x200000) (hcodes' : ∀ c ∈ codes', c < 0x200000)
    (hr : Stop (endsLine broken codes) r) (hr' : Stop (endsLine broken codes') r')
    (h : lineText extra indent broken codes ++ r = lineText extra indent broken codes' ++ r') :
    codes = codes' ∧ r = r' := by
  induction codes generalizing broken codes' with
  | nil =>
    cases codes' with
    | nil => exact ⟨rfl, h⟩
    | cons d codes' => exact absurd h (hstop _ d codes' r r' (hcodes' d (by simp)) hr)
  | cons c codes ih =>
    cases codes' with
    | nil => exact absurd h.symm (hstop _ c codes r' r (hcodes c (by simp)) hr')
    | cons d codes' =>
      obtain ⟨rfl, hrest⟩ :=
        lineText_cons_inj hindent (hcodes c (by simp)) (hcodes' d (by simp)) h
      obtain ⟨rfl, rfl⟩ := ih (fun e he => hcodes e (by simp [he]))
        (fun e he => hcodes' e (by simp [he])) hr hr' hrest
      exact ⟨rfl, rfl⟩

end LineText

/-! ## Styles -/

def secondQuote (c : ℕ) : Bytes := if c = 39 then [39] else []

theorem text_writeSingleQuoted {indent : ℕ} {broken : Bool} {codes : List ℕ} {p : Page}
    (hp : broken = true → p.fresh = true) :
    (writeSingleQuoted indent broken codes p).text =
      p.text ++ lineText secondQuote indent broken codes := by
  induction codes generalizing broken p with
  | nil => simp [writeSingleQuoted, lineText]
  | cons c rest ih =>
    rw [writeSingleQuoted, lineText]
    by_cases hc : isBreakCode c
    · have hquote : secondQuote c = [] := if_neg fun heq => by
        subst heq
        cases hc
      rw [if_pos hc, ih fun _ => rfl]
      simp [hc, Page.writeBreak, hquote]
    · have hquote : (if c = 39 then [39, 39] else encode c) = encode c ++ secondQuote c := by
        by_cases hquote : c = 39
        · subst hquote
          rfl
        · simp [secondQuote, hquote]
      rw [if_neg hc, ih (by simp), hquote]
      cases broken
      · simp [hc]
      · simp [hc, Page.ended_of_fresh (hp rfl)]

theorem writeLines_eq {indent : ℕ} {broken : Bool} {codes : List ℕ} {p : Page}
    (hp : p.fresh = broken) :
    writeLines indent broken codes p =
      ⟨p.text ++ lineText (fun _ => []) indent broken codes, endsLine broken codes⟩ := by
  subst hp
  induction codes generalizing p with
  | nil => simp [writeLines, lineText, endsLine]
  | cons c rest ih =>
    rw [writeLines, lineText, endsLine]
    by_cases hc : isBreakCode c
    · have hrest := ih (p := p.writeBreak c)
      simp only [Page.writeBreak] at hrest
      simp [hc, Page.writeBreak, hrest]
    · have hrest := ih (p := (if p.fresh then p.newLine indent else p).write (encode c))
      rw [Page.fresh_write] at hrest
      rw [if_neg hc, hrest]
      cases hp : p.fresh
      · simp [hc]
      · simp [hc, Page.ended_of_fresh hp]

/-- The lines of a block with the line feeds that are written before and behind them. -/
def blockLines (codes : List ℕ) : List ℕ :=
  (if codes.head?.any isBreakCode then [] else [10]) ++ codes
    ++ if endsLine false codes then [] else [10]

def styledText (indent : ℕ) (style : WrittenStyle) (codes : List ℕ) : Bytes :=
  match style with
  | .plain => 32 :: (codes.flatMap encode ++ [10])
  | .singleQuoted => 32 :: 39 :: (lineText secondQuote indent false codes ++ [39, 10])
  | .doubleQuoted => 32 :: 34 :: (codes.flatMap doubleQuotedChar ++ [34, 10])
  | .literal =>
    32 :: 124 :: (blockHints codes ++ lineText (fun _ => []) indent true (blockLines codes))

theorem ended_writeStyled {indent : ℕ} {style : WrittenStyle} {codes : List ℕ}
    (hcodes : style = .literal → codes ≠ []) (p : Page) :
    (writeStyled indent style codes p).ended = p.text ++ styledText indent style codes := by
  cases style with
  | plain => simp [writeStyled, styledText, show utf8 " " = [32] from rfl]
  | singleQuoted =>
    rw [writeStyled, Page.ended_write, text_writeSingleQuoted (by simp)]
    simp [styledText, show utf8 " '" = [32, 39] from rfl, show utf8 "'" = [39] from rfl]
  | doubleQuoted =>
    simp [writeStyled, styledText, show utf8 " \"" = [32, 34] from rfl,
      show utf8 "\"" = [34] from rfl]
  | literal =>
    obtain ⟨c, rest, rfl⟩ := List.exists_cons_of_ne_nil (hcodes rfl)
    -- The line of the header is ended by the first character: by itself, or before it is written.
    have hheader : ∀ q : Page, q.fresh = false → writeLines indent true (c :: rest) q =
        writeLines indent true (c :: rest)
          ⟨q.text ++ if isBreakCode c then [] else [10], true⟩ := by
      intro q hq
      rw [writeLines, writeLines]
      by_cases hc : isBreakCode c <;> simp [hc, Page.writeBreak, Page.newLine, hq]
    have hlines : blockLines (c :: rest) = (if isBreakCode c then [] else [10])
        ++ ((c :: rest) ++ if endsLine (isBreakCode c) rest then [] else [10]) :=
      List.append_assoc _ _ _
    have hfeed : ∀ (broken skipped : Bool), lineText (fun _ => []) indent broken
        (if skipped then [] else [10] : List ℕ) = (if skipped then [] else [10] : Bytes) := by
      intro broken skipped
      cases broken <;> cases skipped <;> rfl
    have hends : ∀ skipped : Bool, endsLine true (if skipped then [] else [10]) = true := by
      intro skipped
      cases skipped <;> rfl
    rw [writeStyled, hheader _ rfl, writeLines_eq (by rfl), styledText, hlines, lineText_append,
      lineText_append, hfeed, hends, hfeed]
    simp only [Page.ended, Page.text_write, endsLine, show utf8 " |" = [32, 124] from rfl,
      List.append_assoc, List.cons_append, List.nil_append]
    rfl

/-! ## Escapes -/

theorem length_upperHex (width n : ℕ) : (upperHex width n).length = width := by
  induction width generalizing n with
  | zero => rfl
  | succ width ih => simp [upperHex, ih]

theorem upperHex_inj {width m n : ℕ} (hm : m < 16 ^ width) (hn : n < 16 ^ width)
    (h : upperHex width m = upperHex width n) : m = n := by
  induction width generalizing m n with
  | zero => simp_all
  | succ width ih =>
    have hdigit : ∀ a < 16, ∀ b < 16, (if a < 10 then 48 + a else 55 + a).toUInt8 =
        (if b < 10 then 48 + b else 55 + b).toUInt8 → a = b := by decide
    obtain ⟨hhigh, hlow⟩ := List.append_inj h (by simp only [length_upperHex])
    have hm' : m / 16 < 16 ^ width := by omega
    have hn' : n / 16 < 16 ^ width := by omega
    have hquotient := ih hm' hn' hhigh
    have hremainder := hdigit (m % 16) (by omega) (n % 16) (by omega) (List.cons.inj hlow).1
    omega

theorem upperHex_append_inj {width m n : ℕ} (hm : m < 16 ^ width) (hn : n < 16 ^ width)
    {r r' : Bytes} (h : upperHex width m ++ r = upperHex width n ++ r') : m = n ∧ r = r' := by
  obtain ⟨hdigits, hrest⟩ := List.append_inj h (by simp only [length_upperHex])
  exact ⟨upperHex_inj hm hn hdigits, hrest⟩

def escapeWord (c : ℕ) : Bytes :=
  match escapeLetter? c with
  | some letter => utf8 letter
  | none =>
    if c ≤ 0xFF then 120 :: upperHex 2 c
    else if c ≤ 0xFFFF then 117 :: upperHex 4 c
    else 85 :: upperHex 8 c

theorem doubleQuotedChar_eq (c : ℕ) :
    doubleQuotedChar c = 92 :: escapeWord c ∨
      doubleQuotedChar c = encode c ∧ c ≠ 34 ∧ c ≠ 92 := by
  by_cases hplain : (isPlainCode c && !isBreakCode c && c != 0x22 && c != 0x5C) = true
  · rw [doubleQuotedChar, if_pos hplain]
    simp only [Bool.and_eq_true, bne_iff_ne] at hplain
    exact .inr ⟨rfl, hplain.1.2, hplain.2⟩
  · left
    rw [doubleQuotedChar, if_neg hplain, escapeWord]
    cases escapeLetter? c with
    | some letter => rfl
    | none =>
      simp only
      split_ifs <;> rfl

def letterCodes : List ℕ := [0, 7, 8, 9, 10, 11, 12, 13, 0x1B, 0x22, 0x5C, 0x85, 0x2028, 0x2029]

def letterCode? (b : UInt8) : Option ℕ := letterCodes.find? fun c => escapeWord c == [b]

def digitCount (b : UInt8) : ℕ :=
  if b = 120 then 2 else if b = 117 then 4 else if b = 85 then 8 else 0

theorem escapeWord_eq {c : ℕ} (hc : c < 0x200000) :
    ∃ b, escapeWord c = b :: upperHex (digitCount b) c ∧
      (letterCode? b = some c ∨ letterCode? b = none ∧ c < 16 ^ digitCount b) := by
  by_cases hmem : c ∈ letterCodes
  · have hword : ∀ c ∈ letterCodes, escapeWord c =
        (escapeWord c).headD 0 :: upperHex (digitCount ((escapeWord c).headD 0)) c ∧
        letterCode? ((escapeWord c).headD 0) = some c := by decide +kernel
    obtain ⟨heq, hletter⟩ := hword c hmem
    exact ⟨_, heq, .inl hletter⟩
  · have hletter : escapeLetter? c = none := by
      rw [escapeLetter?.eq_def]
      split <;> first | rfl | exact absurd (by decide) hmem
    rw [escapeWord, hletter]
    simp only
    split_ifs with htwo hfour
    · exact ⟨120, rfl, .inr ⟨by decide, Nat.lt_succ_of_le htwo⟩⟩
    · exact ⟨117, rfl, .inr ⟨by decide, Nat.lt_succ_of_le hfour⟩⟩
    · exact ⟨85, rfl, .inr ⟨by decide, Nat.lt_trans hc (by decide)⟩⟩

theorem escapeWord_append_inj {c d : ℕ} (hc : c < 0x200000) (hd : d < 0x200000) {r r' : Bytes}
    (h : escapeWord c ++ r = escapeWord d ++ r') : c = d ∧ r = r' := by
  obtain ⟨b, hword, hcode⟩ := escapeWord_eq hc
  obtain ⟨b', hword', hcode'⟩ := escapeWord_eq hd
  rw [hword, hword'] at h
  obtain ⟨rfl, hrest⟩ := List.cons.inj h
  rcases hcode with hletter | ⟨hletter, hlt⟩ <;> rcases hcode' with hletter' | ⟨hletter', hlt'⟩
  · obtain rfl : c = d := Option.some.inj (hletter.symm.trans hletter')
    exact ⟨rfl, List.append_cancel_left hrest⟩
  · cases hletter.symm.trans hletter'
  · cases hletter.symm.trans hletter'
  · exact upperHex_append_inj hlt hlt' hrest

theorem doubleQuotedChar_append_inj {c d : ℕ} (hc : c < 0x200000) (hd : d < 0x200000)
    {r r' : Bytes} (h : doubleQuotedChar c ++ r = doubleQuotedChar d ++ r') : c = d ∧ r = r' := by
  rcases doubleQuotedChar_eq c with hword | ⟨hword, -, hne⟩ <;>
    rcases doubleQuotedChar_eq d with hword' | ⟨hword', -, hne'⟩ <;> rw [hword, hword'] at h
  · exact escapeWord_append_inj hc hd (List.cons.inj h).2
  · exact absurd (eq_of_encode_append_eq_cons hd (by decide) h.symm).1 hne'
  · exact absurd (eq_of_encode_append_eq_cons hc (by decide) h).1 hne
  · exact encode_append_inj hc hd h

theorem doubleQuotedChar_append_ne {c : ℕ} (hc : c < 0x200000) (r r' : Bytes) :
    34 :: r ≠ doubleQuotedChar c ++ r' := by
  intro h
  rcases doubleQuotedChar_eq c with hword | ⟨hword, hne, -⟩ <;> rw [hword] at h
  · cases h
  · exact hne (eq_of_encode_append_eq_cons hc (by decide) h.symm).1

/-! ## Telling texts apart -/

theorem mem_of_styleOf_eq_literal {readable : Bool} {codes : List ℕ}
    (h : styleOf readable codes = .literal) : 10 ∈ codes := by
  by_contra hmem
  simp only [styleOf, List.contains_eq_mem, hmem, decide_false, Bool.false_eq_true, if_false] at h
  split_ifs at h

theorem plain_of_styleOf {readable : Bool} {codes : List ℕ}
    (h : styleOf readable codes = .plain) :
    10 ∉ codes ∧ ∀ c ∈ codes.head?, c ∉ leadingIndicators := by
  simp only [styleOf] at h
  split_ifs at h with hfeed hspecial hescaped hindicators
  simp only [Bool.or_eq_true, not_or, hasIndicators, Option.any_eq_true] at hindicators
  refine ⟨by simpa using hfeed, fun c hc hmem => ?_⟩
  exact hindicators.2.1.1.1.2 ⟨c, hc, by simpa using hmem⟩

def styleAt (b : UInt8) : WrittenStyle :=
  if b = 39 then .singleQuoted else if b = 34 then .doubleQuoted
  else if b = 124 then .literal else .plain

theorem encode_ne_nil (c : ℕ) : encode c ≠ [] := by
  unfold encode
  split_ifs <;> simp

theorem styledText_eq_cons (indent : ℕ) (readable : Bool) {codes : List ℕ}
    (hcodes : ∀ c ∈ codes, c < 0x200000) :
    ∃ b rest, styledText indent (styleOf readable codes) codes = 32 :: b :: rest ∧ b ≠ 33 ∧
      styleOf readable codes = styleAt b := by
  cases hstyle : styleOf readable codes with
  | singleQuoted => exact ⟨39, _, rfl, by decide, rfl⟩
  | doubleQuoted => exact ⟨34, _, rfl, by decide, rfl⟩
  | literal => exact ⟨124, _, rfl, by decide, rfl⟩
  | plain =>
    obtain ⟨-, hhead⟩ := plain_of_styleOf hstyle
    cases codes with
    | nil => exact ⟨10, [], rfl, by decide, rfl⟩
    | cons c rest =>
      obtain ⟨b, word, hword⟩ := List.exists_cons_of_ne_nil (encode_ne_nil c)
      have hindicator : ∀ b ∈ ([33, 34, 39, 124] : List UInt8),
          b.toNat < 128 ∧ b.toNat ∈ leadingIndicators := by decide +kernel
      have hb : b ∉ [33, 34, 39, 124] := by
        intro hb
        obtain ⟨hlt, hmem⟩ := hindicator b hb
        rw [← List.append_nil (encode c)] at hword
        obtain ⟨rfl, -⟩ := eq_of_encode_append_eq_cons (hcodes c (by simp)) hlt hword
        exact hhead _ rfl hmem
      simp only [List.mem_cons, List.not_mem_nil, or_false, not_or] at hb
      refine ⟨b, word ++ rest.flatMap encode ++ [10], ?_, hb.1, ?_⟩
      · simp [styledText, hword]
      · simp [styleAt, hb.2]

/-- What comes after a text: something that is indented less than the lines of a block, and no line
break. -/
def Follows (indent : ℕ) (r : Bytes) : Prop :=
  ∃ k < indent, ∃ b rest, r = List.replicate k 32 ++ b :: rest ∧ 32 < b.toNat ∧ b.toNat < 127

theorem Follows.mono {indent indent' : ℕ} (hle : indent ≤ indent') {r : Bytes}
    (h : Follows indent r) : Follows indent' r := by
  obtain ⟨k, hk, hrest⟩ := h
  exact ⟨k, Nat.lt_of_lt_of_le hk hle, hrest⟩

theorem Follows.not_lineText {indent : ℕ} {r : Bytes} (h : Follows indent r) {c : ℕ}
    (hc : c < 0x200000) (extra : ℕ → Bytes) (rest : List ℕ) (r' : Bytes) :
    r ≠ lineText extra indent true (c :: rest) ++ r' := by
  obtain ⟨k, hk, b, more, rfl, hlow, hhigh⟩ := h
  intro heq
  rw [lineText, List.append_assoc] at heq
  by_cases hbreak : isBreakCode c
  · simp only [hbreak, Bool.not_true, Bool.and_false, Bool.false_eq_true, if_false, List.nil_append,
      List.append_assoc] at heq
    -- Neither a space nor a visible character is a line break.
    have hvisible : ∀ n, isBreakCode n = true → 32 ≤ n → 127 ≤ n := by
      intro n hn hle
      simp only [isBreakCode, Bool.or_eq_true, beq_iff_eq] at hn
      omega
    cases k with
    | zero =>
      obtain ⟨rfl, -⟩ := eq_of_encode_append_eq_cons hc (by omega) heq.symm
      have := hvisible _ hbreak (Nat.le_of_lt hlow)
      omega
    | succ k =>
      obtain ⟨rfl, -⟩ := eq_of_encode_append_eq_cons (b := 32) hc (by decide) heq.symm
      cases hbreak
  · simp only [hbreak, Bool.not_false, Bool.and_true, if_true] at heq
    obtain ⟨d, rfl⟩ := Nat.exists_eq_add_of_lt hk
    rw [Nat.add_assoc, List.replicate_add, List.append_assoc] at heq
    have hb := (List.cons.inj (List.append_cancel_left heq)).1
    rw [hb] at hlow
    exact absurd hlow (by decide)

/-! ### Blocks -/

def isHidden (codes : List ℕ) : Bool := codes.head?.any fun c => c == 32 || isBreakCode c

theorem blockHints_eq (codes : List ℕ) : ∃ ending,
    blockHints codes = (if isHidden codes then [50] else []) ++ ending ∧
      (endsLine false codes = true ∧ (ending = [] ∨ ending = [43]) ∨
        endsLine false codes = false ∧ ending = [45]) := by
  refine ⟨_, rfl, ?_⟩
  rcases codes.eq_nil_or_concat' with rfl | ⟨before, c, rfl⟩
  · exact .inr ⟨rfl, rfl⟩
  rw [endsLine_append, endsLine, endsLine, List.reverse_append, List.reverse_singleton]
  cases hc : isBreakCode c
  · cases before.reverse <;> exact .inr ⟨rfl, by simp [hc]; rfl⟩
  · refine .inl ⟨rfl, ?_⟩
    cases before.reverse with
    | nil => exact .inr (by simp [hc]; rfl)
    | cons d rest =>
      cases hd : isBreakCode d
      · exact .inl (by simp [hc, hd]; rfl)
      · exact .inr (by simp [hc, hd]; rfl)

theorem blockHints_append_inj {codes codes' : List ℕ} {b b' : UInt8} {r r' : Bytes}
    (hb : b ∉ [50, 43, 45]) (hb' : b' ∉ [50, 43, 45])
    (h : blockHints codes ++ b :: r = blockHints codes' ++ b' :: r') :
    isHidden codes = isHidden codes' ∧ endsLine false codes = endsLine false codes' ∧
      b :: r = b' :: r' := by
  obtain ⟨ending, heq, hending⟩ := blockHints_eq codes
  obtain ⟨ending', heq', hending'⟩ := blockHints_eq codes'
  rw [heq, heq'] at h
  simp only [List.mem_cons, List.not_mem_nil, or_false, not_or] at hb hb'
  generalize isHidden codes = hidden at h ⊢
  generalize isHidden codes' = hidden' at h ⊢
  -- No hint begins with what another one ends in, or with what comes after it.
  cases hidden <;> cases hidden' <;>
    rcases hending with ⟨hends, rfl | rfl⟩ | ⟨hends, rfl⟩ <;>
    rcases hending' with ⟨hends', rfl | rfl⟩ | ⟨hends', rfl⟩ <;>
    rw [hends, hends'] <;> simp_all

section BlockLines

variable {codes codes' : List ℕ}

theorem mem_blockLines {c : ℕ} (h : c ∈ blockLines codes) : c = 10 ∨ c ∈ codes := by
  rw [blockLines] at h
  split_ifs at h <;> simp at h <;> tauto

theorem blockLines_eq_cons (hne : codes ≠ []) :
    ∃ c rest, blockLines codes = c :: rest ∧ isBreakCode c = true := by
  obtain ⟨c, rest, rfl⟩ := List.exists_cons_of_ne_nil hne
  cases hc : isBreakCode c
  · exact ⟨10, _, by simp [blockLines, hc]; rfl, rfl⟩
  · exact ⟨c, _, by simp [blockLines, hc]; rfl, hc⟩

theorem blockLines_lt (hcodes : ∀ c ∈ codes, c < 0x200000) :
    ∀ c ∈ blockLines codes, c < 0x200000 := by
  intro c hc
  rcases mem_blockLines hc with rfl | hmem
  · decide
  · exact hcodes c hmem

theorem lineText_blockLines_eq_cons (indent : ℕ) (hcodes : ∀ c ∈ codes, c < 0x200000)
    (hne : codes ≠ []) :
    ∃ b rest, lineText (fun _ => []) indent true (blockLines codes) = b :: rest ∧
      b ∉ [50, 43, 45] := by
  obtain ⟨c, rest, hlines, hbreak⟩ := blockLines_eq_cons hne
  have hc : c < 0x200000 := blockLines_lt hcodes c (by simp [hlines])
  obtain ⟨b, word, hword⟩ := List.exists_cons_of_ne_nil (encode_ne_nil c)
  refine ⟨b, _, by simp [hlines, lineText, hbreak, hword]; rfl, fun hb => ?_⟩
  have hlt : ∀ b ∈ ([50, 43, 45] : List UInt8), b.toNat < 128 ∧ ¬ isBreakCode b.toNat := by
    decide +kernel
  obtain ⟨hsmall, hplain⟩ := hlt b hb
  rw [← List.append_nil (encode c)] at hword
  obtain ⟨rfl, -⟩ := eq_of_encode_append_eq_cons hc hsmall hword
  exact hplain hbreak

theorem endsLine_blockLines (hne : codes ≠ []) : endsLine true (blockLines codes) = true := by
  obtain ⟨c, rest, rfl⟩ := List.exists_cons_of_ne_nil hne
  rw [blockLines, endsLine_append, endsLine_append, endsLine, endsLine]
  cases hends : endsLine (isBreakCode c) rest <;> rfl

theorem blockLines_inj (hne : codes ≠ []) (hne' : codes' ≠ [])
    (hlegible : ¬ [10, 32] <+: codes) (hlegible' : ¬ [10, 32] <+: codes')
    (hhidden : isHidden codes = isHidden codes')
    (hends : endsLine false codes = endsLine false codes')
    (h : blockLines codes = blockLines codes') : codes = codes' := by
  obtain ⟨c, rest, rfl⟩ := List.exists_cons_of_ne_nil hne
  obtain ⟨d, rest', rfl⟩ := List.exists_cons_of_ne_nil hne'
  rw [blockLines, blockLines, hends] at h
  replace h := List.append_cancel_right h
  -- A line feed that only one of the texts has at its beginning stands before a space in it.
  cases hc : isBreakCode c <;> cases hd : isBreakCode d <;> simp [hc, hd] at h
  · exact congrArg₂ List.cons h.1 h.2
  · obtain ⟨rfl, rfl⟩ := h
    obtain rfl : c = 32 := by simpa [isHidden, hc, hd] using hhidden
    exact absurd ⟨rest, rfl⟩ hlegible'
  · obtain ⟨rfl, rfl⟩ := h
    obtain rfl : d = 32 := by simpa [isHidden, hc, hd] using hhidden
    exact absurd ⟨rest', rfl⟩ hlegible
  · exact congrArg₂ List.cons h.1 h.2

end BlockLines

section StyledText

variable {indent : ℕ} {readable readable' : Bool} {codes codes' : List ℕ} {r r' : Bytes}

theorem plain_append_inj (hcodes : ∀ c ∈ codes, c < 0x200000)
    (hcodes' : ∀ c ∈ codes', c < 0x200000) (hfeed : 10 ∉ codes) (hfeed' : 10 ∉ codes')
    (h : codes.flatMap encode ++ 10 :: r = codes'.flatMap encode ++ 10 :: r') :
    codes = codes' ∧ r = r' := by
  have hword : ∀ a b s t, (a < 0x200000 ∧ a ≠ 10) → (b < 0x200000 ∧ b ≠ 10) → True → True →
      encode a ++ s = encode b ++ t → a = b ∧ s = t := by
    intro a b s t ha hb _ _ heq
    exact encode_append_inj ha.1 hb.1 heq
  have hstop : ∀ s : Bytes, True ∧ ∀ a t, (a < 0x200000 ∧ a ≠ 10) → 10 :: s ≠ encode a ++ t := by
    refine fun s => ⟨trivial, fun a t ha heq => ?_⟩
    exact ha.2 (eq_of_encode_append_eq_cons ha.1 (by decide) heq.symm).1
  have hwords : ∀ codes : List ℕ, (∀ c ∈ codes, c < 0x200000) → 10 ∉ codes →
      ∀ c ∈ codes, c < 0x200000 ∧ c ≠ 10 := by
    intro codes hcodes hfeed c hc
    exact ⟨hcodes c hc, fun heq => hfeed (heq ▸ hc)⟩
  obtain ⟨rfl, hrest⟩ := flatMap_append_inj (fun c => c < 0x200000 ∧ c ≠ 10) (fun _ => True) hword
    (fun _ _ _ _ => trivial) (hstop r) (hstop r') (hwords codes hcodes hfeed)
    (hwords codes' hcodes' hfeed') h
  exact ⟨rfl, (List.cons.inj hrest).2⟩

theorem doubleQuoted_append_inj (hcodes : ∀ c ∈ codes, c < 0x200000)
    (hcodes' : ∀ c ∈ codes', c < 0x200000)
    (h : codes.flatMap doubleQuotedChar ++ 34 :: 10 :: r =
      codes'.flatMap doubleQuotedChar ++ 34 :: 10 :: r') : codes = codes' ∧ r = r' := by
  have hword : ∀ a b s t, a < 0x200000 → b < 0x200000 → True → True →
      doubleQuotedChar a ++ s = doubleQuotedChar b ++ t → a = b ∧ s = t := by
    intro a b s t ha hb _ _ heq
    exact doubleQuotedChar_append_inj ha hb heq
  have hstop : ∀ s : Bytes, True ∧ ∀ a t, a < 0x200000 → 34 :: s ≠ doubleQuotedChar a ++ t :=
    fun s => ⟨trivial, fun a t ha => doubleQuotedChar_append_ne ha s t⟩
  obtain ⟨rfl, hrest⟩ := flatMap_append_inj (· < 0x200000) (fun _ => True) hword
    (fun _ _ _ _ => trivial) (hstop (10 :: r)) (hstop (10 :: r')) hcodes hcodes' h
  exact ⟨rfl, (List.cons.inj (List.cons.inj hrest).2).2⟩

theorem singleQuoted_append_inj (hindent : 0 < indent) (hcodes : ∀ c ∈ codes, c < 0x200000)
    (hcodes' : ∀ c ∈ codes', c < 0x200000)
    (h : lineText secondQuote indent false codes ++ 39 :: 10 :: r =
      lineText secondQuote indent false codes' ++ 39 :: 10 :: r') : codes = codes' ∧ r = r' := by
  -- A quote that closes the text has no second one behind it.
  have hstop : ∀ broken c rest (s t : Bytes), c < 0x200000 → (∃ more, s = 39 :: 10 :: more) →
      s ≠ lineText secondQuote indent broken (c :: rest) ++ t := by
    intro broken c rest s t hc hs heq
    obtain ⟨more, rfl⟩ := hs
    obtain ⟨indent, rfl⟩ := Nat.exists_eq_add_one.mpr hindent
    rw [lineText] at heq
    split_ifs at heq
    · cases heq
    · simp only [List.nil_append, List.append_assoc] at heq
      obtain ⟨rfl, hrest⟩ := eq_of_encode_append_eq_cons hc (by decide) heq.symm
      cases hrest
  obtain ⟨rfl, hrest⟩ := lineText_append_inj hindent (fun _ s => ∃ more, s = 39 :: 10 :: more)
    hstop hcodes hcodes' ⟨r, rfl⟩ ⟨r', rfl⟩ h
  exact ⟨rfl, (List.cons.inj (List.cons.inj hrest).2).2⟩

theorem literal_append_inj (hindent : 0 < indent) (hcodes : ∀ c ∈ codes, c < 0x200000)
    (hcodes' : ∀ c ∈ codes', c < 0x200000) (hne : codes ≠ []) (hne' : codes' ≠ [])
    (hlegible : ¬ [10, 32] <+: codes) (hlegible' : ¬ [10, 32] <+: codes')
    (hr : Follows indent r) (hr' : Follows indent r')
    (h : blockHints codes ++ (lineText (fun _ => []) indent true (blockLines codes) ++ r) =
      blockHints codes' ++ (lineText (fun _ => []) indent true (blockLines codes') ++ r')) :
    codes = codes' ∧ r = r' := by
  obtain ⟨b, rest, hrest, hb⟩ := lineText_blockLines_eq_cons indent hcodes hne
  obtain ⟨b', rest', hrest', hb'⟩ := lineText_blockLines_eq_cons indent hcodes' hne'
  rw [hrest, hrest', List.cons_append, List.cons_append] at h
  obtain ⟨hhidden, hends, h⟩ := blockHints_append_inj hb hb' h
  rw [← List.cons_append, ← List.cons_append, ← hrest, ← hrest'] at h
  have hstop : ∀ broken c rest r s, c < 0x200000 → broken = true ∧ Follows indent r →
      r ≠ lineText (fun _ => []) indent broken (c :: rest) ++ s := by
    intro broken c rest r s hc hr
    obtain ⟨rfl, hr⟩ := hr
    exact hr.not_lineText hc _ rest s
  obtain ⟨hlines, rfl⟩ := lineText_append_inj hindent
    (fun broken r => broken = true ∧ Follows indent r) hstop (blockLines_lt hcodes)
    (blockLines_lt hcodes') ⟨endsLine_blockLines hne, hr⟩ ⟨endsLine_blockLines hne', hr'⟩ h
  exact ⟨blockLines_inj hne hne' hlegible hlegible' hhidden hends hlines, rfl⟩

/-- A styled text is told apart from what follows it. -/
theorem styledText_append_inj (hindent : 0 < indent) (hcodes : ∀ c ∈ codes, c < 0x200000)
    (hcodes' : ∀ c ∈ codes', c < 0x200000)
    (hlegible : ¬ [10, 32] <+: codes) (hlegible' : ¬ [10, 32] <+: codes')
    (hr : Follows indent r) (hr' : Follows indent r')
    (h : styledText indent (styleOf readable codes) codes ++ r =
      styledText indent (styleOf readable' codes') codes' ++ r') : codes = codes' ∧ r = r' := by
  have hstyle : styleOf readable codes = styleOf readable' codes' := by
    obtain ⟨b, rest, hrest, -, hstyle⟩ := styledText_eq_cons indent readable hcodes
    obtain ⟨b', rest', hrest', -, hstyle'⟩ := styledText_eq_cons indent readable' hcodes'
    rw [hrest, hrest'] at h
    obtain rfl : b = b' := (List.cons.inj (List.cons.inj h).2).1
    rw [hstyle, hstyle']
  rw [← hstyle] at h
  generalize hcase : styleOf readable codes = style at h hstyle
  cases style with
  | plain =>
    simp only [styledText, List.cons_append, List.cons.injEq, true_and, List.append_assoc,
      List.nil_append] at h
    exact plain_append_inj hcodes hcodes' (plain_of_styleOf hcase).1
      (plain_of_styleOf hstyle.symm).1 h
  | singleQuoted =>
    simp only [styledText, List.cons_append, List.cons.injEq, true_and, List.append_assoc,
      List.nil_append] at h
    exact singleQuoted_append_inj hindent hcodes hcodes' h
  | doubleQuoted =>
    simp only [styledText, List.cons_append, List.cons.injEq, true_and, List.append_assoc,
      List.nil_append] at h
    exact doubleQuoted_append_inj hcodes hcodes' h
  | literal =>
    have hmem := mem_of_styleOf_eq_literal hcase
    have hmem' := mem_of_styleOf_eq_literal hstyle.symm
    simp only [styledText, List.cons_append, List.cons.injEq, true_and, List.append_assoc] at h
    exact literal_append_inj hindent hcodes hcodes' (List.ne_nil_of_mem hmem)
      (List.ne_nil_of_mem hmem') hlegible hlegible' hr hr' h

end StyledText

end OrderLint.Yaml
