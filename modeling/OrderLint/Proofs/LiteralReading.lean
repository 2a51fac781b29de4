import Mathlib
import OrderLint.JavaScript.Literal

/-!
# Reading a string literal

A reader stands at a place of a text: what is ahead of it is the text from its offset on. Between
the quotes of a string literal it takes plain runs and escapes, each of them not empty and starting
where the one before it ended. So the pieces that it has taken make up the text from the opening
quote to where it stands, and in the end the whole text between the quotes.
-/
namespace OrderLint

theorem Bytes.slice_append (s : Bytes) {a b c : ℕ} (hab : a ≤ b) (hbc : b ≤ c) :
    s.slice a b ++ s.slice b c = s.slice a c := by
  have hdrop : s.drop b = (s.drop a).drop (b - a) := by
    rw [List.drop_drop]
    congr 1
    omega
  have hwidth : c - a = (b - a) + (c - b) := by omega
  rw [slice, slice, slice, hdrop, hwidth, List.take_add]

namespace JavaScript

/-! ## Places -/

namespace Place

structure In (src : Bytes) (p : Place) : Prop where
  rest_eq : p.rest = src.drop p.offset
  offset_le : p.offset ≤ src.length

theorem rest_step (p : Place) : p.step.rest = p.rest.drop 1 := by
  rw [step]
  split
  case h_1 hrest => simp [hrest]
  case h_2 hrest => split_ifs <;> simp [hrest]

theorem offset_step (p : Place) : p.step.offset = p.offset + min 1 p.rest.length := by
  rw [step]
  split
  case h_1 hrest => simp [hrest]
  case h_2 hrest => split_ifs <;> simp [hrest]

theorem rest_skip (p : Place) (n : ℕ) : (p.skip n).rest = p.rest.drop n := by
  induction n generalizing p with
  | zero => rfl
  | succ n ih => rw [skip, ih, rest_step, List.drop_drop, Nat.add_comm]

theorem offset_skip (p : Place) (n : ℕ) : (p.skip n).offset = p.offset + min n p.rest.length := by
  induction n generalizing p with
  | zero => simp [skip]
  | succ n ih =>
    rw [skip, ih, offset_step, rest_step, List.length_drop]
    omega

theorem offset_le_skip (p : Place) (n : ℕ) : p.offset ≤ (p.skip n).offset := by
  rw [offset_skip]
  omega

theorem skip_skip (p : Place) (m n : ℕ) : (p.skip m).skip n = p.skip (m + n) := by
  induction m generalizing p with
  | zero => rw [skip, Nat.zero_add]
  | succ m ih => rw [skip, ih, Nat.succ_add, skip]

theorem In.skip {src : Bytes} {p : Place} (h : p.In src) (n : ℕ) : (p.skip n).In src := by
  obtain ⟨hrest, hoffset⟩ := h
  have hlength : p.rest.length = src.length - p.offset := by rw [hrest, List.length_drop]
  refine ⟨?_, ?_⟩
  · rw [rest_skip, offset_skip, hrest, List.drop_drop, ← hrest]
    rcases le_total n p.rest.length with hn | hn
    · rw [min_eq_left hn]
    · rw [min_eq_right hn, List.drop_eq_nil_of_le (by omega), List.drop_eq_nil_of_le (by omega)]
  · rw [offset_skip]
    omega

theorem In.slice_skip {src : Bytes} {p : Place} (h : p.In src) (n : ℕ) :
    src.slice p.offset (p.skip n).offset = p.rest.take n := by
  rw [offset_skip, Bytes.slice, ← h.rest_eq, Nat.add_sub_cancel_left, List.take_eq_take_min,
    List.take_eq_take_min (i := n)]
  congr 1
  omega

theorem In.slice_skip_one {src : Bytes} {p : Place} (h : p.In src) {b : UInt8}
    (hb : p.rest.head? = some b) : src.slice p.offset (p.skip 1).offset = [b] := by
  rw [h.slice_skip, List.take_one, hb, Option.toList_some]

theorem content_leaf (src : Bytes) (kind : String) (named : Bool) (p q : Place) :
    (leaf kind named p q).content src = src.slice p.offset q.offset := rfl

theorem exists_skipWhile (keep : ℕ → Bool) (limit : ℕ) (p : Place) :
    ∃ n, skipWhile keep limit p = p.skip n := by
  induction limit generalizing p with
  | zero => exact ⟨0, rfl⟩
  | succ limit ih =>
    rw [skipWhile]
    split
    case h_1 code width _ =>
      split_ifs
      · obtain ⟨n, hn⟩ := ih (p.skip width)
        exact ⟨width + n, by rw [hn, skip_skip]⟩
      · exact ⟨0, rfl⟩
    case h_2 => exact ⟨0, rfl⟩

theorem exists_afterBlockComment {limit : ℕ} {p q : Place}
    (h : afterBlockComment? limit p = some q) : ∃ n, q = p.skip n := by
  induction limit generalizing p with
  | zero => cases h
  | succ limit ih =>
    rw [afterBlockComment?] at h
    split at h
    · cases h
    · cases h
    · exact ⟨2, (Option.some.inj h).symm⟩
    · obtain ⟨n, rfl⟩ := ih h
      exact ⟨n + 1, rfl⟩

theorem exists_afterComment {p q : Place} (h : afterComment? p = some q) : ∃ n, q = p.skip n := by
  rw [afterComment?] at h
  split_ifs at h
  · obtain ⟨n, hn⟩ := exists_skipWhile (fun c => !endsLineComment c) _ (p.skip 2)
    exact ⟨2 + n, by rw [← Option.some.inj h, dropWhile, hn, skip_skip]⟩
  · obtain ⟨n, rfl⟩ := exists_afterBlockComment h
    exact ⟨2 + n, skip_skip p 2 n⟩

theorem exists_afterMarkupComment {p q : Place} (h : afterMarkupComment? p = some q) :
    ∃ n, q = p.skip n := by
  rw [afterMarkupComment?] at h
  split_ifs at h
  obtain ⟨n, hn⟩ := exists_skipWhile (fun c => !isLineBreak c) _ p
  exact ⟨n, (Option.some.inj h).symm.trans hn⟩

theorem skipTrivia_spec (markup : Bool) (limit : ℕ) (p : Place) :
    (∃ n, (skipTrivia markup limit p).2 = p.skip n) ∧
      ∀ tree ∈ (skipTrivia markup limit p).1, isComment tree = true := by
  induction limit generalizing p with
  | zero => exact ⟨⟨0, rfl⟩, by simp [skipTrivia]⟩
  | succ limit ih =>
    obtain ⟨m, hm⟩ := exists_skipWhile isBlank p.rest.length p
    rw [skipTrivia, dropWhile, hm]
    split
    case h_1 q hq =>
      obtain ⟨k, rfl⟩ := exists_afterComment hq
      obtain ⟨⟨n, hn⟩, hcomments⟩ := ih ((p.skip m).skip k)
      exact ⟨⟨m + (k + n), by rw [hn, skip_skip, skip_skip]⟩,
        List.forall_mem_cons.mpr ⟨rfl, hcomments⟩⟩
    case h_2 =>
      split
      case h_1 q hq =>
        split_ifs at hq
        obtain ⟨k, rfl⟩ := exists_afterMarkupComment hq
        obtain ⟨⟨n, hn⟩, hcomments⟩ := ih ((p.skip m).skip k)
        exact ⟨⟨m + (k + n), by rw [hn, skip_skip, skip_skip]⟩, hcomments⟩
      case h_2 => exact ⟨⟨m, rfl⟩, by simp⟩

theorem head?_of_token {p : Place} {quote : UInt8} (h : p.token = .quote quote) :
    p.rest.head? = some quote ∧ (quote = 34 ∨ quote = 39) := by
  rw [token] at h
  split at h
  · cases h
  case h_2 b rest hrest =>
    split at h
    · cases h
    · by_cases hquote : (b == 34 || b == 39) = true
      · rw [if_pos hquote] at h
        cases h
        exact ⟨by rw [hrest]; rfl, by simpa using hquote⟩
      · rw [if_neg hquote] at h
        split at h
        · cases h
        · split at h
          · cases h
          · split at h
            · split_ifs at h
            · cases h

end Place

/-! ## Readers -/

namespace Parse

variable {α β : Type}

theorem bind_eq_ok {x : Parse α} {f : α → Parse β} {r s : Reader} {b : β}
    (h : (x >>= f) r = .ok (b, s)) : ∃ a t, x r = .ok (a, t) ∧ f a t = .ok (b, s) := by
  change (x r >>= fun next => f next.1 next.2) = .ok (b, s) at h
  cases hx : x r with
  | error e =>
    rw [hx] at h
    cases h
  | ok next =>
    rw [hx] at h
    exact ⟨next.1, next.2, rfl, h⟩

theorem get_bind_eq_ok {f : Reader → Parse β} {r s : Reader} {b : β}
    (h : (get >>= f) r = .ok (b, s)) : f r r = .ok (b, s) := h

theorem take_eq (kind : String) (named : Bool) (width : ℕ) (r : Reader) :
    take kind named width r =
      .ok (r.pending ++ [Place.leaf kind named r.place (r.place.skip width)],
        { r with
          place := r.place.skip width
          after := r.place.skip width
          pending := []
          last := some ⟨r.place.offset, width⟩ }) := rfl

theorem unexpected_ne_ok (r s : Reader) (a : α) : (unexpected : Parse α) r ≠ .ok (a, s) := by
  intro h
  obtain ⟨_, t, hsettle, h⟩ := bind_eq_ok h
  replace h := get_bind_eq_ok h
  generalize t.place.token = token at h
  cases token <;> cases h

theorem peekStart_spec {src : Bytes} {r s : Reader} {token : Token} (hplace : r.place.In src)
    (hpending : ∀ tree ∈ r.pending, isComment tree = true)
    (h : peekStart r = .ok (token, s)) :
    s.place.In src ∧ (∀ tree ∈ s.pending, isComment tree = true) ∧ s.place.token = token := by
  obtain ⟨⟨n, hn⟩, hcomments⟩ := Place.skipTrivia_spec true (r.place.rest.length + 1) r.place
  cases h
  refine ⟨?_, List.forall_mem_append.mpr ⟨hpending, hcomments⟩, rfl⟩
  change (skipTrivia true (r.place.rest.length + 1) r.place).2.In src
  rw [hn]
  exact hplace.skip n

/-- A step that keeps what holds of the forest so far and of the reader keeps it when repeated. -/
theorem repeatUpTo_keeps {step : Parse (Option Forest)} {Inv : Forest → Reader → Prop}
    (hstep : ∀ done r out s, Inv done r → step r = .ok (out, s) → Inv (done ++ out.getD []) s)
    {limit : ℕ} {done : List Forest} {r s : Reader} {forest : Forest}
    (hinv : Inv done.reverse.flatten r) (h : repeatUpTo step limit done r = .ok (forest, s)) :
    Inv forest s := by
  induction limit generalizing done r with
  | zero =>
    cases h
    exact hinv
  | succ limit ih =>
    obtain ⟨out, t, hout, h⟩ := bind_eq_ok h
    have hnext := hstep _ _ _ _ hinv hout
    cases out with
    | none =>
      cases h
      simpa using hnext
    | some taken =>
      refine ih ?_ h
      simpa using hnext

end Parse

/-! ## String literals -/

/-- A string literal with the text `inside` between its quotes: plain runs and escapes, none of them
empty, one right after the other. -/
structure Tree.IsLiteral (src inside : Bytes) (tree : Tree) : Prop where
  kind : tree.kind = "string"
  pieces : ∀ piece ∈ tree.namedChildren,
    piece.kind = "string_fragment" ∨ piece.kind = "escape_sequence"
  nonempty : ∀ piece ∈ tree.namedChildren, piece.content src ≠ []
  inside_eq : inside = tree.namedChildren.flatMap (Tree.content src)
  quoted : ∃ quote : UInt8, (quote = 34 ∨ quote = 39) ∧
    tree.content src = quote :: inside ++ [quote]

instance (src inside : Bytes) (tree : Tree) : Decidable (tree.IsLiteral src inside) :=
  decidable_of_iff (tree.kind = "string" ∧
      (∀ piece ∈ tree.namedChildren,
        piece.kind = "string_fragment" ∨ piece.kind = "escape_sequence") ∧
      (∀ piece ∈ tree.namedChildren, piece.content src ≠ []) ∧
      inside = tree.namedChildren.flatMap (Tree.content src) ∧
      ∃ quote ∈ [(34 : UInt8), 39], tree.content src = quote :: inside ++ [quote])
    ⟨fun ⟨hkind, hpieces, hnonempty, hinside, quote, hquote, hquoted⟩ =>
      ⟨hkind, hpieces, hnonempty, hinside, quote, by simpa using hquote, hquoted⟩,
    fun ⟨hkind, hpieces, hnonempty, hinside, quote, hquote, hquoted⟩ =>
      ⟨hkind, hpieces, hnonempty, hinside, quote, by simpa using hquote, hquoted⟩⟩

/-- The pieces of a literal that have been taken from `start` on make up the text up to where the
reader stands. -/
structure Covers (src : Bytes) (start : Place) (done : Forest) (r : Reader) : Prop where
  place : r.place.In src
  pending : r.pending = []
  start_le : start.offset ≤ r.place.offset
  named : ∀ piece ∈ done, piece.label.named = true
  pieces : ∀ piece ∈ done, piece.kind = "string_fragment" ∨ piece.kind = "escape_sequence"
  nonempty : ∀ piece ∈ done, piece.content src ≠ []
  content : done.flatMap (Tree.content src) = src.slice start.offset r.place.offset

namespace Covers

variable {src : Bytes} {start : Place} {done forest : Forest} {r s : Reader}

theorem take (h : Covers src start done r) {kind : String}
    (hkind : kind = "string_fragment" ∨ kind = "escape_sequence") {width : ℕ} (hwidth : 0 < width)
    (hrest : r.place.rest ≠ []) (htake : Parse.take kind true width r = .ok (forest, s)) :
    Covers src start (done ++ forest) s := by
  rw [Parse.take_eq, h.pending, List.nil_append] at htake
  cases htake
  have hcontent : (Place.leaf kind true r.place (r.place.skip width)).content src =
      r.place.rest.take width := h.place.slice_skip width
  have hle := r.place.offset_le_skip width
  refine ⟨h.place.skip width, rfl, h.start_le.trans hle, ?_, ?_, ?_, ?_⟩
  · exact List.forall_mem_append.mpr ⟨h.named, by simp [Place.leaf, Tree.label]⟩
  · exact List.forall_mem_append.mpr ⟨h.pieces, List.forall_mem_singleton.mpr hkind⟩
  · refine List.forall_mem_append.mpr ⟨h.nonempty, List.forall_mem_singleton.mpr ?_⟩
    rw [hcontent]
    simp [hrest, Nat.ne_of_gt hwidth]
  · rw [List.flatMap_append, h.content, List.flatMap_singleton, Place.content_leaf,
      Bytes.slice_append src h.start_le hle]

theorem stringPiece {quote : UInt8} (h : Covers src start done r) {out : Option Forest}
    (hpiece : JavaScript.stringPiece quote r = .ok (out, s)) :
    Covers src start (done ++ out.getD []) s := by
  replace hpiece := Parse.get_bind_eq_ok hpiece
  split at hpiece
  case isTrue hlt =>
    -- A run that reaches further than the reader stands is not empty.
    obtain ⟨n, hn⟩ := Place.exists_skipWhile
      (fun c => c != quote.toNat && c != 92 && c != 10 && c != 13) r.place.rest.length r.place
    have hrest : r.place.rest ≠ [] := by
      intro hnil
      rw [Place.dropWhile, hn, Place.offset_skip, hnil] at hlt
      simp at hlt
    obtain ⟨taken, _, hfragment, hpure⟩ := Parse.bind_eq_ok hpiece
    cases hpure
    have htake := Parse.get_bind_eq_ok hfragment
    exact h.take (.inl rfl) (by omega) hrest htake
  case isFalse =>
    split at hpiece
    case isTrue hescape =>
      have hrest : r.place.rest ≠ [] := by
        intro hnil
        simp [hnil] at hescape
      obtain ⟨taken, _, htaken, hpure⟩ := Parse.bind_eq_ok hpiece
      cases hpure
      replace htaken := Parse.get_bind_eq_ok htaken
      generalize escapeWidth r.place = width at htaken
      cases width with
      | zero => cases htaken
      | succ width => exact h.take (.inr rfl) (Nat.succ_pos width) hrest htaken
    case isFalse =>
      cases hpiece
      simpa using h

theorem isLiteral {p : Place} {quote : UInt8} (hquote : quote = 34 ∨ quote = 39) (hp : p.In src)
    (hopening : p.rest.head? = some quote) (h : Covers src (p.skip 1) done r)
    (hclosing : r.place.rest.head? = some quote) (name : String) {label : Label}
    (hkind : label.kind = "string") (hfirst : label.first = p.offset)
    (hlast : label.last = (r.place.skip 1).offset) :
    (Tree.node label (Place.leaf name false p (p.skip 1) ::
      (done ++ [Place.leaf name false r.place (r.place.skip 1)]))).IsLiteral src
      (src.slice (p.skip 1).offset r.place.offset) := by
  have hnamed : (Tree.node label (Place.leaf name false p (p.skip 1) ::
      (done ++ [Place.leaf name false r.place (r.place.skip 1)]))).namedChildren = done := by
    have hpieces : done.filter (·.label.named) = done := List.filter_eq_self.mpr h.named
    rw [Tree.namedChildren, Tree.children, List.filter_cons_of_neg Bool.false_ne_true,
      List.filter_append, hpieces, List.filter_cons_of_neg Bool.false_ne_true, List.filter_nil,
      List.append_nil]
  refine ⟨hkind, ?_, ?_, ?_, quote, hquote, ?_⟩
  · rw [hnamed]
    exact h.pieces
  · rw [hnamed]
    exact h.nonempty
  · rw [hnamed, h.content]
  have hopen := p.offset_le_skip 1
  have hclose := r.place.offset_le_skip 1
  calc src.slice label.first label.last
      = src.slice p.offset (r.place.skip 1).offset := by rw [hfirst, hlast]
    _ = src.slice p.offset (p.skip 1).offset ++ src.slice (p.skip 1).offset r.place.offset ++
          src.slice r.place.offset (r.place.skip 1).offset := by
        rw [Bytes.slice_append src hopen h.start_le,
          Bytes.slice_append src (hopen.trans h.start_le) hclose]
    _ = quote :: src.slice (p.skip 1).offset r.place.offset ++ [quote] := by
        rw [hp.slice_skip_one hopening, h.place.slice_skip_one hclosing, List.singleton_append]

end Covers

theorem construct_of_comments {comments forest : Forest} {first last : Tree} (kind : String)
    (hcomments : ∀ tree ∈ comments, isComment tree = true) (hfirst : isComment first = false) :
    construct kind (comments ++ first :: (forest ++ [last])) =
      comments ++ [.node ⟨kind, true, none, first.label.first, last.label.last, first.label.start,
        last.label.finish, false, (first :: (forest ++ [last])).any (·.label.flagged)⟩
        (first :: (forest ++ [last]))] := by
  have hinside : (comments ++ first :: (forest ++ [last])).dropWhile isComment =
      first :: (forest ++ [last]) := by
    rw [List.dropWhile_append_of_pos hcomments, List.dropWhile_cons_of_neg (by simp [hfirst])]
  have houtside : (comments ++ first :: (forest ++ [last])).takeWhile isComment = comments := by
    rw [List.takeWhile_append_of_pos hcomments, List.takeWhile_cons_of_neg (by simp [hfirst]),
      List.append_nil]
  have hlast : (first :: (forest ++ [last])).getLast? = some last := by
    rw [← List.cons_append, List.getLast?_concat]
  simp only [construct, hinside, houtside, Tree.ofForest?, hlast, Option.toList_some]

theorem exists_isLiteral_of_stringLiteral {src : Bytes} {r s : Reader} {forest : Forest}
    (hplace : r.place.In src) (hpending : ∀ tree ∈ r.pending, isComment tree = true)
    (h : stringLiteral r = .ok (forest, s)) :
    ∃ comments literal inside, forest = comments ++ [literal] ∧
      (∀ tree ∈ comments, isComment tree = true) ∧ literal.IsLiteral src inside := by
  obtain ⟨token, opened, htoken, h⟩ := Parse.bind_eq_ok h
  obtain ⟨hopened, hcomments, htoken⟩ := Parse.peekStart_spec hplace hpending htoken
  cases token with
  | quote quote =>
    obtain ⟨hhead, hquote⟩ := Place.head?_of_token htoken
    replace h := Parse.get_bind_eq_ok h
    obtain ⟨taken, closed, hliteral, hclosed⟩ := Parse.bind_eq_ok h
    cases hclosed
    obtain ⟨opening, _, hopening, hliteral⟩ := Parse.bind_eq_ok hliteral
    rw [Parse.take_eq] at hopening
    cases hopening
    obtain ⟨pieces, inner, hpieces, hliteral⟩ := Parse.bind_eq_ok hliteral
    replace hpieces := Parse.get_bind_eq_ok hpieces
    have hcovers : Covers src (opened.place.skip 1) pieces inner := by
      refine Parse.repeatUpTo_keeps (fun done r out s hdone hpiece => hdone.stringPiece hpiece) ?_
        hpieces
      refine ⟨hopened.skip 1, rfl, le_rfl, by simp, by simp, by simp, ?_⟩
      simp [Bytes.slice]
    replace hliteral := Parse.get_bind_eq_ok hliteral
    split at hliteral
    case isFalse => cases hliteral
    case isTrue hclosing =>
      obtain ⟨closing, _, hclosing', hpure⟩ := Parse.bind_eq_ok hliteral
      rw [Parse.take_eq, hcovers.pending] at hclosing'
      cases hclosing'
      cases hpure
      have hmark : isComment (Place.leaf (if quote == 34 then "\"" else "'") false opened.place
          (opened.place.skip 1)) = false := by
        rcases hquote with rfl | rfl <;> rfl
      rw [List.append_assoc, List.append_assoc]
      exact ⟨_, _, _, construct_of_comments "string" hcomments hmark, hcomments,
        hcovers.isLiteral hquote hopened hhead (by simpa using hclosing) _ rfl rfl rfl⟩
  | _ => exact absurd h (Parse.unexpected_ne_ok _ _ _)

end JavaScript

end OrderLint
