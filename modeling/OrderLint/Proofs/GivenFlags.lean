import OrderLint.CommandLine.Command
import OrderLint.Proofs.Records

/-!
# Giving texts to flags

Reading a command line comes to giving texts to flags, one after the other. Each text changes one
flag only, and what a flag becomes depends only on the texts given for it. The plainest way to
write a command line, with every flag as `--name=text` before the arguments, gives just the texts
that are written.
-/
namespace OrderLint

namespace FlagValue

def setAll : List Bytes → FlagValue → Except ValueFault FlagValue
  | [], value => .ok value
  | s :: rest, value => match value.set s with
    | .ok value => value.setAll rest
    | .error fault => .error fault

theorem setAll_singleton (value : FlagValue) (s : Bytes) : value.setAll [s] = value.set s := by
  rw [setAll]
  cases value.set s <;> rfl

theorem setAll_append {texts : List Bytes} {value middle : FlagValue}
    (h : value.setAll texts = .ok middle) (more : List Bytes) :
    value.setAll (texts ++ more) = middle.setAll more := by
  induction texts generalizing value with
  | nil =>
    cases h
    rfl
  | cons s rest ih =>
    rw [List.cons_append, setAll]
    rw [setAll] at h
    split at h
    · exact ih h
    · cases h

inductive Like : FlagValue → FlagValue → Prop
  | switch (on on' : Bool) : Like (.switch on) (.switch on')
  | count (n n' : Int64) : Like (.count n) (.count n')
  | text (s s' : Bytes) : Like (.text s) (.text s')
  | list (items items' : List Bytes) (replaced replaced' : Bool) :
      Like (.list items replaced) (.list items' replaced')

theorem Like.refl (value : FlagValue) : value.Like value := by
  cases value <;> constructor

theorem Like.trans {value middle last : FlagValue} (h : value.Like middle) (h' : middle.Like last) :
    value.Like last := by
  cases h <;> cases h' <;> constructor

theorem like_set {s : Bytes} {value result : FlagValue} (h : value.set s = .ok result) :
    value.Like result := by
  cases value with
  | text =>
    cases h
    constructor
  | switch | count | list =>
    simp only [set] at h
    split at h
    · cases h
      constructor
    · cases h

theorem like_setAll {texts : List Bytes} {value result : FlagValue}
    (h : value.setAll texts = .ok result) : value.Like result := by
  induction texts generalizing value with
  | nil =>
    cases h
    exact .refl _
  | cons s rest ih =>
    rw [setAll] at h
    split at h
    case h_1 middle hset => exact (like_set hset).trans (ih h)
    case h_2 => cases h

end FlagValue

structure Flag.After (texts : List Bytes) (flag given : Flag) : Prop where
  value : flag.value.setAll texts = .ok given.value
  rest : given = { flag with value := given.value, given := flag.given || !texts.isEmpty }

namespace Flag.After

variable {texts more : List Bytes} {flag given : Flag}

theorem refl (flag : Flag) : flag.After [] flag := ⟨rfl, by simp⟩

theorem give {s : Bytes} (h : flag.give s = .ok given) : flag.After [s] given := by
  rw [Flag.give] at h
  split at h
  case h_1 value hset =>
    cases h
    exact ⟨by simp [FlagValue.setAll, hset], by simp⟩
  case h_2 => cases h

theorem trans {last : Flag} (h : flag.After texts given) (h' : given.After more last) :
    flag.After (texts ++ more) last := by
  refine ⟨(FlagValue.setAll_append h.value more).trans h'.value, ?_⟩
  rw [h'.rest, h.rest]
  cases texts <;> simp

theorem name_eq (h : flag.After texts given) : given.name = flag.name := by
  rw [h.rest]

theorem given_eq (h : flag.After texts given) :
    given.given = (flag.given || !texts.isEmpty) := by
  rw [h.rest]

theorem eq_self (h : flag.After [] given) : given = flag := by
  have hvalue : given.value = flag.value := (Except.ok.inj h.value).symm
  rw [h.rest, hvalue]
  simp

end Flag.After

theorem forall₂_trans {α β γ : Type*} {R : α → β → Prop} {S : β → γ → Prop} {T : α → γ → Prop}
    {xs : List α} {ys : List β} {zs : List γ} (h : List.Forall₂ R xs ys)
    (h' : List.Forall₂ S ys zs) (hT : ∀ {x y z}, R x y → S y z → T x z) :
    List.Forall₂ T xs zs := by
  induction h generalizing zs with
  | nil =>
    cases h'
    exact .nil
  | cons hfirst _ ih =>
    cases h' with
    | cons hfirst' hrest' => exact .cons (hT hfirst hfirst') (ih hrest')

namespace Flags

def giveAll : List (Bytes × Bytes) → List Flag → Except FlagError (List Flag)
  | [], flags => .ok flags
  | (name, s) :: rest, flags => match give name s flags with
    | .ok flags => giveAll rest flags
    | .error e => .error e

def textsFor (given : List (Bytes × Bytes)) (name : Bytes) : List Bytes :=
  (given.filter fun pair => pair.1 == name).map (·.2)

theorem giveAll_append {given : List (Bytes × Bytes)} {flags middle : List Flag}
    (h : giveAll given flags = .ok middle) (more : List (Bytes × Bytes)) :
    giveAll (given ++ more) flags = giveAll more middle := by
  induction given generalizing flags with
  | nil =>
    cases h
    rfl
  | cons pair rest ih =>
    rw [List.cons_append, giveAll]
    rw [giveAll] at h
    split at h
    · exact ih h
    · cases h

theorem give_after {name s : Bytes} {flags given : List Flag}
    (hnames : (flags.map (·.name)).Nodup) (h : give name s flags = .ok given) :
    List.Forall₂ (fun flag => flag.After (textsFor [(name, s)] flag.name)) flags given := by
  induction flags generalizing given with
  | nil =>
    cases h
    exact .nil
  | cons flag rest ih =>
    obtain ⟨hfresh, hrest⟩ := List.nodup_cons.mp hnames
    rw [give] at h
    split_ifs at h with hname
    · -- No later flag has the name, so the others stay as they are.
      obtain ⟨first, hgive, rfl⟩ := map_eq_ok h
      refine .cons (by simpa [textsFor, hname] using Flag.After.give hgive) ?_
      refine List.forall₂_same.mpr fun other hother => ?_
      have hne : name ≠ other.name := by
        intro heq
        exact hfresh (List.mem_map.mpr ⟨other, hother, heq.symm.trans hname.symm⟩)
      simpa [textsFor, hne] using Flag.After.refl other
    · obtain ⟨others, hgive, rfl⟩ := map_eq_ok h
      refine .cons ?_ (ih hrest hgive)
      simpa [textsFor, Ne.symm hname] using Flag.After.refl flag

theorem map_name_of_after {texts : Flag → List Bytes} {flags given : List Flag}
    (h : List.Forall₂ (fun flag => flag.After (texts flag)) flags given) :
    given.map (·.name) = flags.map (·.name) := by
  induction h with
  | nil => rfl
  | cons hfirst _ ih => rw [List.map_cons, List.map_cons, ih, hfirst.name_eq]

theorem giveAll_after {pairs : List (Bytes × Bytes)} {flags given : List Flag}
    (hnames : (flags.map (·.name)).Nodup) (h : giveAll pairs flags = .ok given) :
    List.Forall₂ (fun flag => flag.After (textsFor pairs flag.name)) flags given := by
  induction pairs generalizing flags with
  | nil =>
    cases h
    exact List.forall₂_same.mpr fun flag _ => Flag.After.refl flag
  | cons pair rest ih =>
    obtain ⟨name, s⟩ := pair
    rw [giveAll] at h
    split at h
    case h_2 => cases h
    case h_1 middle hgive =>
      have hstep := give_after hnames hgive
      have hrest := ih (by rwa [map_name_of_after hstep]) h
      refine forall₂_trans hstep hrest ?_
      -- The first text counts for its own flag only, and a flag keeps its name.
      intro flag first last hfirst hlast
      have htexts : textsFor ((name, s) :: rest) flag.name =
          textsFor [(name, s)] flag.name ++ textsFor rest first.name := by
        rw [hfirst.name_eq, textsFor, textsFor, textsFor, ← List.map_append, ← List.filter_append]
        rfl
      rw [htexts]
      exact hfirst.trans hlast

/-! ## Reading a command line -/

theorem giveAll_singleton (name s : Bytes) (flags : List Flag) :
    giveAll [(name, s)] flags = give name s flags := by
  rw [giveAll]
  cases give name s flags <;> rfl

theorem gives_trans {flags middle last : List Flag} (h : ∃ pairs, giveAll pairs flags = .ok middle)
    (h' : ∃ pairs, giveAll pairs middle = .ok last) : ∃ pairs, giveAll pairs flags = .ok last := by
  obtain ⟨first, hfirst⟩ := h
  obtain ⟨later, hlater⟩ := h'
  exact ⟨first ++ later, (giveAll_append hfirst later).trans hlater⟩

theorem gives_of_give {name s : Bytes} {usedNext : Bool} {flags : List Flag} {taken : Taken}
    (h : (give name s flags).map (fun flags => (⟨flags, usedNext⟩ : Taken)) = .ok taken) :
    ∃ pairs, giveAll pairs flags = .ok taken.flags := by
  obtain ⟨given, hgive, rfl⟩ := map_eq_ok h
  exact ⟨[(name, s)], by rw [giveAll_singleton, hgive]⟩

theorem takeLong_gives {flags : List Flag} {argument : Bytes} {next : Option Bytes} {taken : Taken}
    (h : takeLong flags argument next = .ok taken) :
    ∃ pairs, giveAll pairs flags = .ok taken.flags := by
  simp only [takeLong] at h
  split_ifs at h
  split at h
  · cases h
  · split at h
    · exact gives_of_give h
    · split_ifs at h
      · exact gives_of_give h
      · split at h
        · exact gives_of_give h
        · cases h

theorem takeLetters_gives {flags : List Flag} {letters : Bytes} {next : Option Bytes}
    {taken : Taken} (h : takeLetters next flags letters = .ok taken) :
    ∃ pairs, giveAll pairs flags = .ok taken.flags := by
  fun_induction takeLetters next flags letters with
  | case1 flags | case2 flags =>
    cases h
    exact ⟨[], rfl⟩
  | case3 | case5 | case9 => cases h
  | case4 | case7 | case8 => exact gives_of_give h
  | case6 flags letter rest _ flag _ _ _ middle hgive ih =>
    obtain ⟨pairs, hrest⟩ := ih h
    exact ⟨(flag.name, utf8 "true") :: pairs, by rw [giveAll, hgive]; exact hrest⟩

theorem take_gives {flags : List Flag} {argument : Bytes} {next : Option Bytes} {taken : Taken}
    (h : take flags argument next = .ok taken) :
    ∃ pairs, giveAll pairs flags = .ok taken.flags := by
  rw [take] at h
  split_ifs at h
  · exact takeLong_gives h
  · exact takeLetters_gives h

theorem parse_gives {flags : List Flag} {arguments : List Bytes} {parsed : Parsed}
    (h : parse flags arguments = .ok parsed) :
    ∃ pairs, giveAll pairs flags = .ok parsed.flags := by
  fun_induction parse flags arguments generalizing parsed with
  | case1 flags =>
    cases h
    exact ⟨[], rfl⟩
  | case2 flags argument rest hpositional ih =>
    obtain ⟨inner, hinner, rfl⟩ := map_eq_ok h
    obtain ⟨pairs, hpairs⟩ := ih hinner
    exact ⟨pairs, hpairs⟩
  | case3 =>
    cases h
    exact ⟨[], rfl⟩
  | case4 => cases h
  | case5 flags argument _ _ taken value rest _ htake ih =>
    exact gives_trans (take_gives htake) (ih h)
  | case6 flags argument _ _ taken rest _ htake ih =>
    exact gives_trans (take_gives htake) (ih h)

/-! ## The plainest command line -/

def spelled (pair : Bytes × Bytes) : Bytes := utf8 "--" ++ (pair.1 ++ 61 :: pair.2)

/-- A name that can be told from the dashes before it and the equals sign behind it. -/
def IsPlain (name : Bytes) : Prop := name ≠ [] ∧ name.head? ≠ some 45 ∧ 61 ∉ name

instance : DecidablePred IsPlain := fun _ => inferInstanceAs (Decidable (_ ∧ _))

theorem span_name {name : Bytes} (hname : 61 ∉ name) (s : Bytes) :
    (name ++ 61 :: s).span (· != 61) = (name, 61 :: s) := by
  have hbytes : ∀ b ∈ name, (b != 61) = true := by
    intro b hb
    rw [bne_iff_ne]
    exact ne_of_mem_of_not_mem hb hname
  rw [List.span_eq_takeWhile_dropWhile, List.takeWhile_append_of_pos hbytes,
    List.dropWhile_append_of_pos hbytes]
  simp

theorem takeLong_spelled {name : Bytes} (hname : IsPlain name) (s : Bytes) {flags : List Flag}
    (hmem : name ∈ flags.map (·.name)) (next : Option Bytes) :
    takeLong flags (spelled (name, s)) next =
      (give name s flags).map fun flags => ⟨flags, false⟩ := by
  obtain ⟨hne, hdash, hequals⟩ := hname
  have hbody : (spelled (name, s)).drop 2 = name ++ 61 :: s := rfl
  have hhead : (name ++ 61 :: s).head? = name.head? := by
    obtain ⟨b, rest, rfl⟩ := List.exists_cons_of_ne_nil hne
    rfl
  have hwellFormed : ¬ (name.head? = none ∨ name.head? = some 45 ∨ name.head? = some 61) := by
    rintro (h | h | h)
    · exact hne (List.head?_eq_none_iff.mp h)
    · exact hdash h
    · exact hequals (List.mem_of_head? h)
  obtain ⟨flag, hflag⟩ : ∃ flag, flags.find? (·.name == name) = some flag := by
    obtain ⟨flag, hflag, hname⟩ := List.mem_map.mp hmem
    exact Option.isSome_iff_exists.mp (List.find?_isSome.mpr ⟨flag, hflag, by simp [hname]⟩)
  simp only [takeLong, hbody, hhead, hwellFormed, if_false, span_name hequals, hflag]

theorem parse_spelled_cons {name : Bytes} (hname : IsPlain name) (s : Bytes) {flags : List Flag}
    (hmem : name ∈ flags.map (·.name)) {given : List Flag} (h : give name s flags = .ok given)
    (rest : List Bytes) :
    parse flags (spelled (name, s) :: rest) = parse given rest := by
  have hspelled : spelled (name, s) = 45 :: 45 :: (name ++ 61 :: s) := rfl
  have hpositional : isPositional (spelled (name, s)) = false := by
    simp [isPositional, hspelled]
  have hdashes : utf8 "--" = [45, 45] := rfl
  have hends : spelled (name, s) ≠ utf8 "--" := by
    simp [hspelled, hdashes]
  have hlong : (spelled (name, s)).startsWith (utf8 "--") = true := by
    simp [hspelled, hdashes, Bytes.startsWith]
  have htake : take flags (spelled (name, s)) rest.head? = .ok ⟨given, false⟩ := by
    rw [take, if_pos hlong, takeLong_spelled hname s hmem, h]
    rfl
  rw [parse, hpositional, if_neg Bool.false_ne_true, if_neg hends, htake]

theorem parse_spelled {pairs : List (Bytes × Bytes)} {flags given : List Flag}
    (hnames : (flags.map (·.name)).Nodup) (hplain : ∀ pair ∈ pairs, IsPlain pair.1)
    (hmem : ∀ pair ∈ pairs, pair.1 ∈ flags.map (·.name))
    (h : giveAll pairs flags = .ok given) (rest : List Bytes) :
    parse flags (pairs.map spelled ++ rest) = parse given rest := by
  induction pairs generalizing flags with
  | nil =>
    cases h
    rfl
  | cons pair pairs ih =>
    obtain ⟨name, s⟩ := pair
    rw [giveAll] at h
    split at h
    case h_2 => cases h
    case h_1 middle hgive =>
      have hsame : middle.map (·.name) = flags.map (·.name) :=
        map_name_of_after (give_after hnames hgive)
      rw [List.map_cons, List.cons_append,
        parse_spelled_cons (hplain (name, s) (by simp)) s (hmem (name, s) (by simp)) hgive]
      refine ih (by rwa [hsame]) (fun x hx => hplain x (by simp [hx])) ?_ h
      intro x hx
      rw [hsame]
      exact hmem x (by simp [hx])

theorem parse_operands (flags : List Flag) {operands : List Bytes}
    (h : ∀ operand ∈ operands, isPositional operand) :
    parse flags operands = .ok ⟨flags, operands⟩ := by
  induction operands with
  | nil => rfl
  | cons operand rest ih =>
    rw [parse, if_pos (h operand (by simp)), ih fun x hx => h x (by simp [hx])]
    rfl

end Flags

end OrderLint
