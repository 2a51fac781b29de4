import OrderLint.Proofs.Precedence

/-!
# Lists that come through to their flags

A list that a source provides is handed to its flag as one record, its items joined with commas, and
the flag takes the fields of the record for its items. A flag that was not given on the command line
therefore ends up with the provided list exactly when that list is joinable; with any other it is
rejected or ends up with another list.
-/
namespace OrderLint

namespace Flag

variable {sources : Sources} {flag bound : Flag} {provided : Yaml.Value}

theorem exists_bindsTo (sources : Sources) (flag : Flag) :
    ∃ settled, flag.BindsTo settled (flag.bind sources) := by
  rw [bind]
  split_ifs
  · exact ⟨.ok flag.value, rfl, rfl⟩
  · split
    case h_1 provided _ => exact ⟨_, flag.bindValue_bindsTo provided⟩
    case h_2 => exact ⟨.ok flag.value, rfl, rfl⟩

theorem name_of_bind (h : flag.bind sources = .ok bound) : bound.name = flag.name := by
  obtain ⟨settled, hbinds⟩ := flag.exists_bindsTo sources
  rw [h] at hbinds
  cases settled with
  | ok value => exact hbinds.1
  | error fault => exact hbinds.elim

theorem name_of_bind_error {e : BindingError} (h : flag.bind sources = .error e) :
    e.name = flag.name := by
  obtain ⟨settled, hbinds⟩ := flag.exists_bindsTo sources
  rw [h] at hbinds
  cases settled with
  | ok value => exact hbinds.elim
  | error fault => exact hbinds.1

structure Awaits (sources : Sources) (provided : Yaml.Value) (flag : Flag) : Prop where
  value : ∃ items, flag.value = .list items false
  given : flag.given = false
  provided : sources.provided? flag.name = some provided

namespace Awaits

theorem bind_eq (h : flag.Awaits sources provided) :
    flag.bind sources = match Csv.members (Bytes.joined [44] (providedItems provided)) with
      | .ok items => .ok { flag with value := .list items true }
      | .error e => .error ⟨flag.name, e.message⟩ := by
  obtain ⟨⟨items, hvalue⟩, hgiven, hprovided⟩ := h
  simp only [bind, hgiven, if_neg Bool.false_ne_true, hprovided, bindValue, hvalue, FlagValue.set]
  cases Csv.members (Bytes.joined [44] (providedItems provided)) <;> rfl

theorem bind_of_joinable (h : flag.Awaits sources provided)
    (hitems : Csv.Joinable (providedItems provided)) :
    flag.bind sources = .ok { flag with value := .list (providedItems provided) true } := by
  rw [h.bind_eq, (Csv.members_joined_iff _).mpr hitems]

theorem exists_items (h : flag.Awaits sources provided) (hbind : flag.bind sources = .ok bound) :
    ∃ items, bound.value = .list items true ∧
      (items = providedItems provided ↔ Csv.Joinable (providedItems provided)) := by
  rw [h.bind_eq] at hbind
  split at hbind
  case h_1 items hmembers =>
    cases hbind
    refine ⟨items, rfl, ?_⟩
    rw [← Csv.members_joined_iff, hmembers, Except.ok.injEq]
  case h_2 => cases hbind

end Awaits

end Flag

/-! ## Binding all flags -/

section BindFlags

variable {sources : Sources} {flags bound : List Flag}

theorem forall₂_of_bindFlags (h : bindFlags sources flags = .ok bound) :
    List.Forall₂ (fun flag bound : Flag => bound.name = flag.name ∧ flag.bind sources = .ok bound)
      flags bound := by
  induction flags generalizing bound with
  | nil =>
    cases h
    exact .nil
  | cons flag rest ih =>
    rw [bindFlags] at h
    split at h
    case h_1 => cases h
    case h_2 first hfirst =>
      obtain ⟨others, hothers, rfl⟩ := map_eq_ok h
      exact .cons ⟨Flag.name_of_bind hfirst, hfirst⟩ (ih hothers)

theorem exists_of_bindFlags_error {e : BindingError} (h : bindFlags sources flags = .error e) :
    ∃ flag ∈ flags, flag.bind sources = .error e := by
  induction flags with
  | nil => cases h
  | cons flag rest ih =>
    rw [bindFlags] at h
    split at h
    case h_1 fault hfault =>
      cases h
      exact ⟨flag, by simp, hfault⟩
    case h_2 =>
      cases hrest : bindFlags sources rest with
      | ok others =>
        rw [hrest] at h
        cases h
      | error fault =>
        rw [hrest] at h
        cases h
        obtain ⟨found, hfound, hbind⟩ := ih hrest
        exact ⟨found, by simp [hfound], hbind⟩

end BindFlags

namespace Flag.Awaits

variable {sources : Sources} {provided : Yaml.Value} {flags : List Flag} {flag : Flag}
  (h : flag.Awaits sources provided) (hnames : (flags.map (·.name)).Nodup) (hmem : flag ∈ flags)

include h hnames hmem

theorem value?_of_bindFlags {bound : List Flag} (hbound : bindFlags sources flags = .ok bound) :
    ∃ items, Flags.value? bound flag.name = some (.list items true) ∧
      (items = providedItems provided ↔ Csv.Joinable (providedItems provided)) := by
  obtain ⟨held, hvalue, hbind⟩ := Flags.exists_value? (forall₂_of_bindFlags hbound) hnames hmem
  obtain ⟨items, hitems, hiff⟩ := h.exists_items hbind
  exact ⟨items, by rw [hvalue, hitems], hiff⟩

theorem name_ne_of_joinable (hitems : Csv.Joinable (providedItems provided)) {e : BindingError}
    (he : bindFlags sources flags = .error e) :
    e.name ≠ flag.name ∧ ∃ other ∈ flags, other.name = e.name ∧ other.bind sources = .error e := by
  obtain ⟨other, hother, hbind⟩ := exists_of_bindFlags_error he
  have hname := Flag.name_of_bind_error hbind
  refine ⟨?_, other, hother, hname.symm, hbind⟩
  intro heq
  obtain rfl : other = flag :=
    List.inj_on_of_nodup_map hnames hother hmem (hname.symm.trans heq)
  rw [h.bind_of_joinable hitems] at hbind
  cases hbind

theorem exists_bound_iff :
    (∃ bound, bindFlags sources flags = .ok bound ∧
        Flags.value? bound flag.name = some (.list (providedItems provided) true)) ↔
      Csv.Joinable (providedItems provided) ∧
        ∀ other ∈ flags, other.name ≠ flag.name → ∃ bound, other.bind sources = .ok bound := by
  constructor
  · intro hset
    obtain ⟨bound, hbound, hvalue⟩ := hset
    obtain ⟨items, hitems, hiff⟩ := h.value?_of_bindFlags hnames hmem hbound
    have heq : items = providedItems provided := by
      rw [hvalue] at hitems
      cases hitems
      rfl
    refine ⟨hiff.mp heq, fun other hother _ => ?_⟩
    obtain ⟨held, -, hbind⟩ := Flags.exists_value? (forall₂_of_bindFlags hbound) hnames hother
    exact ⟨held, hbind⟩
  · intro haccepted
    obtain ⟨hitems, hothers⟩ := haccepted
    cases hbound : bindFlags sources flags with
    | error e =>
      obtain ⟨hne, other, hother, hname, hbind⟩ := h.name_ne_of_joinable hnames hmem hitems hbound
      obtain ⟨bound, hok⟩ := hothers other hother (hname ▸ hne)
      rw [hbind] at hok
      cases hok
    | ok bound =>
      obtain ⟨items, hvalue, hiff⟩ := h.value?_of_bindFlags hnames hmem hbound
      exact ⟨bound, rfl, by rw [hvalue, hiff.mpr hitems]⟩

theorem changed_of_not_joinable (hitems : ¬ Csv.Joinable (providedItems provided)) :
    (∃ e, bindFlags sources flags = .error e) ∨ ∃ bound items, bindFlags sources flags = .ok bound ∧
      Flags.value? bound flag.name = some (.list items true) ∧ items ≠ providedItems provided := by
  cases hbound : bindFlags sources flags with
  | error e => exact .inl ⟨e, rfl⟩
  | ok bound =>
    obtain ⟨items, hvalue, hiff⟩ := h.value?_of_bindFlags hnames hmem hbound
    exact .inr ⟨bound, items, rfl, hvalue, mt hiff.mp hitems⟩

end Flag.Awaits

/-! ## The lists of the settings -/

theorem exists_list_of_mem_settingFlags {settings : Settings} :
    ∀ flag ∈ settingFlags settings, flag.name = utf8 "ext" ∨ flag.name = utf8 "exclude" →
      ∃ items, flag.value = .list items false := by
  simp only [settingFlags, List.forall_mem_cons]
  refine ⟨fun h => absurd h (by decide +kernel), fun h => absurd h (by decide +kernel),
    fun _ => ⟨_, rfl⟩, fun _ => ⟨_, rfl⟩, fun h => absurd h (by decide +kernel),
    fun h => absurd h (by decide +kernel), by simp⟩

namespace Invocation

/-- The flags as they stand before they are bound: those of a check after its command line has been
read, and those of settings that are printed. -/
inductive Unbound (call : Invocation) : List Flag → Prop
  | checked {arguments : List Bytes} {parsed : Flags.Parsed}
      (h : Flags.parse call.checkFlags arguments = .ok parsed) : Unbound call parsed.flags
  | printed : Unbound call (settingFlags (.default call.processors))

theorem exists_list_of_mem_checkFlags (call : Invocation) :
    ∀ flag ∈ call.checkFlags, flag.name = utf8 "ext" ∨ flag.name = utf8 "exclude" →
      ∃ items, flag.value = .list items false :=
  forall_mem_checkFlags.mpr
    ⟨fun h => absurd h (by decide +kernel), exists_list_of_mem_settingFlags⟩

theorem Unbound.nodup {call : Invocation} {flags : List Flag} (h : call.Unbound flags) :
    (flags.map (·.name)).Nodup := by
  cases h with
  | checked hparse =>
    obtain ⟨pairs, hgive⟩ := Flags.parse_gives hparse
    rw [Flags.map_name_of_after (Flags.giveAll_after call.nodup_checkFlags hgive)]
    exact call.nodup_checkFlags
  | printed => exact (List.nodup_cons.mp nodup_settingNames).2

theorem Unbound.exists_list {call : Invocation} {flags : List Flag} (h : call.Unbound flags)
    {flag : Flag} (hmem : flag ∈ flags)
    (hname : flag.name = utf8 "ext" ∨ flag.name = utf8 "exclude") (hgiven : flag.given = false) :
    ∃ items, flag.value = .list items false := by
  cases h with
  | checked hparse =>
    obtain ⟨pairs, hgive⟩ := Flags.parse_gives hparse
    obtain ⟨original, horiginal, hafter⟩ :=
      exists_of_mem_right (Flags.giveAll_after call.nodup_checkFlags hgive) hmem
    -- Nothing was given for the flag, so it is still the one that the command started with.
    have htexts : Flags.textsFor pairs original.name = [] := by
      have hempty := hafter.given_eq
      rw [hgiven, call.given_checkFlags original horiginal] at hempty
      simpa using hempty
    rw [htexts] at hafter
    obtain rfl := hafter.eq_self
    exact call.exists_list_of_mem_checkFlags flag horiginal hname
  | printed => exact exists_list_of_mem_settingFlags flag hmem hname

/-- Binding the flags hands a list that is provided for `ext` or `exclude` on unchanged exactly when
the list is joinable and no other flag is rejected; a joinable list is never what is rejected. With
any other list, the flag ends up with another list or the binding fails. -/
theorem bindFlags_list (call : Invocation) (flags : List Flag) (hflags : call.Unbound flags)
    (sources : Sources) (flag : Flag) (hmem : flag ∈ flags)
    (hname : flag.name = utf8 "ext" ∨ flag.name = utf8 "exclude") (hgiven : flag.given = false)
    (provided : Yaml.Value) (hprovided : sources.provided? flag.name = some provided) :
    ((∃ bound, bindFlags sources flags = .ok bound ∧
        Flags.value? bound flag.name = some (.list (providedItems provided) true)) ↔
      Csv.Joinable (providedItems provided) ∧
        ∀ other ∈ flags, other.name ≠ flag.name → ∃ bound, other.bind sources = .ok bound) ∧
    (Csv.Joinable (providedItems provided) →
      ∀ e, bindFlags sources flags = .error e → e.name ≠ flag.name) ∧
    (¬ Csv.Joinable (providedItems provided) →
      (∃ e, bindFlags sources flags = .error e) ∨
        ∃ bound items, bindFlags sources flags = .ok bound ∧
          Flags.value? bound flag.name = some (.list items true) ∧
          items ≠ providedItems provided) := by
  have hawaits : flag.Awaits sources provided :=
    ⟨hflags.exists_list hmem hname hgiven, hgiven, hprovided⟩
  refine ⟨hawaits.exists_bound_iff hflags.nodup hmem, ?_, ?_⟩
  · intro hitems e he
    exact (hawaits.name_ne_of_joinable hflags.nodup hmem hitems he).1
  · exact hawaits.changed_of_not_joinable hflags.nodup hmem

-- Of the two lists, the one with an empty item and a carriage return comes through, and the one with
-- a comma does not.
def commaSources : Sources where
  environment := []
  entries := [(utf8 "ext", .list [.text [], .text (utf8 "a\rb")]),
    (utf8 "exclude", .list [.text (utf8 "c,d")])]

def bareCall : Invocation where
  arguments := []
  environment := []
  tree := .ofEntries []
  input := none
  processors := 4

def readFlags : List Flag :=
  ((Flags.parse bareCall.checkFlags [utf8 "--exclude=gen/**", utf8 "src"]).toOption.getD
    ⟨[], []⟩).flags

theorem bindFlags_list_commaSources :
    (∃ bound, bindFlags commaSources readFlags = .ok bound ∧
        Flags.value? bound (utf8 "ext") = some (.list [[], utf8 "a\rb"] true)) ∧
      ¬ ∃ bound, bindFlags commaSources (settingFlags (.default 4)) = .ok bound ∧
        Flags.value? bound (utf8 "exclude") = some (.list [utf8 "c,d"] true) := by
  constructor
  · have hread : bareCall.Unbound readFlags := .checked (eq_ok_of_isOk (by decide +kernel) _)
    obtain ⟨flag, hmem, hname, hgiven⟩ : ∃ flag ∈ readFlags, flag.name = utf8 "ext" ∧
        flag.given = false := by decide +kernel
    have hjoinable : Csv.Joinable [[], utf8 "a\rb"] :=
      ⟨by decide, by decide, by decide, by decide, by decide⟩
    have hothers : ∀ other ∈ readFlags, (other.bind commaSources).isOk = true := by decide +kernel
    have hlist := (bindFlags_list bareCall readFlags hread commaSources flag hmem (.inl hname) hgiven
      (.list [.text [], .text (utf8 "a\rb")]) (hname ▸ rfl)).1
    rw [hname] at hlist
    exact hlist.mpr
      ⟨hjoinable, fun other hother _ => ⟨_, eq_ok_of_isOk (hothers other hother) other⟩⟩
  · obtain ⟨flag, hmem, hname, hgiven⟩ : ∃ flag ∈ settingFlags (.default 4),
        flag.name = utf8 "exclude" ∧ flag.given = false := by decide +kernel
    have hlist := (bindFlags_list bareCall _ .printed commaSources flag hmem (.inr hname) hgiven
      (.list [.text (utf8 "c,d")]) (hname ▸ rfl)).1
    rw [hname] at hlist
    intro hbound
    exact (hlist.mp hbound).1.comma (utf8 "c,d") (by decide) (by decide)

end Invocation

end OrderLint
