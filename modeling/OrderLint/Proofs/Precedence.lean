import OrderLint.CommandLine.Program
import OrderLint.Proofs.GivenFlags
import OrderLint.Proofs.PrintedSettings
import OrderLint.Proofs.Sequence

/-!
# Where each setting comes from

A setting is held by a flag, and the flag is handed texts by one source: by the command line, else
by the variable of the setting, else by its entry in the configuration file, else by none. Binding
the flags leaves those alone that were given on the command line, and hands the others what their
variable or entry holds. So the value of each setting is settled by its own sources, and the check
and the printed configuration settle all of them alike.
-/
namespace OrderLint

/-! ## Sources of a flag -/

/-- What there is for a flag: the texts given for it, its variable unless that is empty, and its
entry in the configuration file unless that is null. -/
structure Origins where
  given : List Bytes
  inEnvironment : Option Bytes
  inFile : Option Yaml.Value

def FlagValue.textOf (provided : Yaml.Value) : FlagValue → Bytes
  | .list _ _ => Bytes.joined [44] (providedItems provided)
  | _ => provided.scalarText

def FlagValue.asDefault : FlagValue → FlagValue
  | .list items _ => .list items false
  | value => value

namespace Origins

/-- The texts of the highest source that there is, for a flag with a default. -/
def texts (value : FlagValue) : Origins → List Bytes
  | ⟨s :: rest, _, _⟩ => s :: rest
  | ⟨[], some s, _⟩ => [value.textOf (.text s)]
  | ⟨[], none, some entry⟩ => [value.textOf entry]
  | ⟨[], none, none⟩ => []

def settled (value : FlagValue) (origins : Origins) : Except ValueFault FlagValue :=
  value.setAll (origins.texts value)

end Origins

namespace Flag

def origins (given : List (Bytes × Bytes)) (sources : Sources) (flag : Flag) : Origins :=
  ⟨Flags.textsFor given flag.name, sources.fromEnvironment? flag.name, sources.fromFile? flag.name⟩

def settled (given : List (Bytes × Bytes)) (sources : Sources) (flag : Flag) :
    Except ValueFault FlagValue :=
  (flag.origins given sources).settled flag.value

def Accepts (given : List (Bytes × Bytes)) (sources : Sources) (flag : Flag) : Prop :=
  ∃ value, flag.settled given sources = .ok value

def BindsTo (flag : Flag) : Except ValueFault FlagValue → Except BindingError Flag → Prop
  | .ok value, .ok bound => bound.name = flag.name ∧ bound.value = value
  | .error fault, .error e => e.name = flag.name ∧ fault.message <:+ e.reason
  | _, _ => False

theorem BindsTo.exists_ok {flag : Flag} {value : FlagValue} {result : Except BindingError Flag}
    (h : flag.BindsTo (.ok value) result) :
    ∃ bound, result = .ok bound ∧ bound.name = flag.name ∧ bound.value = value := by
  cases result with
  | ok bound => exact ⟨bound, rfl, h⟩
  | error e => exact h.elim

theorem BindsTo.exists_error {flag : Flag} {fault : ValueFault} {result : Except BindingError Flag}
    (h : flag.BindsTo (.error fault) result) :
    ∃ e, result = .error e ∧ e.name = flag.name ∧ fault.message <:+ e.reason := by
  cases result with
  | ok bound => exact h.elim
  | error e => exact ⟨e, rfl, h⟩

theorem bindValue_bindsTo (flag : Flag) (provided : Yaml.Value) :
    flag.BindsTo (flag.value.set (flag.value.textOf provided)) (flag.bindValue provided) := by
  cases hvalue : flag.value with
  | list items replaced =>
    simp only [bindValue, hvalue, FlagValue.textOf]
    cases FlagValue.set (Bytes.joined [44] (providedItems provided)) (.list items replaced) with
    | ok value => exact ⟨rfl, rfl⟩
    | error fault => exact ⟨rfl, List.suffix_refl _⟩
  | switch | count | text =>
    simp only [bindValue, give, hvalue, FlagValue.textOf]
    cases FlagValue.set provided.scalarText _ with
    | ok value => exact ⟨rfl, rfl⟩
    | error fault => exact ⟨rfl, List.suffix_append _ _⟩

theorem bind_bindsTo {given : List (Bytes × Bytes)} {original flag : Flag}
    (h : original.After (Flags.textsFor given original.name) flag)
    (hfresh : original.given = false) (sources : Sources) :
    original.BindsTo (original.settled given sources) (flag.bind sources) := by
  have hgiven := h.given_eq
  rw [hfresh, Bool.false_or] at hgiven
  simp only [settled, Origins.settled, origins, bind]
  cases htexts : Flags.textsFor given original.name with
  | cons s rest =>
    -- What was given on the command line is kept.
    rw [htexts] at h hgiven
    rw [hgiven, Origins.texts, h.value]
    exact ⟨h.name_eq, rfl⟩
  | nil =>
    rw [htexts] at h
    obtain rfl := h.eq_self
    rw [hfresh, if_neg Bool.false_ne_true, Sources.provided?]
    cases sources.fromEnvironment? flag.name with
    | some s =>
      simpa only [Origins.texts, FlagValue.setAll_singleton] using flag.bindValue_bindsTo (.text s)
    | none =>
      cases sources.fromFile? flag.name with
      | some entry =>
        simpa only [Origins.texts, FlagValue.setAll_singleton] using flag.bindValue_bindsTo entry
      | none => exact ⟨rfl, rfl⟩

theorem settled_of_provided {given : List (Bytes × Bytes)} {sources : Sources} {flag : Flag}
    {provided : Yaml.Value} (htexts : Flags.textsFor given flag.name = [])
    (hprovided : sources.provided? flag.name = some provided) :
    flag.settled given sources = flag.value.set (flag.value.textOf provided) := by
  rw [settled, Origins.settled, origins, htexts]
  rw [Sources.provided?] at hprovided
  split at hprovided
  case h_1 s hvariable =>
    cases hprovided
    rw [hvariable, Origins.texts, FlagValue.setAll_singleton]
  case h_2 hvariable =>
    rw [hvariable, hprovided, Origins.texts, FlagValue.setAll_singleton]

theorem settled_of_joinable {given : List (Bytes × Bytes)} {sources : Sources} {flag : Flag}
    {provided : Yaml.Value} (htexts : Flags.textsFor given flag.name = [])
    (hprovided : sources.provided? flag.name = some provided) {items : List Bytes}
    (hlist : flag.value = .list items false) (hitems : Csv.Joinable (providedItems provided)) :
    flag.settled given sources = .ok (.list (providedItems provided) true) := by
  have hmembers := (Csv.members_joined_iff _).mpr hitems
  rw [settled_of_provided htexts hprovided, hlist, FlagValue.textOf, FlagValue.set, hmembers]
  rfl

theorem textsFor_eq_nil_of_settled {given : List (Bytes × Bytes)} {original flag : Flag}
    (h : original.After (Flags.textsFor given original.name) flag) {sources : Sources}
    {fault : ValueFault} (hfault : original.settled given sources = .error fault) :
    Flags.textsFor given original.name = [] := by
  cases htexts : Flags.textsFor given original.name with
  | nil => rfl
  | cons s rest =>
    rw [settled, Origins.settled, origins, htexts, Origins.texts, ← htexts, h.value] at hfault
    cases hfault

end Flag

/-! ## The order of the entries -/

namespace Sources

/-- Whether each name is spelled at most once with capitals, and at most once without. -/
def IsUnambiguous (entries : List (Bytes × Yaml.Value)) : Prop :=
  ∀ a ∈ entries, ∀ b ∈ entries, lower a.1 = lower b.1 →
    (a.1 = lower a.1 ↔ b.1 = lower b.1) → a = b

theorem getLast?_eq_of_perm {α : Type*} {xs ys : List α} (h : xs.Perm ys)
    (hall : ∀ x ∈ xs, ∀ y ∈ xs, x = y) : xs.getLast? = ys.getLast? := by
  cases hx : xs.getLast? with
  | none =>
    rw [List.getLast?_eq_none_iff] at hx
    subst hx
    rw [List.nil_perm.mp h]
    rfl
  | some x =>
    cases hy : ys.getLast? with
    | none =>
      rw [List.getLast?_eq_none_iff] at hy
      subst hy
      rw [List.perm_nil.mp h] at hx
      cases hx
    | some y =>
      exact congrArg some (hall x (List.mem_of_getLast? hx) y (h.mem_iff.mpr
        (List.mem_of_getLast? hy)))

theorem spelled?_eq_of_perm {entries entries' : List (Bytes × Yaml.Value)}
    (h : entries.Perm entries') (hentries : IsUnambiguous entries) (name : Bytes) :
    spelled? entries name = spelled? entries' name := by
  have hspelled := h.filter fun entry => lower entry.1 == name
  simp only [spelled?]
  have hcapitals := hspelled.filter fun entry => entry.1 != name
  rw [← getLast?_eq_of_perm hcapitals fun a ha b hb => ?capitals]
  case capitals =>
    simp only [List.mem_filter, beq_iff_eq, bne_iff_ne] at ha hb
    refine hentries a ha.1.1 b hb.1.1 (ha.1.2.trans hb.1.2.symm) ?_
    rw [ha.1.2, hb.1.2]
    exact iff_of_false ha.2 hb.2
  cases hlast : List.getLast? _ with
  | some found => rfl
  | none =>
    -- Without capitals there is one spelling at most.
    rw [List.getLast?_eq_none_iff, List.filter_eq_nil_iff] at hlast
    rw [Option.none_or, Option.none_or]
    refine getLast?_eq_of_perm hspelled fun a ha b hb => ?_
    have ha' := hlast a ha
    have hb' := hlast b hb
    simp only [List.mem_filter, beq_iff_eq, bne_iff_ne, not_not] at ha hb ha' hb'
    refine hentries a ha.1 b hb.1 (ha.2.trans hb.2.symm) ?_
    rw [ha.2, hb.2]
    exact iff_of_true ha' hb'

theorem fromFile?_eq_of_perm {entries entries' : List (Bytes × Yaml.Value)}
    (h : entries.Perm entries') (hentries : IsUnambiguous entries)
    (environment : List (Bytes × Bytes)) (name : Bytes) :
    fromFile? ⟨environment, entries⟩ name = fromFile? ⟨environment, entries'⟩ name := by
  rw [fromFile?, fromFile?, spelled?_eq_of_perm h hentries]

theorem provided?_eq_of_perm {entries entries' : List (Bytes × Yaml.Value)}
    (h : entries.Perm entries') (hentries : IsUnambiguous entries)
    (environment : List (Bytes × Bytes)) :
    provided? ⟨environment, entries⟩ = provided? ⟨environment, entries'⟩ := by
  funext name
  rw [provided?, provided?, fromFile?_eq_of_perm h hentries environment]
  rfl

end Sources

/-! ## Binding all flags -/

section BindFlags

variable {given : List (Bytes × Bytes)} {sources : Sources} {originals flags : List Flag}

theorem bindFlags_ok
    (h : List.Forall₂ (fun original => original.After (Flags.textsFor given original.name))
      originals flags)
    (hfresh : ∀ original ∈ originals, original.given = false)
    (haccepts : ∀ original ∈ originals, original.Accepts given sources) :
    ∃ bound, bindFlags sources flags = .ok bound ∧
      List.Forall₂ (fun original bound : Flag => bound.name = original.name ∧
        original.settled given sources = .ok bound.value) originals bound := by
  induction h with
  | nil => exact ⟨[], rfl, .nil⟩
  | @cons original flag originals flags hfirst _ ih =>
    have hbinds := Flag.bind_bindsTo hfirst (hfresh original (by simp)) sources
    obtain ⟨value, hvalue⟩ := haccepts original (by simp)
    rw [hvalue] at hbinds
    obtain ⟨bound, hbind, hname, rfl⟩ := hbinds.exists_ok
    obtain ⟨rest, hrest, hheld⟩ :=
      ih (fun x hx => hfresh x (by simp [hx])) fun x hx => haccepts x (by simp [hx])
    refine ⟨bound :: rest, ?_, .cons ⟨hname, hvalue⟩ hheld⟩
    rw [bindFlags, hbind, hrest]
    rfl

theorem after_nil (flags : List Flag) :
    List.Forall₂ (fun flag => flag.After (Flags.textsFor [] flag.name)) flags flags :=
  List.forall₂_same.mpr fun flag _ => Flag.After.refl flag

theorem bindFlags_error
    (h : List.Forall₂ (fun original => original.After (Flags.textsFor given original.name))
      originals flags)
    (hfresh : ∀ original ∈ originals, original.given = false)
    {before : List Flag} {original : Flag}
    (hfirst : FirstNot (Flag.Accepts given sources) originals before original) :
    Flags.textsFor given original.name = [] ∧ ∃ fault reason,
      original.settled given sources = .error fault ∧ fault.message <:+ reason ∧
        bindFlags sources flags = .error ⟨original.name, reason⟩ := by
  obtain ⟨⟨after, rfl⟩, hbefore, hnot⟩ := hfirst
  induction before generalizing flags with
  | nil =>
    -- The first flag is rejected, and those after it are not looked at.
    cases h with
    | @cons _ flag _ rest hhead _ =>
      have hbinds := Flag.bind_bindsTo hhead (hfresh original (by simp)) sources
      cases hsettled : original.settled given sources with
      | ok value => exact absurd ⟨value, hsettled⟩ hnot
      | error fault =>
        rw [hsettled] at hbinds
        obtain ⟨⟨name, reason⟩, hbind, rfl, hreason⟩ := hbinds.exists_error
        refine ⟨Flag.textsFor_eq_nil_of_settled hhead hsettled, fault, reason, rfl, hreason, ?_⟩
        rw [bindFlags, hbind]
  | cons first before ih =>
    cases h with
    | @cons _ flag _ rest hhead htail =>
      have hbinds := Flag.bind_bindsTo hhead (hfresh first (by simp)) sources
      obtain ⟨value, hvalue⟩ := hbefore first (by simp)
      rw [hvalue] at hbinds
      obtain ⟨bound, hbind, -⟩ := hbinds.exists_ok
      obtain ⟨htexts, fault, reason, hsettled, hreason, hrest⟩ :=
        ih htail (fun x hx => hfresh x (List.mem_cons_of_mem _ hx))
          fun x hx => hbefore x (by simp [hx])
      refine ⟨htexts, fault, reason, hsettled, hreason, ?_⟩
      rw [bindFlags, hbind, hrest]
      rfl

end BindFlags

/-! ## The flags of a check -/

theorem insertFlag_perm (flag : Flag) (flags : List Flag) :
    (insertFlag flag flags).Perm (flag :: flags) := by
  induction flags with
  | nil => exact List.Perm.refl _
  | cons first rest ih =>
    rw [insertFlag]
    split_ifs
    · exact List.Perm.refl _
    · exact (ih.cons first).trans (List.Perm.swap flag first rest)

def settingNames : List Bytes :=
  ["constructor-first", "delimiter", "exclude", "ext", "jobs", "verbose"].map utf8

theorem name_helpFlag (command : Command) : (helpFlag command).name = utf8 "help" := rfl

theorem map_name_settingFlags (settings : Settings) :
    (settingFlags settings).map (·.name) = settingNames := rfl

theorem given_settingFlags {settings : Settings} :
    ∀ flag ∈ settingFlags settings, flag.given = false := by
  simp [settingFlags]

theorem nodup_settingNames : (utf8 "help" :: settingNames).Nodup := by
  decide +kernel

namespace Invocation

def checkFlags (call : Invocation) : List Flag := Command.check.flags (.default call.processors)

theorem checkFlags_perm (call : Invocation) :
    call.checkFlags.Perm (helpFlag .check :: settingFlags (.default call.processors)) :=
  insertFlag_perm _ _

theorem map_name_checkFlags_perm (call : Invocation) :
    (call.checkFlags.map (·.name)).Perm (utf8 "help" :: settingNames) :=
  call.checkFlags_perm.map (·.name)

theorem nodup_checkFlags (call : Invocation) : (call.checkFlags.map (·.name)).Nodup :=
  call.map_name_checkFlags_perm.nodup_iff.mpr nodup_settingNames

theorem forall_mem_checkFlags {call : Invocation} {P : Flag → Prop} :
    (∀ flag ∈ call.checkFlags, P flag) ↔
      P (helpFlag .check) ∧ ∀ flag ∈ settingFlags (.default call.processors), P flag := by
  simp only [call.checkFlags_perm.mem_iff, List.forall_mem_cons]

theorem settingFlags_subset (call : Invocation) :
    settingFlags (.default call.processors) ⊆ call.checkFlags :=
  fun _ hflag => call.checkFlags_perm.mem_iff.mpr (List.mem_cons_of_mem _ hflag)

theorem given_checkFlags (call : Invocation) : ∀ flag ∈ call.checkFlags, flag.given = false :=
  forall_mem_checkFlags.mpr ⟨rfl, given_settingFlags⟩

end Invocation

namespace Flags

theorem value?_cons (flag : Flag) (rest : List Flag) (name : Bytes) :
    value? (flag :: rest) name =
      if flag.name = name then some flag.value else value? rest name := by
  by_cases h : flag.name = name <;> simp [value?, h]

theorem value?_eq_none {flags : List Flag} {name : Bytes} (h : name ∉ flags.map (·.name)) :
    value? flags name = none := by
  rw [value?, Option.map_eq_none_iff, List.find?_eq_none]
  intro flag hflag hname
  exact h (List.mem_map.mpr ⟨flag, hflag, by simpa using hname⟩)

theorem exists_value? {P : Flag → Flag → Prop} {originals flags : List Flag}
    (h : List.Forall₂ (fun original flag : Flag => flag.name = original.name ∧ P original flag)
      originals flags)
    (hnames : (originals.map (·.name)).Nodup) {original : Flag} (hmem : original ∈ originals) :
    ∃ flag, value? flags original.name = some flag.value ∧ P original flag := by
  induction h with
  | nil => cases hmem
  | @cons first flag originals flags hfirst _ ih =>
    obtain ⟨hfresh, hrest⟩ := List.nodup_cons.mp hnames
    rcases List.mem_cons.mp hmem with rfl | hmem
    · exact ⟨flag, by rw [value?_cons, if_pos hfirst.1], hfirst.2⟩
    · have hne : flag.name ≠ original.name := by
        rw [hfirst.1]
        exact fun heq => hfresh (List.mem_map.mpr ⟨original, hmem, heq.symm⟩)
      rw [value?_cons, if_neg hne]
      exact ih hrest hmem

end Flags

/-! ## Settings -/

namespace Settings

/-- The settings are the defaults with what the sources of each one make of it. -/
def TakenFrom (defaults : Settings) (given : List (Bytes × Bytes)) (sources : Sources)
    (settings : Settings) : Prop :=
  List.Forall₂ (fun flag held : Flag => held.name = flag.name ∧
    ∃ value, flag.settled given sources = .ok value ∧ held.value = value.asDefault)
    (settingFlags defaults) (settingFlags settings)

theorem settingFlags_ofFlags {P : Flag → FlagValue → Prop} {defaults : Settings} {flags : List Flag}
    (h : ∀ flag ∈ settingFlags defaults, ∃ value, Flags.value? flags flag.name = some value ∧
      flag.value.Like value ∧ P flag value) :
    List.Forall₂ (fun flag held : Flag => held.name = flag.name ∧
      ∃ value, P flag value ∧ held.value = value.asDefault)
      (settingFlags defaults) (settingFlags (ofFlags defaults flags)) := by
  simp only [settingFlags, List.forall_mem_cons] at h
  obtain ⟨⟨_, hfirst, ⟨-, _⟩, hP₁⟩, ⟨_, hdelimiter, ⟨-, _⟩, hP₂⟩, ⟨_, hexclude, ⟨-, _⟩, hP₃⟩,
    ⟨_, hext, ⟨-, _⟩, hP₄⟩, ⟨_, hjobs, ⟨-, _⟩, hP₅⟩, ⟨_, hverbose, ⟨-, _⟩, hP₆⟩, -⟩ := h
  refine .cons ⟨rfl, _, hP₁, ?_⟩ (.cons ⟨rfl, _, hP₂, ?_⟩ (.cons ⟨rfl, _, hP₃, ?_⟩
    (.cons ⟨rfl, _, hP₄, ?_⟩ (.cons ⟨rfl, _, hP₅, ?_⟩ (.cons ⟨rfl, _, hP₆, ?_⟩ .nil)))))
  all_goals
    simp only [ofFlags, FlagValue.asDefault, hfirst, hdelimiter, hexclude, hext, hjobs, hverbose]

theorem takenFrom_ofFlags {defaults : Settings} {given : List (Bytes × Bytes)} {sources : Sources}
    {originals flags : List Flag}
    (h : List.Forall₂ (fun original flag : Flag => flag.name = original.name ∧
      original.settled given sources = .ok flag.value) originals flags)
    (hnames : (originals.map (·.name)).Nodup) (hmem : settingFlags defaults ⊆ originals) :
    TakenFrom defaults given sources (ofFlags defaults flags) := by
  apply settingFlags_ofFlags
  intro original horiginal
  obtain ⟨flag, hvalue, hsettled⟩ := Flags.exists_value? h hnames (hmem horiginal)
  exact ⟨flag.value, hvalue, FlagValue.like_setAll hsettled, hsettled⟩

theorem eq_of_value? {settings others : Settings}
    (h : ∀ name ∈ settingNames,
      Flags.value? (settingFlags settings) name = Flags.value? (settingFlags others) name) :
    settings = others := by
  simp only [settingNames, List.map_cons, List.forall_mem_cons] at h
  obtain ⟨hfirst, hdelimiter, hexclude, hext, hjobs, hverbose, -⟩ := h
  cases settings
  cases others
  cases hfirst
  cases hdelimiter
  cases hexclude
  cases hext
  cases hjobs
  cases hverbose
  rfl

theorem TakenFrom.value?_eq {defaults settings others : Settings}
    {given given' : List (Bytes × Bytes)} {sources sources' : Sources}
    (h : TakenFrom defaults given sources settings)
    (h' : TakenFrom defaults given' sources' others) {flag : Flag}
    (hflag : flag ∈ settingFlags defaults)
    (horigins : flag.origins given sources = flag.origins given' sources') :
    Flags.value? (settingFlags settings) flag.name =
      Flags.value? (settingFlags others) flag.name := by
  have hnames := (List.nodup_cons.mp nodup_settingNames).2
  obtain ⟨held, hheld, value, hvalue, heq⟩ := Flags.exists_value? h hnames hflag
  obtain ⟨held', hheld', value', hvalue', heq'⟩ := Flags.exists_value? h' hnames hflag
  rw [Flag.settled, horigins] at hvalue
  obtain rfl : value = value' := Except.ok.inj (hvalue.symm.trans hvalue')
  rw [hheld, hheld', heq, heq']

theorem TakenFrom.unique {defaults settings others : Settings} {given : List (Bytes × Bytes)}
    {sources : Sources} (h : TakenFrom defaults given sources settings)
    (h' : TakenFrom defaults given sources others) : settings = others := by
  apply eq_of_value?
  rw [← map_name_settingFlags defaults, List.forall_mem_map]
  exact fun flag hflag => h.value?_eq h' hflag rfl

end Settings

/-! ## Calls -/

theorem Dispatch.find_name (command : Command) (h : command ∈ Command.all) (rest : List Bytes) :
    find (command.name :: rest) = .ok ⟨command, rest⟩ := by
  have hname : command.name ≠ utf8 "--" ∧ takesValue command.name = false ∧
      command.name.head? ≠ none ∧ command.name.head? ≠ some 45 ∧
      Command.all.find? (·.name == command.name) = some command := by
    revert command
    decide +kernel
  obtain ⟨hends, htakes, hblank, hdash, hfind⟩ := hname
  have hpositionals : positionals (command.name :: rest) = command.name :: positionals rest := by
    rw [positionals.eq_def]
    simp [hends, htakes, hblank, hdash]
  have hwithout : without command.name (command.name :: rest) = rest := by
    rw [without.eq_def]
    simp [hends, htakes]
  simp only [find, hpositionals, hfind, hwithout]

def Failure.IsLoading : Failure → Prop
  | .configuration _ | .binding _ => True
  | _ => False

namespace Invocation

/-- What a check comes to when texts are given for its flags: it runs with the settings that their
sources make up, unless the configuration file cannot be read or a flag rejects what is provided for
it. Of several such flags the first is reported. -/
structure Settles (call : Invocation) (given : List (Bytes × Bytes)) (operands : List Bytes)
    (outcome : Outcome) : Prop where
  unreadable : ∀ e, call.sources = .error e →
    outcome = .failed (.configuration e)
  accepted : ∀ sources, call.sources = .ok sources →
    (∀ flag ∈ call.checkFlags, flag.Accepts given sources) →
    ∃ settings, Settings.TakenFrom (.default call.processors) given sources settings ∧
      outcome = runCheck call settings operands
  rejected : ∀ sources, call.sources = .ok sources →
    (∃ flag ∈ call.checkFlags, ¬ flag.Accepts given sources) →
    ∃ before flag fault reason, FirstNot (Flag.Accepts given sources) call.checkFlags before flag ∧
      Flags.textsFor given flag.name = [] ∧
      flag.settled given sources = .error fault ∧ fault.message <:+ reason ∧
      outcome = .failed (.binding ⟨flag.name, reason⟩) ∧
      outcome.errors =
        utf8 "Error: invalid value for " ++ flag.name ++ utf8 ": " ++ reason ++ utf8 "\n"

theorem settles_of_giveAll {call : Invocation} {given : List (Bytes × Bytes)} {flags : List Flag}
    (h : Flags.giveAll given call.checkFlags = .ok flags) (operands : List Bytes) :
    call.Settles given operands
      (runBound call (.default call.processors) .check ⟨flags, operands⟩) := by
  have hafter := Flags.giveAll_after call.nodup_checkFlags h
  have hfresh := call.given_checkFlags
  refine ⟨?unreadable, ?accepted, ?rejected⟩
  case unreadable =>
    intro e he
    rw [runBound, he]
  case accepted =>
    intro sources hsources haccepts
    obtain ⟨bound, hbound, hheld⟩ := bindFlags_ok hafter hfresh haccepts
    refine ⟨.ofFlags (.default call.processors) bound, ?_, ?_⟩
    · exact Settings.takenFrom_ofFlags hheld call.nodup_checkFlags call.settingFlags_subset
    · simp only [runBound, hsources, hbound, runCommand]
  case rejected =>
    intro sources hsources hrejects
    obtain ⟨before, flag, hfirst⟩ := exists_firstNot (by simpa using hrejects)
    obtain ⟨htexts, fault, reason, hsettled, hreason, hbound⟩ :=
      bindFlags_error hafter hfresh hfirst
    have houtcome : runBound call (.default call.processors) .check ⟨flags, operands⟩ =
        .failed (.binding ⟨flag.name, reason⟩) := by
      simp only [runBound, hsources, hbound]
    refine ⟨before, flag, fault, reason, hfirst, htexts, hsettled, hreason, houtcome, ?_⟩
    have hwords : utf8 "Error: invalid value for " = utf8 "Error: " ++ utf8 "invalid value for " :=
      rfl
    rw [houtcome, hwords]
    simp only [Outcome.errors, Outcome.failed, Failure.report, Failure.message,
      BindingError.message, List.append_assoc]

theorem outcome_check {call : Invocation} {arguments : List Bytes} {parsed : Flags.Parsed}
    (hfind : Dispatch.find call.arguments = .ok ⟨.check, arguments⟩)
    (hparse : Flags.parse call.checkFlags arguments = .ok parsed)
    (hhelp : Flags.isOn parsed.flags (utf8 "help") = false) :
    call.outcome = runBound call (.default call.processors) .check parsed := by
  obtain ⟨pairs, hpairs⟩ := Flags.parse_gives hparse
  have hnames : utf8 "version" ∉ parsed.flags.map (·.name) := by
    rw [Flags.map_name_of_after (Flags.giveAll_after call.nodup_checkFlags hpairs),
      call.map_name_checkFlags_perm.mem_iff]
    decide +kernel
  have hversion : Flags.isOn parsed.flags (utf8 "version") = false := by
    rw [Flags.isOn, Flags.value?_eq_none hnames]
    rfl
  rw [checkFlags] at hparse
  simp only [outcome, hfind, hparse, hhelp, hversion, if_neg Bool.false_ne_true]

theorem parse_check {call : Invocation} {given : List (Bytes × Bytes)} {flags : List Flag}
    (hnames : ∀ pair ∈ given, pair.1 ∈ settingNames)
    (hgive : Flags.giveAll given call.checkFlags = .ok flags) {operands : List Bytes}
    (hoperands : ∀ operand ∈ operands, Flags.isPositional operand) :
    Flags.parse call.checkFlags (given.map Flags.spelled ++ operands) = .ok ⟨flags, operands⟩ := by
  have hplain : ∀ name ∈ settingNames, Flags.IsPlain name := by decide +kernel
  have hmem : ∀ pair ∈ given, pair.1 ∈ call.checkFlags.map (·.name) := by
    intro pair hpair
    rw [call.map_name_checkFlags_perm.mem_iff]
    exact List.mem_cons_of_mem _ (hnames pair hpair)
  have hplain' : ∀ pair ∈ given, Flags.IsPlain pair.1 :=
    fun pair hpair => hplain _ (hnames pair hpair)
  rw [Flags.parse_spelled call.nodup_checkFlags hplain' hmem hgive,
    Flags.parse_operands flags hoperands]

theorem isOn_help {call : Invocation} {given : List (Bytes × Bytes)} {flags : List Flag}
    (hnames : ∀ pair ∈ given, pair.1 ∈ settingNames)
    (hgive : Flags.giveAll given call.checkFlags = .ok flags) :
    Flags.isOn flags (utf8 "help") = false := by
  have hmem : helpFlag .check ∈ call.checkFlags := call.checkFlags_perm.mem_iff.mpr (by simp)
  have hafter := (Flags.giveAll_after call.nodup_checkFlags hgive).imp
    fun _ _ h => And.intro h.name_eq h
  obtain ⟨flag, hvalue, hflag⟩ := Flags.exists_value? hafter call.nodup_checkFlags hmem
  rw [name_helpFlag] at hvalue hflag
  have htexts : Flags.textsFor given (utf8 "help") = [] := by
    simp only [Flags.textsFor, List.map_eq_nil_iff, List.filter_eq_nil_iff, beq_iff_eq]
    intro pair hpair hname
    exact (List.nodup_cons.mp nodup_settingNames).1 (hname ▸ hnames pair hpair)
  rw [htexts] at hflag
  rw [Flags.isOn, hvalue, hflag.eq_self]
  rfl

theorem settles_check {call : Invocation} {given : List (Bytes × Bytes)} {flags : List Flag}
    (hnames : ∀ pair ∈ given, pair.1 ∈ settingNames)
    (hgive : Flags.giveAll given call.checkFlags = .ok flags) {operands : List Bytes}
    (hoperands : ∀ operand ∈ operands, Flags.isPositional operand) :
    call.Settles given operands
      { call with arguments := utf8 "check" :: (given.map Flags.spelled ++ operands) }.outcome := by
  let spelledCall : Invocation :=
    { call with arguments := utf8 "check" :: (given.map Flags.spelled ++ operands) }
  have hfind : Dispatch.find spelledCall.arguments =
      .ok ⟨.check, given.map Flags.spelled ++ operands⟩ := Dispatch.find_name .check (by decide) _
  have houtcome : spelledCall.outcome = runBound call (.default call.processors) .check
      ⟨flags, operands⟩ :=
    outcome_check hfind (parse_check hnames hgive hoperands) (isOn_help hnames hgive)
  rw [houtcome]
  exact settles_of_giveAll hgive operands

theorem outcome_printConfig (call : Invocation) :
    { call with arguments := [utf8 "print-config"] }.outcome =
      runBound call (.default call.processors) .printConfig ⟨[helpFlag .printConfig], []⟩ := by
  have hfind : Dispatch.find [utf8 "print-config"] = .ok ⟨.printConfig, []⟩ :=
    Dispatch.find_name .printConfig (by decide) []
  rw [outcome]
  simp only [hfind]
  rfl

end Invocation

theorem Settings.not_isLoading_fault? {settings : Settings} {failure : Failure}
    (h : settings.fault? = some failure) : ¬ failure.IsLoading := by
  rw [fault?] at h
  split_ifs at h
  · cases h
    exact id
  · cases h
    exact id
  · obtain ⟨pattern, -, rfl⟩ := Option.map_eq_some_iff.mp h
    exact id

theorem not_isLoading_runCheck {call : Invocation} {settings : Settings} {operands : List Bytes}
    {failure : Failure} (h : (runCheck call settings operands).failure = some failure) :
    ¬ failure.IsLoading := by
  rw [runCheck] at h
  split_ifs at h
  · cases h
    exact id
  · split at h
    case h_1 fault hfault =>
      cases h
      exact Settings.not_isLoading_fault? hfault
    case h_2 =>
      obtain ⟨e, -, rfl⟩ := Option.map_eq_some_iff.mp h
      exact id

/-! ## The order of a call -/

theorem Flag.bind_congr {sources sources' : Sources}
    (h : sources.provided? = sources'.provided?) (flag : Flag) :
    flag.bind sources = flag.bind sources' := by
  rw [bind, bind, h]

theorem bindFlags_congr {sources sources' : Sources} (h : sources.provided? = sources'.provided?)
    (flags : List Flag) : bindFlags sources flags = bindFlags sources' flags := by
  induction flags with
  | nil => rfl
  | cons flag rest ih => rw [bindFlags, bindFlags, Flag.bind_congr h, ih]

theorem loadSources_eq_ok {tree : FileTree} {text : Bytes} {entries : List (Bytes × Yaml.Value)}
    (htext : configurationText? tree = some text) (hread : Yaml.readMap text = .ok entries)
    (order : VisitOrder) (environment : List (Bytes × Bytes)) :
    loadSources order tree environment = .ok ⟨environment, order.visit entries⟩ := by
  rw [configurationText?] at htext
  obtain ⟨name, hname, hcontent⟩ := Option.bind_eq_some_iff.mp htext
  cases hfile : tree.read name with
  | error e =>
    rw [hfile] at hcontent
    cases hcontent
  | ok content =>
    rw [hfile] at hcontent
    cases hcontent
    simp only [loadSources, hname, hfile, hread]

theorem loadSources_cases (tree : FileTree) (environment : List (Bytes × Bytes)) :
    (∃ text entries, configurationText? tree = some text ∧ Yaml.readMap text = .ok entries) ∨
      ∃ result, ∀ order, loadSources order tree environment = result := by
  cases hname : configurationName? tree with
  | none => exact .inr ⟨_, fun order => by rw [loadSources, hname]⟩
  | some name =>
    cases hfile : tree.read name with
    | error e => exact .inr ⟨_, fun order => by simp only [loadSources, hname, hfile]; rfl⟩
    | ok text =>
      cases hread : Yaml.readMap text with
      | error e => exact .inr ⟨_, fun order => by simp only [loadSources, hname, hfile, hread]; rfl⟩
      | ok entries =>
        have htext : configurationText? tree = some text := by
          rw [configurationText?, hname, Option.bind_some, hfile]
          rfl
        exact .inl ⟨text, entries, htext, hread⟩

namespace Invocation

/-- Whether the configuration file, if it can be read, does not say one thing twice. -/
def IsUnambiguous (call : Invocation) : Prop :=
  ∀ text entries, configurationText? call.tree = some text → Yaml.readMap text = .ok entries →
    Sources.IsUnambiguous entries

theorem runBound_order {call : Invocation} (hcall : call.IsUnambiguous) (order : VisitOrder)
    (defaults : Settings) (command : Command) (parsed : Flags.Parsed) :
    runBound { call with order } defaults command parsed =
      runBound call defaults command parsed := by
  rw [runBound, runBound, sources, sources]
  rcases loadSources_cases call.tree call.environment with
    ⟨text, entries, htext, hread⟩ | ⟨result, hresult⟩
  · have hperm := (order.perm entries).trans (call.order.perm entries).symm
    have hentries : Sources.IsUnambiguous (order.visit entries) := by
      have hmem := fun entry => (order.perm entries).mem_iff (a := entry)
      simpa only [Sources.IsUnambiguous, hmem] using hcall text entries htext hread
    have hprovided := Sources.provided?_eq_of_perm hperm hentries call.environment
    simp only [loadSources_eq_ok htext hread, bindFlags_congr hprovided]
    cases bindFlags ⟨call.environment, call.order.visit entries⟩ parsed.flags with
    | error e => rfl
    | ok flags =>
      cases command with
      | printConfig => simp only [runCommand, runPrintConfig, bindFlags_congr hprovided]
      | main | check | completion | help => rfl
  · simp only [hresult]
    cases result with
    | error e => rfl
    | ok sources =>
      simp only
      cases bindFlags sources parsed.flags with
      | error e => rfl
      | ok flags => cases command <;> rfl

theorem outcome_order {call : Invocation} (hcall : call.IsUnambiguous) (order : VisitOrder) :
    { call with order }.outcome = call.outcome := by
  simp only [outcome, runBound_order hcall]

/-- Printing the settings fails where a check of the operands fails for want of settings, and else
prints those that the check runs with. -/
structure PrintsSettings (call : Invocation) (operands : List Bytes) (printed checked : Outcome) :
    Prop where
  fails_iff : printed.failure.isSome ↔ ∃ failure ∈ checked.failure, failure.IsLoading
  prints : printed.failure = none → ∃ sources settings,
    call.sources = .ok sources ∧
      Settings.TakenFrom (.default call.processors) [] sources settings ∧
      printed = { output := settings.print } ∧ checked = runCheck call settings operands ∧
      (settings.IsLegible → ∀ other : Settings, other.IsLegible → printed.output = other.print →
        other = settings)

theorem prints_of_accepts {call : Invocation} {sources : Sources}
    (hsources : call.sources = .ok sources)
    (haccepts : ∀ flag ∈ call.checkFlags, flag.Accepts [] sources) :
    ∃ settings, Settings.TakenFrom (.default call.processors) [] sources settings ∧
      { call with arguments := [utf8 "print-config"] }.outcome = { output := settings.print } := by
  obtain ⟨hhelp, hsettings⟩ := forall_mem_checkFlags.mp haccepts
  have hhelp' : ∀ flag ∈ [helpFlag .printConfig], flag.Accepts [] sources :=
    List.forall_mem_singleton.mpr hhelp
  obtain ⟨_, hbound, -⟩ := bindFlags_ok (after_nil _) (by simp [helpFlag]) hhelp'
  obtain ⟨bound, hbound', hheld⟩ := bindFlags_ok (after_nil _) given_settingFlags hsettings
  refine ⟨.ofFlags (.default call.processors) bound, ?_, ?_⟩
  · exact Settings.takenFrom_ofFlags hheld (List.nodup_cons.mp nodup_settingNames).2 (by simp)
  · rw [outcome_printConfig]
    simp only [runBound, hsources, hbound, runCommand, runPrintConfig, hbound']

theorem failure_of_not_accepts {call : Invocation} {sources : Sources}
    (hsources : call.sources = .ok sources)
    (haccepts : ¬ ∀ flag ∈ call.checkFlags, flag.Accepts [] sources) :
    { call with arguments := [utf8 "print-config"] }.outcome.failure.isSome := by
  rw [outcome_printConfig]
  -- A check binds its flags in the order of their names; printing binds its flag for help first.
  by_cases hhelp : ∀ flag ∈ [helpFlag .printConfig], flag.Accepts [] sources
  · have hsettings : ¬ ∀ flag ∈ settingFlags (.default call.processors), flag.Accepts [] sources :=
      fun h => haccepts (forall_mem_checkFlags.mpr ⟨hhelp (helpFlag .printConfig) (by simp), h⟩)
    obtain ⟨_, hbound, -⟩ := bindFlags_ok (after_nil _) (by simp [helpFlag]) hhelp
    obtain ⟨before, flag, hfirst⟩ := exists_firstNot hsettings
    obtain ⟨-, fault, reason, -, -, herror⟩ :=
      bindFlags_error (after_nil _) given_settingFlags hfirst
    simp [runBound, hsources, hbound, runCommand, runPrintConfig, herror, Outcome.failed]
  · obtain ⟨before, flag, hfirst⟩ := exists_firstNot hhelp
    obtain ⟨-, fault, reason, -, -, herror⟩ :=
      bindFlags_error (after_nil _) (by simp [helpFlag]) hfirst
    simp [runBound, hsources, herror, Outcome.failed]

theorem printsSettings_check {call : Invocation} {operands : List Bytes}
    (hoperands : ∀ operand ∈ operands, Flags.isPositional operand) :
    call.PrintsSettings operands { call with arguments := [utf8 "print-config"] }.outcome
      { call with arguments := utf8 "check" :: operands }.outcome := by
  have hsettles : call.Settles [] operands
      { call with arguments := utf8 "check" :: operands }.outcome :=
    settles_check (by simp) rfl hoperands
  cases hsources : call.sources with
  | error e =>
    have hprinted : { call with arguments := [utf8 "print-config"] }.outcome =
        .failed (.configuration e) := by
      rw [outcome_printConfig, runBound, hsources]
    rw [hprinted, hsettles.unreadable e hsources]
    exact ⟨by simp [Outcome.failed, Failure.IsLoading], fun h => by simp [Outcome.failed] at h⟩
  | ok sources =>
    by_cases haccepts : ∀ flag ∈ call.checkFlags, flag.Accepts [] sources
    · obtain ⟨settings, htaken, hprinted⟩ := prints_of_accepts hsources haccepts
      obtain ⟨settings', htaken', hchecked⟩ := hsettles.accepted sources hsources haccepts
      obtain rfl := htaken.unique htaken'
      rw [hprinted, hchecked]
      have htold : settings.IsLegible → ∀ other : Settings, other.IsLegible →
          settings.print = other.print → other = settings :=
        fun hlegible other hother heq => (Settings.eq_of_print_eq hlegible hother heq).symm
      refine ⟨?_, fun _ => ⟨sources, settings, hsources, htaken, rfl, rfl, htold⟩⟩
      simpa using fun failure hfailure => not_isLoading_runCheck hfailure
    · have hprinted := failure_of_not_accepts hsources haccepts
      obtain ⟨before, flag, fault, reason, -, -, -, -, hchecked, -⟩ :=
        hsettles.rejected sources hsources (by simpa using haccepts)
      rw [hchecked]
      refine ⟨by simp [hprinted, Outcome.failed, Failure.IsLoading], fun h => ?_⟩
      simp [h] at hprinted

/-- A check runs with the settings that the highest source of each one provides, or fails while it
looks for them. A setting with the same sources has the same value, and a list has the items that
are provided if these are joinable. The settings that are printed are those of a check without
flags, and no others are printed like them. The order in which the file is visited does not count,
unless a name in it is spelled in several ways. -/
theorem outcome_settles (call : Invocation) :
    (∀ arguments parsed, Dispatch.find call.arguments = .ok ⟨.check, arguments⟩ →
      Flags.parse call.checkFlags arguments = .ok parsed →
      Flags.isOn parsed.flags (utf8 "help") = false →
      ∃ given, Flags.giveAll given call.checkFlags = .ok parsed.flags ∧
        call.Settles given parsed.arguments call.outcome) ∧
    (∀ given operands flags, (∀ pair ∈ given, pair.1 ∈ settingNames) →
      (∀ operand ∈ operands, Flags.isPositional operand) →
      Flags.giveAll given call.checkFlags = .ok flags →
      call.Settles given operands
        { call with arguments := utf8 "check" :: (given.map Flags.spelled ++ operands) }.outcome) ∧
    (∀ given given' sources sources' settings settings',
      Settings.TakenFrom (.default call.processors) given sources settings →
      Settings.TakenFrom (.default call.processors) given' sources' settings' →
      ∀ flag ∈ settingFlags (.default call.processors),
        flag.origins given sources = flag.origins given' sources' →
        Flags.value? (settingFlags settings) flag.name =
          Flags.value? (settingFlags settings') flag.name) ∧
    (∀ given (sources : Sources) (flag : Flag) items provided, flag.value = .list items false →
      Flags.textsFor given flag.name = [] → sources.provided? flag.name = some provided →
      Csv.Joinable (providedItems provided) →
      flag.settled given sources = .ok (.list (providedItems provided) true)) ∧
    (∀ operands, (∀ operand ∈ operands, Flags.isPositional operand) →
      call.PrintsSettings operands { call with arguments := [utf8 "print-config"] }.outcome
        { call with arguments := utf8 "check" :: operands }.outcome) ∧
    (call.IsUnambiguous → ∀ order, { call with order }.outcome = call.outcome) := by
  refine ⟨?parsed, ?spelled, ?independent, ?items, ?printed, outcome_order⟩
  case parsed =>
    intro arguments parsed hfind hparse hhelp
    obtain ⟨given, hgive⟩ := Flags.parse_gives hparse
    refine ⟨given, hgive, ?_⟩
    rw [outcome_check hfind hparse hhelp]
    exact settles_of_giveAll hgive parsed.arguments
  case spelled =>
    intro given operands flags hnames hoperands hgive
    exact settles_check hnames hgive hoperands
  case independent =>
    intro given given' sources sources' settings settings' h h' flag hflag horigins
    exact h.value?_eq h' hflag horigins
  case items =>
    intro given sources flag items provided hlist htexts hprovided hitems
    exact Flag.settled_of_joinable htexts hprovided hlist hitems
  case printed =>
    intro operands hoperands
    exact printsSettings_check hoperands

theorem eq_ok_of_isOk {ε α : Type*} {x : Except ε α} (h : x.isOk = true) (other : α) :
    x = .ok (x.toOption.getD other) := by
  cases x with
  | ok a => rfl
  | error e => cases h

def layeredCall : Invocation where
  arguments := []
  environment := [(utf8 "CAKESORT_EXCLUDE", []), (utf8 "CAKESORT_EXT", utf8 ".ts"),
    (utf8 "CAKESORT_JOBS", utf8 "2")]
  tree := .ofEntries [(utf8 ".cakesort",
    .file (some (utf8 "jobs: 3\nexclude:\n  - gen/**\nDelimiter: '## '\n")))]
  input := none
  processors := 8

def layeredEntries : List (Bytes × Yaml.Value) :=
  [(utf8 "jobs", .integer 3), (utf8 "exclude", .list [.text (utf8 "gen/**")]),
    (utf8 "Delimiter", .text (utf8 "## "))]

theorem readMap_layeredCall :
    (configurationText? layeredCall.tree).map Yaml.readMap = some (.ok layeredEntries) := by
  decide +kernel

theorem sources_layeredCall :
    layeredCall.sources = .ok ⟨layeredCall.environment, layeredEntries⟩ := by
  obtain ⟨text, htext, hread⟩ := Option.map_eq_some_iff.mp readMap_layeredCall
  exact loadSources_eq_ok htext hread _ _

theorem isUnambiguous_layeredCall : layeredCall.IsUnambiguous := by
  intro text entries htext hread
  have hentries := readMap_layeredCall
  rw [htext, Option.map_some, hread] at hentries
  obtain rfl : entries = layeredEntries := by simpa using hentries
  unfold Sources.IsUnambiguous
  decide +kernel

def layeredGiven : List (Bytes × Bytes) := [(utf8 "ext", utf8 ".js"), (utf8 "ext", utf8 ".mjs")]

def layeredSettings : Settings where
  verbose := false
  constructorFirst := true
  delimiter := utf8 "## "
  extensions := [utf8 ".js", utf8 ".mjs"]
  exclude := [utf8 "gen/**"]
  jobs := 2

def backwards : VisitOrder := ⟨List.reverse, List.reverse_perm⟩

theorem outcome_settles_layered :
    { layeredCall with
      order := backwards
      arguments := [utf8 "check", utf8 "--ext=.js", utf8 "--ext=.mjs", utf8 "src"] }.outcome =
      runCheck layeredCall layeredSettings [utf8 "src"] ∧
    { layeredCall with arguments := [utf8 "print-config"] }.outcome.output =
      utf8 "verbose: false\nconstructor-first: true\ndelimiter: '## '\n" ++
        utf8 "ext:\n  - .ts\nexclude:\n  - gen/**\njobs: 2\n" := by
  have hnames : ∀ pair ∈ layeredGiven, pair.1 ∈ settingNames := by decide +kernel
  have hoperands : ∀ operand ∈ [utf8 "src"], Flags.isPositional operand := by decide +kernel
  obtain ⟨flags, hgive⟩ : ∃ flags, Flags.giveAll layeredGiven layeredCall.checkFlags = .ok flags :=
    ⟨_, rfl⟩
  let spelledCall : Invocation := { layeredCall with
    arguments := [utf8 "check", utf8 "--ext=.js", utf8 "--ext=.mjs", utf8 "src"] }
  have horder := (outcome_settles spelledCall).2.2.2.2.2 isUnambiguous_layeredCall
    backwards
  have hsettles := (outcome_settles layeredCall).2.1 _ _ _ hnames hoperands hgive
  have haccepts : ∀ flag ∈ layeredCall.checkFlags,
      flag.Accepts layeredGiven ⟨layeredCall.environment, layeredEntries⟩ := by
    have hok : ∀ flag ∈ layeredCall.checkFlags,
        (flag.settled layeredGiven ⟨layeredCall.environment, layeredEntries⟩).isOk = true := by
      decide +kernel
    exact fun flag hflag => ⟨_, eq_ok_of_isOk (hok flag hflag) flag.value⟩
  have htaken : Settings.TakenFrom (.default 8) layeredGiven
      ⟨layeredCall.environment, layeredEntries⟩ layeredSettings :=
    .cons ⟨rfl, .switch true, by decide +kernel, rfl⟩ <|
    .cons ⟨rfl, .text (utf8 "## "), by decide +kernel, rfl⟩ <|
    .cons ⟨rfl, .list [utf8 "gen/**"] true, by decide +kernel, rfl⟩ <|
    .cons ⟨rfl, .list [utf8 ".js", utf8 ".mjs"] true, by decide +kernel, rfl⟩ <|
    .cons ⟨rfl, .count 2, by decide +kernel, rfl⟩ <|
    .cons ⟨rfl, .switch false, by decide +kernel, rfl⟩ .nil
  obtain ⟨settings, htaken', houtcome⟩ := hsettles.accepted _ sources_layeredCall haccepts
  rw [← htaken.unique htaken'] at houtcome
  exact ⟨horder.trans houtcome, by decide +kernel⟩

end Invocation

end OrderLint
