import OrderLint.Proofs.Numerals
import OrderLint.Proofs.Precedence

/-!
# Loading printed settings

Printed settings name each setting once, so a check that finds them in the configuration file hands
every flag what was printed for it. A switch, a number and a text read it back; a list is handed its
items joined with commas, and reads them back only if they can be told apart again. So printed
settings load as themselves exactly when both of their lists are joinable.
-/
namespace OrderLint

namespace FlagValue

def printed : FlagValue → Yaml.Value
  | .switch on => .truth on
  | .count n => .integer n.toInt
  | .text s => .text s
  | .list items _ => .list (items.map .text)

def ReadsBack : FlagValue → Prop
  | .list items _ => Csv.Joinable items
  | _ => True

theorem textOf_printed_list (items : List Bytes) (replaced replaced' : Bool) (items' : List Bytes) :
    (list items' replaced').textOf (list items replaced).printed = Bytes.joined [44] items := by
  simp [textOf, printed, providedItems, Function.comp_def, Yaml.Value.scalarText]

theorem readTruth?_printed (on : Bool) : readTruth? (Yaml.Value.truth on).scalarText = some on := by
  cases on <;> decide +kernel

theorem set_printed_iff {value default : FlagValue} (hlike : default.Like value)
    (hvalue : value.asDefault = value) (hdefault : default.asDefault = default) :
    (∃ result, default.set (default.textOf value.printed) = .ok result ∧
      value = result.asDefault) ↔ value.ReadsBack := by
  cases hlike with
  | switch d on =>
    simp [set, textOf, printed, readTruth?_printed, asDefault, ReadsBack]
  | count d n =>
    have hread := Numeral.readSigned_decimal n
    rw [decimal] at hread
    simp [set, textOf, printed, Yaml.Value.scalarText, hread, asDefault, ReadsBack]
  | text d s => simp [set, textOf, printed, Yaml.Value.scalarText, asDefault, ReadsBack]
  | list d items replaced replaced' =>
    -- A default is replaced, so the items are those of the record and no others.
    obtain rfl : replaced = false := by simpa [asDefault] using hdefault.symm
    obtain rfl : replaced' = false := by simpa [asDefault] using hvalue.symm
    rw [textOf_printed_list, set, ReadsBack, ← Csv.members_joined_iff]
    cases Csv.members (Bytes.joined [44] items) with
    | error e => simp
    | ok added => simp [asDefault, eq_comm]

end FlagValue

theorem isUnambiguous_entries (settings : Settings) : Sources.IsUnambiguous settings.entries := by
  have hnames : (settings.entries.map fun entry => lower entry.1).Nodup := by
    have hnodup : ((utf8 "verbose" :: utf8 "constructor-first" :: [utf8 "delimiter", utf8 "ext",
        utf8 "exclude", utf8 "jobs"]).map lower).Nodup := by decide +kernel
    exact hnodup
  intro a ha b hb heq _
  exact List.inj_on_of_nodup_map hnames ha hb heq

theorem fromFile?_entries {settings : Settings} {entries : List (Bytes × Yaml.Value)}
    (hentries : settings.entries.Perm entries) (environment : List (Bytes × Bytes)) :
    ∀ flag ∈ settingFlags settings,
      Sources.fromFile? ⟨environment, entries⟩ flag.name = some flag.value.printed := by
  intro flag hflag
  rw [← Sources.fromFile?_eq_of_perm hentries (isUnambiguous_entries settings)]
  revert flag
  simp only [settingFlags, List.forall_mem_cons]
  refine ⟨?_, ?_, ?_, ?_, ?_, ?_, by simp⟩
  all_goals rfl

theorem Sources.fromEnvironment?_eq_none {sources : Sources}
    (h : ∀ entry ∈ sources.environment, entry.1.startsWith variableStem = false) (name : Bytes) :
    sources.fromEnvironment? name = none := by
  have hstem : (variableName name).startsWith variableStem = true :=
    List.isPrefixOf_iff_prefix.mpr ⟨_, rfl⟩
  have hlookup : sources.environment.lookup (variableName name) = none := by
    rw [List.lookup_eq_none_iff]
    intro entry hentry
    rw [bne_iff_ne]
    intro hname
    rw [hname, h entry hentry] at hstem
    cases hstem
  rw [fromEnvironment?, hlookup]
  rfl

theorem settingFlags_like (settings others : Settings) :
    List.Forall₂ (fun flag other : Flag => other.name = flag.name ∧ flag.value.Like other.value ∧
      flag.value.asDefault = flag.value ∧ other.value.asDefault = other.value)
      (settingFlags settings) (settingFlags others) := by
  refine .cons ⟨rfl, .switch _ _, rfl, rfl⟩ (.cons ⟨rfl, .text _ _, rfl, rfl⟩
    (.cons ⟨rfl, .list _ _ _ _, rfl, rfl⟩ (.cons ⟨rfl, .list _ _ _ _, rfl, rfl⟩
    (.cons ⟨rfl, .count _ _, rfl, rfl⟩ (.cons ⟨rfl, .switch _ _, rfl, rfl⟩ .nil)))))

theorem forall₂_iff_of_forall₂ {α β : Type*} {R S : α → β → Prop} {Q : β → Prop} {xs : List α}
    {ys : List β} (h : List.Forall₂ S xs ys) (hiff : ∀ x, ∀ y ∈ ys, S x y → (R x y ↔ Q y)) :
    List.Forall₂ R xs ys ↔ ∀ y ∈ ys, Q y := by
  induction h with
  | nil => simp
  | @cons x y xs ys hfirst _ ih =>
    rw [List.forall₂_cons, List.forall_mem_cons, hiff x y (by simp) hfirst,
      ih fun x y hy => hiff x y (by simp [hy])]

namespace Settings

theorem takenFrom_entries_iff {environment : List (Bytes × Bytes)}
    (henvironment : ∀ entry ∈ environment, entry.1.startsWith Sources.variableStem = false)
    {settings : Settings} {entries : List (Bytes × Yaml.Value)}
    (hentries : settings.entries.Perm entries) (defaults : Settings) :
    TakenFrom defaults [] ⟨environment, entries⟩ settings ↔
      Csv.Joinable settings.extensions ∧ Csv.Joinable settings.exclude := by
  have hreadsBack : (∀ held ∈ settingFlags settings, held.value.ReadsBack) ↔
      Csv.Joinable settings.extensions ∧ Csv.Joinable settings.exclude := by
    simp [settingFlags, FlagValue.ReadsBack, and_comm]
  rw [← hreadsBack]
  refine forall₂_iff_of_forall₂ (settingFlags_like defaults settings) ?_
  rintro flag held hheld ⟨hname, hlike, hdefault, hvalue⟩
  have hsettled : flag.settled [] ⟨environment, entries⟩ =
      flag.value.set (flag.value.textOf held.value.printed) := by
    have hentry := fromFile?_entries hentries environment held hheld
    rw [hname] at hentry
    have hvariable : Sources.fromEnvironment? ⟨environment, entries⟩ flag.name = none :=
      Sources.fromEnvironment?_eq_none henvironment flag.name
    exact Flag.settled_of_provided rfl (by rw [Sources.provided?, hvariable, hentry])
  rw [hsettled, ← FlagValue.set_printed_iff hlike hvalue hdefault]
  exact and_iff_right hname

end Settings

namespace Invocation

/-- Binding the flags of a check, none of which is given, leaves these settings. -/
def Loads (call : Invocation) (settings : Settings) : Prop :=
  ∃ sources flags, call.sources = .ok sources ∧
    bindFlags sources call.checkFlags = .ok flags ∧
    Settings.ofFlags (.default call.processors) flags = settings

theorem loads_iff {call : Invocation} {sources : Sources}
    (hsources : call.sources = .ok sources) (settings : Settings) :
    call.Loads settings ↔ (∀ flag ∈ call.checkFlags, flag.Accepts [] sources) ∧
      Settings.TakenFrom (.default call.processors) [] sources settings := by
  have hfresh := call.given_checkFlags
  constructor
  · rintro ⟨sources', flags, hsources', hbind, rfl⟩
    obtain rfl : sources = sources' := Except.ok.inj (hsources.symm.trans hsources')
    have haccepts : ∀ flag ∈ call.checkFlags, flag.Accepts [] sources := by
      by_contra hnot
      obtain ⟨before, flag, hfirst⟩ := exists_firstNot hnot
      obtain ⟨-, fault, reason, -, -, herror⟩ := bindFlags_error (after_nil _) hfresh hfirst
      rw [hbind] at herror
      cases herror
    obtain ⟨bound, hbound, hheld⟩ := bindFlags_ok (after_nil _) hfresh haccepts
    obtain rfl : flags = bound := Except.ok.inj (hbind.symm.trans hbound)
    have htaken := Settings.takenFrom_ofFlags hheld call.nodup_checkFlags call.settingFlags_subset
    exact ⟨haccepts, htaken⟩
  · rintro ⟨haccepts, htaken⟩
    obtain ⟨bound, hbound, hheld⟩ := bindFlags_ok (after_nil _) hfresh haccepts
    have htaken' := Settings.takenFrom_ofFlags hheld call.nodup_checkFlags call.settingFlags_subset
    exact ⟨sources, bound, hsources, hbound, htaken'.unique htaken⟩

theorem accepts_of_takenFrom {call : Invocation} {settings : Settings}
    {entries : List (Bytes × Yaml.Value)}
    (henvironment : ∀ entry ∈ call.environment, entry.1.startsWith Sources.variableStem = false)
    (hentries : settings.entries.Perm entries)
    (h : Settings.TakenFrom (.default call.processors) [] ⟨call.environment, entries⟩ settings) :
    ∀ flag ∈ call.checkFlags, flag.Accepts [] ⟨call.environment, entries⟩ := by
  refine forall_mem_checkFlags.mpr ⟨⟨.switch false, ?_⟩, ?_⟩
  · have hvariable : Sources.fromEnvironment? ⟨call.environment, entries⟩ (utf8 "help") = none :=
      Sources.fromEnvironment?_eq_none henvironment _
    have hentry : Sources.fromFile? ⟨call.environment, entries⟩ (utf8 "help") = none := by
      rw [← Sources.fromFile?_eq_of_perm hentries (isUnambiguous_entries settings)]
      rfl
    rw [Flag.settled, Flag.origins, name_helpFlag, hvariable, hentry]
    rfl
  · intro flag hflag
    have hnames := (List.nodup_cons.mp nodup_settingNames).2
    obtain ⟨held, -, value, hvalue, -⟩ := Flags.exists_value? h hnames hflag
    exact ⟨value, hvalue⟩

theorem loads_print_iff {call : Invocation} {settings : Settings}
    (htext : configurationText? call.tree = some settings.print)
    (hread : Yaml.readMap settings.print = .ok settings.entries)
    (henvironment : ∀ entry ∈ call.environment, entry.1.startsWith Sources.variableStem = false) :
    call.Loads settings ↔ Csv.Joinable settings.extensions ∧ Csv.Joinable settings.exclude := by
  have hentries := (call.order.perm settings.entries).symm
  rw [loads_iff (loadSources_eq_ok htext hread call.order call.environment),
    ← Settings.takenFrom_entries_iff henvironment hentries (.default call.processors)]
  exact and_iff_right_of_imp (accepts_of_takenFrom henvironment hentries)

theorem outcome_of_loads {call : Invocation} {settings : Settings} (h : call.Loads settings)
    {operands : List Bytes} (hoperands : ∀ operand ∈ operands, Flags.isPositional operand) :
    { call with arguments := utf8 "check" :: operands }.outcome = runCheck call settings operands ∧
      { call with arguments := [utf8 "print-config"] }.outcome = { output := settings.print } := by
  obtain ⟨sources, _, hsources, -⟩ := id h
  obtain ⟨haccepts, htaken⟩ := (loads_iff hsources settings).mp h
  have hsettles : call.Settles [] operands
      { call with arguments := utf8 "check" :: operands }.outcome :=
    settles_check (by simp) rfl hoperands
  obtain ⟨checked, hchecked, houtcome⟩ := hsettles.accepted sources hsources haccepts
  obtain ⟨printed, hprinted, houtcome'⟩ := prints_of_accepts hsources haccepts
  rw [houtcome, houtcome', hchecked.unique htaken, hprinted.unique htaken]
  exact ⟨rfl, rfl⟩

/-- Printed settings that are found in the configuration file load as themselves exactly when both
of their lists are joinable; they are then the settings of a check, and are printed again. -/
theorem loads_print (call : Invocation) (settings : Settings)
    (htext : configurationText? call.tree = some settings.print)
    (hread : Yaml.readMap settings.print = .ok settings.entries)
    (henvironment : ∀ entry ∈ call.environment, entry.1.startsWith Sources.variableStem = false) :
    (call.Loads settings ↔
      Csv.Joinable settings.extensions ∧ Csv.Joinable settings.exclude) ∧
    (Csv.Joinable settings.extensions → Csv.Joinable settings.exclude →
      ∀ operands, (∀ operand ∈ operands, Flags.isPositional operand) →
        { call with arguments := utf8 "check" :: operands }.outcome =
          runCheck call settings operands ∧
        { call with arguments := [utf8 "print-config"] }.outcome =
          { output := settings.print }) := by
  have hloads := loads_print_iff htext hread henvironment
  refine ⟨hloads, fun hextensions hexclude operands hoperands => ?_⟩
  exact outcome_of_loads (hloads.mpr ⟨hextensions, hexclude⟩) hoperands

end Invocation

/-! ## Settings that load as themselves, and settings that do not -/

namespace Invocation

def reloading (settings : Settings) : Invocation where
  arguments := []
  environment := []
  tree := .ofEntries [(utf8 ".cakesort", .file (some settings.print))]
  input := none
  processors := 4

def quotedSettings : Settings where
  verbose := true
  constructorFirst := false
  delimiter := utf8 "'# "
  extensions := [utf8 ".js", [], utf8 "null"]
  exclude := [utf8 "**/a b/*", utf8 "- x: y"]
  jobs := -3

theorem readMap_quotedSettings : Yaml.readMap quotedSettings.print = .ok quotedSettings.entries := by
  decide +kernel

theorem joinable_quotedSettings :
    Csv.Joinable quotedSettings.extensions ∧ Csv.Joinable quotedSettings.exclude :=
  ⟨⟨by decide +kernel, by decide +kernel, by decide +kernel, by decide +kernel, by decide +kernel⟩,
    ⟨by decide +kernel, by decide +kernel, by decide +kernel, by decide +kernel, by decide +kernel⟩⟩

theorem loads_print_quotedSettings :
    (reloading quotedSettings).Loads quotedSettings ∧
      { reloading quotedSettings with arguments := [utf8 "print-config"] }.outcome =
        { output := quotedSettings.print } := by
  obtain ⟨hloads, houtcome⟩ := loads_print (reloading quotedSettings) quotedSettings rfl
    readMap_quotedSettings (by simp [reloading])
  obtain ⟨hextensions, hexclude⟩ := joinable_quotedSettings
  exact ⟨hloads.mpr ⟨hextensions, hexclude⟩, (houtcome hextensions hexclude [] (by simp)).2⟩

def bracedSettings : Settings where
  verbose := false
  constructorFirst := true
  delimiter := utf8 " -- "
  extensions := [utf8 ".js"]
  exclude := [utf8 "**/*.\x7bjs,ts\x7d"]
  jobs := 2

theorem readMap_bracedSettings : Yaml.readMap bracedSettings.print = .ok bracedSettings.entries := by
  decide +kernel

theorem not_loads_bracedSettings :
    configurationText? (reloading bracedSettings).tree = some bracedSettings.print ∧
      (reloading bracedSettings).environment = [] ∧
      Yaml.readMap bracedSettings.print = .ok bracedSettings.entries ∧
      ¬ (reloading bracedSettings).Loads bracedSettings ∧
      { reloading bracedSettings with arguments := [utf8 "print-config"] }.outcome.output =
        { bracedSettings with exclude := [utf8 "**/*.\x7bjs", utf8 "ts\x7d"] }.print := by
  refine ⟨rfl, rfl, readMap_bracedSettings, ?_, by decide +kernel⟩
  intro hloads
  have hjoinable := (loads_print_iff rfl readMap_bracedSettings (by simp [reloading])).mp hloads
  exact hjoinable.2.comma (utf8 "**/*.\x7bjs,ts\x7d") (by decide +kernel) (by decide +kernel)

end Invocation

end OrderLint
