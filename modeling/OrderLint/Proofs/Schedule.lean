import Mathlib
import OrderLint.Analysis.Pool

/-!
# Every schedule of the task pool

Whatever the order in which the tasks make their steps, a pool that answers with results answers
with those of analyzing the files one by one. The invariant says of each task what it holds or has
stored: the result of its file, or else anything, but then it looks for the cancellation that must
have happened. A pool is never stuck before all tasks have ended, and it makes at most five steps
for each file. It fails exactly when a task that has read its file looks after the cancellation.
-/
namespace OrderLint.Pool

variable {job : Job}

/-! ## One task -/

namespace Phase

def weight : Phase → ℕ
  | .waiting => 5
  | .started => 4
  | .loaded _ => 3
  | .holding _ _ => 2
  | .stored _ => 1
  | .ended _ => 0

/-- A task may hold or have stored `result`: it is that of the file, or the run has been called off
and the task is going to look. -/
def Keeps (job : Job) (path : Bytes) (canceled : Bool) (result : Stored) (looks : Bool) : Prop :=
  looks = (job.tree.read path).isOk ∧
    (result = .finished (analyzeFile job.options job.tree path) ∨ looks = true ∧ canceled = true)

/-- The invariant of the task of the file `path` and of what stands at the place of the file. -/
def Sound (job : Job) (path : Bytes) (canceled : Bool) (place : Option Stored) : Phase → Prop
  | .waiting => place = none
  | .started => place = none
  | .loaded content => place = none ∧ job.tree.read path = .ok content
  | .holding result looks => place = none ∧ Keeps job path canceled result looks
  | .stored looks => ∃ result ∈ place, Keeps job path canceled result looks
  | .ended off => ∃ result ∈ place,
      (result = .finished (analyzeFile job.options job.tree path) ∨ off = true) ∧
        (off = true → canceled = true)

variable {path : Bytes} {off : Bool} {before after : Phase} {action : Action}
  {place : Option Stored}

theorem Step.weight_lt (h : before.Step job path off action after) :
    after.weight < before.weight := by
  cases h <;> simp [weight]

theorem Step.eq_finish_of_ended {b : Bool} (h : before.Step job path off action (.ended b)) :
    action = .finish := by
  cases h
  rfl

theorem Step.before_ne_ended (h : before.Step job path off action after) (b : Bool) :
    before ≠ .ended b := by
  cases h <;> simp

theorem Step.action_eq_start (h : before.Step job path off action after) :
    action = .start ↔ before = .waiting := by
  cases h <;> simp

theorem exists_step (job : Job) (path : Bytes) (off : Bool) {phase : Phase}
    (h : phase.hasEnded = false) : ∃ action after, phase.Step job path off action after := by
  cases phase with
  | waiting => exact ⟨_, _, .start⟩
  | started =>
    cases hread : job.tree.read path with
    | error e => exact ⟨_, _, .refuse hread⟩
    | ok content => exact ⟨_, _, .load hread⟩
  | loaded content => exact ⟨_, _, .analyze⟩
  | holding result looks => exact ⟨_, _, .store⟩
  | stored looks => exact ⟨_, _, .finish⟩
  | ended b => simp [hasEnded] at h

theorem Keeps.of_canceled {result : Stored} {looks canceled canceled' : Bool}
    (h : Keeps job path canceled result looks) (hc : canceled = true → canceled' = true) :
    Keeps job path canceled' result looks :=
  ⟨h.1, h.2.imp_right fun hlate => ⟨hlate.1, hc hlate.2⟩⟩

theorem Sound.of_canceled {phase : Phase} {canceled canceled' : Bool}
    (h : phase.Sound job path canceled place) (hc : canceled = true → canceled' = true) :
    phase.Sound job path canceled' place := by
  cases phase with
  | waiting => exact h
  | started => exact h
  | loaded content => exact h
  | holding result looks => exact ⟨h.1, h.2.of_canceled hc⟩
  | stored looks =>
    obtain ⟨result, hresult, hkeeps⟩ := h
    exact ⟨result, hresult, hkeeps.of_canceled hc⟩
  | ended b =>
    obtain ⟨result, hresult, hown, hoff⟩ := h
    exact ⟨result, hresult, hown, fun hb => hc (hoff hb)⟩

theorem Sound.step (h : before.Sound job path off place)
    (hstep : before.Step job path off action after) :
    after.Sound job path off (before.written action place) := by
  cases hstep with
  | start => exact h
  | load hread => exact ⟨h, hread⟩
  | refuse hread =>
    refine ⟨h, ?_, .inl ?_⟩
    · simp [hread, Except.isOk, Except.toBool]
    · simp [analyzeFile, hread]
  | @analyze content =>
    obtain ⟨hplace, hread⟩ := h
    refine ⟨hplace, ?_, .inl ?_⟩
    · simp [hread, Except.isOk, Except.toBool]
    · simp [analyzeFile, hread]
  | @interrupt content hoff =>
    obtain ⟨hplace, hread⟩ := h
    refine ⟨hplace, ?_, .inr ⟨rfl, hoff⟩⟩
    simp [hread, Except.isOk, Except.toBool]
  | @store result looks => exact ⟨result, rfl, h.2⟩
  | @finish looks =>
    obtain ⟨result, hresult, hlooks, hkeeps⟩ := h
    refine ⟨result, hresult, ?_, ?_⟩
    · rcases hkeeps with hkeeps | ⟨hlook, hoff⟩
      · exact .inl hkeeps
      · exact .inr (by simp [hlook, hoff])
    · intro hended
      simp only [Bool.and_eq_true] at hended
      exact hended.2

end Phase

/-! ## The pool -/

namespace State

variable {s t : State} {i : ℕ} {before after : Phase} {action : Action}

/-- Every task keeps its invariant. -/
structure Sound (job : Job) (s : State) : Prop where
  phases_length : s.phases.length = job.files.length
  results_length : s.results.length = job.files.length
  tasks : ∀ (i : ℕ) (path : Bytes), job.files[i]? = some path →
    ∃ (phase : Phase) (place : Option Stored), s.phases[i]? = some phase ∧
      s.results[i]? = some place ∧ phase.Sound job path s.canceled place

theorem getElem?_phases_update (hi : s.phases[i]? = some before) (k : ℕ) :
    (s.update i before action after).phases[k]? = if i = k then some after else s.phases[k]? := by
  obtain ⟨hlt, -⟩ := List.getElem?_eq_some_iff.mp hi
  simp [update, List.getElem?_set, hlt]

theorem mem_phases_update (hi : s.phases[i]? = some before) {phase : Phase}
    (hne : before ≠ phase) :
    phase ∈ (s.update i before action after).phases ↔ phase = after ∨ phase ∈ s.phases := by
  simp only [List.mem_iff_getElem?, getElem?_phases_update hi]
  constructor
  · rintro ⟨k, hk⟩
    split_ifs at hk with hik
    · exact .inl (Option.some.inj hk).symm
    · exact .inr ⟨k, hk⟩
  · rintro (rfl | ⟨k, hk⟩)
    · exact ⟨i, by simp⟩
    · have hik : i ≠ k := by
        rintro rfl
        exact hne (Option.some.inj (hi.symm.trans hk))
      exact ⟨k, by simp [hik, hk]⟩

theorem Sound.exists_file (h : s.Sound job) {i : ℕ} {phase : Phase}
    (hphase : s.phases[i]? = some phase) : ∃ path, job.files[i]? = some path := by
  obtain ⟨hlt, -⟩ := List.getElem?_eq_some_iff.mp hphase
  rw [h.phases_length] at hlt
  exact ⟨_, List.getElem?_eq_getElem hlt⟩

theorem Sound.task (h : s.Sound job) {path : Bytes} {phase : Phase}
    (hfile : job.files[i]? = some path) (hphase : s.phases[i]? = some phase) :
    ∃ place, s.results[i]? = some place ∧ phase.Sound job path s.canceled place := by
  obtain ⟨other, place, hother, hplace, hsound⟩ := h.tasks i path hfile
  obtain rfl : phase = other := Option.some.inj (hphase.symm.trans hother)
  exact ⟨place, hplace, hsound⟩

theorem Sound.exists_ended (h : s.Sound job) (hdone : s.isDone = true) {path : Bytes}
    (hfile : job.files[i]? = some path) : ∃ b, s.phases[i]? = some (.ended b) := by
  obtain ⟨phase, place, hphase, -, -⟩ := h.tasks i path hfile
  have hend : phase.hasEnded = true :=
    List.all_eq_true.mp hdone phase (List.mem_of_getElem? hphase)
  cases phase with
  | ended b => exact ⟨b, hphase⟩
  | _ => simp [Phase.hasEnded] at hend

theorem Sound.calledOff_eq (h : s.Sound job) : s.calledOff = s.canceled := by
  cases hc : s.canceled with
  | true => simp [calledOff, hc]
  | false =>
    simp only [calledOff, hc, Bool.false_or, List.contains_eq_mem, decide_eq_false_iff_not]
    intro hmem
    obtain ⟨i, hi⟩ := List.mem_iff_getElem?.mp hmem
    obtain ⟨path, hpath⟩ := h.exists_file hi
    obtain ⟨place, -, result, -, -, himp⟩ := h.task hpath hi
    simp [hc] at himp

theorem Sound.ended_true_iff (h : s.Sound job) {path : Bytes} (hfile : job.files[i]? = some path)
    (hphase : s.phases[i]? = some before)
    (hstep : before.Step job path s.calledOff action after) :
    after = .ended true ↔
      s.canceled = true ∧ action = .finish ∧ (job.tree.read path).isOk = true := by
  obtain ⟨place, -, hsound⟩ := h.task hfile hphase
  rw [h.calledOff_eq] at hstep
  cases hstep with
  | @finish looks =>
    obtain ⟨result, -, hlooks, -⟩ := hsound
    simp [← hlooks, and_comm]
  | _ => simp

theorem sound_initial (job : Job) : job.initial.Sound job where
  phases_length := by simp [Job.initial]
  results_length := by simp [Job.initial]
  tasks i path hpath := by
    refine ⟨.waiting, none, ?_, ?_, rfl⟩ <;>
    · rw [Job.initial, List.getElem?_map, hpath]
      rfl

theorem Sound.step (h : s.Sound job) {event : Event} (hstep : Step job s event t) :
    t.Sound job := by
  cases hstep with
  | cancel =>
    refine ⟨h.phases_length, h.results_length, ?_⟩
    intro i path hpath
    obtain ⟨phase, place, hphase, hplace, hsound⟩ := h.tasks i path hpath
    exact ⟨phase, place, hphase, hplace, hsound.of_canceled fun _ => rfl⟩
  | @task i path before after action hfile hphase hstart hstep =>
    rw [h.calledOff_eq] at hstep
    refine ⟨by simp [update, h.phases_length], by simp [update, h.results_length], ?_⟩
    intro k other hother
    by_cases hik : i = k
    · subst hik
      obtain rfl : path = other := Option.some.inj (hfile.symm.trans hother)
      obtain ⟨place, hplace, hsound⟩ := h.task hfile hphase
      refine ⟨after, before.written action place, ?_, ?_, hsound.step hstep⟩
      · simp [getElem?_phases_update hphase]
      · simp [update, hplace]
    · obtain ⟨phase, place, hk, hplace, hsound⟩ := h.tasks k other hother
      refine ⟨phase, place, ?_, ?_, hsound⟩
      · simp [getElem?_phases_update hphase, hik, hk]
      · simp [update, hik, hplace]

theorem Sound.run (h : s.Sound job) {events : List Event} (hrun : Run job s events t) :
    t.Sound job := by
  induction hrun with
  | nil => exact h
  | cons hstep _ ih => exact ih (h.step hstep)

def remaining (s : State) : ℕ := (s.phases.map Phase.weight).sum

theorem remaining_initial (job : Job) : job.initial.remaining = 5 * job.files.length := by
  simp [remaining, Job.initial, Phase.weight, Nat.mul_comm]

theorem sum_weight_set {phases : List Phase} (hi : phases[i]? = some before) (after : Phase) :
    ((phases.set i after).map Phase.weight).sum + before.weight =
      (phases.map Phase.weight).sum + after.weight := by
  induction phases generalizing i with
  | nil => simp at hi
  | cons phase rest ih =>
    cases i with
    | zero =>
      obtain rfl : phase = before := by simpa using hi
      simp only [List.set_cons_zero, List.map_cons, List.sum_cons]
      omega
    | succ i =>
      have hrest := ih (i := i) (by simpa using hi)
      simp only [List.set_cons_succ, List.map_cons, List.sum_cons]
      omega

theorem remaining_update_lt {path : Bytes} {off : Bool} (hi : s.phases[i]? = some before)
    (hstep : before.Step job path off action after) :
    (s.update i before action after).remaining < s.remaining := by
  have hsum := sum_weight_set hi after
  have hlt := hstep.weight_lt
  simp only [remaining, update]
  omega

theorem exists_of_not_isDone (h : s.isDone = false) :
    ∃ (i : ℕ) (phase : Phase), s.phases[i]? = some phase ∧ phase.hasEnded = false := by
  simp only [isDone, List.all_eq_false, Bool.not_eq_true] at h
  obtain ⟨phase, hmem, hended⟩ := h
  obtain ⟨i, hi⟩ := List.mem_iff_getElem?.mp hmem
  exact ⟨i, phase, hi, hended⟩

theorem Sound.exists_step (h : s.Sound job) (hjobs : 1 ≤ job.jobs) (hdone : s.isDone = false) :
    ∃ event t, event ≠ .cancel ∧ Step job s event t := by
  have htask : ∀ i phase, s.phases[i]? = some phase → phase.hasEnded = false →
      (phase = .waiting → s.MayStart job i) → ∃ event t, event ≠ .cancel ∧ Step job s event t := by
    intro i phase hi hended hstart
    obtain ⟨path, hpath⟩ := h.exists_file hi
    obtain ⟨action, after, hstep⟩ := Phase.exists_step job path s.calledOff hended
    exact ⟨.task i action, _, by simp,
      .task hpath hi (fun ha => hstart (hstep.action_eq_start.mp ha)) hstep⟩
  by_cases hrunning : ∃ phase ∈ s.phases, phase.isRunning = true
  · obtain ⟨phase, hmem, hrun⟩ := hrunning
    obtain ⟨i, hi⟩ := List.mem_iff_getElem?.mp hmem
    cases phase with
    | waiting => simp [Phase.isRunning] at hrun
    | ended b => simp [Phase.isRunning] at hrun
    | _ => exact htask i _ hi rfl (by simp)
  · -- No task holds a place, so the first one that waits may be started.
    obtain ⟨i, phase, hi, hended⟩ := exists_of_not_isDone hdone
    have hwaiting : ∃ k : ℕ, s.phases[k]? = some Phase.waiting := by
      refine ⟨i, ?_⟩
      have hnot : phase.isRunning ≠ true :=
        fun hrun => hrunning ⟨phase, List.mem_of_getElem? hi, hrun⟩
      cases phase <;> simp_all [Phase.isRunning, Phase.hasEnded]
    have hzero : s.running = 0 := by
      simp only [running, List.countP_eq_zero]
      exact fun phase hmem hrun => hrunning ⟨phase, hmem, hrun⟩
    refine htask (Nat.find hwaiting) .waiting (Nat.find_spec hwaiting) rfl fun _ => ⟨?_, ?_⟩
    · exact fun k hk => Nat.find_min hwaiting hk
    · omega

/-- From every state that a pool can be in, the tasks can be brought to their end. -/
theorem Sound.exists_run (h : s.Sound job) (hjobs : 1 ≤ job.jobs) :
    ∃ events t, .cancel ∉ events ∧ Run job s events t ∧ t.isDone = true := by
  induction hn : s.remaining using Nat.strong_induction_on generalizing s with
  | _ n ih =>
    cases hdone : s.isDone with
    | true => exact ⟨[], s, by simp, .nil s, hdone⟩
    | false =>
      obtain ⟨event, t, hevent, hstep⟩ := h.exists_step hjobs hdone
      have hlt : t.remaining < n := by
        cases hstep with
        | cancel => exact absurd rfl hevent
        | task hfile hphase hstart hstep => exact hn ▸ remaining_update_lt hphase hstep
      obtain ⟨events, u, hevents, hrun, hu⟩ := ih t.remaining hlt (h.step hstep) rfl
      refine ⟨event :: events, u, ?_, .cons hstep hrun, hu⟩
      simpa [List.mem_cons, hevents] using Ne.symm hevent

end State

/-! ## A whole run -/

/-- A task that has read its file looks after the run has been called off, which it is from the
beginning when `off` holds. -/
def LooksLate (job : Job) (off : Bool) (events : List Event) : Prop :=
  ∃ before i path after, events = before ++ .task i .finish :: after ∧
    (off = true ∨ .cancel ∈ before) ∧ job.files[i]? = some path ∧
      (job.tree.read path).isOk = true

theorem not_looksLate_nil (job : Job) (off : Bool) : ¬ LooksLate job off [] := by
  rintro ⟨before, i, path, after, h, -⟩
  simp at h

theorem looksLate_cons (job : Job) (off : Bool) (event : Event) (events : List Event) :
    LooksLate job off (event :: events) ↔
      off = true ∧ (∃ i path, event = .task i .finish ∧ job.files[i]? = some path ∧
        (job.tree.read path).isOk = true) ∨ LooksLate job (off || event == .cancel) events := by
  constructor
  · rintro ⟨before, i, path, after, he, hoff, hfile, hread⟩
    cases before with
    | nil =>
      simp only [List.nil_append, List.cons.injEq] at he
      exact .inl ⟨by simpa using hoff, i, path, he.1, hfile, hread⟩
    | cons first before =>
      simp only [List.cons_append, List.cons.injEq] at he
      refine .inr ⟨before, i, path, after, he.2, ?_, hfile, hread⟩
      rcases hoff with hoff | hoff
      · exact .inl (by simp [hoff])
      · rcases List.mem_cons.mp hoff with rfl | hoff
        · exact .inl (by simp [he.1])
        · exact .inr hoff
  · rintro (⟨hoff, i, path, rfl, hfile, hread⟩ | ⟨before, i, path, after, rfl, hoff, hfile, hread⟩)
    · exact ⟨[], i, path, events, rfl, .inl hoff, hfile, hread⟩
    · refine ⟨event :: before, i, path, after, rfl, ?_, hfile, hread⟩
      simp only [Bool.or_eq_true, beq_iff_eq, or_assoc] at hoff
      rcases hoff with hoff | rfl | hoff
      · exact .inl hoff
      · exact .inr (by simp)
      · exact .inr (List.mem_cons_of_mem _ hoff)

namespace Run

variable {s t : State} {events : List Event}

theorem length_le (hrun : Run job s events t) :
    (events.filter (· ≠ .cancel)).length + t.remaining ≤ s.remaining := by
  induction hrun with
  | nil => simp
  | @cons s t u event events hstep hrun ih =>
    cases hstep with
    | cancel =>
      rw [List.filter_cons_of_neg (by simp)]
      exact ih
    | task hfile hphase hstart hstep =>
      have hlt := State.remaining_update_lt hphase hstep
      rw [List.filter_cons_of_pos (by simp), List.length_cons]
      omega

/-- A run comes to a task that ended with an error exactly by a task that looks late. -/
theorem ended_true_mem_iff (h : s.Sound job) (hrun : Run job s events t) :
    .ended true ∈ t.phases ↔ .ended true ∈ s.phases ∨ LooksLate job s.canceled events := by
  induction hrun with
  | nil => simp [not_looksLate_nil]
  | @cons s t u event events hstep hrun ih =>
    rw [ih (h.step hstep), looksLate_cons]
    cases hstep with
    | cancel => simp
    | @task i path before after action hfile hphase hstart hstep =>
      have hoff : (s.canceled || Event.task i action == .cancel) = s.canceled := by simp
      have hself : .ended true = after ↔ s.canceled = true ∧ ∃ k file,
          Event.task i action = .task k .finish ∧ job.files[k]? = some file ∧
            (job.tree.read file).isOk = true := by
        rw [eq_comm, h.ended_true_iff hfile hphase hstep]
        refine and_congr_right fun _ => ⟨?_, ?_⟩
        · rintro ⟨rfl, hread⟩
          exact ⟨i, path, rfl, hfile, hread⟩
        · rintro ⟨k, file, hevent, hk, hread⟩
          obtain ⟨rfl, rfl⟩ : i = k ∧ action = .finish := by simpa using hevent
          obtain rfl : path = file := Option.some.inj (hfile.symm.trans hk)
          exact ⟨rfl, hread⟩
      rw [State.mem_phases_update hphase (hstep.before_ne_ended true), hoff, hself, or_assoc,
        or_left_comm]
      rfl

theorem finish_mem (hrun : Run job s events t) {i : ℕ} {b : Bool}
    (hi : t.phases[i]? = some (.ended b)) :
    (∃ b, s.phases[i]? = some (.ended b)) ∨ .task i .finish ∈ events := by
  induction hrun with
  | nil => exact .inl ⟨b, hi⟩
  | @cons s t u event events hstep hrun ih =>
    rcases ih hi with ⟨c, hc⟩ | hmem
    · cases hstep with
      | cancel => exact .inl ⟨c, hc⟩
      | @task k path before after action hfile hphase hstart hstep =>
        rw [State.getElem?_phases_update hphase] at hc
        split_ifs at hc with hki
        · subst hki
          obtain rfl := Option.some.inj hc
          obtain rfl := hstep.eq_finish_of_ended
          exact .inr (by simp)
        · exact .inl ⟨c, hc⟩
    · exact .inr (List.mem_cons_of_mem _ hmem)

end Run

namespace Job

def sequential (job : Job) : List (Option Stored) :=
  job.files.map fun path => some (.finished (analyzeFile job.options job.tree path))

end Job

theorem State.Sound.results_eq {s : State} (h : s.Sound job) (hdone : s.isDone = true)
    (hended : .ended true ∉ s.phases) : s.results = job.sequential := by
  apply List.ext_getElem?
  intro i
  rw [Job.sequential, List.getElem?_map]
  cases hpath : job.files[i]? with
  | none =>
    rw [List.getElem?_eq_none_iff] at hpath
    simpa [h.results_length] using hpath
  | some path =>
    obtain ⟨off, hphase⟩ := h.exists_ended hdone hpath
    obtain ⟨place, hplace, result, hresult, hown, -⟩ := h.task hpath hphase
    have hoff : off ≠ true := by
      rintro rfl
      exact hended (List.mem_of_getElem? hphase)
    obtain rfl : place = some result := hresult
    rw [hplace, Option.map_some, hown.resolve_right hoff]

namespace Run

variable {s : State} {events : List Event}

theorem ended_true_mem_iff_looksLate (hrun : Run job job.initial events s) :
    .ended true ∈ s.phases ↔ LooksLate job false events := by
  have hinitial : .ended true ∉ job.initial.phases := by simp [Job.initial]
  exact (hrun.ended_true_mem_iff (State.sound_initial job)).trans (or_iff_right hinitial)

theorem answer_eq_error_iff (hrun : Run job job.initial events s) :
    s.answer = .error {} ↔ LooksLate job false events := by
  rw [← hrun.ended_true_mem_iff_looksLate, State.answer]
  by_cases h : .ended true ∈ s.phases <;> simp [h]

theorem answer_of_not_looksLate (hrun : Run job job.initial events s) (hdone : s.isDone = true)
    (h : ¬ LooksLate job false events) : s.answer = .ok job.sequential := by
  have hsound := (State.sound_initial job).run hrun
  have hended : .ended true ∉ s.phases := mt hrun.ended_true_mem_iff_looksLate.mp h
  rw [State.answer, if_neg (by simpa using hended), hsound.results_eq hdone hended]

theorem not_looksLate_of_cancel_notMem (h : .cancel ∉ events) : ¬ LooksLate job false events := by
  rintro ⟨before, i, path, after, rfl, hoff, -⟩
  simp at hoff
  simp [hoff] at h

theorem looksLate_of_cancel_first (hrun : Run job job.initial (.cancel :: events) s)
    (hdone : s.isDone = true) :
    LooksLate job false (.cancel :: events) ↔
      ∃ path ∈ job.files, (job.tree.read path).isOk = true := by
  constructor
  · rintro ⟨-, i, path, -, -, -, hfile, hread⟩
    exact ⟨path, List.mem_of_getElem? hfile, hread⟩
  · rintro ⟨path, hmem, hread⟩
    obtain ⟨i, hfile⟩ := List.mem_iff_getElem?.mp hmem
    obtain ⟨b, hphase⟩ := ((State.sound_initial job).run hrun).exists_ended hdone hfile
    rcases hrun.finish_mem hphase with ⟨c, hc⟩ | hfinish
    · have hwaiting := List.mem_of_getElem? hc
      simp [Job.initial] at hwaiting
    · have hfinish : .task i .finish ∈ events := by simpa using hfinish
      obtain ⟨before, after, rfl⟩ := List.append_of_mem hfinish
      exact ⟨.cancel :: before, i, path, after, rfl, .inr (by simp), hfile, hread⟩

end Run

theorem one_le_jobs_ofSettings {settings : Settings} (hjobs : 1 ≤ settings.jobs) (tree : FileTree)
    (files : List Bytes) : 1 ≤ (Job.ofSettings settings tree files).jobs := by
  have hle : 1 ≤ settings.jobs.toInt := Int64.le_iff_toInt_le.mp hjobs
  simp only [Job.ofSettings, Int64.toNatClampNeg]
  omega

theorem Answers.eq_sequential {events : List Event}
    {answer : Except Canceled (List (Option Stored))} (h : Answers job events answer)
    (hcancel : .cancel ∉ events) : answer = .ok job.sequential := by
  obtain ⟨s, hrun, hdone, rfl⟩ := h
  exact hrun.answer_of_not_looksLate hdone (Run.not_looksLate_of_cancel_notMem hcancel)

theorem exists_answers (hjobs : 1 ≤ job.jobs) :
    ∃ events, .cancel ∉ events ∧ Answers job events (.ok job.sequential) := by
  obtain ⟨events, s, hcancel, hrun, hdone⟩ := (State.sound_initial job).exists_run hjobs
  have hanswers : Answers job events s.answer := ⟨s, hrun, hdone, rfl⟩
  exact ⟨events, hcancel, hanswers.eq_sequential hcancel ▸ hanswers⟩

/-- Under every schedule: the pool is stuck only when all tasks have ended, after at most five steps
for each file, and can always be brought there. It then answers with what the files give one by one,
or fails because a task that has read its file looked after the cancellation. Without a cancellation
it does not fail; called off beforehand, it fails when there is a file that can be read. -/
theorem run_answers (settings : Settings) (tree : FileTree) (files : List Bytes)
    (hjobs : 1 ≤ settings.jobs) {events : List Event} {s : State}
    (hrun : Run (.ofSettings settings tree files) (Job.ofSettings settings tree files).initial
      events s) :
    (events.filter (· ≠ .cancel)).length ≤ 5 * files.length ∧
      (s.isDone = true ∨ ∃ event t, event ≠ .cancel ∧
        Step (.ofSettings settings tree files) s event t) ∧
      (∃ more t, .cancel ∉ more ∧ Run (.ofSettings settings tree files) s more t ∧
        t.isDone = true) ∧
      (s.isDone = true →
        (s.answer = .error {} ∨ s.answer =
          .ok (files.map fun path => some (.finished (analyzeFile settings.options tree path)))) ∧
        (s.answer = .error {} ↔ LooksLate (.ofSettings settings tree files) false events) ∧
        (.cancel ∉ events → s.answer = (analyzeFiles settings tree false files).map
          (List.map fun result => some (.finished result))) ∧
        (events.head? = some .cancel → s.answer = (analyzeFiles settings tree true files).map
          (List.map fun result => some (.finished result)))) := by
  have hplaces := one_le_jobs_ofSettings hjobs tree files
  have hsound := (State.sound_initial _).run hrun
  refine ⟨?_, ?_, hsound.exists_run hplaces, ?_⟩
  · have hle := hrun.length_le
    rw [State.remaining_initial] at hle
    exact (Nat.le_add_right _ _).trans hle
  · cases hdone : s.isDone with
    | true => exact .inl rfl
    | false => exact .inr (hsound.exists_step hplaces hdone)
  · intro hdone
    have hok := hrun.answer_of_not_looksLate hdone
    refine ⟨?_, hrun.answer_eq_error_iff, ?_, ?_⟩
    · by_cases hlate : LooksLate (.ofSettings settings tree files) false events
      · exact .inl (hrun.answer_eq_error_iff.mpr hlate)
      · exact .inr (hok hlate)
    · intro hcancel
      rw [hok (Run.not_looksLate_of_cancel_notMem hcancel)]
      simp [analyzeFiles, Except.map, Job.sequential, Job.ofSettings]
    · intro hfirst
      obtain ⟨rest, rfl⟩ : ∃ rest, events = .cancel :: rest := by
        cases events with
        | nil => simp at hfirst
        | cons event rest => exact ⟨rest, by simpa using hfirst⟩
      by_cases hread : ∃ path ∈ files, (tree.read path).isOk = true
      · rw [hrun.answer_eq_error_iff.mpr ((hrun.looksLate_of_cancel_first hdone).mpr hread)]
        simp [analyzeFiles, hread, Except.map]
      · rw [hok (mt (hrun.looksLate_of_cancel_first hdone).mp hread)]
        simp [analyzeFiles, hread, Except.map, Job.sequential, Job.ofSettings]

def oneFile : FileTree := .ofEntries [(utf8 "a.js", .file (some []))]

def twoJobs : Settings := { Settings.default 2 with exclude := [] }

def twoFiles : Job := .ofSettings twoJobs oneFile [utf8 "a.js", utf8 "b.js"]

-- The second file is not there, and its task overtakes the first one, whose analysis is cut short.
def cutShort : List Event :=
  [.task 0 .start, .task 0 .load, .task 1 .start, .cancel, .task 1 .load, .task 1 .store,
    .task 0 .interrupt, .task 0 .store, .task 1 .finish, .task 0 .finish]

theorem run_cutShort : ∃ s, Run twoFiles twoFiles.initial cutShort s ∧ s.isDone = true := by
  have hthere : oneFile.read (utf8 "a.js") = .ok [] := by rfl
  have hmissing : oneFile.read (utf8 "b.js") = .error ⟨.opening, utf8 "b.js", .missing⟩ := by rfl
  refine ⟨_, .cons (.task rfl rfl (fun _ => ?_) .start) <|
    .cons (.task rfl rfl nofun (.load hthere)) <|
    .cons (.task rfl rfl (fun _ => ?_) .start) <| .cons .cancel <|
    .cons (.task rfl rfl nofun (.refuse hmissing)) <| .cons (.task rfl rfl nofun .store) <|
    .cons (.task rfl rfl nofun (.interrupt rfl)) <| .cons (.task rfl rfl nofun .store) <|
    .cons (.task rfl rfl nofun .finish) <| .cons (.task rfl rfl nofun .finish) (.nil _), ?_⟩
  · exact ⟨by decide, by decide⟩
  · exact ⟨by decide, by decide⟩
  · rfl

theorem answer_cutShort : 1 ≤ twoJobs.jobs ∧
    ∃ s, Run twoFiles twoFiles.initial cutShort s ∧ s.isDone = true ∧ s.answer = .error {} := by
  have hjobs : 1 ≤ twoJobs.jobs := by decide
  obtain ⟨s, hrun, hdone⟩ := run_cutShort
  refine ⟨hjobs, s, hrun, hdone, ?_⟩
  have h := run_answers twoJobs oneFile [utf8 "a.js", utf8 "b.js"] hjobs hrun
  exact (h.2.2.2 hdone).2.1.mpr ⟨cutShort.dropLast, 0, _, [], rfl, .inr (by decide), rfl, rfl⟩

end OrderLint.Pool
