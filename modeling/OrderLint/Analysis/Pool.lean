import OrderLint.Analysis

/-!
# The task pool

Files are analyzed by tasks, one for each file. Tasks are started in the order of the files, no more
than `jobs` of them at once. A task reads its file, analyzes it, stores the result at the place of
its file, and then looks whether the run has been called off; the steps of different tasks mix in
any order. A task whose file cannot be read stores the error as the result and ends without looking.
The run may be called off at any moment, for good. From then on an analysis may be cut short, and a
task that looks ends with an error. When all tasks have ended, the pool answers with the stored
results, or with the error if a task ended with one.
-/
namespace OrderLint.Pool

inductive Stored where
  | finished (result : FileResult)
  | interrupted (path : Bytes)
  deriving DecidableEq

inductive Phase where
  | waiting
  | started
  | loaded (content : Bytes)
  -- The task has a result to store; `looks` tells whether it looks for a cancellation after it.
  | holding (result : Stored) (looks : Bool)
  | stored (looks : Bool)
  | ended (canceled : Bool)
  deriving DecidableEq

inductive Action where
  | start
  | load
  | analyze
  | interrupt
  | store
  | finish
  deriving DecidableEq

structure Job where
  options : Options
  tree : FileTree
  files : List Bytes
  jobs : Nat

namespace Phase

def isRunning : Phase → Bool
  | .waiting => false
  | .ended _ => false
  | _ => true

def hasEnded : Phase → Bool
  | .ended _ => true
  | _ => false

/-- One step of the task of the file `path`, in a run that has been called off or not. -/
inductive Step (job : Job) (path : Bytes) (calledOff : Bool) : Phase → Action → Phase → Prop
  | start : Step job path calledOff .waiting .start .started
  | load {content : Bytes} (hread : job.tree.read path = .ok content) :
      Step job path calledOff .started .load (.loaded content)
  | refuse {e : FileError} (hread : job.tree.read path = .error e) :
      Step job path calledOff .started .load
        (.holding (.finished ⟨path, [], some (.unreadable e)⟩) false)
  | analyze {content : Bytes} :
      Step job path calledOff (.loaded content) .analyze
        (.holding (.finished (OrderLint.analyze job.options path content)) true)
  | interrupt {content : Bytes} (hoff : calledOff = true) :
      Step job path calledOff (.loaded content) .interrupt (.holding (.interrupted path) true)
  | store {result : Stored} {looks : Bool} :
      Step job path calledOff (.holding result looks) .store (.stored looks)
  | finish {looks : Bool} :
      Step job path calledOff (.stored looks) .finish (.ended (looks && calledOff))

def written (phase : Phase) (action : Action) (place : Option Stored) : Option Stored :=
  match phase, action with
  | .holding result _, .store => some result
  | _, _ => place

end Phase

structure State where
  -- The phase of the task of each file.
  phases : List Phase
  results : List (Option Stored)
  -- The run has been called off.
  canceled : Bool := false
  deriving DecidableEq

namespace Job

def ofSettings (settings : Settings) (tree : FileTree) (files : List Bytes) : Job :=
  ⟨settings.options, tree, files, settings.jobs.toNatClampNeg⟩

def initial (job : Job) : State :=
  { phases := job.files.map fun _ => .waiting, results := job.files.map fun _ => none }

end Job

namespace State

def running (s : State) : Nat := s.phases.countP Phase.isRunning

/-- What the tasks see: the run has been called off, or a task has ended with an error. -/
def calledOff (s : State) : Bool := s.canceled || s.phases.contains (.ended true)

/-- The task `i` is the next to be started, and there is a place for it. -/
def MayStart (job : Job) (s : State) (i : Nat) : Prop :=
  (∀ k < i, s.phases[k]? ≠ some .waiting) ∧ s.running < job.jobs

def update (s : State) (i : Nat) (before : Phase) (action : Action) (after : Phase) : State :=
  { s with
    phases := s.phases.set i after
    results := s.results.modify i (before.written action) }

def isDone (s : State) : Bool := s.phases.all Phase.hasEnded

def answer (s : State) : Except Canceled (List (Option Stored)) :=
  if s.phases.contains (.ended true) then .error {} else .ok s.results

end State

inductive Event where
  | cancel
  | task (i : Nat) (action : Action)
  deriving DecidableEq

/-- One event in the pool. -/
inductive Step (job : Job) (s : State) : Event → State → Prop
  | cancel : Step job s .cancel { s with canceled := true }
  | task {i : Nat} {path : Bytes} {before after : Phase} {action : Action}
      (hfile : job.files[i]? = some path) (hphase : s.phases[i]? = some before)
      (hstart : action = .start → s.MayStart job i)
      (hstep : before.Step job path s.calledOff action after) :
      Step job s (.task i action) (s.update i before action after)

inductive Run (job : Job) : State → List Event → State → Prop
  | nil (s : State) : Run job s [] s
  | cons {s t u : State} {event : Event} {events : List Event} :
      Step job s event t → Run job t events u → Run job s (event :: events) u

def Answers (job : Job) (events : List Event) (answer : Except Canceled (List (Option Stored))) :
    Prop :=
  ∃ s, Run job job.initial events s ∧ s.isDone = true ∧ s.answer = answer

end OrderLint.Pool
