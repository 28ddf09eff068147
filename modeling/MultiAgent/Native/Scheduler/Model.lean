import MultiAgent.Foundations.Machine
import MultiAgent.Native.Graph
import Mathlib.Data.Finset.Card

/-!
# The scheduler as an event-driven machine

`scheduler.ts`. The body of the loop runs without interruption from one of its
two openings to the next: an open call of `execute` inside the launch loop, and
the `await` of the wake-up. A state of the machine is therefore either inside a
call, waiting, or ended, and an event is what the surroundings do there:

* `ret` and `throwSync` end the open call of `execute`;
* `resolve` settles the promise of an execution in flight;
* `abort` is `stop()` or the external signal, while the run is active;
* `tick` runs the next microtask.

Settled promises and the resolved wake-up queue microtasks in order, as the
host does. `executed`, `unsettled` and `jobs` belong to the host; the other
fields are the local variables of `Scheduler.run`.
-/

namespace MultiAgent.Native

/-- How the promise of one execution settles. -/
inductive Settlement where
  | fulfilled (outcome : TaskOutcome)
  | rejected (message : String)
  deriving DecidableEq, Repr

/-- The outcome that the `then` handlers of `start` pass to `settle`. -/
def Settlement.outcome (task : Task) : Settlement → TaskOutcome
  | .fulfilled outcome => outcome
  | .rejected message =>
    { taskId := task.id, status := .failed, text := none, error := some message
      durationMs := 0, raw := none }

structure SchedulerReport where
  /-- In insertion order; a missing outcome is JavaScript's `undefined`. -/
  results : List (String × Option TaskOutcome)
  order : List String
  ok : Bool
  stopped : Bool
  deriving DecidableEq, Repr

/-- A constructed scheduler; `none` is the infinite default. -/
structure Scheduler where
  concurrency : Option Nat
  positive : ∀ limit ∈ concurrency, 1 ≤ limit

namespace Scheduler

theorem positive_none : ∀ limit ∈ (none : Option Nat), 1 ≤ limit := by simp

theorem positive_toNat {q : ℚ} (whole : q.den = 1 ∧ 1 ≤ q.num) :
    ∀ limit ∈ some q.num.toNat, 1 ≤ limit := by
  intro limit given
  cases given
  omega

/-- The constructor: a concurrency that is given must be an integer `>= 1`. -/
def new : Option JsNumber → Except TypeError Scheduler
  | none => .ok ⟨none, positive_none⟩
  | some (.finite q) =>
    if h : q.den = 1 ∧ 1 ≤ q.num then .ok ⟨some q.num.toNat, positive_toNat h⟩
    else .error ⟨"concurrency must be an integer >= 1"⟩
  | some _ => .error ⟨"concurrency must be an integer >= 1"⟩

inductive Control where
  /-- The synchronous part of the loop body. -/
  | looping
  /-- `execute(task)` has been called and has not returned; the rest of the
  ready list is still to be looked at. -/
  | calling (task : Task) (rest : List Task)
  | waiting
  | returned (report : SchedulerReport)
  /-- The throw of the stall check. -/
  | stalled (message : String)
  /-- The exception of a call of `execute`. -/
  | threw (message : String)
  deriving DecidableEq, Repr

inductive Job where
  | settle (task : Task) (settlement : Settlement)
  | resume
  deriving DecidableEq, Repr

structure RunState where
  status : TaskGraph.Statuses
  outcomes : String → Option TaskOutcome
  order : List String
  running : Finset String
  busyAgents : Finset String
  /-- `controller.signal.aborted` -/
  aborted : Bool
  stopped : Bool
  /-- The current `wake` belongs to an unresolved promise. -/
  awaiting : Bool
  control : Control
  /-- The ids handed to `execute`, in order. -/
  executed : List String
  /-- The executions whose promise has not settled. -/
  unsettled : List Task
  /-- The microtask queue. -/
  jobs : List Job

/-- `wake?.()`: only a promise that is still unresolved queues the loop. -/
def wake (s : RunState) : RunState :=
  if s.awaiting then { s with awaiting := false, jobs := s.jobs ++ [.resume] } else s

/-- Release the slot and the agent of a task. -/
def release (s : RunState) (task : Task) : RunState :=
  { s with running := s.running.erase task.id
           busyAgents := s.busyAgents.erase task.agentId }

def settle (s : RunState) (task : Task) (outcome : TaskOutcome) : RunState :=
  if s.status task.id ≠ .running then wake (release s task)
  else
    wake (release
      { s with status := Function.update s.status task.id outcome.status.toTaskStatus
               outcomes := Function.update s.outcomes task.id (some outcome)
               order := s.order ++ [task.id] } task)

/-- `start`, up to the call of `execute`. -/
def start (s : RunState) (task : Task) (rest : List Task) : RunState :=
  { s with status := Function.update (Function.update s.status task.id .ready) task.id .running
           running := insert task.id s.running
           busyAgents := insert task.agentId s.busyAgents
           executed := s.executed ++ [task.id]
           control := .calling task rest }

def cancelBlocked (s : RunState) (task : Task) (reason : String) : RunState :=
  { s with status := Function.update s.status task.id .cancelled
           outcomes := Function.update s.outcomes task.id (some
             { taskId := task.id, status := .cancelled, text := none, error := some reason
               durationMs := 0, raw := none })
           order := s.order ++ [task.id] }

/-- `stoppedNow()`, whose answer is the new value of `stopped`. -/
def stoppedNow (s : RunState) : RunState := { s with stopped := s.stopped || s.aborted }

/-- A dependency that ended without completing. -/
def failedDep (g : TaskGraph) (status : TaskGraph.Statuses) (dep : String) : Bool :=
  g.has dep && isTerminalStatus (status dep) && decide (status dep ≠ .completed)

/-- Step 1 of the loop body for one task. -/
def cascadeTask (g : TaskGraph) (s : RunState) (task : Task) : RunState :=
  if s.status task.id ≠ .pending then s
  else
    match task.dependsOn.find? (failedDep g s.status) with
    | none => s
    | some dep =>
      let depStatus := (s.status dep).text
      cancelBlocked s task s!"dependency '{dep}' {depStatus}"

/-- Step 1: one pass over the tasks in insertion order. -/
def cascade (g : TaskGraph) (s : RunState) : RunState := g.tasks.foldl (cascadeTask g) s

/-- Step 5 for one task. -/
def teardownTask (s : RunState) (task : Task) : RunState :=
  if isTerminalStatus (s.status task.id) then s
  else
    let wasRunning := s.status task.id = .running
    let t := cancelBlocked s task "cancelled (run stopped)"
    { t with running := t.running.erase task.id
             busyAgents := if wasRunning then t.busyAgents.erase task.agentId
                           else t.busyAgents }

/-- Step 5: cooperative teardown of everything that is not terminal. -/
def teardown (g : TaskGraph) (s : RunState) : RunState := g.tasks.foldl teardownTask s

def report (g : TaskGraph) (s : RunState) : SchedulerReport :=
  { results := g.tasks.map fun task => (task.id, s.outcomes task.id)
    order := s.order
    ok := g.tasks.all fun task =>
      match s.outcomes task.id with
      | some outcome => decide (outcome.status = .completed)
      | none => false
    stopped := s.stopped || s.aborted }

/-- Leave the loop by `break` and build the report. -/
def leave (g : TaskGraph) (s : RunState) : RunState :=
  let t := if s.stopped then teardown g s else s
  { t with control := .returned (report g t) }

def stallMessage (g : TaskGraph) (s : RunState) : String :=
  let stuck := ", ".intercalate
    ((g.tasks.filter fun task => !isTerminalStatus (s.status task.id)).map Task.id)
  s!"scheduler stalled on non-terminal tasks: {stuck}"

/-- Steps 3 and 4: the termination and stall checks, then the wait. -/
def conclude (g : TaskGraph) (s : RunState) : RunState :=
  if s.running = ∅ then
    if g.isComplete s.status then leave g s
    else
      let t := stoppedNow s
      if t.stopped then leave g t else { t with control := .stalled (stallMessage g t) }
  else
    let t := stoppedNow s
    if t.stopped then leave g t else { t with awaiting := true, control := .waiting }

/-- `running.size >= concurrency` -/
def atCapacity (sch : Scheduler) (s : RunState) : Bool :=
  match sch.concurrency with
  | none => false
  | some limit => decide (limit ≤ s.running.card)

/-- Step 2 from here on: look for the next task to start in what is left of the
ready list. -/
def launch (sch : Scheduler) (g : TaskGraph) : List Task → RunState → RunState
  | [], s => conclude g s
  | task :: rest, s =>
    if sch.atCapacity s then conclude g s
    else if task.agentId ∈ s.busyAgents then launch sch g rest s
    else start s task rest

/-- One pass of the loop body, up to its first opening. -/
def iterate (sch : Scheduler) (g : TaskGraph) (s : RunState) : RunState :=
  let t := stoppedNow (cascade g s)
  if t.stopped then conclude g t else launch sch g (g.ready t.status) t

inductive Event where
  | ret (settled : Option Settlement)
  | throwSync (message : String)
  | resolve (id : String) (settlement : Settlement)
  | abort
  | tick
  deriving DecidableEq, Repr

/-- `controller.abort()` on the first call. -/
def abort (s : RunState) : RunState := wake { s with aborted := true }

def RunState.active (s : RunState) : Bool :=
  match s.control with
  | .looping | .calling .. | .waiting => true
  | .returned _ | .stalled _ | .threw _ => false

/-- The promise that `execute` returned: pending, or settled already, in which
case attaching the handlers queues them at once. -/
def attach (s : RunState) (task : Task) : Option Settlement → RunState
  | none => { s with unsettled := task :: s.unsettled, control := .looping }
  | some settlement =>
    { s with jobs := s.jobs ++ [.settle task settlement], control := .looping }

def step (sch : Scheduler) (g : TaskGraph) (s : RunState) : Event → Option RunState
  | .ret settled =>
    match s.control with
    | .calling task rest => some (launch sch g rest (attach s task settled))
    | _ => none
  | .throwSync message =>
    match s.control with
    | .calling _ _ => some { s with control := .threw message }
    | _ => none
  | .resolve id settlement =>
    match s.unsettled.find? fun task => task.id = id with
    | some task =>
      some { s with unsettled := s.unsettled.erase task
                    jobs := s.jobs ++ [.settle task settlement] }
    | none => none
  | .abort => if s.active && !s.aborted then some (abort s) else none
  | .tick =>
    match s.control, s.jobs with
    | .calling _ _, _ => none
    | _, [] => none
    | _, .settle task settlement :: rest =>
      some (settle { s with jobs := rest } task (settlement.outcome task))
    | _, .resume :: rest => some (iterate sch g { s with jobs := rest, control := .looping })

def machine (sch : Scheduler) (g : TaskGraph) : Machine RunState Event := ⟨step sch g⟩

inductive RunError where
  | alreadyRunning
  | invalid (error : GraphError)
  | reused (message : String)
  deriving DecidableEq, Repr

/-- The local variables of a run before its first pass. -/
def initial (status : TaskGraph.Statuses) (signalAborted : Bool) : RunState :=
  { status, outcomes := fun _ => none, order := [], running := ∅, busyAgents := ∅
    aborted := signalAborted, stopped := false, awaiting := false, control := .looping
    executed := [], unsettled := [], jobs := [] }

/-- The non-pending tasks of a graph that was scheduled before. -/
def reuseMessage (g : TaskGraph) (status : TaskGraph.Statuses) : Option String :=
  let nonPending := g.tasks.filter fun task => decide (status task.id ≠ .pending)
  if nonPending = [] then none
  else
    let details := ", ".intercalate
      (nonPending.map fun task => task.id ++ "=" ++ (status task.id).text)
    some s!"TaskGraph cannot be reused after scheduling; non-pending tasks: {details}"

/-- `run(graph, signal)` up to its first opening. `current` is the active run of
the instance, if there is one. -/
def run (sch : Scheduler) (current : Option RunState) (g : TaskGraph)
    (status : TaskGraph.Statuses) (signalAborted : Bool) : Except RunError RunState :=
  if current.isSome then .error .alreadyRunning
  else
    match g.validate with
    | .error error => .error (.invalid error)
    | .ok () =>
      match reuseMessage g status with
      | some message => .error (.reused message)
      | none => .ok (iterate sch g (initial status signalAborted))

/-- `stop()`: `this.#current?.abort()`. -/
def stop (current : Option RunState) : Option RunState :=
  current.map fun s => if s.active && !s.aborted then abort s else s

/-- The state `s` is reached by the events `es` in a run that was accepted. -/
def Reaches (sch : Scheduler) (g : TaskGraph) (status : TaskGraph.Statuses)
    (signalAborted : Bool) (es : List Event) (s : RunState) : Prop :=
  ∃ s₀, sch.run none g status signalAborted = .ok s₀ ∧ (sch.machine g).run s₀ es = some s

end Scheduler

end MultiAgent.Native
