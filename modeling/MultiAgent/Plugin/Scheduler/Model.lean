import MultiAgent.Foundations.Dict
import MultiAgent.Foundations.Machine
import MultiAgent.Foundations.Programs
import MultiAgent.Plugin.Task
import Mathlib.Algebra.Order.Field.Rat

/-!
# The plan scheduler as a machine

`runtime/scheduler.py`. One turn of the loop of `_run` consists of two events: a
`pass` skips what is blocked and launches what is ready, and a `wake` is the
return of `wait` with the futures it reports as done. Everything the scheduler
asks of its surroundings within an event (clock readings, the answers of
`submit`, the results of the futures, the exceptions of the callback) is part of
the event, so a statement about all runs is one about all their behaviours.

A task is submitted at most once, so its id stands for its future. Cancellation
tokens only reach `run_task`, whose behaviour is free here; `Scheduler.Tokens` adds them.
-/

namespace MultiAgent.Plugin

/-- Exceptions, told apart as the scheduler tells them apart. -/
inductive PyException where
  | runTimeout (text : String)
  | budgetExceeded (text : String)
  /-- The `TaskError` of the deadlock check. -/
  | deadlock
  | taskError (text : String)
  /-- The `CancelledError` of a cancellation token. -/
  | cancelled (reason : String)
  /-- Any other `Exception`. -/
  | other (text : String)
  /-- Any other `BaseException`. -/
  | base (text : String)
  deriving DecidableEq, Repr

/-- `str(exc)` -/
def PyException.text : PyException → String
  | .deadlock => "scheduler deadlock: unresolvable tasks remain"
  | .runTimeout text | .budgetExceeded text | .taskError text | .cancelled text | .other text
  | .base text => text

/-- `execute_run` catches it. -/
def PyException.isCaught : PyException → Bool
  | .runTimeout _ | .budgetExceeded _ | .deadlock | .taskError _ => true
  | .cancelled _ | .other _ | .base _ => false

/-- What `run_task` returned, as `_result_from_output` reads it. -/
inductive Output (α : Type) where
  | result (result : TaskResult α)
  /-- A dict with the key "error": its text, and whether the value is a string. -/
  | error (text : String) (isText : Bool)
  | value (output : α)
  deriving DecidableEq, Repr

/-- How a future ended. -/
inductive Completion (α : Type) where
  | returned (output : Output α)
  | raised (exception : PyException)
  deriving DecidableEq, Repr

/-- The answer of `submit`; `started` is the clock reading of `_Running`. -/
inductive Submission where
  | accepted (started : ℚ)
  | saturated
  | failed (text : String)
  deriving DecidableEq, Repr

/-- `_Running` -/
structure Running where
  task : Task
  deadline : Option ℚ
  started : ℚ
  deriving DecidableEq, Repr

structure RunResult (α : Type) where
  status : String
  results : Dict String (TaskResult α)
  reason : Option String

structure TaskScheduler where
  maxConcurrency : Option Int
  defaultTimeout : Option ℚ
  deadline : Option ℚ

namespace TaskScheduler

variable {α : Type}

inductive Control (α : Type) where
  | looping
  /-- Inside `wait`. -/
  | waiting
  | returned (results : Dict String (TaskResult α))
  /-- `_run` raised; `last` is what `_last_results` holds. -/
  | raised (exception : PyException) (last : Dict String (TaskResult α))

structure RunState (α : Type) where
  /-- The attribute `status` of the tasks. -/
  status : String → TaskStatus
  pending : List Task
  running : List Running
  results : Dict String (TaskResult α)
  /-- The calls of `on_event`. -/
  events : List (Task × TaskResult α)
  control : Control α

/-- The callback: absent, or the exception it raises at a call, if any. -/
abbrev OnEvent (α : Type) := Option (Task → TaskResult α → Option PyException)

abbrev Program (α : Type) := EStateM PyException (RunState α)

def finish (onEvent : OnEvent α) (task : Task) (result : TaskResult α) : Program α Unit := do
  modify fun s => { s with status := Function.update s.status task.id result.status
                           results := s.results.set result.taskId result }
  match onEvent with
  | none => pure ()
  | some call =>
    modify fun s => { s with events := s.events ++ [(task, result)] }
    match call task result with
    | none => pure ()
    | some exception => throw exception

/-- `del pending[task_id]` -/
def RunState.dropPending (s : RunState α) (task : Task) : RunState α :=
  { s with pending := s.pending.filter fun other => decide (other.id ≠ task.id) }

/-- `del running[future]` -/
def RunState.dropRunning (s : RunState α) (id : String) : RunState α :=
  { s with running := s.running.filter fun other => decide (other.task.id ≠ id) }

/-- The result of a dependency that ended without success. -/
def RunState.unsuccessful (s : RunState α) (dep : String) : Option (TaskResult α) :=
  (s.results.get? dep).filter fun result => result.status.isUnsuccessful

/-- One round of `_skip_blocked`. -/
def skipTask (onEvent : OnEvent α) (task : Task) : Program α Unit := do
  let s ← get
  match task.dependsOn.findSome? fun dep =>
      (s.unsuccessful dep).map fun result => (dep, result) with
  | none => pure ()
  | some (dep, depResult) =>
    let reason := depResult.status.value
    finish onEvent task
      { taskId := task.id, status := .skipped, output := none
        error := some s!"dependency '{dep}' {reason}", agent := task.agent, durationMs := 0 }
    modify fun s => s.dropPending task

def skipBlocked (onEvent : OnEvent α) : Program α Unit := do
  let s ← get
  forM s.pending (skipTask onEvent)

def taskDeadline (now : ℚ) (timeout runDeadline : Option ℚ) : Option ℚ :=
  match timeout with
  | some timeout =>
    let own := now + timeout
    match runDeadline with
    | some limit => some (min own limit)
    | none => some own
  | none => runDeadline

/-- All dependencies ended in success. -/
def RunState.isReady (s : RunState α) (task : Task) : Bool :=
  task.dependsOn.all fun dep =>
    match s.results.get? dep with
    | some result => decide (result.status = .success)
    | none => false

/-- `len(running) >= max_concurrency` -/
def atCapacity (scheduler : TaskScheduler) (s : RunState α) : Bool :=
  match scheduler.maxConcurrency with
  | none => false
  | some limit => decide (limit ≤ s.running.length)

/-- The deadline of the run: the argument, else that of the context. -/
def runDeadline (scheduler : TaskScheduler) (context : Option ℚ) : Option ℚ :=
  scheduler.deadline <|> context

def launchTask (scheduler : TaskScheduler) (deadline : Option ℚ) (now : ℚ)
    (submit : Task → Submission) (onEvent : OnEvent α) (task : Task) : Program α Unit := do
  modify fun s => { s with status := Function.update s.status task.id .running }
  match submit task with
  | .accepted started =>
    let timeout := task.timeout <|> scheduler.defaultTimeout
    let limit := taskDeadline now timeout deadline
    modify fun s =>
      { s.dropPending task with running := s.running ++ [{ task, deadline := limit, started }] }
  | .saturated =>
    finish onEvent task
      { taskId := task.id, status := .timeout, output := none
        error := some "shared pool saturated", agent := task.agent, durationMs := 0 }
    modify fun s => s.dropPending task
  | .failed text => throw (.other text)

/-- The loop of `_launch_ready` over the tasks that were pending at its start. -/
def launchLoop (scheduler : TaskScheduler) (deadline : Option ℚ) (now : ℚ)
    (submit : Task → Submission) (onEvent : OnEvent α) : List Task → Program α Unit
  | [] => pure ()
  | task :: rest => do
    let s ← get
    if scheduler.atCapacity s then pure ()
    else if s.isReady task then do
      launchTask scheduler deadline now submit onEvent task
      launchLoop scheduler deadline now submit onEvent rest
    else launchLoop scheduler deadline now submit onEvent rest

/-- `deadline is not None and now >= deadline` -/
def passed (deadline : Option ℚ) (now : ℚ) : Bool :=
  match deadline with
  | some limit => decide (limit ≤ now)
  | none => false

def launchReady (scheduler : TaskScheduler) (deadline : Option ℚ) (now : ℚ)
    (submit : Task → Submission) (onEvent : OnEvent α) : Program α Unit := do
  if passed deadline now then throw (.runTimeout "run deadline exceeded")
  else
    let s ← get
    launchLoop scheduler deadline now submit onEvent s.pending

/-- The deadlines that bound `wait`; `none` waits without a limit. -/
def nearestDeadline (running : List Running) (deadline : Option ℚ) : Option ℚ :=
  (running.filterMap Running.deadline ++ deadline.toList).min?

def resultFromOutput (task : Task) (elapsed : ℚ) : Output α → TaskResult α
  | .result result => result
  | .error text isText =>
    { taskId := task.id, status := if isText && decide (text = "timeout") then .timeout else .failed
      output := none, error := some text, agent := task.agent, durationMs := elapsed }
  | .value output =>
    { taskId := task.id, status := .success, output := some output, error := none
      agent := task.agent, durationMs := elapsed }

/-- One future that `wait` reports as done, with the clock reading of
`_collect`. -/
structure Done (α : Type) where
  taskId : String
  now : ℚ
  completion : Completion α
  deriving DecidableEq, Repr

def collect (onEvent : OnEvent α) (done : Done α) : Program α Unit := do
  let s ← get
  match s.running.find? fun state => state.task.id = done.taskId with
  | none => pure ()
  | some state =>
    set (s.dropRunning done.taskId)
    let elapsed := (done.now - state.started) * 1000
    match done.completion with
    | .raised (.cancelled reason) =>
      finish onEvent state.task
        { taskId := state.task.id, status := .cancelled, output := none, error := some reason
          agent := state.task.agent, durationMs := elapsed }
    | .raised (.budgetExceeded text) => throw (.budgetExceeded text)
    | .raised (.base text) => throw (.base text)
    | .raised exception =>
      finish onEvent state.task
        { taskId := state.task.id, status := .failed, output := none, error := some exception.text
          agent := state.task.agent, durationMs := elapsed }
    | .returned output => finish onEvent state.task (resultFromOutput state.task elapsed output)

/-- One round of `_expire`. -/
def expireTask (onEvent : OnEvent α) (now : ℚ) (state : Running) : Program α Unit :=
  if passed state.deadline now then do
    finish onEvent state.task
      { taskId := state.task.id, status := .timeout, output := none
        error := some "task deadline exceeded", agent := state.task.agent
        durationMs := (now - state.started) * 1000 }
    modify fun s => s.dropRunning state.task.id
  else pure ()

def expire (onEvent : OnEvent α) (now : ℚ) : Program α Unit := do
  let s ← get
  forM s.running (expireTask onEvent now)

/-- What the surroundings answer during a pass. `after` is the clock reading
behind the loop. -/
structure Pass (α : Type) where
  now : ℚ
  submit : Task → Submission
  after : ℚ
  onEvent : OnEvent α

structure Wake (α : Type) where
  done : List (Done α)
  now : ℚ
  onEvent : OnEvent α

inductive Event (α : Type) where
  | pass (pass : Pass α)
  | wake (wake : Wake α)

/-- The check behind the loop. -/
def conclude (deadline : Option ℚ) (after : ℚ) : Program α Unit := do
  let s ← get
  if passed deadline after && s.results.values.any fun result => decide (result.status = .timeout)
  then throw (.runTimeout "run deadline exceeded")
  else set { s with control := .returned s.results }

/-- From the head of the loop to `wait`, or to the end. -/
def passBody (scheduler : TaskScheduler) (deadline : Option ℚ) (pass : Pass α) :
    Program α Unit := do
  let s ← get
  if s.pending.isEmpty && s.running.isEmpty then conclude deadline pass.after
  else
    skipBlocked pass.onEvent
    launchReady scheduler deadline pass.now pass.submit pass.onEvent
    let s ← get
    if s.running.isEmpty then
      if s.pending.isEmpty then conclude deadline pass.after else throw .deadlock
    else set { s with control := .waiting }

/-- Behind `wait`. -/
def wakeBody (wake : Wake α) : Program α Unit := do
  forM wake.done (collect wake.onEvent)
  if wake.done.isEmpty then expire wake.onEvent wake.now else pure ()
  modify fun s => { s with control := .looping }

def abortTask (onEvent : OnEvent α) (task : Task) : Program α Unit :=
  finish onEvent task
    { taskId := task.id, status := .cancelled, output := none, error := some "cancelled"
      agent := task.agent, durationMs := 0 }

def abort (onEvent : OnEvent α) : Program α Unit := do
  let s ← get
  forM (s.running.map Running.task) (abortTask onEvent)
  forM s.pending (abortTask onEvent)

/-- The `except` block of `_run`: an exception of `_abort` replaces the one that
led there, and leaves `_last_results` empty. -/
def guarded (onEvent : OnEvent α) (body : Program α Unit) (s : RunState α) : RunState α :=
  match body s with
  | .ok _ t => t
  | .error exception t =>
    match abort onEvent t with
    | .ok _ u => { u with control := .raised exception u.results }
    | .error exception' u => { u with control := .raised exception' .empty }

/-- `wait` reports futures that are running, each once; without a limit it
reports at least one. -/
def possible (deadline : Option ℚ) (s : RunState α) (wake : Wake α) : Bool :=
  decide (wake.done.map Done.taskId).Nodup &&
    (wake.done.all fun done => s.running.any fun state => decide (state.task.id = done.taskId)) &&
    !(wake.done.isEmpty && (nearestDeadline s.running deadline).isNone)

def step (scheduler : TaskScheduler) (deadline : Option ℚ) (s : RunState α) :
    Event α → Option (RunState α)
  | .pass pass =>
    match s.control with
    | .looping => some (guarded pass.onEvent (passBody scheduler deadline pass) s)
    | _ => none
  | .wake wake =>
    match s.control with
    | .waiting =>
      if possible deadline s wake then some (guarded wake.onEvent (wakeBody wake) s) else none
    | _ => none

def Event.onEvent : Event α → OnEvent α
  | .pass body => body.onEvent
  | .wake body => body.onEvent

def machine (scheduler : TaskScheduler) (deadline : Option ℚ) : Machine (RunState α) (Event α) :=
  ⟨step scheduler deadline⟩

/-- `_run` up to the loop. -/
def start (plan : TaskPlan) (status : String → TaskStatus) : RunState α :=
  { status, pending := plan.tasks, running := [], results := .empty, events := []
    control := .looping }

/-- The state `s` is reached by the events `es` in a run of a validated plan. -/
def Reaches (scheduler : TaskScheduler) (context : Option ℚ) (iter : List String → List String)
    (plan : TaskPlan) (status : String → TaskStatus) (es : List (Event α)) (s : RunState α) :
    Prop :=
  plan.validate iter none none = .ok () ∧
    (machine scheduler (scheduler.runDeadline context)).run (start plan status) es = some s

/-- `execute`: the results, or the exception. -/
def execute (s : RunState α) : Option (Except PyException (Dict String (TaskResult α))) :=
  match s.control with
  | .returned results => some (.ok results)
  | .raised exception _ => some (.error exception)
  | .looping | .waiting => none

/-- `execute_run`: the `RunResult`, or an exception that it does not catch. -/
def executeRun (s : RunState α) : Option (Except PyException (RunResult α)) :=
  match s.control with
  | .returned results =>
    let failed := results.values.any fun result =>
      decide (result.status = .failed) || decide (result.status = .timeout)
    some (.ok ⟨if failed then "failed" else "success", results, none⟩)
  | .raised exception last =>
    match exception with
    | .runTimeout text => some (.ok ⟨"timeout", last, some text⟩)
    | .budgetExceeded text => some (.ok ⟨"cancelled", last, some text⟩)
    | .taskError _ | .deadlock => some (.ok ⟨"failed", last, some exception.text⟩)
    | .cancelled _ | .other _ | .base _ => some (.error exception)
  | .looping | .waiting => none

section Steps

variable {scheduler : TaskScheduler} {deadline : Option ℚ} {s t : RunState α}

theorem step_pass {pass : Pass α} (taken : step scheduler deadline s (.pass pass) = some t) :
    s.control = .looping ∧ t = guarded pass.onEvent (passBody scheduler deadline pass) s := by
  simp only [step] at taken
  split at taken
  · exact ⟨‹_›, (Option.some.inj taken).symm⟩
  · cases taken

theorem step_wake {wake : Wake α} (taken : step scheduler deadline s (.wake wake) = some t) :
    s.control = .waiting ∧ possible deadline s wake = true ∧
      t = guarded wake.onEvent (wakeBody wake) s := by
  simp only [step] at taken
  split at taken
  · split at taken
    · exact ⟨‹_›, ‹_›, (Option.some.inj taken).symm⟩
    · cases taken
  · cases taken

theorem step_live {event : Event α} (taken : step scheduler deadline s event = some t) :
    s.control = .looping ∨ s.control = .waiting := by
  cases event with
  | pass pass => exact .inl (step_pass taken).1
  | wake wake => exact .inr (step_wake taken).1

theorem executeRun_eq_none (live : s.control = .looping ∨ s.control = .waiting) :
    executeRun s = none := by
  unfold executeRun
  obtain control | control := live <;> rw [control]

end Steps

end TaskScheduler

end MultiAgent.Plugin
