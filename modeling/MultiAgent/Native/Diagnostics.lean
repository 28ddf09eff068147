import MultiAgent.Foundations.Dict
import MultiAgent.Native.Recovery.Manager

/-!
# Diagnostics

`observability.ts` and `diagnostics.ts`. The events of the observer reach the metrics, which
count them, and the registry, which keeps for each run what it has been told of it, for
`maxRuns` runs at most. An instant is a number of milliseconds. Of an event only what one of
the two reads is kept.
-/

namespace MultiAgent.Native.Recovery

/-- A failure record with its timestamp. -/
structure StampedFailure where
  timestamp : Int
  record : FailureRecord

/-- What `RecoveryManager.run` returns. -/
structure RecoveryRunResult where
  runId : String
  status : RecoveryStatus
  attempts : Nat
  repairsUsed : Nat
  replansUsed : Nat
  failures : List StampedFailure
  decisions : List RecoveryDecision
  lastResult : Option SupervisorRunResult

def ObservabilityEvent.runId : ObservabilityEvent → String
  | .started runId | .attempt runId _ | .failure runId _ _ _ _ | .decision runId _ _
  | .finished runId _ _ _ _ => runId

end MultiAgent.Native.Recovery

namespace MultiAgent.Native.Diagnostics

open Recovery

/-- An event of the runner, or of a recovery loop, with the instant it is stamped with. -/
inductive RuntimeEvent where
  | taskStarted (time : Int) (taskId agentId : String)
  | taskFinished (time : Int) (taskId agentId : String) (status : TaskOutcomeStatus)
      (durationMs : Int)
  | recovery (time : Int) (event : ObservabilityEvent)

/-- The run that the event names. -/
def RuntimeEvent.runId? : RuntimeEvent → Option String
  | .taskStarted _ _ _ | .taskFinished _ _ _ _ _ => none
  | .recovery _ event => some event.runId

structure MetricsCollector where
  tasksStarted : Nat
  tasksCompleted : Nat
  tasksFailed : Nat
  tasksCancelled : Nat
  recoveryRuns : Nat
  recoveryCompleted : Nat
  recoveryFailed : Nat
  recoveryCancelled : Nat
  recoveryTimeouts : Nat
  recoveryAttempts : Nat
  repairs : Nat
  replans : Nat
  failuresByCode : FailureCode → Nat
  decisions : RecoveryDecision → Nat

namespace MetricsCollector

def new : MetricsCollector where
  tasksStarted := 0
  tasksCompleted := 0
  tasksFailed := 0
  tasksCancelled := 0
  recoveryRuns := 0
  recoveryCompleted := 0
  recoveryFailed := 0
  recoveryCancelled := 0
  recoveryTimeouts := 0
  recoveryAttempts := 0
  repairs := 0
  replans := 0
  failuresByCode := fun _ => 0
  decisions := fun _ => 0

/-- `record` for a decision, which is counted under its name, and twice if it is a repair or
a replan. -/
def recordDecision (metrics : MetricsCollector) (decision : RecoveryDecision) :
    MetricsCollector where
  __ := metrics
  decisions := fun other => metrics.decisions other + if other = decision then 1 else 0
  repairs := metrics.repairs + if decision = .repair then 1 else 0
  replans := metrics.replans + if decision = .replan then 1 else 0

def record (metrics : MetricsCollector) : RuntimeEvent → MetricsCollector
  | .taskStarted _ _ _ => { metrics with tasksStarted := metrics.tasksStarted + 1 }
  | .taskFinished _ _ _ status _ =>
    match status with
    | .completed => { metrics with tasksCompleted := metrics.tasksCompleted + 1 }
    | .failed => { metrics with tasksFailed := metrics.tasksFailed + 1 }
    | .cancelled => { metrics with tasksCancelled := metrics.tasksCancelled + 1 }
  | .recovery _ event =>
    match event with
    | .started _ => { metrics with recoveryRuns := metrics.recoveryRuns + 1 }
    | .attempt _ _ => { metrics with recoveryAttempts := metrics.recoveryAttempts + 1 }
    | .failure _ _ code _ _ =>
      { metrics with
        failuresByCode := fun other =>
          metrics.failuresByCode other + if other = code then 1 else 0 }
    | .decision _ _ decision => metrics.recordDecision decision
    | .finished _ status _ _ _ =>
      match status with
      | .completed => { metrics with recoveryCompleted := metrics.recoveryCompleted + 1 }
      | .cancelled => { metrics with recoveryCancelled := metrics.recoveryCancelled + 1 }
      | .timeout => { metrics with recoveryTimeouts := metrics.recoveryTimeouts + 1 }
      | .failed => { metrics with recoveryFailed := metrics.recoveryFailed + 1 }

end MetricsCollector

structure FailureSummary where
  time : Int
  attempt : Nat
  code : FailureCode
  taskId : Option String
  agentId : Option String
  deriving DecidableEq, Repr

inductive RunInspectionStatus where
  | running
  | ended (status : RecoveryStatus)
  deriving DecidableEq, Repr

structure RunInspection where
  runId : String
  status : RunInspectionStatus
  startedAt : Int
  finishedAt : Option Int
  durationMs : Int
  attempts : Nat
  repairsUsed : Nat
  replansUsed : Nat
  failureCount : Nat
  failures : List FailureSummary
  decisions : List RecoveryDecision
  deriving DecidableEq, Repr

namespace RunInspection

/-- A run that was just started. -/
def opened (runId : String) (time : Int) : RunInspection where
  runId := runId
  status := .running
  startedAt := time
  finishedAt := none
  durationMs := 0
  attempts := 0
  repairsUsed := 0
  replansUsed := 0
  failureCount := 0
  failures := []
  decisions := []

/-- A change is made to a run that is running only. -/
def whileRunning (change : RunInspection → RunInspection) (r : RunInspection) : RunInspection :=
  if r.status = .running then change r else r

def attempt (attempt : Nat) (r : RunInspection) : RunInspection :=
  { r with attempts := max r.attempts attempt }

def failure (summary : FailureSummary) (r : RunInspection) : RunInspection :=
  { r with
    failureCount := r.failureCount + 1
    failures := r.failures ++ [summary]
    attempts := max r.attempts summary.attempt }

def decision (decision : RecoveryDecision) (r : RunInspection) : RunInspection :=
  { r with decisions := r.decisions ++ [decision] }

def complete (status : RecoveryStatus) (attempts repairsUsed replansUsed : Nat) (time : Int)
    (r : RunInspection) : RunInspection :=
  { r with
    status := .ended status
    finishedAt := some time
    durationMs := max 0 (time - r.startedAt)
    attempts, repairsUsed, replansUsed }

end RunInspection

/-- A `RangeError` with its message. -/
structure RangeError where
  message : String
  deriving DecidableEq, Repr

/-- A constructed registry, which holds `maxRuns` runs at most. -/
structure RunRegistry where
  maxRuns : Nat
  runs : Dict String RunInspection
  positive : 1 ≤ maxRuns
  bounded : runs.keys.length ≤ maxRuns

namespace RunRegistry

theorem positive_default : 1 ≤ 256 := by decide

theorem positive_toNat {q : ℚ} (whole : q.den = 1 ∧ 1 ≤ q.num) : 1 ≤ q.num.toNat := by omega

theorem bounded_default : (Dict.empty : Dict String RunInspection).keys.length ≤ 256 :=
  Nat.zero_le _

theorem bounded_toNat (q : ℚ) :
    (Dict.empty : Dict String RunInspection).keys.length ≤ q.num.toNat :=
  Nat.zero_le _

/-- The constructor, with the default of 256 runs. -/
def new : Option JsNumber → Except RangeError RunRegistry
  | none => .ok ⟨256, .empty, positive_default, bounded_default⟩
  | some (.finite q) =>
    if h : q.den = 1 ∧ 1 ≤ q.num then
      .ok ⟨q.num.toNat, .empty, positive_toNat h, bounded_toNat q⟩
    else .error ⟨"maxRuns must be a positive integer"⟩
  | some _ => .error ⟨"maxRuns must be a positive integer"⟩

/-- `#trim`: the oldest keys are deleted while there are too many. -/
def trim (registry : RunRegistry) (runs : Dict String RunInspection) : RunRegistry where
  maxRuns := registry.maxRuns
  runs := runs.drop (runs.keys.length - registry.maxRuns)
  positive := registry.positive
  bounded := by
    rw [Dict.keys_drop, List.length_drop]
    omega

/-- The run is known and is not running any more. -/
def settled (registry : RunRegistry) (runId : String) : Bool :=
  (registry.runs.get? runId).any fun r => decide (r.status ≠ .running)

/-- A run that is known and running is set anew, where it stands. -/
def update (registry : RunRegistry) (runId : String) (change : RunInspection → RunInspection) :
    RunRegistry where
  maxRuns := registry.maxRuns
  runs := registry.runs.modify runId (RunInspection.whileRunning change)
  positive := registry.positive
  bounded := by
    rw [Dict.keys_modify]
    exact registry.bounded

def start (registry : RunRegistry) (runId : String) (time : Int) : RunRegistry :=
  if registry.settled runId then registry
  else registry.trim ((registry.runs.erase runId).set runId (.opened runId time))

def attempt (registry : RunRegistry) (runId : String) (attempt : Nat) : RunRegistry :=
  registry.update runId (.attempt attempt)

def failure (registry : RunRegistry) (runId : String) (summary : FailureSummary) : RunRegistry :=
  registry.update runId (.failure summary)

def decision (registry : RunRegistry) (runId : String) (decision : RecoveryDecision) :
    RunRegistry :=
  registry.update runId (.decision decision)

/-- What `finish` stores for a result. -/
def inspection (result : RecoveryRunResult) (startedAt time : Int) : RunInspection where
  runId := result.runId
  status := .ended result.status
  startedAt := startedAt
  finishedAt := some time
  durationMs := max 0 (time - startedAt)
  attempts := result.attempts
  repairsUsed := result.repairsUsed
  replansUsed := result.replansUsed
  failureCount := result.failures.length
  failures := result.failures.map fun f =>
    ⟨f.timestamp, f.record.attempt, f.record.code, f.record.taskId, f.record.agentId⟩
  decisions := result.decisions

def finish (registry : RunRegistry) (result : RecoveryRunResult) (time : Int) : RunRegistry :=
  if registry.settled result.runId then registry
  else
    let startedAt := ((registry.runs.get? result.runId).map RunInspection.startedAt).getD time
    registry.trim (registry.runs.set result.runId (inspection result startedAt time))

def complete (registry : RunRegistry) (runId : String) (status : RecoveryStatus)
    (attempts repairsUsed replansUsed : Nat) (time : Int) : RunRegistry :=
  registry.update runId (.complete status attempts repairsUsed replansUsed time)

def get (registry : RunRegistry) (runId : String) : Option RunInspection :=
  registry.runs.get? runId

end RunRegistry

/-- The diagnostics over a metrics collector. The observer behind them, which is told every
event as well, is not a part of their state. -/
structure RuntimeDiagnostics where
  metrics : MetricsCollector
  registry : RunRegistry

namespace RuntimeDiagnostics

def new (registry : RunRegistry) : RuntimeDiagnostics where
  metrics := .new
  registry := registry

/-- `#consume` for an event of a recovery loop. -/
def consumeRecovery (registry : RunRegistry) (time : Int) : ObservabilityEvent → RunRegistry
  | .started runId => registry.start runId time
  | .attempt runId attempt => registry.attempt runId attempt
  | .failure runId attempt code taskId agentId =>
    registry.failure runId ⟨time, attempt, code, taskId, agentId⟩
  | .decision runId _ decision => registry.decision runId decision
  | .finished runId status attempts repairsUsed replansUsed =>
    registry.complete runId status attempts repairsUsed replansUsed time

def consume (registry : RunRegistry) : RuntimeEvent → RunRegistry
  | .taskStarted _ _ _ | .taskFinished _ _ _ _ _ => registry
  | .recovery time event => consumeRecovery registry time event

/-- The two sinks do not throw, so that an event reaches both. -/
def ingest (diagnostics : RuntimeDiagnostics) (event : RuntimeEvent) : RuntimeDiagnostics where
  metrics := diagnostics.metrics.record event
  registry := consume diagnostics.registry event

def inspect (diagnostics : RuntimeDiagnostics) (runId : String) : Option RunInspection :=
  diagnostics.registry.get runId

end RuntimeDiagnostics

end MultiAgent.Native.Diagnostics
