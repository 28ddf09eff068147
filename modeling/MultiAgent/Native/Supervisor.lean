import MultiAgent.Native.Strategies

/-!
# The end of a supervisor run

The part of `supervisor/supervisor.ts` behind the strategy: how its report, or
the exception it threw, becomes the result or the error of `Supervisor.run`. The
two latches say whether the external signal aborted the run and whether its
timer fired.
-/

namespace MultiAgent.Native

inductive SupervisorErrorKind where
  | validation
  | execution
  | cancellation
  | timeout
  | aggregation
  deriving DecidableEq, Repr

structure SupervisorError where
  kind : SupervisorErrorKind
  message : String
  deriving DecidableEq, Repr

inductive SupervisorStrategyReport where
  | broadcast (report : BroadcastReport)
  | sequential (report : SequentialReport)
  | relay (report : RelayReport)
  deriving DecidableEq, Repr

/-- `strategyReport.report` as far as the strategies share it. -/
def SupervisorStrategyReport.envelope : SupervisorStrategyReport → StrategyReport
  | .broadcast report => report.toStrategyReport
  | .sequential report => report.toStrategyReport
  | .relay report => report.toStrategyReport

/-- The graph that the strategy of a plan schedules. -/
def SupervisorPlan.graph : SupervisorPlan → Except AddError TaskGraph
  | .broadcast prompt agents => Broadcast.graph prompt agents
  | .sequential steps => Sequential.graph steps
  | .relay prompt steps => Relay.graph prompt steps

/-- `#dispatch` with the strategies of this layer. -/
def SupervisorPlan.dispatch (signalAborted : Bool) (es : List Scheduler.Event) :
    SupervisorPlan → Option SupervisorStrategyReport
  | .broadcast prompt agents => (Broadcast.run prompt agents signalAborted es).map .broadcast
  | .sequential steps => (Sequential.run steps signalAborted es).map .sequential
  | .relay prompt steps => (Relay.run prompt steps signalAborted es).map .relay

inductive SupervisorRunStatus where
  | completed
  | failed
  | cancelled
  | timeout
  deriving DecidableEq, Repr

structure SupervisorRunInput where
  runId : String
  input : String
  plan : SupervisorPlan
  timeoutMs : Option JsNumber
  metadata : Option Metadata
  deriving DecidableEq, Repr

structure SupervisorRunResult where
  runId : String
  status : SupervisorRunStatus
  report : SupervisorStrategyReport
  errors : List SupervisorError
  metadata : Option Metadata
  durationMs : Int
  deriving DecidableEq, Repr

namespace Supervisor

structure Latches where
  cancelled : Bool
  timedOut : Bool
  deriving DecidableEq, Repr

def timeoutError (runId : String) : SupervisorError := ⟨.timeout, s!"run '{runId}' timed out"⟩

def cancellationError (runId : String) : SupervisorError :=
  ⟨.cancellation, s!"run '{runId}' cancelled"⟩

/-- What the run throws when its strategy threw. -/
def dispatchError (input : SupervisorRunInput) (latches : Latches) : SupervisorError :=
  if latches.timedOut then timeoutError input.runId
  else if latches.cancelled then cancellationError input.runId
  else ⟨.execution, s!"run '{input.runId}' failed"⟩

/-- `#aggregate` -/
def aggregate (input : SupervisorRunInput) (report : SupervisorStrategyReport)
    (durationMs : Int) (latches : Latches) : SupervisorRunResult :=
  let status : SupervisorRunStatus :=
    if latches.timedOut then .timeout
    else if latches.cancelled then .cancelled
    else if report.envelope.ok then .completed
    else .failed
  let errors :=
    match status with
    | .timeout => [timeoutError input.runId]
    | .cancelled => [cancellationError input.runId]
    | .completed | .failed => []
  { runId := input.runId, status, report, errors, metadata := input.metadata, durationMs }

end Supervisor

end MultiAgent.Native
