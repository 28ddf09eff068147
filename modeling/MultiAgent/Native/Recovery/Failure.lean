import MultiAgent.Native.Supervisor

/-!
# The failure classifier

`recovery/failure.ts`: what a failed attempt is called, and what that allows the
recovery loop to do. A report is classified by the first code of `priority` that
one of its failed tasks has.
-/

namespace MultiAgent.Native.Recovery

inductive FailureCode where
  | validationError
  | routingError
  | taskError
  | timeout
  | cancelled
  | dependencyFailure
  | agentUnavailable
  | strategyError
  | runtimeError
  deriving DecidableEq, Repr

structure Recoverability where
  retryable : Bool
  repairable : Bool
  replanable : Bool
  fatal : Bool
  deriving DecidableEq, Repr

/-- The frozen table `RECOVERABILITY`. -/
def recoverability : FailureCode → Recoverability
  | .validationError | .routingError | .cancelled => ⟨false, false, false, true⟩
  | .taskError | .strategyError | .runtimeError => ⟨false, false, false, false⟩
  | .timeout => ⟨true, false, false, false⟩
  | .dependencyFailure => ⟨false, false, true, false⟩
  | .agentUnavailable => ⟨false, true, false, false⟩

/-- The frozen table `PRIORITY`. -/
def priority : List FailureCode :=
  [.agentUnavailable, .dependencyFailure, .timeout, .cancelled, .taskError]

/-- What the supervisor or the planner layer may throw. -/
inductive Thrown where
  | supervisor (error : SupervisorError)
  | planner (error : PlannerError)
  | graph (error : GraphError)
  /-- Any other value, by its message. -/
  | other (message : String)
  deriving DecidableEq, Repr

def Thrown.message : Thrown → String
  | .supervisor error => error.message
  | .planner error => error.message
  | .graph error => error.message
  | .other message => message

structure TaskFailureRef where
  taskId : String
  agentId : Option String
  code : FailureCode
  message : String
  deriving DecidableEq, Repr

/-- A classified failure. The timestamp is left out. -/
structure FailureRecord where
  code : FailureCode
  message : String
  attempt : Nat
  recoverability : Recoverability
  thrown : Bool
  cause : Option Thrown
  taskId : Option String
  agentId : Option String
  taskFailures : Option (List TaskFailureRef)
  deriving DecidableEq, Repr

/-- `/^agent '[^']+' not found$/.test(error)` -/
def isAgentNotFound (error : String) : Bool :=
  let name := error.toList.drop "agent '".length
  startsWith error "agent '" && decide (name.takeWhile (fun c => decide (c ≠ '\'')) ≠ []) &&
    decide (name.dropWhile (fun c => decide (c ≠ '\'')) = "' not found".toList)

def codeForTaskOutcome (status : TaskOutcomeStatus) (error : Option String) : FailureCode :=
  match status, error with
  | .cancelled, some error =>
    if startsWith error "dependency " then .dependencyFailure else .cancelled
  | .cancelled, none => .cancelled
  | _, none => .taskError
  | _, some error =>
    if startsWith error "timeout:" then .timeout
    else if isAgentNotFound error then .agentUnavailable
    else .taskError

/-- What the classifier reads of an entry of `responses`, `steps` or `turns`. -/
structure ReportEntry where
  taskId : String
  agentId : String
  status : TaskOutcomeStatus
  error : Option String
  deriving DecidableEq, Repr

/-- The group of entries that the report of each strategy has. -/
def entries : SupervisorStrategyReport → List ReportEntry
  | .broadcast report => report.responses.map fun entry =>
    ⟨entry.taskId, entry.agentId, entry.status, entry.error⟩
  | .sequential report => report.steps.map fun entry =>
    ⟨entry.taskId, entry.agentId, entry.status, entry.error⟩
  | .relay report => report.turns.map fun entry =>
    ⟨entry.taskId, entry.agentId, entry.status, entry.error⟩

def ReportEntry.failure (entry : ReportEntry) : TaskFailureRef where
  taskId := entry.taskId
  agentId := some entry.agentId
  code := codeForTaskOutcome entry.status entry.error
  message := entry.error.getD entry.status.label

def extractTaskFailures (result : SupervisorRunResult) : List TaskFailureRef :=
  ((entries result.report).filter fun entry => decide (entry.status ≠ .completed)).map
    ReportEntry.failure

/-- The code of a thrown value. -/
def Thrown.code : Thrown → FailureCode
  | .supervisor error =>
    match error.kind with
    | .cancellation => .cancelled
    | .timeout => .timeout
    | .validation => .validationError
    | .execution | .aggregation => .runtimeError
  | .planner (.routing _ _) => .routingError
  | .planner (.validation _ _) | .planner (.parse _) => .validationError
  | .planner (.integration _) => .runtimeError
  | .graph _ | .other _ => .runtimeError

def classifyThrown (error : Thrown) (attempt : Nat) : FailureRecord where
  code := error.code
  message := error.message
  attempt := attempt
  recoverability := recoverability error.code
  thrown := true
  cause := some error
  taskId :=
    match error with
    | .planner (.routing _ taskId) => taskId
    | _ => none
  agentId := none
  taskFailures := none

/-- The first code of `priority` that occurs among the failures. -/
def primaryCode (failures : List TaskFailureRef) : FailureCode :=
  (priority.find? fun candidate => failures.any fun failure => failure.code = candidate).getD
    .taskError

/-- A record about a returned result, with the failure that it names, if any. -/
def resultRecord (code : FailureCode) (message : String) (attempt : Nat)
    (primary : Option TaskFailureRef) (failures : List TaskFailureRef) : FailureRecord where
  code := code
  message := message
  attempt := attempt
  recoverability := recoverability code
  thrown := false
  cause := none
  taskId := primary.map TaskFailureRef.taskId
  agentId := primary.bind TaskFailureRef.agentId
  taskFailures := some failures

def classifyResult (result : SupervisorRunResult) (attempt : Nat) : FailureRecord :=
  let failures := extractTaskFailures result
  match result.status with
  | .cancelled =>
    resultRecord .cancelled s!"run '{result.runId}' cancelled" attempt none failures
  | .timeout => resultRecord .timeout s!"run '{result.runId}' timed out" attempt none failures
  | .completed | .failed =>
    let code := primaryCode failures
    let primary := failures.find? fun failure => decide (failure.code = code)
    resultRecord code ((primary.map TaskFailureRef.message).getD s!"run '{result.runId}' failed")
      attempt primary failures

end MultiAgent.Native.Recovery
