import MultiAgent.Foundations.Checks
import MultiAgent.Foundations.Machine
import MultiAgent.Native.Js
import MultiAgent.Native.Supervisor

/-!
# The lifecycle of a supervisor

`Supervisor.run` of `supervisor/supervisor.ts` over one instance, with the
validation of its input and the table of `supervisor/lifecycle.ts`. A run is
synchronous up to the `await` of its strategy; from then on the surroundings may
abort its signal, let its timer fire, or settle the strategy, and they may call
`run` again at any time. Inputs and reports are untyped values, since nothing
checks them but the code below. `text` is the conversion `String(value)`, which
may throw.
-/

namespace MultiAgent.Native

inductive SupervisorState where
  | created
  | validating
  | scheduled
  | running
  | aggregating
  | completed
  | failed
  | cancelled
  | timeout
  /-- `'partial'` -/
  | partway
  deriving DecidableEq, Repr

/-- The name of a state inside a message. -/
def SupervisorState.text : SupervisorState → String
  | .created => "created"
  | .validating => "validating"
  | .scheduled => "scheduled"
  | .running => "running"
  | .aggregating => "aggregating"
  | .completed => "completed"
  | .failed => "failed"
  | .cancelled => "cancelled"
  | .timeout => "timeout"
  | .partway => "partial"

def isTerminalState : SupervisorState → Bool
  | .completed | .failed | .cancelled | .timeout => true
  | .created | .validating | .scheduled | .running | .aggregating | .partway => false

/-- The table `TRANSITIONS`. -/
def transitions : SupervisorState → List SupervisorState
  | .created => [.validating, .cancelled]
  | .validating => [.scheduled, .failed, .cancelled]
  | .scheduled => [.running, .failed, .cancelled, .timeout]
  | .running => [.aggregating, .failed, .cancelled, .timeout]
  | .aggregating => [.completed, .failed, .partway, .cancelled, .timeout]
  | .completed | .failed | .cancelled | .timeout | .partway => []

def assertTransition (src dst : SupervisorState) : Except SupervisorError Unit :=
  if src = dst then
    .error ⟨.validation, s!"illegal lifecycle transition: '{src.text}' -> '{dst.text}' " ++
      "(no-op transition is not allowed)"⟩
  else if isTerminalState src then
    .error ⟨.validation,
      s!"illegal lifecycle transition: cannot leave terminal state '{src.text}'"⟩
  else if dst ∉ transitions src then
    .error ⟨.validation, s!"illegal lifecycle transition: '{src.text}' -> '{dst.text}'"⟩
  else .ok ()

namespace Supervisor

/-- What `run` throws. -/
inductive RunError where
  | supervisor (error : SupervisorError)
  /-- An exception of the host, or any other error, by its message. -/
  | other (message : String)
  deriving DecidableEq, Repr

section Validation

def invalid (message : String) : RunError := .supervisor ⟨.validation, message⟩

/-- `value[name]` inside the validation. -/
def field (value : Js) (name : String) : Except RunError Js :=
  (value.read name).mapError .other

def requireObject (value : Js) (message : String) : Except RunError Unit :=
  ensure (value.isObject = true) (invalid message)

/-- The property, which must be a non-empty string. -/
def requireText (value : Js) (name message : String) : Except RunError String := do
  match ← field value name with
  | .string text => if text.isEmpty then .error (invalid message) else .ok text
  | _ => .error (invalid message)

/-- The property, which must be an array that is not empty. -/
def requireItems (value : Js) (name notArray noItem : String) : Except RunError (List Js) := do
  match ← field value name with
  | .array items => if items.isEmpty then .error (invalid noItem) else .ok items
  | _ => .error (invalid notArray)

/-- The loop over the agents, with the set of ids seen so far. -/
def validateAgents (ids : List String) : List Js → Except RunError Unit
  | [] => .ok ()
  | agent :: agents => do
    requireObject agent "broadcast agent must be an object"
    let agentId ← requireText agent "agentId" "broadcast agentId must be a non-empty string"
    ensure (agentId ∉ ids) (invalid s!"duplicate broadcast agentId: '{agentId}'")
    validateAgents (agentId :: ids) agents

def validateBroadcastOptions (options : Js) : Except RunError Unit := do
  requireObject options "broadcast options must be an object"
  let _ ← requireText options "prompt" "broadcast prompt must be a non-empty string"
  let agents ← requireItems options "agents" "broadcast agents must be an array"
    "broadcast agents must contain at least one agent"
  validateAgents [] agents

/-- The steps of a sequential or relay plan, under the name of the strategy. -/
def validateSteps (label : String) (holder : Js) : Except RunError Unit := do
  let steps ← requireItems holder "steps" s!"{label} steps must be an array"
    s!"{label} steps must contain at least one step"
  forM steps fun step => do
    requireObject step s!"{label} step must be an object"
    let _ ← requireText step "agentId" s!"{label} step agentId must be a non-empty string"
    return ()

def validateSequentialPlan (plan : Js) : Except RunError Unit := validateSteps "sequential" plan

def validateRelayOptions (options : Js) : Except RunError Unit := do
  requireObject options "relay options must be an object"
  let _ ← requireText options "prompt" "relay prompt must be a non-empty string"
  validateSteps "relay" options

def validateTimeoutMs (value : Js) : Except String Unit :=
  match value with
  | .undefined => .ok ()
  | .number (.finite q) =>
    if 0 < q then .ok () else .error "timeoutMs must be a finite number > 0"
  | _ => .error "timeoutMs must be a finite number > 0"

/-- `assertKnownStrategy` -/
def knownStrategy : Js → Option SupervisorStrategy
  | .string "broadcast" => some .broadcast
  | .string "sequential" => some .sequential
  | .string "relay" => some .relay
  | _ => none

/-- The plan of an input, with the strategy that it names. -/
def validatePlan (text : Js → Except String String) (plan : Js) :
    Except RunError SupervisorStrategy := do
  let named ← field plan "strategy"
  match knownStrategy named with
  | none =>
    let shown ← (text named).mapError .other
    .error (invalid s!"unknown strategy: '{shown}'")
  | some strategy =>
    match strategy with
    | .broadcast => validateBroadcastOptions (← field plan "options")
    | .sequential => validateSequentialPlan plan
    | .relay => validateRelayOptions (← field plan "options")
    return strategy

/-- What a run keeps of its input: `runId`, and whether it has a timeout. -/
structure Accepted where
  runId : String
  strategy : SupervisorStrategy
  timed : Bool
  deriving DecidableEq, Repr

def validateSupervisorInput (text : Js → Except String String) (input : Js) :
    Except RunError Accepted := do
  requireObject input "supervisor input must be an object"
  let runId ← requireText input "runId" "runId must be a non-empty string"
  let _ ← requireText input "input" "input must be a non-empty string"
  let plan ← field input "plan"
  requireObject plan "plan is required"
  let timeoutMs ← (input.read "timeoutMs").mapError invalid
  (validateTimeoutMs timeoutMs).mapError invalid
  let strategy ← validatePlan text plan
  let metadata ← field input "metadata"
  ensure (metadata.isUndefined = true ∨ metadata.isObject = true)
    (invalid "metadata must be a record or undefined")
  return { runId, strategy, timed := !timeoutMs.isUndefined }

end Validation

/-- What a run has behind its registrations. -/
structure Registered where
  /-- The signal has aborted already. -/
  aborted : Bool
  /-- The run listens to the signal. -/
  listening : Bool
  deriving DecidableEq, Repr

/-- The part of `run` about `input.signal`. -/
def register (input : Js) : Except String Registered := do
  let signal ← input.read "signal"
  if signal.isUndefined then return ⟨false, false⟩
  else
    let aborted ← signal.read "aborted"
    if aborted.truthy then return ⟨true, false⟩
    else
      let addEventListener ← signal.read "addEventListener"
      addEventListener.invoke "input.signal.addEventListener"
      return ⟨false, true⟩

/-- A run that awaits its strategy. -/
structure Active where
  input : Js
  accepted : Accepted
  listening : Bool
  latches : Latches

structure RunResult where
  runId : String
  status : SupervisorRunStatus
  strategy : SupervisorStrategy
  report : Js
  errors : List SupervisorError

/-- How the promise of a call of `run` settles. -/
inductive Settled where
  | resolved (result : RunResult)
  | rejected (error : RunError)

structure Instance where
  /-- `#state` -/
  state : SupervisorState
  /-- The assignments to `#state` so far, with the state before each. -/
  changes : List (SupervisorState × SupervisorState)
  active : Option Active
  /-- The calls that settled, in order. -/
  settled : List Settled

def fresh : Instance := ⟨.created, [], none, []⟩

namespace Instance

/-- `#state = target` -/
def assign (s : Instance) (target : SupervisorState) : Instance :=
  { s with state := target, changes := s.changes ++ [(s.state, target)] }

/-- The active run settles. -/
def finish (s : Instance) (settled : Settled) : Instance :=
  { s with active := none, settled := s.settled ++ [settled] }

/-- `#move(target)`, and what follows it in the run. -/
def move (s : Instance) (target : SupervisorState) (next : Instance → Instance) : Instance :=
  match assertTransition s.state target with
  | .error error => s.finish (.rejected (.supervisor error))
  | .ok () => next (s.assign target)

/-- The states in which a call is turned away. -/
def busy (s : Instance) : Bool :=
  match s.state with
  | .validating | .scheduled | .running | .aggregating => true
  | .created | .completed | .failed | .cancelled | .timeout | .partway => false

/-- The `finally` of a run. Once the signal of a run aborted, its `aborted` is
true. -/
def cleanup (active : Active) (settled : Settled) : Settled :=
  let removed : Except String Unit := do
    let signal ← active.input.read "signal"
    if signal.isUndefined || active.latches.cancelled then return ()
    else
      let removeEventListener ← signal.read "removeEventListener"
      removeEventListener.invoke "input.signal.removeEventListener"
  match removed with
  | .ok () => settled
  | .error error => .rejected (.other error)

end Instance

/-- The call of a strategy is under way. -/
def dispatch (s : Instance) (input : Js) (accepted : Accepted) : Instance :=
  match register input with
  | .error error => s.finish (.rejected (.other error))
  | .ok registered =>
    { s with
      active := some ⟨input, accepted, registered.listening, ⟨registered.aborted, false⟩⟩ }

/-- `run(input)` up to the `await` of its strategy. -/
def call (text : Js → Except String String) (s : Instance) (input : Js) : Instance :=
  if s.busy then
    { s with settled := s.settled ++ [.rejected (.other "Supervisor is already running")] }
  else
    (s.assign .created).move .validating fun s =>
      match validateSupervisorInput text input with
      | .error error => s.move .failed fun s => s.finish (.rejected error)
      | .ok accepted =>
        s.move .scheduled fun s => s.move .running fun s => dispatch s input accepted

/-- The state that a run whose strategy threw ends in. -/
def thrownState (latches : Latches) : SupervisorState :=
  if latches.timedOut then .timeout else if latches.cancelled then .cancelled else .failed

/-- What a run throws when its strategy threw. -/
def thrownError (runId : String) (latches : Latches) : SupervisorError :=
  if latches.timedOut then timeoutError runId
  else if latches.cancelled then cancellationError runId
  else ⟨.execution, s!"run '{runId}' failed"⟩

/-- The status of `#aggregate`, which reads `ok` only when no latch is set. -/
def aggregateStatus (latches : Latches) (report : Js) : Except String SupervisorRunStatus :=
  if latches.timedOut then .ok .timeout
  else if latches.cancelled then .ok .cancelled
  else do
    let ok ← report.read "ok"
    return if ok.truthy then .completed else .failed

def stateOf : SupervisorRunStatus → SupervisorState
  | .completed => .completed
  | .failed => .failed
  | .cancelled => .cancelled
  | .timeout => .timeout

def aggregateErrors (runId : String) : SupervisorRunStatus → List SupervisorError
  | .timeout => [timeoutError runId]
  | .cancelled => [cancellationError runId]
  | .completed | .failed => []

/-- The run behind the `await` of its strategy. -/
def resume (s : Instance) (active : Active) (outcome : Except String Js) : Instance :=
  match outcome with
  | .error _ =>
    s.move (thrownState active.latches) fun s =>
      s.finish (Instance.cleanup active
        (.rejected (.supervisor (thrownError active.accepted.runId active.latches))))
  | .ok report =>
    s.move .aggregating fun s =>
      match aggregateStatus active.latches report with
      | .error error => s.finish (Instance.cleanup active (.rejected (.other error)))
      | .ok status =>
        s.move (stateOf status) fun s =>
          s.finish (Instance.cleanup active (.resolved
            { runId := active.accepted.runId, status, strategy := active.accepted.strategy
              report, errors := aggregateErrors active.accepted.runId status }))

inductive Event where
  | call (input : Js)
  /-- The signal that the active run listens to aborts. -/
  | abort
  /-- The timer of the active run fires. -/
  | timeout
  /-- The strategy throws, or returns a report. -/
  | settle (outcome : Except String Js)

def step (text : Js → Except String String) (s : Instance) : Event → Option Instance
  | .call input => some (call text s input)
  | .abort =>
    match s.active with
    | none => none
    | some active =>
      if active.listening && !active.latches.cancelled then
        let latched := { active with latches := { active.latches with cancelled := true } }
        some { s with active := some latched }
      else none
  | .timeout =>
    match s.active with
    | none => none
    | some active =>
      if active.accepted.timed && !active.latches.timedOut then
        let latched := { active with latches := { active.latches with timedOut := true } }
        some { s with active := some latched }
      else none
  | .settle outcome => s.active.map fun active => resume s active outcome

def machine (text : Js → Except String String) : Machine Instance Event := ⟨step text⟩

end Supervisor

end MultiAgent.Native
