import MultiAgent.Foundations.Machine
import MultiAgent.Native.Runner.Outcome

/-!
# Runs of tasks over shared agents

`AgentRunner.run` of `runner.ts`, any number of calls at a time, against the host
contract of `dsh.ts`: each agent has an append-only log, each `followup` opens a
turn of its own, only an open turn appends events and its `turn/end` closes it,
and `whenIdle` resolves when the agent has no open turn. A log entry carries its
turn. The host decides when it does what, so a run of the machine is any
interleaving of the calls, their timers, their signals and the events of the
turns. `cancel` asks the host to end a turn; the end is the `turn/end` that it
appends.
-/

namespace MultiAgent.Native.Runner

structure Entry where
  turn : Nat
  event : SessionEvent
  deriving DecidableEq, Repr

/-- `AgentRunner`: its default timeout, and the agents that its registry knows. -/
structure AgentRunner where
  known : String → Bool
  defaultTimeoutMs : Option JsNumber

inductive Phase where
  /-- The promise of `converged` is pending. -/
  | waiting
  /-- It resolved to `false`; the grace window is open. -/
  | grace
  /-- Nothing is awaited any more before the slice. -/
  | ready
  deriving DecidableEq, Repr

/-- A call of `run` behind its `followup`. -/
structure Session where
  task : Task
  turn : Nat
  baseline : Nat
  phase : Phase
  converged : Bool
  /-- `signal.aborted` -/
  aborted : Bool
  deriving DecidableEq, Repr

/-- A call of `run` that returned: its turn with the slice it read, if it got
that far, and the outcome. -/
structure Finished where
  task : Task
  read : Option (Nat × List Entry × OutcomeInputs)
  outcome : TaskOutcome
  deriving DecidableEq, Repr

structure State where
  log : String → List Entry
  /-- The open turns, with their agents. -/
  opened : List (String × Nat)
  nextTurn : Nat
  live : List Session
  finished : List Finished

inductive Event where
  /-- A call of `run`: whether its signal has aborted already, the exception of
  `followup` if it throws, and the time that has passed. -/
  | call (task : Task) (aborted : Bool) (thrown : Option String) (durationMs : Int)
  /-- The host appends an event of an open turn. -/
  | append (agent : String) (turn : Nat) (event : SessionEvent)
  /-- The `whenIdle` that the call of this turn awaits resolves. -/
  | idle (turn : Nat)
  /-- Its timer fires. -/
  | timeout (turn : Nat)
  /-- Its signal aborts. -/
  | abort (turn : Nat)
  /-- Its grace window ends. -/
  | expire (turn : Nat)
  /-- It reads its slice and returns. -/
  | read (turn : Nat) (durationMs : Int)
  deriving DecidableEq, Repr

/-- An outcome that is returned before any event is read. -/
def early (task : Task) (status : TaskOutcomeStatus) (error : String) (durationMs : Int) :
    Finished where
  task := task
  read := none
  outcome :=
    { taskId := task.id, status, text := none, error := some error, durationMs, raw := none }

def start : State where
  log := fun _ => []
  opened := []
  nextTurn := 0
  live := []
  finished := []

def State.finish (s : State) (done : Finished) : State :=
  { s with finished := s.finished ++ [done] }

def State.record (s : State) (agent : String) (entry : Entry) : State :=
  { s with log := Function.update s.log agent (s.log agent ++ [entry]) }

/-- `run` up to its first `await`. -/
def call (runner : AgentRunner) (s : State) (task : Task) (aborted : Bool) (thrown : Option String)
    (durationMs : Int) : State :=
  if aborted then s.finish (early task .cancelled "cancelled before start" 0)
  else if !runner.known task.agentId then
    s.finish (early task .failed s!"agent '{task.agentId}' not found" durationMs)
  else
    match thrown with
    | some message => s.finish (early task .failed message durationMs)
    | none =>
      { s with
        opened := s.opened ++ [(task.agentId, s.nextTurn)]
        nextTurn := s.nextTurn + 1
        live := s.live ++
          [{ task, turn := s.nextTurn, baseline := (s.log task.agentId).length, phase := .waiting
             converged := false, aborted := false }] }

/-- `session.events.slice(baseline)` -/
def slice (s : State) (session : Session) : List Entry :=
  (s.log session.task.agentId).drop session.baseline

def Session.inputs (session : Session) (durationMs : Int) : OutcomeInputs where
  cancelledBySignal := session.aborted
  timedOut := !session.converged && !session.aborted
  durationMs := durationMs

def finishedOf (s : State) (session : Session) (durationMs : Int) : Finished where
  task := session.task
  read := some (session.turn, slice s session, session.inputs durationMs)
  outcome := outcomeFromEvents session.task.id ((slice s session).map Entry.event)
    (session.inputs durationMs)

/-- Change the live session of the turn. -/
def State.change (s : State) (turn : Nat) (f : Session → Session) : State :=
  { s with live := s.live.map fun session => if session.turn = turn then f session else session }

/-- No turn of the agent is open. -/
def State.quiescent (s : State) (agent : String) : Bool :=
  s.opened.all fun turn => decide (turn.1 ≠ agent)

def State.session? (s : State) (turn : Nat) : Option Session :=
  s.live.find? fun session => decide (session.turn = turn)

def step (runner : AgentRunner) (s : State) : Event → Option State
  | .call task aborted thrown durationMs => some (call runner s task aborted thrown durationMs)
  | .append agent turn event =>
    if (agent, turn) ∈ s.opened then
      some { s.record agent ⟨turn, event⟩ with
        opened := if event.isTurnEnd then s.opened.erase (agent, turn) else s.opened }
    else none
  | .idle turn =>
    match s.session? turn with
    | none => none
    | some session =>
      if session.phase ≠ .ready ∧ s.quiescent session.task.agentId then
        some (s.change turn fun session =>
          { session with phase := .ready
                         converged := session.converged || decide (session.phase = .waiting) })
      else none
  | .timeout turn =>
    match s.session? turn with
    | none => none
    | some session =>
      if (session.task.timeoutMs <|> runner.defaultTimeoutMs).isSome then
        some (s.change turn fun session =>
          if session.phase = .waiting then { session with phase := .grace } else session)
      else none
  | .abort turn =>
    match s.session? turn with
    | none => none
    | some _ =>
      some (s.change turn fun session =>
        { session with aborted := true
                       phase := if session.phase = .waiting then .grace else session.phase })
  | .expire turn =>
    match s.session? turn with
    | none => none
    | some session =>
      if session.phase = .grace then
        some (s.change turn fun session => { session with phase := .ready })
      else none
  | .read turn durationMs =>
    match s.session? turn with
    | none => none
    | some session =>
      if session.phase = .ready then
        some { s with live := s.live.filter fun other => decide (other.turn ≠ turn)
                      finished := s.finished ++ [finishedOf s session durationMs] }
      else none

theorem log_record (s : State) (agent other : String) (entry : Entry) :
    (s.record agent entry).log other =
      if other = agent then s.log other ++ [entry] else s.log other := by
  rw [State.record]
  by_cases same : other = agent
  · subst same
    simp
  · simp [same]

def machine (runner : AgentRunner) : Machine State Event := ⟨step runner⟩

/-- The outcome is what the events of the call's own turn, as far as they were
read, make it. -/
def Finished.Own (done : Finished) : Prop :=
  match done.read with
  | some (turn, entries, inputs) =>
    done.outcome = outcomeFromEvents done.task.id
      ((entries.filter fun entry => decide (entry.turn = turn)).map Entry.event) inputs
  | none => done.outcome.text = none ∧ done.outcome.raw = none

end MultiAgent.Native.Runner
