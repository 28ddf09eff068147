import MultiAgent.Foundations.Machine
import Mathlib.Logic.Function.Basic

/-!
# Records of agent calls

Who records a call: `_run_agent_once`, `_call_agent` and `_parallel` of `strategies.py`,
`AgentHealth` of `observability.py`. The worker tests the flag of its call and then records,
the caller sets it and then records, and the counters of an agent are made by the first that
looks for them. Each of these is a step of its own, so the runs of the machine are the
interleavings of any number of calls.
-/

namespace MultiAgent.Plugin

namespace CallRecords

inductive Status where
  | ok
  | error
  | timeout
  deriving DecidableEq

/-- `AgentHealth`, less `total_ms` -/
structure Health where
  calls : Nat
  ok : Nat
  errors : Nat
  timeouts : Nat
  deriving DecidableEq

namespace Health

def empty : Health := ⟨0, 0, 0, 0⟩

/-- `note`; when the seconds are `None` it raises behind its first statement. -/
def note (health : Health) (status : Status) (timed : Bool) : Health :=
  let health := { health with calls := health.calls + 1 }
  if timed then
    match status with
    | .ok => { health with ok := health.ok + 1 }
    | .timeout => { health with timeouts := health.timeouts + 1 }
    | .error => { health with errors := health.errors + 1 }
  else health

end Health

/-- How a call is dispatched: in the thread of its caller, by `_call_agent` with a timeout, or
by `_parallel`. -/
inductive Kind where
  | inline
  | single
  | parallel
  deriving DecidableEq

/-- The statements of `_note_call`. -/
inductive Recording where
  /-- `getattr` of `_health_of` -/
  | lookup
  /-- A new object was made and is to be attached to the agent. -/
  | attach (object : Nat)
  | note (object : Nat)
  | span
  deriving DecidableEq

/-- Where the worker of a call stands. -/
inductive Worker where
  | queued
  | cancelled
  /-- The submit was refused. -/
  | absent
  /-- `budget.reserve` raised. -/
  | rejected
  | running
  | finished (status : Status)
  /-- The flag was set. -/
  | skipped
  | recording (status : Status) (now : Recording)
  | recorded (status : Status)
  deriving DecidableEq

/-- Where the caller stands that waits for a call. -/
inductive Caller where
  | waiting
  | returned
  /-- Before `future.cancel` of a call that is marked as a timeout. -/
  | cancelling
  | recording (now : Recording)
  | timedOut
  /-- Before `future.cancel` in `_cancel_entries`. -/
  | abandoning
  | abandoned
  /-- `TypeError` left the record. -/
  | stopped
  deriving DecidableEq

/-- A call, with what was noted for it and the spans that its trace got. -/
structure Call where
  agent : String
  kind : Kind
  /-- A timeout was given, or there is a run deadline. -/
  timed : Bool
  traced : Bool
  /-- `timed_out` -/
  flag : Bool
  worker : Worker
  caller : Caller
  noted : List Status
  spans : List Status

/-- What a step does to the counters of the agent. -/
inductive Effect where
  | none
  | make
  | attach (object : Nat)
  | note (object : Nat) (status : Status) (timed : Bool)

/-- One statement of `_note_call`; `found` is the object that the agent has. -/
def Recording.next (found : Option Nat) (fresh : Nat) (status : Status) :
    Recording → Option Recording × Effect
  | .lookup =>
    match found with
    | some object => (some (.note object), .none)
    | none => (some (.attach fresh), .make)
  | .attach object => (some (.note object), .attach object)
  | .note object => (some .span, .note object status true)
  | .span => (none, .none)

namespace Call

/-- What a statement of `_note_call` leaves behind. -/
def record (call : Call) (status : Status) : Recording → Call
  | .lookup | .attach _ => call
  | .note _ => { call with noted := call.noted ++ [status] }
  | .span => if call.traced then { call with spans := call.spans ++ [status] } else call

/-- The `finally` of `_run_agent_once`. -/
def work (found : Option Nat) (fresh : Nat) (call : Call) : Option (Call × Effect) :=
  match call.worker with
  | .finished status =>
    some ({ call with worker := if call.flag then .skipped else .recording status .lookup }, .none)
  | .recording status now =>
    let taken := now.next found fresh status
    some ({ call.record status now with
      worker := taken.1.elim (.recorded status) (.recording status) }, taken.2)
  | _ => none

/-- `future.cancel` -/
def cancel (call : Call) : Call :=
  if call.worker = .queued then { call with worker := .cancelled } else call

/-- What the caller does behind the flag. -/
def report (found : Option Nat) (fresh : Nat) (call : Call) : Option (Call × Effect) :=
  match call.caller with
  | .cancelling => some ({ call.cancel with caller := .recording .lookup }, .none)
  | .abandoning => some ({ call.cancel with caller := .abandoned }, .none)
  | .recording now =>
    match now, call.timed with
    | .note object, false => some ({ call with caller := .stopped }, .note object .timeout false)
    | now, _ =>
      let taken := now.next found fresh .timeout
      some ({ call.record .timeout now with caller := taken.1.elim .timedOut .recording }, taken.2)
  | _ => none

end Call

/-- The steps of a call. -/
inductive Act where
  /-- The worker begins, and `budget.reserve` returns. -/
  | start
  /-- The worker begins, and `budget.reserve` raises. -/
  | reject
  /-- `agent.handle` ends; `failed` says that it raised what becomes an error. -/
  | finish (failed : Bool)
  | work
  /-- The caller takes the result. -/
  | take
  /-- The caller sets the flag of a call that is a timeout for it. -/
  | giveUp
  /-- The caller sets the flag and raises `RunTimeout` or `BudgetExceeded`. -/
  | abandon
  | report
  deriving DecidableEq

def Worker.isDone : Worker → Bool
  | .rejected | .skipped | .recorded _ => true
  | _ => false

/-- One step of a call; `none` when it is not enabled. -/
def Call.step (found : Option Nat) (fresh : Nat) (call : Call) : Act → Option (Call × Effect)
  | .start =>
    if call.worker = .queued then some ({ call with worker := .running }, .none) else none
  | .reject =>
    if call.worker = .queued then some ({ call with worker := .rejected }, .none) else none
  | .finish failed =>
    if call.worker = .running then
      some ({ call with worker := .finished (if failed then .error else .ok) }, .none)
    else none
  | .work => call.work found fresh
  | .take =>
    if call.caller = .waiting ∧ call.worker.isDone then
      some ({ call with caller := .returned }, .none)
    else none
  | .giveUp =>
    if call.caller = .waiting ∧ call.kind ≠ .inline ∧ call.timed then
      some ({ call with
        flag := true
        caller := if call.kind = .parallel then .cancelling else .recording .lookup }, .none)
    else none
  | .abandon =>
    if call.caller = .waiting ∧ call.kind ≠ .inline then
      some ({ call with
        flag := true
        caller := if call.kind = .parallel then .abandoning else .abandoned }, .none)
    else none
  | .report => call.report found fresh

structure State where
  /-- `_dsma_health` of the agents: which object it is, and its counters. -/
  health : String → Option (Nat × Health)
  /-- The number of objects made. -/
  made : Nat
  calls : List Call

namespace State

def object (s : State) (agent : String) : Option Nat := (s.health agent).map Prod.fst

/-- The counters of an agent; `agent_health` -/
def counters (s : State) (agent : String) : Health := (s.health agent).elim .empty Prod.snd

/-- `takes` says of an agent that attributes can be set on it. A note on an object that its
agent does not have is not seen again. -/
def apply (takes : String → Bool) (s : State) (agent : String) : Effect → State
  | .none => s
  | .make => { s with made := s.made + 1 }
  | .attach object =>
    if takes agent then
      { s with health := Function.update s.health agent (some (object, .empty)) }
    else s
  | .note object status timed =>
    match s.health agent with
    | some (own, health) =>
      if own = object then
        { s with
          health := Function.update s.health agent (some (own, health.note status timed)) }
      else s
    | none => s

end State

inductive Event where
  | submit (agent : String) (kind : Kind) (timed traced : Bool)
  /-- `PoolSaturated`, noted as a timeout -/
  | refuse (agent : String) (kind : Kind) (timed traced : Bool)
  | act (index : Nat) (act : Act)

/-- `_call_agent` without a timeout calls its agent inline. -/
def Kind.admits (timed : Bool) : Kind → Bool
  | .inline | .parallel => true
  | .single => timed

def step (takes : String → Bool) (s : State) : Event → Option State
  | .submit agent kind timed traced =>
    if kind.admits timed then
      some { s with calls :=
        s.calls ++ [⟨agent, kind, timed, traced, false, .queued, .waiting, [], []⟩] }
    else none
  | .refuse agent kind timed traced =>
    if kind ≠ .inline ∧ kind.admits timed then
      some { s with calls :=
        s.calls ++ [⟨agent, kind, timed, traced, false, .absent, .recording .lookup, [], []⟩] }
    else none
  | .act index act =>
    s.calls[index]?.bind fun call =>
      (call.step (s.object call.agent) s.made act).map fun moved =>
        { s.apply takes call.agent moved.2 with calls := s.calls.set index moved.1 }

def machine (takes : String → Bool) : Machine State Event := ⟨step takes⟩

def start : State := ⟨fun _ => none, 0, []⟩

end CallRecords

end MultiAgent.Plugin
