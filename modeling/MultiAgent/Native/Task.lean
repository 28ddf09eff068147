import Mathlib.Data.Rat.Defs
import Mathlib.Data.Rat.Init

/-!
# Tasks and task outcomes

The data of `task.ts` and the outcome types of `runner.ts`. A `Task` here holds
what its constructor fixes; the mutable `status` field belongs to the state of
the run that owns the task, as a function of the id. The free `metadata` record is
plain data, without accessors, so that the constructor can copy it; nothing else reads
it, and it is left out.
-/

namespace MultiAgent.Native

/-- A JavaScript number, up to the sign of zero. -/
inductive JsNumber where
  | nan
  | infinite (negative : Bool)
  | finite (value : ℚ)
  deriving DecidableEq, Repr

inductive TaskStatus where
  | pending
  | ready
  | running
  | completed
  | failed
  | cancelled
  deriving DecidableEq, Repr

/-- The text of a status inside a message. -/
def TaskStatus.text : TaskStatus → String
  | .pending => "pending"
  | .ready => "ready"
  | .running => "running"
  | .completed => "completed"
  | .failed => "failed"
  | .cancelled => "cancelled"

def isTerminalStatus : TaskStatus → Bool
  | .completed | .failed | .cancelled => true
  | .pending | .ready | .running => false

structure TaskSpec where
  id : String
  agentId : String
  prompt : String
  dependsOn : Option (List String)
  timeoutMs : Option JsNumber

/-- Constructed tasks. Only `Task.new` below says which specs give one. -/
structure Task where
  id : String
  agentId : String
  prompt : String
  dependsOn : List String
  timeoutMs : Option JsNumber
  deriving DecidableEq, Repr

/-- A `TypeError` with its message. -/
structure TypeError where
  message : String
  deriving DecidableEq, Repr

def assertNonEmptyString (value field : String) : Except TypeError Unit :=
  if value.isEmpty then .error ⟨s!"Task {field} must be a non-empty string"⟩ else .ok ()

def assertTimeoutMs : Option JsNumber → Except TypeError Unit
  | none => .ok ()
  | some (.finite q) =>
    if q ≤ 0 then .error ⟨"Task timeoutMs must be a finite number > 0"⟩ else .ok ()
  | some _ => .error ⟨"Task timeoutMs must be a finite number > 0"⟩

/-- The duplicate check of the constructor, with the set of ids seen so far. -/
def assertDependencies (id : String) (seen : List String) : List String → Except TypeError Unit
  | [] => .ok ()
  | dep :: deps => do
    assertNonEmptyString dep "dependency id"
    if dep ∈ seen then
      .error ⟨s!"Task '{id}' lists dependency '{dep}' more than once"⟩
    else assertDependencies id (dep :: seen) deps

/-- The constructor of `Task`. The prompt and the dependency array are typed, so
their run-time type checks cannot fail here. -/
def Task.new (spec : TaskSpec) : Except TypeError Task := do
  assertNonEmptyString spec.id "id"
  assertNonEmptyString spec.agentId "agentId"
  assertTimeoutMs spec.timeoutMs
  let dependsOn := spec.dependsOn.getD []
  assertDependencies spec.id [] dependsOn
  return { id := spec.id, agentId := spec.agentId, prompt := spec.prompt
           dependsOn, timeoutMs := spec.timeoutMs }

inductive TaskOutcomeStatus where
  | completed
  | failed
  | cancelled
  deriving DecidableEq, Repr

/-- The status a task takes when it settles with an outcome. -/
def TaskOutcomeStatus.toTaskStatus : TaskOutcomeStatus → TaskStatus
  | .completed => .completed
  | .failed => .failed
  | .cancelled => .cancelled

structure TaskRawEvents where
  assistantMessages : Nat
  toolCalls : Nat
  toolResults : Nat
  turnEndReason : Option String
  deriving DecidableEq, Repr

structure TaskOutcome where
  taskId : String
  status : TaskOutcomeStatus
  text : Option String
  error : Option String
  durationMs : Int
  raw : Option TaskRawEvents
  deriving DecidableEq, Repr

@[simp] theorem isTerminalStatus_toTaskStatus (s : TaskOutcomeStatus) :
    isTerminalStatus s.toTaskStatus = true := by
  cases s <;> rfl

theorem toTaskStatus_injective : Function.Injective TaskOutcomeStatus.toTaskStatus := by
  intro a b h
  cases a <;> cases b <;> simp_all [TaskOutcomeStatus.toTaskStatus]

end MultiAgent.Native
