import MultiAgent.Foundations.Checks
import MultiAgent.Foundations.Lookup
import MultiAgent.Plugin.Dependency
import MultiAgent.Plugin.Text
import Mathlib.Data.Rat.Defs

/-!
# Tasks, results and plans

`runtime/task.py`. Times are exact rationals. The output of a task is whatever
`run_task` returned, so its type is a parameter. `Task.status` is the one
attribute that a run changes; it is kept with the state of the run.
-/

namespace MultiAgent.Plugin

inductive TaskStatus where
  | pending
  | running
  | success
  | failed
  | timeout
  | cancelled
  | skipped
  deriving DecidableEq, Repr

namespace TaskStatus

def value : TaskStatus → String
  | .pending => "pending"
  | .running => "running"
  | .success => "success"
  | .failed => "failed"
  | .timeout => "timeout"
  | .cancelled => "cancelled"
  | .skipped => "skipped"

def isTerminal : TaskStatus → Bool
  | .success | .failed | .timeout | .cancelled | .skipped => true
  | .pending | .running => false

/-- `_UNSUCCESSFUL` of the scheduler. -/
def isUnsuccessful : TaskStatus → Bool
  | .failed | .timeout | .cancelled | .skipped => true
  | .success | .pending | .running => false

end TaskStatus

structure Task where
  id : String
  description : String
  agent : Option String
  dependsOn : List String
  requiredCapabilities : List String
  timeout : Option ℚ
  deriving DecidableEq, Repr

structure TaskResult (α : Type) where
  taskId : String
  status : TaskStatus
  output : Option α
  error : Option String
  agent : Option String
  durationMs : ℚ
  deriving DecidableEq, Repr

/-- The first problem that a plan check finds. -/
inductive PlanValidationError where
  | emptyId
  | duplicateId (id : String)
  | missingDescription (id : String)
  | unknownDependency (id dep : String)
  | selfDependency (id : String)
  | topology (error : TopologyError)
  | unknownAgent (id agent : String)
  | unsupportedCapability (id capability : String)
  deriving DecidableEq, Repr

/-- A constructed plan holds tasks under distinct ids. -/
structure TaskPlan where
  tasks : List Task
  distinct : (tasks.map Task.id).Nodup

namespace TaskPlan

def ids (plan : TaskPlan) : List String := plan.tasks.map Task.id

/-- `{t.id: t.depends_on}` -/
def dependsOn (plan : TaskPlan) (id : String) : List String :=
  match plan.tasks.find? fun task => task.id = id with
  | some task => task.dependsOn
  | none => []

def topologicalOrder (iter : List String → List String) (plan : TaskPlan) :
    Except TopologyError (List String) :=
  Plugin.topologicalOrder iter plan.ids plan.dependsOn

def checkDescription (task : Task) : Except PlanValidationError Unit :=
  if (strip task.description).isEmpty then .error (.missingDescription task.id) else .ok ()

def checkDependency (plan : TaskPlan) (task : Task) (dep : String) :
    Except PlanValidationError Unit :=
  if dep ∉ plan.ids then .error (.unknownDependency task.id dep)
  else if dep = task.id then .error (.selfDependency task.id)
  else .ok ()

def checkAgent (known : List String) (task : Task) : Except PlanValidationError Unit :=
  match task.agent with
  | some agent => if agent ∈ known then .ok () else .error (.unknownAgent task.id agent)
  | none => .ok ()

def checkCapability (known : List String) (task : Task) (capability : String) :
    Except PlanValidationError Unit :=
  if capability ∈ known then .ok () else .error (.unsupportedCapability task.id capability)

def validate (iter : List String → List String) (plan : TaskPlan)
    (knownAgents knownCapabilities : Option (List String)) : Except PlanValidationError Unit := do
  forM plan.tasks checkDescription
  forM plan.tasks fun task => forM task.dependsOn fun dep => plan.checkDependency task dep
  match plan.topologicalOrder iter with
  | .error error => .error (.topology error)
  | .ok _ => .ok ()
  match knownAgents with
  | some known => forM plan.tasks (checkAgent known)
  | none => .ok ()
  match knownCapabilities with
  | some known =>
    forM plan.tasks fun task => forM task.requiredCapabilities (checkCapability known task)
  | none => .ok ()

/-- The loop of the constructor, with the tasks taken so far. -/
def collect : TaskPlan → List Task → Except PlanValidationError TaskPlan
  | plan, [] => .ok plan
  | plan, task :: rest =>
    if task.id.isEmpty then .error .emptyId
    else if fresh : task.id ∈ plan.tasks.map Task.id then .error (.duplicateId task.id)
    else
      collect ⟨plan.tasks ++ [task], by
        rw [List.map_append, List.nodup_append]
        refine ⟨plan.distinct, by simp, ?_⟩
        rintro a ha b hb rfl
        simp only [List.map_cons, List.map_nil, List.mem_singleton] at hb
        exact fresh (hb ▸ ha)⟩ rest

def new (iter : List String → List String) (tasks : List Task) :
    Except PlanValidationError TaskPlan := do
  let plan ← collect ⟨[], List.nodup_nil⟩ tasks
  plan.validate iter none none
  return plan

variable {plan : TaskPlan}

theorem mem_ids {id : String} : id ∈ plan.ids ↔ ∃ task ∈ plan.tasks, task.id = id := List.mem_map

theorem dependsOn_id {task : Task} (member : task ∈ plan.tasks) :
    plan.dependsOn task.id = task.dependsOn := by
  rw [dependsOn, Lookup.find?_eq_some plan.distinct member]

theorem eq_of_id_eq {a b : Task} (ha : a ∈ plan.tasks) (hb : b ∈ plan.tasks) (same : a.id = b.id) :
    a = b :=
  List.inj_on_of_nodup_map plan.distinct ha hb same

end TaskPlan

end MultiAgent.Plugin
