import MultiAgent.Foundations.DepthFirst
import MultiAgent.Foundations.Dict
import MultiAgent.Native.Task

/-!
# Plans and their validation

`planner/types.ts`, `planner/errors.ts`, `planner/validator.ts` and the part of
`recovery/repair.ts` that the validator calls. `validate` walks the tasks in
declaration order and collects findings; the hard ones reject the plan, and
`validateAndRepair` hands the others to the repair layer, which drops the fields
they are about.
-/

namespace MultiAgent.Native

/-- A free record, by its JSON text. Functions pass it on and never read it. -/
structure Metadata where
  json : String
  deriving DecidableEq, Repr

structure AgentDescriptor where
  id : String
  capabilities : List String
  deriving DecidableEq, Repr

structure PlanTask where
  id : String
  prompt : String
  agentId : Option String
  requiredCapabilities : Option (List String)
  dependsOn : Option (List String)
  timeoutMs : Option JsNumber
  metadata : Option Metadata
  deriving DecidableEq, Repr

structure PlannerPlan where
  tasks : List PlanTask
  deriving DecidableEq, Repr

inductive PlanIssueSeverity where
  | error
  | warning
  deriving DecidableEq, Repr

inductive PlanIssueCode where
  | emptyPlan
  | duplicateTaskId
  | emptyTaskId
  | missingPrompt
  | selfDependency
  | unknownDependency
  | cycle
  | unknownAgent
  | unsupportedCapability
  deriving DecidableEq, Repr

structure PlanIssue where
  severity : PlanIssueSeverity
  code : PlanIssueCode
  message : String
  taskId : Option String
  deriving DecidableEq, Repr

structure ValidatedPlan where
  plan : PlannerPlan
  issues : List PlanIssue
  repaired : Bool
  deriving DecidableEq, Repr

/-- The errors of the planner layer, by their `kind`. -/
inductive PlannerError where
  | parse (message : String)
  | validation (message : String) (issues : List PlanIssue)
  | routing (message : String) (taskId : Option String)
  | integration (message : String)
  deriving DecidableEq, Repr

def PlannerError.message : PlannerError → String
  | .parse message | .validation message _ | .routing message _ | .integration message => message

/-- `task.requiredCapabilities.every((cap) => agent.capabilities.includes(cap))` -/
def AgentDescriptor.holds (agent : AgentDescriptor) (required : List String) : Bool :=
  required.all fun cap => decide (cap ∈ agent.capabilities)

namespace PlanValidator

/-- The local variables of `validate`. -/
structure Findings where
  issues : List PlanIssue
  anyError : Bool
  seenIds : List String

def Findings.error (f : Findings) (code : PlanIssueCode) (message : String)
    (taskId : Option String) : Findings :=
  { f with issues := f.issues ++ [⟨.error, code, message, taskId⟩], anyError := true }

def Findings.warn (f : Findings) (code : PlanIssueCode) (message : String)
    (taskId : Option String) : Findings :=
  { f with issues := f.issues ++ [⟨.warning, code, message, taskId⟩] }

def checkDependency (idSet : List String) (task : PlanTask) (f : Findings) (dep : String) :
    Findings :=
  if dep = task.id then
    f.error .selfDependency s!"task '{task.id}' depends on itself" (some task.id)
  else if dep ∉ idSet then
    f.error .unknownDependency s!"task '{task.id}' depends on unknown task '{dep}'" (some task.id)
  else f

def checkAgent (agents : List AgentDescriptor) (task : PlanTask) (f : Findings) : Findings :=
  match task.agentId with
  | some agentId =>
    if agentId ∈ agents.map AgentDescriptor.id then f
    else
      f.warn .unknownAgent s!"task '{task.id}' names unknown agent '{agentId}'; reassigning"
        (some task.id)
  | none => f

def checkCapabilities (agents : List AgentDescriptor) (task : PlanTask) (f : Findings) : Findings :=
  match task.requiredCapabilities with
  | some required =>
    if required ≠ [] ∧ (agents.any fun agent => agent.holds required) = false then
      f.warn .unsupportedCapability s!"task '{task.id}' requires unsupported capabilities; dropping"
        (some task.id)
    else f
  | none => f

/-- The body of the loop over the tasks. -/
def checkTask (agents : List AgentDescriptor) (idSet : List String) (f : Findings)
    (task : PlanTask) : Findings :=
  if task.id.isEmpty then f.error .emptyTaskId "task id must be a non-empty string" none
  else if task.id ∈ f.seenIds then
    f.error .duplicateTaskId s!"duplicate task id '{task.id}'" (some task.id)
  else
    let f := { f with seenIds := f.seenIds ++ [task.id] }
    if task.prompt.isEmpty then
      f.error .missingPrompt s!"task '{task.id}' has no prompt" (some task.id)
    else
      let f := (task.dependsOn.getD []).foldl (checkDependency idSet task) f
      checkCapabilities agents task (checkAgent agents task f)

/-- `byId.get(id)?.dependsOn ?? []`; of several tasks under one id the last is
in the map. -/
def dependsOnOf (tasks : List PlanTask) (id : String) : List String :=
  match tasks.reverse.find? fun task => task.id = id with
  | some task => task.dependsOn.getD []
  | none => []

def findCycle (tasks : List PlanTask) : List String :=
  (DepthFirst.findCycle (dependsOnOf tasks) (tasks.map PlanTask.id)).getD []

def findings (agents : List AgentDescriptor) (tasks : List PlanTask) : Findings :=
  let f := tasks.foldl (checkTask agents (tasks.map PlanTask.id)) ⟨[], false, []⟩
  let cycle := findCycle tasks
  if cycle ≠ [] then
    let path := " -> ".intercalate cycle
    f.error .cycle s!"dependency cycle: {path}" none
  else f

def validate (agents : List AgentDescriptor) (input : PlannerPlan) :
    Except PlannerError ValidatedPlan :=
  if input.tasks = [] then
    .error (.validation "empty plan" [⟨.error, .emptyPlan, "plan contains no tasks", none⟩])
  else
    let f := findings agents input.tasks
    if f.anyError then .error (.validation "plan failed validation" f.issues)
    else .ok { plan := ⟨input.tasks⟩, issues := f.issues, repaired := false }

end PlanValidator

inductive RepairAction where
  | dropAgent
  | dropCapabilities
  deriving DecidableEq, Repr

structure RepairRecord where
  taskId : String
  action : RepairAction
  detail : String
  deriving DecidableEq, Repr

structure PlanRepair where
  plan : PlannerPlan
  records : List RepairRecord
  deriving DecidableEq, Repr

/-- What is to be dropped from one task. -/
structure Fix where
  dropAgent : Bool
  dropCaps : Bool
  deriving DecidableEq, Repr

/-- `REPAIRABLE_CODES` -/
def repairableCodes : List PlanIssueCode := [.unknownAgent, .unsupportedCapability]

/-- The body of the loop over the issues, on the map `perTask`. -/
def collectFix (perTask : Dict String Fix) (issue : PlanIssue) : Dict String Fix :=
  match issue.taskId with
  | some taskId =>
    if issue.code ∉ repairableCodes then perTask
    else
      let entry := (perTask.get? taskId).getD ⟨false, false⟩
      perTask.set taskId
        (if issue.code = .unknownAgent then { entry with dropAgent := true }
         else { entry with dropCaps := true })
  | none => perTask

def dropAgent (fix : Fix) (task : PlanTask) : PlanTask × List RepairRecord :=
  if fix.dropAgent && task.agentId.isSome then
    ({ task with agentId := none },
      [⟨task.id, .dropAgent, "unknown explicit agent removed so the Router can reassign"⟩])
  else (task, [])

def dropCapabilities (fix : Fix) (task : PlanTask) : PlanTask × List RepairRecord :=
  if fix.dropCaps && task.requiredCapabilities.isSome then
    ({ task with requiredCapabilities := none },
      [⟨task.id, .dropCapabilities,
        "unsupported capability requirement removed so the task stays routable"⟩])
  else (task, [])

def repairTask (perTask : Dict String Fix) (task : PlanTask) : PlanTask × List RepairRecord :=
  match perTask.get? task.id with
  | none => (task, [])
  | some fix =>
    let agent := dropAgent fix task
    let caps := dropCapabilities fix agent.1
    (caps.1, agent.2 ++ caps.2)

/-- `none` when nothing in the issues is repairable. -/
def applyIssueRepairs (plan : PlannerPlan) (issues : List PlanIssue) : Option PlanRepair :=
  let perTask := issues.foldl collectFix Dict.empty
  if perTask.keys = [] then none
  else
    let repaired := plan.tasks.map (repairTask perTask)
    some { plan := ⟨repaired.map Prod.fst⟩, records := repaired.flatMap Prod.snd }

/-- `new PlanValidator({ agents }).validateAndRepair(input)` -/
def PlanValidator.validateAndRepair (agents : List AgentDescriptor) (input : PlannerPlan) :
    Except PlannerError ValidatedPlan := do
  let validated ← PlanValidator.validate agents input
  match applyIssueRepairs validated.plan validated.issues with
  | none => return validated
  | some repair => return { plan := repair.plan, issues := validated.issues, repaired := true }

end MultiAgent.Native
