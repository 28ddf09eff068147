import MultiAgent.Foundations.Fences
import MultiAgent.Plugin.Agents
import MultiAgent.Plugin.Dependency.Acyclic
import MultiAgent.Plugin.Json.Text
import MultiAgent.Plugin.Task
import Mathlib.Data.Finset.Sort
import Mathlib.Data.String.Basic

/-!
# Plans of the supervisor

`supervisor.py` up to a validated plan: the JSON of a text, its tasks, and the passes of
validation and repair, which change the tasks in place. A plan refers to the same tasks, so
it is read off them when it is returned. `str` of a value that is no string is a parameter,
and so is how deeply `json.loads` nests; what `agent_for` answers does not change while a plan
is made.
-/

namespace MultiAgent.Plugin

namespace Planning

/-- The exceptions that leave the functions below. -/
inductive Raised where
  | planValidation (error : PlanValidationError)
  | typeError (text : String)
  | zeroDivision
  | recursionError
  deriving DecidableEq

section Parsing

variable (floats : Json.Format) (depth : Nat) (repr : Json → String)

/-- `_PLACEHOLDER_DEPENDENCY` -/
def placeholderDependency : String := "前置任务的 id，没有依赖则为空数组"

/-- `_json_candidates` -/
def jsonCandidates (text : String) : List (List Char) :=
  let stripped (chars : List Char) : List Char := (strip (String.ofList chars)).toList
  (Fences.fences '\u0060' "json".toList isSpace text.toList).map stripped ++
    (Fences.span '\x7b' '\x7d' text.toList).toList ++ [stripped text.toList]

/-- The dicts of a list of tasks. -/
def dictsOf : Json → Option (List Object)
  | .arr items => some (items.filterMap fun
    | .obj fields => some fields
    | _ => none)
  | _ => none

/-- The loop of `_parse_json_tasks`. -/
def parseCandidates : List (List Char) → Except Raised (Option (List Object))
  | [] => .ok none
  | candidate :: rest =>
    match Json.loadsWithin floats depth candidate with
    | .value (.obj fields) => .ok (dictsOf (Object.get fields "tasks"))
    | .value (.arr items) => .ok (dictsOf (.arr items))
    | .value _ => parseCandidates rest
    | .valueError => parseCandidates rest
    | .recursionError => .error .recursionError

def parseJsonTasks (text : String) : Except Raised (Option (List Object)) :=
  parseCandidates floats depth (jsonCandidates text)

theorem length_renamed (taskId : String) (n : Nat) : taskId.length < s!"{taskId}_r{n}".length := by
  have two : "_r".length = 2 := rfl
  simp only [toString, String.length_append]
  omega

/-- Fewer of the used ids are at least as long as a longer id. -/
theorem filter_longer {used : List String} {taskId longer : String} (member : taskId ∈ used)
    (grows : taskId.length < longer.length) :
    (used.filter fun other => decide (longer.length ≤ other.length)).length <
      (used.filter fun other => decide (taskId.length ≤ other.length)).length := by
  have fewer : (used.filter fun other => decide (longer.length ≤ other.length)).Sublist
      (used.filter fun other => decide (taskId.length ≤ other.length)) := by
    apply List.monotone_filter_right
    intro other enough
    simp only [decide_eq_true_eq] at enough ⊢
    omega
  apply lt_of_le_of_ne fewer.length_le
  intro same
  have inside : taskId ∈ used.filter fun other => decide (taskId.length ≤ other.length) :=
    List.mem_filter.mpr ⟨member, by simp⟩
  rw [← fewer.eq_of_length same] at inside
  have long := of_decide_eq_true (List.mem_filter.mp inside).2
  omega

/-- The loop that renames an id until it is not used: each round makes it longer. -/
def freshId (used : List String) (taskId : String) : String :=
  if taskId ∈ used then freshId used s!"{taskId}_r{used.length}" else taskId
termination_by (used.filter fun other => decide (taskId.length ≤ other.length)).length
decreasing_by
  rename_i member
  exact filter_longer member (length_renamed taskId _)

/-- What `depends_on` goes through. -/
def dependenciesOf (entry : Object) : Except Raised (List String) :=
  match ((Object.get entry "depends_on").orElse (.arr [])).iterate with
  | .error text => .error (.typeError text)
  | .ok deps => .ok ((deps.map fun dep => strip (dep.toStr repr)).filter fun dep =>
      decide (dep ≠ "" ∧ dep ≠ placeholderDependency))

def capabilitiesOf (entry : Object) : Except Raised (List String) :=
  match asCapabilities (fun value => .ok (value.toStr repr))
      (Object.get entry "required_capabilities") with
  | .error text => .error (.typeError text)
  | .ok names => .ok names.sort

def descriptionOf (entry : Object) : String :=
  strip (((Object.get entry "description").orElse
    ((Object.get entry "task").orElse (.str ""))).toStr repr)

def idOf (entry : Object) (index : Nat) : String :=
  let taskId := strip (((Object.get entry "id").orElse (.str s!"task_{index}")).toStr repr)
  if taskId = "" then s!"task_{index}" else taskId

def agentOf (entry : Object) : Option String :=
  if (Object.get entry "agent").truthy then some (strip ((Object.get entry "agent").toStr repr))
  else none

/-- The entries from number `index` on, after the tasks with the ids `used`. -/
def tasksFrom (used : List String) (index : Nat) : List Object → Except Raised (List Task)
  | [] => .ok []
  | entry :: rest =>
    if descriptionOf repr entry = "" then tasksFrom used (index + 1) rest
    else do
      let taskId := freshId used (idOf repr entry index)
      let dependsOn ← dependenciesOf repr entry
      let capabilities ← capabilitiesOf repr entry
      let tasks ← tasksFrom (used ++ [taskId]) (index + 1) rest
      return ⟨taskId, descriptionOf repr entry, agentOf repr entry, dependsOn, capabilities,
        none⟩ :: tasks

def tasksFromJson (raw : List Object) : Except Raised (List Task) := tasksFrom repr [] 1 raw

/-- The line ends of `str.splitlines`. -/
def isLineEnd (c : Char) : Bool :=
  decide (c ∈ ['\n', '\r', '\x0b', '\x0c', '\x1c', '\x1d', '\x1e', '\u0085', '\u2028', '\u2029'])

/-- `text.splitlines()`; a carriage return and a line feed that follow each other give one
empty line more, which makes no task. -/
def splitLines (text : String) : List String := (text.toList.splitOnP isLineEnd).map String.ofList

/-- `line.strip().lstrip("-*0123456789. ")` -/
def lineText (line : String) : String :=
  String.ofList ((strip line).toList.dropWhile fun c => decide (c ∈ "-*0123456789. ".toList))

def tasksFromLines (text prompt : String) : List Task :=
  let lines := ((splitLines text).map lineText).filter fun line => decide (line ≠ "")
  if lines = [] then [⟨"task_1", prompt, none, [], [], none⟩]
  else lines.zipIdx.map fun (line, i) => ⟨s!"task_{i + 1}", line, none, [], [], none⟩

end Parsing

/-- `WorkerRouter`, without its cursor. -/
structure WorkerRouter where
  workers : List String
  /-- The capabilities of the agent that is registered under a name. -/
  agentFor : String → Option (Finset String)

namespace WorkerRouter

variable (router : WorkerRouter)

def capabilities (name : String) : Finset String := (router.agentFor name).getD ∅

def roundRobin (pool : List String) (cursor : Nat) : Except Raised (String × Nat) :=
  match pool[cursor % pool.length]? with
  | some name => .ok (name, cursor + 1)
  | none => .error .zeroDivision

def candidates (required : Finset String) : List String :=
  router.workers.filter fun worker => decide (required ⊆ router.capabilities worker)

/-- `assign`, with the cursor. -/
def assign (cursor : Nat) (preferred : Option String) (required : List String) :
    Except Raised (String × Nat) :=
  match preferred.filter fun name => decide (name ≠ "" ∧ name ∈ router.workers) with
  | some name => .ok (name, cursor)
  | none =>
    let required := capabilityNames required
    if required.Nonempty ∧ router.candidates required ≠ [] then
      roundRobin (router.candidates required) cursor
    else roundRobin router.workers cursor

end WorkerRouter

inductive Note where
  | reassigned (id before agent : String)
  | droppedCapabilities (id : String) (capabilities : List String)
  | droppedDependencies (id : String) (dependencies : List String)
  | clearedCycle (id : String)
  deriving DecidableEq

/-- The tasks as they stand, the cursor of the router, and `info["notes"]`. -/
structure State where
  tasks : List Task
  cursor : Nat
  notes : List Note

section Passes

variable (set : SetIteration) (router : WorkerRouter) (knownAgents knownCaps : List String)

/-- `TaskPlan(tasks)`, and its validation against the workers. -/
def check (tasks : List Task) : Except PlanValidationError Unit := do
  let plan ← TaskPlan.new set.iter tasks
  plan.validate set.iter (some knownAgents) (some knownCaps)

/-- `_route_agents` -/
def routeAgents (router : WorkerRouter) (cursor : Nat) : List Task → Except Raised (List Task × Nat)
  | [] => .ok ([], cursor)
  | task :: rest => do
    let (agent, cursor) ← router.assign cursor task.agent task.requiredCapabilities
    let (rest, cursor) ← routeAgents router cursor rest
    return ({ task with agent := some agent } :: rest, cursor)

/-- One round of `_repair_tasks`: the task, the cursor, and the notes. -/
def repairTask (cursor : Nat) (task : Task) : Except Raised (Task × Nat × List Note) := do
  let (agent, cursor) ← router.assign cursor task.agent task.requiredCapabilities
  let reassigned := match task.agent with
    | some before =>
      if before ∉ knownAgents ∧ agent ≠ before then [.reassigned task.id before agent] else []
    | none => []
  let badCaps := task.requiredCapabilities.filter fun cap => decide (cap ∉ knownCaps)
  let dropped := if badCaps = [] then [] else [.droppedCapabilities task.id badCaps]
  let kept := task.requiredCapabilities.filter fun cap => decide (cap ∈ knownCaps)
  return ({ task with
    agent := some agent
    requiredCapabilities := if badCaps = [] then task.requiredCapabilities else kept },
    cursor, reassigned ++ dropped)

/-- `_repair_tasks` -/
def repairTasks (cursor : Nat) : List Task → Except Raised (List Task × Nat × List Note)
  | [] => .ok ([], cursor, [])
  | task :: rest => do
    let (task, cursor, notes) ← repairTask router knownAgents knownCaps cursor task
    let (rest, cursor, later) ← repairTasks cursor rest
    return (task :: rest, cursor, notes ++ later)

/-- The dependencies that the fallback keeps. -/
def keptDependencies (ids : List String) (task : Task) : List String :=
  task.dependsOn.filter fun dep => decide (dep ∈ ids ∧ dep ≠ task.id)

/-- The first loop of `_apply_dependency_fallback`. -/
def dropDependencies (ids : List String) (task : Task) : Task × List Note :=
  let kept := keptDependencies ids task
  let dropped := task.dependsOn.filter fun dep => decide (dep ∉ kept)
  if dropped = [] then (task, [])
  else ({ task with dependsOn := kept }, [.droppedDependencies task.id dropped])

/-- `{t.id: t.depends_on for t in tasks}`, where the last task of an id counts. -/
def edgesOf (tasks : List Task) (id : String) : List String :=
  match tasks.reverse.find? fun task => task.id = id with
  | some task => task.dependsOn
  | none => []

/-- The second loop of `_apply_dependency_fallback`. -/
def clearDependencies (task : Task) : Task × List Note :=
  if task.dependsOn = [] then (task, [])
  else ({ task with dependsOn := [] }, [.clearedCycle task.id])

/-- `_apply_dependency_fallback` -/
def applyDependencyFallback (tasks : List Task) : List Task × List Note :=
  let ids := tasks.map Task.id
  let pruned := tasks.map (dropDependencies ids)
  let kept := pruned.map Prod.fst
  let notes := pruned.flatMap Prod.snd
  match topologicalOrder set.iter ids (edgesOf kept) with
  | .ok _ => (kept, notes)
  | .error _ =>
    let cleared := kept.map clearDependencies
    (cleared.map Prod.fst, notes ++ cleared.flatMap Prod.snd)

/-- The attempts of `_validate_and_repair`, of which `attempts` have a repair behind them:
the tasks as they are left, and whether their plan is returned. -/
def attempt (allowDependencyFallback : Bool) : Nat → State → State × Except Raised Unit
  | attempts, s =>
    match check set knownAgents knownCaps s.tasks with
    | .ok () => route s
    | .error error =>
      match attempts with
      | left + 1 =>
        match repairTasks router knownAgents knownCaps s.cursor s.tasks with
        | .ok (tasks, cursor, notes) =>
          attempt allowDependencyFallback left ⟨tasks, cursor, s.notes ++ notes⟩
        | .error error => (s, .error error)
      | 0 =>
        if allowDependencyFallback then
          let (tasks, notes) := applyDependencyFallback set s.tasks
          let s : State := { s with tasks, notes := s.notes ++ notes }
          match check set knownAgents knownCaps s.tasks with
          | .ok () => route s
          | .error error => (s, .error (.planValidation error))
        else (s, .error (.planValidation error))
where
  route (s : State) : State × Except Raised Unit :=
    match routeAgents router s.cursor s.tasks with
    | .ok (tasks, cursor) => (⟨tasks, cursor, s.notes⟩, .ok ())
    | .error error => (s, .error error)

/-- `_validate_and_repair` -/
def validateAndRepair (allowDependencyFallback : Bool) (maxRepairAttempts : Int) (s : State) :
    State × Except Raised Unit :=
  attempt set router knownAgents knownCaps allowDependencyFallback (max 0 maxRepairAttempts).toNat s

end Passes

section Parse

variable (floats : Json.Format) (depth : Nat) (repr : Json → String) (set : SetIteration)

/-- The tasks of a text, and the format that is reported. -/
def parseTasks (text prompt : String) : Except Raised (List Task × String) :=
  match parseJsonTasks floats depth text with
  | .error error => .error error
  | .ok none | .ok (some []) => .ok (tasksFromLines text prompt, "lines")
  | .ok (some raw) => do
    let tasks ← tasksFromJson repr raw
    return if tasks = [] then (tasksFromLines text prompt, "lines") else (tasks, "json")

/-- The capabilities of all the workers. -/
def knownCapabilities (router : WorkerRouter) : List String :=
  router.workers.flatMap fun worker => (router.capabilities worker).sort

/-- `parse_plan`: the tasks of the plan, the format, and the notes. -/
def parsePlan (text prompt : String) (router : WorkerRouter) (allowDependencyFallback : Bool)
    (maxRepairAttempts : Int) : Except Raised (List Task × String × List Note) := do
  let (tasks, format) ← parseTasks floats depth repr text prompt
  let (s, result) := validateAndRepair set router router.workers (knownCapabilities router)
    allowDependencyFallback maxRepairAttempts ⟨tasks, 0, []⟩
  result
  return (s.tasks, format, s.notes)

end Parse

end Planning

end MultiAgent.Plugin
