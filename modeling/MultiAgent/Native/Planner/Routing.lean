import MultiAgent.Foundations.Checks
import MultiAgent.Native.Planner.Plan
import Mathlib.Data.List.Dedup

/-!
# Routing a plan and mapping it onto a strategy

`planner/router.ts` and the synchronous part of `planner/integration.ts`. The
router gives each task an agent; the integration orders the routed tasks and
builds the plan that the supervisor runs.
-/

namespace MultiAgent.Native

inductive RouteReason where
  | explicit
  | capability
  | roundRobin
  deriving DecidableEq, Repr

structure RouteAssignment where
  taskId : String
  agentId : String
  reason : RouteReason
  deriving DecidableEq, Repr

structure RoutedTask where
  id : String
  prompt : String
  agentId : String
  dependsOn : Option (List String)
  timeoutMs : Option JsNumber
  metadata : Option Metadata
  deriving DecidableEq, Repr

structure RoutedPlan where
  tasks : List RoutedTask
  assignments : List RouteAssignment
  deriving DecidableEq, Repr

/-- A router and its round-robin cursor. -/
structure AgentRouter where
  agents : List AgentDescriptor
  nonempty : 0 < agents.length
  rr : Nat

namespace AgentRouter

def new (agents : List AgentDescriptor) : Except PlannerError AgentRouter :=
  if h : 0 < agents.length then .ok ⟨agents, h, 0⟩
  else .error (.routing "cannot route with an empty agent pool" none)

def matchCapabilities (task : PlanTask) (agent : AgentDescriptor) : Bool :=
  match task.requiredCapabilities with
  | none => false
  | some required => decide (required ≠ []) && agent.holds required

/-- The agent under the cursor, and the advanced cursor. -/
def roundRobin (router : AgentRouter) (task : PlanTask) : RouteAssignment × AgentRouter :=
  let agent := router.agents.get
    ⟨router.rr % router.agents.length, Nat.mod_lt _ router.nonempty⟩
  (⟨task.id, agent.id, .roundRobin⟩, { router with rr := router.rr + 1 })

def byCapability (router : AgentRouter) (task : PlanTask) : RouteAssignment × AgentRouter :=
  match router.agents.find? (matchCapabilities task) with
  | some agent => (⟨task.id, agent.id, .capability⟩, router)
  | none => router.roundRobin task

def assign (router : AgentRouter) (task : PlanTask) : RouteAssignment × AgentRouter :=
  match task.agentId with
  | none => router.byCapability task
  | some explicit =>
    match router.agents.find? fun candidate => candidate.id = explicit with
    | some agent => (⟨task.id, agent.id, .explicit⟩, router)
    | none => router.byCapability task

def assignAll : AgentRouter → List PlanTask → List RouteAssignment
  | _, [] => []
  | router, task :: tasks =>
    let assigned := router.assign task
    assigned.1 :: assignAll assigned.2 tasks

def routeTask (task : PlanTask) (assignment : RouteAssignment) : RoutedTask where
  id := task.id
  prompt := task.prompt
  agentId := assignment.agentId
  dependsOn := task.dependsOn
  timeoutMs := task.timeoutMs
  metadata := task.metadata

def route (router : AgentRouter) (plan : List PlanTask) : RoutedPlan :=
  let assignments := router.assignAll plan
  { tasks := plan.zipWith routeTask assignments, assignments }

end AgentRouter

/-- The entry of a task in `pending`; of several tasks under one id the last is
in the map. The source removes done ids from the entry as it goes. -/
def pendingOf (tasks : List RoutedTask) (id : String) : List String :=
  match tasks.reverse.find? fun task => task.id = id with
  | some task => task.dependsOn.getD []
  | none => []

/-- One turn of the inner loop on `order`; `done` holds the ids of `order`. -/
def visitTask (tasks order : List RoutedTask) (task : RoutedTask) : List RoutedTask :=
  if task.id ∈ order.map RoutedTask.id then order
  else if ∀ dep ∈ pendingOf tasks task.id, dep ∈ order.map RoutedTask.id then order ++ [task]
  else order

/-- The outer loop. A pass that goes on made `order` longer, so the number of
tasks bounds the number of passes. -/
def orderPasses (tasks : List RoutedTask) : Nat → List RoutedTask → List RoutedTask
  | 0, order => order
  | fuel + 1, order =>
    if tasks.length ≤ order.length then order
    else
      let next := tasks.foldl (visitTask tasks) order
      if next.length = order.length then order else orderPasses tasks fuel next

def topologicalOrder (tasks : List RoutedTask) : Except PlannerError (List RoutedTask) :=
  let order := orderPasses tasks (tasks.length + 1) []
  if order.length < tasks.length then
    .error (.integration "plan is not a DAG (topological sort stalled)")
  else .ok order

/-- `SupervisorStrategy`, and `PlanExecutionStrategy`, which is the same type. -/
inductive SupervisorStrategy where
  | broadcast
  | sequential
  | relay
  deriving DecidableEq, Repr

structure SequentialStep where
  agentId : String
  prompt : String
  timeoutMs : Option JsNumber
  metadata : Option Metadata
  deriving DecidableEq, Repr

structure BroadcastAgent where
  agentId : String
  timeoutMs : Option JsNumber
  deriving DecidableEq, Repr

structure RelayStep where
  agentId : String
  instruction : Option String
  timeoutMs : Option JsNumber
  deriving DecidableEq, Repr

inductive SupervisorPlan where
  | broadcast (prompt : String) (agents : List BroadcastAgent)
  | sequential (steps : List SequentialStep)
  | relay (prompt : String) (steps : List RelayStep)
  deriving DecidableEq, Repr

def sequentialPlan (routed : RoutedPlan) : Except PlannerError SupervisorPlan := do
  let order ← topologicalOrder routed.tasks
  return .sequential (order.map fun task =>
    { agentId := task.agentId, prompt := task.prompt, timeoutMs := task.timeoutMs
      metadata := task.metadata })

/-- The check for duplicate agents, with the set of ids seen so far. -/
def checkAgentIds (agentIds : List String) : List RoutedTask → Except PlannerError Unit
  | [] => .ok ()
  | task :: tasks =>
    if task.agentId ∈ agentIds then
      .error (.integration s!"broadcast mapping produced duplicate agentId '{task.agentId}'")
    else checkAgentIds (task.agentId :: agentIds) tasks

def broadcastPlan (routed : RoutedPlan) : Except PlannerError SupervisorPlan := do
  let prompts := (routed.tasks.map RoutedTask.prompt).dedup
  ensure (prompts.length = 1)
    (.integration ("broadcast mapping requires one shared prompt across all tasks " ++
      s!"(got {prompts.length} distinct prompts)"))
  ensure (∀ task ∈ routed.tasks, task.dependsOn.getD [] = [])
    (.integration "broadcast mapping requires independent tasks (no dependsOn)")
  checkAgentIds [] routed.tasks
  return .broadcast ((routed.tasks.head?.map RoutedTask.prompt).getD "")
    (routed.tasks.map fun task => { agentId := task.agentId, timeoutMs := task.timeoutMs })

/-- The chain checks on the dependencies of one task. -/
def checkChainTask (chain : List RoutedTask) (task : RoutedTask) : Except PlannerError Unit := do
  let deps := task.dependsOn.getD []
  ensure (deps.length ≤ 1)
    (.integration
      s!"relay mapping requires a chain (task '{task.id}' has {deps.length} dependencies)")
  forM deps fun dep =>
    ensure (dep ∈ chain.map RoutedTask.id)
      (.integration s!"relay mapping: unknown dependency '{dep}'")

/-- The targets of the edges of the chain, each as often as there are edges to it. -/
def edgeTargets (chain : List RoutedTask) : List String :=
  chain.flatMap fun task => task.dependsOn.getD []

def relayStep (index : Nat) (task : RoutedTask) : RelayStep where
  agentId := task.agentId
  instruction := if 0 < index then some task.prompt else none
  timeoutMs := task.timeoutMs

def relayPlan (routed : RoutedPlan) : Except PlannerError SupervisorPlan := do
  let chain ← topologicalOrder routed.tasks
  forM chain (checkChainTask chain)
  let roots := chain.filter fun task => decide (task.dependsOn.getD [] = [])
  ensure (roots.length = 1)
    (.integration s!"relay mapping requires exactly one root task (got {roots.length})")
  ensure (∀ dep ∈ edgeTargets chain, (edgeTargets chain).count dep ≤ 1)
    (.integration "relay mapping requires a single chain (no fan-out)")
  return .relay ((chain.head?.map RoutedTask.prompt).getD "") (chain.mapIdx relayStep)

def routedPlanToSupervisorPlan (routed : RoutedPlan) (strategy : SupervisorStrategy) :
    Except PlannerError SupervisorPlan :=
  if routed.tasks = [] then .error (.integration "cannot map an empty plan")
  else
    match strategy with
    | .sequential => sequentialPlan routed
    | .broadcast => broadcastPlan routed
    | .relay => relayPlan routed

end MultiAgent.Native
