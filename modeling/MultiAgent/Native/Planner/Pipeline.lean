import MultiAgent.Native.Planner.Dag
import MultiAgent.Native.Planner.Fairness
import MultiAgent.Native.Recovery.Pruning
import MultiAgent.Native.Scheduler.Outcomes
import MultiAgent.Native.Scheduler.Progress
import MultiAgent.Native.Supervisor.Lifecycle

/-!
# From a plan to the calls of `execute`

`planAndRunDag` of `planner/integration.ts`: the planner, the validator, the router and the
scheduler behind each other. What the planner makes of the input is given; the timer and the
signal of the caller are the event `abort` of the scheduler. The results are about the tasks of
the plan as it was parsed, whatever the repair and the routing have done to them.
-/

namespace MultiAgent.Native

open Relation

/-- `PlanDagRunOptions`, and of the signal whether it is aborted at the start. -/
structure PlanDagRunOptions where
  concurrency : Option JsNumber
  timeoutMs : Js
  signalAborted : Bool

inductive PlanDagError where
  | timeoutMs (message : String)
  | planner (error : PlannerError)
  | dag (error : DagError)

/-- A run at the first opening of its scheduler, and what it was made of. -/
structure PlannedDag where
  validated : ValidatedPlan
  routed : RoutedPlan
  started : Scheduler.RunState

/-- `planAndRunDag` up to the first opening of its scheduler. -/
def planAndRunDag (planned : Except PlannerError PlannerPlan) (agents : List AgentDescriptor)
    (options : PlanDagRunOptions) : Except PlanDagError PlannedDag := do
  (Supervisor.validateTimeoutMs options.timeoutMs).mapError .timeoutMs
  let plan ← planned.mapError .planner
  let validated ← (PlanValidator.validateAndRepair agents plan).mapError .planner
  let router ← (AgentRouter.new agents).mapError .planner
  let routed := router.route validated.plan.tasks
  let started ← (runDag (routed.tasks.map RoutedTask.toSpec) options.concurrency
    options.signalAborted).mapError .dag
  return ⟨validated, routed, started⟩

/-- A task that is handed to `execute`, against the task of the plan. It goes to the agent that
the plan names, if the pool has it, else to the first one that holds what is required, if there
is one, and else to some agent of the pool. -/
structure PlanTask.Handed (agents : List AgentDescriptor) (planned : PlanTask) (task : Task) :
    Prop where
  id : task.id = planned.id
  prompt : task.prompt = planned.prompt
  dependsOn : task.dependsOn = planned.dependsOn.getD []
  timeoutMs : task.timeoutMs = planned.timeoutMs
  pooled : task.agentId ∈ agents.map AgentDescriptor.id
  explicit : ∀ agentId ∈ planned.agentId, agentId ∈ agents.map AgentDescriptor.id →
    task.agentId = agentId
  capable : (∀ agentId ∈ planned.agentId, agentId ∉ agents.map AgentDescriptor.id) →
    ∀ required ∈ planned.requiredCapabilities, required ≠ [] →
      ∀ agent, (agents.find? fun agent => agent.holds required) = some agent →
        task.agentId = agent.id

section Stages

variable {agents : List AgentDescriptor} {plan : PlannerPlan} {validated : ValidatedPlan}
  {router : AgentRouter}

theorem mapError_eq_ok_iff {ε ε' α : Type} {x : Except ε α} {f : ε → ε'} {a : α} :
    x.mapError f = .ok a ↔ x = .ok a := by
  cases x <;> simp [Except.mapError]

theorem agents_of_new (constructed : AgentRouter.new agents = .ok router) :
    router.agents = agents := by
  rw [AgentRouter.new] at constructed
  split at constructed
  · cases constructed
    rfl
  · cases constructed

theorem exists_dagGraph {specs : List TaskSpec} (constructs : ∀ spec ∈ specs, spec.Constructs)
    (distinct : (specs.map TaskSpec.id).Nodup) : ∃ graph, dagGraph specs = .ok graph := by
  have once : ((specs.map TaskSpec.toTask).map Task.id).Nodup := by
    rw [List.map_map]
    exact distinct
  exact ⟨⟨_, once⟩, dagGraph_eq_ok_iff.mpr ⟨constructs, distinct, rfl⟩⟩

/-- A properly routed task behind a repair, as the scheduler is given it. -/
theorem handed_of_properly {planned : PlanTask} {other : RoutedTask} {fix : Fix}
    (agent : fix.dropAgent = true ↔ planned.NamesUnknown agents)
    (caps : fix.dropCaps = true ↔ planned.Unsupported agents)
    (routed : (planned.cleared fix).ProperlyRouted agents other) :
    planned.Handed agents other.toSpec.toTask := by
  refine ⟨routed.id, routed.prompt, ?_, routed.timeoutMs, routed.agentId, ?_, ?_⟩
  · exact congrArg (·.getD []) routed.dependsOn
  · intro agentId named pooled
    have kept : fix.dropAgent ≠ true := by
      rw [Ne, agent]
      rintro ⟨other, explicit, unknown⟩
      rw [named] at explicit
      cases explicit
      exact unknown pooled
    apply routed.explicit
    rw [PlanTask.cleared, if_neg kept]
    exact named
  · intro unpooled required requires nonempty chosen found
    have dropped : (planned.cleared fix).agentId = none := by
      rw [PlanTask.cleared]
      by_cases drop : fix.dropAgent = true
      · rw [if_pos drop]
      · rw [if_neg drop]
        cases named : planned.agentId with
        | none => rfl
        | some agentId => exact absurd (agent.mpr ⟨agentId, named, unpooled agentId named⟩) drop
    have kept : fix.dropCaps ≠ true := by
      rw [Ne, caps]
      rintro ⟨other, same, -, unheld⟩
      rw [requires] at same
      cases same
      rw [List.any_eq_false] at unheld
      have holds : chosen.holds required = true := by simpa using List.find?_some found
      exact unheld chosen (List.mem_of_find?_eq_some found) holds
    have same : (planned.cleared fix).requiredCapabilities = some required := by
      rw [PlanTask.cleared, if_neg kept]
      exact requires
    obtain ⟨first, holds, assigned⟩ := routed.capable dropped required same nonempty
    rw [found] at holds
    cases holds
    exact assigned

theorem ids_of_handed {tasks : List PlanTask} {others : List Task}
    (handed : List.Forall₂ (PlanTask.Handed agents) tasks others) :
    others.map Task.id = tasks.map PlanTask.id := by
  induction handed with
  | nil => rfl
  | cons here _ ih => rw [List.map_cons, List.map_cons, here.id, ih]

/-- The tasks of the graph are those of the plan, handed to agents. -/
theorem handed_of_route (ends : PlanValidator.validateAndRepair agents plan = .ok validated)
    (constructed : AgentRouter.new agents = .ok router) :
    List.Forall₂ (PlanTask.Handed agents) plan.tasks
      (((router.route validated.plan.tasks).tasks.map RoutedTask.toSpec).map TaskSpec.toTask) := by
  obtain ⟨accepted, -, repaired⟩ := validateAndRepair_eq ends
  have routed := AgentRouter.route_properly (agents_of_new constructed) (settled_of_ok ends)
  rw [repaired] at routed ⊢
  rw [List.forall₂_map_left_iff] at routed
  rw [List.map_map, List.forall₂_map_right_iff]
  refine List.forall₂_iff_get.mpr ⟨routed.length_eq, fun i here there => ?_⟩
  have member : plan.tasks.get ⟨i, here⟩ ∈ plan.tasks := List.get_mem ..
  exact handed_of_properly (fixFor_dropAgent accepted member) (fixFor_dropCaps accepted member)
    (routed.get here there)

end Stages

section Runs

variable {agents : List AgentDescriptor} {plan : PlannerPlan} {options : PlanDagRunOptions}
  {dag : PlannedDag} {sch : Scheduler} {graph : TaskGraph} {s : Scheduler.RunState}
  {es : List Scheduler.Event}

/-- What a started run consists of. -/
structure PlannedDag.Made (agents : List AgentDescriptor) (plan : PlannerPlan)
    (options : PlanDagRunOptions) (dag : PlannedDag) (sch : Scheduler) (graph : TaskGraph) :
    Prop where
  accepted : plan.Accepted
  built : dagGraph (dag.routed.tasks.map RoutedTask.toSpec) = .ok graph
  handed : List.Forall₂ (PlanTask.Handed agents) plan.tasks graph.tasks
  concurrency : Scheduler.new options.concurrency = .ok sch
  started : sch.run none graph (fun _ => .pending) options.signalAborted = .ok dag.started

theorem made_of_ok (piped : planAndRunDag (.ok plan) agents options = .ok dag) :
    ∃ sch graph, dag.Made agents plan options sch graph := by
  obtain ⟨-, -, piped⟩ := bind_eq_ok_iff.mp piped
  obtain ⟨parsed, same, piped⟩ := bind_eq_ok_iff.mp piped
  cases same
  obtain ⟨validated, ends, piped⟩ := bind_eq_ok_iff.mp piped
  obtain ⟨router, constructed, piped⟩ := bind_eq_ok_iff.mp piped
  obtain ⟨started, ran, same⟩ := bind_eq_ok_iff.mp piped
  cases same
  rw [mapError_eq_ok_iff] at ends constructed ran
  have handed := handed_of_route ends constructed
  have accepted := (routed_of_accepted ends constructed).1
  rw [runDag] at ran
  split at ran
  · cases ran
  · rename_i graph built
    split at ran
    · cases ran
    · rename_i sch concurrency
      split at ran
      · cases ran
      · rename_i state run
        cases ran
        refine ⟨sch, graph, accepted, built, ?_, concurrency, run⟩
        rw [(dagGraph_eq_ok_iff.mp built).2.2]
        exact handed

namespace PlannedDag.Made

theorem mem_graph (made : dag.Made agents plan options sch graph) {planned : PlanTask}
    (member : planned ∈ plan.tasks) : ∃ task ∈ graph.tasks, planned.Handed agents task := by
  obtain ⟨i, inside, rfl⟩ := List.getElem_of_mem member
  have there : i < graph.tasks.length := made.handed.length_eq ▸ inside
  exact ⟨_, List.getElem_mem there, made.handed.get inside there⟩

theorem mem_plan (made : dag.Made agents plan options sch graph) {task : Task}
    (member : task ∈ graph.tasks) : ∃ planned ∈ plan.tasks, planned.Handed agents task := by
  obtain ⟨i, inside, rfl⟩ := List.getElem_of_mem member
  have here : i < plan.tasks.length := made.handed.length_eq ▸ inside
  exact ⟨_, List.getElem_mem here, made.handed.get here inside⟩

theorem ids (made : dag.Made agents plan options sch graph) : graph.ids = plan.ids :=
  ids_of_handed made.handed

/-- The edges of the graph are those of the plan. -/
theorem depends (made : dag.Made agents plan options sch graph) :
    graph.Depends = plan.DependsOn := by
  funext id dep
  refine propext ⟨fun edge => ?_, ?_⟩
  · rw [TaskGraph.Depends] at edge
    by_cases known : id ∈ graph.ids
    · obtain ⟨task, member, rfl⟩ := TaskGraph.mem_ids.mp known
      obtain ⟨planned, inside, handed⟩ := made.mem_plan member
      rw [TaskGraph.dependsOn_id member, handed.dependsOn] at edge
      exact ⟨planned, inside, handed.id.symm, edge⟩
    · rw [TaskGraph.dependsOn_of_not_mem known] at edge
      cases edge
  · rintro ⟨planned, inside, rfl, edge⟩
    obtain ⟨task, member, handed⟩ := made.mem_graph inside
    rw [TaskGraph.Depends, ← handed.id, TaskGraph.dependsOn_id member, handed.dependsOn]
    exact edge

theorem reaches (made : dag.Made agents plan options sch graph)
    (execution : (sch.machine graph).run dag.started es = some s) :
    Scheduler.Reaches sch graph (fun _ => .pending) options.signalAborted es s :=
  ⟨dag.started, made.started, execution⟩

end PlannedDag.Made

/-- What a run of a plan has done and reports, whatever its surroundings do. -/
structure Carries (agents : List AgentDescriptor) (plan : PlannerPlan) (s : Scheduler.RunState) :
    Prop where
  /-- No task is handed over twice. -/
  once : s.executed.Nodup
  known : ∀ id ∈ s.executed, id ∈ plan.ids
  /-- The task that is handed over. -/
  calling : ∀ task rest, s.control = .calling task rest → ∃ planned ∈ plan.tasks,
    planned.Handed agents task ∧ ∀ dep ∈ planned.dependsOn.getD [], s.status dep = .completed
  reported : ∀ r, s.control = .returned r → r.results.map Prod.fst = plan.ids ∧
    (∀ entry ∈ r.results, entry.2.isSome = true) ∧ r.order.Perm plan.ids

/-- The statuses that the results of the executions lead to. -/
structure Decides (agents : List AgentDescriptor) (plan : PlannerPlan) (f : Task → Settlement)
    (s : Scheduler.RunState) (planned : PlanTask) : Prop where
  executed : planned.id ∈ s.executed ↔
    ∀ dep, TransGen plan.DependsOn planned.id dep → s.status dep = .completed
  settled : planned.id ∈ s.executed → ∃ task, planned.Handed agents task ∧
    s.status planned.id = ((f task).outcome task).status.toTaskStatus
  cancelled : planned.id ∉ s.executed → s.status planned.id = .cancelled

theorem PlannedDag.Made.carries (made : dag.Made agents plan options sch graph)
    (execution : (sch.machine graph).run dag.started es = some s) : Carries agents plan s := by
  have reaches := made.reaches execution
  have sound := reaches.sound
  refine ⟨sound.ledger.once, ?_, ?_, ?_⟩
  · rw [← made.ids]
    exact sound.ledger.known
  · intro task rest control
    have member := sound.calling_mem control
    obtain ⟨planned, inside, handed⟩ := made.mem_plan member
    have active : s.active = true := by rw [Scheduler.RunState.active, control]
    have open_ : task ∈ s.inFlight := by
      rw [Scheduler.RunState.inFlight, control]
      exact List.mem_cons_self
    have started := sound.ledger.started task member
      (((sound.slots.exact active).status task member).mpr open_)
    refine ⟨planned, inside, handed, fun dep edge => ?_⟩
    exact sound.ledger.deps task member started dep (handed.dependsOn ▸ edge)
  · intro r returned
    rw [← made.ids]
    exact sound.report_complete returned

theorem PlannedDag.Made.decides (made : dag.Made agents plan options sch graph)
    (execution : (sch.machine graph).run dag.started es = some s) {f : Task → Settlement}
    (obeys : (sch.machine graph).Meets
      (fun s e => e.Given (fun task settlement => settlement = f task) s) dag.started es)
    {r : SchedulerReport} (returned : s.control = .returned r) (unstopped : r.stopped = false)
    {planned : PlanTask} (member : planned ∈ plan.tasks) : Decides agents plan f s planned := by
  have accounted := (made.reaches execution).accounted
    ((Scheduler.along_iff made.started).mpr obeys)
  obtain ⟨task, inside, handed⟩ := made.mem_graph member
  have executed := accounted.executed_iff returned unstopped inside
  have determined := accounted.determined returned unstopped task inside
  rw [made.depends] at executed
  rw [handed.id] at executed determined
  refine ⟨executed, fun started => ?_, fun absent => ?_⟩
  · obtain ⟨-, -, taken⟩ | ⟨absent, -⟩ := determined
    · exact ⟨task, handed, taken⟩
    · exact absurd started absent
  · obtain ⟨started, -⟩ | ⟨-, -, cancelled⟩ := determined
    · exact absurd started absent
    · exact cancelled

/-- What has to hold for a plan to be run. -/
structure Runnable (plan : PlannerPlan) (agents : List AgentDescriptor)
    (options : PlanDagRunOptions) : Prop where
  timeoutMs : Supervisor.validateTimeoutMs options.timeoutMs = .ok ()
  accepted : plan.Accepted
  pool : agents ≠ []
  tasks : ∀ task ∈ plan.tasks, (task.dependsOn.getD []).Nodup ∧ Usable task.timeoutMs
  concurrency : ∃ sch, Scheduler.new options.concurrency = .ok sch

theorem runnable_iff (named : ∀ agent ∈ agents, agent.id.isEmpty = false) :
    (∃ dag, planAndRunDag (.ok plan) agents options = .ok dag) ↔
      Runnable plan agents options := by
  constructor
  · rintro ⟨dag, piped⟩
    obtain ⟨⟨⟩, timeoutMs, piped⟩ := bind_eq_ok_iff.mp piped
    obtain ⟨parsed, same, piped⟩ := bind_eq_ok_iff.mp piped
    cases same
    obtain ⟨validated, ends, piped⟩ := bind_eq_ok_iff.mp piped
    obtain ⟨router, constructed, piped⟩ := bind_eq_ok_iff.mp piped
    obtain ⟨started, ran, -⟩ := bind_eq_ok_iff.mp piped
    rw [mapError_eq_ok_iff] at timeoutMs ends constructed ran
    obtain ⟨accepted, routed⟩ := routed_of_accepted ends constructed
    have pool : agents ≠ [] := by
      rintro rfl
      cases constructed
    rw [runDag] at ran
    split at ran
    · cases ran
    · rename_i graph built
      split at ran
      · cases ran
      · rename_i sch concurrency
        have constructs := (dagGraph_eq_ok_iff.mp built).1
        exact ⟨timeoutMs, accepted, pool, (allConstruct_iff accepted named routed).mp constructs,
          sch, concurrency⟩
  · intro runnable
    obtain ⟨validated, ends⟩ := @PlannerPlan.Accepted.validateAndRepair agents plan
      runnable.accepted
    obtain ⟨router, constructed⟩ : ∃ router, AgentRouter.new agents = .ok router :=
      ⟨_, dif_pos (List.length_pos_iff.mpr runnable.pool)⟩
    obtain ⟨accepted, routed⟩ := routed_of_accepted ends constructed
    obtain ⟨sch, concurrency⟩ := runnable.concurrency
    have constructs := (allConstruct_iff accepted named routed).mpr runnable.tasks
    have distinct := accepted.distinct
    rw [PlannerPlan.ids, ids_eq (outlines_eq routed)] at distinct
    obtain ⟨graph, built⟩ := exists_dagGraph constructs distinct
    have valid := validate_of_accepted accepted (outlines_eq routed)
      (dagGraph_eq_ok_iff.mp built).2.2
    obtain ⟨started, ran⟩ := runDag_of_valid built valid concurrency options.signalAborted
    refine ⟨⟨validated, router.route validated.plan.tasks, started⟩, ?_⟩
    refine bind_eq_ok_iff.mpr ⟨(), mapError_eq_ok_iff.mpr runnable.timeoutMs, ?_⟩
    refine bind_eq_ok_iff.mpr ⟨plan, rfl, ?_⟩
    refine bind_eq_ok_iff.mpr ⟨validated, mapError_eq_ok_iff.mpr ends, ?_⟩
    refine bind_eq_ok_iff.mpr ⟨router, mapError_eq_ok_iff.mpr constructed, ?_⟩
    exact bind_eq_ok_iff.mpr ⟨started, mapError_eq_ok_iff.mpr ran, rfl⟩

/-- Among agents whose ids are not empty, a plan is run exactly when it is `Runnable`. Whatever the
surroundings do then, no task of the plan is handed to `execute` twice, each is handed over as it
was planned, to the agent that is due and behind its dependencies, and a report has one outcome for
each task, in the order of the plan. Unless the run is stopped, the statuses are those that the
results of the executions lead to along the dependencies of the plan. -/
theorem planned_dag_carries (plan : PlannerPlan) (options : PlanDagRunOptions)
    (named : ∀ agent ∈ agents, agent.id.isEmpty = false) :
    ((∃ dag, planAndRunDag (.ok plan) agents options = .ok dag) ↔
      Runnable plan agents options) ∧
    ∀ dag, planAndRunDag (.ok plan) agents options = .ok dag → ∃ sch graph,
      Scheduler.new options.concurrency = .ok sch ∧ graph.ids = plan.ids ∧
      ∀ es s, (sch.machine graph).run dag.started es = some s →
        Carries agents plan s ∧
        ∀ f r, (sch.machine graph).Meets
            (fun s e => e.Given (fun task settlement => settlement = f task) s) dag.started es →
          s.control = .returned r → r.stopped = false →
          ∀ planned ∈ plan.tasks, Decides agents plan f s planned := by
  refine ⟨runnable_iff named, fun dag piped => ?_⟩
  obtain ⟨sch, graph, made⟩ := made_of_ok piped
  refine ⟨sch, graph, made.concurrency, made.ids, fun es s execution => ?_⟩
  refine ⟨made.carries execution, fun f r obeys returned unstopped planned member => ?_⟩
  exact made.decides execution obeys returned unstopped member

/-- A draft by a named agent, and a review of it by whoever can do the layout. -/
def layoutPlan : PlannerPlan :=
  ⟨[⟨"draft", "write a draft", some "writer", none, none, none, none⟩,
    ⟨"review", "check the draft", some "nobody", some ["layout"], some ["draft"], none, none⟩]⟩

theorem planned_dag_carries_layoutPlan :
    ∃ dag, planAndRunDag (.ok layoutPlan) editors ⟨none, .undefined, false⟩ = .ok dag ∧
      Carries editors layoutPlan dag.started := by
  have carries := planned_dag_carries layoutPlan ⟨none, .undefined, false⟩
    (by decide : ∀ agent ∈ editors, agent.id.isEmpty = false)
  have runnable : Runnable layoutPlan editors ⟨none, .undefined, false⟩ := by
    refine ⟨rfl, ⟨by decide, by decide, ?_, by decide⟩, by decide, ?_, _, rfl⟩
    · intro task member
      obtain rfl | rfl : task = _ ∨ task = _ := by simpa [layoutPlan] using member
      · exact ⟨rfl, rfl, by simp⟩
      · exact ⟨rfl, rfl, by simp [layoutPlan, PlannerPlan.ids]⟩
    · intro task member
      obtain rfl | rfl : task = _ ∨ task = _ := by simpa [layoutPlan] using member
      · exact ⟨by simp, fun _ given => absurd given (by simp)⟩
      · exact ⟨by simp, fun _ given => absurd given (by simp)⟩
  obtain ⟨dag, piped⟩ := carries.1.mpr runnable
  obtain ⟨sch, graph, -, -, runs⟩ := carries.2 dag piped
  exact ⟨dag, piped, (runs [] dag.started rfl).1⟩

end Runs

end MultiAgent.Native
