import MultiAgent.Foundations.Prerequisites
import MultiAgent.Native.Planner.Pipeline
import MultiAgent.Native.Recovery.Identity

/-!
# A plan under a strategy, and as a graph

`planAndRun` of `planner/integration.ts`, up to the call of `Supervisor.run`, against
`planAndRunDag` on the same plan. A strategy asks for more than the plan does: a sequential run
puts every task behind the one before it. So what a strategy executes the graph executes too,
and ends the same way; what a sequential run leaves out stands behind a task that failed. A
broadcast and a relay ask for nothing else than the plan, and leave nothing out.
-/

namespace MultiAgent.Native

open Relation

/-- `PlanRunOptions`; the signal is the event `abort` of the scheduler. -/
structure PlanRunOptions where
  runId : String
  strategy : Option SupervisorStrategy
  timeoutMs : Option JsNumber
  metadata : Option Metadata

def planToSupervisorInput (routed : RoutedPlan) (strategy : SupervisorStrategy)
    (options : PlanRunOptions) (input : String) : Except PlannerError SupervisorRunInput := do
  let plan ← routedPlanToSupervisorPlan routed strategy
  return { runId := options.runId, input, plan, timeoutMs := options.timeoutMs
           metadata := options.metadata }

/-- What `planAndRun` has before it calls the supervisor. -/
structure PlannedRun where
  validated : ValidatedPlan
  routed : RoutedPlan
  strategy : SupervisorStrategy
  supervisorInput : SupervisorRunInput

def planAndRun (planned : Except PlannerError PlannerPlan) (agents : List AgentDescriptor)
    (input : String) (options : PlanRunOptions) : Except PlannerError PlannedRun := do
  let strategy := options.strategy.getD .sequential
  let plan ← planned
  let validated ← PlanValidator.validateAndRepair agents plan
  let router ← AgentRouter.new agents
  let routed := router.route validated.plan.tasks
  let supervisorInput ← planToSupervisorInput routed strategy options input
  return ⟨validated, routed, strategy, supervisorInput⟩

theorem TaskGraph.Validated.founded {g : TaskGraph} (valid : g.Validated) : Founded g.Depends := by
  obtain ⟨rank, descends⟩ := valid.ranked
  refine .of_rank rank fun id dep edge => ?_
  by_cases known : id ∈ g.ids
  · obtain ⟨task, member, rfl⟩ := mem_ids.mp known
    rw [Depends, dependsOn_id member] at edge
    exact descends task member dep edge
  · rw [Depends, dependsOn_of_not_mem known] at edge
    cases edge

theorem TaskGraph.Validated.depends_mem {g : TaskGraph} (valid : g.Validated) {id dep : String}
    (known : id ∈ g.ids) (edge : g.Depends id dep) : dep ∈ g.ids := by
  obtain ⟨task, member, rfl⟩ := mem_ids.mp known
  rw [Depends, dependsOn_id member] at edge
  exact valid.known task member dep edge

namespace Scheduler

variable {sch : Scheduler} {g : TaskGraph} {s : RunState} {id dep : String}
variable {verdict : String → TaskOutcomeStatus} {signalAborted : Bool} {es : List Event}

/-- The execution of the task ends with the status that is given for its id. -/
def Ends (verdict : String → TaskOutcomeStatus) (task : Task) (settlement : Settlement) : Prop :=
  (settlement.outcome task).status = verdict task.id

theorem Event.given_of_none (gives : Task → Settlement → Prop) (s : RunState) :
    (Event.ret none).Given gives s := by
  rintro _ _ _ _ ⟨⟩

theorem Event.given_resolve {gives : Task → Settlement → Prop} {settlement : Settlement}
    (given : ∀ task : Task, task.id = id → gives task settlement) :
    (Event.resolve id settlement).Given gives s :=
  fun task _ same => given task same

/-- What an unstopped run comes to when its executions end as `verdict` says. -/
structure Decided (g : TaskGraph) (verdict : String → TaskOutcomeStatus) (s : RunState) : Prop where
  executed : ∀ id ∈ g.ids, id ∈ s.executed ↔ ∀ dep, g.Depends id dep → s.status dep = .completed
  taken : ∀ id ∈ g.ids, id ∈ s.executed → s.status id = (verdict id).toTaskStatus
  skipped : ∀ id ∈ g.ids, id ∉ s.executed → s.status id = .cancelled

def Done (g : TaskGraph) (s : RunState) (id : String) : Prop :=
  id ∈ g.ids ∧ s.status id = .completed

def Passes (g : TaskGraph) (verdict : String → TaskOutcomeStatus) (id : String) : Prop :=
  id ∈ g.ids ∧ verdict id = .completed

theorem Accounted.decided {r : SchedulerReport} (accounted : Accounted sch g (Ends verdict) s)
    (returned : s.control = .returned r) (unstopped : r.stopped = false) :
    Decided g verdict s := by
  obtain ⟨rfl, complete⟩ := accounted.sound.loop.complete r returned
  have going : s.stopped = false := (Bool.or_eq_false_iff.mp unstopped).1
  have explained : ∀ task ∈ g.tasks, Ran (Ends verdict) s task ∨ Skipped s task :=
    fun task member =>
      accounted.explained going task member (TaskGraph.isComplete_iff.mp complete task member)
  refine ⟨?_, ?_, ?_⟩
  · intro id known
    obtain ⟨task, member, rfl⟩ := TaskGraph.mem_ids.mp known
    constructor
    · intro started dep edge
      rw [TaskGraph.Depends, TaskGraph.dependsOn_id member] at edge
      exact accounted.sound.ledger.deps task member started dep edge
    · intro completed
      obtain ⟨started, -⟩ | ⟨-, -, dep, edge, -, unfinished⟩ := explained task member
      · exact started
      · refine absurd (completed dep ?_) unfinished
        rwa [TaskGraph.Depends, TaskGraph.dependsOn_id member]
  · intro id known started
    obtain ⟨task, member, rfl⟩ := TaskGraph.mem_ids.mp known
    obtain ⟨-, settlement, ends, taken⟩ | ⟨absent, -⟩ := explained task member
    · rw [taken, ends]
    · exact absurd started absent
  · intro id known absent
    obtain ⟨task, member, rfl⟩ := TaskGraph.mem_ids.mp known
    obtain ⟨started, -⟩ | ⟨-, cancelled, -⟩ := explained task member
    · exact absurd started absent
    · exact cancelled

namespace Decided

theorem completed_iff (decided : Decided g verdict s) (known : id ∈ g.ids) :
    s.status id = .completed ↔ id ∈ s.executed ∧ verdict id = .completed := by
  by_cases started : id ∈ s.executed
  · rw [decided.taken id known started]
    have same : (verdict id).toTaskStatus = .completed ↔ verdict id = .completed :=
      toTaskStatus_injective.eq_iff (b := .completed)
    rw [same]
    exact ⟨fun passes => ⟨started, passes⟩, And.right⟩
  · rw [decided.skipped id known started]
    simp [started]

theorem settles (decided : Decided g verdict s) (valid : g.Validated) :
    Settles g.Depends (Passes g verdict) (Done g s) := by
  intro id
  by_cases known : id ∈ g.ids
  · have deps : (∀ dep, g.Depends id dep → Done g s dep) ↔ id ∈ s.executed := by
      rw [decided.executed id known]
      refine forall₂_congr fun dep edge => ⟨And.right, fun completed => ⟨?_, completed⟩⟩
      exact valid.depends_mem known edge
    rw [deps, Done, Passes, decided.completed_iff known]
    tauto
  · simp [Done, Passes, known]

end Decided

/-- What was not executed stands behind a task that was executed and did not complete. -/
theorem Decided.failed_below (decided : Decided g verdict s) (valid : g.Validated)
    (known : id ∈ g.ids) (absent : id ∉ s.executed) :
    ∃ other ∈ s.executed, TransGen g.Depends id other ∧ s.status other ≠ .completed := by
  induction id using valid.founded.induction with
  | step id ih =>
      rw [decided.executed id known] at absent
      push Not at absent
      obtain ⟨dep, edge, unfinished⟩ := absent
      by_cases started : dep ∈ s.executed
      · exact ⟨dep, started, .single edge, unfinished⟩
      · obtain ⟨other, started, path, failed⟩ :=
          ih dep (.single edge) (valid.depends_mem known edge) started
        exact ⟨other, started, .head edge path, failed⟩

theorem Reaches.decided {r : SchedulerReport}
    (reaches : Reaches sch g (fun _ => .pending) signalAborted es s)
    (obeys : Obeys (Ends verdict) sch g (fun _ => .pending) signalAborted es)
    (returned : s.control = .returned r) (unstopped : r.stopped = false) : Decided g verdict s :=
  (reaches.accounted obeys).decided returned unstopped

end Scheduler

section Chains

variable {plan : SupervisorPlan} {g : TaskGraph} {strategy : SupervisorStrategy} {i j : Nat}
variable {id dep : String}

theorem SupervisorPlan.depends_iff (built : plan.graph = .ok g) :
    g.Depends id dep ↔ ∃ index < plan.size, plan.strategy.syntheticId index = id ∧
      dep ∈ plan.strategy.upstream index := by
  have links := graph_links built
  constructor
  · intro edge
    by_cases known : id ∈ g.ids
    · obtain ⟨task, member, rfl⟩ := TaskGraph.mem_ids.mp known
      rw [TaskGraph.Depends, TaskGraph.dependsOn_id member] at edge
      have listed : (task.id, task.dependsOn) ∈
          g.tasks.map fun task => (task.id, task.dependsOn) := List.mem_map_of_mem member
      rw [links] at listed
      obtain ⟨index, inside, same⟩ := List.mem_map.mp listed
      obtain ⟨named, upstream⟩ := Prod.mk.inj same
      exact ⟨index, List.mem_range.mp inside, named, upstream ▸ edge⟩
    · rw [TaskGraph.Depends, TaskGraph.dependsOn_of_not_mem known] at edge
      cases edge
  · rintro ⟨index, inside, rfl, edge⟩
    have listed : (plan.strategy.syntheticId index, plan.strategy.upstream index) ∈
        g.tasks.map fun task => (task.id, task.dependsOn) := by
      rw [links]
      exact List.mem_map.mpr ⟨index, List.mem_range.mpr inside, rfl⟩
    obtain ⟨task, member, same⟩ := List.mem_map.mp listed
    obtain ⟨named, upstream⟩ := Prod.mk.inj same
    rw [TaskGraph.Depends, ← named, TaskGraph.dependsOn_id member, upstream]
    exact edge

/-- Along a chain every task needs all that stand before it. -/
theorem SupervisorPlan.path_back (built : plan.graph = .ok g) (chain : plan.strategy ≠ .broadcast)
    (less : i < j) (inside : j < plan.size) :
    TransGen g.Depends (plan.strategy.syntheticId j) (plan.strategy.syntheticId i) := by
  have edge : ∀ k, k + 1 < plan.size →
      g.Depends (plan.strategy.syntheticId (k + 1)) (plan.strategy.syntheticId k) := by
    intro k within
    refine (depends_iff built).mpr ⟨k + 1, within, rfl, ?_⟩
    rw [SupervisorStrategy.upstream_succ chain]
    exact List.mem_cons_self
  induction j, less using Nat.le_induction with
  | base => exact .single (edge i inside)
  | succ j _ ih => exact .head (edge j inside) (ih (by omega))

end Chains

namespace PlannedRun

/-- The tasks of the plan in the order of the strategy. -/
def ordered (run : PlannedRun) : List RoutedTask :=
  Recovery.strategyTaskOrder run.routed run.strategy

/-- The task of the plan that the strategy runs under an id. -/
def place (run : PlannedRun) (id : String) : String := Recovery.planIdOf run.ordered id

/-- The graph that the strategy of a run lays a plan out as. -/
structure Laid (agents : List AgentDescriptor) (plan : PlannerPlan) (run : PlannedRun)
    (g : TaskGraph) : Prop where
  prepared : Recovery.RecoveryManager.prepare agents plan = .ok run.routed
  mapped : routedPlanToSupervisorPlan run.routed run.strategy = .ok run.supervisorInput.plan
  built : run.supervisorInput.plan.graph = .ok g

variable {agents : List AgentDescriptor} {plan : PlannerPlan} {input : String}
  {options : PlanRunOptions} {run : PlannedRun} {g : TaskGraph} {id other : String}

theorem prepared_of_ok (planned : planAndRun (.ok plan) agents input options = .ok run) :
    Recovery.RecoveryManager.prepare agents plan = .ok run.routed ∧
      routedPlanToSupervisorPlan run.routed run.strategy = .ok run.supervisorInput.plan := by
  obtain ⟨parsed, same, planned⟩ := bind_eq_ok_iff.mp planned
  cases same
  obtain ⟨validated, ends, planned⟩ := bind_eq_ok_iff.mp planned
  obtain ⟨router, constructed, planned⟩ := bind_eq_ok_iff.mp planned
  obtain ⟨supervisorInput, handed, same⟩ := bind_eq_ok_iff.mp planned
  cases same
  obtain ⟨mapped, accepted, same⟩ := bind_eq_ok_iff.mp handed
  cases same
  refine ⟨?_, accepted⟩
  exact bind_eq_ok_iff.mpr ⟨validated, ends, bind_eq_ok_iff.mpr ⟨router, constructed, rfl⟩⟩

theorem flat_of_broadcast {routed : RoutedPlan} {mapped : SupervisorPlan}
    (accepted : routedPlanToSupervisorPlan routed .broadcast = .ok mapped) :
    ∀ task ∈ routed.tasks, task.deps = [] := by
  unfold routedPlanToSupervisorPlan at accepted
  split at accepted
  · cases accepted
  · exact (broadcastPlan_ok accepted).1

namespace Laid

theorem place_bijOn (laid : Laid agents plan run g) :
    Set.BijOn run.place {id | id ∈ g.ids} {id | id ∈ plan.ids} :=
  Recovery.planIdOf_bijOn laid.prepared laid.mapped laid.built

theorem strategy (laid : Laid agents plan run g) :
    run.supervisorInput.plan.strategy = run.strategy :=
  Recovery.strategy_of_ok laid.mapped

theorem layout (laid : Laid agents plan run g) :
    Recovery.Orders plan run.ordered ∧
      Recovery.Mapped run.strategy run.routed run.supervisorInput.plan run.ordered := by
  obtain ⟨accepted, routedTo⟩ := Recovery.prepare_ok laid.prepared
  have mapped := Recovery.mapped_of_ok (Recovery.routed_ids routedTo ▸ accepted.distinct)
    laid.mapped
  exact ⟨Recovery.orders_of_prepared laid.prepared mapped.perm mapped.depsFirst, mapped⟩

theorem mem_ids (laid : Laid agents plan run g) :
    id ∈ g.ids ↔ ∃ index task, run.ordered[index]? = some task ∧
      run.strategy.syntheticId index = id :=
  Recovery.mem_graph_ids laid.prepared laid.mapped laid.built

/-- What the plan asks for, the strategy asks for. -/
theorem asks (laid : Laid agents plan run g) (known : id ∈ g.ids) {dep : String}
    (edge : plan.DependsOn (run.place id) dep) :
    ∃ earlier, TransGen g.Depends id earlier ∧ run.place earlier = dep := by
  obtain ⟨orders, mapped⟩ := laid.layout
  obtain ⟨index, task, here, rfl⟩ := laid.mem_ids.mp known
  rw [place, Recovery.planIdOf_syntheticId here] at edge
  obtain ⟨other, member, same, listed⟩ := (orders.edges _ _).mp edge
  obtain rfl := List.inj_on_of_nodup_map orders.distinct member (List.mem_of_getElem? here) same
  obtain ⟨j, earlier, less, there, rfl⟩ := orders.depsFirst index _ here dep listed
  refine ⟨run.strategy.syntheticId j, ?_, Recovery.planIdOf_syntheticId there⟩
  have inside : index < run.supervisorInput.plan.size := by
    rw [mapped.size]
    exact (List.getElem?_eq_some_iff.mp here).1
  have chain : run.strategy ≠ .broadcast := by
    intro broadcast
    have flat := flat_of_broadcast (broadcast ▸ laid.mapped) _
      (mapped.perm.mem_iff.mp (List.mem_of_getElem? here))
    rw [flat] at listed
    cases listed
  have path := SupervisorPlan.path_back laid.built (laid.strategy ▸ chain) less inside
  rwa [laid.strategy] at path

/-- A broadcast and a relay ask for nothing that the plan does not ask for. -/
theorem asks_only (laid : Laid agents plan run g) (loose : run.strategy ≠ .sequential)
    {dep : String} (edge : g.Depends id dep) : plan.DependsOn (run.place id) (run.place dep) := by
  obtain ⟨orders, mapped⟩ := laid.layout
  obtain ⟨index, inside, named, listed⟩ := (SupervisorPlan.depends_iff laid.built).mp edge
  rw [laid.strategy] at named listed
  rw [mapped.size] at inside
  cases kind : run.strategy with
  | sequential => exact absurd kind loose
  | broadcast =>
      rw [kind] at listed
      cases listed
  | relay =>
      cases index with
      | zero =>
          rw [kind] at listed
          cases listed
      | succ index =>
          have chain : run.strategy ≠ .broadcast := by simp [kind]
          rw [SupervisorStrategy.upstream_succ chain, List.mem_singleton] at listed
          subst named listed
          have here : run.ordered[index + 1]? = some run.ordered[index + 1] :=
            List.getElem?_eq_getElem inside
          have before : run.ordered[index]? = some run.ordered[index] :=
            List.getElem?_eq_getElem (by omega)
          rw [place, place, Recovery.planIdOf_syntheticId here,
            Recovery.planIdOf_syntheticId before]
          refine (orders.edges _ _).mpr ⟨_, List.mem_of_getElem? here, rfl, ?_⟩
          rw [(mapped.chain kind).next index _ _ before here]
          exact List.mem_cons_self

end Laid

/-- What a run under a strategy, which ends in `t`, has of the run of the plan as a graph, which
ends in `s`. -/
structure Within (plan : PlannerPlan) (run : PlannedRun) (g : TaskGraph)
    (s t : Scheduler.RunState) : Prop where
  /-- Each task of the plan is run under one id. -/
  placed : Set.BijOn run.place {id | id ∈ g.ids} {id | id ∈ plan.ids}
  executed : ∀ id ∈ t.executed, run.place id ∈ s.executed ∧ s.status (run.place id) = t.status id
  skipped : ∀ id ∈ g.ids, id ∉ t.executed → t.status id = .cancelled ∧
    ∃ other ∈ t.executed, TransGen g.Depends id other ∧ t.status other ≠ .completed
  /-- Nothing is lost where nothing fails. -/
  all : (∀ id ∈ g.ids, t.status id = .completed) ↔ ∀ id ∈ plan.ids, s.status id = .completed
  same : run.strategy ≠ .sequential → ∀ id ∈ g.ids, s.status (run.place id) = t.status id

section Comparison

open Scheduler

variable {whole : TaskGraph} {s t : RunState} {verdict : String → TaskOutcomeStatus}

/-- What both graphs agree on: the runs of a plan and of its strategy that end as `verdict` says. -/
structure Compared (agents : List AgentDescriptor) (plan : PlannerPlan) (run : PlannedRun)
    (verdict : String → TaskOutcomeStatus) (whole g : TaskGraph) (s t : RunState) : Prop where
  laid : Laid agents plan run g
  ids : whole.ids = plan.ids
  depends : whole.Depends = plan.DependsOn
  wholeValid : whole.Validated
  valid : g.Validated
  wholeDecided : Decided whole verdict s
  decided : Decided g (fun id => verdict (run.place id)) t

namespace Compared

theorem place_mem (compared : Compared agents plan run verdict whole g s t) (known : id ∈ g.ids) :
    run.place id ∈ whole.ids := by
  rw [compared.ids]
  exact compared.laid.place_bijOn.mapsTo known

/-- What the strategy gets done, the graph gets done. -/
theorem done (compared : Compared agents plan run verdict whole g s t) (here : Done g t id) :
    Done whole s (run.place id) := by
  refine (compared.wholeDecided.settles compared.wholeValid).image
    (compared.decided.settles compared.valid) compared.valid.founded ?_ ?_ id here
  · rintro id ⟨known, passes⟩
    exact ⟨compared.place_mem known, passes⟩
  · rintro id dep ⟨known, -⟩ edge
    exact compared.laid.asks known (compared.depends ▸ edge)

theorem executed (compared : Compared agents plan run verdict whole g s t) (known : id ∈ g.ids)
    (started : id ∈ t.executed) :
    run.place id ∈ s.executed ∧ s.status (run.place id) = t.status id := by
  have handed : run.place id ∈ s.executed := by
    refine (compared.wholeDecided.executed _ (compared.place_mem known)).mpr fun dep edge => ?_
    obtain ⟨earlier, path, rfl⟩ := compared.laid.asks known (compared.depends ▸ edge)
    obtain ⟨next, first, rest⟩ := TransGen.head'_iff.mp path
    have near : Done g t next := ⟨compared.valid.depends_mem known first,
      (compared.decided.executed id known).mp started next first⟩
    have far : Done g t earlier := by
      obtain rfl | path := reflTransGen_iff_eq_or_transGen.mp rest
      · exact near
      · exact (compared.decided.settles compared.valid).below path near
    exact (compared.done far).2
  refine ⟨handed, ?_⟩
  rw [compared.wholeDecided.taken _ (compared.place_mem known) handed,
    compared.decided.taken id known started]

/-- Where the strategy asks for nothing else, it gets the same done. -/
theorem done_iff (compared : Compared agents plan run verdict whole g s t)
    (loose : run.strategy ≠ .sequential) (known : id ∈ g.ids) :
    Done g t id ↔ Done whole s (run.place id) := by
  refine ⟨compared.done, fun here => ?_⟩
  refine (compared.wholeDecided.settles compared.wholeValid).preimage
    (compared.decided.settles compared.valid) compared.valid.founded
    (fun _ _ inside edge => compared.valid.depends_mem inside edge)
    (fun _ inside passes => ⟨inside, passes.2⟩) ?_ id known here
  intro id dep _ edge
  exact .single (compared.depends ▸ compared.laid.asks_only loose edge)

theorem same (compared : Compared agents plan run verdict whole g s t)
    (loose : run.strategy ≠ .sequential) (known : id ∈ g.ids) :
    s.status (run.place id) = t.status id := by
  by_cases started : id ∈ t.executed
  · exact (compared.executed known started).2
  · have absent : run.place id ∉ s.executed := by
      intro handed
      refine started ((compared.decided.executed id known).mpr fun dep edge => ?_)
      have inside := compared.valid.depends_mem known edge
      have asked : whole.Depends (run.place id) (run.place dep) :=
        compared.depends ▸ compared.laid.asks_only loose edge
      refine ((compared.done_iff loose inside).mpr ⟨compared.place_mem inside, ?_⟩).2
      exact (compared.wholeDecided.executed _ (compared.place_mem known)).mp handed _ asked
    rw [compared.decided.skipped id known started,
      compared.wholeDecided.skipped _ (compared.place_mem known) absent]

theorem all (compared : Compared agents plan run verdict whole g s t) :
    (∀ id ∈ g.ids, t.status id = .completed) ↔ ∀ id ∈ plan.ids, s.status id = .completed := by
  constructor
  · intro completed planned member
    obtain ⟨id, known, rfl⟩ := compared.laid.place_bijOn.surjOn member
    exact (compared.done ⟨known, completed id known⟩).2
  · intro completed id known
    have passes : ∀ id ∈ g.ids, Passes g (fun id => verdict (run.place id)) id := by
      intro id known
      have member := compared.place_mem known
      refine ⟨known, ?_⟩
      exact ((compared.wholeDecided.completed_iff member).mp
        (completed _ (compared.ids ▸ member))).2
    exact ((compared.decided.settles compared.valid).of_closed compared.valid.founded
      (fun _ _ inside edge => compared.valid.depends_mem inside edge) passes id known).2

theorem within (compared : Compared agents plan run verdict whole g s t)
    (listed : ∀ id ∈ t.executed, id ∈ g.ids) : Within plan run g s t where
  placed := compared.laid.place_bijOn
  executed _ started := compared.executed (listed _ started) started
  skipped id known absent := ⟨compared.decided.skipped id known absent,
    compared.decided.failed_below compared.valid known absent⟩
  all := compared.all
  same loose _ known := compared.same loose known

end Compared

/-- A plan that is run under a strategy and as a graph, where each task ends the same way whenever
it is executed, and neither run is stopped. What the strategy executes the graph executes too, with
the same status; what the strategy leaves out stands, in its order, behind a task that failed;
both complete everything or neither does; and a broadcast and a relay give every task of the plan
the status that the graph gives it. -/
theorem supervised_within_dag {dagOptions : PlanDagRunOptions} {dag : PlannedDag} {sch : Scheduler}
    (piped : planAndRunDag (.ok plan) agents dagOptions = .ok dag)
    (planned : planAndRun (.ok plan) agents input options = .ok run)
    (concurrency : Scheduler.new dagOptions.concurrency = .ok sch)
    (whole_eq : dagGraph (dag.routed.tasks.map RoutedTask.toSpec) = .ok whole) {es : List Event}
    (execution : (sch.machine whole).run dag.started es = some s)
    (meets : (sch.machine whole).Meets (fun s e => e.Given (Ends verdict) s) dag.started es)
    {r : SchedulerReport} (returned : s.control = .returned r) (unstopped : r.stopped = false)
    {signalAborted : Bool} {es' : List Event} {scheduled : Scheduled}
    (ran : schedule run.supervisorInput.plan.graph signalAborted es' = some scheduled)
    (obeys : Obeys (Ends fun id => verdict (run.place id)) ⟨none, positive_none⟩ scheduled.graph
      (fun _ => .pending) signalAborted es')
    (going : scheduled.report.stopped = false) :
    whole.ids = plan.ids ∧ Within plan run scheduled.graph s scheduled.state := by
  obtain ⟨sch', whole', made⟩ := made_of_ok piped
  obtain rfl : sch' = sch := Except.ok.inj (made.concurrency.symm.trans concurrency)
  obtain rfl : whole' = whole := Except.ok.inj (made.built.symm.trans whole_eq)
  obtain ⟨prepared, mapped⟩ := prepared_of_ok planned
  have reaches := made.reaches execution
  obtain ⟨built, control, reaches'⟩ := reaches_of_schedule ran
  have compared : Compared agents plan run verdict whole' scheduled.graph s scheduled.state :=
    { laid := ⟨prepared, mapped, built⟩
      ids := made.ids
      depends := made.depends
      wholeValid := reaches.validated
      valid := reaches'.validated
      wholeDecided := reaches.decided ((along_iff made.started).mpr meets) returned unstopped
      decided := reaches'.decided obeys control going }
  exact ⟨made.ids, compared.within reaches'.sound.ledger.known⟩

/-- A draft and a cover, neither of which needs the other. -/
def brochure : PlannerPlan :=
  ⟨[⟨"draft", "write a draft", none, none, none, none, none⟩,
    ⟨"cover", "design a cover", none, none, none, none, none⟩]⟩

/-- The draft fails. -/
def noDraft (id : String) : TaskOutcomeStatus := if id = "draft" then .failed else .completed

/-- Both are executed, and only the cover completes. -/
def brochureDag : List Event :=
  [.ret none, .ret none, .resolve "draft" (.rejected "offline"),
    .resolve "cover" (.fulfilled ⟨"cover", .completed, some "a cover", none, 40, none⟩),
    .tick, .tick, .tick]

/-- The draft is executed. -/
def brochureSteps : List Event :=
  [.ret none, .resolve "seq-0" (.rejected "offline"), .tick, .tick]

theorem supervised_within_dag_brochure :
    ∃ run g s t, planAndRun (.ok brochure) editors "a brochure" ⟨"r1", none, none, none⟩ = .ok run ∧
      Within brochure run g s t ∧ "cover" ∈ s.executed ∧ "seq-1" ∉ t.executed := by
  have ends : ∃ dag run whole s r scheduled,
      planAndRunDag (.ok brochure) editors ⟨none, .undefined, false⟩ = .ok dag ∧
      planAndRun (.ok brochure) editors "a brochure" ⟨"r1", none, none, none⟩ = .ok run ∧
      dagGraph (dag.routed.tasks.map RoutedTask.toSpec) = .ok whole ∧
      ((⟨none, positive_none⟩ : Scheduler).machine whole).run dag.started brochureDag = some s ∧
      s.control = .returned r ∧ r.stopped = false ∧
      schedule run.supervisorInput.plan.graph false brochureSteps = some scheduled ∧
      scheduled.report.stopped = false ∧ run.place "seq-0" = "draft" ∧
      "cover" ∈ s.executed ∧ "seq-1" ∉ scheduled.state.executed :=
    ⟨_, _, _, _, _, _, rfl, rfl, rfl, rfl, rfl, rfl, rfl, rfl, rfl, by decide, by decide⟩
  obtain ⟨dag, run, whole, s, r, scheduled, piped, planned, whole_eq, execution, returned,
    unstopped, ran, going, first, handed, left⟩ := ends
  refine ⟨run, scheduled.graph, s, scheduled.state, planned, ?_, handed, left⟩
  have meets : (Scheduler.machine ⟨none, positive_none⟩ whole).Meets
      (fun s e => e.Given (Ends noDraft) s) dag.started brochureDag := by
    refine Machine.meets_of_mem (fun e member u => ?_) _
    simp only [brochureDag, List.mem_cons, List.not_mem_nil, or_false] at member
    obtain rfl | rfl | rfl | rfl | rfl | rfl | rfl := member
    · exact Event.given_of_none _ u
    · exact Event.given_of_none _ u
    · exact Event.given_resolve fun task same => by simp [Ends, Settlement.outcome, noDraft, same]
    · exact Event.given_resolve fun task same => by simp [Ends, Settlement.outcome, noDraft, same]
    · trivial
    · trivial
    · trivial
  refine (supervised_within_dag piped planned rfl whole_eq execution meets returned unstopped ran
    (fun s₀ _ => Machine.meets_of_mem (fun e member u => ?_) s₀) going).2
  simp only [brochureSteps, List.mem_cons, List.not_mem_nil, or_false] at member
  obtain rfl | rfl | rfl | rfl := member
  · exact Event.given_of_none _ u
  · exact Event.given_resolve fun task same => by
      simp [Ends, Settlement.outcome, noDraft, same, first]
  · trivial
  · trivial

end Comparison

end PlannedRun

end MultiAgent.Native
