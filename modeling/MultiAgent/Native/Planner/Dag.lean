import MultiAgent.Native.Planner.Accepted
import MultiAgent.Native.Strategies

/-!
# Accepted plans as task graphs

`strategies/dag.ts` and the conversion in `planAndRunDag`. The routed tasks of an
accepted plan become the tasks of a graph, and the graph is acyclic because the
validator searched the same edges. The constructor of `Task` makes two checks
that the validator does not make: on repeated dependencies and on timeouts.
-/

namespace MultiAgent.Native

/-- What `planAndRunDag` makes of a routed task. -/
def RoutedTask.toSpec (task : RoutedTask) : TaskSpec where
  id := task.id
  agentId := task.agentId
  prompt := task.prompt
  dependsOn := task.dependsOn
  timeoutMs := task.timeoutMs

/-- The graph of `runDag`: `graph.add(spec)` for each spec. -/
def dagGraph (specs : List TaskSpec) : Except AddError TaskGraph :=
  specs.foldlM TaskGraph.addSpec TaskGraph.empty

inductive DagError where
  | add (error : AddError)
  | concurrency (error : TypeError)
  | run (error : Scheduler.RunError)
  deriving DecidableEq, Repr

/-- `runDag` up to the first opening of its scheduler. -/
def runDag (specs : List TaskSpec) (concurrency : Option JsNumber) (signalAborted : Bool) :
    Except DagError Scheduler.RunState :=
  match dagGraph specs with
  | .error error => .error (.add error)
  | .ok graph =>
    match Scheduler.new concurrency with
    | .error error => .error (.concurrency error)
    | .ok scheduler =>
      match scheduler.run none graph (fun _ => .pending) signalAborted with
      | .error error => .error (.run error)
      | .ok started => .ok started

/-- A timeout that the constructor of `Task` takes. -/
def Usable (timeoutMs : Option JsNumber) : Prop :=
  ∀ value, timeoutMs = some value → ∃ q : ℚ, value = .finite q ∧ 0 < q

/-- The checks of the constructor of `Task`. -/
structure TaskSpec.Constructs (spec : TaskSpec) : Prop where
  id : spec.id.isEmpty = false
  agentId : spec.agentId.isEmpty = false
  timeoutMs : Usable spec.timeoutMs
  named : ∀ dep ∈ spec.dependsOn.getD [], dep.isEmpty = false
  once : (spec.dependsOn.getD []).Nodup

/-- The task that a spec constructs. -/
def TaskSpec.toTask (spec : TaskSpec) : Task where
  id := spec.id
  agentId := spec.agentId
  prompt := spec.prompt
  dependsOn := spec.dependsOn.getD []
  timeoutMs := spec.timeoutMs

theorem assertNonEmptyString_eq_ok_iff {value field : String} :
    assertNonEmptyString value field = .ok () ↔ value.isEmpty = false := by
  cases blank : value.isEmpty <;> simp [assertNonEmptyString, blank]

theorem assertTimeoutMs_eq_ok_iff {timeoutMs : Option JsNumber} :
    assertTimeoutMs timeoutMs = .ok () ↔ Usable timeoutMs := by
  cases timeoutMs with
  | none => simp [assertTimeoutMs, Usable]
  | some value =>
      cases value with
      | nan => simp [assertTimeoutMs, Usable]
      | infinite negative => simp [assertTimeoutMs, Usable]
      | finite q =>
          by_cases positive : q ≤ 0
          · simp [assertTimeoutMs, Usable, positive, Rat.not_lt.mpr positive]
          · simp [assertTimeoutMs, Usable, positive, Rat.not_le.mp positive]

theorem assertDependencies_eq_ok_iff {id : String} {seen deps : List String} :
    assertDependencies id seen deps = .ok () ↔
      (∀ dep ∈ deps, dep.isEmpty = false ∧ dep ∉ seen) ∧ deps.Nodup := by
  induction deps generalizing seen with
  | nil => simp [assertDependencies]
  | cons dep deps ih =>
      rw [assertDependencies, check_bind_eq_ok_iff, List.forall_mem_cons, List.nodup_cons]
      by_cases again : dep ∈ seen
      · simp [again]
      · simp only [again, if_false, assertNonEmptyString_eq_ok_iff, ih,
          List.mem_cons, not_or, not_false_eq_true, and_true]
        constructor
        · rintro ⟨named, fresh, once⟩
          refine ⟨⟨named, ?_⟩, ?_, once⟩
          · intro other member
            exact ⟨(fresh other member).1, (fresh other member).2.2⟩
          · intro repeated
            exact (fresh dep repeated).2.1 rfl
        · rintro ⟨⟨named, fresh⟩, single, once⟩
          refine ⟨named, fun other member => ⟨(fresh other member).1, ?_, (fresh other member).2⟩,
            once⟩
          rintro rfl
          exact single member

/-- Which specs the constructor accepts, and the task it makes of them. -/
theorem Task.new_eq_ok_iff {spec : TaskSpec} {task : Task} :
    Task.new spec = .ok task ↔ spec.Constructs ∧ task = spec.toTask := by
  rw [Task.new]
  simp only [check_bind_eq_ok_iff, assertNonEmptyString_eq_ok_iff, assertTimeoutMs_eq_ok_iff,
    assertDependencies_eq_ok_iff, List.not_mem_nil, not_false_eq_true, and_true,
    pure, Except.pure, Except.ok.injEq]
  constructor
  · rintro ⟨id, agentId, timeoutMs, ⟨named, once⟩, rfl⟩
    exact ⟨⟨id, agentId, timeoutMs, named, once⟩, rfl⟩
  · rintro ⟨constructs, rfl⟩
    exact ⟨constructs.id, constructs.agentId, constructs.timeoutMs,
      ⟨constructs.named, constructs.once⟩, rfl⟩

section Building

variable {g h : TaskGraph} {spec : TaskSpec} {specs : List TaskSpec}

theorem addSpec_eq_ok_iff :
    g.addSpec spec = .ok h ↔
      spec.Constructs ∧ spec.id ∉ g.ids ∧ h.tasks = g.tasks ++ [spec.toTask] := by
  rw [TaskGraph.addSpec]
  cases built : Task.new spec with
  | error error =>
      simp only [reduceCtorEq, false_iff]
      rintro ⟨constructs, -⟩
      rw [Task.new_eq_ok_iff.mpr ⟨constructs, rfl⟩] at built
      cases built
  | ok task =>
      obtain ⟨constructs, rfl⟩ := Task.new_eq_ok_iff.mp built
      by_cases known : spec.id ∈ g.ids
      · have same : spec.toTask.id ∈ g.tasks.map Task.id := known
        simp [TaskGraph.add, same, known]
      · have fresh : spec.toTask.id ∉ g.tasks.map Task.id := known
        simp only [TaskGraph.add, fresh, dif_neg, not_false_eq_true, Except.ok.injEq, known,
          constructs, true_and]
        constructor
        · rintro rfl
          rfl
        · intro tasks
          cases h
          cases tasks
          rfl

/-- Adding specs succeeds exactly when all of them construct, under new ids. -/
theorem addSpecs_eq_ok_iff :
    specs.foldlM TaskGraph.addSpec g = .ok h ↔
      (∀ spec ∈ specs, spec.Constructs ∧ spec.id ∉ g.ids) ∧ (specs.map TaskSpec.id).Nodup ∧
        h.tasks = g.tasks ++ specs.map TaskSpec.toTask := by
  induction specs generalizing g with
  | nil =>
      simp only [List.foldlM_nil, pure, Except.pure, Except.ok.injEq, List.not_mem_nil,
        false_implies, implies_true, List.map_nil, List.nodup_nil, List.append_nil, true_and]
      constructor
      · rintro rfl
        rfl
      · intro tasks
        cases g
        cases h
        cases tasks
        rfl
  | cons spec specs ih =>
      rw [List.foldlM_cons, bind_eq_ok_iff, List.forall_mem_cons, List.map_cons, List.nodup_cons]
      constructor
      · rintro ⟨k, added, rest⟩
        obtain ⟨constructs, fresh, here⟩ := addSpec_eq_ok_iff.mp added
        obtain ⟨all, once, tasks⟩ := ih.mp rest
        have ids : k.ids = g.ids ++ [spec.id] := by
          simp [TaskGraph.ids, here, TaskSpec.toTask]
        rw [ids] at all
        refine ⟨⟨⟨constructs, fresh⟩, ?_⟩, ⟨?_, once⟩, ?_⟩
        · intro other member
          obtain ⟨accepted, absent⟩ := all other member
          exact ⟨accepted, fun known => absent (List.mem_append_left _ known)⟩
        · intro again
          obtain ⟨other, member, same⟩ := List.mem_map.mp again
          exact (all other member).2 (by simp [same])
        · simp [tasks, here]
      · rintro ⟨⟨⟨constructs, fresh⟩, all⟩, ⟨single, once⟩, tasks⟩
        have extended : ((g.tasks ++ [spec.toTask]).map Task.id).Nodup := by
          rw [List.map_append, List.nodup_append]
          refine ⟨g.distinct, by simp, ?_⟩
          rintro a known b new rfl
          rw [List.map_singleton, List.mem_singleton] at new
          rw [new] at known
          exact fresh known
        refine ⟨⟨_, extended⟩, addSpec_eq_ok_iff.mpr ⟨constructs, fresh, rfl⟩,
          ih.mpr ⟨?_, once, ?_⟩⟩
        · intro other member
          refine ⟨(all other member).1, ?_⟩
          intro known
          have split : other.id ∈ g.ids ∨ other.id = spec.id := by
            simpa [TaskGraph.ids, TaskSpec.toTask] using known
          obtain known | same := split
          · exact (all other member).2 known
          · exact single (same ▸ List.mem_map_of_mem member)
        · simp [tasks]

theorem dagGraph_eq_ok_iff :
    dagGraph specs = .ok h ↔
      (∀ spec ∈ specs, spec.Constructs) ∧ (specs.map TaskSpec.id).Nodup ∧
        h.tasks = specs.map TaskSpec.toTask := by
  rw [dagGraph, addSpecs_eq_ok_iff]
  simp [TaskGraph.ids, TaskGraph.empty]

end Building

/-- What the validator and the graph both read of a task. -/
structure Outline where
  id : String
  dependsOn : List String
  timeoutMs : Option JsNumber

def PlanTask.outline (task : PlanTask) : Outline :=
  ⟨task.id, task.dependsOn.getD [], task.timeoutMs⟩

def TaskSpec.outline (spec : TaskSpec) : Outline :=
  ⟨spec.id, spec.dependsOn.getD [], spec.timeoutMs⟩

theorem PlanTask.RoutedTo.outline {agents : List AgentDescriptor} {task : PlanTask}
    {other : RoutedTask} (routed : task.RoutedTo agents other) :
    task.outline = other.toSpec.outline := by
  simp only [PlanTask.outline, TaskSpec.outline, RoutedTask.toSpec, routed.id, routed.dependsOn,
    routed.timeoutMs]

/-- The conversion keeps the outlines, task by task. -/
theorem outlines_eq {agents : List AgentDescriptor} {tasks : List PlanTask}
    {others : List RoutedTask} (routed : List.Forall₂ (PlanTask.RoutedTo agents) tasks others) :
    tasks.map PlanTask.outline = (others.map RoutedTask.toSpec).map TaskSpec.outline := by
  induction routed with
  | nil => rfl
  | cons here _ ih => rw [List.map_cons, List.map_cons, List.map_cons, ih, here.outline]

section Edges

variable {tasks : List PlanTask} {specs : List TaskSpec} {graph : TaskGraph}

theorem dependsOnOf_id (distinct : (tasks.map PlanTask.id).Nodup) {task : PlanTask}
    (member : task ∈ tasks) :
    PlanValidator.dependsOnOf tasks task.id = task.dependsOn.getD [] := by
  rw [PlanValidator.dependsOnOf, Lookup.find?_reverse_eq_some distinct member]

theorem dependsOnOf_of_not_mem {id : String} (unknown : id ∉ tasks.map PlanTask.id) :
    PlanValidator.dependsOnOf tasks id = [] := by
  rw [PlanValidator.dependsOnOf, Lookup.find?_reverse_eq_none unknown]

theorem ids_eq (outlines : tasks.map PlanTask.outline = specs.map TaskSpec.outline) :
    tasks.map PlanTask.id = specs.map TaskSpec.id := by
  have ids := congrArg (List.map Outline.id) outlines
  rwa [List.map_map, List.map_map] at ids

/-- The graph of the specs has the edges that the validator searched. -/
theorem dependsOn_eq_dependsOnOf
    (outlines : tasks.map PlanTask.outline = specs.map TaskSpec.outline)
    (distinct : (tasks.map PlanTask.id).Nodup) (built : graph.tasks = specs.map TaskSpec.toTask) :
    graph.dependsOn = PlanValidator.dependsOnOf tasks ∧ graph.ids = tasks.map PlanTask.id := by
  have ids : graph.ids = tasks.map PlanTask.id := by
    rw [ids_eq outlines, TaskGraph.ids, built, List.map_map]
    rfl
  refine ⟨funext ?_, ids⟩
  intro id
  by_cases known : id ∈ tasks.map PlanTask.id
  · obtain ⟨task, member, rfl⟩ := List.mem_map.mp known
    have outlined : task.outline ∈ specs.map TaskSpec.outline :=
      outlines ▸ List.mem_map_of_mem member
    obtain ⟨spec, given, same⟩ := List.mem_map.mp outlined
    have here : spec.toTask ∈ graph.tasks := built ▸ List.mem_map_of_mem given
    have id : spec.toTask.id = task.id := congrArg Outline.id same
    rw [dependsOnOf_id distinct member, ← id, TaskGraph.dependsOn_id here]
    exact congrArg Outline.dependsOn same
  · rw [dependsOnOf_of_not_mem known, TaskGraph.dependsOn_of_not_mem (ids ▸ known)]

/-- The graph of an accepted plan passes the validation of the graph. -/
theorem validate_of_accepted {plan : PlannerPlan} (accepted : plan.Accepted)
    (outlines : plan.tasks.map PlanTask.outline = specs.map TaskSpec.outline)
    (built : graph.tasks = specs.map TaskSpec.toTask) : graph.validate = .ok () := by
  obtain ⟨edges, ids⟩ := dependsOn_eq_dependsOnOf outlines accepted.distinct built
  refine TaskGraph.validate_eq_ok_iff.mpr ⟨?_, ?_⟩
  · intro task member dep edge
    have known : task.id ∈ plan.tasks.map PlanTask.id := ids ▸ TaskGraph.id_mem_ids member
    obtain ⟨origin, planned, same⟩ := List.mem_map.mp known
    rw [← TaskGraph.dependsOn_id member, edges, ← same,
      dependsOnOf_id accepted.distinct planned] at edge
    rw [← same, ids]
    exact (accepted.sound origin planned).dependsOn dep edge
  · rw [TaskGraph.findCycle, edges, ids]
    cases found : DepthFirst.findCycle (PlanValidator.dependsOnOf plan.tasks)
        (plan.tasks.map PlanTask.id) with
    | none => rfl
    | some path =>
        have acyclic := accepted.acyclic
        rw [PlanValidator.findCycle, found, Option.getD_some] at acyclic
        exact absurd acyclic (DepthFirst.findCycle_closed found).ne_nil

end Edges

/-- The specs run as a graph: every constructor accepts its spec, the graph is
built and validated, and no constructed scheduler refuses it. -/
structure Executable (specs : List TaskSpec) : Prop where
  constructs : ∀ spec ∈ specs, ∃ task, Task.new spec = .ok task
  valid : ∃ graph, dagGraph specs = .ok graph ∧ graph.validate = .ok ()
  runs : ∀ concurrency scheduler signalAborted, Scheduler.new concurrency = .ok scheduler →
    ∃ started, runDag specs concurrency signalAborted = .ok started

theorem runDag_of_valid {specs : List TaskSpec} {graph : TaskGraph}
    {concurrency : Option JsNumber} {scheduler : Scheduler} (built : dagGraph specs = .ok graph)
    (valid : graph.validate = .ok ()) (constructed : Scheduler.new concurrency = .ok scheduler)
    (signalAborted : Bool) : ∃ started, runDag specs concurrency signalAborted = .ok started := by
  have fresh : Scheduler.reuseMessage graph (fun _ => .pending) = none := by
    simp [Scheduler.reuseMessage]
  have accepted : ∃ started,
      scheduler.run none graph (fun _ => .pending) signalAborted = .ok started :=
    ⟨_, by simp only [Scheduler.run, valid, fresh]; rfl⟩
  obtain ⟨started, accepted⟩ := accepted
  exact ⟨started, by simp only [runDag, built, constructed, accepted]⟩

/-- The specs of an accepted and routed plan pass every check but the two that
only the constructor makes. -/
theorem constructs_iff {agents : List AgentDescriptor} {plan : PlannerPlan} {task : PlanTask}
    {other : RoutedTask} (accepted : plan.Accepted) (member : task ∈ plan.tasks)
    (named : ∀ agent ∈ agents, agent.id.isEmpty = false) (routed : task.RoutedTo agents other) :
    other.toSpec.Constructs ↔ (task.dependsOn.getD []).Nodup ∧ Usable task.timeoutMs := by
  have sound := accepted.sound task member
  constructor
  · intro constructs
    have once := constructs.once
    have timeoutMs := constructs.timeoutMs
    simp only [RoutedTask.toSpec, routed.dependsOn, routed.timeoutMs] at once timeoutMs
    exact ⟨once, timeoutMs⟩
  · rintro ⟨once, timeoutMs⟩
    obtain ⟨agent, pooled, agentId⟩ := List.mem_map.mp routed.agentId
    refine ⟨?_, ?_, ?_, ?_, ?_⟩
    · exact (congrArg String.isEmpty routed.id).trans sound.id
    · exact (congrArg String.isEmpty agentId.symm).trans (named agent pooled)
    · simpa only [RoutedTask.toSpec, routed.timeoutMs] using timeoutMs
    · intro dep edge
      simp only [RoutedTask.toSpec, routed.dependsOn] at edge
      obtain ⟨target, planned, rfl⟩ := List.mem_map.mp (sound.dependsOn dep edge).2
      exact (accepted.sound target planned).id
    · simpa only [RoutedTask.toSpec, routed.dependsOn] using once

theorem allConstruct_iff {agents : List AgentDescriptor} {plan : PlannerPlan}
    {others : List RoutedTask} (accepted : plan.Accepted)
    (named : ∀ agent ∈ agents, agent.id.isEmpty = false)
    (routed : List.Forall₂ (PlanTask.RoutedTo agents) plan.tasks others) :
    (∀ spec ∈ others.map RoutedTask.toSpec, spec.Constructs) ↔
      ∀ task ∈ plan.tasks, (task.dependsOn.getD []).Nodup ∧ Usable task.timeoutMs := by
  have partwise : ∀ {tasks : List PlanTask} {others : List RoutedTask},
      List.Forall₂ (PlanTask.RoutedTo agents) tasks others → tasks ⊆ plan.tasks →
      ((∀ spec ∈ others.map RoutedTask.toSpec, spec.Constructs) ↔
        ∀ task ∈ tasks, (task.dependsOn.getD []).Nodup ∧ Usable task.timeoutMs) := by
    intro tasks others routed
    induction routed with
    | nil => simp
    | cons here _ ih =>
        intro planned
        obtain ⟨first, rest⟩ := List.cons_subset.mp planned
        rw [List.map_cons, List.forall_mem_cons, List.forall_mem_cons, ih rest,
          constructs_iff accepted first named here]
  exact partwise routed (List.Subset.refl _)

/-- A plan that was accepted, repaired and routed over a pool of named agents
runs as a task graph exactly when no task lists a dependency twice and every
timeout is finite and positive. -/
theorem accepted_plan_executable {agents : List AgentDescriptor} {plan : PlannerPlan}
    {validated : ValidatedPlan} {router : AgentRouter}
    (named : ∀ agent ∈ agents, agent.id.isEmpty = false)
    (judged : PlanValidator.validateAndRepair agents plan = .ok validated)
    (constructed : AgentRouter.new agents = .ok router) :
    Executable ((router.route validated.plan.tasks).tasks.map RoutedTask.toSpec) ↔
      ∀ task ∈ plan.tasks, (task.dependsOn.getD []).Nodup ∧ Usable task.timeoutMs := by
  obtain ⟨accepted, routed⟩ := routed_of_accepted judged constructed
  have outlines := outlines_eq routed
  rw [← allConstruct_iff accepted named routed]
  constructor
  · intro executable spec member
    obtain ⟨task, built⟩ := executable.constructs spec member
    exact (Task.new_eq_ok_iff.mp built).1
  · intro construct
    have distinct : (((router.route validated.plan.tasks).tasks.map RoutedTask.toSpec).map
        TaskSpec.id).Nodup := ids_eq outlines ▸ accepted.distinct
    have once : ((((router.route validated.plan.tasks).tasks.map RoutedTask.toSpec).map
        TaskSpec.toTask).map Task.id).Nodup := by
      rw [List.map_map]
      exact distinct
    have built : dagGraph ((router.route validated.plan.tasks).tasks.map RoutedTask.toSpec) =
        .ok ⟨_, once⟩ := dagGraph_eq_ok_iff.mpr ⟨construct, distinct, rfl⟩
    have valid : TaskGraph.validate ⟨_, once⟩ = .ok () :=
      validate_of_accepted accepted outlines rfl
    refine ⟨?_, ⟨_, built, valid⟩, ?_⟩
    · intro spec member
      exact ⟨_, Task.new_eq_ok_iff.mpr ⟨construct spec member, rfl⟩⟩
    · intro concurrency scheduler signalAborted given
      exact runDag_of_valid built valid given signalAborted

def writers : List AgentDescriptor := [⟨"writer", []⟩]

/-- A draft, and a review that depends on it. -/
def draftAndReview : PlannerPlan :=
  ⟨[⟨"draft", "write a draft", none, none, none, none, none⟩,
    ⟨"review", "check the draft", none, none, some ["draft"], none, none⟩]⟩

theorem accepted_plan_executable_draftAndReview :
    ∃ validated router, PlanValidator.validateAndRepair writers draftAndReview = .ok validated ∧
      AgentRouter.new writers = .ok router ∧
      Executable ((router.route validated.plan.tasks).tasks.map RoutedTask.toSpec) := by
  have named : ∀ agent ∈ writers, agent.id.isEmpty = false := by decide
  have judged : ∃ validated,
      PlanValidator.validateAndRepair writers draftAndReview = .ok validated := ⟨_, rfl⟩
  have constructed : ∃ router, AgentRouter.new writers = .ok router := ⟨_, rfl⟩
  obtain ⟨validated, judged⟩ := judged
  obtain ⟨router, constructed⟩ := constructed
  refine ⟨validated, router, judged, constructed, ?_⟩
  apply (accepted_plan_executable named judged constructed).mpr
  intro task member
  simp only [draftAndReview, List.mem_cons, List.not_mem_nil, or_false] at member
  obtain rfl | rfl := member
  · exact ⟨by decide, nofun⟩
  · exact ⟨by decide, nofun⟩

/-- The review names its dependency twice. -/
def repeatedDependency : PlannerPlan :=
  ⟨[⟨"draft", "write a draft", none, none, none, none, none⟩,
    ⟨"review", "check the draft", none, none, some ["draft", "draft"], none, none⟩]⟩

/-- The validator accepts the plan, and `runDag` throws a `TypeError`. -/
theorem repeatedDependency_throws :
    ∃ validated router,
      PlanValidator.validateAndRepair writers repeatedDependency = .ok validated ∧
      AgentRouter.new writers = .ok router ∧
      runDag ((router.route validated.plan.tasks).tasks.map RoutedTask.toSpec) none false =
        .error (.add (.task ⟨"Task 'review' lists dependency 'draft' more than once"⟩)) :=
  ⟨_, _, rfl, rfl, rfl⟩

end MultiAgent.Native
