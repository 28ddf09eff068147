import MultiAgent.Plugin.Planning

/-!
# Valid plans

What the validation of a plan checks, as a property of its tasks (`check_ok_iff`).
-/

namespace MultiAgent.Plugin

namespace Planning

/-- The shape of the graph: known dependencies, none of a task on itself, and no cycle. -/
structure ValidGraph (tasks : List Task) : Prop where
  closed : ∀ task ∈ tasks, ∀ dep ∈ task.dependsOn, dep ∈ tasks.map Task.id
  irreflexive : ∀ task ∈ tasks, task.id ∉ task.dependsOn
  acyclic : Acyclic (edgesOf tasks)

/-- Distinct ids that are not empty, and descriptions that are not blank. -/
structure WellFormed (tasks : List Task) : Prop where
  distinct : (tasks.map Task.id).Nodup
  nonempty : ∀ task ∈ tasks, task.id ≠ ""
  described : ∀ task ∈ tasks, strip task.description ≠ ""

/-- Only known agents and capabilities are named. -/
structure Supported (knownAgents knownCaps : List String) (tasks : List Task) : Prop where
  agents : ∀ task ∈ tasks, ∀ agent ∈ task.agent, agent ∈ knownAgents
  capabilities : ∀ task ∈ tasks, ∀ cap ∈ task.requiredCapabilities, cap ∈ knownCaps

section Edges

variable {tasks tasks' : List Task} {task : Task} {id : String}

/-- The edges are those of the graph, whatever else the tasks say. -/
theorem edgesOf_congr (same : tasks.map (fun task => (task.id, task.dependsOn)) =
    tasks'.map fun task => (task.id, task.dependsOn)) : edgesOf tasks = edgesOf tasks' := by
  funext id
  have read (tasks : List Task) : edgesOf tasks id =
      (((tasks.map fun task => (task.id, task.dependsOn)).reverse.find? fun entry =>
        decide (entry.1 = id)).map Prod.snd).getD [] := by
    rw [edgesOf, ← List.map_reverse, List.find?_map]
    have other : (fun entry : String × List String => decide (entry.1 = id)) ∘
        (fun task : Task => (task.id, task.dependsOn)) = fun task => decide (task.id = id) := rfl
    rw [other]
    cases tasks.reverse.find? fun task => decide (task.id = id) <;> rfl
  rw [read, read, same]

theorem edgesOf_of_mem (distinct : (tasks.map Task.id).Nodup) (member : task ∈ tasks) :
    edgesOf tasks task.id = task.dependsOn := by
  rw [edgesOf, Lookup.find?_reverse_eq_some distinct member]

theorem edgesOf_of_notMem (unknown : id ∉ tasks.map Task.id) : edgesOf tasks id = [] := by
  rw [edgesOf, Lookup.find?_reverse_eq_none unknown]

theorem exists_of_mem_edgesOf {dep : String} (edge : dep ∈ edgesOf tasks id) :
    ∃ task ∈ tasks, task.id = id ∧ dep ∈ task.dependsOn := by
  rw [edgesOf] at edge
  split at edge
  · rename_i task found
    obtain ⟨member, same⟩ := Lookup.of_find? found
    exact ⟨task, List.mem_reverse.mp member, same, edge⟩
  · cases edge

theorem dependsOn_eq_edgesOf (plan : TaskPlan) : plan.dependsOn = edgesOf plan.tasks := by
  funext id
  by_cases known : id ∈ plan.tasks.map Task.id
  · obtain ⟨task, member, rfl⟩ := List.mem_map.mp known
    rw [TaskPlan.dependsOn_id member, edgesOf_of_mem plan.distinct member]
  · rw [edgesOf_of_notMem known, TaskPlan.dependsOn, Lookup.find?_eq_none known]

/-- A graph is valid whatever else the tasks say. -/
theorem ValidGraph.congr (same : tasks.map (fun task => (task.id, task.dependsOn)) =
    tasks'.map fun task => (task.id, task.dependsOn)) (valid : ValidGraph tasks) :
    ValidGraph tasks' := by
  have ids : tasks'.map Task.id = tasks.map Task.id := by
    have firsts := congrArg (List.map Prod.fst) same
    rw [List.map_map, List.map_map] at firsts
    exact firsts.symm
  have before {task : Task} (member : task ∈ tasks') :
      ∃ other ∈ tasks, other.id = task.id ∧ other.dependsOn = task.dependsOn := by
    have inside : (task.id, task.dependsOn) ∈
        tasks'.map fun task => (task.id, task.dependsOn) := List.mem_map_of_mem member
    rw [← same] at inside
    obtain ⟨other, member, equal⟩ := List.mem_map.mp inside
    exact ⟨other, member, congrArg Prod.fst equal, congrArg Prod.snd equal⟩
  constructor
  · intro task member dep edge
    obtain ⟨other, inside, -, deps⟩ := before member
    rw [ids]
    exact valid.closed other inside dep (deps ▸ edge)
  · intro task member edge
    obtain ⟨other, inside, id, deps⟩ := before member
    rw [← id, ← deps] at edge
    exact valid.irreflexive other inside edge
  · rw [← edgesOf_congr same]
    exact valid.acyclic

end Edges

section Check

variable {set : SetIteration} {knownAgents knownCaps : List String} {plan plan' : TaskPlan}
variable {tasks : List Task}

theorem collect_ok_iff : plan.collect tasks = .ok plan' ↔
    plan'.tasks = plan.tasks ++ tasks ∧ ∀ task ∈ tasks, task.id ≠ "" := by
  induction tasks generalizing plan with
  | nil =>
      rw [TaskPlan.collect, List.append_nil]
      constructor
      · intro same
        cases same
        exact ⟨rfl, nofun⟩
      · rintro ⟨same, -⟩
        obtain ⟨tasks, _⟩ := plan
        obtain ⟨tasks', _⟩ := plan'
        cases same
        rfl
  | cons task rest ih =>
      unfold TaskPlan.collect
      split_ifs with empty known
      · refine iff_of_false nofun ?_
        rintro ⟨-, nonempty⟩
        exact nonempty task (by simp) (String.isEmpty_iff.mp empty)
      · refine iff_of_false nofun ?_
        rintro ⟨same, -⟩
        have distinct := plan'.distinct
        rw [same, List.map_append, List.nodup_append] at distinct
        exact distinct.2.2 _ known _ (List.mem_map_of_mem (by simp)) rfl
      · have nonempty : task.id ≠ "" := fun same => empty (String.isEmpty_iff.mpr same)
        rw [ih, List.append_assoc, List.singleton_append, List.forall_mem_cons,
          and_iff_right nonempty]

theorem checkDescription_ok_iff {task : Task} :
    TaskPlan.checkDescription task = .ok () ↔ strip task.description ≠ "" := by
  unfold TaskPlan.checkDescription
  split_ifs with blank
  · exact iff_of_false nofun fun described => described (String.isEmpty_iff.mp blank)
  · exact iff_of_true rfl fun same => blank (String.isEmpty_iff.mpr same)

theorem checkDependency_ok_iff {task : Task} {dep : String} :
    plan.checkDependency task dep = .ok () ↔ dep ∈ plan.tasks.map Task.id ∧ dep ≠ task.id := by
  unfold TaskPlan.checkDependency TaskPlan.ids
  by_cases known : dep ∈ plan.tasks.map Task.id
  · rw [if_neg (not_not.mpr known), and_iff_right known]
    split_ifs with itself
    · exact iff_of_false nofun (not_not.mpr itself)
    · exact iff_of_true rfl itself
  · rw [if_pos known]
    exact iff_of_false nofun fun both => known both.1

theorem checkAgent_ok_iff {task : Task} {known : List String} :
    TaskPlan.checkAgent known task = .ok () ↔ ∀ agent ∈ task.agent, agent ∈ known := by
  unfold TaskPlan.checkAgent
  cases task.agent with
  | none => simp
  | some agent =>
      simp only [Option.mem_some_iff, forall_eq']
      split_ifs with member <;> simp [member]

theorem checkCapability_ok_iff {task : Task} {known : List String} {cap : String} :
    TaskPlan.checkCapability known task cap = .ok () ↔ cap ∈ known := by
  unfold TaskPlan.checkCapability
  split_ifs with member <;> simp [member]

/-- The order exists when every dependency is known and there is no cycle. -/
theorem plan_order_ok_iff : (∃ order, plan.topologicalOrder set.iter = .ok order) ↔
    (∀ task ∈ plan.tasks, ∀ dep ∈ task.dependsOn, dep ∈ plan.tasks.map Task.id) ∧
      Acyclic (edgesOf plan.tasks) := by
  have outside (id : String) (unknown : id ∉ plan.ids) : edgesOf plan.tasks id = [] :=
    edgesOf_of_notMem unknown
  unfold TaskPlan.topologicalOrder
  rw [dependsOn_eq_edgesOf, topologicalOrder_ok_iff set outside]
  refine and_congr ?_ Iff.rfl
  constructor
  · intro closed task member dep edge
    apply closed task.id (List.mem_map_of_mem member)
    rwa [edgesOf_of_mem plan.distinct member]
  · intro closed id known dep edge
    obtain ⟨task, member, rfl⟩ := List.mem_map.mp known
    rw [edgesOf_of_mem plan.distinct member] at edge
    exact closed task member dep edge

/-- Known dependencies that are not the task itself, and an order. -/
theorem graph_ok_iff (set : SetIteration) : ((∀ task ∈ plan.tasks, ∀ dep ∈ task.dependsOn,
    dep ∈ plan.tasks.map Task.id ∧ dep ≠ task.id) ∧
      ∃ order, plan.topologicalOrder set.iter = .ok order) ↔ ValidGraph plan.tasks := by
  rw [plan_order_ok_iff]
  constructor
  · rintro ⟨deps, closed, acyclic⟩
    exact ⟨closed, fun task member edge => (deps task member _ edge).2 rfl, acyclic⟩
  · intro valid
    refine ⟨?_, valid.closed, valid.acyclic⟩
    intro task member dep edge
    refine ⟨valid.closed task member dep edge, ?_⟩
    rintro rfl
    exact valid.irreflexive task member edge

/-- The last checks of a plan, on the agents and capabilities that are known. -/
theorem known_ok_iff (agents caps : Option (List String)) :
    ((match agents with
      | some known => forM plan.tasks (TaskPlan.checkAgent known)
      | none => .ok () : Except PlanValidationError Unit) >>= fun _ =>
      match caps with
      | some known => forM plan.tasks fun task =>
          forM task.requiredCapabilities (TaskPlan.checkCapability known task)
      | none => .ok ()) = .ok () ↔
      (∀ known ∈ agents, ∀ task ∈ plan.tasks, ∀ agent ∈ task.agent, agent ∈ known) ∧
        ∀ known ∈ caps, ∀ task ∈ plan.tasks, ∀ cap ∈ task.requiredCapabilities, cap ∈ known := by
  rw [check_bind_eq_ok_iff]
  apply and_congr
  · cases agents <;> simp [forM_eq_ok_iff, checkAgent_ok_iff]
  · cases caps <;> simp [forM_eq_ok_iff, checkCapability_ok_iff]

/-- The checks of a constructed plan. -/
theorem validate_ok_iff (agents caps : Option (List String)) :
    plan.validate set.iter agents caps = .ok () ↔
      (∀ task ∈ plan.tasks, strip task.description ≠ "") ∧ ValidGraph plan.tasks ∧
        (∀ known ∈ agents, ∀ task ∈ plan.tasks, ∀ agent ∈ task.agent, agent ∈ known) ∧
        (∀ known ∈ caps, ∀ task ∈ plan.tasks, ∀ cap ∈ task.requiredCapabilities, cap ∈ known) := by
  rw [← graph_ok_iff set, and_assoc, ← known_ok_iff]
  unfold TaskPlan.validate
  rw [check_bind_eq_ok_iff, check_bind_eq_ok_iff, forM_eq_ok_iff, forM_eq_ok_iff]
  simp only [checkDescription_ok_iff, forM_eq_ok_iff, checkDependency_ok_iff]
  refine and_congr_right' (and_congr_right' ?_)
  cases plan.topologicalOrder set.iter with
  | error error =>
      refine iff_of_false ?_ fun both => absurd both.1 (by simp)
      intro passed
      cases passed
  | ok order =>
      rw [and_iff_right ⟨order, rfl⟩]
      cases agents <;> cases caps <;> rfl

theorem check_ok_iff : check set knownAgents knownCaps tasks = .ok () ↔
    WellFormed tasks ∧ ValidGraph tasks ∧ Supported knownAgents knownCaps tasks := by
  unfold check TaskPlan.new
  constructor
  · intro passed
    obtain ⟨plan, made, valid⟩ := bind_eq_ok_iff.mp passed
    obtain ⟨plan', collected, made⟩ := bind_eq_ok_iff.mp made
    obtain ⟨-, same⟩ := check_bind_eq_ok_iff.mp made
    cases same
    obtain ⟨same, nonempty⟩ := collect_ok_iff.mp collected
    obtain ⟨described, graph, agents, caps⟩ := (validate_ok_iff _ _).mp valid
    have distinct := plan.distinct
    rw [List.nil_append] at same
    rw [same] at distinct described graph agents caps
    exact ⟨⟨distinct, nonempty, described⟩, graph, agents _ rfl, caps _ rfl⟩
  · rintro ⟨formed, graph, supported⟩
    refine bind_eq_ok_iff.mpr ⟨⟨tasks, formed.distinct⟩, ?_, ?_⟩
    · refine bind_eq_ok_iff.mpr ⟨⟨tasks, formed.distinct⟩, ?_, ?_⟩
      · exact collect_ok_iff.mpr ⟨rfl, formed.nonempty⟩
      · refine check_bind_eq_ok_iff.mpr ⟨?_, rfl⟩
        exact (validate_ok_iff _ _).mpr ⟨formed.described, graph, nofun, nofun⟩
    · refine (validate_ok_iff _ _).mpr ⟨formed.described, graph, ?_, ?_⟩
      · rintro _ ⟨⟩
        exact supported.agents
      · rintro _ ⟨⟩
        exact supported.capabilities

end Check

end Planning

end MultiAgent.Plugin
