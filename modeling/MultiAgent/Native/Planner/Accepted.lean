import MultiAgent.Native.Planner.Routing

/-!
# What an accepted plan promises

The validator collects findings and rejects on the hard ones only, so a plan that
it accepts passed every hard check: `validate_eq_ok_iff`. Repairing drops agents
and capabilities, and routing replaces them, so ids, prompts, dependencies and
timeouts of the routed tasks are those of the plan.
-/

namespace MultiAgent.Native

/-- The hard checks on one task. -/
structure PlanTask.Sound (ids : List String) (task : PlanTask) : Prop where
  id : task.id.isEmpty = false
  prompt : task.prompt.isEmpty = false
  dependsOn : ∀ dep ∈ task.dependsOn.getD [], dep ≠ task.id ∧ dep ∈ ids

namespace PlannerPlan

def ids (plan : PlannerPlan) : List String := plan.tasks.map PlanTask.id

/-- The plan passes every hard check. -/
structure Accepted (plan : PlannerPlan) : Prop where
  nonempty : plan.tasks ≠ []
  distinct : plan.ids.Nodup
  sound : ∀ task ∈ plan.tasks, task.Sound plan.ids
  acyclic : PlanValidator.findCycle plan.tasks = []

end PlannerPlan

namespace PlanValidator

variable {agents : List AgentDescriptor} {idSet : List String} {task : PlanTask} {f : Findings}

theorem checkDependency_anyError (dep : String) :
    (checkDependency idSet task f dep).anyError = false ↔
      f.anyError = false ∧ dep ≠ task.id ∧ dep ∈ idSet := by
  rw [checkDependency]
  by_cases self : dep = task.id
  · simp [self, Findings.error]
  · by_cases known : dep ∈ idSet <;> simp [self, known, Findings.error]

theorem checkDependency_seenIds (dep : String) :
    (checkDependency idSet task f dep).seenIds = f.seenIds := by
  rw [checkDependency]
  split
  · rfl
  · split <;> rfl

theorem checkDependencies_anyError (deps : List String) :
    (deps.foldl (checkDependency idSet task) f).anyError = false ↔
      f.anyError = false ∧ ∀ dep ∈ deps, dep ≠ task.id ∧ dep ∈ idSet := by
  induction deps generalizing f with
  | nil => simp
  | cons dep deps ih =>
      rw [List.foldl_cons, ih, checkDependency_anyError, List.forall_mem_cons, and_assoc]

theorem checkDependencies_seenIds (deps : List String) :
    (deps.foldl (checkDependency idSet task) f).seenIds = f.seenIds := by
  induction deps generalizing f with
  | nil => rfl
  | cons dep deps ih => rw [List.foldl_cons, ih, checkDependency_seenIds]

/-- A warning rejects nothing. -/
theorem checkAgent_keeps :
    (checkAgent agents task f).anyError = f.anyError ∧
      (checkAgent agents task f).seenIds = f.seenIds := by
  rw [checkAgent]
  split
  · split <;> exact ⟨rfl, rfl⟩
  · exact ⟨rfl, rfl⟩

theorem checkCapabilities_keeps :
    (checkCapabilities agents task f).anyError = f.anyError ∧
      (checkCapabilities agents task f).seenIds = f.seenIds := by
  rw [checkCapabilities]
  split
  · split <;> exact ⟨rfl, rfl⟩
  · exact ⟨rfl, rfl⟩

theorem checkTask_anyError :
    (checkTask agents idSet f task).anyError = false ↔
      f.anyError = false ∧ task.id ∉ f.seenIds ∧ task.Sound idSet := by
  rw [checkTask]
  by_cases blank : task.id.isEmpty = true
  · simp only [blank, if_true, Findings.error, Bool.true_eq_false, false_iff]
    rintro ⟨-, -, sound⟩
    simp [sound.id] at blank
  · by_cases seen : task.id ∈ f.seenIds
    · simp [blank, seen, Findings.error]
    · by_cases silent : task.prompt.isEmpty = true
      · simp only [blank, seen, silent, if_true, if_false, Findings.error, Bool.false_eq_true,
          Bool.true_eq_false, false_iff]
        rintro ⟨-, -, sound⟩
        simp [sound.prompt] at silent
      · simp only [blank, seen, silent, if_false, Bool.false_eq_true]
        rw [checkCapabilities_keeps.1, checkAgent_keeps.1, checkDependencies_anyError]
        refine and_congr_right fun _ => ⟨?_, fun accepted => accepted.2.dependsOn⟩
        intro deps
        exact ⟨not_false, by simpa using blank, by simpa using silent, deps⟩

theorem checkTask_seenIds (passed : (checkTask agents idSet f task).anyError = false) :
    (checkTask agents idSet f task).seenIds = f.seenIds ++ [task.id] := by
  obtain ⟨-, fresh, sound⟩ := checkTask_anyError.mp passed
  simp only [checkTask, sound.id, sound.prompt, fresh, if_false, Bool.false_eq_true]
  rw [checkCapabilities_keeps.2, checkAgent_keeps.2, checkDependencies_seenIds]

/-- The loop over the tasks finds nothing hard exactly when every task is sound
and its id was not seen before. -/
theorem checkTasks_anyError (f : Findings) (tasks : List PlanTask) :
    (tasks.foldl (checkTask agents idSet) f).anyError = false ↔
      f.anyError = false ∧ (∀ task ∈ tasks, task.Sound idSet) ∧
        (∀ task ∈ tasks, task.id ∉ f.seenIds) ∧ (tasks.map PlanTask.id).Nodup := by
  induction tasks generalizing f with
  | nil => simp
  | cons task tasks ih =>
      rw [List.foldl_cons, ih, List.map_cons, List.nodup_cons, List.forall_mem_cons,
        List.forall_mem_cons]
      constructor
      · rintro ⟨passed, sound, unseen, distinct⟩
        obtain ⟨clean, fresh, here⟩ := checkTask_anyError.mp passed
        rw [checkTask_seenIds passed] at unseen
        refine ⟨clean, ⟨here, sound⟩, ⟨fresh, ?_⟩, ?_, distinct⟩
        · intro other member
          exact fun seen => unseen other member (List.mem_append_left _ seen)
        · intro again
          obtain ⟨other, member, same⟩ := List.mem_map.mp again
          exact unseen other member (by simp [same])
      · rintro ⟨clean, ⟨here, sound⟩, ⟨fresh, unseen⟩, once, distinct⟩
        have passed : (checkTask agents idSet f task).anyError = false :=
          checkTask_anyError.mpr ⟨clean, fresh, here⟩
        refine ⟨passed, sound, ?_, distinct⟩
        intro other member seen
        rw [checkTask_seenIds passed, List.mem_append, List.mem_singleton] at seen
        obtain seen | same := seen
        · exact unseen other member seen
        · exact once (same ▸ List.mem_map_of_mem member)

theorem findings_anyError (agents : List AgentDescriptor) (tasks : List PlanTask) :
    (findings agents tasks).anyError = false ↔
      (∀ task ∈ tasks, task.Sound (tasks.map PlanTask.id)) ∧ (tasks.map PlanTask.id).Nodup ∧
        findCycle tasks = [] := by
  have loop := @checkTasks_anyError agents (tasks.map PlanTask.id) ⟨[], false, []⟩ tasks
  rw [findings]
  by_cases acyclic : findCycle tasks = []
  · simp only [acyclic, ne_eq, not_true_eq_false, if_false, and_true]
    rw [loop]
    simp
  · simp [acyclic, Findings.error]

/-- The plans that the validator accepts, and what it returns for them. -/
theorem validate_eq_ok_iff {plan : PlannerPlan} {validated : ValidatedPlan} :
    validate agents plan = .ok validated ↔
      plan.Accepted ∧ validated = ⟨plan, (findings agents plan.tasks).issues, false⟩ := by
  rw [validate]
  by_cases blank : plan.tasks = []
  · simp only [blank, if_true, reduceCtorEq, false_iff]
    exact fun accepted => accepted.1.nonempty blank
  · simp only [blank, if_false]
    cases hard : (findings agents plan.tasks).anyError with
    | true =>
        simp only [if_true, reduceCtorEq, false_iff]
        rintro ⟨accepted, -⟩
        have clean := (findings_anyError agents plan.tasks).mpr
          ⟨accepted.sound, accepted.distinct, accepted.acyclic⟩
        simp [hard] at clean
    | false =>
        obtain ⟨sound, distinct, acyclic⟩ := (findings_anyError agents plan.tasks).mp hard
        simp only [Bool.false_eq_true, if_false, Except.ok.injEq]
        exact ⟨fun same => ⟨⟨blank, distinct, sound, acyclic⟩, same.symm⟩, fun h => h.2.symm⟩

end PlanValidator

/-- What a repair leaves of a task. -/
structure PlanTask.Repaired (task other : PlanTask) : Prop where
  id : other.id = task.id
  prompt : other.prompt = task.prompt
  dependsOn : other.dependsOn = task.dependsOn
  timeoutMs : other.timeoutMs = task.timeoutMs
  metadata : other.metadata = task.metadata

theorem PlanTask.Repaired.refl (task : PlanTask) : task.Repaired task := ⟨rfl, rfl, rfl, rfl, rfl⟩

theorem repairTask_repaired (perTask : Dict String Fix) (task : PlanTask) :
    task.Repaired (repairTask perTask task).1 := by
  have agent : ∀ fix, task.Repaired (dropAgent fix task).1 := by
    intro fix
    rw [dropAgent]
    split <;> exact ⟨rfl, rfl, rfl, rfl, rfl⟩
  have capabilities : ∀ fix other, task.Repaired other →
      task.Repaired (dropCapabilities fix other).1 := by
    intro fix other kept
    rw [dropCapabilities]
    split
    · exact { kept with }
    · exact kept
  rw [repairTask]
  split
  · exact .refl task
  · exact capabilities _ _ (agent _)

theorem applyIssueRepairs_repaired {plan : PlannerPlan} {issues : List PlanIssue}
    {repair : PlanRepair} (applied : applyIssueRepairs plan issues = some repair) :
    List.Forall₂ PlanTask.Repaired plan.tasks repair.plan.tasks := by
  rw [applyIssueRepairs] at applied
  dsimp only at applied
  split at applied
  · cases applied
  · cases applied
    rw [List.map_map, List.forall₂_map_right_iff]
    exact List.forall₂_same.mpr fun task _ => repairTask_repaired _ task

theorem validateAndRepair_ok {agents : List AgentDescriptor} {plan : PlannerPlan}
    {validated : ValidatedPlan}
    (ends : PlanValidator.validateAndRepair agents plan = .ok validated) :
    plan.Accepted ∧ List.Forall₂ PlanTask.Repaired plan.tasks validated.plan.tasks := by
  obtain ⟨judged, first, rest⟩ := bind_eq_ok_iff.mp ends
  obtain ⟨accepted, rfl⟩ := PlanValidator.validate_eq_ok_iff.mp first
  refine ⟨accepted, ?_⟩
  cases repaired : applyIssueRepairs plan (PlanValidator.findings agents plan.tasks).issues with
  | none =>
      simp only [repaired, pure, Except.pure, Except.ok.injEq] at rest
      subst rest
      exact List.forall₂_same.mpr fun task _ => .refl task
  | some repair =>
      simp only [repaired, pure, Except.pure, Except.ok.injEq] at rest
      subst rest
      exact applyIssueRepairs_repaired repaired

/-- An accepted plan passes. -/
theorem PlannerPlan.Accepted.validateAndRepair {agents : List AgentDescriptor} {plan : PlannerPlan}
    (accepted : plan.Accepted) :
    ∃ validated, PlanValidator.validateAndRepair agents plan = .ok validated := by
  have first := (@PlanValidator.validate_eq_ok_iff agents plan _).mpr ⟨accepted, rfl⟩
  rw [PlanValidator.validateAndRepair]
  rw [first]
  cases repaired : applyIssueRepairs plan (PlanValidator.findings agents plan.tasks).issues with
  | none => exact ⟨_, by simp only [bind, Except.bind, repaired]; rfl⟩
  | some repair => exact ⟨_, by simp only [bind, Except.bind, repaired]; rfl⟩

/-- A routed task against the task of the plan: it has an agent of the pool. -/
structure PlanTask.RoutedTo (agents : List AgentDescriptor) (task : PlanTask) (other : RoutedTask) :
    Prop where
  id : other.id = task.id
  prompt : other.prompt = task.prompt
  dependsOn : other.dependsOn = task.dependsOn
  timeoutMs : other.timeoutMs = task.timeoutMs
  metadata : other.metadata = task.metadata
  agentId : other.agentId ∈ agents.map AgentDescriptor.id

theorem PlanTask.RoutedTo.of_repaired {agents : List AgentDescriptor} {task repaired : PlanTask}
    {other : RoutedTask} (kept : task.Repaired repaired) (routed : repaired.RoutedTo agents other) :
    task.RoutedTo agents other where
  id := routed.id.trans kept.id
  prompt := routed.prompt.trans kept.prompt
  dependsOn := routed.dependsOn.trans kept.dependsOn
  timeoutMs := routed.timeoutMs.trans kept.timeoutMs
  metadata := routed.metadata.trans kept.metadata
  agentId := routed.agentId

theorem routedTo_of_repaired {agents : List AgentDescriptor} {tasks repaired : List PlanTask}
    {others : List RoutedTask} (kept : List.Forall₂ PlanTask.Repaired tasks repaired)
    (routed : List.Forall₂ (PlanTask.RoutedTo agents) repaired others) :
    List.Forall₂ (PlanTask.RoutedTo agents) tasks others := by
  induction kept generalizing others with
  | nil =>
      cases routed
      exact .nil
  | cons here _ ih =>
      cases routed with
      | cons assigned rest => exact .cons (.of_repaired here assigned) (ih rest)

namespace AgentRouter

variable {router : AgentRouter}

/-- An assignment names an agent of the router, and moves the cursor only. -/
theorem assign_agents (router : AgentRouter) (task : PlanTask) :
    (router.assign task).1.agentId ∈ router.agents.map AgentDescriptor.id ∧
      (router.assign task).2.agents = router.agents := by
  have byCapability : (router.byCapability task).1.agentId ∈
      router.agents.map AgentDescriptor.id ∧
      (router.byCapability task).2.agents = router.agents := by
    rw [AgentRouter.byCapability]
    cases found : router.agents.find? (matchCapabilities task) with
    | none => exact ⟨List.mem_map_of_mem (List.get_mem _ _), rfl⟩
    | some agent => exact ⟨List.mem_map_of_mem (List.mem_of_find?_eq_some found), rfl⟩
  rw [assign]
  cases task.agentId with
  | none => exact byCapability
  | some explicit =>
      cases found : router.agents.find? fun candidate => candidate.id = explicit with
      | none => simpa only [found] using byCapability
      | some agent =>
          simp only [found, and_true]
          exact List.mem_map_of_mem (List.mem_of_find?_eq_some found)

theorem route_tasks (router : AgentRouter) (tasks : List PlanTask) :
    List.Forall₂ (PlanTask.RoutedTo router.agents) tasks (router.route tasks).tasks := by
  rw [route]
  dsimp only
  induction tasks generalizing router with
  | nil => exact .nil
  | cons task tasks ih =>
      obtain ⟨member, same⟩ := assign_agents router task
      refine .cons ⟨rfl, rfl, rfl, rfl, rfl, member⟩ ?_
      have rest := ih (router.assign task).2
      rwa [same] at rest

end AgentRouter

/-- A plan that was validated, repaired and routed: it was accepted, and the
routed tasks are its tasks. -/
theorem routed_of_accepted {agents : List AgentDescriptor} {plan : PlannerPlan}
    {validated : ValidatedPlan} {router : AgentRouter}
    (ends : PlanValidator.validateAndRepair agents plan = .ok validated)
    (constructed : AgentRouter.new agents = .ok router) :
    plan.Accepted ∧ List.Forall₂ (PlanTask.RoutedTo agents) plan.tasks
      (router.route validated.plan.tasks).tasks := by
  obtain ⟨accepted, repaired⟩ := validateAndRepair_ok ends
  refine ⟨accepted, ?_⟩
  have agentsKept : router.agents = agents := by
    rw [AgentRouter.new] at constructed
    split at constructed
    · cases constructed
      rfl
    · cases constructed
  have routed := router.route_tasks validated.plan.tasks
  rw [agentsKept] at routed
  exact routedTo_of_repaired repaired routed

end MultiAgent.Native
