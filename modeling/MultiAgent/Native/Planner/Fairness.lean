import MultiAgent.Foundations.RoundRobin
import MultiAgent.Native.Planner.Repairs

/-!
# Where a repaired plan is routed

On a plan that the repair layer has settled, the router honours the explicit agents, finds an
agent for the required capabilities, and hands out the remaining tasks with one cursor that
the other tasks do not move.
-/

namespace MultiAgent.Native

/-- The task has neither an explicit agent nor a requirement. -/
def PlanTask.Remaining (task : PlanTask) : Prop :=
  task.agentId = none ∧ task.requiredCapabilities.getD [] = []

instance (task : PlanTask) : Decidable task.Remaining :=
  inferInstanceAs (Decidable (_ ∧ _))

/-- How many of the remaining tasks were given to the agent. -/
def givenTo (tasks : List PlanTask) (routed : List RoutedTask) (agentId : String) : Nat :=
  (tasks.zip routed).countP fun pair =>
    decide pair.1.Remaining && decide (pair.2.agentId = agentId)

/-- The agent of a routed task: an agent of the pool, the explicit one if there is one, and
else the first one that holds what the task requires. -/
structure PlanTask.ProperlyRouted (agents : List AgentDescriptor) (task : PlanTask)
    (other : RoutedTask) : Prop extends PlanTask.RoutedTo agents task other where
  explicit : ∀ agentId, task.agentId = some agentId → other.agentId = agentId
  capable : task.agentId = none → ∀ required, task.requiredCapabilities = some required →
    required ≠ [] → ∃ agent, (agents.find? fun agent => agent.holds required) = some agent ∧
      other.agentId = agent.id

namespace AgentRouter

variable {router : AgentRouter} {task : PlanTask}

/-- What the router does with a task without findings: it gives it its explicit agent, it
gives it the first capable one, or it turns the cursor. -/
theorem assign_cases (known : ¬ task.NamesUnknown router.agents)
    (supported : ¬ task.Unsupported router.agents) :
    (∃ agentId, task.agentId = some agentId ∧
        router.assign task = (⟨task.id, agentId, .explicit⟩, router)) ∨
      (∃ required agent, task.agentId = none ∧ task.requiredCapabilities = some required ∧
        required ≠ [] ∧ (router.agents.find? fun agent => agent.holds required) = some agent ∧
        router.assign task = (⟨task.id, agent.id, .capability⟩, router)) ∨
      (task.Remaining ∧ router.assign task = router.roundRobin task) := by
  rw [assign]
  cases explicit : task.agentId with
  | some agentId =>
      refine .inl ⟨agentId, rfl, ?_⟩
      have pooled : agentId ∈ router.agents.map AgentDescriptor.id := by
        by_contra unknown
        exact known ⟨agentId, explicit, unknown⟩
      obtain ⟨agent, member, same⟩ := List.mem_map.mp pooled
      obtain ⟨first, found, -, own⟩ := Lookup.exists_find? AgentDescriptor.id member same
      simp only [found, own]
  | none =>
      dsimp only
      rw [byCapability]
      cases caps : task.requiredCapabilities with
      | none =>
          have unmatched : router.agents.find? (matchCapabilities task) = none := by
            rw [List.find?_eq_none]
            intro agent _
            simp [matchCapabilities, caps]
          exact .inr (.inr ⟨⟨explicit, by simp [caps]⟩, by rw [unmatched]⟩)
      | some required =>
          by_cases empty : required = []
          · have unmatched : router.agents.find? (matchCapabilities task) = none := by
              rw [List.find?_eq_none]
              intro agent _
              simp [matchCapabilities, caps, empty]
            exact .inr (.inr ⟨⟨explicit, by simp [caps, empty]⟩, by rw [unmatched]⟩)
          · have same : matchCapabilities task = fun agent => agent.holds required := by
              funext agent
              simp [matchCapabilities, caps, empty]
            rw [same]
            cases found : router.agents.find? fun agent => agent.holds required with
            | none =>
                have unmet : (router.agents.any fun agent => agent.holds required) = false := by
                  rw [List.any_eq_false]
                  exact List.find?_eq_none.mp found
                exact absurd ⟨required, caps, empty, unmet⟩ supported
            | some agent => exact .inr (.inl ⟨required, agent, rfl, rfl, empty, found, rfl⟩)

/-- A task on which the validator finds nothing to warn about. -/
structure Settled (agents : List AgentDescriptor) (task : PlanTask) : Prop where
  known : ¬ task.NamesUnknown agents
  supported : ¬ task.Unsupported agents

variable {agents : List AgentDescriptor} {tasks : List PlanTask}

theorem assign_properly (pool : router.agents = agents) (settled : Settled agents task) :
    task.ProperlyRouted agents (routeTask task (router.assign task).1) := by
  subst pool
  obtain ⟨member, -⟩ := router.assign_agents task
  refine ⟨⟨rfl, rfl, rfl, rfl, rfl, member⟩, ?_, ?_⟩
  · intro agentId named
    obtain ⟨other, explicit, assigned⟩ | ⟨-, -, none, -⟩ | ⟨⟨none, -⟩, -⟩ :=
      assign_cases settled.known settled.supported
    · rw [named, Option.some.injEq] at explicit
      rw [routeTask, assigned, explicit]
    · rw [named] at none
      cases none
    · rw [named] at none
      cases none
  · intro none required caps some
    obtain ⟨other, explicit, -⟩ | ⟨other, agent, -, needed, -, found, assigned⟩ |
        ⟨⟨-, free⟩, -⟩ := assign_cases settled.known settled.supported
    · rw [none] at explicit
      cases explicit
    · rw [caps, Option.some.injEq] at needed
      subst needed
      exact ⟨agent, found, by rw [routeTask, assigned]⟩
    · rw [caps, Option.getD_some] at free
      exact absurd free some

theorem route_properly (pool : router.agents = agents)
    (settled : ∀ task ∈ tasks, Settled agents task) :
    List.Forall₂ (PlanTask.ProperlyRouted agents) tasks (router.route tasks).tasks := by
  induction tasks generalizing router with
  | nil => exact .nil
  | cons task tasks ih =>
      obtain ⟨here, later⟩ := List.forall_mem_cons.mp settled
      have same := (router.assign_agents task).2.trans pool
      exact .cons (assign_properly pool here) (ih same later)

theorem givenTo_cons {other : RoutedTask} {others : List RoutedTask} {agentId : String} :
    givenTo (task :: tasks) (other :: others) agentId =
      (if task.Remaining ∧ other.agentId = agentId then 1 else 0) +
        givenTo tasks others agentId := by
  rw [givenTo, List.zip_cons_cons, List.countP_cons, givenTo, Nat.add_comm]
  simp

/-- With distinct ids, the cursor gives its task to the agent at its place. -/
theorem cursor_iff (router : AgentRouter)
    (distinct : (router.agents.map AgentDescriptor.id).Nodup) {i : Nat} {agent : AgentDescriptor}
    (here : router.agents[i]? = some agent) :
    (router.roundRobin task).1.agentId = agent.id ↔ router.rr % router.agents.length = i := by
  have inside : router.rr % router.agents.length < router.agents.length :=
    Nat.mod_lt _ router.nonempty
  have there : (router.agents.map AgentDescriptor.id)[router.rr % router.agents.length]? =
      some (router.roundRobin task).1.agentId := by
    rw [List.getElem?_map, List.getElem?_eq_getElem inside]
    rfl
  have own : (router.agents.map AgentDescriptor.id)[i]? = some agent.id := by
    rw [List.getElem?_map, here]
    rfl
  constructor
  · intro same
    rw [same, ← own] at there
    exact (List.getElem?_inj (by simpa using inside) distinct).mp there
  · rintro rfl
    rw [there] at own
    exact Option.some.inj own

/-- The remaining tasks are handed out by the cursor of the router. -/
theorem givenTo_route (pool : router.agents = agents)
    (distinct : (agents.map AgentDescriptor.id).Nodup)
    (settled : ∀ task ∈ tasks, Settled agents task) {i : Nat} {agent : AgentDescriptor}
    (here : agents[i]? = some agent) :
    givenTo tasks (router.route tasks).tasks agent.id =
      RoundRobin.served agents.length i router.rr
        (tasks.countP fun task => decide task.Remaining) := by
  induction tasks generalizing router with
  | nil => rfl
  | cons task tasks ih =>
      obtain ⟨first, later⟩ := List.forall_mem_cons.mp settled
      have head : (router.route (task :: tasks)).tasks =
          routeTask task (router.assign task).1 ::
            ((router.assign task).2.route tasks).tasks := rfl
      have rest := ih ((router.assign_agents task).2.trans pool) later
      rw [head, givenTo_cons, rest]
      subst pool
      obtain ⟨agentId, explicit, assigned⟩ | ⟨required, chosen, -, caps, some, -, assigned⟩ |
          ⟨remaining, assigned⟩ := assign_cases first.known first.supported
      · have busy : ¬ task.Remaining := fun free => by simp [free.1] at explicit
        rw [if_neg fun both => busy both.1, assigned,
          List.countP_cons_of_neg (by simpa using busy), Nat.zero_add]
      · have busy : ¬ task.Remaining := fun free => some (by simpa [caps] using free.2)
        rw [if_neg fun both => busy both.1, assigned,
          List.countP_cons_of_neg (by simpa using busy), Nat.zero_add]
      · have turn : task.Remaining ∧
            (routeTask task (router.roundRobin task).1).agentId = agent.id ↔
              router.rr % router.agents.length = i := by
          rw [and_iff_right remaining]
          exact @cursor_iff task router distinct i agent here
        rw [assigned, List.countP_cons_of_pos (by simpa using remaining), RoundRobin.served]
        simp only [turn]
        rfl

end AgentRouter

/-- The validator has nothing to warn about on the tasks of a returned plan. -/
theorem settled_of_ok {agents : List AgentDescriptor} {plan : PlannerPlan}
    {validated : ValidatedPlan}
    (ends : PlanValidator.validateAndRepair agents plan = .ok validated) :
    ∀ task ∈ validated.plan.tasks, AgentRouter.Settled agents task := by
  intro task member
  obtain ⟨accepted, same⟩ := PlanValidator.validate_eq_ok_iff.mp (validate_repaired ends)
  have silent : (PlanValidator.findings agents validated.plan.tasks).issues = [] :=
    (congrArg ValidatedPlan.issues same).symm
  have unflagged (code : PlanIssueCode) : ¬ Flags code task.id (task.warnings agents) := by
    rw [← PlanValidator.flags_findings accepted member, silent]
    simp [Flags]
  exact ⟨fun unknown => unflagged _ (PlanValidator.flags_agent.mpr unknown),
    fun unsupported => unflagged _ (PlanValidator.flags_capabilities.mpr unsupported)⟩

/-- Every task of a returned plan is properly routed, and the remaining tasks are spread
evenly over the pool. -/
theorem route_properly_and_evenly {agents : List AgentDescriptor} {plan : PlannerPlan}
    {validated : ValidatedPlan} {router : AgentRouter}
    (distinct : (agents.map AgentDescriptor.id).Nodup)
    (ends : PlanValidator.validateAndRepair agents plan = .ok validated)
    (pool : router.agents = agents) :
    List.Forall₂ (PlanTask.ProperlyRouted agents) validated.plan.tasks
        (router.route validated.plan.tasks).tasks ∧
      ∀ a ∈ agents, ∀ b ∈ agents,
        givenTo validated.plan.tasks (router.route validated.plan.tasks).tasks a.id ≤
          givenTo validated.plan.tasks (router.route validated.plan.tasks).tasks b.id + 1 := by
  have settled := settled_of_ok ends
  refine ⟨AgentRouter.route_properly pool settled, ?_⟩
  intro a left b right
  obtain ⟨i, inside, rfl⟩ := List.getElem_of_mem left
  obtain ⟨j, within, rfl⟩ := List.getElem_of_mem right
  rw [AgentRouter.givenTo_route pool distinct settled (List.getElem?_eq_getElem inside),
    AgentRouter.givenTo_route pool distinct settled (List.getElem?_eq_getElem within)]
  exact RoundRobin.served_le inside within _ _

/-- A figure for the editor between two tasks that anyone may do. -/
def mixedPlan : PlannerPlan :=
  ⟨[⟨"draft", "write a draft", none, none, none, none, none⟩,
    ⟨"figure", "draw a figure", none, some ["layout"], none, none, none⟩,
    ⟨"index", "make an index", none, none, none, none, none⟩]⟩

theorem route_properly_and_evenly_mixedPlan :
    ∃ validated router, PlanValidator.validateAndRepair editors mixedPlan = .ok validated ∧
      AgentRouter.new editors = .ok router ∧
      givenTo validated.plan.tasks (router.route validated.plan.tasks).tasks "writer" ≤
        givenTo validated.plan.tasks (router.route validated.plan.tasks).tasks "editor" + 1 := by
  have ends : ∃ validated, PlanValidator.validateAndRepair editors mixedPlan = .ok validated :=
    ⟨_, rfl⟩
  obtain ⟨validated, ends⟩ := ends
  have constructed : ∃ router, AgentRouter.new editors = .ok router ∧ router.agents = editors :=
    ⟨_, rfl, rfl⟩
  obtain ⟨router, constructed, pool⟩ := constructed
  have distinct : (editors.map AgentDescriptor.id).Nodup := by decide
  exact ⟨validated, router, ends, constructed,
    (route_properly_and_evenly distinct ends pool).2 ⟨"writer", ["prose"]⟩ (by decide)
      ⟨"editor", ["prose", "layout"]⟩ (by decide)⟩

/-- The second task requires the empty list of capabilities. -/
def emptyRequirement : PlannerPlan :=
  ⟨[⟨"draft", "write a draft", none, none, none, none, none⟩,
    ⟨"index", "make an index", none, some [], none, none, none⟩]⟩

/-- The empty list survives the repair, every agent holds all of it, and the task is not given
to the first one. -/
theorem emptyRequirement_turns :
    ∃ validated router task other, PlanValidator.validateAndRepair editors emptyRequirement =
        .ok validated ∧ AgentRouter.new editors = .ok router ∧
      validated.plan.tasks[1]? = some task ∧
      (router.route validated.plan.tasks).tasks[1]? = some other ∧
      task.agentId = none ∧ task.requiredCapabilities = some [] ∧
      (editors.find? fun agent => agent.holds []) = some ⟨"writer", ["prose"]⟩ ∧
      other.agentId ≠ "writer" :=
  ⟨_, _, _, _, rfl, rfl, rfl, rfl, rfl, rfl, rfl, by decide⟩

end MultiAgent.Native
