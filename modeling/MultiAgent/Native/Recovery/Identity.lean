import MultiAgent.Native.Recovery.Preservation
import Mathlib.Data.Set.Function

/-!
# Strategy ids and the tasks of a plan

A strategy numbers its tasks, and recovery reads the numbers back as tasks of the plan. Both
sides go by the order that the plan is linearized into, so a strategy id is read back as the
id of the task whose agent and prompt ran under it, and every task of the plan is the reading
of exactly one strategy id.
-/

namespace MultiAgent.Native

/-- The message with which the strategy of the plan executes its task at a position, when the
tasks before it recorded `results`. -/
def SupervisorPlan.message (results : String → Option TaskOutcome) (index : Nat) :
    SupervisorPlan → Option String
  | .broadcast prompt agents => agents[index]?.map fun _ => prompt
  | .sequential steps => steps[index]?.map SequentialStep.prompt
  | .relay prompt steps => steps[index]?.map fun step =>
    Relay.relayMessage (Relay.context prompt results index)
      (step.instruction.getD Relay.defaultInstruction)

/-- The message carries the prompt of the task at the position. A relay starts from the
prompt of its first task, and gives that of a later one as an instruction. -/
def SupervisorStrategy.Carries (strategy : SupervisorStrategy) (index : Nat)
    (prompt message : String) : Prop :=
  match strategy with
  | .broadcast | .sequential => message = prompt
  | .relay =>
    if index = 0 then message = Relay.relayMessage ⟨0, prompt, prompt⟩ Relay.defaultInstruction
    else ∃ context : Relay.RelayContext, context.step = index ∧
      message = Relay.relayMessage context prompt

section Mapping

variable {strategy : SupervisorStrategy} {routed : RoutedPlan} {mapped : SupervisorPlan}
variable {g : TaskGraph} {index : Nat} {task : Task} {other : RoutedTask}

/-- What a strategy runs at a position is the routed task at this position of the order. -/
theorem runs_of_mapped (accepted : routedPlanToSupervisorPlan routed strategy = .ok mapped)
    (built : mapped.graph = .ok g) (here : g.tasks[index]? = some task)
    (ordered : (Recovery.strategyTaskOrder routed strategy)[index]? = some other)
    (results : String → Option TaskOutcome) :
    task.agentId = other.agentId ∧ ∃ message, mapped.message results index = some message ∧
      strategy.Carries index other.prompt message := by
  unfold routedPlanToSupervisorPlan at accepted
  split at accepted
  · cases accepted
  · cases strategy with
    | sequential =>
        obtain ⟨order, sorted, rfl⟩ := sequentialPlan_ok accepted
        have same : Recovery.strategyTaskOrder routed .sequential = order := by
          simp [Recovery.strategyTaskOrder, sorted, Except.toOption]
        rw [same] at ordered
        obtain ⟨-, -, tasks⟩ := dagGraph_eq_ok_iff.mp built
        rw [tasks, List.getElem?_map, List.getElem?_mapIdx, List.getElem?_map, ordered] at here
        cases here
        exact ⟨rfl, other.prompt, by simp [SupervisorPlan.message, ordered], rfl⟩
    | broadcast =>
        obtain ⟨-, prompt, shared, rfl⟩ := broadcastPlan_ok accepted
        have given : routed.tasks[index]? = some other := ordered
        obtain ⟨-, -, tasks⟩ := dagGraph_eq_ok_iff.mp built
        rw [tasks, List.getElem?_map, List.getElem?_mapIdx, List.getElem?_map, given] at here
        cases here
        exact ⟨rfl, prompt, by simp [SupervisorPlan.message, given],
          (shared other (List.mem_of_getElem? given)).symm⟩
    | relay =>
        obtain ⟨chain, sorted, -, rfl⟩ := relayPlan_ok accepted
        have same : Recovery.strategyTaskOrder routed .relay = chain := by
          simp [Recovery.strategyTaskOrder, sorted, Except.toOption]
        rw [same] at ordered
        obtain ⟨-, -, tasks⟩ := dagGraph_eq_ok_iff.mp built
        rw [tasks, List.getElem?_map, List.getElem?_mapIdx, List.getElem?_mapIdx, ordered] at here
        cases here
        refine ⟨rfl, _, by simp [SupervisorPlan.message, ordered]; rfl, ?_⟩
        cases index with
        | zero =>
            have first : chain.head? = some other := by rwa [List.head?_eq_getElem?]
            rw [first]
            rfl
        | succ index => exact ⟨_, rfl, rfl⟩

end Mapping

namespace Recovery

section Identity

variable {pool : List AgentDescriptor} {plan : PlannerPlan} {routed : RoutedPlan}
variable {strategy : SupervisorStrategy} {mapped : SupervisorPlan} {g : TaskGraph}

/-- The task ids of the strategy, by position of the order. -/
theorem mem_graph_ids (prepared : RecoveryManager.prepare pool plan = .ok routed)
    (accepted : routedPlanToSupervisorPlan routed strategy = .ok mapped)
    (built : mapped.graph = .ok g) {id : String} :
    id ∈ g.ids ↔ ∃ (index : Nat) (other : RoutedTask),
      (strategyTaskOrder routed strategy)[index]? = some other ∧
        strategy.syntheticId index = id := by
  obtain ⟨valid, routedTo⟩ := prepare_ok prepared
  have size := (mapped_of_ok (routed_ids routedTo ▸ valid.distinct) accepted).size
  rw [SupervisorPlan.graph_ids built, strategy_of_ok accepted, List.mem_map]
  constructor
  · rintro ⟨index, inside, same⟩
    rw [List.mem_range, size] at inside
    exact ⟨index, _, List.getElem?_eq_getElem inside, same⟩
  · rintro ⟨index, other, here, same⟩
    refine ⟨index, ?_, same⟩
    rw [List.mem_range, size]
    exact (List.getElem?_eq_some_iff.mp here).1

theorem planIdOf_bijOn (prepared : RecoveryManager.prepare pool plan = .ok routed)
    (accepted : routedPlanToSupervisorPlan routed strategy = .ok mapped)
    (built : mapped.graph = .ok g) :
    Set.BijOn (planIdOf (strategyTaskOrder routed strategy)) {id | id ∈ g.ids}
      {id | id ∈ plan.ids} := by
  obtain ⟨valid, routedTo⟩ := prepare_ok prepared
  have order := mapped_of_ok (routed_ids routedTo ▸ valid.distinct) accepted
  have orders := orders_of_prepared prepared order.perm order.depsFirst
  refine ⟨?_, ?_, ?_⟩
  · intro id known
    obtain ⟨index, other, here, rfl⟩ := (mem_graph_ids prepared accepted built).mp known
    rw [planIdOf_syntheticId here]
    exact (orders.known other.id).mpr (List.mem_map_of_mem (List.mem_of_getElem? here))
  · intro a left b right same
    obtain ⟨i, first, here, rfl⟩ := (mem_graph_ids prepared accepted built).mp left
    obtain ⟨j, second, there, rfl⟩ := (mem_graph_ids prepared accepted built).mp right
    rw [planIdOf_syntheticId here, planIdOf_syntheticId there] at same
    rw [orders.unique here there same]
  · intro id known
    obtain ⟨other, member, rfl⟩ := List.mem_map.mp ((orders.known id).mp known)
    obtain ⟨index, here⟩ := List.mem_iff_getElem?.mp member
    exact ⟨strategy.syntheticId index,
      (mem_graph_ids prepared accepted built).mpr ⟨index, other, here, rfl⟩,
      planIdOf_syntheticId here⟩

/-- Every strategy id is mapped back to the task of the plan whose agent and prompt the
strategy runs under it, and the mapping is one to one onto the ids of the plan. -/
theorem strategyIdToPlanId_identifies (prepared : RecoveryManager.prepare pool plan = .ok routed)
    (accepted : routedPlanToSupervisorPlan routed strategy = .ok mapped)
    (built : mapped.graph = .ok g) :
    (∀ index task, g.tasks[index]? = some task → task.id = strategy.syntheticId index ∧
        ∃ planned ∈ plan.tasks, ∃ other ∈ routed.tasks, planned.RoutedTo pool other ∧
          strategyIdToPlanId [task.id] routed strategy = [planned.id] ∧
          task.agentId = other.agentId ∧
          ∀ results, ∃ message, mapped.message results index = some message ∧
            strategy.Carries index planned.prompt message) ∧
      Set.BijOn (planIdOf (strategyTaskOrder routed strategy)) {id | id ∈ g.ids}
        {id | id ∈ plan.ids} := by
  refine ⟨?_, planIdOf_bijOn prepared accepted built⟩
  intro index task here
  obtain ⟨valid, routedTo⟩ := prepare_ok prepared
  have order := mapped_of_ok (routed_ids routedTo ▸ valid.distinct) accepted
  have own : g.ids[index]? = some task.id := by
    rw [TaskGraph.ids, List.getElem?_map, here]
    rfl
  obtain ⟨inside, named⟩ : index < mapped.size ∧ task.id = strategy.syntheticId index := by
    rw [SupervisorPlan.graph_ids built, strategy_of_ok accepted, List.getElem?_map] at own
    obtain ⟨position, within, same⟩ := Option.map_eq_some_iff.mp own
    obtain ⟨short, rfl⟩ := List.getElem?_eq_some_iff.mp within
    rw [List.length_range] at short
    rw [List.getElem_range] at same
    exact ⟨short, same.symm⟩
  rw [order.size] at inside
  have ordered := List.getElem?_eq_getElem inside
  obtain ⟨long, each⟩ := List.forall₂_iff_get.mp routedTo
  obtain ⟨place, within, same⟩ :=
    List.getElem_of_mem (order.perm.mem_iff.mp (List.mem_of_getElem? ordered))
  have planned := each place (by omega) within
  rw [List.get_eq_getElem, List.get_eq_getElem, same] at planned
  refine ⟨named, _, List.getElem_mem _, _, same ▸ List.getElem_mem within, planned, ?_, ?_, ?_⟩
  · rw [strategyIdToPlanId, List.map_singleton, named, planIdOf_syntheticId ordered, planned.id]
  · exact (runs_of_mapped accepted built here ordered fun _ => none).1
  · intro results
    obtain ⟨-, message, sent, carries⟩ := runs_of_mapped accepted built here ordered results
    exact ⟨message, sent, planned.prompt ▸ carries⟩

def soloPool : List AgentDescriptor := [⟨"writer", []⟩]

/-- The review is declared before the draft that it depends on. -/
def reviewFirst : PlannerPlan :=
  ⟨[⟨"review", "check the draft", none, none, some ["draft"], none, none⟩,
    ⟨"draft", "write a draft", none, none, none, none, none⟩]⟩

theorem strategyIdToPlanId_identifies_reviewFirst :
    ∃ routed mapped g, RecoveryManager.prepare soloPool reviewFirst = .ok routed ∧
      routedPlanToSupervisorPlan routed .sequential = .ok mapped ∧ mapped.graph = .ok g ∧
      Set.BijOn (planIdOf (strategyTaskOrder routed .sequential)) {id | id ∈ g.ids}
        {id | id ∈ reviewFirst.ids} ∧
      strategyIdToPlanId ["seq-0", "seq-1"] routed .sequential = ["draft", "review"] := by
  have prepared : ∃ routed mapped g, RecoveryManager.prepare soloPool reviewFirst = .ok routed ∧
      routedPlanToSupervisorPlan routed .sequential = .ok mapped ∧ mapped.graph = .ok g ∧
      strategyIdToPlanId ["seq-0", "seq-1"] routed .sequential = ["draft", "review"] :=
    ⟨_, _, _, rfl, rfl, rfl, rfl⟩
  obtain ⟨routed, mapped, g, prepared, accepted, built, read⟩ := prepared
  exact ⟨routed, mapped, g, prepared, accepted, built,
    (strategyIdToPlanId_identifies prepared accepted built).2, read⟩

end Identity

end Recovery

end MultiAgent.Native
