import MultiAgent.Native.Recovery.Budget
import MultiAgent.Native.Recovery.Preservation

/-!
# The agents that a repair evicts

A repair takes the agents that a failure reports as unavailable out of the pool of the run.
The plan may go on naming them: the validator has such a name dropped, and the router
assigns agents of the pool only, so no later attempt comes back to them. The agents and the
plan of the caller are values that no step writes.
-/

namespace MultiAgent.Native.Recovery

namespace RecoveryManager

variable {manager : RecoveryManager} {plan : PlannerPlan} {aborted : Bool}
variable {s t u : State} {routed : RoutedPlan} {failure : FailureRecord} {e : Event}
  {es : List Event}

/-- From `s` to `t` no repair is made. -/
structure Unrepaired (s t : State) : Prop where
  pool : t.pool = s.pool
  repairsUsed : t.repairsUsed = s.repairsUsed

/-- From `s` to `t` one repair is made, on the failure. -/
structure Repaired (failure : FailureRecord) (s t : State) : Prop where
  pool : t.pool = s.pool.filter fun agent => decide (agent.id ∉ unavailableAgentIds failure)
  repairsUsed : t.repairsUsed = s.repairsUsed + 1

theorem Unrepaired.trans (first : Unrepaired s t) (second : Unrepaired t u) : Unrepaired s u :=
  ⟨second.pool.trans first.pool, second.repairsUsed.trans first.repairsUsed⟩

theorem Repaired.trans (first : Repaired failure s t) (second : Unrepaired t u) :
    Repaired failure s u :=
  ⟨second.pool.trans first.pool, second.repairsUsed.trans first.repairsUsed⟩

theorem caught_unrepaired (manager : RecoveryManager) (s : State) (error : Thrown) :
    Unrepaired s (manager.caught s error) := by
  obtain ⟨_, rfl, stopped | retried | ⟨code, gaveUp⟩⟩ := caught_cases manager s error
  · rw [stopped]
    exact ⟨rfl, rfl⟩
  · rw [retried]
    exact ⟨rfl, rfl⟩
  · rw [gaveUp]
    exact ⟨rfl, rfl⟩

theorem dispatch_unrepaired (manager : RecoveryManager) (s : State) :
    Unrepaired s (manager.dispatch s) := by
  obtain ⟨error, rejected⟩ | ⟨error, caught⟩ | ⟨routed, input, -, -, running⟩ :=
    dispatch_cases manager s
  · rw [rejected]
    exact ⟨rfl, rfl⟩
  · rw [caught]
    exact caught_unrepaired manager s error
  · rw [running]
    exact ⟨rfl, rfl⟩

theorem next_unrepaired (manager : RecoveryManager) (s : State) :
    Unrepaired s (manager.next s) := by
  obtain stopped | spent | ⟨-, dispatched⟩ := next_cases manager s
  · rw [stopped]
    exact ⟨rfl, rfl⟩
  · rw [spent]
    exact ⟨rfl, rfl⟩
  · rw [dispatched]
    obtain ⟨pool, repairsUsed⟩ := dispatch_unrepaired manager (manager.countAttempt s)
    exact ⟨pool, repairsUsed⟩

theorem repair_repaired (taken : manager.repair s routed failure = some t) :
    Repaired failure s t := by
  rw [repair] at taken
  split at taken
  · dsimp only at taken
    split at taken
    · cases taken
    · cases taken
      exact ⟨rfl, rfl⟩
  · cases taken

theorem replan_unrepaired (taken : manager.replan s routed failure = some t) :
    Unrepaired s t := by
  obtain ⟨-, replanned, -, rfl⟩ := replan_cases taken
  exact ⟨rfl, rfl⟩

theorem decideResult_repaired (manager : RecoveryManager) (s : State) (routed : RoutedPlan)
    (failure : FailureRecord) :
    Unrepaired s (manager.decideResult s routed failure) ∨
      Repaired failure s (manager.decideResult s routed failure) := by
  obtain stopped | retried | ⟨t, taken, same⟩ | ⟨t, taken, same⟩ | ⟨code, gaveUp⟩ :=
    decideResult_cases manager s routed failure
  · rw [stopped]
    exact .inl ⟨rfl, rfl⟩
  · rw [retried]
    exact .inl ⟨rfl, rfl⟩
  · rw [same]
    exact .inr ((repair_repaired taken).trans (next_unrepaired manager t))
  · rw [same]
    exact .inl ((replan_unrepaired taken).trans (next_unrepaired manager t))
  · rw [gaveUp]
    exact .inl ⟨rfl, rfl⟩

/-- Only a supervisor run that returns a failure is repaired, and at most once. -/
theorem step_repaired (transition : manager.step s e = some t) :
    Unrepaired s t ∨ ∃ result, e = .settle (.ok result) ∧
      Repaired (classifyResult result s.attempts) s t := by
  obtain ⟨_, error, -, -, rfl⟩ | ⟨routed, result, -, rfl, rfl⟩ | ⟨-, -, rfl⟩ | ⟨-, -, rfl⟩ :=
    step_cases transition
  · exact .inl (caught_unrepaired manager s error)
  · unfold settled
    dsimp only
    split
    · exact .inl ⟨rfl, rfl⟩
    · obtain kept | ⟨pool, repairsUsed⟩ := decideResult_repaired manager
        (manager.failedWith s result) routed (classifyResult result s.attempts)
      · exact .inl ⟨kept.pool, kept.repairsUsed⟩
      · exact .inr ⟨result, rfl, pool, repairsUsed⟩
  · exact .inl (next_unrepaired manager s)
  · exact .inl ⟨rfl, rfl⟩

/-- The pool of a run only shrinks. -/
theorem step_pool (transition : manager.step s e = some t) : t.pool.Sublist s.pool := by
  obtain kept | ⟨result, -, repaired⟩ := step_repaired transition
  · rw [kept.pool]
  · rw [repaired.pool]
    exact List.filter_sublist

theorem run_pool (execution : manager.machine.run s es = some t) : t.pool.Sublist s.pool :=
  Machine.run_relation (P := fun _ => True) (R := fun s t => t.pool.Sublist s.pool)
    (fun _ _ _ _ _ => trivial) (fun _ => .refl _) (fun first second => second.trans first)
    (fun _ _ _ _ transition => step_pool transition) trivial execution

/-- The agents that a failure reports as unavailable. -/
def reportedUnavailable (failure : FailureRecord) : List String :=
  ((failure.taskFailures.getD []).filter fun ref =>
    decide (ref.code = .agentUnavailable)).filterMap TaskFailureRef.agentId

/-- A routing over a pool assigns agents of the pool. -/
theorem routed_in_pool {pool : List AgentDescriptor} {plan : PlannerPlan}
    (prepared : prepare pool plan = .ok routed) {task : RoutedTask} (member : task ∈ routed.tasks) :
    task.agentId ∈ pool.map AgentDescriptor.id := by
  obtain ⟨-, routedTo⟩ := prepare_ok prepared
  obtain ⟨index, bound, rfl⟩ := List.mem_iff_getElem.mp member
  exact (routedTo.get (routedTo.length_eq ▸ bound) bound).agentId

/-- Once a step has recorded a repair, no later state of the run has an agent in its pool
that the failure behind the repair reports as unavailable, and no routing of a later attempt
assigns one to any task, whatever the plan names. The pool only shrinks. -/
theorem evicted_never_routed (reaches : manager.Reaches plan aborted es s)
    (transition : manager.step s e = some t)
    (repaired : s.decisions.count .repair < t.decisions.count .repair) :
    s.pool.Sublist manager.agents ∧ t.pool.Sublist s.pool ∧
      ∃ result, e = .settle (.ok result) ∧
        ∀ later u, manager.machine.run t later = some u →
          u.pool.Sublist t.pool ∧
            ∀ agentId ∈ reportedUnavailable (classifyResult result s.attempts),
              agentId ∉ u.pool.map AgentDescriptor.id ∧
                (∀ routed, prepare u.pool u.currentPlan = .ok routed →
                  ∀ task ∈ routed.tasks, task.agentId ≠ agentId) ∧
                ∀ routed, u.phase = .running routed →
                  ∀ task ∈ routed.tasks, task.agentId ≠ agentId := by
  have reachesT : manager.Reaches plan aborted (es ++ [e]) t :=
    manager.machine.run_append_iff.mpr ⟨s, reaches, by
      rw [Machine.run_cons_iff]
      exact ⟨t, transition, rfl⟩⟩
  have spent : s.repairsUsed < t.repairsUsed := by
    rw [(Reaches.balanced reaches).counted.repairsCounted,
      (Reaches.balanced reachesT).counted.repairsCounted]
    exact repaired
  have before : s.pool.Sublist manager.agents := by
    have started : (manager.start plan aborted).pool = manager.agents :=
      (next_unrepaired manager (manager.initial plan aborted)).pool
    exact started ▸ run_pool reaches
  refine ⟨before, step_pool transition, ?_⟩
  obtain kept | ⟨result, settles, evicts⟩ := step_repaired transition
  · rw [kept.repairsUsed] at spent
    exact absurd spent (lt_irrefl _)
  refine ⟨result, settles, ?_⟩
  intro later u execution
  refine ⟨run_pool execution, ?_⟩
  intro agentId reported
  have gone : agentId ∉ u.pool.map AgentDescriptor.id := by
    intro member
    obtain ⟨agent, inside, rfl⟩ := List.mem_map.mp member
    have left := (run_pool execution).subset inside
    rw [evicts.pool, List.mem_filter, decide_eq_true_iff] at left
    exact left.2 (List.mem_append_left _ reported)
  refine ⟨gone, ?_, ?_⟩
  · rintro routed prepared task member rfl
    exact gone (routed_in_pool prepared member)
  · rintro routed running task member rfl
    have prepared := (Reaches.prepared (manager.machine.run_append_iff.mpr
      ⟨t, reachesT, execution⟩)) routed running
    exact gone (routed_in_pool prepared.1 member)

/-- Two agents and the default budget. -/
def pairManager : RecoveryManager where
  agents := [⟨"ada", []⟩, ⟨"bob", []⟩]
  policy := ⟨3, 2, 0, three_attempts, no_delay⟩
  options := ⟨"run-1", "publish", .sequential, none, none⟩

/-- Both tasks name the first agent. -/
def adaPlan : PlannerPlan :=
  ⟨[⟨"draft", "write a draft", some "ada", none, none, none, none⟩,
    ⟨"review", "check the draft", some "ada", none, none, none, none⟩]⟩

/-- The agent of the first step is not found, and the second step never ran. -/
def adaMissing : SupervisorRunResult :=
  soloResult [⟨"ada", "write a draft", none, none⟩, ⟨"ada", "check the draft", none, none⟩]
    [⟨0, "seq-0", "ada", .failed, none, some "agent 'ada' not found", 1⟩,
      ⟨1, "seq-1", "ada", .cancelled, none, some "dependency 'seq-0' failed", 0⟩]

theorem evicted_never_routed_adaMissing :
    ∃ t, pairManager.step (pairManager.start adaPlan false) (.settle (.ok adaMissing)) = some t ∧
      t.currentPlan.tasks.map PlanTask.agentId = [none, some "ada"] ∧
      ∃ routed, t.phase = .running routed ∧ ∀ task ∈ routed.tasks, task.agentId ≠ "ada" := by
  have transition : ∃ t, pairManager.step (pairManager.start adaPlan false)
      (.settle (.ok adaMissing)) = some t := ⟨_, rfl⟩
  obtain ⟨t, transition⟩ := transition
  have after : t.currentPlan.tasks.map PlanTask.agentId = [none, some "ada"] ∧
      t.decisions.count .repair = 1 ∧ ∃ routed, t.phase = .running routed := by
    cases transition
    exact ⟨by decide, by decide, _, rfl⟩
  obtain ⟨named, repaired, routed, running⟩ := after
  have reaches : pairManager.Reaches adaPlan false [] (pairManager.start adaPlan false) := rfl
  obtain ⟨-, -, result, settles, evicts⟩ := evicted_never_routed reaches transition (by
    rw [repaired]
    decide)
  cases settles
  have gone := (evicts [] t rfl).2 "ada" (by decide)
  exact ⟨t, transition, named, routed, running, gone.2.2 routed running⟩

end RecoveryManager

end MultiAgent.Native.Recovery
