import MultiAgent.Native.Planner.Dag
import MultiAgent.Native.Strategies.Settlements
import MultiAgent.Native.Supervisor

/-!
# What the tasks of a strategy end with

A strategy schedules one task for each entry of its plan: the tasks of a broadcast have
no dependencies, and those of a sequential run and of a relay form a chain. So when one
task of a chain fails, all tasks behind it end without completing and are not executed,
and behind every task that did not complete there is one that was executed and failed.
-/

namespace MultiAgent.Native

/-- The digits of an index are read back as the index. -/
theorem digits_value (index : Nat) :
    (Nat.toDigits 10 index).foldl (fun n c => 10 * n + (c.toNat - '0'.toNat)) 0 = index := by
  rw [← Nat.ofDigitChars_eq_foldl]
  exact Nat.ofDigitChars_toDigits (by decide) (by decide)

theorem toList_syntheticId (label : String) (index : Nat) :
    (label ++ toString index).toList = label.toList ++ Nat.toDigits 10 index := by
  rw [String.toList_append]
  exact congrArg _ Nat.toList_repr

namespace SupervisorStrategy

/-- The id that a strategy gives to its task at a position. -/
def syntheticId : SupervisorStrategy → Nat → String
  | .broadcast, index => s!"bc-{index}"
  | .sequential, index => s!"seq-{index}"
  | .relay, index => s!"relay-{index}"

/-- What that task depends on. -/
def upstream (strategy : SupervisorStrategy) (index : Nat) : List String :=
  if strategy = .broadcast ∨ index = 0 then [] else [strategy.syntheticId (index - 1)]

theorem chainSpec_link (index : Nat) (agentId prompt : String) (timeoutMs : Option JsNumber) :
    ((chainSpec "seq" index agentId prompt timeoutMs).toTask.id,
        (chainSpec "seq" index agentId prompt timeoutMs).toTask.dependsOn) =
        (syntheticId .sequential index, upstream .sequential index) ∧
      ((chainSpec "relay" index agentId prompt timeoutMs).toTask.id,
        (chainSpec "relay" index agentId prompt timeoutMs).toTask.dependsOn) =
        (syntheticId .relay index, upstream .relay index) := by
  have seq : toString "seq" ++ toString "-" = toString "seq-" := rfl
  have relay : toString "relay" ++ toString "-" = toString "relay-" := rfl
  simp [chainSpec, TaskSpec.toTask, syntheticId, upstream, seq, relay]

theorem upstream_succ {strategy : SupervisorStrategy} (chain : strategy ≠ .broadcast)
    (index : Nat) : strategy.upstream (index + 1) = [strategy.syntheticId index] := by
  simp [upstream, chain]

end SupervisorStrategy

namespace SupervisorPlan

def strategy : SupervisorPlan → SupervisorStrategy
  | .broadcast _ _ => .broadcast
  | .sequential _ => .sequential
  | .relay _ _ => .relay

/-- The number of entries, each of which becomes a task. -/
def size : SupervisorPlan → Nat
  | .broadcast _ agents => agents.length
  | .sequential steps => steps.length
  | .relay _ steps => steps.length

variable {plan : SupervisorPlan} {g : TaskGraph}

/-- The graph of a plan has the tasks of its strategy, in order. -/
theorem graph_links (built : plan.graph = .ok g) :
    g.tasks.map (fun task => (task.id, task.dependsOn)) =
      (List.range plan.size).map fun index =>
        (plan.strategy.syntheticId index, plan.strategy.upstream index) := by
  cases plan with
  | broadcast prompt agents =>
      obtain ⟨-, -, tasks⟩ := dagGraph_eq_ok_iff.mp built
      rw [tasks]
      exact List.ext_getElem (by simp [size]) (by simp [strategy, TaskSpec.toTask,
        SupervisorStrategy.syntheticId, SupervisorStrategy.upstream])
  | sequential steps =>
      obtain ⟨-, -, tasks⟩ := dagGraph_eq_ok_iff.mp built
      rw [tasks]
      apply List.ext_getElem (by simp [size])
      intro index _ _
      simp only [List.getElem_map, List.getElem_mapIdx, List.getElem_range]
      exact (SupervisorStrategy.chainSpec_link index _ _ _).1
  | relay prompt steps =>
      obtain ⟨-, -, tasks⟩ := dagGraph_eq_ok_iff.mp built
      rw [tasks]
      apply List.ext_getElem (by simp [size])
      intro index _ _
      simp only [List.getElem_map, List.getElem_mapIdx, List.getElem_range]
      exact (SupervisorStrategy.chainSpec_link index _ _ _).2

theorem graph_ids (built : plan.graph = .ok g) :
    g.ids = (List.range plan.size).map plan.strategy.syntheticId := by
  have firsts := congrArg (List.map Prod.fst) (graph_links built)
  rw [List.map_map, List.map_map] at firsts
  exact firsts

end SupervisorPlan

section Scheduled

open Scheduler

variable {graph : Except AddError TaskGraph} {signalAborted : Bool} {es : List Event}
variable {scheduled : Scheduled}

/-- The scheduler of a strategy runs without a limit. -/
theorem reaches_of_schedule (returned : schedule graph signalAborted es = some scheduled) :
    graph = .ok scheduled.graph ∧ scheduled.state.control = .returned scheduled.report ∧
      Reaches ⟨none, positive_none⟩ scheduled.graph (fun _ => .pending) signalAborted es
        scheduled.state := by
  unfold schedule at returned
  dsimp only at returned
  split at returned
  · cases returned
  · rename_i g
    split at returned
    · cases returned
    · rename_i started accepted
      split at returned
      · cases returned
      · rename_i s execution
        split at returned
        · rename_i report control
          cases returned
          exact ⟨rfl, control, started, accepted, execution⟩
        · cases returned

theorem schedule_eq_some (returned : schedule graph signalAborted es = some scheduled) :
    graph = .ok scheduled.graph ∧ scheduled.state.control = .returned scheduled.report ∧
      ∃ sch, Reaches sch scheduled.graph (fun _ => .pending) signalAborted es scheduled.state :=
  (reaches_of_schedule returned).imp_right (And.imp_right fun reaches => ⟨_, reaches⟩)

/-- In a run that returned without being stopped, a task was executed behind completed
dependencies, or it was cancelled behind one that did not complete. -/
theorem Scheduled.task_cases (returned : schedule graph signalAborted es = some scheduled)
    (unstopped : scheduled.report.stopped = false) {task : Task}
    (member : task ∈ scheduled.graph.tasks) :
    (task.id ∈ scheduled.state.executed ∧
        ∀ dep ∈ task.dependsOn, scheduled.state.status dep = .completed) ∨
      (task.id ∉ scheduled.state.executed ∧ scheduled.state.status task.id ≠ .completed ∧
        ∃ dep ∈ task.dependsOn, scheduled.state.status dep ≠ .completed) := by
  obtain ⟨-, control, sch, reaches⟩ := schedule_eq_some returned
  have accounted : Accounted sch scheduled.graph (fun _ _ => True) scheduled.state := by
    refine reaches.accounted fun s₀ _ => Machine.meets_of_mem ?_ s₀
    intro e _ s
    cases e <;> simp [Event.Given]
  obtain ⟨same, complete⟩ := accounted.sound.loop.complete _ control
  have going : scheduled.state.stopped = false := by
    rw [same] at unstopped
    exact (Bool.or_eq_false_iff.mp unstopped).1
  obtain ⟨started, -⟩ | ⟨absent, cancelled, dep, edge, -, unfinished⟩ :=
    accounted.explained going task member (TaskGraph.isComplete_iff.mp complete task member)
  · exact .inl ⟨started, accounted.sound.ledger.deps task member started⟩
  · exact .inr ⟨absent, by simp [cancelled], dep, edge, unfinished⟩

end Scheduled

/-- The plan was run, and `scheduled` is what its strategy had when the scheduler returned. -/
structure SupervisorPlan.Ran (plan : SupervisorPlan) (scheduled : Scheduled) : Prop where
  ids : ∀ id, id ∈ scheduled.graph.ids ↔ ∃ index < plan.size, plan.strategy.syntheticId index = id
  cases : ∀ index < plan.size,
    (plan.strategy.syntheticId index ∈ scheduled.state.executed ∧
        ∀ dep ∈ plan.strategy.upstream index, scheduled.state.status dep = .completed) ∨
      (scheduled.state.status (plan.strategy.syntheticId index) ≠ .completed ∧
        ∃ dep ∈ plan.strategy.upstream index, scheduled.state.status dep ≠ .completed)

namespace SupervisorPlan

variable {plan : SupervisorPlan} {scheduled : Scheduled} {signalAborted : Bool}
variable {es : List Scheduler.Event}

theorem ran_of_schedule (returned : schedule plan.graph signalAborted es = some scheduled)
    (unstopped : scheduled.report.stopped = false) : plan.Ran scheduled := by
  have built := (schedule_eq_some returned).1
  refine ⟨fun id => by simp [graph_ids built], ?_⟩
  intro index inside
  · have known : (plan.strategy.syntheticId index, plan.strategy.upstream index) ∈
        scheduled.graph.tasks.map fun task => (task.id, task.dependsOn) := by
      rw [graph_links built]
      exact List.mem_map.mpr ⟨index, List.mem_range.mpr inside, rfl⟩
    obtain ⟨task, member, same⟩ := List.mem_map.mp known
    obtain ⟨id, upstream⟩ := Prod.mk.inj same
    rw [← id, ← upstream]
    exact (Scheduled.task_cases returned unstopped member).imp_right And.right

namespace Ran

/-- In a chain, what stands behind a task that did not complete did not complete either. -/
theorem fails_later (ran : plan.Ran scheduled) (chain : plan.strategy ≠ .broadcast) {i j : Nat}
    (failed : scheduled.state.status (plan.strategy.syntheticId i) ≠ .completed) (later : i ≤ j)
    (inside : j < plan.size) :
    scheduled.state.status (plan.strategy.syntheticId j) ≠ .completed := by
  induction j, later using Nat.le_induction with
  | base => exact failed
  | succ j _ ih =>
      have before := ih (by omega)
      obtain ⟨-, deps⟩ | ⟨unfinished, -⟩ := ran.cases (j + 1) inside
      · rw [SupervisorStrategy.upstream_succ chain] at deps
        exact absurd (deps _ List.mem_cons_self) before
      · exact unfinished

/-- Behind a task that did not complete there is one that was executed and did not
complete; in a broadcast it is the task itself. -/
theorem failed_root (ran : plan.Ran scheduled) {i : Nat} (inside : i < plan.size)
    (failed : scheduled.state.status (plan.strategy.syntheticId i) ≠ .completed) :
    ∃ k ≤ i, plan.strategy.syntheticId k ∈ scheduled.state.executed ∧
      scheduled.state.status (plan.strategy.syntheticId k) ≠ .completed ∧
      (plan.strategy = .broadcast → k = i) := by
  induction i with
  | zero =>
      obtain ⟨executed, -⟩ | ⟨-, dep, edge, -⟩ := ran.cases 0 inside
      · exact ⟨0, Nat.le_refl 0, executed, failed, fun _ => rfl⟩
      · simp [SupervisorStrategy.upstream] at edge
  | succ i ih =>
      obtain ⟨executed, -⟩ | ⟨-, dep, edge, unfinished⟩ := ran.cases (i + 1) inside
      · exact ⟨i + 1, Nat.le_refl _, executed, failed, fun _ => rfl⟩
      · by_cases flat : plan.strategy = .broadcast
        · simp [SupervisorStrategy.upstream, flat] at edge
        · rw [SupervisorStrategy.upstream_succ flat, List.mem_singleton] at edge
          subst edge
          obtain ⟨k, less, executed, failed, -⟩ := ih (by omega) unfinished
          exact ⟨k, by omega, executed, failed, fun broadcast => absurd broadcast flat⟩

end Ran

end SupervisorPlan

end MultiAgent.Native
