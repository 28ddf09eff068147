import MultiAgent.Native.Planner.Cycles
import MultiAgent.Native.Recovery.Pruning

/-!
# A pruned plan is valid

Whatever a kept task depends on is kept, so a pruned plan passes the hard checks that the
plan passed: its dependencies are known, and a cycle among its tasks would be a cycle of the
plan.
-/

namespace MultiAgent.Native

open Relation

variable {plan : PlannerPlan}

theorem PlannerPlan.Accepted.declared (accepted : plan.Accepted) :
    Declared (plan.tasks.map PlanTask.shape) := by
  have ids : (plan.tasks.map PlanTask.shape).map Shape.id = plan.ids := by
    rw [List.map_map]
    rfl
  refine ⟨ids ▸ accepted.distinct, ?_, ?_⟩
  · intro shape member dep edge
    obtain ⟨task, planned, rfl⟩ := List.mem_map.mp member
    rw [ids]
    exact ((accepted.sound task planned).dependsOn dep edge).2
  · intro shape member self
    obtain ⟨task, planned, rfl⟩ := List.mem_map.mp member
    exact ((accepted.sound task planned).dependsOn task.id self).1 rfl

/-- A part of an accepted plan that holds whatever its tasks depend on is accepted. -/
theorem PlannerPlan.Accepted.filter (accepted : plan.Accepted) {keep : PlanTask → Bool}
    (closed : ∀ task ∈ plan.tasks, keep task = true → ∀ other ∈ plan.tasks,
      other.id ∈ task.dependsOn.getD [] → keep other = true)
    (some : plan.tasks.filter keep ≠ []) : (PlannerPlan.mk (plan.tasks.filter keep)).Accepted := by
  have sub : ((plan.tasks.filter keep).map PlanTask.id).Sublist plan.ids :=
    List.filter_sublist.map PlanTask.id
  have distinct : (PlannerPlan.mk (plan.tasks.filter keep)).ids.Nodup :=
    accepted.distinct.sublist sub
  have sound : ∀ task ∈ plan.tasks.filter keep,
      task.Sound (PlannerPlan.mk (plan.tasks.filter keep)).ids := by
    intro task member
    obtain ⟨planned, kept⟩ := List.mem_filter.mp member
    obtain ⟨named, prompted, depends⟩ := accepted.sound task planned
    refine ⟨named, prompted, ?_⟩
    intro dep edge
    obtain ⟨other, known⟩ := depends dep edge
    obtain ⟨target, listed, rfl⟩ := List.mem_map.mp known
    exact ⟨other, List.mem_map_of_mem
      (List.mem_filter.mpr ⟨listed, closed task planned kept target listed edge⟩)⟩
  refine ⟨some, distinct, sound, ?_⟩
  have declared : Declared ((plan.tasks.filter keep).map PlanTask.shape) := by
    refine ⟨?_, ?_, ?_⟩
    · rw [List.map_map]
      exact distinct
    · intro shape member dep edge
      obtain ⟨task, kept, rfl⟩ := List.mem_map.mp member
      rw [List.map_map]
      exact ((sound task kept).dependsOn dep edge).2
    · intro shape member self
      obtain ⟨task, kept, rfl⟩ := List.mem_map.mp member
      exact ((sound task kept).dependsOn task.id self).1 rfl
  by_contra reported
  obtain ⟨id, cycle⟩ := (PlanValidator.findCycle_ne_nil_iff declared).mp reported
  have whole : Cyclic (plan.tasks.map PlanTask.shape) := by
    refine ⟨id, TransGen.mono ?_ _ _ cycle⟩
    rintro a b ⟨shape, member, same, edge⟩
    obtain ⟨task, kept, rfl⟩ := List.mem_map.mp member
    exact ⟨task.shape, List.mem_map_of_mem (List.mem_filter.mp kept).1, same, edge⟩
  exact (PlanValidator.findCycle_ne_nil_iff accepted.declared).mpr whole accepted.acyclic

namespace Recovery

variable {failure : FailureRecord} {replanned : Replanned}

/-- The task id is one of the failed ones, or depends on one of them through tasks of the
plan. -/
def Affected (plan : PlannerPlan) (failed : List String) (id : String) : Prop :=
  ∃ root ∈ failed, ReflTransGen plan.DependsOn id root

theorem mem_removedTaskIds (pruned : deterministicReplan plan failure = .ok replanned)
    {id : String} :
    id ∈ replanned.removedTaskIds ↔ id ∈ plan.ids ∧ Affected plan failure.taskIds id := by
  obtain ⟨-, -, -, rfl⟩ := deterministicReplan_eq_ok_iff.mp pruned
  rw [Affected, ← mem_removedIds]
  constructor
  · intro removed
    obtain ⟨task, member, rfl⟩ := List.mem_map.mp removed
    obtain ⟨planned, gone⟩ := List.mem_filter.mp member
    exact ⟨List.mem_map_of_mem planned, of_decide_eq_true gone⟩
  · rintro ⟨known, gone⟩
    obtain ⟨task, planned, rfl⟩ := List.mem_map.mp known
    exact List.mem_map_of_mem (List.mem_filter.mpr ⟨planned, decide_eq_true gone⟩)

/-- What a replan keeps of an accepted plan is accepted: a task that depends on a removed one
is removed. -/
theorem accepted_of_replanned (accepted : plan.Accepted)
    (pruned : deterministicReplan plan failure = .ok replanned) : replanned.plan.Accepted := by
  obtain ⟨-, -, some, rfl⟩ := deterministicReplan_eq_ok_iff.mp pruned
  refine accepted.filter ?_ some
  intro task member kept other planned edge
  rw [decide_eq_true_iff] at kept ⊢
  intro gone
  obtain ⟨root, failing, path⟩ := mem_removedIds.mp gone
  exact kept (mem_removedIds.mpr ⟨root, failing, .head ⟨task, member, rfl, edge⟩ path⟩)

/-- A replan of a dependency failure removes the failed tasks and their dependents, and
keeps the other tasks of the plan as they are, in their order. It succeeds when there is a
task to keep, and what it keeps of a valid plan is valid. -/
theorem deterministicReplan_prunes (code : failure.code = .dependencyFailure)
    (listed : failure.taskIds ≠ []) :
    ((∃ replanned, deterministicReplan plan failure = .ok replanned) ↔
        ∃ task ∈ plan.tasks, ¬ Affected plan failure.taskIds task.id) ∧
      ∀ replanned, deterministicReplan plan failure = .ok replanned →
        (∀ id, id ∈ replanned.removedTaskIds ↔
          id ∈ plan.ids ∧ Affected plan failure.taskIds id) ∧
        replanned.plan.tasks =
          (plan.tasks.filter fun task => decide (task.id ∉ replanned.removedTaskIds)) ∧
        ∀ agents validated, PlanValidator.validate agents plan = .ok validated →
          ∃ again, PlanValidator.validate agents replanned.plan = .ok again := by
  constructor
  · have kept : (plan.tasks.filter fun task =>
        decide (task.id ∉ removedIds plan failure.taskIds)) ≠ [] ↔
          ∃ task ∈ plan.tasks, ¬ Affected plan failure.taskIds task.id := by
      rw [ne_eq, List.filter_eq_nil_iff]
      push Not
      simp only [decide_eq_true_iff, mem_removedIds, Affected]
    rw [← kept]
    constructor
    · rintro ⟨replanned, pruned⟩
      exact (deterministicReplan_eq_ok_iff.mp pruned).2.2.1
    · intro some
      exact ⟨_, deterministicReplan_eq_ok_iff.mpr ⟨code, listed, some, rfl⟩⟩
  · intro replanned pruned
    have removed := fun id => @mem_removedTaskIds _ _ _ pruned id
    refine ⟨removed, ?_, ?_⟩
    · rw [(deterministicReplan_ok pruned).2]
      apply List.filter_congr
      intro task member
      have known : task.id ∈ plan.ids := List.mem_map_of_mem member
      rw [decide_eq_decide, removed, mem_removedIds, and_iff_right known]
      rfl
    · intro agents validated judged
      obtain ⟨accepted, -⟩ := PlanValidator.validate_eq_ok_iff.mp judged
      exact ⟨_, PlanValidator.validate_eq_ok_iff.mpr
        ⟨accepted_of_replanned accepted pruned, rfl⟩⟩

/-- A printed book: the tasks stand in the reverse of their order. -/
def printPlan : PlannerPlan :=
  ⟨[⟨"bind", "bind the book", none, none, some ["print"], none, none⟩,
    ⟨"print", "print the pages", none, none, some ["layout"], none, none⟩,
    ⟨"layout", "lay out the pages", none, none, none, none, none⟩,
    ⟨"cover", "draw a cover", none, none, none, none, none⟩]⟩

def layoutFailed : FailureRecord where
  code := .dependencyFailure
  message := "task 'layout' failed"
  attempt := 1
  recoverability := recoverability .dependencyFailure
  thrown := false
  cause := none
  taskId := some "layout"
  agentId := none
  taskFailures := some [⟨"layout", none, .taskError, "boom"⟩]

theorem deterministicReplan_prunes_layoutFailed :
    ∃ replanned, deterministicReplan printPlan layoutFailed = .ok replanned ∧
      (∀ id, id ∈ replanned.removedTaskIds ↔
        id ∈ printPlan.ids ∧ Affected printPlan ["layout"] id) ∧
      replanned.plan.tasks.map PlanTask.id = ["cover"] := by
  have code : layoutFailed.code = .dependencyFailure := rfl
  have listed : layoutFailed.taskIds ≠ [] := by decide
  have pruned : ∃ replanned, deterministicReplan printPlan layoutFailed = .ok replanned ∧
      replanned.plan.tasks.map PlanTask.id = ["cover"] := ⟨_, rfl, rfl⟩
  obtain ⟨replanned, pruned, kept⟩ := pruned
  exact ⟨replanned, pruned, ((deterministicReplan_prunes code listed).2 replanned pruned).1, kept⟩

end Recovery

end MultiAgent.Native
