import MultiAgent.Foundations.Saturation
import MultiAgent.Native.Recovery.Replan

/-!
# What a replanned plan is without

The passes of the replanner saturate the failed ids with their dependents, so a task is
removed exactly when it is listed as failed or depends, through tasks of the plan, on one
that is.
-/

namespace MultiAgent.Native

open Relation

/-- The task `id` of the plan lists the dependency `dep`. -/
def PlannerPlan.DependsOn (plan : PlannerPlan) (id dep : String) : Prop :=
  ∃ task ∈ plan.tasks, task.id = id ∧ dep ∈ task.dependsOn.getD []

namespace Recovery

variable {plan : PlannerPlan} {failed : List String} {id : String}

/-- What the inner loop of the replanner looks for. -/
def Follows (remove : List String) (task : PlanTask) : Prop :=
  task.id ∉ remove ∧ ∃ dep ∈ task.dependsOn.getD [], dep ∈ remove

instance (remove : List String) (task : PlanTask) : Decidable (Follows remove task) :=
  inferInstanceAs (Decidable (_ ∧ ∃ dep ∈ _, _))

theorem removeTask_eq : removeTask = Saturation.turn Follows PlanTask.id := by
  funext remove task
  by_cases known : task.id ∈ remove
  · simp [removeTask, Saturation.turn, Follows, known]
  · simp [removeTask, Saturation.turn, Follows, known]

theorem removePasses_eq (tasks : List PlanTask) (fuel : Nat) (remove : List String) :
    removePasses tasks fuel remove = Saturation.passes Follows PlanTask.id tasks fuel remove := by
  induction fuel generalizing remove with
  | zero => rfl
  | succ fuel ih =>
      rw [removePasses, Saturation.passes, removeTask_eq]
      simp only [ih]

/-- The removed ids are the failed ones and their transitive dependents. -/
theorem mem_removedIds :
    id ∈ removedIds plan failed ↔ ∃ root ∈ failed, ReflTransGen plan.DependsOn id root := by
  have grows : Saturation.Grows Follows PlanTask.id plan.tasks failed.dedup
      (removedIds plan failed) := by
    rw [removedIds, removePasses_eq]
    exact Saturation.passes_grows _ _ _
  constructor
  · intro removed
    refine grows.invariant (P := fun remove => ∀ id ∈ remove,
      ∃ root ∈ failed, ReflTransGen plan.DependsOn id root) ?_ ?_ id removed
    · rintro remove task so_far member ⟨-, dep, edge, known⟩
      refine List.forall_mem_append.mpr ⟨so_far, List.forall_mem_singleton.mpr ?_⟩
      obtain ⟨root, failing, path⟩ := so_far dep known
      exact ⟨root, failing, .head ⟨task, member, rfl, edge⟩ path⟩
    · exact fun id known => ⟨id, List.mem_dedup.mp known, .refl⟩
  · rintro ⟨root, failing, path⟩
    have closed : ∀ task ∈ plan.tasks, ¬ Follows (removedIds plan failed) task := by
      rw [removedIds, removePasses_eq]
      exact Saturation.saturated (fun _ _ follows => follows.1)
        (Nat.lt_succ_of_le List.countP_le_length)
    induction path using ReflTransGen.head_induction_on with
    | refl => exact grows.keeps.subset (List.mem_dedup.mpr failing)
    | head edge _ ih =>
        obtain ⟨task, member, rfl, listed⟩ := edge
        exact Classical.byContradiction fun out => closed task member ⟨out, _, listed, ih⟩

/-- The ids of the tasks that a failure lists. -/
def FailureRecord.taskIds (failure : FailureRecord) : List String :=
  (failure.taskFailures.getD []).map TaskFailureRef.taskId

/-- When a replan succeeds, and what it returns. -/
theorem deterministicReplan_eq_ok_iff {failure : FailureRecord} {replanned : Replanned} :
    deterministicReplan plan failure = .ok replanned ↔
      failure.code = .dependencyFailure ∧ failure.taskIds ≠ [] ∧
        (plan.tasks.filter fun task =>
          decide (task.id ∉ removedIds plan failure.taskIds)) ≠ [] ∧
        replanned = {
          plan := ⟨plan.tasks.filter fun task =>
            decide (task.id ∉ removedIds plan failure.taskIds)⟩
          removedTaskIds := (plan.tasks.filter fun task =>
            decide (task.id ∈ removedIds plan failure.taskIds)).map PlanTask.id } := by
  rw [deterministicReplan]
  change (if failure.code ≠ .dependencyFailure then _
    else if failure.taskIds = [] then _ else _) = _ ↔ _
  by_cases code : failure.code = .dependencyFailure
  · by_cases listed : failure.taskIds = []
    · simp [code, listed]
    · rw [if_neg (not_not.mpr code), if_neg listed]
      dsimp only
      split
      · rename_i empty
        simp only [reduceCtorEq, false_iff]
        exact fun kept => kept.2.2.1 empty
      · rename_i kept
        rw [Except.ok.injEq]
        exact ⟨fun same => ⟨code, listed, kept, same.symm⟩, fun all => all.2.2.2.symm⟩
  · simp [code]

/-- A replanned plan keeps the other tasks of the plan, unchanged and in their order. -/
theorem deterministicReplan_ok {failure : FailureRecord} {replanned : Replanned}
    (pruned : deterministicReplan plan failure = .ok replanned) :
    failure.code = .dependencyFailure ∧ replanned.plan.tasks =
      plan.tasks.filter fun task => decide (task.id ∉ removedIds plan failure.taskIds) := by
  obtain ⟨code, -, -, rfl⟩ := deterministicReplan_eq_ok_iff.mp pruned
  exact ⟨code, rfl⟩

/-- A task of the plan is missing behind a replan exactly when it is listed as failed or
depends on a task that is. -/
theorem removed_iff {failure : FailureRecord} {replanned : Replanned} {task : PlanTask}
    (pruned : deterministicReplan plan failure = .ok replanned) (member : task ∈ plan.tasks) :
    task ∉ replanned.plan.tasks ↔
      ∃ root ∈ failure.taskIds, ReflTransGen plan.DependsOn task.id root := by
  rw [(deterministicReplan_ok pruned).2, ← mem_removedIds]
  simp [member]

end Recovery

end MultiAgent.Native
