import MultiAgent.Plugin.Planning.Repair

/-!
# The dependency fallback

With the fallback, a plan of well formed tasks is always returned, and it loses no more
dependencies than it has to (`fallback_returns`).
-/

namespace MultiAgent.Plugin

namespace Planning

/-- The tasks with other dependencies. -/
def withDependencies (deps : Task → List String) (tasks : List Task) : List Task :=
  tasks.map fun task => { task with dependsOn := deps task }

/-- The tasks without their unknown dependencies, and without those on themselves. -/
def pruned (tasks : List Task) : List Task :=
  withDependencies (keptDependencies (tasks.map Task.id)) tasks

section Rewritten

variable {deps : Task → List String} {tasks : List Task} {router : WorkerRouter}
variable {knownCaps : List String}

theorem ids_withDependencies : (withDependencies deps tasks).map Task.id = tasks.map Task.id := by
  rw [withDependencies, List.map_map]
  rfl

theorem mem_withDependencies {task : Task} : task ∈ withDependencies deps tasks ↔
    ∃ before ∈ tasks, { before with dependsOn := deps before } = task := List.mem_map

theorem WellFormed.withDependencies (formed : WellFormed tasks) :
    WellFormed (withDependencies deps tasks) := by
  constructor
  · rw [ids_withDependencies]
    exact formed.distinct
  · intro task member
    obtain ⟨before, inside, rfl⟩ := mem_withDependencies.mp member
    exact formed.nonempty before inside
  · intro task member
    obtain ⟨before, inside, rfl⟩ := mem_withDependencies.mp member
    exact formed.described before inside

theorem Settled.withDependencies (settled : Settled router knownCaps tasks) :
    Settled router knownCaps (withDependencies deps tasks) := by
  intro task member
  obtain ⟨before, inside, rfl⟩ := mem_withDependencies.mp member
  exact settled before inside

theorem pruned_closed : ∀ task ∈ pruned tasks, ∀ dep ∈ task.dependsOn,
    dep ∈ tasks.map Task.id ∧ dep ≠ task.id := by
  intro task member dep edge
  obtain ⟨before, inside, rfl⟩ := mem_withDependencies.mp member
  exact of_decide_eq_true (List.mem_filter.mp edge).2

theorem validGraph_pruned : ValidGraph (pruned tasks) ↔ Acyclic (edgesOf (pruned tasks)) := by
  refine ⟨ValidGraph.acyclic, fun acyclic => ⟨?_, ?_, acyclic⟩⟩
  · intro task member dep edge
    rw [pruned, ids_withDependencies]
    exact (pruned_closed task member dep edge).1
  · intro task member edge
    exact (pruned_closed task member task.id edge).2 rfl

/-- A plan without dependencies is valid. -/
theorem validGraph_cleared : ValidGraph (withDependencies (fun _ => []) tasks) := by
  have free : ∀ task ∈ withDependencies (fun _ => []) tasks, task.dependsOn = [] := by
    intro task member
    obtain ⟨before, -, rfl⟩ := mem_withDependencies.mp member
    rfl
  constructor
  · intro task member dep edge
    rw [free task member] at edge
    cases edge
  · intro task member edge
    rw [free task member] at edge
    cases edge
  · intro id cycle
    obtain ⟨_, -, edge⟩ := Relation.TransGen.tail'_iff.mp cycle
    obtain ⟨task, member, -, edge⟩ := exists_of_mem_edgesOf edge
    rw [free task member] at edge
    cases edge

end Rewritten

section Fallback

variable {set : SetIteration} {router : WorkerRouter} {knownAgents knownCaps : List String}
variable {tasks : List Task} {task : Task} {s : State}

theorem dropDependencies_fst (ids : List String) (task : Task) :
    (dropDependencies ids task).1 = { task with dependsOn := keptDependencies ids task } := by
  simp only [dropDependencies]
  split_ifs with none
  · have all : keptDependencies ids task = task.dependsOn := by
      rw [keptDependencies, List.filter_eq_self]
      intro dep edge
      have kept := List.filter_eq_nil_iff.mp none dep edge
      rw [decide_eq_true_eq, not_not] at kept
      exact (List.mem_filter.mp kept).2
    rw [all]
  · rfl

theorem clearDependencies_fst (task : Task) :
    (clearDependencies task).1 = { task with dependsOn := [] } := by
  simp only [clearDependencies]
  split_ifs with none
  · rw [← none]
  · rfl

theorem map_dropDependencies (tasks : List Task) :
    (tasks.map (dropDependencies (tasks.map Task.id))).map Prod.fst = pruned tasks := by
  rw [List.map_map, pruned, withDependencies]
  exact List.map_congr_left fun task _ => dropDependencies_fst _ task

/-- The order of the tasks without the dropped dependencies. -/
theorem pruned_order_ok_iff (set : SetIteration) :
    (∃ order, topologicalOrder set.iter (tasks.map Task.id) (edgesOf (pruned tasks)) = .ok order) ↔
      Acyclic (edgesOf (pruned tasks)) := by
  have outside (id : String) (unknown : id ∉ tasks.map Task.id) :
      edgesOf (pruned tasks) id = [] := by
    apply edgesOf_of_notMem
    rwa [pruned, ids_withDependencies]
  rw [topologicalOrder_ok_iff set outside, and_iff_right_iff_imp]
  intro acyclic id known dep edge
  obtain ⟨task, member, -, edge⟩ := exists_of_mem_edgesOf edge
  exact (pruned_closed task member dep edge).1

/-- The fallback keeps what is left of the dependencies, or none. -/
theorem applyDependencyFallback_fst (set : SetIteration) (tasks : List Task) :
    (Acyclic (edgesOf (pruned tasks)) ∧ (applyDependencyFallback set tasks).1 = pruned tasks) ∨
    (¬ Acyclic (edgesOf (pruned tasks)) ∧
      (applyDependencyFallback set tasks).1 = withDependencies (fun _ => []) tasks) := by
  rw [← pruned_order_ok_iff set]
  simp only [applyDependencyFallback, map_dropDependencies]
  cases topologicalOrder set.iter (tasks.map Task.id) (edgesOf (pruned tasks)) with
  | ok order => exact .inl ⟨⟨order, rfl⟩, rfl⟩
  | error error =>
      refine .inr ⟨nofun, ?_⟩
      rw [List.map_map, pruned, withDependencies, withDependencies, List.map_map]
      exact List.map_congr_left fun task _ => clearDependencies_fst _

/-- The last attempt, where its plan is not valid but the plan of the fallback is. -/
theorem last_fallback (router : WorkerRouter) {error : PlanValidationError}
    (failed : check set knownAgents knownCaps s.tasks = .error error)
    (mended : check set knownAgents knownCaps (applyDependencyFallback set s.tasks).1 = .ok ()) :
    ∃ mend : State, mend.tasks = (applyDependencyFallback set s.tasks).1 ∧
      attempt set router knownAgents knownCaps true 0 s =
        attempt set router knownAgents knownCaps true 0 mend := by
  refine ⟨⟨(applyDependencyFallback set s.tasks).1, s.cursor,
    s.notes ++ (applyDependencyFallback set s.tasks).2⟩, rfl, ?_⟩
  rw [attempt, failed, attempt]
  simp only [if_true, mended]

theorem Settled.supported (settled : Settled router knownCaps tasks) :
    Supported router.workers knownCaps tasks := by
  constructor
  · intro task member agent named
    obtain ⟨worker, inside, same⟩ := (settled task member).1
    rw [same] at named
    cases named
    exact inside
  · intro task member
    exact (settled task member).2

/-- A plan that passes its check is returned, and would pass it again. -/
theorem returned_again (workers : router.workers ≠ []) (allow : Bool)
    (checked : check set router.workers knownCaps s.tasks = .ok ()) :
    ∃ last, attempt set router router.workers knownCaps allow 0 s = (last, .ok ()) ∧
      List.Forall₂ Repairs s.tasks last.tasks ∧
      check set router.workers knownCaps last.tasks = .ok () := by
  obtain ⟨returned, repairs, graph, settled⟩ := returned_of_check workers allow checked
  obtain ⟨formed, -, -⟩ := check_ok_iff.mp checked
  exact ⟨_, Prod.ext rfl returned, repairs,
    check_ok_iff.mpr ⟨Repairs.wellFormed repairs formed, graph, settled.supported⟩⟩

/-- Tasks with the ids and descriptions of others and with given dependencies. -/
structure Rewrites (deps : List (List String)) (tasks tasks' : List Task) : Prop where
  ids : tasks'.map Task.id = tasks.map Task.id
  descriptions : tasks'.map Task.description = tasks.map Task.description
  dependsOn : tasks'.map Task.dependsOn = deps

namespace Rewrites

variable {a b c : List Task} {deps deps' : List (List String)}

theorem of_repairs (repairs : List.Forall₂ Repairs a b) : Rewrites (a.map Task.dependsOn) a b :=
  ⟨Repairs.ids repairs, Repairs.map_eq repairs fun field => field.2.1,
    Repairs.map_eq repairs fun field => field.2.2⟩

theorem of_withDependencies (f : Task → List String) :
    Rewrites (a.map f) a (withDependencies f a) := by
  constructor <;> rw [withDependencies, List.map_map] <;> rfl

theorem trans (first : Rewrites deps a b) (second : Rewrites deps' b c) : Rewrites deps' a c :=
  ⟨second.ids.trans first.ids, second.descriptions.trans first.descriptions, second.dependsOn⟩

end Rewrites

/-- What the fallback keeps does not depend on the repairs before it. -/
theorem kept_of_repairs {tasks' : List Task} (repairs : List.Forall₂ Repairs tasks tasks') :
    tasks'.map (keptDependencies (tasks'.map Task.id)) =
      tasks.map (keptDependencies (tasks.map Task.id)) := by
  rw [Repairs.ids repairs]
  exact Repairs.map_eq repairs fun field =>
    field.2.2.filter fun dep => decide (dep ∈ tasks.map Task.id ∧ dep ≠ field.1)

theorem edges_of_repairs {tasks' : List Task} (repairs : List.Forall₂ Repairs tasks tasks') :
    edgesOf (pruned tasks') = edgesOf (pruned tasks) := by
  apply edgesOf_congr
  rw [pruned, pruned, withDependencies, withDependencies, List.map_map, List.map_map,
    Repairs.ids repairs]
  exact Repairs.map_eq repairs fun field => (field.1,
    field.2.2.filter fun dep => decide (dep ∈ tasks.map Task.id ∧ dep ≠ field.1))

/-- The fallback on settled tasks. -/
theorem returned_after_fallback (set : SetIteration) (workers : router.workers ≠ [])
    (formed : WellFormed s.tasks) (settled : Settled router knownCaps s.tasks)
    (invalid : ¬ ValidGraph s.tasks) :
    ∃ last, attempt set router router.workers knownCaps true 0 s = (last, .ok ()) ∧
      check set router.workers knownCaps last.tasks = .ok () ∧
      ((Acyclic (edgesOf (pruned s.tasks)) ∧
          Rewrites (s.tasks.map (keptDependencies (s.tasks.map Task.id))) s.tasks last.tasks) ∨
        (¬ Acyclic (edgesOf (pruned s.tasks)) ∧
          Rewrites (s.tasks.map fun _ => []) s.tasks last.tasks)) := by
  have mended {deps : Task → List String} (graph : ValidGraph (withDependencies deps s.tasks))
      (same : (applyDependencyFallback set s.tasks).1 = withDependencies deps s.tasks) :
      ∃ last, attempt set router router.workers knownCaps true 0 s = (last, .ok ()) ∧
        check set router.workers knownCaps last.tasks = .ok () ∧
        Rewrites (s.tasks.map deps) s.tasks last.tasks := by
    have checked : check set router.workers knownCaps (withDependencies deps s.tasks) = .ok () :=
      check_ok_iff.mpr ⟨formed.withDependencies, graph, settled.withDependencies.supported⟩
    cases failed : check set router.workers knownCaps s.tasks with
    | ok _ => exact absurd (check_ok_iff.mp failed).2.1 invalid
    | error error =>
        obtain ⟨mend, tasks_eq, ends⟩ := last_fallback router failed (same ▸ checked)
        rw [← same, ← tasks_eq] at checked
        obtain ⟨last, returned, repairs, again⟩ := returned_again workers true checked
        refine ⟨last, ends.trans returned, again, ?_⟩
        have rewrites := Rewrites.of_repairs repairs
        rw [tasks_eq, same] at rewrites
        have first := Rewrites.of_withDependencies (a := s.tasks) deps
        rw [← first.dependsOn]
        exact first.trans rewrites
  obtain ⟨acyclic, same⟩ | ⟨cyclic, same⟩ := applyDependencyFallback_fst set s.tasks
  · obtain ⟨last, returned, again, rewrites⟩ := mended (validGraph_pruned.mpr acyclic) same
    exact ⟨last, returned, again, .inl ⟨acyclic, rewrites⟩⟩
  · obtain ⟨last, returned, again, rewrites⟩ := mended validGraph_cleared same
    exact ⟨last, returned, again, .inr ⟨cyclic, rewrites⟩⟩

/-- Where there is a repair, the last attempt is made on a valid plan, or on settled tasks. -/
theorem last_attempt (set : SetIteration) (knownCaps : List String)
    (workers : router.workers ≠ []) (allow : Bool) {attempts : Nat} (some_repair : attempts ≠ 0)
    (formed : WellFormed s.tasks) : ∃ last : State,
      attempt set router router.workers knownCaps allow attempts s =
        attempt set router router.workers knownCaps allow 0 last ∧
      List.Forall₂ Repairs s.tasks last.tasks ∧
      (ValidGraph s.tasks → check set router.workers knownCaps last.tasks = .ok ()) ∧
      (¬ ValidGraph s.tasks → Settled router knownCaps last.tasks) := by
  obtain ⟨last, same, outcome⟩ :=
    attempt_eq_last set router.workers knownCaps workers allow attempts s
  refine ⟨last, same, ?_⟩
  obtain ⟨rfl, none | checked⟩ | ⟨repairs, settled⟩ := outcome
  · exact absurd none some_repair
  · refine ⟨Repairs.refl_all _, fun _ => checked, fun invalid => ?_⟩
    exact absurd (check_ok_iff.mp checked).2.1 invalid
  · refine ⟨repairs, fun graph => ?_, fun _ => settled⟩
    exact check_ok_iff.mpr ⟨Repairs.wellFormed repairs formed,
      (Repairs.validGraph repairs).mpr graph, settled.supported⟩

end Fallback

/-- With the fallback, a plan is returned, and its dependencies are the parsed ones if they
are valid, else those that are known and not of a task on itself if there is no cycle of
them, else none. -/
theorem fallback_returns {set : SetIteration} {router : WorkerRouter}
    (workers : router.workers ≠ []) (knownCaps : List String) {maxRepairAttempts : Int}
    (attempts : 1 ≤ maxRepairAttempts) {s : State} (formed : WellFormed s.tasks) :
    ∃ last, validateAndRepair set router router.workers knownCaps true maxRepairAttempts s =
        (last, .ok ()) ∧
      check set router.workers knownCaps last.tasks = .ok () ∧ Acyclic (edgesOf last.tasks) ∧
      ((ValidGraph s.tasks ∧ Rewrites (s.tasks.map Task.dependsOn) s.tasks last.tasks) ∨
        (¬ ValidGraph s.tasks ∧ Acyclic (edgesOf (pruned s.tasks)) ∧
          Rewrites (s.tasks.map (keptDependencies (s.tasks.map Task.id))) s.tasks last.tasks) ∨
        (¬ ValidGraph s.tasks ∧ ¬ Acyclic (edgesOf (pruned s.tasks)) ∧
          Rewrites (s.tasks.map fun _ => []) s.tasks last.tasks)) := by
  have some_repair : (max 0 maxRepairAttempts).toNat ≠ 0 := by omega
  obtain ⟨mid, same, repairs, valid, settled⟩ :=
    last_attempt set knownCaps workers true some_repair formed
  have first := Rewrites.of_repairs repairs
  rw [validateAndRepair, same]
  by_cases graph : ValidGraph s.tasks
  · obtain ⟨last, returned, more, again⟩ := returned_again workers true (valid graph)
    exact ⟨last, returned, again, (check_ok_iff.mp again).2.1.acyclic,
      .inl ⟨graph, .of_repairs (Repairs.trans_all repairs more)⟩⟩
  · obtain ⟨last, returned, again, outcome⟩ := returned_after_fallback set workers
      (Repairs.wellFormed repairs formed) (settled graph)
      fun graph' => graph ((Repairs.validGraph repairs).mp graph')
    refine ⟨last, returned, again, (check_ok_iff.mp again).2.1.acyclic, .inr ?_⟩
    rw [edges_of_repairs repairs, kept_of_repairs repairs] at outcome
    obtain ⟨acyclic, rewrites⟩ | ⟨cyclic, rewrites⟩ := outcome
    · exact .inl ⟨graph, acyclic, first.trans rewrites⟩
    · refine .inr ⟨graph, cyclic, first.trans ?_⟩
      have same := Repairs.map_eq repairs fun _ => ([] : List String)
      rwa [same] at rewrites

/-- Two tasks that wait for each other, and one that waits for itself and for no task. -/
def tangle : List Task :=
  [⟨"a", "x", none, ["b"], [], none⟩, ⟨"b", "y", none, ["a"], [], none⟩,
    ⟨"c", "z", some "ghost", ["c", "d"], ["k"], none⟩]

theorem wellFormed_tangle : WellFormed tangle := by
  constructor <;> decide

theorem fallback_returns_tangle : ∃ last,
    validateAndRepair .dedup ⟨["w"], fun _ => none⟩ ["w"] [] true 1 ⟨tangle, 0, []⟩ =
        (last, .ok ()) ∧
      check .dedup ["w"] [] last.tasks = .ok () := by
  obtain ⟨last, returned, again, -⟩ := @fallback_returns .dedup ⟨["w"], fun _ => none⟩
    (List.cons_ne_nil _ _) [] 1 (by decide) ⟨tangle, 0, []⟩ wellFormed_tangle
  exact ⟨last, returned, again⟩

end Planning

end MultiAgent.Plugin
