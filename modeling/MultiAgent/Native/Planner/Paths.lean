import MultiAgent.Native.Planner.Cycles

/-!
# The plans that a relay accepts

The relay mapping sorts the tasks and counts dependencies, roots and dependents. Together the
counts say that the dependencies are the steps of one path through all tasks, and that the
sorted tasks are that path.
-/

namespace MultiAgent.Native

/-- A list of all ids on which each depends on the one before it, and there are no other
dependencies. -/
structure SinglePath (shapes : List Shape) (path : List String) : Prop where
  nonempty : path ≠ []
  all : path.Perm (shapes.map Shape.id)
  edges : ∀ a b, DependsOn shapes a b ↔
    ∃ i : Nat, path[i]? = some b ∧ path[i + 1]? = some a

section Sorted

variable {tasks chain : List RoutedTask} {path : List String}

theorem dependsOn_shape_iff {a b : String} :
    DependsOn (tasks.map RoutedTask.shape) a b ↔ ∃ task ∈ tasks, task.id = a ∧ b ∈ task.deps := by
  simp [DependsOn, RoutedTask.shape]

theorem shape_ids : (tasks.map RoutedTask.shape).map Shape.id = tasks.map RoutedTask.id := by
  rw [List.map_map]
  rfl

/-- Two places of one id on a path. -/
theorem SinglePath.place_eq (single : SinglePath (tasks.map RoutedTask.shape) path)
    (distinct : (tasks.map RoutedTask.id).Nodup) {i j : Nat} {id : String}
    (first : path[i]? = some id) (second : path[j]? = some id) : i = j := by
  have once : path.Nodup := by
    rw [single.all.nodup_iff, shape_ids]
    exact distinct
  obtain ⟨inside, -⟩ := List.getElem?_eq_some_iff.mp first
  exact (List.getElem?_inj inside once).mp (first.trans second.symm)

theorem SinglePath.declared (single : SinglePath (tasks.map RoutedTask.shape) path)
    (distinct : (tasks.map RoutedTask.id).Nodup) : Declared (tasks.map RoutedTask.shape) := by
  refine ⟨by rwa [shape_ids], ?_, ?_⟩
  · intro shape member dep edge
    obtain ⟨i, before, -⟩ := (single.edges shape.id dep).mp ⟨shape, member, rfl, edge⟩
    exact single.all.subset (List.mem_of_getElem? before)
  · intro shape member edge
    obtain ⟨i, before, here⟩ := (single.edges shape.id shape.id).mp ⟨shape, member, rfl, edge⟩
    have same := single.place_eq distinct before here
    omega

/-- The places on the path descend along the dependencies, so the tasks can be sorted. -/
theorem SinglePath.sorted (single : SinglePath (tasks.map RoutedTask.shape) path)
    (distinct : (tasks.map RoutedTask.id).Nodup) :
    ∃ chain, topologicalOrder tasks = .ok chain := by
  refine @topologicalOrder_eq_ok_of_rank tasks (single.declared distinct) path.idxOf ?_
  have place : ∀ i id, path[i]? = some id → path.idxOf id = i := by
    intro i id here
    have known : path[path.idxOf id]? = some id :=
      List.getElem?_idxOf (List.mem_of_getElem? here)
    exact single.place_eq distinct known here
  intro task member dep edge
  obtain ⟨i, before, here⟩ :=
    (single.edges task.id dep).mp (dependsOn_shape_iff.mpr ⟨task, member, rfl, edge⟩)
  rw [place i dep before, place (i + 1) task.id here]
  exact Nat.lt_succ_self i

/-- Tasks in which every dependency stands before its dependents are sorted like the path. -/
theorem SinglePath.ids_eq (single : SinglePath (tasks.map RoutedTask.shape) path)
    (distinct : (tasks.map RoutedTask.id).Nodup) (perm : chain.Perm tasks)
    (depsFirst : DepsFirst chain) : chain.map RoutedTask.id = path := by
  have ids : (chain.map RoutedTask.id).Perm path := by
    exact (perm.map RoutedTask.id).trans (shape_ids ▸ single.all.symm)
  have once : (chain.map RoutedTask.id).Nodup :=
    (perm.map RoutedTask.id).nodup_iff.mpr distinct
  -- Both lists ascend by the place in the first one.
  let ahead : String → String → Prop := fun a b =>
    (chain.map RoutedTask.id).idxOf a < (chain.map RoutedTask.id).idxOf b
  have trans_ : Trans ahead ahead ahead := ⟨fun first second => Nat.lt_trans first second⟩
  have own : (chain.map RoutedTask.id).Pairwise ahead := by
    rw [List.pairwise_iff_getElem]
    intro i j inside within less
    change List.idxOf _ _ < List.idxOf _ _
    rwa [once.idxOf_getElem i inside, once.idxOf_getElem j within]
  have steps : path.Pairwise ahead := by
    rw [← List.isChain_iff_pairwise, List.isChain_iff_getElem]
    intro i inside
    have edge := (single.edges path[i + 1] path[i]).mpr ⟨i, List.getElem?_eq_getElem (by omega),
      List.getElem?_eq_getElem inside⟩
    obtain ⟨task, member, same, dep⟩ := dependsOn_shape_iff.mp edge
    have less := depsFirst.idxOf_lt once (perm.mem_iff.mpr member) dep
    rwa [same] at less
  exact ids.eq_of_pairwise (fun a b _ _ first second => absurd first (Nat.lt_asymm second))
    own steps

theorem SinglePath.isChain (single : SinglePath (tasks.map RoutedTask.shape) path)
    (distinct : (tasks.map RoutedTask.id).Nodup) (once : ∀ task ∈ tasks, task.deps.Nodup)
    (perm : chain.Perm tasks) (depsFirst : DepsFirst chain) : IsChain chain := by
  refine ⟨fun task here => depsFirst.first here, ?_⟩
  intro i earlier task before here
  have ids := single.ids_eq distinct perm depsFirst
  have place : ∀ (j : Nat) (other : RoutedTask), chain[j]? = some other →
      path[j]? = some other.id := by
    intro j other there
    rw [← ids, List.getElem?_map, there]
    rfl
  have member : task ∈ tasks := perm.mem_iff.mp (List.mem_of_getElem? here)
  have only : task.deps.Perm [earlier.id] := by
    rw [List.perm_ext_iff_of_nodup (once task member) (List.nodup_singleton _)]
    intro dep
    rw [List.mem_singleton]
    constructor
    · intro edge
      obtain ⟨j, there, behind⟩ :=
        (single.edges task.id dep).mp (dependsOn_shape_iff.mpr ⟨task, member, rfl, edge⟩)
      have same := single.place_eq distinct behind (place (i + 1) task here)
      obtain rfl : j = i := by omega
      exact Option.some.inj (there.symm.trans (place j earlier before))
    · rintro rfl
      obtain ⟨other, inside, same, edge⟩ := dependsOn_shape_iff.mp
        ((single.edges task.id earlier.id).mpr ⟨i, place i earlier before, place _ task here⟩)
      rwa [List.inj_on_of_nodup_map distinct inside member same] at edge
  exact List.perm_singleton.mp only

end Sorted

section Chain

variable {routed : RoutedPlan} {plan : SupervisorPlan} {chain : List RoutedTask}

/-- A task of a chain has no dependency, or depends on the task before it. -/
theorem IsChain.deps_cases (isChain : IsChain chain) {i : Nat} {task : RoutedTask}
    (here : chain[i]? = some task) : task.deps = [] ∧ i = 0 ∨
      ∃ (j : Nat) (earlier : RoutedTask), i = j + 1 ∧ chain[j]? = some earlier ∧
        task.deps = [earlier.id] := by
  cases i with
  | zero => exact .inl ⟨isChain.first task here, rfl⟩
  | succ j =>
      obtain ⟨inside, -⟩ := List.getElem?_eq_some_iff.mp here
      have before : chain[j]? = some chain[j] := List.getElem?_eq_getElem (by omega)
      exact .inr ⟨j, chain[j], rfl, before, isChain.next j chain[j] task before here⟩

theorem IsChain.known (isChain : IsChain chain) {task : RoutedTask} (member : task ∈ chain) :
    ∀ dep ∈ task.deps, dep ∈ chain.map RoutedTask.id := by
  obtain ⟨i, here⟩ := List.mem_iff_getElem?.mp member
  obtain ⟨none_, -⟩ | ⟨j, earlier, -, before, only⟩ := isChain.deps_cases here
  · rw [none_]
    exact fun dep edge => absurd edge List.not_mem_nil
  · rw [only]
    intro dep edge
    rw [List.mem_singleton.mp edge]
    exact List.mem_map_of_mem (List.mem_of_getElem? before)

/-- A chain passes the counts of the relay mapping. -/
theorem IsChain.checks (isChain : IsChain chain) (nonempty : chain ≠ [])
    (distinct : (chain.map RoutedTask.id).Nodup) : ChainChecks chain := by
  have single : ∀ task ∈ chain, task.deps.length ≤ 1 ∧ task.deps.Nodup := by
    intro task member
    obtain ⟨i, here⟩ := List.mem_iff_getElem?.mp member
    obtain ⟨none_, -⟩ | ⟨j, earlier, -, -, only⟩ := isChain.deps_cases here
    · simp [none_]
    · simp [only]
  refine ⟨fun task member => (single task member).1, ?_, ?_⟩
  · obtain ⟨root, rest, rfl⟩ := List.exists_cons_of_ne_nil nonempty
    have others : rest.filter (fun task => decide (task.deps = [])) = [] := by
      rw [List.filter_eq_nil_iff]
      intro task member
      obtain ⟨i, here⟩ := List.mem_iff_getElem?.mp member
      have behind : (root :: rest)[i + 1]? = some task := by rwa [List.getElem?_cons_succ]
      obtain ⟨-, start⟩ | ⟨j, earlier, -, -, only⟩ := isChain.deps_cases behind
      · omega
      · simp [only]
    rw [List.filter_cons_of_pos (by simpa using isChain.first root rfl), others]
    rfl
  · refine List.nodup_flatMap.mpr ⟨fun task member => (single task member).2, ?_⟩
    rw [List.pairwise_iff_getElem]
    intro i j inside within less
    change List.Disjoint chain[i].deps chain[j].deps
    intro dep first second
    obtain ⟨none_, -⟩ | ⟨k, a, rfl, before, only⟩ :=
      isChain.deps_cases (List.getElem?_eq_getElem inside)
    · rw [none_] at first
      cases first
    obtain ⟨none_, -⟩ | ⟨l, b, rfl, behind, only'⟩ :=
      isChain.deps_cases (List.getElem?_eq_getElem within)
    · rw [none_] at second
      cases second
    rw [only, List.mem_singleton] at first
    rw [only', List.mem_singleton] at second
    have places : ∀ (m : Nat) (task : RoutedTask), chain[m]? = some task → task.id = dep →
        (chain.map RoutedTask.id)[m]? = some dep := by
      intro m task here same
      rw [List.getElem?_map, here, ← same]
      rfl
    have short : k < (chain.map RoutedTask.id).length := by
      rw [List.length_map]
      omega
    have equal := (List.getElem?_inj short distinct).mp
      ((places k a before first.symm).trans (places l b behind second.symm).symm)
    omega

/-- The relay mapping of tasks that are sorted into a chain. -/
theorem relayPlan_of_isChain (sorted : topologicalOrder routed.tasks = .ok chain)
    (isChain : IsChain chain) (checks : ChainChecks chain) :
    relayPlan routed =
      .ok (.relay ((chain.head?.map RoutedTask.prompt).getD "") (chain.mapIdx relayStep)) := by
  have each : (forM chain (checkChainTask chain) : Except PlannerError Unit) = .ok () := by
    rw [forM_eq_ok_iff]
    intro task member
    refine check_bind_eq_ok_iff.mpr ⟨ensure_eq_ok_iff.mpr (checks.single task member), ?_⟩
    exact forM_eq_ok_iff.mpr fun dep edge => ensure_eq_ok_iff.mpr (isChain.known member dep edge)
  have targets : ∀ dep ∈ edgeTargets chain, (edgeTargets chain).count dep ≤ 1 :=
    fun dep _ => List.nodup_iff_count_le_one.mp checks.targets dep
  rw [relayPlan, bind_eq_ok_iff]
  refine ⟨chain, sorted, check_bind_eq_ok_iff.mpr ⟨each, ?_⟩⟩
  refine check_bind_eq_ok_iff.mpr ⟨ensure_eq_ok_iff.mpr checks.root, ?_⟩
  exact check_bind_eq_ok_iff.mpr ⟨ensure_eq_ok_iff.mpr targets, rfl⟩

/-- The dependencies of a chain are the steps of the path of its ids. -/
theorem IsChain.singlePath (isChain : IsChain chain) (nonempty : chain ≠ [])
    {tasks : List RoutedTask} (perm : chain.Perm tasks) :
    SinglePath (tasks.map RoutedTask.shape) (chain.map RoutedTask.id) := by
  refine ⟨by simpa using nonempty, ?_, ?_⟩
  · rw [shape_ids]
    exact perm.map RoutedTask.id
  · intro a b
    rw [dependsOn_shape_iff]
    constructor
    · rintro ⟨task, member, rfl, edge⟩
      obtain ⟨i, here⟩ := List.mem_iff_getElem?.mp (perm.mem_iff.mpr member)
      obtain ⟨none_, -⟩ | ⟨j, earlier, rfl, before, only⟩ := isChain.deps_cases here
      · rw [none_] at edge
        cases edge
      · rw [only, List.mem_singleton] at edge
        exact ⟨j, by rw [List.getElem?_map, before, edge]; rfl,
          by rw [List.getElem?_map, here]; rfl⟩
    · rintro ⟨i, before, here⟩
      rw [List.getElem?_map, Option.map_eq_some_iff] at before here
      obtain ⟨earlier, before, rfl⟩ := before
      obtain ⟨task, here, rfl⟩ := here
      refine ⟨task, perm.mem_iff.mp (List.mem_of_getElem? here), rfl, ?_⟩
      rw [isChain.next i earlier task before here]
      exact List.mem_cons_self

end Chain

/-- The relay mapping accepts the plans whose dependencies form a single path through all
tasks, and its steps are the tasks of that path, each behind the only one it depends on. -/
theorem relay_accepts_paths {routed : RoutedPlan}
    (distinct : (routed.tasks.map RoutedTask.id).Nodup)
    (once : ∀ task ∈ routed.tasks, task.deps.Nodup) :
    ((∃ plan, routedPlanToSupervisorPlan routed .relay = .ok plan) ↔
      ∃ path, SinglePath (routed.tasks.map RoutedTask.shape) path) ∧
    ∀ plan path, routedPlanToSupervisorPlan routed .relay = .ok plan →
      SinglePath (routed.tasks.map RoutedTask.shape) path →
      ∃ (first : RoutedTask) (rest : List RoutedTask), (first :: rest).Perm routed.tasks ∧
        (first :: rest).map RoutedTask.id = path ∧ IsChain (first :: rest) ∧
        plan = .relay first.prompt ((first :: rest).mapIdx relayStep) := by
  have accepted : ∀ plan, routedPlanToSupervisorPlan routed .relay = .ok plan →
      ∃ chain, chain ≠ [] ∧ chain.Perm routed.tasks ∧ DepsFirst chain ∧ IsChain chain ∧
        plan = .relay ((chain.head?.map RoutedTask.prompt).getD "") (chain.mapIdx relayStep) := by
    intro plan mapped
    rw [routedPlanToSupervisorPlan] at mapped
    split at mapped
    · cases mapped
    · rename_i nonempty
      obtain ⟨chain, sorted, checks, built⟩ := relayPlan_ok mapped
      obtain ⟨perm, depsFirst⟩ := topologicalOrder_ok distinct sorted
      refine ⟨chain, ?_, perm, depsFirst, checks.isChain depsFirst, built⟩
      rintro rfl
      exact nonempty perm.nil_eq.symm
  refine ⟨⟨?_, ?_⟩, ?_⟩
  · rintro ⟨plan, mapped⟩
    obtain ⟨chain, nonempty, perm, -, isChain, -⟩ := accepted plan mapped
    exact ⟨_, isChain.singlePath nonempty perm⟩
  · rintro ⟨path, single⟩
    obtain ⟨chain, sorted⟩ := single.sorted distinct
    obtain ⟨perm, depsFirst⟩ := topologicalOrder_ok distinct sorted
    have isChain := single.isChain distinct once perm depsFirst
    have nonempty : chain ≠ [] := by
      rintro rfl
      exact single.nonempty (single.ids_eq distinct perm depsFirst).symm
    have checks := isChain.checks nonempty ((perm.map RoutedTask.id).nodup_iff.mpr distinct)
    have built := relayPlan_of_isChain sorted isChain checks
    refine ⟨_, Eq.trans ?_ built⟩
    exact if_neg fun none_ => nonempty (none_ ▸ perm).eq_nil
  · intro plan path mapped single
    obtain ⟨chain, nonempty, perm, depsFirst, isChain, rfl⟩ := accepted plan mapped
    obtain ⟨first, rest, rfl⟩ := List.exists_cons_of_ne_nil nonempty
    exact ⟨first, rest, perm, single.ids_eq distinct perm depsFirst, isChain, rfl⟩

/-- A plan that names the last step first. -/
def reviewLeads : RoutedPlan where
  tasks := [⟨"review", "Review the draft", "critic", some ["draft"], none, none⟩,
    ⟨"outline", "Outline the text", "writer", none, none, none⟩,
    ⟨"draft", "Write the draft", "writer", some ["outline"], none, none⟩]
  assignments := []

theorem relay_accepts_paths_reviewLeads :
    routedPlanToSupervisorPlan reviewLeads .relay =
        .ok (.relay "Outline the text" [⟨"writer", none, none⟩,
          ⟨"writer", some "Write the draft", none⟩, ⟨"critic", some "Review the draft", none⟩]) ∧
      ∃ path, SinglePath (reviewLeads.tasks.map RoutedTask.shape) path := by
  have mapped : routedPlanToSupervisorPlan reviewLeads .relay =
      .ok (.relay "Outline the text" [⟨"writer", none, none⟩,
        ⟨"writer", some "Write the draft", none⟩, ⟨"critic", some "Review the draft", none⟩]) := by
    decide
  exact ⟨mapped, (relay_accepts_paths (by decide) (by decide)).1.mp ⟨_, mapped⟩⟩

end MultiAgent.Native
