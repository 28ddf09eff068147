import MultiAgent.Foundations.Saturation
import MultiAgent.Native.Planner.Routing
import Mathlib.Data.List.Nodup
import Mathlib.Data.List.Perm.Subperm

/-!
# The order of the routed tasks

What `topologicalOrder` returns is a permutation of the tasks in which every dependency
stands before its dependents. A plan that the relay mapping accepts is ordered into a
chain, in which each task but the first depends on the task before it and on nothing else.
-/

namespace MultiAgent.Native

def RoutedTask.deps (task : RoutedTask) : List String := task.dependsOn.getD []

/-- Every dependency of a task is the id of a task that stands before it. -/
def DepsFirst (order : List RoutedTask) : Prop :=
  ∀ i (task : RoutedTask), order[i]? = some task → ∀ dep ∈ task.deps,
    ∃ (j : Nat) (other : RoutedTask), j < i ∧ order[j]? = some other ∧ other.id = dep

section Order

variable {tasks order : List RoutedTask}

theorem pendingOf_id (distinct : (tasks.map RoutedTask.id).Nodup) {task : RoutedTask}
    (member : task ∈ tasks) : pendingOf tasks task.id = task.deps := by
  rw [pendingOf, Lookup.find?_reverse_eq_some distinct member, RoutedTask.deps]

theorem pendingOf_of_not_mem {id : String} (unknown : id ∉ tasks.map RoutedTask.id) :
    pendingOf tasks id = [] := by
  rw [pendingOf, Lookup.find?_reverse_eq_none unknown]

/-- What the inner loop of the sort looks for. -/
def Startable (tasks order : List RoutedTask) (task : RoutedTask) : Prop :=
  task.id ∉ order.map RoutedTask.id ∧
    ∀ dep ∈ pendingOf tasks task.id, dep ∈ order.map RoutedTask.id

instance (tasks order : List RoutedTask) (task : RoutedTask) :
    Decidable (Startable tasks order task) :=
  inferInstanceAs (Decidable (_ ∧ ∀ dep ∈ _, _))

theorem visitTask_eq : visitTask tasks = Saturation.turn (Startable tasks) id := by
  funext order task
  by_cases known : task.id ∈ order.map RoutedTask.id
  · rw [visitTask, if_pos known, Saturation.turn, if_neg fun startable => startable.1 known]
  · rw [visitTask, if_neg known, Saturation.turn]
    simp only [Startable, known, not_false_eq_true, true_and, id]

theorem orderPasses_grows (tasks : List RoutedTask) (fuel : Nat) (order : List RoutedTask) :
    Saturation.Grows (Startable tasks) id tasks order (orderPasses tasks fuel order) := by
  induction fuel generalizing order with
  | zero => exact .refl
  | succ fuel ih =>
      rw [orderPasses, visitTask_eq]
      split
      · exact .refl
      · dsimp only
        split
        · exact .refl
        · exact (Saturation.pass_grows (fun _ member => member) order).trans (ih _)

/-- The invariant of the sort. -/
structure Sorting (tasks order : List RoutedTask) : Prop where
  known : ∀ task ∈ order, task ∈ tasks
  distinct : (order.map RoutedTask.id).Nodup
  depsFirst : DepsFirst order

theorem Sorting.append (distinct : (tasks.map RoutedTask.id).Nodup) (sorting : Sorting tasks order)
    {task : RoutedTask} (member : task ∈ tasks) (startable : Startable tasks order task) :
    Sorting tasks (order ++ [task]) := by
  obtain ⟨fresh, before⟩ := startable
  refine ⟨?_, ?_, ?_⟩
  · exact List.forall_mem_append.mpr ⟨sorting.known, List.forall_mem_singleton.mpr member⟩
  · rw [List.map_append, List.nodup_append]
    refine ⟨sorting.distinct, by simp, ?_⟩
    rintro a known b new rfl
    rw [List.map_singleton, List.mem_singleton] at new
    exact fresh (new ▸ known)
  · intro i other here dep edge
    obtain inside | beyond := Nat.lt_or_ge i order.length
    · rw [List.getElem?_append_left inside] at here
      obtain ⟨j, earlier, less, found, same⟩ := sorting.depsFirst i other here dep edge
      exact ⟨j, earlier, less, by rwa [List.getElem?_append_left (by omega)], same⟩
    · have last : i = order.length ∧ task = other := by
        rw [List.getElem?_append_right beyond, List.getElem?_singleton] at here
        split at here
        · exact ⟨by omega, Option.some.inj here⟩
        · cases here
      obtain ⟨rfl, rfl⟩ := last
      rw [← pendingOf_id distinct member] at edge
      obtain ⟨earlier, known, same⟩ := List.mem_map.mp (before dep edge)
      obtain ⟨j, less, found⟩ := List.getElem_of_mem known
      refine ⟨j, earlier, less, ?_, same⟩
      rw [List.getElem?_append_left less, List.getElem?_eq_getElem less, found]

theorem topologicalOrder_ok (distinct : (tasks.map RoutedTask.id).Nodup)
    (sorted : topologicalOrder tasks = .ok order) : order.Perm tasks ∧ DepsFirst order := by
  unfold topologicalOrder at sorted
  dsimp only at sorted
  split at sorted
  · cases sorted
  · rename_i long
    cases sorted
    have sorting : Sorting tasks (orderPasses tasks (tasks.length + 1) []) := by
      refine (orderPasses_grows tasks _ []).invariant (fun order task so_far member startable =>
        so_far.append distinct member startable) ⟨by simp, by simp, ?_⟩
      intro i task here
      cases here
    refine ⟨?_, sorting.depsFirst⟩
    have inside := (List.Nodup.of_map _ sorting.distinct).subperm sorting.known
    exact inside.perm_of_length_le (by omega)

end Order

section Chain

variable {routed : RoutedPlan} {plan : SupervisorPlan} {chain : List RoutedTask}

/-- The first task has no dependency, and every other one depends on the task before it
and on nothing else. -/
structure IsChain (chain : List RoutedTask) : Prop where
  first : ∀ task, chain[0]? = some task → task.deps = []
  next : ∀ i (earlier task : RoutedTask), chain[i]? = some earlier →
    chain[i + 1]? = some task → task.deps = [earlier.id]

/-- What the checks of the relay mapping establish about the ordered tasks. -/
structure ChainChecks (chain : List RoutedTask) : Prop where
  single : ∀ task ∈ chain, task.deps.length ≤ 1
  root : (chain.filter fun task => decide (task.deps = [])).length = 1
  targets : (edgeTargets chain).Nodup

theorem sequentialPlan_ok (mapped : sequentialPlan routed = .ok plan) :
    ∃ order, topologicalOrder routed.tasks = .ok order ∧
      plan = .sequential (order.map fun task =>
        ⟨task.agentId, task.prompt, task.timeoutMs, task.metadata⟩) := by
  obtain ⟨order, sorted, built⟩ := bind_eq_ok_iff.mp mapped
  cases built
  exact ⟨order, sorted, rfl⟩

theorem broadcastPlan_ok (mapped : broadcastPlan routed = .ok plan) :
    (∀ task ∈ routed.tasks, task.deps = []) ∧ ∃ prompt,
      (∀ task ∈ routed.tasks, task.prompt = prompt) ∧
      plan = .broadcast prompt (routed.tasks.map fun task => ⟨task.agentId, task.timeoutMs⟩) := by
  rw [broadcastPlan] at mapped
  obtain ⟨one, checks⟩ := check_bind_eq_ok_iff.mp mapped
  obtain ⟨independent, checks⟩ := check_bind_eq_ok_iff.mp checks
  obtain ⟨-, built⟩ := check_bind_eq_ok_iff.mp checks
  cases built
  refine ⟨ensure_eq_ok_iff.mp independent, _, ?_, rfl⟩
  obtain ⟨prompt, only⟩ := List.length_eq_one_iff.mp (ensure_eq_ok_iff.mp one)
  have shared : ∀ task ∈ routed.tasks, task.prompt = prompt := by
    intro task member
    have listed : task.prompt ∈ (routed.tasks.map RoutedTask.prompt).dedup :=
      List.mem_dedup.mpr (List.mem_map_of_mem member)
    rwa [only, List.mem_singleton] at listed
  intro task member
  cases tasks : routed.tasks with
  | nil =>
      rw [tasks] at member
      cases member
  | cons first rest =>
      have head := shared first (tasks ▸ List.mem_cons_self)
      rw [shared task member, ← head]
      rfl

theorem relayPlan_ok (mapped : relayPlan routed = .ok plan) :
    ∃ chain, topologicalOrder routed.tasks = .ok chain ∧ ChainChecks chain ∧
      plan = .relay ((chain.head?.map RoutedTask.prompt).getD "") (chain.mapIdx relayStep) := by
  rw [relayPlan] at mapped
  obtain ⟨chain, sorted, checks⟩ := bind_eq_ok_iff.mp mapped
  obtain ⟨each, checks⟩ := check_bind_eq_ok_iff.mp checks
  obtain ⟨root, checks⟩ := check_bind_eq_ok_iff.mp checks
  obtain ⟨targets, built⟩ := check_bind_eq_ok_iff.mp checks
  cases built
  refine ⟨chain, sorted, ⟨?_, ensure_eq_ok_iff.mp root, ?_⟩, rfl⟩
  · intro task member
    obtain ⟨single, -⟩ := check_bind_eq_ok_iff.mp (forM_eq_ok_iff.mp each task member)
    exact ensure_eq_ok_iff.mp single
  · have once := ensure_eq_ok_iff.mp targets
    apply List.nodup_iff_count_le_one.mpr
    intro dep
    by_cases known : dep ∈ edgeTargets chain
    · exact once dep known
    · rw [List.count_eq_zero_of_not_mem known]
      omega

theorem DepsFirst.first (depsFirst : DepsFirst chain) {task : RoutedTask}
    (here : chain[0]? = some task) : task.deps = [] := by
  apply List.eq_nil_iff_forall_not_mem.mpr
  intro dep edge
  obtain ⟨j, -, less, -⟩ := depsFirst 0 task here dep edge
  exact Nat.not_lt_zero j less

/-- Only the first task is a root. -/
theorem ChainChecks.deps_ne_nil (checks : ChainChecks chain) (depsFirst : DepsFirst chain)
    {i : Nat} {task : RoutedTask} (here : chain[i + 1]? = some task) : task.deps ≠ [] := by
  cases chain with
  | nil => cases here
  | cons root rest =>
      have first : root.deps = [] := depsFirst.first rfl
      have alone := checks.root
      rw [List.filter_cons_of_pos (by simpa using first), List.length_cons,
        Nat.add_eq_right, List.length_eq_zero_iff] at alone
      have others := List.filter_eq_nil_iff.mp alone task (List.mem_of_getElem? here)
      simpa using others

/-- Two tasks at different places have no dependency in common. -/
theorem ChainChecks.apart (checks : ChainChecks chain) {i j : Nat} {a b : RoutedTask}
    (less : i < j) (left : chain[i]? = some a) (right : chain[j]? = some b) {dep : String}
    (first : dep ∈ a.deps) : dep ∉ b.deps := by
  obtain ⟨-, pairs⟩ := List.nodup_flatMap.mp checks.targets
  obtain ⟨inside, rfl⟩ := List.getElem?_eq_some_iff.mp left
  obtain ⟨within, rfl⟩ := List.getElem?_eq_some_iff.mp right
  exact List.pairwise_iff_getElem.mp pairs i j inside within less first

theorem ChainChecks.isChain (checks : ChainChecks chain) (depsFirst : DepsFirst chain) :
    IsChain chain := by
  refine ⟨fun task here => depsFirst.first here, ?_⟩
  intro i
  -- A dependency that stands further back is the one of an earlier task already.
  induction i using Nat.strongRecOn with
  | ind i ih =>
      intro earlier task before here
      obtain ⟨dep, only⟩ : ∃ dep, task.deps = [dep] := by
        have some := checks.deps_ne_nil depsFirst here
        have few := checks.single task (List.mem_of_getElem? here)
        exact List.length_eq_one_iff.mp (Nat.le_antisymm few (List.length_pos_of_ne_nil some))
      have edge : dep ∈ task.deps := by rw [only]; exact List.mem_cons_self
      obtain ⟨j, other, less, found, rfl⟩ := depsFirst (i + 1) task here dep edge
      obtain short | rfl : j < i ∨ j = i := by omega
      · obtain ⟨inside, -⟩ := List.getElem?_eq_some_iff.mp here
        have between : chain[j + 1]? = some chain[j + 1] := List.getElem?_eq_getElem (by omega)
        have taken := ih j short other _ found between
        have there : other.id ∈ chain[j + 1].deps := by rw [taken]; exact List.mem_cons_self
        exact absurd edge (checks.apart (by omega) between here there)
      · rw [before] at found
        cases found
        exact only

end Chain

end MultiAgent.Native
