import MultiAgent.Native.Planner.Dag
import MultiAgent.Native.Planner.Order

/-!
# Three searches for a cycle

The validator and the graph look for a cycle depth first, and `topologicalOrder` sorts until
no task is startable. Whatever records they read, they decide the same question about the ids
and dependencies of the tasks, and what the two searches report is a cycle.
-/

namespace MultiAgent.Native

open Relation

/-- What the three searches read of a task. -/
structure Shape where
  id : String
  dependsOn : List String

def PlanTask.shape (task : PlanTask) : Shape := ⟨task.id, task.dependsOn.getD []⟩

def Task.shape (task : Task) : Shape := ⟨task.id, task.dependsOn⟩

def RoutedTask.shape (task : RoutedTask) : Shape := ⟨task.id, task.deps⟩

/-- Distinct ids, dependencies among them, and no task that depends on itself. -/
structure Declared (shapes : List Shape) : Prop where
  distinct : (shapes.map Shape.id).Nodup
  known : ∀ shape ∈ shapes, ∀ dep ∈ shape.dependsOn, dep ∈ shapes.map Shape.id
  irreflexive : ∀ shape ∈ shapes, shape.id ∉ shape.dependsOn

/-- The task of id `a` lists `b` as a dependency. -/
def DependsOn (shapes : List Shape) (a b : String) : Prop :=
  ∃ shape ∈ shapes, shape.id = a ∧ b ∈ shape.dependsOn

/-- Some task depends on itself, through one or more others. -/
def Cyclic (shapes : List Shape) : Prop := ∃ id, TransGen (DependsOn shapes) id id

/-- A path that ends where it began, on which each element depends on the next. -/
structure GenuineCycle (shapes : List Shape) (path : List String) : Prop where
  long : 2 ≤ path.length
  closed : path.head? = path.getLast?
  chain : path.IsChain (DependsOn shapes)

/-- A lookup of dependencies by id that agrees with the shapes. -/
structure Reads (edges : String → List String) (shapes : List Shape) : Prop where
  listed : ∀ shape ∈ shapes, edges shape.id = shape.dependsOn
  unlisted : ∀ id, id ∉ shapes.map Shape.id → edges id = []

section Search

variable {shapes : List Shape} {edges : String → List String}

theorem Reads.eq (reads : Reads edges shapes) : (fun a b => b ∈ edges a) = DependsOn shapes := by
  funext a b
  apply propext
  constructor
  · intro edge
    by_cases known : a ∈ shapes.map Shape.id
    · obtain ⟨shape, member, rfl⟩ := List.mem_map.mp known
      exact ⟨shape, member, rfl, reads.listed shape member ▸ edge⟩
    · rw [reads.unlisted a known] at edge
      cases edge
  · rintro ⟨shape, member, rfl, edge⟩
    rwa [reads.listed shape member]

theorem Reads.cyclic_iff (reads : Reads edges shapes) :
    DepthFirst.Cyclic edges ↔ Cyclic shapes := by
  rw [DepthFirst.Cyclic, reads.eq, Cyclic]

theorem Reads.findCycle_isSome_iff (reads : Reads edges shapes) (declared : Declared shapes) :
    (DepthFirst.findCycle edges (shapes.map Shape.id)).isSome ↔ Cyclic shapes := by
  rw [← reads.cyclic_iff]
  apply DepthFirst.findCycle_isSome_iff
  intro a b edge
  have depends : DependsOn shapes a b := reads.eq ▸ edge
  obtain ⟨shape, member, rfl, dep⟩ := depends
  refine ⟨List.mem_map_of_mem member, declared.known shape member b dep, ?_⟩
  rintro rfl
  exact declared.irreflexive shape member dep

theorem Reads.genuine (reads : Reads edges shapes) {path : List String}
    (found : DepthFirst.findCycle edges (shapes.map Shape.id) = some path) :
    GenuineCycle shapes path := by
  obtain ⟨long, closed, chain⟩ := DepthFirst.findCycle_closed found
  rw [reads.eq] at chain
  exact ⟨long, closed, chain⟩

theorem PlanValidator.reads {tasks : List PlanTask}
    (distinct : (tasks.map PlanTask.id).Nodup) :
    Reads (dependsOnOf tasks) (tasks.map PlanTask.shape) := by
  constructor
  · intro shape member
    obtain ⟨task, planned, rfl⟩ := List.mem_map.mp member
    exact dependsOnOf_id distinct planned
  · intro id unknown
    rw [List.map_map] at unknown
    exact dependsOnOf_of_not_mem unknown

theorem PlanValidator.findCycle_ne_nil_iff {tasks : List PlanTask}
    (declared : Declared (tasks.map PlanTask.shape)) :
    findCycle tasks ≠ [] ↔ Cyclic (tasks.map PlanTask.shape) := by
  have distinct : (tasks.map PlanTask.id).Nodup := by
    have distinct := declared.distinct
    rwa [List.map_map] at distinct
  have reported := (PlanValidator.reads distinct).findCycle_isSome_iff declared
  rw [List.map_map] at reported
  rw [← reported, findCycle]
  change (DepthFirst.findCycle (dependsOnOf tasks) (tasks.map PlanTask.id)).getD [] ≠ [] ↔
    (DepthFirst.findCycle (dependsOnOf tasks) (tasks.map PlanTask.id)).isSome = true
  cases found : DepthFirst.findCycle (dependsOnOf tasks) (tasks.map PlanTask.id) with
  | none => simp
  | some path => simpa using (DepthFirst.findCycle_closed found).ne_nil

theorem TaskGraph.reads (graph : TaskGraph) :
    Reads graph.dependsOn (graph.tasks.map Task.shape) := by
  constructor
  · intro shape member
    obtain ⟨task, planned, rfl⟩ := List.mem_map.mp member
    exact dependsOn_id planned
  · intro id unknown
    rw [List.map_map] at unknown
    exact dependsOn_of_not_mem unknown

end Search

section Sorted

variable {tasks order : List RoutedTask}

/-- The sort ends with all tasks in order, or with none that is startable. -/
theorem orderPasses_ends {fuel : Nat} (enough : tasks.length < fuel + order.length) :
    tasks.length ≤ (orderPasses tasks fuel order).length ∨
      ∀ task ∈ tasks, ¬ Startable tasks (orderPasses tasks fuel order) task := by
  induction fuel generalizing order with
  | zero =>
      rw [orderPasses]
      omega
  | succ fuel ih =>
      rw [orderPasses, visitTask_eq]
      split
      · exact .inl ‹_›
      · dsimp only
        split
        · rename_i same
          exact .inr (Saturation.not_admits_of_pass same)
        · have grown : Saturation.Grows (Startable tasks) id tasks order
              (tasks.foldl (Saturation.turn (Startable tasks) id) order) :=
            Saturation.pass_grows (fun _ member => member) order
          have longer := grown.keeps.length_le
          exact ih (by omega)

/-- Where no task is startable, all tasks of a declared and ranked list are in order. -/
theorem ids_subset_of_not_startable (declared : Declared (tasks.map RoutedTask.shape))
    {rank : String → Nat} (descends : ∀ task ∈ tasks, ∀ dep ∈ task.deps, rank dep < rank task.id)
    (stalled : ∀ task ∈ tasks, ¬ Startable tasks order task) :
    ∀ task ∈ tasks, task.id ∈ order.map RoutedTask.id := by
  have distinct : (tasks.map RoutedTask.id).Nodup := by
    have distinct := declared.distinct
    rwa [List.map_map] at distinct
  have below : ∀ n, ∀ task ∈ tasks, rank task.id = n → task.id ∈ order.map RoutedTask.id := by
    intro n
    induction n using Nat.strongRecOn with
    | ind n ih =>
        rintro task member rfl
        by_contra absent
        apply stalled task member
        refine ⟨absent, ?_⟩
        intro dep edge
        rw [pendingOf_id distinct member] at edge
        have known := declared.known task.shape (List.mem_map_of_mem member) dep edge
        rw [List.map_map] at known
        obtain ⟨other, planned, rfl⟩ := List.mem_map.mp known
        exact ih _ (descends task member _ edge) other planned rfl
  intro task member
  exact below _ task member rfl

theorem topologicalOrder_eq_ok_of_rank (declared : Declared (tasks.map RoutedTask.shape))
    {rank : String → Nat} (descends : ∀ task ∈ tasks, ∀ dep ∈ task.deps, rank dep < rank task.id) :
    ∃ order, topologicalOrder tasks = .ok order := by
  have all : tasks.length ≤ (orderPasses tasks (tasks.length + 1) []).length := by
    have enough : tasks.length < tasks.length + 1 + ([] : List RoutedTask).length := by
      rw [List.length_nil]
      omega
    obtain full | stalled := orderPasses_ends enough
    · exact full
    · have ordered := ids_subset_of_not_startable declared descends stalled
      have inside : tasks.map RoutedTask.id ⊆
          (orderPasses tasks (tasks.length + 1) []).map RoutedTask.id := by
        intro id known
        obtain ⟨task, member, rfl⟩ := List.mem_map.mp known
        exact ordered task member
      have distinct := declared.distinct
      rw [List.map_map] at distinct
      have short := (List.Nodup.subperm distinct inside).length_le
      rwa [List.length_map, List.length_map] at short
  refine ⟨orderPasses tasks (tasks.length + 1) [], ?_⟩
  rw [topologicalOrder]
  exact if_neg (Nat.not_lt.mpr all)

/-- The places in an order descend along the dependencies. -/
theorem DepsFirst.idxOf_lt (depsFirst : DepsFirst order)
    (distinct : (order.map RoutedTask.id).Nodup) {task : RoutedTask} (member : task ∈ order)
    {dep : String} (edge : dep ∈ task.deps) :
    (order.map RoutedTask.id).idxOf dep < (order.map RoutedTask.id).idxOf task.id := by
  have place : ∀ i (other : RoutedTask), order[i]? = some other →
      (order.map RoutedTask.id).idxOf other.id = i := by
    intro i other here
    obtain ⟨inside, rfl⟩ := List.getElem?_eq_some_iff.mp here
    have within : i < (order.map RoutedTask.id).length := by rwa [List.length_map]
    have same := distinct.idxOf_getElem i within
    rwa [List.getElem_map] at same
  obtain ⟨i, here⟩ := List.mem_iff_getElem?.mp member
  obtain ⟨j, other, less, there, rfl⟩ := depsFirst i task here dep edge
  rw [place i task here, place j other there]
  exact less

theorem pendingOf_reads (distinct : (tasks.map RoutedTask.id).Nodup) :
    Reads (pendingOf tasks) (tasks.map RoutedTask.shape) := by
  constructor
  · intro shape member
    obtain ⟨task, routed, rfl⟩ := List.mem_map.mp member
    exact pendingOf_id distinct routed
  · intro id unknown
    rw [List.map_map] at unknown
    exact pendingOf_of_not_mem unknown

theorem topologicalOrder_eq_error_iff (declared : Declared (tasks.map RoutedTask.shape)) :
    (∃ error, topologicalOrder tasks = .error error) ↔ Cyclic (tasks.map RoutedTask.shape) := by
  have distinct : (tasks.map RoutedTask.id).Nodup := by
    have distinct := declared.distinct
    rwa [List.map_map] at distinct
  have reads := pendingOf_reads distinct
  constructor
  · rintro ⟨error, stalled⟩
    rw [← reads.findCycle_isSome_iff declared]
    by_contra silent
    rw [Option.not_isSome_iff_eq_none] at silent
    obtain ⟨rank, descends⟩ := DepthFirst.rank_of_findCycle_eq_none silent
    have ranked : ∀ task ∈ tasks, ∀ dep ∈ task.deps, rank dep < rank task.id := by
      intro task member dep edge
      have listed : task.shape ∈ tasks.map RoutedTask.shape := List.mem_map_of_mem member
      have known := declared.known task.shape listed dep edge
      have descent := descends task.id (List.mem_map_of_mem listed) dep
        ((pendingOf_id distinct member).symm ▸ edge) known
      refine descent.resolve_left ?_
      rintro rfl
      exact declared.irreflexive task.shape listed edge
    obtain ⟨order, sorted⟩ := topologicalOrder_eq_ok_of_rank declared ranked
    rw [sorted] at stalled
    cases stalled
  · intro cyclic
    cases sorted : topologicalOrder tasks with
    | error error => exact ⟨error, rfl⟩
    | ok order =>
        obtain ⟨perm, depsFirst⟩ := topologicalOrder_ok distinct sorted
        have once : (order.map RoutedTask.id).Nodup :=
          (perm.map RoutedTask.id).nodup_iff.mpr distinct
        refine absurd (reads.cyclic_iff.mpr cyclic)
          (@DepthFirst.not_cyclic_of_rank _ _ (order.map RoutedTask.id).idxOf ?_)
        intro a b edge
        have depends : DependsOn (tasks.map RoutedTask.shape) a b := reads.eq ▸ edge
        obtain ⟨shape, member, rfl, dep⟩ := depends
        obtain ⟨task, routed, rfl⟩ := List.mem_map.mp member
        exact depsFirst.idxOf_lt once (perm.mem_iff.mpr routed) dep

end Sorted

/-- The validator, the graph and the sort agree on whether the tasks depend on each other in
a cycle, and the paths that the first two report are cycles. -/
theorem cycle_detection_agrees {shapes : List Shape} (declared : Declared shapes)
    {tasks : List PlanTask} {graph : TaskGraph} {routed : List RoutedTask}
    (planned : tasks.map PlanTask.shape = shapes) (built : graph.tasks.map Task.shape = shapes)
    (given : routed.map RoutedTask.shape = shapes) :
    (PlanValidator.findCycle tasks ≠ [] ↔ Cyclic shapes) ∧
      (graph.findCycle.isSome ↔ Cyclic shapes) ∧
      ((∃ error, topologicalOrder routed = .error error) ↔ Cyclic shapes) ∧
      (PlanValidator.findCycle tasks ≠ [] → GenuineCycle shapes (PlanValidator.findCycle tasks)) ∧
      ∀ path, graph.findCycle = some path → GenuineCycle shapes path := by
  have ids : shapes.map Shape.id = tasks.map PlanTask.id := by
    rw [← planned, List.map_map]
    rfl
  have keys : shapes.map Shape.id = graph.ids := by
    rw [← built, List.map_map]
    rfl
  have validator : Reads (PlanValidator.dependsOnOf tasks) shapes := by
    have distinct := declared.distinct
    rw [ids] at distinct
    exact planned ▸ PlanValidator.reads distinct
  have dag : Reads graph.dependsOn shapes := built ▸ graph.reads
  refine ⟨?_, ?_, ?_, ?_, ?_⟩
  · subst planned
    exact PlanValidator.findCycle_ne_nil_iff declared
  · have reported := dag.findCycle_isSome_iff declared
    rwa [keys] at reported
  · subst given
    exact topologicalOrder_eq_error_iff declared
  · intro reported
    rw [PlanValidator.findCycle] at reported ⊢
    cases found : DepthFirst.findCycle (PlanValidator.dependsOnOf tasks)
        (tasks.map PlanTask.id) with
    | none => simp [found] at reported
    | some path => exact validator.genuine (ids ▸ found)
  · intro path found
    exact dag.genuine (keys ▸ found)

/-- Two tasks that wait for each other behind a third. -/
def tangled : List Shape := [⟨"report", ["draft"]⟩, ⟨"draft", ["review"]⟩, ⟨"review", ["draft"]⟩]

theorem cycle_detection_agrees_tangled :
    ∃ (tasks : List PlanTask) (graph : TaskGraph) (routed : List RoutedTask),
      tasks.map PlanTask.shape = tangled ∧ graph.tasks.map Task.shape = tangled ∧
      routed.map RoutedTask.shape = tangled ∧
      GenuineCycle tangled (PlanValidator.findCycle tasks) ∧ graph.findCycle.isSome ∧
      ∃ error, topologicalOrder routed = .error error := by
  have declared : Declared tangled := ⟨by decide, by decide, by decide⟩
  have cyclic : Cyclic tangled := by
    refine ⟨"draft", .tail (.single ⟨⟨"draft", ["review"]⟩, ?_, rfl, ?_⟩)
      ⟨⟨"review", ["draft"]⟩, ?_, rfl, ?_⟩⟩
    all_goals simp [tangled]
  let tasks := tangled.map fun shape : Shape =>
    (⟨shape.id, "work", none, none, some shape.dependsOn, none, none⟩ : PlanTask)
  let routed := tangled.map fun shape : Shape =>
    (⟨shape.id, "work", "writer", some shape.dependsOn, none, none⟩ : RoutedTask)
  let graph : TaskGraph :=
    ⟨tangled.map fun shape => ⟨shape.id, "writer", "work", shape.dependsOn, none⟩, by decide⟩
  obtain ⟨validator, dag, sort, genuine, -⟩ :=
    @cycle_detection_agrees tangled declared tasks graph routed rfl rfl rfl
  exact ⟨tasks, graph, routed, rfl, rfl, rfl, genuine (validator.mpr cyclic), dag.mpr cyclic,
    sort.mpr cyclic⟩

end MultiAgent.Native
