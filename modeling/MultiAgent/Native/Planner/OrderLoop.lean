import MultiAgent.Foundations.Dict
import MultiAgent.Native.Planner.Cycles

/-!
# The loop of the sort

The loop of `topologicalOrder` statement by statement: it takes the ids that are done out of
the sets in `pending` and goes on while a pass makes progress. It computes what
`topologicalOrder` does with the sets as they were given.
-/

namespace MultiAgent.Native

/-- The variables of the loop of `topologicalOrder`. -/
structure OrderLoop where
  pending : Dict String (List String)
  order : List RoutedTask
  done : List String
  progressed : Bool

namespace OrderLoop

def start (tasks : List RoutedTask) : OrderLoop where
  pending := tasks.foldl (fun map task => map.set task.id task.deps.dedup) .empty
  order := []
  done := []
  progressed := true

/-- The loop over a copy of `deps` that deletes what is done. -/
def deleteDone (done deps : List String) : List String :=
  deps.foldl (fun left dep => if dep ∈ done then left.erase dep else left) deps

/-- The body of the loop over the tasks; every task has its entry in `pending`. -/
def visit (s : OrderLoop) (task : RoutedTask) : OrderLoop :=
  if task.id ∈ s.done then s
  else
    let deps := deleteDone s.done ((s.pending.get? task.id).getD [])
    let pending := s.pending.set task.id deps
    if deps = [] then ⟨pending, s.order ++ [task], s.done ++ [task.id], true⟩
    else { s with pending }

/-- The body of the outer loop. -/
def pass (tasks : List RoutedTask) (s : OrderLoop) : OrderLoop :=
  tasks.foldl visit { s with progressed := false }

/-- The condition of the outer loop. -/
def continues (tasks : List RoutedTask) (s : OrderLoop) : Bool :=
  decide (s.order.length < tasks.length) && s.progressed

/-- The outer loop. -/
def passes (tasks : List RoutedTask) : Nat → OrderLoop → OrderLoop
  | 0, s => s
  | fuel + 1, s => if s.continues tasks then passes tasks fuel (s.pass tasks) else s

def topologicalOrder (tasks : List RoutedTask) : Except PlannerError (List RoutedTask) :=
  let order := (passes tasks (tasks.length + 1) (start tasks)).order
  if order.length < tasks.length then
    .error (.integration "plan is not a DAG (topological sort stalled)")
  else .ok order

section Delete

variable {done deps left : List String}

theorem foldl_erase (distinct : left.Nodup) :
    deps.foldl (fun left dep => if dep ∈ done then left.erase dep else left) left =
      left.filter fun dep => decide (dep ∈ deps → dep ∉ done) := by
  induction deps generalizing left with
  | nil => simp
  | cons dep deps ih =>
      rw [List.foldl_cons]
      split
      next finished =>
        rw [ih (distinct.erase dep), distinct.erase_eq_filter, List.filter_filter]
        refine List.filter_congr fun other _ => ?_
        by_cases same : other = dep
        · simp [same, finished]
        · simp [same]
      next waiting =>
        rw [ih distinct]
        refine List.filter_congr fun other _ => ?_
        by_cases same : other = dep
        · simp [same, waiting]
        · simp [same]

theorem deleteDone_eq (distinct : deps.Nodup) :
    deleteDone done deps = deps.filter fun dep => decide (dep ∉ done) := by
  rw [deleteDone, foldl_erase distinct]
  refine List.filter_congr fun dep member => ?_
  simp [member]

end Delete

/-- What is left of an entry of `pending` against the entry as it was given. -/
structure Left (done given left : List String) : Prop where
  distinct : left.Nodup
  listed : ∀ dep ∈ left, dep ∈ given
  taken : ∀ dep ∈ given, dep ∉ left → dep ∈ done

/-- The variables of the loop against the order so far. -/
structure Agrees (tasks : List RoutedTask) (s : OrderLoop) : Prop where
  done : s.done = s.order.map RoutedTask.id
  entry : ∀ task ∈ tasks, ∃ left, s.pending.get? task.id = some left ∧
    Left s.done (pendingOf tasks task.id) left

section Loop

variable {tasks rest : List RoutedTask} {s : OrderLoop} {task : RoutedTask}
  {done more given left : List String}

theorem Left.mono (kept : Left done given left) (grown : ∀ dep ∈ done, dep ∈ more) :
    Left more given left :=
  ⟨kept.distinct, kept.listed, fun dep edge gone => grown dep (kept.taken dep edge gone)⟩

theorem Left.deleteDone (kept : Left done given left) :
    Left done given (deleteDone done left) := by
  rw [deleteDone_eq kept.distinct]
  refine ⟨kept.distinct.filter _, fun dep member => kept.listed dep (List.mem_of_mem_filter member),
    fun dep edge gone => ?_⟩
  by_cases remains : dep ∈ left
  · by_contra waiting
    exact gone (List.mem_filter.mpr ⟨remains, decide_eq_true waiting⟩)
  · exact kept.taken dep edge remains

/-- The entry has been emptied exactly when all that was given is done. -/
theorem Left.deleteDone_eq_nil_iff (kept : Left done given left) :
    OrderLoop.deleteDone done left = [] ↔ ∀ dep ∈ given, dep ∈ done := by
  rw [deleteDone_eq kept.distinct, List.filter_eq_nil_iff]
  constructor
  · intro emptied dep edge
    by_cases remains : dep ∈ left
    · simpa using emptied dep remains
    · exact kept.taken dep edge remains
  · intro finished dep remains
    simpa using finished dep (kept.listed dep remains)

theorem get?_foldl_set (map : Dict String (List String)) (id : String) :
    (tasks.foldl (fun map task => map.set task.id task.deps.dedup) map).get? id =
      ((tasks.reverse.find? fun task => task.id = id).map fun task => task.deps.dedup).or
        (map.get? id) := by
  induction tasks generalizing map with
  | nil => rfl
  | cons task tasks ih =>
      rw [List.foldl_cons, ih, List.reverse_cons, List.find?_append, Dict.get?_set]
      cases tasks.reverse.find? fun task => task.id = id with
      | some later => rfl
      | none =>
          by_cases same : task.id = id
          · simp [same]
          · simp [same, Ne.symm same]

theorem agrees_start (tasks : List RoutedTask) : Agrees tasks (start tasks) := by
  refine ⟨rfl, fun task member => ?_⟩
  obtain ⟨last, found, -⟩ :=
    Lookup.exists_find? RoutedTask.id (List.mem_reverse.mpr member) (rfl : task.id = task.id)
  refine ⟨last.deps.dedup, ?_, List.nodup_dedup _, fun dep remains => ?_, fun dep edge gone => ?_⟩
  · rw [start, get?_foldl_set, found]
    rfl
  · rw [pendingOf, found]
    exact List.mem_dedup.mp remains
  · rw [pendingOf, found] at edge
    exact absurd (List.mem_dedup.mpr edge) gone

/-- Deleting from the entry of one task keeps the entries of all. -/
theorem Agrees.entry_set (agrees : Agrees tasks s)
    (kept : Left s.done (pendingOf tasks task.id) left)
    (grown : ∀ dep ∈ s.done, dep ∈ more) {other : RoutedTask} (member : other ∈ tasks) :
    ∃ rest, (s.pending.set task.id (deleteDone s.done left)).get? other.id = some rest ∧
      Left more (pendingOf tasks other.id) rest := by
  by_cases same : other.id = task.id
  · refine ⟨deleteDone s.done left, ?_, ?_⟩
    · rw [same, Dict.get?_set_self]
    · rw [same]
      exact kept.deleteDone.mono grown
  · obtain ⟨rest, stored, entry⟩ := agrees.entry other member
    refine ⟨rest, ?_, entry.mono grown⟩
    rw [Dict.get?_set_of_ne same, stored]

/-- A turn of the inner loop keeps the variables in agreement, and takes the task when the
turn on the sets as they were given does. -/
theorem Agrees.visit (agrees : Agrees tasks s) (member : task ∈ tasks) :
    Agrees tasks (s.visit task) ∧ (s.visit task).order = visitTask tasks s.order task ∧
      ((s.visit task).progressed = true ↔
        s.progressed = true ∨ s.order.length < (s.visit task).order.length) := by
  obtain ⟨left, found, kept⟩ := agrees.entry task member
  have emptied := kept.deleteDone_eq_nil_iff
  rw [OrderLoop.visit, visitTask, found, Option.getD_some, ← agrees.done]
  by_cases finished : task.id ∈ s.done
  · rw [if_pos finished, if_pos finished]
    exact ⟨agrees, rfl, by simp⟩
  · rw [if_neg finished, if_neg finished]
    dsimp only
    by_cases ready : deleteDone s.done left = []
    · rw [if_pos ready, if_pos (emptied.mp ready)]
      refine ⟨⟨?_, fun other listed => ?_⟩, rfl, by simp⟩
      · rw [agrees.done, List.map_append, List.map_singleton]
      · exact agrees.entry_set kept (fun dep known => List.mem_append_left _ known) listed
    · rw [if_neg ready, if_neg fun all => ready (emptied.mpr all)]
      refine ⟨⟨agrees.done, fun other listed => ?_⟩, rfl, by simp⟩
      exact agrees.entry_set kept (fun dep known => known) listed

theorem Agrees.foldl (agrees : Agrees tasks s) (within : ∀ task ∈ rest, task ∈ tasks) :
    Agrees tasks (rest.foldl OrderLoop.visit s) ∧
      (rest.foldl OrderLoop.visit s).order = rest.foldl (visitTask tasks) s.order ∧
      s.order.length ≤ (rest.foldl OrderLoop.visit s).order.length ∧
      ((rest.foldl OrderLoop.visit s).progressed = true ↔ s.progressed = true ∨
        s.order.length < (rest.foldl OrderLoop.visit s).order.length) := by
  induction rest generalizing s with
  | nil => exact ⟨agrees, rfl, Nat.le_refl _, by simp⟩
  | cons task rest ih =>
      obtain ⟨member, within⟩ := List.forall_mem_cons.mp within
      obtain ⟨kept, taken, progress⟩ := agrees.visit member
      obtain ⟨ends, order, longer, progressed⟩ := ih kept within
      have grows : s.order.length ≤ (s.visit task).order.length := by
        rw [taken, visitTask_eq]
        exact (Saturation.turn_grows member).keeps.length_le
      rw [List.foldl_cons, List.foldl_cons, ← taken]
      refine ⟨ends, order, grows.trans longer, ?_⟩
      rw [progressed, progress, or_assoc]
      refine or_congr Iff.rfl ?_
      omega

/-- A pass is one over the sets as they were given, and progresses when it makes the order
longer. -/
theorem Agrees.pass (agrees : Agrees tasks s) :
    Agrees tasks (s.pass tasks) ∧
      (s.pass tasks).order = tasks.foldl (visitTask tasks) s.order ∧
      ((s.pass tasks).progressed = true ↔ s.order.length < (s.pass tasks).order.length) := by
  have fresh : Agrees tasks { s with progressed := false } := ⟨agrees.done, agrees.entry⟩
  obtain ⟨ends, order, -, progressed⟩ := fresh.foldl fun _ member => member
  refine ⟨ends, order, ?_⟩
  rw [OrderLoop.pass, progressed]
  simp

theorem passes_of_stopped {fuel : Nat} (stopped : s.continues tasks = false) :
    passes tasks fuel s = s := by
  cases fuel with
  | zero => rfl
  | succ fuel => rw [passes, stopped, if_neg Bool.false_ne_true]

theorem passes_order {fuel : Nat} (agrees : Agrees tasks s) (progressed : s.progressed = true) :
    (passes tasks fuel s).order = orderPasses tasks fuel s.order := by
  induction fuel generalizing s with
  | zero => rfl
  | succ fuel ih =>
      obtain ⟨ends, order, progress⟩ := agrees.pass
      have longer : s.order <+: (s.pass tasks).order := by
        rw [order, visitTask_eq]
        exact (Saturation.pass_grows (fun _ member => member) s.order).keeps
      rw [passes, orderPasses, continues, progressed, Bool.and_true]
      by_cases full : tasks.length ≤ s.order.length
      · rw [if_pos full, if_neg (by simpa using full)]
      · rw [if_neg full, if_pos (by simpa using full), ← order]
        dsimp only
        split
        next same =>
          -- A pass that takes no task is the last one.
          have stopped : (s.pass tasks).continues tasks = false := by
            rw [continues, Bool.and_eq_false_iff]
            right
            rw [Bool.eq_false_iff, ne_eq, progress, same]
            exact Nat.lt_irrefl _
          rw [passes_of_stopped stopped, longer.eq_of_length same.symm]
        next grown =>
          exact ih ends (progress.mpr (Nat.lt_of_le_of_ne longer.length_le (Ne.symm grown)))

/-- The loop is left by its own condition: there is enough fuel. -/
theorem passes_ends {fuel : Nat} (agrees : Agrees tasks s)
    (enough : tasks.length < fuel + s.order.length) :
    (passes tasks fuel s).continues tasks = false := by
  induction fuel generalizing s with
  | zero =>
      rw [passes, continues, Bool.and_eq_false_iff]
      exact .inl (decide_eq_false (by omega))
  | succ fuel ih =>
      rw [passes]
      split
      next goes =>
        obtain ⟨ends, -, progress⟩ := agrees.pass
        by_cases progressed : (s.pass tasks).progressed = true
        · have longer := progress.mp progressed
          exact ih ends (by omega)
        · have stopped : (s.pass tasks).continues tasks = false := by
            rw [continues, Bool.eq_false_iff.mpr progressed, Bool.and_false]
          rw [passes_of_stopped stopped, stopped]
      next stops => exact Bool.eq_false_iff.mpr stops

/-- The loop computes the order that the sets as they were given determine. -/
theorem topologicalOrder_eq (tasks : List RoutedTask) :
    topologicalOrder tasks = MultiAgent.Native.topologicalOrder tasks := by
  rw [topologicalOrder, MultiAgent.Native.topologicalOrder,
    passes_order (agrees_start tasks) rfl]
  rfl

end Loop

section Sorted

variable {tasks before rest order : List RoutedTask}

/-- A pass over a sorted list takes each task in its turn. -/
theorem foldl_visitTask_of_depsFirst (distinct : (tasks.map RoutedTask.id).Nodup)
    (depsFirst : DepsFirst tasks) (split : tasks = before ++ rest) :
    rest.foldl (visitTask tasks) before = tasks := by
  induction rest generalizing before with
  | nil => rw [List.foldl_nil, split, List.append_nil]
  | cons task rest ih =>
      have here : tasks[before.length]? = some task := by
        rw [split, List.getElem?_append_right (Nat.le_refl _), Nat.sub_self,
          List.getElem?_cons_zero]
      have fresh : task.id ∉ before.map RoutedTask.id := by
        rw [split, List.map_append, List.map_cons, List.nodup_append] at distinct
        intro known
        exact distinct.2.2 task.id known task.id List.mem_cons_self rfl
      have ready : ∀ dep ∈ pendingOf tasks task.id, dep ∈ before.map RoutedTask.id := by
        intro dep edge
        rw [pendingOf_id distinct (List.mem_of_getElem? here)] at edge
        obtain ⟨j, other, less, there, rfl⟩ := depsFirst before.length task here dep edge
        rw [split, List.getElem?_append_left less] at there
        exact List.mem_map_of_mem (List.mem_of_getElem? there)
      rw [List.foldl_cons, visitTask, if_neg fresh, if_pos ready]
      apply ih
      rw [split, List.append_assoc, List.singleton_append]

theorem topologicalOrder_of_depsFirst (distinct : (tasks.map RoutedTask.id).Nodup)
    (depsFirst : DepsFirst tasks) : MultiAgent.Native.topologicalOrder tasks = .ok tasks := by
  have taken : orderPasses tasks (tasks.length + 1) [] = tasks := by
    have whole := foldl_visitTask_of_depsFirst distinct depsFirst (List.nil_append tasks).symm
    rw [orderPasses, whole]
    dsimp only
    split
    next none_ => exact (List.length_eq_zero_iff.mp (Nat.le_zero.mp none_)).symm
    next some_ =>
      split
      next same => exact absurd (Nat.le_of_eq same) some_
      next grown =>
        cases tasks with
        | nil => rfl
        | cons task tasks => rw [List.length_cons, orderPasses, if_pos (Nat.le_refl _)]
  rw [MultiAgent.Native.topologicalOrder, taken]
  exact if_neg (Nat.lt_irrefl _)

/-- The tasks without a cycle are sorted exactly when they wait for each other only. -/
theorem topologicalOrder_ok_iff_known (distinct : (tasks.map RoutedTask.id).Nodup)
    (acyclic : ¬ Cyclic (tasks.map RoutedTask.shape)) :
    (∃ order, MultiAgent.Native.topologicalOrder tasks = .ok order) ↔
      ∀ task ∈ tasks, ∀ dep ∈ task.deps, dep ∈ tasks.map RoutedTask.id := by
  constructor
  · rintro ⟨order, sorted⟩ task member dep edge
    obtain ⟨perm, depsFirst⟩ := topologicalOrder_ok distinct sorted
    obtain ⟨i, here⟩ := List.mem_iff_getElem?.mp (perm.mem_iff.mpr member)
    obtain ⟨j, other, -, there, rfl⟩ := depsFirst i task here dep edge
    exact List.mem_map_of_mem (perm.mem_iff.mp (List.mem_of_getElem? there))
  · intro known
    have declared : Declared (tasks.map RoutedTask.shape) := by
      refine ⟨by rwa [List.map_map], ?_, ?_⟩
      · intro shape member dep edge
        obtain ⟨task, routed, rfl⟩ := List.mem_map.mp member
        rw [List.map_map]
        exact known task routed dep edge
      · intro shape member edge
        exact acyclic ⟨shape.id, .single ⟨shape, member, rfl, edge⟩⟩
    cases sorted : MultiAgent.Native.topologicalOrder tasks with
    | ok order => exact ⟨order, rfl⟩
    | error error =>
        exact absurd ((topologicalOrder_eq_error_iff declared).mp ⟨error, sorted⟩) acyclic

/-- The sort of tasks without a cycle. It stalls only at a dependency that is not the id of a
task; what it returns is a permutation with the dependencies first; and a list that is sorted
already is returned as it is. -/
theorem topologicalOrder_sorts (distinct : (tasks.map RoutedTask.id).Nodup)
    (acyclic : ¬ Cyclic (tasks.map RoutedTask.shape)) :
    ((∃ order, topologicalOrder tasks = .ok order) ↔
        ∀ task ∈ tasks, ∀ dep ∈ task.deps, dep ∈ tasks.map RoutedTask.id) ∧
      (∀ order, topologicalOrder tasks = .ok order → order.Perm tasks ∧ DepsFirst order) ∧
      (DepsFirst tasks → topologicalOrder tasks = .ok tasks) := by
  rw [topologicalOrder_eq]
  exact ⟨topologicalOrder_ok_iff_known distinct acyclic,
    fun order sorted => topologicalOrder_ok distinct sorted,
    topologicalOrder_of_depsFirst distinct⟩

/-- The last of three tasks first. -/
def listedBackwards : List RoutedTask :=
  [⟨"c", "third", "critic", some ["b"], none, none⟩, ⟨"a", "first", "writer", none, none, none⟩,
    ⟨"b", "second", "coder", some ["a"], none, none⟩]

theorem topologicalOrder_sorts_listedBackwards :
    ∃ order, topologicalOrder listedBackwards = .ok order ∧ order.Perm listedBackwards ∧
      DepsFirst order := by
  have distinct : (listedBackwards.map RoutedTask.id).Nodup := by decide
  have acyclic : ¬ Cyclic (listedBackwards.map RoutedTask.shape) := by
    have reads := pendingOf_reads distinct
    have descends : ∀ shape ∈ listedBackwards.map RoutedTask.shape, ∀ dep ∈ shape.dependsOn,
        ["a", "b", "c"].idxOf dep < ["a", "b", "c"].idxOf shape.id := by decide
    rw [← reads.cyclic_iff]
    refine @DepthFirst.not_cyclic_of_rank _ _ ["a", "b", "c"].idxOf fun id dep edge => ?_
    have depends : DependsOn (listedBackwards.map RoutedTask.shape) id dep := reads.eq ▸ edge
    obtain ⟨shape, member, rfl, listed⟩ := depends
    exact descends shape member dep listed
  obtain ⟨returns, sorts, -⟩ := topologicalOrder_sorts distinct acyclic
  obtain ⟨order, sorted⟩ := returns.mpr (by decide)
  exact ⟨order, sorted, sorts order sorted⟩

end Sorted

end OrderLoop

end MultiAgent.Native
