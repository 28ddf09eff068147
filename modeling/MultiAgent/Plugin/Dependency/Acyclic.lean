import MultiAgent.Foundations.DepthFirst
import MultiAgent.Plugin.Dependency
import Mathlib.Data.List.Perm.Subperm
import Mathlib.Data.Set.Finite.List

/-!
# Orders and cycles

`topological_order` returns an order exactly when every dependency is known and no task
depends on itself, directly or not. It has as many rounds as it needs, and the tasks that its
error names are those that depend on a cycle or are part of one.
-/

namespace MultiAgent.Plugin

/-- The order in which Python goes over a set of names: each of them once. -/
structure SetIteration where
  iter : List String → List String
  nodup : ∀ names, (iter names).Nodup
  mem_iter : ∀ {names name}, name ∈ iter names ↔ name ∈ names

/-- One such order. -/
def SetIteration.dedup : SetIteration := ⟨List.dedup, List.nodup_dedup, List.mem_dedup⟩

/-- No id depends on itself, directly or not. -/
def Acyclic (dependsOn : String → List String) : Prop :=
  ∀ id, ¬ Relation.TransGen (fun task dep => dep ∈ dependsOn task) id id

namespace Kahn

variable {known followers : List String} {deps : String → List String} {k : Kahn}
variable {taskId i d : String}

theorem order_foldl_discard : (followers.foldl (discard taskId) k).order = k.order := by
  induction followers generalizing k with
  | nil => rfl
  | cons follower rest ih => exact ih

theorem pendingDeps_foldl_discard (distinct : followers.Nodup) :
    (followers.foldl (discard taskId) k).pendingDeps i =
      if i ∈ followers then (k.pendingDeps i).erase taskId else k.pendingDeps i := by
  induction followers generalizing k with
  | nil => rfl
  | cons follower rest ih =>
      obtain ⟨fresh, distinct⟩ := List.nodup_cons.mp distinct
      rw [List.foldl_cons, ih distinct]
      by_cases same : i = follower
      · subst same
        simp [fresh, discard]
      · simp [same, discard]

theorem ready_foldl_discard (distinct : followers.Nodup) :
    (followers.foldl (discard taskId) k).ready = k.ready ++
      followers.filter fun follower => decide ((k.pendingDeps follower).erase taskId = []) := by
  induction followers generalizing k with
  | nil => simp
  | cons follower rest ih =>
      obtain ⟨fresh, distinct⟩ := List.nodup_cons.mp distinct
      have others : ∀ other ∈ rest, (discard taskId k follower).pendingDeps other =
          k.pendingDeps other := by
        intro other member
        apply Function.update_of_ne
        rintro rfl
        exact fresh member
      rw [List.foldl_cons, ih distinct, List.filter_cons,
        List.filter_congr fun other member => by rw [others other member]]
      simp only [discard, decide_eq_true_eq]
      split_ifs
      · rw [List.append_assoc, List.singleton_append]
      · rfl

/-- What every round keeps. -/
structure Ordered (known : List String) (deps : String → List String) (k : Kahn) : Prop where
  distinct : (k.order ++ k.ready).Nodup
  within : ∀ i ∈ k.order ++ k.ready, i ∈ known
  pendingDistinct : ∀ i, (k.pendingDeps i).Nodup
  pending : ∀ i d, d ∈ k.pendingDeps i ↔ d ∈ deps i ∧ d ∉ k.order
  ready : ∀ i ∈ known, i ∈ k.order ++ k.ready ↔ k.pendingDeps i = []
  first : ∀ i ∈ k.order, ∀ d ∈ deps i, k.order.idxOf d < k.order.idxOf i

/-- A task whose dependencies are all ordered goes to the end of the order. -/
theorem first_append {order : List String} (fresh : taskId ∉ order)
    (first : ∀ i ∈ order, ∀ d ∈ deps i, order.idxOf d < order.idxOf i)
    (ready : ∀ d ∈ deps taskId, d ∈ order) :
    ∀ i ∈ order ++ [taskId], ∀ d ∈ deps i,
      (order ++ [taskId]).idxOf d < (order ++ [taskId]).idxOf i := by
  intro i member d dep
  obtain earlier | last := List.mem_append.mp member
  · have less := first i earlier d dep
    have inside : d ∈ order :=
      List.idxOf_lt_length_iff.mp (less.trans (List.idxOf_lt_length_iff.mpr earlier))
    rw [List.idxOf_append_of_mem inside, List.idxOf_append_of_mem earlier]
    exact less
  · obtain rfl := List.mem_singleton.mp last
    rw [List.idxOf_append_of_mem (ready d dep), List.idxOf_append_of_notMem fresh]
    exact Nat.lt_add_right _ (List.idxOf_lt_length_iff.mpr (ready d dep))

/-- A round of the main loop, which takes the first task from the queue. -/
def round (known : List String) (deps : String → List String) (k : Kahn) (taskId : String)
    (rest : List String) : Kahn :=
  (known.filter fun i => decide (taskId ∈ deps i)).foldl (discard taskId)
    { k with ready := rest, order := k.order ++ [taskId] }

section Round

variable {rest : List String}

theorem order_round : (k.round known deps taskId rest).order = k.order ++ [taskId] :=
  order_foldl_discard

/-- A round queues the followers that waited for nothing else. -/
theorem queue_round (distinct : known.Nodup) (taken : k.ready = taskId :: rest) :
    (k.round known deps taskId rest).order ++ (k.round known deps taskId rest).ready =
      (k.order ++ k.ready) ++ (known.filter fun i => decide (taskId ∈ deps i)).filter
        fun i => decide ((k.pendingDeps i).erase taskId = []) := by
  rw [order_round, round, ready_foldl_discard (distinct.filter _), taken]
  simp only [List.append_assoc, List.cons_append, List.nil_append]

/-- The task that a round takes is in the queue for the first time. -/
theorem Ordered.fresh (ordered : Ordered known deps k) (taken : k.ready = taskId :: rest) :
    taskId ∉ k.order := by
  have distinct := ordered.distinct
  rw [taken] at distinct
  intro member
  exact (List.nodup_append.mp distinct).2.2 taskId member taskId List.mem_cons_self rfl

theorem Ordered.follower (ordered : Ordered known deps k) (outside : ∀ i, i ∉ known → deps i = [])
    (waits : taskId ∈ k.pendingDeps i) :
    i ∈ known.filter fun i => decide (taskId ∈ deps i) := by
  have depends := ((ordered.pending i taskId).mp waits).1
  rw [List.mem_filter]
  refine ⟨?_, decide_eq_true depends⟩
  by_contra unknown
  rw [outside i unknown] at depends
  cases depends

/-- A round takes the task off what is still to be ordered. -/
theorem Ordered.pendingDeps_round (ordered : Ordered known deps k) (distinct : known.Nodup)
    (outside : ∀ i, i ∉ known → deps i = []) (i : String) :
    (k.round known deps taskId rest).pendingDeps i = (k.pendingDeps i).erase taskId := by
  rw [round, pendingDeps_foldl_discard (distinct.filter _)]
  split_ifs with follows
  · rfl
  · exact (List.erase_of_not_mem fun waits => follows (ordered.follower outside waits)).symm

/-- A follower of the task that a round takes has been waiting for it. -/
theorem Ordered.waits (ordered : Ordered known deps k) (taken : k.ready = taskId :: rest)
    (follows : i ∈ known.filter fun i => decide (taskId ∈ deps i)) : taskId ∈ k.pendingDeps i :=
  (ordered.pending i taskId).mpr
    ⟨of_decide_eq_true (List.mem_filter.mp follows).2, ordered.fresh taken⟩

theorem Ordered.round (ordered : Ordered known deps k) (distinct : known.Nodup)
    (outside : ∀ i, i ∉ known → deps i = []) (taken : k.ready = taskId :: rest) :
    Ordered known deps (k.round known deps taskId rest) := by
  have queued : taskId ∈ k.order ++ k.ready := by
    rw [taken]
    exact List.mem_append_right _ List.mem_cons_self
  have free : k.pendingDeps taskId = [] :=
    (ordered.ready taskId (ordered.within taskId queued)).mp queued
  constructor
  case distinct =>
    rw [queue_round distinct taken]
    refine List.nodup_append.mpr ⟨ordered.distinct, (distinct.filter _).filter _, ?_⟩
    rintro i old _ new rfl
    have follows := (List.mem_filter.mp new).1
    have waits := ordered.waits taken follows
    rw [(ordered.ready i (List.mem_filter.mp follows).1).mp old] at waits
    cases waits
  case within =>
    rw [queue_round distinct taken]
    intro i member
    obtain old | new := List.mem_append.mp member
    · exact ordered.within i old
    · exact (List.mem_filter.mp (List.mem_filter.mp new).1).1
  case pendingDistinct =>
    intro i
    rw [ordered.pendingDeps_round distinct outside]
    exact (ordered.pendingDistinct i).erase _
  case pending =>
    intro i d
    rw [ordered.pendingDeps_round distinct outside, order_round,
      (ordered.pendingDistinct i).mem_erase_iff, ordered.pending]
    simp only [List.mem_append, List.mem_singleton, not_or]
    tauto
  case ready =>
    intro i member
    rw [queue_round distinct taken, ordered.pendingDeps_round distinct outside, List.mem_append,
      ordered.ready i member, List.mem_filter, decide_eq_true_iff]
    constructor
    · rintro (empty | ⟨-, empty⟩)
      · rw [empty, List.erase_nil]
      · exact empty
    · intro empty
      by_cases waits : taskId ∈ k.pendingDeps i
      · exact .inr ⟨ordered.follower outside waits, empty⟩
      · rw [List.erase_of_not_mem waits] at empty
        exact .inl empty
  case first =>
    rw [order_round]
    apply first_append (ordered.fresh taken) ordered.first
    intro d dep
    by_contra unordered
    have waiting := (ordered.pending taskId d).mpr ⟨dep, unordered⟩
    rw [free] at waiting
    cases waiting

end Round

/-- The main loop ends with an empty queue, or has ordered as many tasks as it had rounds. -/
theorem Ordered.drain (ordered : Ordered known deps k) (distinct : known.Nodup)
    (outside : ∀ i, i ∉ known → deps i = []) (rounds : Nat) :
    let last := Kahn.drain (fun dep => known.filter fun i => decide (dep ∈ deps i)) rounds k
    Ordered known deps last ∧ (last.ready = [] ∨ last.order.length = k.order.length + rounds) := by
  induction rounds generalizing k with
  | zero => exact ⟨ordered, .inr rfl⟩
  | succ rounds ih =>
      rw [Kahn.drain]
      cases taken : k.ready with
      | nil => exact ⟨ordered, .inl taken⟩
      | cons taskId rest =>
          obtain ⟨last, ends⟩ := ih (ordered.round distinct outside taken)
          refine ⟨last, ends.imp_right fun length => length.trans ?_⟩
          rw [order_round]
          simp only [List.length_append, List.length_singleton]
          omega

theorem ordered_start (distinct : known.Nodup) (once : ∀ i, (deps i).Nodup) :
    Ordered known deps
      { pendingDeps := deps, ready := sorted (known.filter fun i => decide (deps i = [])),
        order := [] } where
  distinct := ((List.perm_insertionSort _ _).nodup_iff).mpr (distinct.filter _)
  within := by
    intro i member
    exact (List.mem_filter.mp ((List.perm_insertionSort _ _).mem_iff.mp member)).1
  pendingDistinct := once
  pending := by simp
  ready := by
    intro i member
    rw [List.nil_append, sorted, (List.perm_insertionSort _ _).mem_iff, List.mem_filter,
      decide_eq_true_iff, and_iff_right member]
  first := nofun

theorem Ordered.length_le (ordered : Ordered known deps k) :
    k.order.length + k.ready.length ≤ known.length := by
  rw [← List.length_append]
  exact (ordered.distinct.subperm ordered.within).length_le

/-- The order is as long as the list of tasks when it has all of them. -/
theorem Ordered.length_eq_iff (ordered : Ordered known deps k) (distinct : known.Nodup) :
    k.order.length = known.length ↔ known ⊆ k.order := by
  have inside : k.order.Subperm known :=
    (List.nodup_append.mp ordered.distinct).1.subperm fun i member =>
      ordered.within i (List.mem_append_left _ member)
  constructor
  · intro full
    exact (inside.perm_of_length_le (Nat.le_of_eq full.symm)).symm.subset
  · intro all
    exact Nat.le_antisymm inside.length_le (distinct.subperm all).length_le

/-- As many rounds as there are tasks empty the queue. -/
theorem Ordered.drain_ends (ordered : Ordered known deps k) (distinct : known.Nodup)
    (outside : ∀ i, i ∉ known → deps i = []) :
    let last :=
      Kahn.drain (fun dep => known.filter fun i => decide (dep ∈ deps i)) known.length k
    Ordered known deps last ∧ last.ready = [] := by
  obtain ⟨last, ends⟩ := ordered.drain distinct outside known.length
  refine ⟨last, ends.elim id fun full => ?_⟩
  have fits := last.length_le
  exact List.eq_nil_of_length_eq_zero (by omega)

/-- What an ordered task depends on, directly or not, is ordered before it. -/
theorem Ordered.before (ordered : Ordered known deps k) (member : i ∈ k.order)
    (path : Relation.TransGen (fun task dep => dep ∈ deps task) i d) :
    k.order.idxOf d < k.order.idxOf i := by
  induction path with
  | single dep => exact ordered.first i member _ dep
  | tail _ dep ih =>
      have inside := List.idxOf_lt_length_iff.mp (ih.trans (List.idxOf_lt_length_iff.mpr member))
      exact (ordered.first _ inside _ dep).trans ih

/-- When the queue is empty, the tasks that are left over are those behind a cycle. -/
theorem Ordered.notMem_iff (ordered : Ordered known deps k)
    (closed : ∀ i, ∀ d ∈ deps i, d ∈ known) (drained : k.ready = []) (member : i ∈ known) :
    i ∉ k.order ↔ ∃ c, Relation.ReflTransGen (fun task dep => dep ∈ deps task) i c ∧
      Relation.TransGen (fun task dep => dep ∈ deps task) c c := by
  constructor
  · intro unordered
    have finite : {i | i ∈ known ∧ i ∉ k.order}.Finite :=
      (List.finite_toSet known).subset fun _ member => member.1
    refine DepthFirst.exists_cycle_of_serial finite ?_ ⟨member, unordered⟩
    rintro i ⟨member, out⟩
    have waiting : k.pendingDeps i ≠ [] := by
      intro empty
      have done := (ordered.ready i member).mpr empty
      rw [drained, List.append_nil] at done
      exact out done
    obtain ⟨d, pending⟩ := List.exists_mem_of_ne_nil _ waiting
    obtain ⟨dep, out⟩ := (ordered.pending i d).mp pending
    exact ⟨d, ⟨closed i d dep, out⟩, dep⟩
  · rintro ⟨c, behind, cycle⟩ done
    have inside : c ∈ k.order := by
      obtain rfl | path := Relation.reflTransGen_iff_eq_or_transGen.mp behind
      · exact done
      · have less := ordered.before done path
        exact List.idxOf_lt_length_iff.mp (less.trans (List.idxOf_lt_length_iff.mpr done))
    exact Nat.lt_irrefl _ (ordered.before inside cycle)

end Kahn

/-- What the ids listed depend on; the entry of another id is not read. -/
def listed (ids : List String) (dependsOn : String → List String) (i : String) : List String :=
  if i ∈ ids then dependsOn i else []

/-- The sets of `pending_deps` as they are built. -/
def SetIteration.pendingDeps (set : SetIteration) (ids : List String)
    (dependsOn : String → List String) (i : String) : List String :=
  if i ∈ set.iter ids then set.iter (dependsOn i) else []

section Result

variable (set : SetIteration) {ids : List String} {dependsOn : String → List String}
  {i d : String}

variable {set} in
theorem SetIteration.mem_pendingDeps_iff :
    d ∈ set.pendingDeps ids dependsOn i ↔ i ∈ ids ∧ d ∈ dependsOn i := by
  rw [SetIteration.pendingDeps]
  split_ifs with member
  · rw [set.mem_iter, and_iff_right (set.mem_iter.mp member)]
  · exact iff_of_false List.not_mem_nil fun both => member (set.mem_iter.mpr both.1)

theorem mem_listed_iff : d ∈ listed ids dependsOn i ↔ i ∈ ids ∧ d ∈ dependsOn i := by
  rw [listed]
  split_ifs with member
  · rw [and_iff_right member]
  · exact iff_of_false List.not_mem_nil fun both => member both.1

theorem SetIteration.pendingDeps_relation :
    (fun i d => d ∈ set.pendingDeps ids dependsOn i) = fun i d => d ∈ listed ids dependsOn i := by
  funext i d
  rw [SetIteration.mem_pendingDeps_iff, mem_listed_iff]

theorem SetIteration.nodup_pendingDeps (ids : List String) (dependsOn : String → List String)
    (i : String) : (set.pendingDeps ids dependsOn i).Nodup := by
  rw [SetIteration.pendingDeps]
  split_ifs
  · exact set.nodup _
  · exact List.nodup_nil

theorem mem_sorted {names : List String} : d ∈ sorted names ↔ d ∈ names :=
  (List.perm_insertionSort _ _).mem_iff

/-- The check finds the first listed id with an unknown dependency. -/
theorem find?_unknown_iff : (set.iter ids).find? (fun i =>
      (set.pendingDeps ids dependsOn i).any fun dep => decide (dep ∉ set.iter ids)) = none ↔
    ∀ i ∈ ids, ∀ d ∈ dependsOn i, d ∈ ids := by
  simp only [List.find?_eq_none, List.any_eq_true, SetIteration.mem_pendingDeps_iff,
    decide_eq_true_eq, set.mem_iter]
  constructor
  · intro silent i member d dep
    by_contra unknown
    exact silent i member ⟨d, ⟨member, dep⟩, unknown⟩
  · rintro closed i member ⟨d, ⟨-, dep⟩, unknown⟩
    exact unknown (closed i member d dep)

theorem SetIteration.iter_subset_iff {names : List String} :
    set.iter ids ⊆ names ↔ ids ⊆ names :=
  forall_congr' fun _ => imp_congr_left set.mem_iter

/-- The variables of the main loop when it is left. -/
def Kahn.final (set : SetIteration) (ids : List String) (dependsOn : String → List String) :
    Kahn :=
  drain (fun dep => (set.iter ids).filter fun i => decide (dep ∈ set.pendingDeps ids dependsOn i))
    (set.iter ids).length
    { pendingDeps := set.pendingDeps ids dependsOn
      ready := sorted ((set.iter ids).filter fun i =>
        decide (set.pendingDeps ids dependsOn i = []))
      order := [] }

theorem Kahn.ordered_final (ids : List String) (dependsOn : String → List String) :
    Ordered (set.iter ids) (set.pendingDeps ids dependsOn) (final set ids dependsOn) ∧
      (final set ids dependsOn).ready = [] :=
  (ordered_start (set.nodup ids) (set.nodup_pendingDeps ids dependsOn)).drain_ends
    (set.nodup ids) fun _ unknown => if_neg unknown

theorem topologicalOrder_eq : topologicalOrder set.iter ids dependsOn =
    match (set.iter ids).find? fun i =>
      (set.pendingDeps ids dependsOn i).any fun dep => decide (dep ∉ set.iter ids) with
    | some taskId =>
      .error (.unknownTasks taskId (sorted ((set.pendingDeps ids dependsOn taskId).filter
        fun dep => decide (dep ∉ set.iter ids))))
    | none =>
      if (Kahn.final set ids dependsOn).order.length = (set.iter ids).length then
        .ok (Kahn.final set ids dependsOn).order
      else .error (.cycle (sorted ((set.iter ids).filter fun i =>
        decide ((Kahn.final set ids dependsOn).pendingDeps i ≠ [])))) := rfl

/-- The ways in which the sort ends: at an unknown dependency, with all of the ids in order,
or with those behind a cycle reported. -/
theorem topologicalOrder_cases :
    (∃ taskId ∈ ids, ∃ unknown,
      topologicalOrder set.iter ids dependsOn = .error (.unknownTasks taskId unknown) ∧
      unknown ≠ [] ∧ ∀ d, d ∈ unknown ↔ d ∈ dependsOn taskId ∧ d ∉ ids) ∨
    (∀ i ∈ ids, ∀ d ∈ dependsOn i, d ∈ ids) ∧
      (ids ⊆ (Kahn.final set ids dependsOn).order ∧
          topologicalOrder set.iter ids dependsOn = .ok (Kahn.final set ids dependsOn).order ∨
        ¬ ids ⊆ (Kahn.final set ids dependsOn).order ∧ ∃ stuck,
          topologicalOrder set.iter ids dependsOn = .error (.cycle stuck) ∧
          ∀ i, i ∈ stuck ↔ i ∈ ids ∧ i ∉ (Kahn.final set ids dependsOn).order) := by
  rw [topologicalOrder_eq]
  cases found : (set.iter ids).find? fun i =>
      (set.pendingDeps ids dependsOn i).any fun dep => decide (dep ∉ set.iter ids) with
  | some taskId =>
      have member := set.mem_iter.mp (List.mem_of_find?_eq_some found)
      have reported : ∀ d, d ∈ sorted ((set.pendingDeps ids dependsOn taskId).filter
          fun dep => decide (dep ∉ set.iter ids)) ↔ d ∈ dependsOn taskId ∧ d ∉ ids := by
        intro d
        rw [mem_sorted, List.mem_filter, SetIteration.mem_pendingDeps_iff, decide_eq_true_iff,
          set.mem_iter, and_iff_right member]
      refine .inl ⟨taskId, member, _, rfl, ?_, reported⟩
      have some_ := List.find?_some found
      obtain ⟨dep, inside, unknown⟩ := List.any_eq_true.mp some_
      refine List.ne_nil_of_mem ((reported dep).mpr ?_)
      exact ⟨(SetIteration.mem_pendingDeps_iff.mp inside).2,
        fun known => of_decide_eq_true unknown (set.mem_iter.mpr known)⟩
  | none =>
      obtain ⟨last, drained⟩ := Kahn.ordered_final set ids dependsOn
      have full := last.length_eq_iff (set.nodup ids)
      rw [set.iter_subset_iff] at full
      refine .inr ⟨(find?_unknown_iff set).mp found, ?_⟩
      rw [← full]
      dsimp only
      split
      next length => exact .inl ⟨length, rfl⟩
      next length =>
        refine .inr ⟨length, _, rfl, fun i => ?_⟩
        rw [mem_sorted, List.mem_filter, set.mem_iter]
        refine and_congr_right fun member => ?_
        have done := last.ready i (set.mem_iter.mpr member)
        rw [drained, List.append_nil] at done
        rw [decide_eq_true_iff, ne_eq, ← done]

theorem Kahn.notMem_final_iff (closed : ∀ i ∈ ids, ∀ d ∈ dependsOn i, d ∈ ids)
    (member : i ∈ ids) : i ∉ (final set ids dependsOn).order ↔
      ∃ c, Relation.ReflTransGen (fun task dep => dep ∈ listed ids dependsOn task) i c ∧
        Relation.TransGen (fun task dep => dep ∈ listed ids dependsOn task) c c := by
  obtain ⟨last, drained⟩ := ordered_final set ids dependsOn
  rw [← set.pendingDeps_relation]
  refine last.notMem_iff (fun i d dep => ?_) drained (set.mem_iter.mpr member)
  obtain ⟨inside, edge⟩ := SetIteration.mem_pendingDeps_iff.mp dep
  exact set.mem_iter.mpr (closed i inside d edge)

/-- All of the ids are in order exactly when none of them depends on itself. -/
theorem Kahn.subset_final_iff (closed : ∀ i ∈ ids, ∀ d ∈ dependsOn i, d ∈ ids) :
    ids ⊆ (final set ids dependsOn).order ↔ Acyclic (listed ids dependsOn) := by
  constructor
  · intro all c cycle
    obtain ⟨d, dep, -⟩ := Relation.TransGen.head'_iff.mp cycle
    have member := (mem_listed_iff.mp dep).1
    exact (notMem_final_iff set closed member).mpr ⟨c, .refl, cycle⟩ (all member)
  · intro acyclic i member
    by_contra unordered
    obtain ⟨c, -, cycle⟩ := (notMem_final_iff set closed member).mp unordered
    exact acyclic c cycle

theorem topologicalOrder_ok_iff_listed :
    (∃ order, topologicalOrder set.iter ids dependsOn = .ok order) ↔
      (∀ i ∈ ids, ∀ d ∈ dependsOn i, d ∈ ids) ∧ Acyclic (listed ids dependsOn) := by
  obtain ⟨taskId, member, unknown, run, some_, reported⟩ | ⟨closed, ends⟩ :=
    @topologicalOrder_cases set ids dependsOn
  · rw [run]
    refine iff_of_false (by simp) ?_
    rintro ⟨closed, -⟩
    obtain ⟨d, inside⟩ := List.exists_mem_of_ne_nil _ some_
    obtain ⟨dep, out⟩ := (reported d).mp inside
    exact out (closed taskId member d dep)
  · obtain ⟨all, run⟩ | ⟨left, stuck, run, -⟩ := ends
    · rw [run]
      exact iff_of_true ⟨_, rfl⟩ ⟨closed, (Kahn.subset_final_iff set closed).mp all⟩
    · rw [run]
      refine iff_of_false (by simp) ?_
      rintro ⟨-, acyclic⟩
      exact left ((Kahn.subset_final_iff set closed).mpr acyclic)

/-- The sort succeeds exactly on known dependencies without a cycle. -/
theorem topologicalOrder_ok_iff (outside : ∀ i, i ∉ ids → dependsOn i = []) :
    (∃ order, topologicalOrder set.iter ids dependsOn = .ok order) ↔
      (∀ i ∈ ids, ∀ d ∈ dependsOn i, d ∈ ids) ∧ Acyclic dependsOn := by
  have same : listed ids dependsOn = dependsOn := by
    funext i
    rw [listed]
    split_ifs with member
    · rfl
    · exact (outside i member).symm
  rw [topologicalOrder_ok_iff_listed, same]

/-- An order has every id once, after all that it depends on. -/
theorem topologicalOrder_ok {order : List String}
    (returned : topologicalOrder set.iter ids dependsOn = .ok order) :
    order.Nodup ∧ (∀ i, i ∈ order ↔ i ∈ ids) ∧
      ∀ i ∈ ids, ∀ d ∈ dependsOn i, order.idxOf d < order.idxOf i := by
  obtain ⟨_, _, _, run, -⟩ | ⟨-, ⟨all, run⟩ | ⟨-, _, run, -⟩⟩ :=
    @topologicalOrder_cases set ids dependsOn
  all_goals
    rw [run] at returned
    cases returned
  obtain ⟨last, -⟩ := Kahn.ordered_final set ids dependsOn
  refine ⟨(List.nodup_append.mp last.distinct).1, fun i => ⟨fun member => ?_, fun member => ?_⟩,
    fun i member d dep => ?_⟩
  · exact set.mem_iter.mp (last.within i (List.mem_append_left _ member))
  · exact all member
  · exact last.first i (all member) d (SetIteration.mem_pendingDeps_iff.mpr ⟨member, dep⟩)

/-- The first error names a listed id with those of its dependencies that are not listed. -/
theorem topologicalOrder_unknownTasks {taskId : String} {unknown : List String}
    (raised : topologicalOrder set.iter ids dependsOn = .error (.unknownTasks taskId unknown)) :
    taskId ∈ ids ∧ unknown ≠ [] ∧ ∀ d, d ∈ unknown ↔ d ∈ dependsOn taskId ∧ d ∉ ids := by
  obtain ⟨_, member, _, run, some_, reported⟩ | ⟨-, ⟨-, run⟩ | ⟨-, _, run, -⟩⟩ :=
    @topologicalOrder_cases set ids dependsOn
  all_goals
    rw [run] at raised
    cases raised
  exact ⟨member, some_, reported⟩

/-- The second error names the listed ids that are on or behind a cycle. -/
theorem topologicalOrder_cycle {stuck : List String}
    (raised : topologicalOrder set.iter ids dependsOn = .error (.cycle stuck)) :
    stuck ≠ [] ∧ ∀ i, i ∈ stuck ↔ i ∈ ids ∧
      ∃ c, Relation.ReflTransGen (fun task dep => dep ∈ listed ids dependsOn task) i c ∧
        Relation.TransGen (fun task dep => dep ∈ listed ids dependsOn task) c c := by
  obtain ⟨_, _, _, run, -⟩ | ⟨closed, ⟨-, run⟩ | ⟨left, _, run, reported⟩⟩ :=
    @topologicalOrder_cases set ids dependsOn
  all_goals
    rw [run] at raised
    cases raised
  constructor
  · intro none_
    apply left
    intro i member
    by_contra unordered
    have named := (reported i).mpr ⟨member, unordered⟩
    rw [none_] at named
    cases named
  · intro i
    rw [reported]
    exact and_congr_right (Kahn.notMem_final_iff set closed)

/-- The sort is exact. It returns on listed dependencies without a cycle, and then every id
once and after all that it depends on. Otherwise it raises one of its two errors, and what
they name is what keeps the ids from being ordered. -/
theorem topologicalOrder_exact (ids : List String) (dependsOn : String → List String) :
    ((∃ order, topologicalOrder set.iter ids dependsOn = .ok order) ↔
        (∀ i ∈ ids, ∀ d ∈ dependsOn i, d ∈ ids) ∧ Acyclic (listed ids dependsOn)) ∧
      (∀ order, topologicalOrder set.iter ids dependsOn = .ok order →
        order.Nodup ∧ (∀ i, i ∈ order ↔ i ∈ ids) ∧
          ∀ i ∈ ids, ∀ d ∈ dependsOn i, order.idxOf d < order.idxOf i) ∧
      (∀ taskId unknown,
        topologicalOrder set.iter ids dependsOn = .error (.unknownTasks taskId unknown) →
          taskId ∈ ids ∧ unknown ≠ [] ∧ ∀ d, d ∈ unknown ↔ d ∈ dependsOn taskId ∧ d ∉ ids) ∧
      (∀ stuck, topologicalOrder set.iter ids dependsOn = .error (.cycle stuck) →
        stuck ≠ [] ∧ ∀ i, i ∈ stuck ↔ i ∈ ids ∧
          ∃ c, Relation.ReflTransGen (fun task dep => dep ∈ listed ids dependsOn task) i c ∧
            Relation.TransGen (fun task dep => dep ∈ listed ids dependsOn task) c c) :=
  ⟨topologicalOrder_ok_iff_listed set, fun _ => topologicalOrder_ok set,
    fun _ _ => topologicalOrder_unknownTasks set, fun _ => topologicalOrder_cycle set⟩

/-- A plan behind a cycle, with a dependency given twice. -/
example : topologicalOrder List.dedup ["report", "draft", "review"]
    (fun id => if id = "report" then ["draft", "draft"]
      else if id = "draft" then ["review"] else ["draft"]) =
      .error (.cycle ["draft", "report", "review"]) := by
  decide

end Result

end MultiAgent.Plugin
