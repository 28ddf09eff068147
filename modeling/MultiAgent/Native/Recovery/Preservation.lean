import MultiAgent.Native.Planner.Accepted
import MultiAgent.Native.Recovery.Attempts
import MultiAgent.Native.Recovery.Pruning

/-!
# What a replan removes

The failures of an attempt are read back as tasks of the plan by their position in the
order of the strategy. A relay runs a chain of dependencies and a broadcast has none, so
there the tasks behind the failed ones are their dependents. A sequential run schedules
each task behind the one before it, whatever the plan says: when a task fails, every task
behind it is cancelled, counts as failed, and is removed by the replan.
-/

namespace MultiAgent.Native.Recovery

open Relation

section SyntheticIds

/-- The labels that are tried first do not fit, and what is behind the label is read as
the index. -/
theorem syntheticIndex_of_label {before after : List String} {label : String} {index : Nat}
    (labels : ["seq-", "bc-", "turn-", "relay-"] = before ++ label :: after)
    (others : ∀ other ∈ before, startsWith (label ++ toString index) other = false) :
    syntheticIndex (label ++ toString index) = some index := by
  have digits : (label ++ toString index).toList.drop label.length = Nat.toDigits 10 index := by
    rw [toList_syntheticId, ← String.length_toList]
    exact List.drop_left
  have own : startsWith (label ++ toString index) label = true :=
    startsWith_iff.mpr ⟨_, toList_syntheticId label index⟩
  have all : (Nat.toDigits 10 index).all Char.isDigit = true :=
    List.all_eq_true.mpr fun c member =>
      Nat.isDigit_of_mem_toDigits (by decide) (by decide) member
  rw [syntheticIndex]
  rw [labels, List.findSome?_append, List.findSome?_eq_none_iff.mpr, Option.none_or,
    List.findSome?_cons]
  · simp only [digits, own, all, Nat.toDigits_ne_nil, digits_value, ne_eq, not_false_eq_true,
      decide_true, Bool.and_self, if_true]
  · intro other member
    simp only [others other member, Bool.false_and, Bool.false_eq_true, if_false]

theorem syntheticIndex_syntheticId (strategy : SupervisorStrategy) (index : Nat) :
    syntheticIndex (strategy.syntheticId index) = some index := by
  -- two labels differ in their first character
  have apart (label other rest : String)
      (different : other.toList.isPrefixOf (label.toList ++ rest.toList) = false) :
      startsWith (label ++ rest) other = false := by
    rw [startsWith, String.toList_append]
    exact different
  cases strategy with
  | sequential => exact @syntheticIndex_of_label [] _ "seq-" index rfl (by simp)
  | broadcast =>
      apply @syntheticIndex_of_label ["seq-"] _ "bc-" index rfl
      intro other member
      obtain rfl := List.mem_singleton.mp member
      exact apart "bc-" _ _ rfl
  | relay =>
      apply @syntheticIndex_of_label ["seq-", "bc-", "turn-"] _ "relay-" index rfl
      intro other member
      simp only [List.mem_cons, List.not_mem_nil, or_false] at member
      obtain rfl | rfl | rfl := member <;> exact apart "relay-" _ _ rfl

/-- The id of a strategy task is read back as the task of the plan at its position. -/
theorem planIdOf_syntheticId {ordered : List RoutedTask} {strategy : SupervisorStrategy}
    {index : Nat} {task : RoutedTask} (here : ordered[index]? = some task) :
    planIdOf ordered (strategy.syntheticId index) = task.id := by
  simp [planIdOf, syntheticIndex_syntheticId, here]

end SyntheticIds

section Order

variable {plan : PlannerPlan} {routed : RoutedPlan} {ordered : List RoutedTask}
variable {pool : List AgentDescriptor}

/-- The ordered tasks are those of the plan, and every task stands behind its
dependencies. -/
structure Orders (plan : PlannerPlan) (ordered : List RoutedTask) : Prop where
  distinct : (ordered.map RoutedTask.id).Nodup
  known : ∀ id, id ∈ plan.ids ↔ id ∈ ordered.map RoutedTask.id
  edges : ∀ id dep, plan.DependsOn id dep ↔ ∃ task ∈ ordered, task.id = id ∧ dep ∈ task.deps
  depsFirst : DepsFirst ordered

theorem prepare_ok (prepared : RecoveryManager.prepare pool plan = .ok routed) :
    plan.Accepted ∧ List.Forall₂ (PlanTask.RoutedTo pool) plan.tasks routed.tasks := by
  obtain ⟨validated, repaired, rest⟩ := bind_eq_ok_iff.mp prepared
  obtain ⟨router, constructed, same⟩ := bind_eq_ok_iff.mp rest
  cases same
  exact routed_of_accepted repaired constructed

theorem routed_links {tasks : List PlanTask} {others : List RoutedTask}
    (routedTo : List.Forall₂ (PlanTask.RoutedTo pool) tasks others) :
    others.map (fun task => (task.id, task.deps)) =
      tasks.map fun task => (task.id, task.dependsOn.getD []) := by
  induction routedTo with
  | nil => rfl
  | cons here _ ih =>
      rw [List.map_cons, List.map_cons, ih, RoutedTask.deps, here.id, here.dependsOn]

theorem routed_ids (routedTo : List.Forall₂ (PlanTask.RoutedTo pool) plan.tasks routed.tasks) :
    routed.tasks.map RoutedTask.id = plan.ids := by
  have firsts := congrArg (List.map Prod.fst) (routed_links routedTo)
  rw [List.map_map, List.map_map] at firsts
  exact firsts

theorem orders_of_prepared (prepared : RecoveryManager.prepare pool plan = .ok routed)
    (perm : ordered.Perm routed.tasks) (depsFirst : DepsFirst ordered) : Orders plan ordered := by
  obtain ⟨accepted, routedTo⟩ := prepare_ok prepared
  have ids := routed_ids routedTo
  refine ⟨?_, ?_, ?_, depsFirst⟩
  · rw [(perm.map RoutedTask.id).nodup_iff, ids]
    exact accepted.distinct
  · intro id
    rw [(perm.map RoutedTask.id).mem_iff, ids]
  · intro id dep
    have same : (∃ link ∈ plan.tasks.map fun task => (task.id, task.dependsOn.getD []),
          link.1 = id ∧ dep ∈ link.2) ↔
        ∃ link ∈ routed.tasks.map fun task => (task.id, task.deps), link.1 = id ∧ dep ∈ link.2 := by
      rw [routed_links routedTo]
    simpa [PlannerPlan.DependsOn, perm.mem_iff] using same

variable {a b : String} {i j : Nat} {task other : RoutedTask}

theorem Orders.unique (orders : Orders plan ordered) (here : ordered[i]? = some task)
    (there : ordered[j]? = some other) (same : task.id = other.id) : i = j := by
  obtain ⟨inside, -⟩ := List.getElem?_eq_some_iff.mp here
  refine (List.getElem?_inj (by simpa using inside) orders.distinct).mp ?_
  rw [List.getElem?_map, List.getElem?_map, here, there]
  exact congrArg some same

/-- A dependency path leads back in the order. -/
theorem Orders.path_back (orders : Orders plan ordered) (here : ordered[j]? = some task)
    (path : ReflTransGen plan.DependsOn task.id b) :
    ∃ (i : Nat) (other : RoutedTask), i ≤ j ∧ ordered[i]? = some other ∧ other.id = b := by
  induction path with
  | refl => exact ⟨j, task, Nat.le_refl j, here, rfl⟩
  | tail _ edge ih =>
      obtain ⟨i, mid, less, found, rfl⟩ := ih
      obtain ⟨other, member, same, listed⟩ := (orders.edges _ _).mp edge
      have only := List.inj_on_of_nodup_map orders.distinct member (List.mem_of_getElem? found) same
      subst only
      obtain ⟨k, dep, before, stands, rfl⟩ := orders.depsFirst i _ found _ listed
      exact ⟨k, dep, by omega, stands, rfl⟩

/-- In a chain, a task depends on every task before it. -/
theorem Orders.chain_path (orders : Orders plan ordered) (chain : IsChain ordered) (later : i ≤ j)
    (first : ordered[i]? = some task) (second : ordered[j]? = some other) :
    ReflTransGen plan.DependsOn other.id task.id := by
  induction j, later using Nat.le_induction generalizing other with
  | base =>
      rw [first] at second
      cases second
      exact .refl
  | succ j _ ih =>
      obtain ⟨inside, -⟩ := List.getElem?_eq_some_iff.mp second
      have before : ordered[j]? = some ordered[j] := List.getElem?_eq_getElem (by omega)
      have edge : plan.DependsOn other.id ordered[j].id := by
        refine (orders.edges _ _).mpr ⟨other, List.mem_of_getElem? second, rfl, ?_⟩
        rw [chain.next j _ other before second]
        exact List.mem_cons_self
      exact .head edge (ih before)

end Order

namespace RecoveryManager

variable {manager : RecoveryManager} {s t : State} {routed : RoutedPlan}
variable {result : SupervisorRunResult}

section Taken

theorem next_replansUsed (manager : RecoveryManager) (s : State) :
    (manager.next s).replansUsed = s.replansUsed := by
  obtain stopped | spent | ⟨-, dispatched⟩ := next_cases manager s
  · rw [stopped]
    rfl
  · rw [spent]
    rfl
  · rw [dispatched]
    obtain ⟨error, rejected⟩ | ⟨error, thrown⟩ | ⟨routed, input, -, -, running⟩ :=
      dispatch_cases manager (manager.countAttempt s)
    · rw [rejected]
      rfl
    · obtain ⟨u, rfl, stopped | retried | ⟨code, gaveUp⟩⟩ :=
        caught_cases manager (manager.countAttempt s) error
      · rw [thrown, stopped]
        rfl
      · rw [thrown, retried]
        rfl
      · rw [thrown, gaveUp]
        rfl
    · rw [running]
      rfl

theorem status_of_dependencyFailure {attempt : Nat}
    (code : (classifyResult result attempt).code = .dependencyFailure)
    (unfinished : result.status ≠ .completed) : result.status = .failed := by
  cases status : result.status with
  | completed => exact absurd status unfinished
  | failed => rfl
  | cancelled => simp [classifyResult, status, resultRecord] at code
  | timeout => simp [classifyResult, status, resultRecord] at code

/-- A replan is taken on a failed result only, and it prunes the current plan by the
failures of the result. -/
theorem replan_taken (running : s.phase = .running routed)
    (transition : manager.step s (.settle (.ok result)) = some t)
    (more : s.replansUsed < t.replansUsed) :
    result.status = .failed ∧ ∃ replanned, t.currentPlan = replanned.plan ∧
      deterministicReplan s.currentPlan
        (manager.mapFailure routed (classifyResult result s.attempts)) = .ok replanned := by
  by_cases finished : result.status = .completed
  · have ended : manager.settled s routed result =
        manager.finish { s with lastResult := some result } .completed .completed := by
      simp [settled, finished]
    have after : t = manager.settled s routed result := by
      simpa [step, running] using transition.symm
    rw [after, ended] at more
    exact absurd more (Nat.lt_irrefl _)
  · rw [step_settle_result running finished, Option.some.injEq] at transition
    subst transition
    obtain stopped | retried | ⟨u, repaired, went⟩ | ⟨u, replanned, went⟩ | ⟨code, gaveUp⟩ :=
      decideResult_cases manager (manager.failedWith s result) routed
        (classifyResult result s.attempts)
    · rw [stopped] at more
      exact absurd more (Nat.lt_irrefl _)
    · rw [retried] at more
      exact absurd more (Nat.lt_irrefl _)
    · obtain ⟨-, plan, pool, rfl⟩ := repair_cases repaired
      rw [went, next_replansUsed] at more
      exact absurd more (Nat.lt_irrefl _)
    · obtain ⟨-, pruned, taken, rfl⟩ := replan_cases replanned
      refine ⟨status_of_dependencyFailure (deterministicReplan_ok taken).1 finished, pruned, ?_,
        taken⟩
      rw [went, (next_continues manager _).currentPlan]
      rfl
    · rw [gaveUp] at more
      exact absurd more (Nat.lt_irrefl _)

theorem mapFailure_taskIds (attempt : Nat) :
    (manager.mapFailure routed (classifyResult result attempt)).taskIds =
      ((extractTaskFailures result).map TaskFailureRef.taskId).map
        (planIdOf (strategyTaskOrder routed manager.options.strategy)) := by
  have listed : (classifyResult result attempt).taskFailures =
      some (extractTaskFailures result) := by
    rw [classifyResult]
    cases result.status <;> rfl
  simp [FailureRecord.taskIds, mapFailure, listed]

end Taken

/-- The order puts the task `first` before the task `second`. -/
def Precedes (order : List RoutedTask) (first second : String) : Prop :=
  ∃ (i j : Nat) (a b : RoutedTask), i < j ∧ order[i]? = some a ∧ order[j]? = some b ∧
    a.id = first ∧ b.id = second

/-- The task of the plan failed itself: the strategy executed it, and it did not
complete. A task that was cancelled behind another one was not executed. -/
def Execution.FailedItself (execution : Execution manager routed) (id : String) : Prop :=
  ∃ (index : Nat) (task : RoutedTask),
    (strategyTaskOrder routed manager.options.strategy)[index]? = some task ∧ task.id = id ∧
      manager.options.strategy.syntheticId index ∈ execution.scheduled.state.executed ∧
      execution.scheduled.state.status (manager.options.strategy.syntheticId index) ≠ .completed

namespace Execution

variable {execution : Execution manager routed} {plan : PlannerPlan}

/-- The strategy did not complete the task at the position. -/
def Unfinished (execution : Execution manager routed) (index : Nat) : Prop :=
  execution.scheduled.state.status (manager.options.strategy.syntheticId index) ≠ .completed

/-- What is known about an execution of a prepared plan whose result is a failure. -/
structure Sound (execution : Execution manager routed) (plan : PlannerPlan) : Prop where
  failed : execution.result.status = .failed
  orders : Orders plan (strategyTaskOrder routed manager.options.strategy)
  mapped : Mapped manager.options.strategy routed execution.input.plan
    (strategyTaskOrder routed manager.options.strategy)
  strategy : execution.input.plan.strategy = manager.options.strategy
  ran : execution.input.plan.Ran execution.scheduled

theorem sound_of_failed {pool : List AgentDescriptor} (failed : execution.result.status = .failed)
    (prepared : prepare pool plan = .ok routed) : execution.Sound plan := by
  obtain ⟨accepted, routedTo⟩ := prepare_ok prepared
  have mapped := mapped_of_ok (routed_ids routedTo ▸ accepted.distinct) execution.mapped
  exact ⟨failed, orders_of_prepared prepared mapped.perm mapped.depsFirst, mapped,
    strategy_of_ok execution.mapped,
    SupervisorPlan.ran_of_schedule execution.returned (execution.unstopped failed)⟩

namespace Sound

theorem inside_iff (sound : execution.Sound plan) {index : Nat} :
    index < execution.input.plan.size ↔ ∃ task : RoutedTask,
      (strategyTaskOrder routed manager.options.strategy)[index]? = some task := by
  rw [sound.mapped.size, ← Option.isSome_iff_exists]
  simp

/-- The replanner is given the tasks that the strategy did not complete. -/
theorem mem_taskIds (sound : execution.Sound plan) {attempt : Nat} {id : String} :
    id ∈ (manager.mapFailure routed (classifyResult execution.result attempt)).taskIds ↔
      ∃ (index : Nat) (task : RoutedTask),
        (strategyTaskOrder routed manager.options.strategy)[index]? = some task ∧ task.id = id ∧
          execution.Unfinished index := by
  rw [mapFailure_taskIds, List.mem_map]
  constructor
  · rintro ⟨strategyTaskId, listed, rfl⟩
    obtain ⟨index, inside, rfl, unfinished⟩ :=
      (execution.mem_failures_iff sound.failed).mp listed
    rw [sound.strategy] at unfinished ⊢
    obtain ⟨task, here⟩ := sound.inside_iff.mp inside
    exact ⟨index, task, here, (planIdOf_syntheticId here).symm, unfinished⟩
  · rintro ⟨index, task, here, rfl, unfinished⟩
    refine ⟨manager.options.strategy.syntheticId index, ?_, planIdOf_syntheticId here⟩
    refine (execution.mem_failures_iff sound.failed).mpr ⟨index, sound.inside_iff.mpr ⟨task, here⟩,
      ?_, unfinished⟩
    rw [sound.strategy]

/-- Behind an unfinished task there is one that failed itself, and the task depends on it
unless the run was sequential. -/
theorem failed_root (sound : execution.Sound plan) {i : Nat} {task : RoutedTask}
    (here : (strategyTaskOrder routed manager.options.strategy)[i]? = some task)
    (unfinished : execution.Unfinished i) :
    ∃ (k : Nat) (root : RoutedTask), k ≤ i ∧
      (strategyTaskOrder routed manager.options.strategy)[k]? = some root ∧
      execution.FailedItself root.id ∧
      (manager.options.strategy ≠ .sequential → ReflTransGen plan.DependsOn task.id root.id) := by
  have inside := sound.inside_iff.mpr ⟨task, here⟩
  have strategy := sound.strategy
  obtain ⟨k, less, executed, failing, flat⟩ := sound.ran.failed_root inside (strategy ▸ unfinished)
  rw [strategy] at executed failing flat
  obtain ⟨root, there⟩ := sound.inside_iff.mp (Nat.lt_of_le_of_lt less inside)
  refine ⟨k, root, less, there, ⟨k, root, there, rfl, executed, failing⟩, ?_⟩
  intro parallel
  cases chosen : manager.options.strategy with
  | sequential => exact absurd chosen parallel
  | broadcast =>
      obtain rfl := flat chosen
      rw [here] at there
      cases there
      exact .refl
  | relay => exact sound.orders.chain_path (sound.mapped.chain chosen) less there here

/-- A task behind a failed one in a sequential run is unfinished. -/
theorem unfinished_of_precedes (sound : execution.Sound plan) {root id : String}
    (sequential : manager.options.strategy = .sequential) (failing : execution.FailedItself root)
    (behind : Precedes (strategyTaskOrder routed manager.options.strategy) root id) :
    ∃ (index : Nat) (task : RoutedTask),
      (strategyTaskOrder routed manager.options.strategy)[index]? = some task ∧ task.id = id ∧
        execution.Unfinished index := by
  obtain ⟨i, j, a, b, less, first, second, rfl, rfl⟩ := behind
  obtain ⟨k, task, here, same, -, unfinished⟩ := failing
  obtain rfl := sound.orders.unique here first same
  refine ⟨j, b, second, rfl, ?_⟩
  have strategy := sound.strategy
  have chain : execution.input.plan.strategy ≠ .broadcast := by
    rw [strategy, sequential]
    nofun
  have later := sound.ran.fails_later chain (strategy ▸ unfinished) (Nat.le_of_lt less)
    (sound.inside_iff.mpr ⟨b, second⟩)
  rwa [strategy] at later

end Sound

end Execution

/-- What a replan removes: the tasks that failed themselves and their dependents in the
plan, and in a sequential run also every task that was ordered behind a failed one. The
other tasks are kept, in their order. -/
theorem replan_removes {plan : PlannerPlan} {aborted : Bool} {es : List Event}
    (reaches : manager.Reaches plan aborted es s) (running : s.phase = .running routed)
    (execution : Execution manager routed)
    (transition : manager.step s (.settle (.ok execution.result)) = some t)
    (more : s.replansUsed < t.replansUsed) :
    t.currentPlan.tasks.Sublist s.currentPlan.tasks ∧
      ∀ task ∈ s.currentPlan.tasks, task ∉ t.currentPlan.tasks ↔
        ∃ root, execution.FailedItself root ∧
          (ReflTransGen s.currentPlan.DependsOn task.id root ∨
            (manager.options.strategy = .sequential ∧
              Precedes (strategyTaskOrder routed manager.options.strategy) root task.id)) := by
  obtain ⟨failed, replanned, current, pruned⟩ := replan_taken running transition more
  obtain ⟨prepared, -⟩ := reaches.prepared routed running
  have sound := Execution.sound_of_failed failed prepared
  constructor
  · rw [current, (deterministicReplan_ok pruned).2]
    exact List.filter_sublist
  intro task member
  rw [current, removed_iff pruned member]
  constructor
  · rintro ⟨id, listed, path⟩
    obtain ⟨i, failing, here, rfl, unfinished⟩ := sound.mem_taskIds.mp listed
    obtain ⟨k, root, less, there, itself, dependent⟩ := sound.failed_root here unfinished
    refine ⟨root.id, itself, ?_⟩
    by_cases sequential : manager.options.strategy = .sequential
    · obtain ⟨other, known, same⟩ := List.mem_map.mp
        ((sound.orders.known task.id).mp (List.mem_map_of_mem member))
      obtain ⟨j, inside, rfl⟩ := List.getElem_of_mem known
      have stands := List.getElem?_eq_getElem inside
      rw [← same] at path ⊢
      obtain ⟨i', failing', before, found, again⟩ := sound.orders.path_back stands path
      obtain rfl := sound.orders.unique found here again
      obtain rfl | behind := Nat.eq_or_lt_of_le (less.trans before)
      · rw [stands] at there
        cases there
        exact .inl .refl
      · exact .inr ⟨sequential, k, j, root, _, behind, there, stands, rfl, rfl⟩
    · exact .inl (path.trans (dependent sequential))
  · rintro ⟨root, failing, path | ⟨sequential, behind⟩⟩
    · obtain ⟨index, other, here, same, -, unfinished⟩ := failing
      exact ⟨root, sound.mem_taskIds.mpr ⟨index, other, here, same, unfinished⟩, path⟩
    · exact ⟨task.id, sound.mem_taskIds.mpr
        (sound.unfinished_of_precedes sequential failing behind), .refl⟩

def coverTask : PlanTask := ⟨"cover", "draw a cover", none, none, none, none, none⟩

def indexTask : PlanTask := ⟨"index", "make an index", none, none, none, none, none⟩

/-- Three tasks, none of which depends on another. -/
def bookPlan : PlannerPlan := ⟨[draftTask, coverTask, indexTask]⟩

def bookTasks : List RoutedTask :=
  bookPlan.tasks.map fun task => ⟨task.id, task.prompt, "writer", none, none, none⟩

def bookRouted : RoutedPlan :=
  ⟨bookTasks, bookTasks.map fun task => ⟨task.id, "writer", .roundRobin⟩⟩

def bookInput : SupervisorRunInput :=
  ⟨"run-1", "publish",
    .sequential (bookTasks.map fun task => ⟨"writer", task.prompt, none, none⟩), none, none⟩

/-- The draft is written, and then the cover fails. -/
def coverFails : List Scheduler.Event :=
  [.ret none, .resolve "seq-0" (.fulfilled ⟨"seq-0", .completed, some "a draft", none, 5, none⟩),
    .tick, .tick, .ret none,
    .resolve "seq-1" (.fulfilled ⟨"seq-1", .failed, none, some "offline", 5, none⟩), .tick, .tick]

def coverExecution : Execution soloManager bookRouted where
  input := bookInput
  accepted := by decide
  signalAborted := false
  events := coverFails
  awaits := fun _ => by simp [coverFails, Sequential.Awaits]
  scheduled := (schedule bookInput.plan.graph false coverFails).get (by decide)
  returned := (Option.some_get _).symm
  report := (bookInput.plan.dispatch false coverFails).get (by decide)
  dispatched := (Option.some_get _).symm
  latches := ⟨false, false⟩
  latched := fun aborted => absurd aborted (by decide)
  durationMs := 10

theorem replan_removes_coverFails :
    ∃ t, soloManager.step (soloManager.start bookPlan false)
        (.settle (.ok coverExecution.result)) = some t ∧
      ∀ task ∈ bookPlan.tasks, task ∉ t.currentPlan.tasks → ∃ root,
        coverExecution.FailedItself root ∧
          (ReflTransGen bookPlan.DependsOn task.id root ∨
            Precedes (strategyTaskOrder bookRouted .sequential) root task.id) := by
  have reaches : soloManager.Reaches bookPlan false [] (soloManager.start bookPlan false) := rfl
  have running : (soloManager.start bookPlan false).phase = .running bookRouted := by decide
  refine ⟨_, rfl, ?_⟩
  intro task member removed
  obtain ⟨root, failing, path | ⟨-, behind⟩⟩ :=
    ((replan_removes reaches running coverExecution rfl (by decide)).2 task member).mp removed
  · exact ⟨root, failing, .inl path⟩
  · exact ⟨root, failing, .inr behind⟩

/-- The cover fails in a sequential run, and the replan drops the index, which depends
on nothing and did not fail. -/
theorem independentIndex_removed :
    ∃ t, soloManager.Reaches bookPlan false [] (soloManager.start bookPlan false) ∧
      (soloManager.start bookPlan false).phase = .running bookRouted ∧
      soloManager.step (soloManager.start bookPlan false)
        (.settle (.ok coverExecution.result)) = some t ∧
      (soloManager.start bookPlan false).replansUsed < t.replansUsed ∧
      indexTask ∈ (soloManager.start bookPlan false).currentPlan.tasks ∧
      (∀ root, coverExecution.FailedItself root →
        ¬ ReflTransGen (soloManager.start bookPlan false).currentPlan.DependsOn indexTask.id root) ∧
      indexTask ∉ t.currentPlan.tasks := by
  refine ⟨_, rfl, by decide, rfl, by decide, by decide, ?_, by decide⟩
  have independent : ∀ task ∈ (soloManager.start bookPlan false).currentPlan.tasks,
      task.dependsOn.getD [] = [] := by decide
  have unexecuted : ∀ position < 3,
      ((strategyTaskOrder bookRouted soloManager.options.strategy)[position]?.any fun task =>
        decide (task.id = indexTask.id)) = true →
      soloManager.options.strategy.syntheticId position ∉
        coverExecution.scheduled.state.executed := by decide
  rintro root ⟨position, task, here, rfl, executed, -⟩ path
  obtain same | ⟨dep, ⟨other, member, -, edge⟩, -⟩ := path.cases_head
  · have inside : position < 3 := (List.getElem?_eq_some_iff.mp here).1
    exact unexecuted position inside (by simp [here, same]) executed
  · rw [independent other member] at edge
    cases edge

end RecoveryManager

end MultiAgent.Native.Recovery
