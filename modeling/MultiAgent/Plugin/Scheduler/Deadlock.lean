import MultiAgent.Foundations.Sweep
import MultiAgent.Plugin.Scheduler.Results

/-!
# The deadlock check

`_skip_blocked` and `_launch_ready` each go through the pending tasks once. A
task that the first leaves behind, and a task behind one that the second finishes
as saturated, is only looked at again if the loop goes on, and the loop takes it
for deadlocked when nothing is running. `Clears` says exactly when a pass leaves
no such task.
-/

namespace MultiAgent.Plugin.TaskScheduler

variable {α : Type} {scheduler : TaskScheduler} {deadline context : Option ℚ}
  {iter : List String → List String} {plan : TaskPlan} {status : String → TaskStatus}
  {s t u : RunState α} {es : List (Event α)} {onEvent : OnEvent α} {task : Task}
  {result : TaskResult α}

section Views

theorem unsuccessful_record (onEvent : OnEvent α) (id : String) (closes : Closes task result)
    (bad : result.status.isUnsuccessful = true) :
    (s.record onEvent task result).unsuccessful id =
      if id = task.id then some result else s.unsuccessful id := by
  unfold RunState.unsuccessful
  change ((s.results.set result.taskId result).get? id).filter _ = _
  rw [Dict.get?_set, closes.own]
  split
  · simp [bad]
  · rfl

/-- Recording a failure for a task without a result makes nothing ready, and
nothing that was ready blocked. -/
theorem isReady_record (onEvent : OnEvent α) (other : Task) (closes : Closes task result)
    (bad : result.status ≠ .success) (fresh : task.id ∉ s.results.keys) :
    (s.record onEvent task result).isReady other = s.isReady other := by
  simp only [RunState.isReady, RunState.record, Dict.get?_set, closes.own]
  congr 1
  funext dep
  by_cases same : dep = task.id
  · simp [same, Dict.get?_eq_none_iff.mpr fresh, bad]
  · simp [same]

theorem not_isReady_of_unsuccessful {dep : String} (edge : dep ∈ task.dependsOn)
    (bad : (s.unsuccessful dep).isSome = true) : s.isReady task = false := by
  obtain ⟨result, found⟩ := Option.isSome_iff_exists.mp bad
  obtain ⟨kept, failed⟩ := Option.filter_eq_some_iff.mp found
  refine List.all_eq_false.mpr ⟨dep, edge, ?_⟩
  rw [kept]
  intro success
  rw [of_decide_eq_true success] at failed
  cases failed

theorem not_isReady_of_pending (tracked : Tracked plan s) {other : Task}
    (waiting : other ∈ s.pending) (edge : other.id ∈ task.dependsOn) : s.isReady task = false := by
  refine List.all_eq_false.mpr ⟨other.id, edge, ?_⟩
  rw [Dict.get?_eq_none_iff.mpr (tracked.pendingOpen other waiting)]
  exact Bool.false_ne_true

end Views

section Skip

/-- The ids that one round of `_skip_blocked` skips. -/
def skipped (plan : TaskPlan) (s : RunState α) : List String :=
  sweep plan.dependsOn (fun _ => true) (fun id => (s.unsuccessful id).isSome)
    (s.pending.map Task.id)

/-- Between the rounds of `_skip_blocked`, begun in `s`, with `rest` to come. -/
structure Skipping (plan : TaskPlan) (s : RunState α) (rest : List Task) (t : RunState α) :
    Prop where
  tracked : Tracked plan t
  queued : Queued rest t
  running : t.running = s.running
  ready : ∀ task, t.isReady task = s.isReady task
  gone : ∃ gone, gone ++ sweep plan.dependsOn (fun _ => true)
      (fun id => (t.unsuccessful id).isSome) (rest.map Task.id) = skipped plan s ∧
    ∀ task, task ∈ t.pending ↔ task ∈ s.pending ∧ task.id ∉ gone

/-- A round over a task that nothing blocks sweeps nothing. -/
theorem sweep_of_clear {rest : List Task} (known : task ∈ plan.tasks)
    (clear : t.blocks task = false) :
    sweep plan.dependsOn (fun _ => true) (fun id => (t.unsuccessful id).isSome)
        ((task :: rest).map Task.id) =
      sweep plan.dependsOn (fun _ => true) (fun id => (t.unsuccessful id).isSome)
        (rest.map Task.id) := by
  rw [List.map_cons, sweep, TaskPlan.dependsOn_id known]
  change (if (true && t.blocks task) = true then _ else _) = _
  rw [clear]
  rfl

/-- A round over a blocked task sweeps it, and the rest goes on from its result. -/
theorem sweep_of_blocked {rest : List Task} (onEvent : OnEvent α) (known : task ∈ plan.tasks)
    (blocked : t.blocks task = true) (closes : Closes task result)
    (bad : result.status.isUnsuccessful = true) :
    sweep plan.dependsOn (fun _ => true) (fun id => (t.unsuccessful id).isSome)
        ((task :: rest).map Task.id) =
      task.id :: sweep plan.dependsOn (fun _ => true)
        (fun id => ((t.record onEvent task result).unsuccessful id).isSome)
        (rest.map Task.id) := by
  rw [List.map_cons, sweep, TaskPlan.dependsOn_id known]
  change (if (true && t.blocks task) = true then _ else _) = _
  rw [blocked]
  refine congrArg (task.id :: ·) (congrArg (sweep _ _ · _) (funext ?_))
  intro id
  rw [unsuccessful_record onEvent id closes bad]
  by_cases same : id = task.id <;> simp [same]

/-- What is left of `s.pending` once one more task is gone. -/
theorem mem_pending_gone {gone : List String} {other : Task}
    (left : ∀ task, task ∈ t.pending ↔ task ∈ s.pending ∧ task.id ∉ gone) :
    other ∈ (t.dropPending task).pending ↔ other ∈ s.pending ∧ other.id ∉ gone ++ [task.id] := by
  refine mem_dropPending.trans ((and_congr_left' (left other)).trans ?_)
  rw [and_assoc, List.mem_append, List.mem_singleton, not_or]

theorem skipTask_spec {rest : List Task} :
    Triple (Skipping plan s (task :: rest)) (skipTask onEvent task)
      (fun _ => Skipping plan s rest) (fun e _ => Raises onEvent e) := by
  refine skipTask_rule ?_ ?_ fun _ _ _ _ raised => raised.raises
  · intro t before clear
    obtain ⟨gone, split_, left⟩ := before.gone
    have known := before.tracked.pendingKnown task (before.queued.waiting task List.mem_cons_self)
    rw [sweep_of_clear known clear] at split_
    exact ⟨before.tracked, before.queued.tail, before.running, before.ready, gone, split_, left⟩
  · intro t error before blocked _
    obtain ⟨gone, split_, left⟩ := before.gone
    have member := before.queued.waiting task List.mem_cons_self
    have closes : Closes task (⟨task.id, .skipped, none, some error, task.agent, 0⟩ :
        TaskResult α) := ⟨rfl, rfl⟩
    rw [sweep_of_blocked onEvent (before.tracked.pendingKnown task member) blocked closes rfl]
      at split_
    refine ⟨before.tracked.settle member closes, before.queued.drop rfl, before.running, ?_,
      gone ++ [task.id], ?_, fun _ => mem_pending_gone left⟩
    · intro other
      exact (isReady_record onEvent other closes (by simp)
        (before.tracked.pendingOpen task member)).trans (before.ready other)
    · rw [List.append_assoc]
      exact split_

theorem skipBlocked_skipping (tracked : Tracked plan s) :
    Triple (fun t => t = s) (skipBlocked onEvent) (fun _ => Skipping plan s [])
      (fun e _ => Raises onEvent e) := by
  apply Triple.get
  intro t begun
  subst begun
  refine (Triple.forM (I := Skipping plan t) t.pending fun task rest => skipTask_spec).of_entry ?_
  exact ⟨tracked, ⟨fun _ h => h, tracked.pendingDistinct⟩, rfl, fun _ => rfl, [], rfl,
    fun task => by simp⟩

theorem Skipping.pending (skipping : Skipping plan s [] t) :
    task ∈ t.pending ↔ task ∈ s.pending ∧ task.id ∉ skipped plan s := by
  obtain ⟨gone, whole, left⟩ := skipping.gone
  rw [left, ← whole]
  simp [sweep]

end Skip

section Launch

variable {now : ℚ} {submit : Task → Submission} {E : PyException → RunState α → Prop}

/-- Once something is running, that stays so for the rest of the loop. -/
theorem launchLoop_busy (rest : List Task) :
    Triple (fun t : RunState α => t.running ≠ [])
      (launchLoop scheduler deadline now submit onEvent rest) (fun _ t => t.running ≠ [])
      fun e _ => Raises onEvent e ∨ e ≠ .deadlock := by
  induction rest with
  | nil => exact Triple.pure fun _ h => h
  | cons task rest ih =>
      refine Triple.get fun t busy => Triple.ite (fun _ => Triple.pure ?_) fun _ =>
        Triple.ite (fun _ => Triple.bind (R := fun _ u => u.running ≠ []) ?_ fun _ => ih)
          fun _ => ih.of_entry busy
      · rintro _ rfl
        exact busy
      · refine Triple.bind (R := fun _ u => u.running ≠ [])
          (Triple.assign (by rintro _ rfl; exact busy)) fun _ => ?_
        split
        · exact Triple.assign fun u _ => by simp
        · exact settle_spec (fun u busy => busy) fun _ _ _ raised => .inl raised
        · exact Triple.throw fun _ _ => .inr (by simp)

/-- Between the rounds of `_launch_ready`, begun in `s` with nothing running,
while every submission has been refused. -/
structure Refused (plan : TaskPlan) (submit : Task → Submission) (s : RunState α)
    (rest : List Task) (t : RunState α) : Prop where
  tracked : Tracked plan t
  queued : Queued rest t
  idle : t.running = []
  ready : ∀ task, t.isReady task = s.isReady task
  refused : ∀ task ∈ s.pending, s.isReady task = true → task ∉ rest → submit task = .saturated
  left : ∀ task, task ∈ t.pending ↔ task ∈ s.pending ∧ ¬ (s.isReady task = true ∧ task ∉ rest)

/-- Some ready task was not refused. -/
def Admits (submit : Task → Submission) (s : RunState α) : Prop :=
  ∃ task ∈ s.pending, s.isReady task = true ∧ submit task ≠ .saturated

theorem Refused.pass {rest : List Task} (before : Refused plan submit s (task :: rest) t)
    (blocked : ¬ s.isReady task = true) : Refused plan submit s rest t := by
  have same : ∀ other, s.isReady other = true → (other ∉ rest ↔ other ∉ task :: rest) := by
    intro other ready
    have differs : other ≠ task := fun equal => blocked (equal ▸ ready)
    simp [differs]
  refine ⟨before.tracked, before.queued.tail, before.idle, before.ready, ?_, ?_⟩
  · exact fun other member ready absent =>
      before.refused other member ready ((same other ready).mp absent)
  · intro other
    rw [before.left]
    exact and_congr_right fun _ => not_congr (and_congr_right fun ready => (same other ready).symm)

/-- A refused submission ends its task as timed out. -/
theorem Refused.refuse {rest : List Task} (before : Refused plan submit s (task :: rest) t)
    (ready : s.isReady task = true) (saturated : submit task = .saturated)
    (closes : Closes task result) (bad : result.status ≠ .success) :
    Refused plan submit s rest ((t.record onEvent task result).dropPending task) := by
  have member := before.queued.waiting task List.mem_cons_self
  have known := before.tracked.pendingKnown
  refine ⟨before.tracked.settle member closes, before.queued.drop rfl, before.idle, ?_, ?_, ?_⟩
  · intro other
    exact (isReady_record onEvent other closes bad (before.tracked.pendingOpen task member)).trans
      (before.ready other)
  · intro other here fine absent
    by_cases same : other = task
    · exact same ▸ saturated
    · exact before.refused other here fine (by simp [same, absent])
  · intro other
    refine List.mem_filter.trans ((and_congr_right fun h : other ∈ t.pending => ?_).trans
      (b := other ∈ t.pending ∧ other ≠ task) ?_)
    · exact decide_eq_true_iff.trans (not_congr
        ⟨fun same => TaskPlan.eq_of_id_eq (known other h) (known task member) same, congrArg _⟩)
    · have fresh : task ∉ rest := fun h =>
        (List.nodup_cons.mp before.queued.distinct).1 (List.mem_map_of_mem h)
      rw [before.left]
      by_cases same : other = task
      · simp [same, ready, fresh]
      · simp [same]

theorem launchLoop_idle (room : ∀ limit ∈ scheduler.maxConcurrency, 1 ≤ limit)
    (rest : List Task) :
    Triple (Refused plan submit s rest)
      (launchLoop scheduler deadline now submit onEvent rest)
      (fun _ t => Refused plan submit s [] t ∨ (t.running ≠ [] ∧ Admits submit s))
      fun e _ => Raises onEvent e ∨ (e ≠ .deadlock ∧ Admits submit s) := by
  induction rest with
  | nil => exact Triple.pure fun _ before => .inl before
  | cons task rest ih =>
      refine Triple.get fun t before => Triple.ite ?_ fun _ => Triple.ite ?_ ?_
      · intro full
        unfold atCapacity at full
        split at full
        · cases full
        · rename_i limit given
          have small := of_decide_eq_true full
          have large := room limit given
          rw [before.idle] at small
          exact absurd (Int.le_trans large small) (by decide)
      · intro ready
        have member := before.queued.waiting task List.mem_cons_self
        have here := ((before.left task).mp member).1
        rw [before.ready] at ready
        unfold launchTask
        cases answer : submit task with
        | accepted started =>
            have admits : Admits submit s := ⟨task, here, ready, by simp [answer]⟩
            refine Triple.bind (R := fun _ u => u.running ≠ []) ?_ fun _ =>
              (launchLoop_busy rest).conseq (fun _ h => h) (fun _ _ busy => .inr ⟨busy, admits⟩)
                fun _ _ raised => raised.imp_right (⟨·, admits⟩)
            exact Triple.bind (R := fun _ _ => True) (Triple.assign fun _ _ => trivial) fun _ =>
              Triple.assign fun u _ => by simp
        | saturated =>
            refine Triple.bind (R := fun _ => Refused plan submit s rest) ?_ fun _ => ih
            refine Triple.bind (R := fun _ => Refused plan submit s (task :: rest))
              (Triple.assign ?_) fun _ => settle_spec ?_
                fun _ _ _ raised => .inl raised
            · rintro _ rfl
              exact ⟨before.tracked.restate rfl rfl rfl,
                ⟨before.queued.waiting, before.queued.distinct⟩, before.idle, before.ready,
                before.refused, before.left⟩
            · intro u before
              exact before.refuse ready answer ⟨rfl, rfl⟩ (by simp)
        | failed text =>
            have admits : Admits submit s := ⟨task, here, ready, by simp [answer]⟩
            refine Triple.bind (R := fun _ _ => False) ?_ fun _ u h => h.elim
            exact Triple.bind (R := fun _ _ => True) (Triple.assign fun _ _ => trivial) fun _ =>
              Triple.throw fun _ _ => .inr ⟨by simp, admits⟩
      · intro blocked
        rw [before.ready] at blocked
        exact ih.of_entry (before.pass blocked)

end Launch

/-- A pending task that is not ready. -/
def Blocked (s : RunState α) (id : String) : Prop :=
  ∃ task ∈ s.pending, task.id = id ∧ s.isReady task = false

/-- The dependency lets `_skip_blocked` skip the task: it ended without success,
or is itself pending, not ready, and listed before the task. -/
def Leads (s : RunState α) (dep id : String) : Prop :=
  (s.unsuccessful dep).isSome = true ∨
    (Blocked s dep ∧ (s.pending.map Task.id).idxOf dep < (s.pending.map Task.id).idxOf id)

/-- The pass leaves no task to a deadlock: with nothing running, before the
deadline, and with every ready task refused by the pool, each pending task that
is not ready has a dependency that lets it be skipped. -/
def Clears (deadline : Option ℚ) (s : RunState α) : Event α → Prop
  | .pass pass =>
    s.running = [] → passed deadline pass.now = false → ¬ Admits pass.submit s →
    ∀ task ∈ s.pending, s.isReady task = false → ∃ dep ∈ task.dependsOn, Leads s dep task.id
  | .wake _ => True

theorem Blocked.of_skipped (tracked : Tracked plan s) {id : String}
    (gone : id ∈ skipped plan s) : Blocked s id := by
  have distinct := tracked.pendingDistinct
  have member : id ∈ s.pending.map Task.id := Sweep.mem_of_mem gone
  obtain ⟨task, waiting, rfl⟩ := List.mem_map.mp member
  obtain ⟨-, dep, edge, bad | ⟨before, -⟩⟩ := (Sweep.mem_iff distinct member).mp gone
  all_goals rw [TaskPlan.dependsOn_id (tracked.pendingKnown task waiting)] at edge
  · exact ⟨task, waiting, rfl, not_isReady_of_unsuccessful edge bad⟩
  · obtain ⟨other, here, rfl⟩ := List.mem_map.mp (Sweep.mem_of_mem before)
    exact ⟨task, waiting, rfl, not_isReady_of_pending tracked here edge⟩

/-- Every task that is not ready is skipped exactly when each has a dependency
that leads to it. -/
theorem skips_iff (tracked : Tracked plan s) :
    (∀ task ∈ s.pending, s.isReady task = false → task.id ∈ skipped plan s) ↔
      ∀ task ∈ s.pending, s.isReady task = false → ∃ dep ∈ task.dependsOn,
        Leads s dep task.id := by
  have whole : (∀ id ∈ s.pending.map Task.id, Blocked s id → id ∈ skipped plan s) ↔
      ∀ id ∈ s.pending.map Task.id, Blocked s id →
        ∃ dep ∈ plan.dependsOn id, Leads s dep id :=
    Sweep.covers_iff tracked.pendingDistinct (fun _ _ _ => rfl) fun _ => Blocked.of_skipped tracked
  have named : ∀ {p : String → Prop}, (∀ id ∈ s.pending.map Task.id, Blocked s id → p id) ↔
      ∀ task ∈ s.pending, s.isReady task = false → p task.id := by
    intro p
    constructor
    · intro all task waiting blocked
      exact all task.id (List.mem_map_of_mem waiting) ⟨task, waiting, rfl, blocked⟩
    · rintro all _ - ⟨task, waiting, rfl, blocked⟩
      exact all task waiting blocked
  rw [← named, whole, named]
  apply forall_congr'
  intro task
  apply forall_congr'
  intro waiting
  rw [TaskPlan.dependsOn_id (tracked.pendingKnown task waiting)]

theorem Skipping.admits_iff (tracked : Tracked plan s) (skipping : Skipping plan s [] t)
    {submit : Task → Submission} : Admits submit t ↔ Admits submit s := by
  unfold Admits
  apply exists_congr
  intro task
  rw [skipping.pending, skipping.ready, and_assoc]
  apply and_congr_right
  intro waiting
  apply and_iff_right_of_imp
  rintro ⟨ready, _⟩ gone
  obtain ⟨other, here, same, blocked⟩ := Blocked.of_skipped tracked gone
  have equal := TaskPlan.eq_of_id_eq (tracked.pendingKnown other here)
    (tracked.pendingKnown task waiting) same
  rw [equal, ready] at blocked
  cases blocked

/-- Where `_launch_ready` begins. -/
theorem Skipping.refused {submit : Task → Submission} (skipping : Skipping plan s [] t)
    (idle : s.running = []) : Refused plan submit t t.pending t where
  tracked := skipping.tracked
  queued := ⟨fun _ h => h, skipping.tracked.pendingDistinct⟩
  idle := skipping.running.trans idle
  ready _ := rfl
  refused task member _ absent := absurd member absent
  left task := by simp +contextual

/-- With nothing running and every ready task refused, the tasks that remain are
those that were neither ready nor skipped. -/
theorem clears_iff_drained {pass : Pass α} (tracked : Tracked plan s) (idle : s.running = [])
    (early : passed deadline pass.now = false) (skipping : Skipping plan s [] t)
    (refused : Refused plan pass.submit t [] u) :
    Clears deadline s (.pass pass) ↔ u.pending = [] := by
  have closed : ¬ Admits pass.submit s := by
    rw [← skipping.admits_iff tracked]
    rintro ⟨task, waiting, ready, accepted⟩
    exact accepted (refused.refused task waiting ready List.not_mem_nil)
  have remains : ∀ task, task ∈ u.pending ↔
      (task ∈ s.pending ∧ task.id ∉ skipped plan s) ∧ s.isReady task = false := by
    intro task
    rw [refused.left, skipping.pending, skipping.ready]
    simp
  have clears : Clears deadline s (.pass pass) ↔
      ∀ task ∈ s.pending, s.isReady task = false → ∃ dep ∈ task.dependsOn, Leads s dep task.id :=
    ⟨fun clears => clears idle early closed, fun leads _ _ _ => leads⟩
  rw [clears, ← skips_iff tracked, List.eq_nil_iff_forall_not_mem]
  apply forall_congr'
  intro task
  rw [remains]
  tauto

/-- `_run` raised the error of its deadlock check. -/
def Deadlocked (s : RunState α) : Prop := ∃ last, s.control = .raised .deadlock last

theorem conclude_deadlock {after : ℚ} {C : Prop} (clears : C) :
    Triple (fun _ : RunState α => True) (conclude deadline after)
      (fun _ t => C ∧ ¬ Deadlocked t) fun e _ => Raises onEvent e ∨ (e = .deadlock ↔ ¬ C) := by
  refine Triple.get fun s _ => Triple.ite (fun _ => Triple.throw fun _ _ => .inr ?_)
    fun _ => Triple.assign fun _ _ => ⟨clears, fun ⟨_, control⟩ => by cases control⟩
  simp [clears]

/-- How `_launch_ready` ends in a pass that began in `s`: late, with something
running, or with every ready task refused. -/
theorem launchReady_ends {pass : Pass α} (room : ∀ limit ∈ scheduler.maxConcurrency, 1 ≤ limit)
    (tracked : Tracked plan s) (skipping : Skipping plan s [] t) :
    Triple (fun v => v = t)
      (launchReady scheduler deadline pass.now pass.submit pass.onEvent)
      (fun _ v => passed deadline pass.now = false ∧
        (v.running ≠ [] ∧ (s.running = [] → Admits pass.submit s) ∨
          s.running = [] ∧ Refused plan pass.submit t [] v))
      fun e _ => Raises pass.onEvent e ∨ (e ≠ .deadlock ∧ Clears deadline s (.pass pass)) := by
  refine Triple.ite (fun late => Triple.throw fun _ _ => .inr ⟨by simp, ?_⟩)
    fun early => Triple.get ?_
  · intro _ early
    rw [late] at early
    cases early
  intro w begun
  have early : passed deadline pass.now = false := Bool.eq_false_iff.mpr early
  subst begun
  by_cases idle : s.running = []
  · have loop : Triple (Refused plan pass.submit w w.pending)
        (launchLoop scheduler deadline pass.now pass.submit pass.onEvent w.pending) _ _ :=
      launchLoop_idle room w.pending
    refine (loop.of_entry (skipping.refused idle)).conseq (fun _ h => h) ?_ ?_
    · rintro _ v (refused | ⟨busy, admits⟩)
      · exact ⟨early, .inr ⟨idle, refused⟩⟩
      · exact ⟨early, .inl ⟨busy, fun _ => (skipping.admits_iff tracked).mp admits⟩⟩
    · exact fun e v raised => raised.imp_right fun ⟨differs, admits⟩ =>
        ⟨differs, fun _ _ closed => absurd ((skipping.admits_iff tracked).mp admits) closed⟩
  · refine ((launchLoop_busy w.pending).of_entry (skipping.running ▸ idle)).conseq
      (fun _ h => h) ?_ ?_
    · exact fun _ v busy => ⟨early, .inl ⟨busy, fun h => absurd h idle⟩⟩
    · exact fun e _ raised => raised.imp_right fun differs =>
        ⟨differs, fun h => absurd h idle⟩

/-- How a pass ends: in the deadlock check exactly when it does not clear. -/
theorem passBody_deadlock {pass : Pass α} (room : ∀ limit ∈ scheduler.maxConcurrency, 1 ≤ limit)
    (tracked : Tracked plan s) :
    Triple (fun t => t = s) (passBody scheduler deadline pass)
      (fun _ t => Clears deadline s (.pass pass) ∧ ¬ Deadlocked t)
      fun e _ => Raises pass.onEvent e ∨ (e = .deadlock ↔ ¬ Clears deadline s (.pass pass)) := by
  apply Triple.get
  intro u begun
  subst begun
  refine Triple.ite ?_ fun _ => ?_
  · intro drained
    refine (conclude_deadlock ?_).conseq (fun _ _ => trivial) (fun _ _ h => h) fun _ _ h => h
    intro _ _ _ task waiting
    have none_ : u.pending = [] := by simpa using (Bool.and_eq_true_iff.mp drained).1
    rw [none_] at waiting
    cases waiting
  refine Triple.bind ((skipBlocked_skipping tracked).imp_raised fun _ _ raised => .inl raised)
    fun _ => Triple.entry ?_
  intro t skipping
  refine Triple.bind ((launchReady_ends room tracked skipping).imp_raised fun e _ raised =>
    raised.imp_right fun outcome => by simp [outcome]) fun _ => Triple.get ?_
  rintro v ⟨early, ends⟩
  refine Triple.ite ?_ fun some_ => Triple.assign fun _ _ => ?_
  · intro none_
    have none_ := List.isEmpty_iff.mp none_
    obtain ⟨busy, -⟩ | ⟨idle, refused⟩ := ends
    · exact absurd none_ busy
    have decides := clears_iff_drained tracked idle early skipping refused
    refine Triple.ite ?_ fun stuck => Triple.throw fun _ _ => .inr ?_
    · intro drained
      exact (conclude_deadlock (decides.mpr (List.isEmpty_iff.mp drained))).conseq
        (fun _ _ => trivial) (fun _ _ h => h) fun _ _ h => h
    · rw [decides]
      simpa using stuck
  · refine ⟨?_, fun ⟨_, control⟩ => by cases control⟩
    obtain ⟨-, admits⟩ | ⟨-, refused⟩ := ends
    · exact fun idle _ closed => absurd (admits idle) closed
    · exact absurd (List.isEmpty_iff.mpr refused.idle) some_

/-- The callback does not raise the error of the deadlock check itself. -/
def Sober (event : Event α) : Prop := ∀ e, Raises event.onEvent e → e ≠ .deadlock

theorem Calm.sober {event : Event α} (calm : Calm event) : Sober event :=
  fun e raised => absurd raised (calm e)

theorem handler_deadlock {P : RunState α → Prop} {event : Event α} {e : PyException}
    (sober : Sober event) (differs : ∀ s, P s → e ≠ .deadlock) :
    Triple P (abort event.onEvent)
      (fun _ u => ¬ Deadlocked { u with control := .raised e u.results })
      fun e' u => ¬ Deadlocked { u with control := .raised e' .empty } := by
  refine Triple.entry fun t before => abort_raises.conseq (fun _ _ => trivial) ?_ ?_
  · intro _ u _
    rintro ⟨last, control⟩
    cases control
    exact differs t before rfl
  · rintro e' u raised ⟨last, control⟩
    cases control
    exact sober _ raised rfl

theorem not_deadlocked_step {event : Event α}
    (room : ∀ limit ∈ scheduler.maxConcurrency, 1 ≤ limit) (live : Open plan s)
    (own : OwnResults event) (sober : Sober event) (clears : Clears deadline s event)
    (taken : step scheduler deadline s event = some t) : ¬ Deadlocked t := by
  cases event with
  | pass pass =>
      obtain ⟨control, rfl⟩ := step_pass taken
      refine guarded_spec
        ((passBody_deadlock room (live (.inl control))).imp_post fun _ _ post => post.2)
        (fun e => handler_deadlock sober ?_) rfl
      intro _ raised same
      obtain raised | outcome := raised
      · exact sober e raised same
      · exact outcome.mp same clears
  | wake wake =>
      obtain ⟨control, ok, rfl⟩ := step_wake taken
      refine guarded_spec (G := fun u => ¬ Deadlocked u)
        ((wakeBody_spec own).imp_post ?_)
        (fun e => handler_deadlock sober ?_)
        ⟨live (.inr control), awaited_of_possible ok⟩
      · intro _ u post
        rintro ⟨last, ended⟩
        rw [post.1.2] at ended
        cases ended
      · intro _ raised same
        obtain raised | ⟨escapes, -⟩ := raised
        · exact sober e raised same
        · obtain ⟨text, other⟩ | ⟨text, other⟩ := escaping_cases escapes <;>
            rw [same] at other <;> cases other

/-- A pass that does not clear ends in the deadlock error. -/
theorem deadlocked_step {event : Event α} (room : ∀ limit ∈ scheduler.maxConcurrency, 1 ≤ limit)
    (live : Open plan s) (calm : Calm event) (stuck : ¬ Clears deadline s event)
    (taken : step scheduler deadline s event = some t) : Deadlocked t := by
  cases event with
  | pass pass =>
      obtain ⟨control, rfl⟩ := step_pass taken
      refine guarded_spec ((passBody_deadlock room (live (.inl control))).imp_post
        fun _ _ post => absurd post.1 stuck)
        (fun e => Triple.entry ?_) rfl
      intro _ raised
      obtain rfl := (raised.resolve_left (calm e)).mpr stuck
      exact abort_raises.conseq (fun _ _ => trivial) (fun _ u _ => ⟨u.results, rfl⟩)
        fun e' _ raised => absurd raised (calm e')
  | wake wake => exact absurd trivial stuck

/-- What `execute` and `execute_run` make of the deadlock error. -/
theorem deadlocked_iff : Deadlocked s ↔ execute s = some (.error .deadlock) := by
  unfold Deadlocked execute
  cases control : s.control <;> simp

theorem Deadlocked.executeRun (deadlocked : Deadlocked s) : ∃ last, TaskScheduler.executeRun s =
    some (.ok ⟨"failed", last, some "scheduler deadlock: unresolvable tasks remain"⟩) := by
  obtain ⟨last, control⟩ := deadlocked
  exact ⟨last, by simp [TaskScheduler.executeRun, control, PyException.text]⟩

/-- A run of a validated plan does not end with the deadlock error when each of
its passes clears. Behind a callback that does not raise, this condition is
exact. -/
theorem no_spurious_deadlock (reached : Reaches scheduler context iter plan status es s)
    (room : ∀ limit ∈ scheduler.maxConcurrency, 1 ≤ limit) :
    ((machine scheduler (scheduler.runDeadline context)).Meets
        (fun u event => (OwnResults event ∧ Sober event) ∧
          Clears (scheduler.runDeadline context) u event) (start plan status) es →
      ¬ Deadlocked s) ∧
    ((machine scheduler (scheduler.runDeadline context)).Meets
        (fun _ event => OwnResults event ∧ Calm event) (start plan status) es →
      ((machine scheduler (scheduler.runDeadline context)).Meets
        (Clears (scheduler.runDeadline context)) (start plan status) es ↔ ¬ Deadlocked s)) := by
  obtain ⟨-, execution⟩ := reached
  have begun : Open plan (start plan status : RunState α) := fun _ => Tracked.start plan status
  have first : ¬ Deadlocked (start plan status : RunState α) := fun ⟨_, control⟩ => by cases control
  constructor
  · intro meets
    have kept := Machine.run_invariant_of_meets (P := fun u => Open plan u ∧ ¬ Deadlocked u)
      (fun u event v live ok taken => ⟨open_step ok.1.1 live.1 taken,
        not_deadlocked_step room live.1 ok.1.1 ok.1.2 ok.2 taken⟩) ⟨begun, first⟩ meets execution
    exact kept.2
  · intro within
    refine Machine.meets_iff (P := Open plan) (fun u event v live ok taken =>
      open_step ok.1 live taken) ?_
      (fun u event v live ok _ taken => ⟨?_, ?_⟩) begun first within
      execution
    · intro u event v live ok taken bad
      obtain ⟨last, ended⟩ := bad
      obtain control | control := step_live taken <;> rw [control] at ended <;> cases ended
    · intro bad clears
      exact not_deadlocked_step room live ok.1 ok.2.sober clears taken bad
    · intro stuck
      exact deadlocked_step room live ok.2 stuck taken

theorem no_spurious_deadlock_draftFails :
    ∃ s : RunState Nat, Reaches unbounded none id draftAndReview (fun _ => .pending) draftFails s ∧
      ((machine unbounded (unbounded.runDeadline none)).Meets
        (Clears (unbounded.runDeadline none)) (start draftAndReview fun _ => .pending) draftFails ↔
        ¬ Deadlocked s) := by
  obtain ⟨s, reached, -⟩ := draftFails_reaches
  refine ⟨s, reached, (no_spurious_deadlock reached (by simp [unbounded])).2
    (Machine.meets_of_mem ?_ _)⟩
  intro event member _
  obtain ⟨own, calm, -⟩ := draftFails_ordinary event member
  exact ⟨own, calm⟩

/-- The pool refuses the draft in the only pass. -/
def draftRefused : List (Event Nat) :=
  [.pass { now := 0, submit := fun _ => .saturated, after := 0, onEvent := none }]

/-- The review, pending behind the draft that has just timed out, is taken for
deadlocked before a pass can skip it. -/
theorem draftRefused_deadlocks :
    ∃ s : RunState Nat,
      Reaches unbounded none id draftAndReview (fun _ => .pending) draftRefused s ∧
      (machine unbounded (unbounded.runDeadline none)).Meets
        (fun _ event => OwnResults event ∧ Calm event) (start draftAndReview fun _ => .pending)
        draftRefused ∧
      Deadlocked s := by
  have ends : ((machine unbounded (unbounded.runDeadline none)).run
      (start draftAndReview fun _ => .pending) draftRefused).any (fun s =>
        match s.control with
        | .raised .deadlock _ => true
        | _ => false) = true := by
    decide
  obtain ⟨s, execution, ended⟩ := (Option.any_eq_true _ _).mp ends
  refine ⟨s, ⟨by decide, execution⟩, ?_, ?_⟩
  · exact Machine.meets_of_mem (fun event member _ => by
      obtain rfl := List.mem_singleton.mp member
      exact ⟨trivial, calm_of_silent rfl⟩) _
  · split at ended
    · exact ⟨_, ‹_›⟩
    · cases ended

end MultiAgent.Plugin.TaskScheduler
