import MultiAgent.Plugin.Scheduler.Model

/-!
# What the bookkeeping of a run keeps

Until the run ends, a task of the plan is pending, running, or has a terminal
result under its own id. `Covered` is what every single assignment keeps, so it
also holds where an exception leaves an operation; `Tracked` adds that the three
places exclude each other, which holds between the operations. The only one that
loses a task is `_collect`, on an exception that it does not catch: `Lost`.
-/

namespace MultiAgent.Plugin.TaskScheduler

variable {α : Type} {plan : TaskPlan} {s t : RunState α} {onEvent : OnEvent α}
  {task : Task} {result : TaskResult α}

/-- Some call of the callback raises the exception. -/
def Raises (onEvent : OnEvent α) (exception : PyException) : Prop :=
  ∃ call ∈ onEvent, ∃ task result, call task result = some exception

/-- The state after `_finish`. -/
def RunState.record (s : RunState α) (onEvent : OnEvent α) (task : Task) (result : TaskResult α) :
    RunState α :=
  { s with status := Function.update s.status task.id result.status
           results := s.results.set result.taskId result
           events := if onEvent.isSome then s.events ++ [(task, result)] else s.events }

/-- The callback raises the exception at this call. -/
def RaisesAt (onEvent : OnEvent α) (task : Task) (result : TaskResult α)
    (exception : PyException) : Prop :=
  ∃ call ∈ onEvent, call task result = some exception

/-- The callback does not raise at this call. -/
def Passes (onEvent : OnEvent α) (task : Task) (result : TaskResult α) : Prop :=
  ∀ call ∈ onEvent, call task result = none

theorem RaisesAt.raises {exception : PyException}
    (raised : RaisesAt onEvent task result exception) : Raises onEvent exception := by
  obtain ⟨call, given, answer⟩ := raised
  exact ⟨call, given, task, result, answer⟩

theorem Passes.not_raisesAt {exception : PyException} (passes : Passes onEvent task result) :
    ¬ RaisesAt onEvent task result exception := by
  rintro ⟨call, given, answer⟩
  rw [passes call given] at answer
  cases answer

theorem finish_calls {P : RunState α → Prop} {Q : Unit → RunState α → Prop}
    {E : PyException → RunState α → Prop}
    (post : ∀ s, P s → Passes onEvent task result → Q () (s.record onEvent task result))
    (raised : ∀ s e, P s → RaisesAt onEvent task result e →
      E e (s.record onEvent task result)) :
    Triple P (finish onEvent task result) Q E := by
  intro s hs
  cases onEvent with
  | none => exact post s hs nofun
  | some call =>
      cases answer : call task result with
      | none =>
          have ends : TaskScheduler.finish (some call) task result s =
              .ok () (s.record (some call) task result) := by
            simp only [TaskScheduler.finish, answer]
            rfl
          rw [ends]
          exact post s hs fun other given => Option.some.inj given ▸ answer
      | some e =>
          have ends : TaskScheduler.finish (some call) task result s =
              .error e (s.record (some call) task result) := by
            simp only [TaskScheduler.finish, answer]
            rfl
          rw [ends]
          exact raised s e hs ⟨call, rfl, answer⟩

theorem finish_spec {P : RunState α → Prop} {Q : Unit → RunState α → Prop}
    {E : PyException → RunState α → Prop}
    (post : ∀ s, P s → Q () (s.record onEvent task result))
    (raised : ∀ s e, P s → Raises onEvent e → E e (s.record onEvent task result)) :
    Triple P (finish onEvent task result) Q E :=
  finish_calls (fun s h _ => post s h) fun s e h at_ => raised s e h at_.raises

/-- Results are kept under their own id, for tasks of the plan, and are terminal. -/
def Recorded (plan : TaskPlan) (results : Dict String (TaskResult α)) : Prop :=
  ∀ id result, results.get? id = some result →
    id ∈ plan.ids ∧ result.taskId = id ∧ result.status.isTerminal = true

/-- What `_finish` may be given for a task. -/
structure Closes (task : Task) (result : TaskResult α) : Prop where
  own : result.taskId = task.id
  terminal : result.status.isTerminal = true

theorem Recorded.set {results : Dict String (TaskResult α)} (recorded : Recorded plan results)
    (known : task ∈ plan.tasks) (closes : Closes task result) :
    Recorded plan (results.set result.taskId result) := by
  intro id kept found
  rw [Dict.get?_set] at found
  split at found
  · rename_i same
    cases found
    rw [same, closes.own]
    exact ⟨TaskPlan.mem_ids.mpr ⟨task, known, rfl⟩, rfl, closes.terminal⟩
  · exact recorded id kept found

structure Covered (plan : TaskPlan) (s : RunState α) : Prop where
  pendingKnown : ∀ task ∈ s.pending, task ∈ plan.tasks
  runningKnown : ∀ state ∈ s.running, state.task ∈ plan.tasks
  recorded : Recorded plan s.results
  held : ∀ task ∈ plan.tasks,
    task.id ∈ s.results.keys ∨ task ∈ s.pending ∨ ∃ state ∈ s.running, state.task = task

structure Tracked (plan : TaskPlan) (s : RunState α) : Prop extends Covered plan s where
  pendingDistinct : (s.pending.map Task.id).Nodup
  runningDistinct : (s.running.map fun state => state.task.id).Nodup
  pendingOpen : ∀ task ∈ s.pending, task.id ∉ s.results.keys
  runningOpen : ∀ state ∈ s.running, state.task.id ∉ s.results.keys
  apart : ∀ task ∈ s.pending, ∀ state ∈ s.running, state.task.id ≠ task.id

/-- Every result names the key that it is kept under. -/
def Named (results : Dict String (TaskResult α)) : Prop :=
  ∀ id result, results.get? id = some result → result.taskId = id

theorem Recorded.named {results : Dict String (TaskResult α)} (recorded : Recorded plan results) :
    Named results :=
  fun id result found => (recorded id result found).2.1

theorem Named.set {results : Dict String (TaskResult α)} (named : Named results) :
    Named (results.set result.taskId result) := by
  intro id kept found
  rw [Dict.get?_set] at found
  split at found
  · cases found
    exact ‹id = _›.symm
  · exact named id kept found

/-- Some task is in none of the three places. -/
def Lost (plan : TaskPlan) (s : RunState α) : Prop :=
  Named s.results ∧
    ∃ task ∈ plan.tasks, task.id ∉ s.results.keys ∧ (∀ other ∈ s.pending, other.id ≠ task.id) ∧
      ∀ state ∈ s.running, state.task.id ≠ task.id

theorem Tracked.start (plan : TaskPlan) (status : String → TaskStatus) :
    Tracked plan (start plan status : RunState α) := by
  have fresh : ∀ id, id ∉ (Dict.empty : Dict String (TaskResult α)).keys := by
    simp [Dict.keys, Dict.empty]
  constructor
  · refine ⟨fun _ h => h, by simp [TaskScheduler.start], ?_, fun _ h => .inr (.inl h)⟩
    intro id result found
    cases found
  · exact plan.distinct
  · exact List.nodup_nil
  · exact fun task _ => fresh task.id
  · simp [TaskScheduler.start]
  · simp [TaskScheduler.start]

section Operations

variable {state : Running}

theorem Covered.record (covered : Covered plan s) (known : task ∈ plan.tasks)
    (closes : Closes task result) : Covered plan (s.record onEvent task result) := by
  refine ⟨covered.pendingKnown, covered.runningKnown, covered.recorded.set known closes, ?_⟩
  intro other member
  exact (covered.held other member).imp_left fun key => Dict.mem_keys_set.mpr (.inr key)

theorem mem_keys_set {id : String} (closes : Closes task result) :
    id ∈ (s.results.set result.taskId result).keys ↔ id = task.id ∨ id ∈ s.results.keys := by
  rw [← closes.own]
  exact Dict.mem_keys_set

theorem mem_dropPending {other : Task} :
    other ∈ (s.dropPending task).pending ↔ other ∈ s.pending ∧ other.id ≠ task.id := by
  simp [RunState.dropPending]

/-- A pending task gets its result and leaves `pending`. -/
theorem Tracked.settle (tracked : Tracked plan s) (member : task ∈ s.pending)
    (closes : Closes task result) :
    Tracked plan ((s.record onEvent task result).dropPending task) := by
  have covered : Covered plan (s.record onEvent task result) :=
    tracked.record (tracked.pendingKnown task member) closes
  have kept : ∀ other ∈ ((s.record onEvent task result).dropPending task).pending,
      other ∈ s.pending ∧ other.id ≠ task.id := fun _ h => mem_dropPending.mp h
  constructor
  · refine ⟨fun other h => tracked.pendingKnown other (kept other h).1, covered.runningKnown,
      covered.recorded, ?_⟩
    intro other known
    by_cases same : other.id = task.id
    · exact .inl ((mem_keys_set closes).mpr (.inl same))
    · apply (covered.held other known).imp_right
      intro place
      apply place.imp_left
      intro h
      exact List.mem_filter.mpr ⟨h, decide_eq_true same⟩
  · exact tracked.pendingDistinct.sublist (List.filter_sublist.map Task.id)
  · exact tracked.runningDistinct
  · intro other h key
    obtain same | key := (mem_keys_set closes).mp key
    · exact (kept other h).2 same
    · exact tracked.pendingOpen other (kept other h).1 key
  · intro state h key
    obtain same | key := (mem_keys_set closes).mp key
    · exact tracked.apart task member state h same
    · exact tracked.runningOpen state h key
  · exact fun other h => tracked.apart other (kept other h).1

/-- A pending task moves to `running`. -/
theorem Tracked.launch (tracked : Tracked plan s) (state : Running)
    (member : state.task ∈ s.pending) :
    Tracked plan { s.dropPending state.task with running := s.running ++ [state] } := by
  have kept : ∀ other ∈ (s.dropPending state.task).pending,
      other ∈ s.pending ∧ other.id ≠ state.task.id := fun _ h => mem_dropPending.mp h
  have placed : ∀ {p : Running → Prop}, p state → (∀ other ∈ s.running, p other) →
      ∀ other ∈ s.running ++ [state], p other := by
    intro p here rest other h
    obtain h | h := List.mem_append.mp h
    · exact rest other h
    · exact List.mem_singleton.mp h ▸ here
  have known := tracked.pendingKnown state.task member
  constructor
  · refine ⟨fun other h => tracked.pendingKnown other (kept other h).1,
      placed known tracked.runningKnown, tracked.recorded, ?_⟩
    intro other hother
    obtain key | here | ⟨place, h, same⟩ := tracked.held other hother
    · exact .inl key
    · by_cases same : other.id = state.task.id
      · have equal := TaskPlan.eq_of_id_eq hother known same
        exact .inr (.inr ⟨state, by simp, equal.symm⟩)
      · exact .inr (.inl (List.mem_filter.mpr ⟨here, decide_eq_true same⟩))
    · exact .inr (.inr ⟨place, List.mem_append_left _ h, same⟩)
  · exact tracked.pendingDistinct.sublist (List.filter_sublist.map Task.id)
  · rw [List.map_append, List.nodup_append]
    refine ⟨tracked.runningDistinct, List.nodup_singleton _, ?_⟩
    rintro id h _ last rfl
    obtain ⟨other, place, same⟩ := List.mem_map.mp h
    exact tracked.apart _ member other place (same.trans (List.mem_singleton.mp last))
  · exact fun other h => tracked.pendingOpen other (kept other h).1
  · exact placed (tracked.pendingOpen _ member) tracked.runningOpen
  · intro other h
    exact placed (fun same => (kept other h).2 same.symm) (tracked.apart other (kept other h).1)

theorem mem_dropRunning {id : String} :
    state ∈ (s.dropRunning id).running ↔ state ∈ s.running ∧ state.task.id ≠ id := by
  simp [RunState.dropRunning]

/-- A running task leaves `running` and gets its result, in either order. -/
theorem Tracked.complete (tracked : Tracked plan s) (member : state ∈ s.running)
    (closes : Closes state.task result) :
    Tracked plan ((s.record onEvent state.task result).dropRunning state.task.id) := by
  have covered : Covered plan (s.record onEvent state.task result) :=
    tracked.record (tracked.runningKnown state member) closes
  constructor
  · refine ⟨covered.pendingKnown,
      fun other h => tracked.runningKnown other (mem_dropRunning.mp h).1,
      covered.recorded, ?_⟩
    intro other known
    by_cases same : other.id = state.task.id
    · exact .inl ((mem_keys_set closes).mpr (.inl same))
    · refine (covered.held other known).imp_right fun place => place.imp_right ?_
      rintro ⟨holder, h, rfl⟩
      exact ⟨holder, mem_dropRunning.mpr ⟨h, same⟩, rfl⟩
  · exact tracked.pendingDistinct
  · exact tracked.runningDistinct.sublist (List.filter_sublist.map _)
  · intro other h key
    obtain same | key := (mem_keys_set closes).mp key
    · exact tracked.apart other h state member same.symm
    · exact tracked.pendingOpen other h key
  · intro other h key
    obtain ⟨h, differs⟩ := mem_dropRunning.mp h
    obtain same | key := (mem_keys_set closes).mp key
    · exact differs same
    · exact tracked.runningOpen other h key
  · exact fun other h holder place => tracked.apart other h holder (mem_dropRunning.mp place).1

/-- A running task that is taken out without a result is lost. -/
theorem Tracked.lose (tracked : Tracked plan s) (member : state ∈ s.running) :
    Lost plan (s.dropRunning state.task.id) :=
  ⟨tracked.recorded.named, state.task, tracked.runningKnown state member,
    tracked.runningOpen state member,
    fun other h same => tracked.apart other h state member same.symm,
    fun _ h => (mem_dropRunning.mp h).2⟩

end Operations

/-- Where an exception leaves an operation that keeps every task: the callback
raised it, or nothing is lost. -/
def Escapes (plan : TaskPlan) (onEvent : OnEvent α) (exception : PyException) (s : RunState α) :
    Prop :=
  Raises onEvent exception ∨ Covered plan s

/-- The tasks still to be visited by a loop over `list(pending)`. -/
structure Queued (rest : List Task) (s : RunState α) : Prop where
  waiting : ∀ task ∈ rest, task ∈ s.pending
  distinct : (rest.map Task.id).Nodup

theorem Queued.tail {rest : List Task} (queued : Queued (task :: rest) s) : Queued rest s :=
  ⟨fun other h => queued.waiting other (List.mem_cons_of_mem _ h), queued.distinct.of_cons⟩

theorem Queued.drop {rest : List Task} (queued : Queued (task :: rest) s)
    (same : t.pending = (s.dropPending task).pending) : Queued rest t := by
  obtain ⟨fresh, distinct⟩ := List.nodup_cons.mp queued.distinct
  refine ⟨?_, distinct⟩
  intro other h
  rw [same]
  refine List.mem_filter.mpr ⟨queued.waiting other (List.mem_cons_of_mem _ h), decide_eq_true ?_⟩
  exact fun equal => fresh (equal ▸ List.mem_map_of_mem h)

/-- A result for a pending task, which leaves `pending`. -/
theorem settle_calls {P : RunState α → Prop} {Q : Unit → RunState α → Prop}
    {E : PyException → RunState α → Prop}
    (post : ∀ s, P s → Passes onEvent task result →
      Q () ((s.record onEvent task result).dropPending task))
    (raised : ∀ s e, P s → RaisesAt onEvent task result e →
      E e (s.record onEvent task result)) :
    Triple P (do finish onEvent task result; modify fun s => s.dropPending task) Q E :=
  Triple.bind (finish_calls (Q := fun _ t => Q () (t.dropPending task)) post raised) fun _ =>
    Triple.assign fun _ h => h

theorem settle_spec {P : RunState α → Prop} {Q : Unit → RunState α → Prop}
    {E : PyException → RunState α → Prop}
    (post : ∀ s, P s → Q () ((s.record onEvent task result).dropPending task))
    (raised : ∀ s e, P s → Raises onEvent e → E e (s.record onEvent task result)) :
    Triple P (do finish onEvent task result; modify fun s => s.dropPending task) Q E :=
  settle_calls (fun s h _ => post s h) fun s e h at_ => raised s e h at_.raises

/-- Some dependency of the task ended without success. -/
def RunState.blocks (s : RunState α) (task : Task) : Bool :=
  task.dependsOn.any fun dep => (s.unsuccessful dep).isSome

/-- One round of `_skip_blocked`: nothing, or a skip of the task. -/
theorem skipTask_rule {P : RunState α → Prop} {Q : Unit → RunState α → Prop}
    {E : PyException → RunState α → Prop}
    (idle : ∀ t, P t → t.blocks task = false → Q () t)
    (skip : ∀ t error, P t → t.blocks task = true →
      Passes onEvent task ⟨task.id, .skipped, none, some error, task.agent, 0⟩ →
      Q () ((t.record onEvent task
        ⟨task.id, .skipped, none, some error, task.agent, 0⟩).dropPending task))
    (raised : ∀ t e error, P t →
      RaisesAt onEvent task ⟨task.id, .skipped, none, some error, task.agent, 0⟩ e →
      E e (t.record onEvent task ⟨task.id, .skipped, none, some error, task.agent, 0⟩)) :
    Triple P (skipTask onEvent task) Q E := by
  apply Triple.get
  intro t before
  split
  · rename_i clear
    refine Triple.pure ?_
    rintro u rfl
    refine idle u before (List.any_eq_false.mpr ?_)
    intro dep edge bad
    have none_ := List.findSome?_eq_none_iff.mp clear dep edge
    rw [Option.map_eq_none_iff] at none_
    rw [none_] at bad
    cases bad
  · rename_i dep depResult hit
    have blocked : t.blocks task = true := by
      obtain ⟨before, dep', after, parts, found, -⟩ := List.findSome?_eq_some_iff.mp hit
      obtain ⟨result, bad, -⟩ := Option.map_eq_some_iff.mp found
      exact List.any_eq_true.mpr ⟨dep', by simp [parts], by rw [bad]; rfl⟩
    refine settle_calls ?_ ?_
    · rintro u rfl passes
      exact skip u _ before blocked passes
    · rintro u e rfl at_
      exact raised u e _ before at_

theorem settle_tracked {rest : List Task} (closes : Closes task result) :
    Triple (fun s => Tracked plan s ∧ Queued (task :: rest) s)
      (do finish onEvent task result; modify fun s => s.dropPending task)
      (fun _ s => Tracked plan s ∧ Queued rest s) (Escapes plan onEvent) := by
  refine settle_spec ?_ fun _ _ _ raised => .inl raised
  intro s before
  exact ⟨before.1.settle (before.2.waiting task List.mem_cons_self) closes, before.2.drop rfl⟩

theorem skipBlocked_spec :
    Triple (Tracked plan) (skipBlocked onEvent : Program α Unit) (fun _ => Tracked plan)
      (Escapes plan onEvent) := by
  apply Triple.get
  intro s tracked
  have loop : Triple (fun t => Tracked plan t ∧ Queued s.pending t)
      (forM s.pending (skipTask onEvent)) (fun _ t => Tracked plan t ∧ Queued [] t)
      (Escapes plan onEvent) := by
    refine Triple.forM (I := fun rest t => Tracked plan t ∧ Queued rest t) s.pending
      fun task rest => skipTask_rule ?_ ?_ ?_
    · exact fun _ before _ => ⟨before.1, before.2.tail⟩
    · intro t error before _ _
      exact ⟨before.1.settle (before.2.waiting task List.mem_cons_self) ⟨rfl, rfl⟩,
        before.2.drop rfl⟩
    · exact fun _ _ _ _ raised => .inl raised.raises
  have whole := loop.of_entry ⟨tracked, fun _ h => h, tracked.pendingDistinct⟩
  exact whole.imp_post fun _ _ post => post.1

/-- `Tracked` only reads the three places. -/
theorem Tracked.restate (tracked : Tracked plan s) (pending : t.pending = s.pending)
    (running : t.running = s.running) (results : t.results = s.results) : Tracked plan t := by
  obtain ⟨covered, h₁, h₂, h₃, h₄, h₅⟩ := tracked
  obtain ⟨g₁, g₂, g₃, g₄⟩ := covered
  rw [← pending, ← running, ← results] at *
  exact ⟨⟨g₁, g₂, g₃, g₄⟩, h₁, h₂, h₃, h₄, h₅⟩

section Pass

variable {scheduler : TaskScheduler} {deadline : Option ℚ} {now : ℚ} {submit : Task → Submission}

theorem launchTask_spec {rest : List Task} :
    Triple (fun s => Tracked plan s ∧ Queued (task :: rest) s)
      (launchTask scheduler deadline now submit onEvent task : Program α Unit)
      (fun _ s => Tracked plan s ∧ Queued rest s) (Escapes plan onEvent) := by
  refine Triple.bind (R := fun _ s => Tracked plan s ∧ Queued (task :: rest) s)
    (Triple.assign ?_) fun _ => ?_
  · intro s before
    exact ⟨before.1.restate rfl rfl rfl, before.2.waiting, before.2.distinct⟩
  · split
    · apply Triple.assign
      intro s before
      exact ⟨before.1.launch ⟨task, _, _⟩ (before.2.waiting task List.mem_cons_self),
        before.2.drop rfl⟩
    · exact settle_tracked ⟨rfl, rfl⟩
    · exact Triple.throw fun s before => .inr before.1.toCovered

theorem launchLoop_spec (rest : List Task) :
    Triple (fun s => Tracked plan s ∧ Queued rest s)
      (launchLoop scheduler deadline now submit onEvent rest : Program α Unit)
      (fun _ => Tracked plan) (Escapes plan onEvent) := by
  induction rest with
  | nil => exact Triple.pure fun _ before => before.1
  | cons task rest ih =>
      refine Triple.get fun s before =>
        Triple.ite (fun _ => ?_) fun _ => Triple.ite (fun _ => ?_) fun _ => ?_
      · exact Triple.pure (by rintro _ rfl; exact before.1)
      · exact Triple.bind (launchTask_spec.of_entry before) fun _ => ih
      · exact ih.of_entry ⟨before.1, before.2.tail⟩

theorem launchReady_spec :
    Triple (Tracked plan) (launchReady scheduler deadline now submit onEvent : Program α Unit)
      (fun _ => Tracked plan) (Escapes plan onEvent) := by
  refine Triple.ite (fun _ => Triple.throw fun s tracked => .inr tracked.toCovered) fun _ =>
    Triple.get ?_
  intro s tracked
  exact (launchLoop_spec s.pending).of_entry
    ⟨tracked, fun _ h => h, tracked.pendingDistinct⟩

end Pass

/-- What a future raises past `_collect`. -/
def escaping : Completion α → Option PyException
  | .raised (.budgetExceeded text) => some (.budgetExceeded text)
  | .raised (.base text) => some (.base text)
  | _ => none

/-- A result that `run_task` returns for itself is a terminal one of its own task. -/
def Done.Own (done : Done α) : Prop :=
  ∀ result, done.completion = .returned (.result result) →
    result.taskId = done.taskId ∧ result.status.isTerminal = true

/-- The futures still to be collected are running, each once. -/
structure Awaited (rest : List (Done α)) (s : RunState α) : Prop where
  held : ∀ done ∈ rest, ∃ state ∈ s.running, state.task.id = done.taskId
  distinct : (rest.map Done.taskId).Nodup

theorem Awaited.drop {done : Done α} {rest : List (Done α)} (awaited : Awaited (done :: rest) s)
    (same : t.running = (s.dropRunning done.taskId).running) : Awaited rest t := by
  obtain ⟨fresh, distinct⟩ := List.nodup_cons.mp awaited.distinct
  refine ⟨?_, distinct⟩
  intro other h
  obtain ⟨state, member, equal⟩ := awaited.held other (List.mem_cons_of_mem _ h)
  refine ⟨state, ?_, equal⟩
  rw [same]
  exact mem_dropRunning.mpr ⟨member, fun hit => fresh (hit ▸ equal ▸ List.mem_map_of_mem h)⟩

/-- The result that `_collect` records. -/
def collected (task : Task) (elapsed : ℚ) : Completion α → TaskResult α
  | .returned output => resultFromOutput task elapsed output
  | .raised (.cancelled reason) =>
    { taskId := task.id, status := .cancelled, output := none, error := some reason
      agent := task.agent, durationMs := elapsed }
  | .raised exception =>
    { taskId := task.id, status := .failed, output := none, error := some exception.text
      agent := task.agent, durationMs := elapsed }

theorem closes_collected {done : Done α} {elapsed : ℚ} (own : done.Own)
    (same : task.id = done.taskId) : Closes task (collected task elapsed done.completion) := by
  cases outcome : done.completion with
  | returned output =>
      cases output with
      | result result =>
          obtain ⟨named, terminal⟩ := own result outcome
          exact ⟨named.trans same.symm, terminal⟩
      | error text isText =>
          refine ⟨rfl, ?_⟩
          simp only [collected, resultFromOutput]
          split <;> rfl
      | value output => exact ⟨rfl, rfl⟩
  | raised exception => cases exception <;> exact ⟨rfl, rfl⟩

/-- How `_collect` goes on with a future that was running. -/
theorem collect_eq {done : Done α} {state : Running}
    (found : s.running.find? (fun state => state.task.id = done.taskId) = some state) :
    collect onEvent done s = match escaping done.completion with
      | some e => .error e (s.dropRunning done.taskId)
      | none => finish onEvent state.task
          (collected state.task ((done.now - state.started) * 1000) done.completion)
          (s.dropRunning done.taskId) := by
  rw [collect, Triple.get_bind, found]
  dsimp only
  cases completion : done.completion with
  | returned output => rfl
  | raised exception => cases exception <;> rfl

/-- A future that was not running is passed over. -/
theorem collect_of_absent {done : Done α}
    (absent : s.running.find? (fun state => state.task.id = done.taskId) = none) :
    collect onEvent done s = .ok () s := by
  rw [collect, Triple.get_bind, absent]
  rfl

theorem collect_spec {done : Done α} {rest : List (Done α)} (own : done.Own) :
    Triple (fun s => Tracked plan s ∧ Awaited (done :: rest) s) (collect onEvent done)
      (fun _ s => (Tracked plan s ∧ Awaited rest s) ∧ escaping done.completion = none)
      (fun e s => Raises onEvent e ∨ (escaping done.completion = some e ∧ Lost plan s)) := by
  rintro s ⟨tracked, awaited⟩
  obtain ⟨holder, member, same⟩ := awaited.held done List.mem_cons_self
  obtain ⟨state, found, here, named⟩ :=
    Lookup.exists_find? (fun state : Running => state.task.id) member same
  rw [collect_eq found]
  cases outcome : escaping done.completion with
  | some e => exact .inr ⟨rfl, named ▸ tracked.lose here⟩
  | none =>
      refine finish_spec (P := fun t => t = s.dropRunning done.taskId) ?_
        (fun _ e _ raised => .inl raised) _ rfl
      rintro _ rfl
      refine ⟨⟨?_, awaited.drop rfl⟩, rfl⟩
      rw [← named]
      exact (tracked.complete here (closes_collected own named)).restate rfl rfl rfl

/-- The first exception that leaves the collection of the futures. -/
def firstEscape (done : List (Done α)) : Option PyException :=
  done.findSome? fun done => escaping done.completion

theorem collectAll_spec (l : List (Done α)) (own : ∀ done ∈ l, done.Own) :
    Triple (fun s => Tracked plan s ∧ Awaited l s) (forM l (collect onEvent))
      (fun _ s => Tracked plan s ∧ firstEscape l = none)
      (fun e s => Raises onEvent e ∨ (firstEscape l = some e ∧ Lost plan s)) := by
  induction l with
  | nil => exact Triple.pure fun _ before => ⟨before.1, rfl⟩
  | cons done rest ih =>
      obtain ⟨here, later⟩ := List.forall_mem_cons.mp own
      refine Triple.bind ((collect_spec here).imp_raised fun e s raised => raised.imp_right ?_) ?_
      · rintro ⟨outcome, lost⟩
        exact ⟨by simp [firstEscape, outcome], lost⟩
      · intro _ s before
        have same : firstEscape (done :: rest) = firstEscape rest := by
          simp [firstEscape, before.2]
        rw [same]
        exact ih later s before.1

theorem expireTask_spec {now : ℚ} {state : Running} {rest : List Running}
    (fresh : ∀ other ∈ rest, other.task.id ≠ state.task.id) :
    Triple (fun s => Tracked plan s ∧ ∀ other ∈ state :: rest, other ∈ s.running)
      (expireTask onEvent now state : Program α Unit)
      (fun _ s => Tracked plan s ∧ ∀ other ∈ rest, other ∈ s.running)
      fun e _ => Raises onEvent e := by
  refine Triple.ite (fun _ => ?_) fun _ => Triple.pure ?_
  · refine Triple.bind (finish_spec (Q := fun _ t => ∃ s, (Tracked plan s ∧
      ∀ other ∈ state :: rest, other ∈ s.running) ∧ t = s.record onEvent state.task _)
      (fun s before => ⟨s, before, rfl⟩) fun _ _ _ raised => raised)
      fun _ => Triple.assign ?_
    rintro _ ⟨s, ⟨tracked, held⟩, rfl⟩
    refine ⟨tracked.complete (held state List.mem_cons_self) ⟨rfl, rfl⟩, ?_⟩
    intro other h
    exact mem_dropRunning.mpr ⟨held other (List.mem_cons_of_mem _ h), fresh other h⟩
  · intro s before
    exact ⟨before.1, fun other h => before.2 other (List.mem_cons_of_mem _ h)⟩

theorem expireAll_spec {now : ℚ} (l : List Running)
    (distinct : (l.map fun state => state.task.id).Nodup) :
    Triple (fun s => Tracked plan s ∧ ∀ state ∈ l, state ∈ s.running)
      (forM l (expireTask onEvent now) : Program α Unit) (fun _ => Tracked plan)
      fun e _ => Raises onEvent e := by
  induction l with
  | nil => exact Triple.pure fun _ before => before.1
  | cons state rest ih =>
      obtain ⟨fresh, distinct⟩ := List.nodup_cons.mp distinct
      refine Triple.bind (expireTask_spec fun other h same => fresh ?_) fun _ => ih distinct
      exact List.mem_map.mpr ⟨other, h, same⟩

theorem expire_spec {now : ℚ} :
    Triple (Tracked plan) (expire onEvent now : Program α Unit) (fun _ => Tracked plan)
      fun e _ => Raises onEvent e := by
  apply Triple.get
  intro s tracked
  exact (expireAll_spec s.running tracked.runningDistinct).of_entry ⟨tracked, fun _ h => h⟩

/-- One result for each task of the plan, and no other. -/
structure Finished (plan : TaskPlan) (results : Dict String (TaskResult α)) : Prop where
  recorded : Recorded plan results
  full : ∀ task ∈ plan.tasks, task.id ∈ results.keys

/-- What holds between the steps of a run. -/
def Kept (plan : TaskPlan) (s : RunState α) : Prop :=
  match s.control with
  | .looping | .waiting => Tracked plan s
  | .returned results => Finished plan results
  | .raised exception last => exception.isCaught = true → Finished plan last

theorem Tracked.finished (tracked : Tracked plan s) (pending : s.pending = [])
    (running : s.running = []) : Finished plan s.results := by
  refine ⟨tracked.recorded, ?_⟩
  intro task member
  obtain key | open_ | ⟨state, open_, _⟩ := tracked.held task member
  · exact key
  · rw [pending] at open_
    cases open_
  · rw [running] at open_
    cases open_

theorem conclude_spec {deadline : Option ℚ} {after : ℚ} :
    Triple (fun s => Tracked plan s ∧ s.pending = [] ∧ s.running = [])
      (conclude deadline after : Program α Unit) (fun _ => Kept plan) (Escapes plan onEvent) := by
  refine Triple.get fun s ⟨tracked, pending, running⟩ =>
    Triple.ite (fun _ => Triple.throw ?_) fun _ => ?_
  · rintro _ rfl
    exact .inr tracked.toCovered
  · exact Triple.assign fun _ _ => tracked.finished pending running

theorem passBody_spec {scheduler : TaskScheduler} {deadline : Option ℚ} {pass : Pass α} :
    Triple (Tracked plan) (passBody scheduler deadline pass) (fun _ => Kept plan)
      (Escapes plan pass.onEvent) := by
  refine Triple.get fun s tracked => Triple.ite ?_ fun _ => ?_
  · intro drained
    exact conclude_spec.of_entry (by simpa [tracked] using drained)
  · apply Triple.bind (skipBlocked_spec.of_entry tracked)
    intro _
    apply Triple.bind launchReady_spec
    intro _
    apply Triple.get
    intro s tracked
    refine Triple.ite (fun idle => Triple.ite ?_ fun _ => Triple.throw ?_) fun _ => ?_
    · intro drained
      exact conclude_spec.of_entry
        ⟨tracked, List.isEmpty_iff.mp drained, List.isEmpty_iff.mp idle⟩
    · rintro _ rfl
      exact .inr tracked.toCovered
    · exact Triple.assign fun _ _ => tracked.restate rfl rfl rfl

theorem wakeBody_spec {wake : Wake α} (own : ∀ done ∈ wake.done, done.Own) :
    Triple (fun s => Tracked plan s ∧ Awaited wake.done s) (wakeBody wake)
      (fun _ s => (Tracked plan s ∧ s.control = .looping) ∧ firstEscape wake.done = none)
      (fun e s => Raises wake.onEvent e ∨ (firstEscape wake.done = some e ∧ Lost plan s)) := by
  refine Triple.bind (collectAll_spec wake.done own) fun _ => Triple.entry ?_
  rintro t ⟨tracked, quiet⟩
  have resumed : Triple (Tracked plan)
      (modify fun s : RunState α => { s with control := .looping })
      (fun _ s => (Tracked plan s ∧ s.control = .looping) ∧ firstEscape wake.done = none)
      (fun e s => Raises wake.onEvent e ∨ (firstEscape wake.done = some e ∧ Lost plan s)) :=
    Triple.assign fun _ tracked => ⟨⟨tracked.restate rfl rfl rfl, rfl⟩, quiet⟩
  refine Triple.of_entry (P := Tracked plan) (Triple.ite (fun _ => ?_) fun _ => resumed) tracked
  exact Triple.bind (expire_spec.imp_raised fun _ _ raised => .inl raised) fun _ => resumed

section Abort

theorem abortAll_spec (onEvent : OnEvent α) {C : Prop} (l later : List Task)
    (known : C → ∀ task ∈ l, task ∈ plan.tasks) :
    Triple (fun s => C → Recorded plan s.results ∧
        ∀ task ∈ plan.tasks, task.id ∈ s.results.keys ∨ task ∈ l ∨ task ∈ later)
      (forM l (abortTask onEvent))
      (fun _ s => C → Recorded plan s.results ∧
        ∀ task ∈ plan.tasks, task.id ∈ s.results.keys ∨ task ∈ later)
      fun e _ => Raises onEvent e := by
  induction l with
  | nil => exact Triple.pure fun s before c => by simpa using before c
  | cons head rest ih =>
      refine Triple.bind (finish_spec ?_ fun _ _ _ raised => raised) fun _ =>
        ih fun c task h => known c task (List.mem_cons_of_mem _ h)
      intro s before c
      obtain ⟨recorded, places⟩ := before c
      have closes : Closes head
          (⟨head.id, .cancelled, none, some "cancelled", head.agent, 0⟩ : TaskResult α) :=
        ⟨rfl, rfl⟩
      refine ⟨recorded.set (known c head List.mem_cons_self) closes, ?_⟩
      intro task member
      obtain key | here | last := places task member
      · exact .inl ((mem_keys_set closes).mpr (.inr key))
      · obtain rfl | here := List.mem_cons.mp here
        · exact .inl ((mem_keys_set closes).mpr (.inl rfl))
        · exact .inr (.inl here)
      · exact .inr (.inr last)

/-- An abort that the callback does not leave finishes what is still open. -/
theorem abort_spec {C : Prop} :
    Triple (fun s => C → Covered plan s) (abort onEvent)
      (fun _ s => C → Finished plan s.results) fun e _ => Raises onEvent e := by
  apply Triple.get
  intro s covered
  have first := abortAll_spec onEvent (C := C) (s.running.map Running.task) s.pending
    fun c task h => by
      obtain ⟨state, member, rfl⟩ := List.mem_map.mp h
      exact (covered c).runningKnown state member
  have second := abortAll_spec onEvent (C := C) s.pending []
    fun c => (covered c).pendingKnown
  refine Triple.bind (first.of_entry ?_) fun _ => second.conseq ?_ ?_ fun _ _ h => h
  · intro c
    refine ⟨(covered c).recorded, ?_⟩
    intro task member
    obtain key | here | ⟨state, here, rfl⟩ := (covered c).held task member
    · exact .inl key
    · exact .inr (.inr here)
    · exact .inr (.inl (List.mem_map_of_mem here))
  · intro t before c
    simpa using before c
  · intro _ t post c
    exact ⟨(post c).1, fun task member => by simpa using (post c).2 task member⟩

theorem abort_raises : Triple (fun _ : RunState α => True) (abort onEvent) (fun _ _ => True)
    fun e _ => Raises onEvent e := by
  have closing : Triple (fun s => False → Covered ⟨[], List.nodup_nil⟩ s) (abort onEvent) _ _ :=
    abort_spec
  exact closing.conseq (fun _ _ c => c.elim) (fun _ _ _ => trivial) fun _ _ raised => raised

/-- What is lost when the abort begins has no result when it ends. -/
theorem abort_lost :
    Triple (Lost plan) (abort onEvent)
      (fun _ s => Named s.results ∧ ∃ task ∈ plan.tasks, task.id ∉ s.results.keys)
      fun e (_ : RunState α) => Raises onEvent e := by
  apply Triple.get
  rintro s ⟨named, task, member, unkeyed, pending, running⟩
  have loop : ∀ l : List Task, (∀ other ∈ l, other.id ≠ task.id) →
      Triple (fun s : RunState α => Named s.results ∧ task.id ∉ s.results.keys)
        (forM l (abortTask onEvent)) (fun _ s => Named s.results ∧ task.id ∉ s.results.keys)
        fun e _ => Raises onEvent e := by
    intro l others
    induction l with
    | nil => exact Triple.pure fun _ h => h
    | cons head rest ih =>
        obtain ⟨here, later⟩ := List.forall_mem_cons.mp others
        refine Triple.bind (finish_spec (fun s before => ⟨before.1.set, ?_⟩)
          fun _ _ _ raised => raised) fun _ => ih later
        intro key
        obtain same | key := Dict.mem_keys_set.mp key
        · exact here same.symm
        · exact before.2 key
  refine Triple.bind ((loop _ ?_).of_entry ⟨named, unkeyed⟩) fun _ =>
    (loop s.pending pending).imp_post fun _ t post => ⟨post.1, task, member, post.2⟩
  intro other h
  obtain ⟨state, place, rfl⟩ := List.mem_map.mp h
  exact running state place

/-- What the `except` block makes of a body that keeps its promises. -/
theorem guarded_spec {P G : RunState α → Prop} {E : PyException → RunState α → Prop}
    {body : Program α Unit} (normal : Triple P body (fun _ => G) E)
    (handler : ∀ e, Triple (E e) (abort onEvent)
      (fun _ u => G { u with control := .raised e u.results })
      fun e' u => G { u with control := .raised e' .empty }) (pre : P s) :
    G (guarded onEvent body s) := by
  have ends := normal s pre
  unfold guarded
  cases first : body s with
  | ok _ t =>
      rw [first] at ends
      exact ends
  | error e t =>
      rw [first] at ends
      have closing := handler e t ends
      cases second : abort onEvent t with
      | ok _ u =>
          rw [second] at closing
          simpa only [second] using closing
      | error e' u =>
          rw [second] at closing
          simpa only [second] using closing

/-- A body behind which the run goes on has not raised. -/
theorem ok_of_guarded {body : Program α Unit}
    (live : (guarded onEvent body s).control = .looping ∨
      (guarded onEvent body s).control = .waiting) :
    body s = .ok () (guarded onEvent body s) := by
  unfold guarded at live ⊢
  cases first : body s with
  | ok _ t => rfl
  | error e t =>
      simp only [first] at live
      cases second : abort onEvent t <;> simp [second] at live

end Abort

end MultiAgent.Plugin.TaskScheduler
