import MultiAgent.Plugin.Scheduler.Deadlock

/-!
# What an event does to a run, move by move

An event is a sequence of moves: each gives a task its result and takes it out of its table,
starts a pending task, or changes the control. Where an exception leaves, the moves made so far
stand, and the last one may be half done: `Exit`. Nothing is assumed here about what `run_task`
returns; `given` is what is known about it.
-/

namespace MultiAgent.Plugin.TaskScheduler

open Relation

variable {α : Type} {scheduler : TaskScheduler} {deadline : Option ℚ} {plan : TaskPlan}
  {s t u : RunState α} {onEvent : OnEvent α} {task : Task} {result : TaskResult α}
  {given imposed : Task → TaskResult α → Prop} {e : PyException}

/-- The task is pending or running. -/
def RunState.Holds (s : RunState α) (task : Task) : Prop :=
  task ∈ s.pending ∨ ∃ state ∈ s.running, state.task = task

/-- One move, when the results of executions are as `given` says. -/
inductive Move (given : Task → TaskResult α → Prop) (onEvent : OnEvent α) (s : RunState α) :
    RunState α → Prop
  | settle {task : Task} {result : TaskResult α} (member : task ∈ s.pending)
      (closes : Closes task result) (passes : Passes onEvent task result) :
      Move given onEvent s ((s.record onEvent task result).dropPending task)
  | mark {task : Task} (member : task ∈ s.pending) :
      Move given onEvent s { s with status := Function.update s.status task.id .running }
  | launch (state : Running) (member : state.task ∈ s.pending) :
      Move given onEvent s
        { s.dropPending state.task with running := s.running ++ [state] }
  | complete {state : Running} {result : TaskResult α} (member : state ∈ s.running)
      (taken : given state.task result) (passes : Passes onEvent state.task result) :
      Move given onEvent s ((s.record onEvent state.task result).dropRunning state.task.id)
  | control (control : Control α) : Move given onEvent s { s with control }

abbrev Moves (given : Task → TaskResult α → Prop) (onEvent : OnEvent α) :
    RunState α → RunState α → Prop :=
  ReflTransGen (Move given onEvent)

/-- How an operation that raises `e` leaves the state `s` of its last whole move. The results
that the scheduler itself gives to a task in its table are as `imposed` says. -/
inductive Exit (given imposed : Task → TaskResult α → Prop) (onEvent : OnEvent α)
    (e : PyException) (s : RunState α) : RunState α → Prop
  /-- The callback raised at the result of a task that is still in its table. -/
  | early {task : Task} {result : TaskResult α} (raised : RaisesAt onEvent task result e)
      (holds : s.Holds task) (ruled : imposed task result) :
      Exit given imposed onEvent e s (s.record onEvent task result)
  /-- The callback raised at the result of a task that was collected. -/
  | collected {state : Running} {result : TaskResult α}
      (raised : RaisesAt onEvent state.task result e) (member : state ∈ s.running)
      (taken : given state.task result) :
      Exit given imposed onEvent e s
        ((s.record onEvent state.task result).dropRunning state.task.id)
  /-- A future raised past `_collect`. -/
  | escaped {state : Running} (member : state ∈ s.running) :
      Exit given imposed onEvent e s (s.dropRunning state.task.id)
  /-- The scheduler raised. -/
  | plain : Exit given imposed onEvent e s s

/-- The operation has made moves from `s`, and left by `e`. -/
def Halted (given imposed : Task → TaskResult α → Prop) (onEvent : OnEvent α) (s : RunState α)
    (e : PyException) (t : RunState α) : Prop :=
  ∃ u, Moves given onEvent s u ∧ Exit given imposed onEvent e u t

/-- The results with which a pass ends a pending task. -/
def Dismissed (task : Task) (result : TaskResult α) : Prop :=
  (∃ error, result = ⟨task.id, .skipped, none, some error, task.agent, 0⟩) ∨
    result = ⟨task.id, .timeout, none, some "shared pool saturated", task.agent, 0⟩

/-- The results with which a wake-up with no future done ends a running task. -/
def Overdue (done : List (Done α)) (task : Task) (result : TaskResult α) : Prop :=
  done = [] ∧ ∃ elapsed,
    result = ⟨task.id, .timeout, none, some "task deadline exceeded", task.agent, elapsed⟩

section Pending

variable {rest : List Task}

theorem skipTask_moves :
    Triple (fun t => Moves given onEvent s t ∧ Queued (task :: rest) t) (skipTask onEvent task)
      (fun _ t => Moves given onEvent s t ∧ Queued rest t) (Halted given Dismissed onEvent s) := by
  refine skipTask_rule ?_ ?_ ?_
  · exact fun t before _ => ⟨before.1, before.2.tail⟩
  · intro t error before _ passes
    have member := before.2.waiting task List.mem_cons_self
    exact ⟨before.1.tail (.settle member ⟨rfl, rfl⟩ passes), before.2.drop rfl⟩
  · intro t e error before raised
    have member := before.2.waiting task List.mem_cons_self
    exact ⟨t, before.1, .early raised (.inl member) (.inl ⟨error, rfl⟩)⟩

theorem skipBlocked_moves (distinct : (s.pending.map Task.id).Nodup) :
    Triple (fun t => t = s) (skipBlocked onEvent) (fun _ => Moves given onEvent s)
      (Halted given Dismissed onEvent s) := by
  apply Triple.get
  intro t begun
  subst begun
  have loop : Triple (fun u => Moves given onEvent t u ∧ Queued t.pending u)
      (forM t.pending (skipTask onEvent)) (fun _ u => Moves given onEvent t u ∧ Queued [] u)
      (Halted given Dismissed onEvent t) :=
    Triple.forM (I := fun rest u => Moves given onEvent t u ∧ Queued rest u) t.pending
      fun task rest => skipTask_moves
  exact (loop.imp_post fun _ _ post => post.1).of_entry ⟨.refl, fun _ h => h, distinct⟩

end Pending

section Tables

/-- What the tables of a run are: tasks of the plan, each in at most one place. -/
structure Tables (plan : TaskPlan) (s : RunState α) : Prop where
  pendingKnown : ∀ task ∈ s.pending, task ∈ plan.tasks
  runningKnown : ∀ state ∈ s.running, state.task ∈ plan.tasks
  pendingDistinct : (s.pending.map Task.id).Nodup
  runningDistinct : (s.running.map fun state => state.task.id).Nodup
  apart : ∀ task ∈ s.pending, ∀ state ∈ s.running, state.task.id ≠ task.id

theorem Tables.start (plan : TaskPlan) (status : String → TaskStatus) :
    Tables plan (start plan status : RunState α) :=
  ⟨fun _ h => h, nofun, plan.distinct, List.nodup_nil, fun _ _ _ h => nomatch h⟩

theorem Tables.restate (tables : Tables plan s) (pending : t.pending = s.pending)
    (running : t.running = s.running) : Tables plan t := by
  obtain ⟨h₁, h₂, h₃, h₄, h₅⟩ := tables
  rw [← pending, ← running] at *
  exact ⟨h₁, h₂, h₃, h₄, h₅⟩

theorem Tables.record (tables : Tables plan s) : Tables plan (s.record onEvent task result) :=
  tables.restate rfl rfl

theorem Tables.dropPending (tables : Tables plan s) (task : Task) :
    Tables plan (s.dropPending task) where
  pendingKnown other h := tables.pendingKnown other (mem_dropPending.mp h).1
  runningKnown := tables.runningKnown
  pendingDistinct := tables.pendingDistinct.sublist (List.filter_sublist.map Task.id)
  runningDistinct := tables.runningDistinct
  apart other h := tables.apart other (mem_dropPending.mp h).1

theorem Tables.dropRunning (tables : Tables plan s) (id : String) :
    Tables plan (s.dropRunning id) where
  pendingKnown := tables.pendingKnown
  runningKnown state h := tables.runningKnown state (mem_dropRunning.mp h).1
  pendingDistinct := tables.pendingDistinct
  runningDistinct := tables.runningDistinct.sublist (List.filter_sublist.map _)
  apart task h state place := tables.apart task h state (mem_dropRunning.mp place).1

theorem Tables.launch (tables : Tables plan s) (state : Running) (member : state.task ∈ s.pending) :
    Tables plan { s.dropPending state.task with running := s.running ++ [state] } := by
  have dropped := tables.dropPending state.task
  refine ⟨dropped.pendingKnown, ?_, dropped.pendingDistinct, ?_, ?_⟩
  · intro other h
    obtain h | h := List.mem_append.mp h
    · exact tables.runningKnown other h
    · exact List.mem_singleton.mp h ▸ tables.pendingKnown _ member
  · rw [List.map_append, List.nodup_append]
    refine ⟨tables.runningDistinct, List.nodup_singleton _, ?_⟩
    rintro id h _ last rfl
    obtain ⟨other, place, same⟩ := List.mem_map.mp h
    exact tables.apart _ member other place (same.trans (List.mem_singleton.mp last))
  · intro task h other place
    obtain place | place := List.mem_append.mp place
    · exact dropped.apart task h other place
    · rw [List.mem_singleton.mp place]
      exact fun same => (mem_dropPending.mp h).2 same.symm

theorem Tables.move (tables : Tables plan s) (move : Move given onEvent s t) : Tables plan t := by
  cases move with
  | settle member closes passes => exact tables.record.dropPending _
  | mark member => exact tables.restate rfl rfl
  | launch state member => exact tables.launch state member
  | complete member taken passes => exact tables.record.dropRunning _
  | control control => exact tables.restate rfl rfl

theorem Tables.moves (tables : Tables plan s) (moves : Moves given onEvent s t) :
    Tables plan t := by
  induction moves with
  | refl => exact tables
  | tail _ move ih => exact ih.move move

end Tables

section Pass

variable {rest : List Task} {now : ℚ} {submit : Task → Submission} {pass : Pass α}

theorem launchTask_moves :
    Triple (fun t => Moves given onEvent s t ∧ Queued (task :: rest) t)
      (launchTask scheduler deadline now submit onEvent task)
      (fun _ t => Moves given onEvent s t ∧ Queued rest t) (Halted given Dismissed onEvent s) := by
  refine Triple.bind (R := fun _ t => Moves given onEvent s t ∧ Queued (task :: rest) t)
    (Triple.assign ?_) fun _ => ?_
  · intro t before
    have member := before.2.waiting task List.mem_cons_self
    exact ⟨before.1.tail (.mark member), before.2.waiting, before.2.distinct⟩
  · split
    · apply Triple.assign
      intro t before
      have member := before.2.waiting task List.mem_cons_self
      exact ⟨before.1.tail (.launch ⟨task, _, _⟩ member), before.2.drop rfl⟩
    · refine settle_calls ?_ ?_
      · intro t before passes
        have member := before.2.waiting task List.mem_cons_self
        exact ⟨before.1.tail (.settle member ⟨rfl, rfl⟩ passes), before.2.drop rfl⟩
      · intro t e before raised
        have member := before.2.waiting task List.mem_cons_self
        exact ⟨t, before.1, .early raised (.inl member) (.inr rfl)⟩
    · exact Triple.throw fun t before => ⟨t, before.1, .plain⟩

theorem launchLoop_moves (rest : List Task) :
    Triple (fun t => Moves given onEvent s t ∧ Queued rest t)
      (launchLoop scheduler deadline now submit onEvent rest)
      (fun _ => Moves given onEvent s) (Halted given Dismissed onEvent s) := by
  induction rest with
  | nil => exact Triple.pure fun _ before => before.1
  | cons task rest ih =>
      refine Triple.get fun t before =>
        Triple.ite (fun _ => ?_) fun _ => Triple.ite (fun _ => ?_) fun _ => ?_
      · exact Triple.pure (by rintro _ rfl; exact before.1)
      · exact Triple.bind (launchTask_moves.of_entry before) fun _ => ih
      · exact ih.of_entry ⟨before.1, before.2.tail⟩

/-- Behind the check of the deadline. -/
theorem launchReady_moves (early : passed deadline now = false)
    (distinct : ∀ t, Moves given onEvent s t → (t.pending.map Task.id).Nodup) :
    Triple (Moves given onEvent s) (launchReady scheduler deadline now submit onEvent)
      (fun _ => Moves given onEvent s) (Halted given Dismissed onEvent s) := by
  refine Triple.ite (fun late => ?_) fun _ => Triple.get fun t moves => ?_
  · rw [early] at late
    cases late
  · exact (launchLoop_moves t.pending).of_entry ⟨moves, fun _ h => h, distinct t moves⟩

theorem conclude_moves {after : ℚ} :
    Triple (Moves given onEvent s) (conclude deadline after) (fun _ => Moves given onEvent s)
      (Halted given Dismissed onEvent s) := by
  refine Triple.get fun t moves => Triple.ite (fun _ => Triple.throw ?_) fun _ => ?_
  · rintro _ rfl
    exact ⟨_, moves, .plain⟩
  · exact Triple.assign fun _ _ => moves.tail (.control _)

theorem passBody_moves (tables : Tables plan s) :
    Triple (fun t => t = s) (passBody scheduler deadline pass)
      (fun _ => Moves given pass.onEvent s) (Halted given Dismissed pass.onEvent s) := by
  have distinct : ∀ t, Moves given pass.onEvent s t → (t.pending.map Task.id).Nodup :=
    fun t moves => (tables.moves moves).pendingDistinct
  apply Triple.get
  intro t begun
  subst begun
  refine Triple.ite (fun _ => conclude_moves.of_entry .refl) fun _ => ?_
  refine Triple.bind (skipBlocked_moves tables.pendingDistinct) fun _ => ?_
  refine Triple.bind (R := fun _ => Moves given pass.onEvent t) ?_ fun _ => ?_
  · by_cases early : passed deadline pass.now = false
    · exact launchReady_moves early distinct
    · exact Triple.ite (fun _ => Triple.throw fun u moves => ⟨u, moves, .plain⟩)
        fun late => absurd (Bool.eq_false_iff.mpr late) early
  · refine Triple.get fun u moves => Triple.ite (fun _ => Triple.ite (fun _ => ?_) fun _ => ?_)
      fun _ => ?_
    · exact conclude_moves.of_entry moves
    · refine Triple.throw ?_
      rintro _ rfl
      exact ⟨_, moves, .plain⟩
    · exact Triple.assign fun _ _ => moves.tail (.control _)

end Pass

section Wake

variable {done : Done α} {state : Running} {now : ℚ} {wake : Wake α}

/-- The results of the future are as `given` says. -/
def Done.Gives (given : Task → TaskResult α → Prop) (done : Done α) : Prop :=
  ∀ task elapsed, task.id = done.taskId → given task (collected task elapsed done.completion)

theorem collect_moves {rest : List (Done α)} (gives : done.Gives given) :
    Triple (fun t => Moves given onEvent s t ∧ Awaited (done :: rest) t) (collect onEvent done)
      (fun _ t => Moves given onEvent s t ∧ Awaited rest t) (Halted given imposed onEvent s) := by
  rintro t ⟨moves, awaited⟩
  obtain ⟨holder, member, same⟩ := awaited.held done List.mem_cons_self
  obtain ⟨state, found, here, named⟩ :=
    Lookup.exists_find? (fun state : Running => state.task.id) member same
  rw [collect_eq found]
  cases outcome : escaping done.completion with
  | some e => exact ⟨t, moves, named ▸ .escaped here⟩
  | none =>
      have taken := gives state.task ((done.now - state.started) * 1000) named
      refine finish_calls (P := fun u => u = t.dropRunning done.taskId) ?_ ?_ _ rfl
      · rintro _ rfl passes
        rw [← named]
        exact ⟨moves.tail (.complete here taken passes), awaited.drop (by rw [← named]; rfl)⟩
      · rintro _ e rfl raised
        rw [← named]
        exact ⟨t, moves, .collected raised here taken⟩

theorem collectAll_moves (l : List (Done α)) (gives : ∀ done ∈ l, done.Gives given) :
    Triple (fun t => Moves given onEvent s t ∧ Awaited l t) (forM l (collect onEvent))
      (fun _ => Moves given onEvent s) (Halted given imposed onEvent s) := by
  induction l with
  | nil => exact Triple.pure fun _ before => before.1
  | cons done rest ih =>
      obtain ⟨here, later⟩ := List.forall_mem_cons.mp gives
      exact Triple.bind (collect_moves here) fun _ => ih later

theorem expireTask_moves {rest : List Running}
    (wide : ∀ task result, Closes task result → given task result)
    (fresh : ∀ other ∈ rest, other.task.id ≠ state.task.id) :
    Triple (fun t => Moves given onEvent s t ∧ ∀ other ∈ state :: rest, other ∈ t.running)
      (expireTask onEvent now state)
      (fun _ t => Moves given onEvent s t ∧ ∀ other ∈ rest, other ∈ t.running)
      (Halted given (Overdue []) onEvent s) := by
  refine Triple.ite (fun _ => ?_) fun _ => Triple.pure ?_
  · refine Triple.bind (finish_calls (Q := fun _ t => ∃ u, (Moves given onEvent s u ∧
      ∀ other ∈ state :: rest, other ∈ u.running) ∧
      Passes onEvent state.task _ ∧ t = u.record onEvent state.task _)
      (fun u before passes => ⟨u, before, passes, rfl⟩) ?_) fun _ => Triple.assign ?_
    · intro u e before raised
      have member := before.2 state List.mem_cons_self
      exact ⟨u, before.1, .early raised (.inr ⟨state, member, rfl⟩) ⟨rfl, _, rfl⟩⟩
    · rintro _ ⟨u, ⟨moves, held⟩, passes, rfl⟩
      have member := held state List.mem_cons_self
      refine ⟨moves.tail (.complete member (wide _ _ ⟨rfl, rfl⟩) passes), ?_⟩
      intro other h
      exact mem_dropRunning.mpr ⟨held other (List.mem_cons_of_mem _ h), fresh other h⟩
  · intro t before
    exact ⟨before.1, fun other h => before.2 other (List.mem_cons_of_mem _ h)⟩

theorem expireAll_moves (wide : ∀ task result, Closes task result → given task result)
    (l : List Running) (distinct : (l.map fun state => state.task.id).Nodup) :
    Triple (fun t => Moves given onEvent s t ∧ ∀ state ∈ l, state ∈ t.running)
      (forM l (expireTask onEvent now)) (fun _ => Moves given onEvent s)
      (Halted given (Overdue []) onEvent s) := by
  induction l with
  | nil => exact Triple.pure fun _ before => before.1
  | cons state rest ih =>
      obtain ⟨fresh, distinct⟩ := List.nodup_cons.mp distinct
      refine Triple.bind (expireTask_moves wide fun other h same => fresh ?_) fun _ => ih distinct
      exact List.mem_map.mpr ⟨other, h, same⟩

theorem wakeBody_moves (tables : Tables plan s) (awaited : Awaited wake.done s)
    (wide : ∀ task result, Closes task result → given task result)
    (gives : ∀ done ∈ wake.done, done.Gives given) :
    Triple (fun t => t = s) (wakeBody wake) (fun _ => Moves given wake.onEvent s)
      (Halted given (Overdue wake.done) wake.onEvent s) := by
  refine Triple.bind ((collectAll_moves wake.done gives).of_entry ⟨.refl, awaited⟩) fun _ => ?_
  have resumed : Triple (Moves given wake.onEvent s)
      (modify fun t : RunState α => { t with control := .looping })
      (fun _ => Moves given wake.onEvent s)
      (Halted given (Overdue wake.done) wake.onEvent s) :=
    Triple.assign fun _ moves => moves.tail (.control _)
  refine Triple.ite (fun none_ => Triple.bind (Triple.get fun t moves => ?_) fun _ => resumed)
    fun _ => resumed
  rw [List.isEmpty_iff.mp none_]
  exact (expireAll_moves wide t.running (tables.moves moves).runningDistinct).of_entry
    ⟨moves, fun _ h => h⟩

end Wake

end MultiAgent.Plugin.TaskScheduler
