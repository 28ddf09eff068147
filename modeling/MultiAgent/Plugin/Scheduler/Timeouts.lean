import MultiAgent.Plugin.Scheduler.Moves

/-!
# When the deadline of the run ends it

The deadline is tested in front of the launches, behind the skips of the same pass, and behind
the loop. Behind the loop the clock alone is not enough: some task must have timed out. In front
of the launches it is, also where the skips have just finished the last tasks. `Timely` says
exactly when a pass does not end a run there that nothing was cut off in. What `run_task`
returns is free: a result may even name another task.
-/

namespace MultiAgent.Plugin.TaskScheduler

variable {α : Type} {scheduler : TaskScheduler} {deadline context : Option ℚ}
  {iter : List String → List String} {plan : TaskPlan} {status : String → TaskStatus}
  {s t u : RunState α} {es : List (Event α)} {onEvent : OnEvent α} {task : Task}
  {result : TaskResult α} {given imposed : Task → TaskResult α → Prop} {e : PyException}

section Justification

/-- Some task of the plan ended as timed out or cancelled. -/
def CutOff (plan : TaskPlan) (s : RunState α) : Prop :=
  ∃ task ∈ plan.tasks, s.status task.id = .timeout ∨ s.status task.id = .cancelled

/-- `execute` raises `RunTimeout`, and `execute_run` reports a timeout, only where a task was
cut off. -/
structure TimeoutJustified (plan : TaskPlan) (s : RunState α) : Prop where
  raised : ∀ text, execute s = some (.error (.runTimeout text)) → CutOff plan s
  reported : ∀ outcome, executeRun s = some (.ok outcome) → outcome.status = "timeout" →
    CutOff plan s

def IsTimeout (e : PyException) : Prop := ∃ text, e = .runTimeout text

/-- The run has ended with `RunTimeout`. -/
def TimedOut (s : RunState α) : Prop := ∃ e last, IsTimeout e ∧ s.control = .raised e last

theorem timeoutJustified_iff : TimeoutJustified plan s ↔ (TimedOut s → CutOff plan s) := by
  constructor
  · rintro justified ⟨_, last, ⟨text, rfl⟩, control⟩
    refine justified.raised text ?_
    unfold execute
    rw [control]
  · intro cut
    refine ⟨?_, ?_⟩
    · intro text ended
      unfold execute at ended
      split at ended
      · cases ended
      · rename_i e last control
        obtain rfl : e = .runTimeout text := by simpa using ended
        exact cut ⟨_, last, ⟨text, rfl⟩, control⟩
      · cases ended
      · cases ended
    · intro outcome ended named
      unfold executeRun at ended
      split at ended
      · have shape := congrArg RunResult.status (Except.ok.inj (Option.some.inj ended))
        rw [named] at shape
        dsimp only at shape
        split at shape <;> simp at shape
      · rename_i e last control
        split at ended
        · exact cut ⟨_, last, ⟨_, rfl⟩, control⟩
        all_goals
          have shape := Option.some.inj ended
          cases shape
        all_goals simp at named
      · cases ended
      · cases ended

end Justification

section Places

/-- The task of this id has left the tables. -/
def RunState.Left (s : RunState α) (id : String) : Prop :=
  (∀ other ∈ s.pending, other.id ≠ id) ∧ ∀ state ∈ s.running, state.task.id ≠ id

/-- Each result has the status of a task that has left the tables: the one it was given to. -/
structure Placed (plan : TaskPlan) (s : RunState α) : Prop extends Tables plan s where
  marked : ∀ result ∈ s.results.values,
    ∃ task ∈ plan.tasks, s.Left task.id ∧ s.status task.id = result.status

theorem Placed.start (plan : TaskPlan) (status : String → TaskStatus) :
    Placed plan (start plan status : RunState α) :=
  ⟨Tables.start plan status, nofun⟩

theorem Placed.restate (placed : Placed plan s) (status : t.status = s.status)
    (pending : t.pending = s.pending) (running : t.running = s.running)
    (results : t.results = s.results) : Placed plan t := by
  refine ⟨placed.toTables.restate pending running, ?_⟩
  intro result member
  obtain ⟨task, known, left, ended⟩ := placed.marked result (results ▸ member)
  refine ⟨task, known, ?_, status ▸ ended⟩
  unfold RunState.Left
  rwa [pending, running]

theorem RunState.Left.mono {id : String} (left : s.Left id)
    (pending : ∀ other ∈ t.pending, other ∈ s.pending)
    (running : ∀ state ∈ t.running, state ∈ s.running) : t.Left id :=
  ⟨fun other h => left.1 other (pending other h), fun state h => left.2 state (running state h)⟩

/-- The task that a result was given to leaves its table. -/
theorem Placed.record (placed : Placed plan s) (tables : Tables plan t) (known : task ∈ plan.tasks)
    (open_ : ¬ s.Left task.id) (left : t.Left task.id) (stays : ∀ id, s.Left id → t.Left id)
    (status : t.status = Function.update s.status task.id result.status)
    (results : t.results = s.results.set result.taskId result) : Placed plan t := by
  refine ⟨tables, ?_⟩
  intro kept member
  rw [results] at member
  rw [status]
  obtain rfl | member := Dict.mem_values_set member
  · exact ⟨task, known, left, Function.update_self _ _ _⟩
  · obtain ⟨other, here, gone, ended⟩ := placed.marked kept member
    have differs : other.id ≠ task.id := fun same => open_ (same ▸ gone)
    refine ⟨other, here, stays _ gone, ?_⟩
    rw [Function.update_of_ne differs, ended]

theorem Placed.move (placed : Placed plan s) (move : Move given onEvent s t) : Placed plan t := by
  have tables := placed.toTables.move move
  cases move with
  | settle member closes passes =>
      refine placed.record tables (placed.pendingKnown _ member) ?_ ⟨?_, ?_⟩ ?_ rfl rfl
      · exact fun left => left.1 _ member rfl
      · exact fun other h => (mem_dropPending.mp h).2
      · exact placed.apart _ member
      · exact fun id left => left.mono (fun _ h => (mem_dropPending.mp h).1) fun _ h => h
  | mark member =>
      refine ⟨tables, ?_⟩
      intro result kept
      obtain ⟨other, known, left, ended⟩ := placed.marked result kept
      refine ⟨other, known, left, ?_⟩
      rw [← ended]
      exact Function.update_of_ne (left.1 _ member).symm _ _
  | launch state member =>
      refine ⟨tables, ?_⟩
      intro result kept
      obtain ⟨other, known, left, ended⟩ := placed.marked result kept
      refine ⟨other, known, ⟨?_, ?_⟩, ended⟩
      · exact fun task place => left.1 task (mem_dropPending.mp place).1
      · intro holder place
        obtain place | place := List.mem_append.mp place
        · exact left.2 holder place
        · rw [List.mem_singleton.mp place]
          exact left.1 _ member
  | complete member taken passes =>
      refine placed.record tables (placed.runningKnown _ member) ?_ ⟨?_, ?_⟩ ?_ rfl rfl
      · exact fun left => left.2 _ member rfl
      · exact fun other h same => placed.apart other h _ member same.symm
      · exact fun other h => (mem_dropRunning.mp h).2
      · exact fun id left => left.mono (fun _ h => h) fun _ h => (mem_dropRunning.mp h).1
  | control control => exact placed.restate rfl rfl rfl rfl

theorem Placed.moves (placed : Placed plan s) (moves : Moves given onEvent s t) :
    Placed plan t := by
  induction moves with
  | refl => exact placed
  | tail _ move ih => exact ih.move move

/-- Tables are still tables where an exception leaves. -/
theorem Halted.tables (tables : Tables plan s) (halted : Halted given imposed onEvent s e t) :
    Tables plan t := by
  obtain ⟨u, moves, exit⟩ := halted
  have last := tables.moves moves
  cases exit with
  | early raised holds ruled => exact last.record
  | collected raised member taken => exact last.record.dropRunning _
  | escaped member => exact last.dropRunning _
  | plain => exact last

end Places

section Abort

/-- A task has been cut off, or will be by the abort. -/
def Due (plan : TaskPlan) (s : RunState α) : Prop :=
  s.pending ≠ [] ∨ s.running ≠ [] ∨ CutOff plan s

/-- The abort cancels every task of the list. -/
theorem abortAll_cutOff {C : Prop} (l : List Task) (known : ∀ task ∈ l, task ∈ plan.tasks) :
    Triple (fun s : RunState α => C ∨ l ≠ [] ∨ CutOff plan s) (forM l (abortTask onEvent))
      (fun _ s => C ∨ CutOff plan s) fun e _ => Raises onEvent e := by
  induction l with
  | nil =>
      refine Triple.pure fun s before => before.imp_right fun cut => ?_
      exact cut.resolve_left fun h => h rfl
  | cons head rest ih =>
      obtain ⟨here, later⟩ := List.forall_mem_cons.mp known
      refine Triple.bind (finish_spec ?_ fun _ _ _ raised => raised) fun _ => ih later
      intro s _
      exact .inr (.inr ⟨head, here, .inr (Function.update_self _ _ _)⟩)

theorem abort_cutOff :
    Triple (fun s : RunState α => Tables plan s ∧ Due plan s) (abort onEvent)
      (fun _ => CutOff plan) fun e _ => Raises onEvent e := by
  apply Triple.get
  rintro s ⟨tables, due⟩
  have runners : ∀ task ∈ s.running.map Running.task, task ∈ plan.tasks := by
    intro task h
    obtain ⟨state, member, rfl⟩ := List.mem_map.mp h
    exact tables.runningKnown state member
  refine Triple.bind ((abortAll_cutOff (C := s.pending ≠ []) _ runners).of_entry ?_) fun _ =>
    (abortAll_cutOff (C := False) s.pending tables.pendingKnown).conseq ?_ ?_ fun _ _ h => h
  · exact due.imp_right fun due => due.imp_left fun open_ h => open_ (List.map_eq_nil_iff.mp h)
  · exact fun t cut => .inr cut
  · exact fun _ t cut => cut.resolve_left id

/-- With nothing left to cancel, the abort changes no status. -/
theorem abort_drained :
    Triple (fun s : RunState α => s.pending = [] ∧ s.running = [] ∧ ¬ CutOff plan s)
      (abort onEvent) (fun _ s => ¬ CutOff plan s) fun e _ => Raises onEvent e := by
  apply Triple.get
  rintro s ⟨pending, running, spared⟩
  rw [pending, running]
  refine Triple.bind (R := fun _ t => ¬ CutOff plan t) ?_ fun _ => Triple.pure fun _ h => h
  refine Triple.pure ?_
  rintro _ rfl
  exact spared

end Abort

section Skips

variable {rest : List Task}

/-- Between the rounds of `_skip_blocked`, begun in `s`, with `rest` to come, where a result
may name any task. -/
structure Sweeping (plan : TaskPlan) (s : RunState α) (rest : List Task) (t : RunState α) :
    Prop where
  tables : Tables plan t
  queued : Queued rest t
  running : t.running = s.running
  gone : ∃ gone, gone ++ sweep plan.dependsOn (fun _ => true)
      (fun id => (t.unsuccessful id).isSome) (rest.map Task.id) = skipped plan s ∧
    (∀ task, task ∈ t.pending ↔ task ∈ s.pending ∧ task.id ∉ gone) ∧
    ∀ id, t.status id = if id ∈ gone then .skipped else s.status id

theorem skipTask_sweeping :
    Triple (Sweeping plan s (task :: rest)) (skipTask onEvent task)
      (fun _ => Sweeping plan s rest) fun e _ => Raises onEvent e := by
  refine skipTask_rule ?_ ?_ fun _ _ _ _ raised => raised.raises
  · intro t before clear
    obtain ⟨gone, split_, left, ended⟩ := before.gone
    have known := before.tables.pendingKnown task (before.queued.waiting task List.mem_cons_self)
    rw [sweep_of_clear known clear] at split_
    exact ⟨before.tables, before.queued.tail, before.running, gone, split_, left, ended⟩
  · intro t error before blocked _
    obtain ⟨gone, split_, left, ended⟩ := before.gone
    have known := before.tables.pendingKnown task (before.queued.waiting task List.mem_cons_self)
    have closes : Closes task (⟨task.id, .skipped, none, some error, task.agent, 0⟩ :
        TaskResult α) := ⟨rfl, rfl⟩
    rw [sweep_of_blocked onEvent known blocked closes rfl] at split_
    refine ⟨before.tables.record.dropPending task, before.queued.drop rfl, before.running,
      gone ++ [task.id], ?_, fun _ => mem_pending_gone left, ?_⟩
    · rw [List.append_assoc]
      exact split_
    · intro id
      change Function.update t.status task.id .skipped id = _
      by_cases same : id = task.id
      · rw [same, Function.update_self]
        simp
      · rw [Function.update_of_ne same, ended]
        simp [same]

theorem skipBlocked_sweeping (tables : Tables plan s) :
    Triple (fun t => t = s) (skipBlocked onEvent) (fun _ => Sweeping plan s [])
      fun e _ => Raises onEvent e := by
  apply Triple.get
  intro t begun
  subst begun
  refine (Triple.forM (I := Sweeping plan t) t.pending fun _ _ => skipTask_sweeping).of_entry ?_
  exact ⟨tables, ⟨fun _ h => h, tables.pendingDistinct⟩, rfl, [], rfl, fun task => by simp,
    fun id => by simp⟩

/-- Everything pending is skipped exactly when each task has a dependency that ended without
success, or that is itself pending and listed before it. -/
theorem skips_all_iff (tables : Tables plan s) :
    (∀ task ∈ s.pending, task.id ∈ skipped plan s) ↔
      ∀ task ∈ s.pending, ∃ dep ∈ task.dependsOn, (s.unsuccessful dep).isSome = true ∨
        (s.pending.map Task.id).idxOf dep < (s.pending.map Task.id).idxOf task.id := by
  have whole : (∀ id ∈ s.pending.map Task.id, id ∈ s.pending.map Task.id →
        id ∈ skipped plan s) ↔
      ∀ id ∈ s.pending.map Task.id, id ∈ s.pending.map Task.id →
        ∃ dep ∈ plan.dependsOn id, (s.unsuccessful dep).isSome = true ∨
          (dep ∈ s.pending.map Task.id ∧
            (s.pending.map Task.id).idxOf dep < (s.pending.map Task.id).idxOf id) :=
    Sweep.covers_iff tables.pendingDistinct (fun _ _ _ => rfl) fun _ => Sweep.mem_of_mem
  have named : ∀ {p : String → Prop}, (∀ id ∈ s.pending.map Task.id,
      id ∈ s.pending.map Task.id → p id) ↔ ∀ task ∈ s.pending, p task.id := by
    intro p
    constructor
    · exact fun all task waiting =>
        all task.id (List.mem_map_of_mem waiting) (List.mem_map_of_mem waiting)
    · intro all id member _
      obtain ⟨task, waiting, rfl⟩ := List.mem_map.mp member
      exact all task waiting
  rw [← named, whole, named]
  apply forall_congr'
  intro task
  apply forall_congr'
  intro waiting
  rw [TaskPlan.dependsOn_id (tables.pendingKnown task waiting)]
  apply exists_congr
  intro dep
  refine and_congr_right fun _ => or_congr_right ⟨And.right, fun before => ⟨?_, before⟩⟩
  refine List.idxOf_lt_length_iff.mp (Nat.lt_trans before (List.idxOf_lt_length_iff.mpr ?_))
  exact List.mem_map_of_mem waiting

theorem Sweeping.cutOff_iff (sweeping : Sweeping plan s [] t) :
    CutOff plan t ↔ ∃ task ∈ plan.tasks, task.id ∉ skipped plan s ∧
      (s.status task.id = .timeout ∨ s.status task.id = .cancelled) := by
  obtain ⟨gone, whole, -, ended⟩ := sweeping.gone
  rw [List.map_nil, sweep, List.append_nil] at whole
  subst whole
  apply exists_congr
  intro task
  rw [ended]
  by_cases out : task.id ∈ skipped plan s <;> simp [out]

theorem Sweeping.pending_eq_nil_iff (sweeping : Sweeping plan s [] t) :
    t.pending = [] ↔ ∀ task ∈ s.pending, task.id ∈ skipped plan s := by
  obtain ⟨gone, whole, left, -⟩ := sweeping.gone
  rw [List.map_nil, sweep, List.append_nil] at whole
  subst whole
  rw [List.eq_nil_iff_forall_not_mem]
  apply forall_congr'
  intro task
  rw [left, not_and, not_not]

end Skips

/-- The pass does not take skips for a timeout: if it comes late, with nothing running, and each
pending task has a dependency that lets it be skipped, then a task was cut off before. -/
def Timely (plan : TaskPlan) (deadline : Option ℚ) (s : RunState α) : Event α → Prop
  | .pass pass =>
    s.running = [] → s.pending ≠ [] → passed deadline pass.now = true →
    (∀ task ∈ s.pending, ∃ dep ∈ task.dependsOn, (s.unsuccessful dep).isSome = true ∨
      (s.pending.map Task.id).idxOf dep < (s.pending.map Task.id).idxOf task.id) →
    ∃ task ∈ plan.tasks, task ∉ s.pending ∧
      (s.status task.id = .timeout ∨ s.status task.id = .cancelled)
  | .wake _ => True

/-- Behind the skips of a late pass. -/
theorem timely_iff_due {pass : Pass α} (tables : Tables plan s) (sweeping : Sweeping plan s [] t)
    (open_ : s.pending ≠ [] ∨ s.running ≠ []) (late : passed deadline pass.now = true) :
    Timely plan deadline s (.pass pass) ↔ Due plan t := by
  unfold Timely Due
  rw [← skips_all_iff tables, sweeping.running, sweeping.cutOff_iff, Ne, Ne,
    sweeping.pending_eq_nil_iff]
  by_cases idle : s.running = []
  · by_cases all : ∀ task ∈ s.pending, task.id ∈ skipped plan s
    · have waits : s.pending ≠ [] := open_.resolve_right fun h => h idle
      have same : ∀ task ∈ plan.tasks, task ∉ s.pending ↔ task.id ∉ skipped plan s := by
        refine fun task known => not_congr ⟨all task, fun out => ?_⟩
        obtain ⟨other, here, equal⟩ := List.mem_map.mp (Sweep.mem_of_mem out)
        exact TaskPlan.eq_of_id_eq (tables.pendingKnown other here) known equal ▸ here
      have cut : (∃ task ∈ plan.tasks, task ∉ s.pending ∧
            (s.status task.id = .timeout ∨ s.status task.id = .cancelled)) ↔
          ∃ task ∈ plan.tasks, task.id ∉ skipped plan s ∧
            (s.status task.id = .timeout ∨ s.status task.id = .cancelled) :=
        exists_congr fun task => and_congr_right fun known => and_congr_left' (same task known)
      rw [cut]
      exact ⟨fun timely => .inr (.inr (timely idle waits late all)), fun due _ _ _ _ =>
        (due.resolve_left fun h => h all).resolve_left fun h => h idle⟩
    · exact ⟨fun _ => .inl all, fun _ _ _ _ h => absurd h all⟩
  · exact ⟨fun _ => .inr (.inl idle), fun _ h => absurd h idle⟩

section Pass

variable {pass : Pass α}

/-- A late pass that still has tasks raises `RunTimeout` behind the skips. -/
theorem passBody_late (tables : Tables plan s) (open_ : s.pending ≠ [] ∨ s.running ≠ [])
    (late : passed deadline pass.now = true) :
    Triple (fun t => t = s) (passBody scheduler deadline pass) (fun _ _ => False)
      fun e t => Raises pass.onEvent e ∨ (IsTimeout e ∧ Sweeping plan s [] t) := by
  apply Triple.get
  intro t begun
  subst begun
  refine Triple.ite ?_ fun _ => ?_
  · intro drained
    obtain ⟨pending, running⟩ := Bool.and_eq_true_iff.mp drained
    obtain some_ | some_ := open_
    · exact absurd (List.isEmpty_iff.mp pending) some_
    · exact absurd (List.isEmpty_iff.mp running) some_
  refine Triple.bind ((skipBlocked_sweeping tables).imp_raised fun _ _ raised => .inl raised)
    fun _ => Triple.bind (R := fun _ _ => False) ?_ fun _ _ h => h.elim
  refine Triple.ite (fun _ => Triple.throw fun u sweeping => .inr ⟨⟨_, rfl⟩, sweeping⟩) ?_
  exact fun early => absurd late early

/-- The exceptions of the launches, before the deadline. -/
theorem launchLoop_raises {now : ℚ} {submit : Task → Submission} (rest : List Task) :
    Triple (fun _ : RunState α => True)
      (launchLoop scheduler deadline now submit onEvent rest) (fun _ _ => True)
      fun e _ => Raises onEvent e ∨ ¬ IsTimeout e := by
  induction rest with
  | nil => exact Triple.pure fun _ h => h
  | cons task rest ih =>
      refine Triple.get fun t _ => Triple.ite (fun _ => Triple.pure fun _ _ => trivial) fun _ =>
        Triple.ite (fun _ => Triple.bind (R := fun _ _ => True) ?_ fun _ => ih)
          fun _ => ih.of_entry trivial
      refine Triple.bind (R := fun _ _ => True) (Triple.assign fun _ _ => trivial) fun _ => ?_
      split
      · exact Triple.assign fun _ _ => trivial
      · exact settle_spec (fun _ _ => trivial) fun _ _ _ raised => .inl raised
      · exact Triple.throw fun _ _ => .inr (by rintro ⟨text, same⟩; cases same)

theorem conclude_due {after : ℚ} :
    Triple (Placed plan) (conclude deadline after : Program α Unit) (fun _ t => ¬ TimedOut t)
      fun _ t => Due plan t := by
  refine Triple.get fun t placed => Triple.ite (fun late => Triple.throw ?_) fun _ =>
    Triple.assign ?_
  · rintro _ rfl
    obtain ⟨result, member, ended⟩ := List.any_eq_true.mp (Bool.and_eq_true_iff.mp late).2
    obtain ⟨task, known, -, same⟩ := placed.marked result member
    exact .inr (.inr ⟨task, known, .inl (same.trans (of_decide_eq_true ended))⟩)
  · rintro _ rfl ⟨e, last, -, control⟩
    cases control

/-- A pass with nothing to do, or before the deadline, raises `RunTimeout` only where a task
timed out. -/
theorem passBody_early (placed : Placed plan s)
    (early : s.pending ≠ [] ∨ s.running ≠ [] → passed deadline pass.now = false) :
    Triple (fun t => t = s) (passBody scheduler deadline pass) (fun _ t => ¬ TimedOut t)
      fun e t => Raises pass.onEvent e ∨ (IsTimeout e → Due plan t) := by
  apply Triple.get
  intro t begun
  subst begun
  have concludes : Triple (Placed plan) (conclude deadline pass.after : Program α Unit)
      (fun _ t => ¬ TimedOut t)
      fun e t => Raises pass.onEvent e ∨ (IsTimeout e → Due plan t) :=
    conclude_due.imp_raised fun _ _ due => .inr fun _ => due
  refine Triple.ite (fun _ => concludes.of_entry placed) fun some_ => ?_
  have early : passed deadline pass.now = false := early (by
    rw [Bool.and_eq_true, List.isEmpty_iff, List.isEmpty_iff] at some_
    exact not_and_or.mp some_)
  have moves : ∀ {u}, Moves (fun _ _ => True) pass.onEvent t u → Placed plan u := placed.moves
  refine Triple.bind (R := fun _ => Moves (fun _ _ => True) pass.onEvent t)
    (((skipBlocked_moves placed.pendingDistinct).and
      (skipBlocked_sweeping placed.toTables)).conseq (fun _ h => h) (fun _ _ post => post.1)
      fun _ _ raised => .inl raised.2) fun _ => ?_
  refine Triple.bind (R := fun _ => Moves (fun _ _ => True) pass.onEvent t) ?_ fun _ => ?_
  · refine Triple.ite (fun late => ?_) fun _ => Triple.get fun u before => ?_
    · rw [early] at late
      cases late
    · have loop : Triple (fun v => v = u)
          (launchLoop scheduler deadline pass.now pass.submit pass.onEvent u.pending) _ _ :=
        (launchLoop_moves u.pending).of_entry
          ⟨before, fun _ h => h, (moves before).pendingDistinct⟩
      refine (loop.and ((launchLoop_raises u.pending).of_entry trivial)).conseq (fun _ h => h)
        (fun _ _ post => post.1) ?_
      rintro e v ⟨-, raised | other⟩
      · exact .inl raised
      · exact .inr fun timeout => absurd timeout other
  · refine Triple.get fun u before => Triple.ite (fun _ => Triple.ite (fun _ => ?_) fun _ => ?_)
      fun _ => Triple.assign ?_
    · exact concludes.of_entry (moves before)
    · refine Triple.throw fun _ _ => .inr ?_
      rintro ⟨text, same⟩
      cases same
    · rintro _ - ⟨e, last, -, control⟩
      cases control

end Pass

/-- The exceptions of a wake-up. -/
theorem wakeBody_raises {wake : Wake α} :
    Triple (fun _ => True) (wakeBody wake) (fun _ t => ¬ TimedOut t)
      fun e _ => Raises wake.onEvent e ∨ ¬ IsTimeout e := by
  have collects : ∀ l : List (Done α), Triple (fun _ => True) (forM l (collect wake.onEvent))
      (fun _ _ => True) fun e _ => Raises wake.onEvent e ∨ ¬ IsTimeout e := by
    intro l
    refine Triple.forM (I := fun _ _ => True) l fun done rest => Triple.get fun t _ => ?_
    split
    · exact Triple.pure fun _ _ => trivial
    · refine Triple.bind (R := fun _ _ => True) (fun _ _ => trivial) fun _ => ?_
      have finishes : ∀ task result, Triple (fun _ => True) (finish wake.onEvent task result)
          (fun _ _ => True) fun e _ => Raises wake.onEvent e ∨ ¬ IsTimeout e :=
        fun task result => finish_spec (fun _ _ => trivial) fun _ _ _ raised => .inl raised
      split
      · exact finishes _ _
      · exact Triple.throw fun _ _ => .inr (by rintro ⟨text, same⟩; cases same)
      · exact Triple.throw fun _ _ => .inr (by rintro ⟨text, same⟩; cases same)
      · exact finishes _ _
      · exact finishes _ _
  have expires : ∀ l : List Running,
      Triple (fun _ => True) (forM l (expireTask wake.onEvent wake.now))
        (fun _ _ => True) fun e _ => Raises wake.onEvent e ∨ ¬ IsTimeout e := by
    intro l
    refine Triple.forM (I := fun _ _ => True) l fun state rest => Triple.ite (fun _ => ?_)
      fun _ => Triple.pure fun _ _ => trivial
    exact Triple.bind (R := fun _ _ => True)
      (finish_spec (fun _ _ => trivial) fun _ _ _ raised => .inl raised)
      fun _ => Triple.assign fun _ _ => trivial
  have resumed :
      Triple (fun _ => True) (modify fun t : RunState α => { t with control := .looping })
        (fun _ t => ¬ TimedOut t) fun e _ => Raises wake.onEvent e ∨ ¬ IsTimeout e := by
    refine Triple.assign ?_
    rintro t - ⟨e, last, -, control⟩
    cases control
  refine Triple.bind (collects wake.done) fun _ => Triple.ite (fun _ => ?_) fun _ => resumed
  exact Triple.bind (Triple.get fun t _ => (expires t.running).of_entry trivial) fun _ => resumed

section Steps

/-- The callback raises no `RunTimeout` of its own. -/
def Patient (event : Event α) : Prop := ∀ e, Raises event.onEvent e → ¬ IsTimeout e

theorem Calm.patient {event : Event α} (calm : Calm event) : Patient event :=
  fun e raised => absurd raised (calm e)

/-- The tables while the run goes on. -/
def Standing (plan : TaskPlan) (s : RunState α) : Prop :=
  s.control = .looping ∨ s.control = .waiting → Placed plan s

theorem handler_standing {E : RunState α → Prop} :
    Triple E (abort onEvent) (fun _ u => Standing plan { u with control := .raised e u.results })
      fun e' u => Standing plan { u with control := .raised e' .empty } :=
  abort_raises.conseq (fun _ _ => trivial) (fun _ _ _ => nofun) fun _ _ _ => nofun

theorem standing_step {event : Event α} (standing : Standing plan s)
    (taken : step scheduler deadline s event = some t) : Standing plan t := by
  cases event with
  | pass pass =>
      obtain ⟨control, rfl⟩ := step_pass taken
      have placed := standing (.inl control)
      have body : Triple (fun t => t = s) (passBody scheduler deadline pass)
          (fun _ => Moves (fun _ _ => True) pass.onEvent s) _ := passBody_moves placed.toTables
      refine guarded_spec (body.imp_post ?_) (fun e => handler_standing) rfl
      exact fun _ u moves _ => placed.moves moves
  | wake wake =>
      obtain ⟨control, ok, rfl⟩ := step_wake taken
      have placed := standing (.inr control)
      have body : Triple (fun t => t = s) (wakeBody wake)
          (fun _ => Moves (fun _ _ => True) wake.onEvent s) _ :=
        wakeBody_moves placed.toTables (awaited_of_possible ok) (fun _ _ _ => trivial)
          fun _ _ _ _ _ => trivial
      refine guarded_spec (body.imp_post ?_) (fun e => handler_standing) rfl
      exact fun _ u moves _ => placed.moves moves

/-- An abort that `RunTimeout` led to cuts something off. -/
theorem handler_cutOff {event : Event α} (patient : Patient event) :
    Triple (fun u : RunState α => IsTimeout e → Tables plan u ∧ Due plan u) (abort event.onEvent)
      (fun _ u => TimedOut { u with control := .raised e u.results } →
        CutOff plan { u with control := .raised e u.results })
      fun e' u => TimedOut { u with control := .raised e' .empty } →
        CutOff plan { u with control := .raised e' .empty } := by
  have raising : ∀ e' (u : RunState α), Raises event.onEvent e' →
      TimedOut { u with control := .raised e' .empty } →
      CutOff plan { u with control := .raised e' .empty } := by
    rintro e' u raised ⟨_, last, timeout, control⟩
    cases control
    exact absurd timeout (patient _ raised)
  refine Triple.entry fun u due => ?_
  by_cases timeout : IsTimeout e
  · exact (abort_cutOff.of_entry (due timeout)).conseq (fun _ h => h) (fun _ v cut _ => cut) raising
  · refine abort_raises.conseq (fun _ _ => trivial) ?_ raising
    rintro _ v - ⟨_, last, other, control⟩
    cases control
    exact absurd other timeout

/-- Where a timely pass raises `RunTimeout`, something is cut off. -/
theorem passBody_due {pass : Pass α} (placed : Placed plan s)
    (timely : Timely plan deadline s (.pass pass)) :
    Triple (fun t => t = s) (passBody scheduler deadline pass) (fun _ t => ¬ TimedOut t)
      fun e t => Raises pass.onEvent e ∨ (IsTimeout e → Tables plan t ∧ Due plan t) := by
  have halts : Triple (fun t => t = s) (passBody scheduler deadline pass) (fun _ _ => True)
      fun _ t => Tables plan t := by
    have body : Triple (fun t => t = s) (passBody scheduler deadline pass) _
        (Halted (fun _ _ => True) Dismissed pass.onEvent s) := passBody_moves placed.toTables
    exact body.conseq (fun _ h => h) (fun _ _ _ => trivial)
      fun _ _ halted => halted.tables placed.toTables
  by_cases late : (s.pending ≠ [] ∨ s.running ≠ []) ∧ passed deadline pass.now = true
  · obtain ⟨open_, late⟩ := late
    refine (passBody_late placed.toTables open_ late).conseq (fun _ h => h)
      (fun _ _ h => h.elim) ?_
    rintro e t (raised | ⟨-, sweeping⟩)
    · exact .inl raised
    · have due := (timely_iff_due placed.toTables sweeping open_ late).mp timely
      exact .inr fun _ => ⟨sweeping.tables, due⟩
  · have early : s.pending ≠ [] ∨ s.running ≠ [] → passed deadline pass.now = false :=
      fun open_ => Bool.eq_false_iff.mpr fun h => late ⟨open_, h⟩
    refine ((passBody_early placed early).and halts).conseq (fun _ h => h)
      (fun _ _ post => post.1) ?_
    rintro e t ⟨raised | due, tables⟩
    · exact .inl raised
    · exact .inr fun timeout => ⟨tables, due timeout⟩

theorem timeoutJustified_step {event : Event α} (standing : Standing plan s)
    (patient : Patient event)
    (timely : Timely plan deadline s event)
    (taken : step scheduler deadline s event = some t) : TimeoutJustified plan t := by
  rw [timeoutJustified_iff]
  cases event with
  | pass pass =>
      obtain ⟨control, rfl⟩ := step_pass taken
      refine guarded_spec (G := fun u => TimedOut u → CutOff plan u)
        ((passBody_due (standing (.inl control)) timely).imp_post fun _ _ quiet ended =>
          absurd ended quiet) (fun e => (handler_cutOff patient).conseq ?_ (fun _ _ h => h)
            fun _ _ h => h) rfl
      intro u raised timeout
      exact (raised.resolve_left fun raised => patient e raised timeout) timeout
  | wake wake =>
      obtain ⟨control, ok, rfl⟩ := step_wake taken
      refine guarded_spec (G := fun u => TimedOut u → CutOff plan u) (P := fun _ => True)
        (wakeBody_raises.imp_post fun _ _ quiet ended => absurd ended quiet)
        (fun e => (handler_cutOff patient).conseq ?_ (fun _ _ h => h) fun _ _ h => h) trivial
      intro u raised timeout
      obtain raised | other := raised
      · exact absurd timeout (patient e raised)
      · exact absurd timeout other

/-- A pass that is not timely ends the run with `RunTimeout`, with no task cut off. -/
theorem not_timeoutJustified_step {event : Event α} (standing : Standing plan s) (calm : Calm event)
    (untimely : ¬ Timely plan deadline s event)
    (taken : step scheduler deadline s event = some t) : ¬ TimeoutJustified plan t := by
  rw [timeoutJustified_iff, Classical.not_imp]
  cases event with
  | pass pass =>
      obtain ⟨control, rfl⟩ := step_pass taken
      have placed := standing (.inl control)
      have facts : s.pending ≠ [] ∧ passed deadline pass.now = true := by
        refine ⟨fun h => untimely fun _ some_ => absurd h some_, ?_⟩
        rw [← Bool.not_eq_false]
        refine fun early => untimely fun _ _ late => ?_
        rw [early] at late
        cases late
      refine guarded_spec (G := fun u => TimedOut u ∧ ¬ CutOff plan u)
        ((passBody_late placed.toTables (.inl facts.1) facts.2).imp_post fun _ _ h => h.elim)
        (fun e => Triple.entry fun u raised => ?_) rfl
      obtain ⟨timeout, sweeping⟩ := raised.resolve_left (calm e)
      have spared : ¬ Due plan u :=
        (timely_iff_due placed.toTables sweeping (.inl facts.1) facts.2).not.mp untimely
      unfold Due at spared
      push Not at spared
      refine (abort_drained.of_entry spared).conseq (fun _ h => h) ?_
        fun e' _ raised => absurd raised (calm e')
      exact fun _ v kept => ⟨⟨e, _, timeout, rfl⟩, kept⟩
  | wake wake => exact absurd trivial untimely

end Steps

/-- A run of a validated plan reports a timeout only where a task of it was cut off, when each of
its passes is timely. Behind a callback that does not raise, this condition is exact. -/
theorem timeouts_justified (reached : Reaches scheduler context iter plan status es s) :
    ((machine scheduler (scheduler.runDeadline context)).Meets
        (fun u event => Patient event ∧ Timely plan (scheduler.runDeadline context) u event)
        (start plan status) es → TimeoutJustified plan s) ∧
    ((machine scheduler (scheduler.runDeadline context)).Meets
        (fun _ event => Calm event) (start plan status) es →
      ((machine scheduler (scheduler.runDeadline context)).Meets
        (Timely plan (scheduler.runDeadline context)) (start plan status) es ↔
          TimeoutJustified plan s)) := by
  obtain ⟨-, execution⟩ := reached
  have begun : Standing plan (start plan status : RunState α) := fun _ => Placed.start plan status
  have first : TimeoutJustified plan (start plan status : RunState α) :=
    timeoutJustified_iff.mpr fun ⟨_, _, _, control⟩ => by cases control
  constructor
  · intro meets
    have kept := Machine.run_invariant_of_meets
      (P := fun u => Standing plan u ∧ TimeoutJustified plan u)
      (fun u event v live ok taken => ⟨standing_step live.1 taken,
        timeoutJustified_step live.1 ok.1 ok.2 taken⟩) ⟨begun, first⟩ meets execution
    exact kept.2
  · intro within
    have exact_ : (machine scheduler (scheduler.runDeadline context)).Meets
        (Timely plan (scheduler.runDeadline context)) (start plan status) es ↔
          ¬ ¬ TimeoutJustified plan s := by
      refine Machine.meets_iff (P := Standing plan) (B := fun u => ¬ TimeoutJustified plan u)
        (fun u event v live _ taken => standing_step live taken) ?_
        (fun u event v live calm _ taken => ⟨?_, ?_⟩) begun (fun bad => bad first) within
        execution
      · intro u event v live calm taken bad
        refine absurd (timeoutJustified_iff.mpr ?_) bad
        rintro ⟨_, _, _, ended⟩
        obtain control | control := step_live taken <;> rw [control] at ended <;> cases ended
      · exact fun bad timely => bad (timeoutJustified_step live calm.patient timely taken)
      · exact fun untimely => not_timeoutJustified_step live calm untimely taken
    exact exact_.trans Classical.not_not

instance {event : Event α} : Decidable (Timely plan deadline s event) :=
  match event with
  | .pass pass => inferInstanceAs (Decidable (
      s.running = [] → s.pending ≠ [] → passed deadline pass.now = true →
      (∀ task ∈ s.pending, ∃ dep ∈ task.dependsOn, (s.unsuccessful dep).isSome = true ∨
        (s.pending.map Task.id).idxOf dep < (s.pending.map Task.id).idxOf task.id) →
      ∃ task ∈ plan.tasks, task ∉ s.pending ∧
        (s.status task.id = .timeout ∨ s.status task.id = .cancelled)))
  | .wake _ => inferInstanceAs (Decidable True)

/-- The run has two units of time. -/
def limited : TaskScheduler := { unbounded with deadline := some 2 }

/-- The draft is still running when its deadline, which is that of the run, has come. -/
def draftExpires : List (Event Nat) :=
  [.pass (.at 0), .wake { done := [], now := 2, onEvent := none }, .pass (.at 2)]

theorem timeouts_justified_draftExpires :
    ∃ s : RunState Nat, Reaches limited none id draftAndReview (fun _ => .pending) draftExpires s ∧
      execute s = some (.error (.runTimeout "run deadline exceeded")) ∧
      TimeoutJustified draftAndReview s := by
  have ends : ((machine limited (limited.runDeadline none)).run
      (start draftAndReview fun _ => .pending) draftExpires).any (fun s =>
        match s.control with
        | .raised (.runTimeout text) _ => decide (text = "run deadline exceeded")
        | _ => false) = true := by
    decide
  obtain ⟨s, execution, ended⟩ := (Option.any_eq_true _ _).mp ends
  have reached : Reaches limited none id draftAndReview (fun _ => .pending) draftExpires s :=
    ⟨by decide, execution⟩
  refine ⟨s, reached, ?_, (timeouts_justified reached).1 (Machine.meets_and_iff.mpr ⟨?_, ?_⟩)⟩
  · split at ended
    · rename_i text last control
      unfold execute
      rw [control, of_decide_eq_true ended]
    · cases ended
  · refine Machine.meets_of_mem ?_ _
    intro event member _
    simp only [draftExpires, List.mem_cons, List.not_mem_nil, or_false] at member
    obtain rfl | rfl | rfl := member <;> exact (calm_of_silent rfl).patient
  · decide

/-- The draft fails in time, and the review is skipped behind it at the deadline: nothing was cut
off, and the run is reported as timed out. -/
theorem draftFails_timesOut :
    ∃ s : RunState Nat, Reaches limited none id draftAndReview (fun _ => .pending) draftFails s ∧
      (machine limited (limited.runDeadline none)).Meets
        (fun _ event => OwnResults event ∧ Calm event) (start draftAndReview fun _ => .pending)
        draftFails ∧
      s.status "draft" = .failed ∧ s.status "review" = .skipped ∧
      ¬ TimeoutJustified draftAndReview s := by
  have ends : ((machine limited (limited.runDeadline none)).run
      (start draftAndReview fun _ => .pending) draftFails).any (fun s =>
        (match s.control with
        | .raised (.runTimeout _) _ => true
        | _ => false) && decide (s.status "draft" = .failed) &&
          decide (s.status "review" = .skipped)) = true := by
    decide
  obtain ⟨s, execution, ended⟩ := (Option.any_eq_true _ _).mp ends
  obtain ⟨ended, review⟩ := Bool.and_eq_true_iff.mp ended
  obtain ⟨ended, draft⟩ := Bool.and_eq_true_iff.mp ended
  have draft := of_decide_eq_true draft
  have review := of_decide_eq_true review
  refine ⟨s, ⟨by decide, execution⟩, Machine.meets_of_mem ?_ _, draft, review, ?_⟩
  · intro event member _
    obtain ⟨own, calm, -⟩ := draftFails_ordinary event member
    exact ⟨own, calm⟩
  · rw [timeoutJustified_iff]
    intro cut
    split at ended
    · rename_i text last control
      obtain ⟨task, member, bad⟩ := cut ⟨_, last, ⟨text, rfl⟩, control⟩
      obtain rfl | rfl : task = _ ∨ task = _ := by simpa [draftAndReview] using member
      · rw [draft] at bad
        simp at bad
      · rw [review] at bad
        simp at bad
    · cases ended

end MultiAgent.Plugin.TaskScheduler
