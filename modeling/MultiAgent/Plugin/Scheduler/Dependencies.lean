import MultiAgent.Plugin.Scheduler.Submissions

/-!
# Dependencies and events

`Ledger` follows a run in which `run_task` only names its own task and never
returns a skip: every task is in one of the three places, what runs and what ended
otherwise than by a skip had its dependencies in success, a skip has a dependency
without it, and the callback has heard of the results in the order in which they
were recorded. Results are never replaced, so all this stays true to the end.
-/

namespace MultiAgent.Plugin.TaskScheduler

variable {α : Type} {scheduler : TaskScheduler} {deadline context : Option ℚ}
  {iter : List String → List String} {plan : TaskPlan} {status : String → TaskStatus}
  {s t : RunState α} {onEvent : OnEvent α} {task : Task} {result : TaskResult α}
  {state : Running} {C T : Prop}

/-- The dependency has a result, and it is a success. -/
def Succeeded (results : Dict String (TaskResult α)) (dep : String) : Prop :=
  ∃ result, results.get? dep = some result ∧ result.status = .success

theorem isReady_iff : s.isReady task = true ↔ ∀ dep ∈ task.dependsOn, Succeeded s.results dep := by
  rw [RunState.isReady, List.all_eq_true]
  apply forall_congr'
  intro dep
  apply forall_congr'
  intro _
  unfold Succeeded
  cases s.results.get? dep with
  | none => simp
  | some result => simp

/-- Some dependency ended without success. -/
def Broken (s : RunState α) (task : Task) : Prop :=
  ∃ dep ∈ task.dependsOn, ∃ result, s.results.get? dep = some result ∧ result.status ≠ .success

theorem Broken.not_isReady (broken : Broken s task) : ¬ s.isReady task = true := by
  obtain ⟨dep, edge, result, found, bad⟩ := broken
  intro ready
  obtain ⟨other, same, success⟩ := isReady_iff.mp ready dep edge
  rw [found] at same
  cases same
  exact bad success

/-- A skip answers a broken dependency, every other result one that was ready. -/
def Verdict (s : RunState α) (task : Task) (status : TaskStatus) : Prop :=
  if status = .skipped then Broken s task else s.isReady task = true

theorem Verdict.of_ready {status : TaskStatus} (other : status ≠ .skipped)
    (ready : s.isReady task = true) : Verdict s task status := by
  unfold Verdict
  rwa [if_neg other]

/-- The ids in the three places. -/
def RunState.places (s : RunState α) : List String :=
  s.results.keys ++ s.pending.map Task.id ++ s.running.map fun state => state.task.id

/-- What the results say, under the assumptions `C`, that `run_task` returns
terminal results, and `T`, that there is a callback. -/
structure Answered (plan : TaskPlan) (C T : Prop) (s : RunState α) : Prop where
  verdict : ∀ task ∈ plan.tasks, ∀ result, s.results.get? task.id = some result →
    Verdict s task result.status
  named : Named s.results
  terminal : C → ∀ id result, s.results.get? id = some result → result.status.isTerminal = true
  told : T → s.events.map (fun event => (event.1.id, event.2)) = s.results.entries ∧
    ∀ event ∈ s.events, event.1 ∈ plan.tasks

structure Ledger (plan : TaskPlan) (C T : Prop) (s : RunState α) : Prop
    extends Answered plan C T s where
  pendingKnown : ∀ task ∈ s.pending, task ∈ plan.tasks
  runningKnown : ∀ state ∈ s.running, state.task ∈ plan.tasks
  places : s.places.Perm plan.ids
  ready : ∀ state ∈ s.running, s.isReady state.task = true

/-- What `_finish` may be given for a task. -/
structure Settles (C : Prop) (s : RunState α) (task : Task) (result : TaskResult α) : Prop where
  own : result.taskId = task.id
  verdict : Verdict s task result.status
  terminal : C → result.status.isTerminal = true

section Places

/-- Taking an element out by its key. -/
theorem perm_filter {β : Type} {l : List β} {key : β → String} {b : β}
    (distinct : (l.map key).Nodup) (member : b ∈ l) :
    (key b :: (l.filter fun other => decide (key other ≠ key b)).map key).Perm (l.map key) := by
  have same : (l.filter fun other => decide (key other ≠ key b)).map key =
      (l.map key).erase (key b) := by
    rw [distinct.erase_eq_filter, List.filter_map]
    refine congrArg (List.map key) (List.filter_congr ?_)
    intro other _
    by_cases equal : key other = key b <;> simp [equal]
  rw [same]
  exact (List.perm_cons_erase (List.mem_map_of_mem member)).symm

theorem Ledger.distinct (ledger : Ledger plan C T s) : s.places.Nodup :=
  ledger.places.symm.nodup plan.distinct

theorem Ledger.fresh (ledger : Ledger plan C T s) : Fresh s := by
  have distinct := ledger.distinct
  rw [RunState.places, List.append_assoc, List.nodup_append] at distinct
  obtain ⟨-, open_, apart⟩ := distinct
  refine ⟨open_.of_append_left, ?_⟩
  intro task member key
  exact apart _ key _ (List.mem_append_left _ (List.mem_map_of_mem member)) rfl

theorem Ledger.runningDistinct (ledger : Ledger plan C T s) :
    (s.running.map fun state => state.task.id).Nodup :=
  ledger.distinct.of_append_right

theorem Ledger.runningOpen (ledger : Ledger plan C T s) (member : state ∈ s.running) :
    state.task.id ∉ s.results.keys := by
  have distinct := ledger.distinct
  rw [RunState.places, List.append_assoc, List.nodup_append] at distinct
  intro key
  exact distinct.2.2 _ key _ (List.mem_append_right _ (List.mem_map.mpr ⟨state, member, rfl⟩)) rfl

theorem Ledger.apart (ledger : Ledger plan C T s) (here : task ∈ s.pending)
    (place : state ∈ s.running) : state.task.id ≠ task.id := by
  have distinct := ledger.distinct
  rw [RunState.places, List.nodup_append] at distinct
  intro same
  refine distinct.2.2 _ (List.mem_append_right _ (List.mem_map_of_mem here)) _ ?_ same.symm
  exact List.mem_map.mpr ⟨state, place, rfl⟩

end Places

section Record

/-- A new result leaves those that are there. -/
theorem get?_record {id : String} {kept : TaskResult α} (onEvent : OnEvent α)
    (own : result.taskId = task.id) (fresh : task.id ∉ s.results.keys)
    (found : s.results.get? id = some kept) :
    (s.record onEvent task result).results.get? id = some kept := by
  change (s.results.set result.taskId result).get? id = _
  rw [Dict.get?_set_of_ne, found]
  rintro rfl
  exact fresh (own ▸ Dict.mem_keys_iff.mpr ⟨kept, found⟩)

theorem isReady_mono {other : Task} (onEvent : OnEvent α) (own : result.taskId = task.id)
    (fresh : task.id ∉ s.results.keys) (ready : s.isReady other = true) :
    (s.record onEvent task result).isReady other = true := by
  apply isReady_iff.mpr
  intro dep edge
  obtain ⟨kept, found, success⟩ := isReady_iff.mp ready dep edge
  exact ⟨kept, get?_record onEvent own fresh found, success⟩

theorem Verdict.mono {other : Task} {status : TaskStatus} (onEvent : OnEvent α)
    (own : result.taskId = task.id) (fresh : task.id ∉ s.results.keys)
    (verdict : Verdict s other status) :
    Verdict (s.record onEvent task result) other status := by
  unfold Verdict at verdict ⊢
  split at verdict
  · rename_i skipped
    obtain ⟨dep, edge, kept, found, bad⟩ := verdict
    rw [if_pos skipped]
    exact ⟨dep, edge, kept, get?_record onEvent own fresh found, bad⟩
  · rename_i other
    rw [if_neg other]
    exact isReady_mono onEvent own fresh verdict

theorem Answered.record (answered : Answered plan C T s) (callback : T → onEvent.isSome = true)
    (known : task ∈ plan.tasks) (fresh : task.id ∉ s.results.keys)
    (settles : Settles C s task result) : Answered plan C T (s.record onEvent task result) := by
  have lookup : ∀ {id kept}, (s.record onEvent task result).results.get? id = some kept →
      id = task.id ∧ kept = result ∨ s.results.get? id = some kept := by
    intro id kept found
    change (s.results.set result.taskId result).get? id = _ at found
    rw [Dict.get?_set, settles.own] at found
    split at found
    · exact .inl ⟨‹_›, (Option.some.inj found).symm⟩
    · exact .inr found
  constructor
  · intro other member kept found
    obtain ⟨same, rfl⟩ | before := lookup found
    · rw [TaskPlan.eq_of_id_eq member known same]
      exact settles.verdict.mono onEvent settles.own fresh
    · exact (answered.verdict other member kept before).mono onEvent settles.own fresh
  · exact answered.named.set
  · intro c id kept found
    obtain ⟨-, rfl⟩ | before := lookup found
    · exact settles.terminal c
    · exact answered.terminal c id kept before
  · intro h
    obtain ⟨heard, known'⟩ := answered.told h
    simp only [RunState.record, callback h, if_true, List.map_append, List.map_cons, List.map_nil,
      heard, settles.own]
    rw [Dict.entries_set_of_notMem fresh]
    exact ⟨rfl, List.forall_mem_append.mpr ⟨known', by simpa using known⟩⟩

theorem Answered.restate (answered : Answered plan C T s) (results : t.results = s.results)
    (events : t.events = s.events) : Answered plan C T t := by
  have ready : t.isReady = s.isReady := by
    unfold RunState.isReady
    rw [results]
  obtain ⟨verdict, named, terminal, told⟩ := answered
  simp only [Verdict, Broken, ← ready] at verdict
  rw [← results] at verdict named terminal told
  rw [← events] at told
  exact ⟨verdict, named, terminal, told⟩

/-- A pending task gets its result and leaves `pending`. -/
theorem Ledger.settle (ledger : Ledger plan C T s) (callback : T → onEvent.isSome = true)
    (member : task ∈ s.pending) (settles : Settles C s task result) :
    Ledger plan C T ((s.record onEvent task result).dropPending task) := by
  have fresh := ledger.fresh.unkeyed task member
  have answered := ledger.record callback (ledger.pendingKnown task member) fresh settles
  refine ⟨answered.restate rfl rfl,
    fun other here => ledger.pendingKnown other (List.mem_filter.mp here).1, ledger.runningKnown,
    ?_, fun state here => isReady_mono onEvent settles.own fresh (ledger.ready state here)⟩
  have moved := perm_filter ledger.fresh.distinct member
  refine .trans ?_ ledger.places
  change (((s.results.set result.taskId result).keys ++ _) ++ _).Perm _
  rw [settles.own, Dict.keys_set_of_notMem fresh, List.append_assoc s.results.keys]
  exact (moved.append_left _).append_right _

/-- A running task leaves `running` and gets its result, in either order. -/
theorem Ledger.complete (ledger : Ledger plan C T s) (callback : T → onEvent.isSome = true)
    (member : state ∈ s.running) (settles : Settles C s state.task result) :
    Ledger plan C T ((s.record onEvent state.task result).dropRunning state.task.id) := by
  have fresh := ledger.runningOpen member
  have answered := ledger.record callback (ledger.runningKnown state member) fresh settles
  refine ⟨answered.restate rfl rfl, ledger.pendingKnown,
    fun other here => ledger.runningKnown other (List.mem_filter.mp here).1, ?_,
    fun other here => isReady_mono onEvent settles.own fresh
      (ledger.ready other (List.mem_filter.mp here).1)⟩
  have moved := perm_filter ledger.runningDistinct member
  refine .trans ?_ ledger.places
  change (((s.results.set result.taskId result).keys ++ _) ++ _).Perm _
  rw [settles.own, Dict.keys_set_of_notMem fresh, RunState.places, List.append_assoc,
    List.append_assoc, List.append_assoc]
  refine List.Perm.append_left _ ?_
  exact (@List.perm_middle _ _ (s.pending.map Task.id) _).symm.trans (moved.append_left _)

/-- A pending task whose dependencies ended in success moves to `running`. -/
theorem Ledger.launch (ledger : Ledger plan C T s) (state : Running)
    (member : state.task ∈ s.pending) (ready : s.isReady state.task = true) :
    Ledger plan C T { s.dropPending state.task with running := s.running ++ [state] } := by
  refine ⟨ledger.toAnswered.restate rfl rfl,
    fun other here => ledger.pendingKnown other (List.mem_filter.mp here).1,
    List.forall_mem_append.mpr ⟨ledger.runningKnown, ?_⟩, ?_,
    List.forall_mem_append.mpr ⟨ledger.ready, List.forall_mem_singleton.mpr ready⟩⟩
  · exact List.forall_mem_singleton.mpr (ledger.pendingKnown _ member)
  · have moved := perm_filter ledger.fresh.distinct member
    refine .trans ?_ ledger.places
    change ((s.results.keys ++ _) ++ (s.running ++ [state]).map _).Perm _
    rw [List.map_append, RunState.places, List.append_assoc, List.append_assoc]
    refine List.Perm.append_left _ ?_
    refine .trans ?_ (moved.append_right _)
    exact (List.perm_append_comm.append_left _).trans List.perm_middle

/-- The bookkeeping reads neither the attribute `status` nor the control. -/
theorem Ledger.restate (ledger : Ledger plan C T s) (pending : t.pending = s.pending)
    (running : t.running = s.running) (results : t.results = s.results)
    (events : t.events = s.events) : Ledger plan C T t := by
  have ready : t.isReady = s.isReady := by
    unfold RunState.isReady
    rw [results]
  refine ⟨ledger.toAnswered.restate results events, ?_, ?_, ?_, ?_⟩
  · rw [pending]
    exact ledger.pendingKnown
  · rw [running]
    exact ledger.runningKnown
  · rw [RunState.places, results, pending, running]
    exact ledger.places
  · rw [running, ready]
    exact ledger.ready

end Record

section Operations

variable {now : ℚ} {submit : Task → Submission} {rest : List Task}

/-- The ledger of a loop over pending tasks. -/
structure Entered (plan : TaskPlan) (C T : Prop) (rest : List Task) (s : RunState α) : Prop where
  ledger : Ledger plan C T s
  queued : Queued rest s

theorem Ledger.entered (ledger : Ledger plan C T s) : Entered plan C T s.pending s :=
  ⟨ledger, fun _ h => h, ledger.fresh.distinct⟩

theorem settle_ledger {P : RunState α → Prop} (callback : T → onEvent.isSome = true)
    (closes : Closes task result)
    (verdict : ∀ s, P s → Entered plan C T (task :: rest) s ∧ Verdict s task result.status) :
    Triple P (do finish onEvent task result; modify fun s => s.dropPending task)
      (fun _ => Entered plan C T rest) fun _ _ => True := by
  refine settle_spec ?_ fun _ _ _ _ => trivial
  intro s before
  obtain ⟨⟨ledger, queued⟩, verdict⟩ := verdict s before
  exact ⟨ledger.settle callback (queued.waiting task List.mem_cons_self)
    ⟨closes.own, verdict, fun _ => closes.terminal⟩, queued.drop rfl⟩

theorem skipTask_ledger (callback : T → onEvent.isSome = true) :
    Triple (Entered plan C T (task :: rest)) (skipTask onEvent task)
      (fun _ => Entered plan C T rest) fun _ (_ : RunState α) => True := by
  apply Triple.get
  intro t before
  split
  · refine Triple.pure ?_
    rintro _ rfl
    exact ⟨before.ledger, before.queued.tail⟩
  · rename_i dep depResult hit
    obtain ⟨_, edge, found⟩ := List.exists_of_findSome?_eq_some hit
    obtain ⟨bad, here, same⟩ := Option.map_eq_some_iff.mp found
    obtain ⟨kept, failed⟩ := Option.filter_eq_some_iff.mp here
    have broken : Broken t task := by
      refine ⟨_, edge, bad, kept, ?_⟩
      intro success
      rw [success] at failed
      cases failed
    refine settle_ledger callback ⟨rfl, rfl⟩ ?_
    rintro _ rfl
    exact ⟨before, broken⟩

theorem skipBlocked_ledger (callback : T → onEvent.isSome = true) :
    Triple (Ledger plan C T) (skipBlocked onEvent) (fun _ => Ledger plan C T)
      fun _ (_ : RunState α) => True := by
  apply Triple.get
  intro s ledger
  have loop : Triple (Entered plan C T s.pending) (forM s.pending (skipTask onEvent))
      (fun _ => Entered plan C T []) fun _ (_ : RunState α) => True :=
    Triple.forM s.pending fun task rest => skipTask_ledger callback
  exact (loop.imp_post fun _ _ post => post.ledger).of_entry ledger.entered

theorem launchTask_ledger (callback : T → onEvent.isSome = true) :
    Triple (fun s => Entered plan C T (task :: rest) s ∧ s.isReady task = true)
      (launchTask scheduler deadline now submit onEvent task)
      (fun _ => Entered plan C T rest) fun _ (_ : RunState α) => True := by
  refine Triple.bind (R := fun _ s => Entered plan C T (task :: rest) s ∧ s.isReady task = true)
    (Triple.assign ?_) fun _ => ?_
  · intro s before
    exact ⟨⟨before.1.ledger.restate rfl rfl rfl rfl, before.1.queued.waiting,
      before.1.queued.distinct⟩, before.2⟩
  · cases submit task with
    | accepted started =>
        apply Triple.assign
        intro s before
        obtain ⟨⟨ledger, queued⟩, ready⟩ := before
        exact ⟨ledger.launch ⟨task, _, _⟩ (queued.waiting task List.mem_cons_self) ready,
          queued.drop rfl⟩
    | saturated =>
        apply settle_ledger callback ⟨rfl, rfl⟩
        intro s before
        exact ⟨before.1, .of_ready (by simp) before.2⟩
    | failed text => exact Triple.throw fun _ _ => trivial

theorem launchLoop_ledger (callback : T → onEvent.isSome = true) (rest : List Task) :
    Triple (Entered plan C T rest) (launchLoop scheduler deadline now submit onEvent rest)
      (fun _ => Ledger plan C T) fun _ (_ : RunState α) => True := by
  induction rest with
  | nil => exact Triple.pure fun _ before => before.ledger
  | cons task rest ih =>
      refine Triple.get fun s before =>
        Triple.ite (fun _ => Triple.pure ?_) fun _ => Triple.ite ?_ fun _ => ?_
      · rintro _ rfl
        exact before.ledger
      · intro ready
        exact Triple.bind ((launchTask_ledger callback).of_entry ⟨before, ready⟩) fun _ => ih
      · exact ih.of_entry ⟨before.ledger, before.queued.tail⟩

theorem launchReady_ledger (callback : T → onEvent.isSome = true) :
    Triple (Ledger plan C T) (launchReady scheduler deadline now submit onEvent)
      (fun _ => Ledger plan C T) fun _ (_ : RunState α) => True :=
  Triple.ite (fun _ => Triple.throw fun _ _ => trivial) fun _ =>
    Triple.get fun s ledger => (launchLoop_ledger callback s.pending).of_entry ledger.entered

/-- Only a result that `run_task` returns needs to be told to name its task and
not to be a skip. -/
def Done.Names (C : Prop) (done : Done α) : Prop :=
  ∀ result, done.completion = .returned (.result result) →
    result.taskId = done.taskId ∧ result.status ≠ .skipped ∧
      (C → result.status.isTerminal = true)

theorem settles_collected {done : Done α} {elapsed : ℚ} (names : done.Names C)
    (same : task.id = done.taskId) (ready : s.isReady task = true) :
    Settles C s task (collected task elapsed done.completion) := by
  have plain : ∀ result : TaskResult α, Closes task result → result.status ≠ .skipped →
      Settles C s task result := fun result closes other =>
    ⟨closes.own, .of_ready other ready, fun _ => closes.terminal⟩
  cases outcome : done.completion with
  | returned output =>
      cases output with
      | result result =>
          obtain ⟨named, other, terminal⟩ := names result outcome
          exact ⟨named.trans same.symm, .of_ready other ready, terminal⟩
      | error text isText =>
          simp only [collected, resultFromOutput]
          split
          · exact plain _ ⟨rfl, rfl⟩ (by simp)
          · exact plain _ ⟨rfl, rfl⟩ (by simp)
      | value output => exact plain _ ⟨rfl, rfl⟩ (by simp [collected, resultFromOutput])
  | raised exception =>
      cases exception <;> exact plain _ ⟨rfl, rfl⟩ (by simp [collected])

theorem collect_ledger {done : Done α} {rest : List (Done α)} (callback : T → onEvent.isSome = true)
    (names : done.Names C) :
    Triple (fun s => Ledger plan C T s ∧ Awaited (done :: rest) s) (collect onEvent done)
      (fun _ s => Ledger plan C T s ∧ Awaited rest s) fun _ _ => True := by
  rintro s ⟨ledger, awaited⟩
  obtain ⟨holder, member, same⟩ := awaited.held done List.mem_cons_self
  obtain ⟨state, found, here, named⟩ :=
    Lookup.exists_find? (fun state : Running => state.task.id) member same
  rw [collect_eq found]
  cases outcome : escaping done.completion with
  | some e => trivial
  | none =>
      refine finish_spec (P := fun t => t = s.dropRunning done.taskId) ?_
        (fun _ _ _ _ => trivial) _ rfl
      rintro _ rfl
      refine ⟨?_, awaited.drop rfl⟩
      rw [← named]
      exact (ledger.complete callback here
        (settles_collected names named (ledger.ready state here))).restate rfl rfl rfl rfl

theorem collectAll_ledger (callback : T → onEvent.isSome = true) (l : List (Done α))
    (names : ∀ done ∈ l, done.Names C) :
    Triple (fun s => Ledger plan C T s ∧ Awaited l s) (forM l (collect onEvent))
      (fun _ => Ledger plan C T) fun _ _ => True := by
  induction l with
  | nil => exact Triple.pure fun _ before => before.1
  | cons done rest ih =>
      obtain ⟨here, later⟩ := List.forall_mem_cons.mp names
      exact Triple.bind (collect_ledger callback here) fun _ => ih later

theorem expireTask_ledger {now : ℚ} {rest : List Running} (callback : T → onEvent.isSome = true)
    (fresh : ∀ other ∈ rest, other.task.id ≠ state.task.id) :
    Triple (fun s => Ledger plan C T s ∧ ∀ other ∈ state :: rest, other ∈ s.running)
      (expireTask onEvent now state)
      (fun _ s => Ledger plan C T s ∧ ∀ other ∈ rest, other ∈ s.running)
      fun _ (_ : RunState α) => True := by
  refine Triple.ite (fun _ => ?_) fun _ => Triple.pure ?_
  · apply Triple.entry
    rintro s ⟨ledger, held⟩
    refine Triple.bind (finish_spec (Q := fun _ t => t = s.record onEvent state.task _)
      (by rintro _ rfl; rfl) fun _ _ _ _ => trivial) fun _ => Triple.assign ?_
    rintro _ rfl
    have member := held state List.mem_cons_self
    refine ⟨ledger.complete callback member ⟨rfl, ledger.ready state member, fun _ => rfl⟩, ?_⟩
    intro other h
    exact mem_dropRunning.mpr ⟨held other (List.mem_cons_of_mem _ h), fresh other h⟩
  · intro s before
    exact ⟨before.1, fun other h => before.2 other (List.mem_cons_of_mem _ h)⟩

theorem expire_ledger {now : ℚ} (callback : T → onEvent.isSome = true) :
    Triple (Ledger plan C T) (expire onEvent now) (fun _ => Ledger plan C T)
      fun _ (_ : RunState α) => True := by
  have loop : ∀ l : List Running, (l.map fun state => state.task.id).Nodup →
      Triple (fun s => Ledger plan C T s ∧ ∀ state ∈ l, state ∈ s.running)
        (forM l (expireTask onEvent now)) (fun _ => Ledger plan C T)
        fun _ (_ : RunState α) => True := by
    intro l distinct
    induction l with
    | nil => exact Triple.pure fun _ before => before.1
    | cons state rest ih =>
        obtain ⟨fresh, distinct⟩ := List.nodup_cons.mp distinct
        refine Triple.bind (expireTask_ledger callback fun other h same => fresh ?_)
          fun _ => ih distinct
        exact List.mem_map.mpr ⟨other, h, same⟩
  exact Triple.get fun s ledger => (loop s.running ledger.runningDistinct).of_entry
    ⟨ledger, fun _ h => h⟩

end Operations

/-- What the ledger says between the steps of a run. -/
def Booked (plan : TaskPlan) (C T : Prop) (s : RunState α) : Prop :=
  match s.control with
  | .looping | .waiting => Ledger plan C T s
  | .returned results => results = s.results ∧ Ledger plan C T s ∧ s.pending = [] ∧ s.running = []
  | .raised _ _ => True

section Steps

variable {event : Event α}

theorem Ledger.booked (ledger : Ledger plan C T s) (control : s.control = .looping) :
    Booked plan C T s := by
  unfold Booked
  rwa [control]

theorem Booked.ledger (booked : Booked plan C T s)
    (live : s.control = .looping ∨ s.control = .waiting) : Ledger plan C T s := by
  unfold Booked at booked
  obtain control | control := live <;> rwa [control] at booked

theorem conclude_booked {after : ℚ} :
    Triple (fun s => Ledger plan C T s ∧ s.pending = [] ∧ s.running = [])
      (conclude deadline after) (fun _ => Booked plan C T) fun _ (_ : RunState α) => True := by
  refine Triple.get fun s ⟨ledger, pending, running⟩ =>
    Triple.ite (fun _ => Triple.throw fun _ _ => trivial) fun _ => Triple.assign fun _ _ => ?_
  exact ⟨rfl, ledger.restate rfl rfl rfl rfl, pending, running⟩

theorem passBody_booked {pass : Pass α} (callback : T → pass.onEvent.isSome = true) :
    Triple (Ledger plan C T) (passBody scheduler deadline pass) (fun _ => Booked plan C T)
      fun _ _ => True := by
  refine Triple.get fun s ledger => Triple.ite ?_ fun _ => ?_
  · intro drained
    exact conclude_booked.of_entry (by simpa [ledger] using drained)
  · apply Triple.bind ((skipBlocked_ledger callback).of_entry ledger)
    intro _
    apply Triple.bind (launchReady_ledger callback)
    intro _
    apply Triple.get
    intro s ledger
    refine Triple.ite (fun idle => Triple.ite ?_ fun _ => Triple.throw ?_) fun _ => ?_
    · intro drained
      exact conclude_booked.of_entry
        ⟨ledger, List.isEmpty_iff.mp drained, List.isEmpty_iff.mp idle⟩
    · exact fun _ _ => trivial
    · exact Triple.assign fun _ _ => ledger.restate rfl rfl rfl rfl

theorem wakeBody_booked {wake : Wake α} (callback : T → wake.onEvent.isSome = true)
    (names : ∀ done ∈ wake.done, done.Names C) :
    Triple (fun s => Ledger plan C T s ∧ Awaited wake.done s) (wakeBody wake)
      (fun _ => Booked plan C T) fun _ _ => True := by
  have resumed : Triple (Ledger plan C T)
      (modify fun s => { s with control := .looping } : Program α Unit)
      (fun _ => Booked plan C T) fun _ _ => True :=
    Triple.assign fun _ ledger => Ledger.booked (ledger.restate rfl rfl rfl rfl) rfl
  apply Triple.bind (collectAll_ledger callback wake.done names)
  intro _
  exact Triple.ite (fun _ => Triple.bind (expire_ledger callback) fun _ => resumed)
    fun _ => resumed

/-- What is assumed of an event: `run_task` names its own task and returns no skip,
and with `T` there is a callback. -/
structure Fair (C T : Prop) (event : Event α) : Prop where
  names : ∀ wake, event = .wake wake → ∀ done ∈ wake.done, done.Names C
  callback : T → event.onEvent.isSome = true

theorem booked_step (fair : Fair C T event) (booked : Booked plan C T s)
    (taken : step scheduler deadline s event = some t) : Booked plan C T t := by
  have ledger := booked.ledger (step_live taken)
  cases event with
  | pass pass =>
      obtain ⟨-, rfl⟩ := step_pass taken
      exact guarded_spec (passBody_booked fair.callback)
        (fun _ => abort_raises.conseq (fun _ _ => trivial) (fun _ _ _ => trivial)
          fun _ _ _ => trivial) ledger
  | wake wake =>
      obtain ⟨-, ok, rfl⟩ := step_wake taken
      exact guarded_spec (wakeBody_booked fair.callback (fair.names wake rfl))
        (fun _ => abort_raises.conseq (fun _ _ => trivial) (fun _ _ _ => trivial)
          fun _ _ _ => trivial) ⟨ledger, awaited_of_possible ok⟩

end Steps

section Calls

variable {event : Event α} {calls : List (Attempt α)} {call : Attempt α}

/-- The dependency has ended in success, and is in no other place. -/
structure EndedInSuccess (s : RunState α) (dep : String) : Prop where
  result : ∃ result, s.results.get? dep = some result ∧ result.taskId = dep ∧
    result.status = .success
  notPending : ∀ task ∈ s.pending, task.id ≠ dep
  notRunning : ∀ state ∈ s.running, state.task.id ≠ dep

/-- A call for a pending task, made when all its dependencies have ended in success. -/
structure Justified (call : Attempt α) : Prop where
  pending : call.task ∈ call.state.pending
  dependencies : ∀ dep ∈ call.task.dependsOn, EndedInSuccess call.state dep

theorem Ledger.justified (ledger : Ledger plan C T call.state)
    (pending : call.task ∈ call.state.pending)
    (ready : call.state.isReady call.task = true) : Justified call := by
  refine ⟨pending, ?_⟩
  intro dep edge
  obtain ⟨result, found, success⟩ := isReady_iff.mp ready dep edge
  have key : dep ∈ call.state.results.keys := Dict.mem_keys_iff.mpr ⟨result, found⟩
  refine ⟨⟨result, found, ledger.named dep result found, success⟩, ?_, ?_⟩
  · intro task here same
    exact ledger.fresh.unkeyed task here (same ▸ key)
  · intro state here same
    exact ledger.runningOpen here (same ▸ key)

theorem Retraced.justified {now : ℚ} {submit : Task → Submission} {rest : List Task}
    (callback : T → onEvent.isSome = true)
    (loop : Retraced scheduler deadline now submit onEvent rest s calls)
    (entered : Entered plan C T rest s) : ∀ call ∈ calls, Justified call := by
  have here : ∀ {task rest s}, Entered plan C T (task :: rest) s → s.isReady task = true →
      Justified (⟨task, submit task, s⟩ : Attempt α) := fun entered ready =>
    Ledger.justified entered.ledger (entered.queued.waiting _ List.mem_cons_self) ready
  induction loop with
  | nil | full => simp
  | raised _ ready _ => exact List.forall_mem_singleton.mpr (here entered ready)
  | launched _ ready ends _ ih =>
      have kept := (launchTask_ledger callback).of_ok ⟨entered, ready⟩ ends
      exact List.forall_mem_cons.mpr ⟨here entered ready, ih kept⟩
  | blocked _ _ _ ih => exact ih ⟨entered.ledger, entered.queued.tail⟩

theorem attempts_justified (fair : Fair C T event) (ledger : Ledger plan C T s) :
    ∀ call ∈ attempts scheduler deadline s event, Justified call := by
  cases event with
  | wake wake => simp [attempts]
  | pass pass =>
      obtain none_ | ⟨-, t, ends, -, -, loop⟩ := passAttempts_cases scheduler deadline pass s
      · simp [attempts, none_]
      · have kept := (skipBlocked_ledger fair.callback).of_ok ledger ends
        exact loop.justified fair.callback kept.entered

/-- The ids of the accepted calls. -/
def launchedIds (calls : List (Attempt α)) : List String :=
  (calls.filter Attempt.isAccepted).map fun call => call.task.id

theorem launchedIds_append (calls more : List (Attempt α)) :
    launchedIds (calls ++ more) = launchedIds calls ++ launchedIds more := by
  simp [launchedIds]

theorem mem_launchedIds {id : String} : id ∈ launchedIds calls ↔
    ∃ call ∈ calls, call.isAccepted = true ∧ call.task.id = id := by
  simp [launchedIds, and_assoc]

/-- The ids that an event launches are among those of the pending tasks. -/
theorem launchedIds_sublist (scheduler : TaskScheduler) (deadline : Option ℚ) (s : RunState α)
    (event : Event α) :
    (launchedIds (attempts scheduler deadline s event)).Sublist (s.pending.map Task.id) := by
  cases event with
  | wake wake => exact List.nil_sublist _
  | pass pass =>
      have among := passAttempts_sublist scheduler deadline pass s
      have named : ∀ calls : List (Attempt α),
          (launchedIds calls).Sublist ((calls.map Attempt.task).map Task.id) := fun calls => by
        rw [List.map_map]
        exact List.filter_sublist.map _
      exact (named _).trans ((among.trans List.filter_sublist).map _)

/-- Behind `wait` nothing happens to the pending tasks. -/
theorem wakeBody_pending {wake : Wake α} {l : List Task} :
    Triple (fun s => s.pending = l) (wakeBody wake) (fun _ s => s.pending = l) fun _ _ => True := by
  have resumed : Triple (fun s : RunState α => s.pending = l)
      (modify fun s => { s with control := .looping } : Program α Unit)
      (fun _ s => s.pending = l) fun _ _ => True := Triple.assign fun _ h => h
  have collects : Triple (fun s => s.pending = l) (forM wake.done (collect wake.onEvent))
      (fun _ s => s.pending = l) fun _ _ => True := by
    apply Triple.forM (I := fun _ (s : RunState α) => s.pending = l) wake.done
    intro done rest s here
    cases found : s.running.find? (fun state => state.task.id = done.taskId) with
    | none =>
        rw [collect_of_absent found]
        exact here
    | some state =>
        rw [collect_eq found]
        cases escaping done.completion with
        | some e => trivial
        | none =>
            exact finish_spec (P := fun t : RunState α => t.pending = l) (fun _ h => h)
              (fun _ _ _ _ => trivial) _ here
  have expires : Triple (fun s : RunState α => s.pending = l) (expire wake.onEvent wake.now)
      (fun _ s => s.pending = l) fun _ _ => True := by
    apply Triple.get
    intro s here
    refine (Triple.forM (I := fun _ (s : RunState α) => s.pending = l) s.running ?_).of_entry here
    intro state rest
    refine Triple.ite (fun _ => ?_) fun _ => Triple.pure fun _ h => h
    exact Triple.bind (finish_spec (Q := fun _ s => s.pending = l) (fun _ h => h)
      fun _ _ _ _ => trivial) fun _ => Triple.assign fun _ h => h
  refine Triple.bind collects fun _ => Triple.ite (fun _ => ?_) fun _ => resumed
  exact Triple.bind expires fun _ => resumed

/-- A step takes nothing back to `pending`, and what it launches has left it. -/
theorem pending_step (fair : Fair C T event) (booked : Booked plan C T s)
    (taken : step scheduler deadline s event = some t)
    (live : t.control = .looping ∨ t.control = .waiting) :
    t.pending.Sublist s.pending ∧
      ∀ task ∈ t.pending, task.id ∉ launchedIds (attempts scheduler deadline s event) := by
  have ledger := booked.ledger (step_live taken)
  cases event with
  | pass pass =>
      obtain ⟨-, rfl⟩ := step_pass taken
      have returns := ok_of_guarded live
      have started := passBody_started.of_ok rfl returns
      have kept := ((passBody_booked fair.callback).of_ok ledger returns).ledger live
      refine ⟨started.pending, ?_⟩
      intro task here launched
      obtain ⟨call, member, accepts, same⟩ := mem_launchedIds.mp launched
      have running : call.task ∈ (guarded pass.onEvent (passBody scheduler deadline pass)
          s).running.map Running.task := by
        rw [started.running]
        exact List.mem_append_right _ (List.mem_map_of_mem (List.mem_filter.mpr ⟨member, accepts⟩))
      obtain ⟨state, place, holds⟩ := List.mem_map.mp running
      exact kept.apart here place (by rw [holds, same])
  | wake wake =>
      obtain ⟨-, -, rfl⟩ := step_wake taken
      have same := wakeBody_pending.of_ok rfl (ok_of_guarded live)
      exact ⟨by rw [same], by simp [attempts, launchedIds]⟩

/-- The calls so far: justified, and each accepted task only once. -/
structure Submitted (calls : List (Attempt α)) (s : RunState α) : Prop where
  justified : ∀ call ∈ calls, Justified call
  once : (launchedIds calls).Nodup
  left : s.control = .looping ∨ s.control = .waiting →
    ∀ task ∈ s.pending, task.id ∉ launchedIds calls

theorem submitted_step (fair : Fair C T event) (booked : Booked plan C T s)
    (submitted : Submitted calls s) (taken : step scheduler deadline s event = some t) :
    Submitted (calls ++ attempts scheduler deadline s event) t := by
  have ledger := booked.ledger (step_live taken)
  have left := submitted.left (step_live taken)
  have among := launchedIds_sublist scheduler deadline s event
  refine ⟨List.forall_mem_append.mpr ⟨submitted.justified, attempts_justified fair ledger⟩, ?_, ?_⟩
  · rw [launchedIds_append, List.nodup_append]
    refine ⟨submitted.once, ledger.fresh.distinct.sublist among, ?_⟩
    rintro id before _ now rfl
    obtain ⟨task, here, rfl⟩ := List.mem_map.mp (among.subset now)
    exact left task here before
  · intro live task here
    obtain ⟨sub, apart⟩ := pending_step fair booked taken live
    rw [launchedIds_append, List.mem_append, not_or]
    exact ⟨left task (sub.subset here), apart task here⟩

end Calls

section Run

variable {es : List (Event α)}

/-- The calls of `submit` of a run. -/
def submissions (scheduler : TaskScheduler) (context : Option ℚ) (plan : TaskPlan)
    (status : String → TaskStatus) (es : List (Event α)) : List (Attempt α) :=
  (machine scheduler (scheduler.runDeadline context)).log
    (attempts scheduler (scheduler.runDeadline context)) (start plan status) es

/-- `run_task` returns terminal results only. -/
def Terminal (event : Event α) : Prop :=
  ∀ wake, event = .wake wake → ∀ done ∈ wake.done, ∀ result,
    done.completion = .returned (.result result) → result.status.isTerminal = true

/-- A result that `run_task` returns names its own task and is no skip. -/
def NamesOwn (event : Event α) : Prop :=
  ∀ wake, event = .wake wake → ∀ done ∈ wake.done, ∀ result,
    done.completion = .returned (.result result) →
      result.taskId = done.taskId ∧ result.status ≠ .skipped

/-- The callback heard of the task once, with this result. -/
def ToldOnce (s : RunState α) (task : Task) (result : TaskResult α) : Prop :=
  s.events.filter (fun event => decide (event.1.id = task.id)) = [(task, result)]

theorem Ledger.start (plan : TaskPlan) (status : String → TaskStatus) :
    Ledger plan C T (start plan status : RunState α) := by
  constructor
  · constructor
    · intro task _ result found
      cases found
    · intro id result found
      cases found
    · intro _ id result found
      cases found
    · intro _
      refine ⟨rfl, ?_⟩
      intro event heard
      exact absurd heard List.not_mem_nil
  · exact fun _ h => h
  · intro state running
    exact absurd running List.not_mem_nil
  · have nowhere : (TaskScheduler.start plan status : RunState α).places =
        plan.tasks.map Task.id ++ [] := rfl
    rw [nowhere, List.append_nil]
    exact .refl _
  · intro state running
    exact absurd running List.not_mem_nil

theorem Ledger.toldOnce (ledger : Ledger plan C T s) (callback : T) (known : task ∈ plan.tasks)
    (found : s.results.get? task.id = some result) : ToldOnce s task result := by
  obtain ⟨heard, known'⟩ := ledger.told callback
  have once := Dict.filter_entries s.results.distinct (Dict.get?_eq_some_iff.mp found)
  rw [← heard, List.filter_map] at once
  obtain ⟨event, only, same⟩ := List.map_eq_singleton_iff.mp once
  obtain ⟨named, answer⟩ := Prod.mk.inj same
  have shown : s.events.filter (fun event => decide (event.1.id = task.id)) = [event] := only
  have member : event ∈ s.events :=
    (List.mem_filter.mp (shown ▸ List.mem_singleton_self event)).1
  have own : event = (task, result) :=
    Prod.ext (TaskPlan.eq_of_id_eq (known' event member) known named) answer
  rw [ToldOnce, shown, own]

/-- In a run of a validated plan whose `run_task` names its own task and returns no
skip, a task is submitted when all its dependencies have ended in success, and
accepted at most once. If the run loop returns, a task is skipped exactly when some
dependency has not succeeded, and a callback has heard of each task once, with the
result that the run returns for it. -/
theorem dependency_safety (reached : Reaches scheduler context iter plan status es s)
    (names : ∀ event ∈ es, NamesOwn event) :
    (∀ call ∈ submissions scheduler context plan status es, Justified call) ∧
    (launchedIds (submissions scheduler context plan status es)).Nodup ∧
    ∀ results, execute s = some (.ok results) → ∀ task ∈ plan.tasks, ∃ result,
      results.get? task.id = some result ∧
      (result.status = .skipped ↔ ∃ dep ∈ task.dependsOn, ¬ Succeeded results dep) ∧
      ((∀ event ∈ es, event.onEvent.isSome = true) → ToldOnce s task result) ∧
      ((∀ event ∈ es, Terminal event) → result.status.isTerminal = true) := by
  obtain ⟨-, execution⟩ := reached
  have fair : ∀ event ∈ es, Fair (∀ event ∈ es, Terminal event)
      (∀ event ∈ es, event.onEvent.isSome = true) event := fun event member =>
    ⟨fun wake same done here result returned =>
      have own := names event member wake same done here result returned
      ⟨own.1, own.2, fun terminal => terminal event member wake same done here result returned⟩,
      fun callback => callback event member⟩
  have ends := Machine.run_log_invariant (m := machine scheduler (scheduler.runDeadline context))
    (P := fun u calls => Booked plan _ _ u ∧ Submitted calls u)
    (fun u calls event v before ok taken =>
      ⟨booked_step ok before.1 taken, submitted_step ok before.1 before.2 taken⟩)
    (l := []) ⟨(Ledger.start plan status).booked rfl,
      ⟨by simp, List.nodup_nil, by simp [launchedIds]⟩⟩
    (Machine.meets_of_mem (fun event member _ => fair event member) _) execution
  obtain ⟨booked, submitted⟩ := ends
  refine ⟨submitted.justified, submitted.once, ?_⟩
  intro results returned task known
  have control : s.control = .returned results := by
    unfold execute at returned
    cases control : s.control <;> simp [control] at returned
    rw [returned]
  unfold Booked at booked
  rw [control] at booked
  obtain ⟨rfl, ledger, pending, running⟩ := booked
  obtain ⟨result, found⟩ : ∃ result, s.results.get? task.id = some result := by
    have key : task.id ∈ s.places := ledger.places.symm.subset (List.mem_map_of_mem known)
    simpa [RunState.places, pending, running, Dict.mem_keys_iff] using key
  refine ⟨result, found, ⟨?_, ?_⟩,
    fun callback => ledger.toldOnce callback known found,
    fun terminal => ledger.terminal terminal task.id result found⟩
  · intro skipped
    have broken := ledger.verdict task known result found
    rw [Verdict, if_pos skipped] at broken
    have blocked := broken.not_isReady
    rw [isReady_iff] at blocked
    simpa using blocked
  · intro failed
    obtain ⟨dep, edge, unsuccessful⟩ := failed
    by_contra other
    have ready := ledger.verdict task known result found
    rw [Verdict, if_neg other] at ready
    exact unsuccessful (isReady_iff.mp ready dep edge)

/-- A callback that only listens. -/
def listener : OnEvent Nat := some fun _ _ => none

def heardPass (now : ℚ) : Event Nat :=
  .pass { now, submit := fun _ => .accepted now, after := now, onEvent := listener }

/-- The draft fails, the review is skipped behind it, and a callback hears of both. -/
def draftFailsHeard : List (Event Nat) :=
  [heardPass 0,
   .wake { done := [⟨"draft", 1, .raised (.other "offline")⟩], now := 1, onEvent := listener },
   heardPass 2]

theorem dependency_safety_draftFailsHeard :
    ∃ (s : RunState Nat) (results : Dict String (TaskResult Nat)),
      Reaches unbounded none id draftAndReview (fun _ => .pending) draftFailsHeard s ∧
      execute s = some (.ok results) ∧ ∀ task ∈ draftAndReview.tasks, ∃ result,
        results.get? task.id = some result ∧
        (result.status = .skipped ↔ ∃ dep ∈ task.dependsOn, ¬ Succeeded results dep) ∧
        ToldOnce s task result := by
  have ends : ((machine unbounded (unbounded.runDeadline none)).run
      (start draftAndReview fun _ => .pending) draftFailsHeard).any (fun s =>
        ((execute s).bind Except.toOption).isSome) = true := by
    decide
  obtain ⟨s, execution, ended⟩ := (Option.any_eq_true _ _).mp ends
  obtain ⟨results, returned⟩ : ∃ results, execute s = some (.ok results) := by
    obtain ⟨results, found⟩ := Option.isSome_iff_exists.mp ended
    obtain ⟨ending, executed, ok⟩ := Option.bind_eq_some_iff.mp found
    cases ending with
    | error e => cases ok
    | ok results => exact ⟨results, executed⟩
  have reached : Reaches unbounded none id draftAndReview (fun _ => .pending) draftFailsHeard s :=
    ⟨by decide, execution⟩
  have names : ∀ event ∈ draftFailsHeard, NamesOwn event := by
    simp [draftFailsHeard, heardPass, NamesOwn]
  refine ⟨s, results, reached, returned, ?_⟩
  intro task known
  obtain ⟨result, found, verdict, told, -⟩ :=
    (dependency_safety reached names).2.2 results returned task known
  exact ⟨result, found, verdict, told (by
    simp [draftFailsHeard, heardPass, Event.onEvent, listener])⟩

end Run

end MultiAgent.Plugin.TaskScheduler
