import MultiAgent.Foundations.Erasure
import MultiAgent.Plugin.Cancellation
import MultiAgent.Plugin.Scheduler.Moves
import MultiAgent.Plugin.Scheduler.Submissions

/-!
# The tokens of a run

The scheduler with its cancellation tokens. The token of the run has the number 0, each task
gets a child of it in its `TaskContext`, and the entry of a running task holds it as well. A
worker is asked to stop when its task expires or the run aborts, and not otherwise; whatever
a run leaves behind has been asked (`workers_asked`).
-/

namespace MultiAgent.Plugin.TaskScheduler

variable {α : Type}

/-- A run and its tokens. -/
structure Tokened (α : Type) where
  run : RunState α
  tokens : Tokens
  made : 0 < tokens.all.length
  /-- The field `token` of the entries of `running`, kept when an entry goes. -/
  token : Dict String Nat

abbrev Tokening (α : Type) := EStateM PyException (Tokened α)

namespace Tokened

theorem known_run (t : Tokened α) : ∀ p ∈ some 0, p < t.tokens.all.length := by
  rintro _ ⟨⟩
  exact t.made

theorem known_none (tokens : Tokens) : ∀ p ∈ (none : Option Nat), p < tokens.all.length := by
  rintro _ ⟨⟩

theorem made_create (t : Tokened α) : 0 < (t.tokens.create (some 0) t.known_run).all.length := by
  rw [Tokens.create, List.length_append]
  exact Nat.add_pos_left t.made _

theorem made_cancel (t : Tokened α) (i : Nat) (reason : Option String) :
    0 < (t.tokens.cancel i reason).all.length := by
  rw [Tokens.cancel, List.length_modify]
  exact t.made

/-- `CancellationToken(parent=run_token)` -/
def create (t : Tokened α) : Tokened α :=
  { t with tokens := t.tokens.create (some 0) t.known_run, made := t.made_create }

def cancel (t : Tokened α) (i : Nat) (reason : String) : Tokened α :=
  { t with tokens := t.tokens.cancel i (some reason), made := t.made_cancel i (some reason) }

/-- `state.token.cancel(reason)` for the entry of a task. -/
def cancelTask (t : Tokened α) (id : String) (reason : String) : Tokened α :=
  match t.token.get? id with
  | some i => t.cancel i reason
  | none => t

/-- `running[future] = _Running(task, task_deadline, token)` -/
def enter (t : Tokened α) (answer : Submission) (id : String) (i : Nat) : Tokened α :=
  if answer.isAccepted then { t with token := t.token.set id i } else t

/-- What the scheduler does without its tokens. -/
def within (x : Program α Unit) : Tokening α Unit :=
  zoom Tokened.run (fun s t => { t with run := s }) x

def skipBlocked (onEvent : OnEvent α) : Tokening α Unit :=
  within (TaskScheduler.skipBlocked onEvent)

def launchTask (scheduler : TaskScheduler) (deadline : Option ℚ) (now : ℚ)
    (submit : Task → Submission) (onEvent : OnEvent α) (task : Task) : Tokening α Unit := do
  let t ← get
  modify create
  within (TaskScheduler.launchTask scheduler deadline now submit onEvent task)
  modify (enter · (submit task) task.id t.tokens.all.length)

def launchLoop (scheduler : TaskScheduler) (deadline : Option ℚ) (now : ℚ)
    (submit : Task → Submission) (onEvent : OnEvent α) : List Task → Tokening α Unit
  | [] => pure ()
  | task :: rest => do
    let t ← get
    if scheduler.atCapacity t.run then pure ()
    else if t.run.isReady task then do
      launchTask scheduler deadline now submit onEvent task
      launchLoop scheduler deadline now submit onEvent rest
    else launchLoop scheduler deadline now submit onEvent rest

def launchReady (scheduler : TaskScheduler) (deadline : Option ℚ) (now : ℚ)
    (submit : Task → Submission) (onEvent : OnEvent α) : Tokening α Unit := do
  if passed deadline now then do
    modify (cancel · 0 "run deadline exceeded")
    throw (.runTimeout "run deadline exceeded")
  else
    let t ← get
    launchLoop scheduler deadline now submit onEvent t.run.pending

def expireTask (onEvent : OnEvent α) (now : ℚ) (state : Running) : Tokening α Unit :=
  if passed state.deadline now then do
    modify (cancelTask · state.task.id "task deadline exceeded")
    within (TaskScheduler.expireTask onEvent now state)
  else pure ()

def expire (onEvent : OnEvent α) (now : ℚ) : Tokening α Unit := do
  let t ← get
  forM t.run.running (expireTask onEvent now)

def collect (onEvent : OnEvent α) (done : Done α) : Tokening α Unit :=
  within (TaskScheduler.collect onEvent done)

/-- The check behind the loop. -/
def conclude (deadline : Option ℚ) (after : ℚ) : Tokening α Unit := do
  let t ← get
  if passed deadline after &&
      t.run.results.values.any fun result => decide (result.status = .timeout) then do
    modify (cancel · 0 "run deadline exceeded")
    throw (.runTimeout "run deadline exceeded")
  else modify fun u => { u with run := { t.run with control := .returned t.run.results } }

def passBody (scheduler : TaskScheduler) (deadline : Option ℚ) (pass : Pass α) :
    Tokening α Unit := do
  let t ← get
  if t.run.pending.isEmpty && t.run.running.isEmpty then conclude deadline pass.after
  else
    skipBlocked pass.onEvent
    launchReady scheduler deadline pass.now pass.submit pass.onEvent
    let t ← get
    if t.run.running.isEmpty then
      if t.run.pending.isEmpty then conclude deadline pass.after else throw .deadlock
    else modify fun u => { u with run := { t.run with control := .waiting } }

def wakeBody (wake : Wake α) : Tokening α Unit := do
  forM wake.done (collect wake.onEvent)
  if wake.done.isEmpty then expire wake.onEvent wake.now else pure ()
  modify fun t => { t with run := { t.run with control := .looping } }

def abort (onEvent : OnEvent α) : Tokening α Unit := do
  modify (cancel · 0 "run aborted")
  within (TaskScheduler.abort onEvent)

def raise (t : Tokened α) (exception : PyException) (last : Dict String (TaskResult α)) :
    Tokened α :=
  { t with run := { t.run with control := .raised exception last } }

def guarded (onEvent : OnEvent α) (body : Tokening α Unit) (t : Tokened α) : Tokened α :=
  match body t with
  | .ok _ u => u
  | .error exception u =>
    match abort onEvent u with
    | .ok _ v => v.raise exception v.run.results
    | .error exception' v => v.raise exception' .empty

def step (scheduler : TaskScheduler) (deadline : Option ℚ) (t : Tokened α) :
    Event α → Option (Tokened α)
  | .pass pass =>
    match t.run.control with
    | .looping => some (guarded pass.onEvent (passBody scheduler deadline pass) t)
    | _ => none
  | .wake wake =>
    match t.run.control with
    | .waiting =>
      if possible deadline t.run wake then some (guarded wake.onEvent (wakeBody wake) t) else none
    | _ => none

def machine (scheduler : TaskScheduler) (deadline : Option ℚ) : Machine (Tokened α) (Event α) :=
  ⟨step scheduler deadline⟩

/-- `run_token = CancellationToken()` -/
def start (plan : TaskPlan) (status : String → TaskStatus) : Tokened α where
  run := TaskScheduler.start plan status
  tokens := Tokens.empty.create none (known_none .empty)
  made := Nat.zero_lt_one
  token := .empty

section Erasure

variable {scheduler : TaskScheduler} {deadline : Option ℚ} {now : ℚ} {submit : Task → Submission}
  {onEvent : OnEvent α} {task : Task}

theorem run_cancelTask (t : Tokened α) (id reason : String) :
    (t.cancelTask id reason).run = t.run := by
  unfold cancelTask
  split <;> rfl

theorem run_enter (t : Tokened α) (answer : Submission) (id : String) (i : Nat) :
    (t.enter answer id i).run = t.run := by
  unfold enter
  split <;> rfl

theorem erases_within (x : Program α Unit) : Erases Tokened.run (within x) x :=
  Erases.zoom (fun _ _ => rfl) x

theorem erases_launchTask : Erases Tokened.run
    (launchTask scheduler deadline now submit onEvent task)
    (TaskScheduler.launchTask scheduler deadline now submit onEvent task) := by
  refine Erases.read fun t => .ghost (fun _ => rfl) (.ghost_last ?_ (erases_within _))
  exact fun u => run_enter u _ _ _

theorem erases_launchLoop (rest : List Task) : Erases Tokened.run
    (launchLoop scheduler deadline now submit onEvent rest)
    (TaskScheduler.launchLoop scheduler deadline now submit onEvent rest) := by
  induction rest with
  | nil => exact .pure _
  | cons task rest ih =>
      refine Erases.get fun t => .ite (.pure _) (.ite ?_ ih)
      exact erases_launchTask.bind fun _ => ih

theorem erases_launchReady : Erases Tokened.run
    (launchReady scheduler deadline now submit onEvent)
    (TaskScheduler.launchReady scheduler deadline now submit onEvent) := by
  refine .ite (.ghost (fun _ => rfl) (.throw _)) ?_
  exact Erases.get fun t => erases_launchLoop t.run.pending

theorem erases_expireTask (state : Running) : Erases Tokened.run (expireTask onEvent now state)
    (TaskScheduler.expireTask onEvent now state) := by
  by_cases late : passed state.deadline now = true
  · rw [expireTask, if_pos late]
    exact .ghost (fun t => run_cancelTask t _ _) (erases_within _)
  · rw [expireTask, if_neg late, TaskScheduler.expireTask, if_neg late]
    exact .pure _

theorem erases_conclude {after : ℚ} : Erases (Tokened.run (α := α)) (conclude deadline after)
    (TaskScheduler.conclude deadline after) := by
  refine Erases.get fun t => .ite (.ghost (fun _ => rfl) (.throw _)) ?_
  exact .assign fun _ => rfl

theorem erases_passBody {pass : Pass α} : Erases Tokened.run (passBody scheduler deadline pass)
    (TaskScheduler.passBody scheduler deadline pass) := by
  refine Erases.get fun t => .ite erases_conclude ?_
  refine (erases_within _).bind fun _ => erases_launchReady.bind fun _ => ?_
  refine Erases.get fun u => .ite (.ite erases_conclude (.throw _)) ?_
  exact .assign fun _ => rfl

theorem erases_wakeBody {wake : Wake α} :
    Erases Tokened.run (wakeBody wake) (TaskScheduler.wakeBody wake) := by
  refine (Erases.forM (fun _ => erases_within _) _).bind fun _ => ?_
  refine .ite (Erases.bind ?_ fun _ => .assign fun _ => rfl) (.assign fun _ => rfl)
  exact Erases.get fun t => .forM erases_expireTask t.run.running

theorem erases_abort : Erases Tokened.run (abort onEvent) (TaskScheduler.abort onEvent) :=
  .ghost (fun _ => rfl) (erases_within _)

/-- Without its tokens, the scheduler takes the same steps. -/
theorem run_guarded {body : Tokening α Unit} {bare : Program α Unit}
    (erases : Erases Tokened.run body bare) (t : Tokened α) :
    (guarded onEvent body t).run = TaskScheduler.guarded onEvent bare t.run := by
  unfold guarded TaskScheduler.guarded
  cases first : body t with
  | ok _ u =>
      rw [erases.of_ok first]
  | error e u =>
      rw [erases.of_error first]
      dsimp only
      cases second : abort onEvent u with
      | ok _ v =>
          rw [erases_abort.of_ok second]
          rfl
      | error e' v =>
          rw [erases_abort.of_error second]
          rfl

theorem map_step (t : Tokened α) (event : Event α) :
    (step scheduler deadline t event).map Tokened.run =
      TaskScheduler.step scheduler deadline t.run event := by
  cases event with
  | pass pass =>
      unfold step TaskScheduler.step
      cases t.run.control with
      | looping => exact congrArg some (run_guarded erases_passBody t)
      | waiting => rfl
      | returned results => rfl
      | raised exception last => rfl
  | wake wake =>
      unfold step TaskScheduler.step
      cases t.run.control with
      | looping => rfl
      | waiting =>
          dsimp only
          split_ifs
          · exact congrArg some (run_guarded erases_wakeBody t)
          · rfl
      | returned results => rfl
      | raised exception last => rfl

end Erasure

/-- How a task leaves `running`. -/
inductive Parting where
  | collected (id : String)
  | expired (id : String)
  deriving DecidableEq

/-- What leaves `running` in a wake-up that does not raise: the futures that are done, or the
tasks whose deadlines have passed. -/
def partings (t : Tokened α) : Event α → List Parting
  | .pass _ => []
  | .wake wake =>
    if wake.done.isEmpty then
      (t.run.running.filter fun state => passed state.deadline wake.now).map fun state =>
        .expired state.task.id
    else wake.done.map fun done => .collected done.taskId

/-- The tokens of tasks are children of that of the run, and keep one reason. -/
structure Family (t : Tokened α) : Prop where
  children : ∀ id i, t.token.get? id = some i → CancellationToken.parentIn t.tokens.all i = some 0
  expired : ∀ id i, t.token.get? id = some i → t.tokens.cancelled i = true →
    t.tokens.kept i = some "task deadline exceeded"

/-- Before `_abort`. -/
structure Begun (t : Tokened α) : Prop extends Family t where
  overdue : t.tokens.cancelled 0 = true → t.tokens.kept 0 = some "run deadline exceeded"

/-- Behind `_abort`. -/
structure Stopped (t : Tokened α) : Prop extends Family t where
  run : t.tokens.cancelled 0 = true
  reason : t.tokens.kept 0 = some "run deadline exceeded" ∨ t.tokens.kept 0 = some "run aborted"

section Family

open CancellationToken

variable {t : Tokened α} {s : RunState α} {tokens : Tokens} {i p : Nat} {id : String}

theorem lt_length (child : parentIn tokens.all i = some p) : i < tokens.all.length := by
  obtain ⟨token, found, -⟩ := Option.bind_eq_some_iff.mp child
  exact (List.getElem?_eq_some_iff.mp found).1

theorem parentIn_zero (tokens : Tokens) : parentIn tokens.all 0 = none := by
  cases link : parentIn tokens.all 0 with
  | none => rfl
  | some p => exact absurd (tokens.older link) (Nat.not_lt_zero p)

theorem nearest_root (tokens : Tokens) :
    tokens.firstCancelled 0 = if tokens.cancelled 0 then some 0 else none := by
  rw [Tokens.firstCancelled, Lineage.nearest_eq]
  refine ite_congr rfl (fun _ => rfl) fun _ => ?_
  change (parentIn tokens.all 0).bind _ = none
  rw [parentIn_zero]
  rfl

theorem nearest_child (child : parentIn tokens.all i = some 0) :
    tokens.firstCancelled i =
      if tokens.cancelled i then some i else if tokens.cancelled 0 then some 0 else none := by
  rw [Tokens.firstCancelled, Lineage.nearest_eq]
  refine ite_congr rfl (fun _ => rfl) fun _ => ?_
  change (parentIn tokens.all i).bind _ = _
  rw [child, Option.bind_some]
  exact nearest_root tokens

theorem isCancelled_child (child : parentIn tokens.all i = some 0) :
    tokens.isCancelled i = true ↔ tokens.cancelled i = true ∨ tokens.cancelled 0 = true := by
  rw [Tokens.isCancelled, nearest_child child]
  split_ifs <;> simp [*]

theorem cancelled_young (tokens : Tokens) : tokens.cancelled tokens.all.length = false := by
  rw [Tokens.cancelled, List.getElem?_eq_none (Nat.le_refl _)]
  rfl

theorem cancelled_create (t : Tokened α) (j : Nat) :
    t.create.tokens.cancelled j = t.tokens.cancelled j := by
  rw [Tokened.create, Tokens.cancelled_create]

theorem kept_create (t : Tokened α) (j : Nat) : t.create.tokens.kept j = t.tokens.kept j := by
  rw [Tokened.create, Tokens.kept_create]

theorem Family.create (family : Family t) : Family t.create where
  children id i found := by
    have child := family.children id i found
    exact (parentIn_concat_of_lt (lt_length child) _).trans child
  expired id i found := by
    rw [cancelled_create, kept_create]
    exact family.expired id i found

theorem Family.cancel {reason : String} (family : Family t)
    (own : ∀ id, t.token.get? id = some i → reason = "task deadline exceeded") :
    Family (t.cancel i reason) where
  children id j found :=
    (congrFun (parentIn_modify t.tokens.all i (some reason)) j).trans (family.children id j found)
  expired id j found := by
    by_cases same : j = i
    · subst same
      rw [Tokened.cancel, Tokens.kept_cancel_self (lt_length (family.children id j found))]
      intro _
      split_ifs with again
      · exact family.expired id j found again
      · rw [own id found]
    · rw [Tokened.cancel, Tokens.cancelled_cancel_of_ne same, Tokens.kept_cancel_of_ne same]
      exact family.expired id j found

/-- The token of the run is not the token of a task. -/
theorem Family.ne_root (family : Family t) (found : t.token.get? id = some i) : i ≠ 0 := by
  rintro rfl
  have child := family.children id 0 found
  rw [parentIn_zero] at child
  cases child

theorem Family.cancel_root (family : Family t) (reason : String) : Family (t.cancel 0 reason) :=
  family.cancel fun _ found => absurd rfl (family.ne_root found)

theorem kept_cancel_root (t : Tokened α) (reason : String) :
    (t.cancel 0 reason).tokens.kept 0 =
      if t.tokens.cancelled 0 then t.tokens.kept 0 else some reason :=
  Tokens.kept_cancel_self t.made

theorem Begun.within (begun : Begun t) : Begun { t with run := s } :=
  ⟨⟨begun.children, begun.expired⟩, begun.overdue⟩

theorem Begun.create (begun : Begun t) : Begun t.create := by
  refine ⟨begun.toFamily.create, ?_⟩
  rw [cancelled_create, kept_create]
  exact begun.overdue

theorem Begun.cancelTask (begun : Begun t) :
    Begun (t.cancelTask id "task deadline exceeded") := by
  unfold Tokened.cancelTask
  split
  next i found =>
    have other := (begun.toFamily.ne_root found).symm
    refine ⟨begun.toFamily.cancel fun _ _ => rfl, ?_⟩
    rw [Tokened.cancel, Tokens.cancelled_cancel_of_ne other, Tokens.kept_cancel_of_ne other]
    exact begun.overdue
  next => exact begun

/-- The run deadline is found to have passed. -/
theorem Begun.late (begun : Begun t) : Begun (t.cancel 0 "run deadline exceeded") := by
  refine ⟨begun.toFamily.cancel_root _, fun _ => ?_⟩
  rw [kept_cancel_root]
  split_ifs with again
  · exact begun.overdue again
  · rfl

theorem Begun.stopped (begun : Begun t) : Stopped (t.cancel 0 "run aborted") := by
  refine ⟨begun.toFamily.cancel_root _, Tokens.cancelled_cancel_self t.made, ?_⟩
  rw [kept_cancel_root]
  split_ifs with again
  · exact .inl (begun.overdue again)
  · exact .inr rfl

theorem Stopped.within (stopped : Stopped t) : Stopped { t with run := s } :=
  ⟨⟨stopped.children, stopped.expired⟩, stopped.run, stopped.reason⟩

/-- Everybody is asked, and told why. -/
theorem Stopped.asked (stopped : Stopped t) (found : t.token.get? id = some i) :
    t.tokens.isCancelled i = true ∧ ∃ reason, t.tokens.reason i = some reason ∧
      reason ∈ ["task deadline exceeded", "run deadline exceeded", "run aborted"] := by
  have child := stopped.children id i found
  refine ⟨(isCancelled_child child).mpr (.inr stopped.run), ?_⟩
  rw [Tokens.reason, nearest_child child]
  split_ifs with own root
  · exact ⟨_, stopped.expired id i found own, by simp⟩
  · obtain late | aborted := stopped.reason
    · exact ⟨_, late, by simp⟩
    · exact ⟨_, aborted, by simp⟩
  · exact absurd stopped.run root

end Family

/-- A task of the id is in `running`. -/
def Runs (s : RunState α) (id : String) : Prop := ∃ state ∈ s.running, state.task.id = id

/-- Between the operations: a task that was launched runs, was collected or has expired, and its
token is cancelled in the last case alone. -/
structure Asked (plan : TaskPlan) (gone : List Parting) (t : Tokened α) : Prop
    extends Begun t where
  tables : Tables plan t.run
  quiet : t.tokens.cancelled 0 = false
  separate : ∀ id id' i, t.token.get? id = some i → t.token.get? id' = some i → id = id'
  fresh : ∀ task ∈ t.run.pending, task.id ∉ t.token.keys
  places : ∀ id, id ∈ t.token.keys ↔
    Runs t.run id ∨ .collected id ∈ gone ∨ .expired id ∈ gone
  running : ∀ id, Runs t.run id → .collected id ∉ gone ∧ .expired id ∉ gone
  collected : ∀ id, .collected id ∈ gone → .expired id ∉ gone
  asked : ∀ id i, t.token.get? id = some i →
    (t.tokens.cancelled i = true ↔ .expired id ∈ gone)

namespace Asked

open CancellationToken

variable {plan : TaskPlan} {gone : List Parting} {t : Tokened α} {s : RunState α} {id : String}
  {i : Nat} {task : Task} {submit : Task → Submission}

/-- Only the tables of the run are read. -/
theorem restate (asked : Asked plan gone t) (tables : Tables plan s)
    (pending : ∀ task ∈ s.pending, task ∈ t.run.pending)
    (same : ∀ id, Runs s id ↔ Runs t.run id) : Asked plan gone { t with run := s } where
  toBegun := asked.toBegun.within
  tables := tables
  quiet := asked.quiet
  separate := asked.separate
  fresh task member := asked.fresh task (pending task member)
  places id := (asked.places id).trans (or_congr (same id).symm Iff.rfl)
  running id runs := asked.running id ((same id).mp runs)
  collected := asked.collected
  asked := asked.asked

theorem create (asked : Asked plan gone t) : Asked plan gone t.create where
  toBegun := asked.toBegun.create
  tables := asked.tables
  quiet := (cancelled_create t 0).trans asked.quiet
  separate := asked.separate
  fresh := asked.fresh
  places := asked.places
  running := asked.running
  collected := asked.collected
  asked id i found := by
    rw [cancelled_create]
    exact asked.asked id i found

/-- A worker has accepted a task. -/
theorem enter (asked : Asked plan gone t) (tables : Tables plan s)
    (pending : ∀ other ∈ s.pending, other ∈ t.run.pending) (unknown : task.id ∉ t.token.keys)
    (runs : ∀ id, Runs s id ↔ Runs t.run id ∨ id = task.id) :
    Asked plan gone { t.create with
      run := s, token := t.token.set task.id t.tokens.all.length } := by
  have older : ∀ id i, t.token.get? id = some i → i < t.tokens.all.length :=
    fun id i found => lt_length (asked.children id i found)
  have begun := asked.toBegun.create
  have young : t.create.tokens.cancelled t.tokens.all.length = false :=
    (cancelled_create t _).trans (cancelled_young t.tokens)
  have gone_known : ∀ id, .collected id ∈ gone ∨ .expired id ∈ gone → id ∈ t.token.keys :=
    fun id left => (asked.places id).mpr (.inr left)
  refine ⟨⟨⟨?_, ?_⟩, begun.overdue⟩, tables, asked.create.quiet, ?_, ?_, ?_, ?_, asked.collected,
    ?_⟩
  · intro id i found
    rw [Dict.get?_set] at found
    split_ifs at found with own
    · cases found
      change (t.tokens.all ++ [CancellationToken.new (some 0)])[t.tokens.all.length]?.bind _ = _
      rw [List.getElem?_concat_length]
      rfl
    · exact begun.children id i found
  · intro id i found cancelled
    rw [Dict.get?_set] at found
    split_ifs at found with own
    · cases found
      rw [young] at cancelled
      cases cancelled
    · exact begun.expired id i found cancelled
  · intro id id' i found found'
    rw [Dict.get?_set] at found found'
    split_ifs at found with own
    · cases found
      split_ifs at found' with own'
      · exact own.trans own'.symm
      · exact absurd (older id' _ found') (Nat.lt_irrefl _)
    · split_ifs at found' with own'
      · cases found'
        exact absurd (older id _ found) (Nat.lt_irrefl _)
      · exact asked.separate id id' i found found'
  · intro other member known
    obtain same | known := Dict.mem_keys_set.mp known
    · obtain ⟨state, inside, named⟩ := (runs task.id).mpr (.inr rfl)
      exact tables.apart other member state inside (named.trans same.symm)
    · exact asked.fresh other (pending other member) known
  · intro id
    rw [Dict.mem_keys_set, asked.places, runs]
    tauto
  · intro id here
    obtain here | rfl := (runs id).mp here
    · exact asked.running id here
    · exact ⟨fun left => unknown (gone_known _ (.inl left)),
        fun left => unknown (gone_known _ (.inr left))⟩
  · intro id i found
    rw [Dict.get?_set] at found
    split_ifs at found with own
    · cases found
      subst own
      rw [young]
      exact ⟨fun set => absurd set Bool.false_ne_true,
        fun left => absurd (gone_known _ (.inr left)) unknown⟩
    · exact asked.create.asked id i found

/-- A future was collected. -/
theorem collect {x : String} (asked : Asked plan gone t) (tables : Tables plan s)
    (pending : ∀ task ∈ s.pending, task ∈ t.run.pending) (here : Runs t.run x)
    (runs : ∀ id, Runs s id ↔ Runs t.run id ∧ id ≠ x) :
    Asked plan (gone ++ [.collected x]) { t with run := s } := by
  refine ⟨asked.toBegun.within, tables, asked.quiet, asked.separate,
    fun task member => asked.fresh task (pending task member), ?_, ?_, ?_, ?_⟩
  · intro id
    have known := asked.places id
    have at_x : id = x → Runs t.run id := fun same => same ▸ here
    simp only [List.mem_append, List.mem_singleton, Parting.collected.injEq, reduceCtorEq,
      or_false, runs]
    tauto
  · intro id inside
    obtain ⟨inside, other⟩ := (runs id).mp inside
    have nowhere := asked.running id inside
    simp [nowhere, other]
  · intro id left
    simp only [List.mem_append, List.mem_singleton, Parting.collected.injEq, reduceCtorEq,
      or_false] at left ⊢
    obtain before | rfl := left
    · exact asked.collected id before
    · exact (asked.running id here).2
  · intro id i found
    simpa using asked.asked id i found

/-- A task was asked to stop, and given up. -/
theorem expire {x : String} (asked : Asked plan gone t) (tables : Tables plan s)
    (pending : ∀ task ∈ s.pending, task ∈ t.run.pending) (here : Runs t.run x)
    (runs : ∀ id, Runs s id ↔ Runs t.run id ∧ id ≠ x) :
    Asked plan (gone ++ [.expired x])
      { t.cancelTask x "task deadline exceeded" with run := s } := by
  obtain ⟨i, own⟩ := Dict.mem_keys_iff.mp ((asked.places x).mpr (.inl here))
  have same : t.cancelTask x "task deadline exceeded" = t.cancel i "task deadline exceeded" := by
    rw [cancelTask, own]
  have begun : Begun (t.cancel i "task deadline exceeded") := same ▸ asked.toBegun.cancelTask
  have ne_root := asked.toFamily.ne_root own
  rw [same]
  refine ⟨begun.within, tables, ?_, asked.separate,
    fun task member => asked.fresh task (pending task member), ?_, ?_, ?_, ?_⟩
  · exact (Tokens.cancelled_cancel_of_ne ne_root.symm).trans asked.quiet
  · intro id
    have known := asked.places id
    have at_x : id = x → Runs t.run id := fun same => same ▸ here
    change id ∈ t.token.keys ↔ _
    simp only [List.mem_append, List.mem_singleton, Parting.expired.injEq, reduceCtorEq,
      or_false, runs]
    tauto
  · intro id inside
    obtain ⟨inside, other⟩ := (runs id).mp inside
    have nowhere := asked.running id inside
    simp [nowhere, other]
  · intro id left
    simp only [List.mem_append, List.mem_singleton, Parting.expired.injEq, reduceCtorEq,
      or_false, not_or] at left ⊢
    refine ⟨asked.collected id left, ?_⟩
    rintro rfl
    exact (asked.running id here).1 left
  · intro id j found
    have before := asked.asked id j found
    change (t.tokens.cancel i _).cancelled j = true ↔ _
    by_cases mine : j = i
    · subst mine
      have place := asked.separate id x j found own
      subst place
      rw [Tokens.cancelled_cancel_self (lt_length (asked.children id j found))]
      simp
    · rw [Tokens.cancelled_cancel_of_ne mine]
      have other : id ≠ x := by
        rintro rfl
        exact mine (Option.some.inj (Eq.trans found.symm own))
      simpa [other] using before

end Asked

section Operations

open CancellationToken

variable {plan : TaskPlan} {gone : List Parting} {t : Tokened α} {s : RunState α} {task : Task}
  {scheduler : TaskScheduler} {deadline : Option ℚ} {now : ℚ} {submit : Task → Submission}
  {onEvent : OnEvent α} {rest : List Task}

theorem runs_iff_mem (id : String) : Runs s id ↔ id ∈ (s.running.map Running.task).map Task.id := by
  simp [Runs]

/-- An operation that only takes from `pending`. -/
theorem skipBlocked_asked : Triple (Asked plan gone) (skipBlocked onEvent)
    (fun _ => Asked plan gone) fun _ (t : Tokened α) => Begun t := by
  refine Triple.zoom fun t asked => ?_
  have moved : Triple (fun s => s = t.run) (TaskScheduler.skipBlocked onEvent)
      (fun _ => Moves (fun _ _ => False) onEvent t.run)
      (Halted (fun _ _ => False) Dismissed onEvent t.run) :=
    skipBlocked_moves asked.tables.pendingDistinct
  refine (skipBlocked_narrowed.and moved).conseq (fun s same => same) ?_
    fun _ _ _ => asked.toBegun.within
  rintro _ s ⟨⟨narrowed, running⟩, moves⟩
  refine asked.restate (asked.tables.moves moves)
    (fun _ member => narrowed.pending.subset member) ?_
  intro id
  rw [Runs, Runs, running]

/-- A launch, with what the run itself does in it. -/
theorem Asked.launch (asked : Asked plan gone t) (member : task ∈ t.run.pending)
    (tables : Tables plan s) (launched : Launched submit task t.run s) :
    Asked plan gone ({ t.create with run := s }.enter (submit task) task.id
      t.tokens.all.length) := by
  have pending : ∀ other ∈ s.pending, other ∈ t.run.pending :=
    fun other here => launched.narrowed.pending.subset here
  have runs : ∀ id, Runs s id ↔
      id ∈ (t.run.running.map Running.task ++
        if (submit task).isAccepted then [task] else []).map Task.id :=
    fun id => launched.running ▸ runs_iff_mem id
  unfold Tokened.enter
  split_ifs at runs ⊢ with accepted
  · refine asked.enter tables pending (asked.fresh task member) fun id => ?_
    rw [runs, List.map_append, List.mem_append, ← runs_iff_mem]
    simp
  · refine asked.create.restate tables pending fun id => ?_
    rw [runs, List.append_nil, ← runs_iff_mem]
    rfl

theorem launchTask_asked : Triple (fun t => Asked plan gone t ∧ Queued (task :: rest) t.run)
    (launchTask scheduler deadline now submit onEvent task)
    (fun _ t => Asked plan gone t ∧ Queued rest t.run) fun _ (t : Tokened α) => Begun t := by
  refine Triple.get fun t before => ?_
  obtain ⟨asked, queued⟩ := before
  refine Triple.bind (R := fun _ u => u = t.create) (Triple.assign (by rintro _ rfl; rfl))
    fun _ => ?_
  refine Triple.bind (R := fun _ u => ∃ s, (Launched submit task t.run s ∧ Tables plan s ∧
    Queued rest s) ∧ u = { t.create with run := s }) (Triple.zoom ?_) fun _ => Triple.assign ?_
  · rintro _ rfl
    have moved : Triple (fun s => s = t.run)
        (TaskScheduler.launchTask scheduler deadline now submit onEvent task)
        (fun _ s => Moves (fun _ _ => False) onEvent t.run s ∧ Queued rest s)
        (Halted (fun _ _ => False) Dismissed onEvent t.run) :=
      launchTask_moves.of_entry ⟨.refl, queued⟩
    refine (launchTask_launched.and moved).conseq (fun s same => same) ?_
      fun _ _ _ => asked.toBegun.create.within
    rintro _ s ⟨launched, moves, later⟩
    exact ⟨s, ⟨launched, asked.tables.moves moves, later⟩, rfl⟩
  · rintro _ ⟨s, ⟨launched, tables, later⟩, rfl⟩
    refine ⟨asked.launch (queued.waiting task List.mem_cons_self) tables launched, ?_⟩
    rw [run_enter]
    exact later

theorem launchLoop_asked (rest : List Task) :
    Triple (fun t => Asked plan gone t ∧ Queued rest t.run)
      (launchLoop scheduler deadline now submit onEvent rest)
      (fun _ => Asked plan gone) fun _ (t : Tokened α) => Begun t := by
  induction rest with
  | nil => exact Triple.pure fun _ before => before.1
  | cons task rest ih =>
      refine Triple.get fun t before =>
        Triple.ite (fun _ => ?_) fun _ => Triple.ite (fun _ => ?_) fun _ => ?_
      · exact Triple.pure (by rintro _ rfl; exact before.1)
      · exact Triple.bind (launchTask_asked.of_entry before) fun _ => ih
      · exact ih.of_entry ⟨before.1, before.2.tail⟩

theorem launchReady_asked : Triple (Asked plan gone)
    (launchReady scheduler deadline now submit onEvent) (fun _ => Asked plan gone)
    fun _ (t : Tokened α) => Begun t := by
  refine Triple.ite (fun _ => ?_) fun _ => Triple.get fun t asked => ?_
  · exact Triple.bind (R := fun _ t => Begun t)
      (Triple.assign fun _ asked => asked.toBegun.late) fun _ => Triple.throw fun _ begun => begun
  · exact (launchLoop_asked t.run.pending).of_entry
      ⟨asked, fun _ member => member, asked.tables.pendingDistinct⟩

/-- The run waits, or has ended with nothing in its tables. -/
def Rests (s : RunState α) : Prop :=
  s.control = .looping ∨ s.control = .waiting ∨
    (∃ results, s.control = .returned results) ∧ s.running = []

theorem conclude_asked {after : ℚ} : Triple (fun t => Asked plan gone t ∧ t.run.running = [])
    (conclude deadline after) (fun _ t => Asked plan gone t ∧ Rests t.run)
    fun _ (t : Tokened α) => Begun t := by
  refine Triple.get fun t before => Triple.ite (fun _ => ?_) fun _ => Triple.assign ?_
  · refine Triple.bind (R := fun _ t => Begun t) (Triple.assign ?_)
      fun _ => Triple.throw fun _ begun => begun
    rintro _ rfl
    exact before.1.toBegun.late
  · rintro _ rfl
    refine ⟨before.1.restate (before.1.tables.restate rfl rfl) (fun _ member => member)
      fun _ => Iff.rfl, .inr (.inr ⟨⟨_, rfl⟩, before.2⟩)⟩

theorem passBody_asked {pass : Pass α} : Triple (Asked plan gone)
    (passBody scheduler deadline pass) (fun _ t => Asked plan gone t ∧ Rests t.run)
    fun _ (t : Tokened α) => Begun t := by
  refine Triple.get fun t asked => Triple.ite (fun idle => ?_) fun _ => ?_
  · rw [Bool.and_eq_true, List.isEmpty_iff, List.isEmpty_iff] at idle
    exact conclude_asked.of_entry ⟨asked, idle.2⟩
  · refine Triple.bind (skipBlocked_asked.of_entry asked) fun _ => ?_
    refine Triple.bind launchReady_asked fun _ => Triple.get fun u asked => ?_
    refine Triple.ite (fun idle => Triple.ite (fun _ => ?_) fun _ => ?_) fun _ => ?_
    · exact conclude_asked.of_entry ⟨asked, List.isEmpty_iff.mp idle⟩
    · refine Triple.throw ?_
      rintro _ rfl
      exact asked.toBegun
    · refine Triple.assign ?_
      rintro _ rfl
      exact ⟨asked.restate (asked.tables.restate rfl rfl) (fun _ member => member)
        fun _ => Iff.rfl, .inr (.inl rfl)⟩

end Operations

section Wake

variable {plan : TaskPlan} {gone : List Parting} {t : Tokened α} {s : RunState α} {now : ℚ}
  {onEvent : OnEvent α} {done : Done α} {state : Running}

theorem runs_dropRunning (x id : String) : Runs (s.dropRunning x) id ↔ Runs s id ∧ id ≠ x := by
  constructor
  · rintro ⟨state, member, rfl⟩
    obtain ⟨member, other⟩ := mem_dropRunning.mp member
    exact ⟨⟨state, member, rfl⟩, other⟩
  · rintro ⟨⟨state, member, rfl⟩, other⟩
    exact ⟨state, mem_dropRunning.mpr ⟨member, other⟩, rfl⟩

/-- Between the two states the task of the id has left `running`, and nothing else. -/
structure Drops (x : String) (s u : RunState α) : Prop where
  pending : u.pending = s.pending
  running : u.running = (s.dropRunning x).running

theorem Drops.runs {u : RunState α} {x : String} (drops : Drops x s u) (id : String) :
    Runs u id ↔ Runs s id ∧ id ≠ x := by
  rw [← runs_dropRunning, Runs, drops.running]
  rfl

theorem collect_drops {rest : List (Done α)} (awaited : Awaited (done :: rest) s) :
    Triple (fun u => u = s) (TaskScheduler.collect onEvent done)
      (fun _ => Drops done.taskId s) fun _ _ => True := by
  obtain ⟨holder, member, same⟩ := awaited.held done List.mem_cons_self
  obtain ⟨state, found, -, -⟩ :=
    Lookup.exists_find? (fun state : Running => state.task.id) member same
  rintro s rfl
  rw [collect_eq found]
  cases escaping done.completion with
  | some e => trivial
  | none =>
      refine finish_spec (P := fun u => u = s.dropRunning done.taskId) ?_
        (fun _ _ _ _ => trivial) _ rfl
      rintro _ rfl
      exact ⟨rfl, rfl⟩

theorem collect_asked {rest : List (Done α)} :
    Triple (fun t => Asked plan gone t ∧ Awaited (done :: rest) t.run) (collect onEvent done)
      (fun _ t => Asked plan (gone ++ [.collected done.taskId]) t ∧ Awaited rest t.run)
      fun _ (t : Tokened α) => Begun t := by
  refine Triple.zoom fun t before => ?_
  obtain ⟨asked, awaited⟩ := before
  have moved : Triple (fun s => s = t.run) (TaskScheduler.collect onEvent done)
      (fun _ s => Moves (fun _ _ => True) onEvent t.run s ∧ Awaited rest s)
      (Halted (fun _ _ => True) Dismissed onEvent t.run) :=
    (collect_moves fun _ _ _ => trivial).of_entry ⟨.refl, awaited⟩
  refine ((collect_drops awaited).and moved).conseq (fun s same => same) ?_
    fun _ _ _ => asked.toBegun.within
  rintro _ s ⟨drops, moves, later⟩
  obtain ⟨state, member, named⟩ := awaited.held done List.mem_cons_self
  refine ⟨asked.collect (asked.tables.moves moves) ?_ ⟨state, member, named⟩ drops.runs, later⟩
  exact fun task member => drops.pending ▸ member

theorem collectAll_asked (l : List (Done α)) :
    Triple (fun t => Asked plan gone t ∧ Awaited l t.run) (forM l (collect onEvent))
      (fun _ => Asked plan (gone ++ l.map fun done => .collected done.taskId))
      fun _ (t : Tokened α) => Begun t := by
  induction l generalizing gone with
  | nil =>
      refine Triple.pure fun t before => ?_
      rw [List.map_nil, List.append_nil]
      exact before.1
  | cons done rest ih =>
      rw [List.map_cons, List.append_cons]
      exact Triple.bind collect_asked fun _ => ih

theorem expireTask_drops (late : passed state.deadline now = true) :
    Triple (fun u => u = s) (TaskScheduler.expireTask onEvent now state : Program α Unit)
      (fun _ => Drops state.task.id s) fun _ _ => True := by
  rw [TaskScheduler.expireTask, if_pos late]
  refine Triple.bind (finish_spec (Q := fun _ u => ∃ result, u = s.record onEvent state.task result)
    ?_ fun _ _ _ _ => trivial) fun _ => Triple.assign ?_
  · rintro s rfl
    exact ⟨_, rfl⟩
  · rintro _ ⟨result, rfl⟩
    exact ⟨rfl, rfl⟩

theorem expireTask_asked {rest : List Running}
    (fresh : ∀ other ∈ rest, other.task.id ≠ state.task.id) :
    Triple (fun t => Asked plan gone t ∧ ∀ other ∈ state :: rest, other ∈ t.run.running)
      (expireTask onEvent now state)
      (fun _ t => Asked plan (gone ++ if passed state.deadline now then [.expired state.task.id]
        else []) t ∧ ∀ other ∈ rest, other ∈ t.run.running)
      fun _ (t : Tokened α) => Begun t := by
  refine Triple.ite (fun late => ?_) fun early => Triple.pure ?_
  · rw [if_pos late]
    refine Triple.entry fun t before => ?_
    obtain ⟨asked, held⟩ := before
    have begun : Begun (t.cancelTask state.task.id "task deadline exceeded") :=
      asked.toBegun.cancelTask
    refine Triple.bind (R := fun _ u => u = t.cancelTask state.task.id "task deadline exceeded")
      (Triple.assign (by rintro _ rfl; rfl)) fun _ => Triple.zoom ?_
    rintro _ rfl
    rw [run_cancelTask]
    have moved : Triple (fun s => s = t.run) (TaskScheduler.expireTask onEvent now state)
        (fun _ s => Moves (fun _ _ => True) onEvent t.run s ∧ ∀ other ∈ rest, other ∈ s.running)
        (Halted (fun _ _ => True) (Overdue []) onEvent t.run) :=
      (expireTask_moves (fun _ _ _ => trivial) fresh).of_entry ⟨.refl, held⟩
    refine ((expireTask_drops late).and moved).conseq (fun s same => same) ?_
      fun _ _ _ => begun.within
    rintro _ s ⟨drops, moves, later⟩
    have member := held state List.mem_cons_self
    refine ⟨asked.expire (asked.tables.moves moves) ?_ ⟨state, member, rfl⟩ drops.runs, later⟩
    exact fun task member => drops.pending ▸ member
  · intro t before
    rw [if_neg early, List.append_nil]
    exact ⟨before.1, fun other member => before.2 other (List.mem_cons_of_mem _ member)⟩

theorem expireAll_asked (l : List Running)
    (distinct : (l.map fun state => state.task.id).Nodup) :
    Triple (fun t => Asked plan gone t ∧ ∀ state ∈ l, state ∈ t.run.running)
      (forM l (expireTask onEvent now))
      (fun _ => Asked plan (gone ++ (l.filter fun state => passed state.deadline now).map
        fun state => .expired state.task.id))
      fun _ (t : Tokened α) => Begun t := by
  induction l generalizing gone with
  | nil =>
      refine Triple.pure fun t before => ?_
      rw [List.filter_nil, List.map_nil, List.append_nil]
      exact before.1
  | cons state rest ih =>
      obtain ⟨fresh, distinct⟩ := List.nodup_cons.mp distinct
      refine Triple.bind (expireTask_asked fun other member same => fresh ?_) fun _ => ?_
      · exact List.mem_map.mpr ⟨other, member, same⟩
      · refine (ih distinct).imp_post fun _ t asked => ?_
        rw [List.filter_cons]
        split_ifs at asked ⊢ with late
        · rwa [List.map_cons, List.append_cons]
        · rwa [List.append_nil] at asked

theorem wakeBody_asked {wake : Wake α} (awaited : Awaited wake.done t.run)
    (asked : Asked plan gone t) : Triple (fun u => u = t) (wakeBody wake)
      (fun _ u => Asked plan (gone ++ partings t (.wake wake)) u ∧ Rests u.run)
      fun _ (u : Tokened α) => Begun u := by
  have resumed : ∀ gone, Triple (Asked plan gone)
      (modify fun t : Tokened α => { t with run := { t.run with control := .looping } })
      (fun _ u => Asked plan gone u ∧ Rests u.run) fun (_ : PyException) u => Begun u := by
    refine fun gone => Triple.assign fun u asked => ⟨?_, .inl rfl⟩
    exact asked.restate (asked.tables.restate rfl rfl) (fun _ member => member) fun _ => Iff.rfl
  rw [wakeBody, partings]
  split_ifs with none_
  · rw [List.isEmpty_iff.mp none_]
    refine Triple.bind (R := fun _ u => u = t) (Triple.pure fun _ same => same) fun _ => ?_
    refine Triple.bind (Triple.get fun u same => ?_) fun _ => resumed _
    subst same
    exact (expireAll_asked u.run.running asked.tables.runningDistinct).of_entry
      ⟨asked, fun _ member => member⟩
  · exact Triple.bind ((collectAll_asked wake.done).of_entry ⟨asked, awaited⟩) fun _ => resumed _

end Wake

section Runs

variable {scheduler : TaskScheduler} {deadline : Option ℚ} {plan : TaskPlan}
  {status : String → TaskStatus} {gone : List Parting} {t u : Tokened α} {onEvent : OnEvent α}
  {es : List (Event α)}

theorem abort_stopped : Triple Begun (abort onEvent) (fun _ => Stopped)
    fun _ (t : Tokened α) => Stopped t := by
  refine Triple.bind (R := fun _ => Stopped) (Triple.assign fun _ begun => begun.stopped)
    fun _ => Triple.zoom_frame fun s t stopped => stopped.within

theorem guarded_cases {Q : Unit → Tokened α → Prop} {body : Tokening α Unit}
    (normal : Triple (fun u => u = t) body Q fun _ => Begun) :
    Q () (guarded onEvent body t) ∨
      (∃ e last, (guarded onEvent body t).run.control = .raised e last) ∧
        Stopped (guarded onEvent body t) := by
  unfold guarded
  cases first : body t with
  | ok _ u => exact .inl (normal.of_ok rfl first)
  | error e u =>
      have begun := normal.of_error rfl first
      refine .inr ?_
      dsimp only
      cases second : abort onEvent u with
      | ok _ v => exact ⟨⟨_, _, rfl⟩, (abort_stopped.of_ok begun second).within⟩
      | error e' v => exact ⟨⟨_, _, rfl⟩, (abort_stopped.of_error begun second).within⟩

/-- What holds between the steps. -/
def Told (plan : TaskPlan) (gone : List Parting) (t : Tokened α) : Prop :=
  Asked plan gone t ∧ Rests t.run ∨ (∃ e last, t.run.control = .raised e last) ∧ Stopped t

theorem Told.asked (told : Told plan gone t)
    (live : t.run.control = .looping ∨ t.run.control = .waiting) : Asked plan gone t := by
  obtain ⟨asked, -⟩ | ⟨⟨e, last, raised⟩, -⟩ := told
  · exact asked
  · simp [raised] at live

theorem Told.step {event : Event α} (told : Told plan gone t)
    (transition : step scheduler deadline t event = some u) :
    Told plan (gone ++ partings t event) u := by
  cases event with
  | pass pass =>
      simp only [Tokened.step] at transition
      split at transition
      · cases transition
        rw [partings, List.append_nil]
        exact guarded_cases (passBody_asked.of_entry (told.asked (.inl ‹_›)))
      · cases transition
  | wake wake =>
      simp only [Tokened.step] at transition
      split at transition
      · split at transition
        · cases transition
          exact guarded_cases
            (wakeBody_asked (awaited_of_possible ‹_›) (told.asked (.inr ‹_›)))
        · cases transition
      · cases transition

theorem told_start : Told plan [] (start plan status : Tokened α) := by
  have unknown : ∀ id i, (start plan status : Tokened α).token.get? id ≠ some i := by
    intro id i found
    cases found
  have quiet : (start plan status : Tokened α).tokens.cancelled 0 = false := rfl
  refine .inl ⟨⟨⟨⟨fun id i found => absurd found (unknown id i),
    fun id i found => absurd found (unknown id i)⟩, ?_⟩, Tables.start plan status, quiet,
    fun id id' i found => absurd found (unknown id i), ?_, ?_, ?_, ?_,
    fun id i found => absurd found (unknown id i)⟩, .inl rfl⟩
  · rw [quiet]
    intro set
    cases set
  · intro task _ known
    cases known
  · intro id
    simp [Runs, start, TaskScheduler.start, Dict.keys, Dict.empty]
  · intro id runs
    simp
  · intro id
    simp

/-- What left `running` in a run, and how. -/
abbrev left (scheduler : TaskScheduler) (deadline : Option ℚ) (plan : TaskPlan)
    (status : String → TaskStatus) (es : List (Event α)) : List Parting :=
  (machine scheduler deadline).log partings (start plan status) es

/-- The tokens change nothing of a run. Until it raises, the token of a task that was launched is
cancelled exactly if the task has expired, and a task that neither runs nor expired was collected;
so a task in `running` is never asked to stop, and a run that returns has collected or asked
all of them. When the run has raised, all of them are asked. -/
theorem workers_asked
    (execution : (machine scheduler deadline).run (start plan status) es = some t) :
    (TaskScheduler.machine scheduler deadline).run (TaskScheduler.start plan status) es =
        some t.run ∧
      ((∀ e last, t.run.control ≠ .raised e last) →
        (∀ state ∈ t.run.running, state.task.id ∈ t.token.keys) ∧
        ∀ id i, t.token.get? id = some i →
          (t.tokens.isCancelled i = true ↔ .expired id ∈ left scheduler deadline plan status es) ∧
          (t.tokens.isCancelled i = true →
            ¬ Runs t.run id ∧ t.tokens.reason i = some "task deadline exceeded") ∧
          (t.tokens.isCancelled i = false →
            Runs t.run id ∨ .collected id ∈ left scheduler deadline plan status es)) ∧
      (∀ results, t.run.control = .returned results → t.run.running = []) ∧
      ∀ e last, t.run.control = .raised e last → ∀ id i, t.token.get? id = some i →
        t.tokens.isCancelled i = true ∧ ∃ reason, t.tokens.reason i = some reason ∧
          reason ∈ ["task deadline exceeded", "run deadline exceeded", "run aborted"] := by
  have bare : (TaskScheduler.machine scheduler deadline).run (TaskScheduler.start plan status) es =
      some t.run := by
    have same := Machine.map_run (m := machine scheduler deadline)
      (n := TaskScheduler.machine scheduler deadline) Tokened.run map_step (start plan status) es
    rw [execution] at same
    exact same.symm
  have told : Told plan (left scheduler deadline plan status es) t :=
    Machine.run_log_invariant (P := fun t gone => Told plan gone t) (l := [])
      (fun _ _ _ _ told _ transition => told.step transition) told_start
      (Machine.meets_of_mem (fun _ _ _ => trivial) _) execution
  refine ⟨bare, ?_⟩
  obtain ⟨asked, rests⟩ | ⟨⟨e, last, raised⟩, stopped⟩ := told
  · refine ⟨fun _ => ⟨fun state member => ?_, fun id i found => ?_⟩, ?_, ?_⟩
    · exact (asked.places _).mpr (.inl ⟨state, member, rfl⟩)
    · have child := asked.children id i found
      have own : t.tokens.isCancelled i = true ↔ t.tokens.cancelled i = true := by
        rw [isCancelled_child child, asked.quiet]
        simp
      refine ⟨own.trans (asked.asked id i found), fun cancelled => ⟨fun runs => ?_, ?_⟩, ?_⟩
      · exact (asked.running id runs).2 ((asked.asked id i found).mp (own.mp cancelled))
      · rw [Tokens.reason_of_cancelled (own.mp cancelled)]
        exact asked.expired id i found (own.mp cancelled)
      · intro idle
        have alive : .expired id ∉ left scheduler deadline plan status es := by
          rw [← asked.asked id i found, ← own, idle]
          simp
        obtain runs | collected | expired :=
          (asked.places id).mp (Dict.mem_keys_iff.mpr ⟨i, found⟩)
        · exact .inl runs
        · exact .inr collected
        · exact absurd expired alive
    · intro results returned
      obtain looping | waiting | ⟨-, empty⟩ := rests
      · rw [looping] at returned
        cases returned
      · rw [waiting] at returned
        cases returned
      · exact empty
    · intro e last raised
      obtain looping | waiting | ⟨⟨results, returned⟩, -⟩ := rests
      · rw [looping] at raised
        cases raised
      · rw [waiting] at raised
        cases raised
      · rw [returned] at raised
        cases raised
  · refine ⟨fun none_ => absurd raised (none_ e last), fun results returned => ?_,
      fun _ _ _ id i found => stopped.asked found⟩
    rw [raised] at returned
    cases returned

/-- A default timeout of five seconds. -/
def hasty : TaskScheduler :=
  { maxConcurrency := none, defaultTimeout := some 5, deadline := none }

/-- The draft runs when its timeout is over. -/
def slowDraft : List (Event Nat) :=
  [.pass (.at 0), .wake { done := [], now := 6, onEvent := none }]

theorem workers_asked_slowDraft :
    ∃ (t : Tokened Nat) (i : Nat),
      (machine hasty none).run (start draftAndReview fun _ => .pending) slowDraft = some t ∧
      t.token.get? "draft" = some i ∧
      t.tokens.reason i = some "task deadline exceeded" := by
  have ends : ((machine hasty none).run (start draftAndReview fun _ => .pending) slowDraft).any
      (fun t => decide (t.token.get? "draft" = some 1) && (execute t.run).isNone) = true := by
    decide +kernel
  obtain ⟨t, execution, holds⟩ := (Option.any_eq_true _ _).mp ends
  obtain ⟨entered, live⟩ := Bool.and_eq_true_iff.mp holds
  have entered := of_decide_eq_true entered
  have unraised : ∀ e last, t.run.control ≠ .raised e last := by
    intro e last raised
    rw [execute, raised] at live
    cases live
  obtain ⟨asked, told, -⟩ := ((workers_asked execution).2.1 unraised).2 "draft" 1 entered
  exact ⟨t, 1, execution, entered, (told (asked.mpr (by decide +kernel))).2⟩

end Runs

end Tokened

end MultiAgent.Plugin.TaskScheduler
