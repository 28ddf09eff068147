import MultiAgent.Plugin.Scheduler.Deadlock

/-!
# The calls of `submit`

The state of a run does not remember what `_launch_ready` offered to the pool.
`launchAttempts` retraces the loop and keeps each call with the state in which it
was made; `launchLoop_running` says that it retraces the loop of the scheduler.
Nothing here assumes anything about what `run_task` returns.
-/

namespace MultiAgent.Plugin

def Submission.isAccepted : Submission → Bool
  | .accepted _ => true
  | .saturated | .failed _ => false

namespace TaskScheduler

variable {α : Type} {scheduler : TaskScheduler} {deadline : Option ℚ} {now : ℚ}
  {submit : Task → Submission} {onEvent : OnEvent α} {s t u : RunState α} {task : Task}
  {result : TaskResult α}

/-- A call of `submit`, with its answer and the state in which it was made. -/
structure Attempt (α : Type) where
  task : Task
  answer : Submission
  state : RunState α

def Attempt.isAccepted (attempt : Attempt α) : Bool := attempt.answer.isAccepted

/-- The calls that the loop of `_launch_ready` makes. -/
def launchAttempts (scheduler : TaskScheduler) (deadline : Option ℚ) (now : ℚ)
    (submit : Task → Submission) (onEvent : OnEvent α) :
    List Task → RunState α → List (Attempt α)
  | [], _ => []
  | task :: rest, s =>
    if scheduler.atCapacity s then []
    else if s.isReady task then
      ⟨task, submit task, s⟩ ::
        match launchTask scheduler deadline now submit onEvent task s with
        | .ok _ t => launchAttempts scheduler deadline now submit onEvent rest t
        | .error _ _ => []
    else launchAttempts scheduler deadline now submit onEvent rest s

/-- The calls that a pass makes. -/
def passAttempts (scheduler : TaskScheduler) (deadline : Option ℚ) (pass : Pass α)
    (s : RunState α) : List (Attempt α) :=
  if s.pending.isEmpty && s.running.isEmpty then []
  else
    match skipBlocked pass.onEvent s with
    | .ok _ t =>
      if passed deadline pass.now then []
      else launchAttempts scheduler deadline pass.now pass.submit pass.onEvent t.pending t
    | .error _ _ => []

def attempts (scheduler : TaskScheduler) (deadline : Option ℚ) (s : RunState α) :
    Event α → List (Attempt α)
  | .pass pass => passAttempts scheduler deadline pass s
  | .wake _ => []

/-- The ready tasks, in the order in which `_launch_ready` comes to them. -/
def RunState.candidates (s : RunState α) : List Task := s.pending.filter s.isReady

section Readiness

/-- A result without success makes no task ready. -/
theorem isReady_of_set {other : Task} (bad : result.status ≠ .success)
    (results : t.results = s.results.set result.taskId result)
    (ready : t.isReady other = true) : s.isReady other = true := by
  apply List.all_eq_true.mpr
  intro dep edge
  have here := List.all_eq_true.mp ready dep edge
  rw [results, Dict.get?_set] at here
  by_cases same : dep = result.taskId
  · simp [same, bad] at here
  · simpa only [if_neg same] using here

/-- Between `s` and `t` tasks only left `pending`, and none became ready. -/
structure Narrowed (s t : RunState α) : Prop where
  pending : t.pending.Sublist s.pending
  ready : ∀ task, t.isReady task = true → s.isReady task = true

theorem Narrowed.refl (s : RunState α) : Narrowed s s := ⟨.refl _, fun _ h => h⟩

theorem Narrowed.trans (first : Narrowed s t) (second : Narrowed t u) : Narrowed s u :=
  ⟨second.pending.trans first.pending, fun task h => first.ready task (second.ready task h)⟩

theorem Narrowed.settle (bad : result.status ≠ .success) :
    Narrowed s ((s.record onEvent task result).dropPending task) :=
  ⟨List.filter_sublist, fun _ ready => isReady_of_set bad rfl ready⟩

theorem Narrowed.candidates (narrowed : Narrowed s t) :
    (t.pending.filter s.isReady).Sublist s.candidates :=
  narrowed.pending.filter _

theorem skipTask_narrowed :
    Triple (fun t => Narrowed s t ∧ t.running = s.running) (skipTask onEvent task)
      (fun _ t => Narrowed s t ∧ t.running = s.running) fun _ _ => True := by
  refine skipTask_rule (fun _ before _ => before) ?_ fun _ _ _ _ _ => trivial
  intro t error before _ _
  exact ⟨before.1.trans (.settle (by simp)), before.2⟩

theorem skipBlocked_narrowed :
    Triple (fun t => t = s) (skipBlocked onEvent)
      (fun _ t => Narrowed s t ∧ t.running = s.running) fun _ _ => True := by
  apply Triple.get
  intro t begun
  subst begun
  exact (Triple.forM (I := fun _ u => Narrowed t u ∧ u.running = t.running) t.pending
    fun _ _ => skipTask_narrowed).of_entry ⟨.refl t, rfl⟩

end Readiness

section Launch

/-- How the launch of one task ends. -/
structure Launched (submit : Task → Submission) (task : Task) (s t : RunState α) : Prop where
  narrowed : Narrowed s t
  running : t.running.map Running.task =
    s.running.map Running.task ++ if (submit task).isAccepted then [task] else []

theorem launchTask_launched :
    Triple (fun t => t = s) (launchTask scheduler deadline now submit onEvent task)
      (fun _ => Launched submit task s)
      fun _ t => t.running = s.running ∧ t.pending = s.pending ∧
        (submit task).isAccepted = false := by
  refine Triple.bind (R := fun _ t =>
      t = { s with status := Function.update s.status task.id .running })
    (Triple.assign (by rintro _ rfl; rfl)) fun _ => ?_
  cases answer : submit task with
  | accepted started =>
      refine Triple.assign ?_
      rintro _ rfl
      exact ⟨⟨List.filter_sublist, fun _ h => h⟩, by simp [answer, Submission.isAccepted]⟩
  | saturated =>
      refine settle_spec ?_ ?_
      · rintro _ rfl
        refine ⟨⟨List.filter_sublist, fun _ h => isReady_of_set (by simp) rfl h⟩, ?_⟩
        simp [answer, Submission.isAccepted, RunState.record, RunState.dropPending]
      · rintro _ _ rfl -
        exact ⟨rfl, rfl, rfl⟩
  | failed text =>
      refine Triple.throw ?_
      rintro _ rfl
      exact ⟨rfl, rfl, rfl⟩

/-- How the launch of a task ends when it does not raise. -/
theorem launched_of_ok
    (ends : launchTask scheduler deadline now submit onEvent task s = .ok () t) :
    Launched submit task s t :=
  launchTask_launched.of_ok rfl ends

/-- What has been started between `s` and `t` is what the accepted calls offered. -/
structure Started (s : RunState α) (calls : List (Attempt α)) (t : RunState α) : Prop where
  running : t.running.map Running.task =
    s.running.map Running.task ++ (calls.filter Attempt.isAccepted).map Attempt.task
  pending : t.pending.Sublist s.pending

theorem Started.none (s : RunState α) : Started s [] s := ⟨by simp, .refl _⟩

theorem Started.step {calls : List (Attempt α)} {answer : Submission}
    (launched : Launched submit task s t) (same : answer = submit task)
    (later : Started t calls u) : Started s (⟨task, answer, s⟩ :: calls) u := by
  refine ⟨?_, later.pending.trans launched.narrowed.pending⟩
  rw [later.running, launched.running, List.append_assoc, same]
  by_cases accepted : (submit task).isAccepted <;> simp [Attempt.isAccepted, accepted]

theorem launchAttempts_of_ok (rest : List Task) (room : ¬ scheduler.atCapacity s = true)
    (ready : s.isReady task = true)
    (ends : launchTask scheduler deadline now submit onEvent task s = .ok () t) :
    launchAttempts scheduler deadline now submit onEvent (task :: rest) s =
      ⟨task, submit task, s⟩ :: launchAttempts scheduler deadline now submit onEvent rest t := by
  simp only [launchAttempts, if_neg room, if_pos ready, ends]

/-- The loop retraced: what it starts is what its accepted calls offered. -/
theorem launchLoop_started (rest : List Task) :
    Triple (fun t => t = s) (launchLoop scheduler deadline now submit onEvent rest)
      (fun _ => Started s (launchAttempts scheduler deadline now submit onEvent rest s))
      fun _ => Started s (launchAttempts scheduler deadline now submit onEvent rest s) := by
  induction rest generalizing s with
  | nil =>
      refine Triple.pure ?_
      rintro _ rfl
      exact .none _
  | cons task rest ih =>
      apply Triple.get
      intro t begun
      subst begun
      refine Triple.ite (fun full => Triple.pure ?_) fun room => Triple.ite ?_ ?_
      · rintro _ rfl
        simpa only [launchAttempts, if_pos full] using Started.none _
      · intro ready
        refine Triple.bind ((Triple.outcome.and launchTask_launched).imp_raised ?_) fun _ =>
          Triple.entry ?_
        · rintro e u ⟨ends, running, pending, refused⟩
          simp only [launchAttempts, if_neg room, if_pos ready, ends]
          exact ⟨by simp [running, Attempt.isAccepted, refused], by rw [pending]⟩
        · rintro u ⟨ends, launched⟩
          rw [launchAttempts_of_ok rest room ready ends]
          exact ih.conseq (fun _ h => h) (fun _ _ later => later.step launched rfl)
            fun _ _ later => later.step launched rfl
      · intro blocked
        simpa only [launchAttempts, if_neg room, if_neg blocked] using ih

/-- The ways in which the loop goes on, one for each case of its body. -/
inductive Retraced (scheduler : TaskScheduler) (deadline : Option ℚ) (now : ℚ)
    (submit : Task → Submission) (onEvent : OnEvent α) :
    List Task → RunState α → List (Attempt α) → Prop
  | nil (s : RunState α) : Retraced scheduler deadline now submit onEvent [] s []
  | full {task : Task} {rest : List Task} {s : RunState α}
      (full : scheduler.atCapacity s = true) :
      Retraced scheduler deadline now submit onEvent (task :: rest) s []
  | raised {task : Task} {rest : List Task} {s t : RunState α} {e : PyException}
      (room : ¬ scheduler.atCapacity s = true) (ready : s.isReady task = true)
      (ends : launchTask scheduler deadline now submit onEvent task s = .error e t) :
      Retraced scheduler deadline now submit onEvent (task :: rest) s [⟨task, submit task, s⟩]
  | launched {task : Task} {rest : List Task} {s t : RunState α} {calls : List (Attempt α)}
      (room : ¬ scheduler.atCapacity s = true) (ready : s.isReady task = true)
      (ends : launchTask scheduler deadline now submit onEvent task s = .ok () t)
      (later : Retraced scheduler deadline now submit onEvent rest t calls) :
      Retraced scheduler deadline now submit onEvent (task :: rest) s
        (⟨task, submit task, s⟩ :: calls)
  | blocked {task : Task} {rest : List Task} {s : RunState α} {calls : List (Attempt α)}
      (room : ¬ scheduler.atCapacity s = true) (blocked : ¬ s.isReady task = true)
      (later : Retraced scheduler deadline now submit onEvent rest s calls) :
      Retraced scheduler deadline now submit onEvent (task :: rest) s calls

theorem retraced (scheduler : TaskScheduler) (deadline : Option ℚ) (now : ℚ)
    (submit : Task → Submission) (onEvent : OnEvent α) (rest : List Task) (s : RunState α) :
    Retraced scheduler deadline now submit onEvent rest s
      (launchAttempts scheduler deadline now submit onEvent rest s) := by
  induction rest generalizing s with
  | nil => exact .nil s
  | cons task rest ih =>
      by_cases full : scheduler.atCapacity s = true
      · simpa only [launchAttempts, if_pos full] using Retraced.full full
      by_cases ready : s.isReady task = true
      · cases ends : launchTask scheduler deadline now submit onEvent task s with
        | ok _ t =>
            rw [launchAttempts_of_ok rest full ready ends]
            exact .launched full ready ends (ih t)
        | error e t =>
            simpa only [launchAttempts, if_neg full, if_pos ready, ends] using
              Retraced.raised full ready ends
      · simpa only [launchAttempts, if_neg full, if_neg ready] using
          Retraced.blocked full ready (ih s)

variable {rest : List Task} {calls : List (Attempt α)}

/-- The loop only calls for the ready tasks, in their order. -/
theorem Retraced.sublist {begun : RunState α}
    (loop : Retraced scheduler deadline now submit onEvent rest s calls)
    (before : Narrowed begun s) :
    (calls.map Attempt.task).Sublist (rest.filter begun.isReady) := by
  induction loop with
  | nil => exact .refl _
  | full => exact List.nil_sublist _
  | raised _ ready _ =>
      rw [List.filter_cons_of_pos (before.ready _ ready)]
      exact (List.nil_sublist _).cons_cons _
  | launched _ ready ends _ ih =>
      rw [List.filter_cons_of_pos (before.ready _ ready)]
      exact (ih (before.trans (launched_of_ok ends).narrowed)).cons_cons _
  | blocked _ _ _ ih => exact (ih before).trans ((List.sublist_cons_self _ _).filter _)

/-- Each call is answered as the pool answers for its task. -/
theorem Retraced.answer (loop : Retraced scheduler deadline now submit onEvent rest s calls) :
    ∀ attempt ∈ calls, attempt.answer = submit attempt.task := by
  induction loop with
  | nil | full => simp
  | raised => simp
  | launched _ _ _ _ ih => exact List.forall_mem_cons.mpr ⟨rfl, ih⟩
  | blocked _ _ _ ih => exact ih

/-- Each call is for a task that is ready where it is made. -/
theorem Retraced.ready (loop : Retraced scheduler deadline now submit onEvent rest s calls) :
    ∀ attempt ∈ calls, attempt.state.isReady attempt.task = true := by
  induction loop with
  | nil | full => simp
  | raised _ ready _ => simpa using ready
  | launched _ ready _ _ ih => exact List.forall_mem_cons.mpr ⟨ready, ih⟩
  | blocked _ _ _ ih => exact ih

/-- The number of accepted calls. -/
def accepted (calls : List (Attempt α)) : Nat := calls.countP Attempt.isAccepted

theorem launched_length (launched : Launched submit task s t) :
    t.running.length = s.running.length + if (submit task).isAccepted then 1 else 0 := by
  have grown := congrArg List.length launched.running
  rw [List.length_map, List.length_append, List.length_map] at grown
  rw [grown]
  split <;> rfl

/-- The loop stops at the limit. -/
theorem Retraced.room {limit : Int} (limited : scheduler.maxConcurrency = some limit)
    (loop : Retraced scheduler deadline now submit onEvent rest s calls) :
    accepted calls = 0 ∨ (s.running.length + accepted calls : Int) ≤ limit := by
  have below : ∀ {s : RunState α}, ¬ scheduler.atCapacity s = true →
      (s.running.length : Int) < limit := by
    intro s room
    simpa [atCapacity, limited] using room
  induction loop with
  | nil | full => exact .inl rfl
  | raised room _ _ =>
      refine .inr ?_
      have free := below room
      simp only [accepted, List.countP_cons, List.countP_nil]
      split <;> omega
  | @launched task _ _ _ _ room _ ends _ ih =>
      refine .inr ?_
      have free := below room
      have grown := launched_length (launched_of_ok ends)
      by_cases taken : (submit task).isAccepted = true
      all_goals
        simp only [accepted, List.countP_cons, Attempt.isAccepted, taken, if_true,
          Bool.false_eq_true, if_false] at ih grown ⊢
        omega
  | blocked _ _ _ ih => exact ih

end Launch

section Exact

/-- So many running tasks reach `max_concurrency`. -/
def full (scheduler : TaskScheduler) (busy : Nat) : Bool :=
  scheduler.maxConcurrency.any fun limit : Int => decide (limit ≤ busy)

theorem atCapacity_eq (s : RunState α) :
    scheduler.atCapacity s = scheduler.full s.running.length := by
  unfold atCapacity full
  cases scheduler.maxConcurrency <;> rfl

theorem full_mono {busy more : Nat} (within : busy ≤ more) (filled : scheduler.full busy = true) :
    scheduler.full more = true := by
  obtain ⟨limit, limited, reached⟩ := (Option.any_eq_true _ _).mp filled
  refine (Option.any_eq_true _ _).mpr ⟨limit, limited, decide_eq_true ?_⟩
  have reached := of_decide_eq_true reached
  omega

/-- The tasks that the pool accepts. -/
def admitted (submit : Task → Submission) (tasks : List Task) : Nat :=
  tasks.countP fun task => (submit task).isAccepted

/-- The loop comes past the tasks `before` it: the pool fails at none, and they
do not fill `max_concurrency`. -/
structure Reachable (scheduler : TaskScheduler) (submit : Task → Submission) (busy : Nat)
    (before : List Task) : Prop where
  room : scheduler.full (busy + admitted submit before) = false
  sound : ∀ task ∈ before, ∀ text, submit task ≠ .failed text

theorem Reachable.tail {busy : Nat} {before : List Task}
    (reachable : Reachable scheduler submit busy (task :: before)) :
    Reachable scheduler submit (busy + if (submit task).isAccepted then 1 else 0) before := by
  refine ⟨?_, fun other member => reachable.sound other (List.mem_cons_of_mem _ member)⟩
  have room := reachable.room
  rwa [admitted, List.countP_cons, Nat.add_comm (List.countP _ _), ← Nat.add_assoc] at room

theorem Reachable.cons {busy : Nat} {before : List Task}
    (sound : ∀ text, submit task ≠ .failed text)
    (reachable : Reachable scheduler submit (busy + if (submit task).isAccepted then 1 else 0)
      before) : Reachable scheduler submit busy (task :: before) := by
  refine ⟨?_, List.forall_mem_cons.mpr ⟨sound, reachable.sound⟩⟩
  have room := reachable.room
  rwa [admitted, List.countP_cons, Nat.add_comm (List.countP _ _), ← Nat.add_assoc]

/-- No pending task has a result, and their ids are distinct. -/
structure Fresh (s : RunState α) : Prop where
  distinct : (s.pending.map Task.id).Nodup
  unkeyed : ∀ task ∈ s.pending, task.id ∉ s.results.keys

theorem Tracked.fresh (tracked : Tracked plan s) : Fresh s :=
  ⟨tracked.pendingDistinct, tracked.pendingOpen⟩

theorem Fresh.settle (fresh : Fresh s) (closes : Closes task result) :
    Fresh ((s.record onEvent task result).dropPending task) := by
  refine ⟨fresh.distinct.sublist (List.filter_sublist.map Task.id), ?_⟩
  intro other member key
  have kept : other ∈ s.pending ∧ other.id ≠ task.id := mem_dropPending.mp member
  obtain same | key := (mem_keys_set closes).mp key
  · exact kept.2 same
  · exact fresh.unkeyed other kept.1 key

/-- A pending task that is not ready leaves the candidates as they are. -/
theorem candidates_settle (fresh : Fresh s) (member : task ∈ s.pending)
    (blocked : s.isReady task = false) (closes : Closes task result)
    (bad : result.status ≠ .success) :
    ((s.record onEvent task result).dropPending task).candidates = s.candidates := by
  have same : ((s.record onEvent task result).dropPending task).isReady = s.isReady :=
    funext fun other => isReady_record onEvent other closes bad (fresh.unkeyed task member)
  rw [RunState.candidates, same]
  change (s.pending.filter _).filter s.isReady = s.pending.filter s.isReady
  rw [List.filter_filter]
  apply List.filter_congr
  intro other here
  by_cases equal : other.id = task.id
  · rw [List.inj_on_of_nodup_map fresh.distinct here member equal, blocked]
    rfl
  · simp [equal]

/-- Between the rounds of `_skip_blocked`, begun in `s`. -/
structure Skimmed (s : RunState α) (rest : List Task) (t : RunState α) : Prop where
  fresh : Fresh t
  queued : Queued rest t
  ready : t.isReady = s.isReady
  candidates : t.candidates = s.candidates

theorem skipTask_skimmed {rest : List Task} :
    Triple (Skimmed s (task :: rest)) (skipTask onEvent task) (fun _ => Skimmed s rest)
      (fun e _ => Raises onEvent e) := by
  refine skipTask_rule ?_ ?_ fun _ _ _ _ raised => raised.raises
  · exact fun t before _ => ⟨before.fresh, before.queued.tail, before.ready, before.candidates⟩
  · intro t error before blocks _
    have member := before.queued.waiting task List.mem_cons_self
    obtain ⟨dep, edge, bad⟩ := List.any_eq_true.mp blocks
    have blocked : t.isReady task = false := not_isReady_of_unsuccessful edge bad
    refine ⟨before.fresh.settle ⟨rfl, rfl⟩, before.queued.drop rfl, ?_, ?_⟩
    · refine .trans (funext ?_) before.ready
      intro other
      exact isReady_record onEvent other ⟨rfl, rfl⟩ (by simp) (before.fresh.unkeyed task member)
    · exact (candidates_settle before.fresh member blocked ⟨rfl, rfl⟩ (by simp)).trans
        before.candidates

theorem skipBlocked_skimmed (fresh : Fresh s) :
    Triple (fun t => t = s) (skipBlocked onEvent) (fun _ => Skimmed s [])
      (fun e _ => Raises onEvent e) := by
  apply Triple.get
  intro t begun
  subst begun
  exact (Triple.forM (I := Skimmed t) t.pending fun _ _ => skipTask_skimmed).of_entry
    ⟨fresh, ⟨fun _ h => h, fresh.distinct⟩, rfl, rfl⟩

/-- How the launch of a task ends where no pending task has a result. -/
theorem launchTask_fresh {rest : List Task} (fresh : Fresh s) (queued : Queued (task :: rest) s) :
    Triple (fun t => t = s) (launchTask scheduler deadline now submit onEvent task)
      (fun _ t => (Fresh t ∧ Queued rest t) ∧ t.isReady = s.isReady ∧
        ∀ text, submit task ≠ .failed text)
      fun e _ => Raises onEvent e ∨ ∃ text, submit task = .failed text := by
  refine Triple.bind (R := fun _ t =>
      t = { s with status := Function.update s.status task.id .running })
    (Triple.assign (by rintro _ rfl; rfl)) fun _ => ?_
  have member := queued.waiting task List.mem_cons_self
  cases answer : submit task with
  | accepted started =>
      refine Triple.assign ?_
      rintro _ rfl
      refine ⟨⟨⟨fresh.distinct.sublist (List.filter_sublist.map Task.id), ?_⟩,
        queued.drop rfl⟩, rfl, by simp⟩
      intro other here
      exact fresh.unkeyed other (List.mem_filter.mp here).1
  | saturated =>
      refine settle_spec ?_ fun _ e _ raised => .inl raised
      rintro _ rfl
      refine ⟨⟨Fresh.settle ⟨fresh.distinct, fresh.unkeyed⟩ ⟨rfl, rfl⟩, queued.drop rfl⟩,
        funext ?_, by simp⟩
      intro other
      exact isReady_record onEvent other ⟨rfl, rfl⟩ (by simp) (fresh.unkeyed task member)
  | failed text => exact Triple.throw fun _ _ => .inr ⟨text, rfl⟩

/-- The calls follow the ready tasks as far as the loop comes. -/
theorem Retraced.follows (loop : Retraced scheduler deadline now submit onEvent rest s calls)
    (fresh : Fresh s) (queued : Queued rest s) {before after : List (Attempt α)}
    {call : Attempt α} (parts : calls = before ++ call :: after) :
    ∃ later, rest.filter s.isReady = before.map Attempt.task ++ call.task :: later ∧
      Reachable scheduler submit s.running.length (before.map Attempt.task) := by
  have here : ∀ {s : RunState α}, ¬ scheduler.atCapacity s = true →
      Reachable scheduler submit s.running.length [] := by
    intro s room
    rw [atCapacity_eq] at room
    exact ⟨Bool.eq_false_iff.mpr room, by simp⟩
  induction loop generalizing before with
  | nil | full => simp at parts
  | raised room ready _ =>
      cases before with
      | nil =>
          obtain ⟨rfl, -⟩ := List.cons.inj parts
          exact ⟨_, List.filter_cons_of_pos ready, here room⟩
      | cons first before => simp at parts
  | @launched first rest s t calls room ready ends _ ih =>
      rw [List.filter_cons_of_pos ready]
      cases before with
      | nil =>
          obtain ⟨rfl, -⟩ := List.cons.inj parts
          exact ⟨_, rfl, here room⟩
      | cons head before =>
          obtain ⟨rfl, tail⟩ := List.cons.inj parts
          obtain ⟨kept, same, sound⟩ := (launchTask_fresh fresh queued).of_ok rfl ends
          obtain ⟨later, listed, reachable⟩ := ih kept.1 kept.2 tail
          rw [launched_length (launched_of_ok ends)] at reachable
          rw [same] at listed
          exact ⟨later, congrArg (first :: ·) listed, reachable.cons sound⟩
  | blocked room blocked later ih =>
      rw [List.filter_cons_of_neg blocked]
      exact ih fresh queued.tail parts

/-- Behind a callback that does not raise, the loop calls for every ready task
that it comes to. -/
theorem Retraced.exact (calm : ∀ e, ¬ Raises onEvent e)
    (loop : Retraced scheduler deadline now submit onEvent rest s calls)
    (fresh : Fresh s) (queued : Queued rest s) {before after : List Task}
    (parts : rest.filter s.isReady = before ++ task :: after)
    (reachable : Reachable scheduler submit s.running.length before) :
    ∃ later, calls.map Attempt.task = before ++ task :: later := by
  induction loop generalizing before with
  | nil => simp at parts
  | full filled =>
      rw [atCapacity_eq] at filled
      have free := reachable.room
      rw [full_mono (Nat.le_add_right _ _) filled] at free
      cases free
  | @raised first rest s t e room ready ends =>
      rw [List.filter_cons_of_pos ready] at parts
      cases before with
      | nil =>
          obtain ⟨rfl, -⟩ := List.cons.inj parts
          exact ⟨[], rfl⟩
      | cons head before =>
          obtain ⟨rfl, -⟩ := List.cons.inj parts
          have raised := (launchTask_fresh fresh queued).of_error rfl ends
          obtain ⟨text, failed⟩ := raised.resolve_left (calm e)
          exact absurd failed (reachable.sound first List.mem_cons_self text)
  | @launched first rest s t calls room ready ends later ih =>
      rw [List.filter_cons_of_pos ready] at parts
      cases before with
      | nil =>
          obtain ⟨rfl, -⟩ := List.cons.inj parts
          exact ⟨calls.map Attempt.task, rfl⟩
      | cons head before =>
          obtain ⟨rfl, tail⟩ := List.cons.inj parts
          obtain ⟨kept, same, -⟩ := (launchTask_fresh fresh queued).of_ok rfl ends
          have behind := reachable.tail
          rw [← launched_length (launched_of_ok ends)] at behind
          obtain ⟨more, listed⟩ := ih kept.1 kept.2 (same ▸ tail) behind
          exact ⟨more, congrArg (first :: ·) listed⟩
  | blocked room blocked later ih =>
      rw [List.filter_cons_of_neg blocked] at parts
      exact ih fresh queued.tail parts reachable

end Exact

section Pass

variable {pass : Pass α} {event : Event α}

/-- The calls of a pass are those of a loop that begins behind the skips. -/
theorem passAttempts_cases (scheduler : TaskScheduler) (deadline : Option ℚ) (pass : Pass α)
    (s : RunState α) :
    passAttempts scheduler deadline pass s = [] ∨
      passed deadline pass.now = false ∧ ∃ t, skipBlocked pass.onEvent s = .ok () t ∧
        Narrowed s t ∧ t.running = s.running ∧
        Retraced scheduler deadline pass.now pass.submit pass.onEvent t.pending t
          (passAttempts scheduler deadline pass s) := by
  by_cases drained : (s.pending.isEmpty && s.running.isEmpty) = true
  · exact .inl (by simp only [passAttempts, if_pos drained])
  cases ends : skipBlocked pass.onEvent s with
  | error e t => exact .inl (by simp only [passAttempts, if_neg drained, ends])
  | ok _ t =>
      by_cases late : passed deadline pass.now = true
      · exact .inl (by simp only [passAttempts, if_neg drained, ends, if_pos late])
      have skips := skipBlocked_narrowed.of_ok rfl ends
      refine .inr ⟨Bool.eq_false_iff.mpr late, t, rfl, skips.1, skips.2, ?_⟩
      simpa only [passAttempts, if_neg drained, ends, if_neg late] using
        retraced scheduler deadline pass.now pass.submit pass.onEvent t.pending t

theorem conclude_started {after : ℚ} {calls : List (Attempt α)} (started : Started s calls t) :
    Triple (fun u => u = t) (conclude deadline after) (fun _ => Started s calls)
      fun _ _ => True := by
  apply Triple.get
  intro u begun
  subst begun
  exact Triple.ite (fun _ => Triple.throw fun _ _ => trivial) fun _ =>
    Triple.assign fun _ _ => ⟨started.running, started.pending⟩

/-- The pass retraced. -/
theorem passBody_started : Triple (fun t => t = s) (passBody scheduler deadline pass)
    (fun _ => Started s (passAttempts scheduler deadline pass s)) fun _ _ => True := by
  apply Triple.get
  intro t begun
  subst begun
  refine Triple.ite ?_ ?_
  · intro drained
    simpa only [passAttempts, if_pos drained] using conclude_started (.none t)
  intro open_
  refine Triple.bind ((Triple.outcome.and skipBlocked_narrowed).imp_raised fun _ _ _ => trivial)
    fun _ => Triple.entry ?_
  rintro u ⟨ends, narrowed, running⟩
  refine Triple.bind (R := fun _ => Started t (passAttempts scheduler deadline pass t)) ?_
    fun _ => Triple.get ?_
  · refine Triple.ite (fun _ => Triple.throw fun _ _ => trivial) fun early => Triple.get ?_
    intro w begun
    subst begun
    simp only [passAttempts, if_neg open_, ends, if_neg early]
    refine (launchLoop_started w.pending).conseq (fun _ h => h) ?_ fun _ _ _ => trivial
    intro _ v started
    exact ⟨running ▸ started.running, started.pending.trans narrowed.pending⟩
  · intro v started
    refine Triple.ite (fun _ => Triple.ite (fun _ => conclude_started started)
      fun _ => Triple.throw fun _ _ => trivial) fun _ => Triple.assign fun _ _ => ?_
    exact ⟨started.running, started.pending⟩

theorem passAttempts_sublist (scheduler : TaskScheduler) (deadline : Option ℚ) (pass : Pass α)
    (s : RunState α) :
    ((passAttempts scheduler deadline pass s).map Attempt.task).Sublist s.candidates := by
  obtain none_ | ⟨-, t, -, narrowed, -, loop⟩ := passAttempts_cases scheduler deadline pass s
  · rw [none_]
    exact List.nil_sublist _
  · exact (loop.sublist narrowed).trans narrowed.candidates

theorem passAttempts_room {limit : Int} (limited : scheduler.maxConcurrency = some limit)
    (deadline : Option ℚ) (pass : Pass α) (s : RunState α) :
    accepted (passAttempts scheduler deadline pass s) = 0 ∨
      (s.running.length + accepted (passAttempts scheduler deadline pass s) : Int) ≤ limit := by
  obtain none_ | ⟨-, t, -, -, same, loop⟩ := passAttempts_cases scheduler deadline pass s
  · exact .inl (by rw [none_]; rfl)
  · rw [← same]
    exact loop.room limited

/-- The calls of a pass follow its candidates, as far as its loop comes. -/
theorem passAttempts_follows (fresh : Fresh s) {before after : List (Attempt α)}
    {call : Attempt α}
    (parts : passAttempts scheduler deadline pass s = before ++ call :: after) :
    ∃ later, s.candidates = before.map Attempt.task ++ call.task :: later ∧
      Reachable scheduler pass.submit s.running.length (before.map Attempt.task) := by
  obtain none_ | ⟨-, t, ends, -, same, loop⟩ := passAttempts_cases scheduler deadline pass s
  · simp [none_] at parts
  have skimmed := (skipBlocked_skimmed fresh).of_ok rfl ends
  rw [← skimmed.candidates, ← same]
  exact loop.follows skimmed.fresh ⟨fun _ h => h, skimmed.fresh.distinct⟩ parts

/-- The loop of `_launch_ready` may come past these candidates. Where a pending
task has a result, which only a `run_task` that names another task than its own
leaves behind, a round of the loop may take the candidates behind it away, and
with them what fills `max_concurrency`. -/
def MayCome (scheduler : TaskScheduler) (submit : Task → Submission) (s : RunState α)
    (before : List Task) : Prop :=
  ¬ Fresh s ∨ Reachable scheduler submit s.running.length before

/-- The candidates before the one that a call is for include those called for
before, and the loop may come past them. -/
theorem passAttempts_behind {before after : List (Attempt α)} {call : Attempt α}
    (parts : passAttempts scheduler deadline pass s = before ++ call :: after) :
    ∃ ahead later, s.candidates = ahead ++ call.task :: later ∧
      (before.map Attempt.task).Sublist ahead ∧ MayCome scheduler pass.submit s ahead := by
  by_cases fresh : Fresh s
  · obtain ⟨later, listed, reachable⟩ := passAttempts_follows fresh parts
    exact ⟨_, later, listed, .refl _, .inr reachable⟩
  · have among := passAttempts_sublist scheduler deadline pass s
    rw [parts, List.map_append, List.map_cons] at among
    obtain ⟨first, second, listed, left, right⟩ := List.append_sublist_iff.mp among
    obtain ⟨more, later, rfl, found, -⟩ := List.cons_sublist_iff.mp right
    obtain ⟨between, behind, rfl⟩ := List.append_of_mem found
    refine ⟨first ++ between, behind ++ later, by rw [listed]; simp, ?_, .inl fresh⟩
    exact left.trans (List.sublist_append_left _ _)

/-- Behind a callback that does not raise, a pass before the deadline calls for
every candidate that its loop comes to. -/
theorem passAttempts_exact (calm : ∀ e, ¬ Raises pass.onEvent e) (fresh : Fresh s)
    (early : passed deadline pass.now = false) {before after : List Task}
    (parts : s.candidates = before ++ task :: after)
    (reachable : Reachable scheduler pass.submit s.running.length before) :
    ∃ later, (passAttempts scheduler deadline pass s).map Attempt.task =
      before ++ task :: later := by
  have open_ : ¬ (s.pending.isEmpty && s.running.isEmpty) = true := by
    intro drained
    have none_ : s.pending = [] := List.isEmpty_iff.mp (Bool.and_eq_true_iff.mp drained).1
    simp [RunState.candidates, none_] at parts
  cases ends : skipBlocked pass.onEvent s with
  | error e t => exact absurd ((skipBlocked_skimmed fresh).of_error rfl ends) (calm e)
  | ok _ t =>
      have skimmed := (skipBlocked_skimmed fresh).of_ok rfl ends
      have same := (skipBlocked_narrowed.of_ok rfl ends).2
      have late : ¬ passed deadline pass.now = true := Bool.eq_false_iff.mp early
      have loop := retraced scheduler deadline pass.now pass.submit pass.onEvent t.pending t
      simp only [passAttempts, if_neg open_, ends, if_neg late]
      rw [← skimmed.candidates] at parts
      rw [← same] at reachable
      exact loop.exact calm skimmed.fresh ⟨fun _ h => h, skimmed.fresh.distinct⟩ parts reachable

theorem attempts_answer {attempt : Attempt α}
    (member : attempt ∈ passAttempts scheduler deadline pass s) :
    attempt.answer = pass.submit attempt.task := by
  obtain none_ | ⟨-, t, -, -, -, loop⟩ := passAttempts_cases scheduler deadline pass s
  · rw [none_] at member
    cases member
  · exact loop.answer attempt member

/-- Some call of the pass is the one for that candidate. -/
theorem passAttempts_at (calm : ∀ e, ¬ Raises pass.onEvent e) (fresh : Fresh s)
    (early : passed deadline pass.now = false) {ahead later : List Task}
    (parts : s.candidates = ahead ++ task :: later)
    (reachable : Reachable scheduler pass.submit s.running.length ahead) :
    ∃ before call after, passAttempts scheduler deadline pass s = before ++ call :: after ∧
      before.map Attempt.task = ahead ∧ call.task = task := by
  obtain ⟨more, listed⟩ := passAttempts_exact calm fresh early parts reachable
  obtain ⟨before, others, whole, same, rest⟩ := List.map_eq_append_iff.mp listed
  obtain ⟨call, after, rfl, named, -⟩ := List.map_eq_cons_iff.mp rest
  exact ⟨before, call, after, whole, same, named⟩

theorem passAttempts_early {call : Attempt α}
    (member : call ∈ passAttempts scheduler deadline pass s) :
    passed deadline pass.now = false := by
  obtain none_ | ⟨early, -⟩ := passAttempts_cases scheduler deadline pass s
  · rw [none_] at member
    cases member
  · exact early

/-- The calls are answered as the pool answers for their tasks. -/
theorem accepted_eq {calls : List (Attempt α)}
    (answers : ∀ call ∈ calls, call.answer = pass.submit call.task) :
    accepted calls = admitted pass.submit (calls.map Attempt.task) := by
  rw [accepted, admitted, List.countP_map]
  apply List.countP_congr
  intro call member
  simp [Attempt.isAccepted, answers call member]

end Pass

end TaskScheduler

end MultiAgent.Plugin
