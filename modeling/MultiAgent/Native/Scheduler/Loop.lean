import MultiAgent.Native.Scheduler.Slots

/-!
# The wake-up and the exits of the loop

While the loop waits, exactly one thing is there to wake it: an unresolved
promise, or a microtask that resumes it. `Loop` states this together with what
holds at the two exits, and `Sound` is the whole invariant of a run.
-/

namespace MultiAgent.Native.Scheduler

open Relation

structure Loop (g : TaskGraph) (s : RunState) : Prop where
  wakes : s.jobs.count .resume + s.awaiting.toNat = if s.control = .waiting then 1 else 0
  busy : s.awaiting = true → s.inFlight ≠ []
  unaborted : s.awaiting = true → s.aborted = false
  observed : s.stopped = true → s.aborted = true
  going : s.control ≠ .looping → s.active = true → s.stopped = false
  launchable : ∀ task rest, s.control = .calling task rest → Launchable g s.status rest
  complete : ∀ r, s.control = .returned r → r = report g s ∧ g.isComplete s.status = true

variable {sch : Scheduler} {g : TaskGraph} {gives : Task → Settlement → Prop} {s t : RunState}

theorem Loop.awaiting_eq_false (loop : Loop g s) (elsewhere : s.control ≠ .waiting) :
    s.awaiting = false := by
  have wakes := loop.wakes
  rw [if_neg elsewhere] at wakes
  cases h : s.awaiting with
  | false => rfl
  | true => simp [h] at wakes

theorem Loop.initial (g : TaskGraph) (status : TaskGraph.Statuses) (signalAborted : Bool) :
    Loop g (initial status signalAborted) := by
  constructor <;> simp [Scheduler.initial]

@[simp] theorem wake_awaiting (s : RunState) : (wake s).awaiting = false := by
  rw [wake]
  by_cases h : s.awaiting = true <;> simp [h]

theorem wake_count (s : RunState) :
    (wake s).jobs.count .resume = s.jobs.count .resume + s.awaiting.toNat := by
  rw [wake]
  by_cases h : s.awaiting = true <;> simp [h]

theorem Launchable.start {task : Task} {rest : List Task}
    (launchable : Launchable g s.status (task :: rest)) :
    Launchable g (start s task rest).status rest := by
  obtain ⟨member, pending, -⟩ := TaskGraph.mem_ready.mp (launchable.ready task (by simp))
  have fresh : task.id ∉ rest.map Task.id := (List.nodup_cons.mp launchable.distinct).1
  refine ⟨launchable.tail.distinct, ?_⟩
  intro other ho
  obtain ⟨member', pending', completed⟩ := TaskGraph.mem_ready.mp (launchable.tail.ready other ho)
  have apart : other.id ≠ task.id := fun h => fresh (h ▸ List.mem_map_of_mem ho)
  refine TaskGraph.mem_ready.mpr ⟨member', by simp [Scheduler.start, apart, pending'], ?_⟩
  simp only [TaskGraph.depsCompleted, List.all_eq_true, Bool.and_eq_true,
    decide_eq_true_eq] at completed ⊢
  intro dep hd
  have done := (completed dep hd).2
  have other' : dep ≠ task.id := by
    rintro rfl
    simp [pending] at done
  exact ⟨(completed dep hd).1, by simp [Scheduler.start, other', done]⟩

theorem teardownTask_status (s : RunState) (task : Task) :
    (teardownTask s task).status = fun id =>
      if id = task.id ∧ isTerminalStatus (s.status id) = false then .cancelled
      else s.status id := by
  funext id
  rw [teardownTask]
  by_cases terminal : isTerminalStatus (s.status task.id) = true
  · rw [if_pos terminal, if_neg]
    rintro ⟨rfl, opened⟩
    simp [terminal] at opened
  · rw [if_neg terminal]
    by_cases same : id = task.id
    · simp [same, cancelBlocked, terminal]
    · simp [same, cancelBlocked]

/-- The teardown cancels exactly the tasks that are not terminal. -/
theorem teardown_status (g : TaskGraph) (s : RunState) :
    (teardown g s).status = fun id =>
      if id ∈ g.ids ∧ isTerminalStatus (s.status id) = false then .cancelled else s.status id := by
  rw [teardown, TaskGraph.ids]
  generalize g.tasks = l
  induction l generalizing s with
  | nil => simp
  | cons task l ih =>
      rw [List.foldl_cons, ih, teardownTask_status]
      funext id
      by_cases opened : isTerminalStatus (s.status id) = false
      · by_cases same : id = task.id
        · subst same
          simp [opened]
        · simp [same, opened]
      · simp [opened]

theorem teardown_complete (g : TaskGraph) (s : RunState) :
    g.isComplete (teardown g s).status = true := by
  apply TaskGraph.isComplete_iff.mpr
  intro task member
  rw [teardown_status]
  have known := TaskGraph.id_mem_ids member
  by_cases opened : isTerminalStatus (s.status task.id) = false
  · simp only [known, opened, and_self, if_true]
    rfl
  · simp [opened]

theorem Loop.leave (loop : Loop g s) (control : s.control = .looping)
    (done : (s.running = ∅ ∧ g.isComplete s.status = true) ∨ s.stopped = true) :
    Loop g (leave g s) := by
  have awaiting := loop.awaiting_eq_false (by simp [control])
  have wakes := loop.wakes
  refine ⟨?_, by simp [awaiting], by simp [awaiting], by simpa using loop.observed, ?_, ?_, ?_⟩
  · rw [leave_jobs, leave_awaiting]
    simpa [control, Scheduler.leave] using wakes
  · simp [Scheduler.leave, RunState.active]
  · simp [Scheduler.leave]
  · rintro r ⟨⟩
    refine ⟨rfl, ?_⟩
    rw [Scheduler.leave]
    by_cases stopping : s.stopped = true
    · simpa [stopping] using teardown_complete g s
    · simpa [stopping] using (done.resolve_right stopping).2

@[simp] theorem settle_control (s : RunState) (task : Task) (outcome : TaskOutcome) :
    (settle s task outcome).control = s.control := by
  unfold settle; split <;> simp [release]

@[simp] theorem settle_stopped (s : RunState) (task : Task) (outcome : TaskOutcome) :
    (settle s task outcome).stopped = s.stopped := by
  unfold settle; split <;> simp [release]

@[simp] theorem settle_aborted (s : RunState) (task : Task) (outcome : TaskOutcome) :
    (settle s task outcome).aborted = s.aborted := by
  unfold settle; split <;> simp [release]

@[simp] theorem settle_awaiting (s : RunState) (task : Task) (outcome : TaskOutcome) :
    (settle s task outcome).awaiting = false := by
  unfold settle; split <;> simp

theorem settle_count (s : RunState) (task : Task) (outcome : TaskOutcome) :
    (settle s task outcome).jobs.count .resume = s.jobs.count .resume + s.awaiting.toNat := by
  unfold settle; split <;> simp [wake_count, release]

/-- The settlement of a task that is not running any more is dropped. -/
theorem settle_report {task : Task} (g : TaskGraph) (outcome : TaskOutcome)
    (late : s.status task.id ≠ .running) :
    (settle s task outcome).status = s.status ∧ report g (settle s task outcome) = report g s := by
  rw [settle]
  rw [if_pos late]
  simp [report, release]

theorem Loop.settle {task : Task} {settlement : Settlement} {rest : List Job} (loop : Loop g s)
    (known : task ∈ g.tasks) (outside : ∀ t r, s.control ≠ .calling t r)
    (jobs : s.jobs = .settle task settlement :: rest) :
    Loop g (settle { s with jobs := rest } task (settlement.outcome task)) := by
  have wakes := loop.wakes
  simp only [jobs, List.count_cons, reduceCtorEq, beq_iff_eq, if_false, Nat.add_zero] at wakes
  refine ⟨?_, by simp, by simp, by simpa using loop.observed, ?_, ?_, ?_⟩
  · simpa [settle_count] using wakes
  · simpa [RunState.active] using loop.going
  · intro other l control
    rw [settle_control] at control
    exact absurd control (outside other l)
  · intro r control
    rw [settle_control] at control
    obtain ⟨same, complete⟩ := loop.complete r control
    have late : s.status task.id ≠ .running := by
      intro running
      have terminal := TaskGraph.isComplete_iff.mp complete task known
      simp [running, isTerminalStatus] at terminal
    obtain ⟨status, unchanged⟩ :=
      settle_report (s := { s with jobs := rest }) g (settlement.outcome task) late
    exact ⟨same.trans unchanged.symm, by rw [status]; exact complete⟩

/-- Every action keeps the wake-up and what holds at the exits. -/
theorem Loop.action (slots : Slots sch g s) (loop : Loop g s) (action : Action sch g gives s t) :
    Loop g t := by
  have wakes := loop.wakes
  cases action with
  | @resume rest control jobs =>
      rw [if_pos control, jobs, List.count_cons_self] at wakes
      have quiet : s.awaiting.toNat = 0 := by omega
      have awaiting : s.awaiting = false := by simpa using quiet
      refine ⟨?_, ?_, ?_, loop.observed, ?_, ?_, ?_⟩
      · simp only [reduceCtorEq, if_false]
        omega
      all_goals simp [awaiting]
  | cancel reason control member pending edge failed =>
      have awaiting := loop.awaiting_eq_false (by simp [control])
      refine ⟨wakes, ?_, ?_, loop.observed, ?_, ?_, ?_⟩
      all_goals simp [cancelBlocked, awaiting, control]
  | observe control =>
      have awaiting := loop.awaiting_eq_false (by simp [control])
      refine ⟨wakes, ?_, ?_, ?_, ?_, ?_, ?_⟩
      · simp [stoppedNow, awaiting]
      · simp [stoppedNow, awaiting]
      · simp only [stoppedNow_stopped, stoppedNow_aborted, Bool.or_eq_true]
        exact fun h => h.elim loop.observed id
      all_goals simp [control]
  | start control going launchable capacity idle =>
      have awaiting := loop.awaiting_eq_false (by simp [control])
      refine ⟨?_, ?_, ?_, loop.observed, fun _ _ => going, ?_, ?_⟩
      · simpa [Scheduler.start, control] using wakes
      · simp [Scheduler.start, awaiting]
      · simp [Scheduler.start, awaiting]
      · rintro other l ⟨⟩
        exact launchable.start
      · simp [Scheduler.start]
  | wait control busy going unaborted =>
      have awaiting := loop.awaiting_eq_false (by simp [control])
      have exact' := slots.exact (by simp [RunState.active, control])
      have flying : s.inFlight ≠ [] := by
        intro empty
        exact busy (by rw [exact'.running, empty]; rfl)
      refine ⟨?_, fun _ => ?_, fun _ => unaborted, loop.observed, fun _ _ => going, ?_, ?_⟩
      · simpa [control, awaiting] using wakes
      · simpa [RunState.inFlight, control, Control.opened] using flying
      all_goals simp
  | leave control done => exact loop.leave control done
  | stall control idle incomplete going unaborted =>
      have awaiting := loop.awaiting_eq_false (by simp [control])
      refine ⟨?_, ?_, ?_, loop.observed, ?_, ?_, ?_⟩
      · simpa [control] using wakes
      all_goals simp [awaiting, RunState.active]
  | @ret task rest settled control given =>
      have awaiting := loop.awaiting_eq_false (by simp [control])
      refine ⟨?_, ?_, ?_, ?_, ?_, ?_, ?_⟩
      · cases settled <;> simpa [attach, control] using wakes
      all_goals cases settled <;> simp [attach, awaiting]
      all_goals exact loop.observed
  | throwSync message control =>
      have awaiting := loop.awaiting_eq_false (by simp [control])
      refine ⟨?_, ?_, ?_, loop.observed, ?_, ?_, ?_⟩
      · simpa [control] using wakes
      all_goals simp [awaiting, RunState.active]
  | resolve settlement member given =>
      refine ⟨?_, ?_, loop.unaborted, loop.observed, loop.going, loop.launchable, loop.complete⟩
      · simpa using wakes
      · intro h empty
        have same := resolve_inFlight settlement member
        rw [empty] at same
        exact loop.busy h same.symm.eq_nil
  | abort active first =>
      refine ⟨?_, ?_, ?_, ?_, ?_, ?_, ?_⟩
      · simpa [Scheduler.abort, wake_count] using wakes
      · simp [Scheduler.abort]
      · simp [Scheduler.abort]
      · simp [Scheduler.abort]
      · simpa [Scheduler.abort, RunState.active] using loop.going
      · simpa [Scheduler.abort] using loop.launchable
      · intro r control
        simp only [Scheduler.abort, wake_control] at control
        simp [RunState.active, control] at active
  | settle outside jobs =>
      exact loop.settle (slots.mem_of_job (by rw [jobs]; exact List.mem_cons_self)) outside jobs

/-- The invariant of a run. -/
structure Sound (sch : Scheduler) (g : TaskGraph) (s : RunState) : Prop where
  ledger : Ledger g s
  slots : Slots sch g s
  loop : Loop g s

theorem Sound.initial (sch : Scheduler) (g : TaskGraph) {status : TaskGraph.Statuses}
    (signalAborted : Bool) (fresh : ∀ task ∈ g.tasks, status task.id = .pending) :
    Sound sch g (initial status signalAborted) :=
  ⟨.initial g signalAborted fresh, .initial sch g signalAborted fresh,
    .initial g status signalAborted⟩

/-- Without a condition on the settlements, every queued one is allowed. -/
theorem Sound.entries (sound : Sound sch g s) (action : Action sch g gives s t) :
    ReflTransGen (Entry g fun _ _ => True) s t :=
  (action.mono fun _ _ _ => trivial).entries
    fun _ _ queued => ⟨sound.slots.mem_of_job queued, trivial⟩

theorem Sound.action (valid : g.Validated) (sound : Sound sch g s)
    (action : Action sch g gives s t) : Sound sch g t := by
  refine ⟨?_, sound.slots.action action, sound.loop.action sound.slots action⟩
  have entries := sound.entries action
  clear action
  induction entries with
  | refl => exact sound.ledger
  | tail _ entry ih => exact ih.entry valid entry

theorem Sound.actions (valid : g.Validated) (sound : Sound sch g s)
    (actions : ReflTransGen (Action sch g gives) s t) : Sound sch g t := by
  induction actions with
  | refl => exact sound
  | tail _ action ih => exact ih.action valid action

theorem Sound.open (sound : Sound sch g s) : Open g s := by
  refine ⟨fun task rest control => ⟨sound.loop.launchable task rest control, ?_⟩, ?_⟩
  · exact sound.loop.going (by simp [control]) (by simp [RunState.active, control])
  · intro queued
    by_contra elsewhere
    have wakes := sound.loop.wakes
    rw [if_neg elsewhere] at wakes
    have positive := List.count_pos_iff.mpr queued
    omega

end MultiAgent.Native.Scheduler
