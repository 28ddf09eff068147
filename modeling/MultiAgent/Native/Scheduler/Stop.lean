import Mathlib.Data.List.TakeWhile
import MultiAgent.Native.Scheduler.Outcomes
import MultiAgent.Native.Scheduler.Progress

/-!
# Stopping a run

An abort that finds the loop waiting lets it resume once more, and that pass
launches nothing and cancels whatever is not terminal by then. The outcomes
recorded before, and the settlements queued ahead of the pass, are kept. What
settles later finds no running task and changes nothing.
-/

namespace MultiAgent.Native.Scheduler

open Relation

variable {sch : Scheduler} {g : TaskGraph} {s t u : RunState}
variable {status : TaskGraph.Statuses} {signalAborted : Bool} {es : List Event}

/-- The settlements queued ahead of the next pass of the loop. -/
def ahead (s : RunState) : List Job := s.jobs.takeWhile fun job => decide (job ≠ .resume)

/-- The outcome that a queued settlement gives to the task `id`. -/
def Job.outcomeOf (id : String) : Job → Option TaskOutcome
  | .settle task settlement => if task.id = id then some (settlement.outcome task) else none
  | .resume => none

/-- What the task `id` has before the next pass of the loop: its recorded
outcome, or that of a settlement queued ahead of the pass. -/
def kept (s : RunState) (id : String) : Option TaskOutcome :=
  if isTerminalStatus (s.status id) then s.outcomes id
  else (ahead s).findSome? (Job.outcomeOf id)

/-- The recorded outcome of a terminal task. -/
def recorded (s : RunState) (id : String) : Option TaskOutcome :=
  if isTerminalStatus (s.status id) then s.outcomes id else none

/-- The task ended with what it had, or was cancelled when it had nothing. -/
def Ended (before : String → Option TaskOutcome) (t : RunState) (task : Task) : Prop :=
  ∃ outcome, t.outcomes task.id = some outcome ∧
    t.status task.id = outcome.status.toTaskStatus ∧
    (before task.id = some outcome ∨ before task.id = none ∧ outcome.status = .cancelled)

theorem stoppedNow_of_stopped (stopping : s.stopped = true) : stoppedNow s = s := by
  cases s
  subst stopping
  rfl

/-- The pass of an aborted run launches nothing and leaves the loop. -/
theorem iterate_of_aborted (aborted : s.aborted = true) :
    iterate sch g s = leave g (stoppedNow (cascade g s)) := by
  have stopping : (stoppedNow (cascade g s)).stopped = true := by simp [aborted]
  unfold iterate
  dsimp only
  rw [if_pos stopping]
  rw [conclude]
  rw [stoppedNow_of_stopped stopping]
  dsimp only
  rw [if_pos stopping]
  split
  · split <;> rfl
  · rfl

theorem iterate_of_aborted_status (aborted : s.aborted = true) {task : Task}
    (member : task ∈ g.tasks) (opened : isTerminalStatus (s.status task.id) = false) :
    (iterate sch g s).status task.id = .cancelled := by
  have stopping : (stoppedNow (cascade g s)).stopped = true := by simp [aborted]
  rw [iterate_of_aborted aborted]
  simp only [leave, stopping, if_true, teardown_status, stoppedNow_status, cascade_status]
  have known := TaskGraph.id_mem_ids member
  by_cases dropped : task.id ∈ cancelled g s <;> simp [known, dropped, opened]

/-- The pass of an aborted run: what is terminal stays, the rest is cancelled. -/
theorem Sound.aborted_pass (valid : g.Validated) (sound : Sound sch g s)
    (control : s.control = .looping) (aborted : s.aborted = true) :
    (iterate sch g s).executed = s.executed ∧
      (∃ r, (iterate sch g s).control = .returned r ∧ r.stopped = true) ∧
      ∀ task ∈ g.tasks, Ended (recorded s) (iterate sch g s) task := by
  have left : iterate sch g s = leave g (stoppedNow (cascade g s)) := iterate_of_aborted aborted
  have actions : ReflTransGen (Action sch g fun _ _ => True) s (iterate sch g s) :=
    iterate_actions control
  have ledger := (sound.actions valid actions).ledger
  have settled := sound.settled valid actions
  refine ⟨?_, ?_, ?_⟩
  · rw [left, leave_executed]
    exact cascade_keeps RunState.executed (fun _ _ _ => rfl) g s
  · rw [left]
    exact ⟨_, rfl, by simp [report, aborted]⟩
  · intro task member
    by_cases terminal : isTerminalStatus (s.status task.id) = true
    · obtain ⟨outcome, found⟩ :=
        Option.isSome_iff_exists.mp (sound.ledger.recorded task member terminal)
      have found' := (settled.2.1 task member terminal).trans found
      refine ⟨outcome, found', (ledger.agrees task member outcome found').symm, .inl ?_⟩
      rw [recorded, if_pos terminal, found]
    · have opened : isTerminalStatus (s.status task.id) = false := by simpa using terminal
      have cancelled : (iterate sch g s).status task.id = .cancelled :=
        iterate_of_aborted_status aborted member opened
      obtain ⟨outcome, found⟩ := Option.isSome_iff_exists.mp
        (ledger.recorded task member (by rw [cancelled]; rfl))
      have agrees := ledger.agrees task member outcome found
      refine ⟨outcome, found, agrees.symm, .inr ⟨by rw [recorded, if_neg terminal], ?_⟩⟩
      exact toTaskStatus_injective (agrees.trans cancelled)

theorem Loop.awaiting_of_aborted (loop : Loop g s) (aborted : s.aborted = true) :
    s.awaiting = false := by
  cases awaiting : s.awaiting with
  | false => rfl
  | true => simp [loop.unaborted awaiting] at aborted

theorem Loop.resume_mem (loop : Loop g s) (waiting : s.control = .waiting)
    (aborted : s.aborted = true) : .resume ∈ s.jobs := by
  have wakes := loop.wakes
  rw [if_pos waiting, loop.awaiting_of_aborted aborted] at wakes
  have one : s.jobs.count .resume = 1 := by simpa using wakes
  apply List.count_pos_iff.mp
  omega

theorem kept_resolve {task : Task} (settlement : Settlement) (queued : .resume ∈ s.jobs) :
    kept { s with unsettled := s.unsettled.erase task
                  jobs := s.jobs ++ [.settle task settlement] } = kept s := by
  have same : ahead { s with unsettled := s.unsettled.erase task
                             jobs := s.jobs ++ [.settle task settlement] } = ahead s := by
    unfold ahead
    dsimp only
    rw [List.takeWhile_append, if_neg]
    intro whole
    have all := (List.takeWhile_prefix _).eq_of_length whole
    have inside := List.mem_takeWhile_imp (all ▸ queued)
    simp at inside
  funext id
  simp only [kept, same]

/-- A settlement that is handled ahead of the pass becomes the recorded one. -/
theorem kept_settle {task : Task} {settlement : Settlement} {rest : List Job}
    (sound : Sound sch g s) (waiting : s.control = .waiting) (aborted : s.aborted = true)
    (jobs : s.jobs = .settle task settlement :: rest) :
    ∀ other ∈ g.tasks,
      kept (settle { s with jobs := rest } task (settlement.outcome task)) other.id =
        kept s other.id := by
  intro other member
  have known := sound.slots.mem_of_job (by rw [jobs]; exact List.mem_cons_self)
  have flying : task ∈ s.inFlight := by
    simp only [RunState.inFlight, List.mem_append]
    exact .inr (.inr (mem_settling.mpr ⟨settlement, by rw [jobs]; exact List.mem_cons_self⟩))
  have exact' := sound.slots.exact (by simp [RunState.active, waiting])
  have running := (exact'.status task known).mpr flying
  have first : ahead s = .settle task settlement :: ahead { s with jobs := rest } := by
    simp [ahead, jobs]
  have later : ahead (settle { s with jobs := rest } task (settlement.outcome task)) =
      ahead { s with jobs := rest } := by
    simp [ahead, settle, running, wake, release, sound.loop.awaiting_of_aborted aborted]
  by_cases same : other = task
  · subst same
    have recorded :
        kept (settle { s with jobs := rest } other (settlement.outcome other)) other.id =
        some (settlement.outcome other) := by
      simp [kept, settle, running]
    have queued : kept s other.id = some (settlement.outcome other) := by
      simp [kept, running, isTerminalStatus, first, Job.outcomeOf]
    rw [recorded, queued]
  · have apart : other.id ≠ task.id := fun h => same (TaskGraph.eq_of_id_eq member known h)
    have statusKept :
        (settle { s with jobs := rest } task (settlement.outcome task)).status other.id =
        s.status other.id := by
      simp [settle, running, apart]
    have outcomeKept : (settle { s with jobs := rest } task
        (settlement.outcome task)).outcomes other.id = s.outcomes other.id := by
      simp [settle, running, apart]
    simp [kept, statusKept, outcomeKept, later, first, Job.outcomeOf, Ne.symm apart]

/-- The loop of an aborted run still waits for its last pass. -/
structure Stopping (g : TaskGraph) (before : String → Option TaskOutcome) (launched : List String)
    (t : RunState) : Prop where
  executed : t.executed = launched
  waiting : t.control = .waiting
  aborted : t.aborted = true
  keeps : ∀ task ∈ g.tasks, kept t task.id = before task.id

/-- The aborted run has resolved. -/
structure Stopped (g : TaskGraph) (before : String → Option TaskOutcome) (launched : List String)
    (t : RunState) : Prop where
  executed : t.executed = launched
  returned : ∃ r, t.control = .returned r ∧ r.stopped = true
  ended : ∀ task ∈ g.tasks, Ended before t task

variable {before : String → Option TaskOutcome} {launched : List String}

theorem Stopping.step {e : Event} (valid : g.Validated) (sound : Sound sch g s)
    (stopping : Stopping g before launched s) (transition : step sch g s e = some t) :
    Stopping g before launched t ∨ Stopped g before launched t := by
  obtain ⟨executed, waiting, aborted, keeps⟩ := stopping
  cases Transition.of_step transition with
  | ret settled control => simp [waiting] at control
  | throwSync message control => simp [waiting] at control
  | resolve settlement member =>
      refine .inl ⟨executed, waiting, aborted, ?_⟩
      intro task h
      rw [kept_resolve settlement (sound.loop.resume_mem waiting aborted)]
      exact keeps task h
  | abort active first => simp [aborted] at first
  | settle outside jobs =>
      refine .inl ⟨by simpa using executed, by simpa using waiting, by simpa using aborted, ?_⟩
      exact fun task h => (kept_settle sound waiting aborted jobs task h).trans (keeps task h)
  | @resume rest outside jobs =>
      have resumed :
          Action sch g (fun _ _ => True) s { s with jobs := rest, control := .looping } :=
        .resume waiting jobs
      obtain ⟨same, returned, ended⟩ := (sound.action valid resumed).aborted_pass valid rfl aborted
      refine .inr ⟨same.trans executed, returned, ?_⟩
      intro task h
      have source : recorded s task.id = before task.id := by
        rw [← keeps task h]
        simp [recorded, kept, ahead, jobs]
      obtain ⟨outcome, found, taken, origin⟩ := ended task h
      exact ⟨outcome, found, taken, source ▸ origin⟩

theorem Stopped.step {e : Event} (sound : Sound sch g s) (stopped : Stopped g before launched s)
    (transition : step sch g s e = some t) : Stopped g before launched t := by
  obtain ⟨executed, ⟨r, returned, marked⟩, ended⟩ := stopped
  cases Transition.of_step transition with
  | ret settled control => simp [returned] at control
  | throwSync message control => simp [returned] at control
  | resolve settlement member => exact ⟨executed, ⟨r, returned, marked⟩, ended⟩
  | abort active first => simp [RunState.active, returned] at active
  | @settle task settlement rest outside jobs =>
      have member := sound.slots.mem_of_job (by rw [jobs]; exact List.mem_cons_self)
      have complete := (sound.loop.complete r returned).2
      have late : s.status task.id ≠ .running := by
        intro running
        have terminal := TaskGraph.isComplete_iff.mp complete task member
        simp [running, isTerminalStatus] at terminal
      refine ⟨by simpa using executed, ⟨r, by simpa using returned, marked⟩, ?_⟩
      intro other h
      obtain ⟨outcome, found, taken, origin⟩ := ended other h
      refine ⟨outcome, ?_, ?_, origin⟩
      · rw [Scheduler.settle]
        rw [if_pos late]
        simpa using found
      · rw [Scheduler.settle]
        rw [if_pos late]
        simpa using taken
  | resume outside jobs =>
      have waiting := sound.open.resume (by rw [jobs]; exact List.mem_cons_self)
      simp [returned] at waiting

/-- From the abort on, every run stays on its way out. -/
theorem stopped_of_run (valid : g.Validated) (sound : Sound sch g s)
    (start : Stopping g before launched s ∨ Stopped g before launched s)
    (execution : (sch.machine g).run s es = some t) :
    Sound sch g t ∧ (Stopping g before launched t ∨ Stopped g before launched t) := by
  refine Machine.run_invariant
    (P := fun t => Sound sch g t ∧ (Stopping g before launched t ∨ Stopped g before launched t))
    ?_ ⟨sound, start⟩ execution
  rintro u e v ⟨sound, stopping | stopped⟩ transition
  · exact ⟨sound.step valid transition, stopping.step valid sound transition⟩
  · exact ⟨sound.step valid transition, .inr (stopped.step sound transition)⟩

/-- What is recorded at the moment of the abort is kept. -/
theorem kept_abort {id : String} (terminal : isTerminalStatus (s.status id) = true) :
    kept (abort s) id = s.outcomes id := by
  simp [kept, abort, terminal]

/-- A report that has been returned is final, and so are the statuses. -/
theorem Reaches.report_final (reaches : Reaches sch g status signalAborted es s)
    {r : SchedulerReport} (returned : s.control = .returned r) {fs : List Event}
    (execution : (sch.machine g).run s fs = some t) :
    t.control = .returned r ∧ ∀ task ∈ g.tasks, t.status task.id = s.status task.id := by
  have valid := reaches.validated
  constructor
  · refine (Machine.run_invariant (P := fun s => Sound sch g s ∧ s.control = .returned r) ?_
      ⟨reaches.sound, returned⟩ execution).2
    rintro u e v ⟨sound, control⟩ transition
    refine ⟨sound.step valid transition, ?_⟩
    cases Transition.of_step transition with
    | ret settled calling => simp [control] at calling
    | throwSync message calling => simp [control] at calling
    | resolve settlement member => exact control
    | abort active first => simp [RunState.active, control] at active
    | settle outside jobs => simpa using control
    | resume outside jobs =>
        have waiting := sound.open.resume (by rw [jobs]; exact List.mem_cons_self)
        simp [control] at waiting
  · intro task member
    have complete := (reaches.sound.loop.complete r returned).2
    exact (settled_of_run valid reaches.sound execution).1 task.id
      (TaskGraph.isComplete_iff.mp complete task member)

/-- A run whose signal was aborted before it started. -/
theorem Reaches.of_aborted_signal (reaches : Reaches sch g status true es s) :
    Stopped g (fun _ => none) [] s := by
  have valid := reaches.validated
  obtain ⟨s₀, accepted, execution⟩ := reaches
  have sound₀ := sound_start accepted
  obtain ⟨-, fresh, rfl⟩ := run_eq_ok_iff.mp accepted
  obtain ⟨launched, returned, ended⟩ :=
    (Sound.initial sch g true fresh).aborted_pass valid rfl rfl
  have start : Stopped g (fun _ => none) [] (iterate sch g (initial status true)) := by
    refine ⟨launched, returned, ?_⟩
    intro task member
    have nothing : recorded (initial status true) task.id = none := by
      simp [recorded, initial, fresh task member, isTerminalStatus]
    obtain ⟨outcome, found, taken, origin⟩ := ended task member
    exact ⟨outcome, found, taken, nothing ▸ origin⟩
  exact (Machine.run_invariant
    (P := fun t => Sound sch g t ∧ Stopped g (fun _ => none) [] t)
    (fun _ _ _ inv transition => ⟨inv.1.step valid transition, inv.2.step inv.1 transition⟩)
    ⟨sound₀, start⟩ execution).2

/-- Stopping a run. A run whose signal was aborted before it started launches
nothing and cancels every task. An abort that finds the loop waiting launches
nothing more: what was recorded is kept, with the settlements queued ahead of the
last pass, and every other task is cancelled. The run resolves as stopped, and
what settles later changes neither the report nor a status. -/
theorem stop_semantics (reaches : Reaches sch g status signalAborted es s) :
    (signalAborted = true → Stopped g (fun _ => none) [] s) ∧
    (s.control = .waiting → s.aborted = false →
      stop (some s) = some (abort s) ∧ step sch g s .abort = some (abort s) ∧
      (∀ id, isTerminalStatus (s.status id) = true → kept (abort s) id = s.outcomes id) ∧
      ∀ fs t, (sch.machine g).run (abort s) fs = some t →
        t.executed = s.executed ∧
        (Quiet t → ∃ r, t.control = .returned r) ∧
        ∀ r, t.control = .returned r → r.stopped = true ∧ r = report g t ∧
          ∀ task ∈ g.tasks, Ended (kept (abort s)) t task) ∧
    ∀ r, s.control = .returned r → ∀ fs t, (sch.machine g).run s fs = some t →
      t.control = .returned r ∧ ∀ task ∈ g.tasks, t.status task.id = s.status task.id := by
  have valid := reaches.validated
  refine ⟨?_, ?_, fun r returned fs t => reaches.report_final returned⟩
  · rintro rfl
    exact reaches.of_aborted_signal
  · intro waiting first
    have transition : step sch g s .abort = some (abort s) := by
      simp [step, RunState.active, waiting, first]
    refine ⟨by simp [stop, RunState.active, waiting, first], transition, fun id => kept_abort, ?_⟩
    intro fs t execution
    have sound := reaches.sound.step valid transition
    have start : Stopping g (kept (abort s)) s.executed (abort s) :=
      ⟨by simp [abort], by simpa [abort] using waiting, by simp [abort], fun _ _ => rfl⟩
    obtain ⟨sound', stopping | stopped⟩ := stopped_of_run valid sound (.inl start) execution
    · refine ⟨stopping.executed, ?_, ?_⟩
      · intro quiet
        exact absurd stopping.waiting (sound'.loop.not_waiting quiet)
      · intro r returned
        rw [stopping.waiting] at returned
        cases returned
    · obtain ⟨r', returned', marked⟩ := stopped.returned
      refine ⟨stopped.executed, fun _ => ⟨r', returned'⟩, ?_⟩
      intro r returned
      rw [returned'] at returned
      cases returned
      exact ⟨marked, (sound'.loop.complete r' returned').1, stopped.ended⟩

/-- `stop()` addresses the active run: before a run there is none, and the run
that starts afterwards completes. -/
theorem stop_before_run :
    ∃ s, sequential.run (stop none) draftAndReview (fun _ => .pending) false =
        .ok (iterate sequential draftAndReview (initial (fun _ => .pending) false)) ∧
      (sequential.machine draftAndReview).run
        (iterate sequential draftAndReview (initial (fun _ => .pending) false)) draftFails =
          some s ∧
      ∃ r, s.control = .returned r ∧ r.stopped = false := by
  have ends : ((sequential.machine draftAndReview).run
      (iterate sequential draftAndReview (initial (fun _ => .pending) false)) draftFails).any
        fun s => s.returnedReport.any fun r => !r.stopped := by
    decide
  obtain ⟨s, execution, ends⟩ := (Option.any_eq_true _ _).mp ends
  refine ⟨s, ?_, execution, ?_⟩
  · exact run_eq_ok_iff.mpr ⟨by decide, fun _ _ => rfl, rfl⟩
  · obtain ⟨r, returned, ends⟩ := (Option.any_eq_true _ _).mp ends
    exact ⟨r, RunState.returnedReport_eq_some_iff.mp returned, by simpa using ends⟩

/-- The draft is in flight when the run is stopped. -/
theorem stop_semantics_draftAndReview :
    ∃ s, Reaches sequential draftAndReview (fun _ => .pending) false [.ret none] s ∧
      stop (some s) = some (abort s) := by
  have waits : ((sequential.machine draftAndReview).run
      (iterate sequential draftAndReview (initial (fun _ => .pending) false)) [.ret none]).any
        fun s => decide (s.control = .waiting ∧ s.aborted = false) := by
    decide
  obtain ⟨s, execution, waits⟩ := (Option.any_eq_true _ _).mp waits
  have reaches := reaches_of_run (by decide) (by decide) execution
  obtain ⟨waiting, unaborted⟩ := of_decide_eq_true waits
  exact ⟨s, reaches, ((stop_semantics reaches).2.1 waiting unaborted).1⟩

end MultiAgent.Native.Scheduler
