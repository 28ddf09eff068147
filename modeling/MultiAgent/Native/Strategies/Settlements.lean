import MultiAgent.Native.Scheduler.Outcomes
import MultiAgent.Native.Strategies

/-!
# What a chain records

A sequential run and a relay pass an `async` function to the scheduler, which records
the outcome of a task when its execution resolves. An execution settles once, so the
recorded outcomes are those that the scheduler was given: a task that ran ends as its
recorded outcome says, and fails when nothing was recorded.
-/

namespace MultiAgent.Native

namespace Scheduler

open Relation

/-- The executions whose promise has not settled. -/
def RunState.awaited (s : RunState) : List Task := s.control.opened ++ s.unsettled

variable {sch : Scheduler} {g : TaskGraph} {gives : Task → Settlement → Prop} {s t u : RunState}
variable {es : List Event} {task : Task} {id : String}

/-- An execution that is awaited afterwards was awaited before, or has started since. -/
structure Opens (s t : RunState) : Prop where
  executed : s.executed <+: t.executed
  awaited : ∀ task ∈ t.awaited, task ∈ s.awaited ∨ (task.id ∉ s.executed ∧ task.id ∈ t.executed)

theorem Opens.refl (s : RunState) : Opens s s := ⟨List.prefix_rfl, fun _ => .inl⟩

theorem Opens.trans (first : Opens s t) (second : Opens t u) : Opens s u := by
  refine ⟨first.executed.trans second.executed, ?_⟩
  intro task awaited
  obtain before | ⟨fresh, started⟩ := second.awaited task awaited
  · obtain before | ⟨fresh, started⟩ := first.awaited task before
    · exact .inl before
    · exact .inr ⟨fresh, second.executed.subset started⟩
  · exact .inr ⟨fun known => fresh (first.executed.subset known), started⟩

theorem Opens.of_subset (executed : t.executed = s.executed)
    (awaited : ∀ task ∈ t.awaited, task ∈ s.awaited) : Opens s t :=
  ⟨executed ▸ List.prefix_rfl, fun task member => .inl (awaited task member)⟩

theorem Opens.action (sound : Sound sch g s) (action : Action sch g gives s t) : Opens s t := by
  cases action with
  | resume control jobs =>
      exact .of_subset rfl (by simp [RunState.awaited, control, Control.opened])
  | cancel reason control member pending edge failed => exact .of_subset rfl fun _ => id
  | observe control => exact .of_subset rfl fun _ => id
  | @start task rest control going launchable capacity idle =>
      obtain ⟨member, pending, -⟩ := TaskGraph.mem_ready.mp (launchable.ready task (by simp))
      refine ⟨List.prefix_append _ _, ?_⟩
      intro other awaited
      obtain rfl | before := List.mem_cons.mp awaited
      · exact .inr ⟨sound.ledger.unstarted other member pending, by simp [start]⟩
      · exact .inl (List.mem_append_right _ before)
  | wait control busy going unaborted =>
      exact .of_subset rfl (by simp [RunState.awaited, control, Control.opened])
  | leave control done =>
      refine .of_subset (leave_executed g s) fun other awaited => List.mem_append_right _ ?_
      rw [← leave_unsettled g s]
      exact awaited
  | stall control idle incomplete going unaborted =>
      exact .of_subset rfl (by simp [RunState.awaited, control, Control.opened])
  | @ret task rest settled control given =>
      refine .of_subset (by cases settled <;> rfl) ?_
      cases settled <;> simp +contextual [RunState.awaited, attach, control, Control.opened]
  | throwSync message control =>
      exact .of_subset rfl (by simp +contextual [RunState.awaited, control, Control.opened])
  | @resolve task settlement member given =>
      refine .of_subset rfl ?_
      intro other awaited
      obtain opened | before := List.mem_append.mp awaited
      · exact List.mem_append_left _ opened
      · exact List.mem_append_right _ (List.mem_of_mem_erase before)
  | abort active first => exact .of_subset (by simp [abort]) (by simp [RunState.awaited, abort])
  | settle outside jobs => exact .of_subset (by simp) (by simp [RunState.awaited])

theorem Opens.actions (valid : g.Validated) (sound : Sound sch g s)
    (actions : ReflTransGen (Action sch g gives) s t) : Opens s t := by
  induction actions with
  | refl => exact .refl s
  | tail before action ih => exact ih.trans (.action (sound.actions valid before) action)

theorem Opens.step {e : Event} (valid : g.Validated) (sound : Sound sch g s)
    (transition : step sch g s e = some t) : Opens s t := by
  have given : e.Given (fun _ _ => True) s := by
    cases e <;> simp [Event.Given]
  exact .actions valid sound (step_actions sound.open given transition).to_reflTransGen

/-- Every awaited execution has started. -/
def Started (s : RunState) : Prop := ∀ task ∈ s.awaited, task.id ∈ s.executed

theorem Started.opens (started : Started s) (opens : Opens s t) : Started t := by
  intro task awaited
  obtain before | ⟨-, here⟩ := opens.awaited task awaited
  · exact opens.executed.subset (started task before)
  · exact here

/-- The execution has started and its promise has settled. -/
structure Closed (s : RunState) (id : String) : Prop where
  executed : id ∈ s.executed
  settled : ∀ task ∈ s.awaited, task.id ≠ id

theorem Closed.opens (closed : Closed s id) (opens : Opens s t) : Closed t id := by
  refine ⟨opens.executed.subset closed.executed, ?_⟩
  intro task awaited
  obtain before | ⟨fresh, -⟩ := opens.awaited task awaited
  · exact closed.settled task before
  · rintro rfl
    exact fresh closed.executed

theorem Slots.awaited_distinct (slots : Slots sch g s) : (s.awaited.map Task.id).Nodup := by
  refine List.Nodup.sublist ?_ slots.distinct
  rw [RunState.inFlight, ← List.append_assoc]
  exact (List.sublist_append_left _ _).map Task.id

/-- An execution that resolves is closed. -/
theorem Closed.resolve {settlement : Settlement} (sound : Sound sch g s) (started : Started s)
    (transition : step sch g s (.resolve id settlement) = some t) : Closed t id := by
  cases Transition.of_step transition with
  | @resolve task settlement member =>
      refine ⟨started task (List.mem_append_right _ member), ?_⟩
      intro other awaited
      have distinct := sound.slots.awaited_distinct
      have moved : (s.control.opened ++ s.unsettled).Perm
          (task :: (s.control.opened ++ s.unsettled.erase task)) :=
        ((List.perm_cons_erase member).append_left _).trans List.perm_middle
      have apart := ((moved.map Task.id).nodup_iff.mp distinct)
      rw [List.map_cons, List.nodup_cons] at apart
      rintro same
      exact apart.1 (same ▸ List.mem_map_of_mem awaited)

/-- An execution whose promise has settled already when `execute` returns is closed. -/
theorem Closed.ret {rest : List Task} {settlement : Settlement} (valid : g.Validated)
    (sound : Sound sch g s) (started : Started s) (control : s.control = .calling task rest)
    (transition : step sch g s (.ret (some settlement)) = some t) : Closed t task.id := by
  have opened : s.awaited = task :: s.unsettled := by
    rw [RunState.awaited, control]
    rfl
  have first : Action sch g (fun _ _ => True) s (attach s task (some settlement)) :=
    .ret (some settlement) control fun _ _ => trivial
  have here : Closed (attach s task (some settlement)) task.id := by
    refine ⟨started task (by rw [opened]; exact List.mem_cons_self), ?_⟩
    intro other awaited same
    have distinct := sound.slots.awaited_distinct
    rw [opened, List.map_cons, List.nodup_cons] at distinct
    exact distinct.1 (same ▸ List.mem_map_of_mem awaited)
  cases Transition.of_step transition with
  | @ret other rest' _ control' =>
      rw [control] at control'
      cases control'
      have launchable := sound.open.launchable task rest control
      have launched : ReflTransGen (Action sch g fun _ _ => True) (attach s task (some settlement))
          (launch sch g rest (attach s task (some settlement))) :=
        launch_actions rfl launchable.2 launchable.1
      exact here.opens (.actions valid (sound.action valid first) launched)

end Scheduler

namespace Sequential

open Relation Scheduler

variable {sch : Scheduler} {g : TaskGraph} {s t u : RunState}
variable {results : String → Option TaskOutcome} {e : Event} {es : List Event}
variable {id : String} {task : Task}

/-- What the `async` function of a chain records of a settlement. -/
def value : Settlement → Option TaskOutcome
  | .fulfilled outcome => some outcome
  | .rejected _ => none

/-- The settlement is the one that was recorded. -/
def Agrees (results : String → Option TaskOutcome) (task : Task) (settlement : Settlement) : Prop :=
  value settlement = results task.id

/-- An `async` function that awaits has not fulfilled its promise when it returns. -/
def Awaits : Event → Prop
  | .ret (some (.fulfilled _)) => False
  | .ret _ | .throwSync _ | .resolve _ _ | .abort | .tick => True

/-- Only closed executions have a recorded outcome. -/
structure Recording (results : String → Option TaskOutcome) (s : RunState) : Prop where
  started : Started s
  closed : ∀ id outcome, results id = some outcome → Closed s id

theorem record_of_closed (closed : Closed s id) (transition : step sch g s e = some t) :
    record results e id = results id := by
  cases Transition.of_step transition with
  | @resolve task settlement member =>
      cases settlement with
      | rejected message => rfl
      | fulfilled outcome =>
          have apart := closed.settled task (List.mem_append_right _ member)
          exact Function.update_of_ne apart.symm _ _
  | ret | throwSync | abort | settle | resume => rfl

/-- What was recorded for a closed execution stays as it is. -/
theorem recorded_of_closed (valid : g.Validated) (sound : Sound sch g s) (closed : Closed s id)
    (execution : (sch.machine g).run s es = some t) : es.foldl record results id = results id := by
  induction es generalizing s results with
  | nil => rfl
  | cons e es ih =>
      obtain ⟨u, first, rest⟩ := (sch.machine g).run_cons_iff.mp execution
      have later := closed.opens (.step valid sound first)
      rw [List.foldl_cons, ih (sound.step valid first) later rest]
      exact record_of_closed closed first

theorem Recording.step (valid : g.Validated) (sound : Sound sch g s)
    (recording : Recording results s) (transition : step sch g s e = some t) :
    Recording (record results e) t := by
  have opens := Opens.step valid sound transition
  refine ⟨recording.started.opens opens, ?_⟩
  intro id outcome found
  by_cases known : results id = none
  · -- the event records the outcome, so it resolves the execution
    cases e with
    | resolve other settlement =>
        by_cases same : id = other
        · subst same
          exact .resolve sound recording.started transition
        · cases settlement <;> simp [record, known, same] at found
    | ret | throwSync | abort | tick => simp [record, known] at found
  · obtain ⟨before, known⟩ := Option.ne_none_iff_exists'.mp known
    exact (recording.closed id before known).opens opens

theorem Recording.run (valid : g.Validated) (sound : Sound sch g s)
    (recording : Recording results s) (execution : (sch.machine g).run s es = some t) :
    Recording (es.foldl record results) t := by
  induction es generalizing s results with
  | nil =>
      cases execution
      exact recording
  | cons e es ih =>
      obtain ⟨u, first, rest⟩ := (sch.machine g).run_cons_iff.mp execution
      exact ih (sound.step valid first) (recording.step valid sound first) rest

/-- The settlement that an event gives is the one recorded at the end of the run. -/
theorem Recording.given (valid : g.Validated) (sound : Sound sch g s)
    (recording : Recording results s) (awaits : Awaits e)
    (transition : Scheduler.step sch g s e = some t)
    (execution : (sch.machine g).run t es = some u) :
    e.Given (Agrees (es.foldl record (record results e))) s := by
  have after := sound.step valid transition
  -- an execution that is still awaited has recorded nothing
  have fresh : ∀ task ∈ s.awaited, results task.id = none := by
    intro task awaited
    cases known : results task.id with
    | none => rfl
    | some outcome =>
        have closed := recording.closed task.id outcome known
        exact absurd rfl (closed.settled task awaited)
  cases e with
  | ret settled =>
      rintro task rest control settlement ⟨⟩
      have here := fresh task (by rw [RunState.awaited, control]; exact List.mem_cons_self)
      have closed := Closed.ret valid sound recording.started control transition
      cases settlement with
      | fulfilled outcome => exact absurd awaits id
      | rejected message =>
          rw [Agrees, recorded_of_closed valid after closed execution]
          exact here.symm
  | resolve id settlement =>
      rintro task member rfl
      have here := fresh task (List.mem_append_right _ member)
      have closed := Closed.resolve sound recording.started transition
      rw [Agrees, recorded_of_closed valid after closed execution]
      cases settlement with
      | fulfilled outcome => simp [value, record]
      | rejected message => exact here.symm
  | throwSync | abort | tick => trivial

theorem Recording.meets (valid : g.Validated) (sound : Sound sch g s)
    (recording : Recording results s) (awaits : ∀ e ∈ es, Awaits e)
    (execution : (sch.machine g).run s es = some t) :
    (sch.machine g).Meets (fun s e => e.Given (Agrees (es.foldl record results)) s) s es := by
  induction es generalizing s results with
  | nil => trivial
  | cons e es ih =>
      obtain ⟨u, first, rest⟩ := (sch.machine g).run_cons_iff.mp execution
      obtain ⟨here, later⟩ := List.forall_mem_cons.mp awaits
      refine ⟨recording.given valid sound here first rest, ?_⟩
      intro v other
      rw [first] at other
      cases other
      exact ih (sound.step valid first) (recording.step valid sound first) later rest

section Returned

variable {status : TaskGraph.Statuses} {signalAborted : Bool}

theorem recording_start (accepted : sch.run none g status signalAborted = .ok s) :
    Recording (fun _ => none) s := by
  obtain ⟨valid, fresh, rfl⟩ := run_eq_ok_iff.mp accepted
  have actions : ReflTransGen (Action sch g fun _ _ => True) (initial status signalAborted)
      (iterate sch g (initial status signalAborted)) := iterate_actions rfl
  have opens := Opens.actions (TaskGraph.validated_of_validate valid)
    (.initial sch g signalAborted fresh) actions
  have none : Started (initial status signalAborted) := fun _ awaited => nomatch awaited
  exact ⟨none.opens opens, fun _ _ found => nomatch found⟩

/-- The executions of a chain settle with what is recorded at the end. -/
theorem obeys_recorded (reaches : Reaches sch g status signalAborted es s)
    (awaits : ∀ e ∈ es, Awaits e) :
    Obeys (Agrees (recorded es)) sch g status signalAborted es ∧ Recording (recorded es) s := by
  have valid := reaches.validated
  obtain ⟨s₀, accepted, execution⟩ := reaches
  have sound := sound_start accepted
  have recording := recording_start accepted
  refine ⟨?_, recording.run valid sound execution⟩
  intro s₁ again
  rw [accepted] at again
  cases again
  exact recording.meets valid sound awaits execution

/-- The status that a chain reports for a task. -/
def entryStatus (results : String → Option TaskOutcome) (status : TaskGraph.Statuses)
    (id : String) : TaskOutcomeStatus :=
  match results id with
  | some outcome => outcome.status
  | none => if status id = .cancelled then .cancelled else .failed

/-- A chain reports a task as completed exactly when it is. -/
theorem entryStatus_completed_iff {r : SchedulerReport}
    (reaches : Reaches sch g status signalAborted es s) (awaits : ∀ e ∈ es, Awaits e)
    (returned : s.control = .returned r) (unstopped : r.stopped = false) (member : task ∈ g.tasks) :
    entryStatus (recorded es) s.status task.id = .completed ↔ s.status task.id = .completed := by
  obtain ⟨obeys, recording⟩ := obeys_recorded reaches awaits
  have accounted := reaches.accounted obeys
  obtain ⟨rfl, complete⟩ := accounted.sound.loop.complete r returned
  have going : s.stopped = false := (Bool.or_eq_false_iff.mp unstopped).1
  obtain ⟨-, settlement, agrees, taken⟩ | ⟨absent, cancelled, -⟩ :=
    accounted.explained going task member (TaskGraph.isComplete_iff.mp complete task member)
  · cases settlement with
    | fulfilled outcome =>
        have found : recorded es task.id = some outcome := agrees.symm
        rw [entryStatus, found, taken, Settlement.outcome]
        exact toTaskStatus_injective.eq_iff.symm
    | rejected message =>
        have missing : recorded es task.id = none := agrees.symm
        rw [entryStatus, missing, taken]
        simp [Settlement.outcome, TaskOutcomeStatus.toTaskStatus]
  · cases found : recorded es task.id with
    | some outcome => exact absurd (recording.closed task.id outcome found).executed absent
    | none => simp [entryStatus, found, cancelled]

end Returned

end Sequential

end MultiAgent.Native
