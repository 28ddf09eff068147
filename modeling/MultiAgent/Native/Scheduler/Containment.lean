import MultiAgent.Native.Scheduler.Outcomes
import MultiAgent.Native.Scheduler.Progress

/-!
# Failures of `execute`

Fix what each call of `execute` does: its promise settles, or the call throws before it
returns one. A promise that rejects is settled as a failure of its own task, with the message
that `errorMessage` makes of what it rejects with. Where that throws, the handler of the
rejection ends without settling the task, which stays in flight. A call that throws ends the run
in the middle of the launch loop: what is in flight keeps running and no report takes its
outcome.
-/

namespace MultiAgent.Native.Scheduler

open Relation

variable {sch : Scheduler} {g : TaskGraph} {gives : Task → Settlement → Prop} {s t : RunState}
variable {status : TaskGraph.Statuses} {signalAborted : Bool} {es : List Event}

/-- A value that is thrown. What is read of it may throw itself, with a text of its own. -/
inductive Thrown where
  /-- An `Error`, with its `message`. -/
  | error (message : Except String String)
  /-- Any other value, with its `String`. -/
  | other (string : Except String String)
  deriving DecidableEq

/-- `errorMessage` -/
def errorMessage : Thrown → Except String String
  | .error message => message
  | .other string => string

/-- What `execute` does when it is called for a task. -/
inductive Behaviour where
  | fulfils (outcome : TaskOutcome)
  | rejects (error : Thrown)
  | throws (error : Thrown)
  deriving DecidableEq

namespace Behaviour

/-- The settlement of the task: a failure needs a message. -/
def settlement : Behaviour → Option Settlement
  | .fulfils outcome => some (.fulfilled outcome)
  | .rejects error | .throws error => (errorMessage error).toOption.map .rejected

/-- The outcome that the task has to have. The failure of a call is that of its task. -/
def Own (task : Task) : Behaviour → TaskOutcome → Prop
  | .fulfils outcome, o => o = outcome
  | .rejects error, o | .throws error, o =>
    o.status = .failed ∧ ∀ message, errorMessage error = .ok message →
      o = (Settlement.rejected message).outcome task

/-- The call returns a promise that is pending, or settled as it has to. -/
def returns (settled : Option Settlement) : Behaviour → Bool
  | .throws _ => false
  | behaviour => decide (settled = none ∨ settled = behaviour.settlement)

/-- The call throws, and the message is that of what it throws. -/
def escapes (message : String) : Behaviour → Bool
  | .throws error => (errorMessage error).toOption.all fun own => decide (own = message)
  | _ => false

/-- The promise rejects, and the handler of the rejection throws. -/
def loses : Behaviour → Bool
  | .rejects error => (errorMessage error).toOption.isNone
  | _ => false

end Behaviour

/-- The event is one that the calls of `execute` allow. -/
def Behaves (b : Task → Behaviour) (s : RunState) : Event → Prop
  | .ret settled => ∀ task ∈ s.control.opened, (b task).returns settled = true
  | .throwSync message => ∀ task ∈ s.control.opened, (b task).escapes message = true
  | .resolve id settlement => ∀ task ∈ s.unsettled, task.id = id →
    (b task).settlement = some settlement
  | .abort | .tick => True

instance (b : Task → Behaviour) (s : RunState) : (e : Event) → Decidable (Behaves b s e)
  | .ret settled =>
    inferInstanceAs (Decidable (∀ task ∈ s.control.opened, (b task).returns settled = true))
  | .throwSync message =>
    inferInstanceAs (Decidable (∀ task ∈ s.control.opened, (b task).escapes message = true))
  | .resolve id settlement =>
    inferInstanceAs (Decidable (∀ task ∈ s.unsettled, task.id = id →
      (b task).settlement = some settlement))
  | .abort | .tick => inferInstanceAs (Decidable True)

section Settlements

variable {b : Task → Behaviour} {behaviour : Behaviour} {settlement : Settlement}

theorem Behaviour.of_returns {settled : Option Settlement}
    (returns : behaviour.returns settled = true) (given : settlement ∈ settled) :
    behaviour.settlement = some settlement := by
  rw [given] at returns
  cases behaviour with
  | throws error => cases returns
  | _ => exact ((of_decide_eq_true returns).resolve_left nofun).symm

theorem Behaviour.own_of_settlement {task : Task}
    (settles : behaviour.settlement = some settlement) :
    behaviour.Own task (settlement.outcome task) := by
  cases behaviour with
  | fulfils outcome =>
      cases settles
      rfl
  | rejects error | throws error =>
      obtain ⟨message, made, rfl⟩ := Option.map_eq_some_iff.mp settles
      refine ⟨rfl, fun own same => ?_⟩
      rw [same] at made
      cases made
      rfl

theorem Behaviour.settlement_of_loses (loses : behaviour.loses = true) :
    behaviour.settlement = none := by
  cases behaviour with
  | fulfils outcome => cases loses
  | rejects error =>
      rw [Behaviour.settlement, Option.isNone_iff_eq_none.mp loses]
      rfl
  | throws error => cases loses

theorem Behaves.given {e : Event} (behaves : Behaves b s e) :
    e.Given (fun task settlement => (b task).settlement = some settlement) s := by
  cases e with
  | ret settled =>
      intro task rest control settlement given
      have opened : task ∈ s.control.opened := by
        rw [control]
        exact List.mem_singleton_self task
      exact Behaviour.of_returns (behaves task opened) given
  | resolve id settlement => exact behaves
  | throwSync message => trivial
  | abort => trivial
  | tick => trivial

theorem obeys_of_behaves (behaves : Along (Behaves b) sch g status signalAborted es) :
    Obeys (fun task settlement => (b task).settlement = some settlement) sch g status
      signalAborted es :=
  fun s₀ accepted => (behaves s₀ accepted).imp fun _ _ here => here.given

/-- A settlement for every task; one without a message is never given. -/
def settlementOf (b : Task → Behaviour) (task : Task) : Settlement :=
  (b task).settlement.getD (.rejected "")

theorem obeys_settlementOf (behaves : Along (Behaves b) sch g status signalAborted es) :
    Obeys (fun task settlement => settlement = settlementOf b task) sch g status
      signalAborted es := by
  have same {task : Task} {settlement : Settlement}
      (settles : (b task).settlement = some settlement) : settlement = settlementOf b task := by
    rw [settlementOf, settles, Option.getD_some]
  refine fun s₀ accepted => (behaves s₀ accepted).imp fun s e here => ?_
  have given := here.given
  cases e with
  | ret settled =>
      exact fun task rest control settlement member => same (given task rest control _ member)
  | resolve id settlement => exact fun task member own => same (given task member own)
  | throwSync message => trivial
  | abort => trivial
  | tick => trivial

end Settlements

/-- A run, with the tasks in flight that have lost their rejection: its handler threw. -/
structure Hosted where
  run : RunState
  lost : List String

inductive HostEvent where
  | run (event : Event)
  /-- The handler of the rejection of a task throws. -/
  | lose (id : String)
  deriving DecidableEq, Repr

def HostEvent.shown : HostEvent → Option Event
  | .run event => some event
  | .lose _ => none

/-- The promise that the event settles. -/
def Event.settles : Event → Option String
  | .resolve id _ => some id
  | _ => none

namespace Hosted

/-- A rejection that is lost leaves the run as it is; that of a task that is not in flight any
more has nothing to tell. -/
def step (sch : Scheduler) (g : TaskGraph) (h : Hosted) : HostEvent → Option Hosted
  | .run event =>
    if event.settles.any (decide <| · ∈ h.lost) then none
    else (Scheduler.step sch g h.run event).map fun run => ⟨run, h.lost⟩
  | .lose id =>
    if h.run.control.opened ≠ [] ∨ id ∈ h.lost ∨ id ∉ h.run.unsettled.map Task.id then none
    else some ⟨h.run, if h.run.status id = .running then id :: h.lost else h.lost⟩

def machine (sch : Scheduler) (g : TaskGraph) : Machine Hosted HostEvent := ⟨step sch g⟩

/-- The state `h` is reached by the events `es` in a run that was accepted. -/
def Reaches (sch : Scheduler) (g : TaskGraph) (status : TaskGraph.Statuses)
    (signalAborted : Bool) (es : List HostEvent) (h : Hosted) : Prop :=
  ∃ s₀, sch.run none g status signalAborted = .ok s₀ ∧ (machine sch g).run ⟨s₀, []⟩ es = some h

/-- Every step of the run meets the condition. -/
def Along (ok : Hosted → HostEvent → Prop) (sch : Scheduler) (g : TaskGraph)
    (status : TaskGraph.Statuses) (signalAborted : Bool) (es : List HostEvent) : Prop :=
  ∀ s₀, sch.run none g status signalAborted = .ok s₀ → (machine sch g).Meets ok ⟨s₀, []⟩ es

variable {h : Hosted} {hs : List HostEvent}

theorem shows (sch : Scheduler) (g : TaskGraph) :
    Machine.Shows (machine sch g) (sch.machine g) Hosted.run HostEvent.shown := by
  intro h e t transition
  cases e with
  | run event =>
      change step sch g h (.run event) = some t at transition
      rw [step, Option.ite_none_left_eq_some] at transition
      obtain ⟨u, taken, rfl⟩ := Option.map_eq_some_iff.mp transition.2
      exact taken
  | lose id =>
      change step sch g h (.lose id) = some t at transition
      rw [step, Option.ite_none_left_eq_some] at transition
      cases transition.2
      rfl

theorem Reaches.run (reaches : Reaches sch g status signalAborted hs h) :
    Scheduler.Reaches sch g status signalAborted (hs.filterMap HostEvent.shown) h.run := by
  obtain ⟨s₀, accepted, execution⟩ := reaches
  exact ⟨s₀, accepted, Machine.run_filterMap _ _ (shows sch g) execution⟩

theorem along_iff {ok : Hosted → HostEvent → Prop} {s₀ : RunState}
    (accepted : sch.run none g status signalAborted = .ok s₀) :
    Along ok sch g status signalAborted hs ↔ (machine sch g).Meets ok ⟨s₀, []⟩ hs := by
  refine ⟨fun along => along s₀ accepted, fun meets s₁ again => ?_⟩
  cases accepted.symm.trans again
  exact meets

/-- A condition on the events of the run itself. -/
theorem Reaches.along_shown_iff {ok : RunState → Event → Prop}
    (reaches : Reaches sch g status signalAborted hs h) :
    Along (fun h e => ∀ f ∈ e.shown, ok h.run f) sch g status signalAborted hs ↔
      Scheduler.Along ok sch g status signalAborted (hs.filterMap HostEvent.shown) := by
  obtain ⟨s₀, accepted, execution⟩ := reaches
  rw [along_iff accepted, Scheduler.along_iff accepted]
  exact Machine.meets_filterMap _ _ (shows sch g) execution

end Hosted

/-- Until the run is stopped, an executed task has the outcome it was given, and an outcome
of any other task is a cancellation. -/
def Kept (g : TaskGraph) (gives : Task → Settlement → Prop) (s : RunState) : Prop :=
  s.stopped = false → ∀ task ∈ g.tasks, ∀ o, s.outcomes task.id = some o →
    (task.id ∈ s.executed ∧ ∃ settlement, gives task settlement ∧ o = settlement.outcome task) ∨
    (task.id ∉ s.executed ∧ o.status = .cancelled)

theorem Kept.entry (ledger : Ledger g s) (kept : Kept g gives s) (entry : Entry g gives s t) :
    Kept g gives t := by
  intro unstopped other member o found
  have before := kept (entry.going unstopped) other member o
  cases entry with
  | quiet _ status outcomes order executed =>
      rw [executed]
      exact before (outcomes ▸ found)
  | @record task outcome latched recorded opened cause status outcomes order executed =>
      rw [executed]
      by_cases same : other.id = task.id
      · obtain rfl := TaskGraph.eq_of_id_eq member recorded same
        obtain rfl : outcome = o := by simpa [outcomes] using found
        cases cause with
        | @settled settlement given running own =>
            exact .inl ⟨ledger.started other member running, settlement, given, own⟩
        | blocked pending edge failed cancelled =>
            exact .inr ⟨ledger.unstarted other member pending, cancelled⟩
        | stopped stopping cancelled => simp [latched stopping] at unstopped
      · exact before (by simpa [outcomes, same] using found)
  | @launch task _ ready status outcomes order executed =>
      rw [outcomes] at found
      have pending := (TaskGraph.mem_ready.mp ready).2.1
      have terminal := (ledger.isSome_iff member).mp (by rw [found]; rfl)
      have apart : other.id ≠ task.id := by
        intro same
        rw [same, pending] at terminal
        exact absurd terminal (by decide)
      rw [executed, List.mem_append, List.mem_singleton, or_iff_left apart]
      exact before found

theorem Kept.action (valid : g.Validated) (accounted : Accounted sch g gives s)
    (kept : Kept g gives s) (action : Action sch g gives s t) : Kept g gives t :=
  accounted.entries_invariant valid action kept fun _ _ ledger kept entry => kept.entry ledger entry

theorem Reaches.keepsOutcome (reaches : Reaches sch g status signalAborted es s)
    (obeys : Obeys gives sch g status signalAborted es) : Kept g gives s := by
  have invariant := reaches.actions_invariant (P := Kept g gives) obeys ?_ ?_
  · exact invariant.2
  · intro _ _ task _ o found
    cases found
  · intro _ _ accounted kept action
    exact kept.action reaches.validated accounted action

/-- An outcome is one that its task was given, or a cancellation. -/
def Given (g : TaskGraph) (gives : Task → Settlement → Prop) (s : RunState) : Prop :=
  ∀ task ∈ g.tasks, ∀ o, s.outcomes task.id = some o →
    (∃ settlement, gives task settlement ∧ o = settlement.outcome task) ∨ o.status = .cancelled

theorem Given.entry (given : Given g gives s) (entry : Entry g gives s t) : Given g gives t := by
  intro other member o found
  have before := given other member o
  cases entry with
  | quiet _ status outcomes order executed => exact before (outcomes ▸ found)
  | @record task outcome latched recorded opened cause status outcomes order executed =>
      by_cases same : other.id = task.id
      · obtain rfl := TaskGraph.eq_of_id_eq member recorded same
        obtain rfl : outcome = o := by simpa [outcomes] using found
        cases cause with
        | @settled settlement given running own => exact .inl ⟨settlement, given, own⟩
        | blocked pending edge failed cancelled => exact .inr cancelled
        | stopped stopping cancelled => exact .inr cancelled
      · exact before (by simpa [outcomes, same] using found)
  | launch _ ready status outcomes order executed => exact before (outcomes ▸ found)

theorem Reaches.given (reaches : Reaches sch g status signalAborted es s)
    (obeys : Obeys gives sch g status signalAborted es) :
    Accounted sch g gives s ∧ Given g gives s := by
  refine reaches.actions_invariant obeys ?_ fun u v accounted given action => ?_
  · intro _ task _ o found
    cases found
  · exact accounted.entries_invariant reaches.validated action given
      fun _ _ _ given entry => given.entry entry

/-- A task without a settlement to give never fails. -/
theorem Reaches.not_failed {b : Task → Behaviour} {task : Task}
    (reaches : Reaches sch g status signalAborted es s)
    (behaves : Along (Behaves b) sch g status signalAborted es) (member : task ∈ g.tasks)
    (mute : (b task).settlement = none) : s.status task.id ≠ .failed := by
  intro failed
  obtain ⟨accounted, given⟩ := reaches.given (obeys_of_behaves behaves)
  have ledger := accounted.sound.ledger
  obtain ⟨o, found⟩ := Option.isSome_iff_exists.mp
    (ledger.recorded task member (by rw [failed]; rfl))
  have agrees := ledger.agrees task member o found
  obtain ⟨settlement, own, -⟩ | cancelled := given task member o found
  · rw [mute] at own
    cases own
  · rw [cancelled, failed] at agrees
    cases agrees

/-- What the callers of `run` are promised about failures: no exception leaves it; a task whose
promise rejected has failed; once nothing is open it has returned; and in the report of a run
that was not stopped, a task whose transitive dependencies all completed has its own outcome, and
any other is cancelled. -/
structure Contained (b : Task → Behaviour) (g : TaskGraph) (h : Hosted) : Prop where
  unthrown : ∀ message, h.run.control ≠ .threw message
  unstalled : ¬ h.run.Stalled
  failed : ∀ id ∈ h.lost, h.run.status id = .failed
  returns : h.run.control.opened = [] →
    ((∀ task ∈ h.run.unsettled, task.id ∈ h.lost) ∨ h.run.aborted = true) → h.run.jobs = [] →
      ∃ r, h.run.control = .returned r
  reported : ∀ r, h.run.control = .returned r → r.stopped = false → ∀ task ∈ g.tasks,
    ((∀ dep, TransGen g.Depends task.id dep → h.run.status dep = .completed) →
      task.id ∈ h.run.executed ∧ ∃ o, (task.id, some o) ∈ r.results ∧ (b task).Own task o ∧
        h.run.status task.id = o.status.toTaskStatus) ∧
    (∀ dep, TransGen g.Depends task.id dep → h.run.status dep ≠ .completed →
      task.id ∉ h.run.executed ∧ h.run.status task.id = .cancelled ∧
        ∃ o, (task.id, some o) ∈ r.results ∧ o.status = .cancelled)

theorem Reaches.reported {b : Task → Behaviour} {r : SchedulerReport}
    (reaches : Reaches sch g status signalAborted es s)
    (behaves : Along (Behaves b) sch g status signalAborted es)
    (returned : s.control = .returned r) (unstopped : r.stopped = false) {task : Task}
    (member : task ∈ g.tasks) :
    ((∀ dep, TransGen g.Depends task.id dep → s.status dep = .completed) →
      task.id ∈ s.executed ∧ ∃ o, (task.id, some o) ∈ r.results ∧ (b task).Own task o ∧
        s.status task.id = o.status.toTaskStatus) ∧
    (∀ dep, TransGen g.Depends task.id dep → s.status dep ≠ .completed →
      task.id ∉ s.executed ∧ s.status task.id = .cancelled ∧
        ∃ o, (task.id, some o) ∈ r.results ∧ o.status = .cancelled) := by
  have accounted := reaches.accounted (obeys_settlementOf behaves)
  have executed := accounted.executed_iff returned unstopped member
  obtain ⟨same, complete⟩ := accounted.sound.loop.complete r returned
  have going : s.stopped = false := by
    rw [same] at unstopped
    exact (Bool.or_eq_false_iff.mp unstopped).1
  have ended := TaskGraph.isComplete_iff.mp complete task member
  obtain ⟨o, found⟩ := Option.isSome_iff_exists.mp
    (accounted.sound.ledger.recorded task member ended)
  have agrees := accounted.sound.ledger.agrees task member o found
  have listed : (task.id, some o) ∈ r.results := by
    rw [same, ← found]
    exact List.mem_map.mpr ⟨task, member, rfl⟩
  have own := reaches.keepsOutcome (obeys_of_behaves behaves) going task member o found
  constructor
  · intro completed
    obtain ⟨started, settlement, given, rfl⟩ | ⟨absent, -⟩ := own
    · exact ⟨started, _, listed, Behaviour.own_of_settlement given, agrees.symm⟩
    · exact absurd (executed.mpr completed) absent
  · intro dep path unfinished
    obtain ⟨started, -⟩ | ⟨absent, cancelled⟩ := own
    · exact absurd (executed.mp started dep path) unfinished
    · refine ⟨absent, ?_, o, listed, cancelled⟩
      rw [← agrees, cancelled]
      rfl

/-- The exception of a call of `execute` has left the run. -/
def RunState.Threw (s : RunState) : Prop := ∃ message, s.control = .threw message

theorem threw_stays {e : Event} (sound : Sound sch g s) (transition : step sch g s e = some t)
    (threw : s.Threw) : t.Threw := by
  obtain ⟨message, control⟩ := threw
  refine ⟨message, ?_⟩
  rw [sound.control_stays (by rw [RunState.active, control]) transition, control]

theorem step_threw_iff {e : Event} (before : ¬ s.Threw) (transition : step sch g s e = some t) :
    t.Threw ↔ ¬ ∀ message, e ≠ .throwSync message := by
  cases Transition.of_step transition with
  | ret settled control =>
      refine iff_of_false ?_ fun throws => throws (by simp)
      rintro ⟨message, threw⟩
      exact (launch_control sch g _ _).2 message threw
  | throwSync message control =>
      exact iff_of_true ⟨message, rfl⟩ fun returns => returns message rfl
  | resolve settlement member => exact iff_of_false before fun throws => throws (by simp)
  | abort active first =>
      refine iff_of_false ?_ fun throws => throws (by simp)
      rwa [RunState.Threw, Scheduler.abort, wake_control]
  | settle outside jobs =>
      refine iff_of_false ?_ fun throws => throws (by simp)
      rwa [RunState.Threw, settle_control]
  | resume outside jobs =>
      refine iff_of_false ?_ fun throws => throws (by simp)
      rintro ⟨message, threw⟩
      exact (iterate_control sch g _).2 message threw

/-- Only a call that throws ends a run with its exception, and nothing follows it. -/
theorem Reaches.along_unthrown_iff (reaches : Reaches sch g status signalAborted es s) :
    Along (fun _ e => ∀ message, e ≠ .throwSync message) sch g status signalAborted es ↔
      ∀ message, s.control ≠ .threw message := by
  have valid := reaches.validated
  obtain ⟨s₀, accepted, execution⟩ := reaches
  have entered : ¬ s₀.Threw := by
    obtain ⟨-, -, rfl⟩ := run_eq_ok_iff.mp accepted
    rintro ⟨message, threw⟩
    exact (iterate_control sch g _).2 message threw
  have decides : (sch.machine g).Meets (fun _ e => ∀ message, e ≠ .throwSync message) s₀ es ↔
      ¬ s.Threw := Machine.meets_iff
    (fun _ _ _ sound _ transition => sound.step valid transition)
    (fun _ _ _ sound _ transition threw => threw_stays sound transition threw)
    (fun _ _ _ sound _ before transition => step_threw_iff before transition)
    (sound_start accepted) entered (Machine.meets_of_mem (fun _ _ _ => trivial) s₀) execution
  rw [along_iff accepted, decides]
  exact not_exists

namespace Hosted

variable {b : Task → Behaviour} {h : Hosted} {hs : List HostEvent}

/-- The event is one that the calls of `execute` allow. -/
def Behaves (b : Task → Behaviour) (h : Hosted) : HostEvent → Prop
  | .run event => Scheduler.Behaves b h.run event
  | .lose id => ∀ task ∈ h.run.unsettled, task.id = id → (b task).loses = true

instance (b : Task → Behaviour) (h : Hosted) : (e : HostEvent) → Decidable (Behaves b h e)
  | .run event => inferInstanceAs (Decidable (Scheduler.Behaves b h.run event))
  | .lose id => inferInstanceAs
    (Decidable (∀ task ∈ h.run.unsettled, task.id = id → (b task).loses = true))

/-- The call of `execute` returns its promise, a pass of the loop is `Swept`, and no rejection of
a task that is still running is lost. -/
def Contains (g : TaskGraph) (h : Hosted) : HostEvent → Prop
  | .run event => (∀ message, event ≠ .throwSync message) ∧ PassSwept g h.run event
  | .lose id => h.run.status id ≠ .running

theorem Reaches.behaves (reaches : Reaches sch g status signalAborted hs h)
    (behaves : Along (Behaves b) sch g status signalAborted hs) :
    Scheduler.Along (Scheduler.Behaves b) sch g status signalAborted
      (hs.filterMap HostEvent.shown) := by
  refine reaches.along_shown_iff.mp fun s₀ accepted => ?_
  refine (behaves s₀ accepted).imp fun h e here => ?_
  cases e with
  | run event =>
      rintro _ ⟨⟩
      exact here
  | lose id => nofun

/-- Nothing can be given to a task that has lost its rejection. -/
theorem Reaches.mute (reaches : Reaches sch g status signalAborted hs h)
    (behaves : Along (Behaves b) sch g status signalAborted hs) :
    ∀ id ∈ h.lost, ∃ task ∈ g.tasks, task.id = id ∧ (b task).settlement = none := by
  have valid := reaches.run.validated
  obtain ⟨s₀, accepted, execution⟩ := reaches
  have kept := Machine.run_invariant_of_meets (P := fun h : Hosted => Sound sch g h.run ∧
    ∀ id ∈ h.lost, ∃ task ∈ g.tasks, task.id = id ∧ (b task).settlement = none) ?_
    ⟨sound_start accepted, by simp⟩ (behaves s₀ accepted) execution
  · exact kept.2
  rintro h e t ⟨sound, mute⟩ here transition
  cases e with
  | run event =>
      change step sch g h (.run event) = some t at transition
      rw [step, Option.ite_none_left_eq_some] at transition
      obtain ⟨u, taken, rfl⟩ := Option.map_eq_some_iff.mp transition.2
      exact ⟨sound.step valid taken, mute⟩
  | lose id =>
      change step sch g h (.lose id) = some t at transition
      rw [step, Option.ite_none_left_eq_some] at transition
      obtain ⟨enabled, same⟩ := transition
      cases same
      refine ⟨sound, ?_⟩
      dsimp only
      split_ifs
      · push Not at enabled
        obtain ⟨task, open_, rfl⟩ := List.mem_map.mp enabled.2.2
        refine List.forall_mem_cons.mpr ⟨⟨task, ?_, rfl, ?_⟩, mute⟩
        · apply sound.slots.known
          simp [RunState.inFlight, open_]
        · exact Behaviour.settlement_of_loses (here task open_ rfl)
      · exact mute

/-- A rejection is lost exactly by an event of a task that is running. -/
theorem Reaches.along_unlost_iff (reaches : Reaches sch g status signalAborted hs h) :
    Along (fun h e => ∀ id, e = .lose id → h.run.status id ≠ .running) sch g status signalAborted
      hs ↔ h.lost = [] := by
  obtain ⟨s₀, accepted, execution⟩ := reaches
  rw [along_iff accepted, ← not_ne_iff]
  have within : (machine sch g).Meets (fun _ _ => True) ⟨s₀, []⟩ hs :=
    Machine.meets_of_mem (fun _ _ _ => trivial) _
  refine Machine.meets_iff (P := fun _ => True) (B := fun h : Hosted => h.lost ≠ [])
    (fun _ _ _ _ _ _ => trivial) ?_ ?_ trivial (by simp) within execution
  · rintro h e t - - transition lost
    cases e with
    | run event =>
        change step sch g h (.run event) = some t at transition
        rw [step, Option.ite_none_left_eq_some] at transition
        obtain ⟨u, taken, rfl⟩ := Option.map_eq_some_iff.mp transition.2
        exact lost
    | lose id =>
        change step sch g h (.lose id) = some t at transition
        rw [step, Option.ite_none_left_eq_some] at transition
        cases transition.2
        dsimp only
        split_ifs
        · exact List.cons_ne_nil _ _
        · exact lost
  · rintro h e t - - kept transition
    cases e with
    | run event =>
        change step sch g h (.run event) = some t at transition
        rw [step, Option.ite_none_left_eq_some] at transition
        obtain ⟨u, taken, rfl⟩ := Option.map_eq_some_iff.mp transition.2
        exact iff_of_false kept (by simp)
    | lose id =>
        change step sch g h (.lose id) = some t at transition
        rw [step, Option.ite_none_left_eq_some] at transition
        cases transition.2
        by_cases running : h.run.status id = .running
        · simp [running]
        · simpa [running] using kept

theorem Reaches.along_contains_iff (reaches : Reaches sch g status signalAborted hs h) :
    Along (Contains g) sch g status signalAborted hs ↔
      ((∀ message, h.run.control ≠ .threw message) ∧ ¬ h.run.Stalled) ∧ h.lost = [] := by
  rw [← reaches.run.along_unthrown_iff, ← reaches.run.along_swept_iff, ← reaches.along_unlost_iff,
    ← reaches.along_shown_iff, ← reaches.along_shown_iff]
  obtain ⟨s₀, accepted, -⟩ := reaches
  rw [along_iff accepted, along_iff accepted, along_iff accepted, along_iff accepted,
    ← Machine.meets_and_iff, ← Machine.meets_and_iff]
  have same (h : Hosted) (e : HostEvent) : Contains g h e ↔
      ((∀ f ∈ e.shown, ∀ message, f ≠ .throwSync message) ∧ ∀ f ∈ e.shown, PassSwept g h.run f) ∧
        ∀ id, e = .lose id → h.run.status id ≠ .running := by
    cases e <;> simp [Contains, HostEvent.shown]
  exact ⟨fun meets => meets.imp fun h e => (same h e).mp,
    fun meets => meets.imp fun h e => (same h e).mpr⟩

end Hosted

/-- A run keeps what its callers are promised about failures exactly as long as every call of
`execute` returns its promise, every pass is `Swept`, and every rejection of a task that is still
running has a message. -/
theorem failures_contained {b : Task → Behaviour} {h : Hosted} {hs : List HostEvent}
    (reaches : Hosted.Reaches sch g status signalAborted hs h)
    (behaves : Hosted.Along (Hosted.Behaves b) sch g status signalAborted hs) :
    Hosted.Along (Hosted.Contains g) sch g status signalAborted hs ↔ Contained b g h := by
  rw [reaches.along_contains_iff]
  have run := reaches.run
  have allowed := reaches.behaves behaves
  constructor
  · rintro ⟨⟨unthrown, unstalled⟩, none⟩
    refine ⟨unthrown, unstalled, by simp [none], ?_, ?_⟩
    · intro closed settled jobs
      refine run.returned unstalled unthrown ⟨?_, ?_, jobs⟩
      · intro task rest calling
        rw [calling] at closed
        cases closed
      · refine settled.imp_left fun lost => List.eq_nil_iff_forall_not_mem.mpr fun task open_ => ?_
        have gone := lost task open_
        rw [none] at gone
        cases gone
    · intro r returned unstopped task member
      exact run.reported allowed returned unstopped member
  · intro contained
    refine ⟨⟨contained.unthrown, contained.unstalled⟩, ?_⟩
    refine List.eq_nil_iff_forall_not_mem.mpr fun id lost => ?_
    obtain ⟨task, member, rfl, mute⟩ := reaches.mute behaves id lost
    exact run.not_failed allowed member mute (contained.failed _ lost)

/-- The backend of an agent is offline. -/
def offline (_ : Task) : Behaviour := .rejects (.error (.ok "offline"))

theorem failures_contained_draftFails :
    ∃ h, Hosted.Reaches sequential draftAndReview (fun _ => .pending) false
        (draftFails.map .run) h ∧ Contained offline draftAndReview h := by
  have runs : ((Hosted.machine sequential draftAndReview).run
      ⟨iterate sequential draftAndReview (initial (fun _ => .pending) false), []⟩
      (draftFails.map .run)).isSome := by
    decide
  obtain ⟨h, execution⟩ := Option.isSome_iff_exists.mp runs
  have accepted : sequential.run none draftAndReview (fun _ => .pending) false =
      .ok (iterate sequential draftAndReview (initial (fun _ => .pending) false)) :=
    run_eq_ok_iff.mpr ⟨by decide, fun _ _ => rfl, rfl⟩
  have reaches : Hosted.Reaches sequential draftAndReview (fun _ => .pending) false
      (draftFails.map .run) h := ⟨_, accepted, execution⟩
  have behaves : Hosted.Along (Hosted.Behaves offline) sequential draftAndReview
      (fun _ => .pending) false (draftFails.map .run) :=
    (Hosted.along_iff accepted).mpr (by decide)
  refine ⟨h, reaches, (failures_contained reaches behaves).mp ?_⟩
  have unstalled := not_stalled_of_dependency_first reaches.run (by decide)
  have unthrown : Along (fun _ e => ∀ message, e ≠ .throwSync message) sequential draftAndReview
      (fun _ => .pending) false ((draftFails.map HostEvent.run).filterMap HostEvent.shown) := by
    rintro s₀ -
    refine Machine.meets_of_mem ?_ s₀
    intro e member s message
    rintro rfl
    simp [draftFails, HostEvent.shown] at member
  have unlost : Hosted.Along (fun h e => ∀ id, e = .lose id → h.run.status id ≠ .running)
      sequential draftAndReview (fun _ => .pending) false (draftFails.map .run) := by
    rintro s₀ -
    refine Machine.meets_of_mem ?_ _
    intro e member h id
    rintro rfl
    simp [draftFails] at member
  exact reaches.along_contains_iff.mpr
    ⟨⟨reaches.run.along_unthrown_iff.mp unthrown, unstalled⟩, reaches.along_unlost_iff.mp unlost⟩

/-- Two tasks of different agents that do not depend on each other. -/
def outlineAndFigures : TaskGraph where
  tasks := [
    { id := "outline", agentId := "writer", prompt := "Write the outline", dependsOn := []
      timeoutMs := none },
    { id := "figures", agentId := "artist", prompt := "Draw the figures", dependsOn := []
      timeoutMs := none }]
  distinct := by decide

def unlimited : Scheduler := ⟨none, positive_none⟩

def outlineOutcome : TaskOutcome :=
  { taskId := "outline", status := .completed, text := some "1. Introduction", error := none
    durationMs := 5, raw := none }

/-- The artist's backend throws before it returns a promise. -/
def artistThrows (task : Task) : Behaviour :=
  if task.id = "figures" then .throws (.error (.ok "boom")) else .fulfils outlineOutcome

/-- The call for the figures throws while the outline is in flight; the outline completes. -/
def figuresThrow : List HostEvent :=
  [.run (.ret none), .run (.throwSync "boom"),
    .run (.resolve "outline" (.fulfilled outlineOutcome)), .run .tick]

/-- The exception of the second call leaves the run: the outline completes with nobody to
report it, and the figures stay `running` without an outcome. -/
theorem figuresThrow_escapes :
    ∃ h, Hosted.Reaches unlimited outlineAndFigures (fun _ => .pending) false figuresThrow h ∧
      Hosted.Along (Hosted.Behaves artistThrows) unlimited outlineAndFigures (fun _ => .pending)
        false figuresThrow ∧
      h.run.control = .threw "boom" ∧ h.run.status "outline" = .completed ∧
      h.run.status "figures" = .running ∧ h.run.outcomes "figures" = none ∧
      ¬ Contained artistThrows outlineAndFigures h := by
  have ends : ((Hosted.machine unlimited outlineAndFigures).run
      ⟨iterate unlimited outlineAndFigures (initial (fun _ => .pending) false), []⟩
      figuresThrow).any fun h =>
        decide (h.run.control = .threw "boom" ∧ h.run.status "outline" = .completed ∧
          h.run.status "figures" = .running ∧ h.run.outcomes "figures" = none) := by
    decide
  obtain ⟨h, execution, ends⟩ := (Option.any_eq_true _ _).mp ends
  obtain ⟨threw, ended⟩ := of_decide_eq_true ends
  have accepted : unlimited.run none outlineAndFigures (fun _ => .pending) false =
      .ok (iterate unlimited outlineAndFigures (initial (fun _ => .pending) false)) :=
    run_eq_ok_iff.mpr ⟨by decide, fun _ _ => rfl, rfl⟩
  refine ⟨h, ⟨_, accepted, execution⟩, (Hosted.along_iff accepted).mpr (by decide), threw, ended.1,
    ended.2.1, ended.2.2, fun contained => contained.unthrown "boom" threw⟩

/-- An agent rejects with an object that has no text. -/
def rejectsBare (_ : Task) : Behaviour :=
  .rejects (.other (.error "Cannot convert object to primitive value"))

/-- The rejection of the draft is lost: nothing is left that could wake the run, and the draft
stays `running`. -/
theorem bareObject_hangs :
    ∃ h, Hosted.Reaches sequential draftAndReview (fun _ => .pending) false
        [.run (.ret none), .lose "draft"] h ∧
      Hosted.Along (Hosted.Behaves rejectsBare) sequential draftAndReview (fun _ => .pending) false
        [.run (.ret none), .lose "draft"] ∧
      h.run.control = .waiting ∧ h.run.jobs = [] ∧ h.run.unsettled.map Task.id = h.lost ∧
      h.run.status "draft" = .running ∧ ¬ Contained rejectsBare draftAndReview h := by
  have ends : ((Hosted.machine sequential draftAndReview).run
      ⟨iterate sequential draftAndReview (initial (fun _ => .pending) false), []⟩
      [.run (.ret none), .lose "draft"]).any fun h =>
        decide (h.run.control = .waiting ∧ h.run.jobs = [] ∧
          h.run.unsettled.map Task.id = h.lost ∧ h.lost = ["draft"] ∧
          h.run.status "draft" = .running) := by
    decide
  obtain ⟨h, execution, ends⟩ := (Option.any_eq_true _ _).mp ends
  obtain ⟨waiting, jobs, open_, lost, running⟩ := of_decide_eq_true ends
  have accepted : sequential.run none draftAndReview (fun _ => .pending) false =
      .ok (iterate sequential draftAndReview (initial (fun _ => .pending) false)) :=
    run_eq_ok_iff.mpr ⟨by decide, fun _ _ => rfl, rfl⟩
  refine ⟨h, ⟨_, accepted, execution⟩, (Hosted.along_iff accepted).mpr (by decide), waiting, jobs,
    open_, running, fun contained => ?_⟩
  have failed := contained.failed "draft" (by rw [lost]; exact List.mem_singleton_self _)
  rw [running] at failed
  cases failed

end MultiAgent.Native.Scheduler
