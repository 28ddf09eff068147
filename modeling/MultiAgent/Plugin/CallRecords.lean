import MultiAgent.Plugin.Recording
import Mathlib.Data.List.Count
import Mathlib.Data.List.Perm.Basic

/-!
# One record for each call

The records of a call are kept apart by its flag. In `one_record` no caller sets the flag of a
call whose worker has found it unset to record a timeout as well, and none sets it to record
nothing; an agent gets its counters once, and a refused call has a number of seconds.
-/

namespace MultiAgent.Plugin

namespace CallRecords

section Records

/-- The counters that belong to some records. -/
def tally (records : List Status) : Health :=
  ⟨records.length, records.count .ok, records.count .error, records.count .timeout⟩

/-- What was noted for the calls of an agent. -/
def records (calls : List Call) (agent : String) : List Status :=
  (calls.filter fun call => decide (call.agent = agent)).flatMap Call.noted

/-- The caller waits or is through with the call. -/
def Caller.atRest : Caller → Bool
  | .cancelling | .abandoning | .recording _ => false
  | .waiting | .returned | .timedOut | .abandoned | .stopped => true

/-- The worker has called the agent and is through, or the caller reported a timeout. -/
def Call.RanOrTimedOut (call : Call) : Prop :=
  call.worker = .skipped ∨ (∃ status, call.worker = .recorded status) ∨ call.caller = .timedOut

/-- The trace of the call got what was noted for it. -/
def Call.RecordedAs (call : Call) (status : Status) : Prop :=
  call.noted = [status] ∧ call.spans = if call.traced then [status] else []

/-- One record for each call. -/
structure OneRecord (s : State) : Prop where
  balanced : ∀ agent, (s.counters agent).calls =
    (s.counters agent).ok + (s.counters agent).errors + (s.counters agent).timeouts
  counted : ∀ agent, s.counters agent = tally (records s.calls agent)
  atMost : ∀ call ∈ s.calls, call.noted.length ≤ 1 ∧ call.spans.length ≤ 1
  recorded : ∀ call ∈ s.calls, call.caller.atRest = true → call.RanOrTimedOut →
    ∃ status, call.RecordedAs status
  timeouts : ∀ call ∈ s.calls, call.caller = .timedOut → call.RecordedAs .timeout

end Records

section Condition

/-- Which way a caller has gone. -/
inductive Stance where
  | waits
  | returned
  | reports
  | quits
  | stopped
  deriving DecidableEq

def Caller.stance : Caller → Stance
  | .waiting => .waits
  | .returned => .returned
  | .cancelling | .recording _ | .timedOut => .reports
  | .abandoning | .abandoned => .quits
  | .stopped => .stopped

/-- The worker has found the flag unset. -/
def Worker.tested : Worker → Bool
  | .recording _ _ | .recorded _ => true
  | _ => false

/-- The worker has called the agent and is yet to test the flag. -/
def Worker.untested : Worker → Bool
  | .running | .finished _ => true
  | _ => false

/-- An object is about to be attached to the agent. -/
def Call.attaches (call : Call) : Act → Bool
  | .work => match call.worker with
    | .recording _ (.attach _) => true
    | _ => false
  | .report => match call.caller with
    | .recording (.attach _) => true
    | _ => false
  | _ => false

/-- No worker starts for a caller that has left, no caller reports a timeout of a call whose
worker has found the flag unset, and none leaves a call that its worker would still record. -/
def Call.Clear (call : Call) : Act → Prop
  | .start => call.caller.stance ≠ .quits
  | .giveUp => call.worker.tested = false
  | .abandon => call.worker.untested = false
  | _ => True

/-- The step keeps the records of its call apart, an agent gets its first counters only, and a
refused call has a number of seconds to note. -/
def Guarded (takes : String → Bool) (s : State) : Event → Prop
  | .submit _ _ _ _ => True
  | .refuse _ _ timed _ => timed = true
  | .act index act => ∀ call ∈ s.calls[index]?, call.Clear act ∧
    (call.attaches act = true → takes call.agent = true ∧ s.health call.agent = none)

instance (call : Call) : (act : Act) → Decidable (call.Clear act)
  | .start => inferInstanceAs (Decidable (_ ≠ _))
  | .giveUp | .abandon => inferInstanceAs (Decidable (_ = _))
  | .reject | .finish _ | .work | .take | .report => isTrue trivial

instance (takes : String → Bool) (s : State) :
    (event : Event) → Decidable (Guarded takes s event)
  | .submit _ _ _ _ => isTrue trivial
  | .refuse _ _ _ _ => inferInstanceAs (Decidable (_ = _))
  | .act _ _ => inferInstanceAs (Decidable (∀ call ∈ _, _ ∧ (_ → _ ∧ _)))

end Condition

section Calls

/-- What was noted when a statement of `_note_call` is due. -/
def Recording.noted (status : Status) : Recording → List Status
  | .span => [status]
  | .lookup | .attach _ | .note _ => []

/-- What the worker has noted. -/
def Worker.noted : Worker → List Status
  | .recording status now => now.noted status
  | .recorded status => [status]
  | _ => []

def Worker.spans : Worker → List Status
  | .recorded status => [status]
  | _ => []

/-- What the caller has noted. -/
def Caller.noted : Caller → List Status
  | .recording now => now.noted .timeout
  | .timedOut => [.timeout]
  | _ => []

def Caller.spans : Caller → List Status
  | .timedOut => [.timeout]
  | _ => []

/-- The ways of the caller that go with the worker. -/
def Worker.stances : Worker → List Stance
  | .queued => [.waits, .reports, .quits]
  | .cancelled => [.reports, .quits]
  | .absent | .skipped => [.reports]
  | .rejected => [.waits, .returned, .reports, .quits]
  | .running | .finished _ => [.waits, .reports]
  | .recording _ _ => [.waits, .quits]
  | .recorded _ => [.waits, .returned, .quits]

/-- The records of a call are those of its worker or those of its caller. -/
structure Call.Sound (call : Call) : Prop where
  noted : call.noted = call.worker.noted ++ call.caller.noted
  spans : call.spans = if call.traced then call.worker.spans ++ call.caller.spans else []
  fits : call.caller.stance ∈ call.worker.stances
  flag : call.worker = .absent ∨
    call.flag = decide (call.caller.stance ≠ .waits ∧ call.caller.stance ≠ .returned)
  timed : call.caller.stance = .reports → call.timed = true

/-- The call is about to note its record on the object. -/
def Call.Holds (call : Call) (object : Nat) : Prop :=
  (∃ status, call.worker = .recording status (.note object)) ∨
    call.caller = .recording (.note object)

def Effect.noted : Effect → List Status
  | .note _ status true => [status]
  | _ => []

/-- What a clear step of a sound call does. -/
structure Moves (found : Option Nat) (call : Call) (act : Act) (call' : Call) (effect : Effect) :
    Prop where
  sound : call'.Sound
  agent : call'.agent = call.agent
  noted : call'.noted = call.noted ++ effect.noted
  holds : ∀ object, call'.Holds object →
    call.Holds object ∨ found = some object ∨ effect = .attach object
  note : ∀ object status timed, effect = .note object status timed →
    call.Holds object ∧ timed = true
  attach : ∀ object, effect = .attach object → call.attaches act = true

variable {found : Option Nat} {fresh : Nat} {call call' : Call} {act : Act} {effect : Effect}
  {status : Status}

theorem Caller.silent {caller : Caller} (silent : caller.stance ≠ .reports) :
    caller.noted = [] ∧ caller.spans = [] := by
  cases caller with
  | waiting | returned | abandoning | abandoned | stopped => exact ⟨rfl, rfl⟩
  | cancelling | recording now | timedOut => exact absurd rfl silent

theorem Worker.silent {worker : Worker} (silent : Stance.reports ∈ worker.stances) :
    worker.noted = [] ∧ worker.spans = [] := by
  cases worker with
  | recording status now => simp [stances] at silent
  | recorded status => simp [stances] at silent
  | _ => exact ⟨rfl, rfl⟩

theorem Recording.length_noted (now : Recording) : (now.noted status).length ≤ 1 := by
  cases now <;> simp [noted]

theorem Worker.length_le (worker : Worker) :
    worker.noted.length ≤ 1 ∧ worker.spans.length ≤ 1 := by
  cases worker with
  | recording status now => exact ⟨now.length_noted, Nat.zero_le _⟩
  | recorded status => exact ⟨Nat.le_refl 1, Nat.le_refl 1⟩
  | _ => exact ⟨Nat.zero_le _, Nat.zero_le _⟩

theorem Caller.length_le (caller : Caller) :
    caller.noted.length ≤ 1 ∧ caller.spans.length ≤ 1 := by
  cases caller with
  | recording now => exact ⟨now.length_noted, Nat.zero_le _⟩
  | timedOut => exact ⟨Nat.le_refl 1, Nat.le_refl 1⟩
  | _ => exact ⟨Nat.zero_le _, Nat.zero_le _⟩

theorem Call.Sound.setWorker (sound : call.Sound) {worker : Worker}
    (present : call.worker ≠ .absent) (noted : worker.noted = call.worker.noted)
    (spans : worker.spans = call.worker.spans) (fits : call.caller.stance ∈ worker.stances) :
    Call.Sound { call with worker } where
  noted := by
    rw [noted]
    exact sound.noted
  spans := by
    rw [spans]
    exact sound.spans
  fits := fits
  flag := .inr (sound.flag.resolve_left present)
  timed := sound.timed

theorem Call.Sound.setCaller (sound : call.Sound) {flag : Bool} {caller : Caller}
    (noted : caller.noted = call.caller.noted) (spans : caller.spans = call.caller.spans)
    (fits : caller.stance ∈ call.worker.stances)
    (raised : call.worker = .absent ∨
      flag = decide (caller.stance ≠ .waits ∧ caller.stance ≠ .returned))
    (timed : caller.stance = .reports → call.timed = true) :
    Call.Sound { call with flag, caller } where
  noted := by
    rw [noted]
    exact sound.noted
  spans := by
    rw [spans]
    exact sound.spans
  fits := fits
  flag := raised
  timed := timed

/-- A step that notes nothing. -/
theorem moves_of_sound (sound : call'.Sound) (agent : call'.agent = call.agent)
    (noted : call'.noted = call.noted)
    (holds : ∀ object, call'.Holds object → call.Holds object) :
    Moves found call act call' .none where
  sound := sound
  agent := agent
  noted := by
    rw [noted]
    exact (List.append_nil _).symm
  holds := fun object held => .inl (holds object held)
  note := nofun
  attach := nofun

theorem moves_start (sound : call.Sound) (clear : call.Clear .start)
    (stepped : call.step found fresh .start = some (call', effect)) :
    Moves found call .start call' effect := by
  simp only [Call.step] at stepped
  split_ifs at stepped with queued
  cases stepped
  have fits := sound.fits
  rw [queued] at fits
  refine moves_of_sound (sound.setWorker (by simp [queued]) (by rw [queued]; rfl)
    (by rw [queued]; rfl) ?_) rfl rfl ?_
  · have stays : call.caller.stance ≠ .quits := clear
    revert fits stays
    cases call.caller.stance <;> decide
  · rintro object (⟨_, ⟨⟩⟩ | held)
    exact .inr held

theorem moves_reject (sound : call.Sound)
    (stepped : call.step found fresh .reject = some (call', effect)) :
    Moves found call .reject call' effect := by
  simp only [Call.step] at stepped
  split_ifs at stepped with queued
  cases stepped
  have fits := sound.fits
  rw [queued] at fits
  refine moves_of_sound (sound.setWorker (by simp [queued]) (by rw [queued]; rfl)
    (by rw [queued]; rfl) ?_) rfl rfl ?_
  · revert fits
    cases call.caller.stance <;> decide
  · rintro object (⟨_, ⟨⟩⟩ | held)
    exact .inr held

theorem moves_finish {failed : Bool} (sound : call.Sound)
    (stepped : call.step found fresh (.finish failed) = some (call', effect)) :
    Moves found call (.finish failed) call' effect := by
  simp only [Call.step] at stepped
  rw [Option.ite_none_right_eq_some] at stepped
  obtain ⟨runs, stepped⟩ := stepped
  cases stepped
  have fits := sound.fits
  rw [runs] at fits
  refine moves_of_sound (sound.setWorker (by simp [runs]) (by rw [runs]; rfl)
    (by rw [runs]; rfl) fits) rfl rfl ?_
  rintro object (⟨_, ⟨⟩⟩ | held)
  exact .inr held

theorem moves_take (sound : call.Sound)
    (stepped : call.step found fresh .take = some (call', effect)) :
    Moves found call .take call' effect := by
  simp only [Call.step] at stepped
  split_ifs at stepped with ready
  cases stepped
  obtain ⟨waits, done⟩ := ready
  have fits := sound.fits
  have flag := sound.flag
  rw [waits] at fits flag
  refine moves_of_sound (sound.setCaller (by rw [waits]; rfl) (by rw [waits]; rfl) ?_ flag nofun)
    rfl rfl ?_
  · revert fits done
    cases call.worker <;> simp [Worker.stances, Worker.isDone, Caller.stance]
  · rintro object (held | held)
    · exact .inl held
    · cases held

theorem moves_giveUp (sound : call.Sound) (clear : call.Clear .giveUp)
    (stepped : call.step found fresh .giveUp = some (call', effect)) :
    Moves found call .giveUp call' effect := by
  simp only [Call.step] at stepped
  rw [Option.ite_none_right_eq_some] at stepped
  obtain ⟨⟨waits, -, timed⟩, stepped⟩ := stepped
  cases stepped
  have fits := sound.fits
  rw [waits] at fits
  have untested : call.worker.tested = false := clear
  have reports : Stance.reports ∈ call.worker.stances := by
    revert fits untested
    cases call.worker <;> simp [Worker.stances, Worker.tested, Caller.stance]
  split_ifs
  all_goals
    refine moves_of_sound (sound.setCaller (by rw [waits]; rfl) (by rw [waits]; rfl) reports
      (.inr rfl) fun _ => timed) rfl rfl ?_
    rintro object (held | held)
    · exact .inl held
    · cases held

theorem moves_abandon (sound : call.Sound) (clear : call.Clear .abandon)
    (stepped : call.step found fresh .abandon = some (call', effect)) :
    Moves found call .abandon call' effect := by
  simp only [Call.step] at stepped
  rw [Option.ite_none_right_eq_some] at stepped
  obtain ⟨⟨waits, -⟩, stepped⟩ := stepped
  cases stepped
  have fits := sound.fits
  rw [waits] at fits
  have tested : call.worker.untested = false := clear
  have quits : Stance.quits ∈ call.worker.stances := by
    revert fits tested
    cases call.worker <;> simp [Worker.stances, Worker.untested, Caller.stance]
  split_ifs
  all_goals
    refine moves_of_sound (sound.setCaller (by rw [waits]; rfl) (by rw [waits]; rfl) quits
      (.inr rfl) nofun) rfl rfl ?_
    rintro object (held | held)
    · exact .inl held
    · cases held

/-- What a statement of `_note_call` does. -/
structure Recording.Does (found : Option Nat) (status : Status) (call : Call)
    (now : Recording) (next : Option Recording) (effect : Effect) : Prop where
  record : call.record status now = { call with
    noted := call.noted ++ effect.noted
    spans := call.spans ++ if call.traced ∧ next = .none then [status] else [] }
  noted : next.elim [status] (Recording.noted status) = now.noted status ++ effect.noted
  holds : ∀ object, next = some (.note object) → found = some object ∨ effect = .attach object
  note : ∀ object status' timed, effect = .note object status' timed →
    now = .note object ∧ timed = true
  attach : ∀ object, effect = .attach object → now = .attach object

theorem Recording.does_next (found : Option Nat) (fresh : Nat) (status : Status) (call : Call)
    (now : Recording) :
    now.Does found status call (now.next found fresh status).1
      (now.next found fresh status).2 := by
  obtain ⟨agent, kind, timed, traced, flag, worker, caller, noted, spans⟩ := call
  cases now with
  | lookup =>
      cases found with
      | none => exact ⟨by simp [Call.record, next, Effect.noted], rfl, nofun, nofun, nofun⟩
      | some object =>
          refine ⟨by simp [Call.record, next, Effect.noted], rfl, ?_, nofun, nofun⟩
          rintro _ ⟨⟩
          exact .inl rfl
  | attach object =>
      refine ⟨by simp [Call.record, next, Effect.noted], rfl, ?_, nofun, ?_⟩
      · rintro _ ⟨⟩
        exact .inr rfl
      · rintro _ ⟨⟩
        rfl
  | note object =>
      refine ⟨by simp [Call.record, next, Effect.noted], rfl, nofun, ?_, nofun⟩
      rintro _ _ _ ⟨⟩
      exact ⟨rfl, rfl⟩
  | span =>
      refine ⟨?_, rfl, nofun, nofun, nofun⟩
      cases traced <;> simp [Call.record, next, Effect.noted]

theorem moves_finished {status : Status} (sound : call.Sound)
    (finished : call.worker = .finished status)
    (stepped : call.step found fresh .work = some (call', effect)) :
    Moves found call .work call' effect := by
  obtain ⟨agent, kind, timed, traced, flag, worker, caller, noted, spans⟩ := call
  obtain rfl : worker = .finished status := finished
  cases stepped
  have fits := sound.fits
  have raised := sound.flag.resolve_left nofun
  refine moves_of_sound (sound.setWorker nofun ?_ ?_ ?_) rfl rfl ?_
  · split_ifs <;> rfl
  · split_ifs <;> rfl
  · revert fits raised
    cases flag <;> cases caller <;> simp [Worker.stances, Caller.stance]
  · rintro object (⟨status', held⟩ | held)
    · cases flag <;> cases held
    · exact .inr held

/-- While the worker records, its caller records nothing. -/
theorem moves_recording {status : Status} {now : Recording} (sound : call.Sound)
    (recording : call.worker = .recording status now)
    (stepped : call.step found fresh .work = some (call', effect)) :
    Moves found call .work call' effect := by
  obtain ⟨agent, kind, timed, traced, flag, worker, caller, noted, spans⟩ := call
  obtain rfl : worker = .recording status now := recording
  have fits := sound.fits
  obtain ⟨quiet, still⟩ : Caller.noted caller = [] ∧ Caller.spans caller = [] := by
    apply Caller.silent
    intro reports
    rw [show Call.caller _ = caller from rfl, reports] at fits
    simp [Worker.stances] at fits
  have none_noted : noted = now.noted status ++ Caller.noted caller := sound.noted
  have none_spans : spans = if traced then [] ++ Caller.spans caller else [] := sound.spans
  obtain ⟨record, notes, holds, note, attach⟩ := now.does_next found fresh status
    ⟨agent, kind, timed, traced, flag, .recording status now, caller, noted, spans⟩
  simp only [Call.step, Call.work] at stepped
  generalize now.next found fresh status = taken at *
  obtain ⟨next, effect⟩ := taken
  rw [record] at stepped
  cases stepped
  refine ⟨⟨?_, ?_, ?_, .inr (sound.flag.resolve_left nofun), sound.timed⟩, rfl, rfl, ?_, ?_, ?_⟩
  · rw [quiet, List.append_nil] at none_noted ⊢
    rw [none_noted, ← notes]
    cases next <;> rfl
  · rw [still] at none_spans ⊢
    rw [none_spans]
    cases next <;> cases traced <;> rfl
  · cases next with
    | none =>
        revert fits
        cases caller <;> simp [Worker.stances, Caller.stance]
    | some now => exact fits
  · rintro object (⟨status', held⟩ | held)
    · cases next with
      | none => cases held
      | some now =>
          cases held
          exact .inr (holds object rfl)
    · exact .inl (.inr held)
  · intro object status' timed' noting
    obtain ⟨rfl, timely⟩ := note object status' timed' noting
    exact ⟨.inl ⟨status, rfl⟩, timely⟩
  · intro object attaching
    rw [attach object attaching]
    rfl

/-- The worker tests the flag or records. -/
theorem moves_work (sound : call.Sound)
    (stepped : call.step found fresh .work = some (call', effect)) :
    Moves found call .work call' effect := by
  cases working : call.worker with
  | finished status => exact moves_finished sound working stepped
  | recording status now => exact moves_recording sound working stepped
  | _ => simp [Call.step, Call.work, working] at stepped

/-- The caller goes its way behind `future.cancel`. -/
theorem moves_cancel {caller : Caller} (sound : call.Sound)
    (gone : call.caller.stance = .reports ∨ call.caller.stance = .quits)
    (way : caller.stance = call.caller.stance) (noted : caller.noted = call.caller.noted)
    (spans : caller.spans = call.caller.spans)
    (quiet : ∀ object, caller ≠ .recording (.note object)) :
    Moves found call .report { call.cancel with caller } .none := by
  have fits := sound.fits
  have raised := sound.flag
  have timed := sound.timed
  rw [Call.cancel]
  split_ifs with queued
  · have cancelled : Call.Sound { call with worker := .cancelled } := by
      rw [queued] at fits
      refine sound.setWorker (by simp [queued]) (by rw [queued]; rfl) (by rw [queued]; rfl) ?_
      obtain reports | quits := gone
      · rw [reports]
        decide
      · rw [quits]
        decide
    refine moves_of_sound (cancelled.setCaller noted spans ?_ ?_ ?_) rfl rfl ?_
    · rw [way]
      exact cancelled.fits
    · rw [way]
      exact cancelled.flag
    · rw [way]
      exact timed
    · rintro object (⟨_, ⟨⟩⟩ | held)
      exact absurd held (quiet object)
  · refine moves_of_sound (sound.setCaller noted spans ?_ ?_ ?_) rfl rfl ?_
    · rw [way]
      exact fits
    · rw [way]
      exact raised
    · rw [way]
      exact timed
    · rintro object (held | held)
      · exact .inl held
      · exact absurd held (quiet object)

/-- The caller records a timeout, or leaves. -/
theorem moves_report (sound : call.Sound)
    (stepped : call.step found fresh .report = some (call', effect)) :
    Moves found call .report call' effect := by
  obtain ⟨agent, kind, timed, traced, flag, worker, caller, noted, spans⟩ := call
  cases caller with
  | cancelling =>
      cases stepped
      exact moves_cancel sound (.inl rfl) rfl rfl rfl nofun
  | abandoning =>
      cases stepped
      exact moves_cancel sound (.inr rfl) rfl rfl rfl nofun
  | recording now =>
      have fits := sound.fits
      have timely : timed = true := sound.timed rfl
      subst timely
      obtain ⟨quiet, still⟩ : Worker.noted worker = [] ∧ Worker.spans worker = [] :=
        Worker.silent fits
      have none_noted : noted = Worker.noted worker ++ now.noted .timeout := sound.noted
      have none_spans : spans = if traced then Worker.spans worker ++ [] else [] := sound.spans
      obtain ⟨record, notes, holds, note, attach⟩ := now.does_next found fresh .timeout
        ⟨agent, kind, true, traced, flag, worker, .recording now, noted, spans⟩
      simp only [Call.step, Call.report] at stepped
      generalize now.next found fresh .timeout = taken at *
      obtain ⟨next, effect⟩ := taken
      rw [record] at stepped
      cases stepped
      refine ⟨⟨?_, ?_, ?_, ?_, fun _ => rfl⟩, rfl, rfl, ?_, ?_, ?_⟩
      · rw [quiet, List.nil_append] at none_noted ⊢
        rw [none_noted, ← notes]
        cases next <;> rfl
      · rw [still] at none_spans ⊢
        rw [none_spans]
        cases next <;> cases traced <;> rfl
      · cases next <;> exact fits
      · cases next <;> exact sound.flag
      · rintro object (held | held)
        · exact .inl (.inl held)
        · cases next with
          | none => cases held
          | some now =>
              cases held
              exact .inr (holds object rfl)
      · intro object status' timed' noting
        obtain ⟨rfl, timely⟩ := note object status' timed' noting
        exact ⟨.inr rfl, timely⟩
      · intro object attaching
        rw [attach object attaching]
        rfl
  | _ => cases stepped

theorem moves_step (sound : call.Sound) (clear : call.Clear act)
    (stepped : call.step found fresh act = some (call', effect)) :
    Moves found call act call' effect := by
  cases act with
  | start => exact moves_start sound clear stepped
  | reject => exact moves_reject sound stepped
  | finish failed => exact moves_finish sound stepped
  | work => exact moves_work sound stepped
  | take => exact moves_take sound stepped
  | giveUp => exact moves_giveUp sound clear stepped
  | abandon => exact moves_abandon sound clear stepped
  | report => exact moves_report sound stepped

end Calls

section Runs

variable {takes : String → Bool} {s t : State} {agent other : String} {effect : Effect}
  {call call' : Call} {calls : List Call}

theorem tally_append (records : List Status) (status : Status) :
    tally (records ++ [status]) = (tally records).note status true := by
  cases status <;> simp [tally, Health.note, List.count_append]

theorem tally_perm {records records' : List Status} (perm : records.Perm records') :
    tally records = tally records' := by
  simp only [tally, perm.length_eq, perm.count_eq]

theorem balanced_tally (records : List Status) : (tally records).calls =
    (tally records).ok + (tally records).errors + (tally records).timeouts := by
  simp only [tally]
  induction records with
  | nil => rfl
  | cons status records ih =>
      cases status <;> simp only [List.length_cons, List.count_cons, ih] <;> simp <;> omega

theorem records_cons (call : Call) (calls : List Call) (agent : String) :
    records (call :: calls) agent =
      (if call.agent = agent then call.noted else []) ++ records calls agent := by
  by_cases own : call.agent = agent <;> simp [records, own]

theorem records_perm {calls calls' : List Call} (perm : calls.Perm calls') (agent : String) :
    (records calls agent).Perm (records calls' agent) :=
  (perm.filter _).flatMap_right _

/-- What a step adds to the notes of its call is added to the records of its agent. -/
theorem records_set {index : Nat} {more : List Status} (found : calls[index]? = some call)
    (agent : call'.agent = call.agent) (noted : call'.noted = call.noted ++ more)
    (other : String) : (records (calls.set index call') other).Perm
      (records calls other ++ if call.agent = other then more else []) := by
  obtain ⟨inside, here⟩ := List.getElem?_eq_some_iff.mp found
  have before := records_perm (List.getElem_cons_eraseIdx_perm inside) other
  have after := records_perm (List.set_perm_cons_eraseIdx inside call') other
  rw [here, records_cons] at before
  rw [records_cons, agent, noted] at after
  refine after.trans (.trans ?_ (before.append_right _))
  split_ifs
  · rw [List.append_assoc, List.append_assoc]
    exact List.Perm.append_left _ List.perm_append_comm
  · simp

/-- The effect reaches the counters of its agent: the first object is attached, and notes are made
on the object that the agent has. -/
structure Reaches (takes : String → Bool) (s : State) (agent : String) (effect : Effect) :
    Prop where
  attach : ∀ object, effect = .attach object → takes agent = true ∧ s.health agent = none
  note : ∀ object status timed, effect = .note object status timed →
    s.object agent = some object ∧ timed = true

theorem health_attach {object : Nat} (can : takes agent = true) :
    (s.apply takes agent (.attach object)).health =
      Function.update s.health agent (some (object, .empty)) := by
  rw [State.apply, if_pos can]

theorem health_note {object : Nat} {status : Status} {timed : Bool} {health : Health}
    (has : s.health agent = some (object, health)) :
    (s.apply takes agent (.note object status timed)).health =
      Function.update s.health agent (some (object, health.note status timed)) := by
  simp only [State.apply, has, if_pos]

/-- The object of an agent stays. -/
theorem object_apply (reaches : Reaches takes s agent effect) {object : Nat}
    (has : s.object other = some object) : (s.apply takes agent effect).object other =
      some object := by
  cases effect with
  | none | make => exact has
  | attach new =>
      obtain ⟨can, unmade⟩ := reaches.attach new rfl
      have apart : other ≠ agent := by
        rintro rfl
        rw [State.object, unmade] at has
        cases has
      rw [State.object, health_attach can, Function.update_of_ne apart]
      exact has
  | note own status timed =>
      obtain ⟨mine, -⟩ := reaches.note own status timed rfl
      obtain ⟨⟨_, health⟩, made, rfl⟩ := Option.map_eq_some_iff.mp mine
      rw [State.object, health_note made]
      by_cases same : other = agent
      · subst same
        rw [State.object, made] at has
        rw [Function.update_self]
        exact has
      · rw [Function.update_of_ne same]
        exact has

theorem object_attach {object : Nat} (reaches : Reaches takes s agent (.attach object)) :
    (s.apply takes agent (.attach object)).object agent = some object := by
  rw [State.object, health_attach (reaches.attach object rfl).1, Function.update_self]
  rfl

/-- The counters go along with the records. -/
theorem counters_apply (reaches : Reaches takes s agent effect) {records : List Status}
    (counted : s.counters agent = tally records) :
    (s.apply takes agent effect).counters agent = tally (records ++ effect.noted) := by
  cases effect with
  | none | make =>
      simp only [Effect.noted, List.append_nil]
      exact counted
  | attach new =>
      obtain ⟨can, unmade⟩ := reaches.attach new rfl
      rw [State.counters, unmade] at counted
      rw [State.counters, health_attach can, Function.update_self]
      simp only [Effect.noted, List.append_nil]
      exact counted
  | note own status timed =>
      obtain ⟨mine, rfl⟩ := reaches.note own status timed rfl
      obtain ⟨⟨_, health⟩, made, rfl⟩ := Option.map_eq_some_iff.mp mine
      rw [State.counters, made] at counted
      rw [State.counters, health_note made, Function.update_self, Effect.noted, tally_append,
        ← counted]
      rfl

theorem counters_apply_of_ne (apart : other ≠ agent) :
    (s.apply takes agent effect).counters other = s.counters other := by
  have health : (s.apply takes agent effect).health other = s.health other := by
    cases effect with
    | none | make => rfl
    | attach new =>
        rw [State.apply]
        split_ifs
        · exact Function.update_of_ne apart _ _
        · rfl
    | note own status timed =>
        rw [State.apply]
        split
        · split_ifs
          · exact Function.update_of_ne apart _ _
          · rfl
        · rfl
  rw [State.counters, State.counters, health]

/-- The invariant of the guarded runs. -/
structure Inv (s : State) : Prop where
  sound : ∀ call ∈ s.calls, call.Sound
  holds : ∀ call ∈ s.calls, ∀ object, call.Holds object → s.object call.agent = some object
  counted : ∀ agent, s.counters agent = tally (records s.calls agent)

theorem inv_start : Inv start where
  sound := by simp [start]
  holds := by simp [start]
  counted := fun _ => rfl

/-- A call that begins has noted nothing. -/
theorem inv_append (inv : Inv s) (sound : call.Sound) (quiet : ∀ object, ¬ call.Holds object)
    (noted : call.noted = []) : Inv { s with calls := s.calls ++ [call] } where
  sound := by
    intro other member
    obtain old | rfl := List.mem_append.mp member |>.imp_right List.mem_singleton.mp
    · exact inv.sound other old
    · exact sound
  holds := by
    intro other member object held
    obtain old | rfl := List.mem_append.mp member |>.imp_right List.mem_singleton.mp
    · exact inv.holds other old object held
    · exact absurd held (quiet object)
  counted := by
    intro agent
    have same : records (s.calls ++ [call]) agent = records s.calls agent := by
      by_cases own : call.agent = agent <;> simp [records, own, noted]
    rw [same]
    exact inv.counted agent

theorem inv_act (inv : Inv s) {index : Nat} {act : Act} (found : s.calls[index]? = some call)
    (clear : call.Clear act)
    (first : call.attaches act = true → takes call.agent = true ∧ s.health call.agent = none)
    (stepped : call.step (s.object call.agent) s.made act = some (call', effect))
    (health : t.health = (s.apply takes call.agent effect).health)
    (calls : t.calls = s.calls.set index call') : Inv t := by
  have object (other : String) : t.object other = (s.apply takes call.agent effect).object other :=
    congrArg (fun health => (health other).map Prod.fst) health
  have counters (other : String) :
      t.counters other = (s.apply takes call.agent effect).counters other :=
    congrArg (fun health => (health other).elim .empty Prod.snd) health
  have member := List.mem_of_getElem? found
  have moves := moves_step (inv.sound call member) clear stepped
  have reaches : Reaches takes s call.agent effect := by
    constructor
    · intro object attaching
      exact first (moves.attach object attaching)
    · intro object status timed noting
      obtain ⟨held, timely⟩ := moves.note object status timed noting
      exact ⟨inv.holds call member object held, timely⟩
  constructor
  · intro other among
    rw [calls] at among
    obtain old | rfl := List.mem_or_eq_of_mem_set among
    · exact inv.sound other old
    · exact moves.sound
  · intro other among own held
    rw [calls] at among
    rw [object]
    obtain old | rfl := List.mem_or_eq_of_mem_set among
    · exact object_apply reaches (inv.holds other old own held)
    · rw [moves.agent]
      obtain before | has | rfl := moves.holds own held
      · exact object_apply reaches (inv.holds call member own before)
      · exact object_apply reaches has
      · exact object_attach reaches
  · intro agent
    rw [counters, calls, tally_perm (records_set found moves.agent moves.noted agent)]
    split_ifs with own
    · subst own
      exact counters_apply reaches (inv.counted call.agent)
    · rw [List.append_nil, ← inv.counted agent]
      exact counters_apply_of_ne (Ne.symm own)

theorem inv_step {event : Event} (inv : Inv s) (guarded : Guarded takes s event)
    (stepped : step takes s event = some t) : Inv t := by
  cases event with
  | submit agent kind timed traced =>
      simp only [step] at stepped
      split_ifs at stepped
      cases stepped
      refine inv_append inv ⟨rfl, by simp [Worker.spans, Caller.spans], ?_, .inr rfl, nofun⟩ ?_ rfl
      · exact List.mem_cons_self
      · rintro object (⟨_, held⟩ | held) <;> cases held
  | refuse agent kind timed traced =>
      simp only [step] at stepped
      split_ifs at stepped
      cases stepped
      refine inv_append inv ⟨rfl, by simp [Worker.spans, Caller.spans], ?_, .inl rfl,
        fun _ => guarded⟩ ?_ rfl
      · exact List.mem_cons_self
      · rintro object (⟨_, held⟩ | held) <;> cases held
  | act index act =>
      obtain ⟨call, found, stepped⟩ := Option.bind_eq_some_iff.mp stepped
      obtain ⟨⟨call', effect⟩, moved, rfl⟩ := Option.map_eq_some_iff.mp stepped
      obtain ⟨clear, first⟩ := guarded call found
      exact inv_act inv found clear first moved rfl rfl

theorem Call.Sound.timedOut (sound : call.Sound) (gone : call.caller = .timedOut) :
    call.RecordedAs .timeout := by
  have noted := sound.noted
  have spans := sound.spans
  have fits := sound.fits
  rw [gone] at noted spans fits
  obtain ⟨quiet, still⟩ := Worker.silent fits
  rw [quiet] at noted
  rw [still] at spans
  exact ⟨noted, spans⟩

/-- A call has its record from the worker or from the caller. -/
theorem Call.Sound.recorded (sound : call.Sound) (caller : call.caller.atRest = true)
    (due : call.RanOrTimedOut) : ∃ status, call.RecordedAs status := by
  have fits := sound.fits
  obtain skipped | ⟨status, recorded⟩ | gone := due
  · have gone : call.caller = .timedOut := by
      rw [skipped] at fits
      revert fits caller
      cases call.caller <;> simp [Worker.stances, Caller.stance, Caller.atRest]
    exact ⟨.timeout, sound.timedOut gone⟩
  · have noted := sound.noted
    have spans := sound.spans
    rw [recorded] at noted spans fits
    obtain ⟨quiet, still⟩ : call.caller.noted = [] ∧ call.caller.spans = [] := by
      apply Caller.silent
      intro reports
      rw [reports] at fits
      simp [Worker.stances] at fits
    rw [quiet] at noted
    rw [still] at spans
    exact ⟨status, noted, spans⟩
  · exact ⟨.timeout, sound.timedOut gone⟩

theorem Call.Sound.atMost (sound : call.Sound) :
    call.noted.length ≤ 1 ∧ call.spans.length ≤ 1 := by
  have fits := sound.fits
  have worker := call.worker.length_le
  have caller := call.caller.length_le
  rw [sound.noted, sound.spans]
  by_cases reports : call.caller.stance = .reports
  · rw [reports] at fits
    obtain ⟨quiet, still⟩ := Worker.silent fits
    rw [quiet, still]
    refine ⟨caller.1, ?_⟩
    split_ifs
    · exact caller.2
    · exact Nat.zero_le _
  · obtain ⟨quiet, still⟩ := Caller.silent reports
    rw [quiet, still, List.append_nil, List.append_nil]
    refine ⟨worker.1, ?_⟩
    split_ifs
    · exact worker.2
    · exact Nat.zero_le _

theorem Inv.oneRecord (inv : Inv s) : OneRecord s where
  balanced := by
    intro agent
    rw [inv.counted]
    exact balanced_tally _
  counted := inv.counted
  atMost := fun call member => (inv.sound call member).atMost
  recorded := fun call member => (inv.sound call member).recorded
  timeouts := fun call member => (inv.sound call member).timedOut

/-- A call that times out while it runs, and one that its worker records. -/
def late : List Event :=
  [.submit "a" .single true true, .submit "a" .parallel true true, .act 0 .start, .act 0 .giveUp,
    .act 0 .report, .act 0 .report, .act 0 .report, .act 1 .start, .act 0 (.finish false),
    .act 0 .report, .act 0 .work, .act 1 (.finish true), .act 1 .work, .act 1 .work, .act 1 .work,
    .act 1 .work, .act 1 .take]

/-- The caller gives up a call that its worker has recorded. -/
def twice : List Event :=
  [.submit "a" .single true true, .act 0 .start, .act 0 (.finish false), .act 0 .work,
    .act 0 .work, .act 0 .work, .act 0 .work, .act 0 .work, .act 0 .giveUp, .act 0 .report,
    .act 0 .report, .act 0 .report]

/-- The run deadline ends the wait for a call that runs. -/
def unrecorded : List Event :=
  [.submit "a" .single true true, .act 0 .start, .act 0 .abandon, .act 0 (.finish false),
    .act 0 .work]

/-- Without a timeout a submit is refused. -/
def untimed : List Event :=
  [.refuse "a" .parallel false true, .act 0 .report, .act 0 .report, .act 0 .report]

/-- Two workers look for the counters of their agent before one of them attaches some. -/
def overwritten : List Event :=
  [.submit "a" .parallel true true, .submit "a" .parallel true true, .act 0 .start, .act 1 .start,
    .act 0 (.finish false), .act 1 (.finish false), .act 0 .work, .act 1 .work, .act 0 .work,
    .act 1 .work, .act 0 .work, .act 0 .work, .act 0 .work, .act 1 .work, .act 1 .work,
    .act 1 .work]

end Runs

end CallRecords

end MultiAgent.Plugin
