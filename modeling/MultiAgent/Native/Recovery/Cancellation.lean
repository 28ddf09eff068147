import MultiAgent.Native.Recovery.Timeout

/-!
# The abort of a recovery run

The two openings of `RecoveryManager.run` in detail: the flight of a `Supervisor.run`, which
listens to the signal and to its timer and is over before the loop goes on with its outcome,
and the `delay` of `recovery/retry-policy.ts`, which the signal ends at once. What the
strategy of a flight does is free. The observer does not abort the signal.
-/

namespace MultiAgent.Native.Recovery

namespace RecoveryManager

/-- What `run` waits for. -/
inductive Opening where
  /-- `Supervisor.run` waits for its strategy. -/
  | flight (routed : RoutedPlan) (latches : Supervisor.Latches)
  /-- `Supervisor.run` is over, and the loop has not gone on yet. -/
  | resolved (outcome : Except Thrown SupervisorRunResult)
  /-- The timer of `delay` runs. -/
  | delay
  /-- `delay` is over, and the loop has not gone on yet. -/
  | elapsed
  /-- `run` has returned. -/
  | closed
  deriving DecidableEq, Repr

/-- A run at one of its openings, with the plans whose `Supervisor.run` was started. -/
structure Awaiting where
  state : State
  opening : Opening
  started : List RoutedPlan

namespace Awaiting

variable (manager : RecoveryManager)

/-- The opening that the loop comes to. `delay` resolves at once without a positive time, and
when the signal has aborted. -/
def openingOf (t : State) : Opening :=
  match t.phase with
  | .running routed => .flight routed ⟨t.aborted, false⟩
  | .delaying => if manager.policy.delayMs ≤ 0 ∨ t.aborted = true then .elapsed else .delay
  | .returned _ => .closed

def startedBy (t : State) : List RoutedPlan :=
  match t.phase with
  | .running routed => [routed]
  | .delaying | .returned _ => []

/-- The loop went on to its next opening. -/
def continued (started : List RoutedPlan) (t : State) : Awaiting :=
  ⟨t, openingOf manager t, started ++ startedBy t⟩

inductive Event where
  /-- The strategy of the flight returns a report. -/
  | report (report : SupervisorStrategyReport) (durationMs : Int)
  /-- The strategy of the flight throws. -/
  | strategyThrows
  /-- `Supervisor.run` throws outside its strategy. -/
  | refuse (error : Thrown)
  /-- The timer of the flight fires. -/
  | timeout
  | resume
  | delayTimer
  | wake
  | abort

/-- The listeners of the signal. -/
def onAbort : Opening → Opening
  | .flight routed latches => .flight routed { latches with cancelled := true }
  | .delay => .elapsed
  | opening => opening

/-- What a strategy that ends makes of a flight. -/
def resolve (routed : RoutedPlan)
    (outcome : SupervisorRunInput → Except Thrown SupervisorRunResult) : Option Opening :=
  match manager.supervisorInput routed with
  | .ok input => some (.resolved (outcome input))
  | .error _ => none

def step (s : Awaiting) : Event → Option Awaiting
  | .report report durationMs =>
    match s.opening with
    | .flight routed latches =>
      (resolve manager routed fun input =>
        .ok (Supervisor.aggregate input report durationMs latches)).map fun opening =>
          { s with opening }
    | _ => none
  | .strategyThrows =>
    match s.opening with
    | .flight routed latches =>
      (resolve manager routed fun input =>
        .error (.supervisor (Supervisor.dispatchError input latches))).map fun opening =>
          { s with opening }
    | _ => none
  | .refuse error =>
    match s.opening with
    | .flight _ _ => some { s with opening := .resolved (.error error) }
    | _ => none
  | .timeout =>
    match s.opening with
    | .flight routed latches =>
      if manager.options.timeoutMs.isSome ∧ latches.timedOut = false then
        some { s with opening := .flight routed { latches with timedOut := true } }
      else none
    | _ => none
  | .resume =>
    match s.opening with
    | .resolved outcome =>
      (manager.step s.state (.settle outcome)).map (continued manager s.started)
    | _ => none
  | .delayTimer =>
    match s.opening with
    | .delay => some { s with opening := .elapsed }
    | _ => none
  | .wake =>
    match s.opening with
    | .elapsed => (manager.step s.state .wake).map (continued manager s.started)
    | _ => none
  | .abort =>
    (manager.step s.state .abort).map fun state =>
      { s with state, opening := onAbort s.opening }

def machine : Machine Awaiting Event := ⟨step manager⟩

/-- `run(plan, options)` up to its first opening. -/
def start (plan : PlannerPlan) (aborted : Bool) : Awaiting :=
  continued manager [] (manager.start plan aborted)

variable {manager} {plan : PlannerPlan} {aborted : Bool} {s t u : Awaiting} {e : Event}
  {es : List Event}

/-- A flight whose signal has aborted does not complete. -/
theorem aggregate_cancelled {input : SupervisorRunInput} {report : SupervisorStrategyReport}
    {durationMs : Int} {latches : Supervisor.Latches} (cancelled : latches.cancelled = true) :
    (Supervisor.aggregate input report durationMs latches).status ≠ .completed := by
  rw [Supervisor.aggregate]
  dsimp only
  cases latches.timedOut <;> simp [cancelled]

/-- What one event can do. -/
theorem step_cases (transition : step manager s e = some t) :
    (∃ routed latches outcome, s.opening = .flight routed latches ∧
      (latches.cancelled = true →
        ∀ result, outcome = .ok result → result.status ≠ .completed) ∧
      t = { s with opening := .resolved outcome }) ∨
    (∃ routed latches, s.opening = .flight routed latches ∧ latches.timedOut = false ∧
      t = { s with opening := .flight routed { latches with timedOut := true } }) ∨
    (∃ outcome v, s.opening = .resolved outcome ∧
      manager.step s.state (.settle outcome) = some v ∧ t = continued manager s.started v) ∨
    (s.opening = .delay ∧ t = { s with opening := .elapsed }) ∨
    (∃ v, s.opening = .elapsed ∧ manager.step s.state .wake = some v ∧
      t = continued manager s.started v) ∨
    ∃ v, manager.step s.state .abort = some v ∧
      t = { s with state := v, opening := onAbort s.opening } := by
  cases e with
  | report report durationMs =>
      cases opening : s.opening with
      | flight routed latches =>
          simp only [step, opening, resolve] at transition
          split at transition
          · rename_i input accepted
            cases transition
            refine .inl ⟨routed, latches, _, rfl, ?_, rfl⟩
            rintro cancelled result ⟨rfl⟩
            exact aggregate_cancelled cancelled
          · cases transition
      | _ => simp [step, opening] at transition
  | strategyThrows =>
      cases opening : s.opening with
      | flight routed latches =>
          simp only [step, opening, resolve] at transition
          split at transition
          · cases transition
            exact .inl ⟨routed, latches, _, rfl, by simp, rfl⟩
          · cases transition
      | _ => simp [step, opening] at transition
  | refuse error =>
      cases opening : s.opening with
      | flight routed latches =>
          simp only [step, opening, Option.some.injEq] at transition
          exact .inl ⟨routed, latches, _, rfl, by simp, transition.symm⟩
      | _ => simp [step, opening] at transition
  | timeout =>
      cases opening : s.opening with
      | flight routed latches =>
          simp only [step, opening, Option.ite_none_right_eq_some, Option.some.injEq]
            at transition
          exact .inr (.inl ⟨routed, latches, rfl, transition.1.2, transition.2.symm⟩)
      | _ => simp [step, opening] at transition
  | resume =>
      cases opening : s.opening with
      | resolved outcome =>
          simp only [step, opening] at transition
          obtain ⟨v, taken, rfl⟩ := Option.map_eq_some_iff.mp transition
          exact .inr (.inr (.inl ⟨outcome, v, rfl, taken, rfl⟩))
      | _ => simp [step, opening] at transition
  | delayTimer =>
      cases opening : s.opening with
      | delay =>
          simp only [step, opening, Option.some.injEq] at transition
          exact .inr (.inr (.inr (.inl ⟨rfl, transition.symm⟩)))
      | _ => simp [step, opening] at transition
  | wake =>
      cases opening : s.opening with
      | elapsed =>
          simp only [step, opening] at transition
          obtain ⟨v, taken, rfl⟩ := Option.map_eq_some_iff.mp transition
          exact .inr (.inr (.inr (.inr (.inl ⟨v, rfl, taken, rfl⟩))))
      | _ => simp [step, opening] at transition
  | abort =>
      obtain ⟨v, taken, rfl⟩ := Option.map_eq_some_iff.mp transition
      exact .inr (.inr (.inr (.inr (.inr ⟨v, taken, rfl⟩))))

/-- The detailed runs are runs of the recovery loop. -/
theorem refines (reaches : (machine manager).run (start manager plan aborted) es = some s) :
    ∃ fs, manager.Reaches plan aborted fs s.state := by
  refine Machine.run_simulation (n := manager.machine) Awaiting.state ?_ reaches
  intro s e t transition
  obtain ⟨_, _, _, -, -, rfl⟩ | ⟨_, _, -, -, rfl⟩ | ⟨outcome, v, -, taken, rfl⟩ | ⟨-, rfl⟩ |
    ⟨v, -, taken, rfl⟩ | ⟨v, taken, rfl⟩ := step_cases transition
  · exact .inl rfl
  · exact .inl rfl
  · exact .inr ⟨.settle outcome, taken⟩
  · exact .inl rfl
  · exact .inr ⟨.wake, taken⟩
  · exact .inr ⟨.abort, taken⟩

/-- What the loop waits for fits the state that it is in. -/
def Fits (t : State) : Opening → Prop
  | .flight routed latches => t.phase = .running routed ∧ latches.cancelled = t.aborted
  | .resolved _ => ∃ routed, t.phase = .running routed
  | .delay => t.phase = .delaying ∧ t.aborted = false
  | .elapsed => t.phase = .delaying
  | .closed => ∃ status, t.phase = .returned status

theorem fits_openingOf (manager : RecoveryManager) (t : State) : Fits t (openingOf manager t) := by
  rw [openingOf]
  cases phase : t.phase with
  | running routed => exact ⟨phase, rfl⟩
  | delaying =>
      by_cases elapsed : manager.policy.delayMs ≤ 0 ∨ t.aborted = true
      · simp only [elapsed, if_true]
        exact phase
      · simp only [elapsed, if_false]
        exact ⟨phase, by simpa using (not_or.mp elapsed).2⟩
  | returned status => exact ⟨status, phase⟩

theorem state_of_abort {s t : State} (taken : manager.step s .abort = some t) :
    s.aborted = false ∧ t = { s with aborted := true } := by
  rw [RecoveryManager.step] at taken
  split at taken
  · cases taken
  · rename_i going
    cases taken
    exact ⟨by simpa using going, rfl⟩

theorem fits_step (fits : Fits s.state s.opening) (transition : step manager s e = some t) :
    Fits t.state t.opening := by
  obtain ⟨routed, latches, _, here, -, rfl⟩ | ⟨routed, latches, here, -, rfl⟩ |
    ⟨_, v, -, taken, rfl⟩ | ⟨here, rfl⟩ | ⟨v, -, taken, rfl⟩ | ⟨v, taken, rfl⟩ :=
    step_cases transition
  · rw [here] at fits
    exact ⟨routed, fits.1⟩
  · rw [here] at fits
    exact fits
  · exact fits_openingOf manager v
  · rw [here] at fits
    exact fits.1
  · exact fits_openingOf manager v
  · obtain ⟨-, rfl⟩ := state_of_abort taken
    cases opening : s.opening with
    | flight routed latches =>
        rw [opening] at fits
        exact ⟨fits.1, rfl⟩
    | resolved outcome =>
        rw [opening] at fits
        exact fits
    | delay =>
        rw [opening] at fits
        exact fits.1
    | elapsed =>
        rw [opening] at fits
        exact fits
    | closed =>
        rw [opening] at fits
        exact fits

theorem fits_run (reaches : (machine manager).run (start manager plan aborted) es = some s) :
    Fits s.state s.opening :=
  Machine.run_invariant (P := fun s => Fits s.state s.opening)
    (fun _ _ _ inv transition => fits_step inv transition)
    (fits_openingOf manager (manager.start plan aborted)) reaches

section Abort

/-- The loop returned in `v`, in a run that was at `s` when its signal aborted: a flight that
had completed is reported, and every other run is cancelled. -/
def Ended (s : Awaiting) (v : State) : Prop :=
  (v.phase = .returned .cancelled ∧ v.decisions = s.state.decisions ++ [.abort]) ∨
  ∃ result, s.opening = .resolved (.ok result) ∧ result.status = .completed ∧
    v.phase = .returned .completed ∧ v.decisions = s.state.decisions ++ [.completed]

/-- Where a run can be that was at `s` when its signal aborted. -/
structure Stopping (s u : Awaiting) : Prop where
  aborted : u.state.aborted = true
  started : u.started = s.started
  waits : u.opening ≠ .delay
  decisions : u.opening ≠ .closed → u.state.decisions = s.state.decisions
  resolved : ∀ result, u.opening = .resolved (.ok result) → result.status = .completed →
    s.opening = .resolved (.ok result)
  ended : u.opening = .closed → Ended s u.state

/-- The events that are left at most, behind the abort. -/
def left : Opening → Nat
  | .flight _ latches => if latches.timedOut then 2 else 3
  | .resolved _ | .elapsed => 1
  | .delay => 2
  | .closed => 0

theorem stopping_abort (pending : s.opening ≠ .closed)
    (aborts : step manager s .abort = some t) : Stopping s t := by
  obtain ⟨v, taken, rfl⟩ := Option.map_eq_some_iff.mp aborts
  obtain ⟨-, rfl⟩ := state_of_abort taken
  refine ⟨rfl, rfl, ?_, fun _ => rfl, ?_, ?_⟩
  · cases opening : s.opening <;> simp [onAbort]
  · rintro result here -
    cases opening : s.opening <;> simp_all [onAbort]
  · intro closed
    cases opening : s.opening <;> simp_all [onAbort]

/-- The loop goes on with an aborted signal: it returns. -/
theorem stopping_continued {v : State} {status : RecoveryStatus} (stopping : Stopping s u)
    (phase : v.phase = .returned status) (aborted : v.aborted = true) (ended : Ended s v) :
    Stopping s (continued manager u.started v) ∧ openingOf manager v = .closed := by
  have closed : openingOf manager v = .closed := by simp only [openingOf, phase]
  have none_ : startedBy v = [] := by simp only [startedBy, phase]
  refine ⟨⟨aborted, ?_, ?_, ?_, ?_, fun _ => ended⟩, closed⟩
  · simp [continued, none_, stopping.started]
  · simp [continued, closed]
  · simp [continued, closed]
  · simp [continued, closed]

theorem caught_of_aborted {s : State} (aborted : s.aborted = true) (error : Thrown) :
    manager.caught s error = manager.finish
      (manager.recordFailure s (classifyThrown error s.attempts)) .cancelled .abort := by
  simp [caught, decideThrown, recordFailure, aborted]

theorem settled_of_aborted {s : State} {routed : RoutedPlan} {result : SupervisorRunResult}
    (aborted : s.aborted = true) (failed : result.status ≠ .completed) :
    manager.settled s routed result =
      manager.finish (manager.failedWith s result) .cancelled .abort := by
  simp [settled, decideResult, failedWith, recordFailure, aborted, failed]

theorem next_of_aborted {s : State} (aborted : s.aborted = true) :
    manager.next s = manager.finish s .cancelled .abort := by
  simp [next, aborted]

/-- The loop goes on with the outcome of a flight. -/
theorem stopping_settled {outcome : Except Thrown SupervisorRunResult} {routed : RoutedPlan}
    {v : State} (stopping : Stopping s u) (here : u.opening = .resolved outcome)
    (running : u.state.phase = .running routed)
    (taken : manager.step u.state (.settle outcome) = some v) :
    Stopping s (continued manager u.started v) ∧ openingOf manager v = .closed := by
  have decisions := stopping.decisions (by simp [here])
  cases outcome with
  | error error =>
      rw [step_settle_thrown running, caught_of_aborted stopping.aborted] at taken
      cases taken
      refine stopping_continued stopping rfl stopping.aborted ?_
      exact .inl ⟨rfl, congrArg (· ++ [RecoveryDecision.abort]) decisions⟩
  | ok result =>
      simp only [RecoveryManager.step, running, Option.some.injEq] at taken
      by_cases completed : result.status = .completed
      · simp only [settled, completed, if_true] at taken
        subst taken
        refine stopping_continued stopping rfl stopping.aborted ?_
        exact .inr ⟨result, stopping.resolved result here completed, completed, rfl,
          congrArg (· ++ [RecoveryDecision.completed]) decisions⟩
      · rw [settled_of_aborted stopping.aborted completed] at taken
        subst taken
        refine stopping_continued stopping rfl stopping.aborted ?_
        exact .inl ⟨rfl, congrArg (· ++ [RecoveryDecision.abort]) decisions⟩

/-- Behind the abort every event brings the run nearer to its return. -/
theorem Stopping.step (stopping : Stopping s t) (fits : Fits t.state t.opening)
    (transition : step manager t e = some u) :
    Stopping s u ∧ left u.opening < left t.opening := by
  obtain ⟨routed, latches, outcome, here, cancelled, rfl⟩ | ⟨routed, latches, here, unset, rfl⟩ |
    ⟨outcome, v, here, taken, rfl⟩ | ⟨here, rfl⟩ | ⟨v, here, taken, rfl⟩ | ⟨v, taken, rfl⟩ :=
    step_cases transition
  · rw [here] at fits
    have decisions := stopping.decisions (by simp [here])
    constructor
    · refine ⟨stopping.aborted, stopping.started, by simp, fun _ => decisions, ?_, by simp⟩
      intro result same completed
      have returned : outcome = .ok result := by simpa using same
      exact absurd completed (cancelled (fits.2.trans stopping.aborted) result returned)
    · cases fired : latches.timedOut <;> simp [here, left, fired]
  · have decisions := stopping.decisions (by simp [here])
    constructor
    · exact ⟨stopping.aborted, stopping.started, by simp, fun _ => decisions, by simp, by simp⟩
    · simp [here, left, unset]
  · rw [here] at fits
    obtain ⟨routed, running⟩ := fits
    obtain ⟨after, closed⟩ : Stopping s (continued manager t.started v) ∧
        openingOf manager v = .closed := stopping_settled stopping here running taken
    exact ⟨after, by simp [continued, closed, here, left]⟩
  · exact absurd here stopping.waits
  · rw [here] at fits
    have decisions := stopping.decisions (by simp [here])
    simp only [RecoveryManager.step, show t.state.phase = .delaying from fits, Option.some.injEq,
      next_of_aborted stopping.aborted] at taken
    subst taken
    obtain ⟨after, closed⟩ : Stopping s (continued manager t.started
        (manager.finish t.state .cancelled .abort)) ∧
        openingOf manager (manager.finish t.state .cancelled .abort) = .closed := by
      refine stopping_continued stopping rfl stopping.aborted ?_
      exact .inl ⟨rfl, congrArg (· ++ [RecoveryDecision.abort]) decisions⟩
    exact ⟨after, by simp [continued, closed, here, left]⟩
  · have going := (state_of_abort taken).1
    rw [stopping.aborted] at going
    cases going

/-- A run that has not returned, and does not wait for the timer of a delay, has an event to
come: the end of its strategy, or its own continuation. -/
theorem enabled (fits : Fits s.state s.opening) (prepared : Prepared manager s.state)
    (waits : s.opening ≠ .delay) :
    s.opening = .closed ∨
      ((∀ report durationMs, (step manager s (.report report durationMs)).isSome = true) ∧
        (step manager s .strategyThrows).isSome = true) ∨
      (step manager s .resume).isSome = true ∨ (step manager s .wake).isSome = true := by
  cases opening : s.opening with
  | flight routed latches =>
      rw [opening] at fits
      obtain ⟨-, input, accepted⟩ := prepared routed fits.1
      refine .inr (.inl ⟨?_, ?_⟩)
      · intro report durationMs
        simp [step, opening, resolve, accepted]
      · simp [step, opening, resolve, accepted]
  | resolved outcome =>
      rw [opening] at fits
      obtain ⟨routed, running⟩ := fits
      refine .inr (.inr (.inl ?_))
      cases outcome <;> simp [step, opening, RecoveryManager.step, running]
  | delay => exact absurd opening waits
  | elapsed =>
      rw [opening] at fits
      have delaying : s.state.phase = .delaying := fits
      refine .inr (.inr (.inr ?_))
      simp [step, opening, RecoveryManager.step, delaying]
  | closed => exact .inl rfl

/-- From the abort of the signal on, no `Supervisor.run` is started, the delay is over at
once, and the only decision is the one that the run returns with: it is cancelled, unless its
flight had already completed. It returns after at most three more events, of which one is
always to come. When the signal had aborted before the run, it is cancelled at once. -/
theorem abort_cancels
    (reaches : (machine manager).run (start manager plan aborted) es = some s)
    (pending : s.opening ≠ .closed) (aborts : step manager s .abort = some t) :
    ((start manager plan true).started = [] ∧
      (start manager plan true).state.phase = .returned .cancelled ∧
      (start manager plan true).state.decisions = [.abort]) ∧
    (s.opening = .delay → t.opening = .elapsed) ∧
    ∀ later u, (machine manager).run t later = some u →
      u.started = s.started ∧ u.opening ≠ .delay ∧ later.length ≤ 3 ∧
      (u.opening = .closed ∨
        ((∀ report durationMs, (step manager u (.report report durationMs)).isSome = true) ∧
          (step manager u .strategyThrows).isSome = true) ∨
        (step manager u .resume).isSome = true ∨ (step manager u .wake).isSome = true) ∧
      (u.opening ≠ .closed → u.state.decisions = s.state.decisions) ∧
      (u.opening = .closed →
        (u.state.phase = .returned .cancelled ∧
          u.state.decisions = s.state.decisions ++ [.abort]) ∨
        ∃ result, s.opening = .resolved (.ok result) ∧ result.status = .completed ∧
          u.state.phase = .returned .completed ∧
          u.state.decisions = s.state.decisions ++ [.completed]) := by
  have first := stopping_abort pending aborts
  have fitsT := fits_step (fits_run reaches) aborts
  refine ⟨⟨rfl, rfl, rfl⟩, ?_, ?_⟩
  · intro delay
    obtain ⟨v, -, rfl⟩ := Option.map_eq_some_iff.mp aborts
    simp [onAbort, delay]
  intro later u execution
  have kept : Stopping s u ∧ Fits u.state u.opening :=
    Machine.run_invariant (m := machine manager)
      (P := fun u => Stopping s u ∧ Fits u.state u.opening)
      (fun _ _ _ inv transition =>
        ⟨(inv.1.step inv.2 transition).1, fits_step inv.2 transition⟩)
      ⟨first, fitsT⟩ execution
  obtain ⟨stopping, fits⟩ := kept
  have short := Machine.run_length_le (m := machine manager)
    (P := fun u => Stopping s u ∧ Fits u.state u.opening) (fun u => left u.opening)
    (fun _ _ _ inv transition =>
      ⟨(inv.1.step inv.2 transition).1, fits_step inv.2 transition⟩)
    (fun _ _ _ inv transition => (inv.1.step inv.2 transition).2) ⟨first, fitsT⟩ execution
  have bound : left t.opening ≤ 3 := by
    unfold left
    split
    · split <;> omega
    all_goals omega
  have whole : (machine manager).run (start manager plan aborted) (es ++ .abort :: later) =
      some u :=
    (machine manager).run_append_iff.mpr ⟨s, reaches,
      (machine manager).run_cons_iff.mpr ⟨t, aborts, execution⟩⟩
  obtain ⟨fs, coarse⟩ := refines whole
  exact ⟨stopping.started, stopping.waits, by omega,
    enabled fits (Reaches.prepared coarse) stopping.waits, stopping.decisions, stopping.ended⟩

/-- One agent, three attempts, and a delay between them. -/
def patientManager : RecoveryManager where
  agents := [⟨"writer", []⟩]
  policy := ⟨3, 2, 10, three_attempts, by decide⟩
  options := ⟨"run-1", "publish", .sequential, none, none⟩

/-- The supervisor run times out, and the delay before the retry begins. -/
def beforeRetry : List Event :=
  [.refuse (.supervisor ⟨.timeout, "run 'run-1' timed out"⟩), .resume]

theorem abort_cancels_delay :
    ∃ s t u, (machine patientManager).run (start patientManager ⟨[draftTask]⟩ false) beforeRetry =
        some s ∧
      s.opening = .delay ∧ step patientManager s .abort = some t ∧ t.opening = .elapsed ∧
      (machine patientManager).run t [.wake] = some u ∧
      u.state.phase = .returned .cancelled ∧ u.state.decisions = [.retry, .abort] := by
  have reaches : ∃ s, (machine patientManager).run (start patientManager ⟨[draftTask]⟩ false)
      beforeRetry = some s := ⟨_, rfl⟩
  obtain ⟨s, reaches⟩ := reaches
  have waits : s.opening = .delay ∧ s.state.decisions = [.retry] ∧
      ∃ t u, step patientManager s .abort = some t ∧
        (machine patientManager).run t [.wake] = some u ∧ u.opening = .closed := by
    cases reaches
    exact ⟨by decide, by decide, _, _, rfl, rfl, by decide⟩
  obtain ⟨delay, decisions, t, u, aborts, wakes, closed⟩ := waits
  obtain ⟨-, elapses, holds⟩ := abort_cancels reaches (by simp [delay]) aborts
  obtain ⟨-, -, -, -, -, ended⟩ := holds [.wake] u wakes
  obtain ⟨cancelled, last⟩ | ⟨result, resolved, -⟩ := ended closed
  · refine ⟨s, t, u, reaches, delay, aborts, elapses delay, wakes, cancelled, ?_⟩
    rw [last, decisions]
    rfl
  · rw [delay] at resolved
    cases resolved

end Abort

end Awaiting

end RecoveryManager

end MultiAgent.Native.Recovery
