import MultiAgent.Native.Recovery.Manager

/-!
# Calls that share a supervisor

`recovery/single-flight.ts`. A recovery manager owns one `Supervisor`, which turns a call of
its `run` away while another is under way. Calls of the `run` of one manager are made at any
time, with a signal and options each, and come to their openings in any order; `guarded` says
whether the manager is a `SingleFlightRecoveryManager` or the class that it extends. The guard
makes every run that it lets in the run of a manager of its own (`single_flight`).
-/

namespace MultiAgent.Native.Recovery

/-- Where a call of `Supervisor.run` is. -/
inductive Attempt where
  /-- It was thrown out with `Supervisor is already running`. -/
  | turnedAway
  | flying
  | landed (outcome : Except Thrown SupervisorRunResult)

/-- A run that was let in. -/
structure Flight where
  plan : PlannerPlan
  options : RecoveryRunOptions
  /-- The signal had aborted before the call. -/
  aborted : Bool
  state : State
  /-- The call of `Supervisor.run` that the run awaits. -/
  attempt : Option Attempt
  /-- The `finally` block is behind the run. -/
  released : Bool

/-- A call of `run`. -/
inductive Call where
  /-- `RecoveryManager is already running` -/
  | rejected
  | admitted (flight : Flight)

structure SharedManager where
  agents : List AgentDescriptor
  policy : RetryPolicy
  guarded : Bool

/-- What the calls of one manager share. -/
structure Shared where
  /-- `#active` -/
  active : Bool
  /-- The state of the supervisor is between those of no run. -/
  busy : Bool
  /-- In the order in which they were made. -/
  calls : List Call

namespace SharedManager

variable (shared : SharedManager)

/-- The manager as a call with these options sees it. -/
def managerOf (options : RecoveryRunOptions) : RecoveryManager :=
  ⟨shared.agents, shared.policy, options⟩

/-- The call of `Supervisor.run` at the opening that a run has come to. -/
def await (busy : Bool) (state : State) : Option Attempt :=
  match state.phase with
  | .running _ => some (if busy then .turnedAway else .flying)
  | .delaying | .returned _ => none

def takes : Option Attempt → Bool
  | some .flying => true
  | _ => false

inductive Event where
  | call (plan : PlannerPlan) (options : RecoveryRunOptions) (aborted : Bool)
  /-- The supervisor run that the call `i` has started is over. -/
  | land (i : Nat) (outcome : Except Thrown SupervisorRunResult)
  /-- The run `i` goes on behind its `await` of `Supervisor.run`. -/
  | settle (i : Nat)
  /-- The delay of the run `i` ends. -/
  | wake (i : Nat)
  /-- The signal of the run `i` aborts. -/
  | abort (i : Nat)
  /-- The `finally` block of the run `i`. -/
  | release (i : Nat)

/-- `run(plan, options)` up to its first opening. -/
def call (s : Shared) (plan : PlannerPlan) (options : RecoveryRunOptions) (aborted : Bool) :
    Shared :=
  if shared.guarded && s.active then { s with calls := s.calls ++ [.rejected] }
  else
    let state := (shared.managerOf options).start plan aborted
    let attempt := await s.busy state
    { active := true
      busy := s.busy || takes attempt
      calls := s.calls ++ [.admitted ⟨plan, options, aborted, state, attempt, false⟩] }

def land (s : Shared) (i : Nat) (outcome : Except Thrown SupervisorRunResult) (flight : Flight) :
    Option Shared :=
  if takes flight.attempt then
    some { s with
      busy := false
      calls := s.calls.set i (.admitted { flight with attempt := some (.landed outcome) }) }
  else none

/-- What a run finds behind its `await` of `Supervisor.run`. -/
def outcomeOf : Option Attempt → Option (Except Thrown SupervisorRunResult)
  | some .turnedAway => some (.error (.other "Supervisor is already running"))
  | some (.landed outcome) => some outcome
  | some .flying | none => none

/-- The run goes on to its next opening. -/
def advance (s : Shared) (i : Nat) (event : RecoveryManager.Event) (flight : Flight) :
    Option Shared :=
  ((shared.managerOf flight.options).step flight.state event).map fun state =>
    let attempt := await s.busy state
    { s with
      busy := s.busy || takes attempt
      calls := s.calls.set i (.admitted { flight with state, attempt }) }

def settle (s : Shared) (i : Nat) (flight : Flight) : Option Shared :=
  (outcomeOf flight.attempt).bind fun outcome => shared.advance s i (.settle outcome) flight

def abort (s : Shared) (i : Nat) (flight : Flight) : Option Shared :=
  ((shared.managerOf flight.options).step flight.state .abort).map fun state =>
    { s with calls := s.calls.set i (.admitted { flight with state }) }

def release (s : Shared) (i : Nat) (flight : Flight) : Option Shared :=
  match flight.state.phase, flight.released with
  | .returned _, false =>
    some { s with
      active := false
      calls := s.calls.set i (.admitted { flight with released := true }) }
  | _, _ => none

/-- The run of the call `i`, if it was let in. -/
def flight? (s : Shared) (i : Nat) : Option Flight :=
  match s.calls[i]? with
  | some (.admitted flight) => some flight
  | some .rejected | none => none

def step (s : Shared) : Event → Option Shared
  | .call plan options aborted => some (shared.call s plan options aborted)
  | .land i outcome => (flight? s i).bind (land s i outcome)
  | .settle i => (flight? s i).bind (shared.settle s i)
  | .wake i => (flight? s i).bind (shared.advance s i .wake)
  | .abort i => (flight? s i).bind (shared.abort s i)
  | .release i => (flight? s i).bind (release s i)

def machine : Machine Shared Event := ⟨shared.step⟩

/-- No call was made yet. -/
def fresh : Shared := ⟨false, false, []⟩

/-- What a step shows of the runs. -/
inductive Seen where
  | landed (outcome : Except Thrown SupervisorRunResult)
  /-- An event of the recovery loop. -/
  | event (event : RecoveryManager.Event)

def shown (s : Shared) : Event → List (Nat × Seen)
  | .land i outcome => [(i, .landed outcome)]
  | .settle i =>
    (((flight? s i).bind fun flight => outcomeOf flight.attempt).map fun outcome =>
      (i, .event (.settle outcome))).toList
  | .wake i => [(i, .event .wake)]
  | .abort i => [(i, .event .abort)]
  | .call _ _ _ | .release _ => []

/-- What was seen of the run `i`. -/
def seenOf (i : Nat) (log : List (Nat × Seen)) : List Seen :=
  log.filterMap fun entry => if entry.1 = i then some entry.2 else none

/-- The events of the recovery loop of a run. -/
def loopEvents (seen : List Seen) : List RecoveryManager.Event :=
  seen.filterMap fun
    | .event event => some event
    | .landed _ => none

/-- How the supervisor runs that a run has started were over. -/
def landings (seen : List Seen) : List (Except Thrown SupervisorRunResult) :=
  seen.filterMap fun
    | .landed outcome => some outcome
    | .event _ => none

/-- What the recovery loop of a run has got from its supervisor runs. -/
def received (seen : List Seen) : List (Except Thrown SupervisorRunResult) :=
  seen.filterMap fun
    | .event (.settle outcome) => some outcome
    | .event .wake | .event .abort | .landed _ => none

/-- A supervisor run is over, and the loop has not gone on yet. -/
def pending : Option Attempt → List (Except Thrown SupervisorRunResult)
  | some (.landed outcome) => [outcome]
  | some .turnedAway | some .flying | none => []

variable {shared} {s t : Shared} {i j : Nat} {flight other : Flight} {active busy : Bool}
  {flights : Nat → Option Flight}

/-- What the guard keeps of the two flags and the runs that were let in. -/
structure Alone (active busy : Bool) (flights : Nat → Option Flight) : Prop where
  unique : ∀ i j flight other, flights i = some flight → flights j = some other →
    flight.released = false → other.released = false → i = j
  active : active = true ↔ ∃ i flight, flights i = some flight ∧ flight.released = false
  busy : busy = true ↔ ∃ i flight, flights i = some flight ∧ takes flight.attempt = true
  served : ∀ i flight, flights i = some flight → flight.attempt ≠ some .turnedAway
  awaits : ∀ i flight, flights i = some flight → flight.attempt ≠ none →
    ∃ routed, flight.state.phase = .running routed
  ended : ∀ i flight, flights i = some flight → flight.released = true →
    ∃ status, flight.state.phase = .returned status

theorem Alone.attempt_of_released (alone : Alone active busy flights)
    (here : flights i = some flight) (released : flight.released = true) :
    flight.attempt = none := by
  by_contra attempted
  obtain ⟨routed, running⟩ := alone.awaits i flight here attempted
  obtain ⟨status, returned⟩ := alone.ended i flight here released
  rw [running] at returned
  cases returned

theorem update_eq_some {new : Flight}
    (found : Function.update flights i (some flight) j = some new) :
    j = i ∧ new = flight ∨ j ≠ i ∧ flights j = some new := by
  rw [Function.update_apply] at found
  split at found
  · cases found
    exact .inl ⟨‹_›, rfl⟩
  · exact .inr ⟨‹_›, found⟩

/-- Every run but this one is over. -/
def Others (flights : Nat → Option Flight) (i : Nat) : Prop :=
  ∀ j other, j ≠ i → flights j = some other → other.released = true

theorem Alone.others (alone : Alone active busy flights) (here : flights i = some flight)
    (inside : flight.released = false) : Others flights i := by
  intro j other differs there
  cases out : other.released with
  | true => rfl
  | false => exact absurd (alone.unique j i other flight there here out inside) differs

theorem Alone.others_of_inactive (alone : Alone active busy flights) (inactive : active = false)
    (i : Nat) : Others flights i := by
  intro j other _ there
  cases out : other.released with
  | true => rfl
  | false =>
      rw [alone.active.mpr ⟨j, other, there, out⟩] at inactive
      cases inactive

/-- The supervisor is busy for the one run that is not over, if at all. -/
theorem Alone.busy_eq (alone : Alone active busy flights) (others : Others flights i) :
    busy = (flights i).any fun flight => takes flight.attempt := by
  rw [Bool.eq_iff_iff, alone.busy, Option.any_eq_true]
  constructor
  · rintro ⟨j, other, there, taken⟩
    by_cases own : j = i
    · exact ⟨other, own ▸ there, taken⟩
    · rw [alone.attempt_of_released there (others j other own there)] at taken
      cases taken
  · rintro ⟨flight, here, taken⟩
    exact ⟨i, flight, here, taken⟩

/-- A run in the place of the only one that is not over. -/
theorem Alone.replace {raised taken : Bool} (alone : Alone active busy flights)
    (others : Others flights i) (active : raised = !flight.released)
    (busy : taken = takes flight.attempt) (served : flight.attempt ≠ some .turnedAway)
    (awaits : flight.attempt ≠ none → ∃ routed, flight.state.phase = .running routed)
    (ended : flight.released = true → ∃ status, flight.state.phase = .returned status) :
    Alone raised taken (Function.update flights i (some flight)) := by
  subst active busy
  have found : ∀ j other, Function.update flights i (some flight) j = some other →
      j = i ∧ other = flight ∨ flights j = some other ∧ other.released = true := by
    intro j other there
    exact (update_eq_some there).imp id fun old => ⟨old.2, others j other old.1 old.2⟩
  have self : Function.update flights i (some flight) i = some flight := Function.update_self ..
  constructor
  · intro j k first second here there inside inside'
    obtain ⟨rfl, -⟩ | ⟨-, out⟩ := found j first here
    · obtain ⟨rfl, -⟩ | ⟨-, out⟩ := found k second there
      · rfl
      · rw [out] at inside'
        cases inside'
    · rw [out] at inside
      cases inside
  · rw [Bool.not_eq_true']
    constructor
    · exact fun inside => ⟨i, flight, self, inside⟩
    · rintro ⟨j, other, there, inside⟩
      obtain ⟨-, rfl⟩ | ⟨-, out⟩ := found j other there
      · exact inside
      · rw [out] at inside
        cases inside
  · constructor
    · exact fun taken => ⟨i, flight, self, taken⟩
    · rintro ⟨j, other, there, taken⟩
      obtain ⟨-, rfl⟩ | ⟨old, out⟩ := found j other there
      · exact taken
      · rw [alone.attempt_of_released old out] at taken
        cases taken
  · intro j other there
    obtain ⟨-, rfl⟩ | ⟨old, -⟩ := found j other there
    · exact served
    · exact alone.served j other old
  · intro j other there
    obtain ⟨-, rfl⟩ | ⟨old, -⟩ := found j other there
    · exact awaits
    · exact alone.awaits j other old
  · intro j other there
    obtain ⟨-, rfl⟩ | ⟨old, -⟩ := found j other there
    · exact ended
    · exact alone.ended j other old

theorem flight?_fresh : flight? fresh = fun _ => none := by
  funext i
  rw [flight?, fresh, List.getElem?_nil]

theorem alone_fresh : Alone fresh.active fresh.busy (flight? fresh) := by
  rw [flight?_fresh]
  constructor
  · intro i j flight other here
    cases here
  · simp [fresh]
  · simp [fresh]
  · simp
  · simp
  · simp

theorem flight?_set (here : flight? s i = some flight) :
    flight? ⟨active, busy, s.calls.set i (.admitted other)⟩ =
      Function.update (flight? s) i (some other) := by
  have inside : i < s.calls.length := by
    by_contra outside
    rw [flight?, List.getElem?_eq_none (Nat.le_of_not_lt outside)] at here
    cases here
  funext j
  rw [flight?]
  dsimp only
  by_cases same : j = i
  · rw [same, List.getElem?_set_self inside, Function.update_self]
  · rw [List.getElem?_set_ne (Ne.symm same), Function.update_of_ne same]
    rfl

theorem flight?_append (call : Call) (other : j ≠ s.calls.length) :
    flight? ⟨active, busy, s.calls ++ [call]⟩ j = flight? s j := by
  rw [flight?, flight?]
  dsimp only
  obtain before | after := Nat.lt_or_gt_of_ne other
  · rw [List.getElem?_append_left before]
  · rw [List.getElem?_eq_none (by simp; omega), List.getElem?_eq_none after.le]

theorem flight?_rejected :
    flight? ⟨active, busy, s.calls ++ [.rejected]⟩ = flight? s := by
  funext j
  by_cases last : j = s.calls.length
  · rw [last, flight?, flight?, List.getElem?_eq_none le_rfl]
    dsimp only
    rw [List.getElem?_concat_length]
  · exact flight?_append _ last

theorem flight?_admitted :
    flight? ⟨active, busy, s.calls ++ [.admitted flight]⟩ =
      Function.update (flight? s) s.calls.length (some flight) := by
  funext j
  by_cases last : j = s.calls.length
  · rw [last, Function.update_self, flight?]
    dsimp only
    rw [List.getElem?_concat_length]
  · rw [Function.update_of_ne last]
    exact flight?_append _ last

/-- What was said of a run is not changed by what else happens to it. -/
theorem Alone.reframe (alone : Alone active busy flights) (here : flights i = some flight)
    (released : other.released = flight.released) (attempt : other.attempt = flight.attempt)
    (phase : other.state.phase = flight.state.phase) :
    Alone active busy (Function.update flights i (some other)) := by
  have found : ∀ j new, Function.update flights i (some other) j = some new →
      ∃ old, flights j = some old ∧ new.released = old.released ∧
        new.attempt = old.attempt ∧ new.state.phase = old.state.phase := by
    intro j new there
    rw [Function.update_apply] at there
    split at there
    · cases there
      exact ⟨flight, ‹j = i› ▸ here, released, attempt, phase⟩
    · exact ⟨new, there, rfl, rfl, rfl⟩
  have kept : ∀ j old, flights j = some old → ∃ new,
      Function.update flights i (some other) j = some new ∧ new.released = old.released ∧
        new.attempt = old.attempt := by
    intro j old there
    rw [Function.update_apply]
    split
    · rw [‹j = i›, here] at there
      cases there
      exact ⟨other, rfl, released, attempt⟩
    · exact ⟨old, there, rfl, rfl⟩
  constructor
  · intro j k first second here' there inside inside'
    obtain ⟨old, first', out, -⟩ := found j first here'
    obtain ⟨old', second', out', -⟩ := found k second there
    exact alone.unique j k old old' first' second' (out ▸ inside) (out' ▸ inside')
  · rw [alone.active]
    constructor
    · rintro ⟨j, old, there, inside⟩
      obtain ⟨new, there', out, -⟩ := kept j old there
      exact ⟨j, new, there', out.trans inside⟩
    · rintro ⟨j, new, there, inside⟩
      obtain ⟨old, there', out, -⟩ := found j new there
      exact ⟨j, old, there', out ▸ inside⟩
  · rw [alone.busy]
    constructor
    · rintro ⟨j, old, there, taken⟩
      obtain ⟨new, there', -, same⟩ := kept j old there
      exact ⟨j, new, there', same ▸ taken⟩
    · rintro ⟨j, new, there, taken⟩
      obtain ⟨old, there', -, same, -⟩ := found j new there
      exact ⟨j, old, there', same ▸ taken⟩
  · intro j new there
    obtain ⟨old, there', -, same, -⟩ := found j new there
    exact same ▸ alone.served j old there'
  · intro j new there
    obtain ⟨old, there', -, same, phase'⟩ := found j new there
    rw [same, phase']
    exact alone.awaits j old there'
  · intro j new there
    obtain ⟨old, there', out, -, phase'⟩ := found j new there
    rw [out, phase']
    exact alone.ended j old there'

theorem await_served (state : State) : await false state ≠ some .turnedAway := by
  unfold await
  split
  · simp
  · simp
  · simp

theorem await_running {state : State} (attempted : await busy state ≠ none) :
    ∃ routed, state.phase = .running routed := by
  unfold await at attempted
  split at attempted
  · exact ⟨_, ‹_›⟩
  · exact absurd rfl attempted
  · exact absurd rfl attempted

/-- The run goes on while the supervisor is free. -/
theorem Alone.advance {event : RecoveryManager.Event}
    (alone : Alone s.active s.busy (flight? s)) (here : flight? s i = some flight)
    (inside : flight.released = false) (free : takes flight.attempt = false)
    (advanced : shared.advance s i event flight = some t) :
    Alone t.active t.busy (flight? t) := by
  obtain ⟨state, -, rfl⟩ := Option.map_eq_some_iff.mp advanced
  have idle : s.busy = false := by
    rw [alone.busy_eq (alone.others here inside), here]
    exact free
  have active : s.active = true := alone.active.mpr ⟨i, flight, here, inside⟩
  dsimp only
  rw [flight?_set here, idle, active, Bool.false_or]
  refine alone.replace (alone.others here inside) ?_ rfl (await_served state) await_running ?_
  · rw [inside]
    rfl
  · intro out
    rw [inside] at out
    cases out

theorem not_released (alone : Alone active busy flights) (here : flights i = some flight)
    (going : ∀ status, flight.state.phase ≠ .returned status) : flight.released = false := by
  cases out : flight.released with
  | false => rfl
  | true =>
      obtain ⟨status, returned⟩ := alone.ended i flight here out
      exact absurd returned (going status)

theorem Alone.call (guarded : shared.guarded = true)
    (alone : Alone s.active s.busy (flight? s)) (plan : PlannerPlan)
    (options : RecoveryRunOptions) (aborted : Bool) :
    Alone (shared.call s plan options aborted).active (shared.call s plan options aborted).busy
      (flight? (shared.call s plan options aborted)) := by
  cases active : s.active with
  | true =>
      simp only [SharedManager.call, guarded, active, Bool.and_self, if_true]
      rw [flight?_rejected, ← active]
      exact alone
  | false =>
      have others := alone.others_of_inactive active s.calls.length
      have idle : s.busy = false := by
        rw [alone.busy_eq others, flight?, List.getElem?_eq_none le_rfl]
        rfl
      simp only [SharedManager.call, active, Bool.and_false, Bool.false_eq_true, if_false]
      rw [flight?_admitted, idle, Bool.false_or]
      exact alone.replace others rfl rfl (await_served _) await_running nofun

theorem Alone.land {outcome : Except Thrown SupervisorRunResult}
    (alone : Alone s.active s.busy (flight? s)) (here : flight? s i = some flight)
    (landed : land s i outcome flight = some t) : Alone t.active t.busy (flight? t) := by
  obtain ⟨taken, same⟩ := Option.ite_none_right_eq_some.mp landed
  cases same
  have attempted : flight.attempt ≠ none := by
    intro none
    rw [none] at taken
    cases taken
  obtain ⟨routed, running⟩ := alone.awaits i flight here attempted
  have inside := not_released alone here (by simp [running])
  dsimp only
  rw [flight?_set here]
  refine alone.replace (alone.others here inside) ?_ rfl nofun (fun _ => ⟨routed, running⟩) ?_
  · rw [alone.active.mpr ⟨i, flight, here, inside⟩, inside]
    rfl
  · intro out
    rw [inside] at out
    cases out

theorem Alone.settle (alone : Alone s.active s.busy (flight? s)) (here : flight? s i = some flight)
    (settled : shared.settle s i flight = some t) : Alone t.active t.busy (flight? t) := by
  obtain ⟨outcome, found, advanced⟩ := Option.bind_eq_some_iff.mp settled
  cases attempt : flight.attempt with
  | none =>
      rw [attempt] at found
      cases found
  | some attempted =>
      obtain ⟨routed, running⟩ := alone.awaits i flight here (by simp [attempt])
      have free : takes flight.attempt = false := by
        rw [attempt] at found ⊢
        cases attempted with
        | flying => cases found
        | turnedAway => rfl
        | landed outcome => rfl
      exact alone.advance here (not_released alone here (by simp [running])) free advanced

theorem delaying_of_wake {manager : RecoveryManager} {u v : State}
    (stepped : manager.step u .wake = some v) : u.phase = .delaying := by
  rw [RecoveryManager.step] at stepped
  split at stepped
  · assumption
  · cases stepped
  · cases stepped

theorem attempt_of_delaying (alone : Alone active busy flights) (here : flights i = some flight)
    (delaying : flight.state.phase = .delaying) : flight.attempt = none := by
  by_contra attempted
  obtain ⟨routed, running⟩ := alone.awaits i flight here attempted
  rw [delaying] at running
  cases running

theorem Alone.wake (alone : Alone s.active s.busy (flight? s)) (here : flight? s i = some flight)
    (advanced : shared.advance s i .wake flight = some t) :
    Alone t.active t.busy (flight? t) := by
  obtain ⟨state, stepped, -⟩ := Option.map_eq_some_iff.mp advanced
  have delaying := delaying_of_wake stepped
  have free : takes flight.attempt = false := by
    rw [attempt_of_delaying alone here delaying]
    rfl
  exact alone.advance here (not_released alone here (by simp [delaying])) free advanced

theorem Alone.abort (alone : Alone s.active s.busy (flight? s)) (here : flight? s i = some flight)
    (aborted : shared.abort s i flight = some t) : Alone t.active t.busy (flight? t) := by
  obtain ⟨state, stepped, rfl⟩ := Option.map_eq_some_iff.mp aborted
  have phase : state.phase = flight.state.phase := by
    rw [RecoveryManager.step, Option.ite_none_left_eq_some] at stepped
    obtain ⟨-, same⟩ := stepped
    cases same
    rfl
  dsimp only
  rw [flight?_set here]
  exact alone.reframe here rfl rfl phase

theorem Alone.release (alone : Alone s.active s.busy (flight? s))
    (here : flight? s i = some flight) (released : release s i flight = some t) :
    Alone t.active t.busy (flight? t) := by
  unfold SharedManager.release at released
  split at released
  · rename_i status returned inside
    cases released
    have none : flight.attempt = none := by
      by_contra attempted
      obtain ⟨routed, running⟩ := alone.awaits i flight here attempted
      rw [returned] at running
      cases running
    dsimp only
    rw [flight?_set here]
    refine alone.replace (alone.others here inside) rfl ?_ ?_ ?_ ?_
    · rw [alone.busy_eq (alone.others here inside), here]
      rfl
    · simp [none]
    · simp [none]
    · exact fun _ => ⟨status, returned⟩
  · cases released

theorem Alone.step {event : Event} (guarded : shared.guarded = true)
    (alone : Alone s.active s.busy (flight? s)) (transition : shared.step s event = some t) :
    Alone t.active t.busy (flight? t) := by
  cases event with
  | call plan options aborted =>
      obtain rfl := Option.some.inj transition
      exact alone.call guarded plan options aborted
  | land i outcome =>
      obtain ⟨flight, here, landed⟩ := Option.bind_eq_some_iff.mp transition
      exact alone.land here landed
  | settle i =>
      obtain ⟨flight, here, settled⟩ := Option.bind_eq_some_iff.mp transition
      exact alone.settle here settled
  | wake i =>
      obtain ⟨flight, here, advanced⟩ := Option.bind_eq_some_iff.mp transition
      exact alone.wake here advanced
  | abort i =>
      obtain ⟨flight, here, aborted⟩ := Option.bind_eq_some_iff.mp transition
      exact alone.abort here aborted
  | release i =>
      obtain ⟨flight, here, released⟩ := Option.bind_eq_some_iff.mp transition
      exact alone.release here released

section Solo

variable {log : List (Nat × Seen)}

/-- Each run is the run of a manager of its own, on the outcomes of its own supervisor runs. -/
structure Solo (shared : SharedManager) (s : Shared) (log : List (Nat × Seen)) : Prop where
  runs : ∀ i flight, flight? s i = some flight →
    (shared.managerOf flight.options).Reaches flight.plan flight.aborted
      (loopEvents (seenOf i log)) flight.state
  handed : ∀ i flight, flight? s i = some flight →
    landings (seenOf i log) = received (seenOf i log) ++ pending flight.attempt
  past : ∀ entry ∈ log, entry.1 < s.calls.length

theorem seenOf_append {more : List (Nat × Seen)} :
    seenOf i (log ++ more) = seenOf i log ++ seenOf i more :=
  List.filterMap_append

theorem seenOf_own {seen : Seen} : seenOf i (log ++ [(i, seen)]) = seenOf i log ++ [seen] := by
  rw [seenOf_append]
  simp [seenOf]

theorem seenOf_other {seen : Seen} (differs : j ≠ i) :
    seenOf j (log ++ [(i, seen)]) = seenOf j log := by
  rw [seenOf_append]
  simp [seenOf, Ne.symm differs]

theorem solo_fresh : Solo shared fresh [] where
  runs i flight here := by
    rw [flight?_fresh] at here
    cases here
  handed i flight here := by
    rw [flight?_fresh] at here
    cases here
  past _ member := nomatch member

theorem lt_of_flight? (here : flight? s i = some flight) : i < s.calls.length := by
  by_contra outside
  rw [flight?, List.getElem?_eq_none (Nat.le_of_not_lt outside)] at here
  cases here

/-- Something is seen of the run `i`, which is then `other`. -/
theorem Solo.see (solo : Solo shared s log) (here : flight? s i = some flight) (seen : Seen)
    (runs : (shared.managerOf other.options).Reaches other.plan other.aborted
      (loopEvents (seenOf i log ++ [seen])) other.state)
    (handed : landings (seenOf i log ++ [seen]) =
      received (seenOf i log ++ [seen]) ++ pending other.attempt) :
    Solo shared ⟨active, busy, s.calls.set i (.admitted other)⟩ (log ++ [(i, seen)]) := by
  constructor
  · intro j flight' there
    rw [flight?_set here] at there
    obtain ⟨rfl, rfl⟩ | ⟨differs, old⟩ := update_eq_some there
    · rw [seenOf_own]
      exact runs
    · rw [seenOf_other differs]
      exact solo.runs j flight' old
  · intro j flight' there
    rw [flight?_set here] at there
    obtain ⟨rfl, rfl⟩ | ⟨differs, old⟩ := update_eq_some there
    · rw [seenOf_own]
      exact handed
    · rw [seenOf_other differs]
      exact solo.handed j flight' old
  · intro entry member
    dsimp only
    rw [List.length_set]
    obtain old | new := List.mem_append.mp member
    · exact solo.past entry old
    · cases List.mem_singleton.mp new
      exact lt_of_flight? here

theorem pending_await (state : State) : pending (await busy state) = [] := by
  unfold await
  split
  · cases busy <;> rfl
  · rfl
  · rfl

/-- A run that goes on has done so by a step of its own manager. -/
theorem Solo.advance {event : RecoveryManager.Event} (solo : Solo shared s log)
    (here : flight? s i = some flight)
    (handed : received [.event event] = pending flight.attempt)
    (advanced : shared.advance s i event flight = some t) :
    Solo shared t (log ++ [(i, .event event)]) := by
  obtain ⟨state, stepped, rfl⟩ := Option.map_eq_some_iff.mp advanced
  apply solo.see here
  · rw [loopEvents, List.filterMap_append]
    exact (Machine.run_append_iff _).mpr ⟨flight.state, solo.runs i flight here,
      (Machine.run_cons_iff _).mpr ⟨state, stepped, rfl⟩⟩
  · rw [landings, received, List.filterMap_append, List.filterMap_append, pending_await]
    have before := solo.handed i flight here
    rw [landings, received, ← handed] at before
    rw [before]
    simp [received]

theorem Solo.call (solo : Solo shared s log) (plan : PlannerPlan) (options : RecoveryRunOptions)
    (aborted : Bool) : Solo shared (shared.call s plan options aborted) log := by
  have later : ∀ call : Call, ∀ entry ∈ log, entry.1 < (s.calls ++ [call]).length := by
    intro call entry member
    rw [List.length_append]
    exact Nat.lt_add_right _ (solo.past entry member)
  unfold SharedManager.call
  split
  · constructor
    · rw [flight?_rejected]
      exact solo.runs
    · rw [flight?_rejected]
      exact solo.handed
    · exact later _
  · have unseen : seenOf s.calls.length log = [] := by
      rw [seenOf, List.filterMap_eq_nil_iff]
      intro entry member
      exact if_neg (solo.past entry member).ne
    constructor
    · intro i flight there
      rw [flight?_admitted, Function.update_apply] at there
      split at there
      · rename_i last
        cases there
        rw [last, unseen]
        rfl
      · exact solo.runs i flight there
    · intro i flight there
      rw [flight?_admitted, Function.update_apply] at there
      split at there
      · rename_i last
        cases there
        rw [last, unseen, pending_await]
        rfl
      · exact solo.handed i flight there
    · exact later _

theorem Solo.release (solo : Solo shared s log) (here : flight? s i = some flight)
    (released : release s i flight = some t) : Solo shared t log := by
  unfold SharedManager.release at released
  split at released
  · cases released
    constructor
    · intro j flight' there
      rw [flight?_set here] at there
      obtain ⟨rfl, rfl⟩ | ⟨-, old⟩ := update_eq_some there
      · exact solo.runs j flight here
      · exact solo.runs j flight' old
    · intro j flight' there
      rw [flight?_set here] at there
      obtain ⟨rfl, rfl⟩ | ⟨-, old⟩ := update_eq_some there
      · exact solo.handed j flight here
      · exact solo.handed j flight' old
    · intro entry member
      dsimp only
      rw [List.length_set]
      exact solo.past entry member
  · cases released

theorem Solo.step {event : Event} (alone : Alone s.active s.busy (flight? s))
    (solo : Solo shared s log) (transition : shared.step s event = some t) :
    Solo shared t (log ++ shown s event) := by
  cases event with
  | call plan options aborted =>
      obtain rfl := Option.some.inj transition
      rw [shown, List.append_nil]
      exact solo.call plan options aborted
  | land i outcome =>
      obtain ⟨flight, here, landed⟩ := Option.bind_eq_some_iff.mp transition
      obtain ⟨taken, same⟩ := Option.ite_none_right_eq_some.mp landed
      cases same
      have flying : pending flight.attempt = [] := by
        unfold takes at taken
        split at taken
        · rw [‹flight.attempt = _›]
          rfl
        · cases taken
      apply solo.see here
      · rw [loopEvents, List.filterMap_append]
        simpa [loopEvents] using solo.runs i flight here
      · have before := solo.handed i flight here
        rw [flying, List.append_nil, landings, received] at before
        rw [landings, received, List.filterMap_append, List.filterMap_append, before]
        simp [pending]
  | settle i =>
      obtain ⟨flight, here, settled⟩ := Option.bind_eq_some_iff.mp transition
      obtain ⟨outcome, found, advanced⟩ := Option.bind_eq_some_iff.mp settled
      have visible : shown s (.settle i) = [(i, .event (.settle outcome))] := by
        rw [shown, here, Option.bind_some, found]
        rfl
      rw [visible]
      refine solo.advance here ?_ advanced
      cases attempt : flight.attempt with
      | none =>
          rw [attempt] at found
          cases found
      | some attempted =>
          rw [attempt] at found
          cases attempted with
          | turnedAway => exact absurd attempt (alone.served i flight here)
          | flying => cases found
          | landed outcome' =>
              cases found
              rfl
  | wake i =>
      obtain ⟨flight, here, advanced⟩ := Option.bind_eq_some_iff.mp transition
      obtain ⟨state, stepped, -⟩ := Option.map_eq_some_iff.mp advanced
      refine solo.advance here ?_ advanced
      rw [attempt_of_delaying alone here (delaying_of_wake stepped)]
      rfl
  | abort i =>
      obtain ⟨flight, here, aborted⟩ := Option.bind_eq_some_iff.mp transition
      obtain ⟨state, stepped, rfl⟩ := Option.map_eq_some_iff.mp aborted
      apply solo.see here
      · rw [loopEvents, List.filterMap_append]
        exact (Machine.run_append_iff _).mpr ⟨flight.state, solo.runs i flight here,
          (Machine.run_cons_iff _).mpr ⟨state, stepped, rfl⟩⟩
      · have before := solo.handed i flight here
        rw [landings, received] at before
        rw [landings, received, List.filterMap_append, List.filterMap_append, before]
        simp
  | release i =>
      obtain ⟨flight, here, released⟩ := Option.bind_eq_some_iff.mp transition
      rw [shown, List.append_nil]
      exact solo.release here released

end Solo

/-- Under the guard one run at a time is let in, and a call made meanwhile is rejected. A run
that was let in is, step by step, the run of a manager of its own, and its recovery loop gets the
outcomes of the supervisor runs that it started itself, each once and in their order. -/
theorem single_flight {events : List Event} (guarded : shared.guarded = true)
    (execution : shared.machine.run fresh events = some s) :
    (∀ i flight, flight? s i = some flight →
      (shared.managerOf flight.options).Reaches flight.plan flight.aborted
        (loopEvents (seenOf i (shared.machine.log shown fresh events))) flight.state ∧
      landings (seenOf i (shared.machine.log shown fresh events)) =
        received (seenOf i (shared.machine.log shown fresh events)) ++ pending flight.attempt) ∧
    (∀ i j flight other, flight? s i = some flight → flight? s j = some other →
      flight.released = false → other.released = false → i = j) ∧
    ∀ plan options aborted,
      (shared.call s plan options aborted = { s with calls := s.calls ++ [.rejected] } ↔
        ∃ i flight, flight? s i = some flight ∧ flight.released = false) := by
  have met : shared.machine.Meets (fun _ _ => True) fresh events :=
    Machine.meets_of_mem (fun _ _ _ => trivial) _
  obtain ⟨alone, solo⟩ := Machine.run_log_invariant
    (P := fun s log => Alone s.active s.busy (flight? s) ∧ Solo shared s log) (l := [])
    (fun _ _ _ _ kept _ transition =>
      ⟨kept.1.step guarded transition, kept.2.step kept.1 transition⟩)
    ⟨alone_fresh, solo_fresh⟩ met execution
  refine ⟨fun i flight here => ⟨solo.runs i flight here, solo.handed i flight here⟩,
    alone.unique, ?_⟩
  intro plan options aborted
  rw [← alone.active]
  cases active : s.active with
  | true => simp [call, guarded, active]
  | false =>
      constructor
      · intro same
        have flags := congrArg Shared.active same
        simp [call, active] at flags
      · intro raised
        cases raised

section Writers

theorem one_attempt : 1 ≤ 1 := le_rfl

def writers (guarded : Bool) : SharedManager where
  agents := [⟨"writer", []⟩]
  policy := ⟨1, 0, 0, one_attempt, no_delay⟩
  guarded := guarded

def note (runId : String) : Event :=
  .call ⟨[⟨"note", "write a note", none, none, none, none, none⟩]⟩
    ⟨runId, "publish", .sequential, none, none⟩ false

/-- Two calls, the second while the supervisor run of the first is under way. -/
def overlapping : List Event :=
  [note "run-1", note "run-2", .land 0 (.error (.other "gone")), .settle 0, .release 0,
   note "run-3"]

theorem single_flight_overlapping :
    ∃ s, (writers true).machine.run fresh overlapping = some s ∧ flight? s 1 = none ∧
      ∀ i j flight other, flight? s i = some flight → flight? s j = some other →
        flight.released = false → other.released = false → i = j := by
  have runs : ((writers true).machine.run fresh overlapping).any
      (fun s => (flight? s 1).isNone) = true := by
    decide +kernel
  obtain ⟨s, execution, second⟩ := (Option.any_eq_true _ _).mp runs
  exact ⟨s, execution, Option.isNone_iff_eq_none.mp second, (single_flight rfl execution).2.1⟩

/-- Without the guard the supervisor turns the second run away, which then fails. -/
example : ((writers false).machine.run fresh [note "run-1", note "run-2", .settle 1]).any
    (fun s => (flight? s 1).any fun flight =>
      decide (flight.state.failures.map FailureRecord.message =
        ["Supervisor is already running"])) = true := by
  decide +kernel

end Writers

end SharedManager

end MultiAgent.Native.Recovery
