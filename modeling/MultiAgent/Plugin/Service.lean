import MultiAgent.Plugin.Adapter
import MultiAgent.Plugin.Sessions

/-!
# The adapter under concurrent events

`DeepseekAdapter.handle_harness_event` on the threads of a server, together with the session
registry that routes the events and the semaphore that limits the runs. The coordinators `κ`
stand in a list, the default one first. What an event does with its coordinator is a
sequence of operations `ω`, and a run of the machine is any interleaving of the events. A
session id is a text.
-/

namespace MultiAgent.Plugin

/-- `threading.BoundedSemaphore` -/
structure BoundedSemaphore where
  initial : Nat
  value : Nat
  bounded : value ≤ initial

namespace BoundedSemaphore

def new (initial : Nat) : BoundedSemaphore := ⟨initial, initial, le_rfl⟩

theorem bounded_pred (gate : BoundedSemaphore) : gate.value - 1 ≤ gate.initial :=
  (Nat.sub_le _ _).trans gate.bounded

/-- `acquire`; `none` says that the value is 0. -/
def acquire (gate : BoundedSemaphore) : Option BoundedSemaphore :=
  if gate.value = 0 then none else some ⟨gate.initial, gate.value - 1, gate.bounded_pred⟩

def release (gate : BoundedSemaphore) : Except String BoundedSemaphore :=
  if below : gate.value < gate.initial then .ok ⟨gate.initial, gate.value + 1, below⟩
  else .error "Semaphore released too many times"

theorem acquire_eq_some {gate taken : BoundedSemaphore} (acquired : gate.acquire = some taken) :
    taken.initial = gate.initial ∧ taken.value + 1 = gate.value := by
  rw [acquire, Option.ite_none_left_eq_some] at acquired
  obtain ⟨positive, same⟩ := acquired
  cases same
  exact ⟨rfl, Nat.succ_pred positive⟩

theorem release_eq_ok {gate freed : BoundedSemaphore} (released : gate.release = .ok freed) :
    freed.initial = gate.initial ∧ freed.value = gate.value + 1 := by
  unfold release at released
  split at released
  · cases released
    exact ⟨rfl, rfl⟩
  · cases released

theorem release_of_lt {gate : BoundedSemaphore} (below : gate.value < gate.initial) :
    ∃ freed, gate.release = .ok freed :=
  ⟨_, dif_pos below⟩

end BoundedSemaphore

namespace SessionManager

variable {κ : Type} {s t : Timed κ} {m : SessionManager κ} {sid : String} {coord : κ}

theorem get?_evictLocked {now : ℚ} {keep : Option Int}
    (stored : (m.evictLocked now keep).1.sessions.get? sid = some coord) :
    m.sessions.get? sid = some coord := by
  obtain ⟨gone, left⟩ := evictLocked_fst m now keep
  rw [left, without, Dict.get?_eraseAll, Option.ite_none_left_eq_some] at stored
  exact stored.2

/-- A stored session was stored before, or the event had it made for an id without one. -/
theorem stored_of_step {event : Event κ} (transition : step s event = some t)
    (stored : t.manager.sessions.get? sid = some coord) :
    s.manager.sessions.get? sid = some coord ∨
      s.manager.sessions.get? sid = none ∧
        ∃ now later, event = .getOrCreate sid now later (.ok coord) := by
  rw [step, Option.ite_none_right_eq_some] at transition
  obtain ⟨-, same⟩ := transition
  cases same
  cases event with
  | getOrCreate asked now later made =>
      dsimp only [Event.apply] at stored
      obtain ⟨coord', -, same⟩ | ⟨fresh, ⟨coord', given, same⟩ | ⟨text, -, same⟩⟩ :=
        getOrCreate_cases s.manager asked now later made
      · rw [same] at stored
        exact .inl stored
      · rw [same] at stored
        dsimp only at stored
        by_cases own : sid = asked
        · subst own
          rw [Dict.get?_set_self] at stored
          cases stored
          exact .inr ⟨Dict.get?_eq_none_iff.mpr fresh, now, later, by rw [given]⟩
        · rw [Dict.get?_set_of_ne own] at stored
          exact .inl (get?_evictLocked stored)
      · rw [same] at stored
        exact .inl (get?_evictLocked stored)
  | get asked => exact .inl stored
  | touch asked now =>
      dsimp only [Event.apply, touch] at stored
      split at stored
      · exact .inl stored
      · exact .inl stored
  | delete deleted =>
      dsimp only [Event.apply, delete, drop] at stored
      rw [Dict.get?_erase, Option.ite_none_left_eq_some] at stored
      exact .inl stored.2
  | cleanup now => exact .inl (get?_evictLocked stored)

end SessionManager

/-- How far the handling of an event is. -/
inductive Stage where
  /-- A run before the semaphore. -/
  | waiting
  /-- A run that holds the semaphore. -/
  | running
  /-- An event of another type, with its coordinator. -/
  | serving
  /-- What was returned, or the text of what was raised. -/
  | answered (answer : Except String Object)

def Stage.isRunning : Stage → Bool
  | .running => true
  | _ => false

/-- What `handle_harness_event` goes on with once it has the coordinator. -/
def Stage.first (event : Object) : Stage :=
  if (event.get "type").isText "run" then
    if (event.getD "prompt" (.str "")).truthy then .waiting
    else .answered (.ok (DeepseekAdapter.failure "missing prompt"))
  else .serving

structure Visit where
  event : Object
  /-- The session that the event was routed to. -/
  session : Option String
  /-- The place of its coordinator. -/
  coordinator : Nat
  stage : Stage

structure Service (κ : Type) where
  /-- In the order in which they were made, the default one first. -/
  coordinators : List κ
  registry : Option (SessionManager.Timed Nat)
  /-- `_run_gate` -/
  gate : BoundedSemaphore
  /-- In the order of their arrival. -/
  requests : List Visit

namespace Service

variable {κ ω : Type}

/-- An adapter with `max_concurrent_runs`, and with a registry if `limits` gives its `ttl` and
`max_sessions`. -/
def new (default : κ) (maxConcurrentRuns : Int) (limits : Option (Option ℚ × Option Int))
    (clock : ℚ) : Service κ where
  coordinators := [default]
  registry := limits.map fun limits => ⟨.new limits.1 limits.2, clock⟩
  gate := .new (max 1 maxConcurrentRuns).toNat
  requests := []

/-- The session id of an event, if it has one; the outer `none` is an id that is no text. -/
def sessionId? (event : Object) : Option (Option String) :=
  match event.get "session_id" with
  | .str id => some (if id.isEmpty then none else some id)
  | id => if id.truthy then none else some none

/-- The event has its coordinator. -/
def enter (s : Service κ) (event : Object) (session : Option String) (coordinator : Nat) :
    Service κ :=
  { s with requests := s.requests ++ [⟨event, session, coordinator, .first event⟩] }

/-- `_coordinator_for` with `registry.get_or_create`, when the clock reads `now` and then
`later` and the factory answers `made`. -/
def visit (s : Service κ) (timed : SessionManager.Timed Nat) (event : Object) (sid : String)
    (now later : ℚ) (made : Except String κ) : Option (Service κ) :=
  let place := made.map fun _ => s.coordinators.length
  (SessionManager.step timed (.getOrCreate sid now later place)).map fun after =>
    match timed.manager.sessions.get? sid, made with
    | some coordinator, _ => { s with registry := some after }.enter event (some sid) coordinator
    | none, .ok coord =>
      { s with registry := some after, coordinators := s.coordinators ++ [coord] }.enter event
        (some sid) s.coordinators.length
    -- the exception of the factory goes to the caller
    | none, .error _ => { s with registry := some after }

/-- An event comes in. -/
def arrive (s : Service κ) (event : Object) (now later : ℚ) (made : Except String κ) :
    Option (Service κ) :=
  (sessionId? event).bind fun session =>
    match session, s.registry with
    | some sid, some timed => s.visit timed event sid now later made
    | _, _ => some (s.enter event none 0)

/-- The handling of a request goes on to another stage. -/
def move (s : Service κ) (i : Nat) (request : Visit) (stage : Stage) : Service κ :=
  { s with requests := s.requests.set i { request with stage := stage } }

/-- The end of a run: `_record_history` is not reached after an exception. -/
def conclude (record : Object → Object → Except String Unit) (event : Object) :
    Except String Object → Except String Object
  | .ok result => (record event result).map fun _ => result
  | .error text => .error text

inductive Event (κ ω : Type) where
  | arrive (event : Object) (now later : ℚ) (made : Except String κ)
  /-- `_run_gate.acquire` succeeds. -/
  | grant (i : Nat)
  /-- `_run_gate.acquire` has waited in vain. -/
  | refuse (i : Nat)
  /-- The request does something with its coordinator. -/
  | operate (i : Nat) (operation : ω)
  /-- What the request wanted of its coordinator is returned or raised. -/
  | finish (i : Nat) (outcome : Except String Object)
  /-- `registry.delete` -/
  | delete (sid : String)
  /-- `registry.cleanup` -/
  | cleanup (now : ℚ)

/-- An event of the registry that concerns no request. -/
def manage (s : Service κ) (event : SessionManager.Event Nat) : Option (Service κ) :=
  s.registry.bind fun timed =>
    (SessionManager.step timed event).map fun after => { s with registry := some after }

variable (perform : ω → κ → κ) (record : Object → Object → Except String Unit)

def grant (s : Service κ) (i : Nat) (request : Visit) : Option (Service κ) :=
  match request.stage with
  | .waiting => s.gate.acquire.map fun gate => { s.move i request .running with gate := gate }
  | _ => none

/-- A semaphore is only waited for in vain while there is nothing to take. -/
def refuse (s : Service κ) (i : Nat) (request : Visit) : Option (Service κ) :=
  match request.stage with
  | .waiting =>
    if s.gate.value = 0 then
      some (s.move i request
        (.answered (.ok (DeepseekAdapter.failure "too many concurrent runs"))))
    else none
  | _ => none

def operate (s : Service κ) (operation : ω) (request : Visit) : Option (Service κ) :=
  match request.stage with
  | .running | .serving =>
    some { s with coordinators := s.coordinators.modify request.coordinator (perform operation) }
  | _ => none

def finish (s : Service κ) (i : Nat) (outcome : Except String Object) (request : Visit) :
    Option (Service κ) :=
  match request.stage with
  | .running =>
    match s.gate.release with
    | .ok gate =>
      some { s.move i request (.answered (conclude record request.event outcome)) with
        gate := gate }
    | .error text => some (s.move i request (.answered (.error text)))
  | .serving => some (s.move i request (.answered outcome))
  | _ => none

def step (s : Service κ) : Event κ ω → Option (Service κ)
  | .arrive event now later made => s.arrive event now later made
  | .grant i => s.requests[i]?.bind (s.grant i)
  | .refuse i => s.requests[i]?.bind (s.refuse i)
  | .operate i operation => s.requests[i]?.bind (s.operate perform operation)
  | .finish i outcome => s.requests[i]?.bind (s.finish record i outcome)
  | .delete sid => s.manage (.delete sid)
  | .cleanup now => s.manage (.cleanup now)

def machine : Machine (Service κ) (Event κ ω) := ⟨step perform record⟩

section Inversion

variable {perform record} {s t : Service κ} {i : Nat} {request : Visit}

/-- What `_coordinator_for` can do. -/
theorem arrive_eq_some {event : Object} {now later : ℚ} {made : Except String κ}
    (arrived : s.arrive event now later made = some t) :
    (sessionId? event = some none ∨ s.registry = none) ∧ t = s.enter event none 0 ∨
    ∃ sid timed after, sessionId? event = some (some sid) ∧ s.registry = some timed ∧
      SessionManager.step timed
        (.getOrCreate sid now later (made.map fun _ => s.coordinators.length)) = some after ∧
      ((∃ c, timed.manager.sessions.get? sid = some c ∧
        t = { s with registry := some after }.enter event (some sid) c) ∨
      timed.manager.sessions.get? sid = none ∧
        ((∃ coord, made = .ok coord ∧
          t = { s with
            registry := some after
            coordinators := s.coordinators ++ [coord] }.enter event (some sid)
              s.coordinators.length) ∨
        ∃ text, made = .error text ∧ t = { s with registry := some after })) := by
  obtain ⟨session, named, entered⟩ := Option.bind_eq_some_iff.mp arrived
  cases session with
  | none =>
      cases entered
      exact .inl ⟨.inl named, rfl⟩
  | some sid =>
      cases here : s.registry with
      | none =>
          rw [here] at entered
          cases entered
          exact .inl ⟨.inr rfl, rfl⟩
      | some timed =>
          rw [here] at entered
          obtain ⟨after, transition, same⟩ := Option.map_eq_some_iff.mp entered
          refine .inr ⟨sid, timed, after, named, rfl, transition, ?_⟩
          cases known : timed.manager.sessions.get? sid with
          | some c =>
              rw [known] at same
              exact .inl ⟨c, rfl, same.symm⟩
          | none =>
              rw [known] at same
              refine .inr ⟨rfl, ?_⟩
              cases made with
              | ok coord => exact .inl ⟨coord, rfl, same.symm⟩
              | error text => exact .inr ⟨text, rfl, same.symm⟩

theorem grant_eq_some (admitted : s.grant i request = some t) :
    request.stage = .waiting ∧ ∃ gate, s.gate.acquire = some gate ∧
      t = { s.move i request .running with gate := gate } := by
  unfold grant at admitted
  split at admitted
  · obtain ⟨gate, acquired, same⟩ := Option.map_eq_some_iff.mp admitted
    exact ⟨‹_›, gate, acquired, same.symm⟩
  · cases admitted

theorem refuse_eq_some (refused : s.refuse i request = some t) :
    request.stage = .waiting ∧ s.gate.value = 0 ∧
      t = s.move i request
        (.answered (.ok (DeepseekAdapter.failure "too many concurrent runs"))) := by
  unfold refuse at refused
  split at refused
  · obtain ⟨nothing, same⟩ := Option.ite_none_right_eq_some.mp refused
    exact ⟨‹_›, nothing, (Option.some.inj same).symm⟩
  · cases refused

theorem operate_eq_some {operation : ω} (operated : s.operate perform operation request = some t) :
    t = { s with
      coordinators := s.coordinators.modify request.coordinator (perform operation) } := by
  unfold operate at operated
  split at operated
  · exact (Option.some.inj operated).symm
  · exact (Option.some.inj operated).symm
  · cases operated

theorem finish_eq_some {outcome : Except String Object}
    (finished : s.finish record i outcome request = some t) :
    (request.stage = .running ∧
      ((∃ gate, s.gate.release = .ok gate ∧
        t = { s.move i request (.answered (conclude record request.event outcome)) with
          gate := gate }) ∨
      ∃ text, s.gate.release = .error text ∧
        t = s.move i request (.answered (.error text)))) ∨
    request.stage = .serving ∧ t = s.move i request (.answered outcome) := by
  unfold finish at finished
  split at finished
  · refine .inl ⟨‹_›, ?_⟩
    split at finished
    · exact .inl ⟨_, ‹_›, (Option.some.inj finished).symm⟩
    · exact .inr ⟨_, ‹_›, (Option.some.inj finished).symm⟩
  · exact .inr ⟨‹_›, (Option.some.inj finished).symm⟩
  · cases finished

theorem manage_eq_some {event : SessionManager.Event Nat} (managed : s.manage event = some t) :
    ∃ timed after, s.registry = some timed ∧ SessionManager.step timed event = some after ∧
      t = { s with registry := some after } := by
  obtain ⟨timed, here, taken⟩ := Option.bind_eq_some_iff.mp managed
  obtain ⟨after, transition, same⟩ := Option.map_eq_some_iff.mp taken
  exact ⟨timed, after, here, transition, same.symm⟩

end Inversion

section Gate

variable {perform record} {s t : Service κ} {i : Nat} {request : Visit}

/-- The runs that hold the semaphore. -/
def running (s : Service κ) : Nat := s.requests.countP fun request => request.stage.isRunning

theorem first_isRunning (event : Object) : (Stage.first event).isRunning = false := by
  unfold Stage.first
  split
  · split
    · rfl
    · rfl
  · rfl

theorem running_enter {event : Object} {session : Option String} {c : Nat} :
    (s.enter event session c).running = s.running := by
  simp [running, enter, List.countP_append, first_isRunning]

theorem running_move (here : s.requests[i]? = some request) (stage : Stage) :
    (s.move i request stage).running + request.stage.isRunning.toNat =
      s.running + stage.isRunning.toNat := by
  obtain ⟨inside, rfl⟩ := List.getElem?_eq_some_iff.mp here
  have before : s.requests[i].stage.isRunning.toNat ≤ s.running := by
    cases held : s.requests[i].stage.isRunning with
    | false => exact Nat.zero_le _
    | true => exact List.countP_pos_iff.mpr ⟨_, List.getElem_mem inside, held⟩
  have counted : (s.move i s.requests[i] stage).running =
      s.running - s.requests[i].stage.isRunning.toNat + stage.isRunning.toNat := by
    simp only [running, move, List.countP_set inside]
    cases s.requests[i].stage.isRunning <;> cases stage.isRunning <;> rfl
  omega

theorem running_admitted (here : s.requests[i]? = some request)
    (waiting : request.stage = .waiting) : (s.move i request .running).running = s.running + 1 := by
  simpa [waiting, Stage.isRunning] using running_move here .running

theorem running_left (here : s.requests[i]? = some request) (held : request.stage = .running)
    (answer : Except String Object) :
    (s.move i request (.answered answer)).running + 1 = s.running := by
  simpa [held, Stage.isRunning] using running_move here (.answered answer)

theorem running_answered (here : s.requests[i]? = some request)
    (free : request.stage.isRunning = false) (answer : Except String Object) :
    (s.move i request (.answered answer)).running = s.running := by
  have moved := running_move here (.answered answer)
  rw [free] at moved
  exact moved

/-- What is left of the semaphore and what the runs hold make up its initial value. -/
structure Balanced (limit : Nat) (s : Service κ) : Prop where
  initial : s.gate.initial = limit
  balance : s.gate.value + s.running = limit

/-- A run that holds the semaphore can give it back. -/
theorem Balanced.released {limit : Nat} (balanced : Balanced limit s)
    (here : s.requests[i]? = some request) (held : request.stage = .running) :
    ∃ gate, s.gate.release = .ok gate := by
  have left := running_left here held (.error "")
  have balance := balanced.balance
  exact BoundedSemaphore.release_of_lt (by rw [balanced.initial]; omega)

theorem Balanced.step {limit : Nat} {event : Event κ ω} (balanced : Balanced limit s)
    (transition : step perform record s event = some t) : Balanced limit t := by
  obtain ⟨initial, balance⟩ := balanced
  cases event with
  | arrive event now later made =>
      obtain ⟨-, rfl⟩ | ⟨sid, timed, after, -, -, -,
        ⟨c, -, rfl⟩ | ⟨-, ⟨coord, -, rfl⟩ | ⟨text, -, rfl⟩⟩⟩ := arrive_eq_some transition
      · exact ⟨initial, running_enter.symm ▸ balance⟩
      · exact ⟨initial, running_enter.symm ▸ balance⟩
      · exact ⟨initial, running_enter.symm ▸ balance⟩
      · exact ⟨initial, balance⟩
  | grant i =>
      obtain ⟨request, here, admitted⟩ := Option.bind_eq_some_iff.mp transition
      obtain ⟨waiting, gate, acquired, rfl⟩ := grant_eq_some admitted
      obtain ⟨same, taken⟩ := BoundedSemaphore.acquire_eq_some acquired
      have moved := running_admitted here waiting
      refine ⟨same.trans initial, ?_⟩
      change gate.value + (s.move i request .running).running = limit
      omega
  | refuse i =>
      obtain ⟨request, here, refused⟩ := Option.bind_eq_some_iff.mp transition
      obtain ⟨waiting, -, rfl⟩ := refuse_eq_some refused
      refine ⟨initial, ?_⟩
      rw [running_answered here (waiting ▸ rfl)]
      exact balance
  | operate i operation =>
      obtain ⟨request, -, operated⟩ := Option.bind_eq_some_iff.mp transition
      rw [operate_eq_some operated]
      exact ⟨initial, balance⟩
  | finish i outcome =>
      obtain ⟨request, here, finished⟩ := Option.bind_eq_some_iff.mp transition
      obtain ⟨held, ⟨gate, released, rfl⟩ | ⟨text, released, -⟩⟩ | ⟨serving, rfl⟩ :=
        finish_eq_some finished
      · obtain ⟨same, freed⟩ := BoundedSemaphore.release_eq_ok released
        have left := running_left here held (conclude record request.event outcome)
        refine ⟨same.trans initial, ?_⟩
        change gate.value + (s.move i request _).running = limit
        omega
      · obtain ⟨gate, freed⟩ := Balanced.released ⟨initial, balance⟩ here held
        rw [released] at freed
        cases freed
      · refine ⟨initial, ?_⟩
        rw [running_answered here (serving ▸ rfl)]
        exact balance
  | delete sid =>
      obtain ⟨timed, after, -, -, rfl⟩ := manage_eq_some transition
      exact ⟨initial, balance⟩
  | cleanup now =>
      obtain ⟨timed, after, -, -, rfl⟩ := manage_eq_some transition
      exact ⟨initial, balance⟩

theorem balanced_new (default : κ) (maxConcurrentRuns : Int)
    (limits : Option (Option ℚ × Option Int)) (clock : ℚ) :
    Balanced (max 1 maxConcurrentRuns).toNat
      (new default maxConcurrentRuns limits clock) :=
  ⟨rfl, rfl⟩

/-- In every interleaving the runs that hold the semaphore and what is left of it make up the
limit; a run is refused only while as many runs as the limit hold the semaphore; and a run
gives it back however it ends, with an answer that is its own. -/
theorem gate_kept {default : κ} {maxConcurrentRuns : Int}
    {limits : Option (Option ℚ × Option Int)} {clock : ℚ} {events : List (Event κ ω)}
    (execution : (machine perform record).run (new default maxConcurrentRuns limits clock) events =
      some s) :
    s.gate.value + s.running = (max 1 maxConcurrentRuns).toNat ∧
      (∀ i t, step perform record s (.refuse i) = some t →
        s.running = (max 1 maxConcurrentRuns).toNat) ∧
      ∀ i request outcome, s.requests[i]? = some request → request.stage = .running →
        ∃ t, step perform record s (.finish i outcome) = some t ∧
          t.gate.value = s.gate.value + 1 ∧
          t.requests = s.requests.set i
            { request with stage := .answered (conclude record request.event outcome) } := by
  have balanced : Balanced _ s := Machine.run_invariant
    (fun _ _ _ balanced transition => balanced.step transition)
    (balanced_new default maxConcurrentRuns limits clock) execution
  have balance := balanced.balance
  refine ⟨balance, ?_, ?_⟩
  · intro i t transition
    obtain ⟨request, -, refused⟩ := Option.bind_eq_some_iff.mp transition
    obtain ⟨-, nothing, -⟩ := refuse_eq_some refused
    omega
  · intro i request outcome here held
    obtain ⟨gate, released⟩ := balanced.released here held
    refine ⟨{ s.move i request (.answered (conclude record request.event outcome)) with
      gate := gate }, ?_, (BoundedSemaphore.release_eq_ok released).2, rfl⟩
    rw [step, here, Option.bind_some, finish, held]
    simp only [released]

/-- A run event of the default coordinator. -/
def ask : Object := [("type", .str "run"), ("prompt", .str "hi")]

theorem gate_kept_twoRuns :
    ∃ s : Service Nat,
      (machine (fun (n : Nat) m => n + m) fun _ _ => .ok ()).run (new 0 1 none 0)
        [.arrive ask 0 0 (.ok 0), .arrive ask 0 0 (.ok 0), .grant 1] = some s ∧
      s.gate.value + s.running = 1 := by
  have runs : ((machine (fun (n : Nat) m => n + m) fun _ _ => .ok ()).run (new 0 1 none 0)
      [.arrive ask 0 0 (.ok 0), .arrive ask 0 0 (.ok 0), .grant 1]).isSome = true := by
    decide +kernel
  obtain ⟨s, execution⟩ := Option.isSome_iff_exists.mp runs
  exact ⟨s, execution, (gate_kept execution).1⟩

end Gate

section Alone

variable {α : Type} {perform : ω → κ → κ} {s : Service κ}

/-- What the run itself returns or raises in `handleRun`. -/
def outcome (adapter : DeepseekAdapter κ α) (coord : κ) (event : Object) :
    Except String Object :=
  adapter.coordinators.run coord (event.getD "prompt" (.str ""))
    (event.getD "strategy" (.str "auto")) (DeepseekAdapter.runOptions event)

theorem handleRun_missing {adapter : DeepseekAdapter κ α} {coord : κ} {event : Object}
    (missing : (event.getD "prompt" (.str "")).truthy = false) :
    adapter.handleRun coord event = .ok (DeepseekAdapter.failure "missing prompt") := by
  simp [DeepseekAdapter.handleRun, missing, pure, Except.pure]

theorem handleRun_refused {adapter : DeepseekAdapter κ α} {coord : κ} {event : Object}
    (given : (event.getD "prompt" (.str "")).truthy = true) (full : adapter.acquire = false) :
    adapter.handleRun coord event =
      .ok (DeepseekAdapter.failure "too many concurrent runs") := by
  simp [DeepseekAdapter.handleRun, given, full, pure, Except.pure]

theorem handleRun_admitted {adapter : DeepseekAdapter κ α} {coord : κ} {event : Object}
    (given : (event.getD "prompt" (.str "")).truthy = true) (free : adapter.acquire = true) :
    adapter.handleRun coord event =
      conclude adapter.recordHistory event (outcome adapter coord event) := by
  unfold outcome
  cases ended : adapter.coordinators.run coord (event.getD "prompt" (.str ""))
      (event.getD "strategy" (.str "auto")) (DeepseekAdapter.runOptions event) with
  | error text => simp [DeepseekAdapter.handleRun, given, free, ended, conclude, bind, Except.bind]
  | ok result =>
      cases kept : adapter.recordHistory event result with
      | error text =>
          simp [DeepseekAdapter.handleRun, given, free, ended, kept, conclude, bind, Except.bind,
            Except.map]
      | ok _ =>
          simp [DeepseekAdapter.handleRun, given, free, ended, kept, conclude, bind, Except.bind,
            Except.map, pure, Except.pure]

theorem getElem?_move {i : Nat} {request : Visit} (here : s.requests[i]? = some request)
    (stage : Stage) :
    (s.move i request stage).requests[i]? = some { request with stage := stage } := by
  obtain ⟨inside, -⟩ := List.getElem?_eq_some_iff.mp here
  exact List.getElem?_set_self inside

/-- A run that waits is answered as `handleRun` answers it when nothing comes between. -/
theorem waiting_alone (adapter : DeepseekAdapter κ α) (coord : κ) {i : Nat} {request : Visit}
    (given : (request.event.getD "prompt" (.str "")).truthy = true)
    (gate : adapter.acquire = decide (s.gate.value ≠ 0))
    (here : s.requests[i]? = some request) (waiting : request.stage = .waiting) :
    ∃ (events : List (Event κ ω)) (t : Service κ),
      (machine perform adapter.recordHistory).run s events = some t ∧
      t.requests[i]? =
        some { request with stage := .answered (adapter.handleRun coord request.event) } := by
  by_cases full : s.gate.value = 0
  · refine ⟨[.refuse i], s.move i request (.answered (adapter.handleRun coord request.event)),
      ?_, getElem?_move here _⟩
    rw [handleRun_refused given (by rw [gate, full]; rfl)]
    simp [Machine.run, machine, step, here, refuse, waiting, full]
  · have positive : s.gate.value - 1 < s.gate.initial := by
      have bounded := s.gate.bounded
      omega
    let admitted : Service κ :=
      { s.move i request .running with
        gate := ⟨s.gate.initial, s.gate.value - 1, s.gate.bounded_pred⟩ }
    have entered : admitted.requests[i]? = some { request with stage := .running } :=
      getElem?_move here .running
    let answer := conclude adapter.recordHistory request.event
      (outcome adapter coord request.event)
    refine ⟨[.grant i, .finish i (outcome adapter coord request.event)],
      { admitted.move i { request with stage := .running } (.answered answer) with
        gate := ⟨s.gate.initial, s.gate.value - 1 + 1, positive⟩ }, ?_, ?_⟩
    · rw [Machine.run_cons_iff]
      refine ⟨admitted, ?_, ?_⟩
      · simp [machine, step, here, grant, waiting, BoundedSemaphore.acquire, full, admitted]
      · rw [Machine.run_cons_iff]
        refine ⟨_, ?_, rfl⟩
        simp [machine, step, entered, finish, BoundedSemaphore.release, positive, admitted, answer]
    · rw [handleRun_admitted given (by rw [gate]; exact decide_eq_true full)]
      exact getElem?_move entered (.answered answer)

/-- A run event is answered as `handleRun` answers it when nothing comes between its steps. -/
theorem run_alone (adapter : DeepseekAdapter κ α) (coord : κ) {event : Object}
    {session : Option String} {c : Nat} (run : (event.get "type").isText "run" = true)
    (gate : adapter.acquire = decide (s.gate.value ≠ 0)) :
    ∃ (events : List (Event κ ω)) (t : Service κ),
      (machine perform adapter.recordHistory).run (s.enter event session c) events = some t ∧
      t.requests[s.requests.length]? =
        some ⟨event, session, c, .answered (adapter.handleRun coord event)⟩ := by
  have last : (s.enter event session c).requests[s.requests.length]? =
      some ⟨event, session, c, .first event⟩ := by
    simp [enter]
  rw [Stage.first, if_pos run] at last
  cases given : (event.getD "prompt" (.str "")).truthy with
  | false =>
      rw [given, if_neg Bool.false_ne_true] at last
      exact ⟨[], _, rfl, by rw [last, handleRun_missing given]⟩
  | true =>
      rw [given, if_pos rfl] at last
      exact waiting_alone (s := s.enter event session c) adapter coord given gate last rfl

end Alone

end Service

end MultiAgent.Plugin
