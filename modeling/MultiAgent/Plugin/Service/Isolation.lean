import MultiAgent.Plugin.Service
import Mathlib.Data.List.Lemmas

/-!
# The isolation of the sessions

Each coordinator is made for one session, or is the default one. Whatever the events do and
however they interleave, also with evictions, a coordinator holds what the operations of the
requests of its own session have made of it, and nothing else (`sessions_isolated`).
-/

namespace MultiAgent.Plugin.Service

variable {κ ω : Type} {perform : ω → κ → κ} {record : Object → Object → Except String Unit}

/-- What the steps show of the coordinators. -/
inductive Entry (κ ω : Type) where
  /-- A coordinator is made for a session. -/
  | made (session : Option String) (coord : κ)
  /-- A request of a session operates on the coordinator of this place. -/
  | operated (session : Option String) (coordinator : Nat) (operation : ω)

def shown (s : Service κ) : Event κ ω → List (Entry κ ω)
  | .arrive event _ _ made =>
    match sessionId? event, s.registry, made with
    | some (some sid), some timed, .ok coord =>
      if (timed.manager.sessions.get? sid).isNone then [.made (some sid) coord] else []
    | _, _, _ => []
  | .operate i operation =>
    (s.requests[i]?.map fun request =>
      .operated request.session request.coordinator operation).toList
  | .grant _ | .refuse _ | .finish _ _ | .delete _ | .cleanup _ => []

namespace Entry

def birth : Entry κ ω → Option (Option String × κ)
  | .made session coord => some (session, coord)
  | .operated _ _ _ => none

def operation (c : Nat) : Entry κ ω → Option ω
  | .operated _ coordinator operation => if coordinator = c then some operation else none
  | .made _ _ => none

end Entry

/-- The coordinators as they were made, with their sessions. -/
def births (default : κ) (log : List (Entry κ ω)) : List (Option String × κ) :=
  (none, default) :: log.filterMap Entry.birth

/-- What was done on the coordinator of a place. -/
def operations (c : Nat) (log : List (Entry κ ω)) : List ω := log.filterMap (Entry.operation c)

/-- The coordinator of the place belongs to the session. -/
def Belongs (default : κ) (log : List (Entry κ ω)) (c : Nat) (session : Option String) : Prop :=
  ∃ coord, (births default log)[c]? = some (session, coord)

variable {default : κ} {log more : List (Entry κ ω)} {c : Nat} {session : Option String}

theorem births_append :
    births default (log ++ more) = births default log ++ more.filterMap Entry.birth := by
  rw [births, List.filterMap_append, births, List.cons_append]

theorem operations_append :
    operations c (log ++ more) = operations c log ++ operations c more :=
  List.filterMap_append

theorem births_made {coord : κ} :
    births default (log ++ [.made session coord]) = births default log ++ [(session, coord)] :=
  births_append

theorem births_operated {operation : ω} :
    births default (log ++ [.operated session c operation]) = births default log := by
  rw [births_append]
  exact List.append_nil _

theorem operations_made {coord : κ} :
    operations c (log ++ [.made session coord]) = operations c log := by
  rw [operations_append]
  exact List.append_nil _

theorem operations_operated {place : Nat} {operation : ω} :
    operations c (log ++ [.operated session place operation]) =
      operations c log ++ if place = c then [operation] else [] := by
  rw [operations_append]
  by_cases own : place = c
  · simp [operations, Entry.operation, own]
  · simp [operations, Entry.operation, own]

theorem Belongs.later (belongs : Belongs default log c session) :
    Belongs default (log ++ more) c session := by
  obtain ⟨coord, here⟩ := belongs
  obtain ⟨inside, -⟩ := List.getElem?_eq_some_iff.mp here
  refine ⟨coord, ?_⟩
  rw [births_append, List.getElem?_append_left inside]
  exact here

/-- What the log says about a state. -/
structure Isolated (perform : ω → κ → κ) (default : κ) (log : List (Entry κ ω)) (s : Service κ) :
    Prop where
  contents : s.coordinators = (births default log).mapIdx fun c birth =>
    (operations c log).foldl (fun coord operation => perform operation coord) birth.2
  requests : ∀ request ∈ s.requests, Belongs default log request.coordinator request.session
  registry : ∀ timed ∈ s.registry, ∀ sid c, timed.manager.sessions.get? sid = some c →
    Belongs default log c (some sid)
  operated : ∀ session c operation, .operated session c operation ∈ log →
    Belongs default log c session

theorem isolated_new {maxConcurrentRuns : Int} {limits : Option (Option ℚ × Option Int)}
    {clock : ℚ} : Isolated perform default ([] : List (Entry κ ω))
      (new default maxConcurrentRuns limits clock) where
  contents := rfl
  requests request member := by cases member
  registry timed given := by
    obtain ⟨limits, -, rfl⟩ := Option.map_eq_some_iff.mp given
    intro sid c stored
    cases stored
  operated session c operation member := by cases member

section Step

variable {s t : Service κ} {i : Nat} {request : Visit} {gate : BoundedSemaphore}
  {timed after : SessionManager.Timed Nat} {sid : String}

theorem Isolated.enter (isolated : Isolated perform default log s)
    (belongs : Belongs default log c session) (event : Object) :
    Isolated perform default log (s.enter event session c) :=
  { isolated with
    requests := by
      intro request member
      obtain old | new := List.mem_append.mp member
      · exact isolated.requests request old
      · cases List.mem_singleton.mp new
        exact belongs }

/-- The registry goes on, with no session that it did not have. -/
theorem Isolated.keep (isolated : Isolated perform default log s) (here : s.registry = some timed)
    (fewer : ∀ sid c, after.manager.sessions.get? sid = some c →
      timed.manager.sessions.get? sid = some c) :
    Isolated perform default log { s with registry := some after } :=
  { isolated with
    registry := by
      rintro _ ⟨rfl⟩ sid c stored
      exact isolated.registry timed here sid c (fewer sid c stored) }

theorem Isolated.move (isolated : Isolated perform default log s)
    (here : s.requests[i]? = some request) (stage : Stage) (gate : BoundedSemaphore) :
    Isolated perform default log { s.move i request stage with gate := gate } :=
  { isolated with
    requests := by
      intro other member
      obtain old | rfl := List.mem_or_eq_of_mem_set member
      · exact isolated.requests other old
      · exact isolated.requests request (List.mem_of_getElem? here) }

theorem Isolated.length (isolated : Isolated perform default log s) :
    s.coordinators.length = (births default log).length := by
  rw [isolated.contents, List.length_mapIdx]

/-- Nothing was done on a coordinator that is not there yet. -/
theorem Isolated.operations_length (isolated : Isolated perform default log s) :
    operations (births default log).length log = [] := by
  rw [operations, List.filterMap_eq_nil_iff]
  intro entry member
  cases entry with
  | made session coord => rfl
  | operated session c operation =>
      obtain ⟨coord, here⟩ := isolated.operated session c operation member
      obtain ⟨inside, -⟩ := List.getElem?_eq_some_iff.mp here
      exact if_neg inside.ne

/-- A coordinator is made for a session. -/
theorem Isolated.make (isolated : Isolated perform default log s) (coord : κ)
    (here : s.registry = some timed)
    (fewer : ∀ other c, after.manager.sessions.get? other = some c →
      timed.manager.sessions.get? other = some c ∨ other = sid ∧ c = s.coordinators.length) :
    Isolated perform default (log ++ [.made (some sid) coord])
      { s with registry := some after, coordinators := s.coordinators ++ [coord] } where
  contents := by
    dsimp only
    rw [births_made, List.mapIdx_concat, operations_made, isolated.operations_length]
    simp only [operations_made]
    rw [← isolated.contents]
    rfl
  requests request member := (isolated.requests request member).later
  registry := by
    rintro _ ⟨rfl⟩ other c stored
    obtain old | ⟨rfl, rfl⟩ := fewer other c stored
    · exact (isolated.registry timed here other c old).later
    · refine ⟨coord, ?_⟩
      rw [births_append, isolated.length, List.getElem?_append_right le_rfl, Nat.sub_self]
      rfl
  operated session c operation member := by
    obtain old | new := List.mem_append.mp member
    · exact (isolated.operated session c operation old).later
    · cases List.mem_singleton.mp new

/-- A request operates on its coordinator. -/
theorem Isolated.operate (isolated : Isolated perform default log s)
    (here : s.requests[i]? = some request) (operation : ω) :
    Isolated perform default
      (log ++ [.operated request.session request.coordinator operation])
      { s with
        coordinators := s.coordinators.modify request.coordinator (perform operation) } where
  contents := by
    apply List.ext_getElem?
    intro c
    rw [births_operated, List.getElem?_modify, isolated.contents, List.getElem?_mapIdx,
      List.getElem?_mapIdx, operations_operated]
    cases (births default log)[c]? with
    | none => rfl
    | some birth =>
        by_cases own : request.coordinator = c
        · simp [own]
        · simp [own]
  requests other member := (isolated.requests other member).later
  registry timed given sid c stored := (isolated.registry timed given sid c stored).later
  operated session c operation' member := by
    obtain old | new := List.mem_append.mp member
    · exact (isolated.operated session c operation' old).later
    · cases List.mem_singleton.mp new
      exact (isolated.requests request (List.mem_of_getElem? here)).later

theorem Isolated.arrive {event : Object} {now later : ℚ} {made : Except String κ}
    (isolated : Isolated perform default log s)
    (arrived : s.arrive event now later made = some t) :
    Isolated perform default
      (log ++ shown s (.arrive event now later made : Event κ ω)) t := by
  obtain ⟨sessionless, rfl⟩ | ⟨sid, timed, after, named, here, transition, cases⟩ :=
    arrive_eq_some arrived
  · have silent : shown s (.arrive event now later made : Event κ ω) = [] := by
      obtain named | unregistered := sessionless
      · simp [shown, named]
      · simp [shown, unregistered]
    rw [silent, List.append_nil]
    exact isolated.enter ⟨default, rfl⟩ event
  · have stored : ∀ other c, after.manager.sessions.get? other = some c →
        timed.manager.sessions.get? other = some c ∨
          timed.manager.sessions.get? other = none ∧ other = sid ∧
            made.map (fun _ => s.coordinators.length) = .ok c := by
      intro other c stored
      refine (SessionManager.stored_of_step transition stored).imp id (And.imp id ?_)
      rintro ⟨now', later', same⟩
      injection same with asked _ _ place
      exact ⟨asked.symm, place⟩
    obtain ⟨c, known, rfl⟩ | ⟨unknown, ⟨coord, rfl, rfl⟩ | ⟨text, rfl, rfl⟩⟩ := cases
    · have silent : shown s (.arrive event now later made : Event κ ω) = [] := by
        cases made <;> simp [shown, named, here, known]
      rw [silent, List.append_nil]
      refine Isolated.enter (isolated.keep here ?_) (isolated.registry timed here sid c known) event
      intro other c' stored'
      obtain old | ⟨none, rfl, -⟩ := stored other c' stored'
      · exact old
      · rw [none] at known
        cases known
    · have speaks : shown s (.arrive event now later (.ok coord) : Event κ ω) =
          [.made (some sid) coord] := by
        simp [shown, named, here, unknown]
      rw [speaks]
      have fewer : ∀ other c', after.manager.sessions.get? other = some c' →
          timed.manager.sessions.get? other = some c' ∨
            other = sid ∧ c' = s.coordinators.length := by
        intro other c' stored'
        refine (stored other c' stored').imp id ?_
        rintro ⟨-, same, place⟩
        cases place
        exact ⟨same, rfl⟩
      refine (isolated.make coord here fewer).enter ⟨coord, ?_⟩ event
      rw [births_made, isolated.length, List.getElem?_append_right le_rfl, Nat.sub_self]
      rfl
    · have silent : shown s (.arrive event now later (.error text) : Event κ ω) = [] := by
        simp [shown]
      rw [silent, List.append_nil]
      refine isolated.keep here ?_
      intro other c' stored'
      obtain old | ⟨-, -, place⟩ := stored other c' stored'
      · exact old
      · cases place

theorem Isolated.manage {event : SessionManager.Event Nat}
    (isolated : Isolated perform default log s) (managed : s.manage event = some t)
    (makes : ∀ sid now later made, event ≠ .getOrCreate sid now later made) :
    Isolated perform default log t := by
  obtain ⟨timed, after, here, transition, rfl⟩ := manage_eq_some managed
  refine isolated.keep here ?_
  intro sid c stored
  obtain old | ⟨-, now, later, same⟩ := SessionManager.stored_of_step transition stored
  · exact old
  · exact absurd same (makes sid now later _)

theorem Isolated.step {event : Event κ ω} (isolated : Isolated perform default log s)
    (transition : step perform record s event = some t) :
    Isolated perform default (log ++ shown s event) t := by
  cases event with
  | arrive event now later made => exact isolated.arrive transition
  | grant i =>
      obtain ⟨request, here, admitted⟩ := Option.bind_eq_some_iff.mp transition
      obtain ⟨-, gate, -, rfl⟩ := grant_eq_some admitted
      rw [shown, List.append_nil]
      exact isolated.move here .running gate
  | refuse i =>
      obtain ⟨request, here, refused⟩ := Option.bind_eq_some_iff.mp transition
      obtain ⟨-, -, rfl⟩ := refuse_eq_some refused
      rw [shown, List.append_nil]
      exact isolated.move here _ s.gate
  | operate i operation =>
      obtain ⟨request, here, operated⟩ := Option.bind_eq_some_iff.mp transition
      rw [operate_eq_some operated, shown, here]
      exact isolated.operate here operation
  | finish i outcome =>
      obtain ⟨request, here, finished⟩ := Option.bind_eq_some_iff.mp transition
      rw [shown, List.append_nil]
      obtain ⟨-, ⟨gate, -, rfl⟩ | ⟨text, -, rfl⟩⟩ | ⟨-, rfl⟩ := finish_eq_some finished
      · exact isolated.move here _ gate
      · exact isolated.move here _ s.gate
      · exact isolated.move here _ s.gate
  | delete sid =>
      rw [shown, List.append_nil]
      exact isolated.manage transition nofun
  | cleanup now =>
      rw [shown, List.append_nil]
      exact isolated.manage transition nofun

end Step

/-- A session that is stored is continued: its next request works on the same coordinator. -/
def Continues (s : Service κ) : Prop :=
  ∀ timed ∈ s.registry, ∀ sid c, timed.manager.sessions.get? sid = some c →
    ∀ event now later made t, sessionId? event = some (some sid) →
      s.arrive event now later made = some t →
        t.coordinators = s.coordinators ∧
          t.requests = s.requests ++ [⟨event, some sid, c, .first event⟩]

theorem continues (s : Service κ) : Continues s := by
  intro timed here sid c stored event now later made t named arrived
  obtain ⟨sessionless, -⟩ | ⟨sid', timed', after, named', here', -, cases⟩ :=
    arrive_eq_some arrived
  · obtain named' | unregistered := sessionless
    · rw [named] at named'
      cases named'
    · rw [Option.mem_def.mp here] at unregistered
      cases unregistered
  · rw [named] at named'
    cases named'
    rw [Option.mem_def.mp here] at here'
    cases here'
    rw [stored] at cases
    obtain ⟨_, ⟨rfl⟩, rfl⟩ | ⟨unknown, -⟩ := cases
    · exact ⟨rfl, rfl⟩
    · cases unknown

/-- In every interleaving of events whose session ids are texts, with evictions at any time, a
coordinator is what the operations of the requests of one session have made of it in their order,
and the default coordinator what those of the requests without a session have. While a session is
stored, its requests share its coordinator. -/
theorem sessions_isolated {maxConcurrentRuns : Int} {limits : Option (Option ℚ × Option Int)}
    {clock : ℚ} {events : List (Event κ ω)} {s : Service κ}
    (execution : (machine perform record).run (new default maxConcurrentRuns limits clock) events =
      some s) :
    Isolated perform default ((machine perform record).log shown
      (new default maxConcurrentRuns limits clock) events) s ∧ Continues s := by
  have met : (machine perform record).Meets (fun _ _ => True)
      (new default maxConcurrentRuns limits clock) events :=
    Machine.meets_of_mem (fun _ _ _ => trivial) _
  have isolated := Machine.run_log_invariant (P := fun s log => Isolated perform default log s)
    (l := []) (fun _ _ _ _ isolated _ transition => isolated.step transition) isolated_new met
    execution
  exact ⟨isolated, continues s⟩

section Visitors

/-- A run event of a session. -/
def asks (sid : String) : Object :=
  [("type", .str "run"), ("prompt", .str "hi"), ("session_id", .str sid)]

/-- Room for one session: that of ada goes while her first run is under way, and her second
run finds another coordinator. -/
def visitors : List (Event (List String) String) :=
  [.arrive (asks "ada") 0 0 (.ok []), .grant 0, .operate 0 "a1",
   .arrive (asks "bob") 1 1 (.ok []), .grant 1, .operate 1 "b1", .operate 0 "a2",
   .arrive (asks "ada") 2 2 (.ok []), .finish 0 (.ok []), .grant 2, .operate 2 "a3"]

/-- A coordinator notes what is done with it. -/
def noting : Machine (Service (List String)) (Event (List String) String) :=
  machine (fun note notes => notes ++ [note]) fun _ _ => .ok ()

theorem sessions_isolated_visitors :
    ∃ s, noting.run (new [] 2 (some (none, some 1)) 0) visitors = some s ∧
      s.coordinators = [[], ["a1", "a2"], ["b1"], ["a3"]] ∧
      Isolated (fun note notes => notes ++ [note]) []
        (noting.log shown (new [] 2 (some (none, some 1)) 0) visitors) s ∧ Continues s := by
  have visits : (noting.run (new [] 2 (some (none, some 1)) 0) visitors).any
      (fun s => decide (s.coordinators = [[], ["a1", "a2"], ["b1"], ["a3"]])) = true := by
    decide +kernel
  obtain ⟨s, execution, notes⟩ := (Option.any_eq_true _ _).mp visits
  exact ⟨s, execution, of_decide_eq_true notes, sessions_isolated execution⟩

end Visitors

end MultiAgent.Plugin.Service
