import MultiAgent.Foundations.Purging
import MultiAgent.Plugin.Http.Errands
import MultiAgent.Plugin.Service.Logbook

/-!
# The HTTP adapter under traffic

The requests of the handlers on the service behind them, with its history, and the events that
carry on what they have started. A request without the access changes nothing, and what a caller
of the lowest role is told can be told from the public part of the state alone.
-/

namespace MultiAgent.Plugin

/-- What the listings ask of a coordinator beyond the dispatcher. -/
structure Inspection (κ α : Type) where
  /-- `agent_health(agent)` -/
  health : α → Json
  /-- `coordinator.runs.recent(limit)` -/
  recent : κ → Int → List Json
  /-- `coordinator.runs.get(run_id).to_dict()` -/
  trace : κ → String → Option Object
  /-- `len(coordinator.memory)` -/
  messages : κ → Nat

/-- A server with what stands behind it. -/
structure Deployment (κ α ω : Type) where
  server : Server κ α
  inspection : Inspection κ α
  floats : Json.Format
  perform : ω → κ → κ
  version : String

inductive Traffic (κ ω : Type) where
  /-- With the readings of the clock, and what the factory of the coordinators answers. -/
  | request (method : Method) (request : Request) (now later : ℚ) (made : Except String κ)
  /-- The handling of an earlier request goes on. -/
  | progress (event : Service.Event κ ω) (stamp : Stamp)

/-- What happens on the thread of a request after it was routed. -/
def Service.Event.isProgress {κ ω : Type} : Service.Event κ ω → Bool
  | .grant _ | .refuse _ | .operate _ _ | .finish _ _ => true
  | .arrive _ _ _ _ | .delete _ | .cleanup _ => false

/-- What the adapter does for an errand at once. -/
def Errand.events {κ ω : Type} (registered : Bool) (now later : ℚ) (made : Except String κ) :
    Errand → List (Service.Event κ ω)
  | .handle _ event => [.arrive event now later made]
  | .sessions | .cleanup => if registered then [.cleanup now] else []
  | .drop sid => if registered && !sid.isEmpty then [.delete sid] else []
  | _ => []

/-- The errands that may change something. -/
def Errand.acts : Errand → Bool
  | .handle _ _ | .sessions | .cleanup | .drop _ => true
  | _ => false

/-- What is sent to a caller. -/
inductive Reaction where
  | sent (response : Response)
  /-- The connection is closed without a response. -/
  | raised (text : String)
  /-- The response is that of the dispatcher. -/
  | handed

/-- A POST request as `do_POST` answers it. -/
def Reaction.ofPost : PostOutcome → Reaction
  | .replied response => .sent response
  | .handled _ _ _ => .handed
  | .raised text => .raised text

namespace Deployment

variable {κ α ω : Type} (d : Deployment κ α ω)

/-- The agents of the default coordinator. -/
def agents (s : Logged κ) : List α :=
  s.service.coordinators.head?.elim [] d.server.adapter.coordinators.agents

/-- `manager.stats()` -/
def stats (s : Logged κ) (m : SessionManager Nat) : Object :=
  [("count", .int m.sessions.keys.length), ("ttl", m.ttl.elim .null .float),
   ("max_sessions", m.maxSessions.elim .null .int),
   ("sessions", .arr (m.sessions.entries.map fun session => .obj
     [("session_id", .str session.1), ("created_at", (m.created.get? session.1).elim .null .float),
      ("last_active", (m.lastActive.get? session.1).elim .null .float),
      ("messages", .int ((s.service.coordinators[session.2]?).elim 0 fun coord =>
        d.inspection.messages coord))]))]

/-- What is sent for an errand of a caller that was let in, if the dispatcher has no part in it. -/
def answer (s : Logged κ) (now : ℚ) : Errand → Option Response
  | .reply response => some response
  | .health =>
    some ⟨[("status", .str "ok"), ("version", .str d.version)] ++
      s.history.elim [] fun history =>
        [("history", .str "on"), ("history_count", .int history.len)], 200⟩
  | .agents =>
    some ⟨[("agents", .arr ((d.agents s).map d.server.adapter.coordinators.describe))], 200⟩
  | .status =>
    some ⟨[("status", .str "ok"), ("version", .str d.version),
      ("agents", .arr ((d.agents s).map fun agent => .obj
        [("name", d.server.adapter.coordinators.name agent),
         ("health", d.inspection.health agent)])),
      ("runs", .int (s.service.coordinators.head?.elim 0 fun coord =>
        d.server.adapter.coordinators.runs coord)),
      ("sessions", .int (s.service.registry.elim 0 fun timed =>
        timed.manager.sessions.keys.length))], 200⟩
  | .runs limit =>
    some ⟨[("runs", .arr (s.service.coordinators.head?.elim [] fun coord =>
      d.inspection.recent coord limit))], 200⟩
  | .trace runId =>
    match s.service.coordinators.head?.bind fun coord => d.inspection.trace coord runId with
    | some trace => some ⟨trace, 200⟩
    | none => some ⟨[("error", .str "run not found")], 404⟩
  | .history limit =>
    match s.history with
    | none => some ⟨[("records", .arr []), ("enabled", .bool false)], 200⟩
    | some history => some ⟨[("records", .arr (history.recent d.floats limit))], 200⟩
  | .sessions =>
    match s.service.registry with
    | none => some ⟨[("count", .int 0), ("ttl", .null), ("max_sessions", .null),
        ("sessions", .arr [])], 200⟩
    | some timed => some ⟨d.stats s (timed.manager.cleanup now).1, 200⟩
  | .cleanup =>
    some ⟨[("evicted", .arr (s.service.registry.elim [] fun timed =>
      (timed.manager.cleanup now).2.map .str))], 200⟩
  | .drop sid =>
    if s.service.registry.any fun timed => !sid.isEmpty && (timed.manager.delete sid).2 then
      some ⟨[("deleted", .str sid)], 200⟩
    else some ⟨[("error", .str "session not found")], 404⟩
  | .handle _ _ => none

/-- The reaction to a request. -/
def react (s : Logged κ) (method : Method) (request : Request) (now : ℚ) : Reaction :=
  match d.server.access method request with
  | .raised text => .raised text
  | .denied response => .sent response
  | .granted => (d.answer s now (d.server.errand request method)).elim .handed .sent

/-- A POST request gets what `do_POST` answers, where a forced eviction drops what is to be dropped
at that moment. -/
theorem react_post {s : Logged κ} {request : Request} {now : ℚ}
    (evicts : d.server.cleanup =
      s.service.registry.elim [] fun timed => (timed.manager.cleanup now).2) :
    d.react s .post request now = .ofPost (d.server.doPost request) := by
  rw [react, Server.doPost, Server.access, Method.action, Server.errand, Server.postErrand]
  cases d.server.checkAccess request (postAction (splitFirst '?' request.path)) with
  | raised text => rfl
  | denied response => rfl
  | granted =>
      dsimp only
      by_cases cleanup : splitFirst '?' request.path = "/sessions/cleanup"
      · rw [if_pos cleanup, if_pos cleanup, answer, evicts]
        cases s.service.registry <;> rfl
      rw [if_neg cleanup, if_neg cleanup]
      by_cases known : splitFirst '?' request.path ∈ ["/run", "/register"]
      · rw [if_neg (not_not.mpr known), if_neg (not_not.mpr known)]
        cases d.server.receive request <;> rfl
      · rw [if_pos known, if_pos known]
        rfl

/-- What the service does for an event of the traffic. -/
def serves (s : Logged κ) : Traffic κ ω → List (Service.Event κ ω × Stamp)
  | .request method request now later made =>
    match d.server.access method request with
    | .granted => ((d.server.errand request method).events s.service.registry.isSome now later
        made).map fun event => (event, ⟨"", none⟩)
    | _ => []
  | .progress event stamp => [(event, stamp)]

/-- The service behind the server. -/
def backend : Machine (Logged κ) (Service.Event κ ω × Stamp) :=
  Logged.machine d.perform d.server.adapter d.floats

def step (s : Logged κ) : Traffic κ ω → Option (Logged κ)
  | .progress event stamp =>
    if event.isProgress then d.backend.run s (d.serves s (.progress event stamp)) else none
  | event => d.backend.run s (d.serves s event)

def machine : Machine (Logged κ) (Traffic κ ω) := ⟨d.step⟩

/-- Everything but the requests that may change nothing or are not let in. -/
def effective : Traffic κ ω → Bool
  | .request method request _ _ _ =>
    match d.server.access method request with
    | .granted => (d.server.errand request method).acts
    | _ => false
  | .progress _ _ => true

/-- The reactions to the requests that may change something. -/
def reactions (s : Logged κ) (event : Traffic κ ω) : List Reaction :=
  match event with
  | .request method request now _ _ =>
    if d.effective event then [d.react s method request now] else []
  | .progress _ _ => []

theorem events_of_idle {errand : Errand} (idle : errand.acts = false) (registered : Bool)
    (now later : ℚ) (made : Except String κ) :
    errand.events registered now later made = ([] : List (Service.Event κ ω)) := by
  cases errand <;> first | rfl | cases idle

theorem serves_of_idle {event : Traffic κ ω} (idle : d.effective event = false) (s : Logged κ) :
    d.serves s event = [] := by
  cases event with
  | progress event stamp => cases idle
  | request method request now later made =>
      rw [effective] at idle
      rw [serves]
      cases access : d.server.access method request with
      | raised text => rfl
      | denied response => rfl
      | granted =>
          rw [access] at idle
          dsimp only at idle ⊢
          rw [events_of_idle idle]
          rfl

/-- Nothing that may change something is open to everybody. -/
theorem required_of_acts {errand : Errand} (acts : errand.acts = true) :
    ∃ required, errand.required = some required := by
  cases errand <;> first | exact ⟨_, rfl⟩ | cases acts

theorem granted_of_effective {method : Method} {request : Request} {now later : ℚ}
    {made : Except String κ}
    (effective : d.effective (.request method request now later made : Traffic κ ω) = true) :
    d.server.access method request = .granted ∧ (d.server.errand request method).acts = true := by
  rw [Deployment.effective] at effective
  cases access : d.server.access method request with
  | raised text =>
      rw [access] at effective
      cases effective
  | denied response =>
      rw [access] at effective
      cases effective
  | granted =>
      rw [access] at effective
      exact ⟨rfl, effective⟩

theorem idle_effective : d.machine.Idle d.effective := by
  intro event idle s
  cases event with
  | progress event stamp => cases idle
  | request method request now later made =>
      change d.backend.run s (d.serves s (.request method request now later made)) = some s
      rw [d.serves_of_idle idle]
      rfl

/-- Each event of the traffic is a run of the service. -/
theorem run_serves {s t : Logged κ} {event : Traffic κ ω} (taken : d.step s event = some t) :
    d.backend.run s (d.serves s event) = some t := by
  cases event with
  | request method request now later made => exact taken
  | progress event stamp =>
      rw [step, Option.ite_none_right_eq_some] at taken
      exact taken.2

/-- A server that may be reached from afar and was not told to let everybody in, under any
traffic: the service behind it takes the steps of the requests that are let in and of nothing
else; all requests that are not, or only read, can be left out of a run without a change to its
end and to what the others are told; and each request that may change something bears a configured
token of a role that has the access. -/
theorem remote_guarded {base : Server κ α} {options : AccessOptions}
    {isLoopback : String → Option Bool} {host : String}
    (built : Server.buildServer base options isLoopback host = .ok d.server)
    (remote : isLoopbackBindHost isLoopback host = false)
    (secure : options.allowInsecureRemote = false) {s t : Logged κ} {es : List (Traffic κ ω)}
    (execution : d.machine.run s es = some t) :
    d.backend.run s (d.machine.log d.serves s es) = some t ∧
      d.machine.run s (es.filter d.effective) = some t ∧
      d.machine.log d.reactions s (es.filter d.effective) = d.machine.log d.reactions s es ∧
      ∀ method request now later made,
        (.request method request now later made : Traffic κ ω) ∈ es.filter d.effective →
          ∃ token role, options.Configured token role ∧
            TokenAuthenticator.Bears (request.authorization.getD "") token ∧
            ∃ required, (d.server.errand request method).required = some required ∧
              required.level ≤ role.level := by
  refine ⟨?_, ?_, ?_, ?_⟩
  · exact Machine.run_expand (fun s e t taken => d.run_serves taken) execution
  · rw [Machine.run_filter d.idle_effective]
    exact execution
  · refine Machine.log_filter d.idle_effective (fun event idle s => ?_) s es
    cases event with
    | progress event stamp => rfl
    | request method request now later made => exact if_neg (by rw [idle]; exact Bool.false_ne_true)
  · intro method request now later made member
    obtain ⟨granted, acts⟩ := d.granted_of_effective (List.mem_filter.mp member).2
    obtain ⟨required, needs⟩ := required_of_acts acts
    obtain ⟨guarded, configured⟩ := Server.tokens_of_buildServer built remote secure
    obtain ⟨auth, token, role, known, bears, listed, allowed⟩ :=
      Server.bearer_of_granted guarded granted
    exact ⟨token, role, configured auth known token role listed, bears, required, needs,
      allowed required needs⟩

section Cleanups

def secret : AccessOptions := ⟨some "secret", none, false⟩

/-- A server with sessions that knows one token. -/
def guardedDesk : Deployment Nat Unit Nat where
  server := ⟨Logged.bare, none, some "secret", [], fun _ => .ok (.obj Service.ask)⟩
  inspection := ⟨fun _ => .null, fun _ _ => [], fun _ _ => none, fun _ => 0⟩
  floats := History.noFloats
  perform := fun n m => n + m
  version := "1.0"

def cleanupBy (authorization : Option String) : Request :=
  ⟨"/sessions/cleanup", authorization, none, [], []⟩

def withSessions : Logged Nat := ⟨.new 0 1 (some (none, none)) 0, none⟩

/-- A stranger and the admin ask for a cleanup. -/
def twoCleanups : List (Traffic Nat Nat) :=
  [.request .post (cleanupBy none) 0 0 (.error ""),
   .request .post (cleanupBy (some "Bearer secret")) 1 1 (.error "")]

theorem remote_guarded_cleanups :
    ∃ t, guardedDesk.machine.run withSessions twoCleanups = some t ∧
      guardedDesk.machine.run withSessions
        [.request .post (cleanupBy (some "Bearer secret")) 1 1 (.error "")] = some t ∧
      ∃ token role, secret.Configured token role ∧
        TokenAuthenticator.Bears "Bearer secret" token ∧ Role.operator.level ≤ role.level := by
  have remote : isLoopbackBindHost (fun _ => some false) "0.0.0.0" = false := by decide
  have built : Server.buildServer guardedDesk.server secret (fun _ => some false) "0.0.0.0" =
      .ok guardedDesk.server := by
    rw [Server.buildServer, AccessOptions.validateBindSecurity, remote]
    rfl
  have left : twoCleanups.filter guardedDesk.effective =
      [.request .post (cleanupBy (some "Bearer secret")) 1 1 (.error "")] := rfl
  have runs : (guardedDesk.machine.run withSessions twoCleanups).isSome = true := by
    decide +kernel
  obtain ⟨t, execution⟩ := Option.isSome_iff_exists.mp runs
  obtain ⟨-, filtered, -, bears⟩ := guardedDesk.remote_guarded built remote rfl execution
  rw [left] at filtered bears
  obtain ⟨token, role, configured, bearer, required, needs, allowed⟩ :=
    bears .post _ 1 1 (.error "") List.mem_cons_self
  obtain rfl : Role.operator = required := Option.some.inj needs
  exact ⟨t, execution, filtered, token, role, configured, bearer, allowed⟩

end Cleanups

section Lowest

/-- The part of the state that any role may see. -/
structure Public where
  history : Option Nat
  /-- With their names, descriptions and health. -/
  agents : List (Json × Json × Json)
  runs : Nat
  sessions : Nat

def publicView (s : Logged κ) : Public where
  history := s.history.map History.RunHistory.len
  agents := (d.agents s).map fun agent => (d.server.adapter.coordinators.name agent,
    d.server.adapter.coordinators.describe agent, d.inspection.health agent)
  runs := s.service.coordinators.head?.elim 0 d.server.adapter.coordinators.runs
  sessions := s.service.registry.elim 0 fun timed => timed.manager.sessions.keys.length

/-- What can be answered from the public part. -/
def Public.answer (version : String) (shown : Public) : Errand → Option Response
  | .reply response => some response
  | .health =>
    some ⟨[("status", .str "ok"), ("version", .str version)] ++
      shown.history.elim [] fun count =>
        [("history", .str "on"), ("history_count", .int count)], 200⟩
  | .agents => some ⟨[("agents", .arr (shown.agents.map fun agent => agent.2.1))], 200⟩
  | .status =>
    some ⟨[("status", .str "ok"), ("version", .str version),
      ("agents", .arr (shown.agents.map fun agent => .obj
        [("name", agent.1), ("health", agent.2.2)])),
      ("runs", .int shown.runs), ("sessions", .int shown.sessions)], 200⟩
  | _ => none

/-- The caller is not known, or has the lowest role. -/
def isLowest (auth : TokenAuthenticator) (request : Request) : Bool :=
  match auth.authenticate (request.authorization.getD "") with
  | some (some role) => decide (role = .readonly)
  | _ => true

/-- The reaction as it can be told from the public part. -/
def retell (shown : Public) (method : Method) (request : Request) : Reaction :=
  match d.server.access method request with
  | .raised text => .raised text
  | .denied response => .sent response
  | .granted => (shown.answer d.version (d.server.errand request method)).elim .handed .sent

/-- Everything but the requests of the lowest callers. -/
def isHigher (auth : TokenAuthenticator) : Traffic κ ω → Bool
  | .request _ request _ _ _ => !isLowest auth request
  | .progress _ _ => true

/-- What the lowest callers are told. -/
def told (auth : TokenAuthenticator) (s : Logged κ) : Traffic κ ω → List Reaction
  | .request method request now _ _ =>
    if isLowest auth request then [d.react s method request now] else []
  | .progress _ _ => []

/-- The public part as the lowest callers find it, with their requests. -/
def found (auth : TokenAuthenticator) (s : Logged κ) :
    Traffic κ ω → List (Public × Method × Request)
  | .request method request _ _ _ =>
    if isLowest auth request then [(d.publicView s, method, request)] else []
  | .progress _ _ => []

/-- What is open to everybody. -/
theorem open_cases {errand : Errand}
    (unrestricted : ∀ required ∈ errand.required, required.level ≤ Role.readonly.level) :
    (∃ response, errand = .reply response) ∨ errand = .health ∨ errand = .agents ∨
      errand = .status := by
  cases errand with
  | reply response => exact .inl ⟨response, rfl⟩
  | health => exact .inr (.inl rfl)
  | agents => exact .inr (.inr (.inl rfl))
  | status => exact .inr (.inr (.inr rfl))
  | handle path event =>
      cases path with
      | run => exact absurd (unrestricted _ rfl) (by decide)
      | register => exact absurd (unrestricted _ rfl) (by decide)
  | _ => exact absurd (unrestricted _ rfl) (by decide)

/-- What is open to everybody is told from the public part. -/
theorem answer_public {s : Logged κ} {now : ℚ} {errand : Errand}
    (unrestricted : ∀ required ∈ errand.required, required.level ≤ Role.readonly.level) :
    d.answer s now errand = (d.publicView s).answer d.version errand := by
  obtain ⟨response, rfl⟩ | rfl | rfl | rfl := open_cases unrestricted
  · rfl
  · rw [answer, Public.answer, publicView]
    cases s.history with
    | none => rfl
    | some history => rfl
  · simp only [answer, Public.answer, publicView, List.map_map, Function.comp_def]
  · simp only [answer, Public.answer, publicView, List.map_map, Function.comp_def]
    cases s.service.coordinators.head? <;> cases s.service.registry <;> rfl

theorem idle_of_open {errand : Errand}
    (unrestricted : ∀ required ∈ errand.required, required.level ≤ Role.readonly.level) :
    errand.acts = false := by
  obtain ⟨response, rfl⟩ | rfl | rfl | rfl := open_cases unrestricted <;> rfl

variable {auth : TokenAuthenticator}

/-- The lowest callers get in only to what is open to everybody. -/
theorem open_of_lowest (known : d.server.findAuthenticator = .ok (some auth)) {method : Method}
    {request : Request} (lowest : isLowest auth request = true)
    (granted : d.server.access method request = .granted) :
    ∀ required ∈ (d.server.errand request method).required,
      required.level ≤ Role.readonly.level := by
  obtain ⟨role, caller, allowed⟩ := Server.role_of_granted known granted
  rw [isLowest, caller] at lowest
  rwa [of_decide_eq_true lowest] at allowed

theorem idle_isHigher (known : d.server.findAuthenticator = .ok (some auth)) :
    d.machine.Idle (isHigher auth : Traffic κ ω → Bool) := by
  intro event lower
  refine d.idle_effective event ?_
  cases event with
  | progress event stamp => cases lower
  | request method request now later made =>
      rw [isHigher, Bool.not_eq_false'] at lower
      rw [effective]
      cases access : d.server.access method request with
      | raised text => rfl
      | denied response => rfl
      | granted => exact idle_of_open (d.open_of_lowest known lower access)

theorem react_lowest (known : d.server.findAuthenticator = .ok (some auth)) {method : Method}
    {request : Request} (lowest : isLowest auth request = true) (s : Logged κ) (now : ℚ) :
    d.react s method request now = d.retell (d.publicView s) method request := by
  rw [react, retell]
  cases access : d.server.access method request with
  | raised text => rfl
  | denied response => rfl
  | granted =>
      dsimp only
      rw [d.answer_public (d.open_of_lowest known lowest access)]

/-- Where the callers are known by tokens, under any traffic: the requests of callers without a
token, and of those of the lowest role, can be left out of a run without a change to its end, and
all that they are told is told from what of the state is public at that moment. -/
theorem readonly_told (known : d.server.findAuthenticator = .ok (some auth)) (s : Logged κ)
    (es : List (Traffic κ ω)) :
    d.machine.run s (es.filter (isHigher auth)) = d.machine.run s es ∧
      d.machine.log (d.told auth) s es = (d.machine.log (d.found auth) s es).map
        fun seen => d.retell seen.1 seen.2.1 seen.2.2 := by
  refine ⟨Machine.run_filter (d.idle_isHigher known) s es, Machine.log_map ?_ s es⟩
  intro s event
  cases event with
  | progress event stamp => rfl
  | request method request now later made =>
      rw [told, found]
      cases lowest : isLowest auth request with
      | false => rfl
      | true =>
          rw [if_pos rfl, if_pos rfl, d.react_lowest known lowest]
          rfl

/-- The stranger's cleanup can be left out, and the refusal says nothing of the sessions. -/
theorem readonly_told_cleanups :
    ∃ auth, guardedDesk.server.findAuthenticator = .ok (some auth) ∧
      guardedDesk.machine.run withSessions (twoCleanups.filter (isHigher auth)) =
        guardedDesk.machine.run withSessions twoCleanups ∧
      guardedDesk.machine.log (guardedDesk.told auth) withSessions twoCleanups =
        (guardedDesk.machine.log (guardedDesk.found auth) withSessions twoCleanups).map
          fun seen => guardedDesk.retell seen.1 seen.2.1 seen.2.2 := by
  obtain ⟨auth, known⟩ : ∃ auth, guardedDesk.server.findAuthenticator = .ok (some auth) :=
    ⟨_, rfl⟩
  exact ⟨auth, known, guardedDesk.readonly_told known withSessions twoCleanups⟩

end Lowest

end Deployment

end MultiAgent.Plugin
