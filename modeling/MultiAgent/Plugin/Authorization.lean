import MultiAgent.Plugin.Http

/-!
# Who may execute which event

`do_POST` checks the caller against the path of the request, and the dispatcher
reads the event from the body. A caller that may use `/run` can therefore have
the dispatcher execute any event. `Smuggles` is the exact extent of it.
-/

namespace MultiAgent.Plugin.Server

variable {κ α : Type} {server : Server κ α} {auth : TokenAuthenticator} {request : Request}
  {event : Object} {role : Role}

theorem doPost_handled_iff {handling : Handling} {response : Response} :
    server.doPost request = .handled event handling response ↔
      server.checkAccess request (postAction (splitFirst '?' request.path)) = .granted ∧
      splitFirst '?' request.path ∈ ["/run", "/register"] ∧ server.receive request = .ok event ∧
      handling = server.adapter.handleHarnessEvent event ∧ response = respond handling := by
  rw [doPost]
  cases server.checkAccess request (postAction (splitFirst '?' request.path)) with
  | raised text => simp
  | denied response => simp
  | granted =>
      by_cases cleanup : splitFirst '?' request.path = "/sessions/cleanup"
      · simp [cleanup]
      by_cases known : splitFirst '?' request.path ∈ ["/run", "/register"]
      · cases received : server.receive request with
        | error response => simp [cleanup, known]
        | ok body =>
            simp only [cleanup, known, if_false, not_true_eq_false,
              PostOutcome.handled.injEq, Except.ok.injEq, true_and]
            constructor
            · rintro ⟨rfl, rfl, rfl⟩
              exact ⟨rfl, rfl, rfl⟩
            · rintro ⟨rfl, rfl, rfl⟩
              exact ⟨rfl, rfl, rfl⟩
      · simp [cleanup, known]

theorem checkAccess_granted_iff {action : String} {required : Role}
    (configured : server.findAuthenticator = .ok (some auth))
    (known : requiredRole action = some required) :
    server.checkAccess request (some action) = .granted ↔
      ∃ role, auth.authenticate (request.authorization.getD "") = some (some role) ∧
        TokenAuthenticator.allows role action = some true := by
  rw [checkAccess]
  rw [configured]
  cases caller : auth.authenticate (request.authorization.getD "") with
  | none => simp [caller]
  | some found =>
      cases found with
      | none => simp [caller]
      | some role =>
          by_cases allowed : TokenAuthenticator.allows role action = some true
          · simp [caller, known, allowed]
          · simp [caller, known, allowed]

theorem isText_iff {value : Json} {text : String} :
    value.isText text = true ↔ value = .str text := by
  cases value <;> simp [Json.isText]

/-- The dispatcher enters the branch that the type of the event names, once it
has found the coordinator. -/
theorem dispatched_iff {adapter : DeepseekAdapter κ α} {kind : EventType} :
    (adapter.handleHarnessEvent event).dispatched = some kind ↔
      (∃ coord, adapter.coordinatorFor event = .ok coord) ∧ event.get "type" = .str kind.value := by
  rw [DeepseekAdapter.handleHarnessEvent]
  cases found : adapter.coordinatorFor event with
  | error text => simp
  | ok coord =>
      simp only [Except.ok.injEq, exists_eq', true_and]
      constructor
      · intro entered
        split_ifs at entered with h h h h h <;> cases entered <;> exact isText_iff.mp h
      · intro named
        rw [named]
        cases kind <;> simp [EventType.value, Json.isText]

/-- What the role table requires for an event. -/
def requires : EventType → Role
  | .run => .user
  | .agents | .status => .readonly
  | .register => .admin
  | .history => .operator

theorem requiredRole_value (kind : EventType) : requiredRole kind.value = some (requires kind) := by
  cases kind <;> rfl

theorem allows_iff (kind : EventType) :
    TokenAuthenticator.allows role kind.value = some true ↔
      (requires kind).level ≤ role.level := by
  simp [TokenAuthenticator.allows, requiredRole_value]

/-- Whatever event the dispatcher executes for an authenticated caller, the role
of the caller is authorised for it. -/
def Authorized (server : Server κ α) (auth : TokenAuthenticator) (request : Request) : Prop :=
  ∀ event handling response role kind,
    server.doPost request = .handled event handling response →
    auth.authenticate (request.authorization.getD "") = some (some role) →
    handling.dispatched = some kind → TokenAuthenticator.allows role kind.value = some true

/-- A user or an operator posts a register event to `/run`, or a user a history
event, in a request that is otherwise in order. -/
def Smuggles (server : Server κ α) (auth : TokenAuthenticator) (request : Request) : Prop :=
  splitFirst '?' request.path = "/run" ∧ ∃ event role coord,
    server.receive request = .ok event ∧
    auth.authenticate (request.authorization.getD "") = some (some role) ∧
    server.adapter.coordinatorFor event = .ok coord ∧
    (event.get "type" = .str "register" ∧ (role = .user ∨ role = .operator) ∨
      event.get "type" = .str "history" ∧ role = .user)

/-- With an authenticator configured, a request stays within the role table
exactly when it does not smuggle an event through `/run`. -/
theorem authorized_iff (configured : server.findAuthenticator = .ok (some auth))
    (request : Request) : Authorized server auth request ↔ ¬ Smuggles server auth request := by
  constructor
  · rintro authorized ⟨path, event, role, coord, received, caller, found, smuggled⟩
    have runs : TokenAuthenticator.allows role "run" = some true :=
      (allows_iff .run).mpr (by obtain ⟨-, rfl | rfl⟩ | ⟨-, rfl⟩ := smuggled <;> decide)
    have granted := (checkAccess_granted_iff configured rfl).mpr ⟨role, caller, runs⟩
    have handled := doPost_handled_iff.mpr ⟨path ▸ granted, by simp [path], received, rfl, rfl⟩
    have entered : ∀ kind : EventType, event.get "type" = .str kind.value →
        (requires kind).level ≤ role.level := fun kind named =>
      (allows_iff kind).mp (authorized _ _ _ role kind handled caller
        (dispatched_iff.mpr ⟨⟨coord, found⟩, named⟩))
    obtain ⟨named, rfl | rfl⟩ | ⟨named, rfl⟩ := smuggled
    · exact absurd (entered .register named) (by decide)
    · exact absurd (entered .register named) (by decide)
    · exact absurd (entered .history named) (by decide)
  · intro clean event handling response role kind handled caller entered
    obtain ⟨granted, known, received, rfl, rfl⟩ := doPost_handled_iff.mp handled
    obtain ⟨⟨coord, found⟩, named⟩ := dispatched_iff.mp entered
    obtain path | path : splitFirst '?' request.path = "/run" ∨
        splitFirst '?' request.path = "/register" := by simpa using known
    all_goals rw [path] at granted
    · obtain ⟨other, same, allowed⟩ :=
        (checkAccess_granted_iff configured (requiredRole_value .run)).mp granted
      obtain rfl : role = other := by simpa [caller] using same
      have user : Role.user.level ≤ role.level := (allows_iff .run).mp allowed
      refine (allows_iff kind).mpr (Classical.byContradiction fun above =>
        clean ⟨path, event, role, coord, received, caller, found, ?_⟩)
      cases kind <;> cases role <;> simp_all [requires, Role.level, EventType.value]
    · obtain ⟨other, same, allowed⟩ :=
        (checkAccess_granted_iff configured (requiredRole_value .register)).mp granted
      obtain rfl : role = other := by simpa [caller] using same
      have admin : Role.admin.level ≤ role.level := (allows_iff .register).mp allowed
      refine (allows_iff kind).mpr (Nat.le_trans ?_ admin)
      cases kind <;> decide

/-- An adapter whose coordinator is the list of the names of its agents. -/
def namesAdapter : DeepseekAdapter (List String) String where
  coordinators :=
    { agents := id
      runs := fun _ => 0
      autoStrategy := fun _ => "broadcast"
      name := .str
      describe := fun name => .obj [("name", .str name)]
      run := fun _ prompt _ _ => .ok [("final", prompt)]
      fromConfig := fun cfg => match cfg with
        | .obj fields => match Object.get fields "name" with
          | .str name => .ok name
          | _ => .error "missing name"
        | _ => .error "not a dict"
      registerAgent := fun names name => .ok (names ++ [name]) }
  coordinator := []
  registry := none
  history := none
  historyPromptLimit := none
  historyFinalLimit := none
  acquire := true
  allowedRegisterKinds := DeepseekAdapter.defaultRegisterKinds
  repr := fun _ => .ok ""

def bytes (text : String) : List UInt8 := text.toList.map fun c => c.toNat.toUInt8

def registerText : String :=
  "\x7b\"type\": \"register\", \"agents\": [\x7b\"name\": \"w1\", \"kind\": \"echo\"\x7d]\x7d"

def registerEvent : Object :=
  [("type", .str "register"),
   ("agents", .arr [.obj [("name", .str "w1"), ("kind", .str "echo")]])]

def twoRolesMap : Dict String Json :=
  ⟨[("user", .str "u-token"), ("admin", .str "a-token")], by decide⟩

/-- The authenticator of the role map. -/
def twoRoles : TokenAuthenticator where
  byToken := ⟨[("u-token", .user), ("a-token", .admin)], by decide⟩
  nonblank := by decide

def twoRolesServer : Server (List String) String where
  adapter := namesAdapter
  authenticator := some twoRoles
  authToken := none
  cleanup := []
  loads := fun raw =>
    if raw = bytes registerText then .ok (.obj registerEvent) else .error "Expecting value"

/-- A user posts a register event. -/
def registerAsUser (path : String) : Request where
  path := path
  authorization := some "Bearer u-token"
  contentType := some "application/json"
  contentLengths := ["64"]
  body := bytes registerText

theorem authorized_iff_registerAsUser :
    Authorized twoRolesServer twoRoles (registerAsUser "/register") :=
  (authorized_iff rfl _).mpr fun smuggles => absurd smuggles.1 (by decide)

/-- Posted to `/run`, the event registers its agent, for which the role table
requires an admin. -/
theorem registerAsUser_unauthorized :
    TokenAuthenticator.new twoRolesMap = .ok twoRoles ∧
      twoRolesServer.findAuthenticator = .ok (some twoRoles) ∧
      ¬ Authorized twoRolesServer twoRoles (registerAsUser "/run") := by
  refine ⟨rfl, rfl, ?_⟩
  intro authorized
  have allowed := authorized registerEvent _ _ .user .register rfl rfl rfl
  exact absurd allowed (by decide)

end MultiAgent.Plugin.Server
