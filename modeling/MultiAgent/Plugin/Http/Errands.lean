import MultiAgent.Foundations.Utf8
import MultiAgent.Plugin.Authentication
import MultiAgent.Plugin.Authorization

/-!
# What the HTTP adapter is asked

The handlers of `adapters/http.py` up to what they ask of the adapter, with the queries of their
paths as `parse_qs` reads them, and `build_server` as far as it decides who is let in.
`ipaddress.ip_address` is a parameter, and so are the port and the socket left out.
-/

namespace MultiAgent.Plugin

/-- The handlers `do_GET`, `do_DELETE` and `do_POST`. -/
inductive Method where
  | get
  | delete
  | post
  deriving DecidableEq, Repr

namespace Query

def hexValue (c : Char) : Option Nat :=
  if c.isDigit then some (c.toNat - '0'.toNat)
  else if 'a' ≤ c ∧ c ≤ 'f' then some (c.toNat - 'a'.toNat + 10)
  else if 'A' ≤ c ∧ c ≤ 'F' then some (c.toNat - 'A'.toNat + 10)
  else none

/-- `unquote_to_bytes` of ASCII characters. -/
def unquoteToBytes : List Char → List UInt8
  | '%' :: high :: low :: rest =>
    match hexValue high, hexValue low with
    | some high, some low => (16 * high + low).toUInt8 :: unquoteToBytes rest
    | _, _ => '%'.toNat.toUInt8 :: unquoteToBytes (high :: low :: rest)
  | c :: rest => c.toNat.toUInt8 :: unquoteToBytes rest
  | [] => []

/-- `unquote`: the ASCII parts are decoded with replacement, the others stay as they are. -/
def unquote (chars : List Char) : List Char :=
  let ascii (c : Char) : Bool := decide (c.toNat < 128)
  (chars.splitBy fun a b => ascii a == ascii b).flatMap fun part =>
    if part.all ascii then Utf8.replace (unquoteToBytes part) else part

/-- The name or the value of a field, where `+` stands for a blank. -/
def field (chars : List Char) : String :=
  String.ofList (unquote (chars.map fun c => if c = '+' then ' ' else c))

/-- The fields that `parse_qs` keeps: those with a value. -/
def fields (query : List Char) : List (String × String) :=
  (query.splitOn '&').filterMap fun part =>
    let value := (part.dropWhile fun c => decide (c ≠ '=')).drop 1
    if value.isEmpty then none
    else some (field (part.takeWhile fun c => decide (c ≠ '=')), field value)

/-- `parse_qs(query).get(name)[0]` of the query behind the path -/
def first (target name : String) : Option String :=
  let query := (target.toList.dropWhile fun c => decide (c ≠ '?')).drop 1
  ((fields query).find? fun entry => decide (entry.1 = name)).map Prod.snd

/-- How many entries a listing has at most. -/
def limit (target : String) : Int :=
  match (first target "limit").bind parseInt with
  | some limit => min 500 (max 1 limit)
  | none => 20

end Query

/-- `text.strip("/")` -/
def stripSlashes (text : String) : String :=
  let slash (c : Char) : Bool := decide (c = '/')
  String.ofList ((text.toList.dropWhile slash).rdropWhile slash)

/-- `_get_action` -/
def getAction (path : String) : Option String :=
  match path with
  | "/health" => some "health"
  | "/agents" => some "agents"
  | "/status" => some "status"
  | "/runs" => some "runs.list"
  | "/sessions" => some "sessions.stats"
  | "/history" => some "history"
  | _ => if (dropPrefix? "/runs/" path).isSome then some "runs.get" else none

/-- The action that a DELETE path is checked as. -/
def deleteAction (path : String) : Option String :=
  if (dropPrefix? "/sessions/" path).isSome then some "sessions.delete" else none

def Method.action : Method → String → Option String
  | .get => getAction
  | .delete => deleteAction
  | .post => postAction

/-- The paths whose body is an event for the adapter. -/
inductive EventPath where
  | run
  | register
  deriving DecidableEq, Repr

/-- The event type whose access the path is about, whatever the type of the event in the body. -/
def EventPath.action : EventPath → EventType
  | .run => .run
  | .register => .register

/-- What a handler does once the caller is let in. -/
inductive Errand where
  | reply (response : Response)
  | health
  | agents
  | status
  | runs (limit : Int)
  | trace (runId : String)
  | history (limit : Int)
  /-- The statistics of the sessions, behind a cleanup. -/
  | sessions
  | cleanup
  | drop (sid : String)
  /-- The body goes to `handle_harness_event`. -/
  | handle (path : EventPath) (event : Object)

def notFound : Response := ⟨[("error", .str "not found")], 404⟩

def getErrand (target : String) : Errand :=
  match splitFirst '?' target with
  | "/health" => .health
  | "/agents" => .agents
  | "/status" => .status
  | "/runs" => .runs (Query.limit target)
  | "/sessions" => .sessions
  | "/history" => .history (Query.limit target)
  | path =>
    match dropPrefix? "/runs/" path with
    | some runId => .trace (stripSlashes runId)
    | none => .reply notFound

def deleteErrand (path : String) : Errand :=
  match dropPrefix? "/sessions/" path with
  | some sid => .drop (stripSlashes sid)
  | none => .reply notFound

/-- The access to an action that a role has; where there is no action, any role has it. -/
def Errand.required : Errand → Option Role
  | .reply _ => none
  | .health | .agents | .status => some .readonly
  | .handle path _ => some (Server.requires path.action)
  | .runs _ | .trace _ | .history _ | .sessions | .cleanup | .drop _ => some .operator

namespace Server

variable {κ α : Type}

def postErrand (server : Server κ α) (request : Request) : Errand :=
  let path := splitFirst '?' request.path
  if path = "/sessions/cleanup" then .cleanup
  else if path ∉ ["/run", "/register"] then .reply notFound
  else
    match server.receive request with
    | .error response => .reply response
    | .ok event => .handle (if path = "/register" then .register else .run) event

def errand (server : Server κ α) (request : Request) : Method → Errand
  | .get => getErrand request.path
  | .delete => deleteErrand (splitFirst '?' request.path)
  | .post => server.postErrand request

/-- The check in front of every handler. -/
def access (server : Server κ α) (method : Method) (request : Request) : Access :=
  server.checkAccess request (method.action (splitFirst '?' request.path))

end Server

/-- What `build_server` is told of the callers. -/
structure AccessOptions where
  token : Option String
  roles : Option (Dict String Json)
  allowInsecureRemote : Bool

inductive BindError where
  | unauthenticated (host : String)
  | roles (error : RolesError)

/-- `is_loopback_bind_host`; `isLoopback` is `none` where `ip_address` raises. -/
def isLoopbackBindHost (isLoopback : String → Option Bool) (host : String) : Bool :=
  let value := lower (strip host)
  if value = "localhost" then true else (isLoopback value).getD false

namespace AccessOptions

def hasToken (options : AccessOptions) : Bool := options.token.any fun token => !token.isEmpty

def hasRoles (options : AccessOptions) : Bool :=
  options.roles.any fun roles => !roles.entries.isEmpty

/-- `validate_bind_security` -/
def validateBindSecurity (options : AccessOptions) (isLoopback : String → Option Bool)
    (host : String) : Except BindError Unit :=
  if isLoopbackBindHost isLoopback host then .ok ()
  else if options.hasToken || options.hasRoles then .ok ()
  else if options.allowInsecureRemote then .ok ()
  else .error (.unauthenticated host)

/-- The `TokenAuthenticator` of the roles, if there are any. -/
def authenticator (options : AccessOptions) : Except BindError (Option TokenAuthenticator) :=
  match options.roles with
  | none => .ok none
  | some roles =>
    if roles.entries.isEmpty then .ok none
    else
      match TokenAuthenticator.new roles with
      | .ok auth => .ok (some auth)
      | .error error => .error (.roles error)

/-- The token is configured for the role. -/
def Configured (options : AccessOptions) (token : String) (role : Role) : Prop :=
  (∃ roles, options.roles = some roles ∧ roles.get? role.name = some (.str token)) ∨
    options.token = some token ∧ role = .admin

end AccessOptions

namespace Server

variable {κ α : Type}

/-- `build_server`; the rest of the server is given. -/
def buildServer (base : Server κ α) (options : AccessOptions) (isLoopback : String → Option Bool)
    (host : String) : Except BindError (Server κ α) := do
  options.validateBindSecurity isLoopback host
  let authenticator ← options.authenticator
  return { base with authenticator := authenticator, authToken := options.token }

section Access

variable {server base : Server κ α} {method : Method} {request : Request} {required : Role}

theorem action_of_getErrand {target : String}
    (asks : (getErrand target).required = some required) :
    ∃ action needed, getAction (splitFirst '?' target) = some action ∧
      requiredRole action = some needed ∧ required.level ≤ needed.level := by
  rw [getErrand] at asks
  generalize splitFirst '?' target = path at asks ⊢
  split at asks
  case h_7 =>
    cases found : dropPrefix? "/runs/" path with
    | none =>
        rw [found] at asks
        cases asks
    | some runId =>
        rw [found] at asks
        cases asks
        refine ⟨"runs.get", .operator, ?_, rfl, le_rfl⟩
        simp only [getAction, found, Option.isSome_some, if_true]
  all_goals
    cases asks
    exact ⟨_, _, rfl, rfl, le_rfl⟩

theorem action_of_deleteErrand {path : String}
    (asks : (deleteErrand path).required = some required) :
    ∃ action needed, deleteAction path = some action ∧
      requiredRole action = some needed ∧ required.level ≤ needed.level := by
  rw [deleteErrand] at asks
  rw [deleteAction]
  cases found : dropPrefix? "/sessions/" path with
  | none =>
      rw [found] at asks
      cases asks
  | some sid =>
      rw [found] at asks
      cases asks
      exact ⟨_, _, rfl, rfl, le_rfl⟩

/-- An event needs what the action of its path does. -/
theorem action_of_postErrand (asks : (server.postErrand request).required = some required) :
    ∃ action needed, postAction (splitFirst '?' request.path) = some action ∧
      requiredRole action = some needed ∧ required.level ≤ needed.level := by
  rw [postErrand] at asks
  by_cases cleanup : splitFirst '?' request.path = "/sessions/cleanup"
  · rw [if_pos cleanup] at asks
    cases asks
    rw [cleanup]
    exact ⟨"sessions.cleanup", .operator, rfl, rfl, le_rfl⟩
  rw [if_neg cleanup] at asks
  by_cases known : splitFirst '?' request.path ∈ ["/run", "/register"]
  · rw [if_neg (not_not.mpr known)] at asks
    cases received : server.receive request with
    | error response =>
        rw [received] at asks
        cases asks
    | ok event =>
        rw [received] at asks
        cases asks
        obtain path | path := List.mem_cons.mp known
        · rw [path]
          exact ⟨"run", .user, rfl, rfl, le_rfl⟩
        · rw [List.mem_singleton.mp path]
          exact ⟨"register", .admin, rfl, rfl, le_rfl⟩
  · rw [if_pos known] at asks
    cases asks

/-- The action of a request asks for what the request is about to do. -/
theorem action_of_required (asks : (server.errand request method).required = some required) :
    ∃ action needed, method.action (splitFirst '?' request.path) = some action ∧
      requiredRole action = some needed ∧ required.level ≤ needed.level := by
  cases method with
  | get =>
      rw [errand] at asks
      rw [Method.action]
      exact action_of_getErrand asks
  | delete =>
      rw [errand] at asks
      rw [Method.action]
      exact action_of_deleteErrand asks
  | post =>
      rw [errand] at asks
      rw [Method.action]
      exact action_of_postErrand asks

/-- The events that a POST request has handled are those that it asks for when it is let in. -/
theorem doPost_handles_iff {event : Object} :
    (∃ handling response, server.doPost request = .handled event handling response) ↔
      server.access .post request = .granted ∧
        ∃ path, server.errand request .post = .handle path event := by
  have asks : (∃ path, server.errand request .post = .handle path event) ↔
      splitFirst '?' request.path ∈ ["/run", "/register"] ∧
        server.receive request = .ok event := by
    rw [errand, postErrand]
    by_cases cleanup : splitFirst '?' request.path = "/sessions/cleanup"
    · simp [cleanup]
    · by_cases known : splitFirst '?' request.path ∈ ["/run", "/register"]
      · cases received : server.receive request with
        | error response => simp [cleanup, known]
        | ok body => simp [cleanup, known]
      · simp [cleanup, known]
  simp only [doPost_handled_iff, asks, access, Method.action]
  constructor
  · rintro ⟨_, _, granted, known, received, -, -⟩
    exact ⟨granted, known, received⟩
  · rintro ⟨granted, known, received⟩
    exact ⟨_, _, granted, known, received, rfl, rfl⟩

/-- A caller that is let in where tokens are known has a role with the access. -/
theorem role_of_granted {auth : TokenAuthenticator}
    (known : server.findAuthenticator = .ok (some auth))
    (granted : server.access method request = .granted) :
    ∃ role, auth.authenticate (request.authorization.getD "") = some (some role) ∧
      ∀ required ∈ (server.errand request method).required, required.level ≤ role.level := by
  rw [access, checkAccess, known] at granted
  dsimp only at granted
  cases caller : auth.authenticate (request.authorization.getD "") with
  | none =>
      rw [caller] at granted
      cases granted
  | some found =>
      rw [caller] at granted
      cases found with
      | none => cases granted
      | some role =>
          refine ⟨role, rfl, fun required asks => ?_⟩
          obtain ⟨action, needed, checked, requires, above⟩ := action_of_required asks
          rw [checked] at granted
          simp only [requires] at granted
          split_ifs at granted with allowed
          refine above.trans ?_
          simpa [TokenAuthenticator.allows, requires] using allowed

/-- A role is that of a token in the header. -/
theorem bears_of_authenticate {auth : TokenAuthenticator} {authorization : String} {role : Role}
    (caller : auth.authenticate authorization = some (some role)) :
    ∃ token, TokenAuthenticator.Bears authorization token ∧
      (token, role) ∈ auth.byToken.entries := by
  rw [TokenAuthenticator.authenticate] at caller
  cases dropped : dropPrefix? "Bearer " authorization with
  | none =>
      rw [dropped] at caller
      cases caller
  | some rest =>
      rw [dropped] at caller
      exact ⟨strip rest, ⟨rest, dropPrefix?_eq_some_iff.mp dropped, (strip_strip rest).symm⟩,
        TokenAuthenticator.of_lookup_some caller⟩

/-- Where strangers are not let in, who is let in bears a token of a role with the access. -/
theorem bearer_of_granted (guarded : server.findAuthenticator ≠ .ok none)
    (granted : server.access method request = .granted) :
    ∃ auth token role, server.findAuthenticator = .ok (some auth) ∧
      TokenAuthenticator.Bears (request.authorization.getD "") token ∧
      (token, role) ∈ auth.byToken.entries ∧
      ∀ required ∈ (server.errand request method).required, required.level ≤ role.level := by
  obtain ⟨auth, known⟩ : ∃ auth, server.findAuthenticator = .ok (some auth) := by
    cases known : server.findAuthenticator with
    | error error =>
        rw [access, checkAccess, known] at granted
        cases granted
    | ok found =>
        cases found with
        | none => exact absurd known guarded
        | some auth => exact ⟨auth, rfl⟩
  obtain ⟨role, caller, allowed⟩ := role_of_granted known granted
  obtain ⟨token, bears, listed⟩ := bears_of_authenticate caller
  exact ⟨auth, token, role, known, bears, listed, allowed⟩

/-- The tokens behind the roles, where there are roles. -/
theorem authenticator_cases {options : AccessOptions} {found : Option TokenAuthenticator}
    (made : options.authenticator = .ok found) :
    (found = none ∧ options.hasRoles = false) ∨ ∃ auth roles, found = some auth ∧
      options.roles = some roles ∧ TokenAuthenticator.new roles = .ok auth := by
  rw [AccessOptions.authenticator] at made
  cases given : options.roles with
  | none =>
      rw [given] at made
      cases made
      exact .inl ⟨rfl, by rw [AccessOptions.hasRoles, given]; rfl⟩
  | some roles =>
      rw [given] at made
      dsimp only at made
      split_ifs at made with empty
      · cases made
        exact .inl ⟨rfl, by simp [AccessOptions.hasRoles, given, empty]⟩
      · cases accepted : TokenAuthenticator.new roles with
        | error error =>
            rw [accepted] at made
            cases made
        | ok auth =>
            rw [accepted] at made
            cases made
            exact .inr ⟨auth, roles, rfl, rfl, accepted⟩

theorem admin_of_single {single token : String} {auth : TokenAuthenticator} {role : Role}
    (accepted : TokenAuthenticator.new (Dict.empty.set "admin" (.str single)) = .ok auth)
    (listed : (token, role) ∈ auth.byToken.entries) : token = single ∧ role = .admin := by
  have stored := (TokenAuthenticator.get?_name_iff accepted).mpr listed
  rw [Dict.get?_set] at stored
  split_ifs at stored with admin
  · obtain rfl := Json.str.inj (Option.some.inj stored)
    refine ⟨rfl, ?_⟩
    cases role
    · exact absurd admin (by decide)
    · exact absurd admin (by decide)
    · exact absurd admin (by decide)
    · rfl
  · cases stored

/-- A server that may be reached from afar knows its callers by tokens, unless it was told not to
care; each of its tokens is a configured one. -/
theorem tokens_of_buildServer {options : AccessOptions} {isLoopback : String → Option Bool}
    {host : String} (built : buildServer base options isLoopback host = .ok server)
    (remote : isLoopbackBindHost isLoopback host = false)
    (secure : options.allowInsecureRemote = false) :
    server.findAuthenticator ≠ .ok none ∧
      ∀ auth, server.findAuthenticator = .ok (some auth) →
        ∀ token role, (token, role) ∈ auth.byToken.entries → options.Configured token role := by
  rw [buildServer, AccessOptions.validateBindSecurity, remote, secure] at built
  simp only [Bool.false_eq_true, if_false] at built
  cases guarded : options.hasToken || options.hasRoles with
  | false =>
      rw [guarded] at built
      cases built
  | true =>
      rw [guarded] at built
      cases made : options.authenticator with
      | error error =>
          rw [made] at built
          cases built
      | ok found =>
          rw [made] at built
          cases built
          obtain ⟨rfl, unroled⟩ | ⟨auth, roles, rfl, given, accepted⟩ := authenticator_cases made
          · rw [unroled, Bool.or_false, AccessOptions.hasToken] at guarded
            cases given : options.token with
            | none =>
                rw [given] at guarded
                cases guarded
            | some single =>
                rw [given] at guarded
                have solid : single.isEmpty = false := by simpa using guarded
                simp only [findAuthenticator, solid, Bool.false_eq_true, if_false]
                cases accepted : TokenAuthenticator.new (Dict.empty.set "admin" (.str single)) with
                | error error => exact ⟨(by rintro ⟨⟩), (by rintro _ ⟨⟩)⟩
                | ok auth =>
                    refine ⟨(by rintro ⟨⟩), ?_⟩
                    rintro _ ⟨⟩ token role listed
                    obtain ⟨rfl, rfl⟩ := admin_of_single accepted listed
                    exact .inr ⟨given, rfl⟩
          · refine ⟨(by rintro ⟨⟩), ?_⟩
            rintro _ ⟨⟩ token role listed
            exact .inl ⟨roles, given, (TokenAuthenticator.get?_name_iff accepted).mpr listed⟩

end Access

end Server

end MultiAgent.Plugin
