import MultiAgent.Plugin.Adapter
import MultiAgent.Plugin.Security
import Mathlib.Data.List.Infix

/-!
# The HTTP adapter

`adapters/http.py`, from a POST request to its response. `json.loads` of the
decoded body and the eviction of sessions are parameters. An exception that
leaves `do_POST` closes the connection without a response.
-/

namespace MultiAgent.Plugin

/-- What `do_POST` reads of a request. -/
structure Request where
  path : String
  authorization : Option String
  contentType : Option String
  contentLengths : List String
  body : List UInt8

structure Response where
  body : Object
  code : Nat

inductive PostOutcome where
  | replied (response : Response)
  /-- The body was handed to `handle_harness_event`. -/
  | handled (event : Object) (handling : Handling) (response : Response)
  | raised (text : String)

structure Server (κ α : Type) where
  adapter : DeepseekAdapter κ α
  authenticator : Option TokenAuthenticator
  authToken : Option String
  /-- The sessions that a forced eviction drops; none without a session manager. -/
  cleanup : List String
  /-- `json.loads(raw.decode("utf-8"))` -/
  loads : List UInt8 → Except String Json

def maxRequestBytes : Int := 1024 * 1024

/-- `_content_length` -/
def contentLength (values : List String) : Except String Int :=
  match (values.map strip).dedup with
  | [] => .ok 0
  | [value] =>
    match parseInt value with
    | none => .error "invalid Content-Length"
    | some length => if length < 0 then .error "invalid Content-Length" else .ok length
  | _ => .error "ambiguous Content-Length"

/-- The action that a POST path is checked as. -/
def postAction : String → Option String
  | "/run" => some "run"
  | "/register" => some "register"
  | "/sessions/cleanup" => some "sessions.cleanup"
  | _ => none

namespace Server

variable {κ α : Type}

/-- `_authenticator` -/
def findAuthenticator (server : Server κ α) : Except RolesError (Option TokenAuthenticator) :=
  match server.authenticator, server.authToken with
  | some auth, _ => .ok (some auth)
  | none, none => .ok none
  | none, some token =>
    if token.isEmpty then .ok none
    else (TokenAuthenticator.new (Dict.empty.set "admin" (.str token))).map some

/-- The answer of `_check_access`. -/
inductive Access where
  | granted
  | denied (response : Response)
  | raised (text : String)

def checkAccess (server : Server κ α) (request : Request) (action : Option String) : Access :=
  match server.findAuthenticator with
  | .error _ => .raised "invalid token"
  | .ok none => .granted
  | .ok (some auth) =>
    match auth.authenticate (request.authorization.getD "") with
    | none => .raised "comparing strings with non-ASCII characters is not supported"
    | some none => .denied ⟨[("error", .str "unauthorized")], 401⟩
    | some (some role) =>
      match action with
      | none => .granted
      | some action =>
        match requiredRole action with
        | none => .raised s!"unknown action: {action}"
        | some required =>
          if TokenAuthenticator.allows role action = some true then .granted
          else .denied ⟨[("error", .str "forbidden"), ("required_role", .str required.name)], 403⟩

/-- `_read_event`, for a length that was checked. -/
def readEvent (server : Server κ α) (request : Request) (length : Int) : Except String Object :=
  let raw := request.body.take length.toNat
  if raw.isEmpty then .ok []
  else
    match server.loads raw with
    | .error text => .error s!"invalid json: {text}"
    | .ok (.obj event) => .ok event
    | .ok _ => .error "event must be a JSON object"

/-- The response to what the dispatcher did. -/
def respond (handling : Handling) : Response :=
  match handling.result with
  | .error _ => ⟨[("error", .str "adapter error"), ("detail", .str "internal adapter error")], 500⟩
  | .ok result =>
    if (result.get "error").isText "too many concurrent runs" then ⟨result, 429⟩
    else if result.has "error" then ⟨result, 400⟩
    else ⟨result, 200⟩

/-- The checks of the body behind those of the path; an error is the response. -/
def receive (server : Server κ α) (request : Request) : Except Response Object :=
  if lower (strip (splitFirst ';' (request.contentType.getD ""))) ≠ "application/json" then
    .error ⟨[("error", .str "Content-Type must be application/json")], 415⟩
  else
    match contentLength request.contentLengths with
    | .error _ => .error ⟨[("error", .str "invalid Content-Length")], 400⟩
    | .ok length =>
      if maxRequestBytes < length then
        .error ⟨[("error", .str "request body too large")], 413⟩
      else
        match server.readEvent request length with
        | .error text =>
          .error ⟨[("error", .str text)], if "too large".toList <:+: text.toList then 413 else 400⟩
        | .ok event => .ok event

def doPost (server : Server κ α) (request : Request) : PostOutcome :=
  let path := splitFirst '?' request.path
  match server.checkAccess request (postAction path) with
  | .raised text => .raised text
  | .denied response => .replied response
  | .granted =>
    if path = "/sessions/cleanup" then
      .replied ⟨[("evicted", .arr (server.cleanup.map .str))], 200⟩
    else if path ∉ ["/run", "/register"] then .replied ⟨[("error", .str "not found")], 404⟩
    else
      match server.receive request with
      | .error response => .replied response
      | .ok event =>
        let handling := server.adapter.handleHarnessEvent event
        .handled event handling (respond handling)

end Server

end MultiAgent.Plugin
