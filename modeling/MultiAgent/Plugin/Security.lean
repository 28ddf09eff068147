import MultiAgent.Foundations.Dict
import MultiAgent.Plugin.Dependency
import MultiAgent.Plugin.Json

/-!
# Roles and bearer tokens

`security.py`. Comparing a token with `hmac.compare_digest` raises a `TypeError`
when one of the two strings is not ASCII, so authenticating may raise.
-/

namespace MultiAgent.Plugin

inductive Role where
  | readonly
  | user
  | operator
  | admin
  deriving DecidableEq, Repr

namespace Role

/-- `ROLE_LEVELS` -/
def level : Role → Nat
  | .readonly => 0
  | .user => 1
  | .operator => 2
  | .admin => 3

def ofName : String → Option Role
  | "readonly" => some .readonly
  | "user" => some .user
  | "operator" => some .operator
  | "admin" => some .admin
  | _ => none

def name : Role → String
  | .readonly => "readonly"
  | .user => "user"
  | .operator => "operator"
  | .admin => "admin"

end Role

/-- `REQUIRED_ROLE` -/
def requiredRole : String → Option Role
  | "health" => some .readonly
  | "agents" => some .readonly
  | "status" => some .readonly
  | "run" => some .user
  | "runs.list" => some .operator
  | "runs.get" => some .operator
  | "history" => some .operator
  | "sessions.stats" => some .operator
  | "sessions.delete" => some .operator
  | "sessions.cleanup" => some .operator
  | "register" => some .admin
  | _ => none

/-- Why a role map is rejected. -/
inductive RolesError where
  | unknownRoles (unknown : List String)
  | emptyToken (role : String)
  | tokenReused (prior role : String)
  deriving DecidableEq, Repr

/-- The tokens with their roles, in the order of the role map. -/
structure TokenAuthenticator where
  byToken : Dict String Role
  nonblank : ∀ token ∈ byToken.keys, strip token ≠ ""

namespace TokenAuthenticator

/-- The loop of the constructor over the role map, with the tokens seen so far. -/
def collect (seen : TokenAuthenticator) : List (Role × Json) → Except RolesError TokenAuthenticator
  | [] => .ok seen
  | (role, .str token) :: rest =>
    if blank : strip token = "" then .error (.emptyToken role.name)
    else
      match seen.byToken.get? token with
      | some prior =>
        if prior ≠ role then .error (.tokenReused prior.name role.name) else collect seen rest
      | none =>
        collect ⟨seen.byToken.set token role, fun known member => by
          obtain rfl | member := Dict.mem_keys_set.mp member
          · exact blank
          · exact seen.nonblank known member⟩ rest
  | (role, _) :: _ => .error (.emptyToken role.name)

/-- The constructor: `roles` maps role names to tokens. -/
def new (roles : Dict String Json) : Except RolesError TokenAuthenticator :=
  let unknown := roles.keys.filter fun name => (Role.ofName name).isNone
  if unknown ≠ [] then .error (.unknownRoles (sorted unknown))
  else
    collect ⟨.empty, fun _ member => by cases member⟩
      (roles.entries.filterMap fun entry => (Role.ofName entry.1).map fun role => (role, entry.2))

/-- `hmac.compare_digest` of two strings; `none` is its `TypeError`. -/
def compareDigest (a b : String) : Option Bool :=
  if a.toList.all (fun c => decide (c.toNat < 128)) &&
      b.toList.all (fun c => decide (c.toNat < 128))
  then some (decide (a = b)) else none

/-- The role of the first known token that equals the given one. -/
def lookup (token : String) : List (String × Role) → Option (Option Role)
  | [] => some none
  | (known, role) :: rest =>
    match compareDigest token known with
    | none => none
    | some true => some (some role)
    | some false => lookup token rest

/-- The role behind an `Authorization` header; the outer `none` is a `TypeError`. -/
def authenticate (auth : TokenAuthenticator) (authorization : String) : Option (Option Role) :=
  match dropPrefix? "Bearer " authorization with
  | none => some none
  | some rest => lookup (strip rest) auth.byToken.entries

/-- `none` is the `ValueError` of an unknown action. -/
def allows (role : Role) (action : String) : Option Bool :=
  (requiredRole action).map fun required => decide (required.level ≤ role.level)

end TokenAuthenticator

end MultiAgent.Plugin
