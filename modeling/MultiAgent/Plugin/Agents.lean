import MultiAgent.Foundations.Checks
import MultiAgent.Plugin.Adapter
import MultiAgent.Plugin.Options
import Mathlib.Data.Finset.Basic

/-!
# Agents and their factory

`agents.py`, as far as it builds agents: `AgentFactory.from_config`, which copies a
configuration by `dict`, and `create_agent`, which knows an agent by the kind in lower
case. The values of a configuration are JSON values or functions, and `str` of a value
may raise.
-/

namespace MultiAgent.Plugin

/-- What answers for an agent, with the data it needs. -/
inductive Backend where
  | provider (provider : String)
      (systemPrompt model temperature maxTokens apiKey baseUrl : Json) (retries : Int)
      (timeout : Number) (cache : Bool)
  | mock (template : Json)
  | echo
  | http (url : Json) (timeout : Number)
  | custom (handler : Json)
  | cli (command : Json) (args : List Json) (timeout : Number) (cwd encoding : Json)
  | fallback (backends : List Json)

/-- The kind whose branch of the factory builds the backend. -/
def Backend.kind : Backend → String
  | .provider name .. => name
  | .mock _ => "mock"
  | .echo => "echo"
  | .http .. => "http"
  | .custom _ => "custom"
  | .cli .. => "cli"
  | .fallback _ => "fallback"

structure Agent where
  name : String
  role : Json
  capabilities : Finset String
  backend : Backend

namespace Json

def isCallable : Json → Bool
  | .callable _ => true
  | _ => false

def hashable : Json → Bool
  | .arr _ | .obj _ => false
  | _ => true

/-- The value as the conversions to numbers see it. -/
def scalar : Json → Value
  | .bool value => .bool value
  | .int value => .int value
  | .float value => .float (.finite value)
  | .nan => .float .nan
  | .infinity negative => .float (.infinity negative)
  | .str text => .str text
  | .null | .arr _ | .obj _ | .callable _ => .none

/-- What `list(value)` goes through. -/
def iterate (value : Json) : Except String (List Json) :=
  match DeepseekAdapter.elements value with
  | some items => .ok items
  | none => .error "object is not iterable"

end Json

/-- A dict: its entries under strings, and whether every key of it is a string. -/
structure Keywords where
  entries : Object
  onlyStrings : Bool

/-- An element of the sequence that `dict` is given. -/
def pair (item : Json) : Except String (Json × Json) := do
  match ← item.iterate with
  | [key, value] => if key.hashable then return (key, value) else throw "unhashable type"
  | _ => throw "dictionary update sequence element has the wrong length; 2 is required"

def Keywords.add (keywords : Keywords) : Json × Json → Keywords
  | (.str key, value) => { keywords with entries := keywords.entries.set key value }
  | _ => { keywords with onlyStrings := false }

/-- `dict(value)` -/
def Keywords.ofJson : Json → Except String Keywords
  | .obj fields => return ⟨fields, true⟩
  | value => do
    let items ← value.iterate
    let pairs ← items.mapM pair
    return pairs.foldl Keywords.add ⟨[], true⟩

/-- `_as_bool` -/
def asBool : Json → Bool
  | .str text => decide (lower (strip text) ∈ ["1", "true", "yes", "on"])
  | value => value.truthy

/-- The names without the white space around them, and without the empty ones. -/
def capabilityNames (names : List String) : Finset String :=
  ((names.map strip).filter fun name => !name.isEmpty).toFinset

/-- `as_capabilities` -/
def asCapabilities (str : Json → Except String String) : Json → Except String (Finset String)
  | .null => return ∅
  | .str text => return capabilityNames ((text.toList.splitOn ',').map String.ofList)
  | value => do
    let names ← (← value.iterate).mapM str
    return capabilityNames names

/-- `backend.capabilities`: neither a JSON value nor a function has the attribute. -/
def capabilitiesOf (_ : Json) : Except String (List String) :=
  throw "object has no attribute 'capabilities'"

/-- `PROVIDER_DEFAULTS[provider]["model"]` -/
def defaultModel (provider : String) : String :=
  if provider = "deepseek" then "deepseek-chat" else "gpt-4o-mini"

namespace AgentFactory

/-- `(kind or "").lower()` -/
def lowered : Json → Except String String
  | .str text => return lower text
  | kind => if kind.truthy then throw "object has no attribute 'lower'" else return ""

theorem lowered_eq_ok {given : Json} {kind : String} (lower_given : lowered given = .ok kind) :
    (∃ text, given = .str text ∧ kind = lower text) ∨ kind = "" := by
  cases given with
  | str text =>
      cases lower_given
      exact .inl ⟨text, rfl, rfl⟩
  | _ =>
      simp only [lowered] at lower_given
      split_ifs at lower_given
      cases lower_given
      exact .inr rfl

/-- `FallbackAgent(name, backends, role=role)` -/
def fallbackAgent (name : String) (backends role : Json) : Except String Agent := do
  let backends ← backends.iterate
  if backends.isEmpty then throw "fallback agent needs at least one backend agent"
  let capabilities ← backends.mapM capabilitiesOf
  return ⟨name, role, capabilityNames capabilities.flatten, .fallback backends⟩

def providerBackend (provider : String) (kwargs : Object) : Except String Backend := do
  let retries ← (kwargs.getD "retries" (.int 2)).scalar.toInt
  let timeout ← (kwargs.getD "timeout" (.int 60)).scalar.toFloat
  let model := kwargs.get "model"
  return .provider provider (kwargs.get "system_prompt")
    (if model.truthy then model else .str (defaultModel provider)) (kwargs.get "temperature")
    (kwargs.get "max_tokens") (kwargs.get "api_key") (kwargs.get "base_url") retries timeout
    (asBool (kwargs.getD "cache" (.bool false)))

def httpBackend (kwargs : Object) : Except String Backend := do
  let url := kwargs.get "url"
  let timeout ← (kwargs.getD "timeout" (.int 5)).scalar.toFloat
  if !url.truthy then throw "http agent requires 'url' kwarg"
  return .http url timeout

def customBackend (kwargs : Object) : Except String Backend := do
  let handler := kwargs.get "handler"
  if !handler.isCallable then throw "custom agent requires a callable 'handler' kwarg"
  return .custom handler

def cliBackend (kwargs : Object) : Except String Backend := do
  let command := kwargs.get "command"
  if !command.truthy then throw "cli agent requires 'command' kwarg"
  let args := kwargs.get "args"
  let args ← if args.truthy then args.iterate else .ok []
  let timeout ← (kwargs.getD "timeout" (.int 300)).scalar.toFloat
  return .cli command args timeout (kwargs.get "cwd") (kwargs.getD "encoding" (.str "utf-8"))

/-- The branches of `create_agent` but for that of `fallback`, up to the call of `Agent`. -/
def createBackend (kind : String) (kwargs : Object) : Except String Backend :=
  if kind ∈ ["deepseek", "openai"] then providerBackend kind kwargs
  else if kind = "mock" then return .mock (kwargs.getD "message_template" (.str "\x7bmsg\x7d"))
  else if kind = "echo" then return .echo
  else if kind = "http" then httpBackend kwargs
  else if kind = "custom" then customBackend kwargs
  else if kind = "cli" then cliBackend kwargs
  else throw s!"Unknown agent kind: {kind} (mock|echo|http|deepseek|openai|custom|cli)"

def createAgent (str : Json → Except String String) (kind : Json) (name : String)
    (kwargs : Object) : Except String Agent := do
  let kind ← lowered kind
  if kind = "fallback" then
    let backends := kwargs.get "backends"
    if !backends.truthy then
      throw "fallback agent requires 'backends' kwarg (a list of Agent)"
    fallbackAgent name backends (kwargs.get "role")
  else
    let backend ← createBackend kind kwargs
    let capabilities ← asCapabilities str (kwargs.get "capabilities")
    return ⟨name, kwargs.get "role", capabilities, backend⟩

/-- The kind of a configuration that gives none. -/
def inferred (entries : Object) : Json :=
  .str (if (entries.get "handler").isCallable then "custom" else "mock")

def fromConfig (str : Json → Except String String) (cfg : Json) : Except String Agent := do
  let cfg ← Keywords.ofJson cfg
  if !cfg.entries.has "name" then throw "'name'"
  let name ← str (cfg.entries.get "name")
  let rest := cfg.entries.remove "name"
  let kind := rest.get "kind"
  let rest := rest.remove "kind"
  let kind := if kind.isNull then inferred rest else kind
  if !cfg.onlyStrings then throw "keywords must be strings"
  createAgent str kind name rest

variable {str : Json → Except String String} {kind name : String} {kwargs : Object}

/-- What the branch of a kind converts and requires. -/
def CanBuild (kind : String) (kwargs : Object) : Prop :=
  kind ∈ ["deepseek", "openai"] ∧ (kwargs.getD "retries" (.int 2)).scalar.toInt.isOk ∧
      (kwargs.getD "timeout" (.int 60)).scalar.toFloat.isOk ∨
    kind ∈ ["mock", "echo"] ∨
    kind = "http" ∧ (kwargs.getD "timeout" (.int 5)).scalar.toFloat.isOk ∧
      (kwargs.get "url").truthy ∨
    kind = "custom" ∧ (kwargs.get "handler").isCallable ∨
    kind = "cli" ∧ (kwargs.get "command").truthy ∧
      ((kwargs.get "args").truthy → (kwargs.get "args").iterate.isOk) ∧
      (kwargs.getD "timeout" (.int 300)).scalar.toFloat.isOk

theorem providerBackend_isOk_iff :
    (providerBackend kind kwargs).isOk ↔ (kwargs.getD "retries" (.int 2)).scalar.toInt.isOk ∧
      (kwargs.getD "timeout" (.int 60)).scalar.toFloat.isOk := by
  simp [providerBackend, isOk_bind_iff, ← isOk_iff]

theorem httpBackend_isOk_iff :
    (httpBackend kwargs).isOk ↔ (kwargs.getD "timeout" (.int 5)).scalar.toFloat.isOk ∧
      (kwargs.get "url").truthy := by
  cases given : (kwargs.get "url").truthy with
  | false => simp [httpBackend, isOk_bind_iff, given]
  | true => simp [httpBackend, given]

theorem customBackend_isOk_iff :
    (customBackend kwargs).isOk ↔ (kwargs.get "handler").isCallable := by
  cases given : (kwargs.get "handler").isCallable with
  | false => simp [customBackend, given]
  | true => simp [customBackend, given]

theorem cliBackend_isOk_iff :
    (cliBackend kwargs).isOk ↔ (kwargs.get "command").truthy ∧
      ((kwargs.get "args").truthy → (kwargs.get "args").iterate.isOk) ∧
      (kwargs.getD "timeout" (.int 300)).scalar.toFloat.isOk := by
  cases command : (kwargs.get "command").truthy with
  | false => simp [cliBackend, throw_bind, command]
  | true =>
      cases args : (kwargs.get "args").truthy with
      | false => simp [cliBackend, ok_bind, command, args]
      | true => simp [cliBackend, isOk_bind_iff, ← isOk_iff, command, args]

theorem createBackend_isOk_iff : (createBackend kind kwargs).isOk ↔ CanBuild kind kwargs := by
  rw [createBackend, CanBuild]
  split_ifs with provider mock echo http custom cli
  · rw [providerBackend_isOk_iff]
    obtain rfl | rfl : kind = "deepseek" ∨ kind = "openai" := by simpa using provider
    all_goals simp
  · subst mock
    simp
  · subst echo
    simp
  · subst http
    rw [httpBackend_isOk_iff]
    simp
  · subst custom
    rw [customBackend_isOk_iff]
    simp
  · subst cli
    rw [cliBackend_isOk_iff]
    simp
  · simp_all

theorem providerBackend_kind : Yields (providerBackend kind kwargs) (·.kind = kind) := by
  apply Yields.bind
  intro retries _
  apply Yields.bind
  intro timeout _
  exact Yields.pure rfl

theorem httpBackend_kind : Yields (httpBackend kwargs) (·.kind = "http") := by
  apply Yields.bind
  intro timeout _
  apply Yields.ite
  · intro _
    exact Yields.bind nofun
  · intro _
    exact Yields.pure rfl

theorem customBackend_kind : Yields (customBackend kwargs) (·.kind = "custom") := by
  apply Yields.ite
  · intro _
    exact Yields.bind nofun
  · intro _
    exact Yields.pure rfl

theorem cliBackend_kind : Yields (cliBackend kwargs) (·.kind = "cli") := by
  apply Yields.ite
  · intro _
    exact Yields.bind nofun
  · intro _
    apply Yields.ite
    all_goals
      intro _
      apply Yields.bind
      intro args _
      apply Yields.bind
      intro timeout _
      exact Yields.pure rfl

theorem createBackend_kind : Yields (createBackend kind kwargs) (·.kind = kind) := by
  rw [createBackend]
  split_ifs with provider mock echo http custom cli
  · exact providerBackend_kind
  · exact Yields.pure mock.symm
  · exact Yields.pure echo.symm
  · subst http
    exact httpBackend_kind
  · subst custom
    exact customBackend_kind
  · subst cli
    exact cliBackend_kind
  · exact Yields.throw

/-- No agent answers behind a fallback that was configured by JSON values and functions. -/
theorem fallbackAgent_fails {name : String} {backends role : Json} :
    (fallbackAgent name backends role).isOk = false := by
  rw [Bool.eq_false_iff]
  intro built
  rw [fallbackAgent] at built
  obtain ⟨items, -, built⟩ := isOk_bind_iff.mp built
  cases items with
  | nil => simp at built
  | cons first rest => simp [capabilitiesOf, throw_bind] at built

theorem createAgent_isOk_iff {given : Json} :
    (createAgent str given name kwargs).isOk ↔ ∃ kind, lowered given = .ok kind ∧
      CanBuild kind kwargs ∧ (asCapabilities str (kwargs.get "capabilities")).isOk := by
  rw [createAgent]
  rw [isOk_bind_iff]
  apply exists_congr
  intro kind
  apply and_congr_right
  intro _
  by_cases fallback : kind = "fallback"
  · subst fallback
    have unknown : ¬ CanBuild "fallback" kwargs := by simp [CanBuild]
    cases backends : (kwargs.get "backends").truthy with
    | false => simp [throw_bind, unknown, backends]
    | true => simp [fallbackAgent_fails, unknown, backends]
  · simp only [fallback, if_false, isOk_bind_iff, ← createBackend_isOk_iff]
    simp [← isOk_iff]

theorem createAgent_kind {given : Json} :
    Yields (createAgent str given name kwargs) fun agent =>
      lowered given = .ok agent.backend.kind := by
  apply Yields.bind
  intro kind is_kind
  apply Yields.ite
  · intro _
    apply Yields.ite
    · intro _
      exact Yields.bind nofun
    · intro _ agent built
      have failed := isOk_iff.mpr ⟨agent, built⟩
      simp [fallbackAgent_fails] at failed
  · intro _
    apply Yields.bind
    intro backend created
    apply Yields.bind
    intro capabilities _
    apply Yields.pure
    rw [is_kind, createBackend_kind backend created]

/-- The kind that the factory goes by. -/
def kindOf (entries : Object) : Json :=
  if (entries.get "kind").isNull then inferred entries else entries.get "kind"

/-- Taking the name and the kind out of the entries does not change the kind. -/
theorem kindOf_popped (entries : Object) :
    (if ((entries.remove "name").get "kind").isNull then
        inferred ((entries.remove "name").remove "kind")
      else (entries.remove "name").get "kind") = kindOf entries := by
  rw [Object.get_remove (by decide), inferred, Object.get_remove (by decide),
    Object.get_remove (by decide)]
  rfl

theorem canBuild_remove {entries : Object} {key : String} (apart : key ∈ ["name", "kind"]) :
    CanBuild kind (entries.remove key) ↔ CanBuild kind entries := by
  have same {other : String} (different : other ∉ ["name", "kind"]) : other ≠ key :=
    fun equal => different (equal ▸ apart)
  unfold CanBuild
  rw [Object.getD_remove (same (by decide)), Object.getD_remove (same (by decide)),
    Object.getD_remove (same (by decide)), Object.getD_remove (same (by decide)),
    Object.get_remove (same (by decide)), Object.get_remove (same (by decide)),
    Object.get_remove (same (by decide)), Object.get_remove (same (by decide))]

/-- The factory builds an agent from the configuration. -/
def Accepts (str : Json → Except String String) (cfg : Json) : Prop :=
  ∃ entries kind, Keywords.ofJson cfg = .ok ⟨entries, true⟩ ∧ entries.has "name" ∧
    (str (entries.get "name")).isOk ∧ lowered (kindOf entries) = .ok kind ∧
    CanBuild kind entries ∧ (asCapabilities str (entries.get "capabilities")).isOk

/-- `from_config` behind the copy of the configuration. -/
theorem fromConfig_eq {cfg : Json} {keywords : Keywords}
    (copied : Keywords.ofJson cfg = .ok keywords) :
    fromConfig str cfg =
      if !keywords.entries.has "name" then throw "'name'"
      else str (keywords.entries.get "name") >>= fun name =>
        if !keywords.onlyStrings then throw "keywords must be strings"
        else createAgent str (kindOf keywords.entries) name
          ((keywords.entries.remove "name").remove "kind") := by
  rw [fromConfig]
  rw [copied, ok_bind, ← kindOf_popped]
  cases keywords.entries.has "name" with
  | false => rfl
  | true => cases keywords.onlyStrings <;> rfl

theorem fromConfig_isOk_iff {cfg : Json} : (fromConfig str cfg).isOk ↔ Accepts str cfg := by
  cases copied : Keywords.ofJson cfg with
  | error text => simp [fromConfig, Accepts, copied, isOk_bind_iff]
  | ok keywords =>
      obtain ⟨entries, onlyStrings⟩ := keywords
      rw [fromConfig_eq copied]
      cases named : entries.has "name" with
      | false => simp_all [Accepts]
      | true =>
          cases onlyStrings with
          | false => simp [Accepts, isOk_bind_iff, copied]
          | true =>
              simp [isOk_bind_iff, createAgent_isOk_iff, named, Accepts, copied, canBuild_remove,
                Object.get_remove]
              intro kind _ _ _
              exact isOk_iff.symm

theorem fromConfig_kind {cfg : Json} :
    Yields (fromConfig str cfg) fun agent =>
      ∃ keywords, Keywords.ofJson cfg = .ok keywords ∧
        lowered (kindOf keywords.entries) = .ok agent.backend.kind := by
  cases copied : Keywords.ofJson cfg with
  | error text => simp [Yields, fromConfig, bind_eq_ok_iff, copied]
  | ok keywords =>
      rw [fromConfig_eq copied]
      apply Yields.ite
      · intro _
        exact Yields.throw
      · intro _
        apply Yields.bind
        intro name _
        apply Yields.ite
        · intro _
          exact Yields.throw
        · intro _ agent built
          exact ⟨keywords, rfl, createAgent_kind agent built⟩

end AgentFactory

end MultiAgent.Plugin
