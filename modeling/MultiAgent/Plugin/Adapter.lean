import MultiAgent.Plugin.Json

/-!
# The event dispatcher

`DeepseekAdapter.handle_harness_event`. What stands behind it (the agents, the
coordinators with their runs, the session registry, the history) is a parameter,
and any of its calls may raise. The result says which branch of the dispatcher
was entered, apart from what the branch returned or raised.
-/

namespace MultiAgent.Plugin

inductive EventType where
  | run
  | agents
  | status
  | register
  | history
  deriving DecidableEq, Repr

def EventType.value : EventType → String
  | .run => "run"
  | .agents => "agents"
  | .status => "status"
  | .register => "register"
  | .history => "history"

/-- Coordinators `κ` over agents `α`, with the text of an exception where they raise. -/
structure Coordinators (κ α : Type) where
  agents : κ → List α
  /-- `len(coord.runs)` -/
  runs : κ → Nat
  autoStrategy : κ → String
  name : α → Json
  describe : α → Json
  /-- `coord.run(prompt, strategy, **kwargs)` -/
  run : κ → Json → Json → Object → Except String Object
  fromConfig : Json → Except String α
  registerAgent : κ → α → Except String κ

structure RunHistory where
  recent : Int → Except String (List Json)
  append : Object → Except String Unit

structure DeepseekAdapter (κ α : Type) where
  coordinators : Coordinators κ α
  coordinator : κ
  /-- `registry.get_or_create` -/
  registry : Option (Json → Except String κ)
  history : Option RunHistory
  historyPromptLimit : Option Int
  historyFinalLimit : Option Int
  /-- The answer of `_run_gate.acquire`. -/
  acquire : Bool
  allowedRegisterKinds : List String
  /-- `str(value)` of a value that is no string. -/
  repr : Json → Except String String

/-- What `handle_harness_event` did and returned, or the text of its exception. -/
structure Handling where
  dispatched : Option EventType
  result : Except String Object

namespace DeepseekAdapter

variable {κ α : Type}

def maxRegisterAgents : Nat := 100

def defaultRegisterKinds : List String := ["mock", "echo", "deepseek", "openai"]

def optInRegisterKinds : List String := ["cli", "http", "custom", "fallback"]

/-- `str(value)` -/
def str (adapter : DeepseekAdapter κ α) : Json → Except String String
  | .str value => .ok value
  | value => adapter.repr value

def failure (text : String) : Object := [("error", .str text)]

def coordinatorFor (adapter : DeepseekAdapter κ α) (event : Object) : Except String κ :=
  let sessionId := event.get "session_id"
  match adapter.registry with
  | some getOrCreate =>
    if sessionId.truthy then getOrCreate sessionId else .ok adapter.coordinator
  | none => .ok adapter.coordinator

def truncate (value : Json) (limit : Option Int) : Json :=
  match limit, value with
  | some limit, .str text =>
    let length := limit.toNat
    if length = 0 then .str ""
    else if text.length ≤ length then value
    else .str (String.ofList (text.toList.take length) ++ "…")
  | _, value => value

/-- `len(value or [])`; `none` is a `TypeError`. -/
def length? : Json → Option Nat
  | .str text => some text.length
  | .arr items => some items.length
  | .obj fields => some fields.length
  | value => if value.truthy then none else some 0

/-- `value or {}`, if `get` can be called on it. -/
def entries? : Json → Option Object
  | .obj fields => some fields
  | value => if value.truthy then none else some []

def recordHistory (adapter : DeepseekAdapter κ α) (event result : Object) : Except String Unit :=
  match adapter.history with
  | none => .ok ()
  | some history =>
    if result.has "error" then .ok ()
    else
      match entries? (result.get "meta"), length? (result.get "rounds") with
      | some fields, some rounds =>
        let prompt := truncate (result.getD "prompt" (event.getD "prompt" (.str "")))
          adapter.historyPromptLimit
        let final := truncate (result.get "final") adapter.historyFinalLimit
        history.append
          [("strategy", result.get "strategy"), ("prompt", prompt), ("final", final),
           ("rounds", .int rounds), ("session_id", event.get "session_id"),
           ("elapsed_seconds", Object.get fields "elapsed_seconds"),
           ("run_id", Object.get fields "run_id")]
      | _, _ => .error "unexpected type in the result of a run"

/-- The options that a run event hands on. -/
def runOptions (event : Object) : Object :=
  let given (keys : List String) : Object :=
    keys.filterMap fun key => if (event.get key).isNull then none else some (key, event.get key)
  ("session_id", event.get "session_id") ::
    (given ["rounds", "judge", "order", "workers", "timeout", "run_timeout", "budget"] ++
      given ["context"] ++ given ["cache"])

def handleRun (adapter : DeepseekAdapter κ α) (coord : κ) (event : Object) :
    Except String Object := do
  let prompt := event.getD "prompt" (.str "")
  if !prompt.truthy then return failure "missing prompt"
  if !adapter.acquire then return failure "too many concurrent runs"
  let result ← adapter.coordinators.run coord prompt (event.getD "strategy" (.str "auto"))
    (runOptions event)
  adapter.recordHistory event result
  return result

/-- What a `for` over the value goes through; `none` is a `TypeError`. -/
def elements : Json → Option (List Json)
  | .str text => some (text.toList.map fun c => .str (String.singleton c))
  | .arr items => some items
  | .obj fields => some (fields.map fun field => .str field.1)
  | _ => none

/-- The kind that a configuration declares. -/
def declaredKind (adapter : DeepseekAdapter κ α) (cfg : Json) : Except String String :=
  let kind := match cfg with
    | .obj fields => Object.get fields "kind"
    | _ => .null
  (if kind.truthy then adapter.str kind else .ok "").map fun text => lower (strip text)

/-- The kind needs an opt-in that the adapter does not have. -/
def restricted (adapter : DeepseekAdapter κ α) (kind : String) : Bool :=
  decide (kind ∈ optInRegisterKinds) && !decide (kind ∈ adapter.allowedRegisterKinds)

/-- The first declared kind that is restricted. -/
def findRestricted (adapter : DeepseekAdapter κ α) : List Json → Except String (Option String)
  | [] => .ok none
  | cfg :: rest => do
    let declared ← adapter.declaredKind cfg
    if adapter.restricted declared then return some declared
    findRestricted adapter rest

/-- `coord.register_agent` for each agent that was built, with their names. -/
def registerAll (adapter : DeepseekAdapter κ α) : κ → List α → κ × Except String (List Json)
  | coord, [] => (coord, .ok [])
  | coord, agent :: rest =>
    match adapter.coordinators.registerAgent coord agent with
    | .error text => (coord, .error text)
    | .ok coord =>
      let (coord, names) := registerAll adapter coord rest
      (coord, names.map fun names => adapter.coordinators.name agent :: names)

/-- A register event: the coordinator after it, and the answer. -/
def register (adapter : DeepseekAdapter κ α) (coord : κ) (event : Object) :
    κ × Except String Object :=
  match elements (event.getD "agents" (.arr [])) with
  | none => (coord, .error "object has no len()")
  | some configs =>
    if maxRegisterAgents < configs.length then
      (coord, .ok (failure "too many agents (max 100)"))
    else
      match adapter.findRestricted configs with
      | .error text => (coord, .error text)
      | .ok (some declared) =>
        (coord, .ok (failure (s!"agent kind '{declared}' requires explicit opt-in on this " ++
          "adapter (default-allowed kinds: ['deepseek', 'echo', 'mock', 'openai'])")))
      | .ok none =>
        match configs.mapM adapter.coordinators.fromConfig with
        | .error _ => (coord, .ok (failure "invalid agent config (details logged)"))
        | .ok built =>
          let (coord, names) := adapter.registerAll coord built
          (coord, names.map fun names => [("registered", .arr names)])

def handleRegister (adapter : DeepseekAdapter κ α) (coord : κ) (event : Object) :
    Except String Object :=
  (adapter.register coord event).2

/-- `int(event.get("limit") or 20)`, or 20; `none` is an `OverflowError`. -/
def historyLimit (event : Object) : Option Int :=
  let limit := event.get "limit"
  if !limit.truthy then some 20
  else
    match limit with
    | .bool _ => some 1
    | .int value => some value
    | .float value => some (value.num.tdiv value.den)
    | .str text => some ((parseInt text).getD 20)
    | .infinity _ => none
    | _ => some 20

def handleHistory (adapter : DeepseekAdapter κ α) (event : Object) : Except String Object :=
  match adapter.history with
  | none => .ok [("records", .arr []), ("enabled", .bool false)]
  | some history =>
    match historyLimit event with
    | none => .error "cannot convert float infinity to integer"
    | some limit => do
      let records ← history.recent limit
      return [("records", .arr records)]

def handleStatus (adapter : DeepseekAdapter κ α) (coord : κ) : Object :=
  let agents := adapter.coordinators.agents coord
  [("status", .str "ok"), ("agents", .arr (agents.map adapter.coordinators.name)),
   ("strategy", if agents.isEmpty then .null else .str (adapter.coordinators.autoStrategy coord)),
   ("runs", .int (adapter.coordinators.runs coord))]

def handleAgents (adapter : DeepseekAdapter κ α) (coord : κ) : Object :=
  [("agents", .arr ((adapter.coordinators.agents coord).map adapter.coordinators.describe))]

def handleHarnessEvent (adapter : DeepseekAdapter κ α) (event : Object) : Handling :=
  let t := event.get "type"
  match adapter.coordinatorFor event with
  | .error text => ⟨none, .error text⟩
  | .ok coord =>
    if t.isText "run" then ⟨some .run, adapter.handleRun coord event⟩
    else if t.isText "agents" then ⟨some .agents, .ok (adapter.handleAgents coord)⟩
    else if t.isText "status" then ⟨some .status, .ok (adapter.handleStatus coord)⟩
    else if t.isText "register" then ⟨some .register, adapter.handleRegister coord event⟩
    else if t.isText "history" then ⟨some .history, adapter.handleHistory event⟩
    else ⟨none, (adapter.str t).map fun text => failure s!"unsupported event type: {text}"⟩

theorem history_no_error {adapter : DeepseekAdapter κ α} {event answer : Object}
    (handled : adapter.handleHistory event = .ok answer) : answer.has "error" = false := by
  rw [handleHistory] at handled
  cases kept : adapter.history with
  | none =>
      simp only [kept, Except.ok.injEq] at handled
      rw [← handled]
      rfl
  | some history =>
      cases given : historyLimit event with
      | none => simp [kept, given] at handled
      | some limit =>
          cases read : history.recent limit with
          | error raised => simp [kept, given, read, bind, Except.bind] at handled
          | ok records =>
              simp only [kept, given, read, bind, Except.bind, pure, Except.pure,
                Except.ok.injEq] at handled
              rw [← handled]
              rfl

/-- Only a run, a registration and an event of no known type are answered with an
error; the other events answer or raise. -/
theorem answers_error {adapter : DeepseekAdapter κ α} {event answer : Object}
    (handled : (adapter.handleHarnessEvent event).result = .ok answer)
    (error : answer.has "error" = true) :
    (adapter.handleHarnessEvent event).dispatched ∈ [none, some .run, some .register] := by
  unfold handleHarnessEvent at handled ⊢
  cases found : adapter.coordinatorFor event with
  | error raised => simp [found] at handled
  | ok coord =>
      simp only [found] at handled ⊢
      split_ifs at handled ⊢ with run agents status register history
      · simp
      · cases handled
        cases error
      · cases handled
        cases error
      · simp
      · exact absurd error (by simp [history_no_error handled])
      · simp

end DeepseekAdapter

end MultiAgent.Plugin
