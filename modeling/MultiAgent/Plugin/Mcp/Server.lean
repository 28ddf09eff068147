import MultiAgent.Foundations.Machine
import MultiAgent.Plugin.Mcp.Values

/-!
# The MCP stdio server

`adapters/mcp.py`. The adapter behind the tools is a parameter with a state of its own,
and any of its calls may raise. Of the standard library `json.loads`, `repr`, `int` and
`dict` of a list are parameters too. The loop is a machine over the lines of the input;
a step that is not enabled is an exception that leaves the loop.
-/

namespace MultiAgent.Plugin.Mcp

/-- What `json.loads` makes of a text. -/
inductive Loaded where
  | value (value : Value)
  | valueError
  /-- `RecursionError`: the text nests too deeply. -/
  | recursionError

/-- An event of the adapter; `dict` of a list may have keys that are no strings. -/
abbrev Event := List (Value × Value)

structure Python where
  loads : Text → Loaded
  /-- `str(value)` of a value that is no string; `none` is a `RecursionError`. -/
  repr : Value → Option Text
  /-- `repr` escapes what is not printable. -/
  repr_encodable : ∀ value text, repr value = some text → encodable text = true
  /-- `int(value)`, or what it raises. -/
  int : Value → Except Text Int
  /-- `dict(items)`, or what it raises. -/
  dict : List Value → Except Text Event
  /-- How deeply `json.dumps` follows arrays and objects. -/
  nesting : Nat
  /-- The fixed parts of the responses are not too deep. -/
  roomy : 8 ≤ nesting

/-- The traces of the runs. -/
structure RunRegistry where
  get : Text → Option Dict
  recent : Int → Except Text (List Value)

/-- A `DeepseekAdapter` in the states `σ`. -/
structure Adapter (σ : Type) where
  /-- The answer of `handle_harness_event`, or what it raises. -/
  handleHarnessEvent : σ → Event → Except Text Dict × σ
  /-- `len(adapter.registry)`, or what it raises. -/
  registry : σ → Option (Except Text Nat)
  /-- `adapter.coordinator.runs` -/
  runs : σ → Option RunRegistry

structure McpServer (σ : Type) where
  python : Python
  adapter : Adapter σ
  version : String

def protocolVersion : String := "2025-03-26"

def supportedProtocolVersions : List String :=
  ["2025-03-26", "2025-06-18", "2025-11-25", "2024-11-05", "2024-10-07"]

def strategyNames : List String :=
  ["auto", "broadcast", "sequential", "debate", "supervisor", "consensus", "relay"]

section Tools

/-- A string of the source. -/
def literal (s : String) : Value := .str (text s)

def describedAs (type description : String) (rest : List (String × Value)) : Value :=
  record ([("type", literal type)] ++ rest ++ [("description", literal description)])

def objectSchema (properties : List (String × Value)) (required : List String) : Value :=
  record ([("type", literal "object"), ("properties", record properties)] ++
    if required.isEmpty then [] else [("required", .arr (required.map literal))])

def tools : List (String × String × Value) :=
  [("run",
    "Run a multi-agent collaboration strategy and return the final " ++
      "answer plus per-round details. Strategies: broadcast (parallel " ++
      "discussion), sequential (chain-of-agents), debate (multi-round " ++
      "with judge), supervisor (task decomposition + parallel workers), " ++
      "consensus (propose + vote), relay (pass-the-baton draft refinement).",
    objectSchema
      [("prompt", describedAs "string" "The task or question for the agents." []),
       ("strategy", record [("type", literal "string"),
          ("enum", .arr (strategyNames.map literal))]),
       ("rounds", describedAs "integer" "Debate/broadcast rounds (default 1)."
          [("minimum", .int 1)]),
       ("session_id", describedAs "string"
          "Optional session id; isolates memory and registry per session." []),
       ("judge", describedAs "string" "Debate/consensus judge agent name." []),
       ("order", describedAs "array" "Sequential strategy speaking order."
          [("items", record [("type", literal "string")])]),
       ("workers", describedAs "array" "Supervisor worker agent names."
          [("items", record [("type", literal "string")])]),
       ("timeout", describedAs "number" "Per-agent timeout in seconds." [])]
      ["prompt"]),
   ("agents", "List registered agents (name, role, provider, model, token usage).",
    objectSchema [] []),
   ("register",
    "Register agents. Each entry: \x7bname, kind: mock|echo|http|deepseek|" ++
      "openai|custom, plus kind-specific fields like system_prompt, " ++
      "model, url\x7d.",
    objectSchema
      [("session_id", record [("type", literal "string")]),
       ("agents", describedAs "array"
          "Agent config dicts (same shape as the HTTP register event)."
          [("items", record [("type", literal "object")])])]
      ["agents"]),
   ("status", "Adapter status: agent names, auto strategy, session count.", objectSchema [] []),
   ("history", "查询最近的多智能体协作运行历史（需服务以 --history 启动），返回最新在前的记录列表。",
    objectSchema
      [("limit", describedAs "integer" "返回最近 N 条记录（默认 20）。" [("minimum", .int 1)])] []),
   ("runs",
    "查询最近运行的 trace（可观测性）。不带 run_id 时返回最近运行的" ++
      "摘要列表；带 run_id 时返回该次运行的完整 span/task 明细。",
    objectSchema
      [("run_id", describedAs "string" "指定 run 的 id（meta.run_id），返回完整明细。" []),
       ("limit", describedAs "integer" "摘要列表长度（默认 20）。" [("minimum", .int 1)])] [])]

end Tools

namespace McpServer

variable {σ : Type}

def recursionText : Text := text "maximum recursion depth exceeded"

/-- `str(value)`, or what it raises. -/
def str (server : McpServer σ) : Value → Except Text Text
  | .str value => .ok value
  | value =>
    match server.python.repr value with
    | some text => .ok text
    | none => .error recursionText

/-- `json.dumps` follows the value to its end. -/
def dumpable (server : McpServer σ) (value : Value) : Bool :=
  decide (value.depth ≤ server.python.nesting)

/-- `dict(args)` -/
def dictOf (server : McpServer σ) : Value → Except Text Event
  | .obj fields => .ok (fields.map fun entry => (.str entry.1, entry.2))
  | .arr items => server.python.dict items
  | .str _ => .error (text "dictionary update sequence element #0 has length 1; 2 is required")
  | value => .error (text s!"'{value.typeName}' object is not iterable")

/-- `event["type"] = name` -/
def setType (event : Event) (name : Value) : Event :=
  if event.any fun entry => entry.1.isText "type" then
    event.map fun entry => if entry.1.isText "type" then (entry.1, name) else entry
  else event ++ [(literal "type", name)]

/-- `value.get(key)` of what need not be a dict. -/
def getOf (value : Value) (key : String) : Except Text Value :=
  match value with
  | .obj fields => .ok (Dict.get fields key)
  | value => .error (text s!"'{value.typeName}' object has no attribute 'get'")

/-- What came of a tool: the answer of the adapter, if it gave one, and what
`_call_tool` returned or raised. -/
structure Called (σ : Type) where
  answered : Option Dict
  result : Except Text Dict
  state : σ

/-- The adapter handles an event, and `_call_tool` goes on with its answer. -/
def ask (server : McpServer σ) (s : σ) (event : Event) (go : Dict → σ → Except Text Dict) :
    Called σ :=
  match server.adapter.handleHarnessEvent s event with
  | (.ok answer, s) => ⟨some answer, go answer s, s⟩
  | (.error text, s) => ⟨none, .error text, s⟩

/-- An event with one argument handed on. -/
def handOn (args : Value) (type key : String) : Except Text Event :=
  (getOf args key).map fun value => [(literal "type", literal type), (literal key, value)]

/-- A field set in an answer. -/
def setField (answer : Dict) (key : String) (value : Value) : Dict :=
  if answer.any fun entry => decide (entry.1 = text key) then
    answer.map fun entry => if entry.1 = text key then (entry.1, value) else entry
  else answer ++ [(text key, value)]

/-- The answer of the tool `run`. -/
def runAnswer (server : McpServer σ) (answer : Dict) : Except Text Dict :=
  match answer.get? "error" with
  | some error => do throw (← server.str error)
  | none => .ok answer

/-- The answer of the tool `status`. -/
def statusAnswer (server : McpServer σ) (answer : Dict) (s : σ) : Except Text Dict :=
  let out := setField answer "version" (literal server.version)
  match server.adapter.registry s with
  | none => .ok out
  | some sessions => sessions.map fun count => setField out "sessions" (.int count)

/-- The tool `runs`. -/
def runsAnswer (server : McpServer σ) (s : σ) (args : Value) : Except Text Dict :=
  match server.adapter.runs s with
  | none => .ok [(text "runs", .arr [])]
  | some registry => do
    let runId ← getOf args "run_id"
    if runId.truthy then
      match registry.get (← server.str runId) with
      | some trace => return trace
      | none => throw (text "run not found: " ++ (← server.str runId))
    else
      let limit ← getOf args "limit"
      let limit ← if limit.truthy then server.python.int limit else pure 20
      return [(text "runs", .arr (← registry.recent limit))]

def callTool (server : McpServer σ) (s : σ) (name args : Value) : Called σ :=
  match server.dictOf args with
  | .error text => ⟨none, .error text, s⟩
  | .ok event =>
    let event := setType event name
    if name.isText "run" then server.ask s event fun answer _ => server.runAnswer answer
    else if name.isText "agents" then
      match handOn args "agents" "session_id" with
      | .ok event => server.ask s event fun answer _ => .ok answer
      | .error text => ⟨none, .error text, s⟩
    else if name.isText "register" then server.ask s event fun answer _ => .ok answer
    else if name.isText "status" then
      match handOn args "status" "session_id" with
      | .ok event => server.ask s event server.statusAnswer
      | .error text => ⟨none, .error text, s⟩
    else if name.isText "history" then
      match handOn args "history" "limit" with
      | .ok event => server.ask s event fun answer _ => .ok answer
      | .error text => ⟨none, .error text, s⟩
    else if name.isText "runs" then ⟨none, server.runsAnswer s args, s⟩
    else ⟨none, do throw (text "unknown tool: " ++ (← server.str name)), s⟩

/-- `value or {}` -/
def orEmpty (value : Value) : Value := if value.truthy then value else .obj []

/-- The `params` of a message, as far as `_call_tool`. -/
def callParams (server : McpServer σ) (s : σ) (params : Value) : Called σ :=
  match orEmpty params with
  | .obj fields =>
    server.callTool s ((Dict.get? fields "name").getD (literal ""))
      (orEmpty (Dict.get fields "arguments"))
  | value => ⟨none, .error (text s!"'{value.typeName}' object has no attribute 'get'"), s⟩

def content (shown : Text) : String × Value :=
  ("content", .arr [record [("type", literal "text"), ("text", .str shown)]])

/-- The result that a tool call is answered with. -/
def toolResult (server : McpServer σ) (result : Except Text Dict) : Value :=
  match result with
  | .ok value =>
    if server.dumpable (.obj value) then record [content (dumps (.obj value))]
    else record [content (text "error: " ++ recursionText), ("isError", .bool true)]
  | .error raised => record [content (text "error: " ++ raised), ("isError", .bool true)]

/-- `_result` -/
def resultOf (id result : Value) : Value :=
  record [("jsonrpc", literal "2.0"), ("id", id), ("result", result)]

def errorOf (id : Value) (code : Int) (message : Text) : Value :=
  record [("jsonrpc", literal "2.0"), ("id", id),
    ("error", record [("code", .int code), ("message", .str message)])]

/-- The value can be hashed. -/
def hashable : Value → Bool
  | .arr _ | .obj _ => false
  | _ => true

/-- The `protocolVersion` that a client asks for. -/
def requestedVersion (params : Value) : Value :=
  match params with
  | .obj fields => (Dict.get? fields "protocolVersion").getD (literal protocolVersion)
  | _ => literal protocolVersion

def initializeResult (server : McpServer σ) (requested : Value) : Value :=
  let negotiated := (supportedProtocolVersions.find? requested.isText).getD protocolVersion
  record [("protocolVersion", literal negotiated),
    ("capabilities", record [("tools", record [])]),
    ("serverInfo", record [("name", literal "deepseek-multi-agent-plugin"),
      ("version", literal server.version)])]

def toolsResult : Value :=
  record [("tools", .arr (tools.map fun tool =>
    record [("name", literal tool.1), ("description", literal tool.2.1),
      ("inputSchema", tool.2.2)]))]

/-- The response to a message, if there is one, or what `handle_request` raises. -/
def handleRequest (server : McpServer σ) (s : σ) (req : Dict) :
    Except Text (Option Value) × σ :=
  let method := (req.get? "method").getD (literal "")
  let id := req.get "id"
  if method.isText "initialize" then
    let requested := requestedVersion (req.get "params")
    if hashable requested then (.ok (some (resultOf id (server.initializeResult requested))), s)
    else (.error (text s!"unhashable type: '{requested.typeName}'"), s)
  else if method.isText "notifications/initialized" then (.ok none, s)
  else if method.isText "ping" then (.ok (some (resultOf id (record []))), s)
  else if method.isText "tools/list" then (.ok (some (resultOf id toolsResult)), s)
  else if method.isText "tools/call" then
    let called := server.callParams s (req.get "params")
    (.ok (some (resultOf id (server.toolResult called.result))), called.state)
  else if id.isNull then (.ok none, s)
  else
    match server.str method with
    | .ok shown => (.ok (some (errorOf id (-32601) (text "method not found: " ++ shown))), s)
    | .error raised => (.error raised, s)

/-- `stdout.write(json.dumps(resp, ensure_ascii=False) + "\n")`: a line of its own,
unless `json.dumps` or the stream raises. -/
def write (server : McpServer σ) (resp : Value) : Option (List Value) :=
  if server.dumpable resp && encodable (dumps resp) then some [resp] else none

/-- What a line of the input is. -/
inductive Line where
  | blank
  | malformed
  | tooDeep
  /-- A JSON value that is no object. -/
  | invalid
  | message (req : Dict)

def readLine (server : McpServer σ) (line : Text) : Line :=
  let line := strip line
  if line.isEmpty then .blank
  else
    match server.python.loads line with
    | .valueError => .malformed
    | .recursionError => .tooDeep
    | .value (.obj req) => .message req
    | .value _ => .invalid

/-- The loop body for one line: what it writes; `none` leaves the loop by an exception. -/
def serveLine (server : McpServer σ) (s : σ) (line : Text) : Option (List Value × σ) :=
  match server.readLine line with
  | .blank => some ([], s)
  | .malformed => some ([errorOf .null (-32700) (text "Parse error")], s)
  | .tooDeep => none
  | .invalid => some ([errorOf .null (-32600) (text "Invalid Request")], s)
  | .message req =>
    match server.handleRequest s req with
    | (.ok none, s) => some ([], s)
    | (.ok (some resp), s) => (server.write resp).map (·, s)
    | (.error raised, s) =>
      if (req.get "id").isNull then some ([], s)
      else (server.write (errorOf (req.get "id") (-32603)
        (text "internal error: " ++ raised))).map (·, s)

/-- `serve`, until the end of the input. -/
def machine (server : McpServer σ) : Machine σ Text :=
  ⟨fun s line => (server.serveLine s line).map Prod.snd⟩

/-- What is written for a line. -/
def writes (server : McpServer σ) (s : σ) (line : Text) : List Value :=
  (server.serveLine s line).elim [] Prod.fst

end McpServer

end MultiAgent.Plugin.Mcp
