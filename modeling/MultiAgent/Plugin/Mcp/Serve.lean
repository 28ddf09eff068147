import MultiAgent.Plugin.Mcp.Server

/-!
# What the serve loop promises

For every input the loop reads each line, answers each message that carries an id with
one response of that id, answers no other message, and flags the failure of a tool.
-/

namespace MultiAgent.Plugin.Mcp

namespace McpServer

variable {σ : Type} {server : McpServer σ} {s : σ} {req : Dict} {line : Text} {id result : Value}

/-- The message that a line holds. -/
def message? (server : McpServer σ) (line : Text) : Option Dict :=
  match server.readLine line with
  | .message req => some req
  | _ => none

/-- The `id` of a response. -/
def idOf : Value → Option Value
  | .obj fields => Dict.get? fields "id"
  | _ => none

/-- What is written for a message: one response with the id that it carries, and
nothing when it carries none. -/
def Answered (req : Dict) (written : List Value) : Prop :=
  match req.get? "id" with
  | some id => ∃ resp, written = [resp] ∧ idOf resp = some id
  | none => written = []

/-- A tool fails: it raises, it gives back what cannot be written, or the adapter
answers it with an error. -/
def Fails (server : McpServer σ) (called : Called σ) : Prop :=
  (∃ answer, called.answered = some answer ∧ (answer.get? "error").isSome) ∨
    ∀ value, called.result = .ok value → server.dumpable (.obj value) = false

/-- A JSON-RPC error, or a tool result with `isError`. -/
def flagged : Value → Bool
  | .obj fields => (Dict.get? fields "error").isSome ||
    match Dict.get? fields "result" with
    | some (.obj result) =>
      match Dict.get? result "isError" with
      | some (.bool flag) => flag
      | _ => false
    | _ => false
  | _ => false

def methodOf (req : Dict) : Value := (req.get? "method").getD (literal "")

/-- What is written for the call of a tool that fails is flagged. -/
def Reported (server : McpServer σ) (s : σ) (req : Dict) (written : List Value) : Prop :=
  (methodOf req).isText "tools/call" →
    Fails server (server.callParams s (req.get "params")) →
      ∀ resp ∈ written, flagged resp

/-- The line is read, and its message is answered as it should be. -/
def Served (server : McpServer σ) (s : σ) (line : Text) : Prop :=
  (∃ t, server.machine.step s line = some t) ∧
    ∀ req, server.message? line = some req →
      Answered req (server.writes s line) ∧ Reported server s req (server.writes s line)

section Condition

/-- A part of a response that can be written. -/
structure Takes (server : McpServer σ) (value : Value) : Prop where
  encodable : value.encodable = true
  shallow : value.depth < server.python.nesting

/-- The message carries an id that can be written. -/
def Carries (server : McpServer σ) (req : Dict) (fits : Value → Prop) : Prop :=
  ∃ id, req.get? "id" = some id ∧ Takes server id ∧ fits id

/-- The tool that is called, with its arguments. -/
def toolOf (params : Value) : Option (Value × Value) :=
  match orEmpty params with
  | .obj fields =>
    some ((Dict.get? fields "name").getD (literal ""), orEmpty (Dict.get fields "arguments"))
  | _ => none

/-- The event that a tool sends to the adapter, if it sends one. -/
def sends (server : McpServer σ) (name args : Value) : Option Event :=
  (server.dictOf args).toOption.bind fun event =>
    if name.isText "run" ∨ name.isText "register" then some (setType event name)
    else if name.isText "agents" then (handOn args "agents" "session_id").toOption
    else if name.isText "status" then (handOn args "status" "session_id").toOption
    else if name.isText "history" then (handOn args "history" "limit").toOption
    else none

/-- What a tool makes of the answer of the adapter. -/
def handsOn (server : McpServer σ) (name : Value) (answer : Dict) (s : σ) : Except Text Dict :=
  if name.isText "run" then server.runAnswer answer
  else if name.isText "status" then server.statusAnswer answer s
  else .ok answer

/-- A tool other than `run` is answered with an error by the adapter, and comes to a value that
can be written. -/
def Silent (server : McpServer σ) (s : σ) (params : Value) : Prop :=
  ∃ name args event answer t value, toolOf params = some (name, args) ∧
    name.isText "run" = false ∧ server.sends name args = some event ∧
    server.adapter.handleHarnessEvent s event = (.ok answer, t) ∧
    (answer.get? "error").isSome ∧ server.handsOn name answer t = .ok value ∧
    server.dumpable (.obj value) = true

/-- What is returned or raised has no lone surrogates in its text. -/
def Clean (server : McpServer σ) : Except Text Dict → Prop
  | .ok value => server.dumpable (.obj value) = true → (Value.obj value).encodable = true
  | .error raised => encodable raised = true

/-- There are no lone surrogates in what is made of the answer of the adapter, or in what it
raises; where it is not asked, none in what `dict` raises for the arguments, in the runs, and in an
unknown name. -/
def ToolSpoken (server : McpServer σ) (s : σ) (name args : Value) : Prop :=
  match server.sends name args with
  | some event =>
    match server.adapter.handleHarnessEvent s event with
    | (.ok answer, t) => Clean server (server.handsOn name answer t)
    | (.error raised, _) => encodable raised = true
  | none =>
    match server.dictOf args with
    | .ok _ =>
      if name.isText "runs" then Clean server (server.runsAnswer s args)
      else ∀ shown, name = .str shown → encodable shown = true
    | .error raised => encodable raised = true

def Spoken (server : McpServer σ) (s : σ) (params : Value) : Prop :=
  ∀ name args, toolOf params = some (name, args) → ToolSpoken server s name args

/-- The condition on a message. -/
def SoundMessage (server : McpServer σ) (s : σ) (req : Dict) : Prop :=
  let method := methodOf req
  let silent := req.get? "id" = none
  if method.isText "initialize" then
    if hashable (requestedVersion (req.get "params")) then Carries server req fun _ => True
    else silent ∨ Carries server req fun id => id.isNull = false
  else if method.isText "notifications/initialized" then silent
  else if method.isText "ping" then Carries server req fun _ => True
  else if method.isText "tools/list" then Carries server req fun _ => True
  else if method.isText "tools/call" then
    (Carries server req fun _ => True) ∧ Spoken server s (req.get "params") ∧
      ¬ Silent server s (req.get "params")
  else silent ∨ Carries server req fun id =>
    id.isNull = false ∧ ∀ shown, method = .str shown → encodable shown = true

/-- The condition on a line: it does not nest too deeply for `json.loads`, and the
message that it may hold meets its condition. -/
def Sound (server : McpServer σ) (s : σ) (line : Text) : Prop :=
  match server.readLine line with
  | .tooDeep => False
  | .message req => SoundMessage server s req
  | .blank | .malformed | .invalid => True

end Condition

section Writing

theorem encodable_record {fields : List (String × Value)} :
    (record fields).encodable = true ↔ ∀ field ∈ fields, field.2.encodable = true := by
  induction fields with
  | nil => simp [record, Value.encodable, Value.encodableFields]
  | cons field rest ih =>
      simp only [record, Value.encodable, List.map_cons, Value.encodableFields, encodable_text,
        Bool.true_and, Bool.and_eq_true, List.forall_mem_cons] at ih ⊢
      exact and_congr_right' ih

theorem depth_record {fields : List (String × Value)} {n : Nat} :
    (record fields).depth ≤ n + 1 ↔ ∀ field ∈ fields, field.2.depth ≤ n := by
  induction fields with
  | nil => simp [record, Value.depth, Value.depthFields]
  | cons field rest ih =>
      simp only [record, Value.depth, List.map_cons, Value.depthFields, Nat.add_le_add_iff_right,
        Nat.max_le, List.forall_mem_cons] at ih ⊢
      exact and_congr_right' ih

/-- A response is written when the stream takes it. -/
theorem write_eq_some_iff {resp : Value} {written : List Value} :
    server.write resp = some written ↔
      (resp.depth ≤ server.python.nesting ∧ resp.encodable = true) ∧ written = [resp] := by
  simp only [write, encodable_dumps, dumpable, Bool.and_eq_true, decide_eq_true_eq]
  split
  · rename_i fits
    simp [fits, eq_comm]
  · rename_i fits
    simp [fits]

theorem takes_record {fields : List (String × Value)} :
    (server.write (record fields)).isSome ↔ ∀ field ∈ fields, Takes server field.2 := by
  obtain ⟨n, room⟩ := Nat.exists_eq_add_of_le' (Nat.le_trans (by decide) server.python.roomy :
    1 ≤ server.python.nesting)
  rw [Option.isSome_iff_exists]
  constructor
  · rintro ⟨written, fits⟩ field member
    obtain ⟨⟨shallow, clean⟩, -⟩ := write_eq_some_iff.mp fits
    rw [room] at shallow
    refine ⟨encodable_record.mp clean field member, ?_⟩
    have below := depth_record.mp shallow field member
    omega
  · intro takes
    refine ⟨_, write_eq_some_iff.mpr ⟨⟨?_, ?_⟩, rfl⟩⟩
    · rw [room]
      apply depth_record.mpr
      intro field member
      have below := (takes field member).shallow
      omega
    · exact encodable_record.mpr fun field member => (takes field member).encodable

/-- The fixed parts of the responses. -/
theorem takes_of_fixed {value : Value} (clean : value.encodable = true)
    (shallow : value.depth ≤ 7) :
    Takes server value :=
  ⟨clean, Nat.lt_of_le_of_lt shallow server.python.roomy⟩

theorem takes_literal (s : String) : Takes server (literal s) :=
  takes_of_fixed (by simp [literal, Value.encodable]) (by simp [literal, Value.depth])

theorem write_resultOf :
    (server.write (resultOf id result)).isSome ↔ Takes server id ∧ Takes server result := by
  rw [resultOf, takes_record]
  simp [takes_literal]

theorem write_errorOf {code : Int} {message : Text} :
    (server.write (errorOf id code message)).isSome ↔
      Takes server id ∧ encodable message = true := by
  have detail : Takes server (record [("code", .int code), ("message", .str message)]) ↔
      encodable message = true := by
    constructor
    · intro takes
      simpa [encodable_record, Value.encodable] using takes.encodable
    · intro clean
      exact takes_of_fixed (by simp [encodable_record, Value.encodable, clean])
        (depth_record.mpr (by simp [Value.depth]))
  rw [errorOf, takes_record]
  simp [takes_literal, detail]

theorem takes_initializeResult (requested : Value) :
    Takes server (server.initializeResult requested) := by
  have clean (s : String) : (literal s).encodable = true := encodable_text s
  refine takes_of_fixed ?_ ?_
  · simp [initializeResult, encodable_record, clean]
  · refine depth_record.mpr ?_
    simp [depth_record, literal, Value.depth]

theorem takes_toolsResult : Takes server toolsResult := by
  refine takes_of_fixed ?_ (by decide)
  simp [toolsResult, tools, objectSchema, describedAs, strategyNames, encodable_record, literal,
    Value.encodable, Value.encodableItems, -String.reduceAppend]

theorem encodable_str {value : Value} {shown : Text} (spoken : server.str value = .ok shown)
    (clean : ∀ given, value = .str given → encodable given = true) : encodable shown = true := by
  cases value with
  | str given =>
      cases spoken
      exact clean _ rfl
  | _ =>
      simp only [str] at spoken
      split at spoken
      · rename_i repr
        cases spoken
        exact server.python.repr_encodable _ _ repr
      · cases spoken

/-- Only the exceptions of `repr` come out of `str`. -/
theorem encodable_str_error {value : Value} {raised : Text}
    (spoken : server.str value = .error raised) : encodable raised = true := by
  cases value with
  | str given => cases spoken
  | _ =>
      simp only [str] at spoken
      split at spoken
      · cases spoken
      · cases spoken
        exact encodable_text _

theorem takes_toolResult {called : Called σ} :
    Takes server (server.toolResult called.result) ↔ Clean server called.result := by
  have whole (shown : Text) (rest : List (String × Value))
      (clean : ∀ field ∈ rest, field.2.encodable = true ∧ field.2.depth ≤ 6) :
      Takes server (record (content shown :: rest)) ↔ encodable shown = true := by
    constructor
    · intro takes
      have all := encodable_record.mp takes.encodable _ List.mem_cons_self
      simp only [content, Value.encodable, Value.encodableItems, encodable_record,
        List.forall_mem_cons, Bool.and_true] at all
      exact all.2.1
    · intro spoken
      refine takes_of_fixed (encodable_record.mpr ?_) (depth_record.mpr ?_)
      · refine List.forall_mem_cons.mpr ⟨?_, fun field member => (clean field member).1⟩
        simp [content, Value.encodable, Value.encodableItems, encodable_record, literal, spoken]
      · refine List.forall_mem_cons.mpr ⟨?_, fun field member => (clean field member).2⟩
        simp [content, Value.depth, Value.depthItems, record, Value.depthFields, literal]
  have flag : ∀ field ∈ [("isError", Value.bool true)],
      field.2.encodable = true ∧ field.2.depth ≤ 6 := by
    simp [Value.encodable, Value.depth]
  cases ends : called.result with
  | error raised =>
      simp only [toolResult, Clean]
      rw [whole _ _ flag]
      simp
  | ok value =>
      simp only [toolResult, Clean]
      split
      · rename_i fits
        rw [whole _ _ (by simp), encodable_dumps]
        simp [fits]
      · rename_i fits
        rw [whole _ _ flag]
        simp [fits, recursionText]

end Writing

section Calls

variable {name args params : Value} {event : Event}

/-- The answer of the adapter is an error, and the call has a value that can be written. -/
def Overlooked (server : McpServer σ) (called : Called σ) : Prop :=
  ∃ answer value, called.answered = some answer ∧ (answer.get? "error").isSome ∧
    called.result = .ok value ∧ server.dumpable (.obj value) = true

/-- The tools that send an event. -/
theorem sends_cases (sent : server.sends name args = some event) :
    ∃ given, server.dictOf args = .ok given ∧
      ((name = literal "run" ∨ name = literal "register") ∧ event = setType given name ∨
      name = literal "agents" ∧ handOn args "agents" "session_id" = .ok event ∨
      name = literal "status" ∧ handOn args "status" "session_id" = .ok event ∨
      name = literal "history" ∧ handOn args "history" "limit" = .ok event) := by
  have handed {given : Except Text Event} (some_event : given.toOption = some event) :
      given = .ok event := by
    cases given with
    | error raised => cases some_event
    | ok other => rw [Option.some.inj some_event]
  obtain ⟨given, made, sent⟩ := Option.bind_eq_some_iff.mp sent
  refine ⟨given, ?_, ?_⟩
  · cases dict : server.dictOf args with
    | error raised =>
        rw [dict] at made
        cases made
    | ok other =>
        rw [dict] at made
        rw [Option.some.inj made]
  · split_ifs at sent with direct agents status history
    · exact .inl ⟨direct.imp Value.isText_iff.mp Value.isText_iff.mp,
        (Option.some.inj sent).symm⟩
    · exact .inr (.inl ⟨Value.isText_iff.mp agents, handed sent⟩)
    · exact .inr (.inr (.inl ⟨Value.isText_iff.mp status, handed sent⟩))
    · exact .inr (.inr (.inr ⟨Value.isText_iff.mp history, handed sent⟩))

/-- A tool that sends an event comes to what it makes of the answer. -/
theorem callTool_of_sends (sent : server.sends name args = some event) :
    server.callTool s name args = server.ask s event (server.handsOn name) := by
  obtain ⟨given, made, ⟨rfl | rfl, rfl⟩ | ⟨rfl, handed⟩ | ⟨rfl, handed⟩ | ⟨rfl, handed⟩⟩ :=
    sends_cases sent
  · rw [callTool, made]
    rfl
  · rw [callTool, made]
    rfl
  · rw [callTool, made, handed]
    rfl
  · rw [callTool, made, handed]
    rfl
  · rw [callTool, made, handed]
    rfl

/-- What an argument that cannot be handed on raises. -/
theorem refused_of_handOn {type key : String} (unsent : (handOn args type key).toOption = none) :
    ∃ raised, handOn args type key = .error raised ∧ encodable raised = true := by
  cases args with
  | obj fields => cases unsent
  | _ => exact ⟨_, rfl, encodable_text _⟩

theorem encodable_of_literal {s : String} {shown : Text} (same : literal s = .str shown) :
    encodable shown = true := by
  cases same
  exact encodable_text s

/-- What an unknown tool raises names it. -/
theorem clean_unknown : Clean server (do throw (text "unknown tool: " ++ (← server.str name))) ↔
    ∀ shown, name = .str shown → encodable shown = true := by
  cases spoken : server.str name with
  | ok shown =>
      change encodable (text "unknown tool: " ++ shown) = true ↔ _
      rw [encodable_append, encodable_text, Bool.true_and]
      constructor
      · rintro clean given rfl
        cases spoken
        exact clean
      · exact encodable_str spoken
  | error raised =>
      refine iff_of_true (encodable_str_error spoken) ?_
      rintro shown rfl
      cases spoken

/-- A tool that sends no event has not been answered. -/
theorem callTool_of_unsent (unsent : server.sends name args = none) :
    (server.callTool s name args).answered = none ∧
      (Clean server (server.callTool s name args).result ↔
        match server.dictOf args with
        | .ok _ =>
          if name.isText "runs" then Clean server (server.runsAnswer s args)
          else ∀ shown, name = .str shown → encodable shown = true
        | .error raised => encodable raised = true) := by
  rw [sends] at unsent
  cases made : server.dictOf args with
  | error raised =>
      rw [callTool, made]
      exact ⟨rfl, Iff.rfl⟩
  | ok given =>
      rw [made] at unsent
      simp only [Except.toOption, Option.bind_some] at unsent
      split_ifs at unsent with direct agents status history
      · obtain rfl := Value.isText_iff.mp agents
        obtain ⟨raised, handed, clean⟩ := refused_of_handOn unsent
        rw [callTool, made, handed]
        exact ⟨rfl, fun _ _ => encodable_of_literal, fun _ => clean⟩
      · obtain rfl := Value.isText_iff.mp status
        obtain ⟨raised, handed, clean⟩ := refused_of_handOn unsent
        rw [callTool, made, handed]
        exact ⟨rfl, fun _ _ => encodable_of_literal, fun _ => clean⟩
      · obtain rfl := Value.isText_iff.mp history
        obtain ⟨raised, handed, clean⟩ := refused_of_handOn unsent
        rw [callTool, made, handed]
        exact ⟨rfl, fun _ _ => encodable_of_literal, fun _ => clean⟩
      · obtain ⟨run, register⟩ := not_or.mp direct
        rw [callTool, made]
        simp only [run, register, agents, status, history, if_false, Bool.false_eq_true]
        split_ifs with runs
        · exact ⟨rfl, Iff.rfl⟩
        · exact ⟨rfl, clean_unknown⟩

/-- A call names a tool, or raises. -/
theorem callParams_cases (server : McpServer σ) (s : σ) (params : Value) :
    (∃ name args, toolOf params = some (name, args) ∧
      server.callParams s params = server.callTool s name args) ∨
    toolOf params = none ∧ ∃ raised, encodable raised = true ∧
      server.callParams s params = ⟨none, .error raised, s⟩ := by
  rw [callParams, toolOf]
  cases orEmpty params with
  | obj fields => exact .inl ⟨_, _, rfl, rfl⟩
  | _ => exact .inr ⟨rfl, _, encodable_text _, rfl⟩

/-- The tool `run` gives back no answer with an error. -/
theorem runAnswer_no_error {answer value : Dict} (ran : server.runAnswer answer = .ok value) :
    answer.get? "error" = none := by
  unfold runAnswer at ran
  split at ran
  · rename_i error _
    cases spoken : server.str error with
    | ok shown => simp [spoken, bind, Except.bind, throw, throwThe, MonadExceptOf.throw] at ran
    | error raised => simp [spoken, bind, Except.bind] at ran
  · assumption

/-- An error of the adapter is overlooked exactly where a tool other than `run` hands it on. -/
theorem overlooked_iff : Overlooked server (server.callParams s params) ↔
    Silent server s params := by
  constructor
  · rintro ⟨answer, value, answered, error, result, fits⟩
    obtain ⟨name, args, called, same⟩ | ⟨-, raised, -, same⟩ := callParams_cases server s params
    · rw [same] at answered result
      cases sent : server.sends name args with
      | none =>
          rw [(callTool_of_unsent sent).1] at answered
          cases answered
      | some event =>
          rw [callTool_of_sends sent, ask] at answered result
          cases handled : server.adapter.handleHarnessEvent s event with
          | mk outcome t =>
              rw [handled] at answered result
              cases outcome with
              | error raised => cases answered
              | ok given =>
                  cases answered
                  refine ⟨name, args, event, answer, t, value, called, ?_, sent, handled, error,
                    result, fits⟩
                  rw [← Bool.not_eq_true]
                  intro run
                  dsimp only at result
                  rw [handsOn, if_pos run] at result
                  rw [runAnswer_no_error result] at error
                  cases error
    · rw [same] at answered
      cases answered
  · rintro ⟨name, args, event, answer, t, value, called, -, sent, handled, error, result, fits⟩
    obtain ⟨name', args', called', same⟩ | ⟨none_, -⟩ := callParams_cases server s params
    · rw [called] at called'
      cases called'
      rw [same, callTool_of_sends sent, ask, handled]
      exact ⟨answer, value, rfl, error, result, fits⟩
    · rw [called] at none_
      cases none_

theorem clean_callTool_iff : Clean server (server.callTool s name args).result ↔
    ToolSpoken server s name args := by
  rw [ToolSpoken]
  cases sent : server.sends name args with
  | none => exact (callTool_of_unsent sent).2
  | some event =>
      rw [callTool_of_sends sent, ask]
      dsimp only
      cases server.adapter.handleHarnessEvent s event with
      | mk outcome t => cases outcome <;> exact Iff.rfl

theorem clean_callParams_iff : Clean server (server.callParams s params).result ↔
    Spoken server s params := by
  obtain ⟨name, args, called, same⟩ | ⟨none_, raised, clean, same⟩ :=
    callParams_cases server s params
  · rw [same, clean_callTool_iff]
    constructor
    · intro spoken name' args' called'
      rw [called] at called'
      cases called'
      exact spoken
    · exact fun spoken => spoken name args called
  · rw [same]
    refine iff_of_true clean fun _ _ called => ?_
    rw [none_] at called
    cases called

end Calls

section Messages

/-- The response that the loop sets out to write for a message. -/
def attempt (server : McpServer σ) (s : σ) (req : Dict) : Option Value :=
  match (server.handleRequest s req).1 with
  | .ok resp => resp
  | .error raised =>
    if (req.get "id").isNull then none
    else some (errorOf (req.get "id") (-32603) (text "internal error: " ++ raised))

theorem serveLine_message (read : server.readLine line = .message req) :
    server.serveLine s line = ((attempt server s req).elim (some []) server.write).map
      (·, (server.handleRequest s req).2) := by
  simp only [serveLine, read, attempt]
  match handled : server.handleRequest s req with
  | (.ok none, t) => rfl
  | (.ok (some resp), t) => rfl
  | (.error raised, t) =>
      simp only
      split <;> rfl

/-- The message gets what is owed to it. -/
def Delivered (server : McpServer σ) (req : Dict) : Option Value → Prop
  | none => req.get? "id" = none
  | some resp => (req.get? "id").isSome ∧ (server.write resp).isSome

theorem get_of_get? (carried : req.get? "id" = some id) : req.get "id" = id := by
  simp [Dict.get, carried]

@[simp] theorem idOf_resultOf : idOf (resultOf id result) = some id := by
  simp [idOf, resultOf, record]

@[simp] theorem idOf_errorOf {code : Int} {message : Text} :
    idOf (errorOf id code message) = some id := by
  simp [idOf, errorOf, record]

/-- The error that a message with an unknown method is answered with. -/
def unknownMethod (server : McpServer σ) (id method : Value) : Value :=
  match server.str method with
  | .ok shown => errorOf id (-32601) (text "method not found: " ++ shown)
  | .error raised => errorOf id (-32603) (text "internal error: " ++ raised)

theorem attempt_eq : attempt server s req =
    let method := methodOf req
    let id := req.get "id"
    let requested := requestedVersion (req.get "params")
    if method.isText "initialize" then
      if hashable requested then some (resultOf id (server.initializeResult requested))
      else if id.isNull then none
      else some (errorOf id (-32603) (text "internal error: " ++
        text s!"unhashable type: '{requested.typeName}'"))
    else if method.isText "notifications/initialized" then none
    else if method.isText "ping" then some (resultOf id (record []))
    else if method.isText "tools/list" then some (resultOf id toolsResult)
    else if method.isText "tools/call" then
      some (resultOf id (server.toolResult (server.callParams s (req.get "params")).result))
    else if id.isNull then none
    else some (unknownMethod server id method) := by
  simp only [attempt, handleRequest, methodOf, unknownMethod]
  split_ifs
  all_goals try rfl
  -- What is left is an unknown method, which is shown in the error.
  all_goals cases server.str ((req.get? "method").getD (literal "")) <;> rfl

@[simp] theorem idOf_unknownMethod {method : Value} :
    idOf (unknownMethod server id method) = some id := by
  unfold unknownMethod
  split
  · exact idOf_errorOf
  · exact idOf_errorOf

theorem idOf_attempt {resp : Value} (tried : attempt server s req = some resp) :
    idOf resp = some (req.get "id") := by
  rw [attempt_eq] at tried
  simp only at tried
  split_ifs at tried
  all_goals
    simp only [Option.some.injEq] at tried
    simp only [← tried, idOf_resultOf, idOf_errorOf, idOf_unknownMethod]

theorem answered_iff (read : server.readLine line = .message req) :
    ((∃ t, server.machine.step s line = some t) ∧ Answered req (server.writes s line)) ↔
      Delivered server req (attempt server s req) := by
  simp only [machine, writes, serveLine_message read]
  cases tried : attempt server s req with
  | none =>
      cases carried : req.get? "id" with
      | none => simp [Answered, Delivered, carried]
      | some id => simp [Answered, Delivered, carried]
  | some resp =>
      have own := idOf_attempt tried
      cases wrote : server.write resp with
      | none => simp [Delivered, wrote]
      | some written =>
          obtain ⟨-, rfl⟩ := write_eq_some_iff.mp wrote
          cases carried : req.get? "id" with
          | none => simp [wrote, Answered, Delivered, carried]
          | some id => simp [wrote, Answered, Delivered, carried, own, get_of_get? carried]

theorem delivered_result :
    Delivered server req (some (resultOf (req.get "id") result)) ↔
      (Carries server req fun _ => True) ∧ Takes server result := by
  rw [Delivered, write_resultOf, Option.isSome_iff_exists]
  constructor
  · rintro ⟨⟨id, carried⟩, takes, rest⟩
    exact ⟨⟨id, carried, get_of_get? carried ▸ takes, trivial⟩, rest⟩
  · rintro ⟨⟨id, carried, takes, -⟩, rest⟩
    exact ⟨⟨id, carried⟩, (get_of_get? carried).symm ▸ takes, rest⟩

/-- An error response, which is left out when the id is null. -/
theorem delivered_error {code : Int} {message : Text} :
    Delivered server req (if (req.get "id").isNull then none
      else some (errorOf (req.get "id") code message)) ↔
      req.get? "id" = none ∨ Carries server req fun id =>
        id.isNull = false ∧ encodable message = true := by
  cases carried : req.get? "id" with
  | none =>
      have null : (req.get "id").isNull = true := by simp [Dict.get, carried, Value.isNull]
      simp [null, Delivered, carried]
  | some id =>
      rw [get_of_get? carried]
      cases null : id.isNull with
      | true => simp [Delivered, carried, Carries, null]
      | false => simp [Delivered, carried, Carries, null, write_errorOf]

theorem writes_of_delivered (read : server.readLine line = .message req)
    (delivered : Delivered server req (attempt server s req)) :
    server.writes s line = (attempt server s req).toList := by
  rw [writes, serveLine_message read]
  cases tried : attempt server s req with
  | none => rfl
  | some resp =>
      rw [tried] at delivered
      obtain ⟨written, wrote⟩ := Option.isSome_iff_exists.mp delivered.2
      obtain ⟨-, rfl⟩ := write_eq_some_iff.mp wrote
      rw [Option.elim_some, wrote]
      rfl

theorem flagged_toolResult {answer : Except Text Dict} :
    flagged (resultOf id (server.toolResult answer)) = true ↔
      ∀ value, answer = .ok value → server.dumpable (.obj value) = false := by
  cases answer with
  | error raised => simp [toolResult, flagged, resultOf, record, content]
  | ok value =>
      cases fits : server.dumpable (.obj value) with
      | true => simp [toolResult, flagged, resultOf, record, content, fits]
      | false => simp [toolResult, flagged, resultOf, record, content, fits]

/-- The failures that are not flagged. -/
theorem not_overlooked_iff {called : Called σ} :
    (Fails server called → flagged (resultOf id (server.toolResult called.result)) = true) ↔
      ¬ Overlooked server called := by
  rw [flagged_toolResult]
  constructor
  · rintro told ⟨answer, value, answered, error, result, fits⟩
    have deep := told (.inl ⟨answer, answered, error⟩) value result
    rw [deep] at fits
    cases fits
  · rintro heard (⟨answer, answered, error⟩ | deep)
    · intro value result
      refine Bool.eq_false_iff.mpr fun fits => heard ⟨answer, value, answered, error, result, fits⟩
    · exact deep

theorem reported_iff (read : server.readLine line = .message req)
    (delivered : Delivered server req (attempt server s req)) :
    Reported server s req (server.writes s line) ↔
      ((methodOf req).isText "tools/call" →
        ¬ Silent server s (req.get "params")) := by
  rw [Reported, writes_of_delivered read delivered]
  apply forall_congr'
  intro call
  have method : methodOf req = literal "tools/call" := Value.isText_iff.mp call
  have tried : attempt server s req = some (resultOf (req.get "id")
      (server.toolResult (server.callParams s (req.get "params")).result)) := by
    rw [attempt_eq]
    simp [method, literal, Value.isText]
  rw [tried, Option.toList_some]
  rw [← overlooked_iff]
  simpa using not_overlooked_iff

theorem served_iff_delivered (read : server.readLine line = .message req) :
    Served server s line ↔ Delivered server req (attempt server s req) ∧
      ((methodOf req).isText "tools/call" →
        ¬ Silent server s (req.get "params")) := by
  have own : server.message? line = some req := by simp [message?, read]
  simp only [Served, own, Option.some.injEq, forall_eq']
  rw [← and_assoc, answered_iff read]
  exact and_congr_right fun delivered => reported_iff read delivered

theorem delivered_unknownMethod {method : Value} :
    Delivered server req (if (req.get "id").isNull then none
      else some (unknownMethod server (req.get "id") method)) ↔
      req.get? "id" = none ∨ Carries server req fun id =>
        id.isNull = false ∧ ∀ shown, method = .str shown → encodable shown = true := by
  cases spoken : server.str method with
  | ok shown =>
      simp only [unknownMethod, spoken]
      rw [delivered_error]
      refine or_congr_right (exists_congr fun id => and_congr_right fun _ =>
        and_congr_right fun _ => and_congr_right fun _ => ?_)
      rw [encodable_append, encodable_text, Bool.true_and]
      constructor
      · rintro clean given rfl
        cases spoken
        exact clean
      · exact encodable_str spoken
  | error raised =>
      have other (shown : Text) : method ≠ .str shown := by
        rintro rfl
        cases spoken
      simp only [unknownMethod, spoken]
      rw [delivered_error]
      refine or_congr_right (exists_congr fun id => and_congr_right fun _ =>
        and_congr_right fun _ => and_congr_right fun _ => ?_)
      simp [encodable_str_error spoken, other]

/-- The condition decides whether a message is served. -/
theorem served_message_iff (read : server.readLine line = .message req) :
    Served server s line ↔ SoundMessage server s req := by
  rw [served_iff_delivered read, attempt_eq, SoundMessage]
  by_cases starts : (methodOf req).isText "initialize" = true
  · have method := Value.isText_iff.mp starts
    by_cases hashes : hashable (requestedVersion (req.get "params")) = true
    · simp [method, Value.isText, hashes, delivered_result, takes_initializeResult]
    · simp [method, Value.isText, hashes, delivered_error]
  by_cases initialized : (methodOf req).isText "notifications/initialized" = true
  · have method := Value.isText_iff.mp initialized
    simp [method, Value.isText, Delivered]
  by_cases ping : (methodOf req).isText "ping" = true
  · have method := Value.isText_iff.mp ping
    have empty : Takes server (record []) := takes_of_fixed rfl (by decide)
    simp [method, Value.isText, delivered_result, empty]
  by_cases list : (methodOf req).isText "tools/list" = true
  · have method := Value.isText_iff.mp list
    simp [method, Value.isText, delivered_result, takes_toolsResult]
  by_cases call : (methodOf req).isText "tools/call" = true
  · have method := Value.isText_iff.mp call
    simp [method, Value.isText, delivered_result, takes_toolResult, clean_callParams_iff, and_assoc]
  · simp only [starts, initialized, ping, list, call, if_false, Bool.false_eq_true,
      false_implies, and_true]
    exact delivered_unknownMethod

theorem served_iff_sound : Served server s line ↔ Sound server s line := by
  cases read : server.readLine line with
  | message req =>
      rw [served_message_iff read, Sound, read]
  | tooDeep => simp [Served, Sound, read, machine, serveLine]
  | blank => simp [Served, Sound, read, machine, serveLine, message?]
  | malformed => simp [Served, Sound, read, machine, serveLine, message?]
  | invalid => simp [Served, Sound, read, machine, serveLine, message?]

end Messages

section Loop

variable {lines : List Text}

/-- The ids that the messages of the input carry, in order. -/
def requestIds (server : McpServer σ) (lines : List Text) : List Value :=
  (lines.filterMap server.message?).filterMap fun req => req.get? "id"

/-- The ids of what is written for messages, in order. -/
def answeredIds (server : McpServer σ) (s : σ) (lines : List Text) : List Value :=
  server.machine.log (fun s line =>
    if (server.message? line).isSome then (server.writes s line).filterMap idOf else []) s lines

/-- The loop serves the input: it reads every line, the responses to its messages
carry the ids of the requests in order, and each line is served. -/
structure Serves (server : McpServer σ) (s : σ) (lines : List Text) : Prop where
  consumed : ∃ t, server.machine.run s lines = some t
  inOrder : answeredIds server s lines = requestIds server lines
  each : server.machine.Meets (Served server) s lines

theorem ids_of_served (served : Served server s line) :
    (if (server.message? line).isSome then (server.writes s line).filterMap idOf else []) =
      requestIds server [line] := by
  cases message : server.message? line with
  | none => simp [requestIds, message]
  | some req =>
      have answered := (served.2 req message).1
      simp only [Answered] at answered
      cases carried : req.get? "id" with
      | none =>
          simp only [carried] at answered
          simp [requestIds, message, carried, answered]
      | some id =>
          simp only [carried] at answered
          obtain ⟨resp, wrote, own⟩ := answered
          simp [requestIds, message, carried, wrote, own]

theorem requestIds_cons : requestIds server (line :: lines) =
    requestIds server [line] ++ requestIds server lines := by
  rw [requestIds, requestIds, requestIds, ← List.filterMap_append, ← List.filterMap_append,
    List.singleton_append]

theorem answeredIds_of_meets (each : server.machine.Meets (Served server) s lines) :
    answeredIds server s lines = requestIds server lines := by
  induction lines generalizing s with
  | nil => rfl
  | cons line rest ih =>
      obtain ⟨served, later⟩ := each
      obtain ⟨t, taken⟩ := served.1
      have tail := ih (later t taken)
      rw [requestIds_cons, ← tail, ← ids_of_served served]
      simp only [answeredIds, Machine.log, taken, Option.elim_some]

/-- The loop serves an input exactly when every line of it meets its condition. -/
theorem serves_iff : Serves server s lines ↔ server.machine.Meets (Sound server) s lines := by
  have same : server.machine.Meets (Served server) s lines ↔
      server.machine.Meets (Sound server) s lines := by
    constructor
    · exact fun meets => meets.imp fun s line => served_iff_sound.mp
    · exact fun meets => meets.imp fun s line => served_iff_sound.mpr
  rw [← same]
  constructor
  · exact Serves.each
  · intro each
    refine ⟨Machine.run_ends_iff.mpr (each.imp fun s line served => served.1), ?_, each⟩
    exact answeredIds_of_meets each

end Loop

section Broken

/-- A server whose adapter has no opt-in, and whose input holds one message. -/
def strictServer (line : Text) (req : Dict) : McpServer Unit where
  python :=
    { loads := fun other => if other = line then .value (.obj req) else .valueError
      repr := fun _ => none
      repr_encodable := fun _ _ shown => by cases shown
      int := fun _ => .ok 20
      dict := fun _ => .ok []
      nesting := 900
      roomy := by decide }
  adapter :=
    { handleHarnessEvent := fun _ _ => (.ok [(text "error", literal
        ("agent kind 'cli' requires explicit opt-in on this adapter " ++
          "(default-allowed kinds: ['deepseek', 'echo', 'mock', 'openai'])"))], ())
      registry := fun _ => none
      runs := fun _ => none }
  version := "0.0.0"

theorem sound_of_serves {line : Text} {req : Dict} (trimmed : strip line = line)
    (full : line.isEmpty = false) (serves : Serves (strictServer line req) () [line]) :
    SoundMessage (strictServer line req) () req := by
  refine (served_message_iff ?_).mp serves.each.1
  simp [readLine, trimmed, full, strictServer]

def surrogatePing : Text := text "\x7b\"id\": \"\\ud800\", \"method\": \"ping\"\x7d"

def pingNotification : Text := text "\x7b\"method\": \"ping\"\x7d"

def registerCli : Text :=
  text "\x7b\"id\": 1, \"method\": \"tools/call\", \"params\": \x7b\"name\": \"register\", " ++
    text "\"arguments\": \x7b\"agents\": [\x7b\"kind\": \"cli\"\x7d]\x7d\x7d\x7d"

def registerCliMessage : Dict :=
  [(text "id", .int 1), (text "method", literal "tools/call"),
    (text "params", record [("name", literal "register"),
      ("arguments", record [("agents", .arr [record [("kind", literal "cli")]])])])]

/-- An id with a lone surrogate ends the loop, a `ping` without an id is answered, and
a refused registration is reported as a success. -/
theorem strictServer_breaks :
    ¬ Serves (strictServer surrogatePing
        [(text "id", .str [0xD800]), (text "method", literal "ping")]) () [surrogatePing] ∧
      ¬ Serves (strictServer pingNotification [(text "method", literal "ping")]) ()
        [pingNotification] ∧
      ¬ Serves (strictServer registerCli registerCliMessage) () [registerCli] := by
  refine ⟨?_, ?_, ?_⟩
  · intro serves
    have sound := sound_of_serves (by decide) rfl serves
    obtain ⟨id, carried, takes, -⟩ : Carries _ _ _ := sound
    cases carried
    cases takes.encodable
  · intro serves
    have sound := sound_of_serves (by decide) rfl serves
    obtain ⟨id, carried, -⟩ : Carries _ _ _ := sound
    cases carried
  · intro serves
    have sound := sound_of_serves (by decide) rfl serves
    obtain ⟨-, -, told⟩ : _ ∧ _ ∧ _ := sound
    exact told ⟨_, _, _, _, _, _, rfl, rfl, rfl, rfl, rfl, rfl, rfl⟩

end Broken

end McpServer

end MultiAgent.Plugin.Mcp
