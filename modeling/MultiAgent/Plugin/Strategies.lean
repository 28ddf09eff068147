import MultiAgent.Foundations.Programs
import MultiAgent.Plugin.Consensus
import MultiAgent.Plugin.Context
import MultiAgent.Plugin.Parallel
import MultiAgent.Plugin.Planning
import MultiAgent.Plugin.Scheduler.Model

/-!
# The strategies

`strategies.py`: the six strategies as programs over the memory of the coordinator. The
statements that read or change what a run shares with others are numbered. What others have
done to the memory before a statement, which agents are registered there, which policy is set
and what its calls meet are given by its number, so a theorem about all environments is one
about all interleavings. `str` of a value that is no string and `str.lower` are parameters, and
`rounds` is given with what `int` makes of it. The metadata of a result is left out.
-/

namespace MultiAgent.Plugin

namespace Strategies

/-- What leaves a strategy but a result. -/
inductive Raised where
  | strategyError (text : String)
  | agentNotFound (text : String)
  | runTimeout
  | budgetExceeded
  | typeError
  | overflow
  /-- Another exception of a submit or a call. -/
  | other (text : String)
  /-- `int(rounds)` -/
  | valueError
  /-- The first of no names. -/
  | indexError
  | keyError (key : String)
  | planning (error : Planning.Raised)
  | scheduler (error : PyException)
  /-- The run has not come past the scheduler. -/
  | scheduling
  deriving DecidableEq

def Raised.ofParallel : Parallel.Raised → Raised
  | .runTimeout => .runTimeout
  | .budgetExceeded => .budgetExceeded
  | .typeError => .typeError
  | .overflow => .overflow
  | .other text => .other text

/-- What a run does to the memory and asks of the agents, and what others do to the memory. -/
inductive Act where
  | others (operation : MessageStore.Operation)
  /-- `_record` -/
  | record (role : String) (content : Json) (agent : Option String)
  /-- A message for an agent, and its context. -/
  | ask (agent : String) (message : Json) (context : Option (List ChatMessage))

def Act.operation : Act → Option MessageStore.Operation
  | .others operation => some operation
  | .record role content agent => some (.add role content agent [])
  | .ask _ _ _ => none

/-- What a run meets at its statements. -/
structure Environment where
  /-- What others have done to the memory since the statement before. -/
  others : Nat → List MessageStore.Operation
  /-- The registered agents, in the order of their registration. -/
  agents : Nat → List String
  distinct : ∀ k, (agents k).Nodup
  capabilities : Nat → String → Option (Finset String)
  policy : Nat → Option ContextPolicy
  calls : Nat → Parallel.Environment Json
  /-- How deeply `json.loads` nests. -/
  depth : Nat
  /-- The events of a run of the scheduler. -/
  schedule : Nat → List (TaskScheduler.Event Json)

/-- The memory is what the acts make of the memory at the start. -/
structure World (repr : Json → String) (shared : MessageStore) where
  memory : MessageStore
  /-- The number of the next statement. -/
  clock : Nat
  acts : List Act
  replayed : memory = (acts.filterMap Act.operation).foldl (MessageStore.apply repr) shared

namespace World

variable {repr : Json → String} {shared : MessageStore}

def start (repr : Json → String) (shared : MessageStore) : World repr shared := ⟨shared, 0, [], rfl⟩

theorem replayed_append {w : World repr shared} (act : Act) :
    act.operation.elim w.memory (w.memory.apply repr) =
      ((w.acts ++ [act]).filterMap Act.operation).foldl (MessageStore.apply repr) shared := by
  rw [List.filterMap_append, List.foldl_append, ← w.replayed, List.filterMap_cons,
    List.filterMap_nil]
  cases act.operation <;> rfl

def act (w : World repr shared) (act : Act) : World repr shared :=
  ⟨act.operation.elim w.memory (w.memory.apply repr), w.clock, w.acts ++ [act], replayed_append act⟩

def tick (w : World repr shared) : World repr shared := { w with clock := w.clock + 1 }

end World

abbrev Run (repr : Json → String) (shared : MessageStore) := EStateM Raised (World repr shared)

/-- An entry `{"step": i, "agent": name, "response": resp}`. -/
structure Step where
  step : Nat
  agent : String
  response : Json

/-- An entry of `rounds`. -/
inductive Record where
  | step (step : Step)
  | round (round : Nat) (kind : String) (responses : Dict String Json)
  | relay (round : Nat) (steps : List Step) (converged : Bool)
  /-- The steps `judge`, `plan` and `report`. -/
  | named (step agent : String) (response : Json)
  | propose (responses : Dict String Json)
  | vote (votes : Dict String Json)
  | winner (winner : String) (votes : Dict String Nat) (response : Json)
  | verdict (judge : String) (votes : Dict String Nat) (response : Json)
  /-- The results are given with their tasks. -/
  | work (subtasks : List String) (assigned : Dict String (List String))
      (results : Dict String Json) (tasks : List (Task × TaskResult Json))
      (format : String) (notes : List Planning.Note)

structure Result where
  strategy : String
  prompt : Json
  rounds : List Record
  final : Json

/-- `_is_error` -/
def isError : Json → Bool
  | .obj fields => Object.has fields "error"
  | _ => false

/-- `{"error": "timeout"}` -/
def timeoutError : Json := .obj [("error", .str "timeout")]

section Calls

/-- `_call_agent`, whose call has the number 0 of the waits of `env`. -/
def callOutcome (env : Parallel.Environment Json) (agent : String) (timeout : Option ℚ) :
    Except Parallel.Raised Json := do
  let outcome : Except Parallel.Raised Json :=
    match env.outcome agent with
    | .value value => .ok value
    | .budgetExceeded => .error .budgetExceeded
    | .raised text => .error (.other text)
  match ← Parallel.clampTimeout env timeout with
  | none => outcome
  | some timeout =>
    let expire : Except Parallel.Raised Json :=
      if Parallel.runBinds env (some timeout) then .error .runTimeout else .ok timeoutError
    match env.submit agent with
    | .raised text => .error (.other text)
    | .saturated => expire
    | .accepted =>
      if (env.blocks 0 || !env.done 0 agent) && decide (env.longest < timeout) then
        .error .overflow
      else if env.done 0 agent then outcome
      else expire

/-- What `_parallel` puts into its mapping for an answer. -/
def responseOf : Parallel.Answer Json → Json
  | .value value => value
  | .timeout => timeoutError

/-- The mapping of `_parallel`. -/
def responsesOf (results : Dict String (Parallel.Answer Json)) : Dict String Json where
  entries := results.entries.map fun entry => (entry.1, responseOf entry.2)
  distinct := by
    rw [List.map_map]
    exact results.distinct

end Calls

section Statements

variable {repr : Json → String} {shared : MessageStore} (env : Environment)

/-- A statement begins: others have had their turn. -/
def moment : Run repr shared Nat := fun w =>
  .ok w.clock ((env.others w.clock).foldl (fun w operation => w.act (.others operation)) w).tick

/-- `coord.agents` -/
def agents : Run repr shared (List String) := do return env.agents (← moment env)

/-- The names in the order that is given, else those of the registered agents. -/
def turns (order : List String) : Run repr shared (List String) :=
  if order = [] then agents env else pure order

/-- `coord.get_agent(name) is not None` -/
def isRegistered (name : String) : Run repr shared Bool := do
  return decide (name ∈ env.agents (← moment env))

/-- `[n for n in names if coord.get_agent(n) is None]` -/
def missing : List String → Run repr shared (List String)
  | [] => pure []
  | name :: rest => do
    let known ← isRegistered env name
    let later ← missing rest
    return if known then later else name :: later

/-- `_policy` -/
def policy : Run repr shared (Option ContextPolicy) := do return env.policy (← moment env)

/-- `_max_chars` -/
def maxChars : Run repr shared (Option Int) := do
  return (← policy env).bind ContextPolicy.maxChars

/-- `_record` -/
def record (role : String) (content : Json) (agent : Option String) : Run repr shared Unit := do
  let _ ← moment env
  modify fun w => w.act (.record role content agent)

/-- `_call_agent` -/
def callAgent (agent : String) (message : Json) (timeout : Option ℚ) : Run repr shared Json := do
  let k ← moment env
  modify fun w => w.act (.ask agent message none)
  match callOutcome (env.calls k) agent timeout with
  | .ok response => return response
  | .error raised => throw (.ofParallel raised)

/-- The calls of `_parallel`, with the context of each agent. -/
def askAll (message : Json) (contexts : String → Option (List ChatMessage)) :
    List String → Run repr shared Unit
  | [] => pure ()
  | agent :: rest => do
    modify fun w => w.act (.ask agent message (contexts agent))
    askAll message contexts rest

/-- `_parallel` of the registered agents. -/
def parallel (message : Json) (contexts : String → Option (List ChatMessage))
    (timeout : Option ℚ) : Run repr shared (Dict String Json) := do
  let k ← moment env
  askAll message contexts (env.agents k)
  match Parallel.parallel (env.calls k) (env.agents k) timeout with
  | .ok (results, _) => return responsesOf results
  | .error raised => throw (.ofParallel raised)

/-- `_record` of what a response comes to, unless it is an error. -/
def recordSound (response content : Json) (agent : String) : Run repr shared Unit :=
  if isError response then pure () else record env "assistant" content (some agent)

/-- The loop that records the responses. -/
def recordAll : List (String × Json) → Run repr shared Unit
  | [] => pure ()
  | (name, response) :: rest => do
    recordSound env response response name
    recordAll rest

/-- An `or` of texts. -/
def textOr (text : Option String) (default : String) : String :=
  match text with
  | some text => if text = "" then default else text
  | none => default

end Statements

section Texts

variable (repr : Json → String)

/-- `_join` -/
def join (responses : Dict String Json) (fallback : Json) : Json :=
  match (responses.values.filter fun response => !isError response).map (Json.toStr repr) with
  | [] => fallback
  | parts => .str ("\n\n".intercalate parts)

/-- `_format_statements` -/
def formatStatements (responses : Dict String Json) : String :=
  "\n\n".intercalate ((responses.entries.filter fun entry => !isError entry.2).map fun entry =>
    "[" ++ entry.1 ++ "]: " ++ entry.2.toStr repr)

/-- The message of a step of a relay. -/
def relayMessage (prompt : Json) (draft : String) (maxChars : Option Int) : String :=
  truncate ("原始任务：" ++ prompt.toStr repr ++ "\n\n当前草稿：\n" ++ draft ++
    "\n\n要求：请改进下面这份草稿，只输出改进后的完整草稿。") maxChars

/-- What a step adds to a transcript. -/
def line (step : Step) : String := "\n\n[" ++ step.agent ++ "]: " ++ step.response.toStr repr

def judgeInput (prompt : Json) (responses : Dict String Json) (maxChars : Option Int) : String :=
  truncate (prompt.toStr repr ++ "\n\n以下是各位辩手的观点:\n" ++
    formatStatements repr responses ++
    "\n\n请以裁判身份综合所有观点，给出最终结论与理由。") maxChars

def votePrompt (prompt : Json) (proposals : Dict String Json) (maxChars : Option Int) : String :=
  prompt.toStr repr ++ "\n\n候选方案:\n" ++ truncate (formatStatements repr proposals) maxChars ++
    "\n\n请投票选出最佳方案，输出格式: vote:<agent_name>"

/-- A list of names in the text of an error. -/
def listed (names : List String) : String := repr (.arr (names.map .str))

end Texts

section Chains

variable {repr : Json → String} {shared : MessageStore} (env : Environment)

/-- A loop of `run_broadcast`, with the number of its rounds that are left. -/
def broadcastRounds (prompt : Json) (maxChars : Option Int) (timeout : Option ℚ) :
    Nat → Nat → Json → Run repr shared (List Record × Json)
  | 0, _, last => pure ([], last)
  | left + 1, r, last => do
    let responses ← parallel env last (fun _ => none) timeout
    recordAll env responses.entries
    let joined := join repr responses last
    let fed : Json :=
      if maxChars.isSome ∧ left ≠ 0 then
        .str (truncate (prompt.toStr repr ++ "\n\n" ++ joined.toStr repr) maxChars)
      else joined
    let (records, last) ← broadcastRounds prompt maxChars timeout left (r + 1) fed
    return (.round r "broadcast" responses :: records, last)

def runBroadcast (prompt : Json) (rounds : Except Raised Int) (timeout : Option ℚ) :
    Run repr shared Result := do
  let maxChars ← maxChars env
  match rounds with
  | .error raised => throw raised
  | .ok rounds =>
    record env "user" prompt none
    let (records, last) ←
      broadcastRounds env prompt maxChars timeout (max 1 rounds).toNat 1 prompt
    return ⟨"broadcast", prompt, records, last⟩

/-- The loop of `run_sequential`, with the transcript of each agent. -/
def sequentialSteps (maxChars : Option Int) (timeout : Option ℚ) :
    Nat → String → List String → Run repr shared (List Step)
  | _, _, [] => pure []
  | i, transcript, name :: rest => do
    let response ← callAgent env name (.str transcript) timeout
    recordSound env response response name
    let next := truncate (transcript ++ line repr ⟨i, name, response⟩) maxChars
    let steps ← sequentialSteps maxChars timeout (i + 1) next rest
    return ⟨i, name, response⟩ :: steps

def runSequential (prompt : Json) (order : List String) (timeout : Option ℚ) :
    Run repr shared Result := do
  let names ← turns env order
  let unknown ← missing env names
  if unknown ≠ [] then
    throw (.agentNotFound ("sequential: unknown agents in order: " ++ listed repr unknown))
  else
    let maxChars ← maxChars env
    record env "user" prompt none
    let steps ← sequentialSteps env maxChars timeout 1 (prompt.toStr repr) names
    let final := (steps.getLast?.map Step.response).getD prompt
    return ⟨"sequential", prompt, steps.map .step, .str (final.toStr repr)⟩

/-- A round of `run_relay`, with the draft of each agent. -/
def relayRound (prompt : Json) (maxChars : Option Int) (timeout : Option ℚ) :
    Nat → String → List String → Run repr shared (List Step × String)
  | _, draft, [] => pure ([], draft)
  | i, draft, name :: rest => do
    let message := relayMessage repr prompt draft maxChars
    let response ← callAgent env name (.str message) timeout
    let next := if isError response then draft else response.toStr repr
    recordSound env response (.str next) name
    let (steps, last) ← relayRound prompt maxChars timeout (i + 1) next rest
    return (⟨i, name, response⟩ :: steps, last)

/-- The loop of `run_relay`, with the number of its rounds that are left. -/
def relayRounds (prompt : Json) (maxChars : Option Int) (timeout : Option ℚ)
    (names : List String) : Nat → Nat → String → Run repr shared (List Record × String)
  | 0, _, draft => pure ([], draft)
  | left + 1, r, draft => do
    let (steps, last) ← relayRound env prompt maxChars timeout 1 draft names
    if last = draft then return ([.relay r steps true], last)
    else
      let (records, final) ← relayRounds prompt maxChars timeout names left (r + 1) last
      return (.relay r steps false :: records, final)

def runRelay (prompt : Json) (rounds : Except Raised Int) (order : List String)
    (timeout : Option ℚ) : Run repr shared Result := do
  let names ← turns env order
  if names.length < 2 then throw (.strategyError "relay needs at least two agents")
  else
    let unknown ← missing env names
    if unknown ≠ [] then
      throw (.agentNotFound ("relay: unknown agents in order: " ++ listed repr unknown))
    else
      let maxChars ← maxChars env
      record env "user" prompt none
      match rounds with
      | .error raised => throw raised
      | .ok rounds =>
        let (records, draft) ← relayRounds env prompt maxChars timeout names (max 1 rounds).toNat 1
          (prompt.toStr repr)
        return ⟨"relay", prompt, records, .str draft⟩

end Chains

section Discussions

variable {repr : Json → String} {shared : MessageStore} (env : Environment)

/-- The contexts of a round of a debate. -/
def debateContexts (repr : Json → String) (prompt : Json) (policy : Option ContextPolicy)
    (names : List String) (memory : MessageStore) (name : String) : Option (List ChatMessage) :=
  match policy with
  | some policy =>
    if name ∈ names then some (debateContext repr memory prompt (some policy) name) else none
  | none => some (debateContext repr memory prompt none name)

/-- The loop of `run_debate`, with the number of its rounds that are left and the responses of
the round before. -/
def debateRounds (prompt : Json) (policy : Option ContextPolicy) (timeout : Option ℚ)
    (names : List String) :
    Nat → Nat → Dict String Json → Run repr shared (List Record × Dict String Json)
  | 0, _, responses => pure ([], responses)
  | left + 1, r, _ => do
    let _ ← moment env
    let w ← get
    let responses ←
      parallel env prompt (debateContexts repr prompt policy names w.memory) timeout
    recordAll env responses.entries
    let (records, last) ← debateRounds prompt policy timeout names left (r + 1) responses
    return (.round r "debate" responses :: records, last)

/-- The name of the judge. -/
def judgeName (judge : Option String) (names : List String) : String :=
  textOr judge (if "judge" ∈ names then "judge" else names.headD "")

def runDebate (prompt : Json) (rounds : Except Raised Int) (judge : Option String)
    (timeout : Option ℚ) : Run repr shared Result := do
  let names ← agents env
  if names.length < 2 then throw (.strategyError "debate needs at least two agents")
  else
    let policy ← policy env
    let maxChars ← maxChars env
    record env "user" prompt none
    match rounds with
    | .error raised => throw raised
    | .ok rounds =>
      let (records, last) ←
        debateRounds env prompt policy timeout names (max 1 rounds).toNat 1 .empty
      let judge := judgeName judge names
      let known ← isRegistered env judge
      if known then
        let final ← callAgent env judge (.str (judgeInput repr prompt last maxChars)) timeout
        recordSound env final final judge
        return ⟨"debate", prompt, records ++ [.named "judge" judge final],
          .str (final.toStr repr)⟩
      else throw (.agentNotFound ("debate: judge agent '" ++ judge ++ "' not registered"))

/-- A response as the votes are read off it. -/
def ballotOf (repr : Json → String) (response : Json) : Consensus.Response :=
  ⟨response.toStr repr, isError response⟩

def runConsensus (lower : String → String) (prompt : Json) (judge : Option String)
    (timeout : Option ℚ) : Run repr shared Result := do
  let names ← agents env
  if names.length < 2 then throw (.strategyError "consensus needs at least two agents")
  else
    let maxChars ← maxChars env
    record env "user" prompt none
    let proposals ← parallel env prompt (fun _ => none) timeout
    recordAll env proposals.entries
    let votePrompt := votePrompt repr prompt proposals maxChars
    let votes ← parallel env (.str votePrompt) (fun _ => none) timeout
    let counts := Consensus.counts lower names (votes.values.map (ballotOf repr))
    let winner := Consensus.declared lower names
      (fun name => ballotOf repr ((proposals.get? name).getD .null))
      (votes.values.map (ballotOf repr))
    match winner with
    | some winner =>
      match proposals.get? winner with
      | some final =>
        return ⟨"consensus", prompt,
          [.propose proposals, .vote votes, .winner winner counts final],
          .str (final.toStr repr)⟩
      | none => throw (.keyError winner)
    | none =>
      let judge := judgeName judge names
      let _ ← moment env
      let verdict ← callAgent env judge
        (.str (votePrompt ++ "\n\n请作为裁判，综合所有方案与投票，直接给出最终答案。")) timeout
      recordSound env verdict verdict judge
      return ⟨"consensus", prompt, [.propose proposals, .vote votes, .verdict judge counts verdict],
        .str (verdict.toStr repr)⟩

end Discussions

section Supervision

variable {repr : Json → String} {shared : MessageStore} (env : Environment)

/-- `PLAN_INSTRUCTIONS` -/
def planInstructions : String :=
  "请把上面的任务分解为一个 JSON 任务计划，格式如下（只输出 JSON，不要其他文字）：\n" ++
  "\x7b\n  \"tasks\": [\n    \x7b\n      \"id\": \"task_1\",\n" ++
  "      \"description\": \"子任务描述\",\n" ++
  "      \"agent\": \"worker 名称（可留空，由系统自动分配）\",\n" ++
  "      \"depends_on\": [\"前置任务的 id，没有依赖则为空数组\"],\n" ++
  "      \"required_capabilities\": [\"该子任务需要的能力，如 research/coding/analysis\"]\n" ++
  "    \x7d\n  ]\n\x7d\n子任务应当数量适中（通常 2-6 个）；可以并行的工作不要人为制造依赖。"

def planPrompt (prompt : String) : String := prompt ++ "\n\n" ++ planInstructions

/-- `str` of an optional text. -/
def optionText : Option String → String
  | some text => text
  | none => "None"

/-- `format_task_results` -/
def formatTaskResults (repr : Json → String) (results : Dict String (TaskResult Json))
    (tasks : List Task) : String :=
  "\n\n".intercalate (tasks.filterMap fun task =>
    (results.get? task.id).map fun result =>
      "[" ++ task.id ++ "][" ++ optionText result.agent ++ "] " ++
        if result.status = .success then (result.output.getD .null).toStr repr
        else "未完成（" ++ result.status.value ++ ": " ++ optionText result.error ++ "）")

/-- `results[task.id]` for the tasks of the plan. -/
def resultsOf (results : Dict String (TaskResult Json)) :
    List Task → Except Raised (List (Task × TaskResult Json))
  | [] => .ok []
  | task :: rest =>
    match results.get? task.id with
    | none => .error (.keyError task.id)
    | some result => (resultsOf results rest).map ((task, result) :: ·)

/-- `result.agent or task.agent` -/
def agentOf (task : Task) (result : TaskResult Json) : Option String :=
  match result.agent with
  | some agent => if agent = "" then task.agent else some agent
  | none => task.agent

/-- The loop that records the results of the tasks. -/
def recordResults : List (Task × TaskResult Json) → Run repr shared Unit
  | [] => pure ()
  | (task, result) :: rest =>
    if result.status = .success then do
      record env "assistant" (result.output.getD .null) (agentOf task result)
      recordResults rest
    else recordResults rest

/-- `assigned` -/
def assigned (views : List (Task × TaskResult Json)) : Dict String (List String) :=
  views.foldl (fun assigned view =>
    match view.2.agent.filter fun agent => decide (agent ≠ "") with
    | some agent => assigned.set agent ((assigned.get? agent).getD [] ++ [view.1.description])
    | none => assigned) .empty

/-- The entry of `worker_results` for a worker. -/
def workerResult (repr : Json → String) (views : List (Task × TaskResult Json)) (worker : String) :
    Json :=
  match views.filterMap fun view =>
      if view.1.agent = some worker ∧ view.2.status = .success then
        some ((view.2.output.getD .null).toStr repr)
      else none with
  | [] => .obj [("error", .str "no successful tasks")]
  | outputs => .str ("\n".intercalate outputs)

/-- `worker_results` -/
def workerResults (repr : Json → String) (views : List (Task × TaskResult Json)) :
    Dict String Json :=
  (assigned views).keys.foldl (fun results worker =>
    results.set worker (workerResult repr views worker)) .empty

/-- The run of the scheduler. -/
def execute (scheduler : TaskScheduler) (plan : TaskPlan) :
    Run repr shared (Dict String (TaskResult Json)) := do
  let k ← moment env
  let deadline := scheduler.runDeadline (env.calls k).runDeadline
  let ended := (TaskScheduler.machine scheduler deadline).run
    (TaskScheduler.start plan fun _ => .pending) (env.schedule k)
  match ended.bind TaskScheduler.execute with
  | some (.ok results) => return results
  | some (.error exception) => throw (.scheduler exception)
  | none => throw .scheduling

def reportInput (repr : Json → String) (prompt : Json) (results : Dict String (TaskResult Json))
    (tasks : List Task) (maxChars : Option Int) : String :=
  prompt.toStr repr ++ "\n\n子任务完成情况:\n" ++
    truncate (formatTaskResults repr results tasks) maxChars ++
    "\n\n请综合所有子任务结果，给出最终的完整回答。"

/-- The name of the supervisor. -/
def supervisorName (supervisor : Option String) (names : List String) : Except Raised String :=
  match supervisor.filter fun name => decide (name ≠ "") with
  | some name => .ok name
  | none =>
    if "supervisor" ∈ names then .ok "supervisor"
    else match names with
      | name :: _ => .ok name
      | [] => .error .indexError

/-- The plan of a text. -/
def parsePlan (floats : Json.Format) (depth : Nat) (repr : Json → String) (set : SetIteration)
    (text prompt : String) (router : Planning.WorkerRouter) :
    Except Raised (TaskPlan × String × List Planning.Note) :=
  match Planning.parsePlan floats depth repr set text prompt router false 2 with
  | .error error => .error (.planning error)
  | .ok (tasks, format, notes) =>
    match TaskPlan.new set.iter tasks with
    | .error error => .error (.planning (.planValidation error))
    | .ok plan => .ok (plan, format, notes)

/-- The part of `run_supervisor` behind its checks. -/
def supervise (floats : Json.Format) (set : SetIteration) (prompt : Json) (sup : String)
    (workers : List String) (timeout : Option ℚ) : Run repr shared Result := do
  record env "user" prompt none
  let maxChars ← maxChars env
  let planned ← callAgent env sup (.str (planPrompt (prompt.toStr repr))) timeout
  recordSound env planned planned sup
  let k ← moment env
  match parsePlan floats env.depth repr set (planned.toStr repr) (prompt.toStr repr)
      ⟨workers, env.capabilities k⟩ with
  | .error raised => throw raised
  | .ok (plan, format, notes) =>
    let results ← execute env ⟨none, timeout, (env.calls k).runDeadline⟩ plan
    match resultsOf results plan.tasks with
    | .error raised => throw raised
    | .ok views =>
      recordResults env views
      let report ← callAgent env sup (.str (reportInput repr prompt results plan.tasks maxChars))
        timeout
      recordSound env report report sup
      return ⟨"supervisor", prompt,
        [.named "plan" sup planned,
          .work (plan.tasks.map Task.description) (assigned views) (workerResults repr views) views
            format notes,
          .named "report" sup report],
        .str (report.toStr repr)⟩

/-- `run_supervisor`; a plan without lines describes the text of the prompt. -/
def runSupervisor (floats : Json.Format) (set : SetIteration) (prompt : Json)
    (supervisor : Option String) (workers : List String) (timeout : Option ℚ) :
    Run repr shared Result := do
  let names ← agents env
  match supervisorName supervisor names with
  | .error raised => throw raised
  | .ok sup =>
    let known ← isRegistered env sup
    if known then
      let workers :=
        if workers = [] then names.filter fun name => decide (name ≠ sup) else workers
      if workers = [] then
        throw (.strategyError
          "supervisor strategy needs at least one worker besides the supervisor")
      else
        let unknown ← missing env workers
        if unknown ≠ [] then
          throw (.agentNotFound ("supervisor: unknown worker agents: " ++ listed repr unknown))
        else supervise env floats set prompt sup workers timeout
    else throw (.agentNotFound ("supervisor: agent '" ++ sup ++ "' not registered"))

end Supervision

/-- The options of a run; without `rounds` each strategy has its own default. -/
structure Options where
  rounds : Option (Except Raised Int)
  order : List String
  judge : Option String
  supervisor : Option String
  workers : List String
  timeout : Option ℚ

/-- The names of the strategies, sorted. -/
def strategyNames : List String :=
  ["broadcast", "consensus", "debate", "relay", "sequential", "supervisor"]

/-- `run_strategy` -/
def runStrategy {repr : Json → String} {shared : MessageStore} (env : Environment)
    (lower : String → String) (floats : Json.Format) (set : SetIteration)
    (strategy : String) (prompt : Json) (options : Options) : Run repr shared Result :=
  match lower strategy with
  | "broadcast" => runBroadcast env prompt (options.rounds.getD (.ok 1)) options.timeout
  | "sequential" => runSequential env prompt options.order options.timeout
  | "debate" => runDebate env prompt (options.rounds.getD (.ok 3)) options.judge options.timeout
  | "supervisor" =>
    runSupervisor env floats set prompt options.supervisor options.workers options.timeout
  | "consensus" => runConsensus env lower prompt options.judge options.timeout
  | "relay" => runRelay env prompt (options.rounds.getD (.ok 2)) options.order options.timeout
  | _ => throw (.strategyError ("Unknown strategy: " ++ strategy ++ " (available: " ++
      listed repr strategyNames ++ ")"))

end Strategies

end MultiAgent.Plugin
