import MultiAgent.Native.Planner.Routing
import MultiAgent.Native.Scheduler.Model

/-!
# Strategies and their reports

`strategies/contract.ts` and the three strategies beside it. `strategyEnvelope`
counts what the tasks of a report ended with. A broadcast schedules tasks without
dependencies and reports the outcomes of the scheduler. A sequential run and a relay
schedule a chain of tasks; their reports take the outcome that a task recorded when
it executed, and for a task that did not execute the one of the scheduler.
-/

namespace MultiAgent.Native

/-- `text.startsWith(start)` -/
def startsWith (text start : String) : Bool := start.toList.isPrefixOf text.toList

theorem startsWith_iff {text start : String} :
    startsWith text start = true ↔ ∃ rest, text.toList = start.toList ++ rest := by
  rw [startsWith, List.isPrefixOf_iff_prefix]
  exact ⟨fun ⟨rest, same⟩ => ⟨rest, same.symm⟩, fun ⟨rest, same⟩ => ⟨rest, same.symm⟩⟩

/-- A text that is long enough decides by itself. -/
theorem startsWith_append (text rest start : String)
    (long : start.toList.length ≤ text.toList.length) :
    startsWith (text ++ rest) start = startsWith text start := by
  rw [Bool.eq_iff_iff, startsWith, startsWith, List.isPrefixOf_iff_prefix,
    List.isPrefixOf_iff_prefix, String.toList_append]
  constructor
  · intro whole
    exact List.prefix_of_prefix_length_le whole (List.prefix_append _ _) long
  · exact fun part => part.trans (List.prefix_append _ _)

inductive StrategyRunStatus where
  | success
  /-- `'partial'` -/
  | partway
  | failed
  | cancelled
  deriving DecidableEq, Repr

structure StrategyTask where
  taskId : String
  agentId : String
  status : TaskOutcomeStatus
  text : Option String
  error : Option String
  deriving DecidableEq, Repr

structure StrategyError where
  taskId : String
  error : String
  deriving DecidableEq, Repr

structure StrategyMetadata where
  taskCount : Nat
  completed : Nat
  failed : Nat
  cancelled : Nat
  timedOut : Nat
  deriving DecidableEq, Repr

structure StrategyReport where
  strategy : SupervisorStrategy
  status : StrategyRunStatus
  ok : Bool
  stopped : Bool
  tasks : List StrategyTask
  outputs : List String
  errors : List StrategyError
  metadata : StrategyMetadata
  deriving DecidableEq, Repr

/-- The text of an outcome status inside a message. -/
def TaskOutcomeStatus.label (status : TaskOutcomeStatus) : String := status.toTaskStatus.text

def timeoutErrorPrefix : String := "timeout"

def StrategyTask.timedOut (task : StrategyTask) : Bool :=
  task.error.any fun error => startsWith error timeoutErrorPrefix

/-- The loop of `strategyEnvelope` on its counters and its two lists. -/
def tallyTask (counts : StrategyMetadata × List String × List StrategyError)
    (task : StrategyTask) : StrategyMetadata × List String × List StrategyError :=
  let (metadata, outputs, errors) := counts
  let failure : StrategyError := ⟨task.taskId, task.error.getD task.status.label⟩
  match task.status with
  | .completed =>
    ({ metadata with completed := metadata.completed + 1 }, outputs ++ task.text.toList, errors)
  | .failed =>
    ({ metadata with
        failed := metadata.failed + 1
        timedOut := if task.timedOut then metadata.timedOut + 1 else metadata.timedOut },
      outputs, errors ++ [failure])
  | .cancelled =>
    ({ metadata with cancelled := metadata.cancelled + 1 }, outputs, errors ++ [failure])

def strategyEnvelope (strategy : SupervisorStrategy) (stopped : Bool)
    (tasks : List StrategyTask) : StrategyReport :=
  let (metadata, outputs, errors) := tasks.foldl tallyTask (⟨tasks.length, 0, 0, 0, 0⟩, [], [])
  let status : StrategyRunStatus :=
    if stopped then .cancelled
    else if metadata.completed = tasks.length then .success
    else if 0 < metadata.completed then .partway
    else .failed
  { strategy, status, ok := decide (status = .success), stopped, tasks, outputs, errors, metadata }

structure BroadcastEntry where
  agentId : String
  taskId : String
  status : TaskOutcomeStatus
  text : Option String
  error : Option String
  deriving DecidableEq, Repr

structure BroadcastReport extends StrategyReport where
  responses : List BroadcastEntry
  joined : String
  deriving DecidableEq, Repr

structure SequentialStepResult where
  index : Nat
  taskId : String
  agentId : String
  status : TaskOutcomeStatus
  text : Option String
  error : Option String
  durationMs : Int
  deriving DecidableEq, Repr

structure SequentialReport extends StrategyReport where
  steps : List SequentialStepResult
  final : Option String
  deriving DecidableEq, Repr

structure RelayTurn where
  index : Nat
  taskId : String
  agentId : String
  status : TaskOutcomeStatus
  input : String
  output : Option String
  error : Option String
  durationMs : Int
  deriving DecidableEq, Repr

structure RelayReport extends StrategyReport where
  draft : String
  turns : List RelayTurn
  deriving DecidableEq, Repr

/-- What `graph.add` throws: the exception of the `Task` constructor, or its own. -/
inductive AddError where
  | task (error : TypeError)
  | graph (error : GraphError)
  deriving DecidableEq, Repr

/-- `graph.add(spec)` -/
def TaskGraph.addSpec (g : TaskGraph) (spec : TaskSpec) : Except AddError TaskGraph :=
  match Task.new spec with
  | .error error => .error (.task error)
  | .ok task =>
    match g.add task with
    | .error error => .error (.graph error)
    | .ok g => .ok g

/-- The task of one link of a chain; its id names the strategy and the position. -/
def chainSpec (label : String) (index : Nat) (agentId prompt : String)
    (timeoutMs : Option JsNumber) : TaskSpec where
  id := s!"{label}-{index}"
  agentId := agentId
  prompt := prompt
  dependsOn := some (if index = 0 then [] else [s!"{label}-{index - 1}"])
  timeoutMs := timeoutMs

/-- What a strategy has when the run of its scheduler returned. -/
structure Scheduled where
  graph : TaskGraph
  state : Scheduler.RunState
  report : SchedulerReport

/-- `await scheduler.run(graph, signal)` inside a strategy, when the scheduler takes the
events `es` and has returned behind them. The planner layer sets no concurrency. -/
def schedule (graph : Except AddError TaskGraph) (signalAborted : Bool)
    (es : List Scheduler.Event) : Option Scheduled :=
  let scheduler : Scheduler := ⟨none, Scheduler.positive_none⟩
  match graph with
  | .error _ => none
  | .ok g =>
    match scheduler.run none g (fun _ => .pending) signalAborted with
    | .error _ => none
    | .ok started =>
      match (scheduler.machine g).run started es with
      | none => none
      | some s =>
        match s.control with
        | .returned report => some ⟨g, s, report⟩
        | _ => none

namespace Sequential

def graph (steps : List SequentialStep) : Except AddError TaskGraph :=
  (steps.mapIdx fun index step =>
    chainSpec "seq" index step.agentId step.prompt step.timeoutMs).foldlM
      TaskGraph.addSpec TaskGraph.empty

/-- The map `results`, by task id: `executeStep` records the outcome with which
the execution of its task resolved. -/
def record (results : String → Option TaskOutcome) : Scheduler.Event → String → Option TaskOutcome
  | .resolve id (.fulfilled outcome) => Function.update results id (some outcome)
  | _ => results

def recorded (es : List Scheduler.Event) : String → Option TaskOutcome :=
  es.foldl record fun _ => none

/-- The entry of a step that did not execute. -/
def unexecuted (status : TaskStatus) (outcome : Option TaskOutcome) (index : Nat) (task : Task) :
    SequentialStepResult where
  index := index
  taskId := task.id
  agentId := task.agentId
  status := if status = .cancelled then .cancelled else .failed
  text := none
  error := some ((outcome.bind TaskOutcome.error).getD status.text)
  durationMs := (outcome.map TaskOutcome.durationMs).getD 0

def stepResult (results : String → Option TaskOutcome) (status : TaskGraph.Statuses)
    (report : SchedulerReport) (index : Nat) (task : Task) : SequentialStepResult :=
  match results task.id with
  | some outcome =>
    { index, taskId := task.id, agentId := task.agentId, status := outcome.status
      text := outcome.text, error := outcome.error, durationMs := outcome.durationMs }
  | none => unexecuted (status task.id) ((report.results.lookup task.id).join) index task

def stepTask (step : SequentialStepResult) : StrategyTask where
  taskId := step.taskId
  agentId := step.agentId
  status := step.status
  text := step.text
  error := step.error

/-- What `runSequential` returns behind `await scheduler.run(...)`. -/
def report (g : TaskGraph) (results : String → Option TaskOutcome) (status : TaskGraph.Statuses)
    (report : SchedulerReport) : SequentialReport :=
  let steps := g.tasks.mapIdx (stepResult results status report)
  let lastSuccess := steps.reverse.find? fun step => decide (step.status = .completed)
  { strategyEnvelope .sequential report.stopped (steps.map stepTask) with
    steps, final := lastSuccess.bind SequentialStepResult.text }

/-- The report of `runSequential` on the steps, when its scheduler takes the
events `es` and has returned behind them. -/
def run (steps : List SequentialStep) (signalAborted : Bool) (es : List Scheduler.Event) :
    Option SequentialReport :=
  if steps = [] then
    some { strategyEnvelope .sequential false [] with steps := [], final := none }
  else
    (schedule (graph steps) signalAborted es).map fun scheduled =>
      report scheduled.graph (recorded es) scheduled.state.status scheduled.report

end Sequential

namespace Relay

structure RelayContext where
  step : Nat
  prompt : String
  draft : String

def defaultInstruction : String := "请改进下面这份草稿，只输出改进后的完整草稿。"

def relayMessage (context : RelayContext) (instruction : String) : String :=
  s!"原始任务：{context.prompt}\n\n当前草稿：\n{context.draft}\n\n{instruction}"

def graph (prompt : String) (steps : List RelayStep) : Except AddError TaskGraph :=
  (steps.mapIdx fun index step =>
    chainSpec "relay" index step.agentId prompt step.timeoutMs).foldlM
      TaskGraph.addSpec TaskGraph.empty

/-- The map `drafts`. A turn records its draft together with its outcome, so the
drafts are read off the recorded outcomes. -/
def drafts (results : String → Option TaskOutcome) (index : Nat) : Option String :=
  (results s!"relay-{index}").bind fun outcome =>
    if outcome.status = .completed then outcome.text else none

/-- What the turn sees; the draft before it was recorded before it started. -/
def context (prompt : String) (results : String → Option TaskOutcome) (index : Nat) :
    RelayContext where
  step := index
  prompt := prompt
  draft := if index = 0 then prompt else (drafts results (index - 1)).getD prompt

/-- The entry of a turn that did not execute. -/
def unexecuted (status : TaskStatus) (outcome : Option TaskOutcome) (index : Nat) (task : Task) :
    RelayTurn where
  index := index
  taskId := task.id
  agentId := task.agentId
  status := if status = .cancelled then .cancelled else .failed
  input := ""
  output := none
  error := some ((outcome.bind TaskOutcome.error).getD status.text)
  durationMs := (outcome.map TaskOutcome.durationMs).getD 0

def turnResult (prompt : String) (steps : List RelayStep) (results : String → Option TaskOutcome)
    (status : TaskGraph.Statuses) (report : SchedulerReport) (index : Nat) (task : Task) :
    RelayTurn :=
  match results task.id with
  | some outcome =>
    let instruction := steps[index]?.bind RelayStep.instruction
    { index, taskId := task.id, agentId := task.agentId, status := outcome.status
      input := relayMessage (context prompt results index) (instruction.getD defaultInstruction)
      output := outcome.text, error := outcome.error, durationMs := outcome.durationMs }
  | none => unexecuted (status task.id) ((report.results.lookup task.id).join) index task

/-- The last loop: it stops at the first turn without a draft. -/
def finalDraft (results : String → Option TaskOutcome) : List Nat → String → String
  | [], draft => draft
  | index :: rest, draft =>
    match drafts results index with
    | none => draft
    | some value => finalDraft results rest value

def turnTask (turn : RelayTurn) : StrategyTask where
  taskId := turn.taskId
  agentId := turn.agentId
  status := turn.status
  text := turn.output
  error := turn.error

/-- What `runRelay` returns behind `await scheduler.run(...)`. -/
def report (prompt : String) (steps : List RelayStep) (g : TaskGraph)
    (results : String → Option TaskOutcome) (status : TaskGraph.Statuses)
    (report : SchedulerReport) : RelayReport :=
  let turns := g.tasks.mapIdx (turnResult prompt steps results status report)
  { strategyEnvelope .relay report.stopped (turns.map turnTask) with
    draft := finalDraft results (List.range steps.length) prompt, turns }

def run (prompt : String) (steps : List RelayStep) (signalAborted : Bool)
    (es : List Scheduler.Event) : Option RelayReport :=
  if steps = [] then
    some { strategyEnvelope .relay false [] with draft := prompt, turns := [] }
  else
    (schedule (graph prompt steps) signalAborted es).map fun scheduled =>
      report prompt steps scheduled.graph (Sequential.recorded es) scheduled.state.status
        scheduled.report

end Relay

namespace Broadcast

def graph (prompt : String) (agents : List BroadcastAgent) : Except AddError TaskGraph :=
  (agents.mapIdx fun index agent =>
    { id := s!"bc-{index}", agentId := agent.agentId, prompt, dependsOn := none
      timeoutMs := agent.timeoutMs : TaskSpec }).foldlM TaskGraph.addSpec TaskGraph.empty

/-- The responses of the agents from a position on; reading an outcome that is
`undefined` throws. -/
def responses (report : SchedulerReport) : Nat → List BroadcastAgent → Option (List BroadcastEntry)
  | _, [] => some []
  | index, agent :: agents =>
    match (report.results.lookup s!"bc-{index}").join with
    | none => none
    | some outcome =>
      (responses report (index + 1) agents).map fun entries =>
        { agentId := agent.agentId, taskId := s!"bc-{index}", status := outcome.status
          text := outcome.text, error := outcome.error } :: entries

def responseTask (entry : BroadcastEntry) : StrategyTask where
  taskId := entry.taskId
  agentId := entry.agentId
  status := entry.status
  text := entry.text
  error := entry.error

/-- What `runBroadcast` returns behind `await scheduler.run(...)`. -/
def report (agents : List BroadcastAgent) (report : SchedulerReport) : Option BroadcastReport :=
  (responses report 0 agents).map fun responses =>
    let completed := responses.filter fun entry => decide (entry.status = .completed)
    { strategyEnvelope .broadcast report.stopped (responses.map responseTask) with
      responses, joined := "\n\n".intercalate (completed.filterMap BroadcastEntry.text) }

def run (prompt : String) (agents : List BroadcastAgent) (signalAborted : Bool)
    (es : List Scheduler.Event) : Option BroadcastReport :=
  if agents = [] then
    some { strategyEnvelope .broadcast false [] with responses := [], joined := "" }
  else
    (schedule (graph prompt agents) signalAborted es).bind fun scheduled =>
      report agents scheduled.report

end Broadcast

end MultiAgent.Native
