import MultiAgent.Foundations.Machine
import MultiAgent.Native.Recovery.Replan

/-!
# The recovery loop as an event-driven machine

`recovery/manager.ts`. `RecoveryManager.run` runs without interruption from one
of its two openings to the next: the `await` of `Supervisor.run` and the `await`
of the delay between attempts. The surroundings decide how the supervisor run in
flight settles, when the delay ends, and when the signal aborts. The content hash
`planId` and the timestamps are left out, and so is the context record, which the
loop builds and drops.
-/

namespace MultiAgent.Native.Recovery

inductive RecoveryDecision where
  | retry
  | repair
  | replan
  | abort
  | completed
  | failed
  deriving DecidableEq, Repr

inductive RecoveryStatus where
  | completed
  | failed
  | cancelled
  | timeout
  deriving DecidableEq, Repr

structure RecoveryRunOptions where
  runId : String
  input : String
  /-- With the default `'sequential'` filled in. -/
  strategy : SupervisorStrategy
  timeoutMs : Option JsNumber
  metadata : Option Metadata
  deriving DecidableEq, Repr

/-- What the observer is told. -/
inductive ObservabilityEvent where
  | started (runId : String)
  | attempt (runId : String) (attempt : Nat)
  | failure (runId : String) (attempt : Nat) (code : FailureCode) (taskId agentId : Option String)
  | decision (runId : String) (attempt : Nat) (decision : RecoveryDecision)
  | finished (runId : String) (status : RecoveryStatus) (attempts repairsUsed replansUsed : Nat)
  deriving DecidableEq, Repr

inductive Phase where
  /-- `Supervisor.run` on the routed plan is in flight. -/
  | running (routed : RoutedPlan)
  /-- The delay before the next attempt. -/
  | delaying
  | returned (status : RecoveryStatus)
  deriving DecidableEq, Repr

/-- The local variables of `run`. -/
structure State where
  currentPlan : PlannerPlan
  pool : List AgentDescriptor
  attempts : Nat
  repairsUsed : Nat
  replansUsed : Nat
  lastResult : Option SupervisorRunResult
  decisions : List RecoveryDecision
  failures : List FailureRecord
  /-- `options.signal?.aborted` -/
  aborted : Bool
  phase : Phase
  /-- The events that the observer has received. -/
  observed : List ObservabilityEvent
  deriving DecidableEq, Repr

/-- The routed-task order that the strategy uses. A plan that is running was
ordered before, so the sort does not throw here. -/
def strategyTaskOrder (routed : RoutedPlan) (strategy : SupervisorStrategy) : List RoutedTask :=
  match strategy with
  | .broadcast => routed.tasks
  | .sequential | .relay => (topologicalOrder routed.tasks).toOption.getD []

/-- The number that `/^(?:seq|bc|turn|relay)-(\d+)$/` captures. -/
def syntheticIndex (id : String) : Option Nat :=
  ["seq-", "bc-", "turn-", "relay-"].findSome? fun label =>
    let digits := id.toList.drop label.length
    if startsWith id label && decide (digits ≠ []) && digits.all Char.isDigit then
      some (digits.foldl (fun n c => 10 * n + (c.toNat - '0'.toNat)) 0)
    else none

/-- `strategyIdToPlanId` for one id. -/
def planIdOf (ordered : List RoutedTask) (strategyTaskId : String) : String :=
  match (syntheticIndex strategyTaskId).bind fun index => ordered[index]? with
  | some task => task.id
  | none => strategyTaskId

def strategyIdToPlanId (strategyTaskIds : List String) (routed : RoutedPlan)
    (strategy : SupervisorStrategy) : List String :=
  strategyTaskIds.map (planIdOf (strategyTaskOrder routed strategy))

/-- The constructed manager and the options of one call of `run`. -/
structure RecoveryManager where
  agents : List AgentDescriptor
  policy : RetryPolicy
  options : RecoveryRunOptions

namespace RecoveryManager

variable (manager : RecoveryManager)

def recordDecision (s : State) (decision : RecoveryDecision) : State :=
  { s with
    decisions := s.decisions ++ [decision]
    observed := s.observed ++ [.decision manager.options.runId s.attempts decision] }

def recordFailure (s : State) (failure : FailureRecord) : State :=
  { s with
    failures := s.failures ++ [failure]
    observed := s.observed ++
      [.failure manager.options.runId failure.attempt failure.code failure.taskId
        failure.agentId] }

def finish (s : State) (status : RecoveryStatus) (decision : RecoveryDecision) : State :=
  let t := manager.recordDecision s decision
  { t with
    phase := .returned status
    observed := t.observed ++
      [.finished manager.options.runId status t.attempts t.repairsUsed t.replansUsed] }

/-- `finish(failure.code === 'TIMEOUT' ? 'timeout' : 'failed', 'failed')` -/
def giveUp (s : State) (code : Option FailureCode) : State :=
  manager.finish s (if code = some .timeout then .timeout else .failed) .failed

/-- The decision for a retry, up to its delay. -/
def retry (s : State) : State := { manager.recordDecision s .retry with phase := .delaying }

/-- The plan of an attempt: validated, repaired and routed over the pool. -/
def prepare (pool : List AgentDescriptor) (plan : PlannerPlan) :
    Except PlannerError RoutedPlan := do
  let validated ← PlanValidator.validateAndRepair pool plan
  let router ← AgentRouter.new pool
  return router.route validated.plan.tasks

/-- `planToSupervisorInput` -/
def supervisorInput (routed : RoutedPlan) : Except PlannerError SupervisorRunInput := do
  let plan ← routedPlanToSupervisorPlan routed manager.options.strategy
  return { runId := manager.options.runId, input := manager.options.input, plan
           timeoutMs := manager.options.timeoutMs, metadata := manager.options.metadata }

/-- The decision on a thrown failure. -/
def decideThrown (s : State) (failure : FailureRecord) : State :=
  if s.aborted || decide (failure.code = .cancelled) then manager.finish s .cancelled .abort
  else if failure.recoverability.retryable && manager.policy.canAttempt (s.attempts + 1) then
    manager.retry s
  else manager.giveUp s (some failure.code)

/-- The `catch` of the supervisor run. -/
def caught (s : State) (error : Thrown) : State :=
  let failure := classifyThrown error s.attempts
  manager.decideThrown (manager.recordFailure s failure) failure

/-- `attempts += 1`, told to the observer. -/
def countAttempt (s : State) : State :=
  { s with
    attempts := s.attempts + 1
    observed := s.observed ++ [.attempt manager.options.runId (s.attempts + 1)] }

/-- The `catch` of the validation and of the routing. -/
def rejected (s : State) (error : PlannerError) : State :=
  manager.finish (manager.recordFailure s (classifyThrown (.planner error) s.attempts)) .failed
    .failed

/-- A counted attempt, up to the call of `Supervisor.run`. -/
def dispatch (s : State) : State :=
  match prepare s.pool s.currentPlan with
  | .error error => manager.rejected s error
  | .ok routed =>
    match manager.supervisorInput routed with
    | .error error => manager.caught s (.planner error)
    | .ok _ => { s with phase := .running routed }

/-- The head of the loop. -/
def next (s : State) : State :=
  if s.aborted then manager.finish s .cancelled .abort
  else if !manager.policy.canAttempt (s.attempts + 1) then
    manager.giveUp s (s.failures.getLast?.map FailureRecord.code)
  else manager.dispatch (manager.countAttempt s)

/-- The agents that a repair evicts. -/
def unavailableAgentIds (failure : FailureRecord) : List String :=
  ((failure.taskFailures.getD []).filter fun ref =>
      decide (ref.code = .agentUnavailable)).filterMap TaskFailureRef.agentId ++
    failure.agentId.toList

/-- The branch `repair`, if it is taken. -/
def repair (s : State) (routed : RoutedPlan) (failure : FailureRecord) : Option State :=
  if failure.recoverability.repairable && manager.policy.canAttempt (s.attempts + 1) then
    let strategyIds := ((failure.taskFailures.getD []).filter fun ref =>
      decide (ref.code = .agentUnavailable)).map TaskFailureRef.taskId
    match clearAgentAssignments s.currentPlan
        (strategyIdToPlanId strategyIds routed manager.options.strategy) with
    | none => none
    | some cleared =>
      some (manager.recordDecision
        { s with
          currentPlan := cleared.plan
          pool := s.pool.filter fun agent => decide (agent.id ∉ unavailableAgentIds failure)
          repairsUsed := s.repairsUsed + 1 } .repair)
  else none

/-- The failure with the ids of its tasks mapped back to the plan. -/
def mapFailure (routed : RoutedPlan) (failure : FailureRecord) : FailureRecord :=
  let ordered := strategyTaskOrder routed manager.options.strategy
  { failure with
    taskFailures := failure.taskFailures.map fun refs => refs.map fun ref =>
      { ref with taskId := planIdOf ordered ref.taskId } }

/-- The branch `replan`, if it is taken. -/
def replan (s : State) (routed : RoutedPlan) (failure : FailureRecord) : Option State :=
  if failure.recoverability.replanable && manager.policy.canAttempt (s.attempts + 1) &&
      manager.policy.canReplan s.replansUsed then
    match deterministicReplan s.currentPlan (manager.mapFailure routed failure) with
    | .error _ => none
    | .ok replanned =>
      some (manager.recordDecision
        { s with currentPlan := replanned.plan, replansUsed := s.replansUsed + 1 } .replan)
  else none

/-- The decision on a failed result. -/
def decideResult (s : State) (routed : RoutedPlan) (failure : FailureRecord) : State :=
  if s.aborted || decide (failure.code = .cancelled) then manager.finish s .cancelled .abort
  else if failure.recoverability.retryable && manager.policy.canAttempt (s.attempts + 1) then
    manager.retry s
  else
    match manager.repair s routed failure with
    | some repaired => manager.next repaired
    | none =>
      match manager.replan s routed failure with
      | some replanned => manager.next replanned
      | none => manager.giveUp s (some failure.code)

/-- The loop body behind a supervisor run that returned. -/
def settled (s : State) (routed : RoutedPlan) (result : SupervisorRunResult) : State :=
  let t := { s with lastResult := some result }
  let failure := classifyResult result s.attempts
  if result.status = .completed then manager.finish t .completed .completed
  else manager.decideResult (manager.recordFailure t failure) routed failure

inductive Event where
  /-- The supervisor run in flight throws or returns. -/
  | settle (outcome : Except Thrown SupervisorRunResult)
  /-- The delay ends. -/
  | wake
  /-- `options.signal` aborts. -/
  | abort

def step (s : State) : Event → Option State
  | .settle outcome =>
    match s.phase with
    | .running routed =>
      match outcome with
      | .error error => some (manager.caught s error)
      | .ok result => some (manager.settled s routed result)
    | .delaying | .returned _ => none
  | .wake =>
    match s.phase with
    | .delaying => some (manager.next s)
    | .running _ | .returned _ => none
  | .abort => if s.aborted then none else some { s with aborted := true }

def machine : Machine State Event := ⟨manager.step⟩

/-- `run(plan, options)` before its loop; `phase` has no meaning there. -/
def initial (plan : PlannerPlan) (aborted : Bool) : State where
  currentPlan := plan
  pool := manager.agents
  attempts := 0
  repairsUsed := 0
  replansUsed := 0
  lastResult := none
  decisions := []
  failures := []
  aborted := aborted
  phase := .delaying
  observed := [.started manager.options.runId]

/-- `run(plan, options)` up to its first opening. -/
def start (plan : PlannerPlan) (aborted : Bool) : State :=
  manager.next (manager.initial plan aborted)

/-- The state `s` is reached by the events `es` in a run of the plan. -/
def Reaches (plan : PlannerPlan) (aborted : Bool) (es : List Event) (s : State) : Prop :=
  manager.machine.run (manager.start plan aborted) es = some s

section Cases

variable {manager} {s t : State} {routed : RoutedPlan}

/-- A dispatch ends in one of the two `catch` blocks or in the supervisor run. -/
theorem dispatch_cases (manager : RecoveryManager) (s : State) :
    (∃ error, manager.dispatch s = manager.rejected s error) ∨
      (∃ error, manager.dispatch s = manager.caught s error) ∨
      ∃ routed input, prepare s.pool s.currentPlan = .ok routed ∧
        manager.supervisorInput routed = .ok input ∧
        manager.dispatch s = { s with phase := .running routed } := by
  cases prepared : prepare s.pool s.currentPlan with
  | error error => exact .inl ⟨error, by simp [dispatch, prepared]⟩
  | ok routed =>
      cases accepted : manager.supervisorInput routed with
      | error error => exact .inr (.inl ⟨.planner error, by simp [dispatch, prepared, accepted]⟩)
      | ok input =>
          exact .inr (.inr ⟨routed, input, rfl, accepted, by simp [dispatch, prepared, accepted]⟩)

theorem next_cases (manager : RecoveryManager) (s : State) :
    manager.next s = manager.finish s .cancelled .abort ∨
      manager.next s = manager.giveUp s (s.failures.getLast?.map FailureRecord.code) ∨
      (manager.policy.canAttempt (s.attempts + 1) = true ∧
        manager.next s = manager.dispatch (manager.countAttempt s)) := by
  by_cases aborted : s.aborted = true
  · exact .inl (by simp [next, aborted])
  · by_cases budget : manager.policy.canAttempt (s.attempts + 1) = true
    · exact .inr (.inr ⟨budget, by simp [next, aborted, budget]⟩)
    · exact .inr (.inl (by simp [next, aborted, budget]))

theorem caught_cases (manager : RecoveryManager) (s : State) (error : Thrown) :
    ∃ u, u = manager.recordFailure s (classifyThrown error s.attempts) ∧
      (manager.caught s error = manager.finish u .cancelled .abort ∨
        manager.caught s error = manager.retry u ∨
        ∃ code, manager.caught s error = manager.giveUp u code) := by
  refine ⟨_, rfl, ?_⟩
  unfold caught decideThrown
  dsimp only
  split
  · exact .inl rfl
  · split
    · exact .inr (.inl rfl)
    · exact .inr (.inr ⟨_, rfl⟩)

theorem repair_cases {failure : FailureRecord} (taken : manager.repair s routed failure = some t) :
    manager.policy.canAttempt (s.attempts + 1) = true ∧ ∃ plan pool, t = manager.recordDecision
      { s with currentPlan := plan, pool, repairsUsed := s.repairsUsed + 1 } .repair := by
  rw [repair] at taken
  split at taken
  · rename_i allowed
    dsimp only at taken
    split at taken
    · cases taken
    · cases taken
      exact ⟨(Bool.and_eq_true_iff.mp allowed).2, _, _, rfl⟩
  · cases taken

theorem replan_cases {failure : FailureRecord} (taken : manager.replan s routed failure = some t) :
    manager.policy.canReplan s.replansUsed = true ∧ ∃ replanned,
      deterministicReplan s.currentPlan (manager.mapFailure routed failure) = .ok replanned ∧
      t = manager.recordDecision
        { s with currentPlan := replanned.plan, replansUsed := s.replansUsed + 1 } .replan := by
  rw [replan] at taken
  split at taken
  · rename_i allowed
    cases pruned : deterministicReplan s.currentPlan (manager.mapFailure routed failure) with
    | error error => simp [pruned] at taken
    | ok replanned =>
        simp only [pruned, Option.some.injEq] at taken
        exact ⟨(Bool.and_eq_true_iff.mp allowed).2, replanned, rfl, taken.symm⟩
  · cases taken

theorem decideResult_cases (manager : RecoveryManager) (s : State) (routed : RoutedPlan)
    (failure : FailureRecord) :
    manager.decideResult s routed failure = manager.finish s .cancelled .abort ∨
      manager.decideResult s routed failure = manager.retry s ∨
      (∃ t, manager.repair s routed failure = some t ∧
        manager.decideResult s routed failure = manager.next t) ∨
      (∃ t, manager.replan s routed failure = some t ∧
        manager.decideResult s routed failure = manager.next t) ∨
      ∃ code, manager.decideResult s routed failure = manager.giveUp s code := by
  rw [decideResult]
  split
  · exact .inl rfl
  · split
    · exact .inr (.inl rfl)
    · cases repaired : manager.repair s routed failure with
      | some t => exact .inr (.inr (.inl ⟨t, rfl, rfl⟩))
      | none =>
          cases replanned : manager.replan s routed failure with
          | some t => exact .inr (.inr (.inr (.inl ⟨t, rfl, rfl⟩)))
          | none => exact .inr (.inr (.inr (.inr ⟨_, rfl⟩)))

/-- What one event can do. -/
theorem step_cases {e : Event} (transition : manager.step s e = some t) :
    (∃ routed error, s.phase = .running routed ∧ e = .settle (.error error) ∧
        t = manager.caught s error) ∨
      (∃ routed result, s.phase = .running routed ∧ e = .settle (.ok result) ∧
        t = manager.settled s routed result) ∨
      (s.phase = .delaying ∧ e = .wake ∧ t = manager.next s) ∨
      (s.aborted = false ∧ e = .abort ∧ t = { s with aborted := true }) := by
  cases e with
  | settle outcome =>
      cases phase : s.phase with
      | running routed =>
          cases outcome with
          | error error =>
              simp only [step, phase, Option.some.injEq] at transition
              exact .inl ⟨routed, error, rfl, rfl, transition.symm⟩
          | ok result =>
              simp only [step, phase, Option.some.injEq] at transition
              exact .inr (.inl ⟨routed, result, rfl, rfl, transition.symm⟩)
      | delaying => simp [step, phase] at transition
      | returned status => simp [step, phase] at transition
  | wake =>
      cases phase : s.phase with
      | delaying =>
          simp only [step, phase, Option.some.injEq] at transition
          exact .inr (.inr (.inl ⟨rfl, rfl, transition.symm⟩))
      | running routed => simp [step, phase] at transition
      | returned status => simp [step, phase] at transition
  | abort =>
      cases aborted : s.aborted with
      | true => simp [step, aborted] at transition
      | false =>
          simp only [step, aborted, Bool.false_eq_true, if_false, Option.some.injEq] at transition
          exact .inr (.inr (.inr ⟨rfl, rfl, transition.symm⟩))

end Cases

end RecoveryManager

end MultiAgent.Native.Recovery
