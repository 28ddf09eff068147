import MultiAgent.Native.Recovery.Manager

/-!
# Attempts that timed out

The loop retries exactly what is classified as a timeout, and a report is
classified by the code of highest priority among its failed tasks. A task that
was cancelled behind a dependency ranks above a timed-out task, so a timeout is
retried when nothing was cancelled behind it, and otherwise the attempt is
replanned or given up.
-/

namespace MultiAgent.Native.Recovery

section Classification

variable {result : SupervisorRunResult} {failures : List TaskFailureRef}

/-- The failed tasks of a result that were not cancelled behind a dependency. -/
def rootFailures (result : SupervisorRunResult) : List TaskFailureRef :=
  (extractTaskFailures result).filter fun failure => decide (failure.code ≠ .dependencyFailure)

/-- Some task of the result was cancelled behind a dependency. -/
def Cascaded (result : SupervisorRunResult) : Prop :=
  ∃ failure ∈ extractTaskFailures result, failure.code = .dependencyFailure

theorem mem_rootFailures {failure : TaskFailureRef} :
    failure ∈ rootFailures result ↔
      failure ∈ extractTaskFailures result ∧ failure.code ≠ .dependencyFailure := by
  simp [rootFailures]

/-- A code that some failure has is the primary one when no failure has a code
that stands before it. -/
theorem primaryCode_eq (before : List FailureCode) {after : List FailureCode} {code : FailureCode}
    (order : priority = before ++ code :: after)
    (hit : ∃ failure ∈ failures, failure.code = code)
    (miss : ∀ failure ∈ failures, failure.code ∉ before) : primaryCode failures = code := by
  have found : priority.find? (fun candidate => failures.any fun failure =>
      failure.code = candidate) = some code := by
    rw [List.find?_eq_some_iff_append]
    refine ⟨by simpa using hit, before, after, order, ?_⟩
    intro earlier member
    simp only [Bool.not_eq_true', List.any_eq_false, decide_eq_true_eq]
    rintro failure known rfl
    exact miss failure known member
  rw [primaryCode, found, Option.getD_some]

theorem classifyResult_code_of_failed (attempt : Nat) (status : result.status = .failed) :
    (classifyResult result attempt).code = primaryCode (extractTaskFailures result) := by
  simp [classifyResult, status, resultRecord]

theorem classifyResult_code_of_timeout (attempt : Nat) (status : result.status = .timeout) :
    (classifyResult result attempt).code = .timeout := by
  simp [classifyResult, status, resultRecord]

theorem classifyResult_recoverability (result : SupervisorRunResult) (attempt : Nat) :
    (classifyResult result attempt).recoverability =
      recoverability (classifyResult result attempt).code := by
  rw [classifyResult]
  cases result.status <;> rfl

/-- The root failures of the attempt are timeouts: the run itself timed out, or
a returned report has failed tasks and those not cancelled behind a dependency
timed out. -/
inductive TimedOut : Except Thrown SupervisorRunResult → Prop where
  | thrown (error : SupervisorError) (kind : error.kind = .timeout) :
      TimedOut (.error (.supervisor error))
  | ceiling (result : SupervisorRunResult) (status : result.status = .timeout) :
      TimedOut (.ok result)
  | tasks (result : SupervisorRunResult) (status : result.status = .failed)
      (some : rootFailures result ≠ [])
      (all : ∀ root ∈ rootFailures result, root.code = .timeout) : TimedOut (.ok result)

/-- The attempt failed, and its report has a task that was cancelled behind a
dependency. -/
def FailedWithCascade : Except Thrown SupervisorRunResult → Prop
  | .error _ => False
  | .ok result => result.status = .failed ∧ Cascaded result

theorem primaryCode_of_alone (some : rootFailures result ≠ [])
    (all : ∀ root ∈ rootFailures result, root.code = .timeout) (alone : ¬ Cascaded result) :
    primaryCode (extractTaskFailures result) = .timeout := by
  have isRoot : ∀ failure ∈ extractTaskFailures result, failure ∈ rootFailures result :=
    fun failure known => mem_rootFailures.mpr ⟨known, fun code => alone ⟨failure, known, code⟩⟩
  obtain ⟨root, member⟩ := List.exists_mem_of_ne_nil _ some
  apply primaryCode_eq [.agentUnavailable, .dependencyFailure] rfl
  · exact ⟨root, (mem_rootFailures.mp member).1, all root member⟩
  · intro failure known
    rw [all failure (isRoot failure known)]
    decide

theorem primaryCode_of_cascaded (all : ∀ root ∈ rootFailures result, root.code = .timeout)
    (cascaded : Cascaded result) :
    primaryCode (extractTaskFailures result) = .dependencyFailure := by
  apply primaryCode_eq [.agentUnavailable] rfl cascaded
  intro failure known unavailable
  have code : failure.code = .agentUnavailable := List.mem_singleton.mp unavailable
  have root := all failure (mem_rootFailures.mpr ⟨known, by rw [code]; decide⟩)
  rw [code] at root
  cases root

end Classification

namespace RecoveryManager

variable {manager : RecoveryManager} {plan : PlannerPlan} {aborted : Bool}
variable {s t : State} {routed : RoutedPlan} {outcome : Except Thrown SupervisorRunResult}

theorem next_of_budget (going : s.aborted = false)
    (budget : manager.policy.canAttempt (s.attempts + 1) = true) :
    manager.next s = manager.dispatch (manager.countAttempt s) := by
  simp [next, going, budget]

/-- The routed plan in flight is the one prepared from the current plan over the
current pool, and the strategy accepts it. -/
def Prepared (manager : RecoveryManager) (s : State) : Prop :=
  ∀ routed, s.phase = .running routed →
    prepare s.pool s.currentPlan = .ok routed ∧ ∃ input, manager.supervisorInput routed = .ok input

theorem finish_prepared (status : RecoveryStatus) (decision : RecoveryDecision) :
    Prepared manager (manager.finish s status decision) :=
  fun _ running => nomatch running

theorem retry_prepared : Prepared manager (manager.retry s) := fun _ running => nomatch running

theorem caught_prepared (error : Thrown) : Prepared manager (manager.caught s error) := by
  obtain ⟨u, -, stopped | retried | ⟨code, gaveUp⟩⟩ := caught_cases manager s error
  · rw [stopped]
    exact finish_prepared _ _
  · rw [retried]
    exact retry_prepared
  · rw [gaveUp]
    exact finish_prepared _ _

theorem dispatch_prepared : Prepared manager (manager.dispatch s) := by
  obtain ⟨error, rejected⟩ | ⟨error, caught⟩ | ⟨routed, input, prepared, accepted, running⟩ :=
    dispatch_cases manager s
  · rw [rejected]
    exact finish_prepared _ _
  · rw [caught]
    exact caught_prepared _
  · rw [running]
    rintro other ⟨rfl⟩
    exact ⟨prepared, input, accepted⟩

theorem next_prepared : Prepared manager (manager.next s) := by
  obtain stopped | spent | ⟨-, dispatched⟩ := next_cases manager s
  · rw [stopped]
    exact finish_prepared _ _
  · rw [spent]
    exact finish_prepared _ _
  · rw [dispatched]
    exact dispatch_prepared

theorem decideResult_prepared (failure : FailureRecord) :
    Prepared manager (manager.decideResult s routed failure) := by
  obtain stopped | retried | ⟨t, -, repaired⟩ | ⟨t, -, replanned⟩ | ⟨code, gaveUp⟩ :=
    decideResult_cases manager s routed failure
  · rw [stopped]
    exact finish_prepared _ _
  · rw [retried]
    exact retry_prepared
  · rw [repaired]
    exact next_prepared
  · rw [replanned]
    exact next_prepared
  · rw [gaveUp]
    exact finish_prepared _ _

theorem settled_prepared (result : SupervisorRunResult) :
    Prepared manager (manager.settled s routed result) := by
  unfold settled
  dsimp only
  split
  · exact finish_prepared _ _
  · exact decideResult_prepared _

theorem Prepared.step {e : Event} (prepared : Prepared manager s)
    (transition : manager.step s e = some t) : Prepared manager t := by
  obtain ⟨_, error, -, -, rfl⟩ | ⟨_, result, -, -, rfl⟩ | ⟨-, -, rfl⟩ | ⟨-, -, rfl⟩ :=
    step_cases transition
  · exact caught_prepared error
  · exact settled_prepared result
  · exact next_prepared
  · exact prepared

theorem Reaches.prepared {es : List Event} (reaches : manager.Reaches plan aborted es s) :
    Prepared manager s :=
  Machine.run_invariant (fun _ _ _ inv transition => Prepared.step inv transition) next_prepared
    reaches

/-- The state behind the failed attempt, before its decision. -/
def failedWith (manager : RecoveryManager) (s : State) (result : SupervisorRunResult) : State :=
  manager.recordFailure { s with lastResult := some result } (classifyResult result s.attempts)

theorem step_settle_thrown {error : Thrown} (running : s.phase = .running routed) :
    manager.step s (.settle (.error error)) = some (manager.caught s error) := by
  simp [step, running]

theorem step_settle_result {result : SupervisorRunResult} (running : s.phase = .running routed)
    (failed : result.status ≠ .completed) :
    manager.step s (.settle (.ok result)) = some (manager.decideResult
      (manager.failedWith s result) routed (classifyResult result s.attempts)) := by
  simp [step, running, settled, failed, failedWith]

/-- What is classified as a timeout is retried while the budget lasts. -/
theorem decideResult_timeout {failure : FailureRecord} (going : s.aborted = false)
    (budget : manager.policy.canAttempt (s.attempts + 1) = true) (code : failure.code = .timeout)
    (actions : failure.recoverability = recoverability failure.code) :
    manager.decideResult s routed failure = manager.retry s := by
  have retryable : failure.recoverability.retryable = true := by
    rw [actions, code]
    rfl
  simp [decideResult, going, budget, code, retryable]

section DependencyFailure

variable {failure : FailureRecord}

/-- A dependency failure leaves only the branch `replan`. -/
theorem decideResult_replanned {u : State} (going : s.aborted = false)
    (code : failure.code = .dependencyFailure)
    (actions : failure.recoverability = recoverability failure.code)
    (replanned : manager.replan s routed failure = some u) :
    manager.decideResult s routed failure = manager.next u := by
  rw [code] at actions
  simp [decideResult, repair, going, code, actions, recoverability, replanned]

theorem decideResult_givenUp (going : s.aborted = false) (code : failure.code = .dependencyFailure)
    (actions : failure.recoverability = recoverability failure.code)
    (refused : manager.replan s routed failure = none) :
    manager.decideResult s routed failure = manager.giveUp s (some .dependencyFailure) := by
  rw [code] at actions
  simp [decideResult, repair, going, code, actions, recoverability, refused]

theorem replan_eq_some {replanned : Replanned} (code : failure.code = .dependencyFailure)
    (actions : failure.recoverability = recoverability failure.code)
    (budget : manager.policy.canAttempt (s.attempts + 1) = true)
    (allowed : manager.policy.canReplan s.replansUsed = true)
    (pruned : deterministicReplan s.currentPlan (manager.mapFailure routed failure) =
      .ok replanned) :
    manager.replan s routed failure = some (manager.recordDecision
      { s with currentPlan := replanned.plan, replansUsed := s.replansUsed + 1 } .replan) := by
  rw [code] at actions
  simp [replan, actions, recoverability, budget, allowed, pruned]

theorem replan_eq_none
    (refused : manager.policy.canReplan s.replansUsed = false ∨ ∃ error,
      deterministicReplan s.currentPlan (manager.mapFailure routed failure) = .error error) :
    manager.replan s routed failure = none := by
  rw [replan]
  obtain spent | ⟨error, empty⟩ := refused
  · simp [spent]
  · simp [empty]

end DependencyFailure

/-- The next attempt only adds decisions, and it does not change the plan. -/
structure Continues (s t : State) : Prop where
  decisions : s.decisions <+: t.decisions
  currentPlan : t.currentPlan = s.currentPlan

theorem finish_continues (s : State) (status : RecoveryStatus) (decision : RecoveryDecision) :
    Continues s (manager.finish s status decision) :=
  ⟨List.prefix_append _ _, rfl⟩

theorem caught_continues (s : State) (error : Thrown) : Continues s (manager.caught s error) := by
  obtain ⟨_, rfl, stopped | retried | ⟨code, gaveUp⟩⟩ := caught_cases manager s error
  · rw [stopped]
    exact ⟨List.prefix_append _ _, rfl⟩
  · rw [retried]
    exact ⟨List.prefix_append _ _, rfl⟩
  · rw [gaveUp]
    exact ⟨List.prefix_append _ _, rfl⟩

theorem dispatch_continues (manager : RecoveryManager) (s : State) :
    Continues s (manager.dispatch s) := by
  obtain ⟨error, rejected⟩ | ⟨error, caught⟩ | ⟨routed, input, -, -, running⟩ :=
    dispatch_cases manager s
  · rw [rejected]
    exact ⟨List.prefix_append _ _, rfl⟩
  · rw [caught]
    exact caught_continues s error
  · rw [running]
    exact ⟨List.prefix_rfl, rfl⟩

theorem next_continues (manager : RecoveryManager) (s : State) : Continues s (manager.next s) := by
  obtain stopped | spent | ⟨-, dispatched⟩ := next_cases manager s
  · rw [stopped]
    exact finish_continues s _ _
  · rw [spent]
    exact finish_continues s _ _
  · rw [dispatched]
    obtain ⟨decisions, currentPlan⟩ := dispatch_continues manager (manager.countAttempt s)
    exact ⟨decisions, currentPlan⟩

/-- The attempt behind a retry runs the plan that is prepared from the current
plan over the current pool. -/
theorem wake_retry (going : s.aborted = false)
    (budget : manager.policy.canAttempt (s.attempts + 1) = true)
    (prepared : prepare s.pool s.currentPlan = .ok routed)
    (accepted : ∃ input, manager.supervisorInput routed = .ok input) :
    ∃ u, manager.step (manager.retry s) .wake = some u ∧ u.phase = .running routed ∧
      u.attempts = s.attempts + 1 := by
  obtain ⟨input, accepted⟩ := accepted
  have dispatched : manager.next (manager.retry s) =
      manager.dispatch (manager.countAttempt (manager.retry s)) :=
    next_of_budget going budget
  refine ⟨manager.next (manager.retry s), rfl, ?_⟩
  rw [dispatched]
  simp [dispatch, countAttempt, retry, recordDecision, prepared, accepted]

/-- `u` is `s` with a failed attempt recorded. -/
structure Recorded (s u : State) : Prop where
  currentPlan : u.currentPlan = s.currentPlan
  pool : u.pool = s.pool
  attempts : u.attempts = s.attempts
  decisions : u.decisions = s.decisions
  aborted : u.aborted = s.aborted

theorem recorded_recordFailure (s : State) (failure : FailureRecord) :
    Recorded s (manager.recordFailure s failure) :=
  ⟨rfl, rfl, rfl, rfl, rfl⟩

theorem recorded_failedWith (s : State) (result : SupervisorRunResult) :
    Recorded s (manager.failedWith s result) :=
  ⟨rfl, rfl, rfl, rfl, rfl⟩

theorem caught_timeout {error : SupervisorError} (kind : error.kind = .timeout)
    (going : s.aborted = false) (budget : manager.policy.canAttempt (s.attempts + 1) = true) :
    manager.caught s (.supervisor error) = manager.retry
      (manager.recordFailure s (classifyThrown (.supervisor error) s.attempts)) := by
  have code : (Thrown.supervisor error).code = .timeout := by simp [Thrown.code, kind]
  simp [caught, decideThrown, recordFailure, classifyThrown, code, recoverability, going, budget]

theorem settled_timeout {result : SupervisorRunResult}
    (code : (classifyResult result s.attempts).code = .timeout) (going : s.aborted = false)
    (budget : manager.policy.canAttempt (s.attempts + 1) = true) :
    manager.decideResult (manager.failedWith s result) routed (classifyResult result s.attempts) =
      manager.retry (manager.failedWith s result) :=
  decideResult_timeout going budget code (classifyResult_recoverability _ _)

/-- Without a cascade, every kind of timed-out attempt is recorded and retried. -/
theorem retry_of_timedOut (running : s.phase = .running routed)
    (transition : manager.step s (.settle outcome) = some t) (timedOut : TimedOut outcome)
    (alone : ¬ FailedWithCascade outcome) (going : s.aborted = false)
    (budget : manager.policy.canAttempt (s.attempts + 1) = true) :
    ∃ u, Recorded s u ∧ t = manager.retry u := by
  cases timedOut with
  | thrown error kind =>
      rw [step_settle_thrown running, caught_timeout kind going budget] at transition
      exact ⟨_, recorded_recordFailure s _, (Option.some.inj transition).symm⟩
  | ceiling result status =>
      have code := classifyResult_code_of_timeout s.attempts status
      rw [step_settle_result running (by rw [status]; decide),
        settled_timeout code going budget] at transition
      exact ⟨_, recorded_failedWith s result, (Option.some.inj transition).symm⟩
  | tasks result status some all =>
      have code : (classifyResult result s.attempts).code = .timeout := by
        rw [classifyResult_code_of_failed _ status]
        exact primaryCode_of_alone some all fun cascaded => alone ⟨status, cascaded⟩
      rw [step_settle_result running (by rw [status]; decide),
        settled_timeout code going budget] at transition
      exact ⟨_, recorded_failedWith s result, (Option.some.inj transition).symm⟩

/-- With a cascade, the attempt is handled as a dependency failure. -/
theorem code_of_cascade {result : SupervisorRunResult} (attempt : Nat)
    (timedOut : TimedOut (.ok result)) (cascade : FailedWithCascade (.ok result)) :
    (classifyResult result attempt).code = .dependencyFailure := by
  obtain ⟨failed, cascaded⟩ := cascade
  rw [classifyResult_code_of_failed attempt failed]
  cases timedOut with
  | ceiling _ status => simp [status] at failed
  | tasks _ _ _ all => exact primaryCode_of_cascaded all cascaded

/-- An attempt whose root failures are timeouts is retried on the same plan when
no task was cancelled behind one. With such a task the attempt counts as a
dependency failure: it is replanned, if the replan budget lasts and the pruned
plan keeps a task, and otherwise the run fails. -/
theorem timeout_retry {es : List Event} (reaches : manager.Reaches plan aborted es s)
    (running : s.phase = .running routed) (transition : manager.step s (.settle outcome) = some t)
    (timedOut : TimedOut outcome) (going : s.aborted = false)
    (budget : manager.policy.canAttempt (s.attempts + 1) = true) :
    (¬ FailedWithCascade outcome →
      t.decisions = s.decisions ++ [.retry] ∧
        ∃ u, manager.step t .wake = some u ∧ u.phase = .running routed ∧
          u.attempts = s.attempts + 1) ∧
    ∀ result, outcome = .ok result → FailedWithCascade outcome →
      (manager.policy.canReplan s.replansUsed = true → ∀ replanned,
        deterministicReplan s.currentPlan
            (manager.mapFailure routed (classifyResult result s.attempts)) = .ok replanned →
        s.decisions ++ [.replan] <+: t.decisions ∧ t.currentPlan = replanned.plan) ∧
      ((manager.policy.canReplan s.replansUsed = false ∨ ∃ error,
          deterministicReplan s.currentPlan
            (manager.mapFailure routed (classifyResult result s.attempts)) = .error error) →
        t.decisions = s.decisions ++ [.failed] ∧ t.phase = .returned .failed) := by
  obtain ⟨prepared, accepted⟩ := Reaches.prepared reaches routed running
  constructor
  · intro alone
    obtain ⟨u, recorded, rfl⟩ := retry_of_timedOut running transition timedOut alone going budget
    refine ⟨by rw [← recorded.decisions]; rfl, ?_⟩
    rw [← recorded.pool, ← recorded.currentPlan] at prepared
    rw [← recorded.attempts] at budget ⊢
    exact wake_retry (recorded.aborted.trans going) budget prepared accepted
  · rintro result rfl cascade
    have code := code_of_cascade s.attempts timedOut cascade
    have actions := classifyResult_recoverability result s.attempts
    have unaborted : (manager.failedWith s result).aborted = false := going
    rw [step_settle_result running (by rw [cascade.1]; decide)] at transition
    constructor
    · intro allowed replanned pruned
      have taken := replan_eq_some (s := manager.failedWith s result) code actions budget
        allowed pruned
      obtain ⟨decisions, currentPlan⟩ := next_continues manager (manager.recordDecision
        { manager.failedWith s result with
          currentPlan := replanned.plan, replansUsed := s.replansUsed + 1 } .replan)
      rw [decideResult_replanned unaborted code actions taken] at transition
      rw [← Option.some.inj transition]
      exact ⟨decisions, currentPlan⟩
    · intro refused
      have kept := replan_eq_none (s := manager.failedWith s result) refused
      rw [decideResult_givenUp unaborted code actions kept] at transition
      rw [← Option.some.inj transition]
      exact ⟨rfl, rfl⟩

/-- One agent and the default budget of three attempts and two replans. -/
def soloManager : RecoveryManager where
  agents := [⟨"writer", []⟩]
  policy := ⟨3, 2, 0, three_attempts, no_delay⟩
  options := ⟨"run-1", "publish", .sequential, none, none⟩

def draftTask : PlanTask := ⟨"draft", "write a draft", none, none, none, none, none⟩

def reviewTask : PlanTask := ⟨"review", "check the draft", none, none, some ["draft"], none, none⟩

def draftStep : SequentialStep := ⟨"writer", "write a draft", none, none⟩

def reviewStep : SequentialStep := ⟨"writer", "check the draft", none, none⟩

def turnTimeout : String := "timeout: turn did not complete (no turn/end)"

/-- The execution of the first step times out. -/
def firstTimesOut : List Scheduler.Event :=
  [.ret none,
    .resolve "seq-0" (.fulfilled ⟨"seq-0", .failed, none, some turnTimeout, 5, none⟩),
    .tick, .tick]

def draftTimeout : SequentialStepResult :=
  ⟨0, "seq-0", "writer", .failed, none, some turnTimeout, 5⟩

def reviewCancelled : SequentialStepResult :=
  ⟨1, "seq-1", "writer", .cancelled, none, some "dependency 'seq-0' failed", 0⟩

def reportOf (steps : List SequentialStepResult) : SequentialReport :=
  { strategyEnvelope .sequential false (steps.map Sequential.stepTask) with steps, final := none }

/-- What the supervisor returns for the report of a run of the steps. -/
def soloResult (steps : List SequentialStep) (results : List SequentialStepResult) :
    SupervisorRunResult :=
  Supervisor.aggregate ⟨"run-1", "publish", .sequential steps, none, none⟩
    (.sequential (reportOf results)) 5 ⟨false, false⟩

theorem timeout_retry_draft :
    Sequential.run [draftStep] false firstTimesOut = some (reportOf [draftTimeout]) ∧
      ∃ t, soloManager.step (soloManager.start ⟨[draftTask]⟩ false)
          (.settle (.ok (soloResult [draftStep] [draftTimeout]))) = some t ∧
        t.decisions = [.retry] := by
  have timedOut : TimedOut (.ok (soloResult [draftStep] [draftTimeout])) :=
    .tasks _ (by decide) (by decide) (by decide)
  have alone : ¬ FailedWithCascade (.ok (soloResult [draftStep] [draftTimeout])) := by
    rintro ⟨-, cascaded⟩
    exact absurd cascaded (by unfold Cascaded; decide)
  have reaches : soloManager.Reaches ⟨[draftTask]⟩ false []
      (soloManager.start ⟨[draftTask]⟩ false) := rfl
  refine ⟨by decide, _, rfl, ?_⟩
  exact ((timeout_retry reaches rfl rfl timedOut rfl (by decide)).1 alone).1

/-- A draft times out and its review is cancelled behind it: with two attempts
left the run fails without a retry. -/
theorem draftTimeout_not_retried :
    Sequential.run [draftStep, reviewStep] false firstTimesOut =
        some (reportOf [draftTimeout, reviewCancelled]) ∧
      TimedOut (.ok (soloResult [draftStep, reviewStep] [draftTimeout, reviewCancelled])) ∧
      ∃ s t, soloManager.Reaches ⟨[draftTask, reviewTask]⟩ false [] s ∧
        s.aborted = false ∧ soloManager.policy.canAttempt (s.attempts + 1) = true ∧
        soloManager.step s
          (.settle (.ok (soloResult [draftStep, reviewStep] [draftTimeout, reviewCancelled]))) =
            some t ∧
        t.decisions ≠ s.decisions ++ [.retry] ∧ t.phase = .returned .failed := by
  refine ⟨by decide, .tasks _ (by decide) (by decide) (by decide), ?_⟩
  exact ⟨_, _, rfl, by decide, by decide, rfl, by decide, by decide⟩

end RecoveryManager

end MultiAgent.Native.Recovery
