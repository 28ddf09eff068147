import MultiAgent.Native.Recovery.Manager

/-!
# The budgets of a recovered run

The counters, the decisions and the failures of the loop are accounts of one
another: a repair or a replan is counted where it is decided, and an attempt
that does not complete leaves one failure. `Ledger` is that balance between the
decisions; a run ends by adding its last decision to it. Every event but the
abort uses up a part of the attempts that are left, which bounds the run.
-/

namespace MultiAgent.Native.Recovery

namespace RecoveryDecision

/-- The loop goes on behind it. -/
def goesOn : RecoveryDecision → Bool
  | .retry | .repair | .replan => true
  | .abort | .completed | .failed => false

/-- The last decision of a run, against the status of its result. -/
def agrees : RecoveryDecision → RecoveryStatus → Bool
  | .completed, .completed | .abort, .cancelled | .failed, .failed | .failed, .timeout => true
  | _, _ => false

end RecoveryDecision

namespace RecoveryManager

variable {manager : RecoveryManager} {plan : PlannerPlan} {aborted : Bool} {es : List Event}
variable {s t : State} {routed : RoutedPlan} {n : Nat}

theorem attempt_le (budget : manager.policy.canAttempt n = true) :
    n ≤ manager.policy.maxAttempts := by
  simp only [RetryPolicy.canAttempt, Bool.and_eq_true, decide_eq_true_eq] at budget
  exact budget.2

/-- The counters are within the policy and count the decisions they are about. -/
structure Counted (manager : RecoveryManager) (s : State) : Prop where
  attempts : s.attempts ≤ manager.policy.maxAttempts
  replans : s.replansUsed ≤ manager.policy.maxReplans
  repairsCounted : s.repairsUsed = s.decisions.count .repair
  replansCounted : s.replansUsed = s.decisions.count .replan

/-- The balance of a run that goes on, with the first `n` attempts recorded as
failures. -/
structure Ledger (manager : RecoveryManager) (n : Nat) (s : State) : Prop
    extends Counted manager s where
  goesOn : ∀ decision ∈ s.decisions, decision.goesOn = true
  failures : s.failures.map FailureRecord.attempt = List.range' 1 n

/-- The balance of a run that returned. -/
structure Closed (manager : RecoveryManager) (status : RecoveryStatus) (s : State) : Prop
    extends Counted manager s where
  decisions : ∃ trail last, s.decisions = trail ++ [last] ∧
    (∀ decision ∈ trail, decision.goesOn = true) ∧ last.goesOn = false ∧
    last.agrees status = true
  failures : s.failures.map FailureRecord.attempt =
    List.range' 1 (if status = .completed then s.attempts - 1 else s.attempts)

/-- The ledger of an attempt in progress. -/
def Attempting (manager : RecoveryManager) (s : State) : Prop :=
  1 ≤ s.attempts ∧ Ledger manager (s.attempts - 1) s

/-- What holds between the events of a run. -/
def Balanced (manager : RecoveryManager) (s : State) : Prop :=
  match s.phase with
  | .running _ => Attempting manager s
  | .delaying => Ledger manager s.attempts s
  | .returned status => Closed manager status s

theorem Ledger.recordFailure {failure : FailureRecord} (ledger : Ledger manager n s)
    (here : failure.attempt = n + 1) :
    Ledger manager (n + 1) (manager.recordFailure s failure) := by
  refine { ledger with failures := ?_ }
  simp only [RecoveryManager.recordFailure, List.map_append, ledger.failures, List.map_cons,
    List.map_nil, here, List.range'_concat]
  congr 2
  omega

/-- A run that ends here: nothing but the last decision is added. -/
theorem Ledger.close {status : RecoveryStatus} {last : RecoveryDecision}
    (ledger : Ledger manager n s) (stops : last.goesOn = false) (agrees : last.agrees status = true)
    (recorded : n = if status = .completed then s.attempts - 1 else s.attempts) :
    Balanced manager (manager.finish s status last) := by
  have uncounted : ∀ decision : RecoveryDecision, decision.goesOn = true →
      (s.decisions ++ [last]).count decision = s.decisions.count decision := by
    intro decision going
    have other : last ≠ decision := by
      rintro rfl
      simp [going] at stops
    simp [List.count_append, other]
  exact {
    attempts := ledger.attempts
    replans := ledger.replans
    repairsCounted := ledger.repairsCounted.trans (uncounted .repair rfl).symm
    replansCounted := ledger.replansCounted.trans (uncounted .replan rfl).symm
    decisions := ⟨s.decisions, last, rfl, ledger.goesOn, stops, agrees⟩
    failures := ledger.failures.trans (congrArg (List.range' 1) recorded) }

theorem Ledger.abort (ledger : Ledger manager s.attempts s) :
    Balanced manager (manager.finish s .cancelled .abort) :=
  ledger.close rfl rfl rfl

theorem Ledger.giveUp (ledger : Ledger manager s.attempts s) (code : Option FailureCode) :
    Balanced manager (manager.giveUp s code) := by
  rw [RecoveryManager.giveUp]
  split <;> exact ledger.close rfl rfl rfl

/-- A decision to go on, which the counters count. -/
theorem Ledger.decide (ledger : Ledger manager n s) (decision : RecoveryDecision)
    (goes : decision.goesOn = true) (plan : PlannerPlan) (pool : List AgentDescriptor)
    (budget : s.replansUsed + [decision].count .replan ≤ manager.policy.maxReplans) :
    Ledger manager n (manager.recordDecision
      { s with
        currentPlan := plan, pool
        repairsUsed := s.repairsUsed + [decision].count .repair
        replansUsed := s.replansUsed + [decision].count .replan } decision) where
  attempts := ledger.attempts
  replans := budget
  repairsCounted := by
    rw [recordDecision, List.count_append, ← ledger.repairsCounted]
  replansCounted := by
    rw [recordDecision, List.count_append, ← ledger.replansCounted]
  goesOn := List.forall_mem_append.mpr ⟨ledger.goesOn, List.forall_mem_singleton.mpr goes⟩
  failures := ledger.failures

theorem Ledger.retry (ledger : Ledger manager s.attempts s) :
    Balanced manager (manager.retry s) := by
  have decided := ledger.decide .retry rfl s.currentPlan s.pool ledger.replans
  exact { decided with }

theorem Attempting.record {failure : FailureRecord} (attempting : Attempting manager s)
    (here : failure.attempt = s.attempts) :
    Ledger manager (manager.recordFailure s failure).attempts
      (manager.recordFailure s failure) := by
  obtain ⟨positive, ledger⟩ := attempting
  have recorded : Ledger manager (s.attempts - 1 + 1) (manager.recordFailure s failure) :=
    ledger.recordFailure (by omega)
  rwa [Nat.sub_add_cancel positive] at recorded

theorem Attempting.caught (attempting : Attempting manager s) (error : Thrown) :
    Balanced manager (manager.caught s error) := by
  obtain ⟨u, rfl, stopped | retried | ⟨code, gaveUp⟩⟩ := caught_cases manager s error
  · rw [stopped]
    exact (attempting.record rfl).abort
  · rw [retried]
    exact (attempting.record rfl).retry
  · rw [gaveUp]
    exact (attempting.record rfl).giveUp code

theorem Attempting.dispatch (attempting : Attempting manager s) :
    Balanced manager (manager.dispatch s) := by
  obtain ⟨error, rejected⟩ | ⟨error, caught⟩ | ⟨routed, input, -, -, running⟩ :=
    dispatch_cases manager s
  · rw [rejected]
    exact (attempting.record rfl).close rfl rfl rfl
  · rw [caught]
    exact attempting.caught error
  · rw [running]
    exact ⟨attempting.1, { attempting.2 with }⟩

theorem Ledger.countAttempt (ledger : Ledger manager s.attempts s)
    (budget : manager.policy.canAttempt (s.attempts + 1) = true) :
    Attempting manager (manager.countAttempt s) :=
  ⟨by simp [RecoveryManager.countAttempt], { ledger with attempts := attempt_le budget }⟩

theorem Ledger.next (ledger : Ledger manager s.attempts s) : Balanced manager (manager.next s) := by
  obtain stopped | spent | ⟨budget, dispatched⟩ := next_cases manager s
  · rw [stopped]
    exact ledger.abort
  · rw [spent]
    exact ledger.giveUp _
  · rw [dispatched]
    exact (ledger.countAttempt budget).dispatch

theorem Ledger.decideResult (ledger : Ledger manager s.attempts s) (failure : FailureRecord) :
    Balanced manager (manager.decideResult s routed failure) := by
  obtain stopped | retried | ⟨t, taken, goesOn⟩ | ⟨t, taken, goesOn⟩ | ⟨code, gaveUp⟩ :=
    decideResult_cases manager s routed failure
  · rw [stopped]
    exact ledger.abort
  · rw [retried]
    exact ledger.retry
  · obtain ⟨-, plan, pool, rfl⟩ := repair_cases taken
    rw [goesOn]
    exact (ledger.decide .repair rfl plan pool ledger.replans).next
  · obtain ⟨budget, replanned, -, rfl⟩ := replan_cases taken
    have spare : s.replansUsed < manager.policy.maxReplans := of_decide_eq_true budget
    rw [goesOn]
    exact (ledger.decide .replan rfl replanned.plan s.pool spare).next
  · rw [gaveUp]
    exact ledger.giveUp code

theorem classifyResult_attempt (result : SupervisorRunResult) (attempt : Nat) :
    (classifyResult result attempt).attempt = attempt := by
  rw [classifyResult]
  cases result.status <;> rfl

theorem Attempting.settled (attempting : Attempting manager s) (result : SupervisorRunResult) :
    Balanced manager (manager.settled s routed result) := by
  obtain ⟨positive, ledger⟩ := attempting
  have returned : Attempting manager { s with lastResult := some result } :=
    ⟨positive, { ledger with }⟩
  unfold RecoveryManager.settled
  dsimp only
  split
  · exact returned.2.close rfl rfl rfl
  · exact (returned.record (classifyResult_attempt result s.attempts)).decideResult _

theorem Balanced.step {e : Event} (balanced : Balanced manager s)
    (transition : manager.step s e = some t) : Balanced manager t := by
  obtain ⟨routed, error, phase, -, rfl⟩ | ⟨routed, result, phase, -, rfl⟩ | ⟨phase, -, rfl⟩ |
    ⟨-, -, rfl⟩ := step_cases transition
  · simp only [Balanced, phase] at balanced
    exact Attempting.caught balanced error
  · simp only [Balanced, phase] at balanced
    exact Attempting.settled balanced result
  · simp only [Balanced, phase] at balanced
    exact balanced.next
  · unfold Balanced at balanced ⊢
    cases phase : s.phase with
    | running routed =>
        simp only [phase] at balanced ⊢
        exact ⟨balanced.1, { balanced.2 with }⟩
    | delaying =>
        simp only [phase] at balanced ⊢
        exact { balanced with }
    | returned status =>
        simp only [phase] at balanced ⊢
        exact { balanced with }

theorem Reaches.balanced (reaches : manager.Reaches plan aborted es s) : Balanced manager s := by
  have fresh : Ledger manager 0 (manager.initial plan aborted) :=
    { attempts := Nat.zero_le _, replans := Nat.zero_le _, repairsCounted := rfl
      replansCounted := rfl, goesOn := by simp [initial], failures := rfl }
  exact Machine.run_invariant (fun _ _ _ inv transition => Balanced.step inv transition)
    (Ledger.next fresh) reaches

/-- How much of the budget the run may still use up. -/
def toGo (manager : RecoveryManager) (s : State) : Nat :=
  match s.phase with
  | .running _ => 2 * (manager.policy.maxAttempts - s.attempts) + 2
  | .delaying => 2 * (manager.policy.maxAttempts - s.attempts) + 1
  | .returned _ => 0

/-- From `s` the loop went on to `t`, with at most `n` to go. -/
structure Spends (manager : RecoveryManager) (n : Nat) (s t : State) : Prop where
  toGo : toGo manager t ≤ n
  aborted : t.aborted = s.aborted

theorem giveUp_spends (code : Option FailureCode) : Spends manager n s (manager.giveUp s code) :=
  ⟨Nat.zero_le _, rfl⟩

theorem finish_spends {status : RecoveryStatus} {last : RecoveryDecision} :
    Spends manager n s (manager.finish s status last) :=
  ⟨Nat.zero_le _, rfl⟩

theorem caught_spends (manager : RecoveryManager) (s : State) (error : Thrown) :
    Spends manager (2 * (manager.policy.maxAttempts - s.attempts) + 1) s
      (manager.caught s error) := by
  obtain ⟨u, rfl, stopped | retried | ⟨code, gaveUp⟩⟩ := caught_cases manager s error
  · rw [stopped]
    exact ⟨Nat.zero_le _, rfl⟩
  · rw [retried]
    exact ⟨Nat.le_refl _, rfl⟩
  · rw [gaveUp]
    exact ⟨Nat.zero_le _, rfl⟩

theorem next_spends (manager : RecoveryManager) (s : State) :
    Spends manager (2 * (manager.policy.maxAttempts - s.attempts)) s (manager.next s) := by
  obtain stopped | spent | ⟨budget, dispatched⟩ := next_cases manager s
  · rw [stopped]
    exact finish_spends
  · rw [spent]
    exact giveUp_spends _
  · have left := attempt_le budget
    rw [dispatched]
    obtain ⟨error, rejected⟩ | ⟨error, caught⟩ | ⟨routed, input, -, -, running⟩ :=
      dispatch_cases manager (manager.countAttempt s)
    · rw [rejected]
      exact ⟨Nat.zero_le _, rfl⟩
    · rw [caught]
      obtain ⟨toGo, aborted⟩ := caught_spends manager (manager.countAttempt s) error
      refine ⟨toGo.trans ?_, aborted⟩
      simp only [countAttempt]
      omega
    · rw [running]
      refine ⟨?_, rfl⟩
      simp only [RecoveryManager.toGo, countAttempt]
      omega

theorem decideResult_spends (manager : RecoveryManager) (s : State) (routed : RoutedPlan)
    (failure : FailureRecord) :
    Spends manager (2 * (manager.policy.maxAttempts - s.attempts) + 1) s
      (manager.decideResult s routed failure) := by
  have onward : ∀ t, t.attempts = s.attempts → t.aborted = s.aborted →
      Spends manager (2 * (manager.policy.maxAttempts - s.attempts) + 1) s (manager.next t) := by
    intro t attempts aborted
    obtain ⟨toGo, kept⟩ := next_spends manager t
    exact ⟨by omega, kept.trans aborted⟩
  obtain stopped | retried | ⟨t, taken, goesOn⟩ | ⟨t, taken, goesOn⟩ | ⟨code, gaveUp⟩ :=
    decideResult_cases manager s routed failure
  · rw [stopped]
    exact finish_spends
  · rw [retried]
    exact ⟨Nat.le_refl _, rfl⟩
  · obtain ⟨-, plan, pool, rfl⟩ := repair_cases taken
    rw [goesOn]
    exact onward _ rfl rfl
  · obtain ⟨-, replanned, -, rfl⟩ := replan_cases taken
    rw [goesOn]
    exact onward _ rfl rfl
  · rw [gaveUp]
    exact giveUp_spends code

theorem settled_spends (manager : RecoveryManager) (s : State) (routed : RoutedPlan)
    (result : SupervisorRunResult) :
    Spends manager (2 * (manager.policy.maxAttempts - s.attempts) + 1) s
      (manager.settled s routed result) := by
  unfold RecoveryManager.settled
  dsimp only
  split
  · exact ⟨Nat.zero_le _, rfl⟩
  · obtain ⟨toGo, aborted⟩ := decideResult_spends manager
      (manager.recordFailure { s with lastResult := some result }
        (classifyResult result s.attempts))
      routed (classifyResult result s.attempts)
    exact ⟨toGo, aborted⟩

/-- What is left of a run, with the abort that may still come. -/
def remaining (manager : RecoveryManager) (s : State) : Nat :=
  toGo manager s + if s.aborted then 0 else 1

theorem remaining_step {e : Event} (transition : manager.step s e = some t) :
    remaining manager t < remaining manager s := by
  obtain ⟨routed, error, phase, -, rfl⟩ | ⟨routed, result, phase, -, rfl⟩ | ⟨phase, -, rfl⟩ |
    ⟨aborted, -, rfl⟩ := step_cases transition
  · obtain ⟨spent, aborted⟩ := caught_spends manager s error
    simp only [remaining, aborted, toGo, phase] at spent ⊢
    omega
  · obtain ⟨spent, aborted⟩ := settled_spends manager s routed result
    simp only [remaining, aborted, toGo, phase] at spent ⊢
    omega
  · obtain ⟨spent, aborted⟩ := next_spends manager s
    simp only [remaining, aborted, toGo, phase] at spent ⊢
    omega
  · simp [remaining, toGo, aborted]

/-- No run takes more events than its budget allows. -/
theorem Reaches.length_le (reaches : manager.Reaches plan aborted es s) :
    es.length ≤ 2 * manager.policy.maxAttempts + 1 := by
  have descends := Machine.run_length_le (P := fun _ => True) (remaining manager)
    (fun _ _ _ _ _ => trivial) (fun _ _ _ _ transition => remaining_step transition) trivial reaches
  have spent : toGo manager (manager.start plan aborted) ≤ 2 * manager.policy.maxAttempts :=
    (next_spends manager _).toGo
  have bound : remaining manager (manager.start plan aborted) ≤
      2 * manager.policy.maxAttempts + 1 := by
    rw [remaining]
    split <;> omega
  omega

theorem Balanced.counted (balanced : Balanced manager s) : Counted manager s := by
  rw [Balanced] at balanced
  cases phase : s.phase with
  | running routed =>
      simp only [phase] at balanced
      exact balanced.2.toCounted
  | delaying =>
      simp only [phase] at balanced
      exact balanced.toCounted
  | returned status =>
      simp only [phase] at balanced
      exact balanced.toCounted

/-- A run that has not returned has an event to wait for. -/
theorem next_enabled (manager : RecoveryManager) (s : State) :
    (∃ status, s.phase = .returned status) ∨
      (∀ outcome, (manager.step s (.settle outcome)).isSome = true) ∨
      (manager.step s .wake).isSome = true := by
  cases phase : s.phase with
  | running routed =>
      refine .inr (.inl ?_)
      intro outcome
      cases outcome <;> simp [step, phase]
  | delaying => exact .inr (.inr (by simp [step, phase]))
  | returned status => exact .inl ⟨status, rfl⟩

/-- The loop ends within its budgets, and what it reports about them adds up:
decisions to go on, then a last one that agrees with the status; one counted
repair or replan for each decision for it; one failure for each attempt that did
not complete. -/
theorem bounded_recovery (reaches : manager.Reaches plan aborted es s) :
    (s.attempts ≤ manager.policy.maxAttempts ∧ s.replansUsed ≤ manager.policy.maxReplans) ∧
    (s.repairsUsed = s.decisions.count .repair ∧ s.replansUsed = s.decisions.count .replan) ∧
    es.length ≤ 2 * manager.policy.maxAttempts + 1 ∧
    ((∃ status, s.phase = .returned status) ∨
      (∀ outcome, (manager.step s (.settle outcome)).isSome = true) ∨
      (manager.step s .wake).isSome = true) ∧
    ∀ status, s.phase = .returned status →
      (∃ trail last, s.decisions = trail ++ [last] ∧
        (∀ decision ∈ trail, decision.goesOn = true) ∧ last.goesOn = false ∧
        last.agrees status = true) ∧
      s.failures.map FailureRecord.attempt =
        List.range' 1 (if status = .completed then s.attempts - 1 else s.attempts) := by
  have balanced := Reaches.balanced reaches
  obtain ⟨attempts, replans, repairsCounted, replansCounted⟩ := balanced.counted
  refine ⟨⟨attempts, replans⟩, ⟨repairsCounted, replansCounted⟩, Reaches.length_le reaches,
    next_enabled manager s, ?_⟩
  intro status returned
  simp only [Balanced, returned] at balanced
  exact ⟨balanced.decisions, balanced.failures⟩

/-- One agent, two attempts and no replans. -/
def frugalManager : RecoveryManager where
  agents := [⟨"writer", []⟩]
  policy := ⟨2, 0, 0, by decide, no_delay⟩
  options := ⟨"run-1", "publish", .sequential, none, none⟩

def noteTask : PlanTask := ⟨"note", "write a note", none, none, none, none, none⟩

/-- The supervisor run times out as a whole. -/
def runTimesOut : Event := .settle (.error (.supervisor ⟨.timeout, "run 'run-1' timed out"⟩))

theorem bounded_recovery_twice :
    ∃ s, frugalManager.Reaches ⟨[noteTask]⟩ false [runTimesOut, .wake, runTimesOut] s ∧
      s.phase = .returned .timeout ∧ s.decisions = [.retry, .failed] ∧
      s.failures.map FailureRecord.attempt = List.range' 1 2 := by
  have reaches : ∃ s, frugalManager.Reaches ⟨[noteTask]⟩ false
      [runTimesOut, .wake, runTimesOut] s :=
    ⟨_, rfl⟩
  obtain ⟨s, reached⟩ := reaches
  have returned : s.phase = .returned .timeout ∧ s.decisions = [.retry, .failed] ∧
      s.attempts = 2 := by
    cases reached
    exact ⟨rfl, rfl, rfl⟩
  have report := (bounded_recovery reached).2.2.2.2 .timeout returned.1
  simp only [returned.2.2, reduceCtorEq, if_false] at report
  exact ⟨s, reached, returned.1, returned.2.1, report.2⟩

end RecoveryManager

end MultiAgent.Native.Recovery
