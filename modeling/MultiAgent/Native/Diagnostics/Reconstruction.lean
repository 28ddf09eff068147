import MultiAgent.Foundations.Interleaving
import MultiAgent.Native.Diagnostics
import MultiAgent.Native.Recovery.Budget
import Mathlib.Algebra.GroupWithZero.Nat

/-!
# What the diagnostics reconstruct

The facts of a recovered run travel twice: one event at a time to the diagnostics, and in the
result of the run. `Account` says that the events which a run has emitted so far give what
its variables hold, to the registry as to the metrics. Events of different runs go to
different keys of the registry, and the metrics only add, so the order in which the streams
are mixed makes no difference.
-/

namespace MultiAgent.Native.Diagnostics

open Recovery

/-- An event of a recovery loop and the instant it is stamped with. -/
abbrev Told := Int × ObservabilityEvent

/-- The entry of a run in a registry with room, after one more event that names the run. -/
def follow (entry : Option RunInspection) (told : Told) : Option RunInspection :=
  match told.2 with
  | .started runId =>
    if entry.any fun r => decide (r.status ≠ .running) then entry
    else some (.opened runId told.1)
  | .attempt _ attempt => entry.map (.whileRunning (.attempt attempt))
  | .failure _ attempt code taskId agentId =>
    entry.map (.whileRunning (.failure ⟨told.1, attempt, code, taskId, agentId⟩))
  | .decision _ _ decision => entry.map (.whileRunning (.decision decision))
  | .finished _ status attempts repairsUsed replansUsed =>
    entry.map (.whileRunning (.complete status attempts repairsUsed replansUsed told.1))

namespace RunRegistry

variable {registry : RunRegistry} {runId other : String} {ids : List String}

theorem trim_runs (runs : Dict String RunInspection) :
    (registry.trim runs).runs = runs.drop (runs.keys.length - registry.maxRuns) := rfl

theorem trim_of_le {runs : Dict String RunInspection}
    (room : runs.keys.length ≤ registry.maxRuns) : (registry.trim runs).runs = runs := by
  rw [trim_runs, Nat.sub_eq_zero_of_le room, Dict.drop_zero]

/-- The run that was set last is not trimmed. -/
theorem get_trim_set {runs : Dict String RunInspection} {r : RunInspection}
    (room : runs.keys.length ≤ registry.maxRuns) :
    (registry.trim (runs.set runId r)).get runId = some r := by
  by_cases known : runId ∈ runs.keys
  · have same : (runs.set runId r).keys = runs.keys := Dict.keys_set_of_mem known
    rw [get, trim_of_le (same ▸ room), Dict.get?_set_self]
  · have entries := Dict.entries_set_of_notMem (v := r) known
    have length : (runs.set runId r).keys.length = runs.keys.length + 1 := by
      rw [Dict.keys_set_of_notMem known, List.length_append, List.length_singleton]
    have positive := registry.positive
    have size : runs.entries.length = runs.keys.length := by simp [Dict.keys]
    rw [get, trim_runs, Dict.get?_eq_some_iff, length]
    change _ ∈ (runs.set runId r).entries.drop _
    rw [entries, List.drop_append_of_le_length (by omega)]
    simp

theorem get_update {change : RunInspection → RunInspection} :
    (registry.update runId change).get other =
      if other = runId then (registry.get other).map (.whileRunning change)
      else registry.get other := by
  rw [get, update, Dict.get?_modify]
  by_cases same : other = runId <;> simp [same, get]

theorem get_start (known : ∀ key ∈ registry.runs.keys, key ∈ ids) (member : runId ∈ ids)
    (few : ids.length ≤ registry.maxRuns) (time : Int) :
    (registry.start runId time).get other =
      if other = runId then follow (registry.get other) (time, .started runId)
      else registry.get other := by
  by_cases settled : registry.settled runId = true
  · rw [start, if_pos settled]
    by_cases same : other = runId
    · subst same
      rw [if_pos rfl, follow]
      exact (if_pos settled).symm
    · rw [if_neg same]
  · rw [start, if_neg settled, get, trim_of_le, Dict.get?_set, Dict.get?_erase]
    · by_cases same : other = runId
      · subst same
        rw [if_pos rfl, if_pos rfl, follow]
        exact (if_neg settled).symm
      · rw [if_neg same, if_neg same, if_neg same, get]
    · refine le_trans (List.Nodup.length_le_of_subset (Dict.distinct _) ?_) few
      intro key present
      obtain rfl | kept := Dict.mem_keys_set.mp present
      · exact member
      · rw [Dict.keys_erase] at kept
        exact known key (List.mem_of_mem_filter kept)

theorem keys_start (known : ∀ key ∈ registry.runs.keys, key ∈ ids) (member : runId ∈ ids)
    (few : ids.length ≤ registry.maxRuns) (time : Int) :
    ∀ key ∈ (registry.start runId time).runs.keys, key ∈ ids := by
  intro key present
  obtain ⟨r, found⟩ := Dict.mem_keys_iff.mp present
  have shown : (registry.start runId time).get key = some r := found
  rw [get_start known member few] at shown
  by_cases same : key = runId
  · exact same ▸ member
  · rw [if_neg same] at shown
    exact known key (Dict.mem_keys_iff.mpr ⟨r, shown⟩)

/-- The registry knows runs of the list only, and there is room for all of them. -/
structure Within (ids : List String) (registry : RunRegistry) : Prop where
  known : ∀ key ∈ registry.runs.keys, key ∈ ids
  room : ids.length ≤ registry.maxRuns

theorem Within.update (within : Within ids registry) (change : RunInspection → RunInspection) :
    Within ids (registry.update runId change) := by
  refine ⟨?_, within.room⟩
  intro key present
  rw [RunRegistry.update, Dict.keys_modify] at present
  exact within.known key present

theorem Within.start (within : Within ids registry) (member : runId ∈ ids) (time : Int) :
    Within ids (registry.start runId time) := by
  refine ⟨keys_start within.known member within.room time, ?_⟩
  rw [RunRegistry.start]
  split
  · exact within.room
  · exact within.room

end RunRegistry

namespace RuntimeDiagnostics

open RunRegistry

variable {registry : RunRegistry} {ids : List String} {time : Int} {event : ObservabilityEvent}

theorem within_consumeRecovery (within : Within ids registry) (member : event.runId ∈ ids) :
    Within ids (consumeRecovery registry time event) := by
  cases event with
  | started runId => exact within.start member time
  | attempt runId attempt => exact within.update _
  | failure runId attempt code taskId agentId => exact within.update _
  | decision runId attempt decision => exact within.update _
  | finished runId status attempts repairsUsed replansUsed => exact within.update _

/-- An event changes the entry of the run that it names, and no other. -/
theorem get_consumeRecovery (within : Within ids registry) (member : event.runId ∈ ids)
    (runId : String) :
    (consumeRecovery registry time event).get runId =
      if runId = event.runId then follow (registry.get runId) (time, event)
      else registry.get runId := by
  cases event with
  | started id => exact get_start within.known member within.room time
  | attempt id attempt => exact get_update
  | failure id attempt code taskId agentId => exact get_update
  | decision id attempt decision => exact get_update
  | finished id status attempts repairsUsed replansUsed => exact get_update

/-- Does the event name the run? -/
def names (runId : String) (event : RuntimeEvent) : Bool :=
  decide (event.runId? = some runId)

/-- The entry of a run after any events is what the events that name it make of it. -/
theorem get_ingestAll (diagnostics : RuntimeDiagnostics) {events : List RuntimeEvent}
    (within : Within ids diagnostics.registry)
    (members : ∀ event ∈ events, ∀ id, event.runId? = some id → id ∈ ids) {told : List Told}
    {runId : String}
    (own : events.filter (names runId) = told.map fun e => RuntimeEvent.recovery e.1 e.2) :
    (events.foldl ingest diagnostics).inspect runId =
      told.foldl follow (diagnostics.inspect runId) := by
  induction events generalizing diagnostics told with
  | nil =>
      have silent : told = [] := List.map_eq_nil_iff.mp own.symm
      rw [silent]
      rfl
  | cons event events ih =>
      obtain ⟨here, later⟩ := List.forall_mem_cons.mp members
      cases event with
      | taskStarted time taskId agentId =>
          have kept : Within ids (diagnostics.ingest (.taskStarted time taskId agentId)).registry :=
            within
          exact ih _ kept later own
      | taskFinished time taskId agentId status durationMs =>
          have kept : Within ids
              (diagnostics.ingest (.taskFinished time taskId agentId status durationMs)).registry :=
            within
          exact ih _ kept later own
      | recovery time event =>
          have member : event.runId ∈ ids := here event.runId rfl
          have within' : Within ids (diagnostics.ingest (.recovery time event)).registry :=
            within_consumeRecovery within member
          have entry : (diagnostics.ingest (.recovery time event)).inspect runId =
              if runId = event.runId then follow (diagnostics.inspect runId) (time, event)
              else diagnostics.inspect runId := get_consumeRecovery within member runId
          rw [List.foldl_cons]
          by_cases named : runId = event.runId
          · have picked : names runId (.recovery time event) = true := by
              simp [names, RuntimeEvent.runId?, named]
            rw [List.filter_cons_of_pos picked] at own
            obtain ⟨first, rest, rfl, head, tail⟩ := List.map_eq_cons_iff.mp own.symm
            obtain ⟨rfl, rfl⟩ := RuntimeEvent.recovery.inj head
            rw [ih _ within' later tail.symm, entry, if_pos named]
            rfl
          · have skipped : ¬ names runId (.recovery time event) = true := by
              simpa [names, RuntimeEvent.runId?] using Ne.symm named
            rw [List.filter_cons_of_neg skipped] at own
            rw [ih _ within' later own, entry, if_neg named]

end RuntimeDiagnostics

/-- The counters of the metrics. -/
inductive Counter where
  | tasksStarted
  | tasksCompleted
  | tasksFailed
  | tasksCancelled
  | recoveryRuns
  | recoveryCompleted
  | recoveryFailed
  | recoveryCancelled
  | recoveryTimeouts
  | recoveryAttempts
  | repairs
  | replans
  | failuresByCode (code : FailureCode)
  | decisions (decision : RecoveryDecision)
  deriving DecidableEq

/-- The counter for the runs that ended with the status. -/
def Counter.ofStatus : RecoveryStatus → Counter
  | .completed => .recoveryCompleted
  | .failed => .recoveryFailed
  | .cancelled => .recoveryCancelled
  | .timeout => .recoveryTimeouts

/-- The counters that a decision raises. -/
def Counter.ofDecision (decision : RecoveryDecision) : List Counter :=
  match decision with
  | .repair => [.decisions .repair, .repairs]
  | .replan => [.decisions .replan, .replans]
  | other => [.decisions other]

/-- The counters that an event of a recovery loop raises. -/
def Counter.ofEvent : ObservabilityEvent → List Counter
  | .started _ => [.recoveryRuns]
  | .attempt _ _ => [.recoveryAttempts]
  | .failure _ _ code _ _ => [.failuresByCode code]
  | .decision _ _ decision => ofDecision decision
  | .finished _ status _ _ _ => [ofStatus status]

/-- The counters that an event raises. -/
def Counter.raised : RuntimeEvent → List Counter
  | .taskStarted _ _ _ => [.tasksStarted]
  | .taskFinished _ _ _ .completed _ => [.tasksCompleted]
  | .taskFinished _ _ _ .failed _ => [.tasksFailed]
  | .taskFinished _ _ _ .cancelled _ => [.tasksCancelled]
  | .recovery _ event => ofEvent event

namespace MetricsCollector

def count (metrics : MetricsCollector) : Counter → Nat
  | .tasksStarted => metrics.tasksStarted
  | .tasksCompleted => metrics.tasksCompleted
  | .tasksFailed => metrics.tasksFailed
  | .tasksCancelled => metrics.tasksCancelled
  | .recoveryRuns => metrics.recoveryRuns
  | .recoveryCompleted => metrics.recoveryCompleted
  | .recoveryFailed => metrics.recoveryFailed
  | .recoveryCancelled => metrics.recoveryCancelled
  | .recoveryTimeouts => metrics.recoveryTimeouts
  | .recoveryAttempts => metrics.recoveryAttempts
  | .repairs => metrics.repairs
  | .replans => metrics.replans
  | .failuresByCode code => metrics.failuresByCode code
  | .decisions decision => metrics.decisions decision

theorem count_recordDecision (metrics : MetricsCollector) (decision : RecoveryDecision)
    (c : Counter) :
    (metrics.recordDecision decision).count c =
      metrics.count c + (Counter.ofDecision decision).count c := by
  cases c with
  | decisions other =>
      cases decision <;> cases other <;> simp [recordDecision, count, Counter.ofDecision]
  | _ => cases decision <;> simp [recordDecision, count, Counter.ofDecision]

theorem count_record (metrics : MetricsCollector) (event : RuntimeEvent) (c : Counter) :
    (metrics.record event).count c = metrics.count c + (Counter.raised event).count c := by
  cases event with
  | taskStarted time taskId agentId =>
      cases c <;> simp [record, count, Counter.raised]
  | taskFinished time taskId agentId status durationMs =>
      cases status <;> cases c <;> simp [record, count, Counter.raised]
  | recovery time event =>
      cases event with
      | started runId =>
          cases c <;> simp [record, count, Counter.raised, Counter.ofEvent]
      | attempt runId attempt =>
          cases c <;> simp [record, count, Counter.raised, Counter.ofEvent]
      | failure runId attempt code taskId agentId =>
          cases c with
          | failuresByCode other =>
              simp [record, count, Counter.raised, Counter.ofEvent, List.count_singleton,
                eq_comm (a := other)]
          | _ => simp [record, count, Counter.raised, Counter.ofEvent]
      | decision runId attempt decision => exact count_recordDecision metrics decision c
      | finished runId status attempts repairsUsed replansUsed =>
          cases status <;> cases c <;>
            simp [record, count, Counter.raised, Counter.ofEvent, Counter.ofStatus]

/-- Every counter is the number of the times that it is raised. -/
theorem count_ingestAll (diagnostics : RuntimeDiagnostics) (events : List RuntimeEvent)
    (c : Counter) :
    (events.foldl RuntimeDiagnostics.ingest diagnostics).metrics.count c =
      diagnostics.metrics.count c + (events.flatMap Counter.raised).count c := by
  induction events generalizing diagnostics with
  | nil => simp
  | cons event events ih =>
      rw [List.foldl_cons, ih, RuntimeDiagnostics.ingest, count_record, List.flatMap_cons,
        List.count_append, Nat.add_assoc]

end MetricsCollector

section Account

variable {manager : RecoveryManager} {s t : State} {status : RunInspectionStatus}
  {e : ObservabilityEvent}

def FailureSummary.facts (summary : FailureSummary) :
    Nat × FailureCode × Option String × Option String :=
  (summary.attempt, summary.code, summary.taskId, summary.agentId)

/-- What the diagnostics are told of a failure. -/
def factsOf (failure : FailureRecord) : Nat × FailureCode × Option String × Option String :=
  (failure.attempt, failure.code, failure.taskId, failure.agentId)

/-- The counters that a run has raised, by its variables. -/
def raisedBy (s : State) : List Counter :=
  .recoveryRuns :: (List.replicate s.attempts .recoveryAttempts ++
    s.failures.map (fun failure => .failuresByCode failure.code) ++
    s.decisions.flatMap Counter.ofDecision)

def RunInspectionStatus.counters : RunInspectionStatus → List Counter
  | .running => []
  | .ended status => [.ofStatus status]

/-- The entry of a run shows its variables; repairs and replans are shown at the end. -/
structure Mirrors (manager : RecoveryManager) (s : State) (current : RunInspectionStatus)
    (r : RunInspection) : Prop where
  runId : r.runId = manager.options.runId
  status : r.status = current
  attempts : r.attempts = s.attempts
  repairsUsed : current ≠ .running → r.repairsUsed = s.repairsUsed
  replansUsed : current ≠ .running → r.replansUsed = s.replansUsed
  failureCount : r.failureCount = s.failures.length
  failures : r.failures.map FailureSummary.facts = s.failures.map factsOf
  decisions : r.decisions = s.decisions

/-- The events that a run has emitted account for its variables. -/
structure Account (manager : RecoveryManager) (status : RunInspectionStatus) (s : State) :
    Prop where
  named : ∀ event ∈ s.observed, event.runId = manager.options.runId
  counted : ∀ c, (s.observed.flatMap Counter.ofEvent).count c =
    (raisedBy s).count c + status.counters.count c
  shown : ∀ told : List Told, told.map Prod.snd = s.observed →
    ∃ r, told.foldl follow none = some r ∧ Mirrors manager s status r

/-- The account is about six of the variables. -/
theorem Account.frame (account : Account manager status s) (observed : t.observed = s.observed)
    (attempts : t.attempts = s.attempts) (repairsUsed : t.repairsUsed = s.repairsUsed)
    (replansUsed : t.replansUsed = s.replansUsed) (failures : t.failures = s.failures)
    (decisions : t.decisions = s.decisions) : Account manager status t where
  named := by
    rw [observed]
    exact account.named
  counted := by
    rw [observed, raisedBy, attempts, failures, decisions]
    exact account.counted
  shown := by
    intro told emitted
    rw [observed] at emitted
    obtain ⟨r, entry, mirrors⟩ := account.shown told emitted
    refine ⟨r, entry, ?_⟩
    constructor
    · exact mirrors.runId
    · exact mirrors.status
    · exact mirrors.attempts.trans attempts.symm
    · exact fun ended => (mirrors.repairsUsed ended).trans repairsUsed.symm
    · exact fun ended => (mirrors.replansUsed ended).trans replansUsed.symm
    · exact failures ▸ mirrors.failureCount
    · exact failures ▸ mirrors.failures
    · exact mirrors.decisions.trans decisions.symm

/-- One more event of a running run, which is also made to its variables. -/
theorem Account.tell (account : Account manager .running s) (told : t.observed = s.observed ++ [e])
    (named : e.runId = manager.options.runId)
    (counted : ∀ c, (raisedBy t).count c + status.counters.count c =
      (raisedBy s).count c + (Counter.ofEvent e).count c)
    (shown : ∀ r time, Mirrors manager s .running r →
      ∃ r', follow (some r) (time, e) = some r' ∧ Mirrors manager t status r') :
    Account manager status t where
  named := by
    rw [told]
    exact List.forall_mem_append.mpr ⟨account.named, List.forall_mem_singleton.mpr named⟩
  counted := by
    intro c
    rw [told, List.flatMap_append, List.count_append, account.counted, counted]
    simp [RunInspectionStatus.counters]
  shown := by
    intro received emitted
    rw [told] at emitted
    obtain ⟨before, last, rfl, earlier, final⟩ := List.map_eq_append_iff.mp emitted
    obtain ⟨⟨time, event⟩, rest, rfl, rfl, empty⟩ := List.map_eq_cons_iff.mp final
    obtain rfl := List.map_eq_nil_iff.mp empty
    obtain ⟨r, entry, mirrors⟩ := account.shown before earlier
    rw [List.foldl_append, entry]
    exact shown r time mirrors

theorem follow_running {r : RunInspection} {change : RunInspection → RunInspection}
    (mirrors : Mirrors manager s .running r) :
    (some r).map (RunInspection.whileRunning change) = some (change r) := by
  simp [RunInspection.whileRunning, mirrors.status]

theorem Account.recordDecision (account : Account manager .running s)
    (decision : RecoveryDecision) :
    Account manager .running (manager.recordDecision s decision) := by
  refine account.tell rfl rfl ?_ ?_
  · intro c
    simp [raisedBy, RecoveryManager.recordDecision, RunInspectionStatus.counters,
      Counter.ofEvent, List.count_append, List.count_cons]
    omega
  · intro r time mirrors
    refine ⟨_, follow_running mirrors, { mirrors with decisions := ?_ }⟩
    exact congrArg (· ++ [decision]) mirrors.decisions

theorem Account.recordFailure {failure : FailureRecord} (account : Account manager .running s)
    (here : failure.attempt = s.attempts) :
    Account manager .running (manager.recordFailure s failure) := by
  refine account.tell rfl rfl ?_ ?_
  · intro c
    simp [raisedBy, RecoveryManager.recordFailure, RunInspectionStatus.counters,
      Counter.ofEvent, List.count_append, List.count_cons]
    omega
  · intro r time mirrors
    refine ⟨_, follow_running mirrors,
      { mirrors with attempts := ?_, failureCount := ?_, failures := ?_ }⟩
    · simp [RunInspection.failure, mirrors.attempts, here, RecoveryManager.recordFailure]
    · simp [RunInspection.failure, mirrors.failureCount, RecoveryManager.recordFailure]
    · simp [RunInspection.failure, mirrors.failures, RecoveryManager.recordFailure,
        FailureSummary.facts, factsOf]

theorem Account.countAttempt (account : Account manager .running s) :
    Account manager .running (manager.countAttempt s) := by
  refine account.tell rfl rfl ?_ ?_
  · intro c
    simp [raisedBy, RecoveryManager.countAttempt, RunInspectionStatus.counters,
      Counter.ofEvent, List.count_append, List.count_cons, List.replicate_succ]
    omega
  · intro r time mirrors
    refine ⟨_, follow_running mirrors, { mirrors with attempts := ?_ }⟩
    simp [RunInspection.attempt, mirrors.attempts, RecoveryManager.countAttempt]

/-- The status under which a registry shows a run. -/
def statusOf : Phase → RunInspectionStatus
  | .running _ | .delaying => .running
  | .returned status => .ended status

/-- What holds between the events of a run. -/
def Accounted (manager : RecoveryManager) (s : State) : Prop :=
  Account manager (statusOf s.phase) s

theorem Account.finish (account : Account manager .running s) (status : RecoveryStatus)
    (last : RecoveryDecision) : Accounted manager (manager.finish s status last) := by
  change Account manager (.ended status) (manager.finish s status last)
  refine (account.recordDecision last).tell rfl rfl ?_ ?_
  · intro c
    simp [raisedBy, RecoveryManager.finish, RunInspectionStatus.counters, Counter.ofEvent]
  · intro r time mirrors
    refine ⟨_, follow_running mirrors, { mirrors with
      status := rfl, attempts := rfl, repairsUsed := fun _ => rfl, replansUsed := fun _ => rfl }⟩

theorem Account.giveUp (account : Account manager .running s) (code : Option FailureCode) :
    Accounted manager (manager.giveUp s code) :=
  account.finish _ _

theorem Account.retry (account : Account manager .running s) :
    Accounted manager (manager.retry s) :=
  (account.recordDecision .retry).frame rfl rfl rfl rfl rfl rfl

theorem Account.caught (account : Account manager .running s) (error : Thrown) :
    Accounted manager (manager.caught s error) := by
  obtain ⟨u, rfl, stopped | retried | ⟨code, gaveUp⟩⟩ :=
    RecoveryManager.caught_cases manager s error
  · rw [stopped]
    exact (account.recordFailure rfl).finish _ _
  · rw [retried]
    exact (account.recordFailure rfl).retry
  · rw [gaveUp]
    exact (account.recordFailure rfl).giveUp code

theorem Account.dispatch (account : Account manager .running s) :
    Accounted manager (manager.dispatch s) := by
  obtain ⟨error, rejected⟩ | ⟨error, caught⟩ | ⟨routed, input, -, -, running⟩ :=
    RecoveryManager.dispatch_cases manager s
  · rw [rejected]
    exact (account.recordFailure rfl).finish _ _
  · rw [caught]
    exact account.caught error
  · rw [running]
    exact account.frame rfl rfl rfl rfl rfl rfl

theorem Account.next (account : Account manager .running s) :
    Accounted manager (manager.next s) := by
  obtain stopped | spent | ⟨-, dispatched⟩ := RecoveryManager.next_cases manager s
  · rw [stopped]
    exact account.finish _ _
  · rw [spent]
    exact account.giveUp _
  · rw [dispatched]
    exact account.countAttempt.dispatch

/-- A repair or a replan, whose own count is shown at the end only. -/
theorem Account.decide (account : Account manager .running s) (decision : RecoveryDecision)
    (plan : PlannerPlan) (pool : List AgentDescriptor) (repairsUsed replansUsed : Nat) :
    Account manager .running (manager.recordDecision
      { s with currentPlan := plan, pool, repairsUsed, replansUsed } decision) := by
  apply Account.recordDecision
  refine { named := account.named, counted := account.counted, shown := ?_ }
  intro told emitted
  obtain ⟨r, entry, mirrors⟩ := account.shown told emitted
  exact ⟨r, entry, { mirrors with
    repairsUsed := fun ended => absurd rfl ended, replansUsed := fun ended => absurd rfl ended }⟩

theorem Account.decideResult (account : Account manager .running s) (routed : RoutedPlan)
    (failure : FailureRecord) : Accounted manager (manager.decideResult s routed failure) := by
  obtain stopped | retried | ⟨t, taken, goesOn⟩ | ⟨t, taken, goesOn⟩ | ⟨code, gaveUp⟩ :=
    RecoveryManager.decideResult_cases manager s routed failure
  · rw [stopped]
    exact account.finish _ _
  · rw [retried]
    exact account.retry
  · obtain ⟨-, plan, pool, rfl⟩ := RecoveryManager.repair_cases taken
    rw [goesOn]
    exact (account.decide .repair plan pool _ _).next
  · obtain ⟨-, replanned, -, rfl⟩ := RecoveryManager.replan_cases taken
    rw [goesOn]
    exact (account.decide .replan replanned.plan s.pool _ _).next
  · rw [gaveUp]
    exact account.giveUp code

theorem Account.settled (account : Account manager .running s) (routed : RoutedPlan)
    (result : SupervisorRunResult) : Accounted manager (manager.settled s routed result) := by
  have returned : Account manager .running { s with lastResult := some result } :=
    account.frame rfl rfl rfl rfl rfl rfl
  unfold RecoveryManager.settled
  dsimp only
  split
  · exact returned.finish _ _
  · apply Account.decideResult
    exact returned.recordFailure (RecoveryManager.classifyResult_attempt result s.attempts)

theorem Accounted.step {event : Recovery.RecoveryManager.Event} (accounted : Accounted manager s)
    (transition : manager.step s event = some t) : Accounted manager t := by
  obtain ⟨routed, error, phase, -, rfl⟩ | ⟨routed, result, phase, -, rfl⟩ | ⟨phase, -, rfl⟩ |
    ⟨-, -, rfl⟩ := RecoveryManager.step_cases transition
  · simp only [Accounted, phase, statusOf] at accounted
    exact accounted.caught error
  · simp only [Accounted, phase, statusOf] at accounted
    exact accounted.settled routed result
  · simp only [Accounted, phase, statusOf] at accounted
    exact accounted.next
  · exact accounted.frame rfl rfl rfl rfl rfl rfl

/-- At every instant of a run its events account for its variables. -/
theorem accounted_of_reaches {plan : PlannerPlan} {aborted : Bool}
    {es : List Recovery.RecoveryManager.Event} (reaches : manager.Reaches plan aborted es s) :
    Accounted manager s := by
  have fresh : Account manager .running (manager.initial plan aborted) := by
    refine ⟨by simp [RecoveryManager.initial, ObservabilityEvent.runId], ?_, ?_⟩
    · intro c
      simp [RecoveryManager.initial, raisedBy, Counter.ofEvent, RunInspectionStatus.counters]
    · intro told emitted
      obtain ⟨⟨time, event⟩, rest, rfl, rfl, empty⟩ := List.map_eq_cons_iff.mp emitted
      obtain rfl := List.map_eq_nil_iff.mp empty
      refine ⟨_, rfl, ⟨rfl, rfl, rfl, ?_, ?_, rfl, rfl, rfl⟩⟩
      · exact fun ended => absurd rfl ended
      · exact fun ended => absurd rfl ended
  exact Machine.run_invariant (fun _ _ _ inv transition => Accounted.step inv transition)
    fresh.next reaches

end Account

/-- A recovered run that returned, with its events as they were stamped and its failures with
their timestamps. -/
structure RecoveryRun where
  manager : RecoveryManager
  plan : PlannerPlan
  aborted : Bool
  es : List RecoveryManager.Event
  state : State
  reaches : manager.Reaches plan aborted es state
  status : RecoveryStatus
  returned : state.phase = .returned status
  told : List Told
  emitted : told.map Prod.snd = state.observed
  failures : List StampedFailure
  recorded : failures.map StampedFailure.record = state.failures

namespace RecoveryRun

variable (run : RecoveryRun)

def runId : String := run.manager.options.runId

/-- What the run returned. -/
def result : RecoveryRunResult where
  runId := run.runId
  status := run.status
  attempts := run.state.attempts
  repairsUsed := run.state.repairsUsed
  replansUsed := run.state.replansUsed
  failures := run.failures
  decisions := run.state.decisions
  lastResult := run.state.lastResult

/-- The events of the run, as the observer receives them. -/
def stream : List RuntimeEvent := run.told.map fun e => .recovery e.1 e.2

theorem account : Account run.manager (.ended run.status) run.state := by
  have accounted := accounted_of_reaches run.reaches
  rw [Accounted, run.returned] at accounted
  exact accounted

theorem runId_of_mem {event : RuntimeEvent} (member : event ∈ run.stream) :
    event.runId? = some run.runId := by
  obtain ⟨e, told, rfl⟩ := List.mem_map.mp member
  have emitted : e.2 ∈ run.state.observed := run.emitted ▸ List.mem_map_of_mem told
  exact congrArg some (run.account.named e.2 emitted)

theorem factsOf_failures :
    run.failures.map (fun f => factsOf f.record) = run.state.failures.map factsOf := by
  rw [← run.recorded, List.map_map]
  rfl

end RecoveryRun

/-- The inspection shows what the result says. -/
structure Shows (r : RunInspection) (result : RecoveryRunResult) : Prop where
  runId : r.runId = result.runId
  status : r.status = .ended result.status
  attempts : r.attempts = result.attempts
  repairsUsed : r.repairsUsed = result.repairsUsed
  replansUsed : r.replansUsed = result.replansUsed
  failureCount : r.failureCount = result.failures.length
  failures : r.failures.map FailureSummary.facts =
    result.failures.map fun f => factsOf f.record
  decisions : r.decisions = result.decisions

theorem shows_of_mirrors {run : RecoveryRun} {r : RunInspection}
    (mirrors : Mirrors run.manager run.state (.ended run.status) r) : Shows r run.result := by
  constructor
  · exact mirrors.runId
  · exact mirrors.status
  · exact mirrors.attempts
  · exact mirrors.repairsUsed (by simp)
  · exact mirrors.replansUsed (by simp)
  · rw [mirrors.failureCount, ← run.recorded, List.length_map]
    rfl
  · exact mirrors.failures.trans run.factsOf_failures.symm
  · exact mirrors.decisions

/-- What `finish` stores for a result, unless the run was finished before. -/
theorem RunRegistry.finish_shows {registry : RunRegistry} {result : RecoveryRunResult}
    (unsettled : registry.settled result.runId = false) (time : Int) :
    ∃ r, (registry.finish result time).get result.runId = some r ∧ Shows r result := by
  refine ⟨inspection result
      (((registry.runs.get? result.runId).map RunInspection.startedAt).getD time) time, ?_, ?_⟩
  · rw [finish, if_neg (by simp [unsettled])]
    exact get_trim_set registry.bounded
  · refine ⟨rfl, rfl, rfl, rfl, rfl, rfl, ?_, rfl⟩
    simp only [inspection, List.map_map]
    rfl

/-- The counters of the metrics are the sums of what the results say. -/
structure Sums (metrics : MetricsCollector) (results : List RecoveryRunResult) : Prop where
  runs : metrics.recoveryRuns = results.length
  ended : ∀ status, metrics.count (.ofStatus status) =
    results.countP fun result => decide (result.status = status)
  attempts : metrics.recoveryAttempts = (results.map RecoveryRunResult.attempts).sum
  repairs : metrics.repairs = (results.map RecoveryRunResult.repairsUsed).sum
  replans : metrics.replans = (results.map RecoveryRunResult.replansUsed).sum
  failures : ∀ code, metrics.failuresByCode code =
    (results.map fun result =>
      result.failures.countP fun f => decide (f.record.code = code)).sum
  decisions : ∀ decision, metrics.decisions decision =
    (results.map fun result => result.decisions.count decision).sum

section Mixed

variable {runs : List RecoveryRun} {tasks events : List RuntimeEvent} {run : RecoveryRun}

/-- What is received names a run of the list, or comes from the runner. -/
theorem runId_of_mixed
    (mixed : Interleaving (tasks :: runs.map RecoveryRun.stream) events)
    (fromRunner : ∀ event ∈ tasks, event.runId? = none) :
    ∀ event ∈ events, ∀ id, event.runId? = some id → id ∈ runs.map RecoveryRun.runId := by
  intro event received id named
  obtain ⟨stream, sent, inside⟩ := List.mem_flatten.mp (mixed.perm.mem_iff.mp received)
  obtain rfl | sent := List.mem_cons.mp sent
  · rw [fromRunner event inside] at named
    cases named
  · obtain ⟨run, member, rfl⟩ := List.mem_map.mp sent
    rw [run.runId_of_mem inside, Option.some.injEq] at named
    exact named ▸ List.mem_map_of_mem member

/-- The events that name a run are the events of this run. -/
theorem filter_names (distinct : (runs.map RecoveryRun.runId).Nodup)
    (mixed : Interleaving (tasks :: runs.map RecoveryRun.stream) events)
    (fromRunner : ∀ event ∈ tasks, event.runId? = none) (member : run ∈ runs) :
    events.filter (RuntimeDiagnostics.names run.runId) = run.stream := by
  obtain ⟨i, here⟩ := List.mem_iff_getElem?.mp member
  apply mixed.filter_eq (i := i + 1) (by simp [here])
  · intro event inside
    simp [RuntimeDiagnostics.names, run.runId_of_mem inside]
  · intro j apart stream at_j event inside
    cases j with
    | zero =>
        obtain rfl : tasks = stream := by simpa using at_j
        simp [RuntimeDiagnostics.names, fromRunner event inside]
    | succ j =>
        rw [List.getElem?_cons_succ, List.getElem?_map] at at_j
        obtain ⟨other, there, rfl⟩ := Option.map_eq_some_iff.mp at_j
        rw [RuntimeDiagnostics.names, other.runId_of_mem inside]
        simp only [Option.some.injEq, decide_eq_false_iff_not]
        intro same
        have within : j < (runs.map RecoveryRun.runId).length := by
          simpa using (List.getElem?_eq_some_iff.mp there).1
        have equal : j = i :=
          (List.getElem?_inj within distinct).mp (by simp [here, there, same])
        exact apart (congrArg (· + 1) equal)

/-- A counter that the runner does not raise adds up what the runs raise. -/
theorem count_mixed (mixed : Interleaving (tasks :: runs.map RecoveryRun.stream) events)
    {c : Counter} (others : c ∉ tasks.flatMap Counter.raised) :
    (events.flatMap Counter.raised).count c = (runs.map fun run =>
      (raisedBy run.state).count c + [Counter.ofStatus run.status].count c).sum := by
  rw [(mixed.perm.flatMap_right Counter.raised).count_eq, List.flatten_cons,
    List.flatMap_append, List.count_append, List.count_eq_zero_of_not_mem others, Nat.zero_add]
  clear mixed others
  induction runs with
  | nil => rfl
  | cons run runs ih =>
      have own : run.stream.flatMap Counter.raised =
          run.state.observed.flatMap Counter.ofEvent := by
        rw [RecoveryRun.stream, ← run.emitted, List.flatMap_map, List.flatMap_map]
        rfl
      rw [List.map_cons, List.flatten_cons, List.flatMap_append, List.count_append, ih, own,
        run.account.counted]
      rfl

/-- The events of the runner raise the counters of the tasks only. -/
theorem notMem_raised (fromRunner : ∀ event ∈ tasks, event.runId? = none) {c : Counter}
    (other : c ∉ [.tasksStarted, .tasksCompleted, .tasksFailed, .tasksCancelled]) :
    c ∉ tasks.flatMap Counter.raised := by
  intro raised
  obtain ⟨event, member, here⟩ := List.mem_flatMap.mp raised
  cases event with
  | taskStarted time taskId agentId =>
      obtain rfl := List.mem_singleton.mp here
      simp at other
  | taskFinished time taskId agentId status durationMs =>
      cases status <;>
        · obtain rfl := List.mem_singleton.mp here
          simp at other
  | recovery time event =>
      have named : some event.runId = none := fromRunner _ member
      cases named

end Mixed

section Raised

/-- A decision is counted under its name, and a repair and a replan once more. -/
theorem count_ofDecision (decisions : List RecoveryDecision) :
    (∀ decision, (decisions.flatMap Counter.ofDecision).count (.decisions decision) =
        decisions.count decision) ∧
      (decisions.flatMap Counter.ofDecision).count .repairs = decisions.count .repair ∧
      (decisions.flatMap Counter.ofDecision).count .replans = decisions.count .replan := by
  induction decisions with
  | nil => exact ⟨fun _ => rfl, rfl, rfl⟩
  | cons first decisions ih =>
      obtain ⟨named, repairs, replans⟩ := ih
      simp only [List.flatMap_cons, List.count_append, named, repairs, replans, List.count_cons]
      refine ⟨?_, ?_, ?_⟩
      · intro decision
        cases first <;> cases decision <;> simp [Counter.ofDecision, Nat.add_comm]
      · cases first <;> simp [Counter.ofDecision, Nat.add_comm]
      · cases first <;> simp [Counter.ofDecision, Nat.add_comm]

/-- No decision raises a counter of another kind. -/
theorem count_ofDecision_eq_zero (decisions : List RecoveryDecision) {c : Counter}
    (other : ∀ decision, c ∉ Counter.ofDecision decision) :
    (decisions.flatMap Counter.ofDecision).count c = 0 := by
  apply List.count_eq_zero_of_not_mem
  intro raised
  obtain ⟨decision, -, here⟩ := List.mem_flatMap.mp raised
  exact other decision here

theorem count_failures (failures : List FailureRecord) (code : FailureCode) :
    (failures.map fun failure => Counter.failuresByCode failure.code).count
        (.failuresByCode code) =
      failures.countP fun failure => decide (failure.code = code) := by
  rw [List.count, List.countP_map]
  apply List.countP_congr
  intro failure _
  simp

/-- How often a run raises a counter, by its result. -/
def share (c : Counter) (result : RecoveryRunResult) : Nat :=
  match c with
  | .tasksStarted | .tasksCompleted | .tasksFailed | .tasksCancelled => 0
  | .recoveryRuns => 1
  | .recoveryCompleted => if result.status = .completed then 1 else 0
  | .recoveryFailed => if result.status = .failed then 1 else 0
  | .recoveryCancelled => if result.status = .cancelled then 1 else 0
  | .recoveryTimeouts => if result.status = .timeout then 1 else 0
  | .recoveryAttempts => result.attempts
  | .repairs => result.decisions.count .repair
  | .replans => result.decisions.count .replan
  | .failuresByCode code => result.failures.countP fun f => decide (f.record.code = code)
  | .decisions decision => result.decisions.count decision

theorem count_run (run : RecoveryRun) (c : Counter) :
    (raisedBy run.state).count c + [Counter.ofStatus run.status].count c =
      share c run.result := by
  obtain ⟨named, repairs, replans⟩ := count_ofDecision run.state.decisions
  rw [raisedBy, ← List.singleton_append, List.count_append, List.count_append, List.count_append]
  cases c with
  | failuresByCode code =>
      have recorded : run.result.failures.countP (fun f => decide (f.record.code = code)) =
          run.state.failures.countP fun failure => decide (failure.code = code) := by
        rw [← run.recorded, List.countP_map]
        rfl
      rw [share, recorded, count_failures, count_ofDecision_eq_zero]
      · cases run.status <;> simp [Counter.ofStatus, List.count_replicate]
      · intro decision
        cases decision <;> simp [Counter.ofDecision]
  | decisions decision =>
      rw [named]
      cases run.status <;> simp [share, RecoveryRun.result, Counter.ofStatus,
        List.count_eq_zero_of_not_mem]
  | repairs =>
      rw [repairs]
      cases run.status <;> simp [share, RecoveryRun.result, Counter.ofStatus,
        List.count_eq_zero_of_not_mem]
  | replans =>
      rw [replans]
      cases run.status <;> simp [share, RecoveryRun.result, Counter.ofStatus,
        List.count_eq_zero_of_not_mem]
  | _ =>
      rw [count_ofDecision_eq_zero]
      · cases status : run.status <;> simp [share, RecoveryRun.result, status, Counter.ofStatus,
          List.count_eq_zero_of_not_mem]
      · intro decision
        cases decision <;> simp [Counter.ofDecision]

end Raised

section Totals

variable {runs : List RecoveryRun} {tasks events : List RuntimeEvent} {metrics : MetricsCollector}

/-- A counter that the runner does not raise is the sum of the shares of the runs. -/
theorem total (mixed : Interleaving (tasks :: runs.map RecoveryRun.stream) events)
    (fromRunner : ∀ event ∈ tasks, event.runId? = none)
    (counted : ∀ c, metrics.count c = (events.flatMap Counter.raised).count c) (c : Counter)
    (other : c ∉ [.tasksStarted, .tasksCompleted, .tasksFailed, .tasksCancelled]) :
    metrics.count c = ((runs.map RecoveryRun.result).map (share c)).sum := by
  rw [counted, count_mixed mixed (notMem_raised fromRunner other), List.map_map]
  congr 1
  apply List.map_congr_left
  intro run _
  exact count_run run c

theorem sum_indicator {α : Type} (p : α → Prop) [DecidablePred p] (l : List α) :
    (l.map fun a => if p a then 1 else 0).sum = l.countP fun a => decide (p a) := by
  induction l with
  | nil => rfl
  | cons a l ih =>
      rw [List.map_cons, List.sum_cons, ih, List.countP_cons, Nat.add_comm]
      simp

theorem sums_of_mixed (mixed : Interleaving (tasks :: runs.map RecoveryRun.stream) events)
    (fromRunner : ∀ event ∈ tasks, event.runId? = none)
    (counted : ∀ c, metrics.count c = (events.flatMap Counter.raised).count c) :
    Sums metrics (runs.map RecoveryRun.result) := by
  have total := total mixed fromRunner counted
  have counters : ∀ run ∈ runs, run.result.repairsUsed = run.result.decisions.count .repair ∧
      run.result.replansUsed = run.result.decisions.count .replan := by
    intro run _
    have balanced := run.reaches.balanced
    rw [RecoveryManager.Balanced, run.returned] at balanced
    exact ⟨balanced.repairsCounted, balanced.replansCounted⟩
  constructor
  · have ones : metrics.recoveryRuns = _ := total .recoveryRuns (by simp)
    rw [ones]
    simp [Function.comp_def, share]
  · intro status
    rw [← sum_indicator]
    cases status with
    | completed => exact total .recoveryCompleted (by simp)
    | failed => exact total .recoveryFailed (by simp)
    | cancelled => exact total .recoveryCancelled (by simp)
    | timeout => exact total .recoveryTimeouts (by simp)
  · exact total .recoveryAttempts (by simp)
  · have repairs : metrics.repairs = _ := total .repairs (by simp)
    rw [repairs, List.map_map, List.map_map]
    congr 1
    apply List.map_congr_left
    intro run member
    exact (counters run member).1.symm
  · have replans : metrics.replans = _ := total .replans (by simp)
    rw [replans, List.map_map, List.map_map]
    congr 1
    apply List.map_congr_left
    intro run member
    exact (counters run member).2.symm
  · intro code
    exact total (.failuresByCode code) (by simp)
  · intro decision
    exact total (.decisions decision) (by simp)

/-- After the events of any runs, in any mixture, the inspection of each run shows what its
result says, which is also what `finish` stores for the result, and the metrics are the sums
of what the results say. -/
theorem reconstructs {maxRuns : Option JsNumber} {registry : RunRegistry}
    (built : RunRegistry.new maxRuns = .ok registry) (few : runs.length ≤ registry.maxRuns)
    (distinct : (runs.map RecoveryRun.runId).Nodup)
    (mixed : Interleaving (tasks :: runs.map RecoveryRun.stream) events)
    (fromRunner : ∀ event ∈ tasks, event.runId? = none) :
    let diagnostics := events.foldl RuntimeDiagnostics.ingest (.new registry)
    (∀ run ∈ runs,
      (∃ r, diagnostics.inspect run.runId = some r ∧ Shows r run.result) ∧
        ∀ other : RunRegistry, other.settled run.runId = false → ∀ time,
          ∃ r, (other.finish run.result time).get run.runId = some r ∧ Shows r run.result) ∧
      Sums diagnostics.metrics (runs.map RecoveryRun.result) := by
  have empty : registry.runs = .empty := by
    unfold RunRegistry.new at built
    split at built
    · cases built
      rfl
    · split at built
      · cases built
        rfl
      · cases built
    · cases built
  have within : RunRegistry.Within (runs.map RecoveryRun.runId) registry := by
    refine ⟨?_, by simpa using few⟩
    rw [empty]
    intro key present
    cases present
  refine ⟨fun run member => ⟨?_, ?_⟩, ?_⟩
  · have entry := RuntimeDiagnostics.get_ingestAll (.new registry) within
      (runId_of_mixed mixed fromRunner) (filter_names distinct mixed fromRunner member)
    have unknown : (RuntimeDiagnostics.new registry).inspect run.runId = none := by
      rw [RuntimeDiagnostics.inspect, RuntimeDiagnostics.new, RunRegistry.get, empty]
      rfl
    obtain ⟨r, followed, mirrors⟩ := run.account.shown run.told run.emitted
    refine ⟨r, ?_, shows_of_mirrors mirrors⟩
    rw [entry, unknown, followed]
  · intro other unsettled time
    change ∃ r, (other.finish run.result time).get run.result.runId = some r ∧ _
    exact RunRegistry.finish_shows unsettled time
  · apply sums_of_mixed mixed fromRunner
    intro c
    rw [MetricsCollector.count_ingestAll]
    have zero : (RuntimeDiagnostics.new registry).metrics.count c = 0 := by cases c <;> rfl
    rw [zero, Nat.zero_add]

def managerOf (runId : String) : RecoveryManager where
  agents := [⟨"writer", []⟩]
  policy := ⟨3, 2, 0, Recovery.three_attempts, Recovery.no_delay⟩
  options := ⟨runId, "publish", .sequential, none, none⟩

/-- A run that is stopped before its first attempt. -/
def stoppedRun : RecoveryRun where
  manager := managerOf "run-1"
  plan := ⟨[]⟩
  aborted := true
  es := []
  state := _
  reaches := rfl
  status := .cancelled
  returned := rfl
  told := [(0, .started "run-1"), (5, .decision "run-1" 0 .abort),
    (5, .finished "run-1" .cancelled 0 0 0)]
  emitted := rfl
  failures := []
  recorded := rfl

/-- A run of a plan that the validation rejects. -/
def rejectedRun : RecoveryRun where
  manager := managerOf "run-2"
  plan := ⟨[]⟩
  aborted := false
  es := []
  state := _
  reaches := rfl
  status := .failed
  returned := by decide
  told := [(1, .started "run-2"), (2, .attempt "run-2" 1),
    (3, .failure "run-2" 1 .validationError none none), (3, .decision "run-2" 1 .failed),
    (4, .finished "run-2" .failed 1 0 0)]
  emitted := by decide
  failures := ((managerOf "run-2").start ⟨[]⟩ false).failures.map (StampedFailure.mk 3)
  recorded := by decide

/-- The two runs at the same time, and a task of neither. -/
def received : List RuntimeEvent :=
  [.recovery 0 (.started "run-1"), .recovery 1 (.started "run-2"),
    .taskStarted 1 "draft" "writer", .recovery 2 (.attempt "run-2" 1),
    .recovery 3 (.failure "run-2" 1 .validationError none none),
    .recovery 5 (.decision "run-1" 0 .abort), .recovery 3 (.decision "run-2" 1 .failed),
    .recovery 4 (.finished "run-2" .failed 1 0 0),
    .recovery 5 (.finished "run-1" .cancelled 0 0 0)]

theorem reconstructs_twoRuns :
    ∃ registry r, RunRegistry.new none = .ok registry ∧
      (received.foldl RuntimeDiagnostics.ingest (.new registry)).inspect "run-2" = some r ∧
      r.status = .ended .failed ∧
      r.failures.map FailureSummary.facts = [(1, .validationError, none, none)] ∧
      (received.foldl RuntimeDiagnostics.ingest (.new registry)).metrics.recoveryAttempts = 1 := by
  have built : RunRegistry.new none = .ok ⟨256, .empty, by decide, Nat.zero_le _⟩ := rfl
  have mixed : Interleaving ([.taskStarted 1 "draft" "writer"] ::
      [stoppedRun, rejectedRun].map RecoveryRun.stream) received := by
    have second : Merge rejectedRun.stream [] rejectedRun.stream :=
      .fst (.fst (.fst (.fst (.fst .nil))))
    have first : Merge stoppedRun.stream rejectedRun.stream
        (received.filter fun event => event.runId?.isSome) :=
      .fst (.snd (.snd (.snd (.fst (.snd (.snd (.fst .nil)))))))
    refine ⟨_, ⟨_, ⟨[], rfl, second⟩, first⟩, ?_⟩
    exact .snd (.snd (.fst (.snd (.snd (.snd (.snd (.snd (.snd .nil))))))))
  obtain ⟨inspections, sums⟩ := reconstructs built (by decide) (by decide) mixed (by decide)
  obtain ⟨⟨r, entry, shows⟩, -⟩ := inspections rejectedRun (by simp)
  refine ⟨_, r, rfl, entry, shows.status, ?_, ?_⟩
  · rw [shows.failures]
    rfl
  · rw [sums.attempts]
    rfl

end Totals

end MultiAgent.Native.Diagnostics
