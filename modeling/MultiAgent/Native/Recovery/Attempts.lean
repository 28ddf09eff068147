import MultiAgent.Native.Planner.Order
import MultiAgent.Native.Recovery.Timeout
import MultiAgent.Native.Strategies.Chains

/-!
# What an attempt reports

An attempt runs the strategy of its plan, and the recovery loop sees the report only.
`Listed` says that the entries of a report are the tasks that the strategy scheduled, in
order, each of them completed exactly when the scheduler completed it. It holds of the
report of every strategy whose run was not stopped, so the failures that the classifier
extracts are the tasks that did not complete.
-/

namespace MultiAgent.Native.Recovery

open Scheduler

/-- The entries are the scheduled tasks, with what they ended with. -/
structure Listed (entries : List ReportEntry) (scheduled : Scheduled) : Prop where
  ids : entries.map ReportEntry.taskId = scheduled.graph.ids
  completed : ∀ entry ∈ entries,
    entry.status = .completed ↔ scheduled.state.status entry.taskId = .completed

section Reports

variable {scheduled : Scheduled} {signalAborted : Bool} {es : List Event}

theorem listed_mapIdx {γ : Type} {item : Nat → Task → γ} {read : γ → ReportEntry}
    (ids : ∀ index task, (read (item index task)).taskId = task.id)
    (completed : ∀ index, ∀ task ∈ scheduled.graph.tasks,
      (read (item index task)).status = .completed ↔
        scheduled.state.status task.id = .completed) :
    Listed ((scheduled.graph.tasks.mapIdx item).map read) scheduled := by
  constructor
  · exact List.ext_getElem (by simp [TaskGraph.ids]) (by simp [TaskGraph.ids, ids])
  · intro entry listed
    obtain ⟨other, member, rfl⟩ := List.mem_map.mp listed
    obtain ⟨index, inside, rfl⟩ := List.mem_mapIdx.mp member
    rw [ids]
    exact completed index _ (List.getElem_mem inside)

/-- The report of a chain lists what it scheduled, in a run that was not stopped. -/
theorem chain_listed {graph : Except AddError TaskGraph}
    (returned : schedule graph signalAborted es = some scheduled)
    (unstopped : scheduled.report.stopped = false) (awaits : ∀ e ∈ es, Sequential.Awaits e)
    {γ : Type} {item : Nat → Task → γ} {read : γ → ReportEntry}
    (entry : ∀ index task, (read (item index task)).taskId = task.id ∧
      (read (item index task)).status = Sequential.entryStatus (Sequential.recorded es)
        scheduled.state.status task.id) :
    Listed ((scheduled.graph.tasks.mapIdx item).map read) scheduled := by
  obtain ⟨-, control, sch, reaches⟩ := schedule_eq_some returned
  apply listed_mapIdx (fun index task => (entry index task).1)
  intro index task member
  rw [(entry index task).2]
  exact Sequential.entryStatus_completed_iff reaches awaits control unstopped member

theorem sequential_listed {steps : List SequentialStep} {report : SequentialReport}
    (returned : schedule (Sequential.graph steps) signalAborted es = some scheduled)
    (unstopped : scheduled.report.stopped = false) (awaits : ∀ e ∈ es, Sequential.Awaits e)
    (ran : Sequential.run steps signalAborted es = some report) :
    Listed (entries (.sequential report)) scheduled := by
  have tasks : report.steps = scheduled.graph.tasks.mapIdx (Sequential.stepResult
      (Sequential.recorded es) scheduled.state.status scheduled.report) := by
    rw [Sequential.run] at ran
    split at ran
    · rename_i none
      obtain ⟨-, -, tasks⟩ := dagGraph_eq_ok_iff.mp (schedule_eq_some returned).1
      cases ran
      simp [tasks, none]
    · rw [returned] at ran
      cases ran
      rfl
  have entry (index : Nat) (task : Task) :
      let step := Sequential.stepResult (Sequential.recorded es) scheduled.state.status
        scheduled.report index task
      step.taskId = task.id ∧ step.status =
        Sequential.entryStatus (Sequential.recorded es) scheduled.state.status task.id := by
    rw [Sequential.stepResult, Sequential.entryStatus]
    cases Sequential.recorded es task.id <;> exact ⟨rfl, rfl⟩
  rw [entries, tasks]
  exact chain_listed returned unstopped awaits entry

theorem relay_listed {prompt : String} {steps : List RelayStep} {report : RelayReport}
    (returned : schedule (Relay.graph prompt steps) signalAborted es = some scheduled)
    (unstopped : scheduled.report.stopped = false) (awaits : ∀ e ∈ es, Sequential.Awaits e)
    (ran : Relay.run prompt steps signalAborted es = some report) :
    Listed (entries (.relay report)) scheduled := by
  have tasks : report.turns = scheduled.graph.tasks.mapIdx (Relay.turnResult prompt steps
      (Sequential.recorded es) scheduled.state.status scheduled.report) := by
    rw [Relay.run] at ran
    split at ran
    · rename_i none
      obtain ⟨-, -, tasks⟩ := dagGraph_eq_ok_iff.mp (schedule_eq_some returned).1
      cases ran
      simp [tasks, none]
    · rw [returned] at ran
      cases ran
      rfl
  have entry (index : Nat) (task : Task) :
      let turn := Relay.turnResult prompt steps (Sequential.recorded es) scheduled.state.status
        scheduled.report index task
      turn.taskId = task.id ∧ turn.status =
        Sequential.entryStatus (Sequential.recorded es) scheduled.state.status task.id := by
    rw [Relay.turnResult, Sequential.entryStatus]
    cases Sequential.recorded es task.id <;> exact ⟨rfl, rfl⟩
  rw [entries, tasks]
  exact chain_listed returned unstopped awaits entry

/-- The responses are those of the agents in order, each with the outcome that the
report of the scheduler has under its id. -/
theorem responses_eq_some {scheduled : SchedulerReport} {agents : List BroadcastAgent}
    {entries : List BroadcastEntry} {start : Nat}
    (read : Broadcast.responses scheduled start agents = some entries) :
    entries.map BroadcastEntry.taskId =
        (List.range' start agents.length).map (SupervisorStrategy.broadcast.syntheticId) ∧
      ∀ entry ∈ entries, ∃ outcome, (scheduled.results.lookup entry.taskId).join = some outcome ∧
        entry.status = outcome.status := by
  induction agents generalizing start entries with
  | nil =>
      cases read
      simp
  | cons agent agents ih =>
      rw [Broadcast.responses] at read
      split at read
      · cases read
      · rename_i outcome found
        obtain ⟨rest, later, rfl⟩ := Option.map_eq_some_iff.mp read
        obtain ⟨ids, statuses⟩ := ih later
        refine ⟨?_, List.forall_mem_cons.mpr ⟨⟨outcome, found, rfl⟩, statuses⟩⟩
        rw [List.map_cons, ids, List.length_cons, List.range'_succ, List.map_cons]
        rfl

theorem broadcast_listed {prompt : String} {agents : List BroadcastAgent} {report : BroadcastReport}
    (returned : schedule (Broadcast.graph prompt agents) signalAborted es = some scheduled)
    (ran : Broadcast.run prompt agents signalAborted es = some report) :
    Listed (entries (.broadcast report)) scheduled := by
  obtain ⟨built, control, sch, reaches⟩ := schedule_eq_some returned
  obtain ⟨same, -⟩ := reaches.sound.loop.complete _ control
  have read : Broadcast.responses scheduled.report 0 agents = some report.responses := by
    rw [Broadcast.run] at ran
    split at ran
    · rename_i none
      cases ran
      rw [none, Broadcast.responses]
    · rw [returned, Option.bind_some, Broadcast.report] at ran
      obtain ⟨responses, read, rfl⟩ := Option.map_eq_some_iff.mp ran
      exact read
  obtain ⟨ids, statuses⟩ := responses_eq_some read
  have known : report.responses.map BroadcastEntry.taskId = scheduled.graph.ids := by
    have plan : (SupervisorPlan.broadcast prompt agents).graph = .ok scheduled.graph := built
    rw [ids, ← List.range_eq_range', SupervisorPlan.graph_ids plan]
    rfl
  refine ⟨by rw [entries, List.map_map]; exact known, ?_⟩
  intro entry listed
  obtain ⟨response, member, rfl⟩ := List.mem_map.mp listed
  obtain ⟨outcome, found, status⟩ := statuses response member
  have inside : response.taskId ∈ scheduled.graph.ids := by
    rw [← known]
    exact List.mem_map_of_mem member
  obtain ⟨task, known, id⟩ := TaskGraph.mem_ids.mp inside
  have recorded : scheduled.state.outcomes task.id = some outcome := by
    have results : scheduled.report.results = scheduled.graph.ids.map fun id =>
        (id, scheduled.state.outcomes id) := by
      rw [same, Scheduler.report, TaskGraph.ids, List.map_map]
      rfl
    rw [results, List.lookup_graph _ inside, Option.join_some, ← id] at found
    exact found
  have agrees := reaches.sound.ledger.agrees task known outcome recorded
  show response.status = .completed ↔ scheduled.state.status response.taskId = .completed
  rw [status, ← id, ← agrees]
  exact toTaskStatus_injective.eq_iff.symm

end Reports

section Mapping

variable {strategy : SupervisorStrategy} {routed : RoutedPlan} {plan : SupervisorPlan}

/-- What the mapping onto a strategy establishes about the tasks in their order. -/
structure Mapped (strategy : SupervisorStrategy) (routed : RoutedPlan) (plan : SupervisorPlan)
    (ordered : List RoutedTask) : Prop where
  size : plan.size = ordered.length
  perm : ordered.Perm routed.tasks
  depsFirst : DepsFirst ordered
  chain : strategy = .relay → IsChain ordered

theorem strategy_of_ok (accepted : routedPlanToSupervisorPlan routed strategy = .ok plan) :
    plan.strategy = strategy := by
  unfold routedPlanToSupervisorPlan at accepted
  split at accepted
  · cases accepted
  · cases strategy with
    | sequential =>
        obtain ⟨order, -, rfl⟩ := sequentialPlan_ok accepted
        rfl
    | broadcast =>
        obtain ⟨-, prompt, -, rfl⟩ := broadcastPlan_ok accepted
        rfl
    | relay =>
        obtain ⟨chain, -, -, rfl⟩ := relayPlan_ok accepted
        rfl

theorem mapped_of_ok (distinct : (routed.tasks.map RoutedTask.id).Nodup)
    (accepted : routedPlanToSupervisorPlan routed strategy = .ok plan) :
    Mapped strategy routed plan (strategyTaskOrder routed strategy) := by
  unfold routedPlanToSupervisorPlan at accepted
  split at accepted
  · cases accepted
  · cases strategy with
    | sequential =>
        obtain ⟨order, sorted, rfl⟩ := sequentialPlan_ok accepted
        have ordered : strategyTaskOrder routed .sequential = order := by
          simp [strategyTaskOrder, sorted, Except.toOption]
        obtain ⟨perm, depsFirst⟩ := topologicalOrder_ok distinct sorted
        rw [ordered]
        exact ⟨List.length_map _, perm, depsFirst, nofun⟩
    | broadcast =>
        obtain ⟨flat, prompt, -, rfl⟩ := broadcastPlan_ok accepted
        refine ⟨List.length_map _, .refl _, ?_, nofun⟩
        intro i task here dep edge
        rw [flat task (List.mem_of_getElem? here)] at edge
        cases edge
    | relay =>
        obtain ⟨chain, sorted, checks, rfl⟩ := relayPlan_ok accepted
        have ordered : strategyTaskOrder routed .relay = chain := by
          simp [strategyTaskOrder, sorted, Except.toOption]
        obtain ⟨perm, depsFirst⟩ := topologicalOrder_ok distinct sorted
        rw [ordered]
        exact ⟨List.length_mapIdx, perm, depsFirst, fun _ => checks.isChain depsFirst⟩

end Mapping

namespace RecoveryManager

/-- How the supervisor run on a routed plan came to its result. -/
structure Execution (manager : RecoveryManager) (routed : RoutedPlan) where
  input : SupervisorRunInput
  accepted : manager.supervisorInput routed = .ok input
  signalAborted : Bool
  /-- The events of the scheduler, up to its return. -/
  events : List Scheduler.Event
  /-- A chain passes an `async` function to its scheduler. -/
  awaits : manager.options.strategy ≠ .broadcast → ∀ e ∈ events, Sequential.Awaits e
  scheduled : Scheduled
  returned : schedule input.plan.graph signalAborted events = some scheduled
  report : SupervisorStrategyReport
  dispatched : input.plan.dispatch signalAborted events = some report
  latches : Supervisor.Latches
  /-- The controller aborts behind one of the two latches only. -/
  latched : scheduled.state.aborted = true → latches.cancelled = true ∨ latches.timedOut = true
  durationMs : Int

namespace Execution

variable {manager : RecoveryManager} {routed : RoutedPlan} (execution : Execution manager routed)

def result : SupervisorRunResult :=
  Supervisor.aggregate execution.input execution.report execution.durationMs execution.latches

/-- A run whose result is a plain failure was not stopped. -/
theorem unstopped (failed : execution.result.status = .failed) :
    execution.scheduled.report.stopped = false := by
  obtain ⟨-, control, sch, reaches⟩ := schedule_eq_some execution.returned
  have loop := reaches.sound.loop
  obtain ⟨same, -⟩ := loop.complete _ control
  have going : execution.scheduled.state.aborted = false := by
    cases aborted : execution.scheduled.state.aborted with
    | false => rfl
    | true =>
        rw [result, Supervisor.aggregate] at failed
        obtain cancelled | timedOut := execution.latched aborted
        · cases timedOut : execution.latches.timedOut <;> simp [timedOut, cancelled] at failed
        · simp [timedOut] at failed
  have running : execution.scheduled.state.stopped = false := by
    cases stopped : execution.scheduled.state.stopped with
    | false => rfl
    | true => simp [loop.observed stopped] at going
  rw [same]
  simp [Scheduler.report, going, running]

theorem mapped :
    routedPlanToSupervisorPlan routed manager.options.strategy = .ok execution.input.plan := by
  obtain ⟨plan, mapped, built⟩ := bind_eq_ok_iff.mp execution.accepted
  have same : execution.input.plan = plan := by rw [← Except.ok.inj built]
  rw [same]
  exact mapped

theorem listed (failed : execution.result.status = .failed) :
    Listed (entries execution.report) execution.scheduled := by
  have unstopped := execution.unstopped failed
  have awaits := execution.awaits
  have returned := execution.returned
  have dispatched := execution.dispatched
  have mapped := execution.mapped
  cases plan : execution.input.plan with
  | broadcast prompt agents =>
      rw [plan] at returned dispatched
      obtain ⟨report, ran, same⟩ := Option.map_eq_some_iff.mp dispatched
      rw [← same]
      exact broadcast_listed returned ran
  | sequential steps =>
      rw [plan] at returned dispatched mapped
      obtain ⟨report, ran, same⟩ := Option.map_eq_some_iff.mp dispatched
      rw [← same]
      refine sequential_listed returned unstopped (awaits ?_) ran
      intro flat
      cases (strategy_of_ok mapped).trans flat
  | relay prompt steps =>
      rw [plan] at returned dispatched mapped
      obtain ⟨report, ran, same⟩ := Option.map_eq_some_iff.mp dispatched
      rw [← same]
      refine relay_listed returned unstopped (awaits ?_) ran
      intro flat
      cases (strategy_of_ok mapped).trans flat

/-- The failures of an execution are the tasks that its strategy did not complete. -/
theorem mem_failures_iff (failed : execution.result.status = .failed) {id : String} :
    id ∈ (extractTaskFailures execution.result).map TaskFailureRef.taskId ↔
      ∃ index < execution.input.plan.size, execution.input.plan.strategy.syntheticId index = id ∧
        execution.scheduled.state.status id ≠ .completed := by
  obtain ⟨ids, completed⟩ := execution.listed failed
  have ran := SupervisorPlan.ran_of_schedule execution.returned (execution.unstopped failed)
  have known : id ∈ execution.scheduled.graph.ids ↔
      ∃ entry ∈ entries execution.report, entry.taskId = id := by
    rw [← ids, List.mem_map]
  have listed : id ∈ (extractTaskFailures execution.result).map TaskFailureRef.taskId ↔
      ∃ entry ∈ entries execution.report, entry.status ≠ .completed ∧ entry.taskId = id := by
    simp [extractTaskFailures, ReportEntry.failure, result, Supervisor.aggregate, and_assoc]
  rw [listed]
  constructor
  · rintro ⟨entry, member, unfinished, rfl⟩
    obtain ⟨index, inside, same⟩ := (ran.ids _).mp (known.mpr ⟨entry, member, rfl⟩)
    exact ⟨index, inside, same, (completed entry member).not.mp unfinished⟩
  · rintro ⟨index, inside, same, unfinished⟩
    obtain ⟨entry, member, rfl⟩ := known.mp ((ran.ids id).mpr ⟨index, inside, same⟩)
    exact ⟨entry, member, (completed entry member).not.mpr unfinished, rfl⟩

end Execution

end RecoveryManager

end MultiAgent.Native.Recovery
