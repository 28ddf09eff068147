import MultiAgent.Native.Scheduler.Action

/-!
# Statuses, outcomes and the order of completion

Every action either leaves the ledger alone, records the outcome of one task
that was not terminal, or hands one ready task to `execute`. From these three
entries follow the agreement of statuses and outcomes, the safety of launching,
and that what is terminal stays as it is.
-/

namespace MultiAgent.Native.Scheduler

open Relation

/-- Why a task that is not terminal gets its outcome. -/
inductive Cause (g : TaskGraph) (gives : Task → Settlement → Prop) (s : RunState) (task : Task)
    (outcome : TaskOutcome) : Prop
  | settled {settlement : Settlement} (given : gives task settlement)
      (running : s.status task.id = .running) (same : outcome = settlement.outcome task)
  | blocked {dep : String} (pending : s.status task.id = .pending) (edge : dep ∈ task.dependsOn)
      (failed : failedDep g s.status dep = true) (cancelled : outcome.status = .cancelled)
  | stopped (stopping : s.stopped = true) (cancelled : outcome.status = .cancelled)

/-- What one action does to the ledger. -/
inductive Entry (g : TaskGraph) (gives : Task → Settlement → Prop) (s t : RunState) : Prop
  | quiet (latched : s.stopped = true → t.stopped = true) (status : t.status = s.status)
      (outcomes : t.outcomes = s.outcomes) (order : t.order = s.order)
      (executed : t.executed = s.executed)
  | record {task : Task} {outcome : TaskOutcome} (latched : s.stopped = true → t.stopped = true)
      (member : task ∈ g.tasks) (opened : isTerminalStatus (s.status task.id) = false)
      (cause : Cause g gives s task outcome)
      (status : t.status = Function.update s.status task.id outcome.status.toTaskStatus)
      (outcomes : t.outcomes = Function.update s.outcomes task.id (some outcome))
      (order : t.order = s.order ++ [task.id]) (executed : t.executed = s.executed)
  | launch {task : Task} (latched : s.stopped = true → t.stopped = true)
      (ready : task ∈ g.ready s.status)
      (status : t.status = Function.update s.status task.id .running)
      (outcomes : t.outcomes = s.outcomes) (order : t.order = s.order)
      (executed : t.executed = s.executed ++ [task.id])

variable {sch : Scheduler} {g : TaskGraph} {gives : Task → Settlement → Prop} {s t : RunState}

@[simp] theorem wake_status (s : RunState) : (wake s).status = s.status := by
  unfold wake; split <;> rfl

@[simp] theorem wake_outcomes (s : RunState) : (wake s).outcomes = s.outcomes := by
  unfold wake; split <;> rfl

@[simp] theorem wake_order (s : RunState) : (wake s).order = s.order := by
  unfold wake; split <;> rfl

@[simp] theorem wake_executed (s : RunState) : (wake s).executed = s.executed := by
  unfold wake; split <;> rfl

@[simp] theorem wake_stopped (s : RunState) : (wake s).stopped = s.stopped := by
  unfold wake; split <;> rfl

@[simp] theorem wake_aborted (s : RunState) : (wake s).aborted = s.aborted := by
  unfold wake; split <;> rfl

@[simp] theorem wake_control (s : RunState) : (wake s).control = s.control := by
  unfold wake; split <;> rfl

@[simp] theorem wake_running (s : RunState) : (wake s).running = s.running := by
  unfold wake; split <;> rfl

@[simp] theorem wake_busyAgents (s : RunState) : (wake s).busyAgents = s.busyAgents := by
  unfold wake; split <;> rfl

@[simp] theorem wake_unsettled (s : RunState) : (wake s).unsettled = s.unsettled := by
  unfold wake; split <;> rfl

@[simp] theorem release_status (s : RunState) (task : Task) :
    (release s task).status = s.status := rfl

@[simp] theorem release_outcomes (s : RunState) (task : Task) :
    (release s task).outcomes = s.outcomes := rfl

@[simp] theorem release_executed (s : RunState) (task : Task) :
    (release s task).executed = s.executed := rfl

/-- What no cancellation and no release changes, the teardown does not change. -/
theorem teardown_keeps {α : Type} (read : RunState → α)
    (keep : ∀ s task reason running busyAgents,
      read { cancelBlocked s task reason with running, busyAgents } = read s)
    (g : TaskGraph) (s : RunState) : read (teardown g s) = read s := by
  rw [teardown]
  generalize g.tasks = l
  induction l generalizing s with
  | nil => rfl
  | cons task l ih =>
      rw [List.foldl_cons, ih, teardownTask]
      split
      · rfl
      · exact keep s task _ _ _

@[simp] theorem teardown_stopped (g : TaskGraph) (s : RunState) :
    (teardown g s).stopped = s.stopped :=
  teardown_keeps RunState.stopped (fun _ _ _ _ _ => rfl) g s

/-- What neither a cancellation, a release nor the new control changes, leaving
the loop does not change. -/
theorem leave_keeps {α : Type} (read : RunState → α)
    (keep : ∀ s task reason running busyAgents,
      read { cancelBlocked s task reason with running, busyAgents } = read s)
    (exit : ∀ s control, read { s with control } = read s)
    (g : TaskGraph) (s : RunState) : read (leave g s) = read s := by
  unfold leave
  dsimp only
  rw [exit]
  split
  · exact teardown_keeps read keep g s
  · rfl

@[simp] theorem leave_stopped (g : TaskGraph) (s : RunState) : (leave g s).stopped = s.stopped :=
  leave_keeps RunState.stopped (fun _ _ _ _ _ => rfl) (fun _ _ => rfl) g s

@[simp] theorem leave_aborted (g : TaskGraph) (s : RunState) : (leave g s).aborted = s.aborted :=
  leave_keeps RunState.aborted (fun _ _ _ _ _ => rfl) (fun _ _ => rfl) g s

@[simp] theorem leave_awaiting (g : TaskGraph) (s : RunState) :
    (leave g s).awaiting = s.awaiting :=
  leave_keeps RunState.awaiting (fun _ _ _ _ _ => rfl) (fun _ _ => rfl) g s

@[simp] theorem leave_jobs (g : TaskGraph) (s : RunState) : (leave g s).jobs = s.jobs :=
  leave_keeps RunState.jobs (fun _ _ _ _ _ => rfl) (fun _ _ => rfl) g s

@[simp] theorem leave_unsettled (g : TaskGraph) (s : RunState) :
    (leave g s).unsettled = s.unsettled :=
  leave_keeps RunState.unsettled (fun _ _ _ _ _ => rfl) (fun _ _ => rfl) g s

@[simp] theorem leave_executed (g : TaskGraph) (s : RunState) :
    (leave g s).executed = s.executed :=
  leave_keeps RunState.executed (fun _ _ _ _ _ => rfl) (fun _ _ => rfl) g s

@[simp] theorem teardownTask_stopped (s : RunState) (task : Task) :
    (teardownTask s task).stopped = s.stopped := by
  unfold teardownTask; split <;> rfl

theorem teardownTask_entry {task : Task} (member : task ∈ g.tasks) (stopping : s.stopped = true) :
    Entry g gives s (teardownTask s task) := by
  rw [teardownTask]
  by_cases terminal : isTerminalStatus (s.status task.id) = true
  · rw [if_pos terminal]
    exact .quiet id rfl rfl rfl rfl
  · rw [if_neg terminal]
    exact .record id member (by simpa using terminal) (.stopped stopping rfl) rfl rfl rfl rfl

theorem teardown_entries (stopping : s.stopped = true) :
    ReflTransGen (Entry g gives) s (teardown g s) := by
  have fold : ∀ (l : List Task) (s : RunState), s.stopped = true → (∀ task ∈ l, task ∈ g.tasks) →
      ReflTransGen (Entry g gives) s (l.foldl teardownTask s) := by
    intro l
    induction l with
    | nil => exact fun s _ _ => .refl
    | cons task l ih =>
        intro s stopping members
        refine ReflTransGen.head (teardownTask_entry (members task (by simp)) stopping) ?_
        exact ih _ (by simpa using stopping) fun t ht => members t (by simp [ht])
  exact fold g.tasks s stopping fun _ h => h

theorem leave_entries : ReflTransGen (Entry g gives) s (leave g s) := by
  by_cases stopping : s.stopped = true
  · refine (teardown_entries stopping).tail ?_
    simp only [leave, stopping, if_true]
    exact .quiet id rfl rfl rfl rfl
  · simp only [leave, stopping]
    exact .single (.quiet id rfl rfl rfl rfl)

/-- The queued settlements belong to tasks of the graph and are allowed. -/
def JobsKnown (g : TaskGraph) (gives : Task → Settlement → Prop) (s : RunState) : Prop :=
  ∀ task settlement, .settle task settlement ∈ s.jobs → task ∈ g.tasks ∧ gives task settlement

theorem Action.entries (known : JobsKnown g gives s) (action : Action sch g gives s t) :
    ReflTransGen (Entry g gives) s t := by
  cases action with
  | resume => exact .single (.quiet id rfl rfl rfl rfl)
  | @cancel task dep reason control member pending edge failed =>
      exact .single (.record id member (by simp [pending, isTerminalStatus])
        (.blocked pending edge failed rfl) rfl rfl rfl rfl)
  | observe => exact .single (.quiet (by simp +contextual) rfl rfl rfl rfl)
  | @start task rest control going launchable =>
      exact .single (.launch id (launchable.ready task (by simp)) (by simp [Scheduler.start])
        rfl rfl rfl)
  | wait => exact .single (.quiet id rfl rfl rfl rfl)
  | leave => exact leave_entries
  | stall => exact .single (.quiet id rfl rfl rfl rfl)
  | @ret task rest settled =>
      cases settled <;> exact .single (.quiet id rfl rfl rfl rfl)
  | throwSync => exact .single (.quiet id rfl rfl rfl rfl)
  | resolve => exact .single (.quiet id rfl rfl rfl rfl)
  | abort =>
      refine .single (.quiet ?_ ?_ ?_ ?_ ?_)
      all_goals simp [Scheduler.abort]
  | @settle task settlement rest outside jobs =>
      obtain ⟨member, given⟩ := known task settlement (by simp [jobs])
      rw [Scheduler.settle]
      by_cases running : s.status task.id = .running
      · rw [if_neg (not_not.mpr running)]
        refine .single (.record ?_ member ?_ (.settled given running rfl) ?_ ?_ ?_ ?_)
        all_goals simp [running, isTerminalStatus, release]
      · rw [if_pos running]
        refine .single (.quiet ?_ ?_ ?_ ?_ ?_)
        all_goals simp [release]

/-- The invariant of the ledger. -/
structure Ledger (g : TaskGraph) (s : RunState) : Prop where
  agrees : ∀ task ∈ g.tasks, ∀ o, s.outcomes task.id = some o →
    o.status.toTaskStatus = s.status task.id
  recorded : ∀ task ∈ g.tasks, isTerminalStatus (s.status task.id) = true →
    (s.outcomes task.id).isSome = true
  distinct : s.order.Nodup
  listed : ∀ id, id ∈ s.order ↔ id ∈ g.ids ∧ (s.outcomes id).isSome = true
  once : s.executed.Nodup
  known : ∀ id ∈ s.executed, id ∈ g.ids
  unstarted : ∀ task ∈ g.tasks, s.status task.id = .pending → task.id ∉ s.executed
  started : ∀ task ∈ g.tasks, s.status task.id = .running → task.id ∈ s.executed
  transient : ∀ task ∈ g.tasks, s.status task.id ≠ .ready
  deps : ∀ task ∈ g.tasks, task.id ∈ s.executed → ∀ dep ∈ task.dependsOn,
    s.status dep = .completed

theorem Ledger.initial (g : TaskGraph) {status : TaskGraph.Statuses} (signalAborted : Bool)
    (fresh : ∀ task ∈ g.tasks, status task.id = .pending) :
    Ledger g (initial status signalAborted) := by
  constructor <;> simp +contextual [Scheduler.initial, fresh, isTerminalStatus]

/-- An outcome is recorded exactly for the terminal tasks. -/
theorem Ledger.isSome_iff (ledger : Ledger g s) {task : Task} (member : task ∈ g.tasks) :
    (s.outcomes task.id).isSome = true ↔ isTerminalStatus (s.status task.id) = true := by
  refine ⟨?_, ledger.recorded task member⟩
  intro h
  obtain ⟨o, ho⟩ := Option.isSome_iff_exists.mp h
  rw [← ledger.agrees task member o ho, isTerminalStatus_toTaskStatus]

section Entries

variable {task : Task} {outcome : TaskOutcome}

theorem Ledger.record (ledger : Ledger g s) (member : task ∈ g.tasks)
    (opened : isTerminalStatus (s.status task.id) = false)
    (status : t.status = Function.update s.status task.id outcome.status.toTaskStatus)
    (outcomes : t.outcomes = Function.update s.outcomes task.id (some outcome))
    (order : t.order = s.order ++ [task.id]) (executed : t.executed = s.executed) :
    Ledger g t := by
  have fresh : task.id ∉ s.order := by
    intro listed
    have terminal := (ledger.isSome_iff member).mp ((ledger.listed _).mp listed).2
    simp [opened] at terminal
  have keep : ∀ id, id ≠ task.id → t.status id = s.status id ∧ t.outcomes id = s.outcomes id := by
    intro id apart
    simp [status, outcomes, apart]
  have here : t.status task.id = outcome.status.toTaskStatus ∧
      t.outcomes task.id = some outcome := by
    simp [status, outcomes]
  have kept : ∀ id status, isTerminalStatus status = false → t.status id = status →
      s.status id = status := by
    rintro id _ unfinished rfl
    by_cases same : id = task.id
    · rw [same, here.1] at unfinished
      simp at unfinished
    · exact (keep id same).1.symm
  refine
    { agrees := ?_
      recorded := ?_
      distinct := ?_
      listed := ?_
      once := executed ▸ ledger.once
      known := executed ▸ ledger.known
      unstarted := ?_
      started := ?_
      transient := ?_
      deps := ?_ }
  · intro other inside o found
    by_cases same : other.id = task.id
    · rw [same] at found ⊢
      rw [here.2] at found
      cases found
      exact here.1.symm
    · rw [(keep _ same).2] at found
      rw [(keep _ same).1]
      exact ledger.agrees other inside o found
  · intro other inside terminal
    by_cases same : other.id = task.id
    · simp [same, here.2]
    · rw [(keep _ same).1] at terminal
      rw [(keep _ same).2]
      exact ledger.recorded other inside terminal
  · rw [order, ← List.concat_eq_append, List.nodup_concat]
    exact ⟨fresh, ledger.distinct⟩
  · intro id
    rw [order, List.mem_append, List.mem_singleton, ledger.listed, outcomes]
    by_cases same : id = task.id
    · simp [same, TaskGraph.id_mem_ids member]
    · simp [same]
  · intro other inside pending
    rw [executed]
    exact ledger.unstarted other inside (kept _ _ rfl pending)
  · intro other inside running
    rw [executed]
    exact ledger.started other inside (kept _ _ rfl running)
  · intro other inside isReady
    exact ledger.transient other inside (kept _ _ rfl isReady)
  · intro other inside ran dep edge
    rw [executed] at ran
    have completed := ledger.deps other inside ran dep edge
    have apart : dep ≠ task.id := by
      rintro rfl
      simp [completed, isTerminalStatus] at opened
    rw [(keep dep apart).1, completed]

theorem Ledger.launch (valid : g.Validated) (ledger : Ledger g s) (ready : task ∈ g.ready s.status)
    (status : t.status = Function.update s.status task.id .running)
    (outcomes : t.outcomes = s.outcomes) (order : t.order = s.order)
    (executed : t.executed = s.executed ++ [task.id]) : Ledger g t := by
  obtain ⟨member, pending, completed⟩ := TaskGraph.mem_ready.mp ready
  have fresh := ledger.unstarted task member pending
  have keep : ∀ id, id ≠ task.id → t.status id = s.status id := by
    intro id apart
    simp [status, apart]
  have here : t.status task.id = .running := by simp [status]
  have done : ∀ dep, s.status dep = .completed → t.status dep = .completed := by
    intro dep finished
    have apart : dep ≠ task.id := by
      rintro rfl
      simp [pending] at finished
    rw [keep dep apart, finished]
  refine
    { agrees := ?_
      recorded := ?_
      distinct := order ▸ ledger.distinct
      listed := ?_
      once := ?_
      known := ?_
      unstarted := ?_
      started := ?_
      transient := ?_
      deps := ?_ }
  · intro other inside o found
    rw [outcomes] at found
    by_cases same : other.id = task.id
    · have open' := ledger.agrees other inside o found
      rw [same, pending] at open'
      cases h : o.status <;> simp [h, TaskOutcomeStatus.toTaskStatus] at open'
    · rw [keep _ same]
      exact ledger.agrees other inside o found
  · intro other inside terminal
    by_cases same : other.id = task.id
    · simp [same, here, isTerminalStatus] at terminal
    · rw [keep _ same] at terminal
      rw [outcomes]
      exact ledger.recorded other inside terminal
  · intro id
    rw [order, outcomes]
    exact ledger.listed id
  · rw [executed, ← List.concat_eq_append, List.nodup_concat]
    exact ⟨fresh, ledger.once⟩
  · intro id ran
    rw [executed, List.mem_append, List.mem_singleton] at ran
    obtain ran | rfl := ran
    · exact ledger.known id ran
    · exact TaskGraph.id_mem_ids member
  · intro other inside waiting
    by_cases same : other.id = task.id
    · simp [same, here] at waiting
    · rw [keep _ same] at waiting
      simpa [executed, same] using ledger.unstarted other inside waiting
  · intro other inside running
    by_cases same : other.id = task.id
    · simp [executed, same]
    · rw [keep _ same] at running
      simp [executed, ledger.started other inside running]
  · intro other inside isReady
    by_cases same : other.id = task.id
    · simp [same, here] at isReady
    · rw [keep _ same] at isReady
      exact ledger.transient other inside isReady
  · intro other inside ran dep edge
    rw [executed, List.mem_append, List.mem_singleton] at ran
    obtain ran | same := ran
    · exact done dep (ledger.deps other inside ran dep edge)
    · rw [TaskGraph.eq_of_id_eq inside member same] at edge
      exact done dep ((TaskGraph.depsCompleted_iff valid member).mp completed dep edge)

end Entries

theorem Ledger.entry (valid : g.Validated) (ledger : Ledger g s) (entry : Entry g gives s t) :
    Ledger g t := by
  cases entry with
  | quiet _ status outcomes order executed =>
      obtain ⟨h1, h2, h3, h4, h5, h6, h7, h8, h9, h10⟩ := ledger
      constructor <;> simp only [status, outcomes, order, executed] <;> assumption
  | record _ member opened cause status outcomes order executed =>
      exact ledger.record member opened status outcomes order executed
  | launch _ ready status outcomes order executed =>
      exact ledger.launch valid ready status outcomes order executed

/-- Terminal tasks keep their status and outcome. -/
def Settled (g : TaskGraph) (s t : RunState) : Prop :=
  (∀ id, isTerminalStatus (s.status id) = true → t.status id = s.status id) ∧
    (∀ task ∈ g.tasks, isTerminalStatus (s.status task.id) = true →
      t.outcomes task.id = s.outcomes task.id) ∧
    s.executed <+: t.executed

theorem Settled.refl (g : TaskGraph) (s : RunState) : Settled g s s :=
  ⟨fun _ _ => rfl, fun _ _ _ => rfl, List.prefix_refl _⟩

theorem Settled.trans {u : RunState} (first : Settled g s t) (second : Settled g t u) :
    Settled g s u := by
  refine ⟨?_, ?_, first.2.2.trans second.2.2⟩
  · intro id h
    have kept := first.1 id h
    exact (second.1 id (kept ▸ h)).trans kept
  · intro task ht h
    have kept := first.1 task.id h
    exact (second.2.1 task ht (kept ▸ h)).trans (first.2.1 task ht h)

theorem Entry.settled (entry : Entry g gives s t) : Settled g s t := by
  cases entry with
  | quiet _ status outcomes order executed =>
      exact ⟨fun _ _ => by rw [status], fun _ _ _ => by rw [outcomes], by rw [executed]⟩
  | @record task outcome _ member opened cause status outcomes order executed =>
      have apart : ∀ id, isTerminalStatus (s.status id) = true → id ≠ task.id := by
        rintro id h rfl
        simp [opened] at h
      refine ⟨?_, ?_, by rw [executed]⟩
      · intro id h
        simp [status, apart id h]
      · intro other _ h
        simp [outcomes, apart other.id h]
  | @launch task _ ready status outcomes order executed =>
      have pending := (TaskGraph.mem_ready.mp ready).2.1
      refine ⟨?_, fun _ _ _ => by rw [outcomes], by simp [executed]⟩
      intro id h
      have apart : id ≠ task.id := by
        rintro rfl
        simp [pending, isTerminalStatus] at h
      simp [status, apart]

end MultiAgent.Native.Scheduler
