import MultiAgent.Foundations.Sweep
import MultiAgent.Native.Scheduler.Safety

/-!
# One pass of the cascade, and when the loop stalls

Step 1 of the loop body is a sweep over the ids in insertion order, and it is
not repeated within the pass. A pass that is entered with nothing in flight and
finds nothing to launch therefore stalls exactly when the sweep leaves a pending
task behind. `Swept` is the condition under which it leaves none.
-/

namespace MultiAgent.Native.Scheduler

variable {sch : Scheduler} {g : TaskGraph} {s t : RunState}

/-- The ids that step 1 cancels. -/
def cancelled (g : TaskGraph) (s : RunState) : List String :=
  sweep g.dependsOn (fun id => decide (s.status id = .pending)) (failedDep g s.status) g.ids

theorem cascadeTask_status {task : Task} (member : task ∈ g.tasks) :
    (cascadeTask g s task).status =
      if decide (s.status task.id = .pending) && (g.dependsOn task.id).any (failedDep g s.status)
      then Function.update s.status task.id .cancelled else s.status := by
  rw [TaskGraph.dependsOn_id member]
  rw [cascadeTask]
  by_cases pending : s.status task.id = .pending
  · rw [if_neg (not_not.mpr pending), decide_eq_true pending, Bool.true_and]
    cases found : task.dependsOn.find? (failedDep g s.status) with
    | none =>
        have absent : task.dependsOn.any (failedDep g s.status) = false := by
          simpa using List.find?_eq_none.mp found
        rw [absent]
        rfl
    | some dep =>
        have present : task.dependsOn.any (failedDep g s.status) = true :=
          List.any_eq_true.mpr ⟨dep, List.mem_of_find?_eq_some found, List.find?_some found⟩
        rw [present]
        rfl
  · rw [if_pos pending, decide_eq_false pending]
    rfl

theorem failedDep_update {task : Task} (member : task ∈ g.tasks) (status : TaskGraph.Statuses) :
    failedDep g (Function.update status task.id .cancelled) =
      fun id => failedDep g status id || decide (id = task.id) := by
  funext id
  by_cases same : id = task.id
  · simp [failedDep, same, TaskGraph.has, TaskGraph.id_mem_ids member, isTerminalStatus]
  · simp [failedDep, same]

/-- Step 1 cancels what the sweep drops and changes no other status. -/
theorem cascade_status (g : TaskGraph) (s : RunState) :
    (cascade g s).status = fun id => if id ∈ cancelled g s then .cancelled else s.status id := by
  have fold : ∀ (l : List Task) (s : RunState), (l.map Task.id).Nodup →
      (∀ task ∈ l, task ∈ g.tasks) →
      (l.foldl (cascadeTask g) s).status = fun id =>
        if id ∈ sweep g.dependsOn (fun id => decide (s.status id = .pending))
          (failedDep g s.status) (l.map Task.id) then .cancelled else s.status id := by
    intro l
    induction l with
    | nil => simp [sweep]
    | cons task l ih =>
        intro s distinct members
        obtain ⟨fresh, distinct⟩ := List.nodup_cons.mp distinct
        obtain ⟨member, members⟩ := List.forall_mem_cons.mp members
        rw [List.foldl_cons, ih (cascadeTask g s task) distinct members, List.map_cons, sweep,
          cascadeTask_status member]
        by_cases drop : (decide (s.status task.id = .pending) &&
            (g.dependsOn task.id).any (failedDep g s.status)) = true
        · -- the head is dropped, so it is bad for the rest and eligible for none of it
          rw [if_pos drop, if_pos drop, failedDep_update member]
          have same : ∀ id ∈ l.map Task.id,
              decide (Function.update s.status task.id .cancelled id = .pending) =
                decide (s.status id = .pending) := by
            intro id later
            have apart : id ≠ task.id := fun h => fresh (h ▸ later)
            rw [Function.update_of_ne apart]
          rw [Sweep.congr same]
          funext id
          by_cases here : id = task.id
          · simp [here]
          · simp [here]
        · rw [if_neg drop, if_neg drop]
  exact fold g.tasks s g.distinct fun _ h => h

theorem mem_cancelled_iff {id : String} (known : id ∈ g.ids) :
    id ∈ cancelled g s ↔ s.status id = .pending ∧ ∃ dep ∈ g.dependsOn id,
      failedDep g s.status dep = true ∨
        (dep ∈ cancelled g s ∧ g.ids.idxOf dep < g.ids.idxOf id) := by
  have dropped : id ∈ cancelled g s ↔ decide (s.status id = .pending) = true ∧
      ∃ dep ∈ g.dependsOn id, failedDep g s.status dep = true ∨
        (dep ∈ cancelled g s ∧ g.ids.idxOf dep < g.ids.idxOf id) := Sweep.mem_iff g.distinct known
  rwa [decide_eq_true_iff] at dropped

/-- A cancelled id was pending, and not all of its dependencies had completed. -/
theorem of_mem_cancelled {id : String} (dropped : id ∈ cancelled g s) :
    s.status id = .pending ∧ ∃ dep ∈ g.dependsOn id, s.status dep ≠ .completed := by
  obtain ⟨pending, dep, edge, failed | ⟨dropped', -⟩⟩ :=
    (mem_cancelled_iff (Sweep.mem_of_mem dropped)).mp dropped
  · refine ⟨pending, dep, edge, ?_⟩
    rintro done
    simp [failedDep, done] at failed
  · have pending' := ((mem_cancelled_iff (Sweep.mem_of_mem dropped')).mp dropped').1
    exact ⟨pending, dep, edge, by simp [pending']⟩

theorem cascade_ready (g : TaskGraph) (s : RunState) :
    g.ready (cascade g s).status = g.ready s.status := by
  have completed : ∀ dep, (cascade g s).status dep = .completed ↔ s.status dep = .completed := by
    intro dep
    rw [cascade_status]
    by_cases dropped : dep ∈ cancelled g s
    · simp [dropped, (of_mem_cancelled dropped).1]
    · simp [dropped]
  apply List.filter_congr
  intro task member
  have deps : g.depsCompleted (cascade g s).status task = g.depsCompleted s.status task := by
    simp only [TaskGraph.depsCompleted, completed]
  rw [deps]
  by_cases dropped : task.id ∈ cancelled g s
  · obtain ⟨-, dep, edge, unfinished⟩ := of_mem_cancelled dropped
    rw [TaskGraph.dependsOn_id member] at edge
    have blocked : g.depsCompleted s.status task = false := by
      rw [Bool.eq_false_iff]
      intro all
      have done := List.all_eq_true.mp all dep edge
      simp [unfinished] at done
    rw [blocked, Bool.and_false, Bool.and_false]
  · rw [cascade_status]
    simp [dropped]

/-- Nothing runs, nothing can start and the run is not aborted: then every
pending task has a dependency that ended without completing, or a pending one
inserted before it. -/
def Swept (g : TaskGraph) (s : RunState) : Prop :=
  s.running = ∅ → s.aborted = false → g.ready s.status = [] →
    ∀ task ∈ g.tasks, s.status task.id = .pending → ∃ dep ∈ task.dependsOn,
      failedDep g s.status dep = true ∨
        (s.status dep = .pending ∧ g.ids.idxOf dep < g.ids.idxOf task.id)

/-- With nothing in flight, step 1 completes the graph exactly when it drops
every pending task. -/
theorem cascade_complete_iff (ledger : Ledger g s) (exact' : Exact g s) (idle : s.running = ∅) :
    g.isComplete (cascade g s).status = true ↔
      ∀ task ∈ g.tasks, s.status task.id = .pending → ∃ dep ∈ task.dependsOn,
        failedDep g s.status dep = true ∨
          (s.status dep = .pending ∧ g.ids.idxOf dep < g.ids.idxOf task.id) := by
  have empty : s.inFlight = [] := by
    have none := exact'.running.symm.trans idle
    simpa using none
  have shape : ∀ task ∈ g.tasks, s.status task.id ≠ .pending →
      isTerminalStatus (s.status task.id) = true := by
    intro task member other
    have still : s.status task.id ≠ .running := by
      intro running
      simpa [empty] using (exact'.status task member).mp running
    have steady := ledger.transient task member
    cases now : s.status task.id <;> simp_all [isTerminalStatus]
  have covers : (∀ id ∈ g.ids, s.status id = .pending → id ∈ cancelled g s) ↔
      ∀ id ∈ g.ids, s.status id = .pending → ∃ dep ∈ g.dependsOn id,
        failedDep g s.status dep = true ∨
          (s.status dep = .pending ∧ g.ids.idxOf dep < g.ids.idxOf id) :=
    Sweep.covers_iff g.distinct (fun _ _ h => by simpa using h)
      fun id dropped => (of_mem_cancelled dropped).1
  have complete : g.isComplete (cascade g s).status = true ↔
      ∀ id ∈ g.ids, s.status id = .pending → id ∈ cancelled g s := by
    rw [TaskGraph.isComplete_iff, cascade_status]
    constructor
    · intro all id known pending
      obtain ⟨task, member, rfl⟩ := TaskGraph.mem_ids.mp known
      by_contra kept
      have terminal := all task member
      simp [kept, pending, isTerminalStatus] at terminal
    · intro all task member
      by_cases dropped : task.id ∈ cancelled g s
      · simp [dropped, isTerminalStatus]
      · have other : s.status task.id ≠ .pending := fun pending =>
          dropped (all task.id (TaskGraph.id_mem_ids member) pending)
        simpa [dropped] using shape task member other
  rw [complete, covers]
  constructor
  · intro reach task member pending
    have found := reach task.id (TaskGraph.id_mem_ids member) pending
    rwa [TaskGraph.dependsOn_id member] at found
  · intro reach id known pending
    obtain ⟨task, member, rfl⟩ := TaskGraph.mem_ids.mp known
    rw [TaskGraph.dependsOn_id member]
    exact reach task member pending

@[simp] theorem cascade_running (g : TaskGraph) (s : RunState) :
    (cascade g s).running = s.running :=
  cascade_keeps RunState.running (fun _ _ _ => rfl) g s

@[simp] theorem cascade_busyAgents (g : TaskGraph) (s : RunState) :
    (cascade g s).busyAgents = s.busyAgents :=
  cascade_keeps RunState.busyAgents (fun _ _ _ => rfl) g s

@[simp] theorem cascade_stopped (g : TaskGraph) (s : RunState) :
    (cascade g s).stopped = s.stopped :=
  cascade_keeps RunState.stopped (fun _ _ _ => rfl) g s

@[simp] theorem cascade_aborted (g : TaskGraph) (s : RunState) :
    (cascade g s).aborted = s.aborted :=
  cascade_keeps RunState.aborted (fun _ _ _ => rfl) g s

/-- The loop ended with the throw of the stall check. -/
def RunState.Stalled (s : RunState) : Prop := ∃ message, s.control = .stalled message

theorem conclude_stalled_iff :
    (conclude g s).Stalled ↔
      s.running = ∅ ∧ g.isComplete s.status = false ∧ s.stopped = false ∧ s.aborted = false := by
  have left : ∀ s : RunState, ¬ (leave g s).Stalled := by
    rintro s ⟨message, ended⟩
    cases ended
  rw [conclude]
  by_cases idle : s.running = ∅
  · rw [if_pos idle]
    by_cases complete : g.isComplete s.status = true
    · simp [complete, left]
    · rw [if_neg complete]
      dsimp only
      by_cases stopping : (stoppedNow s).stopped = true
      · rw [if_pos stopping]
        simp only [left, false_iff]
        rintro ⟨-, -, going, unaborted⟩
        simp [going, unaborted] at stopping
      · rw [if_neg stopping]
        have open' : s.stopped = false ∧ s.aborted = false := by simpa using stopping
        exact ⟨fun _ => ⟨idle, by simpa using complete, open'⟩, fun _ => ⟨_, rfl⟩⟩
  · rw [if_neg idle]
    dsimp only
    simp only [idle, false_and, iff_false]
    split
    · exact left _
    · rintro ⟨message, ended⟩
      cases ended

theorem launch_cases (sch : Scheduler) (g : TaskGraph) (rest : List Task) (s : RunState) :
    launch sch g rest s = conclude g s ∨
      ∃ task later, launch sch g rest s = start s task later := by
  induction rest with
  | nil => exact .inl rfl
  | cons task rest ih =>
      rw [launch]
      split
      · exact .inl rfl
      · split
        · exact ih
        · exact .inr ⟨task, rest, rfl⟩

/-- With nothing in flight, the first ready task is started. -/
theorem launch_idle {task : Task} {rest : List Task} (idle : s.running = ∅)
    (free : s.busyAgents = ∅) : launch sch g (task :: rest) s = start s task rest := by
  have room : sch.atCapacity s = false := by
    rw [atCapacity]
    split
    · rfl
    · rename_i limit given
      have positive := sch.positive limit given
      simp only [idle, Finset.card_empty, decide_eq_false_iff_not]
      omega
  simp [launch, room, free]

/-- A pass stalls exactly when it is entered with nothing running, nothing to
launch, no abort, and a pending task that the sweep leaves behind. -/
theorem iterate_stalled_iff (sound : Sound sch g s) (control : s.control = .looping)
    (going : s.stopped = false) : (iterate sch g s).Stalled ↔ ¬ Swept g s := by
  have exact' := sound.slots.exact (by simp [RunState.active, control])
  have idle_free : s.running = ∅ → s.busyAgents = ∅ := by
    intro idle
    have none := exact'.running.symm.trans idle
    rw [exact'.busy]
    simpa using none
  unfold iterate Swept
  dsimp only
  by_cases aborted : s.aborted = true
  · have stopping : (stoppedNow (cascade g s)).stopped = true := by simp [aborted]
    rw [if_pos stopping, conclude_stalled_iff]
    simp [aborted]
  · have unaborted : s.aborted = false := by simpa using aborted
    have onward : (stoppedNow (cascade g s)).stopped ≠ true := by simp [going, unaborted]
    rw [if_neg onward, stoppedNow_status, cascade_ready]
    cases found : g.ready s.status with
    | nil =>
        rw [launch, conclude_stalled_iff]
        simp only [stoppedNow_running, cascade_running, stoppedNow_status, stoppedNow_stopped,
          cascade_stopped, going, cascade_aborted, stoppedNow_aborted, unaborted, Bool.or_self,
          and_true, forall_const]
        by_cases idle : s.running = ∅
        · rw [← Bool.not_eq_true, cascade_complete_iff sound.ledger exact' idle]
          simp [idle]
        · simp [idle]
    | cons task rest =>
        have started : ∀ task' later u, ¬ (start u task' later).Stalled := by
          rintro task' later u ⟨message, ended⟩
          cases ended
        by_cases idle : s.running = ∅
        · rw [launch_idle (by simpa using idle) (by simpa [stoppedNow] using idle_free idle)]
          simp [started]
        · obtain same | ⟨task', later, same⟩ :=
            launch_cases sch g (task :: rest) (stoppedNow (cascade g s))
          · rw [same, conclude_stalled_iff]
            simp [idle]
          · rw [same]
            simp [started, idle]

end MultiAgent.Native.Scheduler
