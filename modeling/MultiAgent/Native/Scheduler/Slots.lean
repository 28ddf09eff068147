import MultiAgent.Native.Scheduler.Ledger

/-!
# Executions in flight

An execution is in flight from the call of `execute` until its settlement has
been handled: while the call is open, while its promise is pending, and while
its `then` handler is queued. `Slots` bounds these executions in every state,
and says that until the run ends `running`, `busyAgents` and the statuses are
exactly what they determine.
-/

namespace MultiAgent.Native.Scheduler

open Relation

/-- The task whose call of `execute` is open. -/
def Control.opened : Control → List Task
  | .calling task _ => [task]
  | .looping | .waiting | .returned _ | .stalled _ | .threw _ => []

def Job.settling : Job → Option Task
  | .settle task _ => some task
  | .resume => none

/-- The executions that have started and whose settlement is not handled yet. -/
def RunState.inFlight (s : RunState) : List Task :=
  s.control.opened ++ (s.unsettled ++ s.jobs.filterMap Job.settling)

/-- The three pieces of bookkeeping agree with the executions in flight. -/
structure Exact (g : TaskGraph) (s : RunState) : Prop where
  running : s.running = (s.inFlight.map Task.id).toFinset
  busy : s.busyAgents = (s.inFlight.map Task.agentId).toFinset
  status : ∀ task ∈ g.tasks, s.status task.id = .running ↔ task ∈ s.inFlight

structure Slots (sch : Scheduler) (g : TaskGraph) (s : RunState) : Prop where
  known : ∀ task ∈ s.inFlight, task ∈ g.tasks
  distinct : (s.inFlight.map Task.id).Nodup
  exclusive : (s.inFlight.map Task.agentId).Nodup
  limited : ∀ limit ∈ sch.concurrency, s.inFlight.length ≤ limit
  exact : s.active = true → Exact g s

variable {sch : Scheduler} {g : TaskGraph} {gives : Task → Settlement → Prop} {s t : RunState}

theorem mem_settling {task : Task} {jobs : List Job} :
    task ∈ jobs.filterMap Job.settling ↔ ∃ settlement, Job.settle task settlement ∈ jobs := by
  simp only [List.mem_filterMap]
  constructor
  · rintro ⟨job, member, settles⟩
    cases job with
    | settle other settlement =>
        cases settles
        exact ⟨settlement, member⟩
    | resume => cases settles
  · rintro ⟨settlement, member⟩
    exact ⟨_, member, rfl⟩

theorem Slots.mem_of_job (slots : Slots sch g s) {task : Task} {settlement : Settlement}
    (queued : .settle task settlement ∈ s.jobs) : task ∈ g.tasks := by
  apply slots.known
  simp only [RunState.inFlight, List.mem_append]
  exact .inr (.inr (mem_settling.mpr ⟨settlement, queued⟩))

theorem Slots.initial (sch : Scheduler) (g : TaskGraph) {status : TaskGraph.Statuses}
    (signalAborted : Bool) (fresh : ∀ task ∈ g.tasks, status task.id = .pending) :
    Slots sch g (initial status signalAborted) := by
  have empty : (Scheduler.initial status signalAborted).inFlight = [] := rfl
  refine ⟨by simp [empty], by simp [empty], by simp [empty], by simp [empty], fun _ => ?_⟩
  refine ⟨by rw [empty]; rfl, by rw [empty]; rfl, ?_⟩
  intro task member
  rw [empty]
  simp [Scheduler.initial, fresh task member]

/-- The bounds hold of whatever is left of the executions in flight. -/
theorem Slots.shrink (slots : Slots sch g s) (less : t.inFlight.Subperm s.inFlight)
    (exact' : t.active = true → Exact g t) : Slots sch g t := by
  obtain ⟨l, perm, sub⟩ := less
  refine ⟨fun task h => slots.known task (sub.subset (perm.mem_iff.mpr h)), ?_, ?_, ?_, exact'⟩
  · exact (perm.map Task.id).nodup_iff.mp ((sub.map Task.id).nodup slots.distinct)
  · exact (perm.map Task.agentId).nodup_iff.mp ((sub.map Task.agentId).nodup slots.exclusive)
  · exact fun limit hl => perm.length_eq ▸ sub.length_le.trans (slots.limited limit hl)

theorem Exact.congr (exact' : Exact g s) (same : t.inFlight.Perm s.inFlight)
    (running : t.running = s.running) (busy : t.busyAgents = s.busyAgents)
    (status : ∀ task ∈ g.tasks, t.status task.id = .running ↔ s.status task.id = .running) :
    Exact g t := by
  refine ⟨?_, ?_, ?_⟩
  · rw [running, exact'.running]
    exact (List.toFinset_eq_of_perm _ _ (same.map Task.id)).symm
  · rw [busy, exact'.busy]
    exact (List.toFinset_eq_of_perm _ _ (same.map Task.agentId)).symm
  · intro task member
    rw [status task member, exact'.status task member, same.mem_iff]

/-- An action that keeps the executions in flight and the bookkeeping. -/
theorem Slots.congr (slots : Slots sch g s) (same : t.inFlight.Perm s.inFlight)
    (running : t.running = s.running) (busy : t.busyAgents = s.busyAgents)
    (status : ∀ task ∈ g.tasks, t.status task.id = .running ↔ s.status task.id = .running)
    (active : t.active = true → s.active = true) : Slots sch g t :=
  slots.shrink same.subperm fun h => (slots.exact (active h)).congr same running busy status

@[simp] theorem wake_settling (s : RunState) :
    (wake s).jobs.filterMap Job.settling = s.jobs.filterMap Job.settling := by
  rw [wake]
  split
  · simp [Job.settling]
  · rfl

theorem attach_inFlight {task : Task} {rest : List Task} (settled : Option Settlement)
    (control : s.control = .calling task rest) :
    (attach s task settled).inFlight.Perm s.inFlight := by
  cases settled with
  | none => simp [RunState.inFlight, attach, control, Control.opened]
  | some settlement =>
      simp only [RunState.inFlight, attach, control, Control.opened, List.filterMap_append,
        List.filterMap_cons, Job.settling, List.filterMap_nil, List.nil_append,
        List.singleton_append]
      rw [← List.append_assoc]
      exact List.perm_append_singleton task _

theorem resolve_inFlight {task : Task} (settlement : Settlement) (member : task ∈ s.unsettled) :
    RunState.inFlight { s with unsettled := s.unsettled.erase task
                               jobs := s.jobs ++ [.settle task settlement] } |>.Perm
      s.inFlight := by
  have moved := (List.perm_cons_erase member).symm
  simp only [RunState.inFlight, List.filterMap_append, List.filterMap_cons, Job.settling,
    List.filterMap_nil]
  refine List.Perm.append_left _ ?_
  rw [← List.append_assoc]
  refine (List.perm_append_singleton task _).trans ?_
  rw [← List.cons_append]
  exact moved.append_right _

theorem settle_inFlight {task : Task} {settlement : Settlement} {rest : List Job}
    (jobs : s.jobs = .settle task settlement :: rest) :
    s.inFlight.Perm (task :: RunState.inFlight { s with jobs := rest }) := by
  simp only [RunState.inFlight, jobs, List.filterMap_cons, Job.settling]
  rw [← List.append_assoc, ← List.append_assoc]
  exact List.perm_middle

theorem Slots.start {task : Task} {rest : List Task} (slots : Slots sch g s)
    (control : s.control = .looping) (launchable : Launchable g s.status (task :: rest))
    (capacity : sch.atCapacity s = false) (idle : task.agentId ∉ s.busyAgents) :
    Slots sch g (start s task rest) := by
  obtain ⟨member, pending, -⟩ := TaskGraph.mem_ready.mp (launchable.ready task (by simp))
  have exact' := slots.exact (by simp [RunState.active, control])
  have grown : (Scheduler.start s task rest).inFlight = task :: s.inFlight := by
    simp [RunState.inFlight, Scheduler.start, control, Control.opened]
  have fresh : task ∉ s.inFlight := by
    intro flying
    have running := (exact'.status task member).mpr flying
    simp [pending] at running
  have freshId : task.id ∉ s.inFlight.map Task.id := by
    intro flying
    obtain ⟨other, flies, same⟩ := List.mem_map.mp flying
    exact fresh (TaskGraph.eq_of_id_eq (slots.known other flies) member same ▸ flies)
  have freshAgent : task.agentId ∉ s.inFlight.map Task.agentId := by
    simpa [exact'.busy] using idle
  refine ⟨?_, ?_, ?_, ?_, fun _ => ⟨?_, ?_, ?_⟩⟩
  · rw [grown]
    exact List.forall_mem_cons.mpr ⟨member, slots.known⟩
  · rw [grown]
    exact List.nodup_cons.mpr ⟨freshId, slots.distinct⟩
  · rw [grown]
    exact List.nodup_cons.mpr ⟨freshAgent, slots.exclusive⟩
  · intro limit hl
    rw [Option.mem_def] at hl
    have room : s.running.card < limit := by simpa [atCapacity, hl] using capacity
    rw [exact'.running, List.toFinset_card_of_nodup slots.distinct, List.length_map] at room
    rw [grown]
    exact room
  · rw [grown]
    simp [Scheduler.start, exact'.running]
  · rw [grown]
    simp [Scheduler.start, exact'.busy]
  · intro other ho
    rw [grown, List.mem_cons, ← exact'.status other ho]
    by_cases same : other = task
    · simp [same, Scheduler.start]
    · have apart : other.id ≠ task.id := fun h => same (TaskGraph.eq_of_id_eq ho member h)
      simp [same, apart, Scheduler.start]

theorem Slots.settle {task : Task} {settlement : Settlement} {rest : List Job}
    (slots : Slots sch g s) (jobs : s.jobs = .settle task settlement :: rest) :
    Slots sch g (settle { s with jobs := rest } task (settlement.outcome task)) := by
  have split := settle_inFlight jobs
  have less : (Scheduler.settle { s with jobs := rest } task (settlement.outcome task)).inFlight =
      RunState.inFlight { s with jobs := rest } := by
    rw [Scheduler.settle]
    by_cases running : s.status task.id = .running <;>
      simp [running, release, RunState.inFlight]
  refine slots.shrink ?_ ?_
  · rw [less]
    exact (List.sublist_cons_self task _).subperm.trans split.symm.subperm
  intro active
  have exact' := slots.exact (by
    rw [Scheduler.settle] at active
    split at active <;> simpa [release, RunState.active] using active)
  have member : task ∈ g.tasks := slots.known task (split.mem_iff.mpr (by simp))
  have running : s.status task.id = .running :=
    (exact'.status task member).mpr (split.mem_iff.mpr (by simp))
  have ids := (split.map Task.id).nodup_iff.mp slots.distinct
  have agents := (split.map Task.agentId).nodup_iff.mp slots.exclusive
  rw [List.map_cons, List.nodup_cons] at ids agents
  have runningAfter := exact'.running.trans (List.toFinset_eq_of_perm _ _ (split.map Task.id))
  have busyAfter := exact'.busy.trans (List.toFinset_eq_of_perm _ _ (split.map Task.agentId))
  rw [List.map_cons, List.toFinset_cons] at runningAfter busyAfter
  refine ⟨?_, ?_, ?_⟩
  · rw [less]
    simp only [Scheduler.settle, running, not_true_eq_false, ne_eq, if_false, wake_running, release]
    exact (congrArg (Finset.erase · task.id) runningAfter).trans
      (Finset.erase_insert (by simpa using ids.1))
  · rw [less]
    simp only [Scheduler.settle, running, not_true_eq_false, ne_eq, if_false, wake_busyAgents,
      release]
    exact (congrArg (Finset.erase · task.agentId) busyAfter).trans
      (Finset.erase_insert (by simpa using agents.1))
  · intro other ho
    rw [less]
    simp only [Scheduler.settle, running, not_true_eq_false, ne_eq, if_false, wake_status,
      release_status]
    by_cases same : other = task
    · subst same
      have gone : other ∉ RunState.inFlight { s with jobs := rest } := fun h =>
        ids.1 (List.mem_map_of_mem h)
      rw [Function.update_self]
      simp only [gone, iff_false]
      cases (settlement.outcome other).status <;> simp [TaskOutcomeStatus.toTaskStatus]
    · have apart : other.id ≠ task.id := fun h => same (TaskGraph.eq_of_id_eq ho member h)
      rw [Function.update_of_ne apart, exact'.status other ho, split.mem_iff, List.mem_cons]
      simp [same]

theorem leave_active (g : TaskGraph) (s : RunState) : (leave g s).active = false := rfl

theorem leave_inFlight (control : s.control = .looping) : (leave g s).inFlight = s.inFlight := by
  simp only [RunState.inFlight, leave_unsettled, leave_jobs, control]
  rfl

/-- Every action keeps the bounds and the bookkeeping. -/
theorem Slots.action (slots : Slots sch g s) (action : Action sch g gives s t) :
    Slots sch g t := by
  cases action with
  | @resume rest control jobs =>
      have same : RunState.inFlight { s with jobs := rest, control := .looping } = s.inFlight := by
        simp [RunState.inFlight, control, jobs, List.filterMap_cons, Job.settling, Control.opened]
      refine slots.congr ?_ rfl rfl (fun _ _ => Iff.rfl) fun _ => by simp [RunState.active, control]
      rw [same]
  | @cancel task dep reason control member pending edge failed =>
      refine slots.congr (.refl _) rfl rfl ?_ id
      intro other _
      by_cases same : other.id = task.id
      · simp [cancelBlocked, same, pending]
      · simp [cancelBlocked, same]
  | observe => exact slots.congr (.refl _) rfl rfl (fun _ _ => Iff.rfl) id
  | start control going launchable capacity idle =>
      exact slots.start control launchable capacity idle
  | wait control busy going unaborted =>
      refine slots.congr ?_ rfl rfl (fun _ _ => Iff.rfl) fun _ => by simp [RunState.active, control]
      simp [RunState.inFlight, control, Control.opened]
  | leave control done =>
      refine slots.shrink ?_ fun active => by simp [leave_active] at active
      rw [leave_inFlight control]
  | stall control idle incomplete going unaborted =>
      refine slots.shrink ?_ fun active => by simp [RunState.active] at active
      simp only [RunState.inFlight, control, Control.opened]
      exact List.Subperm.refl _
  | @ret task rest settled control given =>
      refine slots.congr (attach_inFlight settled control) ?_ ?_ ?_ fun _ => by
        simp [RunState.active, control]
      all_goals cases settled <;> simp [attach]
  | throwSync message control =>
      refine slots.shrink ?_ fun active => by simp [RunState.active] at active
      simp only [RunState.inFlight, control, Control.opened, List.nil_append]
      exact (List.sublist_append_right _ _).subperm
  | resolve settlement member given =>
      exact slots.congr (resolve_inFlight settlement member) rfl rfl (fun _ _ => Iff.rfl) id
  | abort active first =>
      refine slots.congr ?_ ?_ ?_ ?_ fun _ => active
      all_goals simp [Scheduler.abort, RunState.inFlight]
  | settle outside jobs => exact slots.settle jobs

end MultiAgent.Native.Scheduler
