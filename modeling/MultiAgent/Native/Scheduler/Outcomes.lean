import MultiAgent.Native.Scheduler.Safety

/-!
# The final statuses do not depend on the schedule

Fix what each execution settles with. In an unstopped run a terminal task
either ran and took the status of its own outcome, or was cancelled behind a
dependency that ended without completing. When the run returns this determines
every status, because a validated graph has a rank: `Determined` has one
solution, whatever the limit and the order of settlement.
-/

namespace MultiAgent.Native

namespace TaskGraph

/-- The dependency `dep` of the task `id`. -/
def Depends (g : TaskGraph) (id dep : String) : Prop := dep ∈ g.dependsOn id

/-- The statuses that the outcomes of the executions determine. -/
def Determined (g : TaskGraph) (f : Task → Settlement) (status : Statuses) : Prop :=
  ∀ task ∈ g.tasks,
    ((∀ dep ∈ task.dependsOn, status dep = .completed) ∧
      status task.id = ((f task).outcome task).status.toTaskStatus) ∨
    ((∃ dep ∈ task.dependsOn, status dep ≠ .completed) ∧ status task.id = .cancelled)

theorem Determined.unique {g : TaskGraph} (valid : g.Validated) {f : Task → Settlement}
    {status status' : Statuses} (first : g.Determined f status) (second : g.Determined f status') :
    ∀ id ∈ g.ids, status id = status' id := by
  obtain ⟨rank, descends⟩ := valid.ranked
  intro id
  induction height : rank id using Nat.strongRecOn generalizing id with
  | ind n ih =>
      intro known
      obtain ⟨task, member, rfl⟩ := mem_ids.mp known
      have agree : ∀ dep ∈ task.dependsOn, status dep = status' dep := fun dep edge =>
        ih _ (height ▸ descends task member dep edge) dep rfl (valid.known task member dep edge)
      obtain ⟨done, taken⟩ | ⟨⟨dep, edge, unfinished⟩, cancelled⟩ := first task member
      · obtain ⟨-, taken'⟩ | ⟨⟨dep, edge, unfinished⟩, -⟩ := second task member
        · rw [taken, taken']
        · exact absurd (agree dep edge ▸ done dep edge) unfinished
      · obtain ⟨done, -⟩ | ⟨-, cancelled'⟩ := second task member
        · exact absurd ((agree dep edge).trans (done dep edge)) unfinished
        · rw [cancelled, cancelled']

end TaskGraph

namespace Scheduler

open Relation

variable {sch : Scheduler} {g : TaskGraph} {gives : Task → Settlement → Prop} {s t : RunState}
variable {status : TaskGraph.Statuses} {signalAborted : Bool} {es : List Event}

/-- The task ran and took the status of an outcome it was given. -/
def Ran (gives : Task → Settlement → Prop) (s : RunState) (task : Task) : Prop :=
  task.id ∈ s.executed ∧ ∃ settlement, gives task settlement ∧
    s.status task.id = (settlement.outcome task).status.toTaskStatus

/-- The task was cancelled behind a dependency that did not complete. -/
def Skipped (s : RunState) (task : Task) : Prop :=
  task.id ∉ s.executed ∧ s.status task.id = .cancelled ∧
    ∃ dep ∈ task.dependsOn, isTerminalStatus (s.status dep) = true ∧ s.status dep ≠ .completed

/-- Until the run is stopped, every terminal task is accounted for. -/
def Explained (g : TaskGraph) (gives : Task → Settlement → Prop) (s : RunState) : Prop :=
  s.stopped = false → ∀ task ∈ g.tasks, isTerminalStatus (s.status task.id) = true →
    Ran gives s task ∨ Skipped s task

theorem Ran.keep {task : Task} (ran : Ran gives s task)
    (status : t.status task.id = s.status task.id) (executed : s.executed <+: t.executed) :
    Ran gives t task := by
  obtain ⟨started, settlement, given, taken⟩ := ran
  exact ⟨executed.subset started, settlement, given, status.trans taken⟩

theorem Skipped.keep {task : Task} (skipped : Skipped s task) (kept : Settled g s t)
    (absent : task.id ∉ t.executed) : Skipped t task := by
  obtain ⟨-, cancelled, dep, edge, terminal, unfinished⟩ := skipped
  have same := kept.1 dep terminal
  refine ⟨absent, ?_, dep, edge, same ▸ terminal, same ▸ unfinished⟩
  rw [kept.1 task.id (by rw [cancelled]; rfl), cancelled]

theorem Entry.going (entry : Entry g gives s t) (unstopped : t.stopped = false) :
    s.stopped = false := by
  have latched : s.stopped = true → t.stopped = true := by
    cases entry <;> assumption
  cases stopping : s.stopped with
  | false => rfl
  | true => simp [latched stopping] at unstopped

theorem failedDep_iff {dep : String} : failedDep g status dep = true ↔
    dep ∈ g.ids ∧ isTerminalStatus (status dep) = true ∧ status dep ≠ .completed := by
  simp [failedDep, TaskGraph.has, and_assoc]

theorem Explained.entry (ledger : Ledger g s) (explained : Explained g gives s)
    (entry : Entry g gives s t) : Explained g gives t := by
  intro unstopped other member terminal
  have before := explained (entry.going unstopped) other member
  have kept := entry.settled
  cases entry with
  | quiet _ status outcomes order executed =>
      rw [status] at terminal
      refine (before terminal).imp ?_ ?_
      · exact fun ran => ran.keep (by rw [status]) (by rw [executed])
      · exact fun skipped => skipped.keep kept (executed ▸ skipped.1)
  | @record task outcome latched recorded opened cause status outcomes order executed =>
      by_cases same : other.id = task.id
      · obtain rfl := TaskGraph.eq_of_id_eq member recorded same
        have taken : t.status other.id = outcome.status.toTaskStatus := by simp [status]
        cases cause with
        | @settled settlement given running same =>
            refine .inl ⟨executed ▸ ledger.started other member running, settlement, given, ?_⟩
            rw [taken, same]
        | @blocked dep pending edge failed cancelled =>
            obtain ⟨-, ended, unfinished⟩ := failedDep_iff.mp failed
            have depKept := kept.1 dep ended
            refine .inr ⟨executed ▸ ledger.unstarted other member pending, ?_, dep, edge, ?_, ?_⟩
            · rw [taken, cancelled]
              rfl
            · rw [depKept, ended]
            · rwa [depKept]
        | stopped stopping cancelled =>
            simp [latched stopping] at unstopped
      · have statusKept : t.status other.id = s.status other.id := by simp [status, same]
        rw [statusKept] at terminal
        refine (before terminal).imp ?_ ?_
        · exact fun ran => ran.keep statusKept (by rw [executed])
        · exact fun skipped => skipped.keep kept (executed ▸ skipped.1)
  | @launch task _ ready status outcomes order executed =>
      have apart : other.id ≠ task.id := by
        intro same
        simp [status, same, isTerminalStatus] at terminal
      have statusKept : t.status other.id = s.status other.id := by simp [status, apart]
      rw [statusKept] at terminal
      refine (before terminal).imp ?_ ?_
      · exact fun ran => ran.keep statusKept (by rw [executed]; exact List.prefix_append _ _)
      · intro skipped
        refine skipped.keep kept ?_
        rw [executed, List.mem_append, List.mem_singleton]
        exact fun h => h.elim skipped.1 apart

/-- The queued settlements are those that the executions were given. -/
def Delivered (gives : Task → Settlement → Prop) (s : RunState) : Prop :=
  ∀ task settlement, .settle task settlement ∈ s.jobs → gives task settlement

theorem mem_wake_jobs {task : Task} {settlement : Settlement} :
    .settle task settlement ∈ (wake s).jobs ↔ .settle task settlement ∈ s.jobs := by
  rw [wake]
  split <;> simp

theorem Delivered.action (delivered : Delivered gives s) (action : Action sch g gives s t) :
    Delivered gives t := by
  intro other settlement queued
  cases action with
  | resume control jobs =>
      exact delivered other settlement (by rw [jobs]; exact List.mem_cons_of_mem _ queued)
  | leave control done =>
      rw [leave_jobs] at queued
      exact delivered other settlement queued
  | @ret task rest settled control given =>
      cases settled with
      | none => exact delivered other settlement queued
      | some settlement' =>
          obtain before | here := List.mem_append.mp queued
          · exact delivered other settlement before
          · cases List.mem_singleton.mp here
            exact given settlement rfl
  | @resolve task settlement' member given =>
      obtain before | here := List.mem_append.mp queued
      · exact delivered other settlement before
      · cases List.mem_singleton.mp here
        exact given
  | abort active first =>
      exact delivered other settlement
        (mem_wake_jobs (s := { s with aborted := true }) |>.mp queued)
  | @settle task settlement' rest outside jobs =>
      refine delivered other settlement ?_
      rw [jobs]
      refine List.mem_cons_of_mem _ ?_
      rw [Scheduler.settle] at queued
      split at queued <;> exact mem_wake_jobs.mp queued
  | cancel | observe | start | wait | stall | throwSync => exact delivered other settlement queued

/-- The invariant of a run whose executions settle only as `gives` allows. -/
structure Accounted (sch : Scheduler) (g : TaskGraph) (gives : Task → Settlement → Prop)
    (s : RunState) : Prop where
  sound : Sound sch g s
  delivered : Delivered gives s
  explained : Explained g gives s

/-- What every entry of the ledger keeps, an action keeps. -/
theorem Accounted.entries_invariant {P : RunState → Prop} (valid : g.Validated)
    (accounted : Accounted sch g gives s) (action : Action sch g gives s t) (start : P s)
    (keep : ∀ u v, Ledger g u → P u → Entry g gives u v → P v) : P t := by
  have entries := action.entries fun task settlement queued =>
    ⟨accounted.sound.slots.mem_of_job queued, accounted.delivered task settlement queued⟩
  have both : Ledger g t ∧ P t := by
    clear action
    induction entries with
    | refl => exact ⟨accounted.sound.ledger, start⟩
    | tail _ entry ih => exact ⟨ih.1.entry valid entry, keep _ _ ih.1 ih.2 entry⟩
  exact both.2

theorem Accounted.action (valid : g.Validated) (accounted : Accounted sch g gives s)
    (action : Action sch g gives s t) : Accounted sch g gives t := by
  refine ⟨accounted.sound.action valid action, accounted.delivered.action action, ?_⟩
  exact accounted.entries_invariant valid action accounted.explained
    fun _ _ ledger explained entry => explained.entry ledger entry

theorem Accounted.actions (valid : g.Validated) (accounted : Accounted sch g gives s)
    (actions : ReflTransGen (Action sch g gives) s t) : Accounted sch g gives t := by
  induction actions with
  | refl => exact accounted
  | tail _ action ih => exact ih.action valid action

/-- Every execution of the run settles as `gives` allows. -/
def Obeys (gives : Task → Settlement → Prop) (sch : Scheduler) (g : TaskGraph)
    (status : TaskGraph.Statuses) (signalAborted : Bool) (es : List Event) : Prop :=
  Along (fun s e => e.Given gives s) sch g status signalAborted es

/-- What holds at the start and is kept by the actions of a run holds in its states. -/
theorem Reaches.actions_invariant {P : RunState → Prop}
    (reaches : Reaches sch g status signalAborted es s)
    (obeys : Obeys gives sch g status signalAborted es)
    (start : (∀ task ∈ g.tasks, status task.id = .pending) → P (initial status signalAborted))
    (keep : ∀ u v, Accounted sch g gives u → P u → Action sch g gives u v → P v) :
    Accounted sch g gives s ∧ P s := by
  have valid := reaches.validated
  obtain ⟨s₀, accepted, execution⟩ := reaches
  have meets := obeys s₀ accepted
  obtain ⟨-, fresh, rfl⟩ := run_eq_ok_iff.mp accepted
  have entered : Accounted sch g gives (initial status signalAborted) := by
    refine ⟨.initial sch g signalAborted fresh, ?_, ?_⟩
    · intro _ _ queued
      exact absurd queued List.not_mem_nil
    · intro _ task member terminal
      simp [initial, fresh task member, isTerminalStatus] at terminal
  have along : ∀ u v, Accounted sch g gives u → P u → ReflTransGen (Action sch g gives) u v →
      Accounted sch g gives v ∧ P v := by
    intro u v accounted inv actions
    induction actions with
    | refl => exact ⟨accounted, inv⟩
    | tail _ action ih => exact ⟨ih.1.action valid action, keep _ _ ih.1 ih.2 action⟩
  have first := along _ _ entered (start fresh) (iterate_actions rfl)
  refine Machine.run_invariant_of_meets (P := fun s => Accounted sch g gives s ∧ P s) ?_ first
    meets execution
  intro u e v inv given transition
  exact along u v inv.1 inv.2 (step_actions inv.1.sound.open given transition).to_reflTransGen

theorem Reaches.accounted (reaches : Reaches sch g status signalAborted es s)
    (obeys : Obeys gives sch g status signalAborted es) : Accounted sch g gives s := by
  have invariant := reaches.actions_invariant (P := fun _ => True) obeys
    (fun _ => trivial) fun _ _ _ _ _ => trivial
  exact invariant.1

/-- In a run that returned without being stopped, the outcomes of the executions
determine all statuses. -/
theorem Accounted.determined {f : Task → Settlement} {r : SchedulerReport}
    (accounted : Accounted sch g (fun task settlement => settlement = f task) s)
    (returned : s.control = .returned r) (unstopped : r.stopped = false) :
    ∀ task ∈ g.tasks,
      (task.id ∈ s.executed ∧ (∀ dep ∈ task.dependsOn, s.status dep = .completed) ∧
        s.status task.id = ((f task).outcome task).status.toTaskStatus) ∨
      (task.id ∉ s.executed ∧ (∃ dep ∈ task.dependsOn, s.status dep ≠ .completed) ∧
        s.status task.id = .cancelled) := by
  intro task member
  obtain ⟨rfl, complete⟩ := accounted.sound.loop.complete r returned
  have going : s.stopped = false := (Bool.or_eq_false_iff.mp unstopped).1
  obtain ⟨started, settlement, rfl, taken⟩ | ⟨absent, cancelled, dep, edge, -, unfinished⟩ :=
    accounted.explained going task member (TaskGraph.isComplete_iff.mp complete task member)
  · exact .inl ⟨started, accounted.sound.ledger.deps task member started, taken⟩
  · exact .inr ⟨absent, ⟨dep, edge, unfinished⟩, cancelled⟩

/-- In such a run a task was executed exactly when all its transitive dependencies completed. -/
theorem Accounted.executed_iff {f : Task → Settlement} {r : SchedulerReport}
    (accounted : Accounted sch g (fun task settlement => settlement = f task) s)
    (returned : s.control = .returned r) (unstopped : r.stopped = false) {task : Task}
    (member : task ∈ g.tasks) :
    task.id ∈ s.executed ↔ ∀ dep, TransGen g.Depends task.id dep → s.status dep = .completed := by
  have determined := accounted.determined returned unstopped
  constructor
  · intro started dep path
    -- along the path, every completed dependency ran, so its own dependencies completed
    induction path with
    | single edge =>
        rw [TaskGraph.Depends, TaskGraph.dependsOn_id member] at edge
        exact accounted.sound.ledger.deps task member started _ edge
    | @tail mid last _ edge completed =>
        cases found : g.get mid with
        | none => simp [TaskGraph.Depends, TaskGraph.dependsOn, found] at edge
        | some other =>
            obtain ⟨other_mem, rfl⟩ := TaskGraph.get_eq_some_iff.mp found
            rw [TaskGraph.Depends, TaskGraph.dependsOn_id other_mem] at edge
            obtain ⟨-, deps, -⟩ | ⟨-, -, cancelled⟩ := determined other other_mem
            · exact deps last edge
            · simp [cancelled] at completed
  · intro completed
    obtain ⟨started, -, -⟩ | ⟨-, ⟨dep, edge, unfinished⟩, -⟩ := determined task member
    · exact started
    · have first : g.Depends task.id dep := by
        rwa [TaskGraph.Depends, TaskGraph.dependsOn_id member]
      exact absurd (completed dep (.single first)) unfinished

/-- A task runs exactly when all its transitive dependencies complete; then it
takes the status of its own outcome, and otherwise it is cancelled. So two runs
with the same outcomes end with the same statuses. -/
theorem schedule_independence {f : Task → Settlement} {r : SchedulerReport}
    (reaches : Reaches sch g status signalAborted es s)
    (obeys : Obeys (fun task settlement => settlement = f task) sch g status signalAborted es)
    (returned : s.control = .returned r) (unstopped : r.stopped = false) :
    (∀ task ∈ g.tasks,
      (task.id ∈ s.executed ↔
        ∀ dep, TransGen g.Depends task.id dep → s.status dep = .completed) ∧
      (task.id ∈ s.executed → s.status task.id = ((f task).outcome task).status.toTaskStatus) ∧
      (task.id ∉ s.executed → s.status task.id = .cancelled)) ∧
    ∀ sch' status' signalAborted' es' s' r',
      Reaches sch' g status' signalAborted' es' s' →
      Obeys (fun task settlement => settlement = f task) sch' g status' signalAborted' es' →
      s'.control = .returned r' → r'.stopped = false →
      ∀ id ∈ g.ids, s.status id = s'.status id := by
  have valid := reaches.validated
  have accounted := reaches.accounted obeys
  have determined := accounted.determined returned unstopped
  refine ⟨fun task member => ⟨accounted.executed_iff returned unstopped member, ?_, ?_⟩, ?_⟩
  · intro started
    obtain ⟨-, -, taken⟩ | ⟨absent, -, -⟩ := determined task member
    · exact taken
    · exact absurd started absent
  · intro absent
    obtain ⟨started, -, -⟩ | ⟨-, -, cancelled⟩ := determined task member
    · exact absurd started absent
    · exact cancelled
  · intro sch' status' signalAborted' es' s' r' reaches' obeys' returned' unstopped'
    have determined' := (reaches'.accounted obeys').determined returned' unstopped'
    refine TaskGraph.Determined.unique valid (f := f) ?_ ?_
    · exact fun task member => (determined task member).imp (·.2) (·.2)
    · exact fun task member => (determined' task member).imp (·.2) (·.2)

/-- The draft fails at once, so the review is cancelled. -/
def draftFails : List Event := [.ret (some (.rejected "offline")), .tick, .tick]

/-- The report that a run has returned. -/
def RunState.returnedReport (s : RunState) : Option SchedulerReport :=
  match s.control with
  | .returned r => some r
  | _ => none

theorem RunState.returnedReport_eq_some_iff {r : SchedulerReport} :
    s.returnedReport = some r ↔ s.control = .returned r := by
  rw [RunState.returnedReport]
  cases s.control <;> simp

theorem schedule_independence_draftFails :
    ∃ s, Reaches sequential draftAndReview (fun _ => .pending) false draftFails s ∧
      ∀ task ∈ draftAndReview.tasks, task.id ∉ s.executed → s.status task.id = .cancelled := by
  have ends : ((sequential.machine draftAndReview).run
      (iterate sequential draftAndReview (initial (fun _ => .pending) false)) draftFails).any
        fun s => s.returnedReport.any fun r => !r.stopped := by
    decide
  obtain ⟨s, execution, ends⟩ := (Option.any_eq_true _ _).mp ends
  have reaches := reaches_of_run (by decide) (by decide) execution
  have obeys : Obeys (fun _ settlement => settlement = .rejected "offline") sequential
      draftAndReview (fun _ => .pending) false draftFails := by
    rintro s₀ -
    refine ⟨?_, fun t _ => ⟨trivial, fun u _ => ⟨trivial, fun _ _ => trivial⟩⟩⟩
    rintro task rest - settlement ⟨⟩
    rfl
  obtain ⟨r, returned, ends⟩ := (Option.any_eq_true _ _).mp ends
  have unstopped : r.stopped = false := by simpa using ends
  have outcome := schedule_independence (f := fun _ => .rejected "offline") reaches obeys
    (RunState.returnedReport_eq_some_iff.mp returned) unstopped
  exact ⟨s, reaches, fun task member => (outcome.1 task member).2.2⟩

end Scheduler

end MultiAgent.Native
