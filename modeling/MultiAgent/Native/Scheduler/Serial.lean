import MultiAgent.Native.Scheduler.Stop

/-!
# Chains run one task at a time

In a chain every task depends on the one before it, so at most one execution is in flight,
and while the run is not aborted the loop waits for just that one. A result that comes
behind the abort finds its task cancelled already, or the pass that cancels it queued.
-/

namespace MultiAgent.Native.Scheduler

open Relation

variable {sch : Scheduler} {g : TaskGraph} {gives : Task → Settlement → Prop} {s t u : RunState}
variable {status : TaskGraph.Statuses} {signalAborted : Bool} {es fs : List Event}

/-- Every terminal task took the status of an outcome it was given, or was cancelled. -/
def Traced (g : TaskGraph) (gives : Task → Settlement → Prop) (s : RunState) : Prop :=
  ∀ task ∈ g.tasks, isTerminalStatus (s.status task.id) = true →
    Ran gives s task ∨ s.status task.id = .cancelled

theorem Traced.entry (ledger : Ledger g s) (traced : Traced g gives s)
    (entry : Entry g gives s t) : Traced g gives t := by
  intro other member terminal
  have before := traced other member
  cases entry with
  | quiet _ status outcomes order executed =>
      rw [status] at terminal ⊢
      refine (before terminal).imp_left fun ran => ran.keep (by rw [status]) (by rw [executed])
  | @record task outcome latched recorded opened cause status outcomes order executed =>
      by_cases same : other.id = task.id
      · obtain rfl := TaskGraph.eq_of_id_eq member recorded same
        have taken : t.status other.id = outcome.status.toTaskStatus := by simp [status]
        cases cause with
        | @settled settlement given running same =>
            refine .inl ⟨executed ▸ ledger.started other member running, settlement, given, ?_⟩
            rw [taken, same]
        | blocked pending edge failed cancelled =>
            rw [taken, cancelled]
            exact .inr rfl
        | stopped stopping cancelled =>
            rw [taken, cancelled]
            exact .inr rfl
      · have statusKept : t.status other.id = s.status other.id := by simp [status, same]
        rw [statusKept] at terminal ⊢
        exact (before terminal).imp_left fun ran => ran.keep statusKept (by rw [executed])
  | @launch task _ ready status outcomes order executed =>
      have apart : other.id ≠ task.id := by
        intro same
        simp [status, same, isTerminalStatus] at terminal
      have statusKept : t.status other.id = s.status other.id := by simp [status, apart]
      rw [statusKept] at terminal ⊢
      exact (before terminal).imp_left fun ran =>
        ran.keep statusKept (by rw [executed]; exact List.prefix_append _ _)

theorem Traced.action (valid : g.Validated) (accounted : Accounted sch g gives s)
    (traced : Traced g gives s) (action : Action sch g gives s t) : Traced g gives t :=
  accounted.entries_invariant valid action traced
    fun _ _ ledger traced entry => traced.entry ledger entry

theorem Traced.initial (fresh : ∀ task ∈ g.tasks, status task.id = .pending) :
    Traced g gives (initial status signalAborted) := by
  intro task member terminal
  simp [Scheduler.initial, fresh task member, isTerminalStatus] at terminal

theorem Reaches.traced (reaches : Reaches sch g status signalAborted es s)
    (obeys : Obeys gives sch g status signalAborted es) : Traced g gives s :=
  (reaches.actions_invariant obeys (fun fresh => .initial fresh)
    fun _ _ accounted traced action => traced.action reaches.validated accounted action).2

theorem obeys_any : Obeys (fun _ _ => True) sch g status signalAborted es := by
  intro s₀ _
  refine Machine.meets_of_mem ?_ s₀
  intro e _ s
  cases e <;> simp [Event.Given]

section Chains

/-- Every task depends on the one before it. -/
def Linear (g : TaskGraph) : Prop :=
  ∀ i task next, g.tasks[i]? = some task → g.tasks[i + 1]? = some next → task.id ∈ next.dependsOn

/-- When the dependencies of a task have completed, all tasks before it have. -/
theorem Linear.completed_before (linear : Linear g) (ledger : Ledger g s)
    (traced : Traced g gives s) {i j : Nat} {task later : Task} (less : i < j)
    (first : g.tasks[i]? = some task) (second : g.tasks[j]? = some later)
    (deps : ∀ dep ∈ later.dependsOn, s.status dep = .completed) :
    s.status task.id = .completed := by
  induction j generalizing later with
  | zero => omega
  | succ j ih =>
      have inside : j < g.tasks.length := by
        have bound := (List.getElem?_eq_some_iff.mp second).1
        omega
      have middle : g.tasks[j]? = some g.tasks[j] := List.getElem?_eq_getElem inside
      have member : g.tasks[j] ∈ g.tasks := List.getElem_mem inside
      have done := deps _ (linear j g.tasks[j] later middle second)
      by_cases here : i = j
      · subst here
        rw [middle, Option.some.injEq] at first
        exact first ▸ done
      · apply ih (by omega) middle
        obtain ran | cancelled := traced _ member (by rw [done]; rfl)
        · exact ledger.deps _ member ran.1
        · rw [cancelled] at done
          cases done

/-- At most one execution is in flight; a run that is not aborted waits for it, and does not
return before it. -/
structure Serial (s : RunState) : Prop where
  single : s.inFlight.length ≤ 1
  awaits : s.control = .waiting → s.aborted = false → s.inFlight ≠ [] → s.awaiting = true
  outlasts : ∀ r, s.control = .returned r → s.aborted = false → s.inFlight = []

/-- A task of a chain starts when nothing is in flight. -/
theorem Linear.idle (linear : Linear g) (valid : g.Validated) (sound : Sound sch g s)
    (traced : Traced g gives s) (active : s.active = true) {task : Task}
    (ready : task ∈ g.ready s.status) : s.inFlight = [] := by
  obtain ⟨member, pending, completed⟩ := TaskGraph.mem_ready.mp ready
  rw [TaskGraph.depsCompleted_iff valid member] at completed
  apply List.eq_nil_iff_forall_not_mem.mpr
  intro other flies
  have known := sound.slots.known other flies
  have running := ((sound.slots.exact active).status other known).mpr flies
  have started := sound.ledger.started other known running
  obtain ⟨i, at_i⟩ := List.mem_iff_getElem?.mp member
  obtain ⟨j, at_j⟩ := List.mem_iff_getElem?.mp known
  obtain less | rfl | more := Nat.lt_trichotomy i j
  · have done := linear.completed_before sound.ledger traced less at_i at_j
      (sound.ledger.deps other known started)
    rw [pending] at done
    cases done
  · rw [at_i, Option.some.injEq] at at_j
    rw [← at_j, pending] at running
    cases running
  · have done := linear.completed_before sound.ledger traced more at_j at_i completed
    rw [running] at done
    cases done

theorem Serial.of_perm (serial : Serial s) (same : t.inFlight.Perm s.inFlight)
    (awaits : t.control = .waiting → t.aborted = false → t.inFlight ≠ [] → t.awaiting = true)
    (outlasts : ∀ r, t.control = .returned r → t.aborted = false → t.inFlight = []) : Serial t :=
  ⟨same.length_eq ▸ serial.single, awaits, outlasts⟩

theorem Serial.action (linear : Linear g) (valid : g.Validated) (sound : Sound sch g s)
    (traced : Traced g gives s) (serial : Serial s) (action : Action sch g gives s t) :
    Serial t := by
  cases action with
  | @resume rest control jobs =>
      have same : RunState.inFlight { s with jobs := rest, control := .looping } = s.inFlight := by
        simp [RunState.inFlight, control, jobs, List.filterMap_cons, Job.settling, Control.opened]
      exact serial.of_perm (by rw [same]) (by simp) (by simp)
  | cancel reason control member pending edge failed =>
      exact serial.of_perm (.refl _) (by simp [cancelBlocked, control])
        (by simp [cancelBlocked, control])
  | observe control =>
      exact serial.of_perm (.refl _) (by simp [control]) (by simp [control])
  | @start task rest control going launchable capacity idle =>
      have nothing : s.inFlight = [] := linear.idle valid sound traced
        (by simp [RunState.active, control]) (launchable.ready task (by simp))
      have alone : (start s task rest).inFlight = task :: s.inFlight := by
        simp [RunState.inFlight, start, control, Control.opened]
      exact ⟨by simp [alone, nothing], by simp [start], by simp [start]⟩
  | wait control busy going unaborted =>
      have same : RunState.inFlight { s with awaiting := true, control := .waiting } =
          s.inFlight := by
        simp [RunState.inFlight, control, Control.opened]
      exact serial.of_perm (by rw [same]) (fun _ _ _ => rfl) (by simp)
  | leave control done =>
      refine serial.of_perm (by rw [leave_inFlight control]) (by simp [leave]) ?_
      intro r _ unaborted
      obtain ⟨idle, -⟩ | stopping := done
      · rw [(sound.slots.exact (by simp [RunState.active, control])).running,
          List.toFinset_eq_empty_iff, List.map_eq_nil_iff] at idle
        rw [leave_inFlight control, idle]
      · rw [leave_aborted, sound.loop.observed stopping] at unaborted
        cases unaborted
  | stall control idle incomplete going unaborted =>
      have same : RunState.inFlight { s with control := .stalled (stallMessage g s) } =
          s.inFlight := by
        simp [RunState.inFlight, control, Control.opened]
      exact serial.of_perm (by rw [same]) (by simp) (by simp)
  | @ret task rest settled control given =>
      exact serial.of_perm (attach_inFlight settled control) (by cases settled <;> simp [attach])
        (by cases settled <;> simp [attach])
  | @throwSync task rest message control =>
      refine ⟨le_trans ?_ serial.single, by simp, by simp⟩
      simp [RunState.inFlight, control, Control.opened]
  | resolve settlement member given =>
      have moved := resolve_inFlight settlement member
      refine serial.of_perm moved ?_ ?_
      · intro waiting unaborted flying
        apply serial.awaits waiting unaborted
        intro empty
        rw [empty] at moved
        exact flying moved.eq_nil
      · intro r returned unaborted
        rw [serial.outlasts r returned unaborted] at moved
        exact moved.eq_nil
  | abort active first =>
      refine serial.of_perm (by simp [Scheduler.abort, RunState.inFlight]) ?_ ?_
      · simp [Scheduler.abort]
      · simp [Scheduler.abort]
  | @settle task settlement rest outside jobs =>
      have split := (settle_inFlight jobs).length_eq
      have single := serial.single
      have less : (Scheduler.settle { s with jobs := rest } task
          (settlement.outcome task)).inFlight = RunState.inFlight { s with jobs := rest } := by
        rw [Scheduler.settle]
        by_cases running : s.status task.id = .running <;>
          simp [running, release, RunState.inFlight]
      rw [List.length_cons] at split
      have nothing : RunState.inFlight { s with jobs := rest } = [] :=
        List.eq_nil_of_length_eq_zero (by omega)
      refine ⟨by simp [less, nothing], ?_, fun _ _ _ => less.trans nothing⟩
      exact fun _ _ flying => absurd (less.trans nothing) flying

theorem Serial.initial : Serial (initial status signalAborted) :=
  ⟨Nat.zero_le 1, nofun, nofun⟩

theorem Reaches.serial (linear : Linear g) (reaches : Reaches sch g status signalAborted es s) :
    Serial s := by
  have invariant := reaches.actions_invariant
    (P := fun s => Traced g (fun _ _ => True) s ∧ Serial s) obeys_any
    (fun fresh => ⟨.initial fresh, .initial⟩) fun u v accounted inv action =>
      ⟨inv.1.action reaches.validated accounted action,
        inv.2.action linear reaches.validated accounted.sound inv.1 action⟩
  exact invariant.2.2

end Chains

section Late

/-- What is in flight is running, or was cancelled when the run left it behind. -/
def Undecided (s : RunState) : Prop :=
  ∀ task ∈ s.inFlight, s.status task.id = .running ∨ s.status task.id = .cancelled

theorem Undecided.action (sound : Sound sch g s) (after : Sound sch g t)
    (undecided : Undecided s) (action : Action sch g gives s t) : Undecided t := by
  by_cases active : t.active = true
  · intro task flies
    have known := after.slots.known task flies
    exact .inl (((after.slots.exact active).status task known).mpr flies)
  · cases action with
    | leave control done =>
        intro task flies
        rw [leave_inFlight control] at flies
        have known := TaskGraph.id_mem_ids (sound.slots.known task flies)
        have before := undecided task flies
        rw [Scheduler.leave]
        dsimp only
        split
        · rw [teardown_status]
          obtain running | cancelled := before
          · exact .inr (by simp [known, running, isTerminalStatus])
          · exact .inr (by simp [cancelled, isTerminalStatus])
        · exact before
    | stall control idle incomplete going unaborted =>
        intro task flies
        exact undecided task (by simpa [RunState.inFlight, control, Control.opened] using flies)
    | @throwSync task rest message control =>
        intro other flies
        apply undecided other
        simp only [RunState.inFlight, Control.opened, List.nil_append] at flies
        exact List.mem_append_right _ flies
    | resolve settlement member given =>
        intro task flies
        exact undecided task ((resolve_inFlight settlement member).mem_iff.mp flies)
    | @settle task settlement rest outside jobs =>
        intro other flies
        have split := settle_inFlight jobs
        have less : (Scheduler.settle { s with jobs := rest } task
            (settlement.outcome task)).inFlight = RunState.inFlight { s with jobs := rest } := by
          rw [Scheduler.settle]
          by_cases running : s.status task.id = .running <;>
            simp [running, release, RunState.inFlight]
        rw [less] at flies
        have ids := (split.map Task.id).nodup_iff.mp sound.slots.distinct
        rw [List.map_cons, List.nodup_cons] at ids
        have apart : other.id ≠ task.id := fun same =>
          ids.1 (same ▸ List.mem_map_of_mem flies)
        have kept : (Scheduler.settle { s with jobs := rest } task
            (settlement.outcome task)).status other.id = s.status other.id := by
          rw [Scheduler.settle]
          split <;> simp [apart]
        rw [kept]
        exact undecided other (split.mem_iff.mpr (List.mem_cons_of_mem _ flies))
    | resume control jobs => simp [RunState.active] at active
    | cancel reason control member pending edge failed =>
        simp [RunState.active, cancelBlocked, control] at active
    | observe control => simp [RunState.active, control] at active
    | start control going launchable capacity idle => simp [RunState.active, start] at active
    | wait control busy going unaborted => simp [RunState.active] at active
    | @ret task rest settled control given =>
        cases settled <;> simp [RunState.active, attach] at active
    | abort here first =>
        exact absurd (by simpa [RunState.active, Scheduler.abort] using here) active

theorem Reaches.undecided (reaches : Reaches sch g status signalAborted es s) : Undecided s := by
  refine (reaches.actions_invariant obeys_any ?_ ?_).2
  · intro _ task flies
    cases flies
  · intro u v accounted undecided action
    exact undecided.action accounted.sound (accounted.sound.action reaches.validated action) action

/-- A run that ended stays as it ended. -/
theorem control_of_inactive (valid : g.Validated) (sound : Sound sch g s)
    (inactive : s.active = false) (execution : (sch.machine g).run s es = some t) :
    t.control = s.control := by
  refine (Machine.run_invariant (P := fun t => Sound sch g t ∧ t.control = s.control) ?_
    ⟨sound, rfl⟩ execution).2
  rintro u e v ⟨sound, control⟩ transition
  have ended : u.active = false := by
    rw [RunState.active, control]
    exact inactive
  exact ⟨sound.step valid transition, (sound.control_stays ended transition).trans control⟩

/-- A task whose promise is pending has nothing ahead of the next pass. -/
theorem kept_of_unsettled (sound : Sound sch g s) (active : s.active = true) {task : Task}
    (member : task ∈ s.unsettled) : kept s task.id = none := by
  have flies : task ∈ s.inFlight := by
    simp [RunState.inFlight, member]
  have known := sound.slots.known task flies
  have running := ((sound.slots.exact active).status task known).mpr flies
  rw [kept, if_neg (by simp [running, isTerminalStatus]), List.findSome?_eq_none_iff]
  intro job queued
  cases job with
  | resume => rfl
  | settle other settlement =>
      have distinct := sound.slots.distinct
      rw [RunState.inFlight, List.map_append, List.map_append] at distinct
      have apart := (List.nodup_append.mp (List.nodup_append.mp distinct).2.1).2.2
      have jobs : Job.settle other settlement ∈ s.jobs := (List.takeWhile_prefix _).subset queued
      have differs : task.id ≠ other.id := apart task.id (List.mem_map_of_mem member) other.id
        (List.mem_map_of_mem (mem_settling.mpr ⟨settlement, jobs⟩))
      simp [Job.outcomeOf, differs.symm]

/-- A result that comes behind the abort is dropped: its task ends cancelled. -/
theorem Reaches.late_cancelled (linear : Linear g)
    (reaches : Reaches sch g status signalAborted es s) {task : Task} (member : task ∈ s.unsettled)
    (aborted : s.aborted = true) {r : SchedulerReport} (returned : t.control = .returned r)
    (execution : (sch.machine g).run s fs = some t) : t.status task.id = .cancelled := by
  have valid := reaches.validated
  have sound := reaches.sound
  have flies : task ∈ s.inFlight := by
    simp [RunState.inFlight, member]
  have known := sound.slots.known task flies
  cases control : s.control with
  | looping => exact absurd control reaches.rests
  | calling other rest =>
      have single := (reaches.serial linear).single
      have some_ := List.length_pos_of_mem member
      simp only [RunState.inFlight, control, Control.opened, List.length_append,
        List.length_singleton] at single
      omega
  | waiting =>
      have active : s.active = true := by simp [RunState.active, control]
      have start : Stopping g (kept s) s.executed s := ⟨rfl, control, aborted, fun _ _ => rfl⟩
      obtain ⟨-, stopping | stopped⟩ := stopped_of_run valid sound (.inl start) execution
      · rw [stopping.waiting] at returned
        cases returned
      · obtain ⟨outcome, -, taken, origin⟩ := stopped.ended task known
        rw [kept_of_unsettled sound active member] at origin
        obtain kept | ⟨-, cancelled⟩ := origin
        · cases kept
        · rw [taken, cancelled]
          rfl
  | returned r' =>
      have terminal := TaskGraph.isComplete_iff.mp (sound.loop.complete r' control).2 task known
      have kept := (settled_of_run valid sound execution).1 task.id terminal
      obtain running | cancelled := reaches.undecided task flies
      · rw [running] at terminal
        cases terminal
      · rw [kept, cancelled]
  | stalled message =>
      have same := control_of_inactive valid sound (by simp [RunState.active, control]) execution
      rw [returned, control] at same
      cases same
  | threw message =>
      have same := control_of_inactive valid sound (by simp [RunState.active, control]) execution
      rw [returned, control] at same
      cases same

end Late

end MultiAgent.Native.Scheduler
