import MultiAgent.Native.Scheduler.Cascade
import Mathlib.Algebra.GroupWithZero.Nat

/-!
# Progress of a run

Every run is finite: an event always consumes work. A run stalls exactly when
one of its passes is not `Swept`, which the insertion order decides: a failure
whose cascade runs against the insertion order is not propagated within one
pass, and nothing is left to wake the loop for another. A run that has not
stalled and in which nothing is open has returned with one outcome for each
task.
-/

namespace MultiAgent.Native.Scheduler

open Relation

variable {sch : Scheduler} {g : TaskGraph} {gives : Task → Settlement → Prop} {s t : RunState}
variable {status : TaskGraph.Statuses} {signalAborted : Bool} {es : List Event}

def Job.work : Job → Nat
  | .settle _ _ => 2
  | .resume => 1

/-- A bound on the events still to come. -/
def work (g : TaskGraph) (s : RunState) : Nat :=
  5 * (g.tasks.length - s.executed.length) + 4 * s.control.opened.length +
    3 * s.unsettled.length + (s.jobs.map Job.work).sum + 2 * (!s.aborted).toNat

theorem wake_work (s : RunState) :
    ((wake s).jobs.map Job.work).sum ≤ (s.jobs.map Job.work).sum + 1 := by
  rw [wake]
  split <;> simp [Job.work]

theorem settle_work (s : RunState) (task : Task) (outcome : TaskOutcome) :
    ((settle s task outcome).jobs.map Job.work).sum ≤ (s.jobs.map Job.work).sum + 1 := by
  unfold settle; split <;> exact wake_work _

theorem Ledger.executed_le (ledger : Ledger g s) : s.executed.length ≤ g.tasks.length := by
  have inside := (List.subperm_of_subset ledger.once ledger.known).length_le
  simpa [TaskGraph.ids] using inside

/-- No action adds work, and the one that begins an event takes some away. -/
theorem Action.work_le (valid : g.Validated) (sound : Sound sch g s)
    (action : Action sch g gives s t) :
    work g t ≤ work g s ∧ (s.control ≠ .looping → work g t < work g s) := by
  have after := (sound.action valid action).ledger.executed_le
  cases action with
  | resume control jobs =>
      simp only [work, control, jobs, Control.opened, List.map_cons, List.sum_cons, Job.work]
      omega
  | cancel reason control member pending edge failed => exact ⟨le_rfl, fun h => absurd control h⟩
  | observe control => exact ⟨le_rfl, fun h => absurd control h⟩
  | start control going launchable capacity idle =>
      refine ⟨?_, fun h => absurd control h⟩
      simp only [Scheduler.start, List.length_append, List.length_singleton] at after
      simp only [work, Scheduler.start, control, Control.opened, List.length_append,
        List.length_singleton, List.length_nil]
      omega
  | wait control busy going unaborted =>
      refine ⟨?_, fun h => absurd control h⟩
      simp only [work, control, Control.opened]
      exact le_rfl
  | leave control done =>
      refine ⟨?_, fun h => absurd control h⟩
      simp only [work, leave_executed, leave_unsettled, leave_jobs, leave_aborted, control]
      exact le_rfl
  | stall control idle incomplete going unaborted =>
      refine ⟨?_, fun h => absurd control h⟩
      simp only [work, control, Control.opened]
      exact le_rfl
  | @ret task rest settled control given =>
      cases settled with
      | none =>
          simp only [work, attach, control, Control.opened, List.length_cons, List.length_nil]
          omega
      | some settlement =>
          simp only [work, attach, control, Control.opened, List.length_cons, List.length_nil,
            List.map_append, List.sum_append, List.map_cons, List.map_nil, List.sum_cons,
            List.sum_nil, Job.work]
          omega
  | throwSync message control =>
      simp only [work, control, Control.opened, List.length_cons, List.length_nil]
      omega
  | @resolve task settlement member given =>
      have fewer := List.length_erase_of_mem member
      have some := List.length_pos_of_mem member
      simp only [work, List.map_append, List.sum_append, List.map_cons, List.map_nil,
        List.sum_cons, List.sum_nil, Job.work]
      omega
  | abort active first =>
      have woken := wake_work { s with aborted := true }
      simp only [work, Scheduler.abort, wake_executed, wake_control, wake_unsettled, wake_aborted,
        first, Bool.not_true, Bool.not_false, Bool.toNat_true, Bool.toNat_false] at woken ⊢
      omega
  | @settle task settlement rest outside jobs =>
      have fewer := settle_work { s with jobs := rest } task (settlement.outcome task)
      simp only [work, settle_executed, settle_control, settle_unsettled, settle_aborted, jobs,
        List.map_cons, List.sum_cons, Job.work] at fewer ⊢
      omega

theorem actions_work_le (valid : g.Validated) (sound : Sound sch g s)
    (actions : ReflTransGen (Action sch g gives) s t) : work g t ≤ work g s := by
  induction actions with
  | refl => exact le_rfl
  | tail before action ih => exact ((action.work_le valid (sound.actions valid before)).1).trans ih

/-- Steps 3 and 4 wait, or end the run by the report or by the stall check. -/
theorem conclude_control (g : TaskGraph) (s : RunState) :
    (conclude g s).control = .waiting ∨ (∃ r, (conclude g s).control = .returned r) ∨
      (conclude g s).Stalled := by
  rw [conclude]
  dsimp only
  split
  · split
    · exact .inr (.inl ⟨_, rfl⟩)
    · split
      · exact .inr (.inl ⟨_, rfl⟩)
      · exact .inr (.inr ⟨_, rfl⟩)
  · split
    · exact .inr (.inl ⟨_, rfl⟩)
    · exact .inl rfl

/-- The loop is left neither in the middle of its body nor by an exception of `execute`. -/
theorem launch_control (sch : Scheduler) (g : TaskGraph) (rest : List Task) (s : RunState) :
    (launch sch g rest s).control ≠ .looping ∧
      ∀ message, (launch sch g rest s).control ≠ .threw message := by
  obtain same | ⟨task, later, same⟩ := launch_cases sch g rest s
  · rw [same]
    obtain waiting | ⟨r, returned⟩ | ⟨message, stalled⟩ := conclude_control g s
    · simp [waiting]
    · simp [returned]
    · simp [stalled]
  · rw [same]
    exact ⟨nofun, nofun⟩

theorem iterate_control (sch : Scheduler) (g : TaskGraph) (s : RunState) :
    (iterate sch g s).control ≠ .looping ∧
      ∀ message, (iterate sch g s).control ≠ .threw message := by
  unfold iterate
  dsimp only
  split
  · exact launch_control sch g [] _
  · exact launch_control sch g _ _

/-- Between two events the loop is at one of its openings or has ended. -/
theorem step_rests {e : Event} (rests : s.control ≠ .looping)
    (transition : step sch g s e = some t) : t.control ≠ .looping := by
  cases Transition.of_step transition with
  | ret settled control => exact (launch_control sch g _ _).1
  | throwSync message control => exact nofun
  | resolve settlement member => exact rests
  | abort active first =>
      rw [Scheduler.abort, wake_control]
      exact rests
  | settle outside jobs =>
      rw [settle_control]
      exact rests
  | resume outside jobs => exact (iterate_control sch g _).1

theorem Reaches.rests (reaches : Reaches sch g status signalAborted es s) :
    s.control ≠ .looping := by
  obtain ⟨s₀, accepted, execution⟩ := reaches
  obtain ⟨-, -, rfl⟩ := run_eq_ok_iff.mp accepted
  exact Machine.run_invariant (P := fun s => s.control ≠ .looping)
    (fun _ _ _ rests transition => step_rests rests transition) (iterate_control sch g _).1
    execution

/-- Every event takes work away. -/
theorem step_work (valid : g.Validated) (sound : Sound sch g s) (rests : s.control ≠ .looping)
    {e : Event} (transition : step sch g s e = some t) : work g t < work g s := by
  have given : e.Given (fun _ _ => True) s := by
    cases e <;> simp [Event.Given]
  obtain ⟨u, first, rest⟩ := TransGen.head'_iff.mp (step_actions sound.open given transition)
  have sound' := sound.action valid first
  have spent := (first.work_le valid sound).2 rests
  exact (actions_work_le valid sound' rest).trans_lt spent

/-- A run of `n` tasks has at most `5 * n + 2` events. -/
theorem Reaches.length_le (reaches : Reaches sch g status signalAborted es s) :
    es.length ≤ 5 * g.tasks.length + 2 := by
  have valid := reaches.validated
  obtain ⟨s₀, accepted, execution⟩ := reaches
  have sound₀ := sound_start accepted
  obtain ⟨-, fresh, rfl⟩ := run_eq_ok_iff.mp accepted
  have start := Sound.initial sch g signalAborted fresh
  have actions : ReflTransGen (Action sch g fun _ _ => True) (initial status signalAborted)
      (iterate sch g (initial status signalAborted)) := iterate_actions rfl
  have bounded := actions_work_le valid start actions
  have total : work g (initial status signalAborted) ≤ 5 * g.tasks.length + 2 := by
    cases signalAborted <;> simp [work, initial, Control.opened]
  have length := Machine.run_length_le (work g)
    (fun _ _ _ (P : Sound sch g _ ∧ _) transition =>
      ⟨P.1.step valid transition, step_rests P.2 transition⟩)
    (fun _ _ _ P transition => step_work valid P.1 P.2 transition)
    ⟨sound₀, (iterate_control sch g _).1⟩ execution
  omega

/-- No call is open, no microtask is queued, and every execution that was
launched has settled or the run is aborted. -/
def Quiet (s : RunState) : Prop :=
  (∀ task rest, s.control ≠ .calling task rest) ∧ (s.unsettled = [] ∨ s.aborted = true) ∧
    s.jobs = []

/-- A loop that waits still has something to wake it. -/
theorem Loop.not_waiting (loop : Loop g s) (quiet : Quiet s) : s.control ≠ .waiting := by
  intro waiting
  obtain ⟨-, settled, jobs⟩ := quiet
  have wakes := loop.wakes
  rw [if_pos waiting, jobs, List.count_nil, Nat.zero_add] at wakes
  have awaiting : s.awaiting = true := by simpa using wakes
  obtain none | aborted := settled
  · apply loop.busy awaiting
    simp [RunState.inFlight, waiting, Control.opened, none, jobs]
  · simp [loop.unaborted awaiting] at aborted

/-- A report has one outcome for each task, and its order lists each task once. -/
theorem Sound.report_complete (sound : Sound sch g s) {r : SchedulerReport}
    (returned : s.control = .returned r) :
    r.results.map Prod.fst = g.ids ∧ (∀ entry ∈ r.results, entry.2.isSome = true) ∧
      r.order.Perm g.ids := by
  obtain ⟨rfl, complete⟩ := sound.loop.complete r returned
  have recorded : ∀ task ∈ g.tasks, (s.outcomes task.id).isSome = true := fun task member =>
    sound.ledger.recorded task member (TaskGraph.isComplete_iff.mp complete task member)
  refine ⟨?_, ?_, ?_⟩
  · simp [report, TaskGraph.ids]
  · intro entry member
    obtain ⟨task, inside, rfl⟩ := List.mem_map.mp member
    exact recorded task inside
  · apply (List.perm_ext_iff_of_nodup sound.ledger.distinct g.distinct).mpr
    intro id
    refine (sound.ledger.listed id).trans ⟨And.left, fun known => ⟨known, ?_⟩⟩
    obtain ⟨task, member, rfl⟩ := TaskGraph.mem_ids.mp known
    exact recorded task member

/-- When the event is a pass of the loop, the state is `Swept`. -/
def PassSwept (g : TaskGraph) (s : RunState) (e : Event) : Prop :=
  e = .tick → ∀ rest, s.jobs = .resume :: rest → Swept g s

/-- Only a pass can stall, and exactly one that is not `Swept`. -/
theorem step_stalled_iff {e : Event} (valid : g.Validated) (sound : Sound sch g s)
    (before : ¬ s.Stalled) (transition : step sch g s e = some t) :
    t.Stalled ↔ ¬ PassSwept g s e := by
  cases Transition.of_step transition with
  | @ret task rest settled control =>
      refine iff_of_false ?_ fun broken => broken (by simp [PassSwept])
      have exact' := sound.slots.exact (by simp [RunState.active, control])
      have busy : (attach s task settled).running ≠ ∅ := by
        have flying : task.id ∈ s.running := by
          simp [exact'.running, RunState.inFlight, control, Control.opened]
        have same : (attach s task settled).running = s.running := by
          cases settled <;> rfl
        exact same ▸ Finset.ne_empty_of_mem flying
      obtain same | ⟨task', later, same⟩ := launch_cases sch g rest (attach s task settled)
      · rw [same, conclude_stalled_iff]
        exact fun stalls => busy stalls.1
      · rw [same]
        rintro ⟨message, ended⟩
        cases ended
  | throwSync message control =>
      refine iff_of_false ?_ fun broken => broken (by simp [PassSwept])
      rintro ⟨message', ended⟩
      cases ended
  | resolve settlement member =>
      exact iff_of_false before fun broken => broken (by simp [PassSwept])
  | abort active first =>
      refine iff_of_false ?_ fun broken => broken (by simp [PassSwept])
      simpa [RunState.Stalled, Scheduler.abort] using before
  | settle outside jobs =>
      refine iff_of_false ?_ fun broken => broken ?_
      · simpa [RunState.Stalled] using before
      · intro _ rest queued
        rw [jobs] at queued
        cases queued
  | @resume rest outside jobs =>
      have waiting := sound.open.resume (by rw [jobs]; exact List.mem_cons_self)
      have resumed :
          Action sch g (fun _ _ => True) s { s with jobs := rest, control := .looping } :=
        .resume waiting jobs
      have going := sound.loop.going (by simp [waiting]) (by simp [RunState.active, waiting])
      rw [iterate_stalled_iff (sound.action valid resumed) rfl going]
      exact not_congr ⟨fun swept _ _ _ => swept, fun swept => swept rfl rest jobs⟩

theorem stalled_stays {e : Event} (sound : Sound sch g s)
    (transition : step sch g s e = some t) (stalled : s.Stalled) : t.Stalled := by
  obtain ⟨message, control⟩ := stalled
  refine ⟨message, ?_⟩
  rw [sound.control_stays (by rw [RunState.active, control]) transition, control]

theorem start_not_stalled (accepted : sch.run none g status signalAborted = .ok s) :
    ¬ s.Stalled := by
  obtain ⟨valid, fresh, rfl⟩ := run_eq_ok_iff.mp accepted
  rw [iterate_stalled_iff (Sound.initial sch g signalAborted fresh) rfl rfl, not_not]
  intro _ _ none task member _
  have empty := (TaskGraph.validated_of_validate valid).eq_nil_of_ready fresh none
  rw [empty] at member
  exact absurd member List.not_mem_nil

/-- A run stalls exactly when one of its passes is not `Swept`. -/
theorem Reaches.along_swept_iff (reaches : Reaches sch g status signalAborted es s) :
    Along (PassSwept g) sch g status signalAborted es ↔ ¬ s.Stalled := by
  have valid := reaches.validated
  obtain ⟨s₀, accepted, execution⟩ := reaches
  have decides : (sch.machine g).Meets (PassSwept g) s₀ es ↔ ¬ s.Stalled := Machine.meets_iff
    (fun _ _ _ sound _ transition => sound.step valid transition)
    (fun _ _ _ sound _ transition => stalled_stays sound transition)
    (fun _ _ _ sound _ before transition => step_stalled_iff valid sound before transition)
    (sound_start accepted) (start_not_stalled accepted)
    (Machine.meets_of_mem (fun _ _ _ => trivial) s₀) execution
  exact (along_iff accepted).trans decides

/-- A run that has not stalled and whose calls did not throw has returned once
nothing is open. -/
theorem Reaches.returned (reaches : Reaches sch g status signalAborted es s)
    (unstalled : ¬ s.Stalled) (unthrown : ∀ message, s.control ≠ .threw message)
    (quiet : Quiet s) : ∃ r, s.control = .returned r := by
  cases control : s.control with
  | looping => exact absurd control reaches.rests
  | calling task rest => exact absurd control (quiet.1 task rest)
  | waiting => exact absurd control (reaches.sound.loop.not_waiting quiet)
  | returned r => exact ⟨r, rfl⟩
  | stalled message => exact absurd ⟨message, control⟩ unstalled
  | threw message => exact absurd control (unthrown message)

/-- The run stalls exactly when one of its passes is not `Swept`. Otherwise, once
nothing is open, it has returned with one outcome for each task, in an order
that lists each task once. No run goes on for ever. -/
theorem progress (reaches : Reaches sch g status signalAborted es s) :
    (Along (PassSwept g) sch g status signalAborted es ↔ ¬ s.Stalled) ∧
      (¬ s.Stalled → (∀ message, s.control ≠ .threw message) → Quiet s →
        ∃ r, s.control = .returned r ∧ r.results.map Prod.fst = g.ids ∧
          (∀ entry ∈ r.results, entry.2.isSome = true) ∧ r.order.Perm g.ids) ∧
      es.length ≤ 5 * g.tasks.length + 2 := by
  refine ⟨reaches.along_swept_iff, ?_, reaches.length_le⟩
  intro unstalled unthrown quiet
  obtain ⟨r, control⟩ := reaches.returned unstalled unthrown quiet
  exact ⟨r, control, reaches.sound.report_complete control⟩

/-- The publication waits for the review and is inserted before it. -/
def publicationFirst : TaskGraph where
  tasks := [
    { id := "publish", agentId := "editor", prompt := "Publish it", dependsOn := ["review"]
      timeoutMs := none },
    { id := "review", agentId := "writer", prompt := "Review it", dependsOn := ["draft"]
      timeoutMs := none },
    { id := "draft", agentId := "writer", prompt := "Draft it", dependsOn := []
      timeoutMs := none }]
  distinct := by decide

/-- The draft fails: the pass cancels the review after it has looked at the
publication. -/
theorem publicationFirst_stalls :
    ∃ s, Reaches sequential publicationFirst (fun _ => .pending) false
      [.ret (some (.rejected "offline")), .tick, .tick] s ∧
        s.control = .stalled "scheduler stalled on non-terminal tasks: publish" := by
  have ends : ((sequential.machine publicationFirst).run
      (iterate sequential publicationFirst (initial (fun _ => .pending) false))
      [.ret (some (.rejected "offline")), .tick, .tick]).any fun s =>
        decide (s.control = .stalled "scheduler stalled on non-terminal tasks: publish") := by
    decide
  obtain ⟨s, execution, ends⟩ := (Option.any_eq_true _ _).mp ends
  exact ⟨s, reaches_of_run (by decide) (by decide) execution, of_decide_eq_true ends⟩

theorem progress_draftAndReview :
    ∃ s, Reaches sequential draftAndReview (fun _ => .pending) false draftDone s ∧
      draftDone.length ≤ 5 * draftAndReview.tasks.length + 2 := by
  obtain ⟨s, reaches⟩ := draftDone_reaches
  exact ⟨s, reaches, (progress reaches).2.2⟩

/-- When every dependency is inserted before its dependents, no run stalls. -/
theorem not_stalled_of_dependency_first (reaches : Reaches sch g status signalAborted es s)
    (sorted : ∀ task ∈ g.tasks, ∀ dep ∈ task.dependsOn, g.ids.idxOf dep < g.ids.idxOf task.id) :
    ¬ s.Stalled := by
  have valid := reaches.validated
  have swept : ∀ s e, Sound sch g s → PassSwept g s e := by
    rintro s e sound rfl rest jobs idle unaborted none task member pending
    have waiting := sound.open.resume (by rw [jobs]; exact List.mem_cons_self)
    have exact' := sound.slots.exact (by simp [RunState.active, waiting])
    have blocked : ¬ g.depsCompleted s.status task = true := by
      intro completed
      have startable := TaskGraph.mem_ready.mpr ⟨member, pending, completed⟩
      rw [none] at startable
      exact absurd startable List.not_mem_nil
    rw [TaskGraph.depsCompleted_iff valid member] at blocked
    push Not at blocked
    obtain ⟨dep, edge, unfinished⟩ := blocked
    obtain ⟨other, known, rfl⟩ := TaskGraph.mem_ids.mp (valid.known task member dep edge)
    refine ⟨other.id, edge, ?_⟩
    have still : s.status other.id ≠ .running := by
      intro running
      have flying := (exact'.status other known).mp running
      have ids : other.id ∈ s.running := by
        rw [exact'.running]
        exact List.mem_toFinset.mpr (List.mem_map_of_mem flying)
      simp [idle] at ids
    have steady := sound.ledger.transient other known
    by_cases waits : s.status other.id = .pending
    · exact .inr ⟨waits, sorted task member other.id edge⟩
    · refine .inl ?_
      have has := TaskGraph.id_mem_ids known
      cases now : s.status other.id <;> simp_all [failedDep, TaskGraph.has, isTerminalStatus]
  apply reaches.along_swept_iff.mp
  intro s₀ accepted
  exact Machine.meets_of_forall (fun _ _ _ sound transition => sound.step valid transition) swept
    (sound_start accepted) es

end MultiAgent.Native.Scheduler
