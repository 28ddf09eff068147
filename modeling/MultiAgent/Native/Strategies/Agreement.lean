import MultiAgent.Native.Scheduler.Serial
import MultiAgent.Native.Strategies.Chains

/-!
# Two records of one run

A chain writes what an execution resolves with into a map of its own, and the scheduler
decides the status of the task in a later callback. The report of the chain reads the map.
The two agree unless a result comes behind the abort of the run: the scheduler drops it, and
the map keeps it. `OnTime` is the condition on a step that this does not happen.
-/

namespace MultiAgent.Native

open Scheduler

namespace Sequential

variable {sch : Scheduler} {g : TaskGraph} {s t u : RunState} {e : Event} {es fs : List Event}
variable {status : TaskGraph.Statuses} {signalAborted : Bool} {r : SchedulerReport}
variable {results : String → Option TaskOutcome} {id : String} {task : Task}

/-- A result that comes behind the abort says that its task was cancelled. -/
def OnTime (s : RunState) : Event → Prop
  | .resolve _ (.fulfilled outcome) => s.aborted = true → outcome.status = .cancelled
  | .resolve _ (.rejected _) | .ret _ | .throwSync _ | .abort | .tick => True

instance decidableOnTime (s : RunState) : (e : Event) → Decidable (OnTime s e)
  | .resolve _ (.fulfilled outcome) =>
    inferInstanceAs (Decidable (s.aborted = true → outcome.status = .cancelled))
  | .resolve _ (.rejected _) | .ret _ | .throwSync _ | .abort | .tick =>
    inferInstanceAs (Decidable True)

/-- A recorded outcome that is not a cancellation has reached the scheduler, or is queued
ahead of its next pass. -/
def Punctual (results : String → Option TaskOutcome) (s : RunState) : Prop :=
  ∀ id outcome, results id = some outcome → outcome.status = .cancelled ∨
    s.outcomes id = some outcome ∨
      s.control = .waiting ∧ ∃ task, task.id = id ∧ .settle task (.fulfilled outcome) ∈ ahead s

theorem ahead_mono (jobs : s.jobs <+: t.jobs) : ahead s ⊆ ahead t := by
  obtain ⟨more, same⟩ := jobs
  intro job queued
  rw [ahead, ← same, List.takeWhile_append]
  split
  · exact List.mem_append_left _ ((List.takeWhile_prefix _).subset queued)
  · exact queued

theorem wake_jobs (s : RunState) : s.jobs <+: (wake s).jobs := by
  rw [wake]
  split
  · exact List.prefix_append _ _
  · exact List.prefix_rfl

theorem settle_jobs (s : RunState) (task : Task) (outcome : TaskOutcome) :
    s.jobs <+: (settle s task outcome).jobs := by
  unfold settle wake
  split
  · split
    · exact List.prefix_append _ _
    · exact List.prefix_rfl
  · split
    · exact List.prefix_append _ _
    · exact List.prefix_rfl

/-- While the run is not aborted, a result of a chain finds the loop waiting for it. -/
theorem waiting_of_unsettled (linear : Linear g)
    (reaches : Reaches sch g status signalAborted es s) (member : task ∈ s.unsettled)
    (unaborted : s.aborted = false) (execution : (sch.machine g).run s fs = some t)
    (returned : t.control = .returned r) : s.control = .waiting ∧ .resume ∉ s.jobs := by
  have sound := reaches.sound
  have serial := reaches.serial linear
  have flying : s.inFlight ≠ [] := by
    apply List.ne_nil_of_mem
    show task ∈ s.inFlight
    simp [RunState.inFlight, member]
  have waiting : s.control = .waiting := by
    cases control : s.control with
    | waiting => rfl
    | looping => exact absurd control reaches.rests
    | calling other rest =>
        have single := serial.single
        have some_ := List.length_pos_of_mem member
        simp only [RunState.inFlight, control, Control.opened, List.length_append,
          List.length_singleton] at single
        omega
    | returned r' => exact absurd (serial.outlasts r' control unaborted) flying
    | stalled message =>
        have same := control_of_inactive reaches.validated sound
          (by simp [RunState.active, control]) execution
        rw [returned, control] at same
        cases same
    | threw message =>
        have same := control_of_inactive reaches.validated sound
          (by simp [RunState.active, control]) execution
        rw [returned, control] at same
        cases same
  refine ⟨waiting, ?_⟩
  have wakes := sound.loop.wakes
  rw [if_pos waiting, serial.awaits waiting unaborted flying] at wakes
  apply List.count_eq_zero.mp
  simpa using wakes

/-- What has reached the scheduler stays. -/
theorem outcome_kept (reaches : Reaches sch g status signalAborted es s)
    (recording : Recording results s) {outcome : TaskOutcome} (known : results id = some outcome)
    (taken : s.outcomes id = some outcome) (transition : Scheduler.step sch g s e = some t) :
    t.outcomes id = some outcome := by
  have sound := reaches.sound
  have listed := sound.ledger.known id (recording.closed id outcome known).executed
  obtain ⟨task, member, rfl⟩ := TaskGraph.mem_ids.mp listed
  have terminal := (sound.ledger.isSome_iff member).mp (by rw [taken]; rfl)
  have one : (sch.machine g).run s [e] = some t :=
    (sch.machine g).run_cons_iff.mpr ⟨t, transition, rfl⟩
  rw [(settled_of_run reaches.validated sound one).2.1 task member terminal, taken]

/-- A settlement that is handled while the loop waits decides its task. -/
theorem settle_waiting {settlement : Settlement} {rest : List Job} (sound : Sound sch g s)
    (waiting : s.control = .waiting) (jobs : s.jobs = .settle task settlement :: rest) :
    (settle { s with jobs := rest } task (settlement.outcome task)).outcomes task.id =
      some (settlement.outcome task) := by
  have queued : Job.settle task settlement ∈ s.jobs := by rw [jobs]; exact List.mem_cons_self
  have flies : task ∈ s.inFlight := by
    simp only [RunState.inFlight, List.mem_append]
    exact .inr (.inr (mem_settling.mpr ⟨settlement, queued⟩))
  have exact' := sound.slots.exact (by simp [RunState.active, waiting])
  have running := (exact'.status task (sound.slots.mem_of_job queued)).mpr flies
  simp [settle, running]

theorem Punctual.step (linear : Linear g) (reaches : Reaches sch g status signalAborted es s)
    (recording : Recording results s) (punctual : Punctual results s) (onTime : OnTime s e)
    (transition : Scheduler.step sch g s e = some t)
    (execution : (sch.machine g).run t fs = some u) (returned : u.control = .returned r) :
    Punctual (record results e) t := by
  have sound := reaches.sound
  have whole : (sch.machine g).run s (e :: fs) = some u :=
    (sch.machine g).run_cons_iff.mpr ⟨t, transition, execution⟩
  intro id outcome found
  by_cases known : results id = some outcome
  · obtain cancelled | taken | ⟨waiting, task, rfl, queued⟩ := punctual id outcome known
    · exact .inl cancelled
    · exact .inr (.inl (outcome_kept reaches recording known taken transition))
    · right
      cases Transition.of_step transition with
      | ret settled control => simp [waiting] at control
      | throwSync message control => simp [waiting] at control
      | resolve settlement member =>
          exact .inr ⟨waiting, task, rfl, ahead_mono (List.prefix_append _ _) queued⟩
      | abort active first =>
          have longer : s.jobs <+: (Scheduler.abort s).jobs := wake_jobs { s with aborted := true }
          exact .inr ⟨by simpa [Scheduler.abort] using waiting, task, rfl, ahead_mono longer queued⟩
      | @settle other settlement rest outside jobs =>
          have first : ahead s = .settle other settlement :: ahead { s with jobs := rest } := by
            simp [ahead, jobs]
          rw [first] at queued
          obtain same | later := List.mem_cons.mp queued
          · obtain ⟨rfl, rfl⟩ := Job.settle.inj same
            exact .inl (settle_waiting sound waiting jobs)
          · have longer : rest <+: (settle { s with jobs := rest } other
                (settlement.outcome other)).jobs := settle_jobs { s with jobs := rest } _ _
            have kept : Job.settle task (.fulfilled outcome) ∈ ahead { s with jobs := rest } :=
              later
            exact .inr ⟨by simpa using waiting, task, rfl, ahead_mono longer kept⟩
      | resume outside jobs => simp [ahead, jobs] at queued
  · -- the event records the outcome
    cases e with
    | resolve other settlement =>
        cases settlement with
        | rejected message => exact absurd found known
        | fulfilled given =>
            have same : id = other := by
              by_contra apart
              rw [record, Function.update_of_ne apart] at found
              exact known found
            subst same
            rw [record, Function.update_self, Option.some.injEq] at found
            subst found
            cases Transition.of_step transition with
            | @resolve task _ member =>
                cases aborted : s.aborted with
                | true => exact .inl (onTime aborted)
                | false =>
                    obtain ⟨waiting, free⟩ :=
                      waiting_of_unsettled linear reaches member aborted whole returned
                    refine .inr (.inr ⟨waiting, task, rfl, ?_⟩)
                    rw [ahead, List.takeWhile_append_of_pos]
                    · simp
                    · intro job queued
                      exact decide_eq_true fun same => free (same ▸ queued)
    | ret | throwSync | abort | tick => exact absurd found known

theorem Punctual.run (linear : Linear g) (reaches : Reaches sch g status signalAborted es s)
    (recording : Recording results s) (punctual : Punctual results s)
    (meets : (sch.machine g).Meets OnTime s fs) (execution : (sch.machine g).run s fs = some t)
    (returned : t.control = .returned r) : Punctual (fs.foldl record results) t := by
  induction fs generalizing s results es with
  | nil =>
      cases execution
      exact punctual
  | cons e fs ih =>
      obtain ⟨u, first, rest⟩ := (sch.machine g).run_cons_iff.mp execution
      have one : (sch.machine g).run s [e] = some u :=
        (sch.machine g).run_cons_iff.mpr ⟨u, first, rfl⟩
      exact ih (reaches.append one) (recording.step reaches.validated reaches.sound first)
        (punctual.step linear reaches recording meets.1 first rest returned) (meets.2 u first)
        rest

section Returned

/-- In a run whose results are on time, the map of a chain holds what the scheduler decided,
up to cancellations. -/
theorem recorded_taken (linear : Linear g) (reaches : Reaches sch g status signalAborted es s)
    (onTime : Along OnTime sch g status signalAborted es) (returned : s.control = .returned r)
    {outcome : TaskOutcome} (found : recorded es id = some outcome) :
    outcome.status = .cancelled ∨ s.outcomes id = some outcome := by
  obtain ⟨s₀, accepted, execution⟩ := reaches
  have start : Reaches sch g status signalAborted [] s₀ := ⟨s₀, accepted, rfl⟩
  have nothing : Punctual (fun _ => none) s₀ := nofun
  have punctual := nothing.run linear start (recording_start accepted) (onTime s₀ accepted)
    execution returned
  obtain cancelled | taken | ⟨waiting, -⟩ := punctual id outcome found
  · exact .inl cancelled
  · exact .inr taken
  · rw [returned] at waiting
    cases waiting

/-- The entry of a task has the status of the outcome that the scheduler recorded. -/
def EntryAgrees (es : List Event) (s : RunState) (task : Task) : Prop :=
  ∃ outcome, s.outcomes task.id = some outcome ∧
    entryStatus (recorded es) s.status task.id = outcome.status

theorem entryAgrees_of_onTime (linear : Linear g)
    (reaches : Reaches sch g status signalAborted es s) (awaits : ∀ e ∈ es, Awaits e)
    (onTime : Along OnTime sch g status signalAborted es) (returned : s.control = .returned r)
    (member : task ∈ g.tasks) : EntryAgrees es s task := by
  have sound := reaches.sound
  have terminal := TaskGraph.isComplete_iff.mp (sound.loop.complete r returned).2 task member
  obtain ⟨decided, held⟩ := Option.isSome_iff_exists.mp (sound.ledger.recorded task member terminal)
  have agrees := sound.ledger.agrees task member decided held
  have traced := reaches.traced (obeys_recorded reaches awaits).1 task member terminal
  refine ⟨decided, held, ?_⟩
  apply toTaskStatus_injective
  rw [agrees]
  cases found : recorded es task.id with
  | some outcome =>
      rw [entryStatus, found]
      obtain cancelled | taken := recorded_taken linear reaches onTime returned found
      · obtain ⟨-, settlement, given, status⟩ | status := traced
        · cases settlement with
          | fulfilled settled =>
              have same : some settled = some outcome := given.trans found
              rw [status, Settlement.outcome, Option.some.inj same]
          | rejected message =>
              have none : (none : Option TaskOutcome) = some outcome := given.trans found
              cases none
        · rw [status]
          exact congrArg TaskOutcomeStatus.toTaskStatus cancelled
      · rw [held, Option.some.injEq] at taken
        rw [← agrees, taken]
  | none =>
      rw [entryStatus, found]
      obtain ⟨-, settlement, given, status⟩ | status := traced
      · cases settlement with
        | fulfilled settled =>
            have some_ : some settled = none := given.trans found
            cases some_
        | rejected message =>
            rw [status, Settlement.outcome]
            rfl
      · rw [status]
        rfl

/-- An outcome that a step of the run records is recorded at its end. -/
theorem recorded_split {outcome : TaskOutcome} {gs : List Event}
    (reaches : Reaches sch g status signalAborted fs u)
    (execution : (sch.machine g).run u (.resolve id (.fulfilled outcome) :: gs) = some s) :
    recorded (fs ++ .resolve id (.fulfilled outcome) :: gs) id = some outcome := by
  obtain ⟨v, first, rest⟩ := (sch.machine g).run_cons_iff.mp execution
  have transition : Scheduler.step sch g u (.resolve id (.fulfilled outcome)) = some v := first
  have valid := reaches.validated
  have recording : Recording (recorded fs) u := by
    obtain ⟨s₀, accepted, before⟩ := reaches
    exact (recording_start accepted).run valid (sound_start accepted) before
  have closed := Closed.resolve reaches.sound recording.started transition
  rw [recorded, List.foldl_append, List.foldl_cons,
    recorded_of_closed valid (reaches.sound.step valid transition) closed rest]
  simp [record]

/-- The entries of a chain agree with the scheduler exactly when all results are on time. -/
theorem entries_agree_iff (linear : Linear g) (reaches : Reaches sch g status signalAborted es s)
    (awaits : ∀ e ∈ es, Awaits e) (returned : s.control = .returned r) :
    (∀ task ∈ g.tasks, EntryAgrees es s task) ↔ Along OnTime sch g status signalAborted es := by
  constructor
  · intro agree s₀ accepted
    apply Machine.meets_iff_split.mpr
    intro fs e gs u split before
    obtain ⟨s₁, again, whole⟩ := reaches
    rw [accepted] at again
    cases again
    have reached : Reaches sch g status signalAborted fs u := ⟨s₀, accepted, before⟩
    rw [split] at whole
    obtain ⟨u', before', rest⟩ := (sch.machine g).run_append_iff.mp whole
    rw [before] at before'
    cases before'
    cases e with
    | resolve id settlement =>
        cases settlement with
        | rejected message => trivial
        | fulfilled outcome =>
            intro aborted
            obtain ⟨v, first, -⟩ := (sch.machine g).run_cons_iff.mp rest
            have transition : Scheduler.step sch g u (.resolve id (.fulfilled outcome)) = some v :=
              first
            cases Transition.of_step transition with
            | @resolve task _ member =>
                have flies : task ∈ u.inFlight := by
                  simp [RunState.inFlight, member]
                have late := reached.late_cancelled linear member aborted returned rest
                obtain ⟨decided, held, same⟩ := agree task (reached.sound.slots.known task flies)
                have found := recorded_split reached rest
                rw [← split] at found
                rw [entryStatus, found] at same
                have reaches : Reaches sch g status signalAborted es s :=
                  ⟨s₀, accepted, split ▸ whole⟩
                have agrees := reaches.sound.ledger.agrees task
                  (reached.sound.slots.known task flies) decided held
                rw [late, ← same] at agrees
                exact toTaskStatus_injective agrees
    | ret | throwSync | abort | tick => trivial
  · intro onTime task member
    exact entryAgrees_of_onTime linear reaches awaits onTime returned member

end Returned

end Sequential

/-- Did the task complete, by the report of the scheduler? -/
def SchedulerReport.completed (r : SchedulerReport) (id : String) : Bool :=
  (r.results.lookup id).join.any fun outcome => decide (outcome.status = .completed)

/-- The status is that of the outcome which the scheduler recorded for the task. -/
def SchedulerReport.Records (r : SchedulerReport) (id : String) (status : TaskOutcomeStatus) :
    Prop :=
  ∃ outcome, (r.results.lookup id).join = some outcome ∧ status = outcome.status

/-- The statuses of the tasks are those of the scheduler, and the outputs are the texts of the
tasks that completed there. -/
structure StrategyReport.Agrees (r : SchedulerReport) (report : StrategyReport) : Prop where
  tasks : ∀ task ∈ report.tasks, r.Records task.taskId task.status
  outputs : report.outputs =
    (report.tasks.filter fun task => r.completed task.taskId).filterMap StrategyTask.text

structure SequentialReport.Agrees (r : SchedulerReport) (report : SequentialReport) : Prop where
  envelope : report.toStrategyReport.Agrees r
  steps : ∀ step ∈ report.steps, r.Records step.taskId step.status
  final : report.final =
    (report.steps.reverse.find? fun step => r.completed step.taskId).bind
      SequentialStepResult.text

structure RelayReport.Agrees (r : SchedulerReport) (prompt : String) (report : RelayReport) :
    Prop where
  envelope : report.toStrategyReport.Agrees r
  turns : ∀ turn ∈ report.turns, r.Records turn.taskId turn.status
  draft : report.draft = prompt ∨ ∃ turn ∈ report.turns, r.completed turn.taskId = true ∧
    turn.output = some report.draft

section Envelope

variable {r : SchedulerReport} {id : String} {taken : TaskOutcomeStatus}

theorem tally_outputs (tasks : List StrategyTask)
    (counts : StrategyMetadata × List String × List StrategyError) :
    (tasks.foldl tallyTask counts).2.1 = counts.2.1 ++
      (tasks.filter fun task => decide (task.status = .completed)).filterMap
        StrategyTask.text := by
  induction tasks generalizing counts with
  | nil => simp
  | cons task tasks ih =>
      rw [List.foldl_cons, ih]
      cases status : task.status with
      | completed => cases text : task.text <;> simp [tallyTask, status, text]
      | failed => simp [tallyTask, status]
      | cancelled => simp [tallyTask, status]

theorem strategyEnvelope_outputs (strategy : SupervisorStrategy) (stopped : Bool)
    (tasks : List StrategyTask) :
    (strategyEnvelope strategy stopped tasks).outputs =
      (tasks.filter fun task => decide (task.status = .completed)).filterMap
        StrategyTask.text :=
  tally_outputs tasks (⟨tasks.length, 0, 0, 0, 0⟩, [], [])

theorem SchedulerReport.Records.completed (records : r.Records id taken) :
    r.completed id = decide (taken = .completed) := by
  obtain ⟨outcome, found, rfl⟩ := records
  simp [SchedulerReport.completed, found]

/-- An envelope agrees when the statuses of its tasks do. -/
theorem strategyEnvelope_agrees {strategy : SupervisorStrategy} {stopped : Bool}
    {tasks : List StrategyTask} (agree : ∀ task ∈ tasks, r.Records task.taskId task.status) :
    (strategyEnvelope strategy stopped tasks).Agrees r := by
  constructor
  · exact agree
  · rw [strategyEnvelope_outputs]
    congr 1
    apply List.filter_congr
    intro task member
    exact (agree task member).completed.symm

end Envelope

section Reports

variable {sch : Scheduler} {g : TaskGraph} {s : RunState} {es : List Event}
variable {status : TaskGraph.Statuses} {signalAborted : Bool} {r : SchedulerReport}

theorem lookup_results (reaches : Reaches sch g status signalAborted es s)
    (returned : s.control = .returned r) {task : Task} (member : task ∈ g.tasks) :
    (r.results.lookup task.id).join = s.outcomes task.id := by
  have same := (reaches.sound.loop.complete r returned).1
  have results : r.results = g.ids.map fun id => (id, s.outcomes id) := by
    rw [same, Scheduler.report, TaskGraph.ids, List.map_map]
    rfl
  rw [results, List.lookup_graph _ (TaskGraph.id_mem_ids member), Option.join_some]

/-- The entries of a chain, one for each task, agree when all results are on time. -/
theorem records_iff (linear : Linear g) (reaches : Reaches sch g status signalAborted es s)
    (awaits : ∀ e ∈ es, Sequential.Awaits e) (returned : s.control = .returned r) {γ : Type}
    {item : Nat → Task → γ} {idOf : γ → String} {statusOf : γ → TaskOutcomeStatus}
    (ids : ∀ index task, idOf (item index task) = task.id)
    (statuses : ∀ index task, statusOf (item index task) =
      Sequential.entryStatus (Sequential.recorded es) s.status task.id) :
    (∀ entry ∈ g.tasks.mapIdx item, r.Records (idOf entry) (statusOf entry)) ↔
      Along Sequential.OnTime sch g status signalAborted es := by
  rw [← Sequential.entries_agree_iff linear reaches awaits returned]
  have entry : ∀ index, ∀ task ∈ g.tasks, r.Records (idOf (item index task))
      (statusOf (item index task)) ↔ Sequential.EntryAgrees es s task := by
    intro index task member
    rw [SchedulerReport.Records, ids, statuses, lookup_results reaches returned member]
    rfl
  constructor
  · intro agree task member
    obtain ⟨index, inside, rfl⟩ := List.getElem_of_mem member
    have listed : item index g.tasks[index] ∈ g.tasks.mapIdx item :=
      List.mem_mapIdx.mpr ⟨index, inside, rfl⟩
    exact (entry index _ member).mp (agree _ listed)
  · intro agree listed member
    obtain ⟨index, inside, rfl⟩ := List.mem_mapIdx.mp member
    exact (entry index _ (List.getElem_mem inside)).mpr (agree _ (List.getElem_mem inside))

theorem linear_of_links (label : Nat → String)
    (links : g.tasks.map (fun task => (task.id, task.dependsOn)) =
      (List.range g.tasks.length).map fun index =>
        (label index, if index = 0 then [] else [label (index - 1)])) : Linear g := by
  intro i task next first second
  have at_ : ∀ j (task : Task), g.tasks[j]? = some task →
      (task.id, task.dependsOn) = (label j, if j = 0 then [] else [label (j - 1)]) := by
    intro j task here
    obtain ⟨inside, rfl⟩ := List.getElem?_eq_some_iff.mp here
    have both := congrArg (fun l : List (String × List String) => l[j]?) links
    simpa [inside] using both
  obtain ⟨id, -⟩ := Prod.mk.inj (at_ i task first)
  obtain ⟨-, deps⟩ := Prod.mk.inj (at_ (i + 1) next second)
  rw [deps, id]
  simp

theorem SupervisorPlan.linear {plan : SupervisorPlan} (chain : plan.strategy ≠ .broadcast)
    (built : plan.graph = .ok g) : Linear g := by
  have links := SupervisorPlan.graph_links built
  have size : plan.size = g.tasks.length := by
    simpa using (congrArg List.length links).symm
  apply linear_of_links plan.strategy.syntheticId
  rw [links, size]
  simp [SupervisorStrategy.upstream, chain]

theorem sequential_agrees_iff {steps : List SequentialStep}
    (built : Sequential.graph steps = .ok g)
    (reaches : Reaches sch g status signalAborted es s) (awaits : ∀ e ∈ es, Sequential.Awaits e)
    (returned : s.control = .returned r) :
    (Sequential.report g (Sequential.recorded es) s.status r).Agrees r ↔
      Along Sequential.OnTime sch g status signalAborted es := by
  have plan : (SupervisorPlan.sequential steps).graph = .ok g := built
  have linear : Linear g := SupervisorPlan.linear (by simp [SupervisorPlan.strategy]) plan
  have entry (index : Nat) (task : Task) :
      let step := Sequential.stepResult (Sequential.recorded es) s.status r index task
      step.taskId = task.id ∧ step.status =
        Sequential.entryStatus (Sequential.recorded es) s.status task.id := by
    rw [Sequential.stepResult, Sequential.entryStatus]
    cases Sequential.recorded es task.id <;> exact ⟨rfl, rfl⟩
  rw [← records_iff linear reaches awaits returned (fun index task => (entry index task).1)
    fun index task => (entry index task).2]
  constructor
  · exact fun agrees => agrees.steps
  · intro steps
    constructor
    · apply strategyEnvelope_agrees
      intro task member
      obtain ⟨step, listed, rfl⟩ := List.mem_map.mp member
      exact steps step listed
    · exact steps
    · rw [Sequential.report]
      dsimp only
      congr 1
      rw [← List.head?_filter, ← List.head?_filter]
      congr 1
      apply List.filter_congr
      intro step member
      exact (steps step (List.mem_reverse.mp member)).completed.symm

/-- The last draft is the prompt or was recorded by a turn. -/
theorem finalDraft_cases (results : String → Option TaskOutcome) (indices : List Nat)
    (draft : String) : Relay.finalDraft results indices draft = draft ∨
      ∃ index ∈ indices,
        Relay.drafts results index = some (Relay.finalDraft results indices draft) := by
  induction indices generalizing draft with
  | nil => exact .inl rfl
  | cons index rest ih =>
      cases found : Relay.drafts results index with
      | none => exact .inl (by simp [Relay.finalDraft, found])
      | some value =>
          right
          rw [Relay.finalDraft, found]
          obtain same | ⟨later, member, recorded⟩ := ih value
          · exact ⟨index, by simp, by rw [found]; exact congrArg some same.symm⟩
          · exact ⟨later, List.mem_cons_of_mem _ member, recorded⟩

theorem relay_agrees_iff {prompt : String} {steps : List RelayStep}
    (built : Relay.graph prompt steps = .ok g)
    (reaches : Reaches sch g status signalAborted es s) (awaits : ∀ e ∈ es, Sequential.Awaits e)
    (returned : s.control = .returned r) :
    (Relay.report prompt steps g (Sequential.recorded es) s.status r).Agrees r prompt ↔
      Along Sequential.OnTime sch g status signalAborted es := by
  have plan : (SupervisorPlan.relay prompt steps).graph = .ok g := built
  have linear : Linear g := SupervisorPlan.linear (by simp [SupervisorPlan.strategy]) plan
  have entry (index : Nat) (task : Task) :
      let turn := Relay.turnResult prompt steps (Sequential.recorded es) s.status r index task
      turn.taskId = task.id ∧ turn.status =
        Sequential.entryStatus (Sequential.recorded es) s.status task.id := by
    rw [Relay.turnResult, Sequential.entryStatus]
    cases Sequential.recorded es task.id <;> exact ⟨rfl, rfl⟩
  rw [← records_iff linear reaches awaits returned (fun index task => (entry index task).1)
    fun index task => (entry index task).2]
  constructor
  · exact fun agrees => agrees.turns
  · intro turns
    constructor
    · apply strategyEnvelope_agrees
      intro task member
      obtain ⟨turn, listed, rfl⟩ := List.mem_map.mp member
      exact turns turn listed
    · exact turns
    · refine (finalDraft_cases _ _ _).imp_right ?_
      rintro ⟨index, inside, recorded⟩
      have ids : g.tasks.map Task.id = (List.range steps.length).map fun index =>
          s!"relay-{index}" := SupervisorPlan.graph_ids plan
      have bound : index < g.tasks.length := by
        have size := congrArg List.length ids
        simp only [List.length_map, List.length_range] at size
        rw [size]
        exact List.mem_range.mp inside
      have id : g.tasks[index].id = s!"relay-{index}" := by
        have here := congrArg (fun l : List String => l[index]?) ids
        simpa [bound, List.mem_range.mp inside] using here
      obtain ⟨outcome, found, drafted⟩ := Option.bind_eq_some_iff.mp recorded
      have done : outcome.status = .completed ∧ outcome.text = some (Relay.finalDraft
          (Sequential.recorded es) (List.range steps.length) prompt) := by
        simpa [Option.ite_none_right_eq_some] using drafted
      have listed : Relay.turnResult prompt steps (Sequential.recorded es) s.status r index
          g.tasks[index] ∈ g.tasks.mapIdx (Relay.turnResult prompt steps (Sequential.recorded es)
            s.status r) := List.mem_mapIdx.mpr ⟨index, bound, rfl⟩
      refine ⟨_, listed, ?_, ?_⟩
      · rw [(turns _ listed).completed, Relay.turnResult, id, found]
        exact decide_eq_true done.1
      · rw [Relay.turnResult, id, found]
        exact done.2

/-- What the report of a sequential run or of a relay says about its steps agrees with the
report of its scheduler exactly when no execution resolves behind the abort of the run with
anything but a cancellation. A task whose execution resolves behind the abort did not complete,
by the report of the scheduler. -/
theorem strategy_agrees_iff
    (reaches : Reaches sch g (fun _ => .pending) signalAborted es s)
    (awaits : ∀ e ∈ es, Sequential.Awaits e) (returned : s.control = .returned r) :
    (∀ steps, Sequential.graph steps = .ok g →
        ((Sequential.report g (Sequential.recorded es) s.status r).Agrees r ↔
          Along Sequential.OnTime sch g (fun _ => .pending) signalAborted es)) ∧
      (∀ prompt steps, Relay.graph prompt steps = .ok g →
        ((Relay.report prompt steps g (Sequential.recorded es) s.status r).Agrees r prompt ↔
          Along Sequential.OnTime sch g (fun _ => .pending) signalAborted es)) ∧
      ∀ plan : SupervisorPlan, plan.strategy ≠ .broadcast → plan.graph = .ok g →
        ∀ fs id settlement gs u, es = fs ++ .resolve id settlement :: gs →
          Reaches sch g (fun _ => .pending) signalAborted fs u → u.aborted = true →
          r.Records id .cancelled := by
  refine ⟨?_, ?_, ?_⟩
  · intro steps built
    exact sequential_agrees_iff built reaches awaits returned
  · intro prompt steps built
    exact relay_agrees_iff built reaches awaits returned
  · intro plan chain built fs id settlement gs u split before aborted
    obtain ⟨s₀, accepted, whole⟩ := reaches
    have reaches : Reaches sch g (fun _ => .pending) signalAborted es s := ⟨s₀, accepted, whole⟩
    obtain ⟨s₁, again, prior⟩ := before
    rw [accepted] at again
    cases again
    rw [split] at whole
    obtain ⟨u', here, rest⟩ := (sch.machine g).run_append_iff.mp whole
    rw [prior] at here
    cases here
    obtain ⟨v, first, -⟩ := (sch.machine g).run_cons_iff.mp rest
    have transition : Scheduler.step sch g u (.resolve id settlement) = some v := first
    have reached : Reaches sch g (fun _ => .pending) signalAborted fs u := ⟨s₀, accepted, prior⟩
    cases Transition.of_step transition with
    | @resolve task _ member =>
        have late := reached.late_cancelled (SupervisorPlan.linear chain built) member aborted
          returned rest
        have known : task ∈ g.tasks := by
          apply reached.sound.slots.known
          simp [RunState.inFlight, member]
        have terminal : isTerminalStatus (s.status task.id) = true := by rw [late]; rfl
        obtain ⟨outcome, held⟩ := Option.isSome_iff_exists.mp
          (reaches.sound.ledger.recorded task known terminal)
        have agrees := reaches.sound.ledger.agrees task known outcome held
        rw [late] at agrees
        refine ⟨outcome, by rw [lookup_results reaches returned known, held], ?_⟩
        exact (toTaskStatus_injective agrees).symm

end Reports

/-- A draft and its review. -/
def draftThenReview : List SequentialStep :=
  [⟨"writer", "draft", none, none⟩, ⟨"reviewer", "review", none, none⟩]

def draftOutcome : TaskOutcome := ⟨"seq-0", .completed, some "the draft", none, 5, none⟩

/-- The run is stopped while the draft is written, and the draft is delivered behind the stop. -/
def lateDraft : List Event :=
  [.ret none, .abort, .resolve "seq-0" (.fulfilled draftOutcome), .tick]

theorem lateDraft_reported :
    ∃ scheduled report, schedule (Sequential.graph draftThenReview) false lateDraft =
        some scheduled ∧
      Sequential.run draftThenReview false lateDraft = some report ∧
      scheduled.report.stopped = true ∧ scheduled.report.Records "seq-0" .cancelled ∧
      report.steps.map SequentialStepResult.status = [.completed, .cancelled] ∧
      report.outputs = ["the draft"] ∧ report.final = some "the draft" ∧
      ¬ report.Agrees scheduled.report := by
  have ends : (schedule (Sequential.graph draftThenReview) false lateDraft).any fun scheduled =>
      decide (scheduled.report.stopped = true ∧
        (scheduled.report.results.lookup "seq-0").join.map TaskOutcome.status =
          some .cancelled) := by
    decide
  obtain ⟨scheduled, returned, ends⟩ := (Option.any_eq_true _ _).mp ends
  obtain ⟨stopped, cancelled⟩ := of_decide_eq_true ends
  have ran : (Sequential.run draftThenReview false lateDraft).any fun report =>
      decide (report.steps.map SequentialStepResult.taskId = ["seq-0", "seq-1"] ∧
        report.steps.map SequentialStepResult.status = [.completed, .cancelled] ∧
        report.outputs = ["the draft"] ∧ report.final = some "the draft") := by
    decide
  obtain ⟨report, reported, ran⟩ := (Option.any_eq_true _ _).mp ran
  obtain ⟨ids, statuses, outputs, final⟩ := of_decide_eq_true ran
  obtain ⟨outcome, found, status⟩ := Option.map_eq_some_iff.mp cancelled
  refine ⟨scheduled, report, returned, reported, stopped, ⟨outcome, found, status.symm⟩, statuses,
    outputs, final, ?_⟩
  intro agrees
  cases steps : report.steps with
  | nil => simp [steps] at ids
  | cons step rest =>
      have id : step.taskId = "seq-0" := by simpa [steps] using congrArg List.head? ids
      have done : step.status = .completed := by simpa [steps] using congrArg List.head? statuses
      obtain ⟨held, known, same⟩ := agrees.steps step (by simp [steps])
      rw [id, found, Option.some.injEq] at known
      rw [done, ← known, status] at same
      cases same

def draftGraph : TaskGraph where
  tasks := [⟨"seq-0", "writer", "draft", [], none⟩,
    ⟨"seq-1", "reviewer", "review", ["seq-0"], none⟩]
  distinct := by decide

/-- The draft is delivered, and the run is stopped before the scheduler has handled it. -/
def keptDraft : List Event :=
  [.ret none, .resolve "seq-0" (.fulfilled draftOutcome), .abort, .tick, .tick]

theorem strategy_agrees_iff_keptDraft :
    ∃ s r, Reaches sequential draftGraph (fun _ => .pending) false keptDraft s ∧
      s.control = .returned r ∧
      (Sequential.report draftGraph (Sequential.recorded keptDraft) s.status r).Agrees r := by
  have built : Sequential.graph draftThenReview = .ok draftGraph := rfl
  have ends : ((sequential.machine draftGraph).run
      (iterate sequential draftGraph (initial (fun _ => .pending) false)) keptDraft).any
        fun s => s.returnedReport.isSome := by
    decide
  obtain ⟨s, execution, ends⟩ := (Option.any_eq_true _ _).mp ends
  have reaches := reaches_of_run (by decide) (by decide) execution
  have awaits : ∀ e ∈ keptDraft, Sequential.Awaits e := by
    simp [keptDraft, Sequential.Awaits]
  obtain ⟨r, returned⟩ := Option.isSome_iff_exists.mp ends
  have control := RunState.returnedReport_eq_some_iff.mp returned
  refine ⟨s, r, reaches, control, ?_⟩
  apply ((strategy_agrees_iff reaches awaits control).1 draftThenReview built).mpr
  intro s₀ accepted
  obtain ⟨-, -, rfl⟩ := run_eq_ok_iff.mp accepted
  decide

end MultiAgent.Native
