import MultiAgent.Native.Scheduler.Loop

/-!
# Safety of every reachable state

An accepted run starts from pending tasks of a validated graph, and every event
keeps `Sound`. Launching is safe, statuses are final once terminal, and the
slots and agents in use are those of the executions in flight.
-/

namespace MultiAgent.Native.Scheduler

open Relation

variable {sch : Scheduler} {g : TaskGraph} {gives : Task → Settlement → Prop} {s t : RunState}
variable {status : TaskGraph.Statuses} {signalAborted : Bool} {es : List Event}

theorem reuseMessage_eq_none_iff :
    reuseMessage g status = none ↔ ∀ task ∈ g.tasks, status task.id = .pending := by
  rw [reuseMessage]
  dsimp only
  split
  · rename_i none
    simpa [List.filter_eq_nil_iff] using none
  · rename_i some
    simpa [List.filter_eq_nil_iff] using some

theorem run_eq_ok_iff :
    sch.run none g status signalAborted = .ok s ↔
      g.validate = .ok () ∧ (∀ task ∈ g.tasks, status task.id = .pending) ∧
        s = iterate sch g (initial status signalAborted) := by
  rw [← reuseMessage_eq_none_iff]
  rw [run]
  cases accepted : g.validate with
  | error error => simp
  | ok _ =>
      cases reuse : reuseMessage g status with
      | none => simpa using eq_comm
      | some message => simp

/-- A run of an accepted graph, given by what its events compute. -/
theorem reaches_of_run (accepted : g.validate = .ok ()) (fresh : reuseMessage g status = none)
    (execution : (sch.machine g).run (iterate sch g (initial status signalAborted)) es = some s) :
    Reaches sch g status signalAborted es s :=
  ⟨_, run_eq_ok_iff.mpr ⟨accepted, reuseMessage_eq_none_iff.mp fresh, rfl⟩, execution⟩

theorem Sound.step {e : Event} (valid : g.Validated) (sound : Sound sch g s)
    (transition : step sch g s e = some t) : Sound sch g t := by
  have given : e.Given (fun _ _ => True) s := by
    cases e <;> simp [Event.Given]
  exact sound.actions valid (step_actions sound.open given transition).to_reflTransGen

/-- An event leaves a run that has ended as it ended. -/
theorem Sound.control_stays {e : Event} (sound : Sound sch g s) (ended : s.active = false)
    (transition : Scheduler.step sch g s e = some t) : t.control = s.control := by
  cases Transition.of_step transition with
  | ret settled calling => simp [RunState.active, calling] at ended
  | throwSync message calling => simp [RunState.active, calling] at ended
  | resolve settlement member => rfl
  | abort active first => simp [active] at ended
  | settle outside jobs => exact settle_control _ _ _
  | resume outside jobs =>
      have waiting := sound.open.resume (by rw [jobs]; exact List.mem_cons_self)
      simp [RunState.active, waiting] at ended

theorem Reaches.validated (reaches : Reaches sch g status signalAborted es s) : g.Validated := by
  obtain ⟨s₀, accepted, -⟩ := reaches
  exact TaskGraph.validated_of_validate (run_eq_ok_iff.mp accepted).1

theorem sound_start (accepted : sch.run none g status signalAborted = .ok s) : Sound sch g s := by
  obtain ⟨valid, fresh, rfl⟩ := run_eq_ok_iff.mp accepted
  have actions : ReflTransGen (Action sch g fun _ _ => True) (initial status signalAborted)
      (iterate sch g (initial status signalAborted)) := iterate_actions rfl
  exact (Sound.initial sch g signalAborted fresh).actions
    (TaskGraph.validated_of_validate valid) actions

/-- Every reachable state satisfies the invariant. -/
theorem Reaches.sound (reaches : Reaches sch g status signalAborted es s) : Sound sch g s := by
  have valid := reaches.validated
  obtain ⟨s₀, accepted, execution⟩ := reaches
  exact Machine.run_invariant (fun _ _ _ sound transition => sound.step valid transition)
    (sound_start accepted) execution

theorem Sound.settled (valid : g.Validated) (sound : Sound sch g s)
    (actions : ReflTransGen (Action sch g gives) s t) : Settled g s t := by
  induction actions with
  | refl => exact .refl g s
  | @tail u v before action ih =>
      refine ih.trans ?_
      have entries := (sound.actions valid before).entries action
      clear action
      induction entries with
      | refl => exact .refl g u
      | tail _ entry ih => exact ih.trans entry.settled

/-- What is terminal in a state of a run stays as it is until the end of the run. -/
theorem settled_of_run (valid : g.Validated) (sound : Sound sch g s)
    (execution : (sch.machine g).run s es = some t) : Settled g s t := by
  refine Machine.run_relation (fun _ _ _ sound transition => sound.step valid transition)
    (Settled.refl g) (fun first second => first.trans second) ?_ sound execution
  intro u e v sound transition
  have given : e.Given (fun _ _ => True) u := by
    cases e <;> simp [Event.Given]
  exact sound.settled valid (step_actions sound.open given transition).to_reflTransGen

@[simp] theorem settle_executed (s : RunState) (task : Task) (outcome : TaskOutcome) :
    (settle s task outcome).executed = s.executed := by
  unfold settle; split <;> simp

@[simp] theorem settle_unsettled (s : RunState) (task : Task) (outcome : TaskOutcome) :
    (settle s task outcome).unsettled = s.unsettled := by
  unfold settle; split <;> simp [release]

theorem conclude_executed (g : TaskGraph) (s : RunState) :
    (conclude g s).executed = s.executed := by
  rw [conclude]
  dsimp only
  split
  · split
    · exact leave_executed g s
    · split
      · exact leave_executed g _
      · rfl
  · split
    · exact leave_executed g _
    · rfl

theorem launch_executed (sch : Scheduler) (g : TaskGraph) (rest : List Task) (s : RunState) :
    (launch sch g rest s).executed = s.executed ∨
      ∃ task later, (launch sch g rest s).control = .calling task later ∧
        (launch sch g rest s).executed = s.executed ++ [task.id] := by
  induction rest with
  | nil => exact .inl (conclude_executed g s)
  | cons task rest ih =>
      rw [launch]
      split
      · exact .inl (conclude_executed g s)
      · split
        · exact ih
        · exact .inr ⟨task, rest, rfl, rfl⟩

theorem iterate_executed (sch : Scheduler) (g : TaskGraph) (s : RunState) :
    (iterate sch g s).executed = s.executed ∨
      ∃ task later, (iterate sch g s).control = .calling task later ∧
        (iterate sch g s).executed = s.executed ++ [task.id] := by
  have pass : (stoppedNow (cascade g s)).executed = s.executed :=
    cascade_keeps RunState.executed (fun _ _ _ => rfl) g s
  unfold iterate
  dsimp only
  split
  · exact .inl ((conclude_executed g _).trans pass)
  · rw [← pass]
    exact launch_executed sch g _ _

/-- A task is handed to `execute` only by entering its call. -/
theorem step_executed {e : Event} (transition : step sch g s e = some t) :
    t.executed = s.executed ∨
      ∃ task later, t.control = .calling task later ∧ t.executed = s.executed ++ [task.id] := by
  cases Transition.of_step transition with
  | @ret task rest settled control =>
      have attached : (attach s task settled).executed = s.executed := by
        cases settled <;> rfl
      rw [← attached]
      exact launch_executed sch g rest _
  | throwSync message control => exact .inl rfl
  | resolve settlement member => exact .inl rfl
  | abort active first => exact .inl (by simp [abort])
  | settle outside jobs => exact .inl (by simp)
  | resume outside jobs => exact iterate_executed sch g _

/-- Every step of the run meets the condition. -/
def Along (ok : RunState → Event → Prop) (sch : Scheduler) (g : TaskGraph)
    (status : TaskGraph.Statuses) (signalAborted : Bool) (es : List Event) : Prop :=
  ∀ s₀, sch.run none g status signalAborted = .ok s₀ → (sch.machine g).Meets ok s₀ es

theorem along_iff {ok : RunState → Event → Prop} {s₀ : RunState}
    (accepted : sch.run none g status signalAborted = .ok s₀) :
    Along ok sch g status signalAborted es ↔ (sch.machine g).Meets ok s₀ es := by
  refine ⟨fun along => along s₀ accepted, ?_⟩
  intro meets s₁ accepted'
  rw [accepted] at accepted'
  cases accepted'
  exact meets

theorem Reaches.append {fs : List Event} (reaches : Reaches sch g status signalAborted es s)
    (execution : (sch.machine g).run s fs = some t) :
    Reaches sch g status signalAborted (es ++ fs) t := by
  obtain ⟨s₀, accepted, before⟩ := reaches
  exact ⟨s₀, accepted, (Machine.run_append_iff _).mpr ⟨s, before, execution⟩⟩

/-- Every id handed to `execute` was handed over at some moment of the run. -/
theorem Reaches.handed (reaches : Reaches sch g status signalAborted es s) {id : String}
    (handed : id ∈ s.executed) :
    ∃ es₁ es₂ u task rest, es = es₁ ++ es₂ ∧ Reaches sch g status signalAborted es₁ u ∧
      u.control = .calling task rest ∧ task.id = id ∧ id ∈ u.executed := by
  obtain ⟨s₀, accepted, execution⟩ := reaches
  by_cases first : id ∈ s₀.executed
  · refine ⟨[], es, s₀, ?_⟩
    obtain ⟨-, -, start⟩ := run_eq_ok_iff.mp accepted
    have entered := iterate_executed sch g (initial status signalAborted)
    rw [← start] at entered
    obtain same | ⟨task, rest, control, grown⟩ := entered
    · rw [same] at first
      exact absurd first List.not_mem_nil
    · have here : id = task.id := by simpa [grown, initial] using first
      exact ⟨task, rest, rfl, ⟨s₀, accepted, rfl⟩, control, here.symm, first⟩
  · obtain ⟨es₁, e, es₂, u, v, rfl, before, out, transition, inside, -⟩ :=
      Machine.run_enters (Q := fun s : RunState => id ∈ s.executed) execution first handed
    obtain same | ⟨task, rest, control, grown⟩ := step_executed transition
    · exact absurd (same ▸ inside) out
    · have here : id = task.id := by simpa [grown, out] using inside
      refine ⟨es₁ ++ [e], es₂, v, task, rest, by simp, ?_, control, here.symm, inside⟩
      refine Reaches.append ⟨s₀, accepted, before⟩
        ((Machine.run_cons_iff _).mpr ⟨v, transition, ?_⟩)
      rfl

theorem Sound.calling_mem {task : Task} {rest : List Task} (sound : Sound sch g s)
    (control : s.control = .calling task rest) : task ∈ g.tasks := by
  apply sound.slots.known
  rw [RunState.inFlight, control]
  exact List.mem_cons_self

/-- A task is handed to `execute` at most once and with all its dependencies
completed, and a status that is terminal is final. -/
theorem launch_safety (reaches : Reaches sch g status signalAborted es s) :
    s.executed.Nodup ∧
      (∀ id ∈ s.executed, ∃ es₁ es₂ u task rest, es = es₁ ++ es₂ ∧
        Reaches sch g status signalAborted es₁ u ∧ u.control = .calling task rest ∧
        task ∈ g.tasks ∧ task.id = id ∧ ∀ dep ∈ task.dependsOn, u.status dep = .completed) ∧
      ∀ fs t, (sch.machine g).run s fs = some t → ∀ id,
        isTerminalStatus (s.status id) = true → t.status id = s.status id := by
  refine ⟨reaches.sound.ledger.once, ?_, ?_⟩
  · intro id handed
    obtain ⟨es₁, es₂, u, task, rest, split, before, control, same, inside⟩ := reaches.handed handed
    have member := before.sound.calling_mem control
    refine ⟨es₁, es₂, u, task, rest, split, before, control, member, same, ?_⟩
    exact before.sound.ledger.deps task member (same ▸ inside)
  · intro fs t execution
    exact (settled_of_run reaches.validated reaches.sound execution).1

/-- A draft and its review, by one agent. -/
def draftAndReview : TaskGraph where
  tasks := [
    { id := "draft", agentId := "writer", prompt := "Draft it", dependsOn := []
      timeoutMs := none },
    { id := "review", agentId := "writer", prompt := "Review it", dependsOn := ["draft"]
      timeoutMs := none }]
  distinct := by decide

def sequential : Scheduler := ⟨some 1, by simp⟩

/-- The draft completes and the review is handed over. -/
def draftDone : List Event :=
  [.ret none,
    .resolve "draft" (.fulfilled { taskId := "draft", status := .completed, text := some "ok"
                                   error := none, durationMs := 7, raw := none }),
    .tick, .tick]

theorem draftDone_reaches :
    ∃ s, Reaches sequential draftAndReview (fun _ => .pending) false draftDone s := by
  have runs : ((sequential.machine draftAndReview).run
      (iterate sequential draftAndReview (initial (fun _ => .pending) false))
      draftDone).isSome := by
    decide
  obtain ⟨s, execution⟩ := Option.isSome_iff_exists.mp runs
  exact ⟨s, reaches_of_run (by decide) (by decide) execution⟩

theorem launch_safety_draftAndReview :
    ∃ s, Reaches sequential draftAndReview (fun _ => .pending) false draftDone s ∧
      s.executed.Nodup := by
  obtain ⟨s, reaches⟩ := draftDone_reaches
  exact ⟨s, reaches, (launch_safety reaches).1⟩

/-- The executions in flight respect the limit and hold one agent each. Until
the run ends, the agents in use and the statuses are exactly theirs. -/
theorem resource_invariant (reaches : Reaches sch g status signalAborted es s) :
    (∀ limit ∈ sch.concurrency, s.inFlight.length ≤ limit) ∧
      (s.inFlight.map Task.agentId).Nodup ∧
      (s.active = true →
        s.running = (s.inFlight.map Task.id).toFinset ∧
          s.busyAgents = (s.inFlight.map Task.agentId).toFinset ∧
          ∀ task ∈ g.tasks, s.status task.id = .running ↔ task ∈ s.inFlight) := by
  have slots := reaches.sound.slots
  refine ⟨slots.limited, slots.exclusive, ?_⟩
  intro active
  exact ⟨(slots.exact active).running, (slots.exact active).busy, (slots.exact active).status⟩

theorem resource_invariant_draftAndReview :
    ∃ s, Reaches sequential draftAndReview (fun _ => .pending) false draftDone s ∧
      s.inFlight.length ≤ 1 := by
  obtain ⟨s, reaches⟩ := draftDone_reaches
  exact ⟨s, reaches, (resource_invariant reaches).1 1 rfl⟩

end MultiAgent.Native.Scheduler
