import MultiAgent.Native.Scheduler.Model

/-!
# What an event can do to a run

Between two openings the loop performs a sequence of small actions, and the
surroundings perform one. `Action` lists them with the conditions under which
the code takes them, and `step_actions` decomposes every event into actions.
Invariants are proved once for each action and never by unfolding `step`.
-/

namespace MultiAgent.Native.Scheduler

open Relation

/-- What is left of a ready list: distinct tasks that may still start. -/
structure Launchable (g : TaskGraph) (status : TaskGraph.Statuses) (rest : List Task) : Prop where
  distinct : (rest.map Task.id).Nodup
  ready : ∀ task ∈ rest, task ∈ g.ready status

theorem Launchable.tail {g : TaskGraph} {status : TaskGraph.Statuses} {task : Task}
    {rest : List Task} (h : Launchable g status (task :: rest)) : Launchable g status rest :=
  ⟨(List.nodup_cons.mp h.distinct).2, fun t ht => h.ready t (by simp [ht])⟩

theorem launchable_ready (g : TaskGraph) (status : TaskGraph.Statuses) :
    Launchable g status (g.ready status) :=
  ⟨(List.filter_sublist.map Task.id).nodup g.distinct, fun _ h => h⟩

/-- One action of a run whose executions settle only as `gives` allows. -/
inductive Action (sch : Scheduler) (g : TaskGraph) (gives : Task → Settlement → Prop)
    (s : RunState) : RunState → Prop
  | resume {rest : List Job} (control : s.control = .waiting) (jobs : s.jobs = .resume :: rest) :
      Action sch g gives s { s with jobs := rest, control := .looping }
  | cancel {task : Task} {dep : String} (reason : String) (control : s.control = .looping)
      (member : task ∈ g.tasks) (pending : s.status task.id = .pending)
      (edge : dep ∈ task.dependsOn) (failed : failedDep g s.status dep = true) :
      Action sch g gives s (cancelBlocked s task reason)
  | observe (control : s.control = .looping) : Action sch g gives s (stoppedNow s)
  | start {task : Task} {rest : List Task} (control : s.control = .looping)
      (going : s.stopped = false) (launchable : Launchable g s.status (task :: rest))
      (capacity : sch.atCapacity s = false) (idle : task.agentId ∉ s.busyAgents) :
      Action sch g gives s (start s task rest)
  | wait (control : s.control = .looping) (busy : s.running ≠ ∅) (going : s.stopped = false)
      (unaborted : s.aborted = false) :
      Action sch g gives s { s with awaiting := true, control := .waiting }
  | leave (control : s.control = .looping)
      (done : (s.running = ∅ ∧ g.isComplete s.status = true) ∨ s.stopped = true) :
      Action sch g gives s (leave g s)
  | stall (control : s.control = .looping) (idle : s.running = ∅)
      (incomplete : g.isComplete s.status = false) (going : s.stopped = false)
      (unaborted : s.aborted = false) :
      Action sch g gives s { s with control := .stalled (stallMessage g s) }
  | ret {task : Task} {rest : List Task} (settled : Option Settlement)
      (control : s.control = .calling task rest)
      (given : ∀ settlement ∈ settled, gives task settlement) :
      Action sch g gives s (attach s task settled)
  | throwSync {task : Task} {rest : List Task} (message : String)
      (control : s.control = .calling task rest) :
      Action sch g gives s { s with control := .threw message }
  | resolve {task : Task} (settlement : Settlement) (member : task ∈ s.unsettled)
      (given : gives task settlement) :
      Action sch g gives s { s with unsettled := s.unsettled.erase task
                                    jobs := s.jobs ++ [.settle task settlement] }
  | abort (active : s.active = true) (first : s.aborted = false) : Action sch g gives s (abort s)
  | settle {task : Task} {settlement : Settlement} {rest : List Job}
      (outside : ∀ t r, s.control ≠ .calling t r)
      (jobs : s.jobs = .settle task settlement :: rest) :
      Action sch g gives s (settle { s with jobs := rest } task (settlement.outcome task))

theorem Action.mono {sch : Scheduler} {g : TaskGraph} {gives gives' : Task → Settlement → Prop}
    {s t : RunState} (wider : ∀ task settlement, gives task settlement → gives' task settlement)
    (action : Action sch g gives s t) : Action sch g gives' s t := by
  cases action with
  | resume control jobs => exact .resume control jobs
  | cancel reason control member pending edge failed =>
      exact .cancel reason control member pending edge failed
  | observe control => exact .observe control
  | start control going launchable capacity idle =>
      exact .start control going launchable capacity idle
  | wait control busy going unaborted => exact .wait control busy going unaborted
  | leave control done => exact .leave control done
  | stall control idle incomplete going unaborted =>
      exact .stall control idle incomplete going unaborted
  | ret settled control given =>
      exact .ret settled control fun settlement h => wider _ settlement (given settlement h)
  | throwSync message control => exact .throwSync message control
  | resolve settlement member given => exact .resolve settlement member (wider _ settlement given)
  | abort active first => exact .abort active first
  | settle outside jobs => exact .settle outside jobs

variable {sch : Scheduler} {g : TaskGraph} {gives : Task → Settlement → Prop} {s t : RunState}

@[simp] theorem stoppedNow_control (s : RunState) : (stoppedNow s).control = s.control := rfl

@[simp] theorem stoppedNow_status (s : RunState) : (stoppedNow s).status = s.status := rfl

@[simp] theorem stoppedNow_running (s : RunState) : (stoppedNow s).running = s.running := rfl

@[simp] theorem stoppedNow_stopped (s : RunState) :
    (stoppedNow s).stopped = (s.stopped || s.aborted) := rfl

@[simp] theorem stoppedNow_aborted (s : RunState) : (stoppedNow s).aborted = s.aborted := rfl

/-- What no cancellation changes, the pass does not change. -/
theorem cascade_keeps {α : Type} (read : RunState → α)
    (keep : ∀ s task reason, read (cancelBlocked s task reason) = read s) (g : TaskGraph)
    (s : RunState) : read (cascade g s) = read s := by
  rw [cascade]
  generalize g.tasks = l
  induction l generalizing s with
  | nil => rfl
  | cons task l ih =>
      rw [List.foldl_cons, ih, cascadeTask]
      split
      · rfl
      · split
        · rfl
        · exact keep s task _

@[simp] theorem cascade_control (g : TaskGraph) (s : RunState) :
    (cascade g s).control = s.control :=
  cascade_keeps RunState.control (fun _ _ _ => rfl) g s

theorem cascadeTask_control (g : TaskGraph) (s : RunState) (task : Task) :
    (cascadeTask g s task).control = s.control := by
  rw [cascadeTask]
  split
  · rfl
  · split <;> rfl

theorem cascadeTask_actions {task : Task} (control : s.control = .looping)
    (member : task ∈ g.tasks) :
    ReflTransGen (Action sch g gives) s (cascadeTask g s task) := by
  rw [cascadeTask]
  by_cases pending : s.status task.id = .pending
  · rw [if_neg (not_not.mpr pending)]
    cases found : task.dependsOn.find? (failedDep g s.status) with
    | none => exact .refl
    | some dep =>
        exact .single (.cancel _ control member pending (List.mem_of_find?_eq_some found)
          (List.find?_some found))
  · rw [if_pos pending]

theorem cascade_actions (control : s.control = .looping) :
    ReflTransGen (Action sch g gives) s (cascade g s) := by
  have fold : ∀ (l : List Task) (s : RunState), s.control = .looping →
      (∀ task ∈ l, task ∈ g.tasks) →
      ReflTransGen (Action sch g gives) s (l.foldl (cascadeTask g) s) := by
    intro l
    induction l with
    | nil => exact fun s _ _ => .refl
    | cons task l ih =>
        intro s control members
        refine (cascadeTask_actions control (members task (by simp))).trans ?_
        exact ih _ ((cascadeTask_control g s task).trans control) fun t ht =>
          members t (by simp [ht])
  exact fold g.tasks s control fun _ h => h

theorem conclude_actions (control : s.control = .looping) :
    ReflTransGen (Action sch g gives) s (conclude g s) := by
  have observed : ReflTransGen (Action sch g gives) s (stoppedNow s) := .single (.observe control)
  rw [conclude]
  by_cases idle : s.running = ∅
  · rw [if_pos idle]
    by_cases complete : g.isComplete s.status = true
    · rw [if_pos complete]
      exact .single (.leave control (.inl ⟨idle, complete⟩))
    · rw [if_neg complete]
      dsimp only
      by_cases stopping : (stoppedNow s).stopped = true
      · rw [if_pos stopping]
        exact observed.tail (.leave control (.inr stopping))
      · obtain ⟨-, unaborted⟩ := Bool.or_eq_false_iff.mp (Bool.not_eq_true _ ▸ stopping)
        rw [if_neg stopping]
        exact observed.tail (.stall control idle (by simpa using complete)
          (by simpa using stopping) unaborted)
  · rw [if_neg idle]
    dsimp only
    by_cases stopping : (stoppedNow s).stopped = true
    · rw [if_pos stopping]
      exact observed.tail (.leave control (.inr stopping))
    · obtain ⟨-, unaborted⟩ := Bool.or_eq_false_iff.mp (Bool.not_eq_true _ ▸ stopping)
      rw [if_neg stopping]
      exact observed.tail (.wait control idle (by simpa using stopping) unaborted)

theorem launch_actions {rest : List Task} (control : s.control = .looping)
    (going : s.stopped = false) (launchable : Launchable g s.status rest) :
    ReflTransGen (Action sch g gives) s (launch sch g rest s) := by
  induction rest with
  | nil => exact conclude_actions control
  | cons task rest ih =>
      rw [launch]
      by_cases full : sch.atCapacity s = true
      · rw [if_pos full]
        exact conclude_actions control
      · rw [if_neg full]
        by_cases busy : task.agentId ∈ s.busyAgents
        · rw [if_pos busy]
          exact ih launchable.tail
        · rw [if_neg busy]
          exact .single (.start control going launchable (by simpa using full) busy)

theorem iterate_actions (control : s.control = .looping) :
    ReflTransGen (Action sch g gives) s (iterate sch g s) := by
  have control' : (cascade g s).control = .looping := by simpa using control
  have observed : ReflTransGen (Action sch g gives) s (stoppedNow (cascade g s)) :=
    (cascade_actions control).tail (.observe control')
  rw [iterate]
  by_cases stopping : (stoppedNow (cascade g s)).stopped = true
  · simp only [stopping, if_true]
    exact observed.trans (conclude_actions control')
  · simp only [stopping]
    exact observed.trans (launch_actions control' (by simpa using stopping)
      (launchable_ready g _))

/-- The transition of each event, with the condition under which it is enabled. -/
inductive Transition (sch : Scheduler) (g : TaskGraph) (s : RunState) : Event → RunState → Prop
  | ret {task : Task} {rest : List Task} (settled : Option Settlement)
      (control : s.control = .calling task rest) :
      Transition sch g s (.ret settled) (launch sch g rest (attach s task settled))
  | throwSync {task : Task} {rest : List Task} (message : String)
      (control : s.control = .calling task rest) :
      Transition sch g s (.throwSync message) { s with control := .threw message }
  | resolve {task : Task} (settlement : Settlement) (member : task ∈ s.unsettled) :
      Transition sch g s (.resolve task.id settlement)
        { s with unsettled := s.unsettled.erase task, jobs := s.jobs ++ [.settle task settlement] }
  | abort (active : s.active = true) (first : s.aborted = false) :
      Transition sch g s .abort (abort s)
  | settle {task : Task} {settlement : Settlement} {rest : List Job}
      (outside : ∀ t r, s.control ≠ .calling t r)
      (jobs : s.jobs = .settle task settlement :: rest) :
      Transition sch g s .tick (settle { s with jobs := rest } task (settlement.outcome task))
  | resume {rest : List Job} (outside : ∀ t r, s.control ≠ .calling t r)
      (jobs : s.jobs = .resume :: rest) :
      Transition sch g s .tick (iterate sch g { s with jobs := rest, control := .looping })

theorem Transition.of_step {e : Event} (transition : Scheduler.step sch g s e = some t) :
    Transition sch g s e t := by
  cases e with
  | ret settled =>
      cases control : s.control <;> simp only [step, control, reduceCtorEq] at transition
      cases transition
      exact .ret settled control
  | throwSync message =>
      cases control : s.control <;> simp only [step, control, reduceCtorEq] at transition
      cases transition
      exact .throwSync message control
  | resolve id settlement =>
      cases found : s.unsettled.find? fun task => task.id = id with
      | none => simp [step, found] at transition
      | some task =>
          simp only [step, found, Option.some.injEq] at transition
          subst transition
          obtain rfl : task.id = id := by simpa using List.find?_some found
          exact .resolve settlement (List.mem_of_find?_eq_some found)
  | abort =>
      simp only [step, Option.ite_none_right_eq_some, Bool.and_eq_true, Bool.not_eq_true',
        Option.some.injEq] at transition
      obtain ⟨⟨active, first⟩, rfl⟩ := transition
      exact .abort active first
  | tick =>
      have outside : ∀ task rest, s.control ≠ .calling task rest := by
        intro task rest control
        simp [step, control] at transition
      simp only [step] at transition
      split at transition
      · cases transition
      · cases transition
      · cases transition
        exact .settle outside ‹_›
      · cases transition
        exact .resume outside ‹_›

/-- What a state must promise for the next event to consist of actions. -/
structure Open (g : TaskGraph) (s : RunState) : Prop where
  launchable : ∀ task rest, s.control = .calling task rest →
    Launchable g s.status rest ∧ s.stopped = false
  resume : .resume ∈ s.jobs → s.control = .waiting

/-- The promise that the event settles, if any, settles as `gives` allows. -/
def Event.Given (gives : Task → Settlement → Prop) (s : RunState) : Event → Prop
  | .ret settled => ∀ task rest, s.control = .calling task rest →
      ∀ settlement ∈ settled, gives task settlement
  | .resolve id settlement => ∀ task ∈ s.unsettled, task.id = id → gives task settlement
  | .throwSync _ | .abort | .tick => True

theorem step_actions {e : Event} (ready : Open g s) (given : e.Given gives s)
    (transition : step sch g s e = some t) : TransGen (Action sch g gives) s t := by
  cases Transition.of_step transition with
  | @ret task rest settled control =>
      obtain ⟨launchable, going⟩ := ready.launchable task rest control
      have first : Action sch g gives s (attach s task settled) :=
        .ret settled control (given task rest control)
      refine TransGen.head' first (launch_actions ?_ ?_ ?_)
      all_goals cases settled <;> simp [attach, going, launchable]
  | throwSync message control => exact .single (.throwSync message control)
  | resolve settlement member => exact .single (.resolve settlement member (given _ member rfl))
  | abort active first => exact .single (.abort active first)
  | settle outside jobs => exact .single (.settle outside jobs)
  | resume outside jobs =>
      have waiting := ready.resume (by rw [jobs]; exact List.mem_cons_self)
      exact TransGen.head' (.resume waiting jobs) (iterate_actions rfl)

end MultiAgent.Native.Scheduler
