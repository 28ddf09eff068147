import MultiAgent.Plugin.Scheduler.Dependencies

/-!
# What a run of the scheduler delivers

Where `run_task` returns no `TaskResult` of its own, a run that returns has one terminal result
for each task of its plan and no other, under the name of the agent of the task; what is
skipped has a dependency without success, and nothing else has (`delivered_of_returned`). The
invariant `Signed` follows the names through a run.
-/

namespace MultiAgent.Plugin.TaskScheduler

variable {α : Type} {scheduler : TaskScheduler} {deadline : Option ℚ} {plan : TaskPlan}
  {status : String → TaskStatus} {s t : RunState α} {onEvent : OnEvent α} {task : Task}
  {result : TaskResult α} {rest : List Task} {es : List (Event α)}

/-- A result under its own id and the agent of its task. -/
structure Signs (task : Task) (result : TaskResult α) : Prop where
  own : result.taskId = task.id
  agent : result.agent = task.agent

/-- Every result is signed for a task of the plan. -/
structure Signed (plan : TaskPlan) (s : RunState α) : Prop where
  pending : ∀ task ∈ s.pending, task ∈ plan.tasks
  running : ∀ state ∈ s.running, state.task ∈ plan.tasks
  results : ∀ id result, s.results.get? id = some result →
    ∃ task ∈ plan.tasks, task.id = id ∧ Signs task result

/-- No completion of the event is a `TaskResult`. -/
def Answering : Event α → Prop
  | .pass _ => True
  | .wake wake => ∀ done ∈ wake.done, ∀ result, done.completion ≠ .returned (.result result)

namespace Signed

theorem start : Signed plan (start plan status : RunState α) where
  pending := fun _ member => member
  running := fun _ member => absurd member List.not_mem_nil
  results := by
    intro id result found
    cases found

theorem record (signed : Signed plan s) (known : task ∈ plan.tasks) (signs : Signs task result) :
    Signed plan (s.record onEvent task result) := by
  refine ⟨signed.pending, signed.running, ?_⟩
  intro id kept found
  rw [RunState.record, Dict.get?_set] at found
  split at found
  · rename_i same
    cases found
    exact ⟨task, known, signs.own.symm.trans same.symm, signs⟩
  · exact signed.results id kept found

theorem dropPending (signed : Signed plan s) : Signed plan (s.dropPending task) :=
  ⟨fun other member => signed.pending other (List.mem_filter.mp member).1, signed.running,
    signed.results⟩

theorem dropRunning {id : String} (signed : Signed plan s) : Signed plan (s.dropRunning id) :=
  ⟨signed.pending, fun state member => signed.running state (List.mem_filter.mp member).1,
    signed.results⟩

/-- Only the tables and the results are read. -/
theorem restate (signed : Signed plan s) (pending : t.pending = s.pending)
    (running : t.running = s.running) (results : t.results = s.results) : Signed plan t := by
  refine ⟨?_, ?_, ?_⟩
  · rw [pending]
    exact signed.pending
  · rw [running]
    exact signed.running
  · rw [results]
    exact signed.results

end Signed

/-- The operation keeps the signatures, whether it returns or raises. -/
abbrev KeepsSigned (plan : TaskPlan) (x : Program α Unit) : Prop :=
  Triple (Signed plan) x (fun _ => Signed plan) fun _ => Signed plan

/-- A loop over tasks or futures, each with what is known of it. -/
theorem keepsSigned_forM {β : Type} {f : β → Program α Unit} {known : β → Prop} (l : List β)
    (all : ∀ b ∈ l, known b) (body : ∀ b, known b → KeepsSigned plan (f b)) :
    KeepsSigned plan (forM l f) := by
  induction l with
  | nil => exact Triple.pure fun _ signed => signed
  | cons b rest ih =>
      obtain ⟨here, later⟩ := List.forall_mem_cons.mp all
      exact Triple.bind (body b here) fun _ => ih later

section Operations

theorem finish_signed (known : task ∈ plan.tasks) (signs : Signs task result) :
    KeepsSigned plan (finish onEvent task result) :=
  finish_spec (fun _ signed => signed.record known signs) fun _ _ signed _ =>
    signed.record known signs

theorem skipTask_signed (known : task ∈ plan.tasks) :
    KeepsSigned plan (skipTask onEvent task : Program α Unit) :=
  skipTask_rule (fun _ signed _ => signed)
    (fun _ _ signed _ _ => (signed.record known ⟨rfl, rfl⟩).dropPending)
    fun _ _ _ signed _ => signed.record known ⟨rfl, rfl⟩

theorem skipBlocked_signed : KeepsSigned plan (skipBlocked onEvent : Program α Unit) :=
  Triple.get fun s signed => (keepsSigned_forM s.pending signed.pending
    fun _ => skipTask_signed).of_entry signed

theorem launchTask_signed {now : ℚ} {submit : Task → Submission} (known : task ∈ plan.tasks) :
    KeepsSigned plan (launchTask scheduler deadline now submit onEvent task) := by
  refine Triple.bind (R := fun _ => Signed plan)
    (Triple.assign fun _ signed => signed.restate rfl rfl rfl) fun _ => ?_
  cases submit task with
  | accepted started =>
      refine Triple.assign fun s signed => ⟨signed.dropPending.pending, ?_, signed.results⟩
      exact List.forall_mem_append.mpr ⟨signed.running, List.forall_mem_singleton.mpr known⟩
  | saturated =>
      exact settle_spec (fun _ signed => (signed.record known ⟨rfl, rfl⟩).dropPending)
        fun _ _ signed _ => signed.record known ⟨rfl, rfl⟩
  | failed text => exact Triple.throw fun _ signed => signed

theorem launchLoop_signed {now : ℚ} {submit : Task → Submission}
    (known : ∀ task ∈ rest, task ∈ plan.tasks) :
    KeepsSigned plan (launchLoop scheduler deadline now submit onEvent rest) := by
  induction rest with
  | nil => exact Triple.pure fun _ signed => signed
  | cons task rest ih =>
      obtain ⟨here, later⟩ := List.forall_mem_cons.mp known
      refine Triple.get fun s signed =>
        Triple.ite (fun _ => Triple.pure ?_) fun _ => Triple.ite (fun _ => ?_) fun _ => ?_
      · rintro _ rfl
        exact signed
      · exact Triple.bind ((launchTask_signed here).of_entry signed) fun _ => ih later
      · exact (ih later).of_entry signed

theorem launchReady_signed {now : ℚ} {submit : Task → Submission} :
    KeepsSigned plan (launchReady scheduler deadline now submit onEvent) :=
  Triple.ite (fun _ => Triple.throw fun _ signed => signed) fun _ =>
    Triple.get fun _ signed => (launchLoop_signed signed.pending).of_entry signed

theorem signs_collected {elapsed : ℚ} {completion : Completion α}
    (answering : ∀ result, completion ≠ .returned (.result result)) :
    Signs task (collected task elapsed completion) := by
  cases completion with
  | raised exception => cases exception <;> exact ⟨rfl, rfl⟩
  | returned output =>
      cases output with
      | result result => exact absurd rfl (answering result)
      | error text isText => exact ⟨rfl, rfl⟩
      | value output => exact ⟨rfl, rfl⟩

theorem collect_signed {done : Done α}
    (answering : ∀ result, done.completion ≠ .returned (.result result)) :
    KeepsSigned plan (collect onEvent done) := by
  intro s signed
  cases found : s.running.find? fun state => state.task.id = done.taskId with
  | none =>
      rw [collect_of_absent found]
      exact signed
  | some state =>
      have known := signed.running state (List.mem_of_find?_eq_some found)
      rw [collect_eq found]
      cases escaping done.completion with
      | some e => exact signed.dropRunning
      | none => exact finish_signed known (signs_collected answering) _ signed.dropRunning

theorem expire_signed {now : ℚ} : KeepsSigned plan (expire onEvent now : Program α Unit) := by
  refine Triple.get fun s signed => (keepsSigned_forM s.running signed.running ?_).of_entry signed
  intro state known
  refine Triple.ite (fun _ => ?_) fun _ => Triple.pure fun _ signed => signed
  exact Triple.bind (finish_signed known ⟨rfl, rfl⟩) fun _ =>
    Triple.assign fun _ signed => signed.dropRunning

theorem conclude_signed {after : ℚ} : KeepsSigned plan (conclude deadline after : Program α Unit) :=
  Triple.get fun _ signed => Triple.ite (fun _ => Triple.throw (by rintro _ rfl; exact signed))
    fun _ => Triple.assign fun _ same => signed.restate rfl rfl rfl

theorem passBody_signed {pass : Pass α} : KeepsSigned plan (passBody scheduler deadline pass) := by
  refine Triple.get fun s signed =>
    Triple.ite (fun _ => conclude_signed.of_entry signed) fun _ => ?_
  refine Triple.bind (skipBlocked_signed.of_entry signed) fun _ => ?_
  refine Triple.bind launchReady_signed fun _ => Triple.get fun t signed => ?_
  refine Triple.ite (fun _ => Triple.ite (fun _ => conclude_signed.of_entry signed) fun _ => ?_)
    fun _ => Triple.assign fun _ _ => signed.restate rfl rfl rfl
  exact Triple.throw (by rintro _ rfl; exact signed)

theorem wakeBody_signed {wake : Wake α} (answering : Answering (.wake wake)) :
    KeepsSigned plan (wakeBody wake) := by
  have resumed : KeepsSigned plan
      (modify fun s => { s with control := .looping } : Program α Unit) :=
    Triple.assign fun _ signed => ⟨signed.pending, signed.running, signed.results⟩
  refine Triple.bind (keepsSigned_forM wake.done answering fun _ => collect_signed) fun _ => ?_
  exact Triple.ite (fun _ => Triple.bind expire_signed fun _ => resumed) fun _ => resumed

theorem abort_signed : KeepsSigned plan (abort onEvent : Program α Unit) := by
  refine Triple.get fun s signed => Triple.bind ?_ fun _ =>
    keepsSigned_forM s.pending signed.pending fun _ known => finish_signed known ⟨rfl, rfl⟩
  refine (keepsSigned_forM (s.running.map Running.task) ?_ fun _ known =>
    finish_signed known ⟨rfl, rfl⟩).of_entry signed
  intro task member
  obtain ⟨state, here, rfl⟩ := List.mem_map.mp member
  exact signed.running state here

theorem signed_step {event : Event α} (answering : Answering event) (signed : Signed plan s)
    (taken : step scheduler deadline s event = some t) : Signed plan t := by
  have handler (e : PyException) : Triple (Signed plan) (abort event.onEvent)
      (fun _ u => Signed plan { u with control := .raised e u.results })
      fun e' u => Signed plan { u with control := .raised e' .empty } :=
    abort_signed.conseq (fun _ signed => signed) (fun _ _ signed => signed.restate rfl rfl rfl)
      fun _ _ signed => signed.restate rfl rfl rfl
  cases event with
  | pass pass =>
      obtain ⟨-, rfl⟩ := step_pass taken
      exact guarded_spec passBody_signed handler signed
  | wake wake =>
      obtain ⟨-, -, rfl⟩ := step_wake taken
      exact guarded_spec (wakeBody_signed answering) handler signed

end Operations

/-- What the results of a run say about a task of its plan. -/
structure Delivers (results : Dict String (TaskResult α)) (task : Task) (result : TaskResult α) :
    Prop where
  signs : Signs task result
  terminal : result.status.isTerminal = true
  skipped : result.status = .skipped ↔ ∃ dep ∈ task.dependsOn, ¬ Succeeded results dep

/-- The results are those of the tasks of the plan. -/
structure Delivered (plan : TaskPlan) (results : Dict String (TaskResult α)) : Prop where
  keys : results.keys.Perm plan.ids
  each : ∀ task ∈ plan.tasks, ∃ result, results.get? task.id = some result ∧
    Delivers results task result

theorem Ledger.delivered (ledger : Ledger plan True False s) (signed : Signed plan s)
    (pending : s.pending = []) (running : s.running = []) : Delivered plan s.results := by
  have keys : s.results.keys.Perm plan.ids := by
    have places := ledger.places
    rwa [RunState.places, pending, running, List.map_nil, List.map_nil, List.append_nil,
      List.append_nil] at places
  refine ⟨keys, fun task known => ?_⟩
  obtain ⟨result, found⟩ := Dict.mem_keys_iff.mp
    (keys.symm.subset (TaskPlan.mem_ids.mpr ⟨task, known, rfl⟩))
  obtain ⟨other, member, same, signs⟩ := signed.results task.id result found
  obtain rfl := TaskPlan.eq_of_id_eq member known same
  have verdict := ledger.verdict other known result found
  refine ⟨result, found, signs, ledger.terminal trivial other.id result found, ?_⟩
  by_cases skip : result.status = .skipped
  · rw [Verdict, if_pos skip] at verdict
    have blocked := verdict.not_isReady
    rw [isReady_iff] at blocked
    exact iff_of_true skip (by simpa using blocked)
  · rw [Verdict, if_neg skip] at verdict
    refine iff_of_false skip ?_
    rintro ⟨dep, edge, unsuccessful⟩
    exact unsuccessful (isReady_iff.mp verdict dep edge)

theorem Answering.fair {event : Event α} (answering : Answering event) : Fair True False event where
  names := by
    rintro wake rfl done member result returned
    exact absurd returned (answering done member result)
  callback := False.elim

/-- A run that returns has delivered. -/
theorem delivered_of_returned {results : Dict String (TaskResult α)}
    (answering : ∀ event ∈ es, Answering event)
    (execution : (machine scheduler deadline).run (start plan status) es = some s)
    (returned : execute s = some (.ok results)) : Delivered plan results := by
  have ends := Machine.run_invariant_of_meets
    (P := fun u => Booked plan True False u ∧ Signed plan u)
    (fun u event v before answering taken =>
      ⟨booked_step answering.fair before.1 taken, signed_step answering before.2 taken⟩)
    ⟨(Ledger.start plan status).booked rfl, .start⟩
    (Machine.meets_of_mem (fun event member _ => answering event member) _) execution
  obtain ⟨booked, signed⟩ := ends
  have control : s.control = .returned results := by
    unfold execute at returned
    cases control : s.control <;> simp [control] at returned
    rw [returned]
  unfold Booked at booked
  rw [control] at booked
  obtain ⟨rfl, ledger, pending, running⟩ := booked
  exact ledger.delivered signed pending running

end MultiAgent.Plugin.TaskScheduler
