import MultiAgent.Native.Planner.Accepted

/-!
# What one round of repair leaves

The findings of an accepted plan are the warnings of its tasks. The repair layer reads them
back by code and task id, and drops from each task the fields that the warnings of this task
are about, so a second validation finds nothing. In the last section the tasks are objects
that can be written to, and the repair writes to its own clones only.
-/

namespace MultiAgent.Native

namespace PlanTask

variable (agents : List AgentDescriptor) (task : PlanTask)

/-- The task names an agent that is not in the pool. -/
def NamesUnknown : Prop :=
  ∃ agentId, task.agentId = some agentId ∧ agentId ∉ agents.map AgentDescriptor.id

/-- The task requires capabilities that no agent of the pool holds together. -/
def Unsupported : Prop :=
  ∃ required, task.requiredCapabilities = some required ∧ required ≠ [] ∧
    (agents.any fun agent => agent.holds required) = false

/-- The findings on a task that passes the hard checks. -/
def warnings : List PlanIssue :=
  (PlanValidator.checkCapabilities agents task
    (PlanValidator.checkAgent agents task ⟨[], false, []⟩)).issues

/-- The task without the fields that the fix drops. -/
def cleared (fix : Fix) : PlanTask :=
  { task with
    agentId := if fix.dropAgent then none else task.agentId
    requiredCapabilities := if fix.dropCaps then none else task.requiredCapabilities }

end PlanTask

/-- The issues hold a finding of the code on the task id. -/
def Flags (code : PlanIssueCode) (id : String) (issues : List PlanIssue) : Prop :=
  ∃ issue ∈ issues, issue.code = code ∧ issue.taskId = some id

instance (code : PlanIssueCode) (id : String) (issues : List PlanIssue) :
    Decidable (Flags code id issues) :=
  inferInstanceAs (Decidable (∃ issue ∈ issues, _))

theorem flags_append {code : PlanIssueCode} {id : String} {issues more : List PlanIssue} :
    Flags code id (issues ++ more) ↔ Flags code id issues ∨ Flags code id more := by
  simp only [Flags, List.mem_append, or_and_right, exists_or]

namespace PlanValidator

variable {agents : List AgentDescriptor} {idSet : List String} {task : PlanTask} {f : Findings}

theorem checkAgent_issues : (checkAgent agents task f).issues =
    f.issues ++ (checkAgent agents task ⟨[], false, []⟩).issues := by
  unfold checkAgent
  split
  · split
    · simp
    · simp [Findings.warn]
  · simp

theorem checkCapabilities_issues : (checkCapabilities agents task f).issues =
    f.issues ++ (checkCapabilities agents task ⟨[], false, []⟩).issues := by
  unfold checkCapabilities
  split
  · split
    · simp [Findings.warn]
    · simp
  · simp

theorem warnings_eq : task.warnings agents =
    (checkAgent agents task ⟨[], false, []⟩).issues ++
      (checkCapabilities agents task ⟨[], false, []⟩).issues := checkCapabilities_issues

theorem checkDependencies_eq {deps : List String}
    (sound : ∀ dep ∈ deps, dep ≠ task.id ∧ dep ∈ idSet) :
    deps.foldl (checkDependency idSet task) f = f := by
  induction deps with
  | nil => rfl
  | cons dep deps ih =>
      obtain ⟨⟨other, known⟩, rest⟩ := List.forall_mem_cons.mp sound
      have here : checkDependency idSet task f dep = f := by
        simp [checkDependency, other, known]
      rw [List.foldl_cons, here, ih rest]

theorem checkTask_issues (passed : (checkTask agents idSet f task).anyError = false) :
    (checkTask agents idSet f task).issues = f.issues ++ task.warnings agents := by
  obtain ⟨-, fresh, sound⟩ := checkTask_anyError.mp passed
  simp only [checkTask, sound.id, sound.prompt, fresh, if_false, Bool.false_eq_true]
  rw [checkDependencies_eq sound.dependsOn, checkCapabilities_issues, checkAgent_issues,
    warnings_eq, List.append_assoc]

theorem checkTasks_issues {tasks : List PlanTask}
    (passed : (tasks.foldl (checkTask agents idSet) f).anyError = false) :
    (tasks.foldl (checkTask agents idSet) f).issues =
      f.issues ++ tasks.flatMap (PlanTask.warnings agents) := by
  induction tasks generalizing f with
  | nil => simp
  | cons task tasks ih =>
      rw [List.foldl_cons] at passed ⊢
      have here := ((checkTasks_anyError _ tasks).mp passed).1
      rw [ih passed, checkTask_issues here, List.flatMap_cons, List.append_assoc]

/-- The findings of an accepted plan are the warnings of its tasks, in order. -/
theorem findings_issues {plan : PlannerPlan} (accepted : plan.Accepted) :
    (findings agents plan.tasks).issues = plan.tasks.flatMap (PlanTask.warnings agents) := by
  have clean := (findings_anyError agents plan.tasks).mpr
    ⟨accepted.sound, accepted.distinct, accepted.acyclic⟩
  simp only [findings, accepted.acyclic, ne_eq, not_true_eq_false, if_false] at clean ⊢
  rw [checkTasks_issues clean, List.nil_append]

theorem agent_warning :
    (¬ task.NamesUnknown agents ∧ (checkAgent agents task ⟨[], false, []⟩).issues = []) ∨
      (task.NamesUnknown agents ∧ ∃ message, (checkAgent agents task ⟨[], false, []⟩).issues =
        [⟨.warning, .unknownAgent, message, some task.id⟩]) := by
  rw [checkAgent, PlanTask.NamesUnknown]
  cases task.agentId with
  | none => exact .inl ⟨by simp, rfl⟩
  | some agentId =>
      by_cases known : agentId ∈ agents.map AgentDescriptor.id
      · refine .inl ⟨?_, by simp only [if_pos known]⟩
        rintro ⟨other, same, unknown⟩
        cases same
        exact unknown known
      · exact .inr ⟨⟨agentId, rfl, known⟩, _, by simp only [if_neg known]; rfl⟩

theorem capability_warning :
    (¬ task.Unsupported agents ∧ (checkCapabilities agents task ⟨[], false, []⟩).issues = []) ∨
      (task.Unsupported agents ∧ ∃ message,
        (checkCapabilities agents task ⟨[], false, []⟩).issues =
          [⟨.warning, .unsupportedCapability, message, some task.id⟩]) := by
  rw [checkCapabilities, PlanTask.Unsupported]
  cases task.requiredCapabilities with
  | none => exact .inl ⟨by simp, rfl⟩
  | some required =>
      by_cases unmet : required ≠ [] ∧ (agents.any fun agent => agent.holds required) = false
      · exact .inr ⟨⟨required, rfl, unmet⟩, _, by simp only [if_pos unmet]; rfl⟩
      · refine .inl ⟨?_, by simp only [if_neg unmet]⟩
        rintro ⟨other, same, unsupported⟩
        cases same
        exact unmet unsupported

theorem flags_agent :
    Flags .unknownAgent task.id (task.warnings agents) ↔ task.NamesUnknown agents := by
  rw [warnings_eq, flags_append]
  obtain ⟨known, agent⟩ | ⟨unknown, message, agent⟩ := @agent_warning agents task <;>
    obtain ⟨-, capabilities⟩ | ⟨-, _, capabilities⟩ := @capability_warning agents task <;>
      simp [Flags, *]

theorem flags_capabilities :
    Flags .unsupportedCapability task.id (task.warnings agents) ↔ task.Unsupported agents := by
  rw [warnings_eq, flags_append]
  obtain ⟨-, agent⟩ | ⟨-, _, agent⟩ := @agent_warning agents task <;>
    obtain ⟨supported, capabilities⟩ | ⟨unsupported, _, capabilities⟩ :=
      @capability_warning agents task <;>
      simp [Flags, *]

theorem warnings_taskId {issue : PlanIssue} (listed : issue ∈ task.warnings agents) :
    issue.taskId = some task.id := by
  rw [warnings_eq, List.mem_append] at listed
  obtain first | second := listed
  · obtain ⟨-, none⟩ | ⟨-, message, one⟩ := @agent_warning agents task
    · rw [none] at first
      cases first
    · rw [one, List.mem_singleton] at first
      rw [first]
  · obtain ⟨-, none⟩ | ⟨-, message, one⟩ := @capability_warning agents task
    · rw [none] at second
      cases second
    · rw [one, List.mem_singleton] at second
      rw [second]

theorem warnings_eq_nil (known : ¬ task.NamesUnknown agents)
    (supported : ¬ task.Unsupported agents) : task.warnings agents = [] := by
  obtain ⟨-, agent⟩ | ⟨unknown, -⟩ := @agent_warning agents task
  · obtain ⟨-, capabilities⟩ | ⟨unsupported, -⟩ := @capability_warning agents task
    · rw [warnings_eq, agent, capabilities, List.append_nil]
    · exact absurd unsupported supported
  · exact absurd unknown known

/-- The findings on a task of an accepted plan are its own warnings. -/
theorem flags_findings {plan : PlannerPlan} (accepted : plan.Accepted) (member : task ∈ plan.tasks)
    (code : PlanIssueCode) :
    Flags code task.id (findings agents plan.tasks).issues ↔
      Flags code task.id (task.warnings agents) := by
  rw [findings_issues accepted]
  constructor
  · rintro ⟨issue, listed, coded, named⟩
    obtain ⟨other, planned, warned⟩ := List.mem_flatMap.mp listed
    have same : other.id = task.id := by
      have here := warnings_taskId warned
      rw [named, Option.some.injEq] at here
      exact here.symm
    have only := List.inj_on_of_nodup_map accepted.distinct planned member same
    exact ⟨issue, only ▸ warned, coded, named⟩
  · rintro ⟨issue, warned, coded, named⟩
    exact ⟨issue, List.mem_flatMap.mpr ⟨task, member, warned⟩, coded, named⟩

end PlanValidator

section Collected

variable {issues : List PlanIssue} {perTask : Dict String Fix} {id : String}

/-- The fix that the map holds for a task id. -/
def fixOf (perTask : Dict String Fix) (id : String) : Fix :=
  (perTask.get? id).getD ⟨false, false⟩

theorem fixOf_collectFix (issue : PlanIssue) :
    fixOf (collectFix perTask issue) id =
      ⟨(fixOf perTask id).dropAgent || decide (Flags .unknownAgent id [issue]),
        (fixOf perTask id).dropCaps || decide (Flags .unsupportedCapability id [issue])⟩ := by
  obtain ⟨severity, code, message, taskId⟩ := issue
  cases taskId with
  | none => simp [collectFix, Flags]
  | some taskId =>
      by_cases same : id = taskId
      · subst same
        cases code <;> simp [collectFix, repairableCodes, Flags, fixOf]
      · have apart : taskId ≠ id := fun equal => same equal.symm
        have kept : fixOf (collectFix perTask ⟨severity, code, message, some taskId⟩) id =
            fixOf perTask id := by
          rw [collectFix]
          dsimp only
          split
          · rfl
          · rw [fixOf, Dict.get?_set_of_ne same]
            rfl
        simp [kept, Flags, apart]

/-- The map of the repair layer records, for each task id, what its findings are about. -/
theorem fixOf_collected :
    fixOf (issues.foldl collectFix perTask) id =
      ⟨(fixOf perTask id).dropAgent || decide (Flags .unknownAgent id issues),
        (fixOf perTask id).dropCaps || decide (Flags .unsupportedCapability id issues)⟩ := by
  induction issues generalizing perTask with
  | nil => simp [Flags]
  | cons issue issues ih =>
      have split (code : PlanIssueCode) : decide (Flags code id (issue :: issues)) =
          (decide (Flags code id [issue]) || decide (Flags code id issues)) := by
        rw [← Bool.decide_or]
        exact decide_eq_decide.mpr (by rw [← flags_append, List.singleton_append])
      rw [List.foldl_cons, ih, fixOf_collectFix, split, split, Bool.or_assoc, Bool.or_assoc]

theorem repairTask_eq (task : PlanTask) :
    (repairTask perTask task).1 = task.cleared (fixOf perTask task.id) := by
  have agent (fix : Fix) : (dropAgent fix task).1 =
      { task with agentId := if fix.dropAgent then none else task.agentId } := by
    obtain ⟨id, prompt, agentId, requiredCapabilities, dependsOn, timeoutMs, metadata⟩ := task
    cases drop : fix.dropAgent <;> cases agentId <;> simp [dropAgent, drop]
  have capabilities (fix : Fix) (other : PlanTask) : (dropCapabilities fix other).1 =
      { other with
        requiredCapabilities := if fix.dropCaps then none else other.requiredCapabilities } := by
    obtain ⟨id, prompt, agentId, requiredCapabilities, dependsOn, timeoutMs, metadata⟩ := other
    cases drop : fix.dropCaps <;> cases requiredCapabilities <;> simp [dropCapabilities, drop]
  rw [repairTask, fixOf]
  cases perTask.get? task.id with
  | none => rfl
  | some fix =>
      dsimp only
      rw [capabilities, agent]
      rfl

end Collected

section Settled

variable {agents : List AgentDescriptor} {plan : PlannerPlan} {validated : ValidatedPlan}

/-- What the findings of the plan drop from one of its tasks. -/
def PlannerPlan.fixFor (agents : List AgentDescriptor) (plan : PlannerPlan) (task : PlanTask) :
    Fix :=
  fixOf ((PlanValidator.findings agents plan.tasks).issues.foldl collectFix Dict.empty) task.id

/-- The returned plan, task by task. -/
theorem validateAndRepair_eq (ends : PlanValidator.validateAndRepair agents plan = .ok validated) :
    plan.Accepted ∧ validated.issues = (PlanValidator.findings agents plan.tasks).issues ∧
      validated.plan = ⟨plan.tasks.map fun task => task.cleared (plan.fixFor agents task)⟩ := by
  obtain ⟨judged, first, rest⟩ := bind_eq_ok_iff.mp ends
  obtain ⟨accepted, rfl⟩ := PlanValidator.validate_eq_ok_iff.mp first
  refine ⟨accepted, ?_⟩
  rw [applyIssueRepairs] at rest
  dsimp only at rest
  split at rest
  · rename_i nothing
    split at nothing
    · rename_i empty
      simp only [pure, Except.pure, Except.ok.injEq] at rest
      subst rest
      refine ⟨rfl, ?_⟩
      have unfixed : ∀ task ∈ plan.tasks, task.cleared (plan.fixFor agents task) = task := by
        intro task _
        rw [PlannerPlan.fixFor, fixOf,
          Dict.get?_eq_none_iff.mpr (by rw [empty]; exact List.not_mem_nil)]
        rfl
      rw [List.map_congr_left unfixed, List.map_id']
    · cases nothing
  · rename_i repair found
    split at found
    · cases found
    · cases found
      simp only [pure, Except.pure, Except.ok.injEq] at rest
      subst rest
      refine ⟨rfl, ?_⟩
      rw [List.map_map]
      exact congrArg PlannerPlan.mk (List.map_congr_left fun task _ => repairTask_eq task)

theorem fixFor_dropAgent (accepted : plan.Accepted) {task : PlanTask} (member : task ∈ plan.tasks) :
    (plan.fixFor agents task).dropAgent = true ↔ task.NamesUnknown agents := by
  rw [← PlanValidator.flags_agent, ← PlanValidator.flags_findings accepted member,
    PlannerPlan.fixFor, fixOf_collected]
  exact decide_eq_true_iff

theorem fixFor_dropCaps (accepted : plan.Accepted) {task : PlanTask} (member : task ∈ plan.tasks) :
    (plan.fixFor agents task).dropCaps = true ↔ task.Unsupported agents := by
  rw [← PlanValidator.flags_capabilities, ← PlanValidator.flags_findings accepted member,
    PlannerPlan.fixFor, fixOf_collected]
  exact decide_eq_true_iff

/-- A task without the fields that its warnings are about has no warnings. -/
theorem warnings_cleared {task : PlanTask} {fix : Fix}
    (agent : fix.dropAgent = true ↔ task.NamesUnknown agents)
    (capabilities : fix.dropCaps = true ↔ task.Unsupported agents) :
    (task.cleared fix).warnings agents = [] := by
  apply PlanValidator.warnings_eq_nil
  · rintro ⟨agentId, named, unknown⟩
    rw [PlanTask.cleared] at named
    cases drop : fix.dropAgent with
    | true => simp [drop] at named
    | false =>
        have kept : task.agentId = some agentId := by simpa [drop] using named
        have dropped := agent.mpr ⟨agentId, kept, unknown⟩
        rw [drop] at dropped
        cases dropped
  · rintro ⟨required, named, unmet⟩
    rw [PlanTask.cleared] at named
    cases drop : fix.dropCaps with
    | true => simp [drop] at named
    | false =>
        have kept : task.requiredCapabilities = some required := by simpa [drop] using named
        have dropped := capabilities.mpr ⟨required, kept, unmet⟩
        rw [drop] at dropped
        cases dropped

theorem dependsOnOf_map {change : PlanTask → PlanTask} (id : ∀ task, (change task).id = task.id)
    (dependsOn : ∀ task, (change task).dependsOn = task.dependsOn) (tasks : List PlanTask) :
    PlanValidator.dependsOnOf (tasks.map change) = PlanValidator.dependsOnOf tasks := by
  funext name
  unfold PlanValidator.dependsOnOf
  rw [← List.map_reverse, List.find?_map]
  have same : (fun task => decide (task.id = name)) ∘ change =
      fun task : PlanTask => decide (task.id = name) := by
    funext task
    rw [Function.comp_apply, id]
  rw [same]
  cases tasks.reverse.find? fun task => decide (task.id = name) with
  | none => rfl
  | some task => simp [dependsOn]

/-- The hard checks do not read agents or capabilities. -/
theorem PlannerPlan.Accepted.map {change : PlanTask → PlanTask} (accepted : plan.Accepted)
    (kept : ∀ task : PlanTask, task.Repaired (change task)) :
    (PlannerPlan.mk (plan.tasks.map change)).Accepted := by
  have ids : (PlannerPlan.mk (plan.tasks.map change)).ids = plan.ids := by
    rw [PlannerPlan.ids, PlannerPlan.ids, List.map_map]
    exact List.map_congr_left fun task _ => (kept task).id
  refine ⟨?_, ?_, ?_, ?_⟩
  · rw [ne_eq, List.map_eq_nil_iff]
    exact accepted.nonempty
  · rw [ids]
    exact accepted.distinct
  · intro other member
    obtain ⟨task, planned, rfl⟩ := List.mem_map.mp member
    obtain ⟨named, prompted, depends⟩ := accepted.sound task planned
    rw [ids]
    refine ⟨(kept task).id ▸ named, (kept task).prompt ▸ prompted, ?_⟩
    rw [(kept task).dependsOn, (kept task).id]
    exact depends
  · have acyclic := accepted.acyclic
    rw [PlanValidator.findCycle] at acyclic ⊢
    rw [dependsOnOf_map (fun task => (kept task).id) fun task => (kept task).dependsOn]
    rw [PlannerPlan.ids, PlannerPlan.ids] at ids
    rwa [ids]

theorem PlanTask.cleared_repaired (task : PlanTask) (fix : Fix) :
    task.Repaired (task.cleared fix) :=
  ⟨rfl, rfl, rfl, rfl, rfl⟩

/-- A returned plan is accepted, and nothing is found on it. -/
theorem validate_repaired (ends : PlanValidator.validateAndRepair agents plan = .ok validated) :
    PlanValidator.validate agents validated.plan = .ok ⟨validated.plan, [], false⟩ := by
  obtain ⟨accepted, -, repaired⟩ := validateAndRepair_eq ends
  have again : validated.plan.Accepted := by
    rw [repaired]
    exact accepted.map fun task => task.cleared_repaired _
  have silent : (PlanValidator.findings agents validated.plan.tasks).issues = [] := by
    rw [PlanValidator.findings_issues again, repaired, List.flatMap_eq_nil_iff]
    intro other member
    obtain ⟨task, planned, rfl⟩ := List.mem_map.mp member
    exact warnings_cleared (fixFor_dropAgent accepted planned) (fixFor_dropCaps accepted planned)
  exact PlanValidator.validate_eq_ok_iff.mpr ⟨again, by rw [silent]⟩

theorem validateAndRepair_of_silent
    (silent : PlanValidator.validate agents plan = .ok ⟨plan, [], false⟩) :
    PlanValidator.validateAndRepair agents plan = .ok ⟨plan, [], false⟩ := by
  rw [PlanValidator.validateAndRepair, silent]
  rfl

/-- What a repair may change about a task: a field that a finding on the task is about is
absent behind it. -/
structure PlanTask.RepairedBy (issues : List PlanIssue) (task other : PlanTask) : Prop
    extends PlanTask.Repaired task other where
  agentId : other.agentId = task.agentId ∨
    (other.agentId = none ∧ Flags .unknownAgent task.id issues)
  requiredCapabilities : other.requiredCapabilities = task.requiredCapabilities ∨
    (other.requiredCapabilities = none ∧ Flags .unsupportedCapability task.id issues)

theorem repairedBy_of_ok (ends : PlanValidator.validateAndRepair agents plan = .ok validated) :
    List.Forall₂ (PlanTask.RepairedBy validated.issues) plan.tasks validated.plan.tasks := by
  obtain ⟨accepted, issues, repaired⟩ := validateAndRepair_eq ends
  rw [repaired, List.forall₂_map_right_iff]
  apply List.forall₂_same.mpr
  intro task member
  have fix : plan.fixFor agents task = ⟨decide (Flags .unknownAgent task.id validated.issues),
      decide (Flags .unsupportedCapability task.id validated.issues)⟩ := by
    rw [PlannerPlan.fixFor, fixOf_collected, issues]
    rfl
  refine ⟨task.cleared_repaired _, ?_, ?_⟩
  · rw [fix, PlanTask.cleared]
    by_cases flagged : Flags .unknownAgent task.id validated.issues <;> simp [flagged]
  · rw [fix, PlanTask.cleared]
    by_cases flagged : Flags .unsupportedCapability task.id validated.issues <;> simp [flagged]

end Settled

section Objects

/-! ### The repair of task objects

A heap of task objects, addressed by position. A plan lists the addresses of its tasks, and
the steps that write are those of `stripField`. -/

/-- `stripField`: the clone is a new object, and the field is deleted from the clone. -/
def stripField (delete : PlanTask → PlanTask) (heap : List PlanTask) (ref : Nat) :
    List PlanTask × Nat :=
  match heap[ref]? with
  | none => (heap, ref)
  | some task => ((heap ++ [task]).modify heap.length delete, heap.length)

/-- The body of the map over the tasks; `out` is the local variable of the source. -/
def repairRef (perTask : Dict String Fix) (heap : List PlanTask) (ref : Nat) :
    List PlanTask × Nat :=
  match heap[ref]? with
  | none => (heap, ref)
  | some task =>
    match perTask.get? task.id with
    | none => (heap, ref)
    | some fix =>
      let out :=
        if fix.dropAgent && task.agentId.isSome then
          stripField (fun clone => { clone with agentId := none }) heap ref
        else (heap, ref)
      if fix.dropCaps && (out.1[out.2]?.bind PlanTask.requiredCapabilities).isSome then
        stripField (fun clone => { clone with requiredCapabilities := none }) out.1 out.2
      else out

def repairRefs (perTask : Dict String Fix) : List PlanTask → List Nat → List PlanTask × List Nat
  | heap, [] => (heap, [])
  | heap, ref :: refs =>
    let out := repairRef perTask heap ref
    let rest := repairRefs perTask out.1 refs
    (rest.1, out.2 :: rest.2)

/-- `validateAndRepair` on a plan that lists the addresses `refs`: the heap behind it, and
the addresses that the returned plan lists. -/
def validateAndRepairRefs (agents : List AgentDescriptor) (heap : List PlanTask)
    (refs : List Nat) : Except PlannerError (List PlanTask × List Nat) := do
  let validated ← PlanValidator.validate agents ⟨refs.filterMap fun ref => heap[ref]?⟩
  let perTask := validated.issues.foldl collectFix Dict.empty
  if perTask.keys = [] then return (heap, refs)
  else return repairRefs perTask heap refs

/-- The addresses hold the tasks. -/
abbrev Holds (heap : List PlanTask) (refs : List Nat) (tasks : List PlanTask) : Prop :=
  List.Forall₂ (fun ref task => heap[ref]? = some task) refs tasks

variable {perTask : Dict String Fix} {heap after : List PlanTask} {ref : Nat} {refs : List Nat}
variable {task : PlanTask} {tasks : List PlanTask}

/-- What is on the heap stays there when the heap grows. -/
theorem getElem?_of_grown (grown : heap <+: after) (here : heap[ref]? = some task) :
    after[ref]? = some task := by
  obtain ⟨new, rfl⟩ := grown
  obtain ⟨inside, -⟩ := List.getElem?_eq_some_iff.mp here
  rw [List.getElem?_append_left inside, here]

theorem Holds.grow (holds : Holds heap refs tasks) (grown : heap <+: after) :
    Holds after refs tasks :=
  holds.imp fun _ _ here => getElem?_of_grown grown here

theorem Holds.read (holds : Holds heap refs tasks) :
    (refs.filterMap fun ref => heap[ref]?) = tasks := by
  induction holds with
  | nil => rfl
  | cons here _ ih => rw [List.filterMap_cons_some here, ih]

/-- The field is deleted from the new object only. -/
theorem stripField_eq (delete : PlanTask → PlanTask) (here : heap[ref]? = some task) :
    stripField delete heap ref = (heap ++ [delete task], heap.length) := by
  have inside : heap.length < (heap ++ [task]).length := by simp
  rw [stripField, here]
  dsimp only
  rw [List.modify_eq_take_cons_drop inside]
  simp

/-- The step leaves the heap it was given as it was, and the address it returns holds the
task. -/
structure Yields (heap : List PlanTask) (out : List PlanTask × Nat) (task : PlanTask) : Prop where
  grown : heap <+: out.1
  here : out.1[out.2]? = some task

theorem yields_self (here : heap[ref]? = some task) : Yields heap (heap, ref) task :=
  ⟨List.prefix_rfl, here⟩

theorem yields_stripField (delete : PlanTask → PlanTask) (here : heap[ref]? = some task) :
    Yields heap (stripField delete heap ref) (delete task) := by
  rw [stripField_eq delete here]
  exact ⟨List.prefix_append _ _, by simp⟩

theorem repairRef_yields (here : heap[ref]? = some task) :
    Yields heap (repairRef perTask heap ref) (repairTask perTask task).1 := by
  rw [repairRef, repairTask]
  simp only [here]
  cases perTask.get? task.id with
  | none => exact yields_self here
  | some fix =>
      dsimp only
      have first : Yields heap
          (if fix.dropAgent && task.agentId.isSome then
            stripField (fun clone => { clone with agentId := none }) heap ref
          else (heap, ref)) (dropAgent fix task).1 := by
        rw [dropAgent]
        split
        · exact yields_stripField _ here
        · exact yields_self here
      generalize (if fix.dropAgent && task.agentId.isSome then
        stripField (fun clone => { clone with agentId := none }) heap ref
        else (heap, ref)) = out at first
      obtain ⟨grown, there⟩ := first
      rw [there, Option.bind_some]
      rw [dropCapabilities]
      split
      · have second := yields_stripField (fun clone => { clone with requiredCapabilities := none })
          there
        exact ⟨grown.trans second.grown, second.here⟩
      · exact ⟨grown, there⟩

theorem repairRefs_holds (holds : Holds heap refs tasks) :
    heap <+: (repairRefs perTask heap refs).1 ∧
      Holds (repairRefs perTask heap refs).1 (repairRefs perTask heap refs).2
        (tasks.map fun task => (repairTask perTask task).1) := by
  induction refs generalizing heap tasks with
  | nil =>
      cases holds
      exact ⟨List.prefix_rfl, .nil⟩
  | cons ref refs ih =>
      cases holds with
      | cons here rest =>
          obtain ⟨grown, there⟩ := @repairRef_yields perTask _ _ _ here
          obtain ⟨more, others⟩ := ih (Holds.grow rest grown)
          exact ⟨grown.trans more, .cons (getElem?_of_grown more there) others⟩

/-- On objects, the repair returns the same plan and writes to no object that was there. -/
theorem validateAndRepairRefs_holds {agents : List AgentDescriptor} {plan : PlannerPlan}
    {validated : ValidatedPlan}
    (ends : PlanValidator.validateAndRepair agents plan = .ok validated)
    (holds : Holds heap refs plan.tasks) :
    ∃ after others, validateAndRepairRefs agents heap refs = .ok (after, others) ∧
      heap <+: after ∧ Holds after others validated.plan.tasks := by
  obtain ⟨judged, first, rest⟩ := bind_eq_ok_iff.mp ends
  obtain ⟨-, rfl⟩ := PlanValidator.validate_eq_ok_iff.mp first
  rw [validateAndRepairRefs, holds.read]
  rw [applyIssueRepairs] at rest
  dsimp only at rest
  rw [first]
  simp only [bind, Except.bind, pure, Except.pure] at rest ⊢
  by_cases empty : ((PlanValidator.findings agents plan.tasks).issues.foldl collectFix
      Dict.empty).keys = []
  · rw [if_pos empty] at rest ⊢
    cases rest
    exact ⟨heap, refs, rfl, List.prefix_rfl, holds⟩
  · rw [if_neg empty] at rest ⊢
    cases rest
    obtain ⟨grown, others⟩ := repairRefs_holds holds
    refine ⟨_, _, rfl, grown, ?_⟩
    rw [List.map_map]
    exact others

end Objects

/-- A returned plan is settled: validating it again finds nothing, and repairing it again
changes nothing. It is the given plan but for fields that a finding on their task is about,
and no task object of the given plan is written to. -/
theorem validateAndRepair_settles {agents : List AgentDescriptor} {plan : PlannerPlan}
    {validated : ValidatedPlan}
    (ends : PlanValidator.validateAndRepair agents plan = .ok validated) :
    PlanValidator.validate agents validated.plan = .ok ⟨validated.plan, [], false⟩ ∧
      PlanValidator.validateAndRepair agents validated.plan = .ok ⟨validated.plan, [], false⟩ ∧
      List.Forall₂ (PlanTask.RepairedBy validated.issues) plan.tasks validated.plan.tasks ∧
      ∀ heap refs, Holds heap refs plan.tasks → ∃ after others,
        validateAndRepairRefs agents heap refs = .ok (after, others) ∧ heap <+: after ∧
          Holds after refs plan.tasks ∧ Holds after others validated.plan.tasks := by
  have silent := validate_repaired ends
  refine ⟨silent, validateAndRepair_of_silent silent, repairedBy_of_ok ends, ?_⟩
  intro heap refs holds
  obtain ⟨after, others, repaired, grown, returned⟩ := validateAndRepairRefs_holds ends holds
  exact ⟨after, others, repaired, grown, holds.grow grown, returned⟩

def editors : List AgentDescriptor := [⟨"writer", ["prose"]⟩, ⟨"editor", ["prose", "layout"]⟩]

/-- One task names an agent that is gone, and one requires what no editor holds. -/
def strayPlan : PlannerPlan :=
  ⟨[⟨"draft", "write a draft", some "ghost", some ["prose"], none, none, none⟩,
    ⟨"figures", "draw the figures", some "editor", some ["drawing"], some ["draft"], none, none⟩]⟩

theorem validateAndRepair_settles_strayPlan :
    ∃ validated, PlanValidator.validateAndRepair editors strayPlan = .ok validated ∧
      validated.repaired = true ∧
      PlanValidator.validateAndRepair editors validated.plan = .ok ⟨validated.plan, [], false⟩ := by
  have ends : ∃ validated, PlanValidator.validateAndRepair editors strayPlan = .ok validated ∧
      validated.repaired = true := ⟨_, rfl, rfl⟩
  obtain ⟨validated, ends, repaired⟩ := ends
  exact ⟨validated, ends, repaired, (validateAndRepair_settles ends).2.1⟩

end MultiAgent.Native
