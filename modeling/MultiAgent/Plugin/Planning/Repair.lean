import MultiAgent.Plugin.Planning.Validity
import Mathlib.Data.List.Forall2

/-!
# Repair of a plan

The passes of validation and repair route the tasks and drop capabilities that no worker
has, but leave the graph of the tasks as it is (`attempt_eq_last`, `strict_repair`). The
ids of parsed tasks are distinct (`ids_nodup`).
-/

namespace MultiAgent.Plugin

namespace Planning

namespace WorkerRouter

variable {router : WorkerRouter} {cursor cursor' : Nat} {preferred : Option String}
variable {required names : List String} {agent : String}

theorem roundRobin_of_ne_nil (cursor : Nat) (nonempty : names ≠ []) :
    ∃ name ∈ names, names[cursor % names.length]? = some name ∧
      roundRobin names cursor = .ok (name, cursor + 1) := by
  have inside : cursor % names.length < names.length :=
    Nat.mod_lt _ (List.length_pos_iff.mpr nonempty)
  refine ⟨names[cursor % names.length], List.getElem_mem inside,
    List.getElem?_eq_getElem inside, ?_⟩
  rw [roundRobin, List.getElem?_eq_getElem inside]

/-- The workers among which a task without a valid agent takes its turn. -/
def pool (router : WorkerRouter) (required : List String) : List String :=
  if router.candidates (capabilityNames required) = [] then router.workers
  else router.candidates (capabilityNames required)

theorem pool_subset : router.pool required ⊆ router.workers := by
  intro worker member
  rw [pool] at member
  split_ifs at member
  · exact member
  · exact List.mem_of_mem_filter member

theorem pool_ne_nil (workers : router.workers ≠ []) : router.pool required ≠ [] := by
  rw [pool]
  split_ifs with none
  · exact workers
  · exact none

/-- A worker that the task names is kept. -/
theorem assign_preferred (member : agent ∈ router.workers) (named : agent ≠ "") :
    router.assign cursor (some agent) required = .ok (agent, cursor) := by
  have kept : (some agent).filter (fun name => decide (name ≠ "" ∧ name ∈ router.workers)) =
      some agent := by
    rw [Option.filter_some, if_pos (decide_eq_true ⟨named, member⟩)]
  rw [assign, kept]

/-- Any other task takes a turn, where no requirement is one that every worker meets. -/
theorem assign_other (other : ∀ name ∈ preferred, name ≠ "" → name ∉ router.workers) :
    router.assign cursor preferred required = roundRobin (router.pool required) cursor := by
  have dropped : preferred.filter (fun name => decide (name ≠ "" ∧ name ∈ router.workers)) =
      none := by
    rw [Option.filter_eq_none_iff]
    intro name given
    simpa using other name given
  rw [assign, dropped, pool]
  change (if _ then _ else _) = _
  by_cases free : capabilityNames required = ∅
  · have everyone : router.candidates (capabilityNames required) = router.workers := by
      rw [free, candidates, List.filter_eq_self]
      intro worker _
      exact decide_eq_true (Finset.empty_subset _)
    rw [if_neg (by simp [free]), everyone, ite_self]
  · simp only [Finset.nonempty_iff_ne_empty.mpr free, true_and, ne_eq, ite_not]
    split_ifs <;> rfl

/-- Either the agent is kept, or the task takes a turn. -/
theorem assign_cases (router : WorkerRouter) (cursor : Nat) (preferred : Option String)
    (required : List String) :
    (∃ agent ∈ router.workers, preferred = some agent ∧ agent ≠ "" ∧
      router.assign cursor preferred required = .ok (agent, cursor)) ∨
    ((∀ name ∈ preferred, name ≠ "" → name ∉ router.workers) ∧
      router.assign cursor preferred required = roundRobin (router.pool required) cursor) := by
  by_cases other : ∀ name ∈ preferred, name ≠ "" → name ∉ router.workers
  · exact .inr ⟨other, assign_other other⟩
  · push Not at other
    obtain ⟨agent, same, named, member⟩ := other
    cases Option.mem_def.mp same
    exact .inl ⟨agent, member, rfl, named, assign_preferred member named⟩

theorem assign_ok (workers : router.workers ≠ []) (cursor : Nat) (preferred : Option String)
    (required : List String) : ∃ agent ∈ router.workers, ∃ cursor',
      router.assign cursor preferred required = .ok (agent, cursor') := by
  obtain ⟨agent, member, -, -, kept⟩ | ⟨-, turn⟩ :=
    assign_cases router cursor preferred required
  · exact ⟨agent, member, cursor, kept⟩
  · obtain ⟨agent, member, -, found⟩ := roundRobin_of_ne_nil cursor (pool_ne_nil workers)
    exact ⟨agent, pool_subset member, cursor + 1, turn.trans found⟩

end WorkerRouter

/-- Each element of the second of two related lists is related to one of the first. -/
theorem exists_related {α β : Type} {R : α → β → Prop} {before : List α} {after : List β}
    (all : List.Forall₂ R before after) {b : β} (member : b ∈ after) : ∃ a ∈ before, R a b := by
  induction all with
  | nil => cases member
  | cons first _ ih =>
      rcases List.mem_cons.mp member with rfl | later
      · exact ⟨_, List.mem_cons_self, first⟩
      · obtain ⟨a, inside, related⟩ := ih later
        exact ⟨a, List.mem_cons_of_mem _ inside, related⟩

/-- What a pass may do to a task: route it, and drop required capabilities. -/
structure Repairs (before after : Task) : Prop where
  id : after.id = before.id
  description : after.description = before.description
  dependsOn : after.dependsOn = before.dependsOn
  capabilities : after.requiredCapabilities.Sublist before.requiredCapabilities

namespace Repairs

variable {a b c : Task} {tasks tasks' tasks'' : List Task}

theorem refl (task : Task) : Repairs task task := ⟨rfl, rfl, rfl, List.Sublist.refl _⟩

theorem trans (first : Repairs a b) (second : Repairs b c) : Repairs a c :=
  ⟨second.id.trans first.id, second.description.trans first.description,
    second.dependsOn.trans first.dependsOn, second.capabilities.trans first.capabilities⟩

theorem refl_all (tasks : List Task) : List.Forall₂ Repairs tasks tasks :=
  List.forall₂_same.mpr fun task _ => refl task

theorem trans_all (first : List.Forall₂ Repairs tasks tasks')
    (second : List.Forall₂ Repairs tasks' tasks'') : List.Forall₂ Repairs tasks tasks'' := by
  induction first generalizing tasks'' with
  | nil =>
      cases second
      exact .nil
  | cons first _ ih =>
      cases second with
      | cons second rest => exact .cons (first.trans second) (ih rest)

/-- Repairs leave whatever the id, the description and the dependencies determine. -/
theorem map_eq {α : Type} (all : List.Forall₂ Repairs tasks tasks')
    (f : String × String × List String → α) :
    tasks'.map (fun task => f (task.id, task.description, task.dependsOn)) =
      tasks.map fun task => f (task.id, task.description, task.dependsOn) := by
  induction all with
  | nil => rfl
  | cons first _ ih =>
      rw [List.map_cons, List.map_cons, ih, first.id, first.description, first.dependsOn]

theorem ids (all : List.Forall₂ Repairs tasks tasks') :
    tasks'.map Task.id = tasks.map Task.id := map_eq all Prod.fst

theorem wellFormed (all : List.Forall₂ Repairs tasks tasks') (formed : WellFormed tasks) :
    WellFormed tasks' := by
  have described := map_eq all fun field => field.2.1
  constructor
  · rw [ids all]
    exact formed.distinct
  · intro task member empty
    have named : task.id ∈ tasks.map Task.id := ids all ▸ List.mem_map_of_mem member
    obtain ⟨before, inside, same⟩ := List.mem_map.mp named
    exact formed.nonempty before inside (same.trans empty)
  · intro task member blank
    have text : task.description ∈ tasks.map Task.description :=
      described ▸ List.mem_map_of_mem member
    obtain ⟨before, inside, same⟩ := List.mem_map.mp text
    exact formed.described before inside (by rw [same, blank])

theorem graph (all : List.Forall₂ Repairs tasks tasks') :
    tasks'.map (fun task => (task.id, task.dependsOn)) =
      tasks.map fun task => (task.id, task.dependsOn) :=
  map_eq all fun field => (field.1, field.2.2)

theorem validGraph (all : List.Forall₂ Repairs tasks tasks') :
    ValidGraph tasks' ↔ ValidGraph tasks :=
  ⟨ValidGraph.congr (graph all), ValidGraph.congr (graph all).symm⟩

end Repairs

section Passes

variable {set : SetIteration} {router : WorkerRouter} {knownAgents knownCaps : List String}
variable {cursor : Nat} {task : Task} {tasks : List Task} {s : State}

/-- The agent is a worker. -/
def Routed (router : WorkerRouter) (task : Task) : Prop :=
  ∃ worker ∈ router.workers, task.agent = some worker

/-- A task that a pass only routes. -/
structure Rerouted (router : WorkerRouter) (before after : Task) : Prop where
  routed : Routed router after
  same : after = { before with agent := after.agent }

theorem Rerouted.repairs {before after : Task} (rerouted : Rerouted router before after) :
    Repairs before after := by
  rw [rerouted.same]
  exact ⟨rfl, rfl, rfl, List.Sublist.refl _⟩

theorem routeAgents_ok (workers : router.workers ≠ []) (cursor : Nat) (tasks : List Task) :
    ∃ tasks' cursor', routeAgents router cursor tasks = .ok (tasks', cursor') ∧
      List.Forall₂ (Rerouted router) tasks tasks' := by
  induction tasks generalizing cursor with
  | nil => exact ⟨[], cursor, rfl, .nil⟩
  | cons task rest ih =>
      obtain ⟨agent, member, next, assigned⟩ :=
        router.assign_ok workers cursor task.agent task.requiredCapabilities
      obtain ⟨rest', last, routed, all⟩ := ih next
      refine ⟨{ task with agent := some agent } :: rest', last, ?_, .cons ⟨?_, rfl⟩ all⟩
      · simp only [routeAgents, assigned, ok_bind, routed]
        rfl
      · exact ⟨agent, member, rfl⟩

/-- A repaired task: routed, without the capabilities that are not known. -/
structure Repaired (router : WorkerRouter) (knownCaps : List String) (before after : Task) :
    Prop where
  routed : Routed router after
  same : after = { before with
    agent := after.agent
    requiredCapabilities := before.requiredCapabilities.filter fun cap => decide (cap ∈ knownCaps) }

theorem repairTask_of_assign {agent : String} {next : Nat}
    (assigned : router.assign cursor task.agent task.requiredCapabilities = .ok (agent, next)) :
    ∃ notes, repairTask router knownAgents knownCaps cursor task = .ok ({ task with
      agent := some agent
      requiredCapabilities := task.requiredCapabilities.filter fun cap =>
        decide (cap ∈ knownCaps) }, next, notes) := by
  rw [repairTask, assigned, ok_bind]
  by_cases supported :
      (task.requiredCapabilities.filter fun cap => decide (cap ∉ knownCaps)) = []
  · have all : (task.requiredCapabilities.filter fun cap => decide (cap ∈ knownCaps)) =
        task.requiredCapabilities := by
      rw [List.filter_eq_self]
      intro cap required
      simpa using List.filter_eq_nil_iff.mp supported cap required
    simp only [if_pos supported, all]
    exact ⟨_, rfl⟩
  · simp only [if_neg supported]
    exact ⟨_, rfl⟩

theorem repairTask_ok (workers : router.workers ≠ []) (knownAgents knownCaps : List String)
    (cursor : Nat) (task : Task) :
    ∃ after cursor' notes, repairTask router knownAgents knownCaps cursor task =
      .ok (after, cursor', notes) ∧ Repaired router knownCaps task after := by
  obtain ⟨agent, member, next, assigned⟩ :=
    router.assign_ok workers cursor task.agent task.requiredCapabilities
  obtain ⟨notes, repaired⟩ := repairTask_of_assign assigned
  exact ⟨_, next, notes, repaired, ⟨agent, member, rfl⟩, rfl⟩

theorem repairTasks_ok (workers : router.workers ≠ []) (knownAgents knownCaps : List String)
    (cursor : Nat) (tasks : List Task) :
    ∃ tasks' cursor' notes, repairTasks router knownAgents knownCaps cursor tasks =
      .ok (tasks', cursor', notes) ∧ List.Forall₂ (Repaired router knownCaps) tasks tasks' := by
  induction tasks generalizing cursor with
  | nil => exact ⟨[], cursor, [], rfl, .nil⟩
  | cons task rest ih =>
      obtain ⟨task', next, notes, first, repaired⟩ :=
        repairTask_ok workers knownAgents knownCaps cursor task
      obtain ⟨rest', last, later, second, all⟩ := ih next
      refine ⟨task' :: rest', last, notes ++ later, ?_, .cons repaired all⟩
      simp only [repairTasks, first, ok_bind, second]
      rfl

theorem Repaired.repairs {before after : Task} (repaired : Repaired router knownCaps before after) :
    Repairs before after := by
  rw [repaired.same]
  exact ⟨rfl, rfl, rfl, List.filter_sublist⟩

/-- Every task is routed, and requires known capabilities only. -/
def Settled (router : WorkerRouter) (knownCaps : List String) (tasks : List Task) : Prop :=
  ∀ task ∈ tasks, Routed router task ∧ ∀ cap ∈ task.requiredCapabilities, cap ∈ knownCaps

theorem settled_of_repaired {tasks' : List Task}
    (all : List.Forall₂ (Repaired router knownCaps) tasks tasks') :
    Settled router knownCaps tasks' := by
  intro task member
  obtain ⟨before, -, repaired⟩ := exists_related all member
  refine ⟨repaired.routed, ?_⟩
  intro cap required
  rw [repaired.same] at required
  exact of_decide_eq_true (List.mem_filter.mp required).2

/-- A run of attempts ends as its last attempt does, on tasks that are as they were or
repaired. -/
theorem attempt_eq_last (set : SetIteration) (knownAgents knownCaps : List String)
    (workers : router.workers ≠ []) (allow : Bool) (attempts : Nat) (s : State) : ∃ last : State,
      attempt set router knownAgents knownCaps allow attempts s =
        attempt set router knownAgents knownCaps allow 0 last ∧
      ((last = s ∧ (attempts = 0 ∨ check set knownAgents knownCaps s.tasks = .ok ())) ∨
        (List.Forall₂ Repairs s.tasks last.tasks ∧ Settled router knownCaps last.tasks)) := by
  induction attempts generalizing s with
  | zero => exact ⟨s, rfl, .inl ⟨rfl, .inl rfl⟩⟩
  | succ left ih =>
      cases checked : check set knownAgents knownCaps s.tasks with
      | ok _ =>
          refine ⟨s, ?_, .inl ⟨rfl, .inr rfl⟩⟩
          rw [attempt, attempt, checked]
      | error error =>
          obtain ⟨tasks, cursor, notes, repaired, all⟩ :=
            repairTasks_ok workers knownAgents knownCaps s.cursor s.tasks
          have first : List.Forall₂ Repairs s.tasks tasks :=
            all.imp fun _ _ repaired => repaired.repairs
          obtain ⟨last, same, outcome⟩ := ih ⟨tasks, cursor, s.notes ++ notes⟩
          refine ⟨last, ?_, .inr ?_⟩
          · rw [attempt, checked]
            simp only [repaired]
            exact same
          · obtain ⟨rfl, -⟩ | ⟨more, settled⟩ := outcome
            · exact ⟨first, settled_of_repaired all⟩
            · exact ⟨Repairs.trans_all first more, settled⟩

/-- A plan that passes its last check is routed and returned. -/
theorem last_of_check (workers : router.workers ≠ []) (allow : Bool)
    (checked : check set knownAgents knownCaps s.tasks = .ok ()) :
    (attempt set router knownAgents knownCaps allow 0 s).2 = .ok () ∧
      List.Forall₂ (Rerouted router) s.tasks
        (attempt set router knownAgents knownCaps allow 0 s).1.tasks := by
  obtain ⟨tasks, cursor, routed, all⟩ := routeAgents_ok workers s.cursor s.tasks
  rw [attempt, checked]
  simp only [attempt.route, routed]
  exact ⟨trivial, all⟩

theorem last_strict {error : PlanValidationError}
    (failed : check set knownAgents knownCaps s.tasks = .error error) :
    attempt set router knownAgents knownCaps false 0 s = (s, .error (.planValidation error)) := by
  rw [attempt, failed]
  rfl

/-- What is returned after a check: the checked tasks, routed. -/
theorem returned_of_check (workers : router.workers ≠ []) (allow : Bool)
    (checked : check set knownAgents knownCaps s.tasks = .ok ()) :
    (attempt set router knownAgents knownCaps allow 0 s).2 = .ok () ∧
      List.Forall₂ Repairs s.tasks
        (attempt set router knownAgents knownCaps allow 0 s).1.tasks ∧
      ValidGraph (attempt set router knownAgents knownCaps allow 0 s).1.tasks ∧
      Settled router knownCaps (attempt set router knownAgents knownCaps allow 0 s).1.tasks := by
  obtain ⟨returned, all⟩ := last_of_check workers allow checked
  obtain ⟨-, graph, supported⟩ := check_ok_iff.mp checked
  have repairs := all.imp fun _ _ rerouted => rerouted.repairs
  refine ⟨returned, repairs, (Repairs.validGraph repairs).mpr graph, ?_⟩
  intro task member
  obtain ⟨before, inside, rerouted⟩ := exists_related all member
  refine ⟨rerouted.routed, ?_⟩
  intro cap required
  rw [rerouted.same] at required
  exact supported.capabilities before inside cap required

theorem strict_cases (workers : router.workers ≠ []) (attempts : Nat) (s : State) :
    ((attempt set router knownAgents knownCaps false attempts s).2 = .ok () ∧
      List.Forall₂ Repairs s.tasks
        (attempt set router knownAgents knownCaps false attempts s).1.tasks ∧
      ValidGraph (attempt set router knownAgents knownCaps false attempts s).1.tasks ∧
      Settled router knownCaps
        (attempt set router knownAgents knownCaps false attempts s).1.tasks) ∨
    ∃ error, (attempt set router knownAgents knownCaps false attempts s).2 =
        .error (.planValidation error) ∧
      List.Forall₂ Repairs s.tasks
        (attempt set router knownAgents knownCaps false attempts s).1.tasks := by
  obtain ⟨last, same, outcome⟩ := attempt_eq_last set knownAgents knownCaps workers false
    attempts s
  have repairs : List.Forall₂ Repairs s.tasks last.tasks := by
    obtain ⟨rfl, -⟩ | ⟨repairs, -⟩ := outcome
    · exact Repairs.refl_all _
    · exact repairs
  rw [same]
  cases checked : check set knownAgents knownCaps last.tasks with
  | ok _ =>
      obtain ⟨returned, more, graph, settled⟩ := returned_of_check workers false checked
      exact .inl ⟨returned, Repairs.trans_all repairs more, graph, settled⟩
  | error error =>
      rw [last_strict checked]
      exact .inr ⟨error, rfl, repairs⟩

end Passes

section Ids

variable {repr : Json → String} {used : List String} {index : Nat} {raw : List Object}
variable {tasks : List Task}

theorem freshId_notMem (used : List String) (taskId : String) : freshId used taskId ∉ used := by
  induction taskId using freshId.induct used with
  | case1 taskId member ih =>
      rw [freshId, if_pos member]
      exact ih
  | case2 taskId fresh =>
      rw [freshId, if_neg fresh]
      exact fresh

theorem tasksFrom_nodup (parsed : tasksFrom repr used index raw = .ok tasks) :
    (tasks.map Task.id).Nodup ∧ ∀ task ∈ tasks, task.id ∉ used := by
  induction raw generalizing used index tasks with
  | nil =>
      cases parsed
      exact ⟨List.nodup_nil, nofun⟩
  | cons entry rest ih =>
      rw [tasksFrom] at parsed
      split_ifs at parsed with blank
      · exact ih parsed
      · obtain ⟨dependsOn, -, parsed⟩ := bind_eq_ok_iff.mp parsed
        obtain ⟨capabilities, -, parsed⟩ := bind_eq_ok_iff.mp parsed
        obtain ⟨later, of_later, same⟩ := bind_eq_ok_iff.mp parsed
        cases same
        obtain ⟨distinct, fresh⟩ := ih of_later
        constructor
        · rw [List.map_cons, List.nodup_cons]
          refine ⟨?_, distinct⟩
          intro again
          obtain ⟨task, member, same⟩ := List.mem_map.mp again
          apply fresh task member
          rw [same]
          simp
        · rw [List.forall_mem_cons]
          refine ⟨freshId_notMem used _, ?_⟩
          intro task member inside
          exact fresh task member (List.mem_append_left _ inside)

/-- Only the dependencies and capabilities of an entry can stop the loop, never an id. -/
theorem isOk_tasksFrom : (tasksFrom repr used index raw).isOk ↔
    ∀ entry ∈ raw, descriptionOf repr entry ≠ "" →
      (dependenciesOf repr entry).isOk ∧ (capabilitiesOf repr entry).isOk := by
  induction raw generalizing used index with
  | nil => exact iff_of_true rfl nofun
  | cons entry rest ih =>
      rw [tasksFrom, List.forall_mem_cons]
      split_ifs with blank
      · rw [@ih used]
        simp [blank]
      · simp only [isOk_bind_iff, isOk_pure, and_true, ← isOk_iff, ih, ne_eq, blank,
          not_false_eq_true, forall_const]
        constructor
        · rintro ⟨deps, of_deps, caps, of_caps, later⟩
          exact ⟨⟨isOk_iff.mpr ⟨deps, of_deps⟩, isOk_iff.mpr ⟨caps, of_caps⟩⟩, later⟩
        · rintro ⟨⟨deps, caps⟩, later⟩
          obtain ⟨deps, of_deps⟩ := isOk_iff.mp deps
          obtain ⟨caps, of_caps⟩ := isOk_iff.mp caps
          exact ⟨deps, of_deps, caps, of_caps, later⟩

end Ids

/-- Strict repair returns a plan over the same graph, or reports an invalid plan and leaves
the dependencies as they were. Parsed tasks have distinct ids, and no id stops the parser. -/
theorem strict_repair {set : SetIteration} {router : WorkerRouter} (workers : router.workers ≠ [])
    (knownAgents knownCaps : List String) (maxRepairAttempts : Int) (s : State)
    (repr : Json → String) (raw : List Object) :
    (∀ last result, validateAndRepair set router knownAgents knownCaps false maxRepairAttempts s =
        (last, result) →
      (result = .ok () ∧ List.Forall₂ Repairs s.tasks last.tasks ∧ ValidGraph last.tasks ∧
        ∀ task ∈ last.tasks, (∃ worker ∈ router.workers, task.agent = some worker) ∧
          ∀ cap ∈ task.requiredCapabilities, cap ∈ knownCaps) ∨
      ∃ error, result = .error (.planValidation error) ∧
        last.tasks.map Task.dependsOn = s.tasks.map Task.dependsOn) ∧
    Yields (tasksFromJson repr raw) (fun tasks => (tasks.map Task.id).Nodup) ∧
    ((tasksFromJson repr raw).isOk ↔ ∀ entry ∈ raw, descriptionOf repr entry ≠ "" →
      (dependenciesOf repr entry).isOk ∧ (capabilitiesOf repr entry).isOk) := by
  refine ⟨?_, fun tasks parsed => (tasksFrom_nodup parsed).1, isOk_tasksFrom⟩
  intro last result ended
  have cases := @strict_cases set router knownAgents knownCaps workers
    (max 0 maxRepairAttempts).toNat s
  rw [validateAndRepair] at ended
  rw [ended] at cases
  obtain settled | ⟨error, raised, repairs⟩ := cases
  · exact .inl settled
  · exact .inr ⟨error, raised, Repairs.map_eq repairs fun field => field.2.2⟩

/-- Two tasks that wait for each other, one of them for an unknown agent. -/
theorem strict_repair_cycle : ∃ last result,
    validateAndRepair .dedup ⟨["w"], fun _ => none⟩ ["w"] [] false 2
        ⟨[⟨"a", "x", some "ghost", ["b"], ["c"], none⟩, ⟨"b", "y", none, ["a"], [], none⟩], 0, []⟩ =
      (last, result) ∧
    ((result = .ok () ∧ List.Forall₂ Repairs [⟨"a", "x", some "ghost", ["b"], ["c"], none⟩,
        ⟨"b", "y", none, ["a"], [], none⟩] last.tasks ∧ ValidGraph last.tasks ∧
      ∀ task ∈ last.tasks, (∃ worker ∈ ["w"], task.agent = some worker) ∧
        ∀ cap ∈ task.requiredCapabilities, cap ∈ ([] : List String)) ∨
    ∃ error, result = .error (.planValidation error) ∧
      last.tasks.map Task.dependsOn = [["b"], ["a"]]) := by
  refine ⟨_, _, rfl, ?_⟩
  apply (@strict_repair .dedup ⟨["w"], fun _ => none⟩ (List.cons_ne_nil _ _) ["w"] [] 2
    ⟨[⟨"a", "x", some "ghost", ["b"], ["c"], none⟩, ⟨"b", "y", none, ["a"], [], none⟩], 0, []⟩
    (fun _ => "") []).1
  rfl

end Planning

end MultiAgent.Plugin
