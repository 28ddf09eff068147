import MultiAgent.Foundations.Checks
import MultiAgent.Foundations.DepthFirst
import MultiAgent.Foundations.Lookup
import MultiAgent.Native.Task

/-!
# The task graph

`graph.ts`: tasks in insertion order under distinct ids, the queries the
scheduler asks, and `validate`. `Validated` collects what an accepted graph
promises to the scheduler: its dependencies are tasks of the graph, and a rank
descends along them.
-/

namespace MultiAgent.Native

inductive GraphErrorCode where
  | duplicateId
  | unknownTask
  | missingDependency
  | selfDependency
  | cycle
  deriving DecidableEq, Repr

structure GraphError where
  code : GraphErrorCode
  message : String
  deriving DecidableEq, Repr

/-- A map from ids to tasks, in insertion order. -/
structure TaskGraph where
  tasks : List Task
  distinct : (tasks.map Task.id).Nodup

namespace TaskGraph

/-- The keys of the map, in insertion order. -/
def ids (g : TaskGraph) : List String := g.tasks.map Task.id

def empty : TaskGraph := ⟨[], List.nodup_nil⟩

def get (g : TaskGraph) (id : String) : Option Task := g.tasks.find? fun t => t.id = id

def has (g : TaskGraph) (id : String) : Bool := decide (id ∈ g.ids)

def add (g : TaskGraph) (task : Task) : Except GraphError TaskGraph :=
  if fresh : task.id ∈ g.tasks.map Task.id then
    .error ⟨.duplicateId, s!"duplicate task id: '{task.id}'"⟩
  else
    .ok ⟨g.tasks ++ [task], by
      rw [List.map_append, List.nodup_append]
      refine ⟨g.distinct, by simp, ?_⟩
      rintro a ha b hb rfl
      simp only [List.map_cons, List.map_nil, List.mem_singleton] at hb
      exact fresh (hb ▸ ha)⟩

/-- `get(id)?.dependsOn`, empty for an unknown id. -/
def dependsOn (g : TaskGraph) (id : String) : List String :=
  match g.get id with
  | some task => task.dependsOn
  | none => []

/-- The statuses of all tasks at one moment. -/
abbrev Statuses := String → TaskStatus

def depsCompleted (g : TaskGraph) (status : Statuses) (task : Task) : Bool :=
  task.dependsOn.all fun dep => g.has dep && decide (status dep = .completed)

/-- Tasks that may start now, in insertion order. -/
def ready (g : TaskGraph) (status : Statuses) : List Task :=
  g.tasks.filter fun task => decide (status task.id = .pending) && g.depsCompleted status task

def isComplete (g : TaskGraph) (status : Statuses) : Bool :=
  g.tasks.all fun task => isTerminalStatus (status task.id)

/-- The edge check of `validate` for one dependency of one task. -/
def checkEdge (g : TaskGraph) (task : Task) (dep : String) : Except GraphError Unit :=
  if dep = task.id then
    .error ⟨.selfDependency, s!"task '{task.id}' depends on itself"⟩
  else if g.has dep then .ok ()
  else .error ⟨.missingDependency, s!"task '{task.id}' depends on unknown task '{dep}'"⟩

/-- The cycle search of the graph: an id outside the map has no colour, which
the source reads as black. -/
def findCycle (g : TaskGraph) : Option (List String) :=
  DepthFirst.findCycle g.dependsOn g.ids

def validate (g : TaskGraph) : Except GraphError Unit := do
  forM g.tasks fun task => forM task.dependsOn fun dep => g.checkEdge task dep
  match g.findCycle with
  | some cycle =>
    let path := " -> ".intercalate cycle
    .error ⟨.cycle, s!"dependency cycle detected: {path}"⟩
  | none => .ok ()

variable {g : TaskGraph}

theorem mem_ids {id : String} : id ∈ g.ids ↔ ∃ task ∈ g.tasks, task.id = id := List.mem_map

theorem id_mem_ids {task : Task} (member : task ∈ g.tasks) : task.id ∈ g.ids :=
  mem_ids.mpr ⟨task, member, rfl⟩

/-- Ids identify the tasks of a graph. -/
theorem eq_of_id_eq {a b : Task} (ha : a ∈ g.tasks) (hb : b ∈ g.tasks) (same : a.id = b.id) :
    a = b :=
  List.inj_on_of_nodup_map g.distinct ha hb same

theorem get_eq_some_iff {id : String} {task : Task} :
    g.get id = some task ↔ task ∈ g.tasks ∧ task.id = id := by
  constructor
  · exact Lookup.of_find?
  · rintro ⟨member, rfl⟩
    exact Lookup.find?_eq_some g.distinct member

theorem dependsOn_id {task : Task} (member : task ∈ g.tasks) :
    g.dependsOn task.id = task.dependsOn := by
  simp [dependsOn, get_eq_some_iff.mpr ⟨member, rfl⟩]

theorem dependsOn_of_not_mem {id : String} (unknown : id ∉ g.ids) : g.dependsOn id = [] := by
  rw [dependsOn]
  cases found : g.get id with
  | none => rfl
  | some task =>
      obtain ⟨member, rfl⟩ := get_eq_some_iff.mp found
      exact absurd (id_mem_ids member) unknown

theorem mem_ready {status : Statuses} {task : Task} :
    task ∈ g.ready status ↔
      task ∈ g.tasks ∧ status task.id = .pending ∧ g.depsCompleted status task = true := by
  simp [ready]

theorem isComplete_iff {status : Statuses} :
    g.isComplete status = true ↔ ∀ task ∈ g.tasks, isTerminalStatus (status task.id) = true := by
  simp [isComplete]

/-- What `validate` establishes about a graph it accepts. -/
structure Validated (g : TaskGraph) : Prop where
  known : ∀ task ∈ g.tasks, ∀ dep ∈ task.dependsOn, dep ∈ g.ids
  irreflexive : ∀ task ∈ g.tasks, task.id ∉ task.dependsOn
  ranked : ∃ rank : String → Nat, ∀ task ∈ g.tasks, ∀ dep ∈ task.dependsOn,
    rank dep < rank task.id

theorem checkEdge_eq_ok_iff {task : Task} {dep : String} :
    g.checkEdge task dep = .ok () ↔ dep ≠ task.id ∧ dep ∈ g.ids := by
  rw [checkEdge]
  by_cases self : dep = task.id
  · simp [self]
  · by_cases known : dep ∈ g.ids <;> simp [self, has, known]

theorem validate_eq_ok_iff :
    g.validate = .ok () ↔
      (∀ task ∈ g.tasks, ∀ dep ∈ task.dependsOn, dep ≠ task.id ∧ dep ∈ g.ids) ∧
        g.findCycle = none := by
  rw [validate]
  rw [bind_eq_ok_iff]
  constructor
  · rintro ⟨_, edges, acyclic⟩
    constructor
    · intro task ht dep hd
      exact checkEdge_eq_ok_iff.mp (forM_eq_ok_iff.mp (forM_eq_ok_iff.mp edges task ht) dep hd)
    · cases found : g.findCycle with
      | none => rfl
      | some cycle => simp [found] at acyclic
  · rintro ⟨edges, acyclic⟩
    refine ⟨(), ?_, by simp [acyclic]⟩
    exact forM_eq_ok_iff.mpr fun task ht =>
      forM_eq_ok_iff.mpr fun dep hd => checkEdge_eq_ok_iff.mpr (edges task ht dep hd)

/-- An accepted graph has known dependencies only and no cycle. -/
theorem validated_of_validate (accepted : g.validate = .ok ()) : g.Validated := by
  obtain ⟨edges, acyclic⟩ := validate_eq_ok_iff.mp accepted
  obtain ⟨rank, descends⟩ := DepthFirst.rank_of_findCycle_eq_none acyclic
  refine ⟨fun task ht dep hd => (edges task ht dep hd).2, ?_, rank, ?_⟩
  · intro task ht self
    exact (edges task ht task.id self).1 rfl
  · intro task ht dep hd
    obtain ⟨other, known⟩ := edges task ht dep hd
    have edge : dep ∈ g.dependsOn task.id := by rwa [dependsOn_id ht]
    exact (descends task.id (id_mem_ids ht) dep edge known).resolve_left other

theorem depsCompleted_iff (valid : g.Validated) {status : Statuses} {task : Task}
    (member : task ∈ g.tasks) :
    g.depsCompleted status task = true ↔ ∀ dep ∈ task.dependsOn, status dep = .completed := by
  simp only [depsCompleted, List.all_eq_true, Bool.and_eq_true, decide_eq_true_eq, has]
  exact ⟨fun h dep hd => (h dep hd).2, fun h dep hd => ⟨valid.known task member dep hd, h dep hd⟩⟩

/-- A validated graph in which nothing has started and nothing is ready has no
tasks. -/
theorem Validated.eq_nil_of_ready (valid : g.Validated) {status : Statuses}
    (fresh : ∀ task ∈ g.tasks, status task.id = .pending) (none : g.ready status = []) :
    g.tasks = [] := by
  obtain ⟨rank, descends⟩ := valid.ranked
  have absent : ∀ n, ∀ task ∈ g.tasks, rank task.id ≠ n := by
    intro n
    induction n using Nat.strongRecOn with
    | ind n ih =>
        rintro task member rfl
        have blocked : ¬ g.depsCompleted status task = true := by
          intro completed
          have startable := mem_ready.mpr ⟨member, fresh task member, completed⟩
          rw [none] at startable
          exact absurd startable List.not_mem_nil
        rw [depsCompleted_iff valid member] at blocked
        push Not at blocked
        obtain ⟨dep, edge, -⟩ := blocked
        obtain ⟨other, other_mem, rfl⟩ := mem_ids.mp (valid.known task member dep edge)
        exact ih _ (descends task member _ edge) other other_mem rfl
  exact List.eq_nil_iff_forall_not_mem.mpr fun task member => absent _ task member rfl

end TaskGraph

end MultiAgent.Native
