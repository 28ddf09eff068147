import MultiAgent.Plugin.Planning.Fallback

/-!
# Routing by capabilities

A pass keeps a worker that a task names, and gives any other task its turn among the workers
that hold what it requires. The first repair of a task that requires something no worker has
gives it a turn among all the workers (`repairTasks_turns`), and later passes keep that
(`routes_of_attempt`).
-/

namespace MultiAgent.Plugin

namespace Planning

/-- The task names a worker. A blank agent names none. -/
def NamesWorker (router : WorkerRouter) (task : Task) : Prop :=
  ∃ name ∈ task.agent, name ≠ "" ∧ name ∈ router.workers

instance (router : WorkerRouter) (task : Task) : Decidable (NamesWorker router task) :=
  decidable_of_iff (task.agent.any fun name => decide (name ≠ "" ∧ name ∈ router.workers)) (by
    cases given : task.agent <;> simp [NamesWorker, given])

/-- The number of turns that are taken before task number `i`. -/
def turnsBefore (router : WorkerRouter) (tasks : List Task) (i : Nat) : Nat :=
  ((tasks.take i).filter fun task => decide (¬ NamesWorker router task)).length

namespace WorkerRouter

variable {router : WorkerRouter} {cursor : Nat} {task : Task}

theorem assign_named (named : NamesWorker router task) : ∃ name, task.agent = some name ∧
    router.assign cursor task.agent task.requiredCapabilities = .ok (name, cursor) := by
  obtain ⟨name, given, solid, member⟩ := named
  refine ⟨name, given, ?_⟩
  rw [Option.mem_def.mp given]
  exact assign_preferred member solid

theorem assign_unnamed (workers : router.workers ≠ []) (unnamed : ¬ NamesWorker router task)
    (cursor : Nat) : ∃ name ∈ router.pool task.requiredCapabilities,
      (router.pool task.requiredCapabilities)[
        cursor % (router.pool task.requiredCapabilities).length]? = some name ∧
      router.assign cursor task.agent task.requiredCapabilities = .ok (name, cursor + 1) := by
  obtain ⟨name, member, turn, found⟩ :=
    @roundRobin_of_ne_nil (router.pool task.requiredCapabilities) cursor (pool_ne_nil workers)
  refine ⟨name, member, turn, ?_⟩
  rw [assign_other, found]
  intro name given solid member
  exact unnamed ⟨name, given, solid, member⟩

end WorkerRouter

/-- What passes do to a task whose requirements they keep. -/
structure Routes (router : WorkerRouter) (before after : Task) : Prop where
  capabilities : after.requiredCapabilities = before.requiredCapabilities
  kept : NamesWorker router before → after.agent = before.agent
  turn : ¬ NamesWorker router before →
    ∃ worker ∈ router.pool before.requiredCapabilities, after.agent = some worker

namespace Routes

variable {router : WorkerRouter} {a b c : Task} {tasks tasks' tasks'' : List Task}

theorem trans (first : Routes router a b) (second : Routes router b c) : Routes router a c := by
  refine ⟨second.capabilities.trans first.capabilities, ?_, ?_⟩
  · intro named
    have same := first.kept named
    rw [second.kept (by rwa [NamesWorker, same]), same]
  · intro unnamed
    by_cases named : NamesWorker router b
    · rw [second.kept named]
      exact first.turn unnamed
    · rw [← first.capabilities]
      exact second.turn named

theorem trans_all (first : List.Forall₂ (Routes router) tasks tasks')
    (second : List.Forall₂ (Routes router) tasks' tasks'') :
    List.Forall₂ (Routes router) tasks tasks'' := by
  induction first generalizing tasks'' with
  | nil =>
      cases second
      exact .nil
  | cons first _ ih =>
      cases second with
      | cons second rest => exact .cons (first.trans second) (ih rest)

end Routes

section Passes

variable {set : SetIteration} {router : WorkerRouter} {knownAgents knownCaps : List String}
variable {cursor cursor' : Nat} {task after : Task} {tasks tasks' : List Task} {notes : List Note}
variable {s last : State}

/-- One assignment routes a task, whatever becomes of its other fields. -/
theorem routes_of_assign (workers : router.workers ≠ []) {agent : String} {next : Nat}
    (assigned : router.assign cursor task.agent task.requiredCapabilities = .ok (agent, next))
    (same : after.requiredCapabilities = task.requiredCapabilities)
    (routed : after.agent = some agent) : Routes router task after := by
  refine ⟨same, ?_, ?_⟩
  · intro named
    obtain ⟨name, given, kept⟩ := @WorkerRouter.assign_named router cursor task named
    rw [kept] at assigned
    cases assigned
    rw [routed, given]
  · intro unnamed
    obtain ⟨name, member, -, turn⟩ := WorkerRouter.assign_unnamed workers unnamed cursor
    rw [turn] at assigned
    cases assigned
    exact ⟨agent, member, routed⟩

theorem routes_of_routeAgents (workers : router.workers ≠ [])
    (routed : routeAgents router cursor tasks = .ok (tasks', cursor')) :
    List.Forall₂ (Routes router) tasks tasks' := by
  induction tasks generalizing cursor tasks' cursor' with
  | nil =>
      cases routed
      exact .nil
  | cons task rest ih =>
      obtain ⟨⟨agent, next⟩, assigned, routed⟩ := bind_eq_ok_iff.mp routed
      obtain ⟨⟨rest', last⟩, later, same⟩ := bind_eq_ok_iff.mp routed
      cases same
      exact .cons (routes_of_assign workers assigned rfl rfl) (ih later)

/-- The capabilities of a task that some worker has. -/
def supported (knownCaps : List String) (task : Task) : List String :=
  task.requiredCapabilities.filter fun cap => decide (cap ∈ knownCaps)

/-- A repair of a list gives every task that names no worker its turn in the order of the
list. -/
theorem repairTasks_turns (workers : router.workers ≠ [])
    (repaired : repairTasks router knownAgents knownCaps cursor tasks =
      .ok (tasks', cursor', notes)) {i : Nat} (found : tasks[i]? = some task) :
    ∃ after, tasks'[i]? = some after ∧ after.requiredCapabilities = supported knownCaps task ∧
      (NamesWorker router task → after.agent = task.agent) ∧
      (¬ NamesWorker router task → ∃ worker, after.agent = some worker ∧
        (router.pool task.requiredCapabilities)[(cursor + turnsBefore router tasks i) %
          (router.pool task.requiredCapabilities).length]? = some worker) := by
  induction tasks generalizing cursor tasks' cursor' notes i with
  | nil => cases found
  | cons first rest ih =>
      obtain ⟨⟨first', next, early⟩, one, repaired⟩ := bind_eq_ok_iff.mp repaired
      obtain ⟨⟨rest', stop, later⟩, others, same⟩ := bind_eq_ok_iff.mp repaired
      cases same
      by_cases named : NamesWorker router first
      · obtain ⟨name, given, assigned⟩ := @WorkerRouter.assign_named router cursor first named
        obtain ⟨_, eq⟩ := @repairTask_of_assign router knownAgents knownCaps _ _ _ _ assigned
        rw [eq] at one
        cases one
        cases i with
        | zero =>
            cases found
            exact ⟨_, rfl, rfl, fun _ => given.symm, fun unnamed => absurd named unnamed⟩
        | succ i =>
            have turns : turnsBefore router (first :: rest) (i + 1) =
                turnsBefore router rest i := by
              rw [turnsBefore, List.take_succ_cons, List.filter_cons_of_neg (by simp [named])]
              rfl
            rw [turns]
            exact ih others found
      · obtain ⟨name, -, turn, assigned⟩ := WorkerRouter.assign_unnamed workers named cursor
        obtain ⟨_, eq⟩ := @repairTask_of_assign router knownAgents knownCaps _ _ _ _ assigned
        rw [eq] at one
        cases one
        cases i with
        | zero =>
            cases found
            exact ⟨_, rfl, rfl, fun named' => absurd named' named, fun _ => ⟨name, rfl, turn⟩⟩
        | succ i =>
            have turns : turnsBefore router (first :: rest) (i + 1) =
                1 + turnsBefore router rest i := by
              rw [turnsBefore, List.take_succ_cons, List.filter_cons_of_pos (by simp [named]),
                List.length_cons, Nat.add_comm]
              rfl
            rw [turns, ← Nat.add_assoc]
            exact ih others found

/-- Every required capability is one that some worker has. -/
def AllKnown (knownCaps : List String) (tasks : List Task) : Prop :=
  ∀ task ∈ tasks, ∀ cap ∈ task.requiredCapabilities, cap ∈ knownCaps

theorem supported_eq (known : ∀ cap ∈ task.requiredCapabilities, cap ∈ knownCaps) :
    supported knownCaps task = task.requiredCapabilities := by
  rw [supported, List.filter_eq_self]
  intro cap required
  exact decide_eq_true (known cap required)

theorem routes_of_repairTasks (workers : router.workers ≠ []) (known : AllKnown knownCaps tasks)
    (repaired : repairTasks router knownAgents knownCaps cursor tasks =
      .ok (tasks', cursor', notes)) : List.Forall₂ (Routes router) tasks tasks' := by
  induction tasks generalizing cursor tasks' cursor' notes with
  | nil =>
      cases repaired
      exact .nil
  | cons task rest ih =>
      obtain ⟨first, others⟩ := List.forall_mem_cons.mp known
      obtain ⟨⟨task', next, early⟩, one, repaired⟩ := bind_eq_ok_iff.mp repaired
      obtain ⟨⟨rest', stop, later⟩, more, same⟩ := bind_eq_ok_iff.mp repaired
      cases same
      obtain ⟨agent, -, _, assigned⟩ :=
        router.assign_ok workers cursor task.agent task.requiredCapabilities
      obtain ⟨_, eq⟩ := @repairTask_of_assign router knownAgents knownCaps _ _ _ _ assigned
      rw [eq] at one
      cases one
      exact .cons (routes_of_assign workers assigned (supported_eq first) rfl) (ih others more)

theorem allKnown_of_routes (routes : List.Forall₂ (Routes router) tasks tasks')
    (known : AllKnown knownCaps tasks) : AllKnown knownCaps tasks' := by
  intro after member
  obtain ⟨before, inside, routes⟩ := exists_related routes member
  rw [routes.capabilities]
  exact known before inside

theorem routes_withDependencies {deps : Task → List String}
    (routes : List.Forall₂ (Routes router) (withDependencies deps tasks) tasks') :
    List.Forall₂ (Routes router) tasks tasks' := by
  rw [withDependencies, List.forall₂_map_left_iff] at routes
  exact routes.imp fun _ _ routes => ⟨routes.capabilities, routes.kept, routes.turn⟩

theorem routes_of_route (workers : router.workers ≠ [])
    (ended : attempt.route router s = (last, .ok ())) :
    List.Forall₂ (Routes router) s.tasks last.tasks := by
  rw [attempt.route] at ended
  split at ended
  · rename_i routed
    cases ended
    exact routes_of_routeAgents workers routed
  · cases ended

/-- What returned tasks keep, where all that is required is known. -/
theorem routes_of_attempt (workers : router.workers ≠ []) {allow : Bool} {attempts : Nat}
    (known : AllKnown knownCaps s.tasks)
    (ended : attempt set router knownAgents knownCaps allow attempts s = (last, .ok ())) :
    List.Forall₂ (Routes router) s.tasks last.tasks := by
  induction attempts generalizing s with
  | zero =>
      rw [attempt] at ended
      split at ended
      · exact routes_of_route workers ended
      · simp only at ended
        split_ifs at ended with allowed
        · split at ended
          · have routes := routes_of_route workers ended
            obtain ⟨-, same⟩ | ⟨-, same⟩ := applyDependencyFallback_fst set s.tasks
            · rw [same] at routes
              exact routes_withDependencies routes
            · rw [same] at routes
              exact routes_withDependencies routes
          · cases ended
        · cases ended
  | succ left ih =>
      rw [attempt] at ended
      split at ended
      · exact routes_of_route workers ended
      · simp only at ended
        split at ended
        · rename_i repaired
          have first := routes_of_repairTasks workers known repaired
          exact Routes.trans_all first (ih (allKnown_of_routes first known) ended)
        · cases ended

/-- Without workers no plan is returned. -/
theorem not_returned (none : router.workers = []) {allow : Bool} {attempts : Nat}
    (nonempty : s.tasks ≠ []) :
    attempt set router knownAgents knownCaps allow attempts s ≠ (last, .ok ()) := by
  have no_turn (cursor : Nat) (preferred : Option String) (required : List String) :
      router.assign cursor preferred required = .error .zeroDivision := by
    rw [WorkerRouter.assign_other (by simp [none])]
    have nobody : router.pool required = [] := by
      rw [WorkerRouter.pool, WorkerRouter.candidates, none]
      simp
    rw [nobody]
    rfl
  have no_route {cursor : Nat} {tasks : List Task} (nonempty : tasks ≠ []) :
      routeAgents router cursor tasks = .error .zeroDivision := by
    cases tasks with
    | nil => exact absurd rfl nonempty
    | cons task rest =>
        rw [routeAgents, no_turn]
        rfl
  have no_repair : repairTasks router knownAgents knownCaps s.cursor s.tasks =
      .error .zeroDivision := by
    cases given : s.tasks with
    | nil => exact absurd given nonempty
    | cons task rest =>
        rw [repairTasks, repairTask, no_turn]
        rfl
  have fallback : (applyDependencyFallback set s.tasks).1 ≠ [] := by
    obtain ⟨-, same⟩ | ⟨-, same⟩ := applyDependencyFallback_fst set s.tasks
    · rw [same]
      simpa [pruned, withDependencies] using nonempty
    · rw [same]
      simpa [withDependencies] using nonempty
  intro ended
  cases attempts with
  | zero =>
      simp only [attempt, attempt.route, no_route nonempty, no_route fallback] at ended
      split at ended
      · cases ended
      · split_ifs at ended
        · split at ended <;> cases ended
        · cases ended
  | succ left =>
      simp only [attempt, attempt.route, no_route nonempty, no_repair] at ended
      split at ended <;> cases ended

end Passes

end Planning

end MultiAgent.Plugin
