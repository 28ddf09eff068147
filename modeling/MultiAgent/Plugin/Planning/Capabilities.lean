import MultiAgent.Plugin.Planning.Routing
import MultiAgent.Plugin.Planning.Totality

/-!
# Capabilities of the routed workers

A task of a returned plan has a worker with the capabilities it requires, if there is one,
unless its first turn fell among all the workers before the capabilities that no worker has
were dropped (`routing_iff`).
-/

namespace MultiAgent.Plugin

namespace Planning

section Parsed

variable {floats : Json.Format} {depth : Nat} {repr : Json → String} {used : List String}
  {index : Nat}
variable {raw : List Object} {tasks : List Task} {text prompt format : String}

theorem freshId_ne_empty {taskId : String} (nonempty : taskId ≠ "") :
    freshId used taskId ≠ "" := by
  induction taskId using freshId.induct used with
  | case1 taskId member ih =>
      rw [freshId, if_pos member]
      apply ih
      intro empty
      have longer := length_renamed taskId used.length
      rw [empty] at longer
      exact absurd longer (Nat.not_lt_zero _)
  | case2 taskId fresh =>
      rw [freshId, if_neg fresh]
      exact nonempty

theorem idOf_ne_empty (entry : Object) (index : Nat) : idOf repr entry index ≠ "" := by
  have numbered : s!"task_{index}" ≠ "" := by
    intro empty
    have length := congrArg String.length empty
    simp only [toString, String.length_append, String.length_empty] at length
    have five : "task_".length = 5 := rfl
    omega
  simp only [idOf]
  split_ifs with blank
  · exact numbered
  · exact blank

/-- Required capabilities as `as_capabilities` leaves them. -/
def Trimmed (task : Task) : Prop :=
  ∀ cap ∈ task.requiredCapabilities, strip cap = cap ∧ cap ≠ ""

theorem mem_capabilityNames {names : List String} {cap : String} :
    cap ∈ capabilityNames names ↔ cap ≠ "" ∧ ∃ name ∈ names, strip name = cap := by
  simp only [capabilityNames, List.mem_toFinset, List.mem_filter, List.mem_map, Bool.not_eq_true',
    String.isEmpty_eq_false_iff, ne_eq, and_comm]

theorem capabilityNames_of_trimmed {task : Task} (trimmed : Trimmed task) {cap : String} :
    cap ∈ capabilityNames task.requiredCapabilities ↔ cap ∈ task.requiredCapabilities := by
  rw [mem_capabilityNames]
  constructor
  · rintro ⟨-, name, required, rfl⟩
    rwa [(trimmed name required).1]
  · intro required
    exact ⟨(trimmed cap required).2, cap, required, (trimmed cap required).1⟩

theorem asCapabilities_eq_ok {str : Json → Except String String} {value : Json}
    {names : Finset String} (named : asCapabilities str value = .ok names) :
    names = ∅ ∨ ∃ given, names = capabilityNames given := by
  have listed {given : Json} (named : (do
      let names ← (← given.iterate).mapM str
      return capabilityNames names) = .ok names) : ∃ given, names = capabilityNames given := by
    obtain ⟨items, -, named⟩ := bind_eq_ok_iff.mp named
    obtain ⟨given, -, same⟩ := bind_eq_ok_iff.mp named
    cases same
    exact ⟨given, rfl⟩
  cases value with
  | null =>
      cases named
      exact .inl rfl
  | str text =>
      cases named
      exact .inr ⟨_, rfl⟩
  | _ => exact .inr (listed named)

theorem trimmed_of_capabilitiesOf {entry : Object} {names : List String}
    (named : capabilitiesOf repr entry = .ok names) :
    ∀ cap ∈ names, strip cap = cap ∧ cap ≠ "" := by
  intro cap member
  rw [capabilitiesOf] at named
  split at named
  · cases named
  · rename_i given found
    cases named
    rw [Finset.mem_sort] at member
    obtain rfl | ⟨names, rfl⟩ := asCapabilities_eq_ok found
    · simp at member
    · obtain ⟨solid, name, -, rfl⟩ := mem_capabilityNames.mp member
      exact ⟨strip_strip name, solid⟩

/-- The tasks of a list of entries are well formed. -/
theorem tasksFrom_formed (parsed : tasksFrom repr used index raw = .ok tasks) :
    ∀ task ∈ tasks, task.id ≠ "" ∧ strip task.description ≠ "" ∧ Trimmed task := by
  induction raw generalizing used index tasks with
  | nil =>
      cases parsed
      nofun
  | cons entry rest ih =>
      rw [tasksFrom] at parsed
      split_ifs at parsed with blank
      · exact ih parsed
      · obtain ⟨dependsOn, -, parsed⟩ := bind_eq_ok_iff.mp parsed
        obtain ⟨capabilities, named, parsed⟩ := bind_eq_ok_iff.mp parsed
        obtain ⟨later, of_later, same⟩ := bind_eq_ok_iff.mp parsed
        cases same
        rw [List.forall_mem_cons]
        refine ⟨⟨freshId_ne_empty (idOf_ne_empty entry index), ?_, ?_⟩, ih of_later⟩
        · rw [descriptionOf] at blank ⊢
          rwa [strip_strip]
        · exact trimmed_of_capabilitiesOf named

theorem mem_tasksFromLines {task : Task} (member : task ∈ tasksFromLines text prompt) :
    task.requiredCapabilities = [] := by
  simp only [tasksFromLines] at member
  split_ifs at member
  · rw [List.mem_singleton.mp member]
  · obtain ⟨⟨line, i⟩, -, rfl⟩ := List.mem_map.mp member
    rfl

/-- Tasks that require a capability come from a list of entries, and are well formed. -/
theorem parseTasks_formed
    (parsed : parseTasks floats depth repr text prompt = .ok (tasks, format)) :
    (∀ task ∈ tasks, Trimmed task) ∧
      ((∃ task ∈ tasks, task.requiredCapabilities ≠ []) → WellFormed tasks) := by
  have of_lines (same : tasks = tasksFromLines text prompt) :
      (∀ task ∈ tasks, Trimmed task) ∧
        ((∃ task ∈ tasks, task.requiredCapabilities ≠ []) → WellFormed tasks) := by
    subst same
    constructor
    · intro task member cap required
      rw [mem_tasksFromLines member] at required
      cases required
    · rintro ⟨task, member, some_required⟩
      exact absurd (mem_tasksFromLines member) some_required
  rw [parseTasks] at parsed
  split at parsed
  · cases parsed
  · cases parsed
    exact of_lines rfl
  · cases parsed
    exact of_lines rfl
  · obtain ⟨given, of_json, same⟩ := bind_eq_ok_iff.mp parsed
    split_ifs at same with empty
    · cases same
      exact of_lines rfl
    · cases same
      have formed := tasksFrom_formed of_json
      refine ⟨fun task member => (formed task member).2.2, fun _ => ?_⟩
      exact ⟨(tasksFrom_nodup of_json).1, fun task member => (formed task member).1,
        fun task member => (formed task member).2.1⟩

theorem parseTasks_ne_nil
    (parsed : parseTasks floats depth repr text prompt = .ok (tasks, format)) :
    tasks ≠ [] := by
  have of_lines : tasksFromLines text prompt ≠ [] := by
    simp only [tasksFromLines]
    split_ifs with none
    · exact List.cons_ne_nil _ _
    · intro empty
      rw [List.map_eq_nil_iff, List.zipIdx_eq_nil_iff] at empty
      exact none empty
  rw [parseTasks] at parsed
  split at parsed
  · cases parsed
  · cases parsed
    exact of_lines
  · cases parsed
    exact of_lines
  · obtain ⟨given, -, same⟩ := bind_eq_ok_iff.mp parsed
    split_ifs at same with empty
    · cases same
      exact of_lines
    · cases same
      exact empty

end Parsed

section Held

variable {router : WorkerRouter} {task before after : Task} {worker : String}
variable {tasks : List Task} {caps : List String}

/-- The worker has all the capabilities. -/
def Holds (router : WorkerRouter) (worker : String) (caps : List String) : Prop :=
  ∀ cap ∈ caps, cap ∈ router.capabilities worker

theorem mem_knownCapabilities {cap : String} : cap ∈ knownCapabilities router ↔
    ∃ worker ∈ router.workers, cap ∈ router.capabilities worker := by
  simp [knownCapabilities]

theorem mem_candidates (trimmed : Trimmed task) :
    worker ∈ router.candidates (capabilityNames task.requiredCapabilities) ↔
      worker ∈ router.workers ∧ Holds router worker task.requiredCapabilities := by
  rw [WorkerRouter.candidates, List.mem_filter, decide_eq_true_eq]
  refine and_congr_right fun _ => forall_congr' fun cap => ?_
  rw [capabilityNames_of_trimmed trimmed]

/-- Where some worker holds what a task requires, its turn is among such workers. -/
theorem holds_of_mem_pool (trimmed : Trimmed task)
    (held : ∃ worker ∈ router.workers, Holds router worker task.requiredCapabilities)
    (member : worker ∈ router.pool task.requiredCapabilities) :
    Holds router worker task.requiredCapabilities := by
  obtain ⟨holder, inside, holds⟩ := held
  have some_candidate : router.candidates (capabilityNames task.requiredCapabilities) ≠ [] :=
    List.ne_nil_of_mem ((mem_candidates trimmed).mpr ⟨inside, holds⟩)
  rw [WorkerRouter.pool, if_neg some_candidate] at member
  exact ((mem_candidates trimmed).mp member).2

/-- Where a task requires what no worker has, its turn is among all of them. -/
theorem pool_of_unknown (trimmed : Trimmed task)
    (unknown : ∃ cap ∈ task.requiredCapabilities, cap ∉ knownCapabilities router) :
    router.pool task.requiredCapabilities = router.workers := by
  rw [WorkerRouter.pool, if_pos]
  rw [List.eq_nil_iff_forall_not_mem]
  intro worker member
  obtain ⟨inside, holds⟩ := (mem_candidates trimmed).mp member
  obtain ⟨cap, required, nobody⟩ := unknown
  exact nobody (mem_knownCapabilities.mpr ⟨worker, inside, holds cap required⟩)

/-- What is asked of a returned task, given the parsed one. -/
structure RoutedWell (router : WorkerRouter) (before after : Task) : Prop where
  worker : ∃ worker ∈ router.workers, after.agent = some worker
  kept : NamesWorker router before → after.agent = before.agent
  capable : ¬ NamesWorker router before →
    (∃ worker ∈ router.workers, Holds router worker after.requiredCapabilities) →
    ∃ worker ∈ after.agent, Holds router worker after.requiredCapabilities

theorem Routes.routed (routes : Routes router before after) :
    ∃ worker ∈ router.workers, after.agent = some worker := by
  by_cases named : NamesWorker router before
  · obtain ⟨name, given, solid, member⟩ := named
    exact ⟨name, member, (routes.kept ⟨name, given, solid, member⟩).trans given⟩
  · obtain ⟨worker, member, routed⟩ := routes.turn named
    exact ⟨worker, WorkerRouter.pool_subset member, routed⟩

theorem Routes.routedWell (routes : Routes router before after) (trimmed : Trimmed before) :
    RoutedWell router before after := by
  refine ⟨routes.routed, routes.kept, ?_⟩
  intro unnamed held
  rw [routes.capabilities] at held ⊢
  obtain ⟨worker, member, routed⟩ := routes.turn unnamed
  exact ⟨worker, routed, holds_of_mem_pool trimmed held member⟩

theorem trimmed_supported {knownCaps : List String} (trimmed : Trimmed before)
    (same : after.requiredCapabilities = supported knownCaps before) : Trimmed after := by
  intro cap required
  rw [same] at required
  exact trimmed cap (List.mem_of_mem_filter required)

/-- The turns of the first repair are lucky: a task that requires something no worker has
falls to a worker with what is left of its requirements, if there is one. -/
def Lucky (router : WorkerRouter) (tasks : List Task) : Prop :=
  ∀ i task, tasks[i]? = some task → ¬ NamesWorker router task →
    (∃ cap ∈ task.requiredCapabilities, cap ∉ knownCapabilities router) →
    (∃ worker ∈ router.workers, Holds router worker (supported (knownCapabilities router) task)) →
    ∃ worker, router.workers[turnsBefore router tasks i % router.workers.length]? = some worker ∧
      (worker = "" ∨ Holds router worker (supported (knownCapabilities router) task))

end Held

section Runs

variable {set : SetIteration} {router : WorkerRouter} {knownCaps : List String} {s last : State}
variable {allow : Bool} {attempts : Nat}

/-- Related lists are related at each index. -/
theorem related_at {α β : Type} {R : α → β → Prop} {l : List α} {l' : List β}
    (all : List.Forall₂ R l l') {i : Nat} {a : α} (found : l[i]? = some a) :
    ∃ b, l'[i]? = some b ∧ R a b := by
  induction all generalizing i with
  | nil => cases found
  | cons first _ ih =>
      cases i with
      | zero =>
          cases found
          exact ⟨_, rfl, first⟩
      | succ i => exact ih found

/-- How a plan whose tasks require something no worker has is returned: its tasks take their
turns in a first repair, and are routed from there. -/
theorem first_turns (workers : router.workers ≠ []) (unknown : ¬ AllKnown knownCaps s.tasks)
    (start : s.cursor = 0)
    (ended : attempt set router router.workers knownCaps allow attempts s = (last, .ok ())) :
    attempts ≠ 0 ∧ ∃ mids, List.Forall₂ (Routes router) mids last.tasks ∧
      mids.length = s.tasks.length ∧
      ∀ (i : Nat) (task : Task), s.tasks[i]? = some task → ∃ mid, mids[i]? = some mid ∧
        mid.requiredCapabilities = supported knownCaps task ∧
        (NamesWorker router task → mid.agent = task.agent) ∧
        (¬ NamesWorker router task → ∃ worker, mid.agent = some worker ∧
          (router.pool task.requiredCapabilities)[turnsBefore router s.tasks i %
            (router.pool task.requiredCapabilities).length]? = some worker) := by
  have unchecked : check set router.workers knownCaps s.tasks ≠ .ok () := by
    intro checked
    exact unknown (check_ok_iff.mp checked).2.2.capabilities
  cases attempts with
  | zero =>
      rw [attempt] at ended
      split at ended
      · exact absurd ‹_› unchecked
      · simp only at ended
        split_ifs at ended
        · split at ended
          · rename_i mended
            refine absurd ?_ unknown
            intro task member cap required
            have known := (check_ok_iff.mp mended).2.2.capabilities
            obtain ⟨-, same⟩ | ⟨-, same⟩ := applyDependencyFallback_fst set s.tasks
            · rw [same] at known
              exact known _ (mem_withDependencies.mpr ⟨task, member, rfl⟩) cap required
            · rw [same] at known
              exact known _ (mem_withDependencies.mpr ⟨task, member, rfl⟩) cap required
          · cases ended
        · cases ended
  | succ left =>
      rw [attempt] at ended
      split at ended
      · exact absurd ‹_› unchecked
      · simp only at ended
        split at ended
        · rename_i tasks cursor notes repaired
          rw [start] at repaired
          obtain ⟨mids, _, _, again, all⟩ :=
            repairTasks_ok workers router.workers knownCaps 0 s.tasks
          rw [repaired] at again
          cases again
          have known : AllKnown knownCaps tasks :=
            fun task member => (settled_of_repaired all task member).2
          refine ⟨Nat.succ_ne_zero left, tasks, routes_of_attempt workers known ended,
            all.length_eq.symm, ?_⟩
          intro i task found
          have turns := repairTasks_turns workers repaired found
          rwa [Nat.zero_add] at turns
        · cases ended

/-- A plan of well formed tasks is returned after a repair, unless its graph is not valid and
there is no fallback. -/
theorem returned (set : SetIteration) (knownCaps : List String) (workers : router.workers ≠ [])
    (some_repair : attempts ≠ 0) (formed : WellFormed s.tasks)
    (recoverable : ValidGraph s.tasks ∨ allow = true) :
    ∃ last, attempt set router router.workers knownCaps allow attempts s = (last, .ok ()) := by
  obtain ⟨mid, same, repairs, valid, settled⟩ :=
    last_attempt set knownCaps workers allow some_repair formed
  rw [same]
  by_cases graph : ValidGraph s.tasks
  · obtain ⟨last, ends, -⟩ := returned_again workers allow (valid graph)
    exact ⟨last, ends⟩
  · rw [recoverable.resolve_left graph]
    obtain ⟨last, ends, -⟩ := returned_after_fallback set workers
      (Repairs.wellFormed repairs formed) (settled graph)
      fun graph' => graph ((Repairs.validGraph repairs).mp graph')
    exact ⟨last, ends⟩

/-- A list is related to another of its length whose elements at each index are related. -/
theorem forall₂_of_related_at {α β : Type} {R : α → β → Prop} {l : List α} {l' : List β}
    (length : l.length = l'.length)
    (related : ∀ (i : Nat) (a : α), l[i]? = some a → ∃ b, l'[i]? = some b ∧ R a b) :
    List.Forall₂ R l l' := by
  rw [List.forall₂_iff_get]
  refine ⟨length, ?_⟩
  intro i inside inside'
  obtain ⟨b, found, holds⟩ := related i _ (List.getElem?_eq_getElem inside)
  rw [List.getElem?_eq_getElem inside'] at found
  cases found
  exact holds

/-- Without a fallback, only a plan with a valid graph is returned. -/
theorem recoverable_of_returned (workers : router.workers ≠ [])
    (ended : attempt set router router.workers knownCaps allow attempts s = (last, .ok ())) :
    ValidGraph s.tasks ∨ allow = true := by
  cases allow with
  | true => exact .inr rfl
  | false =>
      have outcome := @strict_cases set router router.workers knownCaps workers attempts s
      rw [ended] at outcome
      obtain ⟨-, repairs, graph, -⟩ | ⟨error, raised, -⟩ := outcome
      · exact .inl ((Repairs.validGraph repairs).mp graph)
      · cases raised

/-- Lucky turns are what the repairs before the routing need. -/
theorem routedWell_of_lucky (workers : router.workers ≠ []) (start : s.cursor = 0)
    (trimmed : ∀ task ∈ s.tasks, Trimmed task)
    (lucky : attempts ≠ 0 → (ValidGraph s.tasks ∨ allow = true) → Lucky router s.tasks)
    (ended : attempt set router router.workers (knownCapabilities router) allow attempts s =
      (last, .ok ())) : List.Forall₂ (RoutedWell router) s.tasks last.tasks := by
  by_cases known : AllKnown (knownCapabilities router) s.tasks
  · have routes := routes_of_attempt workers known ended
    refine forall₂_of_related_at routes.length_eq ?_
    intro i task found
    obtain ⟨after, at_after, routes⟩ := related_at routes found
    exact ⟨after, at_after, routes.routedWell (trimmed task (List.mem_of_getElem? found))⟩
  · obtain ⟨some_repair, mids, routes, length, turns⟩ := first_turns workers known start ended
    have lucky := lucky some_repair (recoverable_of_returned workers ended)
    refine forall₂_of_related_at (length.symm.trans routes.length_eq) ?_
    intro i task found
    obtain ⟨mid, at_mid, requires, kept, turn⟩ := turns i task found
    obtain ⟨after, at_after, routes⟩ := related_at routes at_mid
    have clean := trimmed task (List.mem_of_getElem? found)
    refine ⟨after, at_after, routes.routed, ?_, ?_⟩
    · intro named
      have same := kept named
      rw [routes.kept (by rwa [NamesWorker, same]), same]
    · intro unnamed held
      obtain ⟨worker, routed, turn⟩ := turn unnamed
      rw [routes.capabilities] at held ⊢
      by_cases named : NamesWorker router mid
      · refine ⟨worker, (routes.kept named).trans routed, ?_⟩
        by_cases unknown : ∃ cap ∈ task.requiredCapabilities, cap ∉ knownCapabilities router
        · rw [requires] at held ⊢
          obtain ⟨lucky_one, at_turn, blank | holds⟩ := lucky i task found unnamed unknown held
          · rw [pool_of_unknown clean unknown, at_turn] at turn
            cases turn
            obtain ⟨name, given, solid, -⟩ := named
            rw [routed] at given
            cases given
            exact absurd blank solid
          · rw [pool_of_unknown clean unknown, at_turn] at turn
            cases turn
            exact holds
        · push Not at unknown
          rw [requires, supported_eq unknown] at held ⊢
          exact holds_of_mem_pool clean held (List.mem_of_getElem? turn)
      · obtain ⟨other, member, routed⟩ := routes.turn named
        exact ⟨other, routed, holds_of_mem_pool (trimmed_supported clean requires) held member⟩

end Runs

/-- A plan whose tasks have unlucky turns is returned, and not routed well. -/
theorem lucky_of_routedWell {floats : Json.Format} {depth : Nat} {repr : Json → String}
    {set : SetIteration} {router : WorkerRouter} {text prompt : String} {allow : Bool}
    {maxRepairAttempts : Int}
    (property : ∀ parsed format tasks reported notes,
      parseTasks floats depth repr text prompt = .ok (parsed, format) →
      parsePlan floats depth repr set text prompt router allow maxRepairAttempts =
        .ok (tasks, reported, notes) → List.Forall₂ (RoutedWell router) parsed tasks)
    {parsed : List Task} {format : String}
    (of_text : parseTasks floats depth repr text prompt = .ok (parsed, format))
    (enough : 1 ≤ maxRepairAttempts) (recoverable : ValidGraph parsed ∨ allow = true) :
    Lucky router parsed := by
  intro i task found unnamed unknown held
  have workers : router.workers ≠ [] := by
    obtain ⟨holder, member, -⟩ := held
    exact List.ne_nil_of_mem member
  obtain ⟨trimmed, formed⟩ := parseTasks_formed of_text
  have member := List.mem_of_getElem? found
  have clean := trimmed task member
  have some_repair : (max 0 maxRepairAttempts).toNat ≠ 0 := by omega
  have requiring : task.requiredCapabilities ≠ [] := by
    obtain ⟨cap, required, -⟩ := unknown
    exact List.ne_nil_of_mem required
  obtain ⟨last, ended⟩ := @returned router ⟨parsed, 0, []⟩ allow _ set
    (knownCapabilities router) workers some_repair (formed ⟨task, member, requiring⟩) recoverable
  have plan : parsePlan floats depth repr set text prompt router allow maxRepairAttempts =
      .ok (last.tasks, format, last.notes) := by
    rw [parsePlan, of_text, ok_bind]
    simp only [validateAndRepair, ended]
    rfl
  have not_known : ¬ AllKnown (knownCapabilities router) parsed := by
    intro known
    obtain ⟨cap, required, nobody⟩ := unknown
    exact nobody (known task member cap required)
  obtain ⟨-, mids, routes, -, turns⟩ := first_turns workers not_known rfl ended
  obtain ⟨mid, at_mid, requires, -, turn⟩ := turns i task found
  obtain ⟨worker, routed, turn⟩ := turn unnamed
  rw [pool_of_unknown clean unknown] at turn
  refine ⟨worker, turn, ?_⟩
  by_cases blank : worker = ""
  · exact .inl blank
  · right
    obtain ⟨after, at_after, routes⟩ := related_at routes at_mid
    obtain ⟨_, same, well⟩ := related_at (property _ _ _ _ _ of_text plan) found
    rw [at_after] at same
    cases same
    have named : NamesWorker router mid :=
      ⟨worker, routed, blank, List.mem_of_getElem? turn⟩
    have capable := well.capable unnamed
    rw [routes.capabilities, requires, routes.kept named, routed] at capable
    obtain ⟨_, same, holds⟩ := capable held
    cases same
    exact holds

/-- The workers of a returned plan are as its tasks ask, exactly when the turns of a first
repair are lucky. -/
theorem routing_iff (floats : Json.Format) (depth : Nat) (repr : Json → String)
    (set : SetIteration) (router : WorkerRouter) (text prompt : String) (allow : Bool)
    (maxRepairAttempts : Int) :
    (∀ parsed format tasks reported notes,
      parseTasks floats depth repr text prompt = .ok (parsed, format) →
      parsePlan floats depth repr set text prompt router allow maxRepairAttempts =
        .ok (tasks, reported, notes) → List.Forall₂ (RoutedWell router) parsed tasks) ↔
    (∀ parsed format, parseTasks floats depth repr text prompt = .ok (parsed, format) →
      1 ≤ maxRepairAttempts → (ValidGraph parsed ∨ allow = true) → Lucky router parsed) := by
  constructor
  · intro property parsed format of_text enough recoverable
    exact lucky_of_routedWell property of_text enough recoverable
  · intro lucky parsed format tasks reported notes of_text plan
    obtain ⟨trimmed, -⟩ := parseTasks_formed of_text
    rw [parsePlan, of_text, ok_bind] at plan
    simp only [validateAndRepair] at plan
    cases ended : attempt set router router.workers (knownCapabilities router) allow
        (max 0 maxRepairAttempts).toNat ⟨parsed, 0, []⟩ with
    | mk last result =>
        rw [ended] at plan
        cases result with
        | error error => cases plan
        | ok _ =>
            cases plan
            have workers : router.workers ≠ [] := by
              intro none
              exact not_returned none (parseTasks_ne_nil of_text) ended
            refine routedWell_of_lucky workers rfl trimmed ?_ ended
            intro some_repair recoverable
            exact lucky parsed format of_text (by omega) recoverable

/-- Two workers, the second of which has a capability. -/
def twoWorkers : WorkerRouter := ⟨["v", "w"], fun name => if name = "w" then some {"a"} else none⟩

theorem mem_knownCapabilities_two {cap : String} :
    cap ∈ knownCapabilities twoWorkers ↔ cap = "a" := by
  simp [mem_knownCapabilities, twoWorkers, WorkerRouter.capabilities]

theorem supported_two : supported (knownCapabilities twoWorkers)
    ⟨"task_1", "x", none, [], ["a", "z"], none⟩ = ["a"] := by
  simp [supported, mem_knownCapabilities_two]

set_option maxRecDepth 2000 in
theorem parseTasks_two : parseTasks default 900 (fun _ => "")
    (planText "required_capabilities" "[\"a\",\"z\"]") "go" =
      .ok ([⟨"task_1", "x", none, [], ["a", "z"], none⟩], "json") := by
  have parsed := @parseJsonTasks_planText "required_capabilities" "[\"a\",\"z\"]"
    (.arr [.str "a", .str "z"]) (by decide) (by decide) rfl
  have described := @descriptionOf_planEntry "required_capabilities"
    (.arr [.str "a", .str "z"]) (by decide)
  have names : capabilitiesOf (fun _ => "") (planEntry "required_capabilities"
      (.arr [.str "a", .str "z"])) = .ok ["a", "z"] := by
    have given : asCapabilities (fun value => .ok (value.toStr fun _ => ""))
        (Object.get (planEntry "required_capabilities" (.arr [.str "a", .str "z"]))
          "required_capabilities") = .ok {"a", "z"} := by
      change Except.ok (capabilityNames ["a", "z"]) = _
      decide
    rw [capabilitiesOf, given]
    simp only
    rw [Finset.sort_insert, Finset.sort_singleton]
    · simp
    · simp
  have fresh : freshId [] "task_1" = "task_1" := by
    rw [freshId, if_neg (List.not_mem_nil)]
  rw [parseTasks, parsed]
  simp only [tasksFromJson, tasksFrom, described, names]
  have deps : dependenciesOf (fun _ => "") (planEntry "required_capabilities"
      (.arr [.str "a", .str "z"])) = .ok [] := rfl
  have id : idOf (fun _ => "") (planEntry "required_capabilities"
      (.arr [.str "a", .str "z"])) 1 = "task_1" := by decide
  have agent : agentOf (fun _ => "") (planEntry "required_capabilities"
      (.arr [.str "a", .str "z"])) = none := rfl
  rw [deps, id, agent, fresh, if_neg (by decide)]
  rfl

/-- A requirement that no worker meets sends the task to the worker whose turn it is. -/
theorem not_routedWell : ¬ ∀ parsed format tasks reported notes,
    parseTasks default 900 (fun _ => "") (planText "required_capabilities" "[\"a\",\"z\"]") "go" =
      .ok (parsed, format) →
    parsePlan default 900 (fun _ => "") .dedup
      (planText "required_capabilities" "[\"a\",\"z\"]") "go" twoWorkers false 2 =
      .ok (tasks, reported, notes) → List.Forall₂ (RoutedWell twoWorkers) parsed tasks := by
  intro property
  have graph : ValidGraph [⟨"task_1", "x", none, [], ["a", "z"], none⟩] :=
    @validGraph_cleared [⟨"task_1", "x", none, [], ["a", "z"], none⟩]
  have lucky := lucky_of_routedWell property parseTasks_two (by decide) (.inl graph) 0 _ rfl
    (by decide) ⟨"z", by simp, by rw [mem_knownCapabilities_two]; decide⟩
  rw [supported_two] at lucky
  obtain ⟨worker, turn, outcome⟩ := lucky ⟨"w", by decide, by
    intro cap required
    rw [List.mem_singleton.mp required]
    decide⟩
  cases turn
  obtain blank | holds := outcome
  · exact absurd blank (by decide)
  · exact absurd (holds "a" (List.mem_singleton_self _)) (by decide)

end Planning

end MultiAgent.Plugin
