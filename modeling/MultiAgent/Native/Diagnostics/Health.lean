import MultiAgent.Native.Diagnostics.Reconstruction
import Mathlib.Algebra.Order.Ring.Unbundled.Rat
import Mathlib.Data.List.DropRight

/-!
# The health of the runtime

The listing of the runs and the health snapshot of `diagnostics.ts`. Whatever was ingested, as
long as no run id is started twice, the registry is a window on the runs that were started
last, and it shows of each of them what it was told about it (`window_of_ingested`).
-/

namespace MultiAgent.Native.Diagnostics

open Recovery

namespace RunRegistry

/-- The number of entries that `slice(-n)` leaves, if there are as many, where `n` is
`Math.max(1, Math.min(limit, maxRuns))`. -/
def listed (registry : RunRegistry) : JsNumber → Nat
  -- the slice begins at 0
  | .nan => registry.maxRuns
  | .infinite negative => if negative then 1 else registry.maxRuns
  | .finite limit => (max 1 (min limit registry.maxRuns)).floor.toNat

def list (registry : RunRegistry) (limit : JsNumber) : List RunInspection :=
  (registry.runs.values.rtake (registry.listed limit)).reverse

def active (registry : RunRegistry) : List RunInspection :=
  registry.runs.values.filter fun r => decide (r.status = .running)

def activeCount (registry : RunRegistry) : Nat := registry.active.length

def activeFailureCount (registry : RunRegistry) : Nat :=
  (registry.active.map RunInspection.failureCount).sum

end RunRegistry

inductive RuntimeHealthStatus where
  | healthy
  | degraded
  | unhealthy
  deriving DecidableEq, Repr

structure RuntimeHealthSnapshot where
  status : RuntimeHealthStatus
  checkedAt : Int
  uptimeMs : Int
  activeRuns : Nat
  metrics : MetricsCollector
  reasons : List String

namespace RuntimeDiagnostics

def recentRuns (diagnostics : RuntimeDiagnostics) (limit : JsNumber) : List RunInspection :=
  diagnostics.registry.list limit

def reasons (activeRuns activeFailures : Nat) (metrics : MetricsCollector) : List String :=
  (if activeRuns ≠ 0 then [s!"{activeRuns} run(s) active"] else []) ++
  (if activeFailures ≠ 0 then [s!"{activeFailures} failure(s) in active run(s)"] else []) ++
  (if metrics.recoveryTimeouts ≠ 0 then
    [s!"{metrics.recoveryTimeouts} recovery timeout(s) recorded"] else []) ++
  (if 0 < metrics.tasksFailed ∧ metrics.tasksCompleted = 0 then
    ["no completed tasks with recorded failures"] else [])

/-- `health`, for diagnostics of the instant `startedAt`, when the clock reads `checkedAt` and
then `later`. -/
def health (diagnostics : RuntimeDiagnostics) (startedAt checkedAt later : Int) :
    RuntimeHealthSnapshot :=
  let metrics := diagnostics.metrics
  let activeRuns := diagnostics.registry.activeCount
  let activeFailures := diagnostics.registry.activeFailureCount
  { status :=
      if 0 < activeFailures then .unhealthy
      else if 0 < activeRuns ∨ 0 < metrics.tasksFailed ∨ 0 < metrics.recoveryFailed ∨
          0 < metrics.recoveryTimeouts then .degraded
      else .healthy
    checkedAt
    uptimeMs := max 0 (later - startedAt)
    activeRuns
    metrics
    reasons := reasons activeRuns activeFailures metrics }

end RuntimeDiagnostics

section Window

/-- The run that the event starts. -/
def started : RuntimeEvent → Option String
  | .recovery _ (.started runId) => some runId
  | _ => none

/-- What an event tells of a run. -/
def tells (runId : String) : RuntimeEvent → Option Told
  | .recovery time event => if event.runId = runId then some (time, event) else none
  | .taskStarted _ _ _ | .taskFinished _ _ _ _ _ => none

/-- The entry that a run has got from the events about it. -/
def account (events : List RuntimeEvent) (runId : String) : Option RunInspection :=
  (events.filterMap (tells runId)).foldl follow none

/-- The registry shows the runs that were started last. -/
structure Window (events : List RuntimeEvent) (registry : RunRegistry) : Prop where
  keys : registry.runs.keys = (events.filterMap started).rtake registry.maxRuns
  entries : ∀ runId ∈ registry.runs.keys, registry.get runId = account events runId

variable {events : List RuntimeEvent} {registry : RunRegistry} {event : RuntimeEvent}
  {runId : String}

theorem account_concat :
    account (events ++ [event]) runId =
      (tells runId event).elim (account events runId) (follow (account events runId)) := by
  rw [account, List.filterMap_append, List.foldl_append]
  cases told : tells runId event with
  | none => simp [told, account]
  | some told' => simp [told, account]

theorem Window.update {time : Int} {told : ObservabilityEvent}
    {change : RunInspection → RunInspection} (window : Window events registry)
    (starts : started (.recovery time told) = none)
    (follows : ∀ entry, follow entry (time, told) = entry.map (.whileRunning change)) :
    Window (events ++ [.recovery time told]) (registry.update told.runId change) := by
  have keys : (registry.update told.runId change).runs.keys = registry.runs.keys := by
    rw [RunRegistry.update, Dict.keys_modify]
  constructor
  · rw [keys, window.keys, List.filterMap_append]
    simp [starts, RunRegistry.update]
  · intro runId known
    rw [keys] at known
    rw [account_concat, RunRegistry.get_update, ← window.entries runId known, tells]
    by_cases named : told.runId = runId
    · rw [if_pos named.symm, if_pos named, Option.elim_some, follows]
    · rw [if_neg (Ne.symm named), if_neg named, Option.elim_none]

/-- A run that was not started has no entry. -/
theorem account_of_not_started (fresh : runId ∉ events.filterMap started) :
    account events runId = none := by
  induction events using List.reverseRecOn with
  | nil => rfl
  | append_singleton events event ih =>
      rw [List.filterMap_append, List.mem_append, not_or] at fresh
      obtain ⟨before, now⟩ := fresh
      rw [account_concat, ih before]
      cases event with
      | taskStarted time taskId agentId => rfl
      | taskFinished time taskId agentId status durationMs => rfl
      | recovery time told =>
          rw [tells]
          by_cases named : told.runId = runId
          · rw [if_pos named]
            cases told with
            | started id => simp [started, named.symm, ObservabilityEvent.runId] at now
            | attempt id attempt => rfl
            | failure id attempt code taskId agentId => rfl
            | decision id attempt decision => rfl
            | finished id status attempts repairsUsed replansUsed => rfl
          · rw [if_neg named]
            rfl

theorem rtake_rtake_succ {α : Type} (l : List α) (n : Nat) :
    (l.rtake (n + 1)).rtake n = l.rtake n := by
  rw [List.rtake_eq_reverse_take_reverse, List.rtake_eq_reverse_take_reverse,
    List.rtake_eq_reverse_take_reverse, List.reverse_reverse, List.take_take,
    Nat.min_eq_left (Nat.le_succ n)]

/-- A window on a list that grows. -/
theorem rtake_rtake_concat {α : Type} {l : List α} {x : α} {n : Nat} (positive : 1 ≤ n) :
    (l.rtake n ++ [x]).rtake n = (l ++ [x]).rtake n := by
  obtain ⟨m, rfl⟩ := Nat.exists_eq_add_of_le' positive
  rw [List.rtake_concat_succ, List.rtake_concat_succ, rtake_rtake_succ]

theorem Window.start (window : Window events registry) (time : Int)
    (fresh : runId ∉ events.filterMap started) :
    Window (events ++ [.recovery time (.started runId)]) (registry.start runId time) := by
  have unknown : runId ∉ registry.runs.keys := by
    rw [window.keys]
    exact fun member => fresh (List.mem_of_mem_drop member)
  have absent : registry.runs.get? runId = none := Dict.get?_eq_none_iff.mpr unknown
  have unsettled : registry.settled runId = false := by
    rw [RunRegistry.settled, absent]
    rfl
  have erased : runId ∉ (registry.runs.erase runId).keys := by
    rw [Dict.keys_erase]
    exact fun member => unknown (List.mem_of_mem_filter member)
  have same : (registry.runs.erase runId).keys = registry.runs.keys := by
    rw [Dict.keys_erase, List.filter_eq_self]
    intro key known
    exact decide_eq_true fun equal => unknown (equal ▸ known)
  have opened : registry.start runId time =
      registry.trim ((registry.runs.erase runId).set runId (.opened runId time)) := by
    rw [RunRegistry.start, unsettled]
    rfl
  rw [opened]
  constructor
  · rw [RunRegistry.trim_runs, Dict.keys_drop, Dict.keys_set_of_notMem erased, same]
    change (registry.runs.keys ++ [runId]).rtake registry.maxRuns = _
    rw [window.keys, rtake_rtake_concat registry.positive, List.filterMap_append]
    rfl
  · intro other known
    obtain ⟨r, found⟩ := Dict.mem_keys_iff.mp known
    have stored := Dict.get?_of_drop found
    rw [RunRegistry.get, found, account_concat, tells]
    by_cases named : other = runId
    · subst named
      rw [Dict.get?_set_self] at stored
      rw [← stored, account_of_not_started fresh]
      simp [ObservabilityEvent.runId, follow]
    · rw [Dict.get?_set_of_ne named, Dict.get?_erase, if_neg named] at stored
      have kept : other ∈ registry.runs.keys := Dict.mem_keys_iff.mpr ⟨r, stored⟩
      rw [ObservabilityEvent.runId, if_neg (Ne.symm named), Option.elim_none,
        ← window.entries other kept]
      exact stored.symm

/-- An event of the runner tells of no run. -/
theorem Window.idle (window : Window events registry) (starts : started event = none)
    (silent : ∀ runId, tells runId event = none) : Window (events ++ [event]) registry := by
  constructor
  · rw [List.filterMap_append]
    simpa [starts] using window.keys
  · intro runId known
    rw [account_concat, silent runId, Option.elim_none]
    exact window.entries runId known

theorem Window.consume (window : Window events registry)
    (fresh : ∀ runId, started event = some runId → runId ∉ events.filterMap started) :
    Window (events ++ [event]) (RuntimeDiagnostics.consume registry event) := by
  cases event with
  | taskStarted time taskId agentId => exact window.idle rfl fun _ => rfl
  | taskFinished time taskId agentId status durationMs => exact window.idle rfl fun _ => rfl
  | recovery time told =>
      cases told with
      | started runId => exact window.start time (fresh runId rfl)
      | attempt runId attempt => exact window.update rfl fun _ => rfl
      | failure runId attempt code taskId agentId => exact window.update rfl fun _ => rfl
      | decision runId attempt decision => exact window.update rfl fun _ => rfl
      | finished runId status attempts repairsUsed replansUsed =>
          exact window.update rfl fun _ => rfl

theorem window_new {maxRuns : Option JsNumber} (made : RunRegistry.new maxRuns = .ok registry) :
    Window [] registry := by
  have empty : registry.runs = .empty := by
    unfold RunRegistry.new at made
    split at made
    · cases made
      rfl
    · split at made
      · cases made
        rfl
      · cases made
    · cases made
  constructor
  · rw [empty, List.filterMap_nil, List.rtake_nil]
    rfl
  · intro runId known
    rw [empty] at known
    cases known

theorem maxRuns_consume :
    (RuntimeDiagnostics.consume registry event).maxRuns = registry.maxRuns := by
  cases event with
  | taskStarted time taskId agentId => rfl
  | taskFinished time taskId agentId status durationMs => rfl
  | recovery time told =>
      cases told with
      | started runId =>
          change (registry.start runId time).maxRuns = registry.maxRuns
          rw [RunRegistry.start]
          split
          · rfl
          · rfl
      | attempt runId attempt => rfl
      | failure runId attempt code taskId agentId => rfl
      | decision runId attempt decision => rfl
      | finished runId status attempts repairsUsed replansUsed => rfl

theorem window_ingestAll (window : Window [] registry)
    (distinct : (events.filterMap started).Nodup) :
    Window events (events.foldl RuntimeDiagnostics.ingest (.new registry)).registry ∧
      (events.foldl RuntimeDiagnostics.ingest (.new registry)).registry.maxRuns =
        registry.maxRuns := by
  induction events using List.reverseRecOn with
  | nil => exact ⟨window, rfl⟩
  | append_singleton events event ih =>
      rw [List.filterMap_append, List.nodup_append] at distinct
      obtain ⟨earlier, -, apart⟩ := distinct
      obtain ⟨before, size⟩ := ih earlier
      rw [List.foldl_append, List.foldl_cons, List.foldl_nil]
      refine ⟨before.consume ?_, ?_⟩
      · intro runId starts member
        exact apart runId member runId (by simp [starts]) rfl
      · exact maxRuns_consume.trans size

/-- Does the event start a run or end it? -/
def starts? : ObservabilityEvent → Option Bool
  | .started _ => some true
  | .finished _ _ _ _ _ => some false
  | .attempt _ _ | .failure _ _ _ _ _ | .decision _ _ _ => none

/-- Does the event start this run or end it? -/
def mark (runId : String) (event : RuntimeEvent) : Option Bool :=
  (tells runId event).bind fun told => starts? told.2

/-- The run was started, and it was not told finished since. -/
def Underway (events : List RuntimeEvent) (runId : String) : Prop :=
  (events.filterMap (mark runId)).getLast? = some true

instance decidableUnderway (events : List RuntimeEvent) (runId : String) :
    Decidable (Underway events runId) :=
  inferInstanceAs (Decidable (_ = _))

/-- The run has an entry that is running. -/
def Running (entry : Option RunInspection) : Prop := ∃ r, entry = some r ∧ r.status = .running

theorem running_whileRunning {entry : Option RunInspection}
    {change : RunInspection → RunInspection} (keeps : ∀ r, (change r).status = r.status) :
    Running (entry.map (.whileRunning change)) ↔ Running entry := by
  cases entry with
  | none => simp [Running]
  | some r =>
      by_cases running : r.status = .running
      · simp [Running, RunInspection.whileRunning, running, keeps]
      · simp [Running, RunInspection.whileRunning, running]

/-- An event starts a run without an entry, or ends the run, or leaves it as it is. -/
theorem running_follow {entry : Option RunInspection} {told : Told}
    (fresh : starts? told.2 = some true → entry = none) :
    Running (follow entry told) ↔ (starts? told.2).elim (Running entry) (· = true) := by
  obtain ⟨time, told⟩ := told
  cases told with
  | started id =>
      rw [fresh rfl]
      simp [follow, starts?, Running, RunInspection.opened]
  | attempt id attempt => exact running_whileRunning fun _ => rfl
  | failure id attempt code taskId agentId => exact running_whileRunning fun _ => rfl
  | decision id attempt decision => exact running_whileRunning fun _ => rfl
  | finished id status attempts repairsUsed replansUsed =>
      cases entry with
      | none => simp [follow, starts?, Running]
      | some r =>
          by_cases running : r.status = .running
          · simp [follow, starts?, Running, RunInspection.whileRunning, running,
              RunInspection.complete]
          · simp [follow, starts?, Running, RunInspection.whileRunning, running]

theorem underway_concat :
    Underway (events ++ [event]) runId ↔
      (mark runId event).elim (Underway events runId) (· = true) := by
  rw [Underway, List.filterMap_append]
  cases marked : mark runId event with
  | none => simp [marked, Underway]
  | some flag => simp [marked]

theorem started_of_tells {told : Told} (told_of : tells runId event = some told)
    (starts : starts? told.2 = some true) : started event = some runId := by
  cases event with
  | taskStarted time taskId agentId => cases told_of
  | taskFinished time taskId agentId status durationMs => cases told_of
  | recovery time event =>
      obtain ⟨named, same⟩ := Option.ite_none_right_eq_some.mp told_of
      cases same
      cases event with
      | started id => exact congrArg some named
      | attempt id attempt => cases starts
      | failure id attempt code taskId agentId => cases starts
      | decision id attempt decision => cases starts
      | finished id status attempts repairsUsed replansUsed => cases starts

theorem running_account_iff (distinct : (events.filterMap started).Nodup) :
    Running (account events runId) ↔ Underway events runId := by
  induction events using List.reverseRecOn with
  | nil => simp [Running, account, Underway]
  | append_singleton events event ih =>
      rw [List.filterMap_append, List.nodup_append] at distinct
      obtain ⟨earlier, -, apart⟩ := distinct
      rw [account_concat, underway_concat, mark, ← ih earlier]
      cases told_of : tells runId event with
      | none => rfl
      | some told =>
          refine running_follow fun starts => account_of_not_started fun member => ?_
          have begins := started_of_tells told_of starts
          exact apart runId member runId (by simp [begins]) rfl

/-- The entries of the registry, in the order in which the runs were started. -/
theorem Window.values (window : Window events registry) :
    registry.runs.values.map some =
      ((events.filterMap started).rtake registry.maxRuns).map (account events) := by
  rw [Dict.map_some_values, ← window.keys]
  exact List.map_congr_left window.entries

theorem Window.get (window : Window events registry) (runId : String) :
    registry.get runId =
      if runId ∈ (events.filterMap started).rtake registry.maxRuns then account events runId
      else none := by
  rw [← window.keys]
  by_cases known : runId ∈ registry.runs.keys
  · rw [if_pos known, window.entries runId known]
  · rw [if_neg known]
    exact Dict.get?_eq_none_iff.mpr known

theorem Window.list (window : Window events registry) (limit : JsNumber) :
    (registry.list limit).map some =
      ((((events.filterMap started).rtake registry.maxRuns).rtake
        (registry.listed limit)).map (account events)).reverse := by
  have size := congrArg List.length window.values
  rw [List.length_map, List.length_map] at size
  rw [RunRegistry.list, List.map_reverse, List.rtake, List.map_drop, window.values, size,
    ← List.map_drop]
  rfl

theorem Window.active (window : Window events registry) :
    registry.active.map some =
      (((events.filterMap started).rtake registry.maxRuns).map (account events)).filter
        fun entry => entry.any fun r => decide (r.status = .running) := by
  rw [← window.values, List.filter_map]
  rfl

theorem any_running {entry : Option RunInspection} :
    entry.any (fun r => decide (r.status = .running)) = true ↔ Running entry := by
  rw [Option.any_eq_true]
  simp [Running]

theorem Window.activeCount (window : Window events registry)
    (distinct : (events.filterMap started).Nodup) :
    registry.activeCount =
      (((events.filterMap started).rtake registry.maxRuns).filter fun runId =>
        decide (Underway events runId)).length := by
  have size := congrArg List.length window.active
  rw [List.length_map, List.filter_map, List.length_map] at size
  rw [RunRegistry.activeCount, size]
  congr 1
  apply List.filter_congr
  intro runId _
  rw [Bool.eq_iff_iff, decide_eq_true_iff, ← running_account_iff distinct]
  exact any_running

theorem Window.failures (window : Window events registry) :
    0 < registry.activeFailureCount ↔
      ∃ runId ∈ (events.filterMap started).rtake registry.maxRuns, ∃ r,
        account events runId = some r ∧ r.status = .running ∧ 0 < r.failureCount := by
  have member : ∀ r, r ∈ registry.active ↔ r.status = .running ∧
      ∃ runId ∈ (events.filterMap started).rtake registry.maxRuns,
        account events runId = some r := by
    intro r
    have shown : r ∈ registry.active ↔ some r ∈ registry.active.map some := by simp
    rw [shown, window.active, List.mem_filter, List.mem_map]
    simp [and_comm]
  rw [RunRegistry.activeFailureCount, List.sum_pos_iff_exists_pos_nat]
  constructor
  · rintro ⟨count, counted, failed⟩
    obtain ⟨r, inside, rfl⟩ := List.mem_map.mp counted
    obtain ⟨running, runId, recent, entry⟩ := (member r).mp inside
    exact ⟨runId, recent, r, entry, running, failed⟩
  · rintro ⟨runId, recent, r, entry, running, failed⟩
    exact ⟨r.failureCount, List.mem_map_of_mem ((member r).mpr ⟨running, runId, recent, entry⟩),
      failed⟩

/-- The events that the health counts as failures. -/
def Troubles (event : RuntimeEvent) : Prop :=
  Counter.tasksFailed ∈ Counter.raised event ∨ Counter.recoveryFailed ∈ Counter.raised event ∨
    Counter.recoveryTimeouts ∈ Counter.raised event

theorem count_new (c : Counter) : MetricsCollector.new.count c = 0 := by
  cases c <;> rfl

theorem count_pos_iff (registry : RunRegistry) (c : Counter) :
    0 < (events.foldl RuntimeDiagnostics.ingest (.new registry)).metrics.count c ↔
      ∃ event ∈ events, c ∈ Counter.raised event := by
  rw [MetricsCollector.count_ingestAll, RuntimeDiagnostics.new, count_new, Nat.zero_add,
    List.count_pos_iff, List.mem_flatMap]

theorem health_unhealthy_iff {diagnostics : RuntimeDiagnostics} {startedAt checkedAt later : Int} :
    (diagnostics.health startedAt checkedAt later).status = .unhealthy ↔
      0 < diagnostics.registry.activeFailureCount := by
  rw [RuntimeDiagnostics.health]
  dsimp only
  split_ifs with failing troubled
  · simp [failing]
  · simp [failing]
  · simp [failing]

/-- Without active runs there are no failures in them. -/
theorem health_healthy_iff {diagnostics : RuntimeDiagnostics} {startedAt checkedAt later : Int} :
    (diagnostics.health startedAt checkedAt later).status = .healthy ↔
      diagnostics.registry.activeCount = 0 ∧ diagnostics.metrics.tasksFailed = 0 ∧
        diagnostics.metrics.recoveryFailed = 0 ∧ diagnostics.metrics.recoveryTimeouts = 0 := by
  have none : diagnostics.registry.activeCount = 0 →
      diagnostics.registry.activeFailureCount = 0 := by
    intro idle
    rw [RunRegistry.activeFailureCount, List.length_eq_zero_iff.mp idle]
    rfl
  rw [RuntimeDiagnostics.health]
  dsimp only
  split_ifs with failing troubled
  · simp only [false_iff]
    rintro ⟨idle, -⟩
    exact failing.ne' (none idle)
  · simp only [false_iff]
    omega
  · simp only [true_iff]
    omega

theorem no_troubles_iff (registry : RunRegistry) :
    (∀ event ∈ events, ¬ Troubles event) ↔
      (events.foldl RuntimeDiagnostics.ingest (.new registry)).metrics.tasksFailed = 0 ∧
      (events.foldl RuntimeDiagnostics.ingest (.new registry)).metrics.recoveryFailed = 0 ∧
      (events.foldl RuntimeDiagnostics.ingest (.new registry)).metrics.recoveryTimeouts = 0 := by
  have silent : ∀ c : Counter,
      (events.foldl RuntimeDiagnostics.ingest (.new registry)).metrics.count c = 0 ↔
        ∀ event ∈ events, c ∉ Counter.raised event := by
    intro c
    rw [← not_iff_not, ← Ne, ← Nat.pos_iff_ne_zero, count_pos_iff]
    simp
  have tasks := silent .tasksFailed
  have failed := silent .recoveryFailed
  have timeouts := silent .recoveryTimeouts
  simp only [MetricsCollector.count] at tasks failed timeouts
  rw [tasks, failed, timeouts]
  simp only [Troubles, not_or, forall_and]

/-- What the diagnostics show of any events in which no run id is started twice. The registry
is a window on the runs that were started last, each with its own account. The health counts
those of them that are under way; it is bad while one of these has failures in its account, and
good while none is under way and nothing failed so far. -/
theorem window_of_ingested {maxRuns : Option JsNumber}
    (made : RunRegistry.new maxRuns = .ok registry)
    (distinct : (events.filterMap started).Nodup) (startedAt checkedAt later : Int) :
    let diagnostics := events.foldl RuntimeDiagnostics.ingest (.new registry)
    let recent := (events.filterMap started).rtake registry.maxRuns
    let health := diagnostics.health startedAt checkedAt later
    (∀ limit, (diagnostics.recentRuns limit).map some =
        ((recent.rtake (diagnostics.registry.listed limit)).map (account events)).reverse) ∧
      (∀ runId, diagnostics.inspect runId =
        if runId ∈ recent then account events runId else none) ∧
      health.activeRuns = (recent.filter fun runId => decide (Underway events runId)).length ∧
      (health.status = .unhealthy ↔ ∃ runId ∈ recent, ∃ r, account events runId = some r ∧
        r.status = .running ∧ 0 < r.failureCount) ∧
      (health.status = .healthy ↔ (∀ runId ∈ recent, ¬ Underway events runId) ∧
        ∀ event ∈ events, ¬ Troubles event) := by
  obtain ⟨window, size⟩ := window_ingestAll (window_new made) distinct
  dsimp only
  rw [← size]
  refine ⟨window.list, window.get, window.activeCount distinct, ?_, ?_⟩
  · rw [health_unhealthy_iff, window.failures]
  · rw [health_healthy_iff, window.activeCount distinct, no_troubles_iff registry,
      List.length_eq_zero_iff, List.filter_eq_nil_iff]
    simp only [decide_eq_true_iff]

/-- Three runs, of which the second has failed once and goes on. -/
def threeRuns : List RuntimeEvent :=
  [.recovery 0 (.started "a"), .recovery 1 (.started "b"), .recovery 2 (.started "c"),
   .recovery 3 (.failure "b" 1 .taskError none none), .recovery 4 (.finished "c" .completed 1 0 0)]

theorem window_of_ingested_threeRuns :
    ∃ registry, RunRegistry.new (some (.finite 2)) = .ok registry ∧
      ((threeRuns.foldl RuntimeDiagnostics.ingest (.new registry)).health 0 9 9).activeRuns = 1 ∧
      (threeRuns.foldl RuntimeDiagnostics.ingest (.new registry)).inspect "a" = none := by
  obtain ⟨registry, made, size⟩ : ∃ registry,
      RunRegistry.new (some (.finite 2)) = .ok registry ∧ registry.maxRuns = 2 :=
    ⟨⟨2, .empty, by decide, Nat.zero_le _⟩, rfl, rfl⟩
  have shown := @window_of_ingested threeRuns registry _ made (by decide) 0 9 9
  dsimp only at shown
  rw [size] at shown
  refine ⟨registry, made, ?_, ?_⟩
  · rw [shown.2.2.1]
    decide
  · rw [shown.2.1]
    decide

end Window

end MultiAgent.Native.Diagnostics
