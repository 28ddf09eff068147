import MultiAgent.Plugin.Scheduler.Submissions

/-!
# `max_concurrency` and what is executing

`_launch_ready` bounds the table of running tasks. `_expire` takes a task out of
the table whose invocation goes on until it ends by itself, so the table and the
invocations that execute come apart: `Roomy` says when a pass still keeps the
latter below the limit.
-/

namespace MultiAgent.Plugin.TaskScheduler

variable {α : Type} {scheduler : TaskScheduler} {deadline context : Option ℚ}
  {iter : List String → List String} {plan : TaskPlan} {status : String → TaskStatus}
  {s t : RunState α}

/-- A run with the invocations of `run_task` that are executing, and the most that
have executed at once. -/
structure Load (α : Type) where
  run : RunState α
  live : List String
  peak : Nat

/-- An event of the run, with the invocations that end before it, and those that
end while the pass waits for the pool to answer for a task. -/
structure Moment (α : Type) where
  event : Event α
  before : List String
  during : Task → List String

/-- An accepted call starts an invocation. -/
def Load.enter (during : Task → List String) (load : Load α) (call : Attempt α) : Load α :=
  let live := load.live.filter fun id => decide (id ∉ during call.task)
  if call.isAccepted then
    { load with live := live ++ [call.task.id], peak := max load.peak (live.length + 1) }
  else { load with live }

/-- The invocations that a moment finds executing. -/
def Load.executing (load : Load α) (moment : Moment α) : List String :=
  load.live.filter fun id => decide (id ∉ moment.before)

/-- A future is done when its invocation has ended. -/
def Event.follows (live : List String) : Event α → Bool
  | .pass _ => true
  | .wake body => body.done.all fun done => decide (done.taskId ∉ live)

def loadStep (scheduler : TaskScheduler) (deadline : Option ℚ) (load : Load α)
    (moment : Moment α) : Option (Load α) :=
  if moment.event.follows (load.executing moment) then
    (step scheduler deadline load.run moment.event).map fun t =>
      let calls := attempts scheduler deadline load.run moment.event
      { calls.foldl (Load.enter moment.during) { load with live := load.executing moment } with
        run := t }
  else none

def loadMachine (scheduler : TaskScheduler) (deadline : Option ℚ) :
    Machine (Load α) (Moment α) :=
  ⟨loadStep scheduler deadline⟩

def Load.start (plan : TaskPlan) (status : String → TaskStatus) : Load α :=
  ⟨TaskScheduler.start plan status, [], 0⟩

/-- A run of a validated plan, with what executes in it. -/
def LoadReaches (scheduler : TaskScheduler) (context : Option ℚ)
    (iter : List String → List String) (plan : TaskPlan) (status : String → TaskStatus)
    (es : List (Moment α)) (load : Load α) : Prop :=
  plan.validate iter none none = .ok () ∧
    (loadMachine scheduler (scheduler.runDeadline context)).run (.start plan status) es = some load

/-- A pass that begins before the deadline keeps the invocations that execute
within the limit: no more of them execute than the table of running tasks holds, or
there is room beside them for every candidate that the loop may come to and that
the pool accepts. -/
def Roomy (scheduler : TaskScheduler) (deadline : Option ℚ) (limit : Int) (load : Load α)
    (moment : Moment α) : Prop :=
  match moment.event with
  | .pass pass => passed deadline pass.now = false →
    (load.executing moment).length ≤ load.run.running.length ∨
      ∀ before task after, load.run.candidates = before ++ task :: after →
        (pass.submit task).isAccepted = true → MayCome scheduler pass.submit load.run before →
        ((load.executing moment).length + admitted pass.submit before : Int) < limit
  | .wake _ => True

section Admission

variable {during : Task → List String} {load : Load α} {calls before after : List (Attempt α)}
  {call : Attempt α}

theorem enter_peak (call : Attempt α) : load.peak ≤ (load.enter during call).peak := by
  unfold Load.enter
  split
  · exact Nat.le_max_left _ _
  · exact Nat.le_refl _

theorem peak_le_foldl (during : Task → List String) (load : Load α) (calls : List (Attempt α)) :
    load.peak ≤ (calls.foldl (Load.enter during) load).peak := by
  induction calls generalizing load with
  | nil => exact Nat.le_refl _
  | cons call rest ih => exact Nat.le_trans (enter_peak call) (ih _)

theorem admit_live (during : Task → List String) (load : Load α) (call : Attempt α) :
    (load.enter during call).live.length ≤ load.live.length + accepted [call] := by
  have fewer := List.length_filter_le (fun id => decide (id ∉ during call.task)) load.live
  by_cases taken : call.isAccepted = true
  all_goals
    simp [Load.enter, taken, accepted] at fewer ⊢
    omega

/-- The peak stays below a bound that leaves room for each accepted call behind
those before it. -/
theorem foldl_peak_le {bound : Nat} (below : load.peak ≤ bound)
    (room : ∀ before call after, calls = before ++ call :: after → call.isAccepted = true →
      load.live.length + accepted before + 1 ≤ bound) :
    (calls.foldl (Load.enter during) load).peak ≤ bound := by
  induction calls generalizing load with
  | nil => exact below
  | cons first rest ih =>
      refine ih ?_ ?_
      · have fewer := List.length_filter_le (fun id => decide (id ∉ during first.task)) load.live
        by_cases taken : first.isAccepted = true
        · have here := room [] first rest rfl taken
          simp only [Load.enter, if_pos taken, accepted, List.countP_nil] at here ⊢
          omega
        · simpa [Load.enter, taken] using below
      · intro before call after parts taken
        have here := room (first :: before) call after (by rw [parts]; rfl) taken
        have grown := admit_live during load first
        have more : accepted (first :: before) = accepted before + accepted [first] := by
          simp [accepted, List.countP_cons]
        omega

/-- Where no invocation ends meanwhile, each accepted call adds to those before. -/
theorem le_foldl_peak (load : Load α) (before after : List (Attempt α))
    (still : ∀ task, during task = []) (taken : call.isAccepted = true) :
    load.live.length + accepted before + 1 ≤
      ((before ++ call :: after).foldl (Load.enter during) load).peak := by
  induction before generalizing load with
  | nil =>
      refine Nat.le_trans ?_ (peak_le_foldl during _ after)
      simp [Load.enter, taken, still, accepted]
  | cons first rest ih =>
      refine Nat.le_trans ?_ (ih (load.enter during first))
      by_cases accepts : first.isAccepted = true
      · simp [Load.enter, accepts, still, accepted]
        omega
      · simp [Load.enter, accepts, still, accepted]

end Admission

section Steps

variable {limit : Int} {load after : Load α} {moment : Moment α}

theorem loadStep_eq (taken : loadStep scheduler deadline load moment = some after) :
    ∃ t, step scheduler deadline load.run moment.event = some t ∧
      after.run = t ∧ after.peak = ((attempts scheduler deadline load.run moment.event).foldl
        (Load.enter moment.during) { load with live := load.executing moment }).peak := by
  unfold loadStep at taken
  split at taken
  · obtain ⟨t, stepped, rfl⟩ := Option.map_eq_some_iff.mp taken
    exact ⟨t, stepped, rfl, rfl⟩
  · cases taken

/-- The most that may execute; a negative limit starts nothing. -/
def ceiling (limit : Int) : Nat := limit.toNat

/-- A step whose pass is roomy stays below the limit. -/
theorem peak_le_step (limited : scheduler.maxConcurrency = some limit)
    (below : load.peak ≤ ceiling limit) (roomy : Roomy scheduler deadline limit load moment)
    (taken : loadStep scheduler deadline load moment = some after) :
    after.peak ≤ ceiling limit := by
  obtain ⟨t, -, -, peak⟩ := loadStep_eq taken
  rw [peak]
  refine foldl_peak_le below ?_
  intro before call later parts accepts
  unfold Roomy at roomy
  cases event : moment.event with
  | wake wake => simp [event, attempts] at parts
  | pass pass =>
      simp only [event] at roomy
      have parts : passAttempts scheduler deadline pass load.run = before ++ call :: later := by
        rw [event] at parts
        exact parts
      have answers : ∀ other ∈ before ++ call :: later, other.answer = pass.submit other.task :=
        fun other member => attempts_answer (parts ▸ member)
      change (load.executing moment).length + accepted before + 1 ≤ limit.toNat
      have here : call ∈ passAttempts scheduler deadline pass load.run := by simp [parts]
      have early := passAttempts_early here
      obtain covered | room := roomy early
      · have whole := passAttempts_room limited deadline pass load.run
        have count : accepted (before ++ call :: later) =
            accepted before + accepted later + 1 := by
          simp [accepted, accepts, Nat.add_assoc]
        rw [parts, count] at whole
        omega
      · obtain ⟨ahead, others, listed, sub, mayCome⟩ := passAttempts_behind parts
        have free := room ahead call.task others listed
          (by rw [← answers call (by simp)]; exact accepts) mayCome
        have fewer : accepted before ≤ admitted pass.submit ahead := by
          rw [accepted_eq fun other member => answers other (by simp [member])]
          exact sub.countP_le
        omega

/-- With nothing ending during the pass, a pass that is not roomy goes beyond it. -/
theorem roomy_of_peak_le (still : ∀ task, moment.during task = []) (calm : Calm moment.event)
    (tracked : Tracked plan load.run)
    (taken : loadStep scheduler deadline load moment = some after)
    (below : after.peak ≤ ceiling limit) : Roomy scheduler deadline limit load moment := by
  obtain ⟨t, -, -, peak⟩ := loadStep_eq taken
  unfold Roomy
  cases event : moment.event with
  | wake wake => trivial
  | pass pass =>
      refine fun early => .inr ?_
      intro before task later parts accepts mayCome
      have reachable := mayCome.resolve_left (not_not_intro tracked.fresh)
      have quiet : ∀ e, ¬ Raises pass.onEvent e := by
        rw [Calm, event] at calm
        exact calm
      obtain ⟨calls, call, behind, whole, rfl, rfl⟩ :=
        passAttempts_at quiet tracked.fresh early parts reachable
      have answers : ∀ other ∈ calls ++ call :: behind, other.answer = pass.submit other.task :=
        fun other member => attempts_answer (whole ▸ member)
      have taken : call.isAccepted = true := by
        rw [Attempt.isAccepted, answers call (by simp)]
        exact accepts
      have reached := le_foldl_peak { load with live := load.executing moment } calls behind
        still taken
      rw [← whole] at reached
      rw [peak, event] at below
      rw [← accepted_eq fun other member => answers other (by simp [member])]
      have bound := Nat.le_trans reached below
      change (load.executing moment).length + accepted calls + 1 ≤ limit.toNat at bound
      omega

end Steps

/-- In a run of a validated plan no more than `max_concurrency` invocations execute
at any moment when each of its passes is roomy. Behind a callback that does not
raise and a `run_task` that names its own task, this condition is exact for the
runs in which no invocation ends within a pass. -/
theorem concurrency_ceiling {limit : Int} {es : List (Moment α)} {load : Load α}
    (limited : scheduler.maxConcurrency = some limit)
    (reached : LoadReaches scheduler context iter plan status es load) :
    ((loadMachine scheduler (scheduler.runDeadline context)).Meets
        (Roomy scheduler (scheduler.runDeadline context) limit) (.start plan status) es →
      load.peak ≤ ceiling limit) ∧
    ((loadMachine scheduler (scheduler.runDeadline context)).Meets (fun _ moment =>
        (OwnResults moment.event ∧ Calm moment.event) ∧ ∀ task, moment.during task = [])
        (.start plan status) es →
      ((loadMachine scheduler (scheduler.runDeadline context)).Meets
          (Roomy scheduler (scheduler.runDeadline context) limit) (.start plan status) es ↔
        load.peak ≤ ceiling limit)) := by
  obtain ⟨-, execution⟩ := reached
  constructor
  · intro meets
    exact Machine.run_invariant_of_meets (P := fun load => load.peak ≤ ceiling limit)
      (fun u moment v below roomy taken => peak_le_step limited below roomy taken)
      (Nat.zero_le _) meets execution
  · intro within
    rw [← Nat.not_lt]
    refine Machine.meets_iff (P := fun load => Open plan load.run)
      (B := fun load => ceiling limit < load.peak) ?_ ?_ ?_ (fun _ => Tracked.start plan status)
      (Nat.not_lt.mpr (Nat.zero_le _)) within execution
    · intro u moment v live ok taken
      obtain ⟨t, stepped, rfl, -⟩ := loadStep_eq taken
      exact open_step ok.1.1 live stepped
    · intro u moment v live ok taken beyond
      obtain ⟨t, -, -, peak⟩ := loadStep_eq taken
      rw [peak]
      exact Nat.lt_of_lt_of_le beyond
        (peak_le_foldl moment.during { u with live := u.executing moment } _)
    · intro u moment v live ok within taken
      obtain ⟨t, stepped, -, -⟩ := loadStep_eq taken
      have tracked := live (step_live stepped)
      refine ⟨?_, fun crowded => Nat.not_le.mp ?_⟩
      · intro beyond roomy
        exact Nat.not_le.mpr beyond (peak_le_step limited (Nat.not_lt.mp within) roomy taken)
      · intro below
        exact crowded (roomy_of_peak_le ok.2 ok.1.2 tracked taken below)

/-- Two tasks that do not depend on each other, with a second each. -/
def slowAndNext : TaskPlan where
  tasks :=
    [{ id := "slow", description := "wait", agent := none, dependsOn := []
       requiredCapabilities := [], timeout := some 1 },
     { id := "next", description := "write", agent := none, dependsOn := []
       requiredCapabilities := [], timeout := some 1 }]
  distinct := by decide

def oneAtATime : TaskScheduler :=
  { maxConcurrency := some 1, defaultTimeout := none, deadline := none }

/-- The first task is launched and runs into its deadline; `ended` says whether its
invocation has ended when the second is launched. -/
def slowExpires (ended : List String) : List (Moment Nat) :=
  [⟨.pass (.at 0), [], fun _ => []⟩,
   ⟨.wake { done := [], now := 1, onEvent := none }, [], fun _ => []⟩,
   ⟨.pass (.at 1), ended, fun _ => []⟩]

theorem slowExpires_ordinary (ended : List String) : ∀ moment ∈ slowExpires ended,
    (OwnResults moment.event ∧ Calm moment.event) ∧ ∀ task, moment.during task = [] := by
  intro moment member
  simp only [slowExpires, List.mem_cons, List.not_mem_nil, or_false] at member
  obtain rfl | rfl | rfl := member
  · exact ⟨⟨trivial, calm_of_silent rfl⟩, fun _ => rfl⟩
  · exact ⟨⟨by simp [OwnResults], calm_of_silent rfl⟩, fun _ => rfl⟩
  · exact ⟨⟨trivial, calm_of_silent rfl⟩, fun _ => rfl⟩

theorem slowExpires_peak (ended : List String) (peak : Nat)
    (ends : ((loadMachine oneAtATime (oneAtATime.runDeadline none)).run
      (.start slowAndNext fun _ => .pending) (slowExpires ended)).any
        (fun load => decide (load.peak = peak)) = true) :
    ∃ load : Load Nat, LoadReaches oneAtATime none id slowAndNext (fun _ => .pending)
      (slowExpires ended) load ∧ load.peak = peak := by
  obtain ⟨load, execution, reached⟩ := (Option.any_eq_true _ _).mp ends
  exact ⟨load, ⟨by decide, execution⟩, of_decide_eq_true reached⟩

theorem concurrency_ceiling_slowExpires :
    ∃ load : Load Nat, LoadReaches oneAtATime none id slowAndNext (fun _ => .pending)
        (slowExpires ["slow"]) load ∧
      ((loadMachine oneAtATime (oneAtATime.runDeadline none)).Meets
        (Roomy oneAtATime (oneAtATime.runDeadline none) 1) (.start slowAndNext fun _ => .pending)
        (slowExpires ["slow"]) ↔ load.peak ≤ ceiling 1) ∧ load.peak = 1 := by
  obtain ⟨load, reached, peak⟩ := slowExpires_peak ["slow"] 1 (by decide +kernel)
  refine ⟨load, reached, (concurrency_ceiling rfl reached).2 ?_, peak⟩
  exact Machine.meets_of_mem (fun moment member _ => slowExpires_ordinary _ moment member) _

/-- The invocation that has timed out goes on, and the next one starts beside it. -/
theorem slowExpires_crowded :
    ∃ load : Load Nat, LoadReaches oneAtATime none id slowAndNext (fun _ => .pending)
      (slowExpires []) load ∧ ¬ load.peak ≤ ceiling 1 := by
  obtain ⟨load, reached, peak⟩ := slowExpires_peak [] 2 (by decide +kernel)
  exact ⟨load, reached, by rw [peak]; decide⟩

end MultiAgent.Plugin.TaskScheduler
