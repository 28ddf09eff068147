import MultiAgent.Plugin.Scheduler.Submissions
import Mathlib.Algebra.Order.BigOperators.Group.List

/-!
# Dispatch and the deadline of the run

`_launch_ready` compares the clock with the deadline once, before its loop. A
`submit` may wait for a slot of the pool, so the clock moves on from one call to
the next: `InTime` says that it does not reach the deadline before the last call
that the pool accepts.
-/

namespace MultiAgent.Plugin.TaskScheduler

variable {α : Type} {scheduler : TaskScheduler} {deadline context : Option ℚ} {now : ℚ}
  {iter : List String → List String} {plan : TaskPlan} {status : String → TaskStatus}
  {s t : RunState α}

/-- An event of the run, with the time that passes in the loop from one call of
`submit` to the return of the next. -/
structure Timed (α : Type) where
  event : Event α
  took : Task → ℚ
  forward : ∀ task, 0 ≤ took task

def timedMachine (scheduler : TaskScheduler) (deadline : Option ℚ) :
    Machine (RunState α) (Timed α) :=
  ⟨fun s timed => step scheduler deadline s timed.event⟩

/-- A run of a validated plan under a clock. -/
def TimedReaches (scheduler : TaskScheduler) (context : Option ℚ)
    (iter : List String → List String) (plan : TaskPlan) (status : String → TaskStatus)
    (es : List (Timed α)) (s : RunState α) : Prop :=
  plan.validate iter none none = .ok () ∧
    (timedMachine scheduler (scheduler.runDeadline context)).run (start plan status) es = some s

/-- The tasks that the calls start, with the instants at which the pool takes them. -/
def dispatches (took : Task → ℚ) : ℚ → List (Attempt α) → List (Task × ℚ)
  | _, [] => []
  | now, call :: rest =>
    let instant := now + took call.task
    if call.isAccepted then (call.task, instant) :: dispatches took instant rest
    else dispatches took instant rest

/-- The invocations of `run_task` that an event starts. -/
def starts (scheduler : TaskScheduler) (deadline : Option ℚ) (s : RunState α) (timed : Timed α) :
    List (Task × ℚ) :=
  match timed.event with
  | .pass pass => dispatches timed.took pass.now (passAttempts scheduler deadline pass s)
  | .wake _ => []

/-- The invocations of `run_task` that a run starts, with their instants. -/
def dispatched (scheduler : TaskScheduler) (deadline : Option ℚ) (plan : TaskPlan)
    (status : String → TaskStatus) (es : List (Timed α)) : List (Task × ℚ) :=
  (timedMachine scheduler deadline).log (starts scheduler deadline) (start plan status) es

/-- The clock when `submit` has returned for all of these tasks. -/
def clockAfter (took : Task → ℚ) (now : ℚ) (tasks : List Task) : ℚ := now + (tasks.map took).sum

/-- The calls of a pass that begins before the deadline take the clock up to it
for no candidate that the loop may come to and that the pool accepts. -/
def InTime (scheduler : TaskScheduler) (deadline : Option ℚ) (s : RunState α) (timed : Timed α) :
    Prop :=
  match timed.event with
  | .pass pass => passed deadline pass.now = false → ∀ before task after,
      s.candidates = before ++ task :: after → (pass.submit task).isAccepted = true →
      MayCome scheduler pass.submit s before →
      passed deadline (clockAfter timed.took pass.now (before ++ [task])) = false
  | .wake _ => True

/-- Started before the deadline. -/
def Punctual (deadline : Option ℚ) (dispatch : Task × ℚ) : Prop :=
  passed deadline dispatch.2 = false

section Clock

variable {took : Task → ℚ} {calls : List (Attempt α)} {dispatch : Task × ℚ}

theorem mem_dispatches : dispatch ∈ dispatches took now calls ↔
    ∃ before call after, calls = before ++ call :: after ∧ call.isAccepted = true ∧
      dispatch = (call.task, clockAfter took now (before.map Attempt.task ++ [call.task])) := by
  induction calls generalizing now with
  | nil => simp [dispatches]
  | cons head rest ih =>
      have tail : (∃ before call after, rest = before ++ call :: after ∧ call.isAccepted = true ∧
            dispatch = (call.task, clockAfter took (now + took head.task)
              (before.map Attempt.task ++ [call.task]))) ↔
          ∃ before call after, head :: rest = (head :: before) ++ call :: after ∧
            call.isAccepted = true ∧ dispatch = (call.task, clockAfter took now
              ((head :: before).map Attempt.task ++ [call.task])) := by
        simp [clockAfter, add_assoc]
      have split_ : dispatch ∈ dispatches took now (head :: rest) ↔
          (head.isAccepted = true ∧ dispatch = (head.task, now + took head.task)) ∨
            dispatch ∈ dispatches took (now + took head.task) rest := by
        rw [dispatches]
        by_cases accepted : head.isAccepted = true <;> simp [accepted]
      rw [split_, ih, tail]
      constructor
      · rintro (⟨accepted, rfl⟩ | ⟨before, call, after, found⟩)
        · exact ⟨[], head, rest, rfl, accepted, by simp [clockAfter]⟩
        · exact ⟨head :: before, call, after, found⟩
      · rintro ⟨before, call, after, parts, accepted, rfl⟩
        cases before with
        | nil =>
            obtain ⟨rfl, -⟩ := List.cons.inj parts
            exact .inl ⟨accepted, by simp [clockAfter]⟩
        | cons first before =>
            obtain ⟨rfl, -⟩ := List.cons.inj parts
            exact .inr ⟨before, call, after, parts, accepted, rfl⟩

theorem passed_mono {earlier later : ℚ} (within : earlier ≤ later)
    (early : passed deadline later = false) : passed deadline earlier = false := by
  cases deadline with
  | none => rfl
  | some limit =>
      have before : later < limit := by simpa [passed] using early
      simpa [passed] using lt_of_le_of_lt within before

theorem clockAfter_le {some_ all : List Task} (forward : ∀ task, 0 ≤ took task)
    (sub : some_.Sublist all) : clockAfter took now some_ ≤ clockAfter took now all := by
  have sums : (some_.map took).sum ≤ (all.map took).sum := by
    apply (sub.map took).sum_le_sum
    intro time member
    obtain ⟨task, -, rfl⟩ := List.mem_map.mp member
    exact forward task
  exact add_le_add_right sums now

end Clock

section Steps

variable {timed : Timed α}

/-- A pass that is in time starts nothing at or after the deadline. -/
theorem punctual_of_inTime (inTime : InTime scheduler deadline s timed) :
    ∀ dispatch ∈ starts scheduler deadline s timed, Punctual deadline dispatch := by
  intro start member
  unfold starts at member
  unfold InTime at inTime
  cases event : timed.event with
  | wake wake => simp [event] at member
  | pass pass =>
      simp only [event] at member inTime
      obtain ⟨before, call, after, parts, accepted, rfl⟩ := mem_dispatches.mp member
      have here : call ∈ passAttempts scheduler deadline pass s := by simp [parts]
      have answer : (pass.submit call.task).isAccepted = true := by
        rw [← attempts_answer here]
        exact accepted
      have early : passed deadline pass.now = false := passAttempts_early here
      obtain ⟨ahead, later, listed, sub, mayCome⟩ := passAttempts_behind parts
      refine passed_mono (clockAfter_le timed.forward (sub.append (.refl _))) ?_
      exact inTime early ahead call.task later listed answer mayCome

/-- Behind a callback that does not raise, with the bookkeeping in order, a pass
that starts nothing at or after the deadline is in time. -/
theorem inTime_iff (calm : Calm timed.event) (tracked : Tracked plan s) :
    InTime scheduler deadline s timed ↔
      ∀ dispatch ∈ starts scheduler deadline s timed, Punctual deadline dispatch := by
  refine ⟨punctual_of_inTime, ?_⟩
  intro punctual
  unfold starts at punctual
  unfold InTime
  cases event : timed.event with
  | wake wake => trivial
  | pass pass =>
      simp only [event] at punctual ⊢
      intro early before task after parts accepted mayCome
      have reachable := mayCome.resolve_left (not_not_intro tracked.fresh)
      have quiet : ∀ e, ¬ Raises pass.onEvent e := by
        rw [Calm, event] at calm
        exact calm
      obtain ⟨calls, call, behind, whole, rfl, rfl⟩ :=
        passAttempts_at quiet tracked.fresh early parts reachable
      have here : call ∈ passAttempts scheduler deadline pass s := by simp [whole]
      have answer : call.isAccepted = true := by
        rw [Attempt.isAccepted, attempts_answer here]
        exact accepted
      exact punctual _ (mem_dispatches.mpr ⟨calls, call, behind, whole, answer, rfl⟩)

end Steps

/-- A run of a validated plan starts no task at or after its deadline when each of
its passes is in time. Behind a callback that does not raise, and a `run_task`
that names its own task, this condition is exact. -/
theorem dispatch_deadline {es : List (Timed α)}
    (reached : TimedReaches scheduler context iter plan status es s) :
    ((timedMachine scheduler (scheduler.runDeadline context)).Meets
        (InTime scheduler (scheduler.runDeadline context)) (start plan status) es →
      ∀ dispatch ∈ dispatched scheduler (scheduler.runDeadline context) plan status es,
        Punctual (scheduler.runDeadline context) dispatch) ∧
    ((timedMachine scheduler (scheduler.runDeadline context)).Meets
        (fun _ timed => OwnResults timed.event ∧ Calm timed.event) (start plan status) es →
      ((timedMachine scheduler (scheduler.runDeadline context)).Meets
          (InTime scheduler (scheduler.runDeadline context)) (start plan status) es ↔
        ∀ dispatch ∈ dispatched scheduler (scheduler.runDeadline context) plan status es,
          Punctual (scheduler.runDeadline context) dispatch)) := by
  obtain ⟨-, execution⟩ := reached
  have each : (∀ dispatch ∈ dispatched scheduler (scheduler.runDeadline context) plan status es,
        Punctual (scheduler.runDeadline context) dispatch) ↔
      (timedMachine scheduler (scheduler.runDeadline context)).Meets (fun u timed =>
        ∀ dispatch ∈ starts scheduler (scheduler.runDeadline context) u timed,
          Punctual (scheduler.runDeadline context) dispatch) (start plan status) es :=
    Machine.forall_mem_log_iff
  rw [each]
  refine ⟨fun meets => meets.imp fun _ _ => punctual_of_inTime, ?_⟩
  intro within
  exact Machine.meets_congr (P := Open plan)
    (fun u timed v live ok taken => open_step ok.1 live taken)
    (fun u timed v live ok taken => inTime_iff ok.2 (live (step_live taken)))
    (fun _ => Tracked.start plan status) within execution

/-- The run is to end before the clock shows 10 seconds. -/
def untilTen : TaskScheduler :=
  { maxConcurrency := none, defaultTimeout := none, deadline := some 10 }

/-- The run begins at `now`, and the pool has a slot for the draft after a second. -/
def draftWaits (now : ℚ) : Timed Nat where
  event := .pass
    { now, submit := fun _ => .accepted (now + 1), after := now + 1, onEvent := none }
  took _ := 1
  forward _ := by decide

theorem dispatch_deadline_draftWaits :
    ∃ s : RunState Nat,
      TimedReaches untilTen none id draftAndReview (fun _ => .pending) [draftWaits 8] s ∧
      (timedMachine untilTen (untilTen.runDeadline none)).Meets
        (InTime untilTen (untilTen.runDeadline none)) (start draftAndReview fun _ => .pending)
        [draftWaits 8] := by
  have runs : ((timedMachine untilTen (untilTen.runDeadline none)).run
      (start draftAndReview fun _ => .pending) [draftWaits 8]).isSome = true := by
    decide
  obtain ⟨s, execution⟩ := Option.isSome_iff_exists.mp runs
  have reached : TimedReaches untilTen none id draftAndReview (fun _ => .pending)
      [draftWaits 8] s := ⟨by decide, execution⟩
  refine ⟨s, reached, ((dispatch_deadline reached).2 ?_).mpr ?_⟩
  · exact Machine.meets_of_mem (fun timed member _ => by
      obtain rfl := List.mem_singleton.mp member
      exact ⟨trivial, calm_of_silent rfl⟩) _
  · unfold Punctual
    decide +kernel

/-- The pool has a slot for the draft at the very deadline. -/
theorem draftWaits_late :
    ∃ s : RunState Nat,
      TimedReaches untilTen none id draftAndReview (fun _ => .pending) [draftWaits 9] s ∧
      ∃ dispatch ∈ dispatched untilTen (untilTen.runDeadline none) draftAndReview
        (fun _ => .pending) [draftWaits 9], ¬ Punctual (untilTen.runDeadline none) dispatch := by
  have runs : ((timedMachine untilTen (untilTen.runDeadline none)).run
      (start draftAndReview fun _ => .pending) [draftWaits 9]).isSome = true := by
    decide
  obtain ⟨s, execution⟩ := Option.isSome_iff_exists.mp runs
  refine ⟨s, ⟨by decide, execution⟩, ?_⟩
  unfold Punctual
  decide +kernel

end MultiAgent.Plugin.TaskScheduler
