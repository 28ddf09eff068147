import MultiAgent.Plugin.Scheduler.Accounting

/-!
# What `execute_run` reports

The results of a `RunResult` hold one terminal result for each task of the plan,
whatever ends the run, unless a future whose exception leaves `_collect` was
taken out of `running` on the way. `BudgetExceeded` is the exception of this kind
that `execute_run` turns into a `RunResult`.
-/

namespace MultiAgent.Plugin.TaskScheduler

variable {α : Type} {scheduler : TaskScheduler} {deadline context : Option ℚ}
  {iter : List String → List String} {plan : TaskPlan} {status : String → TaskStatus}
  {s t : RunState α} {event : Event α} {es : List (Event α)}

/-- Exactly one terminal result for every task of the plan. -/
def Accounted (plan : TaskPlan) (results : Dict String (TaskResult α)) : Prop :=
  ∀ task ∈ plan.tasks, results.values.countP (fun result =>
    decide (result.taskId = task.id) && result.status.isTerminal) = 1

instance (plan : TaskPlan) (results : Dict String (TaskResult α)) :
    Decidable (Accounted plan results) :=
  inferInstanceAs (Decidable (∀ task ∈ plan.tasks, results.values.countP (fun result =>
    decide (result.taskId = task.id) && result.status.isTerminal) = 1))

/-- If the run has ended with a `RunResult`, no task is left dangling in it. -/
def Reported (plan : TaskPlan) (s : RunState α) : Prop :=
  ∀ outcome, executeRun s = some (.ok outcome) → Accounted plan outcome.results

theorem Finished.accounted {results : Dict String (TaskResult α)}
    (finished : Finished plan results) : Accounted plan results := by
  intro task member
  obtain ⟨result, found⟩ := Dict.mem_keys_iff.mp (finished.full task member)
  rw [Dict.countP_values finished.recorded.named, found]
  simp [(finished.recorded _ _ found).2.2]

theorem not_accounted {results : Dict String (TaskResult α)} (named : Named results)
    (missing : ∃ task ∈ plan.tasks, task.id ∉ results.keys) : ¬ Accounted plan results := by
  obtain ⟨task, member, absent⟩ := missing
  intro accounted
  have one := accounted task member
  rw [Dict.countP_values named, Dict.get?_eq_none_iff.mpr absent] at one
  cases one

theorem Kept.reported (kept : Kept plan s) : Reported plan s := by
  intro outcome ended
  unfold Kept at kept
  unfold executeRun at ended
  cases control : s.control with
  | looping => simp [control] at ended
  | waiting => simp [control] at ended
  | returned results =>
      simp only [control, Option.some.injEq, Except.ok.injEq] at ended kept
      subst ended
      exact kept.accounted
  | raised exception last =>
      simp only [control] at ended kept
      cases exception <;> simp at ended <;> subst ended <;> exact (kept rfl).accounted

/-- `run_task` returns no result but a terminal one of its own task. -/
def OwnResults : Event α → Prop
  | .pass _ => True
  | .wake wake => ∀ done ∈ wake.done, done.Own

/-- No future that the wake-up collects ends the run with `BudgetExceeded`. -/
def BudgetFree : Event α → Prop
  | .pass _ => True
  | .wake wake => ∀ text, firstEscape wake.done ≠ some (.budgetExceeded text)

/-- The callback does not raise. -/
def Calm (event : Event α) : Prop := ∀ e, ¬ Raises event.onEvent e

/-- The callback raises nothing that `execute_run` catches. -/
def Tame (event : Event α) : Prop := ∀ e, Raises event.onEvent e → e.isCaught = false

theorem Calm.tame (calm : Calm event) : Tame event := fun e raised => absurd raised (calm e)

theorem calm_of_silent (silent : event.onEvent = none) : Calm event := by
  rintro e ⟨call, given, -⟩
  rw [silent] at given
  cases given

theorem escaping_cases {done : List (Done α)} {e : PyException}
    (escapes : firstEscape done = some e) :
    (∃ text, e = .budgetExceeded text) ∨ ∃ text, e = .base text := by
  obtain ⟨before, first, after, -, escaping, -⟩ := List.findSome?_eq_some_iff.mp escapes
  unfold TaskScheduler.escaping at escaping
  split at escaping <;> cases escaping
  · exact .inl ⟨_, rfl⟩
  · exact .inr ⟨_, rfl⟩

theorem not_isCaught_of_escaping {done : List (Done α)} {e : PyException}
    (escapes : firstEscape done = some e)
    (free : ∀ text, firstEscape done ≠ some (.budgetExceeded text)) : e.isCaught = false := by
  obtain ⟨text, rfl⟩ | ⟨text, rfl⟩ := escaping_cases escapes
  · exact absurd escapes (free text)
  · rfl

theorem handler_spec {E : RunState α → Prop} {e : PyException} (tame : Tame event)
    (escapes : ∀ s, E s → e.isCaught = true → Covered plan s) :
    Triple E (abort event.onEvent) (fun _ u => Kept plan { u with control := .raised e u.results })
      fun e' u => Kept plan { u with control := .raised e' .empty } :=
  (abort_spec (C := e.isCaught = true)).conseq escapes (fun _ _ post => post)
    fun e' _ raised caught => by rw [tame e' raised] at caught; cases caught

theorem awaited_of_possible {wake : Wake α} (ok : possible deadline s wake = true) :
    Awaited wake.done s := by
  simp only [possible, Bool.and_eq_true, decide_eq_true_eq, List.all_eq_true,
    List.any_eq_true] at ok
  exact ⟨ok.1.2, ok.1.1⟩

/-- The bookkeeping while the run goes on. -/
def Open (plan : TaskPlan) (s : RunState α) : Prop :=
  s.control = .looping ∨ s.control = .waiting → Tracked plan s

theorem Tracked.kept (tracked : Tracked plan s) (control : s.control = .looping) :
    Kept plan s := by
  unfold Kept
  rwa [control]

theorem Kept.open (kept : Kept plan s) : Open plan s := by
  unfold Kept at kept
  rintro (control | control) <;> rwa [control] at kept

theorem handler_open {E : RunState α → Prop} {onEvent : OnEvent α} {e : PyException} :
    Triple E (abort onEvent) (fun _ u => Open plan { u with control := .raised e u.results })
      fun e' u => Open plan { u with control := .raised e' .empty } :=
  abort_raises.conseq (fun _ _ => trivial) (fun _ _ _ => nofun) fun _ _ _ => nofun

/-- Whatever the surroundings do, the bookkeeping is kept while the run goes on. -/
theorem open_step (own : OwnResults event) (live : Open plan s)
    (taken : step scheduler deadline s event = some t) : Open plan t := by
  cases event with
  | pass pass =>
      obtain ⟨control, rfl⟩ := step_pass taken
      exact guarded_spec (passBody_spec.imp_post fun _ _ kept => kept.open)
        (fun e => handler_open) (live (.inl control))
  | wake wake =>
      obtain ⟨control, ok, rfl⟩ := step_wake taken
      exact guarded_spec
        ((wakeBody_spec own).imp_post fun _ _ post => (post.1.1.kept post.1.2).open)
        (fun e => handler_open) ⟨live (.inr control), awaited_of_possible ok⟩

theorem kept_step (own : OwnResults event) (tame : Tame event) (free : BudgetFree event)
    (live : Open plan s) (taken : step scheduler deadline s event = some t) : Kept plan t := by
  cases event with
  | pass pass =>
      obtain ⟨control, rfl⟩ := step_pass taken
      refine guarded_spec passBody_spec (fun e => handler_spec tame ?_) (live (.inl control))
      intro s raised caught
      apply raised.resolve_left
      intro raised
      rw [tame e raised] at caught
      cases caught
  | wake wake =>
      obtain ⟨control, ok, rfl⟩ := step_wake taken
      refine guarded_spec ((wakeBody_spec own).imp_post fun _ _ post => post.1.1.kept post.1.2)
        (fun e => handler_spec tame ?_)
        ⟨live (.inr control), awaited_of_possible ok⟩
      intro s raised caught
      obtain raised | ⟨escapes, -⟩ := raised
      · rw [tame e raised] at caught
        cases caught
      · rw [not_isCaught_of_escaping escapes free] at caught
        cases caught

/-- A wake-up that collects a `BudgetExceeded` leaves a task without a result. -/
theorem dangles_step (own : OwnResults event) (calm : Calm event) (stopped : ¬ BudgetFree event)
    (live : Open plan s) (taken : step scheduler deadline s event = some t) :
    ∃ text last, t.control = .raised (.budgetExceeded text) last ∧ ¬ Accounted plan last := by
  cases event with
  | pass pass => exact absurd trivial stopped
  | wake wake =>
      obtain ⟨control, ok, rfl⟩ := step_wake taken
      obtain ⟨text, escapes⟩ : ∃ text, firstEscape wake.done = some (.budgetExceeded text) := by
        simpa [BudgetFree] using stopped
      refine guarded_spec (G := fun u : RunState α => ∃ text last,
          u.control = .raised (.budgetExceeded text) last ∧ ¬ Accounted plan last)
        ((wakeBody_spec own).imp_post ?_)
        ?_ ⟨live (.inr control), awaited_of_possible ok⟩
      · intro _ _ post
        rw [escapes] at post
        cases post.2
      · intro e u raised
        obtain raised | ⟨first, lost⟩ := raised
        · exact absurd raised (calm e)
        · rw [escapes] at first
          cases first
          refine abort_lost.conseq (fun _ h => h) ?_
            (fun e' _ raised => absurd raised (calm e')) u lost
          intro _ u post
          exact ⟨text, u.results, rfl, not_accounted post.1 post.2⟩

theorem reported_step (live : Open plan s) (own : OwnResults event) (calm : Calm event)
    (taken : step scheduler deadline s event = some t) :
    ¬ Reported plan t ↔ ¬ BudgetFree event := by
  by_cases free : BudgetFree event
  · have kept := kept_step own calm.tame free live taken
    exact ⟨fun bad => absurd kept.reported bad, fun stopped => absurd free stopped⟩
  · obtain ⟨text, last, control, missing⟩ := dangles_step own calm free live taken
    refine ⟨fun _ => free, ?_⟩
    intro _ reported
    have outcome : executeRun t = some (.ok ⟨"cancelled", last, some text⟩) := by
      simp [executeRun, control]
    exact missing (reported _ outcome)

/-- Whatever ends a run of a validated plan, the results of its `RunResult` hold
exactly one terminal result for each task, when no wake-up of the loop collects
a future that ends the run with `BudgetExceeded`. Behind a callback that does
not raise, this condition is exact. -/
theorem results_accounted (reached : Reaches scheduler context iter plan status es s) :
    ((machine scheduler (scheduler.runDeadline context)).Meets
        (fun _ event => OwnResults event ∧ Tame event ∧ BudgetFree event) (start plan status) es →
      Reported plan s) ∧
    ((machine scheduler (scheduler.runDeadline context)).Meets
        (fun _ event => OwnResults event ∧ Calm event) (start plan status) es →
      ((machine scheduler (scheduler.runDeadline context)).Meets
        (fun _ event => BudgetFree event) (start plan status) es ↔ Reported plan s)) := by
  obtain ⟨-, execution⟩ := reached
  have begun : Open plan (start plan status : RunState α) := fun _ => Tracked.start plan status
  have first : Reported plan (start plan status : RunState α) := fun _ ended => by cases ended
  constructor
  · intro meets
    have kept := Machine.run_invariant_of_meets (P := fun u => Open plan u ∧ Reported plan u)
      (fun u event v live ok taken => by
        have kept := kept_step ok.1 ok.2.1 ok.2.2 live.1 taken
        exact ⟨kept.open, kept.reported⟩) ⟨begun, first⟩ meets execution
    exact kept.2
  · intro within
    have exact_ : (machine scheduler (scheduler.runDeadline context)).Meets
        (fun _ event => BudgetFree event) (start plan status) es ↔ ¬ ¬ Reported plan s := by
      refine Machine.meets_iff (P := Open plan) (B := fun u => ¬ Reported plan u)
        (fun u event v live ok taken => open_step ok.1 live taken)
        ?_
        (fun u event v live ok _ taken => reported_step live ok.1 ok.2 taken) begun
        (fun bad => bad first) within execution
      intro u event v live ok taken bad
      -- Only a run that has ended can be bad, and then no event is enabled.
      refine absurd ?_ bad
      intro outcome ended
      rw [executeRun_eq_none (step_live taken)] at ended
      cases ended
    exact exact_.trans Classical.not_not

/-- Two tasks, the second behind the first. -/
def draftAndReview : TaskPlan where
  tasks :=
    [{ id := "draft", description := "write", agent := none, dependsOn := []
       requiredCapabilities := [], timeout := none },
     { id := "review", description := "check", agent := none, dependsOn := ["draft"]
       requiredCapabilities := [], timeout := none }]
  distinct := by decide

def unbounded : TaskScheduler :=
  { maxConcurrency := none, defaultTimeout := none, deadline := none }

/-- A pass in which every submission is accepted at the time `now`. -/
def Pass.at (now : ℚ) : Pass α :=
  { now, submit := fun _ => .accepted now, after := now, onEvent := none }

/-- The draft is launched, and its future ends as given. -/
def draftEnds (completion : Completion Nat) : List (Event Nat) :=
  [.pass (.at 0), .wake { done := [⟨"draft", 1, completion⟩], now := 1, onEvent := none }]

/-- The draft fails, and the review is skipped behind it. -/
def draftFails : List (Event Nat) := draftEnds (.raised (.other "offline")) ++ [.pass (.at 2)]

theorem draftFails_ordinary : ∀ event ∈ draftFails,
    OwnResults event ∧ Calm event ∧ BudgetFree event := by
  intro event member
  simp only [draftFails, draftEnds, List.cons_append, List.nil_append, List.mem_cons,
    List.not_mem_nil, or_false] at member
  obtain rfl | rfl | rfl := member
  · exact ⟨trivial, calm_of_silent rfl, trivial⟩
  · exact ⟨by simp [OwnResults, Done.Own], calm_of_silent rfl,
      by simp [BudgetFree, firstEscape, escaping]⟩
  · exact ⟨trivial, calm_of_silent rfl, trivial⟩

theorem draftFails_reaches :
    ∃ s : RunState Nat, Reaches unbounded none id draftAndReview (fun _ => .pending) draftFails s ∧
      (executeRun s).isSome = true := by
  have ends : ((machine unbounded (unbounded.runDeadline none)).run
      (start draftAndReview fun _ => .pending) draftFails).any
        (fun s => (executeRun s).isSome) = true := by
    decide
  obtain ⟨s, execution, ended⟩ := (Option.any_eq_true _ _).mp ends
  exact ⟨s, ⟨by decide, execution⟩, ended⟩

theorem results_accounted_draftFails :
    ∃ s : RunState Nat, Reaches unbounded none id draftAndReview (fun _ => .pending) draftFails s ∧
      (executeRun s).isSome = true ∧ Reported draftAndReview s := by
  obtain ⟨s, reached, ended⟩ := draftFails_reaches
  refine ⟨s, reached, ended, (results_accounted reached).1 (Machine.meets_of_mem ?_ _)⟩
  intro event member _
  obtain ⟨own, calm, free⟩ := draftFails_ordinary event member
  exact ⟨own, calm.tame, free⟩

/-- The draft exhausts the budget. -/
def draftOverBudget : List (Event Nat) := draftEnds (.raised (.budgetExceeded "tokens"))

/-- The `RunResult` of this run has no result for the draft, although its
documentation promises one for every task. -/
theorem draftOverBudget_dangles :
    ∃ s : RunState Nat,
      Reaches unbounded none id draftAndReview (fun _ => .pending) draftOverBudget s ∧
      (machine unbounded (unbounded.runDeadline none)).Meets
        (fun _ event => OwnResults event ∧ Calm event) (start draftAndReview fun _ => .pending)
        draftOverBudget ∧
      ¬ Reported draftAndReview s := by
  have ends : ((machine unbounded (unbounded.runDeadline none)).run
      (start draftAndReview fun _ => .pending) draftOverBudget).any (fun s =>
        ((executeRun s).bind Except.toOption).any fun outcome =>
          !decide (Accounted draftAndReview outcome.results)) = true := by
    decide
  obtain ⟨s, execution, ended⟩ := (Option.any_eq_true _ _).mp ends
  refine ⟨s, ⟨by decide, execution⟩, Machine.meets_of_mem ?_ _, ?_⟩
  · intro event member _
    simp only [draftOverBudget, draftEnds, List.mem_cons, List.not_mem_nil, or_false] at member
    obtain rfl | rfl := member
    · exact ⟨trivial, calm_of_silent rfl⟩
    · exact ⟨by simp [OwnResults, Done.Own], calm_of_silent rfl⟩
  · intro reported
    obtain ⟨outcome, result, unaccounted⟩ := (Option.any_eq_true _ _).mp ended
    obtain ⟨ended, executed, returned⟩ := Option.bind_eq_some_iff.mp result
    cases ended with
    | error e => cases returned
    | ok outcome =>
        cases returned
        rw [decide_eq_true (reported outcome executed)] at unaccounted
        cases unaccounted

end MultiAgent.Plugin.TaskScheduler
