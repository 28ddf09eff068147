import MultiAgent.Plugin.Options
import Mathlib.Order.WithBot

/-!
# The context variables of a run

`AgentCoordinator.run` with `start_run_deadline`, `start_run_budget` and their ends. The
trace, the deadline and the budget of the current run are context variables of a thread. A
strategy and its agents may do anything else, and may start runs of their own in the same
thread; a run that an agent starts in another thread has the variables of that thread.
What the coordinator keeps for later runs (its context policy, the cache of its agents, the
record of its runs) is left out.
-/

namespace MultiAgent.Plugin

/-- A trace, by its number. -/
structure Trace where
  id : Nat
  deriving DecidableEq, Repr

/-- The context variables of a thread. -/
structure Ambient where
  trace : Option Trace
  deadline : Option (WithTop ℚ)
  budget : Option Budget

/-- A thread, with the number of objects that were made. -/
structure Thread where
  ambient : Ambient
  objects : Nat

namespace Thread

def start : Thread := ⟨⟨none, none, none⟩, 0⟩

/-- A trace that is still to be made is not the current one. -/
def Fresh (t : Thread) : Prop := ∀ trace ∈ t.ambient.trace, trace.id < t.objects

theorem fresh_start : start.Fresh := nofun

end Thread

namespace AgentCoordinator

/-- What `run` reads of a coordinator. -/
structure Coordinator where
  agents : List String
  defaultBudget : Option (List (Value × Value))

/-- The arguments of `run`; an option that is not given is `none`. -/
structure Options where
  prompt : Value
  strategy : Value
  context : Value
  cache : Value
  runTimeout : Value
  budget : Value

/-- What a strategy may do: return a result (with what reading it raises, if it does), raise,
or start a run in whose agents another behaviour takes place. -/
inductive Behaviour where
  | returns (unreadable : Option String)
  | raises (text : String)
  | nested (coord : Coordinator) (options : Options) (now : ℚ) (agents : Behaviour)
      (next : Except String Unit → Behaviour)

/-- The budget of the options, or the default of the coordinator. -/
def budgetOption (coord : Coordinator) (options : Options) : Value :=
  if options.budget.isNone then
    match coord.defaultBudget with
    | some entries => .dict entries
    | none => .none
  else options.budget

/-- The run timeout, with the seconds of the budget. -/
def mergedTimeout (runTimeout : Value) : Option Budget → Except String Value
  | some budget =>
    if budget.maxSeconds.isNone then return runTimeout
    else if runTimeout.isNone then return budget.maxSeconds
    else runTimeout.min budget.maxSeconds
  | none => return runTimeout

def checkContext : Value → Except String Unit
  | .none | .policy => return
  | context => do let _ ← ContextPolicy.fromDict context

def checkCache (cache : Value) : Except String Unit := do
  if cache.isNone then return
  let _ ← cache.truthy

/-- The statements of `run` before `activate_trace`: the budget and the run timeout. -/
def prepare (coord : Coordinator) (options : Options) (fresh : Nat) :
    Except String (Option Budget × Value) := do
  let budget ← asBudget fresh (budgetOption coord options)
  let runTimeout ← mergedTimeout options.runTimeout budget
  checkContext options.context
  checkCache options.cache
  if coord.agents.isEmpty then throw "no agents registered"
  let _ ← options.strategy.lowered
  options.prompt.checkStr
  return (budget, runTimeout)

/-- `max(0.0, seconds)` -/
def clamped : Number → WithTop ℚ
  | .finite seconds => ((if 0 < seconds then seconds else 0 : ℚ) : WithTop ℚ)
  | .infinity negative => if negative then ((0 : ℚ) : WithTop ℚ) else ⊤
  | .nan => ((0 : ℚ) : WithTop ℚ)

/-- The deadline that `start_run_deadline` sets, if it sets one. -/
def startRunDeadline (seconds : Value) (now : ℚ) : Except String (Option (WithTop ℚ)) :=
  if seconds.isNone then .ok none
  else seconds.toFloat.map fun seconds => some ((now : WithTop ℚ) + clamped seconds)

/-- `activate_trace` of a new trace. The budget and the trace are the objects that `run`
makes. -/
def activateTrace (t : Thread) : Thread :=
  ⟨{ t.ambient with trace := some ⟨t.objects + 1⟩ }, t.objects + 2⟩

/-- The variables that get a token. -/
def enter (deadline : Option (WithTop ℚ)) (budget : Option Budget) (t : Thread) : Thread :=
  { t with
    ambient.deadline := if deadline.isSome then deadline else t.ambient.deadline
    ambient.budget := if budget.isSome then budget else t.ambient.budget }

/-- The `finally`: the variables that have a token are reset to what they were. -/
def leave (before : Ambient) (deadline : Option (WithTop ℚ)) (budget : Option Budget)
    (t : Thread) : Thread :=
  { t with
    ambient.trace := before.trace
    ambient.deadline := if deadline.isSome then before.deadline else t.ambient.deadline
    ambient.budget := if budget.isSome then before.budget else t.ambient.budget }

/-- What `run` makes of the result of its strategy. -/
def conclude : Except String (Option String) → Except String Unit
  | .error text | .ok (some text) => .error text
  | .ok none => .ok ()

/-- `AgentCoordinator.run`, where the strategy does `strategy` to the thread. -/
def run (coord : Coordinator) (options : Options) (now : ℚ)
    (strategy : Thread → Thread × Except String (Option String)) (t : Thread) :
    Thread × Except String Unit :=
  match prepare coord options t.objects with
  | .error text => (t, .error text)
  | .ok (budget, runTimeout) =>
    let active := activateTrace t
    match startRunDeadline runTimeout now with
    | .error text => (active, .error text)
    | .ok deadline =>
      let (left, answer) := strategy (enter deadline budget active)
      (leave t.ambient deadline budget left, conclude answer)

/-- What a behaviour does to a thread. -/
def Behaviour.exec : Behaviour → Thread → Thread × Except String (Option String)
  | .returns unreadable, t => (t, .ok unreadable)
  | .raises text, t => (t, .error text)
  | .nested coord options now agents next, t =>
    let (t, answer) := run coord options now agents.exec t
    (next answer).exec t

/-- What the agents of a run leave of the context variables. -/
structure Kept (t t' : Thread) : Prop where
  deadline : t'.ambient.deadline = t.ambient.deadline
  budget : t'.ambient.budget = t.ambient.budget
  objects : t.objects ≤ t'.objects
  fresh : t.Fresh → t'.Fresh

/-- A strategy with the properties that the behaviours turn out to have. -/
def Keeps (strategy : Thread → Thread × Except String (Option String)) : Prop :=
  ∀ t, Kept t (strategy t).1

section Runs

variable {coord : Coordinator} {options : Options} {now : ℚ} {t u : Thread}
  {strategy : Thread → Thread × Except String (Option String)}

theorem Kept.refl (t : Thread) : Kept t t := ⟨rfl, rfl, le_rfl, id⟩

theorem Kept.trans {v : Thread} (first : Kept t u) (second : Kept u v) : Kept t v where
  deadline := second.deadline.trans first.deadline
  budget := second.budget.trans first.budget
  objects := first.objects.trans second.objects
  fresh fresh := second.fresh (first.fresh fresh)

theorem kept_activateTrace (t : Thread) : Kept t (activateTrace t) where
  deadline := rfl
  budget := rfl
  objects := Nat.le_add_right _ _
  fresh _ trace active := by
    obtain rfl := Option.some.inj active
    exact Nat.lt_succ_self _

/-- What has no token was not set, and the agents kept it. -/
theorem leave_ambient {deadline : Option (WithTop ℚ)} {budget : Option Budget}
    (kept : Kept (enter deadline budget (activateTrace t)) u) :
    (leave t.ambient deadline budget u).ambient = t.ambient := by
  have sameDeadline := kept.deadline
  have sameBudget := kept.budget
  cases deadline <;> cases budget <;>
    simp_all [leave, enter, activateTrace]

/-- The ways in which a call of `run` leaves the thread. -/
theorem run_cases (coord : Coordinator) (options : Options) (now : ℚ) (t : Thread)
    (keeps : Keeps strategy) :
    (∃ text, prepare coord options t.objects = .error text ∧
      (run coord options now strategy t).1 = t) ∨
    ∃ budget runTimeout, prepare coord options t.objects = .ok (budget, runTimeout) ∧
      ((∃ text, startRunDeadline runTimeout now = .error text ∧
        (run coord options now strategy t).1 = activateTrace t) ∨
      ∃ deadline, startRunDeadline runTimeout now = .ok deadline ∧
        (run coord options now strategy t).1.ambient = t.ambient ∧
        t.objects ≤ (run coord options now strategy t).1.objects) := by
  cases prepared : prepare coord options t.objects with
  | error text => exact .inl ⟨text, rfl, by simp only [run, prepared]⟩
  | ok pair =>
      obtain ⟨budget, runTimeout⟩ := pair
      refine .inr ⟨budget, runTimeout, rfl, ?_⟩
      cases started : startRunDeadline runTimeout now with
      | error text => exact .inl ⟨text, rfl, by simp only [run, prepared, started]⟩
      | ok deadline =>
          have kept := keeps (enter deadline budget (activateTrace t))
          refine .inr ⟨deadline, rfl, ?_, ?_⟩
          · simp only [run, prepared, started]
            exact leave_ambient kept
          · simp only [run, prepared, started]
            exact le_trans (Nat.le_add_right _ 2) kept.objects

theorem kept_run (keeps : Keeps strategy) : Kept t (run coord options now strategy t).1 := by
  obtain ⟨text, -, same⟩ | ⟨budget, runTimeout, -, ⟨text, -, same⟩ | ⟨deadline, -, same, more⟩⟩ :=
    run_cases coord options now t keeps
  · rw [same]
    exact Kept.refl t
  · rw [same]
    exact kept_activateTrace t
  · refine ⟨by rw [same], by rw [same], more, ?_⟩
    intro fresh trace active
    rw [same] at active
    exact lt_of_lt_of_le (fresh trace active) more

/-- Whatever the agents do, runs of their own included. -/
theorem Behaviour.keeps (behaviour : Behaviour) : Keeps behaviour.exec := by
  induction behaviour with
  | returns unreadable => exact fun t => Kept.refl t
  | raises text => exact fun t => Kept.refl t
  | nested coord options now agents next agents_ih next_ih =>
      intro t
      exact (kept_run agents_ih).trans (next_ih _ _)

/-- The run timeout, with the seconds of the budget, is none or a number, unless the call
has ended before it activates its trace. -/
def TimeoutAccepted (coord : Coordinator) (options : Options) (objects : Nat) : Prop :=
  ∀ budget runTimeout, prepare coord options objects = .ok (budget, runTimeout) →
    runTimeout.isNone = true ∨ ∃ seconds, runTimeout.toFloat = .ok seconds

theorem startRunDeadline_ok_iff {seconds : Value} :
    (∃ deadline, startRunDeadline seconds now = .ok deadline) ↔
      seconds.isNone = true ∨ ∃ number, seconds.toFloat = .ok number := by
  rw [startRunDeadline]
  by_cases absent : seconds.isNone = true
  · simp [absent]
  · cases seconds.toFloat <;> simp [absent, Except.map]

/-- A call of `run` leaves the context variables as it found them exactly when the run
timeout is accepted, or the call ends before it activates its trace. In any case no trace
that is still to be made becomes the current one. -/
theorem ambient_restored_iff (agents : Behaviour) (fresh : t.Fresh) :
    ((run coord options now agents.exec t).1.ambient = t.ambient ↔
      TimeoutAccepted coord options t.objects) ∧
      (run coord options now agents.exec t).1.Fresh := by
  refine ⟨?_, (kept_run agents.keeps).fresh fresh⟩
  obtain ⟨text, failed, same⟩ | ⟨budget, runTimeout, prepared,
      ⟨text, failed, same⟩ | ⟨deadline, started, same, -⟩⟩ :=
    run_cases coord options now t agents.keeps
  · rw [same]
    refine iff_of_true rfl ?_
    intro budget runTimeout prepared
    rw [failed] at prepared
    cases prepared
  · rw [same]
    refine iff_of_false ?_ ?_
    · -- The trace of the call is still active, and it is a new one.
      intro restored
      have active : t.ambient.trace = some ⟨t.objects + 1⟩ :=
        (congrArg Ambient.trace restored).symm
      have older : t.objects + 1 < t.objects := fresh _ active
      omega
    · intro accepted
      obtain ⟨deadline, started⟩ :=
        startRunDeadline_ok_iff.mpr (accepted budget runTimeout prepared)
      rw [failed] at started
      cases started
  · refine iff_of_true same ?_
    intro budget' runTimeout' prepared'
    rw [prepared] at prepared'
    cases prepared'
    exact startRunDeadline_ok_iff.mp ⟨deadline, started⟩

end Runs

/-- Two agents, and the options that a caller gives beside a prompt. -/
def team : Coordinator := ⟨["ada", "bob"], none⟩

def ask (runTimeout : Value) : Options :=
  ⟨.str "go", .str "auto", .none, .none, runTimeout, .none⟩

/-- A run whose agent starts a run of its own and raises. -/
theorem ambient_restored_nested :
    (run team (ask (.float (.finite 5))) 0 (Behaviour.nested team (ask .none) 1 (.returns none)
      fun _ => .raises "agent failed").exec .start).1.ambient = Thread.start.ambient := by
  refine (ambient_restored_iff _ Thread.fresh_start).1.mpr ?_
  intro budget runTimeout prepared
  have same : prepare team (ask (.float (.finite 5))) 0 = .ok (none, .float (.finite 5)) := rfl
  obtain ⟨rfl, rfl⟩ := Prod.mk.inj (Except.ok.inj (same.symm.trans prepared))
  exact .inr ⟨.finite 5, rfl⟩

/-- `float("soon")` raises, and the trace of the run stays active. -/
theorem soon_leaks :
    (run team (ask (.str "soon")) 0 (Behaviour.returns none).exec .start).1.ambient ≠
      Thread.start.ambient := by
  have active : (run team (ask (.str "soon")) 0 (Behaviour.returns none).exec
      .start).1.ambient.trace = some ⟨1⟩ := by decide +kernel
  intro restored
  rw [restored] at active
  cases active

end AgentCoordinator

end MultiAgent.Plugin
