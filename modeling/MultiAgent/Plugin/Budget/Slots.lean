import MultiAgent.Foundations.Checks
import MultiAgent.Foundations.Dict
import MultiAgent.Foundations.Machine
import MultiAgent.Plugin.Budget
import MultiAgent.Plugin.Options
import Mathlib.Data.List.Perm.Basic

/-!
# The slots of a budget

`reserve` and `settle` of `runtime/budget.py` on a manager whose limits are what a caller passed,
and `_run_agent_once` of `strategies.py` around them. `as_budget` converts the limits to look at
their sign and hands them on as they were given. A call gets its slot before the `try` and gives
it back in the last statement of the `finally`; what each statement before that raises is free,
and each is a step of its own, so the runs of the machine are the interleavings of the calls.
-/

namespace MultiAgent.Plugin

namespace Number

/-- `a >= b` -/
def atLeast : Number → Number → Bool
  | .finite a, .finite b => decide (b ≤ a)
  | .finite _, .infinity negative => negative
  | .infinity negative, .finite _ => !negative
  | .infinity negative, .infinity negative' => !negative || negative'
  | .nan, _ | _, .nan => false

/-- `a + b` -/
def add : Number → Number → Number
  | .finite a, .finite b => .finite (a + b)
  | .finite _, .infinity negative | .infinity negative, .finite _ => .infinity negative
  | .infinity negative, .infinity negative' =>
    if negative = negative' then .infinity negative else .nan
  | .nan, _ | _, .nan => .nan

end Number

namespace Slots

/-- What the objects that a caller gives as limits answer. -/
structure Operators where
  /-- `number >= limit` -/
  atLeast : Special Value → Number → Except String Bool
  /-- `f"{limit:.6f}"` -/
  fixed : Special Value → Except String Unit

inductive Limit where
  | calls
  | tokens
  | cost
  deriving DecidableEq, Repr

/-- What `reserve` raises. -/
inductive Refusal where
  /-- `BudgetExceeded`, for the limit. -/
  | exceeded (limit : Limit)
  | raised (text : String)
  deriving DecidableEq, Repr

/-- A dict of counters. -/
abbrev Counters := Dict String Int

/-- A `BudgetManager` with its limits as they were given. -/
structure Manager where
  maxCalls : Value
  maxTokens : Value
  maxCost : Value
  pricer : Value
  calls : Nat
  reserved : Nat
  tokens : Int
  cost : Number

/-- `BudgetManager(**limits)` -/
def Manager.new (limits : List (Value × Value)) : Manager where
  maxCalls := lookup limits "max_calls"
  maxTokens := lookup limits "max_tokens"
  maxCost := lookup limits "max_cost"
  pricer := lookup limits "pricer"
  calls := 0
  reserved := 0
  tokens := 0
  cost := .finite 0

/-- `used >= limit` -/
def atLeast (operators : Operators) (used : Number) : Value → Except String Bool
  | .object special => operators.atLeast special used
  | limit =>
    match limit.number with
    | some limit => .ok (used.atLeast limit)
    | none => .error "'>=' not supported between these instances"

/-- The limit in the text of `BudgetExceeded`. -/
def shown (operators : Operators) : Limit → Value → Except String Unit
  | .cost, .object special => operators.fixed special
  | _, limit => limit.checkStr

/-- One check of `reserve`. -/
def check (operators : Operators) (limit : Limit) (used : Number) (given : Value) :
    Except Refusal Unit :=
  if given.isNone then .ok ()
  else
    match atLeast operators used given with
    | .error text => .error (.raised text)
    | .ok false => .ok ()
    | .ok true =>
      match shown operators limit given with
      | .error text => .error (.raised text)
      | .ok () => .error (.exceeded limit)

def reserve (operators : Operators) (manager : Manager) : Except Refusal Manager := do
  check operators .calls (.finite (manager.calls + manager.reserved : Nat)) manager.maxCalls
  check operators .tokens (.finite manager.tokens) manager.maxTokens
  check operators .cost manager.cost manager.maxCost
  return { manager with reserved := manager.reserved + 1 }

/-- The cost of a usage. `answer` is what `float(self._pricer(usage))` gives where the pricer is
something that can be called. -/
def price (manager : Manager) (usage : Counters) (answer : Except String Number) :
    Except String Number :=
  if usage.entries.isEmpty then .ok (.finite 0)
  else
    match manager.pricer with
    | .none => .ok (.finite 0)
    | .object _ => answer
    | _ => .error "object is not callable"

/-- What the pricer raises leaves `settle` before it takes the lock. -/
def settle (manager : Manager) (usage : Counters) (answer : Except String Number) :
    Except String Manager :=
  match price manager usage answer with
  | .ok cost => .ok
    { manager with
      calls := manager.calls + 1
      reserved := manager.reserved - 1
      tokens := manager.tokens + (usage.get? "total_tokens").getD 0
      cost := manager.cost.add cost }
  | .error text => .error text

/-- `_usage_delta`, on two readings of the counters of the agent. -/
def usageDelta (after before : Counters) : Counters where
  entries := after.entries.map fun entry => (entry.1, entry.2 - (before.get? entry.1).getD 0)
  distinct := by
    rw [List.map_map]
    exact after.distinct

/-- How `handle` of the agent ended. -/
inductive Outcome where
  | returned
  /-- An exception that `_run_agent_once` turns into an error dict. -/
  | error (text : String)
  /-- `BudgetExceeded`, or what is no `Exception`. -/
  | passed (text : String)
  deriving DecidableEq, Repr

/-- Where a call of `_run_agent_once` stands. -/
inductive Phase where
  /-- `reserve` raised `BudgetExceeded`. -/
  | refused
  /-- `reserve` raised something else. -/
  | failed
  /-- Before the first reading of the counters. -/
  | reserved
  | handling (before : Counters)
  /-- At the head of the `finally`. -/
  | leaving (before : Counters) (outcome : Outcome)
  /-- Behind `_note_call`. -/
  | noted (before : Counters) (outcome : Outcome)
  | settling (usage : Counters) (outcome : Outcome)
  | settled (outcome : Outcome)
  /-- A statement outside of the `try` raised. -/
  | stopped (text : String)

/-- A call, with the number of times that it has given back its slot. -/
structure Call where
  phase : Phase
  releases : Nat

/-- What the surroundings answer at a statement of a call. -/
inductive Answer where
  /-- The counters of the agent, or what reading them raises. -/
  | reading (counters : Except String Counters)
  | handle (outcome : Outcome)
  /-- Whether `timed_out` is set, and what `_note_call` raises. -/
  | note (timedOut : Bool) (result : Except String Unit)
  | price (cost : Except String Number)

/-- The next statement of a call. -/
def Call.next (manager : Manager) (call : Call) (answer : Answer) : Option (Manager × Call) :=
  match call.phase, answer with
  | .reserved, .reading (.ok before) => some (manager, { call with phase := .handling before })
  | .reserved, .reading (.error text) => some (manager, { call with phase := .stopped text })
  | .handling before, .handle outcome =>
    some (manager, { call with phase := .leaving before outcome })
  | .leaving before outcome, .note timedOut result =>
    if timedOut then some (manager, { call with phase := .noted before outcome })
    else
      match result with
      | .ok () => some (manager, { call with phase := .noted before outcome })
      | .error text => some (manager, { call with phase := .stopped text })
  | .noted before outcome, .reading (.ok after) =>
    some (manager, { call with phase := .settling (usageDelta after before) outcome })
  | .noted _ _, .reading (.error text) => some (manager, { call with phase := .stopped text })
  | .settling usage outcome, .price cost =>
    match settle manager usage cost with
    | .ok manager => some (manager, ⟨.settled outcome, call.releases + 1⟩)
    | .error text => some (manager, { call with phase := .stopped text })
  | _, _ => none

structure State where
  manager : Manager
  calls : List Call

inductive Event where
  /-- A call begins, with `reserve`. -/
  | dispatch
  | next (index : Nat) (answer : Answer)

def step (operators : Operators) (s : State) : Event → Option State
  | .dispatch =>
    match reserve operators s.manager with
    | .ok manager => some ⟨manager, s.calls ++ [⟨.reserved, 0⟩]⟩
    | .error (.exceeded _) => some { s with calls := s.calls ++ [⟨.refused, 0⟩] }
    | .error (.raised _) => some { s with calls := s.calls ++ [⟨.failed, 0⟩] }
  | .next index answer =>
    s.calls[index]?.bind fun call =>
      (call.next s.manager answer).map fun (manager, call) => ⟨manager, s.calls.set index call⟩

def machine (operators : Operators) : Machine State Event := ⟨step operators⟩

/-- No call has been dispatched under the manager. -/
def start (limits : List (Value × Value)) : State := ⟨Manager.new limits, []⟩

section Property

/-- The call has a slot or had one. -/
def Call.granted (call : Call) : Bool :=
  match call.phase with
  | .refused | .failed => false
  | _ => true

def Call.running (call : Call) : Bool :=
  match call.phase with
  | .reserved | .handling _ | .leaving _ _ | .noted _ _ | .settling _ _ => true
  | .refused | .failed | .settled _ | .stopped _ => false

/-- `reserve` has raised nothing but `BudgetExceeded`, and the slots have come back. -/
structure Released (s : State) : Prop where
  refusals : ∀ call ∈ s.calls, call.phase ≠ .failed
  once : ∀ call ∈ s.calls, call.granted = true → call.running = false → call.releases = 1
  idle : (∀ call ∈ s.calls, call.running = false) → s.manager.reserved = 0

end Property

section Condition

/-- A limit that is given stands against what is used. -/
def Reached (operators : Operators) (used : Number) (given : Value) : Prop :=
  given.isNone = false ∧ atLeast operators used given = .ok true

/-- The limit is no string, and an object that was given as one compares with a number and can
be shown once it is reached. -/
def Answers (operators : Operators) (limit : Limit) (used : Number) : Value → Prop
  | .str _ => False
  | .object special => ∃ above, operators.atLeast special used = .ok above ∧
      (above = true → shown operators limit (.object special) = .ok ())
  | _ => True

/-- The limits that `reserve` comes to answer it. -/
def Comparable (operators : Operators) (manager : Manager) : Prop :=
  Answers operators .calls (.finite (manager.calls + manager.reserved : Nat)) manager.maxCalls ∧
  (¬ Reached operators (.finite (manager.calls + manager.reserved : Nat)) manager.maxCalls →
    Answers operators .tokens (.finite manager.tokens) manager.maxTokens ∧
    (¬ Reached operators (.finite manager.tokens) manager.maxTokens →
      Answers operators .cost manager.cost manager.maxCost))

/-- Outside of the `try`, nothing raises: neither the two readings of the counters, nor the
record of the call, nor the price of its usage. -/
def Call.Smooth (manager : Manager) (call : Call) (answer : Answer) : Prop :=
  match call.phase, answer with
  | .reserved, .reading counters | .noted _ _, .reading counters => ∃ usage, counters = .ok usage
  | .leaving _ _, .note timedOut result => timedOut = true ∨ result = .ok ()
  | .settling usage _, .price cost => ∃ value, price manager usage cost = .ok value
  | _, _ => True

def Clean (operators : Operators) (s : State) : Event → Prop
  | .dispatch => Comparable operators s.manager
  | .next index answer => ∀ call ∈ s.calls[index]?, call.Smooth s.manager answer

instance {operators : Operators} {used : Number} {given : Value} :
    Decidable (Reached operators used given) :=
  inferInstanceAs (Decidable (_ ∧ _))

instance (operators : Operators) (limit : Limit) (used : Number) :
    (given : Value) → Decidable (Answers operators limit used given)
  | .str _ => isFalse id
  | .object special =>
    match compares : operators.atLeast special used with
    | .ok above => decidable_of_iff
        (above = true → shown operators limit (.object special) = .ok ())
        (by simp [Answers, compares])
    | .error _ => isFalse (by simp [Answers, compares])
  | .none | .bool _ | .int _ | .float _ | .dict _ | .budget _ _ | .policy => isTrue trivial

instance {operators : Operators} {manager : Manager} : Decidable (Comparable operators manager) :=
  inferInstanceAs (Decidable (_ ∧ (_ → _ ∧ (_ → _))))

instance decidableReturns {value : Type} : (x : Except String value) → Decidable (∃ a, x = .ok a)
  | .ok a => isTrue ⟨a, rfl⟩
  | .error _ => isFalse (by rintro ⟨_, ⟨⟩⟩)

instance (manager : Manager) : (call : Call) → (answer : Answer) →
    Decidable (call.Smooth manager answer)
  | ⟨.reserved, _⟩, .reading counters =>
    inferInstanceAs (Decidable (∃ usage, counters = .ok usage))
  | ⟨.noted _ _, _⟩, .reading counters =>
    inferInstanceAs (Decidable (∃ usage, counters = .ok usage))
  | ⟨.leaving _ _, _⟩, .note _ _ => inferInstanceAs (Decidable (_ ∨ _))
  | ⟨.settling usage _, _⟩, .price cost =>
    inferInstanceAs (Decidable (∃ value, price manager usage cost = .ok value))
  | ⟨.reserved, _⟩, .handle _ | ⟨.reserved, _⟩, .note _ _ | ⟨.reserved, _⟩, .price _
  | ⟨.noted _ _, _⟩, .handle _ | ⟨.noted _ _, _⟩, .note _ _ | ⟨.noted _ _, _⟩, .price _
  | ⟨.leaving _ _, _⟩, .reading _ | ⟨.leaving _ _, _⟩, .handle _ | ⟨.leaving _ _, _⟩, .price _
  | ⟨.settling _ _, _⟩, .reading _ | ⟨.settling _ _, _⟩, .handle _ | ⟨.settling _ _, _⟩, .note _ _
  | ⟨.refused, _⟩, _ | ⟨.failed, _⟩, _ | ⟨.handling _, _⟩, _ | ⟨.settled _, _⟩, _
  | ⟨.stopped _, _⟩, _ => isTrue trivial

instance (operators : Operators) (s : State) : (event : Event) → Decidable (Clean operators s event)
  | .dispatch => inferInstanceAs (Decidable (Comparable operators s.manager))
  | .next index answer =>
    inferInstanceAs (Decidable (∀ call ∈ s.calls[index]?, call.Smooth s.manager answer))

end Condition

section Entry

variable {operators : Operators} {limit : Limit} {used : Number} {given : Value}
  {entries : List (Value × Value)} {name : String} {fresh : Nat} {budget : Option Budget}
  {manager : Manager}

/-- What `int` and `float` convert, and an absent limit. -/
def Convertible (given : Value) : Prop :=
  given = .none ∨ (∃ number, given.number = some number) ∨ (∃ text, given = .str text) ∨
    ∃ special, given = .object special

theorem convertible_of_toInt {value : Int} (converts : given.toInt = .ok value) :
    Convertible given := by
  cases given with
  | bool value | int value | float value => exact .inr (.inl ⟨_, rfl⟩)
  | str text => exact .inr (.inr (.inl ⟨text, rfl⟩))
  | object special => exact .inr (.inr (.inr ⟨special, rfl⟩))
  | none | dict entries | budget id seconds | policy => cases converts

theorem convertible_of_toFloat {value : Number} (converts : given.toFloat = .ok value) :
    Convertible given := by
  cases given with
  | bool value | int value | float value => exact .inr (.inl ⟨_, rfl⟩)
  | str text => exact .inr (.inr (.inl ⟨text, rfl⟩))
  | object special => exact .inr (.inr (.inr ⟨special, rfl⟩))
  | none | dict entries | budget id seconds | policy => cases converts

theorem convertible_of_checkCount (passes : checkCount entries name = .ok ()) :
    Convertible (lookup entries name) := by
  unfold checkCount at passes
  dsimp only at passes
  cases absent : (lookup entries name).isNone with
  | true =>
      left
      cases shape : lookup entries name <;> simp [shape, Value.isNone] at absent ⊢
  | false =>
      cases converts : (lookup entries name).toInt with
      | ok value => exact convertible_of_toInt converts
      | error text =>
          rw [absent, converts] at passes
          cases passes

theorem convertible_of_checkAmount (passes : checkAmount entries name = .ok ()) :
    Convertible (lookup entries name) := by
  unfold checkAmount at passes
  dsimp only at passes
  cases absent : (lookup entries name).isNone with
  | true =>
      left
      cases shape : lookup entries name <;> simp [shape, Value.isNone] at absent ⊢
  | false =>
      cases converts : (lookup entries name).toFloat with
      | ok value => exact convertible_of_toFloat converts
      | error text =>
          rw [absent, converts] at passes
          cases passes

/-- The limits of an accepted dict have been converted. -/
theorem convertible_of_asBudget (accepted : asBudget fresh (.dict entries) = .ok budget) :
    Convertible (lookup entries "max_calls") ∧ Convertible (lookup entries "max_tokens") ∧
      Convertible (lookup entries "max_cost") := by
  rw [asBudget] at accepted
  simp only [List.forIn_cons, List.forIn_nil] at accepted
  split at accepted
  · cases accepted
  cases calls : checkCount entries "max_calls" with
  | error text =>
      rw [calls] at accepted
      cases accepted
  | ok _ =>
      cases tokens : checkCount entries "max_tokens" with
      | error text =>
          rw [calls, tokens] at accepted
          cases accepted
      | ok _ =>
          cases cost : checkAmount entries "max_cost" with
          | error text =>
              rw [calls, tokens, cost] at accepted
              cases accepted
          | ok _ =>
              exact ⟨convertible_of_checkCount calls, convertible_of_checkCount tokens,
                convertible_of_checkAmount cost⟩

/-- One check: it passes, names its limit as reached, or raises something else exactly when the
limit does not answer. -/
theorem check_cases (operators : Operators) (limit : Limit) (used : Number)
    (convertible : Convertible given) :
    (Answers operators limit used given ∧ ¬ Reached operators used given ∧
      check operators limit used given = .ok ()) ∨
    (Answers operators limit used given ∧ Reached operators used given ∧
      check operators limit used given = .error (.exceeded limit)) ∨
    (¬ Answers operators limit used given ∧
      ∃ text, check operators limit used given = .error (.raised text)) := by
  obtain rfl | ⟨number, shape⟩ | ⟨text, rfl⟩ | ⟨special, rfl⟩ := convertible
  · refine .inl ⟨trivial, ?_, rfl⟩
    rintro ⟨present, -⟩
    cases present
  · have given_ : given.isNone = false ∧ atLeast operators used given = .ok (used.atLeast number) ∧
        shown operators limit given = .ok () ∧ Answers operators limit used given := by
      cases given <;> cases shape <;> cases limit <;> exact ⟨rfl, rfl, rfl, trivial⟩
    obtain ⟨present, compares, shows, answers⟩ := given_
    rw [Reached, check]
    rw [present, compares, shows]
    cases used.atLeast number with
    | false => exact .inl ⟨answers, by simp, rfl⟩
    | true => exact .inr (.inl ⟨answers, by simp, rfl⟩)
  · exact .inr (.inr ⟨id, _, rfl⟩)
  · rw [Answers, Reached, check]
    simp only [Value.isNone, atLeast]
    cases compares : operators.atLeast special used with
    | error text => exact .inr (.inr ⟨by simp, text, rfl⟩)
    | ok above =>
        cases above with
        | false => exact .inl ⟨⟨false, rfl, by simp⟩, by simp, rfl⟩
        | true =>
            cases shows : shown operators limit (.object special) with
            | error text => exact .inr (.inr ⟨by simp, text, rfl⟩)
            | ok _ => exact .inr (.inl ⟨⟨true, rfl, fun _ => rfl⟩, by simp, rfl⟩)

/-- `reserve` grants a slot or raises `BudgetExceeded`, or raises something else exactly when a
limit that it comes to does not answer. -/
theorem reserve_cases (operators : Operators) (calls : Convertible manager.maxCalls)
    (tokens : Convertible manager.maxTokens) (cost : Convertible manager.maxCost) :
    (Comparable operators manager ∧
      (reserve operators manager = .ok { manager with reserved := manager.reserved + 1 } ∨
        ∃ limit, reserve operators manager = .error (.exceeded limit))) ∨
    (¬ Comparable operators manager ∧
      ∃ text, reserve operators manager = .error (.raised text)) := by
  rw [Comparable, reserve]
  obtain ⟨answers, free, passes⟩ | ⟨answers, reached, passes⟩ | ⟨silent, text, passes⟩ :=
    check_cases operators .calls (.finite (manager.calls + manager.reserved : Nat)) calls
  all_goals rw [passes]
  · obtain ⟨answers', free', passes⟩ | ⟨answers', reached, passes⟩ | ⟨silent, text, passes⟩ :=
      check_cases operators .tokens (.finite manager.tokens) tokens
    all_goals rw [passes]
    · obtain ⟨last, -, passes⟩ | ⟨last, -, passes⟩ | ⟨silent, text, passes⟩ :=
        check_cases operators .cost manager.cost cost
      all_goals rw [passes]
      · exact .inl ⟨⟨answers, fun _ => ⟨answers', fun _ => last⟩⟩, .inl rfl⟩
      · exact .inl ⟨⟨answers, fun _ => ⟨answers', fun _ => last⟩⟩, .inr ⟨.cost, rfl⟩⟩
      · exact .inr ⟨fun comparable => silent ((comparable.2 free).2 free'), text, rfl⟩
    · exact .inl ⟨⟨answers, fun _ => ⟨answers', fun open_ => absurd reached open_⟩⟩,
        .inr ⟨.tokens, rfl⟩⟩
    · exact .inr ⟨fun comparable => silent (comparable.2 free).1, text, rfl⟩
  · exact .inl ⟨⟨answers, fun open_ => absurd reached open_⟩, .inr ⟨.calls, rfl⟩⟩
  · exact .inr ⟨fun comparable => silent comparable.1, text, rfl⟩

/-- A limit that is a number. -/
def numeric : Option ℚ → Value
  | some limit => .float (.finite limit)
  | none => .none

/-- A budget with numbers as limits. -/
def Manager.ofBudget (budget : BudgetManager) (pricer : Value) : Manager where
  maxCalls := numeric budget.maxCalls
  maxTokens := numeric budget.maxTokens
  maxCost := numeric budget.maxCost
  pricer := pricer
  calls := budget.calls
  reserved := budget.reserved
  tokens := budget.tokens
  cost := .finite budget.cost

def limitOf : Exhausted → Limit
  | .calls _ _ => .calls
  | .tokens _ _ => .tokens
  | .cost _ _ => .cost

theorem check_numeric (operators : Operators) (value : ℚ) (bound : Option ℚ)
    (report : ℚ → Exhausted) (kind : ∀ number, limitOf (report number) = limit) :
    check operators limit (.finite value) (numeric bound) =
      match bound.bind fun number => if number ≤ value then some (report number) else none with
      | some exhausted => .error (.exceeded (limitOf exhausted))
      | none => .ok () := by
  cases bound with
  | none => rfl
  | some number =>
      rw [check, numeric]
      simp only [Value.isNone, atLeast, Value.number, Number.atLeast, Option.bind_some]
      by_cases reached : number ≤ value
      · simp only [reached, decide_true, if_true, kind]
        cases limit <;> rfl
      · simp [reached]

/-- With numbers as limits, `reserve` is that of the budget. -/
theorem reserve_ofBudget {budget : BudgetManager} {pricer : Value} :
    reserve operators (.ofBudget budget pricer) =
      match budget.reserve with
      | .ok after => .ok (.ofBudget after pricer)
      | .error exhausted => .error (.exceeded (limitOf exhausted)) := by
  have calls := check_numeric operators (budget.calls + budget.reserved : Nat) budget.maxCalls
    (.calls (budget.calls + budget.reserved)) fun _ => rfl
  have tokens := check_numeric operators budget.tokens budget.maxTokens (.tokens budget.tokens)
    fun _ => rfl
  have cost := check_numeric operators budget.cost budget.maxCost (.cost budget.cost) fun _ => rfl
  rw [reserve, BudgetManager.reserve, BudgetManager.exhausted]
  simp only [Manager.ofBudget, calls, tokens, cost]
  generalize (budget.maxCalls.bind fun number =>
    if number ≤ (budget.calls + budget.reserved : Nat) then
      some (Exhausted.calls (budget.calls + budget.reserved) number) else none) = first
  generalize (budget.maxTokens.bind fun number =>
    if number ≤ budget.tokens then some (Exhausted.tokens budget.tokens number) else none) = second
  generalize (budget.maxCost.bind fun number =>
    if number ≤ budget.cost then some (Exhausted.cost budget.cost number) else none) = third
  cases first with
  | some exhausted => rfl
  | none =>
      cases second with
      | some exhausted => rfl
      | none => cases third <;> rfl

end Entry

section Runs

variable {operators : Operators} {limits : List (Value × Value)} {fresh : Nat}
  {budget : Option Budget} {s t : State} {e : Event} {es : List Event} {call call' : Call}
  {manager manager' : Manager} {answer : Answer}

/-- The call has a slot that it has not given back. -/
def Call.holds (call : Call) : Bool :=
  match call.phase with
  | .reserved | .handling _ | .leaving _ _ | .noted _ _ | .settling _ _ | .stopped _ => true
  | .refused | .failed | .settled _ => false

/-- `reserve` raised something foreign, or the call ended with its slot. -/
def Call.lost (call : Call) : Bool :=
  match call.phase with
  | .failed | .stopped _ => true
  | _ => false

/-- A statement of a call goes on, gives the slot back, or stops the call; it stops the call
exactly when it raises. -/
theorem Call.next_cases (taken : call.next manager answer = some (manager', call')) :
    call.running = true ∧
    ((call.Smooth manager answer ∧
        (manager' = manager ∧ call'.running = true ∧ call'.releases = call.releases ∨
          (∃ outcome tokens cost, call' = ⟨.settled outcome, call.releases + 1⟩ ∧
            manager' = { manager with
              calls := manager.calls + 1, reserved := manager.reserved - 1, tokens, cost }))) ∨
      (¬ call.Smooth manager answer ∧ manager' = manager ∧
        ∃ text, call' = { call with phase := .stopped text })) := by
  obtain ⟨phase, releases⟩ := call
  cases phase with
  | refused | failed | settled _ | stopped _ => cases answer <;> cases taken
  | reserved =>
      cases answer with
      | handle _ | note _ _ | price _ => cases taken
      | reading counters =>
          cases counters with
          | ok before =>
              cases taken
              exact ⟨rfl, .inl ⟨⟨_, rfl⟩, .inl ⟨rfl, rfl, rfl⟩⟩⟩
          | error text =>
              cases taken
              refine ⟨rfl, .inr ⟨?_, rfl, _, rfl⟩⟩
              rintro ⟨_, fine⟩
              cases fine
  | handling before =>
      cases answer with
      | reading _ | note _ _ | price _ => cases taken
      | handle outcome =>
          cases taken
          exact ⟨rfl, .inl ⟨trivial, .inl ⟨rfl, rfl, rfl⟩⟩⟩
  | leaving before outcome =>
      cases answer with
      | reading _ | handle _ | price _ => cases taken
      | note timedOut result =>
          cases timedOut with
          | true =>
              cases taken
              exact ⟨rfl, .inl ⟨.inl rfl, .inl ⟨rfl, rfl, rfl⟩⟩⟩
          | false =>
              cases result with
              | ok _ =>
                  cases taken
                  exact ⟨rfl, .inl ⟨.inr rfl, .inl ⟨rfl, rfl, rfl⟩⟩⟩
              | error text =>
                  cases taken
                  refine ⟨rfl, .inr ⟨?_, rfl, _, rfl⟩⟩
                  rintro (fine | fine) <;> cases fine
  | noted before outcome =>
      cases answer with
      | handle _ | note _ _ | price _ => cases taken
      | reading counters =>
          cases counters with
          | ok after =>
              cases taken
              exact ⟨rfl, .inl ⟨⟨_, rfl⟩, .inl ⟨rfl, rfl, rfl⟩⟩⟩
          | error text =>
              cases taken
              refine ⟨rfl, .inr ⟨?_, rfl, _, rfl⟩⟩
              rintro ⟨_, fine⟩
              cases fine
  | settling usage outcome =>
      cases answer with
      | reading _ | handle _ | note _ _ => cases taken
      | price cost =>
          unfold next settle at taken
          dsimp only at taken
          cases priced : price manager usage cost with
          | ok value =>
              rw [priced] at taken
              cases taken
              exact ⟨rfl, .inl ⟨⟨value, priced⟩, .inr ⟨outcome, _, _, rfl, rfl⟩⟩⟩
          | error text =>
              rw [priced] at taken
              cases taken
              refine ⟨rfl, .inr ⟨?_, rfl, _, rfl⟩⟩
              rintro ⟨value, fine⟩
              rw [priced] at fine
              cases fine

theorem Call.not_lost_of_running (running : call.running = true) :
    call.lost = false ∧ call.holds = true ∧ call.granted = true := by
  obtain ⟨phase, releases⟩ := call
  cases phase with
  | refused | failed | settled _ | stopped _ => cases running
  | reserved | handling _ | leaving _ _ | noted _ _ | settling _ _ => exact ⟨rfl, rfl, rfl⟩

/-- How a step changes the calls. -/
theorem step_cases (calls : Convertible s.manager.maxCalls)
    (tokens : Convertible s.manager.maxTokens) (cost : Convertible s.manager.maxCost)
    (taken : step operators s e = some t) :
    (e = .dispatch ∧ Comparable operators s.manager ∧
      (t = ⟨{ s.manager with reserved := s.manager.reserved + 1 }, s.calls ++ [⟨.reserved, 0⟩]⟩ ∨
        t = { s with calls := s.calls ++ [⟨.refused, 0⟩] })) ∨
    (e = .dispatch ∧ ¬ Comparable operators s.manager ∧
      t = { s with calls := s.calls ++ [⟨.failed, 0⟩] }) ∨
    ∃ index answer call call' rest, e = .next index answer ∧ s.calls[index]? = some call ∧
      call.next s.manager answer = some (t.manager, call') ∧ s.calls.Perm (call :: rest) ∧
      t.calls.Perm (call' :: rest) := by
  cases e with
  | dispatch =>
      obtain ⟨comparable, granted | ⟨limit, refused⟩⟩ | ⟨silent, text, raised⟩ :=
        reserve_cases operators calls tokens cost
      · simp only [step, granted, Option.some.injEq] at taken
        exact .inl ⟨rfl, comparable, .inl taken.symm⟩
      · simp only [step, refused, Option.some.injEq] at taken
        exact .inl ⟨rfl, comparable, .inr taken.symm⟩
      · simp only [step, raised, Option.some.injEq] at taken
        exact .inr (.inl ⟨rfl, silent, taken.symm⟩)
  | next index answer =>
      obtain ⟨call, found, moved⟩ := Option.bind_eq_some_iff.mp taken
      obtain ⟨⟨manager, call'⟩, acted, rfl⟩ := Option.map_eq_some_iff.mp moved
      obtain ⟨inside, rfl⟩ := List.getElem?_eq_some_iff.mp found
      exact .inr (.inr ⟨index, answer, s.calls[index], call', s.calls.eraseIdx index, rfl, found,
        acted, (List.getElem_cons_eraseIdx_perm inside).symm,
        List.set_perm_cons_eraseIdx inside call'⟩)

/-- What holds between the steps: the limits are those of the dict, and `_reserved` counts the
calls that have a slot. -/
structure Sound (limits : List (Value × Value)) (s : State) : Prop where
  maxCalls : s.manager.maxCalls = lookup limits "max_calls"
  maxTokens : s.manager.maxTokens = lookup limits "max_tokens"
  maxCost : s.manager.maxCost = lookup limits "max_cost"
  reserved : s.manager.reserved = s.calls.countP Call.holds
  releases : ∀ call ∈ s.calls, call.releases = if call.granted && !call.holds then 1 else 0

theorem Sound.start (limits : List (Value × Value)) : Sound limits (start limits) :=
  ⟨rfl, rfl, rfl, rfl, fun _ member => absurd member List.not_mem_nil⟩

/-- The slots have come back exactly when no call is lost. -/
theorem Sound.released_iff (sound : Sound limits s) :
    Released s ↔ ∀ call ∈ s.calls, call.lost = false := by
  constructor
  · intro released call member
    have refusal := released.refusals call member
    have once := released.once call member
    have releases := sound.releases call member
    obtain ⟨phase, number⟩ := call
    cases phase with
    | failed => exact absurd rfl refusal
    | stopped text =>
        exact absurd ((once rfl rfl).symm.trans releases) (by simp [Call.granted, Call.holds])
    | _ => rfl
  · intro kept
    refine ⟨?_, ?_, ?_⟩
    · intro call member failed
      have lost := kept call member
      rw [Call.lost] at lost
      rw [failed] at lost
      cases lost
    · intro call member granted idle
      have releases := sound.releases call member
      have lost := kept call member
      obtain ⟨phase, number⟩ := call
      cases phase with
      | settled outcome => exact releases
      | refused | failed => cases granted
      | stopped text => cases lost
      | reserved | handling _ | leaving _ _ | noted _ _ | settling _ _ => cases idle
    · intro quiet
      rw [sound.reserved, List.countP_eq_zero]
      intro call member holds
      have lost := kept call member
      have still := quiet call member
      obtain ⟨phase, number⟩ := call
      cases phase with
      | refused | failed | settled _ => cases holds
      | stopped text => cases lost
      | reserved | handling _ | leaving _ _ | noted _ _ | settling _ _ => cases still

/-- What the manager and the call that a statement belongs to have to do with each other. -/
theorem Call.next_books (taken : call.next manager answer = some (manager', call'))
    (releases : call.releases = 0) :
    (manager'.maxCalls = manager.maxCalls ∧ manager'.maxTokens = manager.maxTokens ∧
      manager'.maxCost = manager.maxCost) ∧
    manager'.reserved = manager.reserved - (if call'.holds then 0 else 1) ∧
    call'.releases = if call'.granted && !call'.holds then 1 else 0 := by
  obtain ⟨running, ⟨-, ⟨rfl, running', same⟩ | ⟨outcome, tokens, cost, rfl, rfl⟩⟩ |
    ⟨-, rfl, text, rfl⟩⟩ := Call.next_cases taken
  · obtain ⟨-, holds, granted⟩ := Call.not_lost_of_running running'
    rw [holds, granted]
    exact ⟨⟨rfl, rfl, rfl⟩, rfl, same.trans releases⟩
  · exact ⟨⟨rfl, rfl, rfl⟩, rfl, congrArg (· + 1) releases⟩
  · exact ⟨⟨rfl, rfl, rfl⟩, rfl, releases⟩

section Steps

variable (calls : Convertible (lookup limits "max_calls"))
  (tokens : Convertible (lookup limits "max_tokens"))
  (cost : Convertible (lookup limits "max_cost"))

include calls tokens cost

theorem Sound.cases (sound : Sound limits s) (taken : step operators s e = some t) :
    (e = .dispatch ∧ Comparable operators s.manager ∧
      (t = ⟨{ s.manager with reserved := s.manager.reserved + 1 }, s.calls ++ [⟨.reserved, 0⟩]⟩ ∨
        t = { s with calls := s.calls ++ [⟨.refused, 0⟩] })) ∨
    (e = .dispatch ∧ ¬ Comparable operators s.manager ∧
      t = { s with calls := s.calls ++ [⟨.failed, 0⟩] }) ∨
    ∃ index answer call call' rest, e = .next index answer ∧ s.calls[index]? = some call ∧
      call.next s.manager answer = some (t.manager, call') ∧ s.calls.Perm (call :: rest) ∧
      t.calls.Perm (call' :: rest) :=
  step_cases (sound.maxCalls ▸ calls) (sound.maxTokens ▸ tokens) (sound.maxCost ▸ cost) taken

theorem Sound.step (sound : Sound limits s) (taken : step operators s e = some t) :
    Sound limits t := by
  obtain ⟨-, -, rfl | rfl⟩ | ⟨-, -, rfl⟩ | ⟨index, answer, call, call', rest, -, -, acted, before,
    after⟩ := sound.cases calls tokens cost taken
  · refine ⟨sound.maxCalls, sound.maxTokens, sound.maxCost, ?_, ?_⟩
    · rw [List.countP_append, ← sound.reserved]
      rfl
    · exact List.forall_mem_append.mpr ⟨sound.releases, List.forall_mem_singleton.mpr rfl⟩
  · refine ⟨sound.maxCalls, sound.maxTokens, sound.maxCost, ?_, ?_⟩
    · rw [List.countP_append, ← sound.reserved]
      rfl
    · exact List.forall_mem_append.mpr ⟨sound.releases, List.forall_mem_singleton.mpr rfl⟩
  · refine ⟨sound.maxCalls, sound.maxTokens, sound.maxCost, ?_, ?_⟩
    · rw [List.countP_append, ← sound.reserved]
      rfl
    · exact List.forall_mem_append.mpr ⟨sound.releases, List.forall_mem_singleton.mpr rfl⟩
  · have books : ∀ other ∈ call :: rest,
        other.releases = if other.granted && !other.holds then 1 else 0 :=
      fun other member => sound.releases other (before.mem_iff.mpr member)
    obtain ⟨here, others⟩ := List.forall_mem_cons.mp books
    obtain ⟨-, holds, granted⟩ := Call.not_lost_of_running (Call.next_cases acted).1
    rw [holds, granted] at here
    obtain ⟨⟨maxCalls, maxTokens, maxCost⟩, reserved, releases⟩ := Call.next_books acted here
    refine ⟨maxCalls.trans sound.maxCalls, maxTokens.trans sound.maxTokens,
      maxCost.trans sound.maxCost, ?_, ?_⟩
    · rw [reserved, sound.reserved, before.countP_eq, after.countP_eq, List.countP_cons,
        List.countP_cons, holds]
      cases call'.holds <;> simp
    · intro other member
      obtain rfl | member := List.mem_cons.mp (after.mem_iff.mp member)
      · exact releases
      · exact others other member

theorem Sound.stays_lost (sound : Sound limits s) (taken : Slots.step operators s e = some t)
    (lost : ∃ call ∈ s.calls, call.lost = true) : ∃ call ∈ t.calls, call.lost = true := by
  obtain ⟨other, member, lost⟩ := lost
  obtain ⟨-, -, rfl | rfl⟩ | ⟨-, -, rfl⟩ | ⟨index, answer, call, call', rest, -, -, acted, before,
    after⟩ := sound.cases calls tokens cost taken
  · exact ⟨other, List.mem_append_left _ member, lost⟩
  · exact ⟨other, List.mem_append_left _ member, lost⟩
  · exact ⟨other, List.mem_append_left _ member, lost⟩
  · obtain rfl | member := List.mem_cons.mp (before.mem_iff.mp member)
    · rw [(Call.not_lost_of_running (Call.next_cases acted).1).1] at lost
      cases lost
    · exact ⟨other, after.mem_iff.mpr (List.mem_cons_of_mem _ member), lost⟩

/-- A call is lost exactly where a step is not clean. -/
theorem Sound.lost_iff (sound : Sound limits s) (taken : Slots.step operators s e = some t)
    (kept : ∀ call ∈ s.calls, call.lost = false) :
    (∃ call ∈ t.calls, call.lost = true) ↔ ¬ Clean operators s e := by
  have last : ∀ {call : Call} {calls : List Call}, (∀ call ∈ calls, call.lost = false) →
      ((∃ other ∈ call :: calls, other.lost = true) ↔ call.lost = true) := by
    intro call calls kept
    constructor
    · rintro ⟨other, member, lost⟩
      obtain rfl | member := List.mem_cons.mp member
      · exact lost
      · rw [kept other member] at lost
        cases lost
    · exact fun lost => ⟨call, List.mem_cons_self, lost⟩
  have added : ∀ call : Call, (∃ other ∈ s.calls ++ [call], other.lost = true) ↔
      call.lost = true := by
    intro call
    have shape := List.perm_append_singleton call s.calls
    rw [← last kept]
    exact exists_congr fun other => and_congr_left' shape.mem_iff
  obtain ⟨rfl, comparable, rfl | rfl⟩ | ⟨rfl, silent, rfl⟩ | ⟨index, answer, call, call', rest,
    rfl, found, acted, before, after⟩ := sound.cases calls tokens cost taken
  · rw [added]
    exact ⟨fun lost => (by cases lost), fun dirty => absurd comparable dirty⟩
  · rw [added]
    exact ⟨fun lost => (by cases lost), fun dirty => absurd comparable dirty⟩
  · rw [added]
    exact ⟨fun _ => silent, fun _ => rfl⟩
  · have others : ∀ other ∈ rest, other.lost = false :=
      fun other member => kept other (before.mem_iff.mpr (List.mem_cons_of_mem _ member))
    have clean : Clean operators s (.next index answer) ↔ call.Smooth s.manager answer := by
      change (∀ call ∈ s.calls[index]?, call.Smooth s.manager answer) ↔ _
      rw [found]
      exact ⟨fun smooth => smooth call rfl, fun smooth _ same => Option.some.inj same ▸ smooth⟩
    rw [exists_congr fun other => and_congr_left' after.mem_iff, last others, clean]
    obtain ⟨-, ⟨smooth, ⟨-, running, -⟩ | ⟨outcome, tokens, cost, rfl, -⟩⟩ |
      ⟨rough, -, text, rfl⟩⟩ := Call.next_cases acted
    · rw [(Call.not_lost_of_running running).1]
      exact ⟨fun lost => (by cases lost), fun dirty => absurd smooth dirty⟩
    · exact ⟨fun lost => (by cases lost), fun dirty => absurd smooth dirty⟩
    · exact ⟨fun _ => rough, fun _ => rfl⟩

end Steps

/-- Objects that compare with nothing. -/
def deaf : Operators where
  atLeast _ _ := .error "'>=' not supported between these instances"
  fixed _ := .error "unsupported format string"

/-- A call whose agent raises, and one that comes too late. -/
def oneCall : List Event :=
  [.dispatch, .next 0 (.reading (.ok .empty)), .next 0 (.handle (.error "offline")),
   .next 0 (.note false (.ok ())), .next 0 (.reading (.ok (Dict.empty.set "total_tokens" 7))),
   .next 0 (.price (.ok (.finite 0))), .dispatch]

/-- A function, as a limit or a pricer. -/
def callable : Special Value where
  truthy := .ok true
  float := .error "float() argument must be a string or a real number"
  int := .error "int() argument must be a string, a bytes-like object or a real number"
  less := .error "'<' not supported between these instances"
  lower := .error "object has no attribute 'lower'"
  str := .ok "<function>"
  items := .error "object has no attribute 'get'"

/-- The pricer raises at the usage of the call. -/
def pricerRaises : List Event :=
  [.dispatch, .next 0 (.reading (.ok .empty)), .next 0 (.handle .returned),
   .next 0 (.note false (.ok ())), .next 0 (.reading (.ok (Dict.empty.set "total_tokens" 7))),
   .next 0 (.price (.error "unknown model"))]

end Runs

end Slots

end MultiAgent.Plugin
