import MultiAgent.Foundations.Machine
import MultiAgent.Plugin.Budget
import Mathlib.Algebra.BigOperators.Group.List.Basic
import Mathlib.Tactic.Abel

/-!
# Agent calls under one budget

`_run_agent_once` of `strategies.py`, `FallbackAgent` of `agents.py`. The usage of a
call is the difference of two readings of the counters of its agent, and a
`FallbackAgent` takes over the usage of a backend in the same way. Every reading and
every addition is a step of its own, so the runs of the machine are the
interleavings of the calls. What a plain agent does with a message is free: it may
consume tokens any number of times, answer, or raise.
-/

namespace MultiAgent.Plugin

/-- The agents by id. A `FallbackAgent` has backends, and at least one. -/
structure Fleet where
  backends : String → Option (List String)
  someBackend : ∀ agent, backends agent ≠ some []

namespace AgentCalls

/-- A running `handle`: its agent, the reading of the counters of that agent before
it began, and the backends still to be tried. -/
structure Frame where
  agent : String
  before : Usage
  todo : List String

/-- Where a call stands; a `handle` that ends is the innermost one. -/
inductive Phase where
  /-- Behind `budget.reserve`. -/
  | reserved
  | handling
  /-- `handle` returned; `isError` says that it returned an error dict. -/
  | returning (isError : Bool)
  /-- `handle` raised; `passes` says that a `FallbackAgent` lets it pass:
  `BudgetExceeded`, and what is no `Exception`. -/
  | raising (passes : Bool)
  /-- In `_absorb_usage`, with the usage of the backend. -/
  | absorbing (usage : Usage) (isError : Bool)
  /-- Before `budget.settle`, with the usage of the call. -/
  | settling (usage : Usage)
  /-- The tokens that `budget.settle` counted for the call. -/
  | settled (counted : Int)

/-- A call of `_run_agent_once`, with the tokens that it has consumed. -/
structure Call where
  agent : String
  /-- From the innermost `handle` outwards. -/
  frames : List Frame
  phase : Phase
  consumed : Int

structure State where
  /-- `total_usage` of the agents. -/
  usage : String → Usage
  budget : BudgetManager
  calls : List Call

/-- `_add_usage` -/
def addUsage (usage : String → Usage) (agent : String) (more : Usage) : String → Usage :=
  fun other => if other = agent then (usage agent).add more else usage other

/-- What an agent has used since the frame began. -/
def Frame.used (usage : String → Usage) (frame : Frame) : Usage :=
  (usage frame.agent).since frame.before

/-- A `handle` begins behind the reading of the counters. -/
def enter (fleet : Fleet) (usage : String → Usage) (agent : String) : Frame :=
  ⟨agent, usage agent, (fleet.backends agent).getD []⟩

/-- One statement of a call. -/
inductive Act where
  /-- A plain agent consumes tokens; `noted` says that it adds them to its counters. -/
  | consume (usage : Usage) (noted : Bool)
  | answer (isError : Bool)
  | raise (passes : Bool)
  | next

/-- The parts of the state that a call changes. -/
structure Effect where
  usage : String → Usage
  budget : BudgetManager
  call : Call

/-- The innermost `handle` is that of a plain agent. -/
def Call.isPlain (fleet : Fleet) (call : Call) : Bool :=
  match call.phase, call.frames with
  | .handling, frame :: _ => (fleet.backends frame.agent).isNone
  | _, _ => false

/-- What a plain agent does; its own part is free. -/
def Call.act (usage : String → Usage) (budget : BudgetManager) (call : Call) :
    Act → Option Effect
  | .consume more noted =>
    let consumed := call.consumed + more.totalTokens
    match call.frames with
    | frame :: _ =>
      some ⟨if noted then addUsage usage frame.agent more else usage, budget,
        { call with consumed }⟩
    | [] => none
  | .answer isError => some ⟨usage, budget, { call with phase := .returning isError }⟩
  | .raise passes => some ⟨usage, budget, { call with phase := .raising passes }⟩
  | .next => none

/-- The next statement of `_run_agent_once` or of `FallbackAgent.handle`. -/
def Call.next (fleet : Fleet) (usage : String → Usage) (budget : BudgetManager) (call : Call) :
    Option Effect :=
  match call.phase, call.frames with
  | .reserved, _ =>
    some ⟨usage, budget,
      { call with frames := [enter fleet usage call.agent], phase := .handling }⟩
  | .handling, frame :: outer =>
    if (fleet.backends frame.agent).isNone then none
    else match frame.todo with
      | backend :: todo =>
        some ⟨usage, budget,
          { call with frames := enter fleet usage backend :: { frame with todo } :: outer }⟩
      -- Every backend has failed.
      | [] => some ⟨usage, budget, { call with phase := .raising false }⟩
  | .returning _, [frame] =>
    some ⟨usage, budget, { call with frames := [], phase := .settling (frame.used usage) }⟩
  | .returning isError, frame :: outer =>
    some ⟨usage, budget,
      { call with frames := outer, phase := .absorbing (frame.used usage) isError }⟩
  | .raising _, [frame] =>
    some ⟨usage, budget, { call with frames := [], phase := .settling (frame.used usage) }⟩
  | .raising passes, _ :: outer =>
    some ⟨usage, budget,
      { call with frames := outer, phase := if passes then .raising true else .handling }⟩
  | .absorbing more isError, frame :: _ =>
    some ⟨addUsage usage frame.agent more, budget,
      { call with phase := if isError then .handling else .returning false }⟩
  | .settling more, _ =>
    match budget.settle more with
    | .ok budget => some ⟨usage, budget, { call with phase := .settled more.totalTokens }⟩
    | .error _ => some ⟨usage, budget, { call with phase := .settled 0 }⟩
  | _, _ => none

/-- A plain agent acts as it likes, everything else as it is written. -/
def Call.move (fleet : Fleet) (usage : String → Usage) (budget : BudgetManager) (call : Call)
    (act : Act) : Option Effect :=
  if call.isPlain fleet then call.act usage budget act
  else match act with
    | .next => call.next fleet usage budget
    | .consume _ _ | .answer _ | .raise _ => none

inductive Event where
  | start (agent : String)
  | move (index : Nat) (act : Act)

def step (fleet : Fleet) (s : State) : Event → Option State
  | .start agent =>
    match s.budget.reserve with
    | .ok budget =>
      some { s with budget, calls := s.calls ++ [⟨agent, [], .reserved, 0⟩] }
    | .error _ => some s
  | .move index act =>
    s.calls[index]?.bind fun call =>
      (call.move fleet s.usage s.budget act).map fun effect =>
        ⟨effect.usage, effect.budget, s.calls.set index effect.call⟩

def machine (fleet : Fleet) : Machine State Event := ⟨step fleet⟩

def start (usage : String → Usage) (budget : BudgetManager) : State := ⟨usage, budget, []⟩

section Condition

/-- No reading of the counters of the agent is open but the innermost of the call:
neither an outer one of its own nor one of another call. -/
structure Alone (others : List Call) (outer : List Frame) (agent : String) : Prop where
  outer : ∀ frame ∈ outer, frame.agent ≠ agent
  others : ∀ call ∈ others, ∀ frame ∈ call.frames, frame.agent ≠ agent

/-- The statement keeps track of the tokens of its call: what is added to the counters
of an agent is seen by one open reading, what is consumed is added to them, no reading
is given up behind which tokens were used, and the pricer takes the usage. -/
def Call.Watched (usage : String → Usage) (budget : BudgetManager) (others : List Call)
    (call : Call) : Act → Prop
  | .consume more noted =>
    match call.frames with
    | frame :: outer => more.totalTokens = 0 ∨ (noted = true ∧ Alone others outer frame.agent)
    | [] => True
  | .answer _ | .raise _ => True
  | .next =>
    match call.phase, call.frames with
    | .absorbing more _, frame :: outer =>
      more.totalTokens = 0 ∨ Alone others outer frame.agent
    | .raising _, frame :: _ :: _ => (frame.used usage).totalTokens = 0
    | .settling more, _ => more.totalTokens = 0 ∨ ∃ cost, budget.price more = .ok cost
    | _, _ => True

def Watched (s : State) : Event → Prop
  | .start _ => True
  | .move index act =>
    match s.calls[index]? with
    | some call => call.Watched s.usage s.budget (s.calls.eraseIdx index) act
    | none => True

instance (others : List Call) (outer : List Frame) (agent : String) :
    Decidable (Alone others outer agent) :=
  decidable_of_iff ((∀ frame ∈ outer, frame.agent ≠ agent) ∧
      ∀ call ∈ others, ∀ frame ∈ call.frames, frame.agent ≠ agent)
    ⟨fun both => ⟨both.1, both.2⟩, fun alone => ⟨alone.outer, alone.others⟩⟩

instance (budget : BudgetManager) (usage : Usage) :
    Decidable (∃ cost, budget.price usage = .ok cost) :=
  match priced : budget.price usage with
  | .ok cost => isTrue ⟨cost, rfl⟩
  | .error _ => isFalse (by rintro ⟨_, ⟨⟩⟩)

instance (usage : String → Usage) (budget : BudgetManager) (others : List Call) :
    (call : Call) → (act : Act) → Decidable (call.Watched usage budget others act)
  | ⟨_, _ :: _, _, _⟩, .consume _ _ => inferInstanceAs (Decidable (_ ∨ _ ∧ Alone _ _ _))
  | ⟨_, [], _, _⟩, .consume _ _ => isTrue trivial
  | _, .answer _ => isTrue trivial
  | _, .raise _ => isTrue trivial
  | ⟨_, _ :: _, .absorbing _ _, _⟩, .next => inferInstanceAs (Decidable (_ ∨ Alone _ _ _))
  | ⟨_, [], .absorbing _ _, _⟩, .next => isTrue trivial
  | ⟨_, _ :: _ :: _, .raising _, _⟩, .next => inferInstanceAs (Decidable (_ = _))
  | ⟨_, [_], .raising _, _⟩, .next => isTrue trivial
  | ⟨_, [], .raising _, _⟩, .next => isTrue trivial
  | ⟨_, _, .settling _, _⟩, .next => inferInstanceAs (Decidable (_ ∨ ∃ _, _ = _))
  | ⟨_, _, .reserved, _⟩, .next => isTrue trivial
  | ⟨_, _, .handling, _⟩, .next => isTrue trivial
  | ⟨_, _, .returning _, _⟩, .next => isTrue trivial
  | ⟨_, _, .settled _, _⟩, .next => isTrue trivial

instance (s : State) : (event : Event) → Decidable (Watched s event)
  | .start _ => isTrue trivial
  | .move index act =>
    match found : s.calls[index]? with
    | some call => decidable_of_iff (call.Watched s.usage s.budget (s.calls.eraseIdx index) act)
        (by simp [Watched, found])
    | none => isTrue (by simp [Watched, found])

end Condition

section Balance

variable {usage : String → Usage} {budget : BudgetManager} {agent : String} {more : Usage}
  {frame : Frame} {frames : List Frame} {call : Call} {fleet : Fleet} {effect : Effect}

/-- The tokens that the open readings of a call have seen and not handed on. -/
def outstanding (usage : String → Usage) (frames : List Frame) : Int :=
  (frames.map fun frame => (frame.used usage).totalTokens).sum

/-- The readings of a call account for what it has consumed. -/
def Balanced (usage : String → Usage) (call : Call) : Prop :=
  match call.phase with
  | .reserved => call.consumed = 0
  | .handling | .returning _ | .raising _ => outstanding usage call.frames = call.consumed
  | .absorbing more _ => outstanding usage call.frames + more.totalTokens = call.consumed
  | .settling more => more.totalTokens = call.consumed
  | .settled counted => counted = call.consumed

theorem outstanding_cons : outstanding usage (frame :: frames) =
    (frame.used usage).totalTokens + outstanding usage frames := rfl

theorem outstanding_enter (fleet : Fleet) (usage : String → Usage) (agent : String)
    (frames : List Frame) :
    outstanding usage (enter fleet usage agent :: frames) = outstanding usage frames := by
  simp [outstanding, enter, Frame.used]

theorem used_addUsage : (frame.used (addUsage usage agent more)).totalTokens =
    (frame.used usage).totalTokens + if frame.agent = agent then more.totalTokens else 0 := by
  unfold Frame.used addUsage
  split
  · rename_i same
    simp only [Usage.totalTokens_since, Usage.totalTokens_add, same]
    omega
  · simp

/-- An addition that no open reading of the frames sees. -/
theorem outstanding_addUsage
    (apart : more.totalTokens = 0 ∨ ∀ frame ∈ frames, frame.agent ≠ agent) :
    outstanding (addUsage usage agent more) frames = outstanding usage frames := by
  rw [outstanding]
  refine congrArg List.sum (List.map_congr_left ?_)
  intro frame member
  rw [used_addUsage]
  obtain none_ | apart := apart
  · simp [none_]
  · simp [apart frame member]

theorem Balanced.addUsage (balanced : Balanced usage call)
    (apart : more.totalTokens = 0 ∨ ∀ frame ∈ call.frames, frame.agent ≠ agent) :
    Balanced (addUsage usage agent more) call := by
  unfold Balanced at balanced ⊢
  rw [outstanding_addUsage apart]
  exact balanced

/-- An addition that the innermost reading sees, and no outer one. -/
theorem outstanding_addUsage_self
    (apart : more.totalTokens = 0 ∨ ∀ other ∈ frames, other.agent ≠ frame.agent) :
    outstanding (AgentCalls.addUsage usage frame.agent more) (frame :: frames) =
      outstanding usage (frame :: frames) + more.totalTokens := by
  rw [outstanding_cons, outstanding_cons, used_addUsage, if_pos rfl, outstanding_addUsage apart]
  omega

/-- What the budget has counted for a call. -/
def counted (call : Call) : Int :=
  match call.phase with
  | .settled counted => counted
  | _ => 0

/-- A statement keeps the balance of its own call and of the others, and the budget
counts what the call settles. -/
structure Keeps (usage : String → Usage) (budget : BudgetManager) (others : List Call)
    (call : Call) (effect : Effect) : Prop where
  own : Balanced effect.usage effect.call
  others : ∀ other ∈ others, Balanced effect.usage other
  tokens : effect.budget.tokens + counted call = budget.tokens + counted effect.call

variable {others : List Call}

theorem Alone.watched {outer : List Frame}
    (alone : more.totalTokens = 0 ∨ Alone others outer agent) :
    (more.totalTokens = 0 ∨ ∀ frame ∈ outer, frame.agent ≠ agent) ∧
      ∀ call ∈ others, more.totalTokens = 0 ∨ ∀ frame ∈ call.frames, frame.agent ≠ agent :=
  ⟨alone.imp_right Alone.outer, fun call member => alone.imp_right fun alone =>
    alone.others call member⟩

theorem act_keeps {act : Act} (plain : call.isPlain fleet = true)
    (balanced : Balanced usage call) (rest : ∀ other ∈ others, Balanced usage other)
    (watched : call.Watched usage budget others act)
    (taken : call.act usage budget act = some effect) :
    Keeps usage budget others call effect := by
  obtain ⟨agent, frames, phase, consumed⟩ := call
  cases phase with
  | handling =>
      cases act with
      | next => cases taken
      | answer isError =>
          cases taken
          exact ⟨balanced, rest, rfl⟩
      | raise passes =>
          cases taken
          exact ⟨balanced, rest, rfl⟩
      | consume more noted =>
          cases frames with
          | nil => cases taken
          | cons frame outer =>
              cases taken
              have seen : more.totalTokens = 0 ∨ (noted = true ∧ Alone others outer frame.agent) :=
                watched
              have exact_ : outstanding usage (frame :: outer) = consumed := balanced
              cases noted with
              | false =>
                  have none_ := seen.resolve_right (by simp)
                  refine ⟨?_, rest, rfl⟩
                  change outstanding usage (frame :: outer) = consumed + more.totalTokens
                  omega
              | true =>
                  obtain ⟨own, apart⟩ := Alone.watched (seen.imp_right And.right)
                  refine ⟨?_, fun other member => (rest other member).addUsage (apart other member),
                    rfl⟩
                  change outstanding (addUsage usage frame.agent more) (frame :: outer) =
                    consumed + more.totalTokens
                  rw [outstanding_addUsage_self own, exact_]
  | _ => simp [Call.isPlain] at plain

section Next

variable {consumed : Int} {isError passes : Bool}

theorem handling_keeps (exact_ : outstanding usage frames = consumed)
    (rest : ∀ other ∈ others, Balanced usage other)
    (taken : Call.next fleet usage budget ⟨agent, frames, .handling, consumed⟩ = some effect) :
    Keeps usage budget others ⟨agent, frames, .handling, consumed⟩ effect := by
  cases frames with
  | nil => cases taken
  | cons frame outer =>
      obtain ⟨name, before, todo⟩ := frame
      cases plain : (fleet.backends name).isNone with
      | true => simp [Call.next, plain] at taken
      | false =>
          cases todo with
          | nil =>
              simp only [Call.next, plain, Bool.false_eq_true, if_false,
                Option.some.injEq] at taken
              subst taken
              exact ⟨exact_, rest, rfl⟩
          | cons backend todo =>
              simp only [Call.next, plain, Bool.false_eq_true, if_false,
                Option.some.injEq] at taken
              subst taken
              refine ⟨?_, rest, rfl⟩
              change outstanding usage (enter fleet usage backend :: _) = consumed
              rw [outstanding_enter]
              exact exact_

theorem returning_keeps (exact_ : outstanding usage frames = consumed)
    (rest : ∀ other ∈ others, Balanced usage other)
    (taken : Call.next fleet usage budget ⟨agent, frames, .returning isError, consumed⟩ =
      some effect) :
    Keeps usage budget others ⟨agent, frames, .returning isError, consumed⟩ effect := by
  cases frames with
  | nil => cases taken
  | cons frame outer =>
      rw [outstanding_cons] at exact_
      cases outer with
      | nil =>
          cases taken
          refine ⟨?_, rest, rfl⟩
          change (frame.used usage).totalTokens = consumed
          simpa [outstanding] using exact_
      | cons parent outer =>
          cases taken
          refine ⟨?_, rest, rfl⟩
          change outstanding usage (parent :: outer) + (frame.used usage).totalTokens = consumed
          omega

/-- A reading that is given up has seen no tokens. -/
theorem raising_keeps (exact_ : outstanding usage frames = consumed)
    (rest : ∀ other ∈ others, Balanced usage other)
    (watched : Call.Watched usage budget others ⟨agent, frames, .raising passes, consumed⟩ .next)
    (taken : Call.next fleet usage budget ⟨agent, frames, .raising passes, consumed⟩ =
      some effect) :
    Keeps usage budget others ⟨agent, frames, .raising passes, consumed⟩ effect := by
  cases frames with
  | nil => cases taken
  | cons frame outer =>
      rw [outstanding_cons] at exact_
      cases outer with
      | nil =>
          cases taken
          refine ⟨?_, rest, rfl⟩
          change (frame.used usage).totalTokens = consumed
          simpa [outstanding] using exact_
      | cons parent outer =>
          cases taken
          have none_ : (frame.used usage).totalTokens = 0 := watched
          have kept : outstanding usage (parent :: outer) = consumed := by omega
          refine ⟨?_, rest, ?_⟩
          · cases passes <;> exact kept
          · cases passes <;> rfl

/-- What an inner call consumed is seen by the reading of its caller alone. -/
theorem absorbing_keeps (exact_ : outstanding usage frames + more.totalTokens = consumed)
    (rest : ∀ other ∈ others, Balanced usage other)
    (watched : Call.Watched usage budget others
      ⟨agent, frames, .absorbing more isError, consumed⟩ .next)
    (taken : Call.next fleet usage budget ⟨agent, frames, .absorbing more isError, consumed⟩ =
      some effect) :
    Keeps usage budget others ⟨agent, frames, .absorbing more isError, consumed⟩ effect := by
  cases frames with
  | nil => cases taken
  | cons frame outer =>
      cases taken
      obtain ⟨own, apart⟩ := Alone.watched watched
      have kept : outstanding (addUsage usage frame.agent more) (frame :: outer) =
          consumed := by
        rw [outstanding_addUsage_self own, exact_]
      refine ⟨?_, fun other member => (rest other member).addUsage (apart other member), ?_⟩
      · cases isError <;> exact kept
      · cases isError <;> rfl

theorem settle_keeps (seen : more.totalTokens = consumed)
    (rest : ∀ other ∈ others, Balanced usage other)
    (priced : more.totalTokens = 0 ∨ ∃ cost, budget.price more = .ok cost)
    (taken : Call.next fleet usage budget ⟨agent, frames, .settling more, consumed⟩ =
      some effect) :
    Keeps usage budget others ⟨agent, frames, .settling more, consumed⟩ effect := by
  cases ends : budget.settle more with
  | ok after =>
      simp only [Call.next, ends, Option.some.injEq] at taken
      subst taken
      refine ⟨seen, rest, ?_⟩
      change after.tokens + 0 = budget.tokens + more.totalTokens
      rw [BudgetManager.tokens_settle ends, Int.add_zero]
  | error text =>
      simp only [Call.next, ends, Option.some.injEq] at taken
      subst taken
      have none_ : more.totalTokens = 0 := by
        refine priced.resolve_right ?_
        rintro ⟨cost, price⟩
        simp [BudgetManager.settle, price] at ends
      refine ⟨?_, rest, rfl⟩
      change (0 : Int) = consumed
      omega

end Next

theorem next_keeps (balanced : Balanced usage call) (rest : ∀ other ∈ others, Balanced usage other)
    (watched : call.Watched usage budget others .next)
    (taken : call.next fleet usage budget = some effect) :
    Keeps usage budget others call effect := by
  obtain ⟨agent, frames, phase, consumed⟩ := call
  cases phase with
  | reserved =>
      cases taken
      refine ⟨?_, rest, rfl⟩
      change outstanding usage [enter fleet usage agent] = consumed
      rw [outstanding_enter]
      exact Eq.symm balanced
  | handling => exact handling_keeps balanced rest taken
  | returning isError => exact returning_keeps balanced rest taken
  | raising passes => exact raising_keeps balanced rest watched taken
  | absorbing more isError => exact absorbing_keeps balanced rest watched taken
  | settling more => exact settle_keeps balanced rest watched taken
  | settled counted => cases taken

theorem move_keeps {act : Act} (balanced : Balanced usage call)
    (rest : ∀ other ∈ others, Balanced usage other)
    (watched : call.Watched usage budget others act)
    (taken : call.move fleet usage budget act = some effect) :
    Keeps usage budget others call effect := by
  cases plain : call.isPlain fleet with
  | true =>
      simp only [Call.move, plain, if_true] at taken
      exact act_keeps plain balanced rest watched taken
  | false =>
      cases act with
      | next =>
          simp only [Call.move, plain, Bool.false_eq_true, if_false] at taken
          exact next_keeps balanced rest watched taken
      | consume more noted => simp [Call.move, plain] at taken
      | answer isError => simp [Call.move, plain] at taken
      | raise passes => simp [Call.move, plain] at taken

end Balance

section Exactness

variable {fleet : Fleet} {budget : BudgetManager} {s t : State}

/-- The tokens that a call owes to the budget: all that it has consumed, once it is
settled. -/
def due (call : Call) : Int :=
  match call.phase with
  | .settled _ => call.consumed
  | _ => 0

/-- Every settled call was counted with what it consumed, and these are the tokens
that the budget has counted since its start. -/
structure Exact (budget : BudgetManager) (s : State) : Prop where
  settled : ∀ call ∈ s.calls, ∀ tokens, call.phase = .settled tokens → tokens = call.consumed
  total : s.budget.tokens = budget.tokens + (s.calls.map due).sum

/-- The readings account for every call, and the budget has counted the settled ones. -/
structure Accounted (budget : BudgetManager) (s : State) : Prop where
  balanced : ∀ call ∈ s.calls, Balanced s.usage call
  tokens : s.budget.tokens = budget.tokens + (s.calls.map counted).sum

theorem Balanced.counted_eq_due {usage : String → Usage} {call : Call}
    (balanced : Balanced usage call) : counted call = due call := by
  obtain ⟨agent, frames, phase, consumed⟩ := call
  cases phase with
  | settled tokens => exact balanced
  | _ => rfl

theorem Accounted.exact (accounted : Accounted budget s) : Exact budget s := by
  constructor
  · intro call member tokens settled
    have balanced := accounted.balanced call member
    simpa only [Balanced, settled] using balanced
  · rw [accounted.tokens, List.map_congr_left fun call member =>
      (accounted.balanced call member).counted_eq_due]

/-- The call that takes a step, among the others. -/
theorem split_at {calls : List Call} {index : Nat} {call : Call}
    (found : calls[index]? = some call) :
    ∃ before after, calls = before ++ call :: after ∧
      calls.eraseIdx index = before ++ after ∧
      ∀ changed, calls.set index changed = before ++ changed :: after := by
  obtain ⟨inside, rfl⟩ := List.getElem?_eq_some_iff.mp found
  refine ⟨calls.take index, calls.drop (index + 1), ?_, List.eraseIdx_eq_take_drop_succ _ _, ?_⟩
  · rw [List.getElem_cons_drop, List.take_append_drop]
  · intro changed
    rw [List.set_eq_take_append_cons_drop, if_pos inside]

theorem start_accounted {agent : String} (accounted : Accounted budget s)
    (taken : step fleet s (.start agent) = some t) : Accounted budget t := by
  simp only [step] at taken
  cases reserved : s.budget.reserve with
  | error limit =>
      simp only [reserved, Option.some.injEq] at taken
      exact taken ▸ accounted
  | ok after =>
      simp only [reserved, Option.some.injEq] at taken
      subst taken
      constructor
      · refine List.forall_mem_append.mpr ⟨accounted.balanced, ?_⟩
        exact List.forall_mem_singleton.mpr rfl
      · simpa [counted, BudgetManager.tokens_reserve reserved] using accounted.tokens

theorem move_accounted {index : Nat} {act : Act} (accounted : Accounted budget s)
    (watched : Watched s (.move index act))
    (taken : step fleet s (.move index act) = some t) : Accounted budget t := by
  simp only [step, Option.bind_eq_some_iff, Option.map_eq_some_iff] at taken
  obtain ⟨call, found, effect, moved, rfl⟩ := taken
  obtain ⟨before, after, split, others, set⟩ := split_at found
  have balanced := accounted.balanced
  have tokens := accounted.tokens
  have seen : call.Watched s.usage s.budget (before ++ after) act := by
    simpa only [Watched, found, others] using watched
  rw [split] at balanced tokens
  obtain ⟨left, own, right⟩ : _ ∧ Balanced s.usage call ∧ _ := by
    simpa only [List.forall_mem_append, List.forall_mem_cons] using balanced
  have keeps := move_keeps own (List.forall_mem_append.mpr ⟨left, right⟩) seen moved
  obtain ⟨left, right⟩ := List.forall_mem_append.mp keeps.others
  constructor
  · rw [set]
    exact List.forall_mem_append.mpr ⟨left, List.forall_mem_cons.mpr ⟨keeps.own, right⟩⟩
  · have change_ := keeps.tokens
    simp only [set, List.map_append, List.map_cons, List.sum_append, List.sum_cons]
      at tokens ⊢
    omega

theorem step_accounted {event : Event} (accounted : Accounted budget s)
    (watched : Watched s event) (taken : step fleet s event = some t) : Accounted budget t := by
  cases event with
  | start agent => exact start_accounted accounted taken
  | move index act => exact move_accounted accounted watched taken

/-- In every run whose steps keep track of the tokens of their calls, each call is
settled with exactly what it has consumed. -/
theorem settled_exact {usage : String → Usage} {events : List Event}
    (watched : (machine fleet).Meets Watched (start usage budget) events)
    (execution : (machine fleet).run (start usage budget) events = some s) : Exact budget s := by
  have accounted : Accounted budget s := by
    refine Machine.run_invariant_of_meets (fun s e t inv ok taken => step_accounted inv ok taken)
      ?_ watched execution
    exact ⟨fun call member => absurd member List.not_mem_nil, by simp [start]⟩
  exact accounted.exact

/-- A usage of so many tokens. -/
def spent (tokens : Int) : Usage := ⟨fun key => if key = "total_tokens" then tokens else 0⟩

/-- `worker` is a plain agent; `chain` tries `primary` and then `worker`. -/
def chainFleet : Fleet where
  backends := fun agent => if agent = "chain" then some ["primary", "worker"] else none
  someBackend := fun agent => by
    split <;> simp

/-- A call of the chain, whose first backend answers an error dict. -/
def chainAnswers : List Event :=
  [.start "chain", .move 0 .next, .move 0 .next,
    .move 0 (.consume (spent 3) true), .move 0 (.answer true), .move 0 .next, .move 0 .next,
    .move 0 .next, .move 0 (.consume (spent 4) true), .move 0 (.answer false),
    .move 0 .next, .move 0 .next, .move 0 .next, .move 0 .next]

theorem settled_exact_chainAnswers :
    ∃ s, (machine chainFleet).run (start (fun _ => .zero) .unlimited) chainAnswers = some s ∧
      Exact .unlimited s ∧ s.budget.tokens = 7 := by
  have watched : (machine chainFleet).Meets Watched (start (fun _ => .zero) .unlimited)
      chainAnswers := by
    decide +kernel
  exact ⟨_, rfl, settled_exact watched rfl, by decide⟩

/-- Two calls on the worker overlap: each reading sees the tokens of the other. -/
def workerShared : List Event :=
  [.start "worker", .start "worker", .move 0 .next, .move 1 .next,
    .move 0 (.consume (spent 10) true), .move 1 (.consume (spent 5) true),
    .move 0 (.answer false), .move 1 (.answer false), .move 0 .next, .move 1 .next,
    .move 0 .next, .move 1 .next]

/-- The first backend of the chain consumes tokens and raises. -/
def primaryRaises : List Event :=
  [.start "chain", .move 0 .next, .move 0 .next,
    .move 0 (.consume (spent 3) true), .move 0 (.raise false), .move 0 .next,
    .move 0 .next, .move 0 (.consume (spent 4) true), .move 0 (.answer false),
    .move 0 .next, .move 0 .next, .move 0 .next, .move 0 .next]

/-- The tokens of overlapping calls are counted twice, and those of a backend that
raises are not counted. -/
theorem workerShared_counted_twice :
    (∃ s, (machine chainFleet).run (start (fun _ => .zero) .unlimited) workerShared = some s ∧
      (s.calls.map due).sum = 15 ∧ s.budget.tokens = 30 ∧ ¬ Exact .unlimited s) ∧
    ∃ s, (machine chainFleet).run (start (fun _ => .zero) .unlimited) primaryRaises = some s ∧
      (s.calls.map due).sum = 7 ∧ s.budget.tokens = 4 ∧ ¬ Exact .unlimited s := by
  refine ⟨⟨_, rfl, by decide, by decide, ?_⟩, ⟨_, rfl, by decide, by decide, ?_⟩⟩
  · intro settled
    exact absurd settled.total (by decide)
  · intro settled
    exact absurd settled.total (by decide)

end Exactness

end AgentCalls

end MultiAgent.Plugin
