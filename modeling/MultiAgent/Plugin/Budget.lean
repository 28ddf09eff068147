import Mathlib.Data.Rat.Defs

/-!
# The budget of a run

`runtime/budget.py`. A call reserves a slot before it starts and settles its usage
when it has finished; each of the two is atomic under the lock of the manager.
Limits and costs are exact rationals. `max_seconds` flows into the deadline of the run, and
the snapshot only reads the fields; both are left out.
-/

namespace MultiAgent.Plugin

/-- Token counters by key. A key that a dict of counters lacks counts as zero. -/
structure Usage where
  tokens : String → Int

namespace Usage

def zero : Usage := ⟨fun _ => 0⟩

/-- `usage.get("total_tokens") or 0` -/
def totalTokens (usage : Usage) : Int := usage.tokens "total_tokens"

def add (usage more : Usage) : Usage := ⟨fun key => usage.tokens key + more.tokens key⟩

/-- `{key: after.get(key, 0) - before.get(key, 0)}` -/
def since (after before : Usage) : Usage := ⟨fun key => after.tokens key - before.tokens key⟩

@[simp] theorem totalTokens_zero : zero.totalTokens = 0 := rfl

@[simp] theorem totalTokens_add (usage more : Usage) :
    (usage.add more).totalTokens = usage.totalTokens + more.totalTokens := rfl

@[simp] theorem totalTokens_since (after before : Usage) :
    (after.since before).totalTokens = after.totalTokens - before.totalTokens := rfl

end Usage

/-- What a `BudgetExceeded` of `reserve` names: the limit, and what stands against it. -/
inductive Exhausted where
  | calls (used : Nat) (limit : ℚ)
  | tokens (used : Int) (limit : ℚ)
  | cost (used limit : ℚ)
  deriving DecidableEq, Repr

structure BudgetManager where
  maxCalls : Option ℚ
  maxTokens : Option ℚ
  maxCost : Option ℚ
  /-- The price of a usage, or what the pricer raises. -/
  pricer : Option (Usage → Except String ℚ)
  calls : Nat
  reserved : Nat
  tokens : Int
  cost : ℚ

namespace BudgetManager

/-- The first limit that is exhausted, in the order of the checks. -/
def exhausted (budget : BudgetManager) : Option Exhausted :=
  (budget.maxCalls.bind fun limit =>
    if limit ≤ (budget.calls + budget.reserved : Nat) then
      some (.calls (budget.calls + budget.reserved) limit)
    else none) <|>
  (budget.maxTokens.bind fun limit =>
    if limit ≤ budget.tokens then some (.tokens budget.tokens limit) else none) <|>
  (budget.maxCost.bind fun limit =>
    if limit ≤ budget.cost then some (.cost budget.cost limit) else none)

def reserve (budget : BudgetManager) : Except Exhausted BudgetManager :=
  match budget.exhausted with
  | some limit => .error limit
  | none => .ok { budget with reserved := budget.reserved + 1 }

/-- The price of a usage. -/
def price (budget : BudgetManager) (usage : Usage) : Except String ℚ :=
  match budget.pricer with
  | some pricer => pricer usage
  | none => .ok 0

/-- What the pricer raises leaves `settle` before it takes the lock. -/
def settle (budget : BudgetManager) (usage : Usage) : Except String BudgetManager :=
  match budget.price usage with
  | .ok cost => .ok
    { budget with
      calls := budget.calls + 1
      reserved := budget.reserved - 1
      tokens := budget.tokens + usage.totalTokens
      cost := budget.cost + cost }
  | .error text => .error text

/-- `settle(usage)`, where `none` is an absent or an empty usage: it counts nothing
and is not priced. -/
def settleOption (budget : BudgetManager) : Option Usage → Except String BudgetManager
  | some usage => budget.settle usage
  | none => .ok { budget with calls := budget.calls + 1, reserved := budget.reserved - 1 }

/-- The tokens that `settle(usage)` counts. -/
def tokensOf (usage : Option Usage) : Int := (usage.map Usage.totalTokens).getD 0

/-- The cost that `settle(usage)` counts, or what the pricer raises. -/
def priceOf (budget : BudgetManager) : Option Usage → Except String ℚ
  | some usage => budget.price usage
  | none => .ok 0

/-- The constructor. -/
def new (maxCalls maxTokens maxCost : Option ℚ)
    (pricer : Option (Usage → Except String ℚ)) : BudgetManager where
  maxCalls := maxCalls
  maxTokens := maxTokens
  maxCost := maxCost
  pricer := pricer
  calls := 0
  reserved := 0
  tokens := 0
  cost := 0

/-- A budget with no limits, at its start. -/
def unlimited : BudgetManager := new none none none none

variable {budget after : BudgetManager}

/-- No limit is exhausted. -/
structure Open (budget : BudgetManager) : Prop where
  calls : ∀ limit ∈ budget.maxCalls, (budget.calls + budget.reserved : Nat) < limit
  tokens : ∀ limit ∈ budget.maxTokens, budget.tokens < limit
  cost : ∀ limit ∈ budget.maxCost, budget.cost < limit

theorem reached_eq_none_iff {given : Option ℚ} {used : ℚ} {report : ℚ → Exhausted} :
    (given.bind fun limit => if limit ≤ used then some (report limit) else none) = none ↔
      ∀ limit ∈ given, used < limit := by
  cases given with
  | none => simp
  | some limit =>
      simp only [Option.bind_some, ite_eq_right_iff, reduceCtorEq, imp_false, Rat.not_le,
        Option.mem_some_iff, forall_eq']

theorem exhausted_eq_none_iff : budget.exhausted = none ↔ budget.Open := by
  rw [exhausted]
  simp only [Option.orElse_eq_orElse, Option.orElse_eq_or, Option.or_eq_none_iff,
    reached_eq_none_iff]
  exact ⟨fun ⟨calls, tokens, cost⟩ => ⟨calls, tokens, cost⟩, fun h => ⟨h.calls, h.tokens, h.cost⟩⟩

/-- A reservation is granted exactly when no limit is exhausted. -/
theorem reserve_eq_ok_iff : budget.reserve = .ok after ↔
    budget.Open ∧ after = { budget with reserved := budget.reserved + 1 } := by
  rw [← exhausted_eq_none_iff, reserve]
  cases budget.exhausted with
  | none => simp [eq_comm]
  | some limit => simp

/-- A settlement that is not lost to the pricer. -/
theorem settleOption_eq_ok_iff {usage : Option Usage} :
    budget.settleOption usage = .ok after ↔ ∃ cost, budget.priceOf usage = .ok cost ∧
      after = { budget with
        calls := budget.calls + 1, reserved := budget.reserved - 1
        tokens := budget.tokens + tokensOf usage, cost := budget.cost + cost } := by
  cases usage with
  | none => simp [settleOption, priceOf, tokensOf, eq_comm]
  | some usage =>
      simp only [settleOption, priceOf, settle]
      cases budget.price usage with
      | ok cost => simp [tokensOf, eq_comm]
      | error text => simp

theorem tokens_reserve (reserved : budget.reserve = .ok after) : after.tokens = budget.tokens := by
  rw [reserve] at reserved
  cases limit : budget.exhausted with
  | some limit => simp [limit] at reserved
  | none =>
      simp only [limit, Except.ok.injEq] at reserved
      rw [← reserved]

theorem tokens_settle {usage : Usage} (settled : budget.settle usage = .ok after) :
    after.tokens = budget.tokens + usage.totalTokens := by
  rw [settle] at settled
  cases price : budget.price usage with
  | error text => simp [price] at settled
  | ok cost =>
      simp only [price, Except.ok.injEq] at settled
      rw [← settled]

end BudgetManager

end MultiAgent.Plugin
