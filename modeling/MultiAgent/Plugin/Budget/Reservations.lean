import MultiAgent.Foundations.Machine
import MultiAgent.Plugin.Budget
import Mathlib.Algebra.BigOperators.Group.List.Basic
import Mathlib.Algebra.Order.BigOperators.Group.List
import Mathlib.Algebra.Order.Field.Rat
import Mathlib.Algebra.Order.Floor.Semiring
import Mathlib.Data.Rat.Floor
import Mathlib.Tactic.Linarith

/-!
# Reservations under one budget

Any interleaving of `reserve` and `settle` on one `BudgetManager`, in which a call is
settled once it has its reservation. The limits on tokens and cost are looked at by
`reserve` only, so what they can be exceeded by is used by the calls that are in flight
when they are reached.
-/

namespace MultiAgent.Plugin

namespace BudgetManager

/-- What a settlement added to the budget for its call. -/
structure Settlement where
  call : Nat
  tokens : Int
  cost : ℚ
  deriving DecidableEq, Repr

structure Ledger where
  budget : BudgetManager
  /-- The calls that hold a reservation, and the number of the next call. -/
  inFlight : List Nat
  next : Nat
  settled : List Settlement

inductive Event where
  | reserve
  | settle (call : Nat) (usage : Option Usage)

def step (s : Ledger) : Event → Option Ledger
  | .reserve =>
    match s.budget.reserve with
    | .ok budget => some { s with budget, inFlight := s.inFlight ++ [s.next], next := s.next + 1 }
    | .error _ => some s
  | .settle call usage =>
    if call ∈ s.inFlight then
      match s.budget.priceOf usage, s.budget.settleOption usage with
      | .ok cost, .ok budget =>
        some { s with
          budget, inFlight := s.inFlight.erase call
          settled := s.settled ++ [⟨call, tokensOf usage, cost⟩] }
      -- What the pricer raises leaves the call in flight.
      | _, _ => some s
    else none

def machine : Machine Ledger Event := ⟨step⟩

def start (budget : BudgetManager) : Ledger := ⟨budget, [], 0, []⟩

/-- A usage without negative counts, at a price that is not negative. -/
def Event.Nonneg (budget : BudgetManager) : Event → Prop
  | .reserve => True
  | .settle _ usage => 0 ≤ tokensOf usage ∧ ∀ cost, budget.priceOf usage = .ok cost → 0 ≤ cost

section Steps

variable {s t : Ledger} {e : Event}

/-- What one event can do. -/
theorem step_cases (transition : step s e = some t) :
    t = s ∨
      (s.budget.Open ∧ e = .reserve ∧
        t = ⟨{ s.budget with reserved := s.budget.reserved + 1 }, s.inFlight ++ [s.next],
          s.next + 1, s.settled⟩) ∨
      ∃ call usage cost, e = .settle call usage ∧ call ∈ s.inFlight ∧
        s.budget.priceOf usage = .ok cost ∧
        t = ⟨{ s.budget with
            calls := s.budget.calls + 1, reserved := s.budget.reserved - 1
            tokens := s.budget.tokens + tokensOf usage, cost := s.budget.cost + cost },
          s.inFlight.erase call, s.next, s.settled ++ [⟨call, tokensOf usage, cost⟩]⟩ := by
  cases e with
  | reserve =>
      simp only [step] at transition
      split at transition
      · rename_i budget granted
        obtain ⟨free, rfl⟩ := reserve_eq_ok_iff.mp granted
        cases transition
        exact .inr (.inl ⟨free, rfl, rfl⟩)
      · cases transition
        exact .inl rfl
  | settle call usage =>
      simp only [step] at transition
      split at transition
      · rename_i holds
        split at transition
        · rename_i cost budget priced settled
          obtain ⟨cost', priced', rfl⟩ := settleOption_eq_ok_iff.mp settled
          obtain rfl : cost = cost' := Except.ok.inj (priced.symm.trans priced')
          cases transition
          exact .inr (.inr ⟨call, usage, cost, rfl, holds, priced, rfl⟩)
        · cases transition
          exact .inl rfl
      · cases transition

end Steps

namespace Ledger

/-- The sum of a quantity over the settled calls. -/
def total (s : Ledger) (gauge : Settlement → ℚ) : ℚ := (s.settled.map gauge).sum

/-- The part of that sum which the given calls have. -/
def usedBy (s : Ledger) (gauge : Settlement → ℚ) (calls : List Nat) : ℚ :=
  ((s.settled.filter fun settled => decide (settled.call ∈ calls)).map gauge).sum

end Ledger

/-- What the fields of the budget say about its calls. -/
structure Booked (budget : BudgetManager) (s : Ledger) : Prop where
  maxCalls : s.budget.maxCalls = budget.maxCalls
  maxTokens : s.budget.maxTokens = budget.maxTokens
  maxCost : s.budget.maxCost = budget.maxCost
  pricer : s.budget.pricer = budget.pricer
  reserved : s.budget.reserved = s.inFlight.length
  calls : s.budget.calls = s.settled.length
  tokens : (s.budget.tokens : ℚ) = s.total fun settled => settled.tokens
  cost : s.budget.cost = s.total Settlement.cost
  nonneg : ∀ settled ∈ s.settled, 0 ≤ settled.tokens ∧ 0 ≤ settled.cost
  ceiling : ∀ limit ∈ budget.maxCalls, s.budget.calls + s.budget.reserved ≤ ⌈limit⌉₊

section Runs

variable {budget : BudgetManager} {s t u : Ledger} {e : Event} {es : List Event}

theorem total_append {gauge : Settlement → ℚ} {settled : Settlement}
    (grown : t.settled = s.settled ++ [settled]) :
    t.total gauge = s.total gauge + gauge settled := by
  simp [Ledger.total, grown]

theorem booked_new (maxCalls maxTokens maxCost : Option ℚ)
    (pricer : Option (Usage → Except String ℚ)) :
    Booked (new maxCalls maxTokens maxCost pricer) (start (new maxCalls maxTokens maxCost pricer))
    where
  maxCalls := rfl
  maxTokens := rfl
  maxCost := rfl
  pricer := rfl
  reserved := rfl
  calls := rfl
  tokens := by simp [start, new, Ledger.total]
  cost := by simp [start, new, Ledger.total]
  nonneg _ member := absurd member List.not_mem_nil
  ceiling _ _ := Nat.zero_le _

theorem Booked.priceOf (booked : Booked budget s) (usage : Option Usage) :
    s.budget.priceOf usage = budget.priceOf usage := by
  cases usage with
  | none => rfl
  | some usage => simp only [BudgetManager.priceOf, price, booked.pricer]

theorem Booked.step (booked : Booked budget s) (nonneg : e.Nonneg budget)
    (transition : step s e = some t) : Booked budget t := by
  obtain rfl | ⟨free, -, rfl⟩ | ⟨call, usage, cost, rfl, holds, priced, rfl⟩ :=
    step_cases transition
  · exact booked
  · refine { booked with reserved := by simp [booked.reserved], ceiling := ?_ }
    intro limit given
    have below := free.calls limit (booked.maxCalls ▸ given)
    exact Nat.succ_le_of_lt (Nat.lt_ceil.mpr below)
  · rw [booked.priceOf] at priced
    obtain ⟨some_, price⟩ := nonneg
    have held : 0 < s.inFlight.length := List.length_pos_of_mem holds
    refine { booked with reserved := ?_, calls := ?_, tokens := ?_, cost := ?_, nonneg := ?_,
                         ceiling := ?_ }
    · simp [booked.reserved, List.length_erase_of_mem holds]
    · simp [booked.calls]
    · rw [total_append rfl, ← booked.tokens]
      push_cast
      rfl
    · rw [total_append rfl, ← booked.cost]
    · exact List.forall_mem_append.mpr
        ⟨booked.nonneg, List.forall_mem_singleton.mpr ⟨some_, price cost priced⟩⟩
    · intro limit given
      have below := booked.ceiling limit given
      have reserved := booked.reserved
      dsimp only
      omega

theorem Booked.run (booked : Booked budget s) (nonneg : ∀ e ∈ es, e.Nonneg budget)
    (execution : machine.run s es = some t) : Booked budget t := by
  have meets : machine.Meets (fun _ e => e.Nonneg budget) s es :=
    Machine.meets_of_mem (fun e member _ => nonneg e member) s
  exact Machine.run_invariant_of_meets
    (fun _ _ _ inv here transition => inv.step here transition) booked meets execution

/-- Once a quantity has reached a limit that closes the budget, only the calls in flight
are still settled. -/
theorem closed_run {gauge : Settlement → ℚ} {limit : ℚ}
    (closes : ∀ s, Booked budget s → limit ≤ s.total gauge → ¬ s.budget.Open)
    (size : ∀ s, Booked budget s → ∀ settled ∈ s.settled, 0 ≤ gauge settled)
    (booked : Booked budget s) (reached : limit ≤ s.total gauge)
    (nonneg : ∀ e ∈ es, e.Nonneg budget) (execution : machine.run s es = some t) :
    ∃ later, t.settled = s.settled ++ later ∧ ∀ settled ∈ later, settled.call ∈ s.inFlight := by
  have kept : Booked budget t ∧ limit ≤ t.total gauge ∧ t.inFlight ⊆ s.inFlight ∧
      ∃ later, t.settled = s.settled ++ later ∧ ∀ settled ∈ later, settled.call ∈ s.inFlight := by
    have meets : machine.Meets (fun _ e => e.Nonneg budget) s es :=
      Machine.meets_of_mem (fun e member _ => nonneg e member) s
    refine Machine.run_invariant_of_meets (m := machine)
      (P := fun t => Booked budget t ∧ limit ≤ t.total gauge ∧ t.inFlight ⊆ s.inFlight ∧
        ∃ later, t.settled = s.settled ++ later ∧ ∀ settled ∈ later, settled.call ∈ s.inFlight)
      ?_ ⟨booked, reached, List.Subset.refl _, [], by simp⟩ meets execution
    rintro u e v ⟨inv, above, inside, later, parts, held⟩ here transition
    have after := inv.step here transition
    refine ⟨after, ?_⟩
    obtain rfl | ⟨free, -, -⟩ | ⟨call, usage, cost, rfl, holds, -, rfl⟩ := step_cases transition
    · exact ⟨above, inside, later, parts, held⟩
    · exact absurd free (closes u inv above)
    · refine ⟨?_, fun other member => inside (List.mem_of_mem_erase member),
        later ++ [⟨call, tokensOf usage, cost⟩], ?_, ?_⟩
      · rw [total_append rfl]
        have more := size _ after ⟨call, tokensOf usage, cost⟩ (by simp)
        linarith
      · rw [← List.append_assoc, ← parts]
      · exact List.forall_mem_append.mpr ⟨held, List.forall_mem_singleton.mpr (inside holds)⟩
  exact kept.2.2.2

/-- In a run from the start to `s`, a settlement takes the quantity to its limit, and what
it is beyond the limit in `s` was used by calls in flight just before that settlement. -/
def Overshoots (budget : BudgetManager) (es : List Event) (s : Ledger) (gauge : Settlement → ℚ)
    (limit : ℚ) : Prop :=
  ∃ before call usage after u v, es = before ++ .settle call usage :: after ∧
    machine.run (start budget) before = some u ∧ u.total gauge < limit ∧
    step u (.settle call usage) = some v ∧ limit ≤ v.total gauge ∧
    s.total gauge - limit ≤ s.usedBy gauge u.inFlight

theorem usedBy_append {gauge : Settlement → ℚ} {calls : List Nat} {later : List Settlement}
    (parts : t.settled = s.settled ++ later) (held : ∀ settled ∈ later, settled.call ∈ calls) :
    t.usedBy gauge calls = s.usedBy gauge calls + (t.total gauge - s.total gauge) := by
  have all : later.filter (fun settled => decide (settled.call ∈ calls)) = later :=
    List.filter_eq_self.mpr fun settled member => decide_eq_true (held settled member)
  simp [Ledger.usedBy, Ledger.total, parts, List.filter_append, all]

theorem overshoots {gauge : Settlement → ℚ} {limit : ℚ}
    (closes : ∀ s, Booked budget s → limit ≤ s.total gauge → ¬ s.budget.Open)
    (size : ∀ s, Booked budget s → ∀ settled ∈ s.settled, 0 ≤ gauge settled)
    (booked : Booked budget (start budget)) (positive : 0 ≤ limit)
    (nonneg : ∀ e ∈ es, e.Nonneg budget) (execution : machine.run (start budget) es = some s)
    (beyond : limit < s.total gauge) : Overshoots budget es s gauge limit := by
  by_cases reached : limit ≤ (start budget).total gauge
  · -- No call is in flight at the start, so nothing is ever settled.
    obtain ⟨later, parts, held⟩ := closed_run closes size booked reached nonneg execution
    have none_ : later = [] := List.eq_nil_iff_forall_not_mem.mpr fun settled member =>
      absurd (held settled member) List.not_mem_nil
    have empty : s.total gauge = 0 := by simp [Ledger.total, parts, none_, start]
    rw [empty] at beyond
    exact absurd positive (not_le.mpr beyond)
  obtain ⟨before, e, after, u, v, split, prior, out, transition, inside, rest⟩ :=
    Machine.run_enters (Q := fun s => limit ≤ s.total gauge) execution reached beyond.le
  rw [split] at nonneg
  obtain ⟨early, others⟩ := List.forall_mem_append.mp nonneg
  obtain ⟨here, late⟩ := List.forall_mem_cons.mp others
  have bookedU := booked.run early prior
  obtain rfl | ⟨-, -, rfl⟩ | ⟨call, usage, cost, rfl, holds, -, rfl⟩ := step_cases transition
  · exact absurd inside out
  · exact absurd inside out
  refine ⟨before, call, usage, after, u, _, split, prior, not_le.mp out, transition, inside, ?_⟩
  obtain ⟨later, parts, held⟩ := closed_run closes size (bookedU.step here transition) inside late
    rest
  have whole : s.settled = u.settled ++ ⟨call, tokensOf usage, cost⟩ :: later := by simp [parts]
  have inFlight : ∀ settled ∈ (⟨call, tokensOf usage, cost⟩ : Settlement) :: later,
      settled.call ∈ u.inFlight := by
    refine List.forall_mem_cons.mpr ⟨holds, ?_⟩
    intro settled member
    exact List.mem_of_mem_erase (held settled member)
  have earlier : 0 ≤ u.usedBy gauge u.inFlight := by
    apply List.sum_nonneg
    intro value member
    obtain ⟨settled, inside, rfl⟩ := List.mem_map.mp member
    exact size u bookedU settled (List.mem_filter.mp inside).1
  rw [usedBy_append whole inFlight]
  linarith [not_le.mp out]

/-- For every interleaving of reservations and settlements on a new budget: the calls stay
within their limit, rounded up; a reservation is granted exactly when no limit is exhausted,
and changes nothing when it is refused; `_reserved` counts the calls in flight; and what the
tokens or the cost are beyond their limit was used by the calls that were in flight when it
was reached. -/
theorem budget_accounting {maxCalls maxTokens maxCost : Option ℚ}
    {pricer : Option (Usage → Except String ℚ)}
    (limits : ∀ limit ∈ maxCalls.toList ++ maxTokens.toList ++ maxCost.toList, 0 ≤ limit)
    (nonneg : ∀ e ∈ es, e.Nonneg (new maxCalls maxTokens maxCost pricer))
    (execution : machine.run (start (new maxCalls maxTokens maxCost pricer)) es = some s) :
    (∀ limit ∈ maxCalls, s.budget.calls + s.budget.reserved ≤ ⌈limit⌉₊) ∧
    (∀ limit : ℕ, maxCalls = some (limit : ℚ) → s.budget.calls + s.budget.reserved ≤ limit) ∧
    ((∃ after, s.budget.reserve = .ok after) ↔
      (∀ limit ∈ maxCalls, (s.budget.calls + s.budget.reserved : Nat) < limit) ∧
      (∀ limit ∈ maxTokens, s.budget.tokens < limit) ∧
      ∀ limit ∈ maxCost, s.budget.cost < limit) ∧
    (∀ refused, s.budget.reserve = .error refused → step s .reserve = some s) ∧
    s.budget.reserved = s.inFlight.length ∧
    (∀ limit ∈ maxTokens, limit < s.budget.tokens →
      Overshoots (new maxCalls maxTokens maxCost pricer) es s (fun settled => settled.tokens)
        limit) ∧
    ∀ limit ∈ maxCost, limit < s.budget.cost →
      Overshoots (new maxCalls maxTokens maxCost pricer) es s Settlement.cost limit := by
  have first := booked_new maxCalls maxTokens maxCost pricer
  have booked := first.run nonneg execution
  have sameCalls : s.budget.maxCalls = maxCalls := booked.maxCalls
  have sameTokens : s.budget.maxTokens = maxTokens := booked.maxTokens
  have sameCost : s.budget.maxCost = maxCost := booked.maxCost
  refine ⟨booked.ceiling, ?_, ?_, ?_, booked.reserved, ?_, ?_⟩
  · intro limit given
    have below := booked.ceiling limit given
    rwa [Nat.ceil_natCast] at below
  · constructor
    · rintro ⟨after, granted⟩
      obtain ⟨calls, tokens, cost⟩ := (reserve_eq_ok_iff.mp granted).1
      exact ⟨sameCalls ▸ calls, sameTokens ▸ tokens, sameCost ▸ cost⟩
    · rintro ⟨calls, tokens, cost⟩
      exact ⟨_, reserve_eq_ok_iff.mpr ⟨⟨sameCalls ▸ calls, sameTokens ▸ tokens,
        sameCost ▸ cost⟩, rfl⟩⟩
  · intro refused denied
    simp only [step, denied]
  · intro limit given beyond
    rw [booked.tokens] at beyond
    refine overshoots ?_ ?_ first (limits limit (by simp [Option.mem_def.mp given])) nonneg
      execution beyond
    · intro t inv reached free
      have below := free.tokens limit (inv.maxTokens ▸ given)
      rw [inv.tokens] at below
      exact absurd reached (not_le.mpr below)
    · intro t inv settled member
      exact Int.cast_nonneg (inv.nonneg settled member).1
  · intro limit given beyond
    rw [booked.cost] at beyond
    refine overshoots ?_ ?_ first (limits limit (by simp [Option.mem_def.mp given])) nonneg
      execution beyond
    · intro t inv reached free
      have below := free.cost limit (inv.maxCost ▸ given)
      rw [inv.cost] at below
      exact absurd reached (not_le.mpr below)
    · intro t inv settled member
      exact (inv.nonneg settled member).2

end Runs

/-- Two calls under a limit of 15 tokens, each of which uses 10. -/
def twoCalls : List Event :=
  [.reserve, .reserve, .settle 0 (some ⟨fun _ => 10⟩), .settle 1 (some ⟨fun _ => 10⟩), .reserve]

theorem budget_accounting_twoCalls :
    ∃ s, machine.run (start (new (some 4) (some 15) none none)) twoCalls = some s ∧
      s.budget.reserved = 0 ∧ s.budget.tokens = 20 ∧
      Overshoots (new (some 4) (some 15) none none) twoCalls s (fun settled => settled.tokens)
        15 := by
  have execution : ∃ s, machine.run (start (new (some 4) (some 15) none none)) twoCalls = some s :=
    ⟨_, rfl⟩
  obtain ⟨s, execution⟩ := execution
  have nonneg : ∀ e ∈ twoCalls, e.Nonneg (new (some 4) (some 15) none none) := by
    simp [twoCalls, Event.Nonneg, tokensOf, Usage.totalTokens, BudgetManager.priceOf, price, new]
  have holds := budget_accounting (by simp) nonneg execution
  have tokens : s.budget.tokens = 20 := by
    cases execution
    rfl
  refine ⟨s, execution, ?_, tokens, holds.2.2.2.2.2.1 15 rfl (by rw [tokens]; norm_num)⟩
  cases execution
  rfl

/-- A limit that is no integer: the third call is reserved under a limit of two and a half. -/
theorem fractionalLimit_exceeded :
    ∃ s, machine.run (start (new (some (5 / 2)) none none none))
        [.reserve, .reserve, .reserve] = some s ∧
      (5 / 2 : ℚ) < (s.budget.calls + s.budget.reserved : Nat) := by
  have exceeds : (machine.run (start (new (some (5 / 2)) none none none))
      [.reserve, .reserve, .reserve]).any (fun s =>
        decide ((5 / 2 : ℚ) < (s.budget.calls + s.budget.reserved : Nat))) = true := by
    decide +kernel
  obtain ⟨s, execution, exceeds⟩ := (Option.any_eq_true _ _).mp exceeds
  exact ⟨s, execution, of_decide_eq_true exceeds⟩

end BudgetManager

end MultiAgent.Plugin
