import Mathlib.Data.Nat.Init
import Mathlib.Order.Basic

/-!
# The value in force at a position

Some positions of a sequence yield a value. The value in force at a position is the last one
that was yielded before it, or else a default. A program may look at the position just before
instead, or walk from the start until a position yields nothing. Both ways lose a value behind
a position that yields none; `agree_iff` says exactly when the loss shows.
-/

namespace MultiAgent.Carry

variable {α : Type*} {t u : Nat → Option α} {d v : α} {k n : Nat}

/-- The value `v` is in force at position `k`. -/
def Latest (t : Nat → Option α) (d : α) (k : Nat) (v : α) : Prop :=
  (∃ j < k, t j = some v ∧ ∀ i, j < i → i < k → t i = none) ∨ (v = d ∧ ∀ i < k, t i = none)

/-- Carry the value along the positions. -/
def carried (t : Nat → Option α) (d : α) : Nat → α
  | 0 => d
  | k + 1 => (t k).getD (carried t d k)

/-- What the position just before yields. -/
def previous (t : Nat → Option α) (d : α) : Nat → α
  | 0 => d
  | k + 1 => (t k).getD d

/-- Follow the positions until one yields nothing. -/
def walk (t : Nat → Option α) : List Nat → α → α
  | [], v => v
  | k :: rest, v =>
    match t k with
    | none => v
    | some w => walk t rest w

theorem latest_succ_of_none (nothing : t k = none) : Latest t d (k + 1) v ↔ Latest t d k v := by
  constructor
  · rintro (⟨j, below, yields, silent⟩ | ⟨same, silent⟩)
    · have apart : j ≠ k := by
        rintro rfl
        rw [nothing] at yields
        cases yields
      exact .inl ⟨j, by omega, yields, fun i after before => silent i after (by omega)⟩
    · exact .inr ⟨same, fun i before => silent i (by omega)⟩
  · have silent_succ {j : Nat} (silent : ∀ i, j ≤ i → i < k → t i = none) :
        ∀ i, j ≤ i → i < k + 1 → t i = none := by
      intro i after before
      by_cases here : i = k
      · exact here ▸ nothing
      · exact silent i after (by omega)
    rintro (⟨j, below, yields, silent⟩ | ⟨same, silent⟩)
    · exact .inl ⟨j, by omega, yields, silent_succ silent⟩
    · refine .inr ⟨same, fun i before => ?_⟩
      exact silent_succ (j := 0) (fun i _ before => silent i before) i (Nat.zero_le i) before

theorem latest_succ_of_some {w : α} (yields : t k = some w) : Latest t d (k + 1) v ↔ v = w := by
  constructor
  · rintro (⟨j, below, other, silent⟩ | ⟨-, silent⟩)
    · obtain less | rfl : j < k ∨ j = k := by omega
      · rw [silent k less (Nat.lt_succ_self k)] at yields
        cases yields
      · rw [other] at yields
        exact Option.some.inj yields
    · rw [silent k (Nat.lt_succ_self k)] at yields
      cases yields
  · rintro rfl
    exact .inl ⟨k, Nat.lt_succ_self k, yields, fun i after before => by omega⟩

/-- Exactly one value is in force at a position, the one that is carried there. -/
theorem latest_iff : Latest t d k v ↔ v = carried t d k := by
  induction k with
  | zero => simp [Latest, carried]
  | succ k ih =>
      cases yields : t k with
      | none => rw [latest_succ_of_none yields, ih, carried, yields, Option.getD_none]
      | some w => rw [latest_succ_of_some yields, carried, yields, Option.getD_some]

theorem carried_congr (same : ∀ i < k, t i = u i) : carried t d k = carried u d k := by
  induction k with
  | zero => rfl
  | succ k ih =>
      rw [carried, carried, same k (Nat.lt_succ_self k), ih fun i before => same i (by omega)]

theorem previous_congr (same : ∀ i < k, t i = u i) : previous t d k = previous u d k := by
  cases k with
  | zero => rfl
  | succ k => rw [previous, previous, same k (Nat.lt_succ_self k)]

/-- Positions that yield nothing change nothing. -/
theorem carried_of_silent (below : k ≤ n) (silent : ∀ i, k ≤ i → i < n → t i = none) :
    carried t d n = carried t d k := by
  induction n, below using Nat.le_induction with
  | base => rfl
  | succ n below ih =>
      rw [carried, silent n below (Nat.lt_succ_self n), Option.getD_none]
      exact ih fun i after before => silent i after (by omega)

/-- The walk ends with what is in force at the first position that yields nothing. -/
theorem walk_range' (a len : Nat) :
    ∃ k, a ≤ k ∧ k ≤ a + len ∧ (∀ i, a ≤ i → i < k → t i ≠ none) ∧ (k < a + len → t k = none) ∧
      walk t (List.range' a len) (carried t d a) = carried t d k := by
  induction len generalizing a with
  | zero => exact ⟨a, Nat.le_refl a, Nat.le_refl a, fun i _ _ => by omega, by omega, rfl⟩
  | succ len ih =>
      rw [List.range'_succ, walk]
      cases yields : t a with
      | none => exact ⟨a, Nat.le_refl a, by omega, fun i _ _ => by omega, fun _ => yields, rfl⟩
      | some w =>
          have onward : w = carried t d (a + 1) := by rw [carried, yields, Option.getD_some]
          obtain ⟨k, after, before, yielding, silent, ends⟩ := ih (a + 1)
          refine ⟨k, by omega, by omega, ?_, fun less => silent (by omega), ?_⟩
          · intro i from_ less
            obtain rfl | later : i = a ∨ a + 1 ≤ i := by omega
            · rw [yields]
              exact nofun
            · exact yielding i later less
          · dsimp only
            rw [onward, ends]

/-- Looking back from the positions of a set finds the value in force exactly when a position
of the set behind one that yields nothing has the default in force. -/
theorem looking_iff {P : Nat → Prop} : (∀ i, P i → previous t d i = carried t d i) ↔
    ∀ i, P (i + 1) → t i = none → carried t d i = d := by
  constructor
  · intro finds i within nothing
    have same := finds (i + 1) within
    rw [previous, carried, nothing, Option.getD_none, Option.getD_none] at same
    exact same.symm
  · intro covered i within
    cases i with
    | zero => rfl
    | succ i =>
        rw [previous, carried]
        cases yields : t i with
        | none => exact (covered i within yields).symm
        | some w => rfl

/-- Only the positions of an initial segment `P` can yield. Looking back from these positions
and walking over all of them both find the value in force exactly when a position that yields
nothing inside the segment comes behind no other value than the default, and the default is
in force at the end. -/
theorem agree_iff {P : Nat → Prop} (down : ∀ i, P (i + 1) → P i) (inside : ∀ i, P i → i < n)
    (silent : ∀ i, ¬ P i → t i = none) :
    ((∀ i, P i → previous t d i = carried t d i) ∧ walk t (List.range n) d = carried t d n) ↔
      ∀ i, P (i + 1) → t i = none → carried t d i = d ∧ carried t d n = d := by
  obtain ⟨k, -, bound, yielding, gap, ends⟩ := walk_range' (t := t) (d := d) 0 n
  rw [Nat.zero_add] at bound gap
  rw [← List.range_eq_range', carried] at ends
  rw [looking_iff, ends]
  by_cases beyond : P (k + 1)
  · -- the walk stops at a position with another one of the segment behind it
    have nothing := gap (by have := inside (k + 1) beyond; omega)
    constructor
    · rintro ⟨covered, same⟩ i within none
      exact ⟨covered i within none, same ▸ covered k beyond nothing⟩
    · intro covered
      refine ⟨fun i within none => (covered i within none).1, ?_⟩
      rw [(covered k beyond nothing).1, (covered k beyond nothing).2]
  · have after : ∀ i, k + 1 ≤ i → ¬ P i := by
      intro i later
      induction i, later using Nat.le_induction with
      | base => exact beyond
      | succ i _ ih => exact fun within => ih (down i within)
    have rest : ∀ i, k ≤ i → i < n → t i = none := by
      intro i later less
      obtain rfl | later : i = k ∨ k + 1 ≤ i := by omega
      · exact gap less
      · exact silent i (after i later)
    have same := carried_of_silent (d := d) bound rest
    constructor
    · rintro ⟨covered, -⟩ i within nothing
      have early : i < k := by
        by_contra late
        exact after (i + 1) (by omega) within
      exact absurd nothing (yielding i (Nat.zero_le i) early)
    · intro covered
      exact ⟨fun i within none => (covered i within none).1, same.symm⟩

end MultiAgent.Carry
