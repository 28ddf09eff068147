import Mathlib.Data.Nat.Basic

/-!
# A cursor that goes round

A cursor over `m` places moves on by one with every turn. `served` counts the turns that fall
on one place, and `served_eq` gives the count in closed form, so that over any stretch of
turns no place is served twice more often than another.
-/

namespace MultiAgent.RoundRobin

/-- How many of the next `n` turns fall on the place `i`. -/
def served (m i : Nat) : Nat → Nat → Nat
  | _, 0 => 0
  | cursor, n + 1 => (if cursor % m = i then 1 else 0) + served m i (cursor + 1) n

/-- The turns from the place `r` to the place `i`. -/
def distance (m r i : Nat) : Nat := if r ≤ i then i - r else m + i - r

variable {m i j cursor n : Nat}

theorem distance_lt (inside : i < m) (r : Nat) : distance m r i < m := by
  rw [distance]
  split <;> omega

theorem distance_succ (inside : i < m) :
    distance m ((cursor + 1) % m) i =
      if cursor % m = i then m - 1 else distance m (cursor % m) i - 1 := by
  have place : cursor % m < m := Nat.mod_lt _ (by omega)
  have next : (cursor + 1) % m = if cursor % m + 1 = m then 0 else cursor % m + 1 := by
    rw [← Nat.mod_add_mod]
    split
    · rename_i last
      rw [last, Nat.mod_self]
    · exact Nat.mod_eq_of_lt (by omega)
  rw [next, distance, distance]
  split_ifs <;> omega

/-- A place is served once for each full round and once more when the last turns reach it. -/
theorem served_eq (inside : i < m) (cursor n : Nat) :
    served m i cursor n = (n + (m - 1 - distance m (cursor % m) i)) / m := by
  induction n generalizing cursor with
  | zero =>
      rw [served, Nat.div_eq_of_lt]
      omega
  | succ n ih =>
      have short := distance_lt inside (cursor % m)
      rw [served, ih, distance_succ inside]
      by_cases here : cursor % m = i
      · have near : distance m (cursor % m) i = 0 := by simp [distance, here]
        rw [if_pos here, if_pos here, near, Nat.sub_self, Nat.add_zero,
          show n + 1 + (m - 1 - 0) = n + m by omega, Nat.add_div_right n (by omega)]
        omega
      · have place : cursor % m < m := Nat.mod_lt _ (by omega)
        have far : 0 < distance m (cursor % m) i := by
          rw [distance]
          split <;> omega
        rw [if_neg here, if_neg here, Nat.zero_add]
        congr 1
        omega

theorem served_le (left : i < m) (right : j < m) (cursor n : Nat) :
    served m i cursor n ≤ served m j cursor n + 1 := by
  rw [served_eq left, served_eq right, ← Nat.add_div_right _ (by omega)]
  apply Nat.div_le_div_right
  have short := distance_lt right (cursor % m)
  omega

end MultiAgent.RoundRobin
