import Mathlib.Data.List.Nodup
import Mathlib.Order.Defs.LinearOrder
import Mathlib.Order.Lattice

/-!
# The oldest members of a list

The list is sorted by an age, members of one age in their order, and the first members of
the sorted list are taken. Each of them is at least as old as every other member.
-/

namespace MultiAgent

variable {κ τ : Type*} [LinearOrder τ]

/-- `sorted(l, key=age)[:n]` -/
def oldest (age : κ → τ) (l : List κ) (n : Nat) : List κ :=
  (l.mergeSort fun a b => decide (age a ≤ age b)).take n

namespace Oldest

variable {age : κ → τ} {l : List κ} {n : Nat} {a b : κ}

theorem sorted (age : κ → τ) (l : List κ) :
    (l.mergeSort fun a b => decide (age a ≤ age b)).Pairwise fun a b => age a ≤ age b := by
  refine (List.pairwise_mergeSort ?_ ?_ l).imp fun below => of_decide_eq_true below
  · intro a b c first second
    exact decide_eq_true (le_trans (of_decide_eq_true first) (of_decide_eq_true second))
  · intro a b
    simpa using le_total (age a) (age b)

theorem mem_of_mem (member : a ∈ oldest age l n) : a ∈ l :=
  List.mem_mergeSort.mp (List.mem_of_mem_take member)

theorem nodup (distinct : l.Nodup) : (oldest age l n).Nodup :=
  ((List.mergeSort_perm l _).nodup_iff.mpr distinct).sublist (List.take_sublist _ _)

theorem length_of_le (enough : n ≤ l.length) : (oldest age l n).length = n := by
  rw [oldest, List.length_take, List.length_mergeSort, Nat.min_eq_left enough]

/-- What is taken is at least as old as what is left. -/
theorem le_of_left (taken : a ∈ oldest age l n) (member : b ∈ l) (left : b ∉ oldest age l n) :
    age a ≤ age b := by
  have parts := List.take_append_drop n (l.mergeSort fun a b => decide (age a ≤ age b))
  have whole := sorted age l
  rw [← parts] at whole
  have later : b ∈ (l.mergeSort fun a b => decide (age a ≤ age b)).drop n := by
    have known : b ∈ l.mergeSort fun a b => decide (age a ≤ age b) :=
      List.mem_mergeSort.mpr member
    rw [← parts] at known
    exact (List.mem_append.mp known).resolve_left left
  exact (List.pairwise_append.mp whole).2.2 a taken b later

end Oldest

end MultiAgent
