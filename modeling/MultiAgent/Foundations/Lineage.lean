import Mathlib.Logic.Relation

/-!
# Chains of parents

Nodes are numbered in the order of their creation, so a parent is older than its children
and the chain of parents of a node is finite. Climbing from a node meets the nearest node at
or above it that stops the climb, with as much fuel as the node has elders.
-/

namespace MultiAgent

/-- A forest on the natural numbers in which every node is younger than its parent. -/
structure Lineage where
  parent : Nat → Option Nat
  older : ∀ {i p : Nat}, parent i = some p → p < i

namespace Lineage

variable (lineage : Lineage) (stop : Nat → Bool)

/-- The first node is the second one or descends from it. -/
def Below : Nat → Nat → Prop :=
  Relation.ReflTransGen fun i p => lineage.parent i = some p

/-- The first node of the chain of parents that stops the climb. -/
def climb : Nat → Nat → Option Nat
  | 0, _ => none
  | fuel + 1, i => if stop i then some i else (lineage.parent i).bind (climb fuel)

/-- The climb with enough fuel. -/
def nearest (i : Nat) : Option Nat := lineage.climb stop (i + 1) i

variable {lineage stop}

theorem Below.refl (i : Nat) : lineage.Below i i := Relation.ReflTransGen.refl

theorem Below.head {i p j : Nat} (parent : lineage.parent i = some p) (above : lineage.Below p j) :
    lineage.Below i j :=
  Relation.ReflTransGen.head parent above

/-- What is above a node is above its parent, except the node. -/
theorem below_iff {i j : Nat} :
    lineage.Below i j ↔ i = j ∨ ∃ p, lineage.parent i = some p ∧ lineage.Below p j := by
  constructor
  · intro below
    obtain rfl | ⟨p, parent, above⟩ := Relation.ReflTransGen.cases_head below
    · exact .inl rfl
    · exact .inr ⟨p, parent, above⟩
  · rintro (rfl | ⟨p, parent, above⟩)
    · exact .refl i
    · exact .head parent above

theorem Below.le {i j : Nat} (below : lineage.Below i j) : j ≤ i := by
  induction below with
  | refl => exact Nat.le_refl _
  | tail _ parent ih => exact Nat.le_trans (Nat.le_of_lt (lineage.older parent)) ih

theorem Below.antisymm {i j : Nat} (first : lineage.Below i j) (second : lineage.Below j i) :
    i = j :=
  Nat.le_antisymm second.le first.le

theorem not_below_of_parent {i p : Nat} (parent : lineage.parent i = some p) :
    ¬ lineage.Below p i := by
  intro below
  have elder := lineage.older parent
  have younger := below.le
  omega

theorem not_below_of_sibling {i j p : Nat} (first : lineage.parent i = some p)
    (second : lineage.parent j = some p) (other : i ≠ j) : ¬ lineage.Below i j := by
  intro below
  obtain same | ⟨q, parent, above⟩ := below_iff.mp below
  · exact other same
  · rw [first] at parent
    cases parent
    exact not_below_of_parent second above

/-- Parents that are kept keep what is above. -/
theorem Below.mono {grown : Lineage}
    (kept : ∀ i p, lineage.parent i = some p → grown.parent i = some p) {i j : Nat}
    (below : lineage.Below i j) : grown.Below i j :=
  Relation.ReflTransGen.mono kept i j below

/-- More fuel than elders changes nothing. -/
theorem climb_congr {fuel more i : Nat} (enough : i < fuel) (also : i < more) :
    lineage.climb stop fuel i = lineage.climb stop more i := by
  induction fuel generalizing more i with
  | zero => exact absurd enough (Nat.not_lt_zero i)
  | succ fuel ih =>
      cases more with
      | zero => exact absurd also (Nat.not_lt_zero i)
      | succ more =>
          rw [climb, climb]
          refine ite_congr rfl (fun _ => rfl) fun _ => Option.bind_congr fun p parent => ?_
          have elder := lineage.older parent
          exact ih (by omega) (by omega)

/-- The climb stops here or goes on from the parent. -/
theorem nearest_eq (i : Nat) :
    lineage.nearest stop i =
      if stop i then some i else (lineage.parent i).bind (lineage.nearest stop) := by
  rw [nearest, climb]
  refine ite_congr rfl (fun _ => rfl) fun _ => Option.bind_congr fun p parent => ?_
  exact climb_congr (lineage.older parent) (Nat.lt_succ_self p)

/-- The climb ends at the lowest of the stopping nodes at or above its start. -/
theorem nearest_spec {i j : Nat} (found : lineage.nearest stop i = some j) :
    lineage.Below i j ∧ stop j = true ∧
      ∀ k, lineage.Below i k → stop k = true → lineage.Below j k := by
  induction i using Nat.strongRecOn with
  | _ i ih =>
      rw [nearest_eq] at found
      split at found
      next stops =>
        cases found
        exact ⟨.refl _, stops, fun k above _ => above⟩
      next passes =>
        obtain ⟨p, parent, found⟩ := Option.bind_eq_some_iff.mp found
        obtain ⟨above, stops, lowest⟩ := ih p (lineage.older parent) found
        refine ⟨.head parent above, stops, fun k higher stopsToo => ?_⟩
        obtain rfl | ⟨q, other, higher⟩ := below_iff.mp higher
        · exact absurd stopsToo passes
        · rw [parent] at other
          cases other
          exact lowest k higher stopsToo

/-- The climb finds a node exactly when one at or above its start stops it. -/
theorem nearest_isSome_iff {i : Nat} :
    (lineage.nearest stop i).isSome = true ↔ ∃ j, lineage.Below i j ∧ stop j = true := by
  constructor
  · intro found
    obtain ⟨j, found⟩ := Option.isSome_iff_exists.mp found
    obtain ⟨above, stops, -⟩ := nearest_spec found
    exact ⟨j, above, stops⟩
  · rintro ⟨j, above, stops⟩
    induction above using Relation.ReflTransGen.head_induction_on with
    | refl => rw [nearest_eq, if_pos stops, Option.isSome_some]
    | head parent _ ih =>
        rw [nearest_eq]
        split
        · rfl
        · rw [parent, Option.bind_some, ih]

/-- The lowest of the stopping nodes at or above a node is the one the climb finds. -/
theorem nearest_eq_some_iff {i j : Nat} :
    lineage.nearest stop i = some j ↔ lineage.Below i j ∧ stop j = true ∧
      ∀ k, lineage.Below i k → stop k = true → lineage.Below j k := by
  refine ⟨nearest_spec, fun ⟨above, stops, lowest⟩ => ?_⟩
  obtain ⟨k, found⟩ := Option.isSome_iff_exists.mp (nearest_isSome_iff.mpr ⟨j, above, stops⟩)
  obtain ⟨higher, stopsToo, lower⟩ := nearest_spec found
  rw [found, (lowest k higher stopsToo).antisymm (lower j above stops)]

end Lineage

end MultiAgent
