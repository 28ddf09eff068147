import Mathlib.Data.List.Basic
import Mathlib.Logic.Relation

/-!
# Saturating a list pass after pass

A list is extended by entries for the elements of another one. A turn adds the entry of
an element that the list so far admits, a pass takes one turn for each element, and the
passes go on until one of them adds nothing. `Grows` is what the passes do as a sequence
of additions, and carries their invariants; `saturated` says that enough passes leave no
element to be admitted.
-/

namespace MultiAgent.Saturation

open Relation

variable {α β : Type*} (admits : List β → α → Prop) [∀ list x, Decidable (admits list x)]
  (entry : α → β)

def turn (list : List β) (x : α) : List β :=
  if admits list x then list ++ [entry x] else list

/-- The passes over the elements `xs`, at most `fuel` of them that add something. -/
def passes (xs : List α) : Nat → List β → List β
  | 0, list => list
  | fuel + 1, list =>
    let next := xs.foldl (turn admits entry) list
    if next.length = list.length then list else passes xs fuel next

omit [∀ list x, Decidable (admits list x)] in
/-- One addition. -/
def Adds (xs : List α) (list next : List β) : Prop :=
  ∃ x ∈ xs, admits list x ∧ next = list ++ [entry x]

/-- The list is reached by additions. -/
abbrev Grows (xs : List α) : List β → List β → Prop := ReflTransGen (Adds admits entry xs)

variable {admits entry} {xs : List α} {list next : List β} {fuel : Nat}

omit [∀ list x, Decidable (admits list x)] in
theorem Grows.invariant {P : List β → Prop} (grows : Grows admits entry xs list next)
    (keep : ∀ list x, P list → x ∈ xs → admits list x → P (list ++ [entry x]))
    (start : P list) : P next := by
  induction grows with
  | refl => exact start
  | tail _ adds ih =>
      obtain ⟨x, member, admitted, rfl⟩ := adds
      exact keep _ x ih member admitted

omit [∀ list x, Decidable (admits list x)] in
theorem Grows.keeps (grows : Grows admits entry xs list next) : list <+: next := by
  refine grows.invariant (P := fun next => list <+: next) ?_ List.prefix_rfl
  intro mid x so_far _ _
  exact so_far.trans (List.prefix_append _ _)

theorem turn_grows {x : α} (member : x ∈ xs) : Grows admits entry xs list
    (turn admits entry list x) := by
  rw [turn]
  split
  · exact .single ⟨x, member, ‹_›, rfl⟩
  · exact .refl

theorem pass_grows {ys : List α} (within : ∀ x ∈ ys, x ∈ xs) (list : List β) :
    Grows admits entry xs list (ys.foldl (turn admits entry) list) := by
  induction ys generalizing list with
  | nil => exact .refl
  | cons x ys ih =>
      obtain ⟨here, later⟩ := List.forall_mem_cons.mp within
      exact (turn_grows here).trans (ih later _)

theorem passes_grows (xs : List α) (fuel : Nat) (list : List β) :
    Grows admits entry xs list (passes admits entry xs fuel list) := by
  induction fuel generalizing list with
  | zero => exact .refl
  | succ fuel ih =>
      rw [passes]
      split
      · exact .refl
      · exact (pass_grows (fun _ member => member) list).trans (ih _)

/-- A pass that adds nothing admitted nothing. -/
theorem not_admits_of_pass {ys : List α}
    (same : (ys.foldl (turn admits entry) list).length = list.length) :
    ∀ x ∈ ys, ¬ admits list x := by
  induction ys with
  | nil => simp
  | cons x ys ih =>
      rw [List.foldl_cons] at same
      have longer (next : List β) : next.length ≤ (ys.foldl (turn admits entry) next).length := by
        have grown : Grows admits entry ys next (ys.foldl (turn admits entry) next) :=
          pass_grows (fun _ member => member) next
        exact grown.keeps.length_le
      by_cases admitted : admits list x
      · have more := longer (turn admits entry list x)
        rw [turn, if_pos admitted, List.length_append, List.length_singleton] at more
        rw [turn, if_pos admitted] at same
        omega
      · rw [turn, if_neg admitted] at same
        exact List.forall_mem_cons.mpr ⟨admitted, ih same⟩

section Enough

variable [DecidableEq β]

/-- The elements whose entries are not in the list. -/
def missing (entry : α → β) (xs : List α) (list : List β) : Nat :=
  xs.countP fun x => decide (entry x ∉ list)

theorem missing_append_le (list : List β) (x : β) :
    missing entry xs (list ++ [x]) ≤ missing entry xs list := by
  apply List.countP_mono_left
  intro y _ out
  simp only [List.mem_append, not_or, decide_eq_true_eq] at out ⊢
  exact out.1

theorem missing_lt {x : α} (member : x ∈ xs) (out : entry x ∉ list) :
    missing entry xs (list ++ [entry x]) < missing entry xs list := by
  induction xs with
  | nil => cases member
  | cons y ys ih =>
      have tail : missing entry ys (list ++ [entry x]) ≤ missing entry ys list :=
        missing_append_le list (entry x)
      unfold missing at tail ih ⊢
      rw [List.countP_cons, List.countP_cons]
      obtain rfl | later := List.mem_cons.mp member
      · have here : entry x ∈ list ++ [entry x] := List.mem_append_right _ List.mem_cons_self
        rw [if_neg (by simp), if_pos (by simpa using out)]
        omega
      · have less := ih later
        have here : (if decide (entry y ∉ list ++ [entry x]) = true then 1 else 0) ≤
            if decide (entry y ∉ list) = true then 1 else 0 := by
          split
          · rename_i absent
            simp only [List.mem_append, not_or, decide_eq_true_eq] at absent
            simp [absent.1]
          · exact Nat.zero_le _
        omega

omit [∀ list x, Decidable (admits list x)] in
theorem Grows.missing_le (grows : Grows admits entry xs list next)
    (fresh : ∀ list x, admits list x → entry x ∉ list) :
    missing entry xs next + next.length ≤ missing entry xs list + list.length := by
  refine grows.invariant (P := fun next =>
    missing entry xs next + next.length ≤ missing entry xs list + list.length)
    ?_ (Nat.le_refl _)
  intro mid x so_far member admitted
  have less := missing_lt member (fresh mid x admitted)
  rw [List.length_append, List.length_singleton]
  omega

/-- When there is a pass for every element and one more, nothing is left to be
admitted at the end. -/
theorem saturated (fresh : ∀ list x, admits list x → entry x ∉ list)
    (enough : missing entry xs list < fuel) :
    ∀ x ∈ xs, ¬ admits (passes admits entry xs fuel list) x := by
  induction fuel generalizing list with
  | zero => exact absurd enough (Nat.not_lt_zero _)
  | succ fuel ih =>
      rw [passes]
      split
      · rename_i same
        exact not_admits_of_pass same
      · rename_i more
        have grown : Grows admits entry xs list (xs.foldl (turn admits entry) list) :=
          pass_grows (fun _ member => member) list
        have longer := grown.keeps.length_le
        have spent := grown.missing_le fresh
        refine ih ?_
        omega

end Enough

end MultiAgent.Saturation
