import MultiAgent.Foundations.Dict
import Mathlib.Data.List.Sort
import Mathlib.Data.List.Perm.Basic

/-!
# Plurality votes

A counter of votes, ordered by the most common ones first. A choice leads if no other has as
many votes, which does not depend on the order of the votes (`leader_tally_iff`).
-/

namespace MultiAgent

/-- The choice has votes, and more of them than any other. -/
def Plurality {κ : Type*} [DecidableEq κ] (votes : List κ) (choice : κ) : Prop :=
  0 < votes.count choice ∧ ∀ other, other ≠ choice → votes.count other < votes.count choice

theorem Plurality.unique {κ : Type*} [DecidableEq κ] {votes : List κ} {a b : κ}
    (first : Plurality votes a) (second : Plurality votes b) : a = b := by
  by_contra apart
  exact lt_asymm (first.2 b (Ne.symm apart)) (second.2 a apart)

/-- It is enough to be ahead of the other choices that have votes. -/
theorem Plurality.of_voted {κ : Type*} [DecidableEq κ] {votes : List κ} {choice : κ}
    (voted : choice ∈ votes)
    (ahead : ∀ other ∈ votes, other ≠ choice → votes.count other < votes.count choice) :
    Plurality votes choice := by
  have positive := List.count_pos_iff.mpr voted
  refine ⟨positive, ?_⟩
  intro other apart
  by_cases also : other ∈ votes
  · exact ahead other also apart
  · rw [List.count_eq_zero_of_not_mem also]
    exact positive

namespace Counter

variable {κ : Type*} [DecidableEq κ] {d : Dict κ Nat} {k w : κ} {votes votes' : List κ}

/-- `counts[choice] += 1`, where a missing choice counts as 0. -/
def add (d : Dict κ Nat) (choice : κ) : Dict κ Nat := d.set choice ((d.get? choice).getD 0 + 1)

def tally (votes : List κ) : Dict κ Nat := votes.foldl add .empty

/-- `counts.most_common()` -/
def mostCommon (d : Dict κ Nat) : List (κ × Nat) :=
  d.entries.mergeSort fun a b => decide (b.2 ≤ a.2)

/-- The first choice, if it is alone there. -/
def leader (d : Dict κ Nat) : Option κ :=
  match mostCommon d with
  | [] => none
  | [(choice, _)] => some choice
  | (choice, n) :: (_, m) :: _ => if m < n then some choice else none

theorem get?_foldl_add (d : Dict κ Nat) (votes : List κ) (k : κ) :
    (votes.foldl add d).get? k =
      if k ∈ votes then some ((d.get? k).getD 0 + votes.count k) else d.get? k := by
  induction votes generalizing d with
  | nil => simp
  | cons vote rest ih =>
      rw [List.foldl_cons, ih, add, Dict.get?_set]
      by_cases same : k = vote
      · subst same
        by_cases again : k ∈ rest
        · simp only [again, if_true, Option.getD_some, List.mem_cons, true_or, List.count_cons_self]
          congr 1
          omega
        · simp [again, List.count_eq_zero_of_not_mem again]
      · simp only [same, if_false, List.mem_cons, false_or,
          List.count_cons_of_ne (Ne.symm same)]

theorem get?_tally : (tally votes).get? k = if k ∈ votes then some (votes.count k) else none := by
  have start : (Dict.empty : Dict κ Nat).get? k = none := rfl
  rw [tally, get?_foldl_add, start, Option.getD_none, Nat.zero_add]

theorem mem_mostCommon {n : Nat} :
    (k, n) ∈ mostCommon (tally votes) ↔ k ∈ votes ∧ n = votes.count k := by
  rw [mostCommon, (List.mergeSort_perm _ _).mem_iff, ← Dict.get?_eq_some_iff, get?_tally]
  split_ifs with voted
  · simp [voted, eq_comm]
  · simp [voted]

omit [DecidableEq κ] in
theorem pairwise_mostCommon (d : Dict κ Nat) :
    (mostCommon d).Pairwise fun a b => b.2 ≤ a.2 := by
  have sorted := @List.pairwise_mergeSort _ (fun a b : κ × Nat => decide (b.2 ≤ a.2))
    (by intro a b c; simp; omega) (by intro a b; simp; omega) d.entries
  exact sorted.imp of_decide_eq_true

omit [DecidableEq κ] in
theorem keys_mostCommon (d : Dict κ Nat) : ((mostCommon d).map Prod.fst).Nodup :=
  ((List.mergeSort_perm _ _).map Prod.fst).nodup_iff.mpr d.distinct

/-- The leader is the choice with the strict plurality. -/
theorem leader_tally_iff : leader (tally votes) = some w ↔ Plurality votes w := by
  have order := pairwise_mostCommon (tally votes)
  have distinct := keys_mostCommon (tally votes)
  have listed (k : κ) (n : Nat) : (k, n) ∈ mostCommon (tally votes) ↔
      k ∈ votes ∧ n = votes.count k := mem_mostCommon
  rw [leader]
  cases shown : mostCommon (tally votes) with
  | nil =>
      refine iff_of_false nofun ?_
      intro plurality
      have member := (listed w _).mpr ⟨List.count_pos_iff.mp plurality.1, rfl⟩
      rw [shown] at member
      cases member
  | cons first rest =>
      obtain ⟨choice, n⟩ := first
      rw [shown] at order distinct listed
      obtain ⟨voted, rfl⟩ := (listed choice n).mp List.mem_cons_self
      obtain ⟨below, order⟩ := List.pairwise_cons.mp order
      have behind {other : κ} (apart : other ≠ choice) (voted : other ∈ votes) :
          (other, votes.count other) ∈ rest := by
        have member := (listed other _).mpr ⟨voted, rfl⟩
        exact (List.mem_cons.mp member).resolve_left fun same => apart (congrArg Prod.fst same)
      cases rest with
      | nil =>
          have alone : Plurality votes choice := by
            refine .of_voted voted ?_
            intro other also apart
            exact absurd (behind apart also) List.not_mem_nil
          refine ⟨?_, fun plurality => congrArg some (alone.unique plurality)⟩
          rintro ⟨⟩
          exact alone
      | cons second rest =>
          obtain ⟨next, m⟩ := second
          obtain ⟨-, rfl⟩ := (listed next m).mp (List.mem_cons_of_mem _ List.mem_cons_self)
          obtain ⟨least, -⟩ := List.pairwise_cons.mp order
          have apart : next ≠ choice := by
            intro same
            rw [List.map_cons, List.nodup_cons] at distinct
            exact distinct.1 (List.mem_map.mpr ⟨_, List.mem_cons_self, same⟩)
          simp only
          split_ifs with more
          · have ahead : Plurality votes choice := by
              refine .of_voted voted ?_
              intro other also apart
              rcases List.mem_cons.mp (behind apart also) with same | later
              · cases same
                exact more
              · exact lt_of_le_of_lt (least _ later) more
            refine ⟨?_, fun plurality => congrArg some (ahead.unique plurality)⟩
            rintro ⟨⟩
            exact ahead
          · refine iff_of_false nofun ?_
            intro plurality
            by_cases same : w = choice
            · subst same
              exact more (plurality.2 next apart)
            · have fewer := plurality.2 choice (Ne.symm same)
              have most := below _ (behind same (List.count_pos_iff.mp plurality.1))
              exact absurd fewer (not_lt.mpr most)

end Counter

end MultiAgent
