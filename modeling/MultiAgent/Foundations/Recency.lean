import Mathlib.Data.List.Dedup
import Mathlib.Data.List.DropRight

/-!
# The most recent members of a list

`recent n l` has the last `n` distinct members of `l`, each at its last place. A member
is among them when fewer than `n` others come behind its last place, and one more member
of `l` only moves to the end of them.
-/

namespace MultiAgent

namespace Recency

variable {κ : Type*} [DecidableEq κ] {n : Nat} {k : κ} {l a b : List κ}

def recent (n : Nat) (l : List κ) : List κ := l.dedup.rtake n

theorem recent_subset : recent n l ⊆ l := fun _ member =>
  List.mem_dedup.mp (List.mem_of_mem_drop member)

omit [DecidableEq κ] in
theorem rtake_append_of_le (enough : n ≤ b.length) : (a ++ b).rtake n = b.rtake n := by
  rw [List.rtake, List.rtake, List.length_append, List.drop_append]
  have front : a.drop (a.length + b.length - n) = [] := List.drop_eq_nil_of_le (by omega)
  rw [front, List.nil_append]
  congr 1
  omega

theorem dedup_concat : (l ++ [k]).dedup = l.dedup.filter (fun x => decide (x ≠ k)) ++ [k] := by
  induction l with
  | nil => rfl
  | cons x rest ih =>
      rw [List.cons_append]
      by_cases again : x ∈ rest
      · rw [List.dedup_cons_of_mem (List.mem_append_left _ again), ih,
          List.dedup_cons_of_mem again]
      · rw [List.dedup_cons_of_notMem again]
        by_cases same : x = k
        · rw [List.dedup_cons_of_mem (by simp [same]), ih, List.filter_cons_of_neg (by simp [same])]
        · rw [List.dedup_cons_of_notMem (by simp [again, same]), ih,
            List.filter_cons_of_pos (by simp [same]), List.cons_append]

/-- A filter that drops one member at most leaves all but one of the last `n`. -/
theorem rtake_filter (distinct : l.Nodup) :
    (l.filter fun x => decide (x ≠ k)).rtake n =
      ((l.rtake (n + 1)).filter fun x => decide (x ≠ k)).rtake n := by
  by_cases short : l.length ≤ n + 1
  · rw [List.rtake.eq_def l, Nat.sub_eq_zero_of_le short, List.drop_zero]
  · have split : l = l.take (l.length - (n + 1)) ++ l.rtake (n + 1) :=
      (List.take_append_drop _ l).symm
    have size : (l.rtake (n + 1)).length = n + 1 := by
      rw [List.rtake, List.length_drop]
      omega
    have kept : n ≤ ((l.rtake (n + 1)).filter fun x => decide (x ≠ k)).length := by
      have once : (l.rtake (n + 1)).count k ≤ 1 :=
        List.nodup_iff_count_le_one.mp (distinct.sublist (List.drop_sublist _ _)) k
      have parts := List.length_eq_length_filter_add (l := l.rtake (n + 1)) fun x => decide (x ≠ k)
      have dropped : ((l.rtake (n + 1)).filter fun x => !decide (x ≠ k)).length =
          (l.rtake (n + 1)).count k := by
        rw [List.count, List.countP_eq_length_filter]
        congr 1
        apply List.filter_congr
        intro x _
        by_cases same : x = k <;> simp [same]
      omega
    conv_lhs => rw [split, List.filter_append]
    exact rtake_append_of_le kept

/-- What comes last is moved to the end of the recent ones, or pushes the oldest out. -/
theorem recent_concat :
    recent (n + 1) (l ++ [k]) =
      ((recent (n + 1) l).filter (fun x => decide (x ≠ k)) ++ [k]).rtake (n + 1) := by
  rw [recent, dedup_concat, List.rtake_concat_succ, List.rtake_concat_succ,
    rtake_filter (List.nodup_dedup l)]
  rfl

/-- Behind the last place of a member, the list without duplicates goes on as what comes
behind it does. -/
theorem exists_dedup_eq (member : k ∈ l) :
    ∃ pre, l.dedup = pre ++ k :: (l.rtakeWhile fun x => decide (x ≠ k)).dedup := by
  induction l using List.reverseRecOn with
  | nil => cases member
  | append_singleton rest x ih =>
      rw [dedup_concat]
      by_cases same : x = k
      · refine ⟨rest.dedup.filter fun y => decide (y ≠ x), ?_⟩
        rw [List.rtakeWhile_concat_neg _ _ _ (by simp [same]), same]
        rfl
      · have earlier : k ∈ rest := by
          obtain earlier | last := List.mem_append.mp member
          · exact earlier
          · exact absurd (List.mem_singleton.mp last).symm same
        obtain ⟨pre, split⟩ := ih earlier
        refine ⟨pre.filter fun y => decide (y ≠ x), ?_⟩
        have other : k ≠ x := fun equal => same equal.symm
        rw [split, List.rtakeWhile_concat_pos _ _ _ (by simp [same]), dedup_concat,
          List.filter_append, List.filter_cons_of_pos (by simp [other]), List.append_assoc,
          List.cons_append]

/-- A recent member has fewer than `n` others behind its last place. -/
theorem mem_recent_iff :
    k ∈ recent n l ↔ k ∈ l ∧ (l.rtakeWhile fun x => decide (x ≠ k)).dedup.length < n := by
  constructor
  · intro member
    obtain ⟨pre, split⟩ := exists_dedup_eq (recent_subset member)
    refine ⟨recent_subset member, ?_⟩
    by_contra! many
    have distinct := List.nodup_dedup l
    rw [split, List.append_cons, List.nodup_append] at distinct
    rw [recent, split, List.append_cons, rtake_append_of_le many] at member
    exact distinct.2.2 k (by simp) k (List.mem_of_mem_drop member) rfl
  · rintro ⟨member, few⟩
    obtain ⟨pre, split⟩ := exists_dedup_eq member
    rw [recent, split, List.rtake, List.drop_append_of_le_length]
    · simp
    · rw [List.length_append, List.length_cons]
      omega

end Recency

end MultiAgent
