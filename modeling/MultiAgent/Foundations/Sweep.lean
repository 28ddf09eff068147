import Mathlib.Data.List.Nodup

/-!
# One pass of failure propagation over a list

A pass walks a list of ids from left to right and drops every eligible id that
has a bad dependency; a dropped id counts as bad for the rest of the same pass.
The pass is not iterated, so a dependency that it drops only after the dependent
was visited leaves the dependent behind. `covers_iff` says exactly when nothing
is left behind.
-/

namespace MultiAgent

variable {α : Type*} [DecidableEq α]

/-- The ids that one left-to-right pass drops, in the order in which it does. -/
def sweep (deps : α → List α) (eligible : α → Bool) (bad : α → Bool) : List α → List α
  | [] => []
  | x :: xs =>
    if eligible x && (deps x).any bad then
      x :: sweep deps eligible (fun y => bad y || decide (y = x)) xs
    else sweep deps eligible bad xs

namespace Sweep

variable {deps : α → List α} {eligible bad : α → Bool}

theorem sublist (l : List α) : (sweep deps eligible bad l).Sublist l := by
  induction l generalizing bad with
  | nil => exact .slnil
  | cons x xs ih =>
      rw [sweep]
      split
      · exact ih.cons_cons x
      · exact ih.cons x

/-- Only the eligibility of the listed ids matters. -/
theorem congr {eligible' : α → Bool} {l : List α} (same : ∀ x ∈ l, eligible x = eligible' x) :
    sweep deps eligible bad l = sweep deps eligible' bad l := by
  induction l generalizing bad with
  | nil => rfl
  | cons x xs ih =>
      obtain ⟨here, later⟩ := List.forall_mem_cons.mp same
      rw [sweep, sweep, here, ih later, ih later]

theorem mem_of_mem {l : List α} {x : α} (member : x ∈ sweep deps eligible bad l) : x ∈ l :=
  (sublist l).subset member

/-- An eligible id is dropped exactly when some dependency of it was bad before
the pass, or stands before it and is dropped as well. -/
theorem mem_iff {l : List α} (distinct : l.Nodup) {x : α} (member : x ∈ l) :
    x ∈ sweep deps eligible bad l ↔ eligible x = true ∧ ∃ d ∈ deps x, bad d = true ∨
      (d ∈ sweep deps eligible bad l ∧ l.idxOf d < l.idxOf x) := by
  induction l generalizing bad with
  | nil => simp at member
  | cons y ys ih =>
      obtain ⟨fresh, distinct⟩ := List.nodup_cons.mp distinct
      by_cases same : x = y
      · subst same
        by_cases drop : (eligible x && (deps x).any bad) = true
        · simp only [sweep, if_pos drop, List.mem_cons_self, true_iff]
          obtain ⟨ready, hit⟩ := Bool.and_eq_true_iff.mp drop
          obtain ⟨d, hd, hbad⟩ := List.any_eq_true.mp hit
          exact ⟨ready, d, hd, .inl hbad⟩
        · have absent : x ∉ sweep deps eligible bad ys := fun h => fresh (mem_of_mem h)
          simp only [sweep, if_neg drop, absent, false_iff, List.idxOf_cons_self,
            Nat.not_lt_zero, and_false, or_false]
          rintro ⟨ready, d, hd, hbad⟩
          exact drop (Bool.and_eq_true_iff.mpr ⟨ready, List.any_eq_true.mpr ⟨d, hd, hbad⟩⟩)
      · have later : x ∈ ys := (List.mem_cons.mp member).resolve_left same
        have shift : ∀ d, d ≠ y → ((y :: ys).idxOf d < (y :: ys).idxOf x ↔
            ys.idxOf d < ys.idxOf x) := by
          intro d hd
          rw [List.idxOf_cons_ne _ (Ne.symm hd), List.idxOf_cons_ne _ (Ne.symm same)]
          exact Nat.succ_lt_succ_iff
        by_cases drop : (eligible y && (deps y).any bad) = true
        · simp only [sweep, if_pos drop, List.mem_cons, same, false_or]
          rw [ih distinct later]
          apply and_congr_right
          intro _
          apply exists_congr
          intro d
          apply and_congr_right
          intro _
          by_cases hd : d = y
          · subst hd
            simp [List.idxOf_cons_ne _ (Ne.symm same)]
          · simp [hd, shift d hd]
        · simp only [sweep, if_neg drop]
          rw [ih distinct later]
          apply and_congr_right
          intro _
          apply exists_congr
          intro d
          apply and_congr_right
          intro _
          by_cases hd : d = y
          · subst hd
            have absent : d ∉ sweep deps eligible bad ys := fun h => fresh (mem_of_mem h)
            simp [absent]
          · simp [shift d hd]

/-- When every dropped id satisfies `P`, the pass drops all ids that satisfy `P`
exactly when each of them has a dependency that was bad already or that
satisfies `P` and stands before it. -/
theorem covers_iff {P : α → Prop} {l : List α} (distinct : l.Nodup)
    (ready : ∀ x ∈ l, P x → eligible x = true)
    (sound : ∀ x ∈ sweep deps eligible bad l, P x) :
    (∀ x ∈ l, P x → x ∈ sweep deps eligible bad l) ↔
      ∀ x ∈ l, P x → ∃ d ∈ deps x, bad d = true ∨ (P d ∧ l.idxOf d < l.idxOf x) := by
  constructor
  · intro covers x hx hP
    obtain ⟨_, d, hd, hbad | ⟨dropped, before⟩⟩ :=
      (mem_iff distinct hx).mp (covers x hx hP)
    · exact ⟨d, hd, .inl hbad⟩
    · exact ⟨d, hd, .inr ⟨sound d dropped, before⟩⟩
  · intro reach x hx hP
    induction position : l.idxOf x using Nat.strongRecOn generalizing x with
    | ind n ih =>
        obtain ⟨d, hd, hbad | ⟨hPd, before⟩⟩ := reach x hx hP
        · exact (mem_iff distinct hx).mpr ⟨ready x hx hP, d, hd, .inl hbad⟩
        · have hdl : d ∈ l :=
            List.idxOf_lt_length_iff.mp (Nat.lt_trans before (List.idxOf_lt_length_iff.mpr hx))
          have dropped := ih _ (position ▸ before) d hdl hPd rfl
          exact (mem_iff distinct hx).mpr ⟨ready x hx hP, d, hd, .inr ⟨dropped, before⟩⟩

end Sweep

end MultiAgent
