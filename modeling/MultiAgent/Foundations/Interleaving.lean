import Mathlib.Data.List.Perm.Basic

/-!
# Interleavings of streams

What is received from several senders: all that each of them sent, each stream in its own
order, the streams mixed in any way. A merge of many streams is a merge of the first with
a merge of the others. Items that carry the name of their sender are told apart again.
-/

namespace MultiAgent

variable {α : Type*}

/-- The third list takes from the first two, from the head of either at each time. -/
inductive Merge : List α → List α → List α → Prop
  | nil : Merge [] [] []
  | fst {a : α} {u v w : List α} : Merge u v w → Merge (a :: u) v (a :: w)
  | snd {a : α} {u v w : List α} : Merge u v w → Merge u (a :: v) (a :: w)

def Interleaving : List (List α) → List α → Prop
  | [], l => l = []
  | stream :: streams, l => ∃ others, Interleaving streams others ∧ Merge stream others l

namespace Merge

variable {u v w : List α} {p : α → Bool}

theorem perm (merge : Merge u v w) : w.Perm (u ++ v) := by
  induction merge with
  | nil => exact .refl _
  | fst _ ih => exact ih.cons _
  | snd _ ih => exact (ih.cons _).trans List.perm_middle.symm

theorem filter (merge : Merge u v w) (p : α → Bool) :
    Merge (u.filter p) (v.filter p) (w.filter p) := by
  induction merge with
  | nil => exact .nil
  | @fst a u v w _ ih =>
      by_cases kept : p a = true
      · rw [List.filter_cons_of_pos kept, List.filter_cons_of_pos kept]
        exact .fst ih
      · rw [List.filter_cons_of_neg kept, List.filter_cons_of_neg kept]
        exact ih
  | @snd a u v w _ ih =>
      by_cases kept : p a = true
      · rw [List.filter_cons_of_pos kept, List.filter_cons_of_pos kept]
        exact .snd ih
      · rw [List.filter_cons_of_neg kept, List.filter_cons_of_neg kept]
        exact ih

theorem eq_of_nil_right (merge : Merge u v w) (empty : v = []) : w = u := by
  induction merge with
  | nil => rfl
  | fst _ ih => rw [ih empty]
  | snd _ _ => cases empty

theorem eq_of_nil_left (merge : Merge u v w) (empty : u = []) : w = v := by
  induction merge with
  | nil => rfl
  | fst _ _ => cases empty
  | snd _ ih => rw [ih empty]

end Merge

namespace Interleaving

variable {streams : List (List α)} {l : List α} {p : α → Bool}

/-- Nothing is lost and nothing comes twice. -/
theorem perm (mixed : Interleaving streams l) : l.Perm streams.flatten := by
  induction streams generalizing l with
  | nil => exact mixed ▸ .refl _
  | cons stream streams ih =>
      obtain ⟨others, rest, merge⟩ := mixed
      exact merge.perm.trans ((ih rest).append_left stream)

theorem filter_eq_nil (mixed : Interleaving streams l)
    (none : ∀ stream ∈ streams, ∀ a ∈ stream, p a = false) : l.filter p = [] := by
  rw [List.filter_eq_nil_iff]
  intro a member
  obtain ⟨stream, sent, inside⟩ := List.mem_flatten.mp (mixed.perm.mem_iff.mp member)
  simp [none stream sent a inside]

/-- The items of one sender, picked out by their name, are its stream. -/
theorem filter_eq (mixed : Interleaving streams l) {i : Nat} {stream : List α}
    (here : streams[i]? = some stream) (own : ∀ a ∈ stream, p a = true)
    (foreign : ∀ j ≠ i, ∀ other, streams[j]? = some other → ∀ a ∈ other, p a = false) :
    l.filter p = stream := by
  induction streams generalizing l i with
  | nil => simp at here
  | cons first streams ih =>
      obtain ⟨others, rest, merge⟩ := mixed
      have parts := merge.filter p
      cases i with
      | zero =>
          obtain rfl : first = stream := by simpa using here
          have apart : others.filter p = [] := rest.filter_eq_nil fun other sent => by
            obtain ⟨j, at_j⟩ := List.mem_iff_getElem?.mp sent
            exact foreign (j + 1) (Nat.succ_ne_zero j) other (by simpa using at_j)
          rw [parts.eq_of_nil_right apart]
          exact List.filter_eq_self.mpr own
      | succ i =>
          have apart : first.filter p = [] := List.filter_eq_nil_iff.mpr fun a inside => by
            simp [foreign 0 (Nat.succ_ne_zero i).symm first (by simp) a inside]
          rw [parts.eq_of_nil_left apart]
          apply ih rest (by simpa using here)
          intro j other second at_j
          exact foreign (j + 1) (by omega) second (by simpa using at_j)

end Interleaving

end MultiAgent
