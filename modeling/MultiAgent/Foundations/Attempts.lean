import Mathlib.Data.List.Basic

/-!
# Loops that are left early

A `for` loop over a range whose body either leaves the loop with a result or lets it go on
with a note. The loop is what `ends_iff` says: a stretch of turns that go on, in order, and
then the first one that leaves.
-/

namespace MultiAgent.Attempts

/-- What a turn of the body comes to. -/
inductive Turn (δ ρ : Type) where
  | again (note : δ)
  | leave (result : ρ)

variable {δ ρ : Type}

/-- The turns `start`, `start + 1`, ... of which `left` are left: the notes, and the result
unless the range is used up. -/
def turns (body : Nat → Turn δ ρ) (start : Nat) : Nat → List δ × Option ρ
  | 0 => ([], none)
  | left + 1 =>
    match body start with
    | .leave result => ([], some result)
    | .again note =>
      let rest := turns body (start + 1) left
      (note :: rest.1, rest.2)

/-- The turn after the given notes leaves with the result, and is the first to leave. -/
structure Ends (body : Nat → Turn δ ρ) (start : Nat) (notes : List δ) (result : ρ) : Prop where
  again : ∀ (i : Nat) (note : δ), notes[i]? = some note → body (start + i) = .again note
  leave : body (start + notes.length) = .leave result

variable {body : Nat → Turn δ ρ} {start left : Nat} {notes : List δ} {note : δ} {result : ρ}

theorem Ends.nil (leave : body start = .leave result) : Ends body start [] result where
  again _ _ found := nomatch found
  leave := leave

theorem Ends.cons (again : body start = .again note) (rest : Ends body (start + 1) notes result) :
    Ends body start (note :: notes) result where
  again i note' found := by
    cases i with
    | zero =>
        cases found
        exact again
    | succ i =>
        rw [Nat.add_comm i 1, ← Nat.add_assoc]
        exact rest.again i note' found
  leave := by
    rw [List.length_cons, Nat.add_comm notes.length 1, ← Nat.add_assoc]
    exact rest.leave

theorem Ends.tail (ends : Ends body start (note :: notes) result) :
    Ends body (start + 1) notes result where
  again i note' found := by
    rw [Nat.add_assoc, Nat.add_comm 1 i]
    exact ends.again (i + 1) note' found
  leave := by
    rw [Nat.add_assoc, Nat.add_comm 1 notes.length]
    exact ends.leave

theorem Ends.again_at (ends : Ends body 0 notes result) {i : Nat}
    (found : notes[i]? = some note) : body i = .again note := by
  have again := ends.again i note found
  rwa [Nat.zero_add] at again

theorem Ends.leave_at (ends : Ends body 0 notes result) :
    body notes.length = .leave result := by
  have leave := ends.leave
  rwa [Nat.zero_add] at leave

theorem ends_iff :
    turns body start left = (notes, some result) ↔
      notes.length < left ∧ Ends body start notes result := by
  induction left generalizing start notes with
  | zero => simp [turns]
  | succ left ih =>
      rw [turns]
      split
      · rename_i result' leave
        constructor
        · rintro same
          cases same
          exact ⟨Nat.succ_pos left, .nil leave⟩
        · rintro ⟨-, ends⟩
          cases notes with
          | nil =>
              have same := leave.symm.trans ends.leave
              cases same
              rfl
          | cons note rest =>
              have same := leave.symm.trans (ends.again 0 note rfl)
              cases same
      · rename_i note again
        constructor
        · intro same
          obtain ⟨rfl, rest⟩ := Prod.mk.inj same
          obtain ⟨short, ends⟩ := ih.mp (Prod.ext rfl rest)
          exact ⟨Nat.succ_lt_succ short, ends.cons again⟩
        · rintro ⟨short, ends⟩
          cases notes with
          | nil =>
              have same := again.symm.trans ends.leave
              cases same
          | cons note' notes =>
              have same := again.symm.trans (ends.again 0 note' rfl)
              cases same
              have rest := ih.mpr ⟨Nat.lt_of_succ_lt_succ short, ends.tail⟩
              simp only [rest]

/-- A loop whose last turn leaves has a result. -/
theorem exists_ends (last : ∃ result, body (start + left) = .leave result) :
    ∃ notes result, turns body start (left + 1) = (notes, some result) := by
  induction left generalizing start with
  | zero =>
      obtain ⟨result, leave⟩ := last
      exact ⟨[], result, ends_iff.mpr ⟨Nat.one_pos, .nil leave⟩⟩
  | succ left ih =>
      rw [turns]
      split
      · exact ⟨_, _, rfl⟩
      · rename_i note again
        rw [Nat.add_comm left 1, ← Nat.add_assoc] at last
        obtain ⟨notes, result, rest⟩ := ih last
        exact ⟨note :: notes, result, by simp only [rest]⟩

end MultiAgent.Attempts
