import MultiAgent.Foundations.Machine

/-!
# Events without effect

Events that leave every state as it is can be taken out of a run, and out of what the run shows.
A machine whose steps are whole runs of another machine has only runs of that machine.
-/

namespace MultiAgent.Machine

variable {σ ε φ β γ : Type*} {m : Machine σ ε} {keep : ε → Bool} {s t : σ}
  {es : List ε}

/-- What is not kept changes no state. -/
def Idle (m : Machine σ ε) (keep : ε → Bool) : Prop :=
  ∀ e, keep e = false → ∀ s, m.step s e = some s

theorem run_filter (idle : m.Idle keep) (s : σ) (es : List ε) :
    m.run s (es.filter keep) = m.run s es := by
  induction es generalizing s with
  | nil => rfl
  | cons e es ih =>
      cases kept : keep e with
      | true =>
          rw [List.filter_cons_of_pos kept, run, run]
          exact congrArg _ (funext ih)
      | false =>
          rw [List.filter_cons_of_neg (by rw [kept]; exact Bool.false_ne_true), ih, run,
            idle e kept]
          rfl

/-- What is not kept shows nothing either. -/
theorem log_filter {emit : σ → ε → List β} (idle : m.Idle keep)
    (silent : ∀ e, keep e = false → ∀ s, emit s e = []) (s : σ) (es : List ε) :
    m.log emit s (es.filter keep) = m.log emit s es := by
  induction es generalizing s with
  | nil => rfl
  | cons e es ih =>
      cases kept : keep e with
      | true =>
          rw [List.filter_cons_of_pos kept, log, log]
          congr 1
          cases m.step s e with
          | none => rfl
          | some t => exact ih t
      | false =>
          rw [List.filter_cons_of_neg (by rw [kept]; exact Bool.false_ne_true), ih, log,
            silent e kept, idle e kept]
          rfl

/-- What the steps show is a function of what they show in another way. -/
theorem log_map {emit : σ → ε → List β} {seen : σ → ε → List γ} {f : γ → β}
    (same : ∀ s e, emit s e = (seen s e).map f) (s : σ) (es : List ε) :
    m.log emit s es = (m.log seen s es).map f := by
  induction es generalizing s with
  | nil => rfl
  | cons e es ih =>
      rw [log, log, List.map_append, same]
      congr 1
      cases m.step s e with
      | none => rfl
      | some t => exact ih t

/-- Each step is a run of the other machine, so a run is one, too. -/
theorem run_expand {n : Machine σ φ} {serves : σ → ε → List φ}
    (each : ∀ s e t, m.step s e = some t → n.run s (serves s e) = some t)
    (execution : m.run s es = some t) : n.run s (m.log serves s es) = some t := by
  induction es generalizing s with
  | nil =>
      cases execution
      rfl
  | cons e es ih =>
      obtain ⟨u, first, rest⟩ := m.run_cons_iff.mp execution
      rw [log, first]
      exact n.run_append_iff.mpr ⟨u, each s e u first, ih rest⟩

end MultiAgent.Machine
