import Mathlib.Data.List.Basic

/-!
# Sequenced checks

A check returns nothing or stops with an error. A loop of checks passes exactly
when each of them does. A computation that may stop succeeds when its parts do, and
`Yields` says what holds of its result if there is one.
-/

namespace MultiAgent

theorem bind_eq_ok_iff {ε : Type*} {α β : Type} {x : Except ε α} {f : α → Except ε β} {b : β} :
    (x >>= f) = .ok b ↔ ∃ a, x = .ok a ∧ f a = .ok b := by
  cases x with
  | error e => simp [bind, Except.bind]
  | ok a => simp [bind, Except.bind]

theorem bind_eq_error_iff {ε : Type*} {α β : Type} {x : Except ε α} {f : α → Except ε β} {e : ε} :
    (x >>= f) = .error e ↔ x = .error e ∨ ∃ a, x = .ok a ∧ f a = .error e := by
  cases x with
  | error e => simp [bind, Except.bind]
  | ok a => simp [bind, Except.bind]

/-- A computation behind a check runs when the check passes. -/
theorem check_bind_eq_ok_iff {ε β : Type} {check : Except ε Unit} {f : Unit → Except ε β} {b : β} :
    (check >>= f) = .ok b ↔ check = .ok () ∧ f () = .ok b := by
  rw [bind_eq_ok_iff]
  exact ⟨fun ⟨_, first, rest⟩ => ⟨first, rest⟩, fun ⟨first, rest⟩ => ⟨(), first, rest⟩⟩

/-- A check of a condition. -/
def ensure {ε : Type*} (condition : Prop) [Decidable condition] (error : ε) : Except ε Unit :=
  if condition then .ok () else .error error

theorem ensure_eq_ok_iff {ε : Type*} {condition : Prop} [Decidable condition] {error : ε} :
    ensure condition error = .ok () ↔ condition := by
  rw [ensure]
  split <;> simp_all

/-- A loop of checks passes exactly when every check in it passes. -/
theorem forM_eq_ok_iff {ε α : Type} {f : α → Except ε Unit} {l : List α} :
    forM l f = .ok () ↔ ∀ x ∈ l, f x = .ok () := by
  induction l with
  | nil => simp [pure, Except.pure]
  | cons x xs ih =>
      rw [List.forM_cons, bind_eq_ok_iff, List.forall_mem_cons, ← ih]
      constructor
      · rintro ⟨_, first, rest⟩
        exact ⟨first, rest⟩
      · rintro ⟨first, rest⟩
        exact ⟨(), first, rest⟩

section Success

variable {ε α β : Type} {x : Except ε α} {f : α → Except ε β}

theorem isOk_iff : x.isOk ↔ ∃ a, x = .ok a := by
  cases x <;> simp [Except.isOk, Except.toBool]

@[simp] theorem isOk_pure {a : α} : (pure a : Except ε α).isOk = true := rfl

@[simp] theorem isOk_throw {e : ε} : (throw e : Except ε α).isOk = false := rfl

@[simp] theorem isOk_map {g : α → β} : (g <$> x).isOk = x.isOk := by
  cases x <;> rfl

theorem throw_bind {e : ε} : ((throw e : Except ε α) >>= f) = throw e := rfl

theorem ok_bind {a : α} : ((.ok a : Except ε α) >>= f) = f a := rfl

/-- A sequence of computations succeeds when the first one does, and the rest on its result. -/
theorem isOk_bind_iff : (x >>= f).isOk ↔ ∃ a, x = .ok a ∧ (f a).isOk := by
  cases x with
  | error e => simp [bind, Except.bind, Except.isOk, Except.toBool]
  | ok a => simp [bind, Except.bind]

/-- A loop that computes a result for each element succeeds when it does for each of them. -/
theorem isOk_mapM_iff {l : List α} : (l.mapM f).isOk ↔ ∀ a ∈ l, (f a).isOk := by
  induction l with
  | nil => simp
  | cons a rest ih =>
      rw [List.mapM_cons, isOk_bind_iff, List.forall_mem_cons, ← ih]
      simp [isOk_iff]

theorem mem_mapM_iff {l : List α} {results : List β} (computed : l.mapM f = .ok results)
    {b : β} : b ∈ results ↔ ∃ a ∈ l, f a = .ok b := by
  induction l generalizing results with
  | nil =>
      cases computed
      simp
  | cons a rest ih =>
      rw [List.mapM_cons, bind_eq_ok_iff] at computed
      obtain ⟨first, of_first, computed⟩ := computed
      obtain ⟨later, of_later, same⟩ := bind_eq_ok_iff.mp computed
      cases same
      rw [List.mem_cons, ih of_later, List.exists_mem_cons_iff, of_first]
      simp [eq_comm]

/-- Every result of the computation satisfies the condition. -/
def Yields (x : Except ε α) (post : α → Prop) : Prop := ∀ a, x = .ok a → post a

namespace Yields

variable {post : α → Prop} {after : β → Prop}

theorem pure {a : α} (holds : post a) : Yields (pure a : Except ε α) post := by
  intro b same
  cases same
  exact holds

theorem throw {e : ε} : Yields (throw e : Except ε α) post := nofun

theorem bind (rest : ∀ a, x = .ok a → Yields (f a) after) : Yields (x >>= f) after := by
  intro b result
  obtain ⟨a, first, second⟩ := bind_eq_ok_iff.mp result
  exact rest a first b second

theorem ite {c : Prop} [Decidable c] {y : Except ε α} (yes : c → Yields x post)
    (no : ¬ c → Yields y post) : Yields (if c then x else y) post := by
  split
  · exact yes ‹_›
  · exact no ‹_›

end Yields

end Success

end MultiAgent
