import Mathlib.Data.List.Basic

/-!
# Pre- and postconditions of programs that may raise

A program changes a state and ends with a value or by raising; what it did to
the state before it raised is kept. A triple has one postcondition for each of
the two ends. The rules follow the program: one for each way to build one, and
one for a loop over a list, whose invariant knows what is still to come.
-/

namespace MultiAgent

variable {ε σ α β : Type}

/-- From every state with `P`, the program returns with `Q` or raises with `E`. -/
def Triple (P : σ → Prop) (x : EStateM ε σ α) (Q : α → σ → Prop) (E : ε → σ → Prop) : Prop :=
  ∀ s, P s → match x s with
    | .ok a t => Q a t
    | .error e t => E e t

namespace Triple

variable {P P' : σ → Prop} {Q Q' : α → σ → Prop} {E E' : ε → σ → Prop} {x : EStateM ε σ α}

theorem conseq (triple : Triple P x Q E) (pre : ∀ s, P' s → P s) (post : ∀ a s, Q a s → Q' a s)
    (raised : ∀ e s, E e s → E' e s) : Triple P' x Q' E' := by
  intro s hs
  have ends := triple s (pre s hs)
  cases h : x s with
  | ok a t =>
      rw [h] at ends
      exact post a t ends
  | error e t =>
      rw [h] at ends
      exact raised e t ends

theorem imp_post (triple : Triple P x Q E) (post : ∀ a s, Q a s → Q' a s) : Triple P x Q' E :=
  triple.conseq (fun _ h => h) post fun _ _ h => h

theorem imp_raised (triple : Triple P x Q E) (raised : ∀ e s, E e s → E' e s) :
    Triple P x Q E' :=
  triple.conseq (fun _ h => h) (fun _ _ h => h) raised

/-- The program in one state in which it may start. -/
theorem of_entry {s : σ} (triple : Triple P x Q E) (pre : P s) :
    Triple (fun t => t = s) x Q E :=
  triple.conseq (by rintro _ rfl; exact pre) (fun _ _ h => h) fun _ _ h => h

/-- The state before the program, as a ghost. -/
theorem entry (each : ∀ t, P t → Triple (fun s => s = t) x Q E) : Triple P x Q E :=
  fun s hs => each s hs s rfl

/-- A run of the program that returns. -/
theorem of_ok {s t : σ} {a : α} (triple : Triple P x Q E) (pre : P s) (ends : x s = .ok a t) :
    Q a t := by
  have post := triple s pre
  rw [ends] at post
  exact post

/-- A run of the program that raises. -/
theorem of_error {s t : σ} {e : ε} (triple : Triple P x Q E) (pre : P s)
    (ends : x s = .error e t) : E e t := by
  have raised := triple s pre
  rw [ends] at raised
  exact raised

/-- The end of the program, as a ghost. -/
theorem outcome {s : σ} : Triple (fun t => t = s) x (fun a t => x s = .ok a t)
    fun e t => x s = .error e t := by
  rintro _ rfl
  split <;> assumption

theorem and (first : Triple P x Q E) (second : Triple P x Q' E') :
    Triple P x (fun a s => Q a s ∧ Q' a s) fun e s => E e s ∧ E' e s := by
  intro s hs
  have one := first s hs
  have two := second s hs
  cases h : x s with
  | ok a t =>
      rw [h] at one two
      exact ⟨one, two⟩
  | error e t =>
      rw [h] at one two
      exact ⟨one, two⟩

theorem pure {a : α} (post : ∀ s, P s → Q a s) : Triple P (Pure.pure a : EStateM ε σ α) Q E :=
  post

theorem bind {f : α → EStateM ε σ β} {R : α → σ → Prop} {Q : β → σ → Prop}
    (first : Triple P x R E) (rest : ∀ a, Triple (R a) (f a) Q E) : Triple P (x >>= f) Q E := by
  intro s hs
  have ends := first s hs
  change match EStateM.bind x f s with
    | .ok b t => Q b t
    | .error e t => E e t
  rw [EStateM.bind]
  cases h : x s with
  | ok a t =>
      rw [h] at ends
      exact rest a t ends
  | error e t =>
      rw [h] at ends
      exact ends

theorem get_bind {f : σ → EStateM ε σ β} {s : σ} : (MonadState.get >>= f) s = f s s := rfl

/-- Reading the state: the rest may use it as a value. -/
theorem get {f : σ → EStateM ε σ β} {Q : β → σ → Prop}
    (rest : ∀ s, P s → Triple (fun t => t = s) (f s) Q E) :
    Triple P (MonadState.get >>= f) Q E :=
  fun s hs => rest s hs s rfl

/-- An assignment to the state. -/
theorem assign {f : σ → σ} {Q : PUnit → σ → Prop} (post : ∀ s, P s → Q ⟨⟩ (f s)) :
    Triple P (modify f : EStateM ε σ PUnit) Q E :=
  post

theorem throw {e : ε} (post : ∀ s, P s → E e s) :
    Triple P (MonadExcept.throw e : EStateM ε σ α) Q E :=
  post

theorem ite {c : Prop} [Decidable c] {y : EStateM ε σ α} (yes : c → Triple P x Q E)
    (no : ¬ c → Triple P y Q E) : Triple P (if c then x else y) Q E := by
  split
  · exact yes ‹c›
  · exact no ‹¬ c›

/-- The loop over a list: the invariant speaks of what is still to come. -/
theorem forM {I : List β → σ → Prop} {f : β → EStateM ε σ PUnit} (l : List β)
    (body : ∀ b rest, Triple (I (b :: rest)) (f b) (fun _ => I rest) E) :
    Triple (I l) (ForM.forM l f) (fun _ => I []) E := by
  induction l with
  | nil => exact pure fun _ h => h
  | cons b rest ih => exact bind (body b rest) fun _ => ih

end Triple

end MultiAgent
