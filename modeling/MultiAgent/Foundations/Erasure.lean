import MultiAgent.Foundations.Programs

/-!
# Programs with more state than others

A program over a large state may do, on the part of it that a view shows, just what a program
over that part does. The rules follow the larger program; what it does to the rest of the state
alone is erased.
-/

namespace MultiAgent

variable {ε σ τ α β : Type}

/-- The program on the part of a state that `view` shows and `put` replaces. -/
def zoom (view : τ → σ) (put : σ → τ → τ) (x : EStateM ε σ α) : EStateM ε τ α := fun t =>
  match x (view t) with
  | .ok a s => .ok a (put s t)
  | .error e s => .error e (put s t)

/-- The rest of the state is framed. -/
theorem Triple.zoom {view : τ → σ} {put : σ → τ → τ} {x : EStateM ε σ α} {P : τ → Prop}
    {Q : α → τ → Prop} {E : ε → τ → Prop}
    (each : ∀ t, P t → Triple (fun s => s = view t) x (fun a s => Q a (put s t))
      fun e s => E e (put s t)) : Triple P (zoom view put x) Q E := by
  intro t pre
  have ends := each t pre (view t) rfl
  unfold MultiAgent.zoom
  cases h : x (view t) with
  | ok a s =>
      rw [h] at ends
      exact ends
  | error e s =>
      rw [h] at ends
      exact ends

/-- What does not depend on the part is kept. -/
theorem Triple.zoom_frame {view : τ → σ} {put : σ → τ → τ} {x : EStateM ε σ α} {P : τ → Prop}
    (frame : ∀ s t, P t → P (put s t)) :
    Triple P (MultiAgent.zoom view put x) (fun _ => P) fun _ => P := by
  refine Triple.zoom fun t held s _ => ?_
  cases x s with
  | ok a u => exact frame u t held
  | error e u => exact frame u t held

/-- On what the view shows, the first program does what the second one does. -/
def Erases (view : τ → σ) (y : EStateM ε τ α) (x : EStateM ε σ α) : Prop :=
  ∀ t, match y t with
    | .ok a u => x (view t) = .ok a (view u)
    | .error e u => x (view t) = .error e (view u)

namespace Erases

variable {view : τ → σ} {y : EStateM ε τ α} {x : EStateM ε σ α}

theorem of_ok (erases : Erases view y x) {t u : τ} {a : α} (ends : y t = .ok a u) :
    x (view t) = .ok a (view u) := by
  have same := erases t
  rw [ends] at same
  exact same

theorem of_error (erases : Erases view y x) {t u : τ} {e : ε} (ends : y t = .error e u) :
    x (view t) = .error e (view u) := by
  have same := erases t
  rw [ends] at same
  exact same

theorem pure (a : α) : Erases view (Pure.pure a : EStateM ε τ α) (Pure.pure a) := fun _ => rfl

theorem throw (e : ε) :
    Erases view (MonadExcept.throw e : EStateM ε τ α) (MonadExcept.throw e) := fun _ => rfl

theorem bind {g : α → EStateM ε τ β} {f : α → EStateM ε σ β} (first : Erases view y x)
    (rest : ∀ a, Erases view (g a) (f a)) : Erases view (y >>= g) (x >>= f) := by
  intro t
  change match EStateM.bind y g t with
    | .ok b u => EStateM.bind x f (view t) = .ok b (view u)
    | .error e u => EStateM.bind x f (view t) = .error e (view u)
  unfold EStateM.bind
  cases h : y t with
  | ok a u =>
      rw [first.of_ok h]
      exact rest a u
  | error e u => rw [first.of_error h]

theorem get {g : τ → EStateM ε τ β} {f : σ → EStateM ε σ β}
    (rest : ∀ t, Erases view (g t) (f (view t))) :
    Erases view (MonadState.get >>= g) (MonadState.get >>= f) :=
  fun t => rest t t

/-- The larger program alone reads its state. -/
theorem read {g : τ → EStateM ε τ α} (rest : ∀ t, Erases view (g t) x) :
    Erases view (MonadState.get >>= g) x :=
  fun t => rest t t

theorem assign {g : τ → τ} {f : σ → σ} (same : ∀ t, view (g t) = f (view t)) :
    Erases view (modify g : EStateM ε τ PUnit) (modify f) :=
  fun t => congrArg (EStateM.Result.ok PUnit.unit) (same t).symm

/-- An assignment to the rest of the state. -/
theorem ghost {g : τ → τ} (hidden : ∀ t, view (g t) = view t) (rest : Erases view y x) :
    Erases view (modify g >>= fun _ => y) x := by
  intro t
  have ends := rest (g t)
  rw [hidden] at ends
  exact ends

/-- An assignment to the rest of the state, at the end. -/
theorem ghost_last {y : EStateM ε τ PUnit} {x : EStateM ε σ PUnit} {g : τ → τ}
    (hidden : ∀ t, view (g t) = view t) (first : Erases view y x) :
    Erases view (y >>= fun _ => modify g) x := by
  have last : Erases view (modify g : EStateM ε τ PUnit)
      (Pure.pure PUnit.unit : EStateM ε σ PUnit) :=
    fun t => congrArg (EStateM.Result.ok PUnit.unit) (hidden t).symm
  have erased := first.bind fun _ => last
  rwa [bind_pure_unit] at erased

theorem ite {c : Prop} [Decidable c] {y' : EStateM ε τ α} {x' : EStateM ε σ α}
    (yes : Erases view y x) (no : Erases view y' x') :
    Erases view (if c then y else y') (if c then x else x') := by
  split
  · exact yes
  · exact no

theorem forM {g : β → EStateM ε τ PUnit} {f : β → EStateM ε σ PUnit}
    (each : ∀ b, Erases view (g b) (f b)) (l : List β) :
    Erases view (ForM.forM l g) (ForM.forM l f) := by
  induction l with
  | nil => exact pure _
  | cons b rest ih => exact bind (each b) fun _ => ih

theorem zoom {put : σ → τ → τ} (shows_ : ∀ s t, view (put s t) = s) (x : EStateM ε σ α) :
    Erases view (MultiAgent.zoom view put x) x := by
  intro t
  unfold MultiAgent.zoom
  cases h : x (view t) with
  | ok a s => exact congrArg (EStateM.Result.ok a) (shows_ s t).symm
  | error e s => exact congrArg (EStateM.Result.error e) (shows_ s t).symm

end Erases

end MultiAgent
