import Mathlib.Logic.Relation

/-!
# Event-driven machines and their runs

A machine takes one event at a time; `none` says that the event is not enabled
in that state. A run is a finite list of events, so a statement about every
run is a statement about every interleaving of the events. The rules below are
the only inductions over runs: an invariant, a relation between the two ends
of a run, a simulation by a coarser machine, a condition that every step of the
run meets, a machine of which only some events show, a log of what the steps show, and
a bound on the length of a run whose steps all descend.
-/

namespace MultiAgent

/-- A deterministic machine over states `σ`, driven by events `ε`. -/
structure Machine (σ : Type*) (ε : Type*) where
  step : σ → ε → Option σ

namespace Machine

variable {σ ε : Type*} (m : Machine σ ε)

/-- Take the events in order; the run fails at the first one not enabled. -/
def run : σ → List ε → Option σ
  | s, [] => some s
  | s, e :: es => (m.step s e).bind fun t => run t es

@[simp] theorem run_nil (s : σ) : m.run s [] = some s := rfl

theorem run_cons_iff {s u : σ} {e : ε} {es : List ε} :
    m.run s (e :: es) = some u ↔ ∃ t, m.step s e = some t ∧ m.run t es = some u := by
  simp [run, Option.bind_eq_some_iff]

theorem run_append_iff {s u : σ} {es fs : List ε} :
    m.run s (es ++ fs) = some u ↔ ∃ t, m.run s es = some t ∧ m.run t fs = some u := by
  induction es generalizing s with
  | nil => simp
  | cons e es ih =>
      simp only [List.cons_append, run_cons_iff, ih]
      constructor
      · rintro ⟨t, first, v, middle, last⟩
        exact ⟨v, ⟨t, first, middle⟩, last⟩
      · rintro ⟨v, ⟨t, first, middle⟩, last⟩
        exact ⟨t, first, v, middle, last⟩

variable {m}

/-- What holds at the start and is kept by every step holds at the end. -/
theorem run_invariant {P : σ → Prop} {s t : σ} {es : List ε}
    (keep : ∀ s e t, P s → m.step s e = some t → P t)
    (start : P s) (execution : m.run s es = some t) : P t := by
  induction es generalizing s with
  | nil =>
      cases execution
      exact start
  | cons e es ih =>
      obtain ⟨u, first, rest⟩ := m.run_cons_iff.mp execution
      exact ih (keep s e u start first) rest

/-- A relation between the state and the events so far that every step keeps holds
at the end of a run. -/
theorem run_history {P : σ → List ε → Prop} {s t : σ} {es : List ε}
    (keep : ∀ s past e t, P s past → m.step s e = some t → P t (past ++ [e]))
    (start : P s []) (execution : m.run s es = some t) : P t es := by
  suffices onwards : ∀ past s, P s past → m.run s es = some t → P t (past ++ es) from
    onwards [] s start execution
  clear start execution
  intro past s held execution
  induction es generalizing s past with
  | nil =>
      cases execution
      rw [List.append_nil]
      exact held
  | cons e es ih =>
      obtain ⟨u, first, rest⟩ := m.run_cons_iff.mp execution
      have tail := ih (past ++ [e]) u (keep s past e u held first) rest
      rwa [List.append_assoc] at tail

/-- A reflexive and transitive relation kept by every step, from states that
satisfy the invariant `P`, relates the two ends of a run. -/
theorem run_relation {P : σ → Prop} {R : σ → σ → Prop} {s t : σ} {es : List ε}
    (keep : ∀ s e t, P s → m.step s e = some t → P t)
    (refl : ∀ s, R s s) (trans : ∀ {s t u}, R s t → R t u → R s u)
    (related : ∀ s e t, P s → m.step s e = some t → R s t)
    (start : P s) (execution : m.run s es = some t) : R s t := by
  induction es generalizing s with
  | nil =>
      cases execution
      exact refl _
  | cons e es ih =>
      obtain ⟨u, first, rest⟩ := m.run_cons_iff.mp execution
      exact trans (related s e u start first) (ih (keep s e u start first) rest)

/-- A machine whose steps are steps of a coarser machine, or leave the coarser view as it
is, only has runs of the coarser machine. -/
theorem run_simulation {τ φ : Type*} {n : Machine τ φ} (view : σ → τ) {s t : σ} {es : List ε}
    (simulates : ∀ s e t, m.step s e = some t →
      view t = view s ∨ ∃ f, n.step (view s) f = some (view t))
    (execution : m.run s es = some t) : ∃ fs, n.run (view s) fs = some (view t) := by
  induction es generalizing s with
  | nil =>
      cases execution
      exact ⟨[], rfl⟩
  | cons e es ih =>
      obtain ⟨u, first, rest⟩ := m.run_cons_iff.mp execution
      obtain ⟨fs, later⟩ := ih rest
      obtain same | ⟨f, step⟩ := simulates s e u first
      · exact ⟨fs, same ▸ later⟩
      · exact ⟨f :: fs, n.run_cons_iff.mpr ⟨view u, step, later⟩⟩

/-- A machine that another one is, seen through a view, has the same runs in that view. -/
theorem map_run {τ : Type*} {n : Machine τ ε} (view : σ → τ)
    (same : ∀ s e, (m.step s e).map view = n.step (view s) e) (s : σ) (es : List ε) :
    (m.run s es).map view = n.run (view s) es := by
  induction es generalizing s with
  | nil => rfl
  | cons e es ih =>
      rw [run, run, ← same, Option.map_bind]
      cases m.step s e with
      | none => rfl
      | some t => exact ih t

/-- Every step of the run is taken from a state and with an event that meet
the condition. -/
def Meets (m : Machine σ ε) (ok : σ → ε → Prop) : σ → List ε → Prop
  | _, [] => True
  | s, e :: es => ok s e ∧ ∀ t, m.step s e = some t → Meets m ok t es

/-- A run is replayed to see whether its steps meet a decidable condition. -/
instance decidableMeets {ok : σ → ε → Prop} [∀ s e, Decidable (ok s e)] :
    (s : σ) → (es : List ε) → Decidable (m.Meets ok s es)
  | _, [] => inferInstanceAs (Decidable True)
  | s, e :: es =>
    match taken : m.step s e with
    | none => decidable_of_iff (ok s e) (by simp [Meets, taken])
    | some t =>
      have : Decidable (m.Meets ok t es) := decidableMeets t es
      decidable_of_iff (ok s e ∧ m.Meets ok t es) (by simp [Meets, taken])

/-- A run comes to its end exactly when every event of it is enabled. -/
theorem run_ends_iff {s : σ} {es : List ε} :
    (∃ t, m.run s es = some t) ↔ m.Meets (fun s e => ∃ t, m.step s e = some t) s es := by
  induction es generalizing s with
  | nil => simp [Meets]
  | cons e es ih =>
      simp only [run_cons_iff, Meets]
      constructor
      · rintro ⟨t, u, first, rest⟩
        refine ⟨⟨u, first⟩, fun v other => ih.mp ⟨t, ?_⟩⟩
        rw [first] at other
        cases other
        exact rest
      · rintro ⟨⟨u, first⟩, later⟩
        obtain ⟨t, rest⟩ := ih.mpr (later u first)
        exact ⟨t, u, first, rest⟩

/-- An invariant whose preservation needs a condition on the step holds at the
end of every run that meets the condition throughout. -/
theorem run_invariant_of_meets {P : σ → Prop} {ok : σ → ε → Prop} {s t : σ} {es : List ε}
    (keep : ∀ s e t, P s → ok s e → m.step s e = some t → P t)
    (start : P s) (meets : m.Meets ok s es) (execution : m.run s es = some t) : P t := by
  induction es generalizing s with
  | nil =>
      cases execution
      exact start
  | cons e es ih =>
      obtain ⟨u, first, rest⟩ := m.run_cons_iff.mp execution
      exact ih (keep s e u start meets.1 first) (meets.2 u first) rest

theorem meets_of_forall {ok : σ → ε → Prop} {P : σ → Prop}
    (keep : ∀ s e t, P s → m.step s e = some t → P t) (holds : ∀ s e, P s → ok s e)
    {s : σ} (start : P s) (es : List ε) : m.Meets ok s es := by
  induction es generalizing s with
  | nil => trivial
  | cons e es ih => exact ⟨holds s e start, fun t first => ih (keep s e t start first)⟩

theorem meets_of_mem {ok : σ → ε → Prop} {es : List ε} (holds : ∀ e ∈ es, ∀ s, ok s e) (s : σ) :
    m.Meets ok s es := by
  induction es generalizing s with
  | nil => trivial
  | cons e es ih =>
      obtain ⟨here, later⟩ := List.forall_mem_cons.mp holds
      exact ⟨here s, fun t _ => ih later t⟩

theorem Meets.imp {ok ok' : σ → ε → Prop} {s : σ} {es : List ε} (meets : m.Meets ok s es)
    (weaker : ∀ s e, ok s e → ok' s e) : m.Meets ok' s es := by
  induction es generalizing s with
  | nil => trivial
  | cons e es ih => exact ⟨weaker s e meets.1, fun t first => ih (meets.2 t first)⟩

/-- A run meets two conditions together exactly when it meets each of them. -/
theorem meets_and_iff {ok ok' : σ → ε → Prop} {s : σ} {es : List ε} :
    m.Meets (fun s e => ok s e ∧ ok' s e) s es ↔ m.Meets ok s es ∧ m.Meets ok' s es := by
  constructor
  · intro meets
    exact ⟨meets.imp fun _ _ both => both.1, meets.imp fun _ _ both => both.2⟩
  · rintro ⟨first, second⟩
    induction es generalizing s with
    | nil => trivial
    | cons e es ih =>
        exact ⟨⟨first.1, second.1⟩, fun t step => ih (first.2 t step) (second.2 t step)⟩

/-- Where the first part of a run ends, the rest of it starts. -/
theorem meets_append_iff {ok : σ → ε → Prop} {s t : σ} {es fs : List ε}
    (first : m.run s es = some t) :
    m.Meets ok s (es ++ fs) ↔ m.Meets ok s es ∧ m.Meets ok t fs := by
  induction es generalizing s with
  | nil =>
      cases first
      exact ⟨fun later => ⟨trivial, later⟩, fun both => both.2⟩
  | cons e es ih =>
      obtain ⟨u, taken, rest⟩ := m.run_cons_iff.mp first
      constructor
      · rintro ⟨here, later⟩
        obtain ⟨earlier, last⟩ := (ih rest).mp (later u taken)
        refine ⟨⟨here, fun v again => ?_⟩, last⟩
        rwa [← Option.some.inj (taken.symm.trans again)]
      · rintro ⟨⟨here, later⟩, last⟩
        refine ⟨here, fun v again => ?_⟩
        rw [← Option.some.inj (taken.symm.trans again)]
        exact (ih rest).mpr ⟨later u taken, last⟩

/-- The condition is met wherever the run is cut at a step. -/
theorem meets_iff_split {ok : σ → ε → Prop} {s : σ} {es : List ε} :
    m.Meets ok s es ↔ ∀ fs e gs u, es = fs ++ e :: gs → m.run s fs = some u → ok u e := by
  induction es generalizing s with
  | nil => simp [Meets]
  | cons e es ih =>
      constructor
      · rintro ⟨here, later⟩ fs e' gs u split execution
        cases fs with
        | nil =>
            obtain ⟨rfl, rfl⟩ := List.cons.inj split
            cases execution
            exact here
        | cons f fs =>
            obtain ⟨rfl, rest⟩ := List.cons.inj split
            obtain ⟨v, first, execution⟩ := m.run_cons_iff.mp execution
            exact ih.mp (later v first) fs e' gs u rest execution
      · intro all
        refine ⟨all [] e es s rfl rfl, ?_⟩
        intro t first
        apply ih.mpr
        intro fs e' gs u rest execution
        exact all (e :: fs) e' gs u (by rw [rest]; rfl) (m.run_cons_iff.mpr ⟨t, first, execution⟩)

/-- Conditions that agree on the steps of a domain are met by the same runs
within it. -/
theorem meets_congr {P : σ → Prop} {dom ok ok' : σ → ε → Prop} {s t : σ} {es : List ε}
    (keep : ∀ s e t, P s → dom s e → m.step s e = some t → P t)
    (agree : ∀ s e t, P s → dom s e → m.step s e = some t → (ok s e ↔ ok' s e))
    (start : P s) (within : m.Meets dom s es) (execution : m.run s es = some t) :
    m.Meets ok s es ↔ m.Meets ok' s es := by
  induction es generalizing s with
  | nil => exact Iff.rfl
  | cons e es ih =>
      obtain ⟨u, first, rest⟩ := m.run_cons_iff.mp execution
      refine and_congr (agree s e u start within.1 first) (forall_congr' fun v => forall_congr' ?_)
      intro other
      rw [first] at other
      cases other
      exact ih (keep s e u start within.1 first) (within.2 u first) rest

/-- Suppose that a condition on each step decides whether it enters a bad state,
for the steps of a domain, and that bad states are never left. Then a run within
the domain meets the condition exactly when it ends well. -/
theorem meets_iff {P B : σ → Prop} {dom ok : σ → ε → Prop} {s t : σ} {es : List ε}
    (keep : ∀ s e t, P s → dom s e → m.step s e = some t → P t)
    (stays : ∀ s e t, P s → dom s e → m.step s e = some t → B s → B t)
    (enters : ∀ s e t, P s → dom s e → ¬ B s → m.step s e = some t → (B t ↔ ¬ ok s e))
    (start : P s) (good : ¬ B s) (within : m.Meets dom s es) (execution : m.run s es = some t) :
    m.Meets ok s es ↔ ¬ B t := by
  induction es generalizing s with
  | nil =>
      cases execution
      exact ⟨fun _ => good, fun _ => trivial⟩
  | cons e es ih =>
      obtain ⟨u, first, rest⟩ := m.run_cons_iff.mp execution
      obtain ⟨inside, within⟩ := within
      by_cases entered : B u
      · have broken : ¬ ok s e := (enters s e u start inside good first).mp entered
        have ended : B t := by
          have kept := run_invariant_of_meets (P := fun s => P s ∧ B s)
            (fun s e t inv here step =>
              ⟨keep s e t inv.1 here step, stays s e t inv.1 here step inv.2⟩)
            ⟨keep s e u start inside first, entered⟩ (within u first) rest
          exact kept.2
        exact ⟨fun meets => absurd meets.1 broken, fun well => absurd ended well⟩
      · have met : ok s e := Classical.byContradiction fun broken =>
          entered ((enters s e u start inside good first).mpr broken)
        have tail := ih (keep s e u start inside first) entered (within u first) rest
        refine ⟨fun meets => tail.mp (meets.2 u first), fun well => ⟨met, ?_⟩⟩
        intro v other
        rw [first] at other
        cases other
        exact tail.mpr well

section Hidden

variable {τ φ : Type*} {n : Machine τ φ} (view : σ → τ) (emit : ε → Option φ)

/-- The machine `n` takes the events that `emit` shows of those of `m`, and the other events of
`m` leave its view as it is. -/
def Shows (m : Machine σ ε) (n : Machine τ φ) (view : σ → τ) (emit : ε → Option φ) : Prop :=
  ∀ s e t, m.step s e = some t →
    match emit e with
    | some f => n.step (view s) f = some (view t)
    | none => view t = view s

theorem run_filterMap (shows : Shows m n view emit) {s t : σ} {es : List ε}
    (execution : m.run s es = some t) :
    n.run (view s) (es.filterMap emit) = some (view t) := by
  induction es generalizing s with
  | nil =>
      cases execution
      rfl
  | cons e es ih =>
      obtain ⟨u, first, rest⟩ := m.run_cons_iff.mp execution
      have shown := shows s e u first
      cases emitted : emit e with
      | none =>
          rw [emitted] at shown
          rw [List.filterMap_cons_none emitted, ← shown]
          exact ih rest
      | some f =>
          rw [emitted] at shown
          rw [List.filterMap_cons_some emitted]
          exact n.run_cons_iff.mpr ⟨view u, shown, ih rest⟩

/-- A condition on the shown events is met by both runs or by none. -/
theorem meets_filterMap {ok : τ → φ → Prop} (shows : Shows m n view emit) {s t : σ} {es : List ε}
    (execution : m.run s es = some t) :
    m.Meets (fun s e => ∀ f ∈ emit e, ok (view s) f) s es ↔
      n.Meets ok (view s) (es.filterMap emit) := by
  induction es generalizing s with
  | nil => exact Iff.rfl
  | cons e es ih =>
      obtain ⟨u, first, rest⟩ := m.run_cons_iff.mp execution
      have shown := shows s e u first
      have later : (∀ v, m.step s e = some v →
            m.Meets (fun s e => ∀ f ∈ emit e, ok (view s) f) v es) ↔
          n.Meets ok (view u) (es.filterMap emit) := by
        rw [← ih rest, first]
        simp
      rw [Meets, later]
      cases emitted : emit e with
      | none =>
          rw [emitted] at shown
          rw [List.filterMap_cons_none emitted, shown]
          simp
      | some f =>
          rw [emitted] at shown
          rw [List.filterMap_cons_some emitted, Meets, shown]
          simp

end Hidden

/-- A property that does not hold at the start of a run and holds at its end is
established by one of the steps. -/
theorem run_enters {Q : σ → Prop} {s t : σ} {es : List ε} (execution : m.run s es = some t)
    (before : ¬ Q s) (after : Q t) :
    ∃ es₁ e es₂ u v, es = es₁ ++ e :: es₂ ∧ m.run s es₁ = some u ∧ ¬ Q u ∧
      m.step u e = some v ∧ Q v ∧ m.run v es₂ = some t := by
  induction es generalizing s with
  | nil =>
      cases execution
      exact absurd after before
  | cons e es ih =>
      obtain ⟨u, first, rest⟩ := m.run_cons_iff.mp execution
      by_cases entered : Q u
      · exact ⟨[], e, es, s, u, rfl, rfl, before, first, entered, rest⟩
      · obtain ⟨es₁, e', es₂, v, w, split, prior, out, step, inside, tail⟩ := ih rest entered
        exact ⟨e :: es₁, e', es₂, v, w, by rw [split]; rfl,
          m.run_cons_iff.mpr ⟨u, first, prior⟩, out, step, inside, tail⟩

/-- What the steps of a run show, in order. -/
def log {β : Type*} (m : Machine σ ε) (emit : σ → ε → List β) : σ → List ε → List β
  | _, [] => []
  | s, e :: es => emit s e ++ ((m.step s e).elim [] fun t => log m emit t es)

/-- All of the log is good when each step only shows good things. -/
theorem forall_mem_log_iff {β : Type*} {emit : σ → ε → List β} {good : β → Prop} {s : σ}
    {es : List ε} : (∀ shown ∈ m.log emit s es, good shown) ↔
      m.Meets (fun s e => ∀ shown ∈ emit s e, good shown) s es := by
  induction es generalizing s with
  | nil => simp [log, Meets]
  | cons e es ih =>
      rw [log, Meets, List.forall_mem_append]
      refine and_congr Iff.rfl ?_
      cases first : m.step s e with
      | none => simp
      | some t => simpa using ih

/-- A relation between the state and the log so far that every step of the run
keeps holds at its end. -/
theorem run_log_invariant {β : Type*} {emit : σ → ε → List β} {P : σ → List β → Prop}
    {ok : σ → ε → Prop} {s t : σ} {es : List ε} {l : List β}
    (keep : ∀ s l e t, P s l → ok s e → m.step s e = some t → P t (l ++ emit s e))
    (start : P s l) (meets : m.Meets ok s es) (execution : m.run s es = some t) :
    P t (l ++ m.log emit s es) := by
  induction es generalizing s l with
  | nil =>
      cases execution
      rw [log, List.append_nil]
      exact start
  | cons e es ih =>
      obtain ⟨u, first, rest⟩ := m.run_cons_iff.mp execution
      have tail := ih (keep s l e u start meets.1 first) (meets.2 u first) rest
      rw [log, first, Option.elim_some, ← List.append_assoc]
      exact tail

/-- What a run shows is in the order of its events, where each step shows at most what its event
brings along. -/
theorem log_map_sublist {β γ : Type*} {emit : σ → ε → List β} {f : β → γ} {brings : ε → List γ}
    (each : ∀ s e, ((emit s e).map f).Sublist (brings e)) (s : σ) (es : List ε) :
    ((m.log emit s es).map f).Sublist (es.flatMap brings) := by
  induction es generalizing s with
  | nil => exact List.Sublist.refl _
  | cons e es ih =>
      rw [log, List.map_append, List.flatMap_cons]
      refine (each s e).append ?_
      cases m.step s e with
      | none => exact List.nil_sublist _
      | some t => exact ih t

/-- When every step strictly lowers a natural measure, no run is longer than
the measure of its first state. -/
theorem run_length_le {P : σ → Prop} (μ : σ → Nat)
    (keep : ∀ s e t, P s → m.step s e = some t → P t)
    (descend : ∀ s e t, P s → m.step s e = some t → μ t < μ s)
    {s t : σ} {es : List ε} (start : P s) (execution : m.run s es = some t) :
    es.length + μ t ≤ μ s := by
  induction es generalizing s with
  | nil =>
      cases execution
      simp
  | cons e es ih =>
      obtain ⟨u, first, rest⟩ := m.run_cons_iff.mp execution
      have tail := ih (keep s e u start first) rest
      have drop := descend s e u start first
      simp only [List.length_cons]
      omega

end Machine

end MultiAgent
