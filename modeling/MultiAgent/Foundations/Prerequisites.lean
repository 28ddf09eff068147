import Mathlib.Logic.Relation
import Mathlib.Order.WellFounded

/-!
# Work behind prerequisites

A piece of work is done when it passes and everything that it needs is done. Two such worlds
are compared along a map: the one that asks for more gets less done, and where it asks for
nothing that the other one does not ask for, both get the same done.
-/

namespace MultiAgent

open Relation

/-- What is done: what passes behind everything that it needs. -/
def Settles {α : Type*} (needs : α → α → Prop) (passes done : α → Prop) : Prop :=
  ∀ a, done a ↔ passes a ∧ ∀ b, needs a b → done b

/-- Nothing needs itself, not even through infinitely many others. -/
def Founded {α : Type*} (needs : α → α → Prop) : Prop := WellFounded fun b a => needs a b

namespace Founded

variable {α : Type*} {needs : α → α → Prop}

theorem of_rank (rank : α → Nat) (descends : ∀ a b, needs a b → rank b < rank a) :
    Founded needs :=
  Subrelation.wf (fun edge => descends _ _ edge) (measure rank).wf

theorem induction {P : α → Prop} (founded : Founded needs)
    (step : ∀ a, (∀ b, TransGen needs a b → P b) → P a) (a : α) : P a :=
  founded.transGen.induction a fun a ih => step a fun b path => ih b (transGen_swap.mpr path)

end Founded

namespace Settles

variable {α β : Type*} {needs : α → α → Prop} {passes done : α → Prop}
variable {further : β → β → Prop} {passes' done' : β → Prop} {a b : α}

theorem passed (settles : Settles needs passes done) (here : done a) : passes a :=
  ((settles a).mp here).1

theorem below (settles : Settles needs passes done) (path : TransGen needs a b) (here : done a) :
    done b := by
  induction path with
  | single edge => exact ((settles _).mp here).2 _ edge
  | tail _ edge ih => exact ((settles _).mp ih).2 _ edge

/-- Nothing stops among what is closed under `needs` and passes. -/
theorem of_closed {P : α → Prop} (settles : Settles needs passes done) (founded : Founded needs)
    (closed : ∀ a b, P a → needs a b → P b) (pass : ∀ a, P a → passes a) (a : α) (here : P a) :
    done a := by
  induction a using founded.induction with
  | step a ih =>
      refine (settles a).mpr ⟨pass a here, fun b edge => ?_⟩
      exact ih b (.single edge) (closed a b here edge)

variable {φ : β → α}

/-- What is done with more prerequisites is done with fewer. -/
theorem image (settles : Settles needs passes done) (settles' : Settles further passes' done')
    (founded : Founded further) (pass : ∀ b, passes' b → passes (φ b))
    (asked : ∀ b a, passes' b → needs (φ b) a → ∃ c, TransGen further b c ∧ φ c = a) (b : β)
    (here : done' b) : done (φ b) := by
  induction b using founded.induction with
  | step b ih =>
      refine (settles _).mpr ⟨pass b (settles'.passed here), fun a edge => ?_⟩
      obtain ⟨c, path, rfl⟩ := asked b a (settles'.passed here) edge
      exact ih c path (settles'.below path here)

/-- Where nothing more is asked for, nothing is lost. -/
theorem preimage {P : β → Prop} (settles : Settles needs passes done)
    (settles' : Settles further passes' done') (founded : Founded further)
    (closed : ∀ b c, P b → further b c → P c) (pass : ∀ b, P b → passes (φ b) → passes' b)
    (asked : ∀ b c, P b → further b c → TransGen needs (φ b) (φ c)) (b : β) (inside : P b)
    (here : done (φ b)) : done' b := by
  induction b using founded.induction with
  | step b ih =>
      refine (settles' b).mpr ⟨pass b inside (settles.passed here), fun c edge => ?_⟩
      exact ih c (.single edge) (closed b c inside edge)
        (settles.below (asked b c inside edge) here)

end Settles

end MultiAgent
