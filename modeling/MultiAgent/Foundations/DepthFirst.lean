import Mathlib.Data.List.Basic
import Mathlib.Data.List.Chain
import Mathlib.Logic.Function.Basic
import Mathlib.Algebra.BigOperators.Group.List.Basic
import Mathlib.Order.Preorder.Finite
import Mathlib.Algebra.GroupWithZero.Nat

/-!
# Iterative depth-first cycle search

A three-colour search with an explicit stack of frames, each with a cursor into
its node's edge list. The search stops at the first gray edge and reports the
path from there. An id outside the coloured keys reads as black, and an edge
from a node to itself is skipped.

`rank_of_search` is the soundness theorem: a search that reports nothing leaves
a rank that descends along every edge between distinct keys, and
`findCycle_closed` says that what it reports is a cycle. The fuel is a bound on
the number of visits, and `explore_ne_exhausted` shows that it is never the
reason for stopping.
-/

namespace MultiAgent.DepthFirst

inductive Color where
  | white
  | gray
  | black
  deriving DecidableEq, Repr

/-- A node on the stack and the index of its next unvisited edge. -/
structure Frame (α : Type*) where
  id : α
  iter : Nat

structure Search (α : Type*) where
  color : α → Color
  /-- Innermost frame first. -/
  stack : List (Frame α)
  /-- The ids of the frames, outermost first. -/
  path : List α

/-- What one visit, or a whole exploration, ends with. -/
inductive Result (α : Type*) where
  | searching (s : Search α)
  | finished (s : Search α)
  | cycle (path : List α)
  | exhausted

variable {α : Type*} [DecidableEq α]

/-- The reported cycle: the part of the path from the gray node on, closed. -/
def closePath (path : List α) (dep : α) : List α :=
  path.drop (if dep ∈ path then path.idxOf dep else 0) ++ [dep]

/-- One turn of the inner loop. -/
def visit (edges : α → List α) (s : Search α) : Result α :=
  match s.stack with
  | [] => .finished s
  | frame :: below =>
    match (edges frame.id)[frame.iter]? with
    | none =>
      .searching { color := Function.update s.color frame.id .black
                   stack := below
                   path := s.path.dropLast }
    | some dep =>
      let advanced := { frame with iter := frame.iter + 1 } :: below
      if dep = frame.id then .searching { s with stack := advanced }
      else
        match s.color dep with
        | .gray => .cycle (closePath s.path dep)
        | .white =>
          .searching { color := Function.update s.color dep .gray
                       stack := ⟨dep, 0⟩ :: advanced
                       path := s.path ++ [dep] }
        | .black => .searching { s with stack := advanced }

/-- The inner loop: visit until the stack is empty or a cycle is found. -/
def explore (edges : α → List α) : Nat → Search α → Result α
  | 0, _ => .exhausted
  | fuel + 1, s =>
    match visit edges s with
    | .searching t => explore edges fuel t
    | result => result

/-- Open a white root as the only frame. -/
def openRoot (color : α → Color) (root : α) : Search α :=
  { color := Function.update color root .gray, stack := [⟨root, 0⟩], path := [root] }

/-- The outer loop over the roots. -/
def search (edges : α → List α) (fuel : Nat) : List α → (α → Color) → Result α
  | [], color => .finished { color, stack := [], path := [] }
  | root :: roots, color =>
    if color root = .white then
      match explore edges fuel (openRoot color root) with
      | .finished s => search edges fuel roots s.color
      | result => result
    else search edges fuel roots color

/-- Every key starts white; an id that is not a key reads as black. -/
def initialColor (keys : List α) (x : α) : Color := if x ∈ keys then .white else .black

/-- One unit for each edge of a key and one for the key itself. -/
def weight (edges : α → List α) (keys : List α) : Nat :=
  (keys.map fun x => (edges x).length + 1).sum

/-- The first cycle found, if any. -/
def findCycle (edges : α → List α) (keys : List α) : Option (List α) :=
  match search edges (weight edges keys + 1) keys (initialColor keys) with
  | .cycle path => some path
  | _ => none

/-- The three ways in which a visit goes on: the frame is done, its next edge
leads nowhere new, or its next edge opens a white node. -/
theorem visit_cases {edges : α → List α} {s t : Search α}
    (turn : visit edges s = .searching t) :
    ∃ frame below, s.stack = frame :: below ∧
      (((edges frame.id)[frame.iter]? = none ∧
          t = ⟨Function.update s.color frame.id .black, below, s.path.dropLast⟩) ∨
        ∃ dep, (edges frame.id)[frame.iter]? = some dep ∧
          (((dep = frame.id ∨ s.color dep = .black) ∧
              t = ⟨s.color, ⟨frame.id, frame.iter + 1⟩ :: below, s.path⟩) ∨
            (dep ≠ frame.id ∧ s.color dep = .white ∧
              t = ⟨Function.update s.color dep .gray,
                ⟨dep, 0⟩ :: ⟨frame.id, frame.iter + 1⟩ :: below, s.path ++ [dep]⟩))) := by
  cases stack : s.stack with
  | nil => simp [visit, stack] at turn
  | cons frame below =>
      refine ⟨frame, below, rfl, ?_⟩
      cases edge : (edges frame.id)[frame.iter]? with
      | none =>
          simp only [visit, stack, edge, Result.searching.injEq] at turn
          exact .inl ⟨rfl, turn.symm⟩
      | some dep =>
          refine .inr ⟨dep, rfl, ?_⟩
          by_cases self : dep = frame.id
          · simp only [visit, stack, edge, if_pos self, Result.searching.injEq] at turn
            exact .inl ⟨.inl self, turn.symm⟩
          · simp only [visit, stack, edge, if_neg self] at turn
            cases shade : s.color dep with
            | white =>
                simp only [shade, Result.searching.injEq] at turn
                exact .inr ⟨self, rfl, turn.symm⟩
            | gray => simp [shade] at turn
            | black =>
                simp only [shade, Result.searching.injEq] at turn
                exact .inl ⟨.inr rfl, turn.symm⟩

/-! ## The fuel is enough -/

/-- Edges still to be looked at, on the stack and below the white keys. -/
def remaining (edges : α → List α) (keys : List α) (s : Search α) : Nat :=
  (s.stack.map fun f => (edges f.id).length - f.iter + 1).sum +
    weight edges (keys.filter fun x => s.color x = .white)

omit [DecidableEq α] in
@[simp] theorem weight_cons (edges : α → List α) (x : α) (keys : List α) :
    weight edges (x :: keys) = (edges x).length + 1 + weight edges keys := by
  simp [weight]

omit [DecidableEq α] in
theorem weight_filter_le (edges : α → List α) (keys : List α) {p q : α → Bool}
    (imp : ∀ x, p x = true → q x = true) :
    weight edges (keys.filter p) ≤ weight edges (keys.filter q) := by
  induction keys with
  | nil => simp
  | cons x xs ih =>
      by_cases hp : p x = true
      · simp [hp, imp x hp, ih]
      · by_cases hq : q x = true
        · simp only [List.filter_cons, hp, hq, weight_cons, if_true]
          exact Nat.le_trans ih (Nat.le_add_left _ _)
        · simp [hp, hq, ih]

/-- Recolouring a white key takes its weight out of the white keys. -/
theorem weight_filter_update (edges : α → List α) {keys : List α} {color : α → Color} {x : α}
    (member : x ∈ keys) (white : color x = .white) {c : Color} (other : c ≠ .white) :
    weight edges (keys.filter fun y => decide (Function.update color x c y = .white)) +
        ((edges x).length + 1) ≤
      weight edges (keys.filter fun y => decide (color y = .white)) := by
  induction keys with
  | nil => simp at member
  | cons y ys ih =>
      by_cases same : y = x
      · subst same
        have rest := weight_filter_le edges ys
          (p := fun z => decide (Function.update color y c z = .white))
          (q := fun z => decide (color z = .white)) (by
            intro z hz
            by_cases hzy : z = y
            · subst hzy
              simp [other] at hz
            · simpa [hzy] using hz)
        simp only [List.filter_cons, Function.update_self, other, white, decide_true,
          decide_false, if_true, weight_cons]
        simpa [Nat.add_comm] using rest
      · have tail := ih ((List.mem_cons.mp member).resolve_left (Ne.symm same))
        by_cases hy : color y = .white
        · simp only [List.filter_cons, Function.update_of_ne same, hy, decide_true, if_true,
            weight_cons]
          omega
        · simpa [List.filter_cons, Function.update_of_ne same, hy] using tail

/-- White ids are keys, throughout a search. -/
def WhiteKeys (keys : List α) (color : α → Color) : Prop :=
  ∀ x, color x = .white → x ∈ keys

theorem WhiteKeys.update {keys : List α} {color : α → Color} (h : WhiteKeys keys color) (x : α)
    {c : Color} (other : c ≠ .white) : WhiteKeys keys (Function.update color x c) := by
  intro y hy
  by_cases same : y = x
  · subst same
    exact absurd (by simpa using hy) other
  · exact h y (by simpa [same] using hy)

/-- Every visit that goes on uses up one unit of the remaining work. -/
theorem visit_descends {edges : α → List α} {keys : List α} {s t : Search α}
    (keyed : WhiteKeys keys s.color) (turn : visit edges s = .searching t) :
    WhiteKeys keys t.color ∧ remaining edges keys t < remaining edges keys s := by
  obtain ⟨frame, below, stack, ⟨edge, rfl⟩ | ⟨dep, edge, ⟨-, rfl⟩ | ⟨-, white, rfl⟩⟩⟩ :=
    visit_cases turn
  · refine ⟨keyed.update _ (by decide), ?_⟩
    have fewer := weight_filter_le edges keys
      (p := fun x => decide (Function.update s.color frame.id .black x = .white))
      (q := fun x => decide (s.color x = .white)) (by
        intro x hx
        by_cases same : x = frame.id <;> simp_all)
    simp only [remaining, stack, List.map_cons, List.sum_cons]
    omega
  · have inside := (List.getElem?_eq_some_iff.mp edge).1
    refine ⟨keyed, ?_⟩
    simp only [remaining, stack, List.map_cons, List.sum_cons]
    omega
  · have inside := (List.getElem?_eq_some_iff.mp edge).1
    refine ⟨keyed.update _ (by decide), ?_⟩
    have fewer := weight_filter_update edges (keyed dep white) white
      (c := .gray) (by decide)
    simp only [remaining, stack, List.map_cons, List.sum_cons]
    omega

theorem explore_ne_exhausted {edges : α → List α} {keys : List α} {fuel : Nat} {s : Search α}
    (keyed : WhiteKeys keys s.color) (enough : remaining edges keys s < fuel) :
    explore edges fuel s ≠ .exhausted := by
  induction fuel generalizing s with
  | zero => omega
  | succ fuel ih =>
      rw [explore]
      cases turn : visit edges s with
      | searching t =>
          obtain ⟨keyed', drop⟩ := visit_descends keyed turn
          exact ih keyed' (by omega)
      | finished t => simp
      | cycle path => simp
      | exhausted =>
          rw [visit] at turn
          repeat' split at turn
          all_goals simp at turn

/-! ## What a search that finds nothing has established -/

/-- The frames of a search in progress, each with the id of the frame above it:
the edges before a frame's cursor lead back to itself, to a black node, or to
the frame above, and the ids on the stack are gray and distinct. -/
def Frames (edges : α → List α) (color : α → Color) : Option α → List (Frame α) → Prop
  | _, [] => True
  | above, f :: below =>
    color f.id = .gray ∧ f.id ∉ below.map Frame.id ∧
      (∀ i d, i < f.iter → (edges f.id)[i]? = some d →
        d = f.id ∨ color d = .black ∨ some d = above) ∧
      Frames edges color (some f.id) below

/-- The ranks given so far, all below `bound`, descend along the edges of the
black keys, which lead to black nodes only. -/
structure Ranked (edges : α → List α) (keys : List α) (color : α → Color) (rank : α → Nat)
    (bound : Nat) : Prop where
  below : ∀ x ∈ keys, color x = .black → rank x < bound
  closed : ∀ x ∈ keys, color x = .black → ∀ d ∈ edges x, d = x ∨ color d = .black
  descends : ∀ x ∈ keys, color x = .black → ∀ d ∈ edges x, d ∈ keys → d = x ∨ rank d < rank x

/-- The invariant of the inner loop. -/
structure Invariant (edges : α → List α) (keys : List α) (s : Search α) : Prop where
  keyed : WhiteKeys keys s.color
  frames : Frames edges s.color none s.stack
  gray : ∀ x, s.color x = .gray → x ∈ s.stack.map Frame.id
  ranked : ∃ rank bound, Ranked edges keys s.color rank bound

omit [DecidableEq α] in
/-- Frames survive a recolouring that keeps the stack gray and black nodes
black, provided that the node above stays above or has turned black. -/
theorem Frames.recolor {edges : α → List α} {color color' : α → Color} {above above' : Option α}
    {stack : List (Frame α)} (h : Frames edges color above stack)
    (gray : ∀ f ∈ stack, color' f.id = .gray) (black : ∀ d, color d = .black → color' d = .black)
    (top : ∀ d, some d = above → color' d = .black ∨ some d = above') :
    Frames edges color' above' stack := by
  induction stack generalizing above above' with
  | nil => trivial
  | cons f below ih =>
      obtain ⟨_, fresh, seen, rest⟩ := h
      refine ⟨gray f (by simp), fresh, ?_, ?_⟩
      · intro i d hi hd
        rcases seen i d hi hd with self | dark | above
        · exact .inl self
        · exact .inr (.inl (black d dark))
        · exact .inr (top d above)
      · exact ih rest (fun g hg => gray g (by simp [hg])) (fun d hd => .inr hd)

omit [DecidableEq α] in
theorem Frames.gray {edges : α → List α} {color : α → Color} {above : Option α}
    {stack : List (Frame α)} (h : Frames edges color above stack) :
    ∀ f ∈ stack, color f.id = .gray := by
  induction stack generalizing above with
  | nil => simp
  | cons f below ih =>
      intro g hg
      rcases List.mem_cons.mp hg with rfl | hg
      · exact h.1
      · exact ih h.2.2.2 g hg

/-- A node turned black once all its edges lead to itself or to black nodes
takes the next rank. -/
theorem Ranked.close {edges : α → List α} {keys : List α} {color : α → Color} {rank : α → Nat}
    {bound : Nat} (h : Ranked edges keys color rank bound) {x : α} (gray : color x = .gray)
    (done : ∀ d ∈ edges x, d = x ∨ color d = .black) :
    Ranked edges keys (Function.update color x .black) (Function.update rank x bound)
      (bound + 1) := by
  have dark : ∀ d, color d = .black → Function.update color x .black d = .black := by
    intro d hd
    by_cases same : d = x <;> simp [same, hd]
  have old : ∀ d, d ≠ x → Function.update color x .black d = .black → color d = .black := by
    intro d hd hb
    simpa [hd] using hb
  have apart : ∀ d, color d = .black → d ≠ x := by
    rintro d hd rfl
    simp [gray] at hd
  constructor
  · intro y hy hb
    by_cases same : y = x
    · simp [same]
    · have := h.below y hy (old y same hb)
      simp only [Function.update_of_ne same]
      omega
  · intro y hy hb d hd
    by_cases same : y = x
    · subst same
      exact (done d hd).imp_right (dark d)
    · exact (h.closed y hy (old y same hb) d hd).imp_right (dark d)
  · intro y hy hb d hd hdk
    by_cases same : y = x
    · subst same
      apply (done d hd).imp_right
      intro hdb
      simpa [apart d hdb] using h.below d hdk hdb
    · rcases h.closed y hy (old y same hb) d hd with self | hdb
      · exact .inl self
      · apply (h.descends y hy (old y same hb) d hd hdk).imp_right
        intro lower
        simpa [apart d hdb, same] using lower

/-- Turning a white node gray changes nothing about the black ones. -/
theorem Ranked.open {edges : α → List α} {keys : List α} {color : α → Color} {rank : α → Nat}
    {bound : Nat} (h : Ranked edges keys color rank bound) {x : α} (white : color x = .white) :
    Ranked edges keys (Function.update color x .gray) rank bound := by
  have iff : ∀ d, Function.update color x .gray d = .black ↔ color d = .black := by
    intro d
    by_cases same : d = x <;> simp [same, white]
  constructor
  · intro y hy hb
    exact h.below y hy ((iff y).mp hb)
  · intro y hy hb d hd
    exact (h.closed y hy ((iff y).mp hb) d hd).imp_right (iff d).mpr
  · intro y hy hb
    exact h.descends y hy ((iff y).mp hb)

omit [DecidableEq α] in
/-- The cursor moves past one more edge, which leads to the frame itself, to a
black node, or to the frame about to be pushed. -/
theorem seen_succ {edges : α → List α} {color color' : α → Color} {above : Option α}
    {frame : Frame α} {dep : α}
    (seen : ∀ i d, i < frame.iter → (edges frame.id)[i]? = some d →
      d = frame.id ∨ color d = .black ∨ some d = none)
    (edge : (edges frame.id)[frame.iter]? = some dep)
    (black : ∀ d, color d = .black → color' d = .black)
    (next : dep = frame.id ∨ color' dep = .black ∨ some dep = above) :
    ∀ i d, i < frame.iter + 1 → (edges frame.id)[i]? = some d →
      d = frame.id ∨ color' d = .black ∨ some d = above := by
  intro i d hi hd
  rcases Nat.lt_succ_iff_lt_or_eq.mp hi with earlier | rfl
  · rcases seen i d earlier hd with self | dark | none
    · exact .inl self
    · exact .inr (.inl (black d dark))
    · simp at none
  · rw [edge] at hd
    cases hd
    exact next

section Moves

variable {edges : α → List α} {keys : List α} {s : Search α} {frame : Frame α}
  {below : List (Frame α)}

/-- A frame whose edges are all behind the cursor is popped, and its node turns
black. -/
theorem Invariant.close (inv : Invariant edges keys s) (stack : s.stack = frame :: below)
    (exhausted : (edges frame.id)[frame.iter]? = none) :
    Invariant edges keys
      ⟨Function.update s.color frame.id .black, below, s.path.dropLast⟩ := by
  obtain ⟨rank, bound, ranked⟩ := inv.ranked
  have frames := inv.frames
  have grays := inv.gray
  rw [stack] at frames grays
  obtain ⟨gray, fresh, seen, rest⟩ := frames
  have done : ∀ d ∈ edges frame.id, d = frame.id ∨ s.color d = .black := by
    intro d hd
    obtain ⟨i, hi, rfl⟩ := List.mem_iff_getElem.mp hd
    have inside := List.getElem?_eq_none_iff.mp exhausted
    rcases seen i _ (by omega) (List.getElem?_eq_getElem hi) with self | black | none
    · exact .inl self
    · exact .inr black
    · simp at none
  refine ⟨inv.keyed.update _ (by decide), ?_, ?_, _, _, ranked.close gray done⟩
  · refine rest.recolor ?_ ?_ ?_
    · intro g hg
      have apart : g.id ≠ frame.id := fun same =>
        fresh (List.mem_map.mpr ⟨g, hg, same⟩)
      simpa [apart] using rest.gray g hg
    · intro d hd
      by_cases same : d = frame.id <;> simp [same, hd]
    · intro d hd
      cases hd
      exact .inl (by simp)
  · intro x hx
    by_cases same : x = frame.id
    · simp [same] at hx
    · exact (List.mem_cons.mp (grays x (by simpa [same] using hx))).resolve_left same

omit [DecidableEq α] in
/-- The cursor moves past an edge that leads nowhere new. -/
theorem Invariant.skip (inv : Invariant edges keys s) (stack : s.stack = frame :: below)
    {dep : α} (edge : (edges frame.id)[frame.iter]? = some dep)
    (known : dep = frame.id ∨ s.color dep = .black) :
    Invariant edges keys ⟨s.color, ⟨frame.id, frame.iter + 1⟩ :: below, s.path⟩ := by
  have frames := inv.frames
  have grays := inv.gray
  rw [stack] at frames grays
  obtain ⟨gray, fresh, seen, rest⟩ := frames
  refine ⟨inv.keyed, ⟨gray, fresh, ?_, rest⟩, grays, inv.ranked⟩
  exact seen_succ seen edge (fun _ dark => dark) (known.imp_right .inl)

/-- A white node is pushed, and turns gray. -/
theorem Invariant.open (inv : Invariant edges keys s) (stack : s.stack = frame :: below)
    {dep : α} (edge : (edges frame.id)[frame.iter]? = some dep) (white : s.color dep = .white) :
    Invariant edges keys ⟨Function.update s.color dep .gray,
      ⟨dep, 0⟩ :: ⟨frame.id, frame.iter + 1⟩ :: below, s.path ++ [dep]⟩ := by
  obtain ⟨rank, bound, ranked⟩ := inv.ranked
  have frames := inv.frames
  have grays := inv.gray
  rw [stack] at frames grays
  have shaded := frames.gray
  obtain ⟨gray, fresh, seen, rest⟩ := frames
  have dark : ∀ d, s.color d = .black → Function.update s.color dep .gray d = .black := by
    intro d hd
    have apart : d ≠ dep := by
      rintro rfl
      simp [white] at hd
    simpa [apart] using hd
  have keep : ∀ x, s.color x = .gray → Function.update s.color dep .gray x = .gray := by
    intro x hx
    by_cases same : x = dep <;> simp [same, hx]
  refine ⟨inv.keyed.update _ (by decide),
    ⟨by simp, ?_, by simp, keep _ gray, fresh, ?_, ?_⟩, ?_, rank, bound, ranked.open white⟩
  · intro pushed
    have pushed : dep ∈ (frame :: below).map Frame.id := pushed
    obtain ⟨f, hf, same⟩ := List.mem_map.mp pushed
    have := shaded f hf
    simp [same, white] at this
  · exact seen_succ seen edge dark (.inr (.inr rfl))
  · exact rest.recolor (fun g hg => keep _ (rest.gray g hg)) dark (fun d hd => .inr hd)
  · intro x hx
    by_cases same : x = dep
    · simp [same]
    · have := grays x (by simpa [same] using hx)
      simp only [List.map_cons, List.mem_cons] at this ⊢
      exact .inr this

end Moves

theorem Invariant.visit {edges : α → List α} {keys : List α} {s t : Search α}
    (inv : Invariant edges keys s) (turn : visit edges s = .searching t) :
    Invariant edges keys t := by
  obtain ⟨frame, below, stack, ⟨exhausted, rfl⟩ | ⟨dep, edge, ⟨known, rfl⟩ | ⟨-, white, rfl⟩⟩⟩ :=
    visit_cases turn
  · exact inv.close stack exhausted
  · exact inv.skip stack edge known
  · exact inv.open stack edge white

theorem visit_finished {edges : α → List α} {s t : Search α}
    (turn : DepthFirst.visit edges s = .finished t) : t = s ∧ s.stack = [] := by
  cases stack : s.stack with
  | nil =>
      simp only [DepthFirst.visit, stack, Result.finished.injEq] at turn
      exact ⟨turn.symm, rfl⟩
  | cons frame below =>
      simp only [DepthFirst.visit, stack] at turn
      repeat' split at turn
      all_goals simp at turn

/-- A visit never turns a node white. -/
theorem visit_keeps_colored {edges : α → List α} {s t : Search α}
    (turn : DepthFirst.visit edges s = .searching t) {x : α} (colored : s.color x ≠ .white) :
    t.color x ≠ .white := by
  obtain ⟨frame, below, -, ⟨-, rfl⟩ | ⟨dep, -, ⟨-, rfl⟩ | ⟨-, -, rfl⟩⟩⟩ := visit_cases turn
  · by_cases same : x = frame.id <;> simp [same, colored]
  · exact colored
  · by_cases same : x = dep <;> simp [same, colored]

theorem explore_ne_searching {edges : α → List α} (fuel : Nat) (s t : Search α) :
    explore edges fuel s ≠ .searching t := by
  induction fuel generalizing s with
  | zero => simp [explore]
  | succ fuel ih =>
      rw [explore]
      cases DepthFirst.visit edges s <;> simp [ih]

/-- A finished exploration keeps the invariant and leaves the stack empty. -/
theorem Invariant.explore {edges : α → List α} {keys : List α} {fuel : Nat} {s t : Search α}
    (inv : Invariant edges keys s) (ends : explore edges fuel s = .finished t) :
    Invariant edges keys t ∧ t.stack = [] ∧
      ∀ x, s.color x ≠ .white → t.color x ≠ .white := by
  induction fuel generalizing s with
  | zero => simp [DepthFirst.explore] at ends
  | succ fuel ih =>
      rw [DepthFirst.explore] at ends
      cases turn : DepthFirst.visit edges s with
      | searching u =>
          simp only [turn] at ends
          obtain ⟨inv', empty, colored⟩ := ih (inv.visit turn) ends
          exact ⟨inv', empty, fun x hx => colored x (visit_keeps_colored turn hx)⟩
      | finished u =>
          obtain ⟨rfl, empty⟩ := visit_finished turn
          simp only [turn, Result.finished.injEq] at ends
          subst ends
          exact ⟨inv, empty, fun _ h => h⟩
      | cycle path => simp [turn] at ends
      | exhausted => simp [turn] at ends

/-! ## What a search reports -/

section Walk

open Relation

variable {edges : α → List α}

/-- Each element of the path has an edge to the next one, and the path ends where it began. -/
structure ClosedWalk (edges : α → List α) (path : List α) : Prop where
  long : 2 ≤ path.length
  closed : path.head? = path.getLast?
  chain : path.IsChain fun x y => y ∈ edges x

/-- Some node is reached from itself along the edges. -/
def Cyclic (edges : α → List α) : Prop := ∃ x, TransGen (fun x y => y ∈ edges x) x x

omit [DecidableEq α] in
theorem ClosedWalk.ne_nil {path : List α} (walk : ClosedWalk edges path) : path ≠ [] := by
  rintro rfl
  exact absurd walk.long (by simp)

omit [DecidableEq α] in
theorem ClosedWalk.cyclic {path : List α} (walk : ClosedWalk edges path) : Cyclic edges := by
  obtain ⟨long, closed, chain⟩ := walk
  match path with
  | [] => simp at long
  | [x] => simp at long
  | x :: y :: rest =>
      obtain ⟨edge, chain⟩ := List.isChain_cons_cons.mp chain
      have onward := List.relationReflTransGen_of_exists_isChain _ chain (List.cons_ne_nil _ _)
      have last : (y :: rest).getLast (List.cons_ne_nil _ _) = x := by
        rw [List.head?_cons, List.getLast?_cons_cons,
          List.getLast?_eq_getLast_of_ne_nil (List.cons_ne_nil _ _)] at closed
        exact (Option.some.inj closed).symm
      rw [last, List.head_cons] at onward
      exact ⟨x, TransGen.head' edge onward⟩

omit [DecidableEq α] in
/-- Ranks that descend along the edges rule a cycle out. -/
theorem not_cyclic_of_rank {rank : α → Nat} (descends : ∀ x, ∀ d ∈ edges x, rank d < rank x) :
    ¬ Cyclic edges := by
  rintro ⟨x, cycle⟩
  have falls : ∀ {a b}, TransGen (fun x y => y ∈ edges x) a b → rank b < rank a := by
    intro a b path
    induction path with
    | single edge => exact descends a _ edge
    | tail _ edge ih => exact (descends _ _ edge).trans ih
  exact Nat.lt_irrefl _ (falls cycle)

omit [DecidableEq α] in
/-- From a finite set in which every node has an edge to another one of it, every walk comes
to a cycle. -/
theorem exists_cycle_of_serial {nodes : Set α} (finite : nodes.Finite)
    (serial : ∀ x ∈ nodes, ∃ d ∈ nodes, d ∈ edges x) {x : α} (member : x ∈ nodes) :
    ∃ c, ReflTransGen (fun x d => d ∈ edges x) x c ∧ TransGen (fun x d => d ∈ edges x) c c := by
  have : Nonempty α := ⟨x⟩
  choose! next inside edge using serial
  have stays : ∀ n, next^[n] x ∈ nodes := by
    intro n
    induction n with
    | zero => exact member
    | succ n ih =>
        rw [Function.iterate_succ_apply']
        exact inside _ ih
  have walk : ∀ m k, ReflTransGen (fun x d => d ∈ edges x) (next^[m] x) (next^[m + k] x) := by
    intro m k
    induction k with
    | zero => exact .refl
    | succ k ih =>
        rw [← Nat.add_assoc, Function.iterate_succ_apply']
        exact ih.tail (edge _ (stays _))
  -- The walk meets one of the finitely many nodes twice.
  obtain ⟨m, n, less, again⟩ := Set.Finite.exists_lt_map_eq_of_forall_mem stays finite
  obtain ⟨k, rfl⟩ := Nat.exists_eq_add_of_lt less
  have start := walk 0 m
  have around := walk m k
  rw [Nat.zero_add] at start
  refine ⟨next^[m] x, start, ?_⟩
  have last := edge _ (stays (m + k))
  rw [← Function.iterate_succ_apply' next, ← again] at last
  exact .tail' around last

/-- The path of a search in progress lists the stack from the outside in, and leads along
edges. -/
structure Threaded (edges : α → List α) (s : Search α) : Prop where
  path : s.path = (s.stack.map Frame.id).reverse
  chain : s.path.IsChain fun x y => y ∈ edges x

omit [DecidableEq α] in
/-- The path ends at the innermost frame. -/
theorem Threaded.last {s : Search α} {frame : Frame α} {below : List (Frame α)}
    (threaded : Threaded edges s) (stack : s.stack = frame :: below) :
    s.path.getLast? = some frame.id := by
  simp [threaded.path, stack]

theorem Threaded.openRoot (color : α → Color) (root : α) :
    Threaded edges (openRoot color root) := ⟨rfl, List.isChain_singleton _⟩

omit [DecidableEq α] in
theorem isChain_append_singleton {path : List α} {x dep : α}
    (chain : path.IsChain fun x y => y ∈ edges x) (last : path.getLast? = some x)
    (edge : dep ∈ edges x) : (path ++ [dep]).IsChain fun x y => y ∈ edges x := by
  refine chain.append (List.isChain_singleton _) ?_
  intro a here b next
  rw [last, Option.mem_some_iff] at here
  rw [List.head?_cons, Option.mem_some_iff] at next
  rwa [← here, ← next]

theorem Threaded.visit {s t : Search α} (threaded : Threaded edges s)
    (turn : visit edges s = .searching t) : Threaded edges t := by
  obtain ⟨frame, below, stack, ⟨-, rfl⟩ | ⟨dep, edge, ⟨-, rfl⟩ | ⟨-, -, rfl⟩⟩⟩ :=
    visit_cases turn
  · refine ⟨?_, threaded.chain.dropLast⟩
    simp [threaded.path, stack]
  · refine ⟨?_, threaded.chain⟩
    simp [threaded.path, stack]
  · refine ⟨?_, ?_⟩
    · simp [threaded.path, stack]
    · exact isChain_append_singleton threaded.chain (threaded.last stack)
        (List.mem_of_getElem? edge)

/-- A search stops at an edge from the innermost frame to another gray node. -/
theorem visit_cycle {s : Search α} {path : List α} (turn : visit edges s = .cycle path) :
    ∃ frame below dep, s.stack = frame :: below ∧ dep ∈ edges frame.id ∧ dep ≠ frame.id ∧
      s.color dep = .gray ∧ path = closePath s.path dep := by
  cases stack : s.stack with
  | nil => simp [DepthFirst.visit, stack] at turn
  | cons frame below =>
      cases edge : (edges frame.id)[frame.iter]? with
      | none => simp [DepthFirst.visit, stack, edge] at turn
      | some dep =>
          by_cases self : dep = frame.id
          · simp [DepthFirst.visit, stack, edge, if_pos self] at turn
          · simp only [DepthFirst.visit, stack, edge, if_neg self] at turn
            cases shade : s.color dep with
            | white => simp [shade] at turn
            | black => simp [shade] at turn
            | gray =>
                simp only [shade, Result.cycle.injEq] at turn
                exact ⟨frame, below, dep, rfl, List.mem_of_getElem? edge, self, shade, turn.symm⟩

theorem Threaded.closedWalk {keys : List α} {s : Search α} {path : List α}
    (threaded : Threaded edges s) (inv : Invariant edges keys s)
    (turn : DepthFirst.visit edges s = .cycle path) : ClosedWalk edges path := by
  obtain ⟨frame, below, dep, stack, edge, other, gray, rfl⟩ := visit_cycle turn
  have walked : dep ∈ s.path := by
    rw [threaded.path, List.mem_reverse]
    exact inv.gray dep gray
  have inside : s.path.idxOf dep < s.path.length := List.idxOf_lt_length_iff.mpr walked
  have split : s.path.drop (s.path.idxOf dep) = dep :: s.path.drop (s.path.idxOf dep + 1) := by
    rw [List.drop_eq_getElem_cons inside, List.getElem_idxOf inside]
  have last : (s.path.drop (s.path.idxOf dep)).getLast? = some frame.id := by
    rw [List.getLast?_drop, if_neg (by omega), threaded.last stack]
  rw [closePath, if_pos walked]
  refine ⟨?_, ?_, ?_⟩
  · rw [split, List.length_append, List.length_cons, List.length_singleton]
    omega
  · rw [split, List.cons_append, List.head?_cons, ← List.cons_append, List.getLast?_append_cons,
      List.getLast?_singleton]
  · exact isChain_append_singleton (threaded.chain.drop _) last edge

/-- What an exploration reports is a closed walk. -/
theorem explore_cycle {keys : List α} {fuel : Nat} {s : Search α} {path : List α}
    (inv : Invariant edges keys s) (threaded : Threaded edges s)
    (ends : explore edges fuel s = .cycle path) : ClosedWalk edges path := by
  induction fuel generalizing s with
  | zero => cases ends
  | succ fuel ih =>
      cases turn : visit edges s with
      | searching t =>
          exact ih (inv.visit turn) (threaded.visit turn) (by simpa only [explore, turn] using ends)
      | cycle found =>
          simp only [explore, turn, Result.cycle.injEq] at ends
          exact ends ▸ threaded.closedWalk inv turn
      | finished t => simp [explore, turn] at ends
      | exhausted => simp [explore, turn] at ends

end Walk

/-! ## The whole search -/

/-- Between two roots there are no gray nodes. -/
structure Settled (edges : α → List α) (keys : List α) (color : α → Color) : Prop where
  keyed : WhiteKeys keys color
  gray : ∀ x, color x ≠ .gray
  ranked : ∃ rank bound, Ranked edges keys color rank bound

theorem Settled.openRoot {edges : α → List α} {keys : List α} {color : α → Color}
    (h : Settled edges keys color) {root : α} (white : color root = .white) :
    Invariant edges keys (openRoot color root) := by
  obtain ⟨rank, bound, ranked⟩ := h.ranked
  refine ⟨h.keyed.update _ (by decide), ⟨by simp [DepthFirst.openRoot], by simp, by simp,
    trivial⟩, ?_, rank, bound, ranked.open white⟩
  intro x hx
  by_cases same : x = root
  · simp [DepthFirst.openRoot, same]
  · exact absurd (by simpa [DepthFirst.openRoot, same] using hx) (h.gray x)

omit [DecidableEq α] in
theorem Invariant.settled {edges : α → List α} {keys : List α} {s : Search α}
    (inv : Invariant edges keys s) (empty : s.stack = []) : Settled edges keys s.color := by
  refine ⟨inv.keyed, ?_, inv.ranked⟩
  intro x hx
  simpa [empty] using inv.gray x hx

/-- The work ahead of a fresh root is covered by the weight of all keys. -/
theorem remaining_openRoot {edges : α → List α} {keys : List α} {color : α → Color} {root : α}
    (keyed : WhiteKeys keys color) (white : color root = .white) :
    remaining edges keys (openRoot color root) < weight edges keys + 1 := by
  have taken := weight_filter_update edges (keyed root white) white
    (c := .gray) (by decide)
  have all : weight edges (keys.filter fun y => decide (color y = .white)) ≤
      weight edges keys := by
    simpa using weight_filter_le edges keys (p := fun y => decide (color y = .white))
      (q := fun _ => true) (fun _ _ => rfl)
  change ([⟨root, 0⟩].map fun f : Frame α => (edges f.id).length - f.iter + 1).sum +
    weight edges (keys.filter fun y => decide (Function.update color root .gray y = .white)) <
      weight edges keys + 1
  simp only [List.map_cons, List.map_nil, List.sum_cons, List.sum_nil]
  omega

/-- A search over the keys ends with a cycle or colours every root, and then
ranks exist for all black keys. -/
theorem search_ends {edges : α → List α} {keys : List α} (roots : List α) {color : α → Color}
    (settled : Settled edges keys color) :
    (∃ path, search edges (weight edges keys + 1) roots color = .cycle path ∧
        ClosedWalk edges path) ∨
      ∃ s, search edges (weight edges keys + 1) roots color = .finished s ∧
        Settled edges keys s.color ∧ (∀ x, color x ≠ .white → s.color x ≠ .white) ∧
        ∀ x ∈ roots, s.color x ≠ .white := by
  induction roots generalizing color with
  | nil => exact .inr ⟨_, rfl, settled, fun _ h => h, by simp⟩
  | cons root roots ih =>
      by_cases white : color root = .white
      · have fueled : explore edges (weight edges keys + 1) (openRoot color root) ≠ .exhausted :=
          explore_ne_exhausted (settled.openRoot white).keyed
            (remaining_openRoot settled.keyed white)
        cases ends : explore edges (weight edges keys + 1) (openRoot color root) with
        | searching t => exact absurd ends (explore_ne_searching _ _ t)
        | cycle path =>
            have walk := explore_cycle (settled.openRoot white) (.openRoot color root) ends
            exact .inl ⟨path, by simp [search, white, ends], walk⟩
        | exhausted => exact absurd ends fueled
        | finished t =>
            obtain ⟨inv, empty, colored⟩ := (settled.openRoot white).explore ends
            have opened : t.color root ≠ .white := colored root (by simp [openRoot])
            rcases ih (inv.settled empty) with
              ⟨path, found, walk⟩ | ⟨s, found, settled', keep, all⟩
            · exact .inl ⟨path, by simpa [search, white, ends] using found, walk⟩
            · refine .inr ⟨s, by simpa [search, white, ends] using found, settled', ?_, ?_⟩
              · intro x hx
                refine keep x (colored x ?_)
                by_cases same : x = root <;> simp [openRoot, same, hx]
              · intro x hx
                rcases List.mem_cons.mp hx with rfl | hx
                · exact keep x opened
                · exact all x hx
      · rcases ih settled with ⟨path, found, walk⟩ | ⟨s, found, settled', keep, all⟩
        · exact .inl ⟨path, by simpa [search, white] using found, walk⟩
        · refine .inr ⟨s, by simpa [search, white] using found, settled', keep, ?_⟩
          intro x hx
          rcases List.mem_cons.mp hx with rfl | hx
          · exact keep x white
          · exact all x hx

theorem settled_initial (edges : α → List α) (keys : List α) :
    Settled edges keys (initialColor keys) := by
  refine ⟨fun x hx => ?_, fun x => ?_, fun _ => 0, 0, ?_, ?_, ?_⟩
  · simpa [initialColor] using hx
  · rw [initialColor]
    split <;> decide
  all_goals
    intro x hx hb
    simp [initialColor, hx] at hb

/-- A search that reports no cycle leaves a rank that descends along every edge
from a key to another key. -/
theorem rank_of_findCycle_eq_none {edges : α → List α} {keys : List α}
    (none : findCycle edges keys = none) :
    ∃ rank : α → Nat, ∀ x ∈ keys, ∀ d ∈ edges x, d ∈ keys → d = x ∨ rank d < rank x := by
  rcases search_ends keys (settled_initial edges keys) with
    ⟨path, found, -⟩ | ⟨s, found, settled, -, all⟩
  · simp [findCycle, found] at none
  · obtain ⟨rank, bound, ranked⟩ := settled.ranked
    refine ⟨rank, fun x hx => ranked.descends x hx ?_⟩
    have nonwhite := all x hx
    have nongray := settled.gray x
    cases shade : s.color x <;> simp_all

/-- A reported path is a closed walk. -/
theorem findCycle_closed {edges : α → List α} {keys path : List α}
    (found : findCycle edges keys = some path) : ClosedWalk edges path := by
  rcases search_ends keys (settled_initial edges keys) with
    ⟨other, reported, walk⟩ | ⟨s, ends, -⟩
  · simp only [findCycle, reported, Option.some.injEq] at found
    exact found ▸ walk
  · simp [findCycle, ends] at found

/-- On edges that join distinct keys, the search reports a path exactly when there is a cycle. -/
theorem findCycle_isSome_iff {edges : α → List α} {keys : List α}
    (joins : ∀ x, ∀ d ∈ edges x, x ∈ keys ∧ d ∈ keys ∧ d ≠ x) :
    (findCycle edges keys).isSome ↔ Cyclic edges := by
  cases found : findCycle edges keys with
  | some path => simp [(findCycle_closed found).cyclic]
  | none =>
      obtain ⟨rank, descends⟩ := rank_of_findCycle_eq_none found
      have acyclic : ¬ Cyclic edges := by
        refine @not_cyclic_of_rank _ _ rank ?_
        intro x d edge
        obtain ⟨key, target, other⟩ := joins x d edge
        exact (descends x key d edge target).resolve_left other
      simp [acyclic]

end MultiAgent.DepthFirst
