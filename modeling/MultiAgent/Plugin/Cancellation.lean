import MultiAgent.Foundations.Lineage
import MultiAgent.Foundations.Machine
import Mathlib.Data.List.Basic

/-!
# Cancellation tokens

`CancellationToken` of `context.py`. The tokens of a process are numbered in the order of
their creation, and `parent=` takes a token that exists. Creations and cancels come in any
order; each cancel holds the lock of its token, so it is one event. A token is cancelled with
its ancestors, but the reason it keeps is the first one passed, not the first non-empty one.
-/

namespace MultiAgent.Plugin

structure CancellationToken where
  parent : Option Nat
  cancelled : Bool
  reason : Option String
  deriving DecidableEq

namespace CancellationToken

/-- `reason or None` -/
def nonEmpty (reason : Option String) : Option String := reason.filter (· ≠ "")

/-- The constructor. -/
def new (parent : Option Nat) : CancellationToken := ⟨parent, false, none⟩

def cancel (token : CancellationToken) (reason : Option String) : CancellationToken :=
  if !token.cancelled then { token with cancelled := true, reason } else token

@[simp] theorem cancel_parent (token : CancellationToken) (reason : Option String) :
    (token.cancel reason).parent = token.parent := by
  rw [cancel]
  split <;> rfl

@[simp] theorem cancel_cancelled (token : CancellationToken) (reason : Option String) :
    (token.cancel reason).cancelled = true := by
  rw [cancel]
  cases set : token.cancelled with
  | false => rfl
  | true => exact set

/-- The link `_parent` of the token of a number. -/
def parentIn (all : List CancellationToken) (i : Nat) : Option Nat := all[i]?.bind (·.parent)

theorem parentIn_modify (all : List CancellationToken) (i : Nat) (reason : Option String) :
    parentIn (all.modify i (·.cancel reason)) = parentIn all := by
  funext j
  rw [parentIn, parentIn, List.getElem?_modify]
  cases all[j]? with
  | none => rfl
  | some token =>
      by_cases same : i = j
      · simp [same]
      · simp [same]

theorem parentIn_concat_of_lt {all : List CancellationToken} {i : Nat} (old : i < all.length)
    (token : CancellationToken) : parentIn (all ++ [token]) i = parentIn all i := by
  rw [parentIn, parentIn, List.getElem?_append_left old]

end CancellationToken

/-- The tokens of a process; a parent is older than its children. -/
structure Tokens where
  all : List CancellationToken
  older : ∀ {i p : Nat}, CancellationToken.parentIn all i = some p → p < i

/-- `CancelledError` -/
structure CancelledError where
  reason : String
  deriving DecidableEq

namespace Tokens

open CancellationToken

def empty : Tokens where
  all := []
  older := by simp [parentIn]

/-- `CancellationToken(parent=parent)` -/
def create (tokens : Tokens) (parent : Option Nat) (known : ∀ p ∈ parent, p < tokens.all.length) :
    Tokens where
  all := tokens.all ++ [.new parent]
  older := by
    intro i p link
    by_cases old : i < tokens.all.length
    · rw [parentIn_concat_of_lt old] at link
      exact tokens.older link
    · have last : i = tokens.all.length := by
        obtain ⟨token, found, -⟩ := Option.bind_eq_some_iff.mp link
        have bound := (List.getElem?_eq_some_iff.mp found).1
        rw [List.length_append, List.length_singleton] at bound
        omega
      rw [last, parentIn, List.getElem?_concat_length] at link
      exact last ▸ known p link

/-- `cancel` of one of the tokens. -/
def cancel (tokens : Tokens) (i : Nat) (reason : Option String) : Tokens where
  all := tokens.all.modify i (·.cancel reason)
  older := by
    intro j p link
    rw [parentIn_modify] at link
    exact tokens.older link

/-- The forest of the links `_parent`. -/
def lineage (tokens : Tokens) : Lineage := ⟨parentIn tokens.all, tokens.older⟩

/-- The flag `_cancelled` of a token. -/
def cancelled (tokens : Tokens) (i : Nat) : Bool := tokens.all[i]?.any (·.cancelled)

/-- The field `_reason` of a token. -/
def kept (tokens : Tokens) (i : Nat) : Option String := tokens.all[i]?.bind (·.reason)

/-- The loop of `is_cancelled` and of `reason`: the token at which it returns. -/
def firstCancelled (tokens : Tokens) (i : Nat) : Option Nat :=
  tokens.lineage.nearest tokens.cancelled i

def isCancelled (tokens : Tokens) (i : Nat) : Bool := (tokens.firstCancelled i).isSome

def reason (tokens : Tokens) (i : Nat) : Option String :=
  (tokens.firstCancelled i).bind tokens.kept

def raiseIfCancelled (tokens : Tokens) (i : Nat) (defaultReason : String) :
    Except CancelledError Unit :=
  if tokens.isCancelled i then .error ⟨(nonEmpty (tokens.reason i)).getD defaultReason⟩
  else .ok ()

inductive Event where
  | create (parent : Option Nat)
  | cancel (token : Nat) (reason : Option String)
  deriving DecidableEq

/-- The tokens of a process, one call at a time. -/
def machine : Machine Tokens Event where
  step tokens event :=
    match event with
    | .create parent =>
        if known : ∀ p ∈ parent, p < tokens.all.length then some (tokens.create parent known)
        else none
    | .cancel i reason =>
        if i < tokens.all.length then some (tokens.cancel i reason) else none

/-- The reasons passed to the cancels of one token, in order. -/
def reasons (events : List Event) (i : Nat) : List (Option String) :=
  events.filterMap fun event =>
    match event with
    | .create _ => none
    | .cancel j reason => if j = i then some reason else none

section Reads

variable {tokens : Tokens} {i : Nat}

/-- A token is cancelled with itself or with one of its ancestors. -/
theorem isCancelled_iff :
    tokens.isCancelled i = true ↔ ∃ j, tokens.lineage.Below i j ∧ tokens.cancelled j = true :=
  Lineage.nearest_isSome_iff

/-- A token that was cancelled itself reports the reason that it keeps. -/
theorem reason_of_cancelled (own : tokens.cancelled i = true) :
    tokens.reason i = tokens.kept i := by
  rw [reason, firstCancelled, Lineage.nearest_eq, if_pos own, Option.bind_some]

/-- The reports of all tokens are those of the nearest cancelled token at or above them. -/
theorem raiseIfCancelled_eq_error_iff {defaultReason text : String} :
    tokens.raiseIfCancelled i defaultReason = .error ⟨text⟩ ↔ ∃ j, tokens.lineage.Below i j ∧
      tokens.cancelled j = true ∧
      (∀ k, tokens.lineage.Below i k → tokens.cancelled k = true → tokens.lineage.Below j k) ∧
      text = (nonEmpty (tokens.kept j)).getD defaultReason := by
  rw [raiseIfCancelled, isCancelled, reason]
  constructor
  · intro raised
    cases found : tokens.firstCancelled i with
    | none =>
        rw [found] at raised
        cases raised
    | some j =>
        rw [found] at raised
        cases raised
        obtain ⟨above, own, lowest⟩ := Lineage.nearest_spec found
        exact ⟨j, above, own, lowest, rfl⟩
  · rintro ⟨j, above, own, lowest, rfl⟩
    rw [firstCancelled, Lineage.nearest_eq_some_iff.mpr ⟨above, own, lowest⟩]
    rfl

end Reads

section Steps

variable {tokens next : Tokens} {event : Event} {i j : Nat} {reason : Option String}

theorem next_cases (transition : machine.step tokens event = some next) :
    (∃ parent known, event = .create parent ∧ next = tokens.create parent known) ∨
      ∃ i reason, event = .cancel i reason ∧ i < tokens.all.length ∧
        next = tokens.cancel i reason := by
  cases event with
  | create parent =>
      obtain ⟨known, same⟩ := Option.dite_none_right_eq_some.mp transition
      exact .inl ⟨parent, known, rfl, (Option.some.inj same).symm⟩
  | cancel i reason =>
      obtain ⟨present, same⟩ := Option.ite_none_right_eq_some.mp transition
      exact .inr ⟨i, reason, rfl, present, (Option.some.inj same).symm⟩

section Create

variable {parent : Option Nat} {known : ∀ p ∈ parent, p < tokens.all.length}

theorem cancelled_create : (tokens.create parent known).cancelled j = tokens.cancelled j := by
  rw [cancelled, cancelled, create, List.getElem?_append]
  split
  next old => rfl
  next young =>
    rw [List.getElem?_eq_none (Nat.le_of_not_lt young), List.getElem?_singleton]
    split <;> rfl

theorem kept_create : (tokens.create parent known).kept j = tokens.kept j := by
  rw [kept, kept, create, List.getElem?_append]
  split
  next old => rfl
  next young =>
    rw [List.getElem?_eq_none (Nat.le_of_not_lt young), List.getElem?_singleton]
    split <;> rfl

/-- A creation leaves the links of the other tokens. -/
theorem parent_create {p : Nat} (link : tokens.lineage.parent j = some p) :
    (tokens.create parent known).lineage.parent j = some p := by
  obtain ⟨token, found, -⟩ := Option.bind_eq_some_iff.mp link
  exact (parentIn_concat_of_lt (List.getElem?_eq_some_iff.mp found).1 _).trans link

end Create

theorem lineage_cancel : (tokens.cancel i reason).lineage = tokens.lineage := by
  rw [lineage, lineage]
  congr 1
  exact parentIn_modify tokens.all i reason

theorem cancelled_cancel_self (present : i < tokens.all.length) :
    (tokens.cancel i reason).cancelled i = true := by
  simp [cancelled, cancel, present]

theorem cancelled_cancel_of_ne (other : j ≠ i) :
    (tokens.cancel i reason).cancelled j = tokens.cancelled j := by
  rw [cancelled, cancelled, cancel, List.getElem?_modify_ne _ _ other.symm]

/-- Only a first cancel leaves its reason. -/
theorem kept_cancel_self (present : i < tokens.all.length) :
    (tokens.cancel i reason).kept i =
      if tokens.cancelled i then tokens.kept i else reason := by
  rw [kept, kept, cancelled, cancel, List.getElem?_modify_eq, List.getElem?_eq_getElem present]
  generalize tokens.all[i] = token
  cases set : token.cancelled <;> simp [CancellationToken.cancel, set]

theorem kept_cancel_of_ne (other : j ≠ i) :
    (tokens.cancel i reason).kept j = tokens.kept j := by
  rw [kept, kept, cancel, List.getElem?_modify_ne _ _ other.symm]

/-- A cancel shows only at the tokens at and below its own. -/
theorem isCancelled_cancel_of_not_below (apart : ¬ tokens.lineage.Below j i) :
    (tokens.cancel i reason).isCancelled j = tokens.isCancelled j := by
  rw [Bool.eq_iff_iff, isCancelled_iff, isCancelled_iff, lineage_cancel]
  refine exists_congr fun k => and_congr_right fun above => ?_
  rw [cancelled_cancel_of_ne]
  intro same
  exact apart (same ▸ above)

/-- A cancel leaves the parent of its token and the other children of it as they were. -/
theorem isCancelled_cancel_family {p : Nat} (parent : tokens.lineage.parent i = some p) :
    (tokens.cancel i reason).isCancelled p = tokens.isCancelled p ∧
      ∀ j, tokens.lineage.parent j = some p → j ≠ i →
        (tokens.cancel i reason).isCancelled j = tokens.isCancelled j := by
  refine ⟨isCancelled_cancel_of_not_below (Lineage.not_below_of_parent parent), ?_⟩
  intro j same other
  exact isCancelled_cancel_of_not_below (Lineage.not_below_of_sibling same parent other)

/-- What is cancelled stays cancelled. -/
theorem isCancelled_step (transition : machine.step tokens event = some next)
    (already : tokens.isCancelled j = true) : next.isCancelled j = true := by
  obtain ⟨k, above, own⟩ := isCancelled_iff.mp already
  refine isCancelled_iff.mpr ⟨k, ?_⟩
  obtain ⟨parent, known, rfl, rfl⟩ | ⟨i, reason, rfl, present, rfl⟩ := next_cases transition
  · exact ⟨above.mono fun _ _ => parent_create, cancelled_create.trans own⟩
  · rw [lineage_cancel]
    refine ⟨above, ?_⟩
    by_cases same : k = i
    · exact same ▸ cancelled_cancel_self (same ▸ present)
    · exact (cancelled_cancel_of_ne same).trans own

end Steps

/-- What the flags and the reasons kept say of the cancels so far. -/
structure Recorded (tokens : Tokens) (events : List Event) : Prop where
  cancelled : ∀ i, tokens.cancelled i = true ↔ reasons events i ≠ []
  kept : ∀ i, tokens.kept i = (reasons events i).head?.join

section Reasons

variable {tokens next : Tokens} {events past rest : List Event} {event : Event} {i j : Nat}
  {reason : Option String}

theorem reasons_append : reasons (past ++ rest) i = reasons past i ++ reasons rest i := by
  rw [reasons, List.filterMap_append, ← reasons, ← reasons]

theorem reasons_create (parent : Option Nat) : reasons [.create parent] i = [] := rfl

theorem reasons_cancel_self : reasons [.cancel i reason] i = [reason] := by
  simp [reasons]

theorem reasons_cancel_of_ne (other : j ≠ i) : reasons [.cancel i reason] j = [] := by
  simp [reasons, other.symm]

theorem Recorded.step (recorded : Recorded tokens events)
    (transition : machine.step tokens event = some next) : Recorded next (events ++ [event]) := by
  obtain ⟨parent, known, rfl, rfl⟩ | ⟨i, reason, rfl, present, rfl⟩ := next_cases transition
  · constructor
    · intro j
      rw [cancelled_create, reasons_append, reasons_create, List.append_nil]
      exact recorded.cancelled j
    · intro j
      rw [kept_create, reasons_append, reasons_create, List.append_nil]
      exact recorded.kept j
  · constructor
    · intro j
      rw [reasons_append]
      by_cases same : j = i
      · rw [same, reasons_cancel_self]
        exact ⟨fun _ => List.concat_ne_nil _ _, fun _ => cancelled_cancel_self present⟩
      · rw [cancelled_cancel_of_ne same, reasons_cancel_of_ne same, List.append_nil]
        exact recorded.cancelled j
    · intro j
      rw [reasons_append]
      by_cases same : j = i
      · rw [same, kept_cancel_self present, reasons_cancel_self]
        split
        next again =>
          obtain ⟨first, others, passed⟩ :=
            List.exists_cons_of_ne_nil ((recorded.cancelled i).mp again)
          rw [recorded.kept i, passed, List.cons_append, List.head?_cons, List.head?_cons]
        next first =>
          have none_ : reasons events i = [] :=
            Classical.not_not.mp fun passed => first ((recorded.cancelled i).mpr passed)
          rw [none_]
          rfl
      · rw [kept_cancel_of_ne same, reasons_cancel_of_ne same, List.append_nil]
        exact recorded.kept j

theorem recorded_run (execution : machine.run empty events = some tokens) :
    Recorded tokens events :=
  Machine.run_history (fun _ _ _ _ recorded => recorded.step)
    ⟨fun i => by simp [Tokens.cancelled, empty, reasons], fun _ => rfl⟩ execution

end Reasons

/-- What the class and its `cancel` document. -/
structure Lawful (tokens : Tokens) (events : List Event) : Prop where
  derived : ∀ i, tokens.isCancelled i = true ↔
    ∃ j, tokens.lineage.Below i j ∧ reasons events j ≠ []
  monotone : ∀ event next, machine.step tokens event = some next →
    ∀ i, tokens.isCancelled i = true → next.isCancelled i = true
  /-- A cancel does not reach the parent of its token or other children of it. -/
  unaffected : ∀ i reason next, machine.step tokens (.cancel i reason) = some next →
    ∀ j, ¬ tokens.lineage.Below j i → next.isCancelled j = tokens.isCancelled j
  kept : ∀ i, nonEmpty (tokens.kept i) = (reasons events i).findSome? nonEmpty

/-- The first of the reasons is not empty, or all of them are. -/
def ReasonFirst (reasons : List (Option String)) : Prop :=
  ∀ first rest, reasons = first :: rest → nonEmpty first = none →
    ∀ later ∈ rest, nonEmpty later = none

theorem reasonFirst_iff {reasons : List (Option String)} :
    ReasonFirst reasons ↔ nonEmpty reasons.head?.join = reasons.findSome? nonEmpty := by
  cases reasons with
  | nil => exact ⟨fun _ => rfl, fun _ first rest passed => nomatch passed⟩
  | cons first rest =>
      rw [List.head?_cons, Option.join_some, List.findSome?_cons]
      cases given : nonEmpty first with
      | some text =>
          refine ⟨fun _ => rfl, fun _ first rest passed blank => ?_⟩
          cases passed
          rw [given] at blank
          cases blank
      | none =>
          dsimp only
          rw [eq_comm, List.findSome?_eq_none_iff]
          refine ⟨fun blanks => blanks first rest rfl given, fun blanks first rest passed _ => ?_⟩
          cases passed
          exact blanks

theorem ReasonFirst.of_append {past rest : List (Option String)}
    (blanks : ReasonFirst (past ++ rest)) : ReasonFirst past := by
  intro first others passed blank later member
  refine blanks first (others ++ rest) ?_ blank later (List.mem_append_left rest member)
  rw [passed, List.cons_append]

/-- The kept reason alone can break the law. -/
theorem lawful_iff {tokens : Tokens} {events : List Event}
    (execution : machine.run empty events = some tokens) :
    Lawful tokens events ↔ ∀ i, ReasonFirst (reasons events i) := by
  have recorded := recorded_run execution
  constructor
  · intro lawful i
    rw [reasonFirst_iff, ← recorded.kept i]
    exact lawful.kept i
  · intro reasonFirst
    refine ⟨fun i => ?_, fun _ _ transition _ => isCancelled_step transition,
      fun i reason next transition j apart => ?_, fun i => ?_⟩
    · rw [isCancelled_iff]
      exact exists_congr fun j => and_congr_right fun _ => recorded.cancelled j
    · obtain ⟨-, same⟩ := Option.ite_none_right_eq_some.mp transition
      cases same
      exact isCancelled_cancel_of_not_below apart
    · rw [recorded.kept i]
      exact reasonFirst_iff.mp (reasonFirst i)

/-- Every state of a run is lawful exactly when no token is first cancelled without a reason
and then with one. -/
theorem every_lawful_iff {tokens : Tokens} {events : List Event}
    (execution : machine.run empty events = some tokens) :
    (∀ past rest reached, events = past ++ rest → machine.run empty past = some reached →
      Lawful reached past) ↔ ∀ i, ReasonFirst (reasons events i) := by
  constructor
  · intro lawful
    exact (lawful_iff execution).mp (lawful events [] tokens (List.append_nil _).symm execution)
  · rintro reasonFirst past rest reached rfl before
    refine (lawful_iff before).mpr fun i => ?_
    have whole := reasonFirst i
    rw [reasons_append] at whole
    exact whole.of_append

theorem every_lawful_iff_family :
    ∃ tokens, machine.run empty [.create none, .create (some 0), .create (some 0),
      .cancel 1 (some "run-cancelled"), .cancel 0 none, .cancel 1 none] = some tokens ∧
    ((∀ past rest reached, [.create none, .create (some 0), .create (some 0),
      .cancel 1 (some "run-cancelled"), .cancel 0 none, .cancel 1 none] = past ++ rest →
      machine.run empty past = some reached → Lawful reached past) ↔
    ∀ i, ReasonFirst (reasons [.create none, .create (some 0), .create (some 0),
      .cancel 1 (some "run-cancelled"), .cancel 0 none, .cancel 1 none] i)) :=
  ⟨_, rfl, every_lawful_iff rfl⟩

/-- A cancel without a reason discards the reason of the next one. -/
theorem later_reason_discarded :
    ∃ tokens, machine.run empty [.create none, .cancel 0 none,
      .cancel 0 (some "run deadline exceeded")] = some tokens ∧
      tokens.isCancelled 0 = true ∧ tokens.reason 0 = none ∧
      ¬ Lawful tokens [.create none, .cancel 0 none,
        .cancel 0 (some "run deadline exceeded")] := by
  refine ⟨_, rfl, rfl, rfl, fun lawful => ?_⟩
  have given : none = some "run deadline exceeded" := lawful.kept 0
  cases given

end Tokens

end MultiAgent.Plugin
