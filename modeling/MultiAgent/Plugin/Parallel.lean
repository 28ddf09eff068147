import MultiAgent.Foundations.Checks
import MultiAgent.Foundations.Dict
import Mathlib.Data.Rat.Defs
import Mathlib.Algebra.Order.Ring.Rat
import Mathlib.Tactic.NormNum

/-!
# Calls in parallel

`_parallel` of `strategies.py`: submit, wait, collect, mark the rest as timeouts, and put the
results in the order of the targets. What the submits come to, which calls are done when a
wait begins and returns, what they come to and the readings of the clock are free. Times are
exact rationals, and a wait raises beyond the longest that a thread can wait. A note of a
refused call needs a number of seconds, and what a submit or a call raises besides leaves
`_parallel` (`completes_iff`).
-/

namespace MultiAgent.Plugin

namespace Parallel

/-- What leaves `_parallel` but a mapping. -/
inductive Raised where
  | runTimeout
  | budgetExceeded
  /-- `None * 1000.0` -/
  | typeError
  /-- A wait that is too long. -/
  | overflow
  /-- Any other exception of a submit or a call. -/
  | other (text : String)
  deriving DecidableEq

/-- What a submit comes to. -/
inductive Submit where
  | accepted
  | saturated
  | raised (text : String)
  deriving DecidableEq

/-- What a future holds. An error of the agent is a value. -/
inductive Outcome (α : Type) where
  | value (value : α)
  | budgetExceeded
  | raised (text : String)

/-- An entry of the results. -/
inductive Answer (α : Type) where
  | value (value : α)
  /-- `{"error": "timeout"}` -/
  | timeout
  deriving DecidableEq

/-- A call of `_note_call` for a timeout. -/
structure Note where
  agent : String
  seconds : ℚ
  error : String

/-- What a call of `_parallel` meets. -/
structure Environment (α : Type) where
  runDeadline : Option ℚ
  /-- The readings of the clock, in their order. -/
  now : Nat → ℚ
  /-- `round(seconds, 6)` -/
  rounded : ℚ → ℚ
  /-- `threading.TIMEOUT_MAX` -/
  longest : ℚ
  submit : String → Submit
  /-- No call is done when wait number `k` begins. -/
  blocks : Nat → Bool
  /-- The call of the agent is done when wait number `k` returns. -/
  done : Nat → String → Bool
  outcome : String → Outcome α

structure State (α : Type) where
  results : Dict String (Answer α)
  notes : List Note

section Definitions

variable {α : Type} (env : Environment α)

/-- `clamp_timeout` -/
def clampTimeout (timeout : Option ℚ) : Except Raised (Option ℚ) :=
  match env.runDeadline with
  | none => .ok timeout
  | some deadline =>
    let remaining := deadline - env.now 0
    if remaining ≤ 0 then .error .runTimeout
    else if env.rounded remaining ≤ 0 then .error .runTimeout
    else .ok (match timeout with
      | none => some (env.rounded remaining)
      | some timeout => some (min timeout (env.rounded remaining)))

/-- `_note_call(agent, trace, "timeout", seconds, error)` -/
def noteCall (agent : String) (seconds : Option ℚ) (error : String) (s : State α) :
    Except Raised (State α) :=
  match seconds with
  | some seconds => .ok { s with notes := s.notes ++ [⟨agent, seconds, error⟩] }
  | none => .error .typeError

/-- The loop that submits the calls, with the agents of its entries. -/
def submitAll (timeout : Option ℚ) : List String → State α → Except Raised (State α × List String)
  | [], s => .ok (s, [])
  | agent :: rest, s =>
    match env.submit agent with
    | .saturated => do
      let s ← noteCall agent timeout "pool saturated" s
      submitAll timeout rest { s with results := s.results.set agent .timeout }
    | .raised text => .error (.other text)
    | .accepted => do
      let (s, entries) ← submitAll timeout rest s
      return (s, agent :: entries)

/-- The results of calls that are done. -/
def takeResults : List String → State α → Except Raised (State α)
  | [], s => .ok s
  | agent :: rest, s =>
    match env.outcome agent with
    | .value value =>
      takeResults rest { s with results := s.results.set agent (.value value) }
    | .budgetExceeded => .error .budgetExceeded
    | .raised text => .error (.other text)

/-- The time is up before the wait of a round. -/
def expired (deadline : Option ℚ) (round : Nat) : Bool :=
  match deadline with
  | some deadline => decide (deadline - env.now round ≤ 0)
  | none => false

/-- The calls that are done when the wait of a round returns. -/
def finished (round : Nat) (pending : List String) : List String := pending.filter (env.done round)

def unfinished (round : Nat) (pending : List String) : List String :=
  pending.filter fun agent => !env.done round agent

theorem length_unfinished {env : Environment α} {round : Nat} {pending : List String}
    (some_done : finished env round pending ≠ []) :
    (unfinished env round pending).length < pending.length := by
  obtain ⟨agent, member⟩ := List.exists_mem_of_ne_nil _ some_done
  obtain ⟨inside, done⟩ := List.mem_filter.mp member
  exact List.length_filter_lt_length_iff_exists.mpr ⟨agent, inside, by simp [done]⟩

/-- The wait of a round has to wait, and cannot wait that long. -/
def tooLong (deadline : Option ℚ) (round : Nat) (pending : List String) : Bool :=
  (env.blocks round || decide (finished env round pending = [])) &&
    deadline.any fun deadline => decide (env.longest < deadline - env.now round)

/-- The loop that waits, with the agents that are left pending. A wait without a done call
is one whose time is up. -/
def collect (deadline : Option ℚ) (round : Nat) (s : State α) (pending : List String) :
    Except Raised (State α × List String) :=
  if pending = [] ∨ expired env deadline round then .ok (s, pending)
  else if tooLong env deadline round pending then .error .overflow
  else if finished env round pending = [] then .ok (s, pending)
  else do
    let s ← takeResults env (finished env round pending) s
    collect deadline (round + 1) s (unfinished env round pending)
termination_by pending.length
decreasing_by exact length_unfinished ‹_›

/-- The loop over the calls that are left pending. -/
def markPending (timeout : Option ℚ) (s : State α) (pending : List String) : State α :=
  pending.foldl (fun s agent =>
    ⟨if agent ∈ s.results.keys then s.results else s.results.set agent .timeout,
      s.notes ++ [⟨agent, timeout.getD 0, "timeout"⟩]⟩) s

/-- The results in the order of the targets. -/
def ordered (targets : List String) (results : Dict String (Answer α)) : Dict String (Answer α) :=
  targets.foldl (fun ordered agent =>
    match results.get? agent with
    | some answer => ordered.set agent answer
    | none => ordered) .empty

/-- The deadline of the run ends the waits. -/
def runBinds (timeout : Option ℚ) : Bool :=
  env.runDeadline.any fun bound =>
    timeout.all fun timeout => decide (bound ≤ env.now 1 + timeout + 1 / 1000000)

/-- When the waits end. -/
def waitDeadline (timeout : Option ℚ) : Option ℚ :=
  if runBinds env timeout then env.runDeadline else timeout.map (env.now 1 + ·)

/-- `_parallel`: the mapping that it returns, and the timeouts that it notes. -/
def parallel (targets : List String) (timeout : Option ℚ) :
    Except Raised (Dict String (Answer α) × List Note) := do
  let timeout ← clampTimeout env timeout
  let (s, entries) ← submitAll env timeout targets ⟨.empty, []⟩
  let (s, pending) ← collect env (waitDeadline env timeout) 2 s entries
  if pending ≠ [] ∧ runBinds env timeout then .error .runTimeout
  else
    let s := markPending timeout s pending
    return (ordered targets s.results, s.notes)

end Definitions

section Coverage

variable {α : Type} {env : Environment α} {timeout deadline : Option ℚ} {round : Nat}
variable {s s' : State α} {targets pending pending' entries : List String} {agent : String}

/-- Every target has an answer, or an entry that waits for one. -/
def Covers (targets : List String) (s : State α) (pending : List String) : Prop :=
  ∀ agent ∈ targets, agent ∈ s.results.keys ∨ agent ∈ pending

theorem results_noteCall {error : String} (noted : noteCall agent timeout error s = .ok s') :
    s'.results = s.results := by
  cases timeout with
  | none => cases noted
  | some seconds =>
      cases noted
      rfl

theorem covers_submitAll (submitted : submitAll env timeout targets s = .ok (s', entries)) :
    (∀ agent ∈ s.results.keys, agent ∈ s'.results.keys) ∧ Covers targets s' entries := by
  induction targets generalizing s s' entries with
  | nil =>
      cases submitted
      exact ⟨fun _ known => known, nofun⟩
  | cons agent rest ih =>
      rw [submitAll] at submitted
      split at submitted
      · obtain ⟨noted, note, submitted⟩ := bind_eq_ok_iff.mp submitted
        obtain ⟨kept, covers⟩ := ih submitted
        refine ⟨?_, ?_⟩
        · intro other known
          apply kept
          rw [Dict.mem_keys_set, results_noteCall note]
          exact .inr known
        · intro other member
          rcases List.mem_cons.mp member with rfl | later
          · exact .inl (kept _ (Dict.mem_keys_set.mpr (.inl rfl)))
          · exact covers other later
      · cases submitted
      · obtain ⟨⟨last, more⟩, later, same⟩ := bind_eq_ok_iff.mp submitted
        cases same
        obtain ⟨kept, covers⟩ := ih later
        refine ⟨kept, ?_⟩
        intro other member
        rcases List.mem_cons.mp member with rfl | inside
        · exact .inr List.mem_cons_self
        · exact (covers other inside).imp_right (List.mem_cons_of_mem _)

theorem keys_takeResults {done : List String} (taken : takeResults env done s = .ok s') :
    ∀ agent, agent ∈ s.results.keys ∨ agent ∈ done → agent ∈ s'.results.keys := by
  induction done generalizing s with
  | nil =>
      cases taken
      simp
  | cons first rest ih =>
      rw [takeResults] at taken
      split at taken
      · intro agent member
        apply ih taken
        rw [Dict.mem_keys_set]
        simp only [List.mem_cons] at member
        tauto
      · cases taken
      · cases taken

theorem covers_collect (covers : Covers targets s pending)
    (collected : collect env deadline round s pending = .ok (s', pending')) :
    Covers targets s' pending' := by
  induction round, s, pending using collect.induct env deadline with
  | case1 round s pending stopped =>
      rw [collect, if_pos stopped] at collected
      cases collected
      exact covers
  | case2 round s pending going long =>
      rw [collect, if_neg going, if_pos long] at collected
      cases collected
  | case3 round s pending going short none =>
      rw [collect, if_neg going, if_neg short, if_pos none] at collected
      cases collected
      exact covers
  | case4 round s pending going short some_done ih =>
      rw [collect, if_neg going, if_neg short, if_neg some_done] at collected
      obtain ⟨mid, taken, collected⟩ := bind_eq_ok_iff.mp collected
      refine ih mid ?_ collected
      intro agent member
      by_cases done : agent ∈ finished env round pending
      · exact .inl (keys_takeResults taken agent (.inr done))
      · refine (covers agent member).imp (fun known => keys_takeResults taken agent (.inl known)) ?_
        intro waiting
        refine List.mem_filter.mpr ⟨waiting, ?_⟩
        rw [finished, List.mem_filter, not_and] at done
        simpa using done waiting

theorem keys_markPending : agent ∈ s.results.keys ∨ agent ∈ pending →
    agent ∈ (markPending timeout s pending).results.keys := by
  induction pending generalizing s with
  | nil => simp [markPending]
  | cons first rest ih =>
      intro member
      rw [markPending, List.foldl_cons]
      apply ih
      simp only [List.mem_cons] at member
      split_ifs with known
      · rcases member with before | rfl | later
        · exact .inl before
        · exact .inl known
        · exact .inr later
      · rw [Dict.mem_keys_set]
        tauto

theorem keys_foldl_ordered {results acc : Dict String (Answer α)} (distinct : targets.Nodup)
    (covers : ∀ agent ∈ targets, agent ∈ results.keys)
    (fresh : ∀ agent ∈ targets, agent ∉ acc.keys) :
    (targets.foldl (fun ordered agent =>
      match results.get? agent with
      | some answer => ordered.set agent answer
      | none => ordered) acc).keys = acc.keys ++ targets := by
  induction targets generalizing acc with
  | nil => simp
  | cons agent rest ih =>
      obtain ⟨first, distinct⟩ := List.nodup_cons.mp distinct
      obtain ⟨known, covers⟩ := List.forall_mem_cons.mp covers
      obtain ⟨new, fresh⟩ := List.forall_mem_cons.mp fresh
      obtain ⟨answer, found⟩ := Dict.mem_keys_iff.mp known
      rw [List.foldl_cons, found, ih distinct covers, Dict.keys_set_of_notMem new]
      · simp
      · intro other member
        rw [Dict.mem_keys_set, not_or]
        refine ⟨?_, fresh other member⟩
        rintro rfl
        exact first member

theorem keys_ordered (distinct : targets.Nodup) {results : Dict String (Answer α)}
    (covers : ∀ agent ∈ targets, agent ∈ results.keys) :
    (ordered targets results).keys = targets := by
  have keys : (ordered targets results).keys =
      (Dict.empty : Dict String (Answer α)).keys ++ targets :=
    keys_foldl_ordered distinct covers fun _ _ => List.not_mem_nil
  exact keys

end Coverage

section Exceptions

variable {α : Type} {env : Environment α} {timeout deadline : Option ℚ} {round : Nat}
variable {s : State α} {targets pending done : List String} {raised : Raised}

theorem clampTimeout_error (stopped : clampTimeout env timeout = .error raised) :
    raised = .runTimeout := by
  rw [clampTimeout] at stopped
  split at stopped
  · cases stopped
  · simp only at stopped
    split_ifs at stopped <;> cases stopped <;> rfl

/-- The calls that are submitted. -/
def entriesOf (env : Environment α) (targets : List String) : List String :=
  targets.filter fun agent => env.submit agent = .accepted

/-- No submit raises, and the refused ones have a number of seconds to note. -/
structure Submits (env : Environment α) (targets : List String) (timeout : Option ℚ) : Prop where
  accepted : ∀ agent ∈ targets, ∀ text, env.submit agent ≠ .raised text
  noted : timeout ≠ none ∨ ∀ agent ∈ targets, env.submit agent ≠ .saturated

theorem submits_cons_iff {agent : String} {rest : List String} :
    Submits env (agent :: rest) timeout ↔
      (∀ text, env.submit agent ≠ .raised text) ∧
        (timeout ≠ none ∨ env.submit agent ≠ .saturated) ∧ Submits env rest timeout := by
  constructor
  · rintro ⟨accepted, noted⟩
    rw [List.forall_mem_cons] at accepted noted
    exact ⟨accepted.1, noted.imp_right And.left, accepted.2, noted.imp_right And.right⟩
  · rintro ⟨first, note, accepted, noted⟩
    refine ⟨List.forall_mem_cons.mpr ⟨first, accepted⟩, ?_⟩
    rw [List.forall_mem_cons]
    tauto

/-- The submits come to their end exactly when none raises but a refusal that can be noted. -/
theorem submitAll_cases (env : Environment α) (timeout : Option ℚ) (targets : List String)
    (s : State α) :
    (Submits env targets timeout ∧
      ∃ s', submitAll env timeout targets s = .ok (s', entriesOf env targets)) ∨
    ¬ Submits env targets timeout ∧ ∃ raised, submitAll env timeout targets s = .error raised ∧
      raised ≠ .runTimeout ∧ raised ≠ .budgetExceeded := by
  induction targets generalizing s with
  | nil => exact .inl ⟨⟨nofun, .inr nofun⟩, s, rfl⟩
  | cons agent rest ih =>
      rw [submits_cons_iff, submitAll, entriesOf]
      cases answer : env.submit agent with
      | accepted =>
          obtain ⟨submits, s', rest⟩ | ⟨not_, raised, rest, other⟩ := ih s
          · refine .inl ⟨⟨fun _ => nofun, .inr nofun, submits⟩, s', ?_⟩
            rw [List.filter_cons_of_pos (by simpa using answer)]
            simp only [rest, ok_bind]
            rfl
          · refine .inr ⟨fun both => not_ both.2.2, raised, ?_, other⟩
            simp only [rest]
            rfl
      | raised text =>
          exact .inr ⟨fun both => both.1 text rfl, .other text, rfl, nofun, nofun⟩
      | saturated =>
          cases timeout with
          | none => exact .inr ⟨by simp, .typeError, rfl, nofun, nofun⟩
          | some seconds =>
              have noted (last : State α) :
                  noteCall agent (some seconds) "pool saturated" last =
                    .ok { last with notes := last.notes ++ [⟨agent, seconds, "pool saturated"⟩] } :=
                rfl
              rw [List.filter_cons_of_neg (by simp [answer])]
              simp only [noted, ok_bind]
              obtain ⟨submits, s', rest⟩ | ⟨not_, raised, rest, other⟩ := ih _
              · exact .inl ⟨⟨fun _ => nofun, .inl nofun, submits⟩, s', rest⟩
              · exact .inr ⟨fun both => not_ both.2.2, raised, rest, other⟩

/-- What a future raises when its result is asked for. -/
def fault (env : Environment α) (agent : String) : Option Raised :=
  match env.outcome agent with
  | .value _ => none
  | .budgetExceeded => some .budgetExceeded
  | .raised text => some (.other text)

/-- What the waits and the futures raise, in the order in which they are met. -/
def faults (env : Environment α) (deadline : Option ℚ) (round : Nat) (pending : List String) :
    List Raised :=
  if pending = [] ∨ expired env deadline round then []
  else (if tooLong env deadline round pending then [.overflow] else []) ++
    if finished env round pending = [] then []
    else (finished env round pending).filterMap (fault env) ++
      faults env deadline (round + 1) (unfinished env round pending)
termination_by pending.length
decreasing_by exact length_unfinished ‹_›

/-- Calls that return and waits that are not too long raise nothing. -/
theorem faults_eq_nil (sound : ∀ agent ∈ pending, fault env agent = none)
    (short : ∀ round pending, tooLong env deadline round pending = false) :
    faults env deadline round pending = [] := by
  induction round, pending using faults.induct env deadline with
  | case1 round pending ended => rw [faults, if_pos ended]
  | case2 round pending going ih =>
      rw [faults, if_neg going, if_neg (by simp [short]), List.nil_append]
      split_ifs with none
      · rfl
      · have returned : (finished env round pending).filterMap (fault env) = [] := by
          rw [List.filterMap_eq_nil_iff]
          intro agent member
          exact sound agent (List.mem_filter.mp member).1
        rw [returned, ih none fun agent member => sound agent (List.mem_filter.mp member).1]
        rfl

theorem takeResults_cases (env : Environment α) (done : List String) (s : State α) :
    (done.filterMap (fault env) = [] ∧ ∃ s', takeResults env done s = .ok s') ∨
      ∃ raised, (done.filterMap (fault env)).head? = some raised ∧ raised ≠ .runTimeout ∧
        takeResults env done s = .error raised := by
  induction done generalizing s with
  | nil => exact .inl ⟨rfl, s, rfl⟩
  | cons agent rest ih =>
      rw [takeResults]
      cases held : env.outcome agent with
      | value value =>
          have sound : fault env agent = none := by rw [fault, held]
          rw [List.filterMap_cons_none sound]
          exact ih _
      | budgetExceeded =>
          have raises : fault env agent = some .budgetExceeded := by rw [fault, held]
          rw [List.filterMap_cons_some raises]
          exact .inr ⟨.budgetExceeded, rfl, nofun, rfl⟩
      | raised text =>
          have raises : fault env agent = some (.other text) := by rw [fault, held]
          rw [List.filterMap_cons_some raises]
          exact .inr ⟨.other text, rfl, nofun, rfl⟩

/-- The loop leaves by the first exception that it meets. -/
theorem collect_cases (env : Environment α) (deadline : Option ℚ) (round : Nat) (s : State α)
    (pending : List String) :
    (faults env deadline round pending = [] ∧
      ∃ result, collect env deadline round s pending = .ok result) ∨
      ∃ raised, (faults env deadline round pending).head? = some raised ∧ raised ≠ .runTimeout ∧
        collect env deadline round s pending = .error raised := by
  induction round, s, pending using collect.induct env deadline with
  | case1 round s pending ended =>
      rw [faults, collect, if_pos ended, if_pos ended]
      exact .inl ⟨rfl, _, rfl⟩
  | case2 round s pending going long =>
      rw [faults, collect, if_neg going, if_neg going, if_pos long, if_pos long]
      exact .inr ⟨.overflow, rfl, nofun, rfl⟩
  | case3 round s pending going short none =>
      rw [faults, collect, if_neg going, if_neg going, if_neg short, if_neg short, if_pos none,
        if_pos none]
      exact .inl ⟨rfl, _, rfl⟩
  | case4 round s pending going short some_done ih =>
      rw [faults, collect, if_neg going, if_neg going, if_neg short, if_neg short,
        if_neg some_done, if_neg some_done, List.nil_append]
      obtain ⟨sound, mid, taken⟩ | ⟨raised, first, other, taken⟩ :=
        takeResults_cases env (finished env round pending) s
      · rw [sound, List.nil_append, taken, ok_bind]
        exact ih mid
      · rw [taken]
        refine .inr ⟨raised, ?_, other, rfl⟩
        rw [List.head?_append, first]
        rfl

end Exceptions

/-- A mapping with one entry for each target, in their order, or one of two exceptions. -/
def Completes {α : Type} (targets : List String) :
    Except Raised (Dict String (Answer α) × List Note) → Prop
  | .ok (results, _) => results.keys = targets
  | .error raised => raised = .runTimeout ∨ raised = .budgetExceeded

/-- What follows the collecting completes. -/
theorem completes_collected {α : Type} {targets pending : List String} {s : State α}
    (distinct : targets.Nodup) (covers : Covers targets s pending) (timeout : Option ℚ)
    (binds : Bool) : Completes targets (
      if pending ≠ [] ∧ binds = true then .error .runTimeout
      else
        let s := markPending timeout s pending
        return (ordered targets s.results, s.notes)) := by
  split_ifs
  · exact .inl rfl
  · exact keys_ordered distinct fun agent member => keys_markPending (covers agent member)

/-- What the submits, the waits and the calls must keep to, for a timeout that is clamped. -/
structure Orderly {α : Type} (env : Environment α) (targets : List String) (timeout : Option ℚ) :
    Prop where
  submits : Submits env targets timeout
  /-- The first exception that is met is that of the budget. -/
  collected : ∀ raised,
    (faults env (waitDeadline env timeout) 2 (entriesOf env targets)).head? = some raised →
      raised = .budgetExceeded

theorem keys_of_ok {α : Type} {env : Environment α} {targets : List String} {timeout : Option ℚ}
    {results : Dict String (Answer α)} {notes : List Note} (distinct : targets.Nodup)
    (ended : parallel env targets timeout = .ok (results, notes)) : results.keys = targets := by
  rw [parallel] at ended
  obtain ⟨given, -, ended⟩ := bind_eq_ok_iff.mp ended
  obtain ⟨⟨s, entries⟩, submitted, ended⟩ := bind_eq_ok_iff.mp ended
  obtain ⟨⟨last, pending⟩, collected, ended⟩ := bind_eq_ok_iff.mp ended
  change Completes targets (.ok (results, notes))
  rw [← ended]
  exact completes_collected distinct (covers_collect (covers_submitAll submitted).2 collected) _ _

/-- Two agents, the second of which is refused. -/
def full : Environment Nat where
  runDeadline := none
  now _ := 0
  rounded := id
  longest := 9223372036
  submit agent := if agent = "b" then .saturated else .accepted
  blocks _ := false
  done _ _ := true
  outcome _ := .value 7

/-- The limit of the calls is a string. -/
def unpriced : Environment Nat :=
  { full with
    submit := fun _ => .accepted
    outcome := fun _ => .raised "'>=' not supported between instances of 'int' and 'str'" }

end Parallel

end MultiAgent.Plugin
