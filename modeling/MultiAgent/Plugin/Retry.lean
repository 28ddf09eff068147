import MultiAgent.Foundations.Attempts
import MultiAgent.Plugin.Completion
import MultiAgent.Plugin.Options
import Mathlib.Data.NNRat.Defs
import Mathlib.Order.Interval.Set.Basic
import Mathlib.Tactic.NormNum

/-!
# The attempts of a completion

The retry loop of `chat_completion` in `agents.py` with its pauses, on any outcomes of the
attempts. A float backoff is multiplied with a power of two before the product is capped,
and after 1024 failures that power is no float: the loop ends with an `OverflowError`, as it
does where a pause is longer than `time.sleep` takes, and not otherwise (`orderly_iff`). The
arithmetic of seconds is exact.
-/

namespace MultiAgent.Plugin

open Attempts

namespace Retry

/-- What an attempt comes to: a body that is read as JSON or is not, a status other than
200 with the header `Retry-After`, a failed connection, or any other exception. -/
inductive Outcome where
  | reply (body : Option Json)
  | httpError (code : Nat) (retryAfter : Option String)
  | unreachable
  | broken (text : String)

namespace Outcome

/-- The failures that may be followed by a further attempt. -/
def retryable : Outcome → Bool
  | .reply none | .unreachable => true
  | .httpError code _ => decide (code ∈ ChatCompletion.retryableStatus)
  | .reply (some _) | .broken _ => false

/-- The outcome without its header. -/
def response : Outcome → HttpResponse
  | .reply body => .reply body
  | .httpError code _ => .httpError code
  | .unreachable => .unreachable
  | .broken text => .broken text

end Outcome

/-- A backoff that is not negative. -/
inductive Backoff where
  | int (value : Nat)
  | float (value : ℚ≥0)
  | infinity

namespace Backoff

def isFloat : Backoff → Bool
  | .int _ => false
  | .float _ | .infinity => true

/-- `min(backoff * (2 ** attempt), max_backoff)`; `none` is an `OverflowError`, since a
float is multiplied with a float. -/
def cap (maxBackoff : ℚ) (attempt : Nat) : Backoff → Option ℚ
  | .int value => some (min (value * 2 ^ attempt) maxBackoff)
  | .float value =>
    if Number.overflow ≤ 2 ^ attempt then none else some (min (value * 2 ^ attempt) maxBackoff)
  | .infinity => if Number.overflow ≤ 2 ^ attempt then none else some maxBackoff

end Backoff

/-- `MAX_BACKOFF_SECONDS` -/
def defaultMaxBackoff : ℚ := 8

/-- `_max_backoff_seconds`, on the environment variable. -/
def maxBackoffSeconds (raw : Option String) : ℚ :=
  match raw with
  | none => defaultMaxBackoff
  | some raw =>
    match Number.parse (strip raw) with
    | some (.finite value) => if value ≤ 0 then defaultMaxBackoff else value
    | some (.infinity _) | some .nan | none => defaultMaxBackoff

/-- `_retry_delay`, where `random` is what `random.uniform` draws. -/
def retryDelay (attempt : Nat) (backoff : Backoff) (maxBackoff : ℚ)
    (random : Set.Icc (0 : ℚ) 1) : Option ℚ :=
  (backoff.cap maxBackoff attempt).map fun cap => 0 + (cap - 0) * random

/-- `min(max(delay, retry_after_seconds), max_backoff)` -/
def heed (delay maxBackoff : ℚ) : Number → ℚ
  | .finite seconds => min (max delay seconds) maxBackoff
  | .infinity false => maxBackoff
  | .infinity true | .nan => min delay maxBackoff

/-- What the loop raises. -/
inductive Raised where
  | failure (outcome : Outcome)
  /-- `OverflowError` -/
  | overflow

/-- A call as far as the loop depends on it, with what it meets. -/
structure Call where
  retries : Int
  backoff : Backoff
  /-- `DSMA_MAX_BACKOFF_SECONDS` -/
  environment : Option String
  random : Nat → Set.Icc (0 : ℚ) 1
  /-- The longest pause that `time.sleep` takes; it raises an `OverflowError` for a longer one. -/
  longest : ℚ
  outcomes : Nat → Outcome

/-- The HTTP attempts, the pauses between them, and how the loop ends. -/
structure Run where
  attempts : Nat
  pauses : List ℚ
  result : Except Raised Json

/-- `time.sleep` and `continue`, unless the delay cannot be computed or is too long. -/
def sleep (longest : ℚ) : Option ℚ → Turn ℚ (Except Raised Json)
  | some delay => if longest < delay then .leave (.error .overflow) else .again delay
  | none => .leave (.error .overflow)

namespace Call

variable (call : Call)

def maxBackoff : ℚ := maxBackoffSeconds call.environment

def delay (attempt : Nat) : Option ℚ :=
  retryDelay attempt call.backoff call.maxBackoff (call.random attempt)

/-- The body of the loop. -/
def attempt (attempt : Nat) : Turn ℚ (Except Raised Json) :=
  match call.outcomes attempt with
  | .reply (some body) => .leave (.ok body)
  | .reply none =>
    if attempt < call.retries then sleep call.longest (call.delay attempt)
    else .leave (.error (.failure (.reply none)))
  | .httpError code retryAfter =>
    if code ∈ ChatCompletion.retryableStatus ∧ attempt < call.retries then
      sleep call.longest ((call.delay attempt).map fun delay =>
        match retryAfter.bind Number.parse with
        | some seconds => heed delay call.maxBackoff seconds
        | none => delay)
    else .leave (.error (.failure (.httpError code retryAfter)))
  | .unreachable =>
    if attempt < call.retries then sleep call.longest (call.delay attempt)
    else .leave (.error (.failure .unreachable))
  | .broken text => .leave (.error (.failure (.broken text)))

/-- `for attempt in range(max(0, retries) + 1)`; a loop that is not left leaves `body` as
it was. -/
def run : Run :=
  let loop := turns call.attempt 0 (max 0 call.retries + 1).toNat
  { attempts := loop.1.length + if loop.2.isSome then 1 else 0
    pauses := loop.1
    result := loop.2.getD (.ok (.obj [])) }

end Call

section Delays

theorem overflow_le_two_pow_iff {k : Nat} : Number.overflow ≤ 2 ^ k ↔ 1024 ≤ k := by
  rw [Number.overflow]
  constructor
  · intro large
    by_contra small
    -- the largest power below has room for what the largest float lacks
    have bound : (2 : ℚ) ^ k ≤ 2 ^ 1023 := pow_le_pow_right₀ (by norm_num) (by omega)
    have double : (2 : ℚ) ^ 1024 = 2 ^ 1023 * 2 := pow_succ 2 1023
    have apart : (2 : ℚ) ^ 970 < 2 ^ 1023 := pow_lt_pow_right₀ (by norm_num) (by norm_num)
    rw [double, mul_two, sub_le_iff_le_add] at large
    exact absurd large (not_le.mpr (add_lt_add_of_le_of_lt bound apart))
  · intro large
    have bound : (2 : ℚ) ^ 1024 ≤ 2 ^ k := pow_le_pow_right₀ (by norm_num) large
    exact (sub_le_self _ (by positivity)).trans bound

theorem maxBackoffSeconds_pos (raw : Option String) : 0 < maxBackoffSeconds raw := by
  cases raw with
  | none => exact Nat.ofNat_pos
  | some raw =>
    rw [maxBackoffSeconds]
    split
    · split
      · exact Nat.ofNat_pos
      · rename_i positive
        exact not_le.mp positive
    all_goals exact Nat.ofNat_pos

variable {maxBackoff delay : ℚ} {attempt : Nat} {backoff : Backoff}

theorem Backoff.cap_eq_none_iff :
    backoff.cap maxBackoff attempt = none ↔ backoff.isFloat = true ∧ 1024 ≤ attempt := by
  cases backoff with
  | int value => simp [cap, isFloat]
  | float value => simp [cap, isFloat, overflow_le_two_pow_iff]
  | infinity => simp [cap, isFloat, overflow_le_two_pow_iff]

theorem Backoff.cap_bounds (positive : 0 < maxBackoff) {cap : ℚ}
    (found : backoff.cap maxBackoff attempt = some cap) : 0 ≤ cap ∧ cap ≤ maxBackoff := by
  cases backoff with
  | int value =>
      cases found
      exact ⟨le_min (by positivity) positive.le, min_le_right _ _⟩
  | float value =>
      rw [Backoff.cap] at found
      split_ifs at found
      cases found
      exact ⟨le_min (mul_nonneg value.2 (by positivity)) positive.le, min_le_right _ _⟩
  | infinity =>
      rw [Backoff.cap] at found
      split_ifs at found
      cases found
      exact ⟨positive.le, le_refl _⟩

theorem retryDelay_eq_none_iff {random : Set.Icc (0 : ℚ) 1} :
    retryDelay attempt backoff maxBackoff random = none ↔
      backoff.isFloat = true ∧ 1024 ≤ attempt := by
  rw [retryDelay, Option.map_eq_none_iff, Backoff.cap_eq_none_iff]

theorem retryDelay_bounds (positive : 0 < maxBackoff) {random : Set.Icc (0 : ℚ) 1}
    (drawn : retryDelay attempt backoff maxBackoff random = some delay) :
    0 ≤ delay ∧ delay ≤ maxBackoff := by
  obtain ⟨cap, found, rfl⟩ := Option.map_eq_some_iff.mp drawn
  obtain ⟨low, high⟩ := Backoff.cap_bounds positive found
  obtain ⟨random, least, most⟩ := random
  rw [zero_add, sub_zero]
  exact ⟨mul_nonneg low least, (mul_le_of_le_one_right low most).trans high⟩

theorem heed_bounds (bounds : 0 ≤ delay ∧ delay ≤ maxBackoff) (seconds : Number) :
    0 ≤ heed delay maxBackoff seconds ∧ heed delay maxBackoff seconds ≤ maxBackoff := by
  obtain ⟨low, high⟩ := bounds
  have positive : 0 ≤ maxBackoff := low.trans high
  cases seconds with
  | finite seconds => exact ⟨le_min (le_max_of_le_left low) positive, min_le_right _ _⟩
  | infinity negative =>
      cases negative with
      | false => exact ⟨positive, le_refl _⟩
      | true => exact ⟨le_min low positive, min_le_right _ _⟩
  | nan => exact ⟨le_min low positive, min_le_right _ _⟩

/-- The delay is at least the smaller of the number and the maximum. -/
def Heeds (maxBackoff delay : ℚ) : Number → Prop
  | .finite seconds => min seconds maxBackoff ≤ delay
  | .infinity false => maxBackoff ≤ delay
  | .infinity true | .nan => True

/-- The number asks for more than a pause can be. -/
def Exceeds (longest : ℚ) : Number → Prop
  | .finite seconds => longest < seconds
  | .infinity negative => negative = false
  | .nan => False

/-- What heeds a number is too long if the maximum is, and the number or the delay. -/
theorem lt_heed_iff {longest : ℚ} (seconds : Number) :
    longest < heed delay maxBackoff seconds ↔
      longest < maxBackoff ∧ (longest < delay ∨ Exceeds longest seconds) := by
  cases seconds with
  | finite seconds => rw [heed, Exceeds, lt_min_iff, lt_max_iff, and_comm]
  | infinity negative =>
      cases negative with
      | false => simp [heed, Exceeds]
      | true => simp [heed, Exceeds, and_comm]
  | nan => simp [heed, Exceeds, and_comm]

theorem heeds_heed (seconds : Number) :
    Heeds maxBackoff (heed delay maxBackoff seconds) seconds := by
  cases seconds with
  | finite seconds => exact min_le_min_right maxBackoff (le_max_right delay seconds)
  | infinity negative =>
      cases negative with
      | false => exact le_refl maxBackoff
      | true => trivial
  | nan => trivial

end Delays

/-- What a loop comes to that is left after the outcome. -/
def Outcome.result : Outcome → Except Raised Json
  | .reply (some body) => .ok body
  | outcome => .error (.failure outcome)

theorem Outcome.result_of_failed {outcome : Outcome}
    (failed : ∀ body, outcome ≠ .reply (some body)) :
    outcome.result = .error (.failure outcome) := by
  cases outcome with
  | reply body =>
      cases body with
      | none => rfl
      | some body => exact absurd rfl (failed body)
  | httpError code retryAfter => rfl
  | unreachable => rfl
  | broken text => rfl

theorem Outcome.result_ne_overflow (outcome : Outcome) : outcome.result ≠ .error .overflow := by
  by_cases success : ∃ body, outcome = .reply (some body)
  · obtain ⟨body, rfl⟩ := success
    exact nofun
  · rw [result_of_failed fun body replied => success ⟨body, replied⟩]
    exact nofun

/-- The text of what is raised. -/
def Raised.text : Raised → String
  | .failure (.reply _) => "JSONDecodeError"
  | .failure (.httpError code _) => s!"HTTP Error {code}"
  | .failure .unreachable => "URLError"
  | .failure (.broken text) => text
  | .overflow => "int too large to convert to float"

/-- The number in the header of a failure. -/
def Outcome.demand : Outcome → Option Number
  | .httpError _ retryAfter => retryAfter.bind Number.parse
  | _ => none

namespace Call

variable {call : Call} {k : Nat} {delay : ℚ} {result : Except Raised Json}

/-- The outcome calls for a further attempt. -/
def Wants (call : Call) (k : Nat) : Prop :=
  (call.outcomes k).retryable = true ∧ (k : Int) < call.retries

/-- The pause after a failure. -/
def pause (call : Call) (k : Nat) : Option ℚ :=
  (call.delay k).map fun delay =>
    match (call.outcomes k).demand with
    | some seconds => heed delay call.maxBackoff seconds
    | none => delay

open Classical in
/-- The three places of the loop that retry are one rule. -/
theorem attempt_eq :
    call.attempt k = if call.Wants k then sleep call.longest (call.pause k)
      else .leave (call.outcomes k).result := by
  rw [attempt, Wants, pause]
  cases outcome : call.outcomes k with
  | reply body =>
      cases body with
      | none => simp [Outcome.retryable, Outcome.demand, Outcome.result]
      | some body => simp [Outcome.retryable, Outcome.result]
  | httpError code retryAfter =>
      simp only [Outcome.retryable, Outcome.demand, Outcome.result, decide_eq_true_eq]
  | unreachable => simp [Outcome.retryable, Outcome.demand, Outcome.result]
  | broken text => simp [Outcome.retryable, Outcome.result]

theorem pause_bounds (paused : call.pause k = some delay) :
    0 ≤ delay ∧ delay ≤ call.maxBackoff := by
  obtain ⟨jittered, drawn, rfl⟩ := Option.map_eq_some_iff.mp paused
  have bounds := retryDelay_bounds (maxBackoffSeconds_pos call.environment) drawn
  split
  · exact heed_bounds bounds _
  · exact bounds

theorem pause_heeds (paused : call.pause k = some delay) {seconds : Number}
    (demanded : (call.outcomes k).demand = some seconds) :
    Heeds call.maxBackoff delay seconds := by
  obtain ⟨jittered, -, rfl⟩ := Option.map_eq_some_iff.mp paused
  simp only [demanded]
  exact heeds_heed seconds

/-- The pause after the attempt cannot be made: a float backoff cannot be scaled, or the maximum
is longer than a pause can be, and so is the delay or what the server asks for. -/
def Stuck (call : Call) (k : Nat) : Prop :=
  (call.backoff.isFloat = true ∧ 1024 ≤ k) ∨
    (call.longest < call.maxBackoff ∧
      ((∃ delay, call.delay k = some delay ∧ call.longest < delay) ∨
        ∃ seconds, (call.outcomes k).demand = some seconds ∧ Exceeds call.longest seconds))

theorem stuck_iff : call.Stuck k ↔ ∀ delay, call.pause k = some delay → call.longest < delay := by
  have unbound : call.delay k = none ↔ call.backoff.isFloat = true ∧ 1024 ≤ k :=
    retryDelay_eq_none_iff
  rw [Stuck, ← unbound, pause]
  cases drawn : call.delay k with
  | none => simp
  | some jittered =>
      have below := (retryDelay_bounds (maxBackoffSeconds_pos call.environment) drawn).2
      cases (call.outcomes k).demand with
      | none =>
          simp only [reduceCtorEq, false_or, Option.some.injEq, exists_eq_left', false_and,
            exists_false, or_false, Option.map_some, forall_eq']
          exact and_iff_right_of_imp fun long => long.trans_le below
      | some seconds =>
          simp only [reduceCtorEq, false_or, Option.some.injEq, exists_eq_left', Option.map_some,
            forall_eq']
          exact (lt_heed_iff seconds).symm

theorem attempt_again_iff :
    call.attempt k = .again delay ↔
      call.Wants k ∧ call.pause k = some delay ∧ delay ≤ call.longest := by
  rw [attempt_eq]
  split
  · rename_i wants
    cases pause : call.pause k with
    | none => simp [sleep]
    | some drawn =>
        rw [sleep]
        split_ifs with long
        · simp only [Option.some.injEq, false_iff, not_and, not_le]
          rintro - rfl
          exact long
        · simp only [Turn.again.injEq, wants, Option.some.injEq, true_and, iff_self_and]
          rintro rfl
          exact not_lt.mp long
  · rename_i wants
    simp [wants]

theorem attempt_leave_iff :
    call.attempt k = .leave result ↔
      (¬ call.Wants k ∧ result = (call.outcomes k).result) ∨
        (call.Wants k ∧ call.Stuck k ∧ result = .error .overflow) := by
  rw [attempt_eq, stuck_iff]
  split
  · rename_i wants
    cases pause : call.pause k with
    | none => simp [sleep, wants, eq_comm]
    | some drawn =>
        rw [sleep]
        split_ifs with long
        · simp [wants, long, eq_comm]
        · simp [wants, long]
  · rename_i wants
    simp [wants, eq_comm]

/-- The loop is left, and the pauses are those of the attempts before the last. -/
theorem run_ends (call : Call) : ∃ pauses result, Ends call.attempt 0 pauses result ∧
    (pauses.length : Int) ≤ max 0 call.retries ∧
      call.run = ⟨pauses.length + 1, pauses, result⟩ := by
  have range : (max 0 call.retries + 1).toNat = (max 0 call.retries).toNat + 1 := by omega
  have last : ∃ result, call.attempt (0 + (max 0 call.retries).toNat) = .leave result := by
    refine ⟨_, attempt_leave_iff.mpr (.inl ⟨?_, rfl⟩)⟩
    rintro ⟨-, more⟩
    omega
  obtain ⟨pauses, result, looped⟩ := exists_ends last
  obtain ⟨short, ends⟩ := ends_iff.mp looped
  refine ⟨pauses, result, ends, by omega, ?_⟩
  rw [run, range, looped]
  rfl

/-- Outcomes that are to be retried lead to a pause that cannot be made. -/
def Overflows (call : Call) : Prop := ∃ k, (∀ i ≤ k, call.Wants i) ∧ call.Stuck k

/-- The loop is left at the first pause that cannot be made. -/
theorem run_of_stuck (wants : ∀ i ≤ k, call.Wants i) (stuck : call.Stuck k)
    (first : ∀ i < k, ¬ call.Stuck i) :
    call.run.attempts = k + 1 ∧ call.run.result = .error .overflow := by
  obtain ⟨pauses, result, ends, -, same⟩ := call.run_ends
  have most : pauses.length ≤ k := by
    by_contra more
    obtain ⟨delay, found⟩ : ∃ delay, pauses[k]? = some delay :=
      ⟨_, List.getElem?_eq_getElem (not_le.mp more)⟩
    obtain ⟨-, paused, short⟩ := attempt_again_iff.mp (ends.again_at found)
    exact absurd (stuck_iff.mp stuck delay paused) (not_lt.mpr short)
  obtain ⟨unwanted, -⟩ | ⟨-, stopped, rfl⟩ := attempt_leave_iff.mp ends.leave_at
  · exact absurd (wants _ most) unwanted
  · obtain earlier | last := Nat.lt_or_eq_of_le most
    · exact absurd stopped (first _ earlier)
    · rw [same, last]
      exact ⟨rfl, rfl⟩

open Classical in
theorem run_of_overflows (overflows : call.Overflows) : call.run.result = .error .overflow := by
  have stuck : ∃ k, call.Stuck k := overflows.imp fun _ => And.right
  obtain ⟨k, wants, last⟩ := overflows
  have least : ∀ i ≤ Nat.find stuck, call.Wants i := fun i below =>
    wants i (below.trans (Nat.find_min' stuck last))
  exact (run_of_stuck least (Nat.find_spec stuck) fun i => Nat.find_min stuck).2

theorem overflows_of_run (raised : call.run.result = .error .overflow) : call.Overflows := by
  obtain ⟨pauses, result, ends, -, same⟩ := call.run_ends
  rw [same] at raised
  obtain ⟨-, own⟩ | ⟨wants, stuck, -⟩ := attempt_leave_iff.mp ends.leave_at
  · exact absurd (own ▸ raised) (Outcome.result_ne_overflow _)
  · refine ⟨pauses.length, fun i below => ?_, stuck⟩
    obtain rfl | less := Nat.eq_or_lt_of_le below
    · exact wants
    · exact (attempt_again_iff.mp (ends.again_at (List.getElem?_eq_getElem less))).1

/-- What bounds the loop, however it ends. -/
structure Bounded (call : Call) : Prop where
  attempts : (call.run.attempts : Int) ≤ max 0 call.retries + 1
  further : ∀ (k : Nat), k + 1 < call.run.attempts → (call.outcomes k).retryable = true
  success : ∀ (k : Nat) (body : Json), k < call.run.attempts →
    call.outcomes k = .reply (some body) →
      call.run.attempts = k + 1 ∧ call.run.result = .ok body
  between : call.run.pauses.length + 1 = call.run.attempts
  pauses : ∀ delay ∈ call.run.pauses, 0 ≤ delay ∧ delay ≤ call.maxBackoff
  /-- The pause after the attempt `k` heeds its `Retry-After`. -/
  heeds : ∀ (k : Nat) (delay : ℚ) (seconds : Number), call.run.pauses[k]? = some delay →
    (call.outcomes k).demand = some seconds → Heeds call.maxBackoff delay seconds

/-- What the loop is meant to do. -/
structure Orderly (call : Call) : Prop extends Bounded call where
  /-- The failure of the last attempt is raised, and the loop could not go on after it. -/
  failure : ∀ (k : Nat), call.run.attempts = k + 1 →
    (∀ body, call.outcomes k ≠ .reply (some body)) →
      call.run.result = .error (.failure (call.outcomes k)) ∧
        ((call.outcomes k).retryable = false ∨ (k : Int) = max 0 call.retries)

theorem bounded (call : Call) : call.Bounded := by
  obtain ⟨pauses, result, ends, short, same⟩ := call.run_ends
  have again : ∀ (k : Nat) (delay : ℚ), pauses[k]? = some delay →
      call.Wants k ∧ call.pause k = some delay :=
    fun k delay found => (attempt_again_iff.mp (ends.again_at found)).imp id And.left
  have earlier : ∀ k < pauses.length, (call.outcomes k).retryable = true := fun k less =>
    (again k _ (List.getElem?_eq_getElem less)).1.1
  refine
    { attempts := by rw [same]; push_cast; omega
      further := ?_
      success := ?_
      between := by rw [same]
      pauses := ?_
      heeds := ?_ }
  · rw [same]
    exact fun k less => earlier k (Nat.lt_of_succ_lt_succ less)
  · rw [same]
    intro k body less replied
    have done : (call.outcomes k).retryable = false := by
      rw [replied]
      rfl
    obtain equal | before := Nat.eq_or_lt_of_le (Nat.le_of_lt_succ less)
    · subst equal
      obtain ⟨-, own⟩ | ⟨wants, -⟩ := attempt_leave_iff.mp ends.leave_at
      · rw [own, replied]
        exact ⟨rfl, rfl⟩
      · rw [wants.1] at done
        cases done
    · rw [earlier k before] at done
      cases done
  · rw [same]
    intro delay member
    obtain ⟨k, found⟩ := List.mem_iff_getElem?.mp member
    exact pause_bounds (again k delay found).2
  · rw [same]
    intro k delay seconds found demanded
    exact pause_heeds (again k delay found).2 demanded

theorem not_orderly_of_overflow (raised : call.run.result = .error .overflow) :
    ¬ call.Orderly := by
  intro orderly
  have last := orderly.between.symm
  by_cases success : ∃ body, call.outcomes call.run.pauses.length = .reply (some body)
  · obtain ⟨body, replied⟩ := success
    have returned := (orderly.success _ body (by omega) replied).2
    rw [raised] at returned
    cases returned
  · have failed := (orderly.failure _ last fun body replied => success ⟨body, replied⟩).1
    rw [raised] at failed
    cases failed

theorem orderly_of_result (settled : call.run.result ≠ .error .overflow) : call.Orderly := by
  refine { bounded call with failure := ?_ }
  obtain ⟨pauses, result, ends, short, same⟩ := call.run_ends
  rw [same] at settled ⊢
  intro k last failed
  obtain rfl : pauses.length = k := Nat.succ_injective last
  obtain ⟨unwanted, own⟩ | ⟨-, -, raised⟩ := attempt_leave_iff.mp ends.leave_at
  · constructor
    · rw [own, Outcome.result_of_failed failed]
    · by_contra going
      rw [not_or, Bool.not_eq_false] at going
      exact unwanted ⟨going.1, by omega⟩
  · exact absurd raised settled

/-- The loop does what it is meant to do on all outcomes, unless failures that are to be retried
lead to a pause that cannot be made. -/
theorem orderly_iff (call : Call) : call.Orderly ↔ ¬ call.Overflows := by
  constructor
  · intro orderly overflows
    exact not_orderly_of_overflow (run_of_overflows overflows) orderly
  · intro fits
    exact orderly_of_result fun raised => fits (overflows_of_run raised)

/-- A server that is not available, and a call that does not give up. -/
def stubborn : Call where
  retries := 2000
  backoff := .float (1 / 2)
  environment := none
  random _ := ⟨0, le_refl 0, zero_le_one⟩
  longest := 9223372036
  outcomes _ := .httpError 503 none

theorem stubborn_overflows : stubborn.run.attempts = 1025 ∧
    stubborn.run.result = .error .overflow ∧ ¬ stubborn.Orderly := by
  have wants : ∀ i ≤ 1024, stubborn.Wants i := fun i below =>
    ⟨rfl, by change (i : Int) < 2000; omega⟩
  have first : ∀ i < 1024, ¬ stubborn.Stuck i := by
    rintro i below (⟨-, late⟩ | ⟨short, -⟩)
    · exact absurd late (not_le.mpr below)
    · exact absurd short (by decide)
  obtain ⟨attempts, raised⟩ := run_of_stuck wants (.inl ⟨rfl, le_refl 1024⟩) first
  exact ⟨attempts, raised, not_orderly_of_overflow raised⟩

/-- A server that asks for a pause of three centuries, where the maximum lets it. -/
def patient : Call where
  retries := 2
  backoff := .float (1 / 2)
  environment := some "1e10"
  random _ := ⟨0, le_refl 0, zero_le_one⟩
  longest := 9223372036
  outcomes _ := .httpError 503 (some "9999999999")

theorem patient_overflows : patient.run.attempts = 1 ∧
    patient.run.result = .error .overflow ∧ ¬ patient.Orderly := by
  have wants : ∀ i ≤ 0, patient.Wants i := fun i below =>
    ⟨rfl, by change (i : Int) < 2; omega⟩
  have maximum : patient.maxBackoff = 10 ^ 10 := by decide +kernel
  have demand : (patient.outcomes 0).demand = some (.finite 9999999999) := by decide +kernel
  have stuck : patient.Stuck 0 := by
    refine .inr ⟨?_, .inr ⟨_, demand, ?_⟩⟩
    · rw [maximum]
      decide +kernel
    · change (9223372036 : ℚ) < 9999999999
      norm_num
  obtain ⟨attempts, raised⟩ := run_of_stuck wants stuck fun i before => absurd before i.not_lt_zero
  exact ⟨attempts, raised, not_orderly_of_overflow raised⟩

section Fetch

open Classical in
theorem fetch_succ {left : Nat} :
    ChatCompletion.fetch (fun k => (call.outcomes k).response) call.retries k (left + 1) =
      if call.Wants k then
        ChatCompletion.fetch (fun k => (call.outcomes k).response) call.retries (k + 1) left
      else (k + 1, (call.outcomes k).result.mapError Raised.text) := by
  rw [ChatCompletion.fetch, Wants]
  cases outcome : call.outcomes k with
  | reply body =>
      cases body with
      | none =>
          simp [Outcome.response, Outcome.retryable, Outcome.result, Except.mapError, Raised.text]
      | some body => simp [Outcome.response, Outcome.retryable, Outcome.result, Except.mapError]
  | httpError code retryAfter =>
      simp only [Outcome.response, Outcome.retryable, Outcome.result, decide_eq_true_eq,
        Except.mapError, Raised.text]
  | unreachable =>
      simp [Outcome.response, Outcome.retryable, Outcome.result, Except.mapError, Raised.text]
  | broken text =>
      simp [Outcome.response, Outcome.retryable, Outcome.result, Except.mapError, Raised.text]

theorem fetch_of_ends {start left : Nat} {pauses : List ℚ}
    (ends : Ends call.attempt start pauses result) (settled : result ≠ .error .overflow)
    (short : pauses.length < left) :
    ChatCompletion.fetch (fun k => (call.outcomes k).response) call.retries start left =
      (start + pauses.length + 1, result.mapError Raised.text) := by
  induction pauses generalizing start left with
  | nil =>
      obtain ⟨left, rfl⟩ := Nat.exists_eq_succ_of_ne_zero (Nat.ne_of_gt short)
      have leave : call.attempt start = .leave result := ends.leave
      obtain ⟨unwanted, own⟩ | ⟨-, -, raised⟩ := attempt_leave_iff.mp leave
      · rw [fetch_succ, if_neg unwanted, own]
        rfl
      · exact absurd raised settled
  | cons delay pauses ih =>
      obtain ⟨left, rfl⟩ := Nat.exists_eq_succ_of_ne_zero (Nat.ne_of_gt (Nat.zero_lt_of_lt short))
      have again : call.attempt start = .again delay := ends.again 0 delay rfl
      have wants := (attempt_again_iff.mp again).1
      rw [fetch_succ, if_pos wants, ih ends.tail (Nat.lt_of_succ_lt_succ short), List.length_cons]
      congr 2
      omega

/-- The loop without its pauses comes to the same. -/
theorem fetch_eq_run (settled : call.run.result ≠ .error .overflow) :
    ChatCompletion.fetch (fun k => (call.outcomes k).response) call.retries 0
        (max 0 call.retries + 1).toNat =
      (call.run.attempts, call.run.result.mapError Raised.text) := by
  obtain ⟨pauses, result, ends, short, same⟩ := call.run_ends
  rw [same] at settled ⊢
  rw [fetch_of_ends ends settled (by omega), Nat.zero_add]

end Fetch

end Call

end Retry

end MultiAgent.Plugin
