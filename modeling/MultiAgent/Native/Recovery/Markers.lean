import MultiAgent.Native.Recovery.Failure
import MultiAgent.Native.Runner.Model
import Mathlib.Data.List.Count

/-!
# Error texts and the codes that are read off them

The runner and the scheduler say in an error text why a task did not complete,
and the classifier and the strategy envelope read that text back. `Origin` is the
place that an outcome comes from. Two kinds of text are not the runner's own: the
id of an agent, and what the host says about a failed turn; they decide whether
the text is read back as it was meant.
-/

namespace MultiAgent.Native.Recovery

/-- Where an outcome comes from, with the text that it passes on. -/
inductive Origin where
  | beforeStart
  /-- The lookup of the agent failed. -/
  | lookup (agentId : String)
  /-- The runner caught an exception of the host. -/
  | thrown (message : String)
  | completed
  | timeout
  | cancelled
  /-- The turn ended otherwise, with the error that the log has of it. -/
  | ended (turnError : Option String)
  /-- The scheduler cancelled the task behind a dependency that did not complete. -/
  | cascade
  deriving DecidableEq, Repr

namespace Origin

def isLookup : Origin → Bool
  | .lookup _ => true
  | _ => false

/-- The return of `outcomeFromEvents` that is taken. -/
def ofEvents (events : List SessionEvent) (inputs : OutcomeInputs) : Origin :=
  let tally := events.foldl Tally.add .empty
  if tally.turnEndReason = some "completed" then .completed
  else if inputs.timedOut then .timeout
  else if inputs.cancelledBySignal || decide (tally.turnEndReason = some "aborted") then .cancelled
  else .ended tally.turnError

end Origin

/-- What the cascade records for a task behind `dep`. -/
def cascadeOutcome (task : Task) (dep : String) (status : TaskStatus) : TaskOutcome where
  taskId := task.id
  status := .cancelled
  text := none
  error := some s!"dependency '{dep}' {status.text}"
  durationMs := 0
  raw := none

open Runner in
/-- The outcomes of the runner and of the cascade, by their origins. -/
inductive Produced (runner : AgentRunner) : Origin → TaskOutcome → Prop
  | beforeStart (task : Task) :
      Produced runner .beforeStart (early task .cancelled "cancelled before start" 0).outcome
  | lookup (task : Task) (durationMs : Int) (unknown : runner.known task.agentId = false) :
      Produced runner (.lookup task.agentId)
        (early task .failed s!"agent '{task.agentId}' not found" durationMs).outcome
  | thrown (task : Task) (message : String) (durationMs : Int) :
      Produced runner (.thrown message) (early task .failed message durationMs).outcome
  | events (taskId : String) (events : List SessionEvent) (inputs : OutcomeInputs) :
      Produced runner (.ofEvents events inputs) (outcomeFromEvents taskId events inputs)
  | cascade (task : Task) (dep : String) (status : TaskStatus) :
      Produced runner .cascade (cascadeOutcome task dep status)

/-- The code says where the outcome comes from. -/
structure Faithful (origin : Origin) (outcome : TaskOutcome) : Prop where
  timeout : codeForTaskOutcome outcome.status outcome.error = .timeout ↔ origin = .timeout
  lookup : codeForTaskOutcome outcome.status outcome.error = .agentUnavailable ↔
    origin.isLookup = true
  cascade : codeForTaskOutcome outcome.status outcome.error = .dependencyFailure ↔
    origin = .cascade

/-- The text of the host reads like one of the runner's own. -/
def Misleading (message : String) : Prop :=
  (∃ rest, message.toList = "timeout:".toList ++ rest) ∨
    ∃ name, name ≠ [] ∧ '\'' ∉ name ∧
      message.toList = "agent '".toList ++ name ++ "' not found".toList

/-- The texts that the outcome passes on are unambiguous. -/
def Origin.Plain : Origin → Prop
  | .lookup agentId => agentId.toList ≠ [] ∧ '\'' ∉ agentId.toList
  | .thrown message => ¬ Misleading message
  | .ended (some message) => ¬ Misleading message
  | .beforeStart | .completed | .timeout | .cancelled | .ended none | .cascade => True

theorem quote_splits {name rest : List Char} (plain : '\'' ∉ name) :
    (name ++ '\'' :: rest).takeWhile (fun c => decide (c ≠ '\'')) = name ∧
      (name ++ '\'' :: rest).dropWhile (fun c => decide (c ≠ '\'')) = '\'' :: rest := by
  have passed : ∀ c ∈ name, decide (c ≠ '\'') = true := by
    intro c member
    exact decide_eq_true fun quote => plain (quote ▸ member)
  rw [List.takeWhile_append_of_pos passed, List.dropWhile_append_of_pos passed]
  simp

/-- What the pattern for a missing agent matches. -/
theorem isAgentNotFound_iff {error : String} :
    isAgentNotFound error = true ↔ ∃ name, name ≠ [] ∧ '\'' ∉ name ∧
      error.toList = "agent '".toList ++ name ++ "' not found".toList := by
  rw [isAgentNotFound]
  simp only [Bool.and_eq_true, decide_eq_true_eq, startsWith_iff]
  constructor
  · rintro ⟨⟨⟨rest, whole⟩, named⟩, ends⟩
    have behind : error.toList.drop "agent '".length = rest := by
      rw [whole]
      exact List.drop_left
    rw [behind] at named ends
    refine ⟨_, named, ?_, ?_⟩
    · intro quoted
      have kept := List.all_eq_true.mp List.all_takeWhile _ quoted
      simp at kept
    · rw [whole, List.append_assoc, ← ends, List.takeWhile_append_dropWhile]
  · rintro ⟨name, named, plain, whole⟩
    have behind : error.toList.drop "agent '".length = name ++ '\'' :: " not found".toList := by
      rw [whole, List.append_assoc]
      exact List.drop_left
    rw [behind, (quote_splits plain).1, (quote_splits plain).2]
    exact ⟨⟨⟨_, by rw [whole, List.append_assoc]⟩, named⟩, rfl⟩

theorem misleading_iff {message : String} :
    Misleading message ↔ startsWith message "timeout:" = true ∨ isAgentNotFound message = true := by
  rw [startsWith_iff, isAgentNotFound_iff, Misleading]

theorem lookup_text (agentId : String) :
    (s!"agent '{agentId}' not found").toList =
      "agent '".toList ++ agentId.toList ++ "' not found".toList := by
  rw [String.toList_append, String.toList_append]
  rfl

/-- The text about a missing agent is recognised when its name is plain. -/
theorem isAgentNotFound_lookup (agentId : String) :
    isAgentNotFound s!"agent '{agentId}' not found" = true ↔
      agentId.toList ≠ [] ∧ '\'' ∉ agentId.toList := by
  rw [isAgentNotFound_iff, lookup_text]
  constructor
  · rintro ⟨name, named, plain, same⟩
    rw [List.append_left_inj, List.append_right_inj] at same
    exact same ▸ ⟨named, plain⟩
  · rintro ⟨named, plain⟩
    exact ⟨_, named, plain, rfl⟩

theorem codeForTaskOutcome_failed (message : String) :
    codeForTaskOutcome .failed (some message) =
      if startsWith message "timeout:" then .timeout
      else if isAgentNotFound message then .agentUnavailable else .taskError := rfl

theorem codeForTaskOutcome_cancelled (message : String) :
    codeForTaskOutcome .cancelled (some message) =
      if startsWith message "dependency " then .dependencyFailure else .cancelled := rfl

/-- A text that the runner passes on is faithful when it does not mislead. -/
theorem faithful_message_iff {origin : Origin} {outcome : TaskOutcome} {message : String}
    (failed : outcome.status = .failed) (error : outcome.error = some message)
    (other : origin ≠ .timeout ∧ origin.isLookup = false ∧ origin ≠ .cascade) :
    Faithful origin outcome ↔ ¬ Misleading message := by
  obtain ⟨untimed, found, kept⟩ := other
  have code := codeForTaskOutcome_failed message
  rw [misleading_iff, not_or]
  constructor
  · rintro ⟨timeout, lookup, -⟩
    rw [failed, error, code] at timeout lookup
    by_cases marked : startsWith message "timeout:" = true
    · simp [marked, untimed] at timeout
    · by_cases missing : isAgentNotFound message = true
      · simp [marked, missing, found] at lookup
      · exact ⟨marked, missing⟩
  · rintro ⟨marked, missing⟩
    rw [if_neg marked, if_neg missing] at code
    refine ⟨?_, ?_, ?_⟩
    all_goals rw [failed, error, code]
    · simp [untimed]
    · simp [found]
    · simp [kept]

/-- A code that is not one of the three suits every origin but theirs. -/
theorem faithful_of_other {origin : Origin} {outcome : TaskOutcome} {code : FailureCode}
    (is : codeForTaskOutcome outcome.status outcome.error = code)
    (other : code = .taskError ∨ code = .cancelled)
    (none : origin ≠ .timeout ∧ origin.isLookup = false ∧ origin ≠ .cascade) :
    Faithful origin outcome := by
  obtain ⟨untimed, found, kept⟩ := none
  refine ⟨?_, ?_, ?_⟩
  all_goals
    rw [is]
    obtain rfl | rfl := other
    all_goals simp [untimed, found, kept]

theorem lookup_faithful_iff (task : Task) (durationMs : Int) :
    Faithful (.lookup task.agentId)
        (Runner.early task .failed s!"agent '{task.agentId}' not found" durationMs).outcome ↔
      (Origin.lookup task.agentId).Plain := by
  have unmarked : startsWith s!"agent '{task.agentId}' not found" "timeout:" = false := by
    rw [Bool.eq_false_iff, ne_eq, startsWith_iff, lookup_text]
    rintro ⟨rest, same⟩
    simp at same
  have code := codeForTaskOutcome_failed s!"agent '{task.agentId}' not found"
  simp only [unmarked, Bool.false_eq_true, if_false] at code
  have recognised := isAgentNotFound_lookup task.agentId
  constructor
  · rintro ⟨-, lookup, -⟩
    have named := lookup.mpr rfl
    rw [Runner.early, code] at named
    by_cases missing : isAgentNotFound s!"agent '{task.agentId}' not found" = true
    · exact recognised.mp missing
    · simp [missing] at named
  · intro plain
    rw [if_pos (recognised.mpr plain)] at code
    refine ⟨?_, ?_, ?_⟩
    all_goals
      rw [Runner.early, code]
      simp [Origin.isLookup]

/-- The texts that `outcomeFromEvents` makes itself. -/
theorem timeout_code (ended : String) :
    codeForTaskOutcome .failed (some s!"timeout: turn did not complete ({ended})") = .timeout := by
  have marked : startsWith s!"timeout: turn did not complete ({ended})" "timeout:" = true := by
    rw [startsWith_iff, String.toList_append, String.toList_append, List.append_assoc]
    exact ⟨_, rfl⟩
  rw [codeForTaskOutcome_failed, if_pos marked]

theorem aborted_code (signalled : Bool) (ended : String) :
    codeForTaskOutcome .cancelled
      (some (if signalled then "cancelled" else s!"turn aborted ({ended})")) = .cancelled := by
  cases signalled with
  | true =>
      rw [if_pos rfl]
      decide
  | false =>
      have unmarked : startsWith s!"turn aborted ({ended})" "dependency " = false := by
        rw [String.append_assoc, startsWith_append _ _ _ (by decide)]
        decide
      rw [codeForTaskOutcome_cancelled]
      simp [unmarked]

theorem ended_code (ended : String) :
    codeForTaskOutcome .failed (some s!"turn ended: {ended}") = .taskError := by
  have unmarked : startsWith s!"turn ended: {ended}" "timeout:" = false := by
    rw [startsWith_append _ _ _ (by decide)]
    decide
  have present : isAgentNotFound s!"turn ended: {ended}" = false := by
    have other : startsWith s!"turn ended: {ended}" "agent '" = false := by
      rw [startsWith_append _ _ _ (by decide)]
      decide
    simp [isAgentNotFound, other]
  rw [codeForTaskOutcome_failed]
  simp [unmarked, present]

theorem cascade_code (task : Task) (dep : String) (status : TaskStatus) :
    codeForTaskOutcome (cascadeOutcome task dep status).status
      (cascadeOutcome task dep status).error = .dependencyFailure := by
  have marked : startsWith s!"dependency '{dep}' {status.text}" "dependency " = true := by
    rw [startsWith_iff]
    simp only [String.toList_append, List.append_assoc]
    exact ⟨_, rfl⟩
  rw [cascadeOutcome, codeForTaskOutcome_cancelled, if_pos marked]

/-- The outcome of a slice of events, by its branch. -/
theorem events_faithful_iff (taskId : String) (events : List SessionEvent)
    (inputs : OutcomeInputs) :
    Faithful (.ofEvents events inputs) (outcomeFromEvents taskId events inputs) ↔
      (Origin.ofEvents events inputs).Plain := by
  unfold Origin.ofEvents outcomeFromEvents
  dsimp only
  generalize events.foldl Tally.add .empty = tally
  by_cases completed : tally.turnEndReason = some "completed"
  · simp only [completed, if_true, Origin.Plain, iff_true]
    exact faithful_of_other rfl (.inl rfl) ⟨nofun, rfl, nofun⟩
  · simp only [completed, if_false]
    cases timedOut : inputs.timedOut with
    | true =>
        have code := timeout_code (tally.turnEndReason.getD "no turn/end")
        simp only [if_true, Origin.Plain, iff_true]
        refine ⟨?_, ?_, ?_⟩
        all_goals
          rw [code]
          simp [Origin.isLookup]
    | false =>
        simp only [Bool.false_eq_true, if_false]
        by_cases aborted : (inputs.cancelledBySignal ||
            decide (tally.turnEndReason = some "aborted")) = true
        · simp only [aborted, if_true, Origin.Plain, iff_true]
          exact faithful_of_other (aborted_code _ _) (.inr rfl) ⟨nofun, rfl, nofun⟩
        · simp only [aborted, if_false, Bool.false_eq_true]
          cases told : tally.turnError with
          | none =>
              simp only [Origin.Plain, iff_true, Option.getD_none]
              exact faithful_of_other (ended_code _) (.inl rfl) ⟨nofun, rfl, nofun⟩
          | some message =>
              simp only [Origin.Plain, Option.getD_some]
              exact faithful_message_iff rfl rfl ⟨nofun, rfl, nofun⟩

theorem Produced.faithful_iff {runner : Runner.AgentRunner} {origin : Origin}
    {outcome : TaskOutcome} (produced : Produced runner origin outcome) :
    Faithful origin outcome ↔ origin.Plain := by
  cases produced with
  | beforeStart task =>
      simp only [Origin.Plain, iff_true]
      have code : codeForTaskOutcome .cancelled (some "cancelled before start") = .cancelled := by
        decide
      exact faithful_of_other code (.inr rfl) ⟨nofun, rfl, nofun⟩
  | lookup task durationMs unknown => exact lookup_faithful_iff task durationMs
  | thrown task message durationMs => exact faithful_message_iff rfl rfl ⟨nofun, rfl, nofun⟩
  | events taskId events inputs => exact events_faithful_iff taskId events inputs
  | cascade task dep status =>
      have code := cascade_code task dep status
      simp only [Origin.Plain, iff_true]
      refine ⟨?_, ?_, ?_⟩
      all_goals
        rw [code]
        simp [Origin.isLookup]

section Sources

open Runner

variable {runner : AgentRunner} {s t : State} {e : Event}

/-- The origin of the outcome with which the event ends a call, if it ends one. -/
def endsWith (runner : AgentRunner) (s : State) : Event → Option Origin
  | .call task aborted thrown _ =>
    if aborted then some .beforeStart
    else if !runner.known task.agentId then some (.lookup task.agentId)
    else thrown.map .thrown
  | .read turn durationMs => (s.session? turn).map fun session =>
    .ofEvents ((slice s session).map Entry.event) (session.inputs durationMs)
  | .append .. | .idle _ | .timeout _ | .abort _ | .expire _ => none

/-- Every outcome of the runner has the origin of the event that ends its call. -/
theorem finished_produced (transition : Runner.step runner s e = some t) :
    (endsWith runner s e = none ∧ t.finished = s.finished) ∨
      ∃ origin done, endsWith runner s e = some origin ∧ t.finished = s.finished ++ [done] ∧
        Produced runner origin done.outcome := by
  cases e with
  | call task aborted thrown durationMs =>
      simp only [Runner.step, Option.some.injEq] at transition
      subst transition
      unfold endsWith call
      cases aborted with
      | true => exact .inr ⟨_, _, rfl, rfl, .beforeStart task⟩
      | false =>
          cases known : runner.known task.agentId with
          | false => exact .inr ⟨_, _, by simp [known], by simp [State.finish],
              .lookup task durationMs known⟩
          | true =>
              cases thrown with
              | none => exact .inl ⟨by simp [known], by simp⟩
              | some message => exact .inr ⟨_, _, by simp [known], by simp [State.finish],
                  .thrown task message durationMs⟩
  | read turn durationMs =>
      cases found : s.session? turn with
      | none => simp [Runner.step, found] at transition
      | some session =>
          by_cases ready : session.phase = .ready
          · simp only [Runner.step, found, ready, if_true, Option.some.injEq] at transition
            subst transition
            exact .inr ⟨_, _, by simp [endsWith, found], rfl, .events _ _ _⟩
          · simp [Runner.step, found, ready] at transition
  | append agent turn event =>
      simp only [Runner.step, Option.ite_none_right_eq_some, Option.some.injEq] at transition
      obtain ⟨-, rfl⟩ := transition
      exact .inl ⟨rfl, rfl⟩
  | idle turn | timeout turn | expire turn =>
      cases found : s.session? turn with
      | none => simp [Runner.step, found] at transition
      | some session =>
          simp only [Runner.step, found, Option.ite_none_right_eq_some, Option.some.injEq]
            at transition
          obtain ⟨-, rfl⟩ := transition
          exact .inl ⟨rfl, rfl⟩
  | abort turn =>
      cases found : s.session? turn with
      | none => simp [Runner.step, found] at transition
      | some session =>
          simp only [Runner.step, found, Option.some.injEq] at transition
          subst transition
          exact .inl ⟨rfl, rfl⟩

/-- What the cascade does to one task, if it does something. -/
theorem cascadeTask_produced (g : TaskGraph) (s : Scheduler.RunState) (task : Task) :
    Scheduler.cascadeTask g s task = s ∨ ∃ outcome, Produced runner .cascade outcome ∧
      (Scheduler.cascadeTask g s task).outcomes =
        Function.update s.outcomes task.id (some outcome) := by
  by_cases pending : s.status task.id = .pending
  · cases blocked : task.dependsOn.find? (Scheduler.failedDep g s.status) with
    | none => exact .inl (by simp [Scheduler.cascadeTask, pending, blocked])
    | some dep =>
        refine .inr ⟨_, .cascade task dep (s.status dep), ?_⟩
        simp only [Scheduler.cascadeTask, pending, blocked]
        rfl
  · exact .inl (by simp [Scheduler.cascadeTask, pending])

end Sources

section Envelope

/-- The entries that the envelope counts as timed out. -/
def countedAsTimeout (task : StrategyTask) : Bool :=
  decide (task.status = .failed) && task.timedOut

/-- The entries that the classifier calls timed out. -/
def classifiedAsTimeout (task : StrategyTask) : Bool :=
  decide (codeForTaskOutcome task.status task.error = .timeout)

def StrategyTask.marked (task : StrategyTask) : Bool :=
  task.error.any fun error => startsWith error "timeout:"

/-- A failed entry whose error starts with the prefix of the envelope, but not
with that of the classifier. -/
def looselyMarked (task : StrategyTask) : Bool :=
  countedAsTimeout task && !StrategyTask.marked task

/-- A completed entry whose error starts with the prefix of the classifier. -/
def completedButMarked (task : StrategyTask) : Bool :=
  decide (task.status = .completed) && StrategyTask.marked task

theorem tally_timedOut (tasks : List StrategyTask)
    (counts : StrategyMetadata × List String × List StrategyError) :
    (tasks.foldl tallyTask counts).1.timedOut =
      counts.1.timedOut + tasks.countP countedAsTimeout := by
  induction tasks generalizing counts with
  | nil => rfl
  | cons task tasks ih =>
      rw [List.foldl_cons, ih, List.countP_cons]
      rw [tallyTask, countedAsTimeout]
      cases status : task.status with
      | completed => simp
      | cancelled => simp
      | failed =>
          cases timedOut : task.timedOut with
          | false => simp
          | true =>
              simp
              omega

theorem strategyEnvelope_timedOut (strategy : SupervisorStrategy) (stopped : Bool)
    (tasks : List StrategyTask) :
    (strategyEnvelope strategy stopped tasks).metadata.timedOut =
      tasks.countP countedAsTimeout := by
  have tally := tally_timedOut tasks (⟨tasks.length, 0, 0, 0, 0⟩, [], [])
  rw [Nat.zero_add] at tally
  exact tally

theorem startsWith_timeout {text : String} (marked : startsWith text "timeout:" = true) :
    startsWith text timeoutErrorPrefix = true := by
  obtain ⟨rest, whole⟩ := startsWith_iff.mp marked
  exact startsWith_iff.mpr ⟨':' :: rest, whole⟩

/-- The two counts of one entry. -/
theorem timeout_counts (task : StrategyTask) :
    (countedAsTimeout task).toNat + (completedButMarked task).toNat =
      (classifiedAsTimeout task).toNat + (looselyMarked task).toNat := by
  unfold looselyMarked completedButMarked classifiedAsTimeout countedAsTimeout StrategyTask.timedOut
    StrategyTask.marked codeForTaskOutcome
  cases task.error with
  | none => cases task.status <;> simp
  | some error =>
      by_cases marked : startsWith error "timeout:" = true
      · cases task.status with
        | completed => simp [marked]
        | failed => simp [marked, startsWith_timeout marked]
        | cancelled =>
            by_cases blocked : startsWith error "dependency " = true <;> simp [blocked]
      · cases task.status with
        | completed =>
            by_cases missing : isAgentNotFound error = true <;> simp [marked, missing]
        | failed =>
            by_cases missing : isAgentNotFound error = true <;> simp [marked, missing]
        | cancelled =>
            by_cases blocked : startsWith error "dependency " = true <;> simp [blocked]

theorem timedOut_balance (tasks : List StrategyTask) :
    tasks.countP countedAsTimeout + tasks.countP completedButMarked =
      tasks.countP classifiedAsTimeout + tasks.countP looselyMarked := by
  have toNat : ∀ b : Bool, b.toNat = if b = true then 1 else 0 := by decide
  induction tasks with
  | nil => rfl
  | cons task tasks ih =>
      have here := timeout_counts task
      simp only [toNat] at here
      simp only [List.countP_cons]
      omega

end Envelope

/-- An outcome of the runner or of the cascade is classified by where it comes
from exactly when the texts it passes on are plain, and the envelope counts the
timeouts of the classifier exactly when as many failed entries have the one
prefix without the other as completed entries have the marker. -/
theorem marker_faithfulness (runner : Runner.AgentRunner) :
    (∀ s e t, Runner.step runner s e = some t →
      (endsWith runner s e = none ∧ t.finished = s.finished) ∨
        ∃ origin done, endsWith runner s e = some origin ∧ t.finished = s.finished ++ [done] ∧
          Produced runner origin done.outcome) ∧
    (∀ g s task, Scheduler.cascadeTask g s task = s ∨ ∃ outcome, Produced runner .cascade outcome ∧
      (Scheduler.cascadeTask g s task).outcomes =
        Function.update s.outcomes task.id (some outcome)) ∧
    (∀ origin outcome, Produced runner origin outcome →
      (Faithful origin outcome ↔ origin.Plain)) ∧
    ∀ strategy stopped tasks,
      (strategyEnvelope strategy stopped tasks).metadata.timedOut =
          tasks.countP classifiedAsTimeout ↔
        tasks.countP looselyMarked = tasks.countP completedButMarked := by
  refine ⟨fun s e t transition => finished_produced transition, cascadeTask_produced,
    fun origin outcome produced => produced.faithful_iff, ?_⟩
  intro strategy stopped tasks
  have balance := timedOut_balance tasks
  rw [strategyEnvelope_timedOut]
  omega

/-- A registry without agents. -/
def noAgents : Runner.AgentRunner := ⟨fun _ => false, none⟩

def draftBy (agentId : String) : Task := ⟨"draft", agentId, "write a draft", [], none⟩

theorem marker_faithfulness_writer :
    Faithful (.lookup "writer")
      (Runner.early (draftBy "writer") .failed "agent 'writer' not found" 0).outcome :=
  ((marker_faithfulness noAgents).2.2.1 _ _ (.lookup (draftBy "writer") 0 rfl)).mpr
    ⟨by decide, by decide⟩

/-- A host error of a failed turn. -/
def upstreamTimeout : StrategyTask :=
  ⟨"draft", "writer", .failed, none, some "timeout waiting for upstream"⟩

/-- The lookup of an agent whose id has a quote is read back as a task error, and
the envelope counts a timeout where the classifier has none. -/
theorem quotedAgent_misread :
    Produced noAgents (.lookup "o'brien")
        (Runner.early (draftBy "o'brien") .failed "agent 'o'brien' not found" 0).outcome ∧
      codeForTaskOutcome .failed (some "agent 'o'brien' not found") = .taskError ∧
      (strategyEnvelope .sequential false [upstreamTimeout]).metadata.timedOut = 1 ∧
      [upstreamTimeout].countP classifiedAsTimeout = 0 :=
  ⟨.lookup (draftBy "o'brien") 0 rfl, by decide, by decide, by decide⟩

end MultiAgent.Native.Recovery
