import MultiAgent.Foundations.Carry
import MultiAgent.Native.Strategies.Agreement

/-!
# The draft that a relay hands on

A turn of a relay looks up the draft of the turn just before it, and the report walks over the
drafts until one is missing. The draft in force is the text of the latest completed turn that
has one. A turn can complete without a text: then the next turn is sent the prompt in place of
the draft, and the report does not see the drafts behind.
-/

namespace MultiAgent.Native.Relay

open Scheduler MultiAgent.Native.Sequential Carry

variable {sch : Scheduler} {g : TaskGraph} {s t u : RunState} {es fs gs : List Event}
variable {status : TaskGraph.Statuses} {signalAborted : Bool} {r : SchedulerReport}
variable {prompt : String} {steps : List RelayStep} {task : Task}

/-- `Number(id.slice('relay-'.length))`, where the rest of the id is a decimal. -/
def turnIndex (id : String) : Nat :=
  (id.toList.drop "relay-".length).foldl (fun n c => 10 * n + (c.toNat - '0'.toNat)) 0

def instruction (steps : List RelayStep) (index : Nat) : String :=
  (steps[index]?.bind RelayStep.instruction).getD defaultInstruction

/-- The message with which `executeTurn(task)` calls `execute`, when the outcomes `results`
are recorded. -/
def turnMessage (prompt : String) (steps : List RelayStep)
    (results : String → Option TaskOutcome) (task : Task) : String :=
  relayMessage (context prompt results (turnIndex task.id)) (instruction steps (turnIndex task.id))

theorem context_draft (results : String → Option TaskOutcome) (index : Nat) :
    (context prompt results index).draft = previous (drafts results) prompt index := by
  cases index <;> rfl

theorem finalDraft_eq_walk (results : String → Option TaskOutcome) (indices : List Nat)
    (draft : String) : finalDraft results indices draft = walk (drafts results) indices draft := by
  induction indices generalizing draft with
  | nil => rfl
  | cons index rest ih =>
      rw [finalDraft, walk]
      cases drafts results index with
      | none => rfl
      | some value => exact ih value

/-- The message determines the draft in it. -/
theorem relayMessage_inj {step : Nat} {first second instruction : String} :
    relayMessage ⟨step, prompt, first⟩ instruction =
      relayMessage ⟨step, prompt, second⟩ instruction ↔ first = second := by
  have regroup (a b c draft : String) : a ++ prompt ++ b ++ draft ++ c ++ instruction =
      (a ++ prompt ++ b) ++ (draft ++ (c ++ instruction)) := by
    rw [String.append_assoc, String.append_assoc]
  have parts (draft : String) : relayMessage ⟨step, prompt, draft⟩ instruction =
      ("原始任务：" ++ prompt ++ "\n\n当前草稿：\n") ++ (draft ++ ("\n\n" ++ instruction)) :=
    regroup _ _ _ _
  rw [parts, parts, String.append_right_inj, String.append_left_inj]

@[simp] theorem turnIndex_relay (index : Nat) : turnIndex s!"relay-{index}" = index := by
  have split : s!"relay-{index}".toList = "relay-".toList ++ Nat.toDigits 10 index :=
    toList_syntheticId "relay-" index
  rw [turnIndex, split, ← String.length_toList, List.drop_left]
  exact digits_value index

section Recorded

/-- The outcome of a task that completed is recorded. -/
theorem recorded_of_completed (reaches : Reaches sch g status signalAborted fs u)
    (awaits : ∀ e ∈ fs, Awaits e) (member : task ∈ g.tasks)
    (completed : u.status task.id = .completed) :
    ∃ outcome, recorded fs task.id = some outcome := by
  have traced := reaches.traced (obeys_recorded reaches awaits).1
  obtain ⟨-, settlement, given, taken⟩ | cancelled := traced task member (by rw [completed]; rfl)
  · cases settlement with
    | fulfilled outcome => exact ⟨outcome, given.symm⟩
    | rejected message =>
        rw [completed] at taken
        cases taken
  · rw [completed] at cancelled
    cases cancelled

/-- It is not recorded again. -/
theorem recorded_stays (reaches : Reaches sch g status signalAborted fs u)
    (awaits : ∀ e ∈ fs, Awaits e) (member : task ∈ g.tasks)
    (completed : u.status task.id = .completed)
    (execution : (sch.machine g).run u gs = some s) :
    recorded (fs ++ gs) task.id = recorded fs task.id := by
  obtain ⟨outcome, found⟩ := recorded_of_completed reaches awaits member completed
  have closed := (obeys_recorded reaches awaits).2.closed task.id outcome found
  rw [Sequential.recorded, List.foldl_append]
  exact recorded_of_closed reaches.validated reaches.sound closed execution

end Recorded

section Turns

/-- The tasks of a relay are its turns, in order. -/
theorem turn_at (built : Relay.graph prompt steps = .ok g) {index : Nat}
    (inside : index < steps.length) :
    ∃ task, g.tasks[index]? = some task ∧ task.id = s!"relay-{index}" := by
  have plan : (SupervisorPlan.relay prompt steps).graph = .ok g := built
  have ids : g.tasks.map Task.id = (List.range steps.length).map fun index =>
      s!"relay-{index}" := SupervisorPlan.graph_ids plan
  have here := congrArg (fun l : List String => l[index]?) ids
  simpa [inside] using here

theorem turn_of_id (built : Relay.graph prompt steps = .ok g) {id : String} (known : id ∈ g.ids) :
    ∃ index < steps.length, id = s!"relay-{index}" := by
  have plan : (SupervisorPlan.relay prompt steps).graph = .ok g := built
  rw [SupervisorPlan.graph_ids plan] at known
  obtain ⟨index, inside, rfl⟩ := List.mem_map.mp known
  exact ⟨index, List.mem_range.mp inside, rfl⟩

theorem relay_linear (built : Relay.graph prompt steps = .ok g) : Linear g := by
  have plan : (SupervisorPlan.relay prompt steps).graph = .ok g := built
  exact SupervisorPlan.linear (by simp [SupervisorPlan.strategy]) plan

theorem executed_inside (built : Relay.graph prompt steps = .ok g)
    (reaches : Reaches sch g status signalAborted es s) {index : Nat}
    (executed : s!"relay-{index}" ∈ s.executed) : index < steps.length := by
  obtain ⟨other, inside, same⟩ := turn_of_id built (reaches.sound.ledger.known _ executed)
  have indices := congrArg turnIndex same
  rw [turnIndex_relay, turnIndex_relay] at indices
  exact indices ▸ inside

/-- A turn that is not executed has no draft. -/
theorem drafts_of_absent (reaches : Reaches sch g status signalAborted es s)
    (awaits : ∀ e ∈ es, Awaits e) {index : Nat} (absent : s!"relay-{index}" ∉ s.executed) :
    drafts (recorded es) index = none := by
  have recording := (obeys_recorded reaches awaits).2
  rw [drafts]
  cases found : recorded es s!"relay-{index}" with
  | none => rfl
  | some outcome => exact absurd (recording.closed _ outcome found).executed absent

/-- When a turn is called, the turns before it have completed, and what they recorded stays. -/
theorem drafts_before (built : Relay.graph prompt steps = .ok g)
    (reaches : Reaches sch g status signalAborted fs u) (awaits : ∀ e ∈ fs, Awaits e)
    {index : Nat} (inside : index < steps.length) (executed : s!"relay-{index}" ∈ u.executed)
    (execution : (sch.machine g).run u gs = some s) :
    ∀ j < index, drafts (recorded fs) j = drafts (recorded (fs ++ gs)) j := by
  intro j less
  obtain ⟨task, here, id⟩ := turn_at built inside
  obtain ⟨before, there, idBefore⟩ := turn_at built (less.trans inside)
  have member := List.mem_of_getElem? here
  have traced := reaches.traced (obeys_recorded reaches awaits).1
  have deps := reaches.sound.ledger.deps task member (by rw [id]; exact executed)
  have completed := (relay_linear built).completed_before reaches.sound.ledger traced less there
    here deps
  have stays := recorded_stays reaches awaits (List.mem_of_getElem? there) completed execution
  rw [drafts, drafts, ← idBefore, stays]

/-- A turn is executed only behind the one before it. -/
theorem executed_before (built : Relay.graph prompt steps = .ok g)
    (reaches : Reaches sch g status signalAborted es s) (awaits : ∀ e ∈ es, Awaits e) {index : Nat}
    (executed : s!"relay-{index + 1}" ∈ s.executed) : s!"relay-{index}" ∈ s.executed := by
  have inside := executed_inside built reaches executed
  obtain ⟨next, here, id⟩ := turn_at built inside
  obtain ⟨task, there, idBefore⟩ := turn_at built (Nat.lt_of_succ_lt inside)
  have edge := relay_linear built index task next there here
  have completed := reaches.sound.ledger.deps next (List.mem_of_getElem? here)
    (by rw [id]; exact executed) _ edge
  have traced := reaches.traced (obeys_recorded reaches awaits).1
  obtain ran | cancelled := traced task (List.mem_of_getElem? there) (by rw [completed]; rfl)
  · exact idBefore ▸ ran.1
  · rw [completed] at cancelled
    cases cancelled

end Turns

/-- The law of the draft, in a state `s` of a run. Each turn was sent the text of the latest
earlier turn that completed with one, and the report has that of the last one; where there is
none it is the prompt. -/
structure Threads (sch : Scheduler) (g : TaskGraph) (status : TaskGraph.Statuses)
    (signalAborted : Bool) (prompt : String) (steps : List RelayStep) (es : List Event)
    (s : RunState) : Prop where
  sent : ∀ fs gs u task rest, es = fs ++ gs → (sch.machine g).run u gs = some s →
    Reaches sch g status signalAborted fs u → u.control = .calling task rest →
    ∃ draft, Latest (drafts (recorded fs)) prompt (turnIndex task.id) draft ∧
      turnMessage prompt steps (recorded fs) task =
        relayMessage ⟨turnIndex task.id, prompt, draft⟩ (instruction steps (turnIndex task.id))
  final : ∀ r, s.control = .returned r → Latest (drafts (recorded es)) prompt steps.length
    (report prompt steps g (recorded es) s.status r).draft

/-- Where a turn without a text has another turn behind it, no text but the prompt came before
it, and a relay that has returned ended with no text or with the prompt. -/
def Covered (prompt : String) (steps : List RelayStep) (es : List Event) (s : RunState) : Prop :=
  ∀ index, s!"relay-{index + 1}" ∈ s.executed → drafts (recorded es) index = none →
    Latest (drafts (recorded es)) prompt index prompt ∧
      ∀ r, s.control = .returned r → Latest (drafts (recorded es)) prompt steps.length prompt

/-- The message of a turn obeys the law exactly when looking back one turn finds the draft. -/
theorem sent_iff (results : String → Option TaskOutcome) (task : Task) :
    (∃ draft, Latest (drafts results) prompt (turnIndex task.id) draft ∧
      turnMessage prompt steps results task =
        relayMessage ⟨turnIndex task.id, prompt, draft⟩ (instruction steps (turnIndex task.id))) ↔
      previous (drafts results) prompt (turnIndex task.id) =
        carried (drafts results) prompt (turnIndex task.id) := by
  have message : turnMessage prompt steps results task =
      relayMessage ⟨turnIndex task.id, prompt,
        previous (drafts results) prompt (turnIndex task.id)⟩
        (instruction steps (turnIndex task.id)) := by
    rw [← context_draft]
    rfl
  simp only [latest_iff, message, relayMessage_inj, exists_eq_left]

/-- The messages obey the law exactly when every executed turn that looks back one turn finds
the draft. -/
theorem all_sent_iff (built : Relay.graph prompt steps = .ok g)
    (reaches : Reaches sch g status signalAborted es s) (awaits : ∀ e ∈ es, Awaits e) :
    (∀ fs gs u task rest, es = fs ++ gs → (sch.machine g).run u gs = some s →
      Reaches sch g status signalAborted fs u → u.control = .calling task rest →
      ∃ draft, Latest (drafts (recorded fs)) prompt (turnIndex task.id) draft ∧
        turnMessage prompt steps (recorded fs) task = relayMessage
          ⟨turnIndex task.id, prompt, draft⟩ (instruction steps (turnIndex task.id))) ↔
      ∀ index, s!"relay-{index}" ∈ s.executed → previous (drafts (recorded es)) prompt index =
        carried (drafts (recorded es)) prompt index := by
  -- what the map of drafts says about the turns before a call does not change behind it
  have kept {fs gs : List Event} {u : RunState} {index : Nat} (split : es = fs ++ gs)
      (before : Reaches sch g status signalAborted fs u)
      (rest : (sch.machine g).run u gs = some s) (called : s!"relay-{index}" ∈ u.executed) :
      ∀ j < index, drafts (recorded fs) j = drafts (recorded es) j := by
    rw [split]
    exact drafts_before built before (fun e member => awaits e (by simp [split, member]))
      (executed_inside built before called) called rest
  constructor
  · intro sent index executed
    obtain ⟨fs, gs, u, task, rest, split, before, control, id, called⟩ := reaches.handed executed
    have after : (sch.machine g).run u gs = some s := by
      obtain ⟨s₀, accepted, execution⟩ := reaches
      obtain ⟨s₁, again, prior⟩ := before
      rw [accepted] at again
      cases again
      rw [split] at execution
      obtain ⟨v, first, last⟩ := (sch.machine g).run_append_iff.mp execution
      rw [prior] at first
      cases first
      exact last
    have same := (sent_iff _ _).mp (sent fs gs u task rest split after before control)
    rw [id, turnIndex_relay] at same
    rwa [← previous_congr (kept split before after called),
      ← carried_congr (kept split before after called)]
  · intro found fs gs u task rest split after before control
    have member := before.sound.calling_mem control
    obtain ⟨index, -, id⟩ := turn_of_id built (TaskGraph.id_mem_ids member)
    have exact' := before.sound.slots.exact (by simp [RunState.active, control])
    have flies : task ∈ u.inFlight := by
      rw [RunState.inFlight, control]
      exact List.mem_cons_self
    have called : s!"relay-{index}" ∈ u.executed := by
      rw [← id]
      exact before.sound.ledger.started task member ((exact'.status task member).mpr flies)
    have executed := (settled_of_run before.validated before.sound after).2.2.subset called
    rw [sent_iff, id, turnIndex_relay, previous_congr (kept split before after called),
      carried_congr (kept split before after called)]
    exact found index executed

/-- In every state of every run of a relay, the drafts obey the law exactly when no turn without
a text hides one: a turn that completes without a text breaks it as soon as a text that differs
from the prompt came before it, with another turn behind it, or comes last in the relay. -/
theorem draft_threads_iff (built : Relay.graph prompt steps = .ok g)
    (reaches : Reaches sch g status signalAborted es s) (awaits : ∀ e ∈ es, Awaits e) :
    Threads sch g status signalAborted prompt steps es s ↔ Covered prompt steps es s := by
  have agree := agree_iff (t := drafts (recorded es)) (d := prompt) (n := steps.length)
    (P := fun index => s!"relay-{index}" ∈ s.executed)
    (fun index executed => executed_before built reaches awaits executed)
    (fun index executed => executed_inside built reaches executed)
    (fun index absent => drafts_of_absent reaches awaits absent)
  have threads : Threads sch g status signalAborted prompt steps es s ↔
      (∀ index, s!"relay-{index}" ∈ s.executed → previous (drafts (recorded es)) prompt index =
        carried (drafts (recorded es)) prompt index) ∧
      ((∃ r, s.control = .returned r) → walk (drafts (recorded es)) (List.range steps.length)
        prompt = carried (drafts (recorded es)) prompt steps.length) := by
    rw [← all_sent_iff built reaches awaits, ← finalDraft_eq_walk, ← latest_iff]
    constructor
    · exact fun threads => ⟨threads.sent, fun ⟨r, returned⟩ => threads.final r returned⟩
    · exact fun both => ⟨both.1, fun r returned => both.2 ⟨r, returned⟩⟩
  rw [threads]
  by_cases ended : ∃ r, s.control = .returned r
  · obtain ⟨r, returned⟩ := ended
    constructor
    · rintro ⟨found, final⟩ index executed nothing
      obtain ⟨here, last⟩ := agree.mp ⟨found, final ⟨r, returned⟩⟩ index executed nothing
      exact ⟨latest_iff.mpr here.symm, fun _ _ => latest_iff.mpr last.symm⟩
    · intro covered
      obtain ⟨found, final⟩ := agree.mpr fun index executed nothing =>
        have hidden := covered index executed nothing
        ⟨(latest_iff.mp hidden.1).symm, (latest_iff.mp (hidden.2 r returned)).symm⟩
      exact ⟨found, fun _ => final⟩
  · constructor
    · rintro ⟨found, -⟩ index executed nothing
      refine ⟨latest_iff.mpr (looking_iff.mp found index executed nothing).symm, ?_⟩
      exact fun r returned => absurd ⟨r, returned⟩ ended
    · intro covered
      refine ⟨looking_iff.mpr fun index executed nothing => ?_,
        fun returned => absurd returned ended⟩
      exact (latest_iff.mp (covered index executed nothing).1).symm

/-- A haiku that a writer and an editor hand to each other. -/
def haikuSteps : List RelayStep :=
  [⟨"writer", none, none⟩, ⟨"editor", none, none⟩, ⟨"writer", none, none⟩]

def haikuGraph : TaskGraph where
  tasks := [⟨"relay-0", "writer", "A haiku", [], none⟩,
    ⟨"relay-1", "editor", "A haiku", ["relay-0"], none⟩,
    ⟨"relay-2", "writer", "A haiku", ["relay-1"], none⟩]
  distinct := by decide

/-- A turn completes with a text, or without one. -/
def turnDone (id : String) (text : Option String) : List Event :=
  [.ret none, .resolve id (.fulfilled ⟨id, .completed, text, none, 3, none⟩), .tick, .tick]

theorem draft_threads_iff_firstTurn :
    ∃ s, Reaches sequential haikuGraph (fun _ => .pending) false
        (turnDone "relay-0" (some "the first draft")) s ∧
      Threads sequential haikuGraph (fun _ => .pending) false "A haiku" haikuSteps
        (turnDone "relay-0" (some "the first draft")) s := by
  have built : Relay.graph "A haiku" haikuSteps = .ok haikuGraph := rfl
  have ends : ((sequential.machine haikuGraph).run
      (iterate sequential haikuGraph (initial (fun _ => .pending) false))
      (turnDone "relay-0" (some "the first draft"))).any fun s =>
        decide (s.executed = ["relay-0", "relay-1"]) := by
    decide
  obtain ⟨s, execution, ends⟩ := (Option.any_eq_true _ _).mp ends
  have reaches := reaches_of_run (by decide) (by decide) execution
  have awaits : ∀ e ∈ turnDone "relay-0" (some "the first draft"), Awaits e := by
    simp [turnDone, Awaits]
  refine ⟨s, reaches, (draft_threads_iff built reaches awaits).mpr ?_⟩
  intro index executed nothing
  rw [of_decide_eq_true ends] at executed
  have first : index = 0 := by
    obtain id | id := by simpa only [List.mem_cons, List.not_mem_nil, or_false] using executed
    · have same := congrArg turnIndex id
      rw [turnIndex_relay, show turnIndex "relay-0" = 0 from rfl] at same
      omega
    · have same := congrArg turnIndex id
      rw [turnIndex_relay, show turnIndex "relay-1" = 1 from rfl] at same
      omega
  subst first
  cases nothing

/-- The editor completes without a text. -/
def silentEditor : List Event :=
  turnDone "relay-0" (some "the first draft") ++ turnDone "relay-1" none ++
    turnDone "relay-2" (some "the second draft")

/-- The writer is sent the prompt again in place of the first draft, and the report has the
first draft in place of the second. -/
theorem silentEditor_hides :
    ∃ s r, Reaches sequential haikuGraph (fun _ => .pending) false silentEditor s ∧
      s.control = .returned r ∧ r.ok = true ∧
      (report "A haiku" haikuSteps haikuGraph (recorded silentEditor) s.status r).turns.map
          RelayTurn.output = [some "the first draft", none, some "the second draft"] ∧
      (report "A haiku" haikuSteps haikuGraph (recorded silentEditor) s.status r).turns.map
          RelayTurn.input =
        [relayMessage ⟨0, "A haiku", "A haiku"⟩ defaultInstruction,
          relayMessage ⟨1, "A haiku", "the first draft"⟩ defaultInstruction,
          relayMessage ⟨2, "A haiku", "A haiku"⟩ defaultInstruction] ∧
      (report "A haiku" haikuSteps haikuGraph (recorded silentEditor) s.status r).draft =
        "the first draft" ∧
      ¬ Threads sequential haikuGraph (fun _ => .pending) false "A haiku" haikuSteps
        silentEditor s := by
  have ends : ((sequential.machine haikuGraph).run
      (iterate sequential haikuGraph (initial (fun _ => .pending) false)) silentEditor).any
        fun s => s.returnedReport.any SchedulerReport.ok := by
    decide
  obtain ⟨s, execution, ends⟩ := (Option.any_eq_true _ _).mp ends
  have reaches := reaches_of_run (by decide) (by decide) execution
  obtain ⟨r, returned, ok⟩ := (Option.any_eq_true _ _).mp ends
  have control := RunState.returnedReport_eq_some_iff.mp returned
  have draft :
      (report "A haiku" haikuSteps haikuGraph (recorded silentEditor) s.status r).draft =
        "the first draft" := rfl
  have inputs : (report "A haiku" haikuSteps haikuGraph (recorded silentEditor) s.status
      r).turns.map RelayTurn.input =
      [relayMessage (context "A haiku" (recorded silentEditor) 0) defaultInstruction,
        relayMessage (context "A haiku" (recorded silentEditor) 1) defaultInstruction,
        relayMessage (context "A haiku" (recorded silentEditor) 2) defaultInstruction] := rfl
  refine ⟨s, r, reaches, control, ok, rfl, inputs, draft, ?_⟩
  intro threads
  have law := latest_iff.mp (threads.final r control)
  rw [draft] at law
  exact absurd law (by decide)

end MultiAgent.Native.Relay
