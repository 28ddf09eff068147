import MultiAgent.Native.Runner.Model
import Mathlib.Data.List.Nodup

/-!
# Whose events an outcome is made of

A call slices the log of its agent from its baseline on, so it also reads what
other turns of the agent append in between: the tail of an earlier turn that was
cancelled and is still open, or the events of a later call. `Pure` says that
this has not happened.
-/

namespace MultiAgent.Native.Runner

variable {runner : AgentRunner} {s t : State} {event : Event} {es : List Event}
  {session : Session}

/-- What the calls that are under way rely on. -/
structure Tidy (s : State) : Prop where
  distinct : (s.live.map Session.turn).Nodup
  fresh : ∀ session ∈ s.live, session.turn < s.nextTurn
  inside : ∀ session ∈ s.live, session.baseline ≤ (s.log session.task.agentId).length

/-- A call under way has nothing but its own events behind its baseline. -/
def PureSession (s : State) (session : Session) : Prop :=
  ∀ entry ∈ slice s session, entry.turn = session.turn

/-- A call that returned read nothing but its own events. -/
def Finished.Pure (done : Finished) : Prop :=
  ∀ turn entries inputs, done.read = some (turn, entries, inputs) →
    ∀ entry ∈ entries, entry.turn = turn

structure Pure (s : State) : Prop where
  live : ∀ session ∈ s.live, PureSession s session
  finished : ∀ done ∈ s.finished, done.Pure

/-- The outcomes are computed from what was read. -/
def Computed (done : Finished) : Prop :=
  match done.read with
  | some (_, entries, inputs) =>
    done.outcome = outcomeFromEvents done.task.id (entries.map Entry.event) inputs
  | none => done.outcome.text = none ∧ done.outcome.raw = none

theorem Finished.Pure.own {done : Finished} (pure : done.Pure) (computed : Computed done) :
    done.Own := by
  cases read : done.read with
  | none =>
      simp only [Computed, read] at computed
      simp only [Finished.Own, read]
      exact computed
  | some slice =>
      obtain ⟨turn, entries, inputs⟩ := slice
      have kept : (entries.filter fun entry => decide (entry.turn = turn)) = entries :=
        List.filter_eq_self.mpr fun entry member => decide_eq_true (pure _ _ _ read entry member)
      simp only [Computed, read] at computed
      simp only [Finished.Own, read, kept]
      exact computed

/-- A step that leaves a call where it is: the slice it will read is the same. -/
structure Retains (s t : State) : Prop where
  log : t.log = s.log
  finished : t.finished = s.finished
  opened : t.opened = s.opened
  nextTurn : t.nextTurn = s.nextTurn
  live : ∃ f : Session → Session, t.live = s.live.map f ∧
    ∀ session, (f session).task = session.task ∧ (f session).turn = session.turn ∧
      (f session).baseline = session.baseline

theorem Retains.turns (retains : Retains s t) :
    t.live.map Session.turn = s.live.map Session.turn := by
  obtain ⟨f, live, same⟩ := retains.live
  rw [live, List.map_map]
  exact List.map_congr_left fun session _ => (same session).2.1

theorem Retains.agents (retains : Retains s t) :
    (t.live.map fun session => session.task.agentId) =
      s.live.map fun session => session.task.agentId := by
  obtain ⟨f, live, same⟩ := retains.live
  rw [live, List.map_map]
  exact List.map_congr_left fun session _ => congrArg Task.agentId (same session).1

theorem Retains.from (retains : Retains s t) {other : Session} (member : other ∈ t.live) :
    ∃ session ∈ s.live, other.task = session.task ∧ other.turn = session.turn ∧
      other.baseline = session.baseline := by
  obtain ⟨f, live, same⟩ := retains.live
  rw [live] at member
  obtain ⟨session, known, rfl⟩ := List.mem_map.mp member
  exact ⟨session, known, same session⟩

theorem Retains.to (retains : Retains s t) {session : Session} (member : session ∈ s.live) :
    ∃ other ∈ t.live, other.task = session.task ∧ other.turn = session.turn ∧
      other.baseline = session.baseline := by
  obtain ⟨f, live, same⟩ := retains.live
  exact ⟨f session, live ▸ List.mem_map_of_mem member, same session⟩

theorem retains_change {turn : Nat} {f : Session → Session}
    (same : ∀ session, (f session).task = session.task ∧ (f session).turn = session.turn ∧
      (f session).baseline = session.baseline) : Retains s (s.change turn f) := by
  refine ⟨rfl, rfl, rfl, rfl, _, rfl, ?_⟩
  intro session
  split
  · exact same session
  · exact ⟨rfl, rfl, rfl⟩

theorem session?_some {turn : Nat} (found : s.session? turn = some session) :
    session ∈ s.live ∧ session.turn = turn :=
  ⟨List.mem_of_find?_eq_some found, by simpa using List.find?_some found⟩

/-- The host appends to the log of an agent only events of the turn of each call
that is under way there. -/
def Quiet (s : State) : Event → Prop
  | .append agent turn _ =>
    ∀ session ∈ s.live, session.task.agentId = agent → session.turn = turn
  | _ => True

/-- What a step does. -/
inductive Moves (runner : AgentRunner) (s : State) : Event → State → Prop where
  /-- A call that returns before its followup. -/
  | early {task : Task} {aborted : Bool} {thrown : Option String} {durationMs : Int}
      (done : Finished) (unread : done.read = none) (computed : Computed done) :
      Moves runner s (.call task aborted thrown durationMs) (s.finish done)
  | opens {task : Task} {durationMs : Int} (known : runner.known task.agentId = true)
      (session : Session) (owner : session.task = task) (turn : session.turn = s.nextTurn)
      (baseline : session.baseline = (s.log task.agentId).length) :
      Moves runner s (.call task false none durationMs)
        { s with opened := s.opened ++ [(task.agentId, s.nextTurn)]
                 nextTurn := s.nextTurn + 1
                 live := s.live ++ [session] }
  | append {agent : String} {turn : Nat} {event : SessionEvent} (isOpen : (agent, turn) ∈ s.opened)
      (opened : List (String × Nat)) (fewer : opened.Sublist s.opened) :
      Moves runner s (.append agent turn event)
        { s.record agent ⟨turn, event⟩ with opened := opened }
  | retains {event : Event} {t : State} (quiet : Quiet s event) (retains : Retains s t) :
      Moves runner s event t
  | read {turn : Nat} {durationMs : Int} {session : Session} (member : session ∈ s.live)
      (owner : session.turn = turn) :
      Moves runner s (.read turn durationMs)
        { s with live := s.live.filter fun other => decide (other.turn ≠ turn)
                 finished := s.finished ++ [finishedOf s session durationMs] }

theorem moves_of_step (taken : step runner s event = some t) : Moves runner s event t := by
  cases event with
  | call task aborted thrown durationMs =>
      obtain rfl := Option.some.inj taken
      unfold call
      split
      · exact .early _ rfl ⟨rfl, rfl⟩
      · rename_i unaborted
        split
        · exact .early _ rfl ⟨rfl, rfl⟩
        · rename_i known
          split
          · exact .early _ rfl ⟨rfl, rfl⟩
          · rw [Bool.not_eq_true] at unaborted
            subst unaborted
            exact .opens (by simpa using known) _ rfl rfl rfl
  | append agent turn event =>
      simp only [step] at taken
      split at taken
      · obtain rfl := Option.some.inj taken
        refine .append ‹_› _ ?_
        split
        · exact List.erase_sublist
        · exact List.Sublist.refl _
      · cases taken
  | idle turn =>
      simp only [step] at taken
      split at taken
      · cases taken
      · split at taken
        · obtain rfl := Option.some.inj taken
          exact .retains trivial (retains_change fun _ => ⟨rfl, rfl, rfl⟩)
        · cases taken
  | timeout turn =>
      simp only [step] at taken
      split at taken
      · cases taken
      · split at taken
        · obtain rfl := Option.some.inj taken
          refine .retains trivial (retains_change ?_)
          intro session
          split <;> exact ⟨rfl, rfl, rfl⟩
        · cases taken
  | abort turn =>
      simp only [step] at taken
      split at taken
      · cases taken
      · obtain rfl := Option.some.inj taken
        exact .retains trivial (retains_change fun _ => ⟨rfl, rfl, rfl⟩)
  | expire turn =>
      simp only [step] at taken
      split at taken
      · cases taken
      · split at taken
        · obtain rfl := Option.some.inj taken
          exact .retains trivial (retains_change fun _ => ⟨rfl, rfl, rfl⟩)
        · cases taken
  | read turn durationMs =>
      simp only [step] at taken
      split at taken
      · cases taken
      · rename_i session found
        split at taken
        · obtain rfl := Option.some.inj taken
          exact .read (session?_some found).1 (session?_some found).2
        · cases taken

theorem Tidy.step (tidy : Tidy s) (moves : Moves runner s event t) : Tidy t := by
  cases moves with
  | early done unread computed => exact ⟨tidy.distinct, tidy.fresh, tidy.inside⟩
  | opens known session owner turn baseline =>
      refine ⟨?_, ?_, ?_⟩
      · rw [List.map_append, List.nodup_append]
        refine ⟨tidy.distinct, by simp, ?_⟩
        rintro k h _ last rfl
        obtain ⟨other, member, same⟩ := List.mem_map.mp h
        have below := tidy.fresh other member
        rw [same, List.mem_singleton.mp last, turn] at below
        exact Nat.lt_irrefl _ below
      · intro other member
        obtain member | member := List.mem_append.mp member
        · exact Nat.lt_succ_of_lt (tidy.fresh other member)
        · rw [List.mem_singleton.mp member, turn]
          exact Nat.lt_succ_self _
      · intro other member
        obtain member | member := List.mem_append.mp member
        · exact tidy.inside other member
        · rw [List.mem_singleton.mp member, baseline, owner]
  | append isOpen opened fewer =>
      refine ⟨tidy.distinct, tidy.fresh, fun other member => (tidy.inside other member).trans ?_⟩
      change _ ≤ ((s.record _ _).log other.task.agentId).length
      rw [log_record]
      split
      · rw [List.length_append]
        exact Nat.le_add_right _ _
      · exact Nat.le_refl _
  | retains quiet retains =>
      refine ⟨?_, fun other member => ?_, fun other member => ?_⟩
      · rw [retains.turns]
        exact tidy.distinct
      all_goals obtain ⟨session, known, task, turn, baseline⟩ := retains.from member
      · rw [turn, retains.nextTurn]
        exact tidy.fresh session known
      · rw [baseline, task, retains.log]
        exact tidy.inside session known
  | read member owner =>
      exact ⟨tidy.distinct.sublist (List.filter_sublist.map _),
        fun other h => tidy.fresh other (List.mem_filter.mp h).1,
        fun other h => tidy.inside other (List.mem_filter.mp h).1⟩

section Steps

variable {agent : String} {turn : Nat} {appended : SessionEvent} {opened : List (String × Nat)}

theorem slice_record (inside : session.baseline ≤ (s.log session.task.agentId).length) :
    slice { s.record agent ⟨turn, appended⟩ with opened := opened } session =
      if session.task.agentId = agent then slice s session ++ [⟨turn, appended⟩]
      else slice s session := by
  change ((s.record agent ⟨turn, appended⟩).log session.task.agentId).drop session.baseline = _
  rw [log_record]
  split
  · exact List.drop_append_of_le_length inside
  · rfl

theorem pureSession_congr {other : Session} (log : t.log = s.log)
    (same : other.task = session.task ∧ other.turn = session.turn ∧
      other.baseline = session.baseline) : PureSession t other ↔ PureSession s session := by
  unfold PureSession slice
  rw [same.1, same.2.1, same.2.2, log]

theorem pure_finish_iff {done : Finished} (unread : done.read = none) :
    Pure (s.finish done) ↔ Pure s := by
  constructor
  · exact fun pure => ⟨pure.live, fun other member =>
      pure.finished other (List.mem_append_left _ member)⟩
  · refine fun pure => ⟨pure.live, ?_⟩
    intro other member
    obtain member | member := List.mem_append.mp member
    · exact pure.finished other member
    · obtain rfl := List.mem_singleton.mp member
      intro turn entries inputs read
      rw [unread] at read
      cases read

/-- A call that begins has nothing behind its baseline. -/
theorem pure_open_iff {nextTurn : Nat}
    (baseline : session.baseline = (s.log session.task.agentId).length) :
    Pure { s with opened := opened, nextTurn := nextTurn, live := s.live ++ [session] } ↔
      Pure s := by
  constructor
  · exact fun pure => ⟨fun other member => pure.live other (List.mem_append_left _ member),
      pure.finished⟩
  · refine fun pure => ⟨?_, pure.finished⟩
    intro other member
    obtain member | member := List.mem_append.mp member
    · exact pure.live other member
    · obtain rfl := List.mem_singleton.mp member
      intro entry read
      simp [slice, baseline] at read

/-- An event ends up in the slice of every call under way with its agent. -/
theorem pure_append_iff (tidy : Tidy s) :
    Pure { s.record agent ⟨turn, appended⟩ with opened := opened } ↔
      Pure s ∧ Quiet s (.append agent turn appended) := by
  constructor
  · refine fun pure => ⟨⟨?_, pure.finished⟩, ?_⟩
    · intro other member entry read
      have kept := pure.live other member entry
      rw [slice_record (tidy.inside other member)] at kept
      split at kept
      · exact kept (List.mem_append_left _ read)
      · exact kept read
    · intro other member here
      have last := pure.live other member
      rw [PureSession] at last
      rw [slice_record (tidy.inside other member), if_pos here] at last
      exact (last _ (List.mem_append_right _ List.mem_cons_self)).symm
  · rintro ⟨pure, quiet⟩
    refine ⟨?_, pure.finished⟩
    intro other member entry read
    rw [slice_record (tidy.inside other member)] at read
    split at read
    · rename_i here
      obtain read | read := List.mem_append.mp read
      · exact pure.live other member entry read
      · rw [List.mem_singleton.mp read]
        exact (quiet other member here).symm
    · exact pure.live other member entry read

theorem pure_retains_iff (retains : Retains s t) : Pure t ↔ Pure s := by
  constructor
  · refine fun pure => ⟨?_, retains.finished ▸ pure.finished⟩
    intro session member
    obtain ⟨other, known, same⟩ := retains.to member
    exact (pureSession_congr retains.log same).mp (pure.live other known)
  · refine fun pure => ⟨?_, retains.finished ▸ pure.finished⟩
    intro other member
    obtain ⟨session, known, same⟩ := retains.from member
    exact (pureSession_congr retains.log same).mpr (pure.live session known)

/-- A call that reads its slice moves from the live ones to the finished ones. -/
theorem pure_read_iff (tidy : Tidy s) (member : session ∈ s.live) (durationMs : Int) :
    Pure { s with
      live := s.live.filter fun other => decide (other.turn ≠ session.turn)
      finished := s.finished ++ [finishedOf s session durationMs] } ↔ Pure s := by
  have last : (finishedOf s session durationMs).Pure ↔ PureSession s session := by
    constructor
    · exact fun pure => pure _ _ _ rfl
    · rintro pure _ _ _ ⟨⟩
      exact pure
  constructor
  · refine fun pure => ⟨?_, fun done known =>
      pure.finished done (List.mem_append_left _ known)⟩
    intro other known
    by_cases same : other.turn = session.turn
    · rw [List.inj_on_of_nodup_map tidy.distinct known member same]
      exact last.mp (pure.finished _ (List.mem_append_right _ List.mem_cons_self))
    · exact pure.live other (List.mem_filter.mpr ⟨known, decide_eq_true same⟩)
  · refine fun pure => ⟨fun other known => pure.live other (List.mem_filter.mp known).1, ?_⟩
    intro done known
    obtain known | known := List.mem_append.mp known
    · exact pure.finished done known
    · rw [List.mem_singleton.mp known]
      exact last.mpr (pure.live session member)

/-- A step keeps the slices pure exactly when it is quiet. -/
theorem pure_step_iff (tidy : Tidy s) (moves : Moves runner s event t) :
    Pure t ↔ Pure s ∧ Quiet s event := by
  cases moves with
  | early done unread computed => exact (pure_finish_iff unread).trans (and_iff_left trivial).symm
  | opens known session owner turn baseline =>
      subst owner
      exact (pure_open_iff baseline).trans (and_iff_left trivial).symm
  | append isOpen opened fewer => exact pure_append_iff tidy
  | retains quiet retains => exact (pure_retains_iff retains).trans (and_iff_left quiet).symm
  | read member owner =>
      subst owner
      exact (pure_read_iff tidy member _).trans (and_iff_left trivial).symm

/-- The outcomes stay computed from what was read. -/
theorem computed_step (computed : ∀ done ∈ s.finished, Computed done)
    (moves : Moves runner s event t) : ∀ done ∈ t.finished, Computed done := by
  cases moves with
  | early done unread fine =>
      intro other member
      obtain member | member := List.mem_append.mp member
      · exact computed other member
      · exact List.mem_singleton.mp member ▸ fine
  | opens known session owner turn baseline => exact computed
  | append isOpen opened fewer => exact computed
  | retains quiet retains => exact retains.finished ▸ computed
  | read member owner =>
      intro other member
      obtain member | member := List.mem_append.mp member
      · exact computed other member
      · rw [List.mem_singleton.mp member]
        rfl

end Steps

/-- A call opens its turn only on an agent that is free: none of its turns is
open, and no other call is under way there. -/
def Exclusive (runner : AgentRunner) (s : State) : Event → Prop
  | .call task aborted thrown _ =>
    aborted = false → runner.known task.agentId = true → thrown = none →
      (∀ turn, (task.agentId, turn) ∉ s.opened) ∧
        ∀ session ∈ s.live, session.task.agentId ≠ task.agentId
  | _ => True

/-- Each call under way is alone on its agent. -/
structure Alone (s : State) : Prop where
  own : ∀ session ∈ s.live, ∀ turn, (session.task.agentId, turn) ∈ s.opened → turn = session.turn
  single : (s.live.map fun session => session.task.agentId).Nodup

theorem Alone.step (alone : Alone s) (moves : Moves runner s event t)
    (exclusive : Exclusive runner s event) : Alone t := by
  cases moves with
  | early done unread computed => exact ⟨alone.own, alone.single⟩
  | opens known session owner turn baseline =>
      obtain ⟨closed, free⟩ := exclusive rfl known rfl
      constructor
      · intro other member k isOpen
        obtain isOpen | isOpen := List.mem_append.mp isOpen <;>
          obtain member | member := List.mem_append.mp member
        · exact alone.own other member k isOpen
        · rw [List.mem_singleton.mp member, owner] at isOpen
          exact absurd isOpen (closed k)
        · exact absurd (congrArg Prod.fst (List.mem_singleton.mp isOpen)) (free other member)
        · rw [List.mem_singleton.mp member, turn]
          exact congrArg Prod.snd (List.mem_singleton.mp isOpen)
      · rw [List.map_append, List.nodup_append]
        refine ⟨alone.single, by simp, ?_⟩
        rintro a h _ last rfl
        obtain ⟨other, member, same⟩ := List.mem_map.mp h
        have here := List.mem_singleton.mp last
        exact free other member (same.trans (here.trans (congrArg Task.agentId owner)))
  | append isOpen opened fewer =>
      exact ⟨fun other member k isOpen => alone.own other member k (fewer.subset isOpen),
        alone.single⟩
  | retains quiet retains =>
      refine ⟨?_, retains.agents ▸ alone.single⟩
      intro other member k isOpen
      obtain ⟨session, known, task, turn, -⟩ := retains.from member
      rw [task, retains.opened] at isOpen
      exact (alone.own session known k isOpen).trans turn.symm
  | read member owner =>
      exact ⟨fun other known => alone.own other (List.mem_filter.mp known).1,
        alone.single.sublist (List.filter_sublist.map _)⟩

theorem Alone.quiet (alone : Alone s) (moves : Moves runner s event t) : Quiet s event := by
  cases moves with
  | append isOpen opened fewer =>
      exact fun session member here => (alone.own session member _ (here ▸ isOpen)).symm
  | retains quiet retains => exact quiet
  | _ => trivial

theorem tidy_start : Tidy start := by
  refine ⟨List.nodup_nil, fun _ h => ?_, fun _ h => ?_⟩ <;> cases h

theorem alone_start : Alone start := by
  refine ⟨?_, List.nodup_nil⟩
  intro _ h
  cases h

theorem pure_start : Pure start := by
  refine ⟨fun _ h => ?_, fun _ h => ?_⟩ <;> cases h

/-- Whatever the interleaving of the calls, their timers and signals and the
host, every outcome is derived from the events of the turn that the call opened,
if every call finds its agent free. What the calls read, or would read now, is
free of foreign events exactly when the host has appended none behind their
baselines. -/
theorem outcome_isolation (execution : (machine runner).run start es = some s) :
    ((machine runner).Meets (Exclusive runner) start es → ∀ done ∈ s.finished, done.Own) ∧
      ((machine runner).Meets Quiet start es ↔ Pure s) := by
  have computed := Machine.run_invariant (P := fun u => ∀ done ∈ u.finished, Computed done)
    (fun u e v kept taken => computed_step kept (moves_of_step taken)) (fun _ h => by cases h)
    execution
  constructor
  · intro meets
    have kept := Machine.run_invariant_of_meets (P := fun u => (Tidy u ∧ Alone u) ∧ Pure u)
      (fun u e v inv ok taken => by
        have moves := moves_of_step taken
        exact ⟨⟨inv.1.1.step moves, inv.1.2.step moves ok⟩,
          (pure_step_iff inv.1.1 moves).mpr ⟨inv.2, inv.1.2.quiet moves⟩⟩)
      ⟨⟨tidy_start, alone_start⟩, pure_start⟩ meets execution
    exact fun done member => (kept.2.finished done member).own (computed done member)
  · have within : (machine runner).Meets (fun _ _ => True) start es :=
      Machine.meets_of_mem (fun _ _ _ => trivial) _
    have decides : (machine runner).Meets Quiet start es ↔ ¬ ¬ Pure s := by
      refine Machine.meets_iff (P := Tidy) (B := fun u => ¬ Pure u)
        (fun u e v tidy _ taken => tidy.step (moves_of_step taken))
        (fun u e v tidy _ taken bad pure =>
          bad ((pure_step_iff tidy (moves_of_step taken)).mp pure).1)
        ?_ tidy_start (fun bad => bad pure_start) within
        execution
      intro u e v tidy _ good taken
      rw [pure_step_iff tidy (moves_of_step taken)]
      tauto
    exact decides.trans Classical.not_not

instance (done : Finished) : Decidable done.Own := by
  rw [Finished.Own]
  split <;> infer_instance

def anyAgent : AgentRunner := ⟨fun _ => true, none⟩

def taskFor (id : String) : Task where
  id := id
  agentId := "coder"
  prompt := "work"
  dependsOn := []
  timeoutMs := none

def ended (kind : String) (error : Option String) : SessionEvent :=
  .turnEnd (some ⟨some kind, error⟩)

/-- A call that is alone on its agent and completes. -/
def oneCall : List Event :=
  [.call (taskFor "first") false none 0,
   .append "coder" 0 (.assistantMessage (some [.text (some "done")]) false),
   .append "coder" 0 (ended "completed" none), .idle 0, .read 0 5]

theorem outcome_isolation_oneCall :
    ∃ s, (machine anyAgent).run start oneCall = some s ∧ s.finished.length = 1 ∧
      ∀ done ∈ s.finished, done.Own := by
  have ends : ((machine anyAgent).run start oneCall).any
      (fun s => decide (s.finished.length = 1)) = true := by
    decide
  obtain ⟨s, execution, one⟩ := (Option.any_eq_true _ _).mp ends
  refine ⟨s, execution, of_decide_eq_true one, (outcome_isolation execution).1 ?_⟩
  refine ⟨fun _ _ _ => ?_, fun _ _ => ?_⟩
  · constructor <;> simp [start]
  exact ⟨trivial, fun _ _ => ⟨trivial, fun _ _ => ⟨trivial, fun _ _ => ⟨trivial, fun _ _ =>
    trivial⟩⟩⟩⟩

/-- The first call is aborted, and a second one begins on the agent while the
turn of the first is still winding down. -/
def abortThenCall : List Event :=
  [.call (taskFor "first") false none 0, .abort 0, .call (taskFor "second") false none 0,
   .append "coder" 0 (.assistantMessage (some [.text (some "half a draft")]) true),
   .append "coder" 0 (ended "aborted" none),
   .append "coder" 1 (ended "error" (some "provider down")), .idle 1, .read 1 5]

/-- The outcome of the second task carries the text of the first. -/
theorem abortThenCall_leaks :
    ∃ s, (machine anyAgent).run start abortThenCall = some s ∧
      (∃ done ∈ s.finished, done.task.id = "second" ∧ done.outcome.text = some "half a draft") ∧
      ¬ ∀ done ∈ s.finished, done.Own := by
  have ends : ((machine anyAgent).run start abortThenCall).any (fun s =>
      (s.finished.any fun done => decide (done.task.id = "second") &&
        decide (done.outcome.text = some "half a draft")) &&
      !decide (∀ done ∈ s.finished, done.Own)) = true := by
    decide
  obtain ⟨s, execution, leaks⟩ := (Option.any_eq_true _ _).mp ends
  refine ⟨s, execution, ?_, ?_⟩
  · simpa using (Bool.and_eq_true_iff.mp leaks).1
  · simpa using (Bool.and_eq_true_iff.mp leaks).2

end MultiAgent.Native.Runner
