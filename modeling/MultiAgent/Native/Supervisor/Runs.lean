import MultiAgent.Native.Supervisor.Lifecycle

/-!
# What a supervisor is left in

Every assignment to the state is a move of the table, or the reset with which an
accepted run begins. A run that settles leaves a terminal state, but for two
exceptions that no `catch` of `run` covers: one thrown while it registers with
its signal, and one thrown while it reads `ok` off the report. They leave the
instance busy for good.
-/

namespace MultiAgent.Native.Supervisor

variable {text : Js → Except String String} {s t : Instance} {e : Event} {es : List Event}
variable {active : Active} {input : Js} {accepted : Accepted}

/-- The input lets a run register with its signal. -/
def Usable (input : Js) : Prop :=
  ∃ signal, input.read "signal" = .ok signal ∧
    (signal.isUndefined = true ∨ ∃ aborted, signal.read "aborted" = .ok aborted ∧
      (aborted.truthy = true ∨ signal.read "addEventListener" = .ok (.callable none)))

/-- The event keeps out of the two exceptions. -/
def Sound (text : Js → Except String String) (s : Instance) : Event → Prop
  | .call input => s.busy = false →
      (∃ accepted, validateSupervisorInput text input = .ok accepted) → Usable input
  | .settle (.ok report) => ∀ active, s.active = some active →
      active.latches = ⟨false, false⟩ → ∃ ok, report.read "ok" = .ok ok
  | .settle (.error _) | .abort | .timeout => True

/-- A move of the table, or the reset before an accepted run. -/
def Legal (change : SupervisorState × SupervisorState) : Prop :=
  assertTransition change.1 change.2 = .ok () ∨
    (change.2 = .created ∧ (change.1 = .created ∨ isTerminalState change.1 = true))

/-- No run is under way, and every call is turned away. -/
def Stuck (s : Instance) : Prop := s.active = none ∧ s.busy = true

/-- What every event keeps. -/
structure Kept (s : Instance) : Prop where
  legal : ∀ change ∈ s.changes, Legal change
  running : ∀ active, s.active = some active → s.state = .running
  between : s.busy = false → isTerminalState s.state = true ∨ (s.state = .created ∧ s.changes = [])

theorem invoke_ok_iff {value : Js} {callee : String} :
    value.invoke callee = .ok () ↔ value = .callable none := by
  cases value with
  | callable throws => cases throws <;> simp [Js.invoke]
  | _ => simp [Js.invoke]

theorem register_ok_iff : (∃ registered, register input = .ok registered) ↔ Usable input := by
  rw [register, Usable]
  cases read : input.read "signal" with
  | error error => simp [bind, Except.bind]
  | ok signal =>
      by_cases absent : signal.isUndefined = true
      · simp [bind, Except.bind, pure, Except.pure, absent]
      · cases flag : signal.read "aborted" with
        | error error => simp [bind, Except.bind, absent, flag]
        | ok aborted =>
            by_cases already : aborted.truthy = true
            · simp [bind, Except.bind, pure, Except.pure, absent, flag, already]
            · cases listen : signal.read "addEventListener" with
              | error error => simp [bind, Except.bind, absent, flag, already, listen]
              | ok addEventListener =>
                  have called := @invoke_ok_iff addEventListener "input.signal.addEventListener"
                  cases ends : addEventListener.invoke "input.signal.addEventListener" with
                  | error error =>
                      rw [ends] at called
                      have other : addEventListener ≠ .callable none := by
                        simpa using called.not
                      simp [bind, Except.bind, absent, flag, already, listen, ends, other]
                  | ok _ =>
                      obtain rfl := called.mp ends
                      simp [bind, Except.bind, pure, Except.pure, absent, flag, already, listen,
                        ends]

section Moves

@[simp] theorem assign_state (s : Instance) (target : SupervisorState) :
    (s.assign target).state = target := rfl

@[simp] theorem assign_active (s : Instance) (target : SupervisorState) :
    (s.assign target).active = s.active := rfl

@[simp] theorem finish_active (s : Instance) (settled : Settled) :
    (s.finish settled).active = none := rfl

@[simp] theorem finish_state (s : Instance) (settled : Settled) :
    (s.finish settled).state = s.state := rfl

@[simp] theorem finish_changes (s : Instance) (settled : Settled) :
    (s.finish settled).changes = s.changes := rfl

theorem move_eq {target : SupervisorState} {next : Instance → Instance}
    (legal : assertTransition s.state target = .ok ()) :
    s.move target next = next (s.assign target) := by
  simp only [Instance.move, legal]

/-- The instance when an accepted call has begun its run. -/
def begun (s : Instance) : Instance := (s.assign .created).assign .validating

theorem call_of_busy (busy : s.busy = true) (input : Js) :
    call text s input =
      { s with settled := s.settled ++ [.rejected (.other "Supervisor is already running")] } := by
  simp [call, busy]

theorem call_of_invalid {error : RunError} (free : s.busy = false)
    (judged : validateSupervisorInput text input = .error error) :
    call text s input = ((begun s).assign .failed).finish (.rejected error) := by
  simp only [call, free, Bool.false_eq_true, if_false]
  rw [move_eq rfl]
  simp only [judged]
  rw [move_eq rfl]
  rfl

theorem call_of_valid (free : s.busy = false)
    (judged : validateSupervisorInput text input = .ok accepted) :
    call text s input =
      dispatch (((begun s).assign .scheduled).assign .running) input accepted := by
  simp only [call, free, Bool.false_eq_true, if_false]
  rw [move_eq rfl]
  simp only [judged]
  rw [move_eq rfl, move_eq rfl]
  rfl

theorem thrownState_legal (latches : Latches) :
    assertTransition .running (thrownState latches) = .ok () ∧
      isTerminalState (thrownState latches) = true := by
  rw [thrownState]
  cases latches.timedOut <;> cases latches.cancelled <;> exact ⟨rfl, rfl⟩

theorem stateOf_legal (status : SupervisorRunStatus) :
    assertTransition .aggregating (stateOf status) = .ok () ∧
      isTerminalState (stateOf status) = true := by
  cases status <;> exact ⟨rfl, rfl⟩

theorem resume_of_throw (active : Active) (running : s.state = .running) (error : String) :
    ∃ settled, resume s active (.error error) =
      (s.assign (thrownState active.latches)).finish settled := by
  have legal : assertTransition s.state (thrownState active.latches) = .ok () := by
    rw [running]
    exact (thrownState_legal active.latches).1
  simp only [resume]
  rw [move_eq legal]
  exact ⟨_, rfl⟩

theorem resume_of_report (active : Active) (running : s.state = .running) (report : Js) :
    ∃ settled, resume s active (.ok report) =
      match aggregateStatus active.latches report with
      | .error _ => (s.assign .aggregating).finish settled
      | .ok status => ((s.assign .aggregating).assign (stateOf status)).finish settled := by
  have legal : assertTransition s.state .aggregating = .ok () := by
    rw [running]
    rfl
  simp only [resume]
  rw [move_eq legal]
  cases read : aggregateStatus active.latches report with
  | error error => exact ⟨_, rfl⟩
  | ok status =>
      dsimp only
      rw [move_eq (stateOf_legal status).1]
      exact ⟨_, rfl⟩

theorem aggregateStatus_ok_iff {latches : Latches} {report : Js} :
    (∃ status, aggregateStatus latches report = .ok status) ↔
      (latches = ⟨false, false⟩ → ∃ ok, report.read "ok" = .ok ok) := by
  obtain ⟨cancelled, timedOut⟩ := latches
  rw [aggregateStatus]
  cases timedOut with
  | true => simp
  | false =>
      cases cancelled with
      | true => simp
      | false => cases read : report.read "ok" <;> simp [bind, Except.bind, pure, Except.pure]

/-- On a typed report this is the status of the result. -/
theorem aggregateStatus_eq (input : SupervisorRunInput) (report : SupervisorStrategyReport)
    (durationMs : Int) (latches : Latches) :
    aggregateStatus latches (.object [("ok", .bool report.envelope.ok)]) =
      .ok (aggregate input report durationMs latches).status := by
  obtain ⟨cancelled, timedOut⟩ := latches
  cases timedOut with
  | true => rfl
  | false =>
      cases cancelled with
      | true => rfl
      | false => cases ok : report.envelope.ok <;>
          simp [aggregateStatus, aggregate, ok, Js.read, Js.truthy, bind, Except.bind, pure,
            Except.pure]

end Moves

theorem Kept.changes_assign (kept : Kept s) {target : SupervisorState}
    (legal : Legal (s.state, target)) : ∀ change ∈ (s.assign target).changes, Legal change :=
  List.forall_mem_append.mpr ⟨kept.legal, List.forall_mem_singleton.mpr legal⟩

theorem free_cases (kept : Kept s) (free : s.busy = false) :
    s.state = .created ∨ isTerminalState s.state = true :=
  (kept.between free).symm.imp_left And.left

/-- The changes of an accepted call, up to its validation. -/
theorem Kept.begun (kept : Kept s) (free : s.busy = false) :
    ∀ change ∈ (begun s).changes, Legal change := by
  have reset : ∀ change ∈ (s.assign .created).changes, Legal change :=
    kept.changes_assign (.inr ⟨rfl, free_cases kept free⟩)
  exact List.forall_mem_append.mpr ⟨reset, List.forall_mem_singleton.mpr (.inl rfl)⟩

/-- What one event does to an instance: the call is turned away, a run is under
way behind it, a run has ended well, or it has left the instance stuck. The event
is sound in all cases but the last. -/
inductive Effect (sound : Prop) (s t : Instance) : Prop
  | away (holds : sound) (busy : s.busy = true) (state : t.state = s.state)
      (changes : t.changes = s.changes) (active : t.active = s.active)
  | underWay (holds : sound) (open' : ¬ Stuck s) (active : t.active.isSome = true)
      (state : t.state = .running) (legal : ∀ change ∈ t.changes, Legal change)
  | ended (holds : sound) (open' : ¬ Stuck s) (active : t.active = none)
      (terminal : isTerminalState t.state = true) (legal : ∀ change ∈ t.changes, Legal change)
  | broken (fails : ¬ sound) (open' : ¬ Stuck s) (active : t.active = none) (busy : t.busy = true)
      (legal : ∀ change ∈ t.changes, Legal change)

theorem call_effect (kept : Kept s) (input : Js) :
    Effect (Sound text s (.call input)) s (call text s input) := by
  cases busy : s.busy with
  | true =>
      have holds : Sound text s (.call input) := fun free => by simp [busy] at free
      rw [call_of_busy busy]
      exact .away holds busy rfl rfl rfl
  | false =>
      have open' : ¬ Stuck s := fun stuck => by simp [stuck.2] at busy
      have begun := kept.begun busy
      cases judged : validateSupervisorInput text input with
      | error error =>
          have holds : Sound text s (.call input) := by
            rintro - ⟨accepted, valid⟩
            simp [judged] at valid
          rw [call_of_invalid busy judged]
          refine .ended holds open' rfl rfl ?_
          exact List.forall_mem_append.mpr ⟨begun, List.forall_mem_singleton.mpr (.inl rfl)⟩
      | ok accepted =>
          have sound_iff : Sound text s (.call input) ↔ Usable input :=
            ⟨fun sound => sound busy ⟨accepted, judged⟩, fun usable _ _ => usable⟩
          have scheduled : ∀ change ∈ ((Supervisor.begun s).assign .scheduled).changes,
              Legal change :=
            List.forall_mem_append.mpr ⟨begun, List.forall_mem_singleton.mpr (.inl rfl)⟩
          have legal : ∀ change ∈ (((Supervisor.begun s).assign .scheduled).assign
              .running).changes, Legal change :=
            List.forall_mem_append.mpr ⟨scheduled, List.forall_mem_singleton.mpr (.inl rfl)⟩
          rw [call_of_valid busy judged, dispatch]
          cases registered : register input with
          | ok signal =>
              have usable := register_ok_iff.mp ⟨signal, registered⟩
              exact .underWay (sound_iff.mpr usable) open' rfl rfl legal
          | error error =>
              have unusable : ¬ Usable input := fun usable => by
                obtain ⟨signal, ok⟩ := register_ok_iff.mpr usable
                simp [registered] at ok
              exact .broken (mt sound_iff.mp unusable) open' rfl rfl legal

theorem resume_effect (kept : Kept s) (here : s.active = some active)
    (outcome : Except String Js) :
    Effect (Sound text s (.settle outcome)) s (resume s active outcome) := by
  have running := kept.running active here
  have open' : ¬ Stuck s := fun stuck => by simp [stuck.1] at here
  cases outcome with
  | error error =>
      obtain ⟨settled, resumed⟩ := resume_of_throw active running error
      obtain ⟨legal, terminal⟩ := thrownState_legal active.latches
      rw [resumed]
      exact .ended trivial open' rfl terminal
        (kept.changes_assign (.inl (by rwa [running])))
  | ok report =>
      have sound_iff : Sound text s (.settle (.ok report)) ↔
          ∃ status, aggregateStatus active.latches report = .ok status := by
        rw [aggregateStatus_ok_iff]
        constructor
        · exact fun sound => sound active here
        · intro readable other same
          rw [here] at same
          cases same
          exact readable
      have aggregating : ∀ change ∈ (s.assign .aggregating).changes, Legal change :=
        kept.changes_assign (.inl (by rw [running]; rfl))
      obtain ⟨settled, resumed⟩ := resume_of_report active running report
      rw [resumed]
      cases read : aggregateStatus active.latches report with
      | ok status =>
          obtain ⟨legal, terminal⟩ := stateOf_legal status
          refine .ended (sound_iff.mpr ⟨status, read⟩) open' rfl terminal ?_
          exact List.forall_mem_append.mpr
            ⟨aggregating, List.forall_mem_singleton.mpr (.inl legal)⟩
      | error error =>
          have fails : ¬ Sound text s (.settle (.ok report)) := fun sound => by
            obtain ⟨status, ok⟩ := sound_iff.mp sound
            simp [read] at ok
          exact .broken fails open' rfl rfl aggregating

theorem step_effect (kept : Kept s) (transition : step text s e = some t) :
    Effect (Sound text s e) s t := by
  cases e with
  | call input =>
      cases transition
      exact call_effect kept input
  | settle outcome =>
      cases here : s.active with
      | none => simp [step, here] at transition
      | some active =>
          simp only [step, here, Option.map_some, Option.some.injEq] at transition
          exact transition ▸ resume_effect kept here outcome
  | abort | timeout =>
      cases here : s.active with
      | none => simp [step, here] at transition
      | some active =>
          simp only [step, here, Option.ite_none_right_eq_some, Option.some.injEq] at transition
          obtain ⟨-, rfl⟩ := transition
          refine .underWay trivial ?_ rfl (kept.running active here) kept.legal
          intro stuck
          simp [stuck.1] at here

theorem busy_eq_false_of_terminal (terminal : isTerminalState s.state = true) :
    s.busy = false := by
  rw [Instance.busy]
  cases state : s.state <;> simp_all [isTerminalState]

theorem Effect.kept {sound : Prop} (kept : Kept s) (effect : Effect sound s t) : Kept t := by
  cases effect with
  | away holds busy state changes active =>
      have sameBusy : t.busy = s.busy := by simp only [Instance.busy, state]
      refine ⟨changes ▸ kept.legal, ?_, ?_⟩
      · intro a here
        rw [state]
        exact kept.running a (active ▸ here)
      · intro free
        simp [sameBusy, busy] at free
  | underWay holds open' active state legal =>
      refine ⟨legal, fun _ _ => state, ?_⟩
      intro free
      simp [Instance.busy, state] at free
  | ended holds open' active terminal legal =>
      exact ⟨legal, fun a here => by simp [active] at here, fun _ => .inl terminal⟩
  | broken fails open' active busy legal =>
      exact ⟨legal, fun a here => by simp [active] at here, fun free => by simp [busy] at free⟩

/-- From an instance that is not stuck, exactly the events that are not sound
leave it stuck. -/
theorem Effect.stuck_iff {sound : Prop} (effect : Effect sound s t) (open' : ¬ Stuck s) :
    Stuck t ↔ ¬ sound := by
  cases effect with
  | away holds busy state changes active =>
      have sameBusy : t.busy = s.busy := by simp only [Instance.busy, state]
      simp only [holds, not_true_eq_false, iff_false]
      exact fun stuck => open' ⟨active ▸ stuck.1, busy⟩
  | underWay holds _ active =>
      simp only [holds, not_true_eq_false, iff_false]
      exact fun stuck => by simp [stuck.1] at active
  | ended holds _ active terminal =>
      simp only [holds, not_true_eq_false, iff_false]
      exact fun stuck => absurd stuck.2 (by simp [busy_eq_false_of_terminal terminal])
  | broken fails _ active busy => exact iff_of_true ⟨active, busy⟩ fails

theorem Effect.stays {sound : Prop} (effect : Effect sound s t) (stuck : Stuck s) : Stuck t := by
  cases effect with
  | away holds busy state changes active =>
      have sameBusy : t.busy = s.busy := by simp only [Instance.busy, state]
      exact ⟨active.trans stuck.1, sameBusy.trans busy⟩
  | underWay _ open' | ended _ open' | broken _ open' => exact absurd stuck open'

theorem kept_fresh : Kept fresh :=
  ⟨by simp [fresh], by simp [fresh], fun _ => .inr ⟨rfl, rfl⟩⟩

/-- Over any calls of `run`, with any inputs and strategies: the state only makes
moves of the table and the resets of accepted runs; a call under way has every
other call turned away; and the run keeps out of the two exceptions exactly when
the instance is not left busy without a run. Then, between runs, the state is
terminal once a run has settled, and the next call is accepted. -/
theorem supervisor_lifecycle (execution : (machine text).run fresh es = some s) :
    (∀ change ∈ s.changes, Legal change) ∧
    (s.active.isSome = true → ∀ input, call text s input =
      { s with settled := s.settled ++ [.rejected (.other "Supervisor is already running")] }) ∧
    ((machine text).Meets (Sound text) fresh es ↔ ¬ Stuck s) ∧
    ((machine text).Meets (Sound text) fresh es → s.active = none →
      (isTerminalState s.state = true ∨ (s.state = .created ∧ s.changes = [])) ∧
        ∀ input, ∃ rest, (call text s input).changes =
          s.changes ++ (s.state, .created) :: (.created, .validating) :: rest) := by
  have kept : Kept s :=
    Machine.run_invariant (fun _ _ _ inv transition => (step_effect inv transition).kept inv)
      kept_fresh execution
  have meets : (machine text).Meets (Sound text) fresh es ↔ ¬ Stuck s := by
    have within : (machine text).Meets (fun _ _ => True) fresh es :=
      Machine.meets_of_mem (fun _ _ _ => trivial) fresh
    refine Machine.meets_iff (P := Kept) ?_ ?_ ?_ kept_fresh ?_ within execution
    · exact fun _ _ _ inv _ transition => (step_effect inv transition).kept inv
    · exact fun _ _ _ inv _ transition stuck => (step_effect inv transition).stays stuck
    · exact fun _ _ _ inv _ open' transition => (step_effect inv transition).stuck_iff open'
    · exact fun stuck => Bool.false_ne_true stuck.2
  refine ⟨kept.legal, ?_, meets, ?_⟩
  · intro underWay input
    obtain ⟨active, here⟩ := Option.isSome_iff_exists.mp underWay
    exact call_of_busy (by simp [Instance.busy, kept.running active here]) input
  · intro sound idle
    have free : s.busy = false := by
      cases busy : s.busy with
      | false => rfl
      | true => exact absurd ⟨idle, busy⟩ (meets.mp sound)
    refine ⟨kept.between free, ?_⟩
    intro input
    cases judged : validateSupervisorInput text input with
    | error error =>
        refine ⟨[(.validating, .failed)], ?_⟩
        simp [call_of_invalid free judged, begun, Instance.assign]
    | ok accepted =>
        refine ⟨[(.validating, .scheduled), (.scheduled, .running)], ?_⟩
        rw [call_of_valid free judged, dispatch]
        cases register input <;> simp [begun, Instance.assign, Instance.finish]

/-- One step for one agent. -/
def publishInput : Js :=
  .object [("runId", .string "run-1"), ("input", .string "publish"),
    ("plan", .object [("strategy", .string "sequential"),
      ("steps", .array [.object [("agentId", .string "writer"), ("prompt", .string "write")]]),
      ("options", .object [])])]

/-- `String(value)` of the few values that the inputs here have. -/
def plainText : Js → Except String String
  | .string value => .ok value
  | _ => .ok "[object Object]"

def okReport : Js := .object [("ok", .bool true)]

theorem supervisor_lifecycle_publish :
    ∃ s, (machine plainText).run fresh [.call publishInput, .settle (.ok okReport)] = some s ∧
      s.state = .completed ∧ ∃ rest, (call plainText s publishInput).changes =
        s.changes ++ (s.state, .created) :: (.created, .validating) :: rest := by
  have execution : ∃ s, (machine plainText).run fresh
      [.call publishInput, .settle (.ok okReport)] = some s := ⟨_, rfl⟩
  obtain ⟨s, execution⟩ := execution
  have sound : (machine plainText).Meets (Sound plainText) fresh
      [.call publishInput, .settle (.ok okReport)] := by
    refine ⟨fun _ _ => ⟨.undefined, rfl, .inl rfl⟩, fun t _ => ⟨?_, fun _ _ => trivial⟩⟩
    exact fun _ _ _ => ⟨.bool true, rfl⟩
  have ends : s.state = .completed ∧ s.active = none := by
    cases execution
    exact ⟨rfl, rfl⟩
  exact ⟨s, execution, ends.1, ((supervisor_lifecycle execution).2.2.2 sound ends.2).2 _⟩

/-- A strategy returns `null`: the run rejects while the state is `aggregating`,
and the next call is turned away. -/
theorem nullReport_sticks :
    ∃ s, (machine plainText).run fresh [.call publishInput, .settle (.ok .null)] = some s ∧
      s.active = none ∧ s.state = .aggregating ∧
      call plainText s publishInput =
        { s with settled := s.settled ++ [.rejected (.other "Supervisor is already running")] } :=
  ⟨_, rfl, rfl, rfl, rfl⟩

end MultiAgent.Native.Supervisor
