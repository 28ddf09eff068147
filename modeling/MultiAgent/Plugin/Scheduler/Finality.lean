import MultiAgent.Plugin.Scheduler.Moves

/-!
# Results when the callback raises

`_collect` takes a task out of its table before `_finish` calls the callback; `_skip_blocked`,
`_launch_ready` and `_expire` do so only behind it. Where the callback raises at one of the
latter, `_abort` finds the task in its table and records it again, as cancelled; and where it
raises within `_abort`, the tasks behind are left as they are. `Quiet` says that neither
happens.
-/

namespace MultiAgent.Plugin.TaskScheduler

variable {α : Type} {scheduler : TaskScheduler} {deadline context : Option ℚ}
  {iter : List String → List String} {plan : TaskPlan} {status : String → TaskStatus}
  {s t u : RunState α} {event : Event α} {es : List (Event α)} {onEvent : OnEvent α}
  {task : Task} {result : TaskResult α} {imposed : Task → TaskResult α → Prop}
  {e : PyException}

/-- The result that every call of the callback was about is still the one that is recorded, and
a task has the status of its recorded result. -/
structure Consistent (s : RunState α) : Prop where
  logged : ∀ call ∈ s.events, s.results.get? call.2.taskId = some call.2
  stated : ∀ id result, s.results.get? id = some result → s.status id = result.status

theorem Consistent.start (plan : TaskPlan) (status : String → TaskStatus) :
    Consistent (start plan status : RunState α) := by
  refine ⟨fun _ h => absurd h List.not_mem_nil, ?_⟩
  intro id result found
  cases found

/-- Every result that was recorded still is. -/
def Keeps (s t : RunState α) : Prop :=
  ∀ id result, s.results.get? id = some result → t.results.get? id = some result

theorem Keeps.refl (s : RunState α) : Keeps s s := fun _ _ found => found

theorem Keeps.trans (first : Keeps s t) (second : Keeps t u) : Keeps s u :=
  fun id result found => second id result (first id result found)

theorem Keeps.record (onEvent : OnEvent α) (fresh : task.id ∉ s.results.keys)
    (own : result.taskId = task.id) : Keeps s (s.record onEvent task result) := by
  intro id kept found
  have differs : id ≠ result.taskId := by
    rintro rfl
    exact fresh (own ▸ Dict.mem_keys_iff.mpr ⟨kept, found⟩)
  exact (Dict.get?_set_of_ne differs).trans found

/-- A task without a result gets one. -/
theorem Consistent.record (consistent : Consistent s) (onEvent : OnEvent α)
    (fresh : task.id ∉ s.results.keys) (own : result.taskId = task.id) :
    Consistent (s.record onEvent task result) := by
  have calls : ∀ call ∈ (s.record onEvent task result).events,
      call ∈ s.events ∨ call = (task, result) := by
    intro call member
    change call ∈ (if onEvent.isSome then s.events ++ [(task, result)] else s.events) at member
    split at member
    · exact (List.mem_append.mp member).imp_right List.mem_singleton.mp
    · exact .inl member
  refine ⟨?_, ?_⟩
  · intro call member
    obtain member | rfl := calls call member
    · exact Keeps.record onEvent fresh own _ _ (consistent.logged call member)
    · exact Dict.get?_set_self
  · intro id result' found
    change (s.results.set result.taskId result).get? id = _ at found
    change Function.update s.status task.id result.status id = _
    rw [Dict.get?_set, own] at found
    split at found
    · rename_i same
      rw [same, Function.update_self, Option.some.inj found]
    · rename_i differs
      rw [Function.update_of_ne differs]
      exact consistent.stated id result' found

section Moves

theorem Tracked.move (tracked : Tracked plan s) (move : Move Closes onEvent s t) :
    Tracked plan t := by
  cases move with
  | settle member closes passes => exact tracked.settle member closes
  | mark member => exact tracked.restate rfl rfl rfl
  | launch state member => exact tracked.launch state member
  | complete member taken passes => exact tracked.complete member taken
  | control control => exact tracked.restate rfl rfl rfl

theorem Consistent.move (consistent : Consistent s) (tracked : Tracked plan s)
    (move : Move Closes onEvent s t) : Consistent t := by
  cases move with
  | settle member closes passes =>
      have after := consistent.record onEvent (tracked.pendingOpen _ member) closes.own
      exact ⟨after.logged, after.stated⟩
  | @mark task member =>
      refine ⟨consistent.logged, ?_⟩
      intro id result found
      have differs : id ≠ task.id := by
        rintro rfl
        exact tracked.pendingOpen task member (Dict.mem_keys_iff.mpr ⟨result, found⟩)
      exact (Function.update_of_ne differs _ _).trans (consistent.stated id result found)
  | launch state member => exact ⟨consistent.logged, consistent.stated⟩
  | complete member taken passes =>
      have after := consistent.record onEvent (tracked.runningOpen _ member) taken.own
      exact ⟨after.logged, after.stated⟩
  | control control => exact ⟨consistent.logged, consistent.stated⟩

theorem Keeps.move (tracked : Tracked plan s) (move : Move Closes onEvent s t) : Keeps s t := by
  cases move with
  | settle member closes passes =>
      exact Keeps.record onEvent (tracked.pendingOpen _ member) closes.own
  | mark member => exact Keeps.refl s
  | launch state member => exact Keeps.refl s
  | complete member taken passes =>
      exact Keeps.record onEvent (tracked.runningOpen _ member) taken.own
  | control control => exact Keeps.refl s

/-- The callback has been called between the two states, and has not raised. -/
def Heard (onEvent : OnEvent α) (s t : RunState α) : Prop :=
  ∃ calls, t.events = s.events ++ calls ∧ ∀ call ∈ calls, Passes onEvent call.1 call.2

theorem Heard.refl (onEvent : OnEvent α) (s : RunState α) : Heard onEvent s s :=
  ⟨[], by simp, fun _ h => absurd h List.not_mem_nil⟩

theorem Heard.trans (first : Heard onEvent s t) (second : Heard onEvent t u) :
    Heard onEvent s u := by
  obtain ⟨calls, shape, passes⟩ := first
  obtain ⟨calls', shape', passes'⟩ := second
  refine ⟨calls ++ calls', by rw [shape', shape, List.append_assoc], ?_⟩
  intro call member
  exact (List.mem_append.mp member).elim (passes call) (passes' call)

theorem Heard.record (passes : Passes onEvent task result) :
    Heard onEvent s (s.record onEvent task result) := by
  by_cases present : onEvent.isSome
  · refine ⟨[(task, result)], if_pos present, ?_⟩
    intro call member
    rw [List.mem_singleton.mp member]
    exact passes
  · exact ⟨[], (if_neg present).trans (List.append_nil _).symm,
      fun _ h => absurd h List.not_mem_nil⟩

theorem Heard.move {given : Task → TaskResult α → Prop} (move : Move given onEvent s t) :
    Heard onEvent s t := by
  cases move with
  | settle member closes passes => exact Heard.record passes
  | mark member => exact Heard.refl onEvent s
  | launch state member => exact Heard.refl onEvent s
  | complete member taken passes => exact Heard.record passes
  | control control => exact Heard.refl onEvent s

/-- What moves do when no result of an execution is a foreign one. -/
theorem moves_consistent (tracked : Tracked plan s) (consistent : Consistent s)
    (moves : Moves Closes onEvent s t) :
    Tracked plan t ∧ Consistent t ∧ Keeps s t ∧ Heard onEvent s t ∧
      ∀ task, t.Holds task → s.Holds task := by
  induction moves with
  | refl => exact ⟨tracked, consistent, Keeps.refl s, Heard.refl onEvent s, fun _ h => h⟩
  | tail _ move ih =>
      obtain ⟨tracked, consistent, kept, heard, places⟩ := ih
      refine ⟨tracked.move move, consistent.move tracked move,
        kept.trans (Keeps.move tracked move), heard.trans (Heard.move move), ?_⟩
      intro task holds
      apply places
      cases move with
      | settle member closes passes =>
          exact holds.imp_left fun h => (mem_dropPending.mp h).1
      | mark member => exact holds
      | launch state member =>
          obtain h | ⟨holder, h, rfl⟩ := holds
          · exact .inl (mem_dropPending.mp h).1
          · obtain h | h := List.mem_append.mp h
            · exact .inr ⟨holder, h, rfl⟩
            · exact .inl (List.mem_singleton.mp h ▸ member)
      | complete member taken passes =>
          exact holds.imp_right fun ⟨holder, h, same⟩ => ⟨holder, (mem_dropRunning.mp h).1, same⟩
      | control control => exact holds

end Moves

section Abort

/-- The result that `_abort` gives to a task. -/
def cancelled (task : Task) : TaskResult α :=
  ⟨task.id, .cancelled, none, some "cancelled", task.agent, 0⟩

/-- Between the rounds of `_abort`, begun in `s`, with `rest` to come. -/
structure Aborting (onEvent : OnEvent α) (s : RunState α) (rest : List Task) (t : RunState α) :
    Prop where
  consistent : Consistent t
  kept : Keeps s t
  heard : Heard onEvent s t
  distinct : (rest.map Task.id).Nodup
  fresh : ∀ task ∈ rest, task.id ∉ t.results.keys

theorem abortAll_consistent (l later : List Task)
    (quiet : ∀ task ∈ l, Passes onEvent task (cancelled task)) :
    Triple (Aborting onEvent s (l ++ later)) (forM l (abortTask onEvent))
      (fun _ => Aborting onEvent s later) fun _ _ => False := by
  induction l with
  | nil => exact Triple.pure fun _ before => before
  | cons head rest ih =>
      obtain ⟨here, quiet⟩ := List.forall_mem_cons.mp quiet
      refine Triple.bind (finish_calls ?_ fun _ _ _ raised => here.not_raisesAt raised)
        fun _ => ih quiet
      intro t before _
      obtain ⟨fresh, distinct⟩ := List.nodup_cons.mp before.distinct
      have open_ := before.fresh head List.mem_cons_self
      refine ⟨before.consistent.record onEvent open_ rfl,
        before.kept.trans (Keeps.record onEvent open_ rfl),
        before.heard.trans (Heard.record here), distinct, ?_⟩
      intro task member key
      obtain same | key := Dict.mem_keys_set.mp key
      · have same : task.id = head.id := same
        exact fresh (same ▸ List.mem_map_of_mem member)
      · exact before.fresh task (List.mem_cons_of_mem _ member) key

/-- The tasks in the tables have no result yet. -/
structure Unfinished (plan : TaskPlan) (s : RunState α) : Prop extends Tables plan s where
  fresh : ∀ task, s.Holds task → task.id ∉ s.results.keys

theorem Tracked.unfinished (tracked : Tracked plan s) : Unfinished plan s where
  pendingKnown := tracked.pendingKnown
  runningKnown := tracked.runningKnown
  pendingDistinct := tracked.pendingDistinct
  runningDistinct := tracked.runningDistinct
  apart := tracked.apart
  fresh := by
    rintro task (member | ⟨state, member, rfl⟩)
    · exact tracked.pendingOpen task member
    · exact tracked.runningOpen state member

/-- The tasks that `_abort` goes through, one after the other. -/
theorem Unfinished.aborting (unfinished : Unfinished plan s) (consistent : Consistent s)
    (onEvent : OnEvent α) :
    Aborting onEvent s (s.running.map Running.task ++ s.pending) s := by
  refine ⟨consistent, Keeps.refl s, Heard.refl onEvent s, ?_, ?_⟩
  · rw [List.map_append, List.map_map, List.nodup_append]
    refine ⟨unfinished.runningDistinct, unfinished.pendingDistinct, ?_⟩
    intro id running other pending same
    obtain ⟨state, place, rfl⟩ := List.mem_map.mp running
    obtain ⟨task, member, rfl⟩ := List.mem_map.mp pending
    exact unfinished.apart task member state place same
  · intro task member
    obtain member | member := List.mem_append.mp member
    · obtain ⟨state, place, same⟩ := List.mem_map.mp member
      exact unfinished.fresh task (.inr ⟨state, place, same⟩)
    · exact unfinished.fresh task (.inl member)

theorem abort_consistent (unfinished : Unfinished plan s) (consistent : Consistent s)
    (quiet : ∀ task, s.Holds task → Passes onEvent task (cancelled task)) :
    Triple (fun t => t = s) (abort onEvent)
      (fun _ t => Consistent t ∧ Keeps s t ∧ Heard onEvent s t ∧
        (Covered plan s → Finished plan t.results))
      fun _ _ => False := by
  have loops : Triple (fun t => t = s) (abort onEvent) (fun _ => Aborting onEvent s [])
      fun _ _ => False := by
    apply Triple.get
    intro t begun
    subst begun
    refine Triple.bind ((abortAll_consistent _ t.pending ?_).of_entry
      (unfinished.aborting consistent onEvent)) fun _ => ?_
    · intro task member
      obtain ⟨state, place, same⟩ := List.mem_map.mp member
      exact quiet task (.inr ⟨state, place, same⟩)
    · have last : Triple (Aborting onEvent t (t.pending ++ []))
          (forM t.pending (abortTask onEvent)) _ _ :=
        abortAll_consistent t.pending [] fun task member => quiet task (.inl member)
      rwa [List.append_nil] at last
  have finishes : Triple (fun t => t = s) (abort onEvent)
      (fun _ t => Covered plan s → Finished plan t.results) fun e _ => Raises onEvent e :=
    abort_spec.of_entry id
  exact (loops.and finishes).conseq (fun _ h => h)
    (fun _ _ post => ⟨post.1.consistent, post.1.kept, post.1.heard, post.2⟩)
    fun _ _ raised => raised.1

end Abort

/-- Every task of the plan has a recorded result, and its terminal status. -/
def Complete (plan : TaskPlan) (s : RunState α) : Prop :=
  ∀ task ∈ plan.tasks, ∃ result, s.results.get? task.id = some result ∧
    result.status.isTerminal = true ∧ s.status task.id = result.status

/-- The step ends the run with the exception of one of its calls of the callback. -/
def Breaks (onEvent : OnEvent α) (s t : RunState α) : Prop :=
  ∃ e last calls, t.control = .raised e last ∧ t.events = s.events ++ calls ∧
    ∃ call ∈ calls, RaisesAt onEvent call.1 call.2 e

theorem Heard.not_breaks (heard : Heard onEvent s t) : ¬ Breaks onEvent s t := by
  obtain ⟨calls, shape, passes⟩ := heard
  rintro ⟨e, last, calls', -, shape', call, member, raised⟩
  rw [shape] at shape'
  rw [List.append_cancel_left shape'] at passes
  exact (passes call member).not_raisesAt raised

theorem Finished.complete (finished : Finished plan s.results) (consistent : Consistent s) :
    Complete plan s := by
  intro task member
  obtain ⟨result, found⟩ := Dict.mem_keys_iff.mp (finished.full task member)
  exact ⟨result, found, (finished.recorded _ _ found).2.2, consistent.stated _ _ found⟩

section Guarded

/-- Where an exception leaves: no task has two results, and unless the callback has not raised,
no task is lost. -/
structure Parted (plan : TaskPlan) (onEvent : OnEvent α) (s t : RunState α) : Prop where
  unfinished : Unfinished plan t
  consistent : Consistent t
  kept : Keeps s t
  places : ∀ task, t.Holds task → s.Holds task
  whole : Heard onEvent s t ∨ Covered plan t

theorem Halted.parted (tracked : Tracked plan s) (consistent : Consistent s)
    (quiet : ∀ task result, s.Holds task → imposed task result → Passes onEvent task result)
    (halted : Halted Closes imposed onEvent s e t) : Parted plan onEvent s t := by
  obtain ⟨u, moves, exit⟩ := halted
  obtain ⟨tracked, consistent, kept, heard, places⟩ :=
    moves_consistent tracked consistent moves
  cases exit with
  | early raised holds ruled =>
      exact absurd raised (quiet _ _ (places _ holds) ruled).not_raisesAt
  | collected raised member taken =>
      have whole : Tracked plan ((u.record onEvent _ _).dropRunning _) :=
        tracked.complete member taken
      have open_ := tracked.runningOpen _ member
      have after := consistent.record onEvent open_ taken.own
      refine ⟨whole.unfinished, ⟨after.logged, after.stated⟩,
        kept.trans (Keeps.record onEvent open_ taken.own), ?_, .inr whole.toCovered⟩
      intro task holds
      exact places task (holds.imp_right fun ⟨holder, h, same⟩ =>
        ⟨holder, (mem_dropRunning.mp h).1, same⟩)
  | @escaped state member =>
      have fewer : ∀ task, (u.dropRunning state.task.id).Holds task → u.Holds task :=
        fun task holds => holds.imp_right fun ⟨holder, h, same⟩ =>
          ⟨holder, (mem_dropRunning.mp h).1, same⟩
      have unfinished := tracked.unfinished
      refine ⟨⟨unfinished.toTables.dropRunning _, ?_⟩,
        ⟨consistent.logged, consistent.stated⟩, kept,
        fun task holds => places task (fewer task holds), .inl heard⟩
      exact fun task holds => unfinished.fresh task (fewer task holds)
  | plain => exact ⟨tracked.unfinished, consistent, kept, places, .inl heard⟩

theorem guarded_final {body : Program α Unit} (tracked : Tracked plan s)
    (consistent : Consistent s)
    (normal : Triple (fun t => t = s) body (fun _ => Moves Closes onEvent s)
      (Halted Closes imposed onEvent s))
    (quiet : ∀ task result, s.Holds task → imposed task result ∨ result = cancelled task →
      Passes onEvent task result) :
    Consistent (guarded onEvent body s) ∧ Keeps s (guarded onEvent body s) ∧
      (Breaks onEvent s (guarded onEvent body s) → Complete plan (guarded onEvent body s)) := by
  refine guarded_spec
    (G := fun t => Consistent t ∧ Keeps s t ∧ (Breaks onEvent s t → Complete plan t))
    (normal.imp_post ?_) (fun e => Triple.entry fun t halted => ?_) rfl
  · intro _ t moves
    obtain ⟨-, consistent, kept, heard, -⟩ := moves_consistent tracked consistent moves
    exact ⟨consistent, kept, fun breaks => absurd breaks heard.not_breaks⟩
  · obtain ⟨unfinished, consistent, first, places, whole⟩ := halted.parted tracked consistent
      fun task result holds ruled => quiet task result holds (.inl ruled)
    refine (abort_consistent unfinished consistent fun task holds =>
      quiet task _ (places task holds) (.inr rfl)).conseq (fun _ h => h) ?_ fun _ _ h => h.elim
    rintro _ u ⟨consistent, second, heard, finished⟩
    have restated : Consistent { u with control := .raised e u.results } :=
      ⟨consistent.logged, consistent.stated⟩
    refine ⟨restated, first.trans second, fun breaks => ?_⟩
    obtain before | covered := whole
    · have heard : Heard onEvent s { u with control := .raised e u.results } := before.trans heard
      exact absurd breaks heard.not_breaks
    · exact Finished.complete (s := { u with control := .raised e u.results })
        (finished covered) restated

end Guarded

/-- The results that the scheduler gives in the event to a task that is still in its table. -/
def Imposed : Event α → Task → TaskResult α → Prop
  | .pass _ => Dismissed
  | .wake wake => Overdue wake.done

/-- The callback does not raise at a result that is given to a task in its table, neither in the
event itself nor in the abort behind it. -/
def Quiet (s : RunState α) (event : Event α) : Prop :=
  ∀ task result, s.Holds task → Imposed event task result ∨ result = cancelled task →
    Passes event.onEvent task result

theorem consistent_step (own : OwnResults event) (quiet : Quiet s event) (live : Open plan s)
    (consistent : Consistent s) (taken : step scheduler deadline s event = some t) :
    Consistent t ∧ Keeps s t ∧ (Breaks event.onEvent s t → Complete plan t) := by
  cases event with
  | pass pass =>
      obtain ⟨control, rfl⟩ := step_pass taken
      have tracked := live (.inl control)
      exact guarded_final tracked consistent (passBody_moves tracked.unfinished.toTables) quiet
  | wake wake =>
      obtain ⟨control, ok, rfl⟩ := step_wake taken
      have tracked := live (.inr control)
      refine guarded_final tracked consistent (wakeBody_moves tracked.unfinished.toTables
        (awaited_of_possible ok) (fun _ _ closes => closes) ?_) quiet
      exact fun done member task elapsed same => closes_collected (own done member) same

/-- In a run of a validated plan in which the callback only raises at results that were
collected, no recorded result is replaced, neither by a later event nor behind the call of the
callback that showed it; and if the run leaves by an exception of the callback, then every task
has its terminal status and a recorded result. -/
theorem results_final (reached : Reaches scheduler context iter plan status es s)
    (meets : (machine scheduler (scheduler.runDeadline context)).Meets
      (fun u event => OwnResults event ∧ Quiet u event) (start plan status) es) :
    (∀ call ∈ s.events, s.results.get? call.2.taskId = some call.2) ∧
    (∀ before after u, es = before ++ after →
      (machine scheduler (scheduler.runDeadline context)).run (start plan status) before = some u →
      Keeps u s) ∧
    ∀ before event u, es = before ++ [event] →
      (machine scheduler (scheduler.runDeadline context)).run (start plan status) before = some u →
      Breaks event.onEvent u s → Complete plan s := by
  obtain ⟨-, execution⟩ := reached
  have begun : Open plan (start plan status : RunState α) ∧
      Consistent (start plan status : RunState α) :=
    ⟨fun _ => Tracked.start plan status, Consistent.start plan status⟩
  have keep : ∀ (u : RunState α) event v, Open plan u ∧ Consistent u →
      OwnResults event ∧ Quiet u event →
      (machine scheduler (scheduler.runDeadline context)).step u event = some v →
      Open plan v ∧ Consistent v :=
    fun u event v live ok taken => ⟨open_step ok.1 live.1 taken,
      (consistent_step ok.1 ok.2 live.1 live.2 taken).1⟩
  have reaches : ∀ before after u, es = before ++ after →
      (machine scheduler (scheduler.runDeadline context)).run (start plan status) before = some u →
      (Open plan u ∧ Consistent u) ∧ (machine scheduler (scheduler.runDeadline context)).Meets
        (fun u event => OwnResults event ∧ Quiet u event) u after ∧
      (machine scheduler (scheduler.runDeadline context)).run u after = some s := by
    rintro before after u rfl first
    obtain ⟨earlier, later⟩ := (Machine.meets_append_iff first).mp meets
    obtain ⟨v, again, rest⟩ := (Machine.run_append_iff _).mp execution
    obtain rfl : u = v := Option.some.inj (first.symm.trans again)
    have live := Machine.run_invariant_of_meets keep begun earlier first
    exact ⟨live, later, rest⟩
  refine ⟨(Machine.run_invariant_of_meets keep begun meets execution).2.logged, ?_, ?_⟩
  · intro before after u shape first
    obtain ⟨live, later, rest⟩ := reaches before after u shape first
    have grows : ∀ (v : RunState α) event w, (Open plan v ∧ Consistent v) ∧ Keeps u v →
        OwnResults event ∧ Quiet v event →
        (machine scheduler (scheduler.runDeadline context)).step v event = some w →
        (Open plan w ∧ Consistent w) ∧ Keeps u w :=
      fun v event w live ok taken => ⟨keep v event w live.1 ok taken,
        live.2.trans (consistent_step ok.1 ok.2 live.1.1 live.1.2 taken).2.1⟩
    have ends := Machine.run_invariant_of_meets grows ⟨live, Keeps.refl u⟩ later rest
    exact ends.2
  · intro before event u shape first breaks
    obtain ⟨live, later, rest⟩ := reaches before [event] u shape first
    obtain ⟨w, taken, last⟩ := (Machine.run_cons_iff _).mp rest
    obtain rfl : w = s := Option.some.inj last
    exact (consistent_step later.1.1 later.1.2 live.1 live.2 taken).2.2 breaks

/-- A callback that cannot show results of one status. -/
def fragile (status : TaskStatus) : OnEvent Nat :=
  some fun _ result => if result.status = status then some (.other "display failed") else none

/-- The draft fails at the time 1. -/
def draftFailsBehind (onEvent : OnEvent Nat) : List (Event Nat) :=
  [.pass { now := 0, submit := fun _ => .accepted 0, after := 0, onEvent },
   .wake { done := [⟨"draft", 1, .raised (.other "offline")⟩], now := 1, onEvent }]

theorem fragile_passes {status : TaskStatus} {task : Task} {result : TaskResult Nat}
    (differs : result.status ≠ status) : Passes (fragile status) task result := by
  intro call given
  obtain rfl := Option.some.inj given
  exact if_neg differs

theorem quiet_fragile {s : RunState Nat} {event : Event Nat}
    (same : event.onEvent = fragile .failed) : Quiet s event := by
  intro task result _ ruled
  rw [same]
  refine fragile_passes ?_
  cases event with
  | pass pass =>
      obtain (⟨_, rfl⟩ | rfl) | rfl := ruled <;> simp [cancelled]
  | wake wake =>
      obtain ⟨-, _, rfl⟩ | rfl := ruled <;> simp [cancelled]

/-- The callback raises at the result of the draft, behind which the review is cancelled. -/
theorem results_final_draftFails :
    ∃ s : RunState Nat, Reaches unbounded none id draftAndReview (fun _ => .pending)
        (draftFailsBehind (fragile .failed)) s ∧
      (∃ last, s.control = .raised (.other "display failed") last) ∧
      Complete draftAndReview s := by
  have ends : ((machine unbounded (unbounded.runDeadline none)).run
      (start draftAndReview fun _ => .pending) ((draftFailsBehind (fragile .failed)).take 1)).any
      (fun u => u.events.isEmpty && ((machine unbounded (unbounded.runDeadline none)).run
        (start draftAndReview fun _ => .pending) (draftFailsBehind (fragile .failed))).any
        fun s => (match s.control with
          | .raised (.other text) _ => decide (text = "display failed")
          | _ => false) && s.events.any fun call => decide (call.2.status = .failed)) = true := by
    decide
  obtain ⟨u, first, ends⟩ := (Option.any_eq_true _ _).mp ends
  obtain ⟨silent, ends⟩ := Bool.and_eq_true_iff.mp ends
  obtain ⟨s, execution, ended⟩ := (Option.any_eq_true _ _).mp ends
  obtain ⟨ended, shown⟩ := Bool.and_eq_true_iff.mp ended
  obtain ⟨call, member, failed⟩ := List.any_eq_true.mp shown
  have reached : Reaches unbounded none id draftAndReview (fun _ => .pending)
      (draftFailsBehind (fragile .failed)) s := ⟨by decide, execution⟩
  have control : ∃ last, s.control = .raised (.other "display failed") last := by
    split at ended
    · rename_i text last control
      exact ⟨last, of_decide_eq_true ended ▸ control⟩
    · cases ended
  refine ⟨s, reached, control, (results_final reached (Machine.meets_of_mem ?_ _)).2.2
    _ _ u (List.take_append_drop 1 (draftFailsBehind (fragile .failed))).symm first ?_⟩
  · intro event member _
    simp only [draftFailsBehind, List.mem_cons, List.not_mem_nil, or_false] at member
    obtain rfl | rfl := member
    · exact ⟨trivial, quiet_fragile rfl⟩
    · exact ⟨by simp [OwnResults, Done.Own], quiet_fragile rfl⟩
  · obtain ⟨last, control⟩ := control
    refine ⟨_, last, s.events, control, ?_, call, member, _, rfl, if_pos (of_decide_eq_true failed)⟩
    rw [List.isEmpty_iff.mp silent, List.nil_append]

/-- The next pass skips the review behind the draft. -/
def reviewSkips (onEvent : OnEvent Nat) : List (Event Nat) :=
  draftFailsBehind onEvent ++
    [.pass { now := 2, submit := fun _ => .accepted 2, after := 2, onEvent }]

/-- The pool is closed when the draft is submitted. -/
def poolClosed (onEvent : OnEvent Nat) : List (Event Nat) :=
  [.pass { now := 0, submit := fun _ => .failed "pool closed", after := 0, onEvent }]

/-- Where the callback raises at a skip, the skipped review is recorded again as cancelled; and
where it raises in the abort, the review is left pending, without a result. -/
theorem fragile_replaces :
    (∃ s : RunState Nat, Reaches unbounded none id draftAndReview (fun _ => .pending)
        (reviewSkips (fragile .skipped)) s ∧
      ∃ call ∈ s.events, call.2.status = .skipped ∧
        ∃ result, s.results.get? call.2.taskId = some result ∧ result.status = .cancelled) ∧
    ∃ s : RunState Nat, Reaches unbounded none id draftAndReview (fun _ => .pending)
        (poolClosed (fragile .cancelled)) s ∧
      (∃ last, s.control = .raised (.other "display failed") last) ∧
      s.status "review" = .pending ∧ s.results.get? "review" = none := by
  refine ⟨?_, ?_⟩
  · have ends : ((machine unbounded (unbounded.runDeadline none)).run
        (start draftAndReview fun _ => .pending) (reviewSkips (fragile .skipped))).any
        (fun s => s.events.any fun call => decide (call.2.status = .skipped) &&
          (s.results.get? call.2.taskId).any fun result =>
            decide (result.status = .cancelled)) = true := by
      decide
    obtain ⟨s, execution, ended⟩ := (Option.any_eq_true _ _).mp ends
    obtain ⟨call, member, ended⟩ := List.any_eq_true.mp ended
    obtain ⟨skipped, ended⟩ := Bool.and_eq_true_iff.mp ended
    obtain ⟨result, found, cancelled⟩ := (Option.any_eq_true _ _).mp ended
    exact ⟨s, ⟨by decide, execution⟩, call, member, of_decide_eq_true skipped, result, found,
      of_decide_eq_true cancelled⟩
  · have ends : ((machine unbounded (unbounded.runDeadline none)).run
        (start draftAndReview fun _ => .pending) (poolClosed (fragile .cancelled))).any
        (fun s => (match s.control with
          | .raised (.other text) _ => decide (text = "display failed")
          | _ => false) && decide (s.status "review" = .pending) &&
            (s.results.get? "review").isNone) = true := by
      decide
    obtain ⟨s, execution, ended⟩ := (Option.any_eq_true _ _).mp ends
    obtain ⟨ended, missing⟩ := Bool.and_eq_true_iff.mp ended
    obtain ⟨ended, waiting⟩ := Bool.and_eq_true_iff.mp ended
    refine ⟨s, ⟨by decide, execution⟩, ?_, of_decide_eq_true waiting,
      Option.isNone_iff_eq_none.mp missing⟩
    split at ended
    · rename_i text last control
      exact ⟨last, of_decide_eq_true ended ▸ control⟩
    · cases ended

end MultiAgent.Plugin.TaskScheduler
