import MultiAgent.Foundations.Dict
import MultiAgent.Plugin.Options
import Mathlib.Data.List.DropRight
import Mathlib.Data.List.Induction

/-!
# The registry of runs

`RunRegistry` of `observability.py`: a deque that drops its oldest trace by itself, an index
that is repaired when it has grown beyond the deque, and a cleanup that takes traces out of
the middle of both. They agree after any sequence of these (`registry_agrees`). Clock
readings and ages are exact rationals.
-/

namespace MultiAgent.Plugin

namespace RunRegistry

/-- A trace, as far as the registry reads it; `ref` is the object. -/
structure Trace where
  ref : Nat
  runId : String
  startedMonotonic : ℚ
  deriving DecidableEq

/-- `trace._started_monotonic < time.monotonic() - float(max_age_seconds)` -/
def Trace.stale (now : ℚ) (age : Number) (trace : Trace) : Bool :=
  match age with
  | .finite seconds => decide (trace.startedMonotonic < now - seconds)
  | .infinity negative => negative
  | .nan => false

end RunRegistry

structure RunRegistry where
  maxlen : Nat
  /-- The deque, oldest first. -/
  runs : List RunRegistry.Trace
  index : Dict String RunRegistry.Trace
  /-- The traces whose flag `recorded` is set. -/
  recorded : List RunRegistry.Trace

namespace RunRegistry

/-- The constructor; some traces may have been recorded elsewhere. -/
def new (limit : Int) (recorded : List Trace) : RunRegistry :=
  ⟨(max 1 limit).toNat, [], .empty, recorded⟩

/-- `record` -/
def record (registry : RunRegistry) (trace : Trace) : RunRegistry :=
  if trace ∈ registry.recorded then registry
  else
    let runs := (registry.runs ++ [trace]).rtake registry.maxlen
    let index := registry.index.set trace.runId trace
    let index :=
      if registry.maxlen < index.keys.length then
        index.eraseAll (index.keys.filter fun key => decide (key ∉ runs.map Trace.runId))
      else index
    { registry with runs, index, recorded := trace :: registry.recorded }

def get (registry : RunRegistry) (runId : String) : Option Trace := registry.index.get? runId

/-- One turn of the loop of `cleanup`, with the number of traces removed so far. -/
def sweep (now : ℚ) (age : Number) (state : RunRegistry × Nat) (trace : Trace) :
    RunRegistry × Nat :=
  if trace.stale now age then
    ({ state.1 with
        runs := state.1.runs.erase trace
        index := state.1.index.erase trace.runId }, state.2 + 1)
  else state

/-- `cleanup`, with its answer. -/
def cleanup (registry : RunRegistry) (now : ℚ) (age : Number) : RunRegistry × Nat :=
  registry.runs.foldl (sweep now age) (registry, 0)

inductive Event where
  | record (trace : Trace)
  | cleanup (now : ℚ) (age : Number)

/-- The registry after an event. -/
def apply (registry : RunRegistry) : Event → RunRegistry
  | .record trace => registry.record trace
  | .cleanup now age => (registry.cleanup now age).1

/-- The registry after a run. -/
def after (registry : RunRegistry) (events : List Event) : RunRegistry :=
  events.foldl apply registry

/-- The trace that an event puts into the deque. -/
def put (registry : RunRegistry) : Event → List Trace
  | .record trace => if trace ∈ registry.recorded then [] else [trace]
  | .cleanup _ _ => []

/-- The traces that a run puts into the deque, in order. -/
def appended (registry : RunRegistry) : List Event → List Trace
  | [] => []
  | event :: rest => registry.put event ++ appended (registry.apply event) rest

/-- The traces of the calls of `record`. -/
def traces (events : List Event) : List Trace :=
  events.filterMap fun event =>
    match event with
    | .record trace => some trace
    | .cleanup _ _ => none

section Cleanup

variable {registry : RunRegistry} {now : ℚ} {age : Number}

theorem foldl_sweep {seen : List Trace} {removed : Nat} (distinct : registry.runs.Nodup) :
    (seen.foldl (sweep now age) (registry, removed)).1 =
      { registry with
        runs := registry.runs.filter fun trace => !(trace.stale now age && decide (trace ∈ seen))
        index := registry.index.eraseAll
          ((seen.filter (Trace.stale now age)).map Trace.runId) } := by
  induction seen generalizing registry removed with
  | nil => simp [Dict.eraseAll]
  | cons trace rest ih =>
      rw [List.foldl_cons, sweep]
      by_cases stale : trace.stale now age = true
      · rw [if_pos stale, ih (distinct.erase trace), List.filter_cons_of_pos stale, List.map_cons,
          distinct.erase_eq_filter, List.filter_filter]
        congr 1
        refine List.filter_congr fun other _ => ?_
        by_cases same : other = trace
        · simp [same, stale]
        · simp [same]
      · rw [if_neg stale, ih distinct, List.filter_cons_of_neg stale]
        congr 1
        refine List.filter_congr fun other _ => ?_
        by_cases same : other = trace
        · simp [same, stale]
        · simp [same]

/-- A cleanup drops the stale traces from both. -/
theorem cleanup_fst (distinct : registry.runs.Nodup) :
    (registry.cleanup now age).1 =
      { registry with
        runs := registry.runs.filter fun trace => !trace.stale now age
        index := registry.index.eraseAll
          ((registry.runs.filter (Trace.stale now age)).map Trace.runId) } := by
  rw [cleanup, foldl_sweep distinct]
  congr 1
  refine List.filter_congr fun trace member => ?_
  simp [member]

theorem recorded_cleanup : (registry.cleanup now age).1.recorded = registry.recorded := by
  suffices swept : ∀ (seen : List Trace) (state : RunRegistry × Nat),
      (seen.foldl (sweep now age) state).1.recorded = state.1.recorded from swept _ _
  intro seen
  induction seen with
  | nil => exact fun _ => rfl
  | cons trace rest ih =>
      intro state
      rw [List.foldl_cons, ih, sweep]
      split <;> rfl

end Cleanup

/-- What holds between two events. -/
structure Agrees (registry : RunRegistry) : Prop where
  positive : 1 ≤ registry.maxlen
  size : registry.runs.length ≤ registry.maxlen
  distinct : (registry.runs.map Trace.runId).Nodup
  index : ∀ runId trace, registry.index.get? runId = some trace ↔
    trace ∈ registry.runs ∧ trace.runId = runId
  flagged : ∀ trace ∈ registry.runs, trace ∈ registry.recorded

section Steps

variable {registry : RunRegistry} {trace : Trace} {now : ℚ} {age : Number}

theorem agrees_new (limit : Int) (recorded : List Trace) : Agrees (new limit recorded) where
  positive := by
    simp only [new]
    omega
  size := Nat.zero_le _
  distinct := List.nodup_nil
  index runId trace := by simp [new, Dict.get?, Dict.empty]
  flagged _ member := nomatch member

/-- Traces of the deque with one id are one trace. -/
theorem eq_of_runId {runs : List Trace} (distinct : (runs.map Trace.runId).Nodup) {a b : Trace}
    (first : a ∈ runs) (second : b ∈ runs) (same : a.runId = b.runId) : a = b :=
  List.inj_on_of_nodup_map distinct first second same

theorem Agrees.mem_keys_iff (agrees : Agrees registry) {runId : String} :
    runId ∈ registry.index.keys ↔ runId ∈ registry.runs.map Trace.runId := by
  simp only [Dict.mem_keys_iff, agrees.index, List.mem_map]

theorem Agrees.length_keys (agrees : Agrees registry) :
    registry.index.keys.length = registry.runs.length := by
  have perm : registry.index.keys.Perm (registry.runs.map Trace.runId) :=
    (List.perm_ext_iff_of_nodup registry.index.distinct agrees.distinct).mpr fun _ =>
      agrees.mem_keys_iff
  rw [perm.length_eq, List.length_map]

/-- An index of a deque, without the ids of the traces that are no longer in it. -/
theorem get?_narrowed {index : Dict String Trace} {runs kept : List Trace} {ids : List String}
    (indexed : ∀ runId trace, index.get? runId = some trace ↔ trace ∈ runs ∧ trace.runId = runId)
    (fewer : kept ⊆ runs) (gone : ∀ trace ∈ runs, trace.runId ∈ ids ↔ trace ∉ kept)
    (runId : String) (trace : Trace) :
    (index.eraseAll ids).get? runId = some trace ↔ trace ∈ kept ∧ trace.runId = runId := by
  rw [Dict.get?_eraseAll]
  split
  · rename_i dropped
    refine iff_of_false (by simp) ?_
    rintro ⟨inside, rfl⟩
    exact (gone trace (fewer inside)).mp dropped inside
  · rename_i stays
    rw [indexed]
    constructor
    · rintro ⟨inside, rfl⟩
      exact ⟨not_not.mp fun absent => stays ((gone trace inside).mpr absent), rfl⟩
    · rintro ⟨inside, same⟩
      exact ⟨fewer inside, same⟩

/-- An index of a deque, with one more trace. -/
theorem get?_grown {index : Dict String Trace} {runs : List Trace}
    (indexed : ∀ runId trace, index.get? runId = some trace ↔ trace ∈ runs ∧ trace.runId = runId)
    (absent : trace.runId ∉ runs.map Trace.runId) (runId : String) (other : Trace) :
    (index.set trace.runId trace).get? runId = some other ↔
      other ∈ runs ++ [trace] ∧ other.runId = runId := by
  rw [Dict.get?_set, List.mem_append, List.mem_singleton]
  split
  · rename_i same
    subst same
    rw [Option.some_inj]
    constructor
    · rintro rfl
      exact ⟨.inr rfl, rfl⟩
    · rintro ⟨inside | rfl, same⟩
      · exact absurd (List.mem_map.mpr ⟨other, inside, same⟩) absent
      · rfl
  · rename_i differs
    rw [indexed]
    constructor
    · exact fun known => ⟨.inl known.1, known.2⟩
    · rintro ⟨inside | rfl, same⟩
      · exact ⟨inside, same⟩
      · exact absurd same.symm differs

theorem Agrees.absent (agrees : Agrees registry)
    (unique : ∀ known ∈ registry.runs, known.runId = trace.runId → known = trace)
    (unflagged : trace ∉ registry.recorded) : trace.runId ∉ registry.runs.map Trace.runId := by
  intro member
  obtain ⟨known, inside, same⟩ := List.mem_map.mp member
  exact unflagged (unique known inside same ▸ agrees.flagged known inside)

theorem Agrees.record (agrees : Agrees registry)
    (unique : ∀ known ∈ registry.runs, known.runId = trace.runId → known = trace) :
    Agrees (registry.record trace) := by
  rw [RunRegistry.record]
  split
  · exact agrees
  rename_i unflagged
  have absent := agrees.absent unique unflagged
  have whole : ((registry.runs ++ [trace]).map Trace.runId).Nodup := by
    rw [List.map_append, List.map_singleton, ← List.concat_eq_append, List.nodup_concat]
    exact ⟨absent, agrees.distinct⟩
  -- the index before the repair is that of the deque without its bound
  have grown := get?_grown agrees.index absent
  have suffix : (registry.runs ++ [trace]).rtake registry.maxlen <:+ registry.runs ++ [trace] :=
    List.drop_suffix _ _
  refine
    { positive := agrees.positive
      size := ?_
      distinct := whole.sublist (suffix.sublist.map Trace.runId)
      index := ?_
      flagged := ?_ }
  · dsimp only
    rw [List.rtake, List.length_drop]
    omega
  · dsimp only
    split
    · refine get?_narrowed grown suffix.subset fun other inside => ?_
      rw [List.mem_filter, decide_eq_true_eq]
      constructor
      · rintro ⟨-, dead⟩ kept
        exact dead (List.mem_map_of_mem kept)
      · intro evicted
        refine ⟨Dict.mem_keys_iff.mpr ⟨other, (grown _ _).mpr ⟨inside, rfl⟩⟩, fun alive => ?_⟩
        obtain ⟨another, kept, same⟩ := List.mem_map.mp alive
        exact evicted (eq_of_runId whole (suffix.subset kept) inside same ▸ kept)
    · rename_i within
      have fresh : trace.runId ∉ registry.index.keys := fun member =>
        absent (agrees.mem_keys_iff.mp member)
      rw [Dict.keys_set_of_notMem fresh, List.length_append, agrees.length_keys,
        List.length_singleton, not_lt] at within
      have room : (registry.runs ++ [trace]).rtake registry.maxlen = registry.runs ++ [trace] := by
        rw [List.rtake, Nat.sub_eq_zero_of_le (by simpa using within), List.drop_zero]
      rw [room]
      exact grown
  · intro other member
    obtain known | new := List.mem_append.mp (suffix.subset member)
    · exact List.mem_cons_of_mem _ (agrees.flagged other known)
    · exact List.mem_singleton.mp new ▸ List.mem_cons_self

theorem Agrees.cleanup (agrees : Agrees registry) : Agrees (registry.cleanup now age).1 := by
  rw [cleanup_fst agrees.distinct.of_map]
  refine
    { positive := agrees.positive
      size := (List.length_filter_le _ _).trans agrees.size
      distinct := agrees.distinct.sublist (List.filter_sublist.map Trace.runId)
      index := ?_
      flagged := fun trace member => agrees.flagged trace (List.mem_filter.mp member).1 }
  refine get?_narrowed agrees.index List.filter_sublist.subset fun trace inside => ?_
  rw [List.mem_filter, not_and, Bool.not_eq_true', Bool.not_eq_false]
  constructor
  · intro removed _
    obtain ⟨old, found, same⟩ := List.mem_map.mp removed
    obtain ⟨known, stale⟩ := List.mem_filter.mp found
    exact eq_of_runId agrees.distinct known inside same ▸ stale
  · intro stale
    exact List.mem_map.mpr ⟨trace, List.mem_filter.mpr ⟨inside, stale inside⟩, rfl⟩

end Steps

/-- The deque holds some of the traces that were put into it, in order, and none was put
twice. -/
structure Logged (limit : Int) (log : List Trace) (registry : RunRegistry) : Prop where
  agrees : Agrees registry
  maxlen : registry.maxlen = (max 1 limit).toNat
  order : registry.runs.Sublist log
  once : log.Nodup
  recorded : ∀ trace ∈ log, trace ∈ registry.recorded

section Runs

variable {registry : RunRegistry} {limit : Int} {log : List Trace}

theorem logged_new (limit : Int) (recorded : List Trace) :
    Logged limit [] (new limit recorded) where
  agrees := agrees_new limit recorded
  maxlen := rfl
  order := List.Sublist.refl _
  once := List.nodup_nil
  recorded _ member := nomatch member

theorem Logged.apply (logged : Logged limit log registry) (event : Event)
    (unique : ∀ known ∈ log, ∀ trace ∈ traces [event], known.runId = trace.runId →
      known = trace) :
    Logged limit (log ++ registry.put event) (registry.apply event) := by
  cases event with
  | cleanup now age =>
      rw [put, List.append_nil, RunRegistry.apply]
      refine
        { agrees := logged.agrees.cleanup
          maxlen := ?_
          order := ?_
          once := logged.once
          recorded := ?_ }
      · rw [cleanup_fst logged.agrees.distinct.of_map]
        exact logged.maxlen
      · rw [cleanup_fst logged.agrees.distinct.of_map]
        exact List.filter_sublist.trans logged.order
      · rw [cleanup_fst logged.agrees.distinct.of_map]
        exact logged.recorded
  | record trace =>
      have agrees : Agrees (registry.record trace) :=
        logged.agrees.record fun known inside =>
          unique known (logged.order.subset inside) trace (by simp [traces])
      rw [put, RunRegistry.apply]
      by_cases flagged : trace ∈ registry.recorded
      · rw [if_pos flagged, List.append_nil, RunRegistry.record, if_pos flagged]
        exact logged
      · rw [if_neg flagged]
        refine
          { agrees
            maxlen := ?_
            order := ?_
            once := ?_
            recorded := ?_ }
        · rw [RunRegistry.record, if_neg flagged]
          exact logged.maxlen
        · rw [RunRegistry.record, if_neg flagged]
          exact (List.drop_sublist _ _).trans (logged.order.append (List.Sublist.refl _))
        · rw [← List.concat_eq_append, List.nodup_concat]
          exact ⟨fun member => flagged (logged.recorded trace member), logged.once⟩
        · rw [RunRegistry.record, if_neg flagged]
          intro other member
          obtain known | new := List.mem_append.mp member
          · exact List.mem_cons_of_mem _ (logged.recorded other known)
          · exact List.mem_singleton.mp new ▸ List.mem_cons_self

theorem appended_append {events more : List Event} :
    registry.appended (events ++ more) =
      registry.appended events ++ (registry.after events).appended more := by
  induction events generalizing registry with
  | nil => rfl
  | cons event rest ih =>
      rw [List.cons_append, appended, appended, ih, List.append_assoc]
      rfl

theorem after_append {events more : List Event} :
    registry.after (events ++ more) = (registry.after events).after more :=
  List.foldl_append

/-- Nothing but what is recorded is put into the deque. -/
theorem appended_subset {events : List Event} : registry.appended events ⊆ traces events := by
  induction events generalizing registry with
  | nil => exact List.Subset.refl _
  | cons event rest ih =>
      cases event with
      | cleanup now age => exact ih
      | record trace =>
          rw [appended, put]
          split
          · exact List.Subset.trans ih (List.subset_cons_self _ _)
          · exact List.cons_subset_cons trace ih

/-- Whatever is recorded is put into the deque, unless its flag was set before. -/
theorem mem_appended_or_recorded {events : List Event} {trace : Trace}
    (member : trace ∈ traces events) :
    trace ∈ registry.recorded ∨ trace ∈ registry.appended events := by
  induction events generalizing registry with
  | nil => exact nomatch member
  | cons event rest ih =>
      rw [appended, List.mem_append, or_left_comm]
      cases event with
      | cleanup now age =>
          have further := @ih (registry.cleanup now age).1 member
          rw [recorded_cleanup] at further
          exact .inr further
      | record first =>
          rw [put]
          by_cases flagged : first ∈ registry.recorded
          · rw [if_pos flagged, RunRegistry.apply, RunRegistry.record, if_pos flagged]
            obtain rfl | later := List.mem_cons.mp member
            · exact .inr (.inl flagged)
            · exact .inr (ih later)
          · rw [if_neg flagged, List.mem_singleton]
            obtain rfl | later := List.mem_cons.mp member
            · exact .inl rfl
            · have further := @ih (registry.record first) later
              rw [RunRegistry.record, if_neg flagged, List.mem_cons, or_assoc] at further
              rw [RunRegistry.apply, RunRegistry.record, if_neg flagged]
              exact further

theorem mem_traces_append {events more : List Event} {trace : Trace}
    (member : trace ∈ traces events) : trace ∈ traces (events ++ more) := by
  rw [traces, List.filterMap_append]
  exact List.mem_append_left _ member

theorem after_logged {recorded : List Trace} {events : List Event}
    (distinct : ∀ a ∈ traces events, ∀ b ∈ traces events, a.runId = b.runId → a = b) :
    Logged limit ((new limit recorded).appended events) ((new limit recorded).after events) := by
  induction events using List.reverseRecOn with
  | nil => exact logged_new limit recorded
  | append_singleton events event ih =>
      have earlier := ih fun a first b second =>
        distinct a (mem_traces_append first) b (mem_traces_append second)
      have parts : traces (events ++ [event]) = traces events ++ traces [event] :=
        List.filterMap_append
      have step := earlier.apply event fun known member trace new =>
        distinct known (mem_traces_append (appended_subset member)) trace
          (parts ▸ List.mem_append_right _ new)
      rw [appended_append, after_append]
      simpa [appended, after] using step

/-- Why a trace is in the deque no more: at some point of the run the deque was full of
traces that were put in later, or a cleanup found the trace too old. -/
inductive Removed (registry : RunRegistry) (limit : Int) (events : List Event) (trace : Trace)
    (newer : List Trace) : Prop where
  | evicted (before rest : List Event) (split : events = before ++ rest)
      (full : ((registry.after before).runs.length : Int) = max 1 limit)
      (later : (registry.after before).runs.Sublist newer)
  | aged (before rest : List Event) (now : ℚ) (age : Number)
      (split : events = before ++ .cleanup now age :: rest)
      (inside : trace ∈ (registry.after before).runs) (stale : trace.stale now age = true)

theorem Removed.append {events : List Event} {trace : Trace} {newer : List Trace}
    (removed : Removed registry limit events trace newer) (more : List Event)
    (others : List Trace) :
    Removed registry limit (events ++ more) trace (newer ++ others) := by
  cases removed with
  | evicted before rest split full later =>
      refine .evicted before (rest ++ more) ?_ full ?_
      · rw [split, List.append_assoc]
      · exact later.trans (List.sublist_append_left _ _)
  | aged before rest now age split inside stale =>
      refine .aged before (rest ++ more) now age ?_ inside stale
      rw [split, List.append_assoc, List.cons_append]

/-- A trace that falls out of the deque leaves it full of newer ones. -/
theorem newer_of_evicted {runs older newer : List Trace} {trace next : Trace} {n : Nat}
    (order : runs.Sublist (older ++ trace :: newer)) (once : (older ++ trace :: newer).Nodup)
    (inside : trace ∈ runs) (gone : trace ∉ (runs ++ [next]).rtake n) :
    ((runs ++ [next]).rtake n).length = n ∧
      ((runs ++ [next]).rtake n).Sublist (newer ++ [next]) := by
  obtain ⟨before, rest, rfl, first, second⟩ := List.sublist_append_iff.mp order
  have apart := List.nodup_append.mp once
  obtain ⟨behind, rfl, third⟩ : ∃ behind, rest = trace :: behind ∧ behind.Sublist newer := by
    obtain within | found := List.sublist_cons_iff.mp second
    · obtain early | late := List.mem_append.mp inside
      · exact absurd rfl (apart.2.2 trace (first.subset early) trace List.mem_cons_self)
      · exact absurd (within.subset late) (List.nodup_cons.mp apart.2.1).1
    · exact found
  have shape : before ++ trace :: behind ++ [next] = (before ++ [trace]) ++ (behind ++ [next]) := by
    simp
  rw [shape, List.rtake] at gone ⊢
  have beyond : (before ++ [trace]).length ≤
      (before ++ [trace] ++ (behind ++ [next])).length - n := by
    by_contra short
    refine gone ?_
    rw [List.drop_append_of_le_length (Nat.le_of_lt (not_le.mp short))]
    refine List.mem_append_left _ ?_
    rw [List.drop_append_of_le_length (by simp at short ⊢; omega)]
    exact List.mem_append_right _ List.mem_cons_self
  constructor
  · rw [List.length_drop]
    simp at beyond ⊢
    omega
  · rw [List.drop_append, List.drop_eq_nil_of_le beyond, List.nil_append]
    exact (List.drop_sublist _ _).trans (third.append (List.Sublist.refl _))

theorem mem_rtake_concat {runs : List Trace} {next : Trace} {n : Nat} (positive : 1 ≤ n) :
    next ∈ (runs ++ [next]).rtake n := by
  rw [List.rtake, List.drop_append_of_le_length (by simp; omega)]
  exact List.mem_append_right _ List.mem_cons_self

/-- What an event puts into the deque is there afterwards. -/
theorem Logged.put_stays (logged : Logged limit log registry) {event : Event} {trace : Trace}
    (put : trace ∈ registry.put event) : trace ∈ (registry.apply event).runs := by
  cases event with
  | cleanup now age => exact nomatch put
  | record next =>
      rw [RunRegistry.put] at put
      split at put
      · exact nomatch put
      · rename_i unflagged
        obtain rfl := List.mem_singleton.mp put
        rw [RunRegistry.apply, RunRegistry.record, if_neg unflagged]
        exact mem_rtake_concat logged.agrees.positive

/-- A trace of the deque is there after an event, unless it is too old for it or the deque is
then full of newer ones. -/
theorem Logged.stays (logged : Logged limit log registry) (event : Event)
    {older newer : List Trace} {trace : Trace} (split : log = older ++ trace :: newer)
    (inside : trace ∈ registry.runs) :
    trace ∈ (registry.apply event).runs ∨
      (∃ now age, event = .cleanup now age ∧ trace.stale now age = true) ∨
        (((registry.apply event).runs.length : Int) = max 1 limit ∧
          (registry.apply event).runs.Sublist (newer ++ registry.put event)) := by
  cases event with
  | cleanup now age =>
      by_cases stale : trace.stale now age = true
      · exact .inr (.inl ⟨now, age, rfl, stale⟩)
      · rw [RunRegistry.apply, cleanup_fst logged.agrees.distinct.of_map]
        exact .inl (List.mem_filter.mpr ⟨inside, by simpa using stale⟩)
  | record next =>
      rw [RunRegistry.apply, RunRegistry.put, RunRegistry.record]
      by_cases flagged : next ∈ registry.recorded
      · rw [if_pos flagged]
        exact .inl inside
      · rw [if_neg flagged, if_neg flagged]
        refine or_iff_not_imp_left.mpr fun gone => .inr ?_
        obtain ⟨full, later⟩ := newer_of_evicted (split ▸ logged.order) (split ▸ logged.once)
          inside gone
        refine ⟨?_, later⟩
        rw [full, logged.maxlen]
        omega

theorem put_cases (event : Event) :
    registry.put event = [] ∨ ∃ next, registry.put event = [next] := by
  cases event with
  | cleanup now age => exact .inl rfl
  | record next =>
      rw [put]
      split
      · exact .inl rfl
      · exact .inr ⟨next, rfl⟩

/-- A log with what an event puts behind it: the trace is the new one, or an old one. -/
theorem put_split {event : Event} {older newer : List Trace} {trace : Trace}
    (split : log ++ registry.put event = older ++ trace :: newer) :
    trace ∈ registry.put event ∨
      ∃ front, log = older ++ trace :: front ∧ newer = front ++ registry.put event := by
  obtain nothing | ⟨next, one⟩ := @put_cases registry event
  · rw [nothing, List.append_nil] at split
    exact .inr ⟨newer, split, by rw [nothing, List.append_nil]⟩
  · rw [one] at split ⊢
    obtain rfl | ⟨front, last, rfl⟩ := List.eq_nil_or_concat' newer
    · obtain ⟨-, rfl⟩ := List.append_singleton_inj.mp split
      exact .inl (List.mem_singleton_self _)
    · rw [← List.cons_append, ← List.append_assoc] at split
      obtain ⟨same, rfl⟩ := List.append_singleton_inj.mp split
      exact .inr ⟨front, same, rfl⟩

theorem kept_or_removed {recorded : List Trace} {events : List Event}
    (distinct : ∀ a ∈ traces events, ∀ b ∈ traces events, a.runId = b.runId → a = b)
    {older newer : List Trace} {trace : Trace}
    (split : (new limit recorded).appended events = older ++ trace :: newer) :
    trace ∈ ((new limit recorded).after events).runs ∨
      Removed (new limit recorded) limit events trace newer := by
  induction events using List.reverseRecOn generalizing older newer with
  | nil =>
      rw [appended] at split
      cases older <;> cases split
  | append_singleton events event ih =>
      have below : ∀ a ∈ traces events, ∀ b ∈ traces events, a.runId = b.runId → a = b :=
        fun a first b second =>
          distinct a (mem_traces_append first) b (mem_traces_append second)
      have logged := @after_logged limit recorded events below
      have last : (new limit recorded).after (events ++ [event]) =
          ((new limit recorded).after events).apply event := after_append
      rw [appended_append, appended, appended, List.append_nil] at split
      rw [last]
      obtain newest | ⟨front, earlier, rfl⟩ := put_split split
      · exact .inl (logged.put_stays newest)
      obtain inside | removed := ih below earlier
      · obtain stays | ⟨now, age, rfl, stale⟩ | ⟨full, later⟩ :=
          logged.stays event earlier inside
        · exact .inl stays
        · exact .inr (.aged events [] now age rfl inside stale)
        · refine .inr (.evicted (events ++ [event]) [] (by rw [List.append_nil]) ?_ ?_)
          · rw [last]
            exact full
          · rw [last]
            exact later
      · exact .inr (removed.append [event] _)

/-- After any run of a registry of any limit: the index has the run ids of the deque, and
gives the trace that the deque has; the deque is within the limit; and every trace that was
not recorded elsewhere before was put into the deque once, and is there as long as the
limit and its age let it be. -/
theorem registry_agrees (limit : Int) (recorded : List Trace) (events : List Event)
    (distinct : ∀ a ∈ traces events, ∀ b ∈ traces events, a.runId = b.runId → a = b) :
    let registry := (new limit recorded).after events
    let log := (new limit recorded).appended events
    (∀ runId, runId ∈ registry.index.keys ↔ runId ∈ registry.runs.map Trace.runId) ∧
      (∀ runId trace, registry.get runId = some trace ↔
        trace ∈ registry.runs ∧ trace.runId = runId) ∧
      (registry.runs.length : Int) ≤ max 1 limit ∧
      registry.index.keys.length = registry.runs.length ∧
      log.Nodup ∧ registry.runs.Sublist log ∧
      (∀ trace ∈ traces events, trace ∉ recorded → trace ∈ log) ∧
      ∀ older trace newer, log = older ++ trace :: newer →
        trace ∈ registry.runs ∨ Removed (new limit recorded) limit events trace newer := by
  intro registry log
  have logged : Logged limit log registry := after_logged distinct
  have size := logged.agrees.size
  rw [logged.maxlen] at size
  exact ⟨fun _ => logged.agrees.mem_keys_iff, logged.agrees.index, by omega,
    logged.agrees.length_keys, logged.once, logged.order, fun _ member fresh =>
      (mem_appended_or_recorded member).resolve_left fresh,
    fun _ _ _ => kept_or_removed distinct⟩

def first : Trace := ⟨0, "a1", 0⟩

def second : Trace := ⟨1, "b2", 5⟩

/-- A newer trace evicts one, is recorded again, and gets too old. -/
theorem registry_agrees_second :
    (((new 1 []).after [.record first, .record second, .record second]).runs = [second] ∧
      ((new 1 []).after [.record first, .record second, .record second,
        .cleanup 9 (.finite 3)]).runs = []) ∧
    ∀ runId trace,
      ((new 1 []).after [.record first, .record second, .record second]).get runId = some trace ↔
        trace ∈ ((new 1 []).after [.record first, .record second, .record second]).runs ∧
          trace.runId = runId :=
  ⟨⟨by decide, by decide +kernel⟩,
    (registry_agrees 1 [] [.record first, .record second, .record second] (by decide)).2.1⟩

end Runs

end RunRegistry

end MultiAgent.Plugin
