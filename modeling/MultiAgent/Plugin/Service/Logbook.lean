import MultiAgent.Plugin.History.Appends
import MultiAgent.Plugin.Service

/-!
# The service with its history

`_record_history` at the end of the runs, on a history that is a file of JSON lines. The machine
is that of the service with the history beside it; an event brings along the time for a record,
and what writing to the file raises. A run that is answered without an error has one record in
the history, and nothing else has one (`runs_recorded`).
-/

namespace MultiAgent.Plugin

namespace DeepseekAdapter

variable {κ α : Type} {adapter : DeepseekAdapter κ α} {event result : Object}

/-- What `_record_history` appends for a result, if anything. -/
def historyEntry (adapter : DeepseekAdapter κ α) (event result : Object) :
    Except String (Option Object) :=
  if result.has "error" then .ok none
  else
    match entries? (result.get "meta"), length? (result.get "rounds") with
    | some fields, some rounds =>
      .ok (some
        [("strategy", result.get "strategy"),
         ("prompt", truncate (result.getD "prompt" (event.getD "prompt" (.str "")))
           adapter.historyPromptLimit),
         ("final", truncate (result.get "final") adapter.historyFinalLimit),
         ("rounds", .int rounds), ("session_id", event.get "session_id"),
         ("elapsed_seconds", Object.get fields "elapsed_seconds"),
         ("run_id", Object.get fields "run_id")])
    | _, _ => .error "unexpected type in the result of a run"

theorem recordHistory_eq :
    adapter.recordHistory event result =
      match adapter.history with
      | none => .ok ()
      | some history => (adapter.historyEntry event result).bind fun entry =>
        entry.elim (.ok ()) history.append := by
  rw [recordHistory, historyEntry]
  cases adapter.history with
  | none => rfl
  | some history =>
      dsimp only
      split_ifs with failed
      · rfl
      · cases entries? (result.get "meta") with
        | none => rfl
        | some fields =>
            cases length? (result.get "rounds") with
            | none => rfl
            | some rounds => rfl

/-- A text that is kept has no more characters than the limit and its mark. -/
theorem truncate_length {value : Json} {limit : Int} {text : String}
    (kept : truncate value (some limit) = .str text) : text.length ≤ limit.toNat + 1 := by
  cases value with
  | str whole =>
      simp only [truncate] at kept
      split_ifs at kept with nothing short
      · cases kept
        exact Nat.zero_le _
      · cases kept
        omega
      · cases kept
        have mark : "…".length = 1 := rfl
        rw [String.length_append, String.length_ofList, List.length_take, mark]
        omega
  | _ => cases kept

/-- A text is no longer than the limit, if there is one, and the mark behind it. -/
def Short (limit : Option Int) (value : Json) : Prop :=
  ∀ most text, limit = some most → value = .str text → text.length ≤ most.toNat + 1

theorem short_truncate (value : Json) (limit : Option Int) :
    Short limit (truncate value limit) := by
  rintro most text rfl kept
  exact truncate_length kept

/-- What is appended for a result without an error. -/
theorem historyEntry_eq_some {entry : Object}
    (appended : adapter.historyEntry event result = .ok (some entry)) :
    result.has "error" = false ∧ (∃ dict : Dict String Json, dict.entries = entry) ∧
      Short adapter.historyPromptLimit (Object.get entry "prompt") ∧
      Short adapter.historyFinalLimit (Object.get entry "final") := by
  rw [historyEntry] at appended
  split_ifs at appended with failed
  · cases appended
  · refine ⟨by simpa using failed, ?_⟩
    cases known : entries? (result.get "meta") with
    | none =>
        rw [known] at appended
        cases appended
    | some fields =>
        cases counted : length? (result.get "rounds") with
        | none =>
            rw [known, counted] at appended
            cases appended
        | some rounds =>
            rw [known, counted] at appended
            cases appended
            exact ⟨⟨⟨_, by simp⟩, rfl⟩, short_truncate _ _, short_truncate _ _⟩

/-- Nothing is appended for a result with an error. -/
theorem historyEntry_eq_none (skipped : adapter.historyEntry event result = .ok none) :
    result.has "error" = true := by
  rw [historyEntry] at skipped
  split_ifs at skipped with failed
  · exact failed
  · cases known : entries? (result.get "meta") with
    | none =>
        rw [known] at skipped
        cases skipped
    | some fields =>
        cases counted : length? (result.get "rounds") with
        | none =>
            rw [known, counted] at skipped
            cases skipped
        | some rounds =>
            rw [known, counted] at skipped
            cases skipped

end DeepseekAdapter

/-- What an event brings along for a record. -/
structure Stamp where
  timestamp : String
  /-- What `open` or `write` raises. -/
  broken : Option String

/-- The service of an adapter, and its history if that is on. -/
structure Logged (κ : Type) where
  service : Service κ
  history : Option History.RunHistory

namespace Logged

open History (Record RunRecord fileOf)
open History.RunHistory (tryAppend stamp)

variable {κ α ω : Type} (perform : ω → κ → κ) (adapter : DeepseekAdapter κ α)
  (floats : Json.Format)

/-- The history in the hands of the adapter. -/
def interface (stamp : Stamp) (history : History.RunHistory) : RunHistory where
  recent limit := .ok (history.recent floats limit)
  append entry :=
    (tryAppend floats history entry stamp.timestamp stamp.broken).2.map fun _ => ()

/-- `_record_history` on the history as it is now. -/
def record (s : Logged κ) (stamp : Stamp) : Object → Object → Except String Unit :=
  DeepseekAdapter.recordHistory { adapter with history := s.history.map (interface floats stamp) }

/-- What is appended at the end of a run, which gives the semaphore back first. -/
def due : Stage → Except String BoundedSemaphore → Except String (Option Object) → Option Object
  | .running, .ok _, .ok entry => entry
  | _, _, _ => none

/-- What an event hands to the history, with the place of its request. -/
def ended (s : Service κ) : Service.Event κ ω → Option (Nat × Object)
  | .finish i (.ok result) =>
    s.requests[i]?.bind fun request =>
      (due request.stage s.gate.release (adapter.historyEntry request.event result)).map (Prod.mk i)
  | _ => none

/-- The history after an event. -/
def kept (s : Logged κ) (event : Service.Event κ ω) (stamp : Stamp) :
    Option History.RunHistory :=
  s.history.map fun history =>
    match ended adapter s.service event with
    | some (_, entry) => (tryAppend floats history entry stamp.timestamp stamp.broken).1
    | none => history

def step (s : Logged κ) (event : Service.Event κ ω × Stamp) : Option (Logged κ) :=
  (s.service.step perform (s.record adapter floats event.2) event.1).map fun service =>
    ⟨service, s.kept adapter floats event.1 event.2⟩

def machine : Machine (Logged κ) (Service.Event κ ω × Stamp) := ⟨step perform adapter floats⟩

/-- The records that an event writes, with the places of their requests. -/
def written (s : Logged κ) (event : Service.Event κ ω × Stamp) : List (Nat × Json) :=
  match s.history, ended adapter s.service event.1 with
  | some history, some (i, entry) =>
    match (tryAppend floats history entry event.2.timestamp event.2.broken).2 with
    | .ok item => [(i, .obj item)]
    | .error _ => []
  | _, _ => []

/-- The request whose handling ends with an event. -/
def finished : Service.Event κ ω × Stamp → Option Nat
  | (.finish i _, _) => some i
  | _ => none

/-- A new service, on a history that is opened on whole records. -/
def opened (default : κ) (maxConcurrentRuns : Int) (limits : Option (Option ℚ × Option Int))
    (clock : ℚ) (records : List (Record floats)) (count : Nat) : Logged κ :=
  ⟨.new default maxConcurrentRuns limits clock, some ⟨fileOf records, count⟩⟩

/-- What json can print of the record of a run can be read back. -/
def Printable (s : Logged κ) (event : Service.Event κ ω × Stamp) : Prop :=
  ∀ shown ∈ ended adapter s.service event.1, ∀ field ∈ shown.2,
    Json.serialisable field.2 = true → Json.Proper floats field.2

/-- An event that `handle_harness_event` treats as a run. -/
def IsRun (event : Object) : Prop := (event.get "type").isText "run" = true

/-- The record of a request that was answered with the result. -/
structure RecordOf (request : Visit) (result : Object) (value : Json) : Prop where
  run : IsRun request.event
  answered : request.stage = .answered (.ok result)
  fields : ∃ entry index timestamp,
    adapter.historyEntry request.event result = .ok (some entry) ∧
      DeepseekAdapter.Short adapter.historyPromptLimit (Object.get entry "prompt") ∧
      DeepseekAdapter.Short adapter.historyFinalLimit (Object.get entry "final") ∧
      value = .obj (stamp entry index timestamp)

/-- The stages that the handling of an event goes through. -/
def Passes (event : Object) : Stage → Prop
  | .waiting | .running => IsRun event
  | .serving => ¬ IsRun event
  | .answered _ => True

/-- What the log of the written records says about a state. -/
structure Kept (records : List (Record floats)) (log : List (Nat × Json)) (s : Logged κ) :
    Prop where
  filed : ∃ (more : List (Record floats)) (count : Nat),
    s.history = some ⟨fileOf (records ++ more), count⟩ ∧ more.map Record.value = log.map Prod.snd
  once : (log.map Prod.fst).Nodup
  answered : ∀ shown ∈ log, ∃ request result,
    s.service.requests[shown.1]? = some request ∧ RecordOf adapter request result shown.2
  complete : ∀ i request result, s.service.requests[i]? = some request → IsRun request.event →
    request.stage = .answered (.ok result) → result.has "error" = false → i ∈ log.map Prod.fst
  passes : ∀ request ∈ s.service.requests, Passes request.event request.stage

section Appends

variable {floats} {entry : Object}

/-- An append raises and leaves the file as it is, or writes one record behind the others. -/
theorem append_cases (records : List (Record floats)) (count : Nat) (given : Stamp)
    (distinct : ∃ dict : Dict String Json, dict.entries = entry)
    (proper : ∀ field ∈ entry, Json.serialisable field.2 = true → Json.Proper floats field.2) :
    (∃ text, tryAppend floats ⟨fileOf records, count⟩ entry given.timestamp given.broken =
      (⟨fileOf records, count + 1⟩, .error text)) ∨
    ∃ record : Record floats, record.fields = stamp entry (count + 1) given.timestamp ∧
      tryAppend floats ⟨fileOf records, count⟩ entry given.timestamp given.broken =
        (⟨fileOf (records ++ [record]), count + 1⟩, .ok record.fields) := by
  obtain ⟨timestamp, broken⟩ := given
  obtain ⟨dict, rfl⟩ := distinct
  let own : RunRecord floats := ⟨dict, by
    intro value member json
    obtain ⟨field, inside, rfl⟩ := List.mem_map.mp member
    exact proper field inside json⟩
  cases broken with
  | some text => exact .inl ⟨text, rfl⟩
  | none =>
      by_cases json : Json.serialisable (.obj (own.stamped (count + 1) timestamp).entries) = true
      · refine .inr ⟨own.written _ _ json, History.RunRecord.stamp_entries.symm, ?_⟩
        have done : tryAppend floats ⟨fileOf records, count⟩ own.dict.entries timestamp none =
            (⟨fileOf records ++ (own.written _ _ json).line, count + 1⟩,
              .ok (own.stamped (count + 1) timestamp).entries) := History.append_written json
        refine done.trans ?_
        simp [fileOf, History.RunRecord.written]
      · refine .inl ⟨"Object of type function is not JSON serializable", ?_⟩
        have printed : Json.dumps floats (.obj (own.stamped (count + 1) timestamp).entries) =
            .error "Object of type function is not JSON serializable" := if_neg json
        rw [← History.RunRecord.stamp_entries] at printed
        rw [tryAppend, History.RunHistory.append]
        simp only [own, printed]

end Appends

section Requests

variable {adapter floats} {records : List (Record floats)} {log : List (Nat × Json)}
  {s t : Logged κ} {i : Nat} {request : Visit} {stage : Stage}

theorem passes_first (given : Object) : Passes given (.first given) := by
  by_cases run : (given.get "type").isText "run" = true
  · rw [Stage.first, if_pos run]
    split_ifs
    · exact run
    · trivial
  · rw [Stage.first, if_neg run]
    exact run

/-- A run that is not let in has no result. -/
theorem first_no_result {given result : Object} (run : IsRun given)
    (answered : Stage.first given = .answered (.ok result)) : result.has "error" = true := by
  unfold IsRun at run
  rw [Stage.first, if_pos run] at answered
  split_ifs at answered
  cases answered
  rfl

namespace Kept

/-- The requests and the history stay as they are. -/
theorem same (kept : Kept adapter floats records log s)
    (requests : t.service.requests = s.service.requests) (history : t.history = s.history) :
    Kept adapter floats records log t where
  filed := history ▸ kept.filed
  once := kept.once
  answered := requests ▸ kept.answered
  complete := requests ▸ kept.complete
  passes := requests ▸ kept.passes

/-- A request comes in. -/
theorem enter (kept : Kept adapter floats records log s) {given : Object}
    {session : Option String} {c : Nat}
    (requests : t.service.requests =
      s.service.requests ++ [⟨given, session, c, .first given⟩])
    (history : t.history = s.history) : Kept adapter floats records log t where
  filed := history ▸ kept.filed
  once := kept.once
  answered shown member := by
    obtain ⟨request, result, here, record⟩ := kept.answered shown member
    refine ⟨request, result, ?_, record⟩
    rw [requests, List.getElem?_append_left (List.getElem?_eq_some_iff.mp here).1]
    exact here
  complete i request result here run answered whole := by
    rw [requests] at here
    rw [List.getElem?_append] at here
    split_ifs at here
    · exact kept.complete i request result here run answered whole
    · obtain rfl := List.mem_singleton.mp (List.mem_of_getElem? here)
      rw [first_no_result run answered] at whole
      cases whole
  passes := by
    intro request member
    rw [requests] at member
    obtain old | new := List.mem_append.mp member
    · exact kept.passes request old
    · obtain rfl := List.mem_singleton.mp new
      exact passes_first given

/-- The handling of a request that has no answer yet goes on, and may write a record. -/
theorem move (kept : Kept adapter floats records log s)
    (here : s.service.requests[i]? = some request)
    (unanswered : ∀ answer, request.stage ≠ .answered answer)
    (requests : t.service.requests = s.service.requests.set i { request with stage := stage })
    (value : Option Json)
    (filed : ∃ (more : List (Record floats)) (count : Nat),
      t.history = some ⟨fileOf (records ++ more), count⟩ ∧
        more.map Record.value = log.map Prod.snd ++ value.toList)
    (own : ∀ shown ∈ value,
      ∃ result, RecordOf adapter { request with stage := stage } result shown)
    (full : ∀ result, IsRun request.event → stage = .answered (.ok result) →
      result.has "error" = false → value.isSome)
    (passes : Passes request.event stage) :
    Kept adapter floats records (log ++ value.toList.map (Prod.mk i)) t := by
  obtain ⟨inside, -⟩ := List.getElem?_eq_some_iff.mp here
  have moved : t.service.requests[i]? = some { request with stage := stage } := by
    rw [requests]
    exact List.getElem?_set_self inside
  have others : ∀ j, j ≠ i → t.service.requests[j]? = s.service.requests[j]? := by
    intro j apart
    rw [requests, List.getElem?_set_ne apart.symm]
  have fresh : i ∉ log.map Prod.fst := by
    intro member
    obtain ⟨shown, old, rfl⟩ := List.mem_map.mp member
    obtain ⟨other, result, there, record⟩ := kept.answered shown old
    obtain rfl := Option.some.inj (here.symm.trans there)
    exact unanswered _ record.answered
  refine ⟨?_, ?_, ?_, ?_, ?_⟩
  · obtain ⟨more, count, history, same⟩ := filed
    refine ⟨more, count, history, ?_⟩
    rw [same, List.map_append, List.map_map, Function.comp_def, List.map_id']
  · cases value with
    | none =>
        rw [Option.toList_none, List.map_nil, List.append_nil]
        exact kept.once
    | some shown =>
        rw [Option.toList_some, List.map_append, List.nodup_append_comm]
        exact List.nodup_cons.mpr ⟨fresh, kept.once⟩
  · intro shown member
    obtain old | new := List.mem_append.mp member
    · obtain ⟨other, result, there, record⟩ := kept.answered shown old
      refine ⟨other, result, ?_, record⟩
      rw [others _ fun same => fresh (same ▸ List.mem_map_of_mem old)]
      exact there
    · obtain ⟨written, given, rfl⟩ := List.mem_map.mp new
      obtain ⟨result, record⟩ := own written (Option.mem_toList.mp given)
      exact ⟨_, result, moved, record⟩
  · intro j other result there run answered whole
    rw [List.map_append, List.mem_append]
    by_cases same : j = i
    · subst same
      obtain rfl := Option.some.inj (moved.symm.trans there)
      obtain ⟨shown, given⟩ := Option.isSome_iff_exists.mp (full result run answered whole)
      exact .inr (by simp [given])
    · rw [others j same] at there
      exact .inl (kept.complete j other result there run answered whole)
  · intro other member
    rw [requests] at member
    obtain old | rfl := List.mem_or_eq_of_mem_set member
    · exact kept.passes other old
    · exact passes

end Kept

end Requests

section Steps

variable {perform adapter floats} {records : List (Record floats)} {log : List (Nat × Json)}
  {s t : Logged κ} {event : Service.Event κ ω} {given : Stamp} {service : Service κ}

theorem kept_of_none (nothing : ended adapter s.service event = none) :
    s.kept adapter floats event given = s.history := by
  rw [kept, nothing]
  exact Option.map_id'

/-- Nothing is handed over where the stage or the semaphore does not allow it. -/
theorem ended_of_idle {i : Nat} {request : Visit} {outcome : Except String Object}
    (here : s.service.requests[i]? = some request)
    (idle : ∀ appended, due request.stage s.service.gate.release appended = none) :
    ended adapter s.service (.finish i outcome : Service.Event κ ω) = none := by
  cases outcome with
  | error text => rfl
  | ok result =>
      rw [ended, here, Option.bind_some, idle]
      rfl

theorem written_of_none (nothing : ended adapter s.service event = none) :
    written adapter floats s (event, given) = [] := by
  rw [written, nothing]
  cases s.history <;> rfl

/-- A record is written for the request that ends. -/
theorem written_finished (s : Logged κ) (event : Service.Event κ ω × Stamp) :
    ((written adapter floats s event).map Prod.fst).Sublist (finished event).toList := by
  obtain ⟨event, given⟩ := event
  cases handed : ended adapter s.service event with
  | none =>
      rw [written_of_none handed]
      exact List.nil_sublist _
  | some shown =>
      cases event with
      | finish i outcome =>
          cases outcome with
          | error text => cases handed
          | ok result =>
              obtain ⟨request, -, due⟩ := Option.bind_eq_some_iff.mp handed
              obtain ⟨entry, -, rfl⟩ := Option.map_eq_some_iff.mp due
              rw [written, handed]
              cases s.history with
              | none => exact List.nil_sublist _
              | some history =>
                  dsimp only
                  split
                  · exact List.Sublist.refl _
                  · exact List.nil_sublist _
      | _ => cases handed

theorem printable_of_none (nothing : ended adapter s.service event = none) :
    Printable adapter floats s (event, given) := by
  intro shown member
  rw [nothing] at member
  cases member

theorem record_eq {history : History.RunHistory} (kept : s.history = some history)
    {event result : Object} {appended : Except String (Option Object)}
    (entry : adapter.historyEntry event result = appended) :
    s.record adapter floats given event result = appended.bind fun entry =>
      entry.elim (.ok ()) fun entry =>
        (tryAppend floats history entry given.timestamp given.broken).2.map fun _ => () := by
  rw [record, DeepseekAdapter.recordHistory_eq, kept, ← entry]
  rfl

namespace Kept

/-- Nothing is handed to the history. -/
theorem quiet (kept : Kept adapter floats records log s) {i : Nat} {request : Visit}
    (stage : Stage) (here : s.service.requests[i]? = some request)
    (unanswered : ∀ answer, request.stage ≠ .answered answer)
    (requests : service.requests = s.service.requests.set i { request with stage := stage })
    (history : t.history = s.history) (after : t.service = service)
    (full : ∀ result, IsRun request.event → stage = .answered (.ok result) →
      result.has "error" = true)
    (passes : Passes request.event stage) : Kept adapter floats records log t := by
  have moved := kept.move (t := t) here unanswered (after ▸ requests) none ?_
    (fun shown member => by cases member) ?_ passes
  · rwa [Option.toList_none, List.map_nil, List.append_nil] at moved
  · rw [history, Option.toList_none, List.append_nil]
    exact kept.filed
  · intro result run answered whole
    rw [full result run answered] at whole
    cases whole

/-- A run ends with a result that is to be recorded. -/
theorem append (kept : Kept adapter floats records log s) {i : Nat} {request : Visit}
    {result entry : Object} (here : s.service.requests[i]? = some request)
    (running : request.stage = .running)
    (requests : service.requests = s.service.requests.set i { request with
      stage := .answered
        (Service.conclude (s.record adapter floats given) request.event (.ok result)) })
    (appended : adapter.historyEntry request.event result = .ok (some entry))
    (handed : ended adapter s.service event = some (i, entry))
    (printable : Printable adapter floats s (event, given)) :
    Kept adapter floats records (log ++ written adapter floats s (event, given))
      ⟨service, s.kept adapter floats event given⟩ := by
  obtain ⟨more, count, filed, same⟩ := kept.filed
  obtain ⟨-, distinct, prompt, final⟩ := DeepseekAdapter.historyEntry_eq_some appended
  have recorded : s.record adapter floats given request.event result =
      (tryAppend floats ⟨fileOf (records ++ more), count⟩ entry given.timestamp
        given.broken).2.map fun _ => () := record_eq filed appended
  have unanswered : ∀ answer, request.stage ≠ .answered answer := by
    rw [running]
    exact fun _ same => by cases same
  have run : IsRun request.event := by
    have passes := kept.passes request (List.mem_of_getElem? here)
    rwa [running] at passes
  obtain ⟨text, refused⟩ | ⟨record, fields, done⟩ :=
    append_cases (records ++ more) count given distinct (printable _ handed)
  · -- the run is answered with what the history raised
    have answer : Service.conclude (s.record adapter floats given) request.event (.ok result) =
        .error text := by
      rw [Service.conclude, recorded, refused]
      rfl
    have nothing : written adapter floats s (event, given) = [] := by
      simp only [written, filed, handed, refused]
    rw [answer] at requests
    rw [nothing]
    refine kept.move here unanswered requests none ⟨more, count + 1, ?_, ?_⟩
      (fun _ member => by cases member) (fun _ _ same => by cases same) trivial
    · simp only [Logged.kept, filed, handed, Option.map_some, refused]
    · rw [Option.toList_none, List.append_nil]
      exact same
  · have answer : Service.conclude (s.record adapter floats given) request.event (.ok result) =
        .ok result := by
      rw [Service.conclude, recorded, done]
      rfl
    have one : written adapter floats s (event, given) = [(i, record.value)] := by
      simp only [written, filed, handed, done]
      rfl
    rw [answer] at requests
    rw [one]
    refine kept.move here unanswered requests (some record.value)
      ⟨more ++ [record], count + 1, ?_, ?_⟩ ?_ (fun _ _ _ _ => rfl) trivial
    · simp only [Logged.kept, filed, handed, Option.map_some, done, List.append_assoc]
    · rw [List.map_append, same]
      rfl
    · rintro _ ⟨⟩
      exact ⟨result, run, rfl, entry, count + 1, given.timestamp, appended, prompt,
        final, by rw [← fields]; rfl⟩

/-- A run ends, or an event of another type. -/
theorem finish (kept : Kept adapter floats records log s) {i : Nat} {request : Visit}
    {outcome : Except String Object} (here : s.service.requests[i]? = some request)
    (printable : Printable adapter floats s
      ((.finish i outcome : Service.Event κ ω), given))
    (finished : s.service.finish (s.record adapter floats given) i outcome request =
      some service) :
    Kept adapter floats records
      (log ++ written adapter floats s ((.finish i outcome : Service.Event κ ω), given))
      ⟨service, s.kept adapter floats (.finish i outcome : Service.Event κ ω) given⟩ := by
  have unwritten : ∀ answer : Except String Object,
      request.stage = .running ∨ request.stage = .serving →
      ended adapter s.service (.finish i outcome : Service.Event κ ω) = none →
      service.requests = s.service.requests.set i { request with stage := .answered answer } →
      (∀ result, IsRun request.event → answer = .ok result → result.has "error" = true) →
      Kept adapter floats records
        (log ++ written adapter floats s ((.finish i outcome : Service.Event κ ω), given))
        ⟨service, s.kept adapter floats (.finish i outcome : Service.Event κ ω) given⟩ := by
    intro answer early nothing requests failed
    rw [written_of_none nothing, List.append_nil]
    refine kept.quiet (.answered answer) here ?_ requests (kept_of_none nothing) rfl ?_ trivial
    · intro answer answered
      rw [answered] at early
      obtain same | same := early <;> cases same
    · intro result run answered
      exact failed result run (by injection answered)
  obtain ⟨running, ⟨gate, released, rfl⟩ | ⟨text, released, rfl⟩⟩ | ⟨serving, rfl⟩ :=
    Service.finish_eq_some finished
  · cases outcome with
    | error text => exact unwritten _ (.inl running) rfl rfl fun result _ same => by cases same
    | ok result =>
        obtain ⟨more, count, filed, same⟩ := kept.filed
        have handed : ended adapter s.service (.finish i (.ok result) : Service.Event κ ω) =
            (due .running (.ok gate) (adapter.historyEntry request.event result)).map
              (Prod.mk i) := by
          rw [ended, here, Option.bind_some, running, released]
        cases appended : adapter.historyEntry request.event result with
        | error text =>
            have recorded : s.record adapter floats given request.event result = .error text :=
              record_eq filed appended
            rw [appended] at handed
            refine unwritten (.error text) (.inl running) handed ?_ ?_
            · rw [Service.conclude, recorded]
              rfl
            · rintro _ - ⟨⟩
        | ok entry =>
            rw [appended] at handed
            cases entry with
            | none =>
                have recorded : s.record adapter floats given request.event result = .ok () :=
                  record_eq filed appended
                refine unwritten (.ok result) (.inl running) handed ?_ ?_
                · rw [Service.conclude, recorded]
                  rfl
                · rintro _ - ⟨⟩
                  exact DeepseekAdapter.historyEntry_eq_none appended
            | some entry => exact kept.append here running rfl appended handed printable
  · refine unwritten _ (.inl running) ?_ rfl fun result _ same => by cases same
    exact ended_of_idle here fun appended => by rw [running, released]; rfl
  · refine unwritten _ (.inr serving) ?_ rfl fun result run _ => ?_
    · exact ended_of_idle here fun appended => by rw [serving]; rfl
    · have passes := kept.passes request (List.mem_of_getElem? here)
      rw [serving] at passes
      exact absurd run passes

theorem step (kept : Kept adapter floats records log s)
    (printable : Printable adapter floats s (event, given))
    (transition : Logged.step perform adapter floats s (event, given) = some t) :
    Kept adapter floats records (log ++ written adapter floats s (event, given)) t := by
  obtain ⟨service, taken, rfl⟩ := Option.map_eq_some_iff.mp transition
  have unchanged : ended adapter s.service event = none →
      s.kept adapter floats event given = s.history := kept_of_none
  cases event with
  | arrive event now later made =>
      rw [written_of_none rfl, List.append_nil]
      obtain ⟨-, rfl⟩ | ⟨sid, timed, after, -, -, -,
        ⟨c, -, rfl⟩ | ⟨-, ⟨coord, -, rfl⟩ | ⟨text, -, rfl⟩⟩⟩ := Service.arrive_eq_some taken
      · exact kept.enter rfl (unchanged rfl)
      · exact kept.enter rfl (unchanged rfl)
      · exact kept.enter rfl (unchanged rfl)
      · exact kept.same rfl (unchanged rfl)
  | grant i =>
      rw [written_of_none rfl, List.append_nil]
      obtain ⟨request, here, admitted⟩ := Option.bind_eq_some_iff.mp taken
      obtain ⟨waiting, gate, -, rfl⟩ := Service.grant_eq_some admitted
      have run := kept.passes request (List.mem_of_getElem? here)
      rw [waiting] at run
      exact kept.quiet .running here (by rw [waiting]; exact fun _ same => by cases same) rfl
        (unchanged rfl) rfl (fun _ _ same => by cases same) run
  | refuse i =>
      rw [written_of_none rfl, List.append_nil]
      obtain ⟨request, here, refused⟩ := Option.bind_eq_some_iff.mp taken
      obtain ⟨waiting, -, rfl⟩ := Service.refuse_eq_some refused
      refine kept.quiet (.answered _) here (by rw [waiting]; exact fun _ same => by cases same) rfl
        (unchanged rfl) rfl ?_ trivial
      rintro _ - ⟨⟩
      rfl
  | operate i operation =>
      rw [written_of_none rfl, List.append_nil]
      obtain ⟨request, -, operated⟩ := Option.bind_eq_some_iff.mp taken
      rw [Service.operate_eq_some operated]
      exact kept.same rfl (unchanged rfl)
  | finish i outcome =>
      obtain ⟨request, here, finished⟩ := Option.bind_eq_some_iff.mp taken
      exact kept.finish here printable finished
  | delete sid =>
      rw [written_of_none rfl, List.append_nil]
      obtain ⟨timed, after, -, -, rfl⟩ := Service.manage_eq_some taken
      exact kept.same rfl (unchanged rfl)
  | cleanup now =>
      rw [written_of_none rfl, List.append_nil]
      obtain ⟨timed, after, -, -, rfl⟩ := Service.manage_eq_some taken
      exact kept.same rfl (unchanged rfl)

end Kept

/-- On a history that is opened on whole records, where json can read back what it prints of a
record, whatever the events do and however they interleave, and whatever writing raises, let the
log be what the run writes, event after event. A run is answered with a result that is no error
exactly if it has a record in the log, and has only one; nothing else has one; the runs are in the
order in which they ended; and `recent` reads the log back behind the old records, the newest
first. A prompt and an answer are cut off at their limits. -/
theorem runs_recorded {default : κ} {maxConcurrentRuns : Int}
    {limits : Option (Option ℚ × Option Int)} {clock : ℚ} {count : Nat}
    {events : List (Service.Event κ ω × Stamp)}
    (execution : (machine perform adapter floats).run
      (opened floats default maxConcurrentRuns limits clock records count) events = some t)
    (printable : (machine perform adapter floats).Meets (Printable adapter floats)
      (opened floats default maxConcurrentRuns limits clock records count) events) :
    ∃ (log : List (Nat × Json)) (history : History.RunHistory), t.history = some history ∧
      log = (machine perform adapter floats).log (written adapter floats)
        (opened floats default maxConcurrentRuns limits clock records count) events ∧
      (log.map Prod.fst).Sublist (events.filterMap finished) ∧ (log.map Prod.fst).Nodup ∧
      (∀ i request, t.service.requests[i]? = some request → IsRun request.event →
        (i ∈ log.map Prod.fst ↔
          ∃ result, request.stage = .answered (.ok result) ∧ result.has "error" = false)) ∧
      (∀ shown ∈ log, ∃ request result, t.service.requests[shown.1]? = some request ∧
        RecordOf adapter request result shown.2) ∧
      ∀ limit, history.recent floats limit =
        (records.map Record.value ++ log.map Prod.snd).reverse.take limit.toNat := by
  have started : Kept adapter floats records []
      (opened floats default maxConcurrentRuns limits clock records count : Logged κ) :=
    { filed := ⟨[], count, by rw [List.append_nil]; rfl, rfl⟩
      once := List.nodup_nil
      answered := fun _ member => by cases member
      complete := fun _ _ _ here => by cases here
      passes := fun _ member => by cases member }
  have kept := Machine.run_log_invariant (P := fun s log => Kept adapter floats records log s)
    (fun _ _ _ _ kept printable transition => kept.step printable transition) started printable
    execution
  rw [List.nil_append] at kept
  obtain ⟨more, count', filed, same⟩ := kept.filed
  refine ⟨_, _, filed, rfl, ?_, kept.once, ?_, kept.answered, ?_⟩
  · rw [List.filterMap_eq_flatMap_toList]
    exact Machine.log_map_sublist written_finished _ events
  · intro i request here run
    constructor
    · intro member
      obtain ⟨shown, logged, rfl⟩ := List.mem_map.mp member
      obtain ⟨other, result, there, record⟩ := kept.answered shown logged
      obtain rfl := Option.some.inj (here.symm.trans there)
      obtain ⟨entry, -, -, appended, -⟩ := record.fields
      exact ⟨result, record.answered, (DeepseekAdapter.historyEntry_eq_some appended).1⟩
    · rintro ⟨result, answered, whole⟩
      exact kept.complete i request result here run answered whole
  · intro limit
    rw [History.RunHistory.recent_eq, History.entries_fileOf, List.map_append, same]

end Steps

section TwoRuns

/-- An adapter with nothing behind it. -/
def bare : DeepseekAdapter Nat Unit where
  coordinators :=
    { agents := fun _ => []
      runs := fun n => n
      autoStrategy := fun _ => "debate"
      name := fun _ => .null
      describe := fun _ => .null
      run := fun _ _ _ _ => .ok []
      fromConfig := fun _ => .ok ()
      registerAgent := fun n _ => .ok n }
  coordinator := 0
  registry := none
  history := none
  historyPromptLimit := none
  historyFinalLimit := none
  acquire := true
  allowedRegisterKinds := []
  repr := fun _ => .ok ""

def hello : Object := [("final", .str "hello")]

/-- One run is let in, and another one is refused meanwhile. -/
def greeted : List (Service.Event Nat Nat × Stamp) :=
  [(.arrive Service.ask 0 0 (.ok 0), ⟨"", none⟩), (.arrive Service.ask 0 0 (.ok 0), ⟨"", none⟩),
   (.grant 0, ⟨"", none⟩), (.refuse 1, ⟨"", none⟩),
   (.finish 0 (.ok hello), ⟨"2026-01-01T00:00:00", none⟩)]

def empty : Logged Nat := opened History.noFloats 0 1 none 0 [] 0

def counting : Machine (Logged Nat) (Service.Event Nat Nat × Stamp) :=
  machine (fun n m => n + m) bare History.noFloats

theorem printable_greeted : counting.Meets (Printable bare History.noFloats) empty greeted := by
  refine ⟨printable_of_none rfl, fun s₁ taken => ?_⟩
  obtain rfl := Option.some.inj taken
  refine ⟨printable_of_none rfl, fun s₂ taken => ?_⟩
  obtain rfl := Option.some.inj taken
  refine ⟨printable_of_none rfl, fun s₃ taken => ?_⟩
  obtain rfl := Option.some.inj taken
  refine ⟨printable_of_none rfl, fun s₄ taken => ?_⟩
  obtain rfl := Option.some.inj taken
  refine ⟨?_, fun _ _ => trivial⟩
  intro shown handed field member _
  obtain rfl : (0, [("strategy", .null), ("prompt", .str "hi"), ("final", .str "hello"),
      ("rounds", .int 0), ("session_id", .null), ("elapsed_seconds", .null),
      ("run_id", .null)]) = shown := Option.some.inj handed
  simp only [List.mem_cons, List.not_mem_nil, or_false] at member
  obtain rfl | rfl | rfl | rfl | rfl | rfl | rfl := member
  · exact .null
  · exact .str _
  · exact .str _
  · exact .int _
  · exact .null
  · exact .null
  · exact .null

theorem runs_recorded_greeted :
    ∃ (s : Logged Nat) (log : List (Nat × Json)) (history : History.RunHistory),
      counting.run empty greeted = some s ∧ s.history = some history ∧
      0 ∈ log.map Prod.fst ∧ 1 ∉ log.map Prod.fst ∧
      history.recent History.noFloats 5 = (log.map Prod.snd).reverse.take 5 := by
  obtain ⟨s, execution, requests⟩ : ∃ s, counting.run empty greeted = some s ∧
      s.service.requests = [⟨Service.ask, none, 0, .answered (.ok hello)⟩,
        ⟨Service.ask, none, 0,
          .answered (.ok (DeepseekAdapter.failure "too many concurrent runs"))⟩] :=
    ⟨_, rfl, rfl⟩
  obtain ⟨log, history, filed, -, -, -, recorded, -, read⟩ :=
    runs_recorded execution printable_greeted
  have first : s.service.requests[0]? =
      some ⟨Service.ask, none, 0, .answered (.ok hello)⟩ := by
    rw [requests]
    rfl
  have second : s.service.requests[1]? = some ⟨Service.ask, none, 0,
      .answered (.ok (DeepseekAdapter.failure "too many concurrent runs"))⟩ := by
    rw [requests]
    rfl
  refine ⟨s, log, history, execution, filed, ?_, ?_, read 5⟩
  · exact (recorded 0 _ first rfl).mpr ⟨hello, rfl, rfl⟩
  · intro member
    obtain ⟨result, answered, whole⟩ := (recorded 1 _ second rfl).mp member
    cases answered
    cases whole

end TwoRuns

end Logged

end MultiAgent.Plugin
