import MultiAgent.Foundations.Dict
import MultiAgent.Foundations.Machine
import MultiAgent.Plugin.History.Recovery

/-!
# Appends that fail

Runs of `append` and `clear` on a history, where an append may raise: the record is no
JSON, or the file cannot be written. The number of the record is taken before either, so
the count and the file stay in step exactly as long as no append fails (`appends_in_step`).
-/

namespace MultiAgent.Plugin.History

open History.RunHistory

/-- What `append` is given: a value in it is no JSON, or printed and read without a loss. -/
structure RunRecord (floats : Json.Format) where
  dict : Dict String Json
  proper : ∀ value ∈ dict.values, Json.serialisable value = true → Json.Proper floats value

inductive Operation (floats : Json.Format) where
  /-- With the time, and what `open` or `write` raises. -/
  | append (record : RunRecord floats) (timestamp : String) (broken : Option String)
  | clear

variable {floats : Json.Format}

/-- `append`, where the file may fail; nothing is written then. -/
def RunHistory.tryAppend (floats : Json.Format) (history : RunHistory) (record : Object)
    (timestamp : String) (broken : Option String) : RunHistory × Except String Object :=
  match broken with
  | some text => (⟨history.file, history.count + 1⟩, .error text)
  | none => history.append floats record timestamp

/-- `clear` -/
def RunHistory.clear (_ : RunHistory) : RunHistory := ⟨[], 0⟩

/-- `__len__` -/
def RunHistory.len (history : RunHistory) : Nat := history.count

/-- The records of the file, oldest first. -/
def RunHistory.stored (floats : Json.Format) (history : RunHistory) : List Json :=
  (entries floats (history.file.splitOn newline)).reverse

namespace Operation

/-- The history after the call. -/
def next (history : RunHistory) : Operation floats → RunHistory
  | append record timestamp broken =>
    (history.tryAppend floats record.dict.entries timestamp broken).1
  | clear => history.clear

/-- The call raises. -/
def raises (history : RunHistory) : Operation floats → Bool
  | append record timestamp broken =>
    (history.tryAppend floats record.dict.entries timestamp broken).2.isOk.not
  | clear => false

/-- The file cannot be written, or a field that is not set by `append` is no JSON. -/
def fails : Operation floats → Bool
  | append record _ broken =>
    broken.isSome || record.dict.entries.any fun field =>
      decide (field.1 ∉ ["index", "timestamp"]) && !Json.serialisable field.2
  | clear => false

end Operation

def machine (floats : Json.Format) : Machine RunHistory (Operation floats) where
  step history call := some (call.next history)

/-- `record["index"]` -/
def indexOf : Json → Json
  | .obj fields => Object.get fields "index"
  | _ => .null

/-- The numbers from 1 on. -/
def numbers (n : Nat) : List Json := (List.range' 1 n).map fun i : Nat => .int i

/-- The count is that of the stored records, and they are numbered from 1 on. -/
structure Counted (floats : Json.Format) (history : RunHistory) : Prop where
  len : history.len = (history.stored floats).length
  consecutive : (history.stored floats).map indexOf = numbers history.len

/-- A call that raises leaves the file and the count; after every call they are in step. -/
def InStep (history : RunHistory) (call : Operation floats) : Prop :=
  (call.raises history = true → call.next history = history) ∧
    Counted floats (call.next history)

section Stamps

theorem set_entries {dict : Dict String Json} {key : String} {value : Json} :
    Object.set dict.entries key value = (dict.set key value).entries :=
  set_eq_assign

theorem get_entries {dict : Dict String Json} {key : String} :
    Object.get dict.entries key = (dict.get? key).getD .null := by
  rw [Object.get, Dict.get?]
  cases dict.entries.find? fun entry => decide (entry.1 = key) <;> rfl

theorem fieldsSerialisable_iff {fields : Object} :
    Json.fieldsSerialisable fields = true ↔
      ∀ field ∈ fields, Json.serialisable field.2 = true := by
  induction fields with
  | nil => simp [Json.fieldsSerialisable]
  | cons field rest ih =>
      rw [Json.fieldsSerialisable, Bool.and_eq_true, ih, List.forall_mem_cons]

namespace RunRecord

/-- The fields that are written. -/
def stamped (record : RunRecord floats) (index : Nat) (timestamp : String) : Dict String Json :=
  (record.dict.set "index" (.int index)).set "timestamp" (.str timestamp)

variable {record : RunRecord floats} {index : Nat} {timestamp : String}

theorem stamp_entries :
    stamp record.dict.entries index timestamp = (record.stamped index timestamp).entries := by
  rw [stamp, set_entries, set_entries, stamped]

theorem get?_stamped {key : String} (other : key ∉ ["index", "timestamp"]) :
    (record.stamped index timestamp).get? key = record.dict.get? key := by
  rw [List.mem_cons, List.mem_singleton, not_or] at other
  rw [stamped, Dict.get?_set_of_ne other.2, Dict.get?_set_of_ne other.1]

theorem get?_stamped_index : (record.stamped index timestamp).get? "index" = some (.int index) := by
  rw [stamped, Dict.get?_set_of_ne (by decide), Dict.get?_set_self]

theorem proper_stamped {value : Json} (member : value ∈ (record.stamped index timestamp).values)
    (json : Json.serialisable value = true) : Json.Proper floats value := by
  obtain rfl | member := Dict.mem_values_set member
  · exact .str timestamp
  · obtain rfl | member := Dict.mem_values_set member
    · exact .int index
    · exact record.proper value member json

/-- What is written is JSON if each field of the record's own is. -/
theorem serialisable_stamped :
    Json.serialisable (.obj (record.stamped index timestamp).entries) = true ↔
      (Operation.append record timestamp none).fails = false := by
  have own : (Operation.append record timestamp none).fails = false ↔
      ∀ field ∈ record.dict.entries, field.1 ∉ ["index", "timestamp"] →
        Json.serialisable field.2 = true := by
    simp [Operation.fails]
  rw [Json.serialisable, fieldsSerialisable_iff, own]
  constructor
  · rintro all ⟨key, value⟩ member other
    refine all (key, value) (Dict.get?_eq_some_iff.mp ?_)
    rw [get?_stamped other]
    exact Dict.get?_eq_some_iff.mpr member
  · rintro all ⟨key, value⟩ member
    have found := Dict.get?_eq_some_iff.mpr member
    by_cases other : key ∈ ["index", "timestamp"]
    · rw [stamped, Dict.get?_set, Dict.get?_set] at found
      split at found
      · cases found
        rfl
      · rename_i not_timestamp
        rw [if_pos (by simpa [not_timestamp] using other)] at found
        cases found
        rfl
    · rw [get?_stamped other] at found
      exact all (key, value) (Dict.get?_eq_some_iff.mp found) other

/-- The record that is written. -/
def written (record : RunRecord floats) (index : Nat) (timestamp : String)
    (json : Json.serialisable (.obj (record.stamped index timestamp).entries) = true) :
    Record floats where
  fields := (record.stamped index timestamp).entries
  proper := by
    refine .obj _ (record.stamped index timestamp).distinct fun field member => ?_
    exact proper_stamped (List.mem_map_of_mem member) (fieldsSerialisable_iff.mp json field member)

end RunRecord

end Stamps

section Steps

variable {history : RunHistory} {call : Operation floats} {record : RunRecord floats}
  {timestamp : String} {broken : Option String}

/-- A call that fails raises, and has taken a number. -/
theorem of_fails (fails : call.fails = true) :
    call.raises history = true ∧ call.next history = ⟨history.file, history.count + 1⟩ := by
  cases call with
  | clear => cases fails
  | append record timestamp broken =>
      cases broken with
      | some text => exact ⟨rfl, rfl⟩
      | none =>
          have printed : Json.dumps floats
              (.obj (record.stamped (history.count + 1) timestamp).entries) =
                .error "Object of type function is not JSON serializable" := by
            refine if_neg fun json => ?_
            rw [RunRecord.serialisable_stamped.mp json] at fails
            cases fails
          rw [Operation.raises, Operation.next, tryAppend, append]
          simp only [RunRecord.stamp_entries, printed]
          exact ⟨rfl, trivial⟩

/-- An append that does not fail writes one line. -/
theorem append_written
    (json : Json.serialisable
      (.obj (record.stamped (history.count + 1) timestamp).entries) = true) :
    history.tryAppend floats record.dict.entries timestamp none =
      (⟨history.file ++ (record.written _ _ json).line, history.count + 1⟩,
        .ok (record.stamped (history.count + 1) timestamp).entries) := by
  have printed : Json.dumps floats
      (.obj (record.stamped (history.count + 1) timestamp).entries) =
        .ok (record.written _ _ json).text := if_pos json
  rw [tryAppend, append]
  simp only [RunRecord.stamp_entries, printed]
  rfl

/-- The file holds whole records, as many as were counted, numbered from 1 on. -/
def Whole (floats : Json.Format) (history : RunHistory) : Prop :=
  ∃ records : List (Record floats), history = ⟨fileOf records, records.length⟩ ∧
    (records.map fun record => indexOf record.value) = numbers records.length

theorem stored_fileOf {records : List (Record floats)} {count : Nat} :
    RunHistory.stored floats ⟨fileOf records, count⟩ = records.map Record.value := by
  rw [stored, entries_fileOf, List.reverse_reverse]

theorem Whole.counted (whole : Whole floats history) : Counted floats history := by
  obtain ⟨records, rfl, numbered⟩ := whole
  constructor
  · rw [stored_fileOf, List.length_map]
    rfl
  · rw [stored_fileOf, List.map_map]
    exact numbered

theorem numbers_succ {n : Nat} : numbers (n + 1) = numbers n ++ [.int ↑(n + 1)] := by
  rw [numbers, numbers, List.range'_1_concat, List.map_append, Nat.add_comm 1 n]
  rfl

/-- A call that does not fail keeps the file whole, and does not raise. -/
theorem whole_next (whole : Whole floats history) (well : call.fails = false) :
    call.raises history = false ∧ Whole floats (call.next history) := by
  cases call with
  | clear => exact ⟨rfl, [], rfl, rfl⟩
  | append record timestamp broken =>
      cases broken with
      | some text => cases well
      | none =>
          have json : Json.serialisable
              (.obj (record.stamped (history.count + 1) timestamp).entries) = true :=
            RunRecord.serialisable_stamped.mpr well
          obtain ⟨records, rfl, numbered⟩ := whole
          rw [Operation.raises, Operation.next, append_written json]
          refine ⟨rfl, records ++ [record.written _ _ json], ?_, ?_⟩
          · simp [fileOf]
          · have index : indexOf (record.written _ _ json).value = .int ↑(records.length + 1) := by
              change Object.get (record.stamped _ timestamp).entries "index" = _
              rw [get_entries, RunRecord.get?_stamped_index]
              rfl
            rw [List.map_append, numbered, List.length_append, List.length_singleton, numbers_succ,
              List.map_singleton, index]

/-- From a whole file, a call is in step exactly when it does not fail. -/
theorem inStep_iff (whole : Whole floats history) :
    InStep history call ↔ call.fails = false := by
  constructor
  · rintro ⟨unchanged, -⟩
    by_contra fails
    rw [Bool.not_eq_false] at fails
    obtain ⟨raises, next⟩ : call.raises history = true ∧ call.next history = _ := of_fails fails
    have count := congrArg RunHistory.count (next.symm.trans (unchanged raises))
    exact Nat.succ_ne_self _ count
  · intro well
    obtain ⟨returns, next⟩ := whole_next whole well
    refine ⟨fun raises => ?_, next.counted⟩
    rw [returns] at raises
    cases raises

theorem meets_inStep_iff {calls : List (Operation floats)} (whole : Whole floats history) :
    (machine floats).Meets InStep history calls ↔ ∀ call ∈ calls, call.fails = false := by
  induction calls generalizing history with
  | nil => exact ⟨fun _ => nofun, fun _ => trivial⟩
  | cons call rest ih =>
      rw [List.forall_mem_cons, Machine.Meets, inStep_iff whole]
      refine and_congr_right fun well => ?_
      rw [← ih (whole_next whole well).2]
      constructor
      · intro later
        exact later _ rfl
      · rintro later t taken
        cases taken
        exact later

end Steps

section Opening

variable {record : Record floats}

theorem universalNewlines_eq {text : List Char} (clean : '\r' ∉ text) :
    universalNewlines text = text := by
  induction text with
  | nil => rfl
  | cons c rest ih =>
      rw [List.mem_cons, not_or] at clean
      rw [universalNewlines, ih clean.2]
      · intro _ same
        exact absurd same.symm clean.1
      · intro same
        exact absurd same.symm clean.1

theorem visible_text : strip (String.ofList record.text) ≠ "" := by
  rw [Ne, strip_eq_empty_iff, String.toList_ofList]
  intro blank
  exact absurd (blank '\x7b' List.mem_cons_self) (by decide)

/-- A file of whole records is opened with as many as it holds. -/
theorem new_fileOf (records : List (Record floats)) :
    RunHistory.new (fileOf records) = .ok ⟨fileOf records, records.length⟩ := by
  have clean : '\r' ∉ records.flatMap fun record => record.text ++ ['\n'] := by
    intro member
    obtain ⟨record, -, inside⟩ := List.mem_flatMap.mp member
    obtain text | newline := List.mem_append.mp inside
    · exact ending_not_mem_text record.proper (by decide) text
    · exact absurd newline (by decide)
  have lines : (records.flatMap fun record => record.text ++ ['\n']).splitOn '\n' =
      records.map Record.text ++ [[]] := by
    have clean : ∀ line ∈ records.map Record.text, '\n' ∉ line := by
      intro line member
      obtain ⟨record, -, rfl⟩ := List.mem_map.mp member
      exact newline_not_mem_text record.proper
    have split :
        (((records.map Record.text).flatMap fun line => line ++ ['\n']) ++ []).splitOn '\n' =
          records.map Record.text ++ [[]] := Lines.splitOn_lines clean
    rwa [List.flatMap_map, List.append_nil] at split
  have shown : records.countP ((fun line => decide (strip (String.ofList line) ≠ "")) ∘
      Record.text) = records.length := by
    rw [List.countP_eq_length]
    intro record _
    rw [Function.comp_apply, decide_eq_true_iff]
    exact visible_text
  have counted : ((records.map Record.text ++ [[]]).countP fun line =>
      decide (strip (String.ofList line) ≠ "")) = records.length := by
    rw [List.countP_append, List.countP_map, shown]
    rfl
  have counts : countLines (fileOf records) = .ok records.length := by
    rw [countLines, fileOf_eq, Utf8.strict_encode]
    dsimp only
    rw [universalNewlines_eq clean, lines, counted]
  rw [new_eq_ok_iff]
  exact ⟨rfl, counts⟩

/-- A run on a history that is opened on records numbered from 1 on, as on a new file, keeps
the file, the count and the numbers in step exactly when no append in it fails. -/
theorem appends_in_step {records : List (Record floats)}
    (numbered : (records.map fun record => indexOf record.value) = numbers records.length)
    (calls : List (Operation floats)) :
    ∃ history, RunHistory.new (fileOf records) = .ok history ∧ Counted floats history ∧
      ((machine floats).Meets InStep history calls ↔ ∀ call ∈ calls, call.fails = false) := by
  have whole : Whole floats ⟨fileOf records, records.length⟩ := ⟨records, rfl, numbered⟩
  exact ⟨_, new_fileOf records, whole.counted, meets_inStep_iff whole⟩

/-- A run that is stored. -/
def stored_run : RunRecord noFloats where
  dict := ⟨[("final", .str "café")], by decide⟩
  proper := by
    intro value member _
    obtain rfl := List.mem_singleton.mp member
    exact .str _

/-- A run that is no JSON. -/
def callback_run : RunRecord noFloats where
  dict := ⟨[("final", .callable 0)], by decide⟩
  proper := by
    intro value member json
    obtain rfl := List.mem_singleton.mp member
    cases json

theorem appends_in_step_reopened :
    ∃ history, RunHistory.new (fileOf [stored_run.written 1 "2026-01-01T00:00:00" rfl]) =
        .ok history ∧ Counted noFloats history ∧
      ((machine noFloats).Meets InStep history
          [.append stored_run "2026-01-02T00:00:00" none, .clear,
            .append stored_run "2026-01-03T00:00:00" none] ↔
        ∀ call ∈ [Operation.append stored_run "2026-01-02T00:00:00" none, .clear,
            .append stored_run "2026-01-03T00:00:00" none], call.fails = false) :=
  appends_in_step rfl _

/-- The record behind a failed append has the number 2 in a file that holds nothing else. -/
theorem number_skipped :
    RunHistory.new [] = .ok ⟨[], 0⟩ ∧
      ¬ (machine noFloats).Meets InStep ⟨[], 0⟩
        [.append callback_run "2026-01-01T00:00:00" none] ∧
      ∃ history, (machine noFloats).run ⟨[], 0⟩
          [.append callback_run "2026-01-01T00:00:00" none,
            .append stored_run "2026-01-02T00:00:00" none] = some history ∧
        history.len = 2 ∧ (history.stored noFloats).map indexOf = [.int 2] := by
  obtain ⟨raises, next⟩ :
      (Operation.append callback_run "2026-01-01T00:00:00" none).raises ⟨[], 0⟩ = true ∧
        (Operation.append callback_run "2026-01-01T00:00:00" none).next ⟨[], 0⟩ = ⟨[], 1⟩ :=
    of_fails rfl
  refine ⟨rfl, ?_, ?_⟩
  · rintro ⟨⟨unchanged, -⟩, -⟩
    exact absurd (congrArg RunHistory.count (next.symm.trans (unchanged raises))) (by decide)
  · have json : Json.serialisable
        (.obj (stored_run.stamped 2 "2026-01-02T00:00:00").entries) = true := rfl
    refine ⟨⟨fileOf [stored_run.written 2 "2026-01-02T00:00:00" json], 2⟩, ?_, rfl, ?_⟩
    · rw [Machine.run_cons_iff]
      refine ⟨_, rfl, ?_⟩
      rw [next, Machine.run_cons_iff]
      refine ⟨_, rfl, ?_⟩
      rw [Operation.next, append_written json]
      rfl
    · rw [stored_fileOf]
      rfl

end Opening

end MultiAgent.Plugin.History
