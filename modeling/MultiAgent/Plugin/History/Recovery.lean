import MultiAgent.Foundations.Dict
import MultiAgent.Plugin.History
import MultiAgent.Plugin.History.Torn

/-!
# A history behind a torn write

A file of whole records that ends in a piece of another one, as a crash leaves it: when
it can be opened again, and which records are then returned (`recovers_iff`).
-/

namespace MultiAgent.Plugin.History

open History.RunHistory

variable {floats : Json.Format}

/-- A record that the history can hold. -/
structure Record (floats : Json.Format) where
  fields : Object
  proper : Json.Proper floats (.obj fields)

namespace Record

def value (record : Record floats) : Json := .obj record.fields

def text (record : Record floats) : List Char := Json.text floats record.value

/-- The line that `append` writes. -/
def line (record : Record floats) : List UInt8 := Utf8.encode (record.text ++ ['\n'])

end Record

/-- A file of whole records. -/
def fileOf (records : List (Record floats)) : List UInt8 := records.flatMap Record.line

/-- What is left of the line of a record that was not written to its end. -/
structure TornRecord (floats : Json.Format) where
  record : Record floats
  bytes : List UInt8
  cut : bytes <+: record.line
  unfinished : bytes ≠ record.line

/-- Records that are appended one after the other: the history, and what was returned. -/
def appendAll (history : RunHistory) : List (Record floats × String) → RunHistory × List Json
  | [] => (history, [])
  | (record, timestamp) :: rest =>
    let (next, result) := history.append floats record.fields timestamp
    let (last, items) := appendAll next rest
    match result with
    | .ok item => (last, .obj item :: items)
    | .error _ => (last, items)

/-- The file can be opened again; then every whole record is returned, newest first, if
the limit is large enough, and so is every record that is appended. -/
def Recovers (records : List (Record floats)) (torn : TornRecord floats)
    (later : List (Record floats × String)) : Prop :=
  ∃ history, RunHistory.new (fileOf records ++ torn.bytes) = .ok history ∧
    ∃ enough : Int, ∀ limit ≥ enough,
      List.Sublist (records.map Record.value).reverse (history.recent floats limit) ∧
      List.Sublist (records.map Record.value ++ (appendAll history later).2).reverse
        ((appendAll history later).1.recent floats limit)

section Lines

theorem ending_not_mem_escape {ending : Char} (ends : ending ∈ ['\n', '\r']) (c : Char) :
    ending ∉ Json.escape c := by
  obtain ⟨apart, marks⟩ : (∀ n < 16, ending ≠ Nat.digitChar n) ∧
      ending ∉ ['"', '\\', 'n', 'r', 't', 'f', 'b', 'u', '0'] := by
    obtain rfl | rfl := List.mem_pair.mp ends
    · decide
    · decide
  have mark : ∀ other, other ∈ ['"', '\\', 'n', 'r', 't', 'f', 'b', 'u', '0'] →
      ending ≠ other := by
    rintro other among rfl
    exact marks among
  rw [Json.escape]
  split_ifs with quote backslash newline return_ tab feed backspace control
  all_goals simp only [List.mem_cons, List.not_mem_nil, or_false, not_or]
  · exact ⟨mark _ (by decide), mark _ (by decide)⟩
  · exact ⟨mark _ (by decide), mark _ (by decide)⟩
  · exact ⟨mark _ (by decide), mark _ (by decide)⟩
  · exact ⟨mark _ (by decide), mark _ (by decide)⟩
  · exact ⟨mark _ (by decide), mark _ (by decide)⟩
  · exact ⟨mark _ (by decide), mark _ (by decide)⟩
  · exact ⟨mark _ (by decide), mark _ (by decide)⟩
  · exact ⟨mark _ (by decide), mark _ (by decide), mark _ (by decide), mark _ (by decide),
      apart _ (by omega), apart _ (by omega)⟩
  · rintro rfl
    simp_all

/-- The text of a record is on one line. -/
theorem ending_not_mem_text {value : Json} (proper : Json.Proper floats value) {ending : Char}
    (ends : ending ∈ ['\n', '\r']) : ending ∉ Json.text floats value := by
  obtain ⟨no_letter, no_quote, no_mark⟩ : Json.isWordChar ending = false ∧ ending ≠ '"' ∧
      ending ∉ "[]\x7b\x7d,: ".toList := by
    obtain rfl | rfl := List.mem_pair.mp ends
    · decide
    · decide
  have composes : Json.Composes fun text => ending ∉ text :=
    { append := by
        intro a b first second
        simp [first, second]
      quoted := by
        intro s
        simp [Json.quoted, no_quote, ending_not_mem_escape ends]
      word := by
        intro word in_word member
        rw [in_word _ member] at no_letter
        cases no_letter
      mark := by
        intro mark among member
        exact no_mark (List.mem_singleton.mp member ▸ among) }
  exact composes.text proper

theorem newline_not_mem_text {value : Json} (proper : Json.Proper floats value) :
    '\n' ∉ Json.text floats value :=
  ending_not_mem_text proper (by decide)

variable {record : Record floats} {records : List (Record floats)}

theorem newline_not_mem_encode : newline ∉ Utf8.encode record.text := by
  intro member
  obtain ⟨c, inside, byte⟩ := List.mem_flatMap.mp member
  obtain rfl := Utf8.mem_encodeChar_newline.mp byte
  exact newline_not_mem_text record.proper inside

theorem line_eq : record.line = Utf8.encode record.text ++ [newline] := by
  rw [Record.line, Utf8.encode_append]
  rfl

theorem splitOn_fileOf {rest : List UInt8} :
    (fileOf records ++ rest).splitOn newline =
      records.map (fun record => Utf8.encode record.text) ++ rest.splitOn newline := by
  have lines : fileOf records =
      (records.map fun record => Utf8.encode record.text).flatMap (· ++ [newline]) := by
    rw [List.flatMap_map, fileOf]
    congr 1
    funext record
    exact line_eq
  rw [lines, Lines.splitOn_lines]
  intro line member
  obtain ⟨record, -, rfl⟩ := List.mem_map.mp member
  exact newline_not_mem_encode

/-- A whole record is read from its line. -/
theorem entry_record : entry floats (Utf8.encode record.text) = some record.value := by
  have shown : isBlank (Utf8.encode record.text) = false := rfl
  rw [entry, shown, if_neg Bool.false_ne_true, load, Utf8.replace_encode]
  exact Json.loads_text record.proper

theorem entries_records :
    entries floats (records.map fun record => Utf8.encode record.text) =
      (records.map Record.value).reverse := by
  rw [entries, List.filterMap_map]
  congr 1
  have read : (entry floats ∘ fun record : Record floats => Utf8.encode record.text) =
      fun record => some record.value := by
    funext record
    exact entry_record
  rw [read, List.filterMap_eq_map']

end Lines

section Appending

open Json (Proper)

theorem set_eq_assign {fields : Object} {key : String} {value : Json} :
    Object.set fields key value = Dict.assign key value fields := by
  have has : fields.has key = true ↔ key ∈ fields.map Prod.fst := by
    simp [Object.has]
  rw [Object.set, Dict.assign]
  simp only [has]

theorem keys_set {fields : Object} {key : String} {value : Json} :
    (Object.set fields key value).map Prod.fst =
      if key ∈ fields.map Prod.fst then fields.map Prod.fst else fields.map Prod.fst ++ [key] := by
  rw [set_eq_assign]
  exact Dict.map_fst_assign key value fields

theorem proper_set {fields : Object} {key : String} {value : Json}
    (proper : Proper floats (.obj fields)) (new : Proper floats value) :
    Proper floats (.obj (Object.set fields key value)) := by
  cases proper with
  | obj _ distinct proper =>
      constructor
      · rw [keys_set]
        split_ifs with member
        · exact distinct
        · rw [List.nodup_append]
          refine ⟨distinct, by simp, ?_⟩
          rintro a inside b new rfl
          exact member (List.mem_singleton.mp new ▸ inside)
      · intro field member
        rw [Object.set] at member
        split_ifs at member
        · obtain ⟨entry, inside, rfl⟩ := List.mem_map.mp member
          split_ifs
          · exact new
          · exact proper entry inside
        · obtain inside | rfl := List.mem_append.mp member |>.imp_right List.mem_singleton.mp
          · exact proper field inside
          · exact new

namespace Record

/-- The record as `append` writes it. -/
def stamped (record : Record floats) (index : Nat) (timestamp : String) : Record floats where
  fields := stamp record.fields index timestamp
  proper := proper_set (proper_set record.proper (.int index)) (.str timestamp)

theorem indexed_stamped {record : Record floats} {index : Nat} {timestamp : String} :
    "index" ∈ (record.stamped index timestamp).fields.map Prod.fst := by
  have index_set : "index" ∈ (Object.set record.fields "index" (.int index)).map Prod.fst := by
    rw [keys_set]
    split_ifs with member
    · exact member
    · simp
  change "index" ∈ (Object.set (Object.set record.fields "index" _) "timestamp" _).map Prod.fst
  rw [keys_set]
  split_ifs with member
  · exact index_set
  · exact List.mem_append_left _ index_set

end Record

theorem serialisable_of_proper {value : Json} (proper : Proper floats value) :
    Json.serialisable value = true := by
  induction proper with
  | arr items proper ih =>
      rw [Json.serialisable]
      induction items with
      | nil => rfl
      | cons item rest later =>
          rw [Json.itemsSerialisable, ih item (by simp), Bool.true_and]
          exact later (fun item member => proper item (by simp [member]))
            fun item member => ih item (by simp [member])
  | obj fields distinct proper ih =>
      rw [Json.serialisable]
      clear distinct
      induction fields with
      | nil => rfl
      | cons field rest later =>
          rw [Json.fieldsSerialisable, ih field (by simp), Bool.true_and]
          exact later (fun field member => proper field (by simp [member]))
            fun field member => ih field (by simp [member])
  | _ => rfl

theorem append_record {history : RunHistory} {record : Record floats} {timestamp : String} :
    history.append floats record.fields timestamp =
      (⟨history.file ++ (record.stamped (history.count + 1) timestamp).line, history.count + 1⟩,
        .ok (record.stamped (history.count + 1) timestamp).fields) := by
  have printed : Json.dumps floats (.obj (stamp record.fields (history.count + 1) timestamp)) =
      .ok (record.stamped (history.count + 1) timestamp).text :=
    if_pos (serialisable_of_proper (record.stamped (history.count + 1) timestamp).proper)
  simp only [RunHistory.append, printed]
  rfl

/-- The records that are appended, as they are written. -/
def stampAll (count : Nat) : List (Record floats × String) → List (Record floats)
  | [] => []
  | (record, timestamp) :: rest =>
    record.stamped (count + 1) timestamp :: stampAll (count + 1) rest

theorem appendAll_eq {history : RunHistory} {later : List (Record floats × String)} :
    (appendAll history later).1.file = history.file ++ fileOf (stampAll history.count later) ∧
      (appendAll history later).2 = (stampAll history.count later).map Record.value := by
  induction later generalizing history with
  | nil => simp [appendAll, stampAll, fileOf]
  | cons pair rest ih =>
      obtain ⟨record, timestamp⟩ := pair
      obtain ⟨file, items⟩ :=
        @ih ⟨history.file ++ (record.stamped (history.count + 1) timestamp).line, history.count + 1⟩
      rw [appendAll]
      simp only [append_record, stampAll, file, items]
      simp [fileOf, Record.value]

end Appending

section Torn

variable {records : List (Record floats)} {torn : TornRecord floats}
  {later : List (Record floats × String)} {history : RunHistory}

theorem TornRecord.prefix_text (torn : TornRecord floats) :
    torn.bytes <+: Utf8.encode torn.record.text := by
  have cut := torn.cut
  rw [line_eq, List.prefix_concat_iff, ← line_eq] at cut
  exact cut.resolve_left torn.unfinished

theorem TornRecord.splitOn_bytes (torn : TornRecord floats) :
    torn.bytes.splitOn newline = [torn.bytes] :=
  List.splitOn_eq_singleton fun member => newline_not_mem_encode (torn.prefix_text.subset member)

theorem fileOf_eq : fileOf records = Utf8.encode (records.flatMap fun r => r.text ++ ['\n']) := by
  induction records with
  | nil => rfl
  | cons record rest ih =>
      rw [List.flatMap_cons, Utf8.encode_append, ← ih]
      rfl

theorem new_eq_ok_iff {file : List UInt8} :
    RunHistory.new file = .ok history ↔
      history.file = file ∧ countLines file = .ok history.count := by
  obtain ⟨kept, count⟩ := history
  cases counted : countLines file with
  | error text => simp [RunHistory.new, counted, bind, Except.bind]
  | ok lines =>
      simp [RunHistory.new, counted, bind, Except.bind, pure, Except.pure, eq_comm]

/-- A history can be opened when the torn record ends between two characters. -/
theorem opens_iff :
    (∃ history, RunHistory.new (fileOf records ++ torn.bytes) = .ok history) ↔
      ∃ text, torn.bytes = Utf8.encode text := by
  have decoded : (∃ history, RunHistory.new (fileOf records ++ torn.bytes) = .ok history) ↔
      (Utf8.strict (fileOf records ++ torn.bytes)).isSome := by
    simp only [new_eq_ok_iff, countLines]
    cases Utf8.strict (fileOf records ++ torn.bytes) with
    | none => simp
    | some text => exact ⟨fun _ => rfl, fun _ => ⟨⟨_, _⟩, rfl, rfl⟩⟩
  rw [decoded, fileOf_eq]
  constructor
  · intro accepted
    obtain ⟨text, -, whole⟩ := (Utf8.strict_append_isSome_iff torn.prefix_text).mp accepted
    exact ⟨text, whole⟩
  · rintro ⟨text, whole⟩
    rw [whole, ← Utf8.encode_append, Utf8.strict_encode]
    rfl

/-- Behind a limit of as many records as there are lines, all are returned. -/
theorem recent_all {limit : Int} (enough : (history.file.splitOn newline).length ≤ limit) :
    history.recent floats limit = entries floats (history.file.splitOn newline) := by
  rw [recent_eq]
  apply List.take_of_length_le
  have fewer := List.length_filterMap_le (entry floats) (history.file.splitOn newline)
  rw [entries, List.length_reverse]
  omega

/-- The records of a file with a torn record at its end, and with others behind it. -/
theorem entries_torn :
    entries floats ((fileOf records ++ torn.bytes).splitOn newline) =
      entries floats [torn.bytes] ++ (records.map Record.value).reverse := by
  rw [splitOn_fileOf, torn.splitOn_bytes, entries_append, entries_records]

theorem entries_fileOf :
    entries floats ((fileOf records).splitOn newline) = (records.map Record.value).reverse := by
  rw [← List.append_nil (fileOf records), splitOn_fileOf, entries_append, entries_records]
  rfl

theorem entries_behind {first : Record floats} {rest : List (Record floats)} :
    entries floats ((fileOf records ++ torn.bytes ++ fileOf (first :: rest)).splitOn newline) =
      (rest.map Record.value).reverse ++
        (entries floats [torn.bytes ++ Utf8.encode first.text] ++
          (records.map Record.value).reverse) := by
  have clean : newline ∉ torn.bytes ++ Utf8.encode first.text := by
    rw [List.mem_append, not_or]
    exact ⟨fun member => newline_not_mem_encode (torn.prefix_text.subset member),
      newline_not_mem_encode⟩
  have split : torn.bytes ++ fileOf (first :: rest) =
      (torn.bytes ++ Utf8.encode first.text) ++ newline :: fileOf rest := by
    simp [fileOf, line_eq]
  rw [List.append_assoc, splitOn_fileOf, split, List.splitOn_append_cons_self_of_not_mem clean,
    entries_append, ← List.singleton_append, entries_append, entries_fileOf, entries_records,
    List.append_assoc]

/-- What is appended to a torn record is not read. -/
theorem entry_torn {text : List Char} (nonempty : torn.bytes ≠ [])
    (whole : torn.bytes = Utf8.encode text) (record : Record floats) (index : Nat)
    (timestamp : String) :
    entry floats (torn.bytes ++ Utf8.encode (record.stamped index timestamp).text) = none := by
  have accepted : (Utf8.strict (Utf8.encode [] ++ torn.bytes)).isSome := by
    rw [whole, ← Utf8.encode_append, Utf8.strict_encode]
    rfl
  obtain ⟨before, start, bytes⟩ := (Utf8.strict_append_isSome_iff torn.prefix_text).mp accepted
  cases before with
  | nil => exact absurd bytes nonempty
  | cons c tail =>
      obtain ⟨rfl, -⟩ := List.cons_prefix_cons.mp start
      have shown : isBlank (Utf8.encode ('\x7b' :: tail) ++
          Utf8.encode (record.stamped index timestamp).text) = false := rfl
      rw [bytes, entry, shown, if_neg Bool.false_ne_true, load, ← Utf8.encode_append,
        Utf8.replace_encode]
      exact Json.loads_torn (record.stamped index timestamp).proper Record.indexed_stamped tail

/-- With a record behind a torn one, a record is missing. -/
theorem alone_of_recovers (recovers : Recovers records torn later) :
    torn.bytes = [] ∨ later = [] := by
  obtain ⟨history, opened, enough, returned⟩ := recovers
  obtain ⟨text, whole⟩ := opens_iff.mp ⟨history, opened⟩
  by_contra lost
  rw [not_or] at lost
  obtain ⟨nonempty, appended⟩ := lost
  obtain ⟨kept, -⟩ := new_eq_ok_iff.mp opened
  cases later with
  | nil => exact appended rfl
  | cons pair rest =>
      obtain ⟨record, timestamp⟩ := pair
      obtain ⟨file, items⟩ := @appendAll_eq floats history ((record, timestamp) :: rest)
      rw [kept, stampAll] at file
      have missing : entries floats [torn.bytes ++
          Utf8.encode (record.stamped (history.count + 1) timestamp).text] = [] := by
        simp [entries, entry_torn nonempty whole]
      -- one record fewer is read than was written
      obtain ⟨-, all⟩ := returned (max enough _) (le_max_left _ _)
      rw [recent_all (le_max_right _ _), file, entries_behind, missing, items] at all
      have sizes := all.length_le
      simp [stampAll] at sizes

theorem recovers_of_alone {text : List Char} (whole : torn.bytes = Utf8.encode text)
    (alone : torn.bytes = [] ∨ later = []) : Recovers records torn later := by
  obtain ⟨history, opened⟩ : ∃ history, RunHistory.new (fileOf records ++ torn.bytes) =
      .ok history := opens_iff.mpr ⟨text, whole⟩
  obtain ⟨kept, -⟩ := new_eq_ok_iff.mp opened
  obtain ⟨file, items⟩ := @appendAll_eq floats history later
  refine ⟨history, opened, max ((history.file.splitOn newline).length : Int)
    (((appendAll history later).1.file.splitOn newline).length : Int), ?_⟩
  intro limit large
  rw [recent_all (le_trans (le_max_left _ _) large),
    recent_all (le_trans (le_max_right _ _) large)]
  constructor
  · rw [kept, entries_torn]
    exact List.sublist_append_right _ _
  · rw [file, items, kept]
    obtain empty | rfl := alone
    · rw [empty, List.append_nil, fileOf, fileOf, ← List.flatMap_append, ← fileOf, entries_fileOf,
        List.map_append]
    · simp only [stampAll, fileOf, List.flatMap_nil, List.append_nil, List.map_nil]
      rw [← fileOf, entries_torn]
      exact List.sublist_append_right _ _

/-- The history recovers from a torn write exactly when the piece ends between two
characters, and is empty or has nothing behind it. -/
theorem recovers_iff (records : List (Record floats)) (torn : TornRecord floats)
    (later : List (Record floats × String)) :
    Recovers records torn later ↔
      (∃ text, torn.bytes = Utf8.encode text) ∧ (torn.bytes = [] ∨ later = []) := by
  constructor
  · intro recovers
    have alone := alone_of_recovers recovers
    obtain ⟨history, opened, -⟩ := recovers
    exact ⟨opens_iff.mp ⟨history, opened⟩, alone⟩
  · rintro ⟨⟨text, whole⟩, alone⟩
    exact recovers_of_alone whole alone

/-- A format without floats. -/
def noFloats : Json.Format where
  representable := fun _ => False
  repr := fun _ => []
  read := fun _ => .nan
  lone := fun unit => Char.ofNat (unit + 0x100000)
  literal := Json.Format.literal_of_false
  read_repr := Json.Format.read_of_false

def cafe : Record noFloats where
  fields := [("final", .str "café")]
  proper := .obj _ (by decide) (by simp [Json.Proper.str])

/-- The record is cut off in its last letter. -/
def inLetter : TornRecord noFloats where
  record := cafe
  bytes := Utf8.encode "\x7b\"final\": \"caf".toList ++ [0xC3]
  cut := ⟨[0xA9, 0x22, 0x7D, 0x0A], by decide⟩
  unfinished := by decide

/-- The record is cut off behind its brace. -/
def behindBrace : TornRecord noFloats where
  record := cafe
  bytes := Utf8.encode ['\x7b']
  cut := ⟨cafe.line.drop 1, by decide⟩
  unfinished := by decide

/-- A history is not opened again, or loses the next record. -/
theorem not_recovers_cafe :
    ¬ Recovers [] inLetter [] ∧
      ¬ Recovers [] behindBrace [(cafe, "2026-01-01T00:00:00")] := by
  constructor
  · rintro ⟨history, opened, -⟩
    cases opened
  · intro recovers
    obtain empty | none_ := alone_of_recovers recovers
    · cases empty
    · cases none_

end Torn

end MultiAgent.Plugin.History
