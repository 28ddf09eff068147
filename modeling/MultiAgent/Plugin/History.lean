import MultiAgent.Foundations.Blocks
import MultiAgent.Foundations.Utf8
import MultiAgent.Plugin.Json.RoundTrip

/-!
# The history of runs

`RunHistory` of `history.py`: a file of JSON lines, and the number of the last record.
Opening a history counts the lines of the text, which must be UTF-8. `recent` reads the
bytes from the end, block by block, and skips what is no record.
-/

namespace MultiAgent.Plugin.History

def newline : UInt8 := 10

/-- The file, and the number of its lines as the object counts them. -/
structure RunHistory where
  file : List UInt8
  count : Nat

/-- The text mode of `open`, where any line end is `\n`. -/
def universalNewlines : List Char → List Char
  | [] => []
  | '\r' :: '\n' :: rest => '\n' :: universalNewlines rest
  | '\r' :: rest => '\n' :: universalNewlines rest
  | c :: rest => c :: universalNewlines rest

/-- `_count_lines` -/
def countLines (file : List UInt8) : Except String Nat :=
  match Utf8.strict file with
  | none => .error "'utf-8' codec can't decode bytes"
  | some text =>
    .ok (((universalNewlines text).splitOn '\n').countP fun line =>
      strip (String.ofList line) ≠ "")

/-- `not raw.strip()` -/
def isBlank (raw : List UInt8) : Bool := raw.all fun b => decide (b ∈ [32, 9, 10, 11, 12, 13])

def blockSize : Nat := 4096

namespace RunHistory

/-- `RunHistory(path)`, where the file is there. -/
def new (file : List UInt8) : Except String RunHistory := do
  return ⟨file, ← countLines file⟩

variable (floats : Json.Format)

/-- The record with its number and the time. -/
def stamp (record : Object) (index : Nat) (timestamp : String) : Object :=
  (record.set "index" (.int index)).set "timestamp" (.str timestamp)

/-- `append`, at the time `timestamp`; the number is taken even if the record is no JSON. -/
def append (history : RunHistory) (record : Object) (timestamp : String) :
    RunHistory × Except String Object :=
  let count := history.count + 1
  let item := stamp record count timestamp
  match Json.dumps floats (.obj item) with
  | .error text => (⟨history.file, count⟩, .error text)
  | .ok text => (⟨history.file ++ Utf8.encode (text ++ ['\n']), count⟩, .ok item)

/-- `json.loads` of a line. -/
def load (raw : List UInt8) : Option Json := Json.loads floats (Utf8.replace raw)

/-- The records of the lines, newest first, until there are as many as the limit. -/
def scan (limit : Nat) : List (List UInt8) → List Json → List Json
  | [], items => items
  | raw :: rest, items =>
    if isBlank raw then scan limit rest items
    else
      match load floats raw with
      | none => scan limit rest items
      | some item =>
        if limit ≤ (items ++ [item]).length then items ++ [item]
        else scan limit rest (items ++ [item])

/-- The loop over the blocks in front of `pos`; `chunk` is the start of a line behind it. -/
def readBack (file : List UInt8) (limit pos : Nat) (chunk : List UInt8) (items : List Json) :
    List Json :=
  if pos = 0 ∨ limit ≤ items.length then items
  else
    let size := min blockSize pos
    let start := pos - size
    let parts := ((file.drop start).take size ++ chunk).splitOn newline
    if 0 < start then
      -- the first part may be the end of a line
      readBack file limit start (parts.headD []) (scan floats limit parts.tail.reverse items)
    else scan floats limit parts.reverse items
termination_by pos
decreasing_by
  simp only [blockSize]
  omega

def recent (history : RunHistory) (limit : Int) : List Json :=
  if limit.toNat = 0 then []
  else if history.file = [] then []
  else readBack floats history.file limit.toNat history.file.length [] []

variable {floats} {history : RunHistory} {limit : Nat} {items : List Json}

/-- The record of a line, if it is one. -/
def entry (floats : Json.Format) (raw : List UInt8) : Option Json :=
  if isBlank raw then none else load floats raw

theorem scan_eq {lines : List (List UInt8)} (missing : items.length < limit) :
    scan floats limit lines items = (items ++ lines.filterMap (entry floats)).take limit := by
  induction lines generalizing items with
  | nil =>
      rw [List.filterMap_nil, List.append_nil, List.take_of_length_le (Nat.le_of_lt missing)]
      rfl
  | cons raw rest ih =>
      rw [scan]
      by_cases blank : isBlank raw = true
      · have skipped : entry floats raw = none := by simp [entry, blank]
        rw [if_pos blank, List.filterMap_cons_none skipped, ih missing]
      · have loaded : entry floats raw = load floats raw := by simp [entry, blank]
        rw [if_neg blank]
        cases read : load floats raw with
        | none => rw [List.filterMap_cons_none (loaded.trans read), ih missing]
        | some item =>
            rw [List.filterMap_cons_some (loaded.trans read), List.append_cons]
            simp only
            split_ifs with full
            · have exact_ : (items ++ [item]).length = limit := by
                simp only [List.length_append, List.length_singleton] at full ⊢
                omega
              rw [List.take_append_of_le_length (Nat.le_of_eq exact_.symm), ← exact_,
                List.take_length]
            · exact ih (Nat.lt_of_not_le full)

/-- The records of the lines, newest first. -/
def entries (floats : Json.Format) (lines : List (List UInt8)) : List Json :=
  (lines.filterMap (entry floats)).reverse

theorem entries_append {a b : List (List UInt8)} :
    entries floats (a ++ b) = entries floats b ++ entries floats a := by
  simp [entries]

/-- `len(items) >= limit` -/
def enough {α : Type} (limit : Nat) (items : List α) : Bool := decide (limit ≤ items.length)

/-- What a reader that may fail does with a line: `loads` gives the value of a line, none for a
line that is skipped, or an exception that is no `ValueError`. -/
def takeLine {α : Type} (loads : List UInt8 → Except String (Option α)) (raw : List UInt8)
    (items : List α) : Except String (List α) :=
  if isBlank raw then .ok items
  else
    match loads raw with
    | .error text => .error text
    | .ok none => .ok items
    | .ok (some item) => .ok (items ++ [item])

/-- `recent`, for any `json.loads`. -/
def recentWith {α : Type} (loads : List UInt8 → Except String (Option α)) (file : List UInt8)
    (limit : Int) : Except String (List α) :=
  if limit.toNat = 0 then .ok []
  else if file = [] then .ok []
  else
    Blocks.readBack newline blockSize (by decide) (enough limit.toNat) (takeLine loads) file
      file.length [] []

section Reading

/-- The reader of `recent`. -/
def loading (floats : Json.Format) (raw : List UInt8) : Except String (Option Json) :=
  .ok (load floats raw)

theorem scan_eq_blocks {lines : List (List UInt8)} (missing : items.length < limit) :
    Blocks.scan (enough limit) (takeLine (loading floats)) lines items =
      .ok (scan floats limit lines items) := by
  have open_ : enough limit items = false := decide_eq_false (Nat.not_le.mpr missing)
  induction lines generalizing items with
  | nil => rfl
  | cons raw rest ih =>
      rw [Blocks.scan, scan, takeLine]
      by_cases blank : isBlank raw = true
      · simp only [if_pos blank, open_]
        exact ih missing open_
      · simp only [if_neg blank, loading]
        cases load floats raw with
        | none =>
            simp only [open_]
            exact ih missing open_
        | some item =>
            dsimp only
            by_cases last : limit ≤ (items ++ [item]).length
            · rw [if_pos last, enough, decide_eq_true last]
              rfl
            · rw [if_neg last, enough, decide_eq_false last]
              exact ih (Nat.lt_of_not_le last) (decide_eq_false last)

theorem readBack_eq_blocks {file chunk : List UInt8} {pos : Nat} {positive : 0 < blockSize} :
    Blocks.readBack newline blockSize positive (enough limit) (takeLine (loading floats)) file pos
      chunk items = .ok (readBack floats file limit pos chunk items) := by
  induction pos using Nat.strongRecOn generalizing chunk items with
  | ind pos ih =>
      rw [Blocks.readBack, readBack]
      by_cases done : pos = 0 ∨ limit ≤ items.length
      · rw [if_pos done, if_pos (by simpa [enough] using done)]
      · have missing : items.length < limit := Nat.lt_of_not_le fun full => done (.inr full)
        have inside : pos ≠ 0 := fun none_ => done (.inl none_)
        have block : 0 < min blockSize pos := by
          rw [blockSize]
          omega
        rw [if_neg done, if_neg (by simpa [enough] using done)]
        dsimp only
        split
        · simp only [scan_eq_blocks missing]
          exact ih _ (by omega)
        · exact scan_eq_blocks missing

theorem recentWith_loading {limit : Int} :
    recentWith (loading floats) history.file limit = .ok (history.recent floats limit) := by
  rw [recentWith, recent]
  split_ifs
  · rfl
  · rfl
  · exact readBack_eq_blocks

/-- The lines of the file from the last one on, until there are enough records. -/
theorem recentWith_eq {α : Type} {loads : List UInt8 → Except String (Option α)}
    {file : List UInt8} {limit : Int} (positive : 0 < limit) :
    recentWith loads file limit =
      Blocks.scan (enough limit.toNat) (takeLine loads) (file.splitOn newline).reverse [] := by
  have missing : enough limit.toNat ([] : List α) = false :=
    decide_eq_false (by rw [List.length_nil]; omega)
  rw [recentWith, if_neg (by omega)]
  split_ifs with empty
  · subst empty
    have blank : takeLine loads [] [] = .ok [] := rfl
    have single : (List.splitOn newline []).reverse = [[]] := rfl
    rw [single, Blocks.scan, blank]
    dsimp only
    rw [missing]
    rfl
  · refine (Blocks.readBack_eq (List.length_pos_of_ne_nil empty) (Nat.le_refl _) missing).trans ?_
    rw [List.take_length, List.append_nil]

/-- The records that are returned are those of the lines, whatever the blocks are. -/
theorem recent_eq {limit : Int} :
    history.recent floats limit =
      (entries floats (history.file.splitOn newline)).take limit.toNat := by
  by_cases positive : 0 < limit
  · have missing : ([] : List Json).length < limit.toNat := by
      rw [List.length_nil]
      omega
    have read := @recentWith_eq _ (loading floats) history.file _ positive
    rw [recentWith_loading, scan_eq_blocks missing, scan_eq missing, List.filterMap_reverse] at read
    exact Except.ok.inj read
  · have none_ : limit.toNat = 0 := by omega
    rw [recent, if_pos none_, none_, List.take_zero]

/-- The whole file, split into lines and read from the last line on. -/
def readAll {α : Type} (loads : List UInt8 → Except String (Option α)) (file : List UInt8)
    (limit : Int) : Except String (List α) :=
  if limit ≤ 0 then .ok []
  else Blocks.scan (enough limit.toNat) (takeLine loads) (file.splitOn newline).reverse []

/-- The reader of `recent` with the limits of the interpreter. -/
def loadWithin (floats : Json.Format) (depth : Nat) (raw : List UInt8) :
    Except String (Option Json) :=
  match Json.loadsWithin floats depth (Utf8.replace raw) with
  | .value value => .ok (some value)
  | .valueError => .ok none
  | .recursionError => .error "RecursionError"

section Lines

variable {α : Type} {loads : List UInt8 → Except String (Option α)}

theorem recentWith_eq_readAll {file : List UInt8} {limit : Int} :
    recentWith loads file limit = readAll loads file limit := by
  rw [readAll]
  split_ifs with none_
  · exact if_pos (by omega)
  · exact recentWith_eq (by omega)

/-- Where no line goes beyond the limits, `recent` is the function without them. -/
theorem recentWith_loadWithin {depth : Nat} {limit : Int}
    (within : ∀ raw ∈ history.file.splitOn newline,
      loadWithin floats depth raw = .ok (load floats raw)) :
    recentWith (loadWithin floats depth) history.file limit =
      .ok (history.recent floats limit) := by
  rw [← recentWith_loading, recentWith_eq_readAll, recentWith_eq_readAll, readAll, readAll,
    Blocks.scan_congr fun raw member => ?_]
  funext items
  rw [takeLine, takeLine, within raw (List.mem_reverse.mp member), loading]

/-- The value of a line that is not blank and that can be read. -/
def valueOf (loads : List UInt8 → Except String (Option α)) (raw : List UInt8) : Option α :=
  if isBlank raw then none else (loads raw).toOption.join

/-- The reader raises an exception at the line that is no `ValueError`. -/
def Raises (loads : List UInt8 → Except String (Option α)) (raw : List UInt8) : Prop :=
  isBlank raw = false ∧ ∃ text, loads raw = .error text

/-- What a line does: it raises, or its value is added, if it has one. -/
theorem takeLine_cases (loads : List UInt8 → Except String (Option α)) (raw : List UInt8)
    (items : List α) :
    (Raises loads raw ∧ ∃ text, takeLine loads raw items = .error text) ∨
      ¬ Raises loads raw ∧
        takeLine loads raw items = .ok (items ++ (valueOf loads raw).toList) := by
  rw [takeLine, valueOf]
  by_cases blank : isBlank raw = true
  · right
    rw [if_pos blank, if_pos blank]
    exact ⟨fun raises => by simp [raises.1] at blank, by simp⟩
  · rw [if_neg blank, if_neg blank]
    cases loaded : loads raw with
    | error text => exact .inl ⟨⟨by simpa using blank, text, loaded⟩, text, rfl⟩
    | ok value =>
        right
        constructor
        · rintro ⟨-, text, raised⟩
          cases loaded.symm.trans raised
        · cases value with
          | none => simp [Except.toOption]
          | some item => rfl

theorem values_cons {raw : List UInt8} {rest : List (List UInt8)} :
    (raw :: rest).filterMap (valueOf loads) =
      (valueOf loads raw).toList ++ rest.filterMap (valueOf loads) := by
  cases read : valueOf loads raw with
  | none => rw [List.filterMap_cons_none read, Option.toList_none, List.nil_append]
  | some item => rw [List.filterMap_cons_some read, Option.toList_some, List.singleton_append]

/-- None of the lines raises an exception that is read before there are as many values as the
limit; some values are there before the first line. -/
def Quiet (loads : List UInt8 → Except String (Option α)) (limit : Nat) (items : List α)
    (lines : List (List UInt8)) : Prop :=
  ∀ before raw after, lines = before ++ raw :: after → Raises loads raw →
    limit ≤ (items ++ before.filterMap (valueOf loads)).length

theorem quiet_cons_iff {limit : Nat} {items : List α} {raw : List UInt8}
    {rest : List (List UInt8)} (quiet : ¬ Raises loads raw) :
    Quiet loads limit items (raw :: rest) ↔
      Quiet loads limit (items ++ (valueOf loads raw).toList) rest := by
  constructor
  · intro reached before line after split raises
    rw [List.append_assoc, ← values_cons]
    exact reached (raw :: before) line after (by rw [split, List.cons_append]) raises
  · intro reached before line after split raises
    obtain ⟨-, same⟩ | ⟨between, rfl, later⟩ := List.cons_eq_append_iff.mp split
    · cases same
      exact absurd raises quiet
    · rw [values_cons, ← List.append_assoc]
      exact reached between line after later raises

/-- Lines that are read one after the other give their values exactly when none of those that
are reached raises. -/
theorem scan_eq_ok_iff {lines : List (List UInt8)} {items : List α} {limit : Nat}
    (missing : items.length < limit) :
    Blocks.scan (enough limit) (takeLine loads) lines items =
        .ok ((items ++ lines.filterMap (valueOf loads)).take limit) ↔
      Quiet loads limit items lines := by
  induction lines generalizing items with
  | nil =>
      refine iff_of_true ?_ ?_
      · rw [List.filterMap_nil, List.append_nil, List.take_of_length_le (Nat.le_of_lt missing)]
        rfl
      · intro before raw after split
        simp at split
  | cons raw rest ih =>
      rw [Blocks.scan]
      obtain ⟨raises, text, taken⟩ | ⟨quiet, taken⟩ := takeLine_cases loads raw items
      · rw [taken]
        refine iff_of_false (fun same => by cases same) fun reached => ?_
        have full := reached [] raw rest rfl raises
        rw [List.filterMap_nil, List.append_nil] at full
        omega
      · rw [taken, values_cons, ← List.append_assoc, quiet_cons_iff quiet]
        dsimp only
        by_cases full : limit ≤ (items ++ (valueOf loads raw).toList).length
        · have single : (valueOf loads raw).toList.length ≤ 1 := by
            cases valueOf loads raw <;> simp
          have last : (items ++ (valueOf loads raw).toList).length = limit := by
            rw [List.length_append] at full ⊢
            omega
          rw [enough, decide_eq_true full, if_pos rfl, List.take_append_of_le_length (by omega),
            List.take_of_length_le (by omega)]
          refine iff_of_true rfl fun before line after _ _ => ?_
          rw [List.length_append]
          omega
        · rw [enough, decide_eq_false full]
          exact ih (Nat.lt_of_not_le full)

/-- `recent` is the reader of the whole file, whatever a line is read as. It returns the values
of the last lines that can be read, newest first, exactly when no line raises another exception
than a `ValueError` that has fewer such lines behind it than are asked for. -/
theorem recent_reads_lines (loads : List UInt8 → Except String (Option α)) (file : List UInt8)
    (limit : Int) :
    recentWith loads file limit = readAll loads file limit ∧
      (recentWith loads file limit =
          .ok (((file.splitOn newline).filterMap (valueOf loads)).rtake limit.toNat).reverse ↔
        ∀ before raw after, file.splitOn newline = before ++ raw :: after → Raises loads raw →
          limit.toNat ≤ (after.filterMap (valueOf loads)).length) := by
  refine ⟨recentWith_eq_readAll, ?_⟩
  by_cases positive : 0 < limit
  · have missing : ([] : List α).length < limit.toNat := by
      rw [List.length_nil]
      omega
    rw [recentWith_eq positive, List.rtake_eq_reverse_take_reverse, List.reverse_reverse,
      ← List.filterMap_reverse, ← List.nil_append (List.filterMap _ _), scan_eq_ok_iff missing]
    constructor
    · intro quiet before raw after split raises
      have reached := quiet after.reverse raw before.reverse (by simp [split]) raises
      rwa [List.nil_append, List.filterMap_reverse, List.length_reverse] at reached
    · intro reached before raw after split raises
      rw [List.reverse_eq_iff] at split
      have enough := reached after.reverse raw before.reverse (by simp [split]) raises
      rwa [List.filterMap_reverse, List.length_reverse] at enough
  · have none_ : limit.toNat = 0 := by omega
    rw [recentWith, if_pos none_, none_]
    exact iff_of_true (by simp [List.rtake]) fun _ _ _ _ _ => Nat.zero_le _

/-- A line of brackets that nest too deeply is not skipped. -/
theorem recentWith_nested {depth n : Nat} {limit : Int} (positive : 0 < limit) (deep : depth ≤ n) :
    recentWith (loadWithin floats depth) (Utf8.encode (List.replicate (n + 1) '[')) limit =
      .error "RecursionError" := by
  have clean : newline ∉ Utf8.encode (List.replicate (n + 1) '[') := by
    intro member
    obtain ⟨c, bracket, byte⟩ := List.mem_flatMap.mp member
    obtain rfl := Utf8.mem_encodeChar_newline.mp byte
    cases List.eq_of_mem_replicate bracket
  have shown : isBlank (Utf8.encode (List.replicate (n + 1) '[')) = false := rfl
  have nested := @Json.readWithin_nested floats [] [] depth (n + 1) false (Nat.zero_le _)
    (by rw [List.length_nil]; omega)
  rw [List.append_nil] at nested
  rw [recentWith_eq positive, List.splitOn_eq_singleton clean, List.reverse_singleton,
    Blocks.scan, takeLine, shown, loadWithin, Json.loadsWithin, Utf8.replace_encode, nested]
  rfl

theorem nested_not_skipped :
    let file := Utf8.encode (List.replicate 20000 '[')
    let loads := loadWithin default 1000
    recentWith loads file 20 ≠
      .ok (((file.splitOn newline).filterMap (valueOf loads)).rtake 20).reverse := by
  intro file loads same
  have raised := @recentWith_nested default 1000 19999 20 (by decide) (by decide)
  cases raised.symm.trans same

end Lines

end Reading

end RunHistory

end MultiAgent.Plugin.History
