import MultiAgent.Plugin.Json.RoundTrip
import MultiAgent.Plugin.Planning.Fallback

/-!
# What `parse_plan` raises

Besides a plan that is not valid, only an entry whose dependencies or capabilities cannot be
gone through, or a text that nests too deeply for `json.loads`, stops `parse_plan`. A string
of dependencies is gone through character by character (`accepts_iff`).
-/

namespace MultiAgent.Plugin

namespace Planning

section Entries

variable {repr : Json → String} {entry : Object} {text : String}

/-- The dependencies of the entry are a list, or a string that is read as one. -/
def dependenciesReadable (entry : Object) : Bool :=
  match Object.get entry "depends_on" with
  | .arr _ | .obj _ => true
  | .str text => decide ((solid text).length ≤ 1)
  | value => !value.truthy

def capabilitiesReadable (entry : Object) : Bool :=
  match Object.get entry "required_capabilities" with
  | .null | .str _ | .arr _ | .obj _ => true
  | _ => false

theorem strip_singleton (c : Char) :
    strip (String.singleton c) = if isSpace c then "" else String.singleton c := by
  have alone : (String.singleton c).toList = [c] := by simp
  split_ifs with space
  · rw [strip, alone, List.dropWhile_cons_of_pos space]
    rfl
  · apply strip_of_solid
    rw [solid, alone, List.filter_cons_of_pos (by simpa using space), List.filter_nil]

/-- A string of dependencies is gone through character by character. -/
theorem dependenciesOf_str (given : Object.get entry "depends_on" = .str text) :
    dependenciesOf repr entry = .ok ((solid text).map String.singleton) := by
  have letters : (((text.toList.map fun c => Json.str (String.singleton c)).map fun dep =>
      strip (dep.toStr repr)).filter fun dep => decide (dep ≠ "" ∧ dep ≠ placeholderDependency)) =
      (solid text).map String.singleton := by
    rw [solid]
    induction text.toList with
    | nil => rfl
    | cons c rest ih =>
        rw [List.map_cons, List.map_cons, Json.toStr, strip_singleton, List.filter_cons, ih,
          List.filter_cons]
        by_cases space : isSpace c
        · simp [space]
        · have long : String.singleton c ≠ placeholderDependency := by
            intro same
            have lengths := congrArg String.length same
            rw [String.length_singleton] at lengths
            exact absurd lengths (by decide)
          simp [space, long]
  rw [dependenciesOf, given, Json.orElse]
  by_cases empty : text = ""
  · subst empty
    rfl
  · have truthy : (Json.str text).truthy = true := by simp [Json.truthy, empty]
    rw [if_pos truthy]
    exact congrArg Except.ok letters

/-- It is read as a whole when it has a single character at most. -/
theorem dependenciesOf_str_whole (given : Object.get entry "depends_on" = .str text) :
    (dependenciesOf repr entry = .ok [] ∨ dependenciesOf repr entry = .ok [strip text]) ↔
      (solid text).length ≤ 1 := by
  rw [dependenciesOf_str given]
  cases visible : solid text with
  | nil => simp
  | cons c rest =>
      cases rest with
      | nil => simp [strip_of_solid visible]
      | cons d rest => simp

theorem isOk_dependenciesOf : (dependenciesOf repr entry).isOk ↔
    (∃ text, Object.get entry "depends_on" = .str text) ∨ dependenciesReadable entry := by
  rw [dependenciesOf, dependenciesReadable, Json.orElse]
  cases given : Object.get entry "depends_on" with
  | str text =>
      refine iff_of_true ?_ (.inl ⟨text, rfl⟩)
      by_cases truthy : (Json.str text).truthy
      · rw [if_pos truthy]
        rfl
      · rw [if_neg truthy]
        rfl
  | arr items =>
      refine iff_of_true ?_ (.inr rfl)
      cases items <;> rfl
  | obj fields =>
      refine iff_of_true ?_ (.inr rfl)
      cases fields <;> rfl
  | _ =>
      split_ifs with truthy
      · exact iff_of_false nofun (by simp [truthy])
      · exact iff_of_true rfl (.inr (by simpa using truthy))

theorem isOk_asCapabilities (value : Json) :
    (asCapabilities (fun value => .ok (value.toStr repr)) value).isOk ↔
      value = .null ∨ value.iterate.isOk := by
  have strs (items : List Json) :
      (items.mapM fun value => (.ok (value.toStr repr) : Except String String)).isOk :=
    isOk_mapM_iff.mpr fun _ _ => rfl
  cases value with
  | null => exact iff_of_true rfl (.inl rfl)
  | str text => exact iff_of_true rfl (.inr rfl)
  | _ =>
      simp only [asCapabilities, isOk_bind_iff, isOk_pure, and_true, ← isOk_iff, strs]
      simp

theorem isOk_capabilitiesOf : (capabilitiesOf repr entry).isOk ↔ capabilitiesReadable entry := by
  have named : (capabilitiesOf repr entry).isOk ↔
      (asCapabilities (fun value => .ok (value.toStr repr))
        (Object.get entry "required_capabilities")).isOk := by
    rw [capabilitiesOf]
    cases asCapabilities (fun value => .ok (value.toStr repr))
      (Object.get entry "required_capabilities") <;> rfl
  rw [named, isOk_asCapabilities, capabilitiesReadable]
  cases Object.get entry "required_capabilities" <;>
    simp [Json.iterate, DeepseekAdapter.elements, Except.isOk, Except.toBool]

/-- The entries stop the parser with other exceptions than that of a plan. -/
theorem tasksFrom_error {used : List String} {index : Nat} {raw : List Object} {error : Raised}
    (raised : tasksFrom repr used index raw = .error error) :
    ∀ invalid, error ≠ .planValidation invalid := by
  induction raw generalizing used index with
  | nil => cases raised
  | cons entry rest ih =>
      rw [tasksFrom] at raised
      split_ifs at raised with blank
      · exact ih raised
      · obtain stopped | ⟨deps, -, raised⟩ := bind_eq_error_iff.mp raised
        · rw [dependenciesOf] at stopped
          split at stopped
          · cases stopped
            exact fun _ same => by cases same
          · cases stopped
        obtain stopped | ⟨caps, -, raised⟩ := bind_eq_error_iff.mp raised
        · rw [capabilitiesOf] at stopped
          split at stopped
          · cases stopped
            exact fun _ same => by cases same
          · cases stopped
        obtain stopped | ⟨tasks, -, raised⟩ := bind_eq_error_iff.mp raised
        · exact ih stopped
        · cases raised

end Entries

section Total

variable (floats : Json.Format) (depth : Nat) (repr : Json → String) (set : SetIteration)
variable {router : WorkerRouter} {knownCaps : List String}

/-- The outcome of a run of attempts: a valid plan, or the report of an invalid one. -/
def Settles (set : SetIteration) (router : WorkerRouter) (knownCaps : List String)
    (outcome : State × Except Raised Unit) : Prop :=
  (outcome.2 = .ok () ∧ check set router.workers knownCaps outcome.1.tasks = .ok ()) ∨
    ∃ error, outcome.2 = .error (.planValidation error)

theorem settles_of_check (workers : router.workers ≠ []) (allow : Bool) {s : State}
    (checked : check set router.workers knownCaps s.tasks = .ok ()) :
    Settles set router knownCaps (attempt set router router.workers knownCaps allow 0 s) := by
  obtain ⟨last, returned, -, again⟩ := returned_again workers allow checked
  rw [returned]
  exact .inl ⟨rfl, again⟩

theorem settles_attempt (workers : router.workers ≠ []) (allow : Bool) (attempts : Nat)
    (s : State) :
    Settles set router knownCaps
      (attempt set router router.workers knownCaps allow attempts s) := by
  obtain ⟨last, same, -⟩ :=
    attempt_eq_last set router.workers knownCaps workers allow attempts s
  rw [same]
  cases failed : check set router.workers knownCaps last.tasks with
  | ok _ => exact settles_of_check set workers allow failed
  | error error =>
      cases allow with
      | false =>
          rw [last_strict failed]
          exact .inr ⟨error, rfl⟩
      | true =>
          cases mended : check set router.workers knownCaps
              (applyDependencyFallback set last.tasks).1 with
          | ok _ =>
              obtain ⟨mend, tasks_eq, ends⟩ := last_fallback router failed mended
              rw [ends]
              exact settles_of_check set workers true (tasks_eq ▸ mended)
          | error error =>
              rw [attempt, failed]
              simp only [if_true, mended]
              exact .inr ⟨error, rfl⟩

/-- None of the candidates nests too deeply for `json.loads`, up to the first that is an object
or an array. -/
def Shallow : List (List Char) → Prop
  | [] => True
  | candidate :: rest =>
    match Json.loadsWithin floats depth candidate with
    | .value (.obj _) | .value (.arr _) => True
    | .recursionError => False
    | _ => Shallow rest

theorem isOk_parseCandidates {candidates : List (List Char)} :
    (parseCandidates floats depth candidates).isOk ↔ Shallow floats depth candidates := by
  induction candidates with
  | nil => exact iff_of_true rfl trivial
  | cons candidate rest ih =>
      rw [parseCandidates, Shallow]
      cases Json.loadsWithin floats depth candidate with
      | value value =>
          cases value with
          | arr items => exact iff_of_true rfl trivial
          | obj fields => exact iff_of_true rfl trivial
          | _ => exact ih
      | valueError => exact ih
      | recursionError => exact iff_of_false nofun id

/-- The entries of the text that make a task. -/
def describedEntries (text : String) : List Object :=
  match parseJsonTasks floats depth text with
  | .ok (some raw) => raw.filter fun entry => decide (descriptionOf repr entry ≠ "")
  | _ => []

/-- `parse_plan` returns a valid plan or reports an invalid one, and no string of dependencies
is read as the list of its characters. -/
structure Accepts (router : WorkerRouter) (text prompt : String) (allow : Bool) (attempts : Int) :
    Prop where
  total : match parsePlan floats depth repr set text prompt router allow attempts with
    | .ok (tasks, _, _) => check set router.workers (knownCapabilities router) tasks = .ok ()
    | .error error => ∃ invalid, error = .planValidation invalid
  whole : ∀ entry ∈ describedEntries floats depth repr text, ∀ deps,
    Object.get entry "depends_on" = .str deps →
      dependenciesOf repr entry = .ok [] ∨ dependenciesOf repr entry = .ok [strip deps]

theorem isOk_parseTasks (text prompt : String) :
    (parseTasks floats depth repr text prompt).isOk ↔
      Shallow floats depth (jsonCandidates text) ∧
        ∀ entry ∈ describedEntries floats depth repr text,
          (dependenciesOf repr entry).isOk ∧ (capabilitiesOf repr entry).isOk := by
  have described {raw : List Object} (parsed : parseJsonTasks floats depth text = .ok (some raw)) :
      (∀ entry ∈ describedEntries floats depth repr text,
        (dependenciesOf repr entry).isOk ∧ (capabilitiesOf repr entry).isOk) ↔
      (tasksFromJson repr raw).isOk := by
    rw [tasksFromJson, isOk_tasksFrom, describedEntries, parsed]
    simp only [List.mem_filter, decide_eq_true_eq, and_imp]
  rw [parseTasks, ← isOk_parseCandidates]
  change _ ↔ (parseJsonTasks floats depth text).isOk ∧ _
  split
  · rename_i error deep
    exact iff_of_false nofun fun both => by simp [deep, Except.isOk, Except.toBool] at both
  · rename_i none
    exact iff_of_true rfl (by simp [describedEntries, none, Except.isOk, Except.toBool])
  · rename_i empty
    exact iff_of_true rfl (by simp [describedEntries, empty, Except.isOk, Except.toBool])
  · rename_i raw _ parsed
    rw [described parsed, isOk_bind_iff, parsed]
    simp [isOk_iff]

theorem parseCandidates_error {candidates : List (List Char)} {error : Raised}
    (raised : parseCandidates floats depth candidates = .error error) :
    error = .recursionError := by
  induction candidates with
  | nil => cases raised
  | cons candidate rest ih =>
      rw [parseCandidates] at raised
      split at raised
      · cases raised
      · cases raised
      · exact ih raised
      · exact ih raised
      · cases raised
        rfl

theorem parseTasks_error {text prompt : String} {error : Raised}
    (raised : parseTasks floats depth repr text prompt = .error error) :
    ∀ invalid, error ≠ .planValidation invalid := by
  rw [parseTasks] at raised
  split at raised
  · rename_i stopped
    cases raised
    rw [parseCandidates_error floats depth stopped]
    exact fun _ => nofun
  · cases raised
  · cases raised
  · obtain stopped | ⟨tasks, -, raised⟩ := bind_eq_error_iff.mp raised
    · exact tasksFrom_error stopped
    · cases raised

/-- `parse_plan` keeps to its two outcomes exactly when the tasks can be parsed. -/
theorem total_iff (workers : router.workers ≠ []) (text prompt : String) (allow : Bool)
    (attempts : Int) :
    (match parsePlan floats depth repr set text prompt router allow attempts with
    | .ok (tasks, _, _) => check set router.workers (knownCapabilities router) tasks = .ok ()
    | .error error => ∃ invalid, error = .planValidation invalid) ↔
      (parseTasks floats depth repr text prompt).isOk := by
  rw [parsePlan]
  cases parsed : parseTasks floats depth repr text prompt with
  | error error =>
      refine iff_of_false ?_ nofun
      rintro ⟨invalid, same⟩
      exact parseTasks_error floats depth repr parsed invalid same
  | ok given =>
      refine iff_of_true ?_ rfl
      have settles := @settles_attempt set router (knownCapabilities router) workers allow
        (max 0 attempts).toNat ⟨given.1, 0, []⟩
      rw [ok_bind]
      simp only [validateAndRepair]
      obtain ⟨returned, checked⟩ | ⟨invalid, returned⟩ := settles
      · rw [returned]
        exact checked
      · rw [returned]
        exact ⟨invalid, rfl⟩

theorem readable_of_accepts (workers : router.workers ≠ []) {text prompt : String} {allow : Bool}
    {attempts : Int} (accepts : Accepts floats depth repr set router text prompt allow attempts)
    {entry : Object} (member : entry ∈ describedEntries floats depth repr text) :
    dependenciesReadable entry ∧ capabilitiesReadable entry := by
  obtain ⟨deps, caps⟩ := ((isOk_parseTasks floats depth repr text prompt).mp
    ((total_iff floats depth repr set workers text prompt allow attempts).mp accepts.total)).2
    entry member
  refine ⟨?_, isOk_capabilitiesOf.mp caps⟩
  obtain ⟨string, given⟩ | readable := isOk_dependenciesOf.mp deps
  · have short := (dependenciesOf_str_whole given).mp (accepts.whole entry member string given)
    rw [dependenciesReadable, given]
    exact decide_eq_true short
  · exact readable

/-- `parse_plan` is total but for the exception of an invalid plan, and reads no string as a
list, exactly when no candidate that is read nests too deeply and each entry that makes a task
has readable dependencies and capabilities. -/
theorem accepts_iff (workers : router.workers ≠ []) (text prompt : String) (allow : Bool)
    (attempts : Int) : Accepts floats depth repr set router text prompt allow attempts ↔
      Shallow floats depth (jsonCandidates text) ∧
        ∀ entry ∈ describedEntries floats depth repr text,
          dependenciesReadable entry ∧ capabilitiesReadable entry := by
  constructor
  · intro accepts
    refine ⟨?_, fun _ member => readable_of_accepts floats depth repr set workers accepts member⟩
    exact ((isOk_parseTasks floats depth repr text prompt).mp
      ((total_iff floats depth repr set workers text prompt allow attempts).mp accepts.total)).1
  · rintro ⟨shallow, readable⟩
    constructor
    · apply (total_iff floats depth repr set workers text prompt allow attempts).mpr
      rw [isOk_parseTasks]
      refine ⟨shallow, fun entry member => ?_⟩
      obtain ⟨deps, caps⟩ := readable entry member
      exact ⟨isOk_dependenciesOf.mpr (.inr deps), isOk_capabilitiesOf.mpr caps⟩
    · intro entry member string given
      have deps := (readable entry member).1
      rw [dependenciesReadable, given] at deps
      exact (dependenciesOf_str_whole given).mpr (of_decide_eq_true deps)

end Total

section Texts

/-- A plan of one task, with a field as it is written. -/
def planText (field value : String) : String :=
  "\x7b\"tasks\":[\x7b\"task\":\"x\",\"" ++ field ++ "\":" ++ value ++ "\x7d]\x7d"

def planEntry (field : String) (value : Json) : Object := [("task", .str "x"), (field, value)]

section Read

variable {field text : String} {value : Json}

theorem parseJsonTasks_planText (plain : '\u0060' ∉ (planText field text).toList)
    (inside : Fences.span '\x7b' '\x7d' (planText field text).toList =
      some (planText field text).toList)
    (loads : Json.loadsWithin default 900 (planText field text).toList =
      .value (.obj [("tasks", .arr [.obj (planEntry field value)])])) :
    parseJsonTasks default 900 (planText field text) = .ok (some [planEntry field value]) := by
  rw [parseJsonTasks, jsonCandidates, Fences.fences_eq_nil plain, inside]
  change parseCandidates default 900 ((planText field text).toList :: _) = _
  rw [parseCandidates, loads]
  rfl

theorem descriptionOf_planEntry (other : field ≠ "description") :
    descriptionOf (fun _ => "") (planEntry field value) = "x" := by
  have none : Object.get (planEntry field value) "description" = .null := by
    simp [Object.get, planEntry, other]
  have task : Object.get (planEntry field value) "task" = .str "x" := by
    simp [Object.get, planEntry]
  have trimmed : strip "x" = "x" := by decide
  rw [descriptionOf, none, task, ← trimmed]
  rfl

theorem describedEntries_planText (other : field ≠ "description")
    (parsed : parseJsonTasks default 900 (planText field text) =
      .ok (some [planEntry field value])) :
    describedEntries default 900 (fun _ => "") (planText field text) = [planEntry field value] := by
  rw [describedEntries, parsed]
  apply List.filter_cons_of_pos
  rw [descriptionOf_planEntry other]
  decide

end Read

theorem accepts_iff_list : Accepts default 900 (fun _ => "") .dedup ⟨["w"], fun _ => none⟩
    (planText "depends_on" "[]") "go" false 2 := by
  have parsed := @parseJsonTasks_planText "depends_on" "[]" (.arr []) (by decide) (by decide) rfl
  apply (accepts_iff default 900 (fun _ => "") .dedup (List.cons_ne_nil _ _) _ _ _ _).mpr
  rw [describedEntries_planText (by decide) parsed, ← isOk_parseCandidates]
  refine ⟨congrArg Except.isOk parsed, fun entry member => ?_⟩
  rw [List.mem_singleton.mp member]
  exact ⟨rfl, rfl⟩

/-- A text of opening brackets nests too deeply. -/
theorem not_shallow_nested {n : Nat} (deep : depth < n) :
    ¬ Shallow floats depth (jsonCandidates (String.ofList (List.replicate n '['))) := by
  have plain (c : Char) (other : c ≠ '[') : c ∉ (String.ofList (List.replicate n '[')).toList := by
    rw [String.toList_ofList]
    intro member
    exact other (List.eq_of_mem_replicate member)
  have trimmed : strip (String.ofList (List.replicate n '[')) =
      String.ofList (List.replicate n '[') := by
    apply strip_eq_self
    rw [String.toList_ofList]
    intro c member
    rw [List.eq_of_mem_replicate member]
    rfl
  have nested := @Json.readWithin_nested floats [] [] depth n false (Nat.zero_le _)
    (by simpa using deep)
  rw [List.append_nil] at nested
  have candidates : jsonCandidates (String.ofList (List.replicate n '[')) =
      [List.replicate n '['] := by
    rw [jsonCandidates, Fences.fences_eq_nil (plain _ (by decide)),
      Fences.span_eq_none (plain _ (by decide))]
    simp only [trimmed, String.toList_ofList, List.map_nil,
      Option.toList_none, List.append_nil, List.nil_append]
  rw [candidates, Shallow, Json.loadsWithin, nested]
  exact id

theorem not_accepts_planText {text : String} {value : Json} {allow : Bool}
    (parsed : parseJsonTasks default 900 (planText "depends_on" text) =
      .ok (some [planEntry "depends_on" value]))
    (unreadable : dependenciesReadable (planEntry "depends_on" value) = false) :
    ¬ Accepts default 900 (fun _ => "") .dedup ⟨["w"], fun _ => none⟩ (planText "depends_on" text)
      "go" allow 2 := by
  intro accepts
  have member : planEntry "depends_on" value ∈
      describedEntries default 900 (fun _ => "") (planText "depends_on" text) := by
    rw [describedEntries_planText (by decide) parsed]
    exact List.mem_singleton_self _
  have readable := readable_of_accepts _ _ _ _ (List.cons_ne_nil _ _) accepts member
  rw [unreadable] at readable
  cases readable.1

/-- Neither a truth value nor the id of a task is read as dependencies, and brackets can nest
too deeply. -/
theorem not_accepts :
    ¬ Accepts default 900 (fun _ => "") .dedup ⟨["w"], fun _ => none⟩
      (planText "depends_on" "true") "go" false 2 ∧
    ¬ Accepts default 900 (fun _ => "") .dedup ⟨["w"], fun _ => none⟩
      (planText "depends_on" "\"t1\"") "go" true 2 ∧
    ¬ Accepts default 900 (fun _ => "") .dedup ⟨["w"], fun _ => none⟩
      (String.ofList (List.replicate 3000 '[')) "go" false 2 := by
  refine ⟨?_, ?_, ?_⟩
  · exact not_accepts_planText
      (@parseJsonTasks_planText _ _ (.bool true) (by decide) (by decide) rfl) (by decide)
  · exact not_accepts_planText
      (@parseJsonTasks_planText _ _ (.str "t1") (by decide) (by decide) rfl) (by decide)
  · intro accepts
    have shallow := (isOk_parseTasks _ _ _ _ _).mp ((total_iff _ _ _ _ (List.cons_ne_nil _ _)
      _ _ _ _).mp accepts.total) |>.1
    exact not_shallow_nested (by decide) shallow

end Texts

end Planning

end MultiAgent.Plugin
