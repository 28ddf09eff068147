import MultiAgent.Native.Json.Inversion
import MultiAgent.Native.Json.RoundTrip
import MultiAgent.Native.Planner.Text
import Mathlib.Data.List.Dedup

/-!
# Plans that are read back

A list of tasks, written as JSON and given to `parsePlanText`. The fields of the tasks are read
back, unless a string of the text holds a fenced block that is JSON of an array or an object by
itself: such a block comes before the whole text, and the tasks in it have no prompts
(`roundTrip_iff`).
-/

namespace MultiAgent.Native

namespace PlanText

open CodeUnit

variable {ν : Type} {numbers : Numbers ν} {text : JsText} {task read : Task} {tasks : List Task}

section Statement

/-- A task as its writer has it, under the names that the parser reads. -/
def Task.members (task : Task) : List (JsText × Json ν) :=
  [(units "id", .string task.id), (units "prompt", .string task.prompt)] ++
    task.agentId.toList.map (fun agent => (units "agent", .string agent)) ++
    task.dependsOn.toList.map (fun deps => (units "dependsOn", .array (deps.map .string))) ++
    task.requiredCapabilities.toList.map fun caps =>
      (units "requiredCapabilities", .array (caps.map .string))

/-- `{ tasks }` -/
def planJson (tasks : List Task) : Json ν :=
  .object [(units "tasks", .array (tasks.map fun task => .object task.members))]

def planText (numbers : Numbers ν) (tasks : List Task) : JsText :=
  Json.stringify numbers (planJson tasks)

/-- The text is trimmed and not empty. -/
def Solid (text : JsText) : Prop := trim text = text ∧ text ≠ []

instance (text : JsText) : Decidable (Solid text) := inferInstanceAs (Decidable (_ ∧ _))

structure Task.Solid (task : Task) : Prop where
  id : PlanText.Solid task.id
  prompt : PlanText.Solid task.prompt
  agentId : ∀ agent ∈ task.agentId, PlanText.Solid agent
  dependsOn : ∀ deps ∈ task.dependsOn, ∀ dep ∈ deps, PlanText.Solid dep
  requiredCapabilities : ∀ caps ∈ task.requiredCapabilities, ∀ cap ∈ caps, PlanText.Solid cap

/-- What a task is read as: without the placeholder among its dependencies, with its
capabilities in order and once each, and without lists that are empty. -/
structure Reads (task read : Task) : Prop where
  id : read.id = task.id
  prompt : read.prompt = task.prompt
  agentId : read.agentId = task.agentId
  dependsOn : read.dependsOn.getD [] =
    (task.dependsOn.getD []).filter fun dep => decide (dep ≠ placeholderDependency)
  ordered : (read.requiredCapabilities.getD []).Pairwise (· < ·)
  requiredCapabilities : ∀ cap,
    cap ∈ read.requiredCapabilities.getD [] ↔ cap ∈ task.requiredCapabilities.getD []
  filled : read.dependsOn ≠ some [] ∧ read.requiredCapabilities ≠ some []

/-- An array or an object. -/
def isContainer : Json ν → Bool
  | .array _ | .object _ => true
  | _ => false

end Statement

section Reading

theorem coalesce_members (task : Task) :
    coalesce (task.members (ν := ν)) ["prompt", "description", "task"] =
        some (.string task.prompt) ∧
      coalesce (task.members (ν := ν)) ["id"] = some (.string task.id) ∧
      coalesce (task.members (ν := ν)) ["dependsOn", "depends_on"] =
        task.dependsOn.map (fun deps => .array (deps.map .string)) ∧
      coalesce (task.members (ν := ν)) ["requiredCapabilities", "required_capabilities"] =
        task.requiredCapabilities.map (fun caps => .array (caps.map .string)) ∧
      Json.get (task.members (ν := ν)) (units "agent") = task.agentId.map .string := by
  obtain ⟨id, prompt, agentId, dependsOn, requiredCapabilities⟩ := task
  cases agentId <;> cases dependsOn <;> cases requiredCapabilities <;>
    exact ⟨rfl, rfl, rfl, rfl, rfl⟩

theorem mapM_string (texts : List JsText) :
    (texts.map (Json.string (ν := ν))).mapM (stringOf numbers) = some texts := by
  induction texts with
  | nil => rfl
  | cons text rest ih =>
      rw [List.map_cons, List.mapM_cons, ih]
      rfl

theorem textsOf_string {texts : Option (List JsText)}
    (solid : ∀ known ∈ texts, ∀ text ∈ known, Solid text) :
    textsOf numbers (texts.map fun known => .array (known.map .string)) = some texts := by
  cases texts with
  | none => rfl
  | some known =>
      have same : known.map trim = known :=
        (List.map_congr_left fun text member => (solid known rfl text member).1).trans
          (List.map_id' known)
      rw [Option.map_some, textsOf, mapM_string, Option.map_some, same]

/-- What the parser makes of a task. -/
def normalised (task : Task) : Task where
  id := task.id
  prompt := task.prompt
  agentId := task.agentId
  dependsOn := filled (task.dependsOn.map fun texts =>
    texts.filter fun dep => decide (dep ≠ [] ∧ dep ≠ placeholderDependency))
  requiredCapabilities := filled (task.requiredCapabilities.map fun texts =>
    sortedSet (texts.filter fun cap => decide (cap ≠ [])))

theorem taskFromJson_members (solid : task.Solid) (index : Nat) :
    taskFromJson numbers index task.members = some [normalised task] := by
  obtain ⟨prompt, id, dependsOn, caps, agent⟩ := @coalesce_members ν task
  have deps_read := @textsOf_string ν numbers _ solid.dependsOn
  have caps_read := @textsOf_string ν numbers _ solid.requiredCapabilities
  rw [taskFromJson, prompt, id, dependsOn, caps, agent, deps_read, caps_read]
  simp only [Option.elim_some, stringOf, Option.bind_eq_bind, Option.bind_some, solid.prompt.1,
    solid.id.1, if_neg solid.prompt.2, if_neg solid.id.2]
  cases named : task.agentId with
  | none => simp [normalised, named, trim]
  | some agent =>
      obtain ⟨trimmed, nonempty⟩ := solid.agentId agent named
      simp [normalised, named, stringOf, trimmed, nonempty]

theorem filled_getD (texts : Option (List JsText)) : (filled texts).getD [] = texts.getD [] := by
  cases texts with
  | none => rfl
  | some known => cases known <;> rfl

theorem filled_ne (texts : Option (List JsText)) : filled texts ≠ some [] := by
  cases texts with
  | none => nofun
  | some known => cases known <;> nofun

theorem mem_sortedSet {texts : List JsText} : text ∈ sortedSet texts ↔ text ∈ texts := by
  rw [sortedSet, List.mem_mergeSort, List.mem_dedup]

theorem sortedSet_pairwise (texts : List JsText) : (sortedSet texts).Pairwise (· < ·) := by
  have sorted : (sortedSet texts).Pairwise (· ≤ ·) := by
    refine (List.pairwise_mergeSort ?_ ?_ texts.dedup).imp fun below => of_decide_eq_true below
    · intro a b c ab bc
      exact decide_eq_true ((of_decide_eq_true ab).trans (of_decide_eq_true bc))
    · intro a b
      simpa using le_total a b
  have distinct : (sortedSet texts).Nodup :=
    (List.mergeSort_perm _ _).nodup_iff.mpr (List.nodup_dedup texts)
  exact (sorted.and distinct).imp fun both => lt_of_le_of_ne both.1 both.2

theorem reads_normalised (solid : task.Solid) : Reads task (normalised task) where
  id := rfl
  prompt := rfl
  agentId := rfl
  dependsOn := by
    rw [normalised, filled_getD]
    cases known : task.dependsOn with
    | none => rfl
    | some deps =>
        apply List.filter_congr
        intro dep member
        simp [(solid.dependsOn deps known dep member).2]
  ordered := by
    rw [normalised, filled_getD]
    cases task.requiredCapabilities with
    | none => exact List.Pairwise.nil
    | some caps => exact sortedSet_pairwise _
  requiredCapabilities := by
    intro cap
    rw [normalised, filled_getD]
    cases known : task.requiredCapabilities with
    | none => rfl
    | some caps =>
        rw [Option.map_some, Option.getD_some, Option.getD_some, mem_sortedSet, List.mem_filter]
        constructor
        · exact And.left
        · intro member
          exact ⟨member, decide_eq_true (solid.requiredCapabilities caps known cap member).2⟩
  filled := ⟨filled_ne _, filled_ne _⟩

theorem tasksFrom_members (solid : ∀ task ∈ tasks, task.Solid) (index : Nat) :
    tasksFrom numbers index (tasks.map Task.members) = some (tasks.map normalised) := by
  induction tasks generalizing index with
  | nil => rfl
  | cons task rest ih =>
      obtain ⟨here, later⟩ := List.forall_mem_cons.mp solid
      rw [List.map_cons, tasksFrom, taskFromJson_members here, Option.bind_some, ih later]
      rfl

end Reading

section Text

/-- What strings have and arrays and objects take over from what they hold, plans have. -/
theorem planJson_rule {P : Json ν → Prop} (string : ∀ text, P (.string text))
    (array : ∀ items, (∀ item ∈ items, P item) → P (.array items))
    (object : ∀ members, (∀ member ∈ members, P member.2) → P (.object members))
    (tasks : List Task) : P (planJson tasks) := by
  have strings (texts : List JsText) : P (.array (texts.map .string)) := by
    apply array
    intro item member
    obtain ⟨text, -, rfl⟩ := List.mem_map.mp member
    exact string text
  have members (task : Task) : ∀ member ∈ task.members, P member.2 := by
    intro member among
    simp only [Task.members, List.mem_append, List.mem_map, List.mem_pair] at among
    obtain (((rfl | rfl) | ⟨agent, -, rfl⟩) | ⟨deps, -, rfl⟩) | ⟨caps, -, rfl⟩ := among
    · exact string _
    · exact string _
    · exact string _
    · exact strings _
    · exact strings _
  apply object
  intro member among
  obtain rfl := List.mem_singleton.mp among
  apply array
  intro item among
  obtain ⟨task, -, rfl⟩ := List.mem_map.mp among
  exact object _ (members task)

theorem parse_planText (tasks : List Task) :
    Json.parse numbers (planText numbers tasks) = some (planJson tasks) :=
  Json.parse_stringify (planJson_rule Json.prints_string (fun _ => Json.prints_array)
    (fun _ => Json.prints_object) tasks)

theorem level_planText (tasks : List Task) : Json.Level (planText numbers tasks) :=
  planJson_rule (P := fun value => Json.Level (Json.stringify numbers value))
    (fun _ => Json.level_quoted _) (fun _ => Json.level_array) (fun _ => Json.level_object) tasks

/-- The text of a plan goes from its first brace to its last. -/
theorem span_planText (tasks : List Task) :
    Fences.span 0x7B 0x7D (planText numbers tasks) = some (planText numbers tasks) := by
  rw [planText, planJson, Json.stringify]
  exact Fences.span_eq _

/-- The candidates in blocks that are no JSON of an array or an object are passed over. -/
theorem firstPlan_append {blocks rest : List JsText}
    (passes : ∀ block ∈ blocks, ∀ value, Json.parse numbers block = some value →
      isContainer value = false) :
    firstPlan numbers (blocks ++ rest) = firstPlan numbers rest := by
  induction blocks with
  | nil => rfl
  | cons block blocks ih =>
      obtain ⟨here, later⟩ := List.forall_mem_cons.mp passes
      rw [List.cons_append, firstPlan, ih later]
      cases parsed : Json.parse numbers block with
      | none => rfl
      | some value =>
          have scalar := here value parsed
          cases value with
          | array items => cases scalar
          | object members => cases scalar
          | _ => rfl

theorem dicts_members (tasks : List Task) :
    dicts (tasks.map fun task => Json.object (task.members (ν := ν))) =
      tasks.map Task.members := by
  induction tasks with
  | nil => rfl
  | cons task rest ih => exact congrArg (task.members :: ·) ih

/-- If no block stands in the way, the whole text is read. -/
theorem parseJsonTasks_planText (nonempty : tasks ≠ [])
    (passes : ∀ block ∈ fencedBlocks (planText numbers tasks), ∀ value,
      Json.parse numbers (trim block) = some value → isContainer value = false) :
    parseJsonTasks numbers (planText numbers tasks) = some (tasks.map Task.members) := by
  have blocks : ∀ block ∈ (fencedBlocks (planText numbers tasks)).map trim, ∀ value,
      Json.parse numbers block = some value → isContainer value = false := by
    intro block member
    obtain ⟨inner, among, rfl⟩ := List.mem_map.mp member
    exact passes inner among
  have found : Json.get [(units "tasks",
      Json.array (tasks.map fun task => Json.object (task.members (ν := ν))))] (units "tasks") =
    some (.array (tasks.map fun task => .object task.members)) := rfl
  rw [parseJsonTasks, jsonCandidates, List.append_assoc, firstPlan_append blocks, span_planText,
    Option.toList_some, List.singleton_append, firstPlan, parse_planText]
  simp only [planJson, found]
  rw [usable, dicts_members, if_neg (by simpa using nonempty)]

end Text

section Blocks

variable {place : Json.Place} {members : List (JsText × Json ν)} {key : JsText}

/-- A fence is in a string. -/
theorem scan_fence {place' : Json.Place} (scanned : place.scan [tick, tick, tick] = some place') :
    place' = .inside := by
  cases place with
  | inside => exact (Option.some.inj scanned).symm
  | outside => cases scanned
  | escaped => cases scanned

theorem scan_inside (plain : ∀ c ∈ text, c ≠ quote ∧ c ≠ backslash) :
    Json.Place.inside.scan text = some .inside := by
  induction text with
  | nil => rfl
  | cons c rest ih =>
      obtain ⟨⟨bare, unescaped⟩, later⟩ := List.forall_mem_cons.mp plain
      rw [Json.scan_cons, Json.step_inside bare unescaped, Option.bind_some, ih later]

theorem isSpace_ne {c : CodeUnit} (space : isSpace c = true) : c ≠ quote ∧ c ≠ backslash := by
  constructor
  · rintro rfl
    exact absurd space (by decide)
  · rintro rfl
    exact absurd space (by decide)

theorem trim_parts (text : JsText) :
    ∃ before behind, text = before ++ trim text ++ behind ∧ ∀ c ∈ before, isSpace c = true := by
  obtain ⟨behind, split⟩ := List.rdropWhile_prefix isSpace (text.dropWhile isSpace)
  refine ⟨text.takeWhile isSpace, behind, ?_, fun c => List.mem_takeWhile_imp⟩
  rw [List.append_assoc, trim, split, List.takeWhile_append_dropWhile]

/-- A block of the text of a plan begins in a string. -/
theorem scan_block {block : JsText} (member : block ∈ fencedBlocks (planText numbers tasks)) :
    ∃ place, Json.Place.inside.scan (trim block) = some place := by
  obtain ⟨before, gap, rest, split, small⟩ := Fences.exists_of_mem_fences member
  obtain ⟨lead, behind, parts, blank⟩ := trim_parts block
  have level : Json.Level (planText numbers tasks) := level_planText tasks
  have gap_inside : Json.Place.inside.scan gap = some .inside := by
    apply scan_inside
    intro c among
    obtain tagged | space := small c among
    · have tag : (units "json").all fun c => decide (c ≠ quote ∧ c ≠ backslash) := by decide
      exact of_decide_eq_true (List.all_eq_true.mp tag c tagged)
    · exact isSpace_ne space
  have lead_inside : Json.Place.inside.scan lead = some .inside :=
    scan_inside fun c among => isSpace_ne (blank c among)
  have whole : planText numbers tasks = before ++ ([tick, tick, tick] ++ (gap ++ (lead ++
      (trim block ++ (behind ++ rest))))) := by
    rw [split]
    nth_rewrite 1 [parts]
    simp only [List.append_assoc]
  rw [Json.Level, whole, Json.scan_append] at level
  obtain ⟨first, -, level⟩ := Option.bind_eq_some_iff.mp level
  rw [Json.scan_append] at level
  obtain ⟨second, fence, level⟩ := Option.bind_eq_some_iff.mp level
  obtain rfl := scan_fence fence
  rw [Json.scan_append, gap_inside, Option.bind_some, Json.scan_append, lead_inside,
    Option.bind_some, Json.scan_append] at level
  obtain ⟨place, scanned, -⟩ := Option.bind_eq_some_iff.mp level
  exact ⟨place, scanned⟩

theorem get_of_marked (marked : ∀ member ∈ members, Json.Marked member.1)
    (word : ¬ Json.Marked key) : Json.get members key = none := by
  rw [Json.get, Option.map_eq_none_iff, List.find?_eq_none]
  intro member among same
  have here := marked member (List.mem_reverse.mp among)
  rw [of_decide_eq_true same] at here
  exact word here

/-- The value of a block has no words for keys. -/
theorem mute_of_block {block : JsText} {value : Json ν}
    (member : block ∈ fencedBlocks (planText numbers tasks))
    (parsed : Json.parse numbers (trim block) = some value) : Json.Mute value := by
  obtain ⟨place, scanned⟩ := @scan_block ν numbers tasks block member
  exact Json.mute_of_parse parsed scanned

theorem not_marked {c : CodeUnit} (letter : c ∈ key) (word : c ∉ Json.marks) :
    ¬ Json.Marked key := fun marked => word (marked c letter)

theorem coalesce_marked (marked : ∀ member ∈ members, Json.Marked member.1) :
    coalesce members ["prompt", "description", "task"] = none := by
  have prompt : Json.get members (units "prompt") = none :=
    get_of_marked marked (not_marked (c := 0x70) (by decide) (by decide))
  have description : Json.get members (units "description") = none :=
    get_of_marked marked (not_marked (c := 0x64) (by decide) (by decide))
  have task : Json.get members (units "task") = none :=
    get_of_marked marked (not_marked (c := 0x74) (by decide) (by decide))
  rw [coalesce, prompt, coalesce, description, coalesce, task, coalesce]

/-- An entry without words for keys gives no task. -/
theorem tasksFrom_marked {raw : List (RawTask ν)}
    (marked : ∀ entry ∈ raw, ∀ member ∈ entry, Json.Marked member.1) (index : Nat) :
    tasksFrom numbers index raw = some [] := by
  induction raw generalizing index with
  | nil => rfl
  | cons entry rest ih =>
      obtain ⟨here, later⟩ := List.forall_mem_cons.mp marked
      have first : taskFromJson numbers index entry = some [] := by
        rw [taskFromJson, coalesce_marked here]
        rfl
      rw [tasksFrom, first, Option.bind_some, ih later]
      rfl

theorem mem_dicts {items : List (Json ν)} {entry : RawTask ν} :
    entry ∈ dicts items ↔ Json.object entry ∈ items := by
  rw [dicts, List.mem_filterMap]
  constructor
  · rintro ⟨item, member, shown⟩
    cases item with
    | object members =>
        cases shown
        exact member
    | _ => cases shown
  · intro member
    exact ⟨.object entry, member, rfl⟩

/-- The first candidate that is JSON of an array or an object decides. -/
theorem firstPlan_marked {blocks rest : List JsText} {raw : List (RawTask ν)}
    (mute : ∀ block ∈ blocks, ∀ value, Json.parse numbers block = some value → Json.Mute value)
    (decides : ∃ block ∈ blocks, ∃ value, Json.parse numbers block = some value ∧
      isContainer value = true)
    (found : firstPlan numbers (blocks ++ rest) = some raw) :
    ∀ entry ∈ raw, ∀ member ∈ entry, Json.Marked member.1 := by
  induction blocks with
  | nil =>
      obtain ⟨block, none, -⟩ := decides
      cases none
  | cons block blocks ih =>
      obtain ⟨here, later⟩ := List.forall_mem_cons.mp mute
      have passed (scalar : ∀ value, Json.parse numbers block = some value →
          isContainer value = false) (found : firstPlan numbers (blocks ++ rest) = some raw) :
          ∀ entry ∈ raw, ∀ member ∈ entry, Json.Marked member.1 := by
        refine ih later ?_ found
        obtain ⟨other, among, value, read, container⟩ := decides
        obtain rfl | among := List.mem_cons.mp among
        · rw [scalar value read] at container
          cases container
        · exact ⟨other, among, value, read, container⟩
      rw [List.cons_append, firstPlan] at found
      cases parsed : Json.parse numbers block with
      | none =>
          rw [parsed] at found
          exact passed (by simp [parsed]) found
      | some value =>
          have silent := here value parsed
          rw [parsed] at found
          cases value with
          | array items =>
              have usables : usable items = some raw := found
              rw [usable] at usables
              split_ifs at usables
              cases usables
              intro entry among
              exact silent (.object entry) (mem_dicts.mp among)
          | object members =>
              have absent : Json.get members (units "tasks") = none :=
                get_of_marked silent (not_marked (c := 0x74) (by decide) (by decide))
              simp only [absent] at found
              cases found
          | _ => exact passed (by simp [parsed, isContainer]) found

end Blocks

section RoundTrip

/-- A block that is JSON of an array or an object leaves the lines of the text. -/
theorem not_json_of_block {block prompt : JsText} {value : Json ν}
    (member : block ∈ fencedBlocks (planText numbers tasks))
    (parsed : Json.parse numbers (trim block) = some value) (container : isContainer value = true)
    (plan : List Task) :
    parsePlanText numbers (planText numbers tasks) prompt ≠ some (plan, .json) := by
  rw [parsePlanText]
  cases found : parseJsonTasks numbers (planText numbers tasks) with
  | none => nofun
  | some raw =>
      have marked : ∀ entry ∈ raw, ∀ member ∈ entry, Json.Marked member.1 := by
        rw [parseJsonTasks, jsonCandidates, List.append_assoc] at found
        refine firstPlan_marked ?_ ⟨_, List.mem_map_of_mem member, value, parsed, container⟩ found
        intro candidate among value read
        obtain ⟨inner, inside, rfl⟩ := List.mem_map.mp among
        exact mute_of_block inside read
      simp only [tasksFromJson, tasksFrom_marked marked, Option.map_some]
      nofun

/-- A plan is read back unless a fenced block of its text is JSON of an array or an object. -/
theorem roundTrip_iff (numbers : Numbers ν) {tasks : List Task} (nonempty : tasks ≠ [])
    (solid : ∀ task ∈ tasks, task.Solid) (prompt : JsText) :
    (∃ plan, parsePlanText numbers (planText numbers tasks) prompt = some (plan, .json) ∧
      List.Forall₂ Reads tasks plan) ↔
    ∀ block ∈ fencedBlocks (planText numbers tasks), ∀ value,
      Json.parse numbers (trim block) = some value → isContainer value = false := by
  constructor
  · rintro ⟨plan, parsed, -⟩ block member value read
    apply Bool.eq_false_of_not_eq_true
    intro container
    exact not_json_of_block member read container plan parsed
  · intro passes
    refine ⟨tasks.map normalised, ?_, ?_⟩
    · rw [parsePlanText, parseJsonTasks_planText nonempty passes]
      simp only
      rw [tasksFromJson, tasksFrom_members solid, Option.map_some,
        if_neg (by simpa using nonempty)]
    · rw [List.forall₂_map_right_iff, List.forall₂_same]
      exact fun task member => reads_normalised (solid task member)

/-- Numbers of which nothing is known. -/
def noNumbers : Numbers Unit := ⟨fun _ => (), fun _ => []⟩

/-- A task with a call in a fenced block. -/
def fenced : Task where
  id := units "a"
  prompt := units "```json f()``` \x7b"
  agentId := some (units "w")
  dependsOn := some [placeholderDependency, units "b"]
  requiredCapabilities := some [units "z", units "c", units "z"]

theorem fencedBlocks_fenced :
    fencedBlocks (planText noNumbers [fenced]) = [units "f()"] := by
  have opens : Fences.splitAtFence tick (planText noNumbers [fenced]) =
      some ((planText noNumbers [fenced]).take 30, (planText noNumbers [fenced]).drop 33) := by
    decide +kernel
  have closes : Fences.splitAtFence tick (Fences.blockStart (units "json") isSpace
      ((planText noNumbers [fenced]).drop 33)) =
      some (units "f()", (planText noNumbers [fenced]).drop 44) := by
    decide +kernel
  have absent : tick ∉ (planText noNumbers [fenced]).drop 44 := by decide +kernel
  rw [fencedBlocks, Fences.fences_cons opens closes, Fences.fences_eq_nil absent]

theorem roundTrip_iff_fenced :
    ∃ plan, parsePlanText noNumbers (planText noNumbers [fenced]) [] = some (plan, .json) ∧
      List.Forall₂ Reads [fenced] plan := by
  apply (roundTrip_iff noNumbers (List.cons_ne_nil _ _) ?_ []).mpr
  · rw [fencedBlocks_fenced]
    intro block member value read
    obtain rfl := List.mem_singleton.mp member
    cases read
  · intro task member
    obtain rfl := List.mem_singleton.mp member
    refine ⟨by decide, by decide, ?_, ?_, ?_⟩
    · rintro agent ⟨⟩
      decide
    · rintro deps ⟨⟩ dep among
      have solid : [placeholderDependency, units "b"].all fun dep => decide (Solid dep) := by
        decide
      exact of_decide_eq_true (List.all_eq_true.mp solid dep among)
    · rintro caps ⟨⟩ cap among
      have solid : [units "z", units "c", units "z"].all fun cap => decide (Solid cap) := by
        decide
      exact of_decide_eq_true (List.all_eq_true.mp solid cap among)

/-- A task with an empty object in a fenced block. -/
def hijacked : Task where
  id := units "a"
  prompt := units "```\x7b\x7d```"
  agentId := none
  dependsOn := none
  requiredCapabilities := none

theorem fencedBlocks_hijacked :
    ∃ rest, fencedBlocks (planText noNumbers [hijacked]) = units "\x7b\x7d" :: rest := by
  have opens : Fences.splitAtFence tick (planText noNumbers [hijacked]) =
      some ((planText noNumbers [hijacked]).take 30, (planText noNumbers [hijacked]).drop 33) := by
    decide +kernel
  have closes : Fences.splitAtFence tick (Fences.blockStart (units "json") isSpace
      ((planText noNumbers [hijacked]).drop 33)) =
      some (units "\x7b\x7d", (planText noNumbers [hijacked]).drop 38) := by
    decide +kernel
  exact ⟨_, Fences.fences_cons opens closes⟩

theorem not_roundTrip : hijacked.Solid ∧
    ¬ ∃ plan, parsePlanText noNumbers (planText noNumbers [hijacked]) [] = some (plan, .json) ∧
      List.Forall₂ Reads [hijacked] plan := by
  refine ⟨⟨by decide, by decide, nofun, nofun, nofun⟩, ?_⟩
  rintro ⟨plan, parsed, -⟩
  obtain ⟨rest, blocks⟩ := fencedBlocks_hijacked
  have member : units "\x7b\x7d" ∈ fencedBlocks (planText noNumbers [hijacked]) := by
    rw [blocks]
    exact List.mem_cons_self
  have read : Json.parse noNumbers (trim (units "\x7b\x7d")) = some (.object []) := rfl
  exact not_json_of_block member read rfl plan parsed

end RoundTrip

end PlanText

end MultiAgent.Native
