import MultiAgent.Foundations.Fences
import MultiAgent.Native.Json
import Mathlib.Data.List.DropRight
import Mathlib.Data.List.Lex
import Mathlib.Order.Fin.Basic

/-!
# The text of a plan

`parsePlanText` of `planner/planner.ts`: the candidates for JSON in a text of a model, the tasks
of the first that is an array or an object, and the lines of the text otherwise. A text is a
list of UTF-16 code units, and `none` is the `TypeError` of `String(value)`.
-/

namespace MultiAgent.Native

namespace PlanText

/-- `PlanTask`, as far as a text gives it. -/
structure Task where
  id : JsText
  prompt : JsText
  agentId : Option JsText
  dependsOn : Option (List JsText)
  requiredCapabilities : Option (List JsText)
  deriving DecidableEq

inductive PlanFormat where
  | json
  | lines
  deriving DecidableEq

/-- White space of JavaScript, as `trim` and `\s` have it. -/
def isSpace (c : CodeUnit) : Bool :=
  decide (c ∈ ([0x09, 0x0A, 0x0B, 0x0C, 0x0D, 0x20, 0xA0, 0x1680, 0x2028, 0x2029, 0x202F, 0x205F,
    0x3000, 0xFEFF] : List CodeUnit) ∨ 0x2000 ≤ c ∧ c ≤ 0x200A)

/-- `text.trim()` -/
def trim (text : JsText) : JsText := (text.dropWhile isSpace).rdropWhile isSpace

def placeholderDependency : JsText := units "前置任务的 id，没有依赖则为空数组"

def tick : CodeUnit := 0x60

/-- What `FENCE_RE` captures. -/
def fencedBlocks (text : JsText) : List JsText := Fences.fences tick (units "json") isSpace text

def jsonCandidates (text : JsText) : List JsText :=
  (fencedBlocks text).map trim ++ (Fences.span 0x7B 0x7D text).toList ++ [trim text]

section Values

variable {ν : Type} (numbers : Numbers ν)

abbrev RawTask (ν : Type) := List (JsText × Json ν)

/-- The entries that are objects and no arrays. -/
def dicts (entries : List (Json ν)) : List (RawTask ν) :=
  entries.filterMap fun
    | .object members => some members
    | _ => none

/-- The dicts, if there are any. -/
def usable (entries : List (Json ν)) : Option (List (RawTask ν)) :=
  if dicts entries = [] then none else some (dicts entries)

/-- The loop of `parseJsonTasks`. -/
def firstPlan : List JsText → Option (List (RawTask ν))
  | [] => none
  | candidate :: rest =>
    match Json.parse numbers candidate with
    | some (.array entries) => usable entries
    | some (.object members) =>
      match Json.get members (units "tasks") with
      | some (.array entries) => usable entries
      -- An object without a usable array of tasks is not a plan.
      | _ => none
    | _ => firstPlan rest

def parseJsonTasks (text : JsText) : Option (List (RawTask ν)) :=
  firstPlan numbers (jsonCandidates text)

def isNull : Json ν → Bool
  | .null => true
  | _ => false

mutual

/-- `String(value)`; an own `toString` is not callable. -/
def stringOf : Json ν → Option JsText
  | .null => some (units "null")
  | .bool true => some (units "true")
  | .bool false => some (units "false")
  | .number value => some (numbers.text value)
  | .string value => some value
  | .array items => joined items
  | .object members =>
    if (Json.get members (units "toString")).isSome then none else some (units "[object Object]")

/-- `items.join()` -/
def joined : List (Json ν) → Option JsText
  | [] => some []
  | item :: rest =>
    (if isNull item then some [] else stringOf item).bind fun text =>
      (restJoined rest).map (text ++ ·)

def restJoined : List (Json ν) → Option JsText
  | [] => some []
  | item :: rest =>
    (if isNull item then some [] else stringOf item).bind fun text =>
      (restJoined rest).map (units "," ++ text ++ ·)

end

/-- `entry.a ?? entry.b ?? …`; `none` is `undefined` or `null`. -/
def coalesce (entry : RawTask ν) : List String → Option (Json ν)
  | [] => none
  | key :: rest =>
    match Json.get entry (units key) with
    | none | some .null => coalesce entry rest
    | some value => some value

/-- The trimmed texts of the items of an array; `undefined` for what is no array. -/
def textsOf (value : Option (Json ν)) : Option (Option (List JsText)) :=
  match value with
  | some (.array items) => (items.mapM (stringOf numbers)).map fun texts => some (texts.map trim)
  | _ => some none

/-- A list that is left out when it has no items. -/
def filled (texts : Option (List JsText)) : Option (List JsText) :=
  texts.filter fun texts => decide (texts ≠ [])

/-- `[...new Set(texts)].sort()` -/
def sortedSet (texts : List JsText) : List JsText :=
  texts.dedup.mergeSort fun a b => decide (a ≤ b)

def defaultId (index : Nat) : JsText := units s!"task_{index + 1}"

/-- The body of the loop of `tasksFromJson`, with the tasks that it pushes. -/
def taskFromJson (index : Nat) (entry : RawTask ν) : Option (List Task) := do
  let prompt ← (coalesce entry ["prompt", "description", "task"]).elim (some []) (stringOf numbers)
  let prompt := trim prompt
  if prompt = [] then return []
  let id ← (coalesce entry ["id"]).elim (some (defaultId index)) (stringOf numbers)
  let id := if trim id = [] then defaultId index else trim id
  let dependsOn ← textsOf numbers (coalesce entry ["dependsOn", "depends_on"])
  let dependsOn := dependsOn.map fun texts =>
    texts.filter fun dep => decide (dep ≠ [] ∧ dep ≠ placeholderDependency)
  let agent ← (Json.get entry (units "agent")).elim (some []) (stringOf numbers)
  let agentId := if trim agent = [] then none else some (trim agent)
  let caps ← textsOf numbers (coalesce entry ["requiredCapabilities", "required_capabilities"])
  let caps := caps.map fun texts => sortedSet (texts.filter fun cap => decide (cap ≠ []))
  return [⟨id, prompt, agentId, filled dependsOn, filled caps⟩]

def tasksFrom (index : Nat) : List (RawTask ν) → Option (List Task)
  | [] => some []
  | entry :: rest =>
    (taskFromJson numbers index entry).bind fun first =>
      (tasksFrom (index + 1) rest).map (first ++ ·)

def tasksFromJson (raw : List (RawTask ν)) : Option (List Task) := tasksFrom numbers 0 raw

end Values

section Lines

/-- `text.split(/\r?\n/)` -/
def splitLines : JsText → List JsText
  | [] => [[]]
  | [c] => if c = 0x0A then [[], []] else [[c]]
  | c :: d :: rest =>
    if c = 0x0D ∧ d = 0x0A then [] :: splitLines rest
    else if c = 0x0A then [] :: splitLines (d :: rest)
    else (splitLines (d :: rest)).modifyHead (c :: ·)

/-- `[-*0-9.\s]` -/
def isBullet (c : CodeUnit) : Bool := decide (c ∈ units "-*0123456789.") || isSpace c

def tasksFromLines (text prompt : JsText) : List Task :=
  let lines := (splitLines text).map fun line => trim ((trim line).dropWhile isBullet)
  let lines := lines.filter fun line => decide (line ≠ [])
  if lines = [] then [⟨defaultId 0, prompt, none, none, none⟩]
  else lines.mapIdx fun index line => ⟨defaultId index, line, none, none, none⟩

end Lines

variable {ν : Type} (numbers : Numbers ν)

def parsePlanText (text prompt : JsText) : Option (List Task × PlanFormat) :=
  match parseJsonTasks numbers text with
  | some raw =>
    (tasksFromJson numbers raw).map fun tasks =>
      if tasks = [] then (tasksFromLines text prompt, .lines) else (tasks, .json)
  | none => some (tasksFromLines text prompt, .lines)

end PlanText

end MultiAgent.Native
