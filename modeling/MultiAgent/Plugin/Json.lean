import MultiAgent.Plugin.Text
import Mathlib.Data.Rat.Defs

/-!
# JSON values as Python holds them

What `json.loads` returns, and the functions that an event of the same process may
hold. A float is kept as the rational it denotes; `NaN` and the infinities are apart.
-/

namespace MultiAgent.Plugin

inductive Json where
  | null
  | bool (value : Bool)
  | int (value : Int)
  | float (value : ℚ)
  | nan
  | infinity (negative : Bool)
  | str (value : String)
  | arr (items : List Json)
  | obj (fields : List (String × Json))
  /-- A function of the process. -/
  | callable (id : Nat)

/-- A dict with string keys. -/
abbrev Object := List (String × Json)

namespace Json

/-- `bool(value)` -/
def truthy : Json → Bool
  | .null => false
  | .bool value => value
  | .int value => decide (value ≠ 0)
  | .float value => decide (value ≠ 0)
  | .nan | .infinity _ | .callable _ => true
  | .str value => !value.isEmpty
  | .arr items => !items.isEmpty
  | .obj fields => !fields.isEmpty

/-- `value or default` -/
def orElse (value default : Json) : Json := if value.truthy then value else default

def isNull : Json → Bool
  | .null => true
  | _ => false

/-- `value == text` -/
def isText (value : Json) (text : String) : Bool :=
  match value with
  | .str other => decide (other = text)
  | _ => false

/-- `str(value)` -/
def toStr (repr : Json → String) : Json → String
  | .str text => text
  | value => repr value

end Json

/-- `event.get(key)` -/
def Object.get (event : Object) (key : String) : Json :=
  match event.find? fun entry => decide (entry.1 = key) with
  | some entry => entry.2
  | none => .null

/-- `event.get(key, default)` -/
def Object.getD (event : Object) (key : String) (default : Json) : Json :=
  match event.find? fun entry => decide (entry.1 = key) with
  | some entry => entry.2
  | none => default

/-- `key in event` -/
def Object.has (event : Object) (key : String) : Bool :=
  event.any fun entry => decide (entry.1 = key)

namespace Object

/-- `fields[key] = value` -/
def set (fields : Object) (key : String) (value : Json) : Object :=
  if fields.has key then
    fields.map fun entry => if entry.1 = key then (key, value) else entry
  else fields ++ [(key, value)]

/-- The fields after `fields.pop(key, None)`. -/
def remove (fields : Object) (key : String) : Object :=
  fields.filter fun entry => decide (entry.1 ≠ key)

theorem get_remove {fields : Object} {key other : String} (apart : other ≠ key) :
    Object.get (remove fields key) other = Object.get fields other := by
  unfold Object.get remove
  rw [List.find?_filter]
  congr 2
  funext entry
  by_cases found : entry.1 = other
  · simp [found, apart]
  · simp [found]

theorem getD_remove {fields : Object} {key other : String} {default : Json}
    (apart : other ≠ key) :
    Object.getD (remove fields key) other default = Object.getD fields other default := by
  unfold Object.getD remove
  rw [List.find?_filter]
  congr 2
  funext entry
  by_cases found : entry.1 = other
  · simp [found, apart]
  · simp [found]

end Object

end MultiAgent.Plugin
