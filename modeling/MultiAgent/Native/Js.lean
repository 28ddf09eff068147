import MultiAgent.Native.Task

/-!
# Untyped JavaScript values

What a caller of a typed function can pass in fact. An object holds its own
properties; a property with a getter that throws holds `accessor`, and a getter
answers the same at each read.
-/

namespace MultiAgent.Native

inductive Js where
  | undefined
  | null
  | bool (value : Bool)
  | number (value : JsNumber)
  | string (value : String)
  /-- A symbol or a bigint. -/
  | primitive
  /-- A function, with the exception of its call, if the call throws. -/
  | callable (throws : Option String)
  | array (items : List Js)
  | object (fields : List (String × Js))
  /-- What a property holds whose getter throws. -/
  | accessor (error : String)

namespace Js

/-- `value[name]` for the names of own properties; an exception by its message. -/
def read (value : Js) (name : String) : Except String Js :=
  match value with
  | .undefined => .error s!"Cannot read properties of undefined (reading '{name}')"
  | .null => .error s!"Cannot read properties of null (reading '{name}')"
  | .object fields =>
    match fields.lookup name with
    | some (.accessor error) => .error error
    | some held => .ok held
    | none => .ok .undefined
  | _ => .ok .undefined

/-- `value !== null && typeof value === 'object'` -/
def isObject : Js → Bool
  | .array _ | .object _ => true
  | _ => false

def isUndefined : Js → Bool
  | .undefined => true
  | _ => false

/-- `Boolean(value)` -/
def truthy : Js → Bool
  | .undefined | .null | .accessor _ => false
  | .bool value => value
  | .number .nan => false
  | .number (.infinite _) => true
  | .number (.finite q) => decide (q ≠ 0)
  | .string value => !value.isEmpty
  | .primitive | .callable _ | .array _ | .object _ => true

/-- `value()`, where `callee` is the text of the expression. -/
def invoke (value : Js) (callee : String) : Except String Unit :=
  match value with
  | .callable none => .ok ()
  | .callable (some error) => .error error
  | _ => .error s!"{callee} is not a function"

end Js

end MultiAgent.Native
