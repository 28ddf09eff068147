import MultiAgent.Plugin.Text
import Mathlib.Algebra.Order.Field.Rat
import Mathlib.Data.Rat.Floor

/-!
# The options of a run

The values that a caller may pass as options of a run, with what the conversions of Python
make of them, and the parts of the package that read the options: `as_budget` and
`ContextPolicy.from_dict`. Exceptions are given by a text. A float is the number that it
denotes, and `float` rounds to the nearest one.
-/

namespace MultiAgent.Plugin

/-- A Python number. -/
inductive Number where
  | finite (value : ℚ)
  | infinity (negative : Bool)
  | nan
  deriving DecidableEq, Repr

namespace Number

/-- From here on a float overflows. -/
def overflow : ℚ := 2 ^ 1024 - 2 ^ 970

/-- The exponent of the largest power of two that is not above a positive number. -/
def binaryExponent (value : ℚ) : Int :=
  let guess : Int := Nat.log2 value.num.natAbs - Nat.log2 value.den
  if value < 2 ^ guess then guess - 1 else guess

/-- The nearest integer, and of two the even one. -/
def halfEven (value : ℚ) : Int :=
  let rest := value - ⌊value⌋
  if rest < 1 / 2 ∨ rest = 1 / 2 ∧ ⌊value⌋ % 2 = 0 then ⌊value⌋ else ⌊value⌋ + 1

/-- The nearest float to a number before the overflow. -/
def nearest (value : ℚ) : ℚ :=
  let unit : ℚ := 2 ^ max (binaryExponent |value| - 52) (-1074)
  halfEven (value / unit) * unit

def ofRat (value : ℚ) : Number :=
  if overflow ≤ |value| then .infinity (decide (value < 0)) else .finite (nearest value)

/-- `a < b` -/
def less : Number → Number → Bool
  | .finite a, .finite b => decide (a < b)
  | .finite _, .infinity negative => !negative
  | .infinity negative, .finite _ => negative
  | .infinity negative, .infinity negative' => negative && !negative'
  | .nan, _ | _, .nan => false

/-- The digits before and after the point, and the exponent. -/
def ofParts (whole fraction : List Char) (exponent : Int) : Number :=
  ofRat (digitsValue (whole ++ fraction) * (10 : ℚ) ^ (exponent - fraction.length))

/-- A part of a decimal literal that may be missing. -/
def optionalDigits (chars : List Char) : Option (List Char) :=
  if chars.isEmpty then some [] else literalDigits chars

/-- A decimal literal without a sign. -/
def parseDecimal (chars : List Char) : Option Number :=
  let (mantissa, rest) := chars.span fun c => decide (c ≠ 'e' ∧ c ≠ 'E')
  let (whole, point) := mantissa.span fun c => decide (c ≠ '.')
  let exponent : Option Int :=
    match rest with
    | [] => some 0
    | _ :: '-' :: digits => (literalDigits digits).map fun digits => -(digitsValue digits : Int)
    | _ :: '+' :: digits => (literalDigits digits).map fun digits => (digitsValue digits : Int)
    | _ :: digits => (literalDigits digits).map fun digits => (digitsValue digits : Int)
  if whole.isEmpty && (point.drop 1).isEmpty then none
  else
    (optionalDigits whole).bind fun whole =>
      (optionalDigits (point.drop 1)).bind fun fraction =>
        exponent.map fun exponent => ofParts whole fraction exponent

def negate : Number → Number
  | .finite value => .finite (-value)
  | .infinity negative => .infinity (!negative)
  | .nan => .nan

/-- A literal of a float without a sign. -/
def parseUnsigned (chars : List Char) : Option Number :=
  match lower (String.ofList chars) with
  | "inf" | "infinity" => some (.infinity false)
  | "nan" => some .nan
  | _ => parseDecimal chars

/-- `float(text)`; `none` is a `ValueError`. -/
def parse (text : String) : Option Number :=
  match numeral text with
  | '-' :: chars => (parseUnsigned chars).map negate
  | '+' :: chars => parseUnsigned chars
  | chars => parseUnsigned chars

end Number

/-- What the special methods of an object answer or raise. -/
structure Special (υ : Type) where
  truthy : Except String Bool
  float : Except String Number
  int : Except String Int
  /-- The object is compared with another value. -/
  less : Except String Bool
  lower : Except String String
  str : Except String String
  /-- What its `get` finds, if it has one. -/
  items : Except String (List (υ × υ))

inductive Value where
  | none
  | bool (value : Bool)
  | int (value : Int)
  | float (value : Number)
  | str (value : String)
  | dict (entries : List (Value × Value))
  /-- A `BudgetManager`, by its number, with its `max_seconds`. -/
  | budget (id : Nat) (maxSeconds : Value)
  /-- A `ContextPolicy`. -/
  | policy
  /-- A list, a callable or any other object. -/
  | object (special : Special Value)

namespace Value

def isNone : Value → Bool
  | .none => true
  | _ => false

/-- `bool(value)` -/
def truthy : Value → Except String Bool
  | .none => .ok false
  | .bool value => .ok value
  | .int value => .ok (decide (value ≠ 0))
  | .float value => .ok (decide (value ≠ .finite 0))
  | .str value => .ok (!value.isEmpty)
  | .dict entries => .ok (!entries.isEmpty)
  | .budget _ _ | .policy => .ok true
  | .object special => special.truthy

/-- The number that a value is, if it is one. -/
def number : Value → Option Number
  | .bool value => some (.finite (if value then 1 else 0))
  | .int value => some (.finite value)
  | .float value => some value
  | _ => Option.none

/-- `float(value)` -/
def toFloat : Value → Except String Number
  | .bool value => .ok (.finite (if value then 1 else 0))
  | .int value =>
    if Number.overflow ≤ |(value : ℚ)| then .error "int too large to convert to float"
    else .ok (.finite (Number.nearest value))
  | .float value => .ok value
  | .str text =>
    match Number.parse text with
    | some value => .ok value
    | Option.none => .error s!"could not convert string to float: '{text}'"
  | .object special => special.float
  | .none | .dict _ | .budget _ _ | .policy =>
    .error "float() argument must be a string or a real number"

/-- `int(value)` -/
def toInt : Value → Except String Int
  | .bool value => .ok (if value then 1 else 0)
  | .int value => .ok value
  | .float (.finite value) => .ok (value.num.tdiv value.den)
  | .float (.infinity _) => .error "cannot convert float infinity to integer"
  | .float .nan => .error "cannot convert float NaN to integer"
  | .str text =>
    match parseInt text with
    | some value => .ok value
    | Option.none => .error s!"invalid literal for int() with base 10: '{text}'"
  | .object special => special.int
  | .none | .dict _ | .budget _ _ | .policy =>
    .error "int() argument must be a string, a bytes-like object or a real number"

/-- `a < b` -/
def less (a b : Value) : Except String Bool :=
  match a, b with
  | .object special, _ | _, .object special => special.less
  | .str a, .str b => .ok (decide (a < b))
  | a, b =>
    match a.number, b.number with
    | some a, some b => .ok (a.less b)
    | _, _ => .error "'<' not supported between these instances"

/-- `min(a, b)` -/
def min (a b : Value) : Except String Value := do
  return if ← b.less a then b else a

/-- `str(value)`, as far as it may raise. -/
def checkStr : Value → Except String Unit
  | .object special => special.str.map fun _ => ()
  | _ => .ok ()

/-- `(value or "").lower()` -/
def lowered (value : Value) : Except String String := do
  if ← value.truthy then
    match value with
    | .str text => return lower text
    | .object special => special.lower
    | _ => throw "object has no attribute 'lower'"
  else return ""

/-- `key == name` -/
def isKey (name : String) : Value → Bool
  | .str text => decide (text = name)
  | _ => false

end Value

/-- `entries.get(name)` -/
def lookup (entries : List (Value × Value)) (name : String) : Value :=
  match entries.find? fun entry => entry.1.isKey name with
  | some entry => entry.2
  | none => .none

/-- A `BudgetManager`: the object, and the limit that `run` reads. -/
structure Budget where
  id : Nat
  maxSeconds : Value

def budgetOptions : List String := ["max_calls", "max_tokens", "max_cost", "max_seconds", "pricer"]

/-- A limit that is given is converted and must not be negative. -/
def checkCount (entries : List (Value × Value)) (name : String) : Except String Unit := do
  let limit := lookup entries name
  if limit.isNone then return
  if (← limit.toInt) < 0 then throw s!"{name} must be >= 0"

def checkAmount (entries : List (Value × Value)) (name : String) : Except String Unit := do
  let limit := lookup entries name
  if limit.isNone then return
  if (← limit.toFloat).less (.finite 0) then throw s!"{name} must be >= 0"

/-- `as_budget`, where a new manager gets the number `fresh`. -/
def asBudget (fresh : Nat) : Value → Except String (Option Budget)
  | .none => return none
  | .budget id maxSeconds => return some ⟨id, maxSeconds⟩
  | .dict entries => do
    if entries.any fun entry => !budgetOptions.any fun name => entry.1.isKey name then
      throw "unknown budget options"
    for name in ["max_calls", "max_tokens"] do
      checkCount entries name
    for name in ["max_cost", "max_seconds"] do
      checkAmount entries name
    return some ⟨fresh, lookup entries "max_seconds"⟩
  | _ => throw "budget must be a BudgetManager or a dict of limits"

/-- `ContextPolicy` of `context.py`. -/
structure ContextPolicy where
  window : Option Int
  maxChars : Option Int
  hideOwnStatements : Bool
  deriving DecidableEq, Repr

/-- `int(value) if value is not None else None` -/
def optionalInt (value : Value) : Except String (Option Int) := do
  if value.isNone then return none
  return some (← value.toInt)

/-- `from_dict`, on what `get` of the configuration finds. -/
def ContextPolicy.ofEntries (entries : List (Value × Value)) : Except String ContextPolicy := do
  let hideOwn :=
    if entries.any fun entry => entry.1.isKey "hide_own" then lookup entries "hide_own"
    else if entries.any fun entry => entry.1.isKey "hide_own_statements" then
      lookup entries "hide_own_statements"
    else .bool false
  return {
    window := ← optionalInt (lookup entries "window")
    maxChars := ← optionalInt (lookup entries "max_chars")
    hideOwnStatements := ← hideOwn.truthy }

/-- `ContextPolicy.from_dict` -/
def ContextPolicy.fromDict (data : Value) : Except String (Option ContextPolicy) := do
  if ← data.truthy then
    match data with
    | .dict entries => return some (← ofEntries entries)
    | .object special => return some (← ofEntries (← special.items))
    | _ => throw "object has no attribute 'get'"
  else return none

example : Number.parse " -1.5e1" = some (.finite (-15)) := by decide +kernel

example : Number.parse "1e-400" = some (.finite 0) := by decide +kernel

example : Number.parse "٠.1" = some (.finite (3602879701896397 / 2 ^ 55)) := by decide +kernel

example : Number.parse "soon" = none := by decide +kernel

end MultiAgent.Plugin
