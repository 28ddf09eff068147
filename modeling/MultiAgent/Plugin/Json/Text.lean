import MultiAgent.Plugin.Json

/-!
# JSON text

`json.dumps(value, ensure_ascii=False)` and `json.loads` of a text. The reader is a
machine that goes over the text once, with a stack of the arrays and objects it is in.
A `Format` prints and reads the floats, and says which character stands for a surrogate
that is alone in a string. The limits of the interpreter, on nesting and on the digits of
an integer, are those of `loadsWithin`; `loads` and `dumps` are without them.
-/

namespace MultiAgent.Plugin

namespace Json

/-- A literal of an `int`. -/
def isInteger (word : List Char) : Bool :=
  let digits := if word.head? = some '-' then word.drop 1 else word
  !digits.isEmpty && digits.all Char.isDigit && (digits.length == 1 || digits.head? != some '0')

/-- A literal of a `float`: an integer with a fraction, an exponent or both. -/
def isFloat (word : List Char) : Bool :=
  let mantissa := word.takeWhile fun c => decide (c ≠ 'e' ∧ c ≠ 'E')
  let exponent := word.dropWhile fun c => decide (c ≠ 'e' ∧ c ≠ 'E')
  let whole := mantissa.takeWhile fun c => decide (c ≠ '.')
  let fraction := mantissa.dropWhile fun c => decide (c ≠ '.')
  let power := exponent.drop 1
  let power := if power.head? ∈ [some '+', some '-'] then power.drop 1 else power
  isInteger whole &&
    (fraction.isEmpty || !(fraction.drop 1).isEmpty && (fraction.drop 1).all Char.isDigit) &&
    (exponent.isEmpty || !power.isEmpty && power.all Char.isDigit) &&
    !(fraction.isEmpty && exponent.isEmpty)

/-- How floats are printed and read, and surrogates are kept. -/
structure Format where
  /-- The numbers that are floats. -/
  representable : ℚ → Prop
  /-- `float.__repr__` -/
  repr : ℚ → List Char
  /-- `float` of a literal. -/
  read : List Char → Json
  /-- The character of a lone surrogate. -/
  lone : Nat → Char
  literal : ∀ x, representable x → isFloat (repr x) = true
  read_repr : ∀ x, representable x → read (repr x) = .float x

theorem Format.literal_of_false (_ : ℚ) (none_ : False) : isFloat [] = true := none_.elim

theorem Format.read_of_false (x : ℚ) (none_ : False) : Json.nan = .float x := none_.elim

/-- No number is a float, and the surrogates are characters for private use. -/
instance : Inhabited Format :=
  ⟨⟨fun _ => False, fun _ => [], fun _ => .nan, fun unit => Char.ofNat (unit + 0x100000),
    Format.literal_of_false, Format.read_of_false⟩⟩

section Printer

def escape (c : Char) : List Char :=
  if c = '"' then ['\\', '"']
  else if c = '\\' then ['\\', '\\']
  else if c = '\n' then ['\\', 'n']
  else if c = '\r' then ['\\', 'r']
  else if c = '\t' then ['\\', 't']
  else if c = '\x0c' then ['\\', 'f']
  else if c = '\x08' then ['\\', 'b']
  else if c.toNat < 0x20 then
    ['\\', 'u', '0', '0', Nat.digitChar (c.toNat / 16), Nat.digitChar (c.toNat % 16)]
  else [c]

def quoted (s : String) : List Char := '"' :: (s.toList.flatMap escape ++ ['"'])

def intText : Int → List Char
  | .ofNat n => Nat.toDigits 10 n
  | .negSucc n => '-' :: Nat.toDigits 10 (n + 1)

mutual

def serialisable : Json → Bool
  | .arr items => itemsSerialisable items
  | .obj fields => fieldsSerialisable fields
  | .callable _ => false
  | _ => true

def itemsSerialisable : List Json → Bool
  | [] => true
  | item :: rest => serialisable item && itemsSerialisable rest

def fieldsSerialisable : List (String × Json) → Bool
  | [] => true
  | (_, value) :: rest => serialisable value && fieldsSerialisable rest

end

variable (floats : Format)

mutual

def text : Json → List Char
  | .null => "null".toList
  | .bool true => "true".toList
  | .bool false => "false".toList
  | .int value => intText value
  | .float value => floats.repr value
  | .nan => "NaN".toList
  | .infinity false => "Infinity".toList
  | .infinity true => "-Infinity".toList
  | .str value => quoted value
  | .arr items => '[' :: (itemsText items ++ [']'])
  | .obj fields => '\x7b' :: (fieldsText fields ++ ['\x7d'])
  | .callable _ => []

def itemsText : List Json → List Char
  | [] => []
  | [item] => text item
  | item :: rest => text item ++ ", ".toList ++ itemsText rest

def fieldsText : List (String × Json) → List Char
  | [] => []
  | [(key, value)] => quoted key ++ ": ".toList ++ text value
  | (key, value) :: rest =>
    quoted key ++ ": ".toList ++ text value ++ ", ".toList ++ fieldsText rest

end

/-- `json.dumps(value, ensure_ascii=False)` -/
def dumps (value : Json) : Except String (List Char) :=
  if serialisable value then .ok (text floats value)
  else .error "Object of type function is not JSON serializable"

end Printer

section Reader

/-- What a value that is being read belongs to. -/
inductive Frame where
  | array (items : List Json)
  | object (fields : Object)
  /-- The value of a member, behind its key. -/
  | member (fields : Object) (key : String)

inductive Mode where
  /-- A value, or the end of an array if it has no items. -/
  | value (closes : Bool)
  /-- A key, or the end of an object if it has no fields. -/
  | key (closes : Bool)
  | colon
  /-- What follows a value. -/
  | after
  | done (value : Json)
  | word (chars : List Char)
  /-- A string, which may be a key; an escape of it may be the first half of a character. -/
  | string (key : Bool) (chars : List Char) (high : Option Nat)
  | escape (key : Bool) (chars : List Char) (high : Option Nat)
  | unicode (key : Bool) (chars : List Char) (high : Option Nat) (digits : List Nat)

structure Reader where
  stack : List Frame
  mode : Mode

def isBlank (c : Char) : Bool := decide (c ∈ [' ', '\t', '\n', '\r'])

/-- The characters of `null`, `true`, `false`, `NaN`, `Infinity` and of numbers. -/
def isWordChar (c : Char) : Bool := decide (c ∈ "+-.0123456789eEnultrfasNIiy".toList)

def intValue (word : List Char) : Int :=
  if word.head? = some '-' then -(digitsValue (word.drop 1) : Int) else digitsValue word

/-- The value of a word. -/
def atom (floats : Format) (word : List Char) : Option Json :=
  if isFloat word then some (floats.read word)
  else if isInteger word then some (.int (intValue word))
  else if word = "null".toList then some .null
  else if word = "true".toList then some (.bool true)
  else if word = "false".toList then some (.bool false)
  else if word = "NaN".toList then some .nan
  else if word = "Infinity".toList then some (.infinity false)
  else if word = "-Infinity".toList then some (.infinity true)
  else none

def unescape (c : Char) : Option Char :=
  match c with
  | '"' => some '"'
  | '\\' => some '\\'
  | '/' => some '/'
  | 'b' => some '\x08'
  | 'f' => some '\x0c'
  | 'n' => some '\n'
  | 'r' => some '\r'
  | 't' => some '\t'
  | _ => none

def hexValue (c : Char) : Option Nat :=
  if c.isDigit then some (c.toNat - '0'.toNat)
  else if 'a' ≤ c ∧ c ≤ 'f' then some (c.toNat - 'a'.toNat + 10)
  else if 'A' ≤ c ∧ c ≤ 'F' then some (c.toNat - 'A'.toNat + 10)
  else none

/-- A value that has been read goes to what it belongs to. -/
def complete (value : Json) : List Frame → Option Reader
  | [] => some ⟨[], .done value⟩
  | .array items :: stack => some ⟨.array (items ++ [value]) :: stack, .after⟩
  | .member fields key :: stack => some ⟨.object (Object.set fields key value) :: stack, .after⟩
  | .object _ :: _ => none

def closeString (key : Bool) (chars : List Char) (stack : List Frame) : Option Reader :=
  if key then
    match stack with
    | .object fields :: stack => some ⟨.member fields (String.ofList chars) :: stack, .colon⟩
    | _ => none
  else complete (.str (String.ofList chars)) stack

/-- The characters of a string when the first half of a character is not followed by the second. -/
def flushed (floats : Format) (chars : List Char) (high : Option Nat) : List Char :=
  match high with
  | some half => chars ++ [floats.lone half]
  | none => chars

/-- The mode behind an escape by a number. -/
def closeUnicode (floats : Format) (key : Bool) (chars : List Char) (high : Option Nat)
    (unit : Nat) : Mode :=
  if 0xDC00 ≤ unit ∧ unit < 0xE000 then
    match high with
    | some half =>
      .string key (chars ++ [Char.ofNat (0x10000 + 0x400 * (half - 0xD800) + (unit - 0xDC00))]) none
    | none => .string key (chars ++ [floats.lone unit]) none
  else if 0xD800 ≤ unit ∧ unit < 0xDC00 then .string key (flushed floats chars high) (some unit)
  else .string key (flushed floats chars high ++ [Char.ofNat unit]) none

def stepAfter (reader : Reader) (c : Char) : Option Reader :=
  if isBlank c then some reader
  else
    match reader.mode, reader.stack, c with
    | .after, .array items :: stack, ',' => some ⟨.array items :: stack, .value false⟩
    | .after, .array items :: stack, ']' => complete (.arr items) stack
    | .after, .object fields :: stack, ',' => some ⟨.object fields :: stack, .key false⟩
    | .after, .object fields :: stack, '\x7d' => complete (.obj fields) stack
    | _, _, _ => none

def stepValue (closes : Bool) (stack : List Frame) (c : Char) : Option Reader :=
  if isBlank c then some ⟨stack, .value closes⟩
  else if c = '"' then some ⟨stack, .string false [] none⟩
  else if c = '[' then some ⟨.array [] :: stack, .value true⟩
  else if c = '\x7b' then some ⟨.object [] :: stack, .key true⟩
  else if c = ']' ∧ closes = true then
    match stack with
    | .array items :: stack => complete (.arr items) stack
    | _ => none
  else if isWordChar c then some ⟨stack, .word [c]⟩
  else none

def stepKey (closes : Bool) (stack : List Frame) (c : Char) : Option Reader :=
  if isBlank c then some ⟨stack, .key closes⟩
  else if c = '"' then some ⟨stack, .string true [] none⟩
  else if c = '\x7d' ∧ closes = true then
    match stack with
    | .object fields :: stack => complete (.obj fields) stack
    | _ => none
  else none

def stepString (floats : Format) (key : Bool) (chars : List Char) (high : Option Nat)
    (stack : List Frame) (c : Char) : Option Reader :=
  if c = '\\' then some ⟨stack, .escape key chars high⟩
  else if c = '"' then closeString key (flushed floats chars high) stack
  else if c.toNat < 0x20 then none
  else some ⟨stack, .string key (flushed floats chars high ++ [c]) none⟩

def stepEscape (floats : Format) (key : Bool) (chars : List Char) (high : Option Nat)
    (stack : List Frame) (c : Char) : Option Reader :=
  if c = 'u' then some ⟨stack, .unicode key chars high []⟩
  else (unescape c).map fun escaped =>
    ⟨stack, .string key (flushed floats chars high ++ [escaped]) none⟩

def step (floats : Format) (reader : Reader) (c : Char) : Option Reader :=
  match reader.mode with
  | .value closes => stepValue closes reader.stack c
  | .key closes => stepKey closes reader.stack c
  | .colon =>
    if isBlank c then some reader
    else if c = ':' then some ⟨reader.stack, .value false⟩
    else none
  | .after | .done _ => stepAfter reader c
  | .word chars =>
    if isWordChar c then some ⟨reader.stack, .word (chars ++ [c])⟩
    else do
      let value ← atom floats chars
      let reader ← complete value reader.stack
      stepAfter reader c
  | .string key chars high => stepString floats key chars high reader.stack c
  | .escape key chars high => stepEscape floats key chars high reader.stack c
  | .unicode key chars high digits => do
    let digits := digits ++ [← hexValue c]
    if digits.length < 4 then return ⟨reader.stack, .unicode key chars high digits⟩
    return ⟨reader.stack,
      closeUnicode floats key chars high (digits.foldl (fun unit digit => 16 * unit + digit) 0)⟩

/-- The value of the text, at its end. -/
def finish (floats : Format) (reader : Reader) : Option Json :=
  match reader.mode, reader.stack with
  | .done value, _ => some value
  | .word chars, [] => atom floats chars
  | _, _ => none

def run (floats : Format) (reader : Reader) (text : List Char) : Option Reader :=
  text.foldlM (step floats) reader

/-- `json.loads(text)`, as deep and as long as it is; `none` is a `ValueError`. -/
def loads (floats : Format) (text : List Char) : Option Json :=
  (run floats ⟨[], .value false⟩ text).bind (finish floats)

/-- What `json.loads` makes of a text. -/
inductive Loaded where
  | value (value : Json)
  | valueError
  | recursionError

/-- The reader is at the end of an integer with more digits than `int` converts. -/
def overlong (mode : Mode) : Bool :=
  match mode with
  | .word chars =>
    let digits := if chars.head? = some '-' then chars.drop 1 else chars
    isInteger chars && decide (maxLiteralDigits < digits.length)
  | _ => false

/-- The reader, where arrays and objects may stand in each other to the given depth. -/
def readWithin (floats : Format) (depth : Nat) (reader : Reader) : List Char → Loaded
  | [] =>
    if overlong reader.mode then .valueError
    else
      match finish floats reader with
      | some value => .value value
      | none => .valueError
  | c :: rest =>
    if overlong reader.mode && !isWordChar c then .valueError
    else
      match step floats reader c with
      | none => .valueError
      | some next =>
        if depth < next.stack.length then .recursionError else readWithin floats depth next rest

/-- `json.loads(text)` -/
def loadsWithin (floats : Format) (depth : Nat) (text : List Char) : Loaded :=
  readWithin floats depth ⟨[], .value false⟩ text

end Reader

end Json

end MultiAgent.Plugin
