import Mathlib.Data.List.Basic
import Mathlib.Data.Fin.Basic
import Mathlib.Algebra.GroupWithZero.Nat

/-!
# JSON text in JavaScript

`JSON.stringify(value)` and `JSON.parse(text)` over UTF-16 code units. The reader is a machine
that goes over the text once, with a stack of the arrays and objects it is in. What a number is
and how it prints is a parameter.
-/

namespace MultiAgent.Native

/-- A UTF-16 code unit. -/
abbrev CodeUnit := Fin 65536

instance CodeUnit.neZero : NeZero 65536 := ⟨by decide⟩

instance CodeUnit.lawfulBEq : LawfulBEq CodeUnit := inferInstance

abbrev JsText := List CodeUnit

/-- A literal, of characters of one code unit each. -/
def units (literal : String) : JsText := literal.toList.map fun c => Fin.ofNat 65536 c.toNat

namespace CodeUnit

def quote : CodeUnit := 0x22
def backslash : CodeUnit := 0x5C

/-- A surrogate that comes first in a pair. -/
def isLeading (c : CodeUnit) : Bool := decide (0xD800 ≤ c ∧ c ≤ 0xDBFF)

/-- A surrogate that comes second in a pair. -/
def isTrailing (c : CodeUnit) : Bool := decide (0xDC00 ≤ c ∧ c ≤ 0xDFFF)

def isDigit (c : CodeUnit) : Bool := decide (0x30 ≤ c ∧ c ≤ 0x39)

/-- White space of a JSON text. -/
def isBlank (c : CodeUnit) : Bool := decide (c ∈ ([0x20, 0x09, 0x0A, 0x0D] : List CodeUnit))

end CodeUnit

open CodeUnit

/-- The numbers, by what they are. -/
structure Numbers (ν : Type) where
  /-- The number of a literal. -/
  read : JsText → ν
  /-- `String(number)` -/
  text : ν → JsText

inductive Json (ν : Type) where
  | null
  | bool (value : Bool)
  | number (value : ν)
  | string (value : JsText)
  | array (items : List (Json ν))
  /-- The members as they come; of several with one key the last counts. -/
  | object (members : List (JsText × Json ν))

namespace Json

variable {ν : Type}

/-- `value[key]` for the own properties; `undefined` is `none`. -/
def get (members : List (JsText × Json ν)) (key : JsText) : Option (Json ν) :=
  (members.reverse.find? fun member => decide (member.1 = key)).map Prod.snd

section Printer

/-- A digit of a lower case hexadecimal number. -/
def hexDigit (n : Nat) : CodeUnit := Fin.ofNat 65536 (if n < 10 then 0x30 + n else 0x57 + n)

def unicodeEscape (c : CodeUnit) : JsText :=
  [backslash, 0x75, hexDigit (c.val / 4096), hexDigit (c.val / 256 % 16),
    hexDigit (c.val / 16 % 16), hexDigit (c.val % 16)]

/-- A code unit of a string that is in no pair of surrogates. -/
def escape (c : CodeUnit) : JsText :=
  if c = quote then [backslash, quote]
  else if c = backslash then [backslash, backslash]
  else if c = 0x08 then [backslash, 0x62]
  else if c = 0x0C then [backslash, 0x66]
  else if c = 0x0A then [backslash, 0x6E]
  else if c = 0x0D then [backslash, 0x72]
  else if c = 0x09 then [backslash, 0x74]
  else if c < 0x20 ∨ c.isLeading ∨ c.isTrailing then unicodeEscape c
  else [c]

def quotedBody : JsText → JsText
  | [] => []
  | [c] => escape c
  | c :: d :: rest =>
    if c.isLeading ∧ d.isTrailing then c :: d :: quotedBody rest
    else escape c ++ quotedBody (d :: rest)

def quoted (text : JsText) : JsText := quote :: (quotedBody text ++ [quote])

variable (numbers : Numbers ν)

mutual

/-- `JSON.stringify(value)` -/
def stringify : Json ν → JsText
  | .null => units "null"
  | .bool true => units "true"
  | .bool false => units "false"
  | .number value => numbers.text value
  | .string value => quoted value
  | .array items => units "[" ++ itemsText items ++ units "]"
  | .object members => units "\x7b" ++ membersText members ++ units "\x7d"

def itemsText : List (Json ν) → JsText
  | [] => []
  | item :: rest => stringify item ++ restOfItems rest

/-- The items behind the first. -/
def restOfItems : List (Json ν) → JsText
  | [] => []
  | item :: rest => units "," ++ stringify item ++ restOfItems rest

def membersText : List (JsText × Json ν) → JsText
  | [] => []
  | (key, value) :: rest => quoted key ++ units ":" ++ stringify value ++ restOfMembers rest

/-- The members behind the first. -/
def restOfMembers : List (JsText × Json ν) → JsText
  | [] => []
  | (key, value) :: rest =>
    units "," ++ quoted key ++ units ":" ++ stringify value ++ restOfMembers rest

end

end Printer

section Reader

variable (numbers : Numbers ν)

/-- A literal of an integer. -/
def isInteger (word : JsText) : Bool :=
  let digits := if word.head? = some 0x2D then word.drop 1 else word
  !digits.isEmpty && digits.all isDigit && (digits.length == 1 || digits.head? != some 0x30)

/-- A literal of a number: an integer, with a fraction and an exponent if they are there. -/
def isNumber (word : JsText) : Bool :=
  let mantissa := word.takeWhile fun c => decide (c ≠ 0x65 ∧ c ≠ 0x45)
  let exponent := word.dropWhile fun c => decide (c ≠ 0x65 ∧ c ≠ 0x45)
  let whole := mantissa.takeWhile fun c => decide (c ≠ 0x2E)
  let fraction := mantissa.dropWhile fun c => decide (c ≠ 0x2E)
  let power := exponent.drop 1
  let power := if power.head? ∈ [some 0x2B, some 0x2D] then power.drop 1 else power
  isInteger whole &&
    (fraction.isEmpty || !(fraction.drop 1).isEmpty && (fraction.drop 1).all isDigit) &&
    (exponent.isEmpty || !power.isEmpty && power.all isDigit)

/-- What a value that is being read belongs to. -/
inductive Frame (ν : Type) where
  | array (items : List (Json ν))
  | object (members : List (JsText × Json ν))
  /-- The value of a member, behind its key. -/
  | member (members : List (JsText × Json ν)) (key : JsText)

inductive Mode (ν : Type) where
  /-- A value, or the end of an array if it has no items. -/
  | value (closes : Bool)
  /-- A key, or the end of an object if it has no members. -/
  | key (closes : Bool)
  | colon
  /-- What follows a value. -/
  | after
  | done (value : Json ν)
  | word (chars : JsText)
  /-- A string, which may be a key. -/
  | string (key : Bool) (chars : JsText)
  | escape (key : Bool) (chars : JsText)
  | unicode (key : Bool) (chars : JsText) (digits : List Nat)

structure Reader (ν : Type) where
  stack : List (Frame ν)
  mode : Mode ν

/-- The characters of `null`, `true`, `false` and of numbers. -/
def isWordChar (c : CodeUnit) : Bool := decide (c ∈ units "+-.0123456789eEnultrfas")

/-- The value of a word. -/
def atom (word : JsText) : Option (Json ν) :=
  if isNumber word then some (.number (numbers.read word))
  else if word = units "null" then some .null
  else if word = units "true" then some (.bool true)
  else if word = units "false" then some (.bool false)
  else none

def unescape (c : CodeUnit) : Option CodeUnit :=
  if c = quote ∨ c = backslash ∨ c = 0x2F then some c
  else if c = 0x62 then some 0x08
  else if c = 0x66 then some 0x0C
  else if c = 0x6E then some 0x0A
  else if c = 0x72 then some 0x0D
  else if c = 0x74 then some 0x09
  else none

def hexValue (c : CodeUnit) : Option Nat :=
  if c.isDigit then some (c.val - 0x30)
  else if 0x61 ≤ c ∧ c ≤ 0x66 then some (c.val - 0x57)
  else if 0x41 ≤ c ∧ c ≤ 0x46 then some (c.val - 0x37)
  else none

/-- A value that has been read goes to what it belongs to. -/
def complete (value : Json ν) : List (Frame ν) → Option (Reader ν)
  | [] => some ⟨[], .done value⟩
  | .array items :: stack => some ⟨.array (items ++ [value]) :: stack, .after⟩
  | .member members key :: stack => some ⟨.object (members ++ [(key, value)]) :: stack, .after⟩
  | .object _ :: _ => none

def closeString (key : Bool) (chars : JsText) (stack : List (Frame ν)) : Option (Reader ν) :=
  if key then
    match stack with
    | .object members :: stack => some ⟨.member members chars :: stack, .colon⟩
    | _ => none
  else complete (.string chars) stack

def stepAfter (reader : Reader ν) (c : CodeUnit) : Option (Reader ν) :=
  if c.isBlank then some reader
  else
    match reader.mode, reader.stack with
    | .after, .array items :: stack =>
      if c = 0x2C then some ⟨.array items :: stack, .value false⟩
      else if c = 0x5D then complete (.array items) stack
      else none
    | .after, .object members :: stack =>
      if c = 0x2C then some ⟨.object members :: stack, .key false⟩
      else if c = 0x7D then complete (.object members) stack
      else none
    | _, _ => none

def stepValue (closes : Bool) (stack : List (Frame ν)) (c : CodeUnit) : Option (Reader ν) :=
  if c.isBlank then some ⟨stack, .value closes⟩
  else if c = quote then some ⟨stack, .string false []⟩
  else if c = 0x5B then some ⟨.array [] :: stack, .value true⟩
  else if c = 0x7B then some ⟨.object [] :: stack, .key true⟩
  else if c = 0x5D ∧ closes = true then
    match stack with
    | .array items :: stack => complete (.array items) stack
    | _ => none
  else if isWordChar c then some ⟨stack, .word [c]⟩
  else none

def stepKey (closes : Bool) (stack : List (Frame ν)) (c : CodeUnit) : Option (Reader ν) :=
  if c.isBlank then some ⟨stack, .key closes⟩
  else if c = quote then some ⟨stack, .string true []⟩
  else if c = 0x7D ∧ closes = true then
    match stack with
    | .object members :: stack => complete (.object members) stack
    | _ => none
  else none

def stepString (key : Bool) (chars : JsText) (stack : List (Frame ν)) (c : CodeUnit) :
    Option (Reader ν) :=
  if c = backslash then some ⟨stack, .escape key chars⟩
  else if c = quote then closeString key chars stack
  else if c < 0x20 then none
  else some ⟨stack, .string key (chars ++ [c])⟩

def stepUnicode (key : Bool) (chars : JsText) (digits : List Nat) (stack : List (Frame ν))
    (c : CodeUnit) : Option (Reader ν) :=
  (hexValue c).map fun digit =>
    let digits := digits ++ [digit]
    if digits.length < 4 then ⟨stack, .unicode key chars digits⟩
    else
      let unit := digits.foldl (fun unit digit => 16 * unit + digit) 0
      ⟨stack, .string key (chars ++ [Fin.ofNat 65536 unit])⟩

def step (reader : Reader ν) (c : CodeUnit) : Option (Reader ν) :=
  match reader.mode with
  | .value closes => stepValue closes reader.stack c
  | .key closes => stepKey closes reader.stack c
  | .colon =>
    if c.isBlank then some reader
    else if c = 0x3A then some ⟨reader.stack, .value false⟩
    else none
  | .after | .done _ => stepAfter reader c
  | .word chars =>
    if isWordChar c then some ⟨reader.stack, .word (chars ++ [c])⟩
    else
      (atom numbers chars).bind fun value =>
        (complete value reader.stack).bind fun reader => stepAfter reader c
  | .string key chars => stepString key chars reader.stack c
  | .escape key chars =>
    if c = 0x75 then some ⟨reader.stack, .unicode key chars []⟩
    else (unescape c).map fun escaped => ⟨reader.stack, .string key (chars ++ [escaped])⟩
  | .unicode key chars digits => stepUnicode key chars digits reader.stack c

/-- The value of the text, at its end. -/
def finish (reader : Reader ν) : Option (Json ν) :=
  match reader.mode, reader.stack with
  | .done value, _ => some value
  | .word chars, [] => atom numbers chars
  | _, _ => none

def run (reader : Reader ν) (text : JsText) : Option (Reader ν) :=
  text.foldlM (step numbers) reader

/-- `JSON.parse(text)`; `none` is a `SyntaxError`. -/
def parse (text : JsText) : Option (Json ν) :=
  (run numbers ⟨[], .value false⟩ text).bind (finish numbers)

end Reader

end Json

end MultiAgent.Native
