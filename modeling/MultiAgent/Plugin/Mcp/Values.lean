import MultiAgent.Plugin.Text

/-!
# JSON values on a UTF-8 stream

What `json.loads` returns and `json.dumps(value, ensure_ascii=False)` writes. A string
is a list of code points, lone surrogates among them, and only these cannot be
encoded. A float is kept by its `repr`.
-/

namespace MultiAgent.Plugin.Mcp

abbrev CodePoint := Fin 0x110000

abbrev Text := List CodePoint

/-- The code point of a character. -/
def point (c : Char) : CodePoint := ⟨c.toNat, by
  have valid := c.valid
  simp only [UInt32.isValidChar, Nat.isValidChar] at valid
  change c.val.toNat < 1114112
  omega⟩

def text (s : String) : Text := s.toList.map point

def surrogate (c : CodePoint) : Bool := decide (0xD800 ≤ c.val ∧ c.val ≤ 0xDFFF)

/-- A UTF-8 stream takes the text. -/
def encodable (t : Text) : Bool := t.all fun c => !surrogate c

/-- `t.strip()` -/
def strip (t : Text) : Text :=
  let space (c : CodePoint) : Bool := isSpace (Char.ofNat c.val)
  ((t.dropWhile space).reverse.dropWhile space).reverse

inductive Value where
  | null
  | bool (value : Bool)
  | int (value : Int)
  | float (repr : String)
  | str (value : Text)
  | arr (items : List Value)
  | obj (fields : List (Text × Value))

abbrev Dict := List (Text × Value)

namespace Value

/-- `type(value).__name__` -/
def typeName : Value → String
  | .null => "NoneType"
  | .bool _ => "bool"
  | .int _ => "int"
  | .float _ => "float"
  | .str _ => "str"
  | .arr _ => "list"
  | .obj _ => "dict"

/-- `bool(value)` -/
def truthy : Value → Bool
  | .null => false
  | .bool value => value
  | .int value => decide (value ≠ 0)
  | .float repr => decide (repr ≠ "0.0" ∧ repr ≠ "-0.0")
  | .str value => !value.isEmpty
  | .arr items => !items.isEmpty
  | .obj fields => !fields.isEmpty

def isNull : Value → Bool
  | .null => true
  | _ => false

/-- `value == s` -/
def isText (value : Value) (s : String) : Bool :=
  match value with
  | .str other => decide (other = text s)
  | _ => false

mutual

/-- No string of the value holds a lone surrogate. -/
def encodable : Value → Bool
  | .str value => Mcp.encodable value
  | .arr items => encodableItems items
  | .obj fields => encodableFields fields
  | _ => true

def encodableItems : List Value → Bool
  | [] => true
  | value :: rest => encodable value && encodableItems rest

def encodableFields : List (Text × Value) → Bool
  | [] => true
  | (key, value) :: rest => Mcp.encodable key && (encodable value && encodableFields rest)

end

mutual

/-- How deep arrays and objects stand inside each other. -/
def depth : Value → Nat
  | .arr items => depthItems items + 1
  | .obj fields => depthFields fields + 1
  | _ => 0

def depthItems : List Value → Nat
  | [] => 0
  | value :: rest => max (depth value) (depthItems rest)

def depthFields : List (Text × Value) → Nat
  | [] => 0
  | (_, value) :: rest => max (depth value) (depthFields rest)

end

end Value

/-- `value[key]`, where there is one. -/
def Dict.get? (fields : Dict) (key : String) : Option Value :=
  (fields.find? fun entry => decide (entry.1 = text key)).map Prod.snd

/-- `fields.get(key)` -/
def Dict.get (fields : Dict) (key : String) : Value := (fields.get? key).getD .null

theorem Value.isText_iff {value : Value} {s : String} :
    value.isText s = true ↔ value = .str (text s) := by
  cases value with
  | str other => simp [isText]
  | _ => simp [isText]

/-- A dict with the keys of the source. -/
def record (fields : List (String × Value)) : Value :=
  .obj (fields.map fun entry => (text entry.1, entry.2))

theorem point_injective : Function.Injective point := fun c d same => by
  refine Char.toNat_inj.mp ?_
  simpa [point] using same

@[simp] theorem text_inj {s u : String} : text s = text u ↔ s = u := by
  rw [text, text, List.map_inj_right fun _ _ same => point_injective same, String.toList_inj]

@[simp] theorem Dict.get?_nil (key : String) : Dict.get? [] key = none := rfl

/-- A field under a name of the source. -/
@[simp] theorem Dict.get?_cons (name key : String) (value : Value) (rest : Dict) :
    Dict.get? ((text name, value) :: rest) key =
      if name = key then some value else Dict.get? rest key := by
  rw [get?, get?]
  split
  · rename_i same
    simp [same]
  · rename_i other
    simp [other]

section Dumps

def hexDigit (n : Nat) : Char := "0123456789abcdef".toList.getD n '0'

/-- `ESCAPE_DCT`, without `ensure_ascii`. -/
def escape (c : CodePoint) : Text :=
  if c = point '"' then text "\\\""
  else if c = point '\\' then text "\\\\"
  else if c = point '\n' then text "\\n"
  else if c = point '\r' then text "\\r"
  else if c = point '\t' then text "\\t"
  else if c.val = 0x0C then text "\\f"
  else if c.val = 0x08 then text "\\b"
  else if c.val < 0x20 then
    text "\\u00" ++ [point (hexDigit (c.val / 16)), point (hexDigit (c.val % 16))]
  else [c]

def quote (t : Text) : Text := text "\"" ++ (t.flatMap escape ++ text "\"")

def dumpsFloat (repr : String) : Text :=
  if repr = "nan" then text "NaN"
  else if repr = "inf" then text "Infinity"
  else if repr = "-inf" then text "-Infinity"
  else text repr

mutual

/-- `json.dumps(value, ensure_ascii=False)`, for a value that is not too deep. -/
def dumps : Value → Text
  | .null => text "null"
  | .bool value => text (if value then "true" else "false")
  | .int value => text (toString value)
  | .float repr => dumpsFloat repr
  | .str value => quote value
  | .arr items => text "[" ++ (dumpsItems items ++ text "]")
  | .obj fields => text "\x7b" ++ (dumpsFields fields ++ text "\x7d")

def dumpsItems : List Value → Text
  | [] => []
  | value :: rest =>
    dumps value ++ (if rest.isEmpty then [] else text ", " ++ dumpsItems rest)

def dumpsFields : List (Text × Value) → Text
  | [] => []
  | (key, value) :: rest =>
    quote key ++ (text ": " ++ (dumps value ++
      (if rest.isEmpty then [] else text ", " ++ dumpsFields rest)))

end

end Dumps

section Encoding

@[simp] theorem encodable_nil : encodable [] = true := rfl

@[simp] theorem encodable_append (t u : Text) :
    encodable (t ++ u) = (encodable t && encodable u) := List.all_append

theorem surrogate_point (c : Char) : surrogate (point c) = false := by
  have valid := c.valid
  simp only [UInt32.isValidChar, Nat.isValidChar] at valid
  have value : (point c).val = c.val.toNat := rfl
  simp only [surrogate, value, decide_eq_false_iff_not]
  omega

/-- The texts of the source are free of surrogates. -/
@[simp] theorem encodable_text (s : String) : encodable (text s) = true := by
  rw [encodable, text, List.all_map, List.all_eq_true]
  intro c _
  simp [surrogate_point]

theorem not_surrogate_of_lt {c : CodePoint} (small : c.val < 0xD800) : surrogate c = false := by
  rw [surrogate, decide_eq_false_iff_not]
  omega

/-- The escapes are ASCII, and everything else stands for itself. -/
theorem encodable_escape (c : CodePoint) : encodable (escape c) = !surrogate c := by
  have named (s : String) (plain : surrogate c = false) : encodable (text s) = !surrogate c := by
    rw [encodable_text, plain]
    rfl
  have listed (d : Char) (same : c = point d) (s : String) : encodable (text s) = !surrogate c :=
    named s (same ▸ surrogate_point d)
  unfold escape
  split_ifs with a b d e f g h i
  · exact listed _ a _
  · exact listed _ b _
  · exact listed _ d _
  · exact listed _ e _
  · exact listed _ f _
  · exact named _ (not_surrogate_of_lt (by omega))
  · exact named _ (not_surrogate_of_lt (by omega))
  · rw [not_surrogate_of_lt (by omega), encodable_append, encodable_text]
    simp [encodable, surrogate_point]
  · simp [encodable]

@[simp] theorem encodable_quote (t : Text) : encodable (quote t) = encodable t := by
  have inner : encodable (t.flatMap escape) = encodable t := by
    induction t with
    | nil => rfl
    | cons c rest ih =>
        rw [List.flatMap_cons, encodable_append, ih, encodable_escape]
        rfl
  rw [quote, encodable_append, encodable_append, inner, encodable_text,
    Bool.and_true, Bool.true_and]

theorem encodable_dumpsFloat (repr : String) : encodable (dumpsFloat repr) = true := by
  unfold dumpsFloat
  repeat' split
  all_goals exact encodable_text _

mutual

/-- What is written of a value can be encoded when its strings can. -/
theorem encodable_dumps : (value : Value) → encodable (dumps value) = value.encodable
  | .null => by simp [dumps, Value.encodable]
  | .bool value => by simp [dumps, Value.encodable]
  | .int value => by simp [dumps, Value.encodable]
  | .float repr => by simp [dumps, Value.encodable, encodable_dumpsFloat]
  | .str value => by simp [dumps, Value.encodable]
  | .arr items => by simp [dumps, Value.encodable, encodable_dumpsItems items]
  | .obj fields => by simp [dumps, Value.encodable, encodable_dumpsFields fields]

theorem encodable_dumpsItems : (items : List Value) →
    encodable (dumpsItems items) = Value.encodableItems items
  | [] => rfl
  | value :: rest => by
      rw [dumpsItems, encodable_append, encodable_dumps value, Value.encodableItems]
      cases rest with
      | nil => rfl
      | cons next rest => simp [encodable_dumpsItems (next :: rest)]

theorem encodable_dumpsFields : (fields : List (Text × Value)) →
    encodable (dumpsFields fields) = Value.encodableFields fields
  | [] => rfl
  | (key, value) :: rest => by
      rw [dumpsFields, encodable_append, encodable_quote, encodable_append, encodable_text,
        encodable_append, encodable_dumps value, Value.encodableFields, Bool.true_and]
      cases rest with
      | nil => rfl
      | cons next rest => simp [encodable_dumpsFields (next :: rest)]

end

end Encoding

end MultiAgent.Plugin.Mcp
