import MultiAgent.Native.Json

/-!
# Reading back what was written

`Prints value` says that the reader takes the text of a value for that value wherever a value is
expected; arrays and objects print when what they hold does (`prints_array`, `prints_object`).
-/

namespace MultiAgent.Native

namespace Json

open CodeUnit

variable {ν : Type} {numbers : Numbers ν} {reader : Reader ν} {stack : List (Frame ν)}
  {a b chars : JsText} {key closes : Bool} {c : CodeUnit}

theorem run_append :
    run numbers reader (a ++ b) = (run numbers reader a).bind (run numbers · b) :=
  List.foldlM_append

theorem run_cons {rest : JsText} :
    run numbers reader (c :: rest) = (step numbers reader c).bind (run numbers · rest) :=
  rfl

@[simp] theorem run_nil : run numbers reader [] = some reader := rfl

theorem run_singleton : run numbers reader [c] = step numbers reader c := by
  rw [run_cons]
  cases step numbers reader c <;> rfl

section Strings

theorem hexValue_hexDigit : ∀ n < 16, hexValue (hexDigit n) = some n := by decide

theorem run_plain (quote : c ≠ quote) (backslash : c ≠ backslash) (high : ¬ c < 0x20) :
    run numbers ⟨stack, .string key chars⟩ [c] = some ⟨stack, .string key (chars ++ [c])⟩ := by
  simp [run, step, stepString, quote, backslash, high]

theorem run_unicodeEscape (c : CodeUnit) :
    run numbers ⟨stack, .string key chars⟩ (unicodeEscape c) =
      some ⟨stack, .string key (chars ++ [c])⟩ := by
  have bound := c.isLt
  have first := hexValue_hexDigit (c.val / 4096) (by omega)
  have second := hexValue_hexDigit (c.val / 256 % 16) (by omega)
  have third := hexValue_hexDigit (c.val / 16 % 16) (by omega)
  have fourth := hexValue_hexDigit (c.val % 16) (by omega)
  have opened : step numbers ⟨stack, .string key chars⟩ CodeUnit.backslash =
      some ⟨stack, .escape key chars⟩ := rfl
  have marked : step numbers ⟨stack, .escape key chars⟩ 0x75 =
      some ⟨stack, .unicode key chars []⟩ := rfl
  have unit : 16 * (16 * (16 * (c.val / 4096) + c.val / 256 % 16) + c.val / 16 % 16) +
      c.val % 16 = c.val := by omega
  rw [unicodeEscape, run_cons, opened, Option.bind_some, run_cons, marked, Option.bind_some]
  simp [run, step, stepUnicode, first, second, third, fourth, unit]

theorem run_escape (c : CodeUnit) :
    run numbers ⟨stack, .string key chars⟩ (escape c) =
      some ⟨stack, .string key (chars ++ [c])⟩ := by
  rw [escape]
  split_ifs with quote backslash backspace feed newline return_ tab other
  · subst quote
    rfl
  · subst backslash
    rfl
  · subst backspace
    rfl
  · subst feed
    rfl
  · subst newline
    rfl
  · subst return_
    rfl
  · subst tab
    rfl
  · exact run_unicodeEscape c
  · exact run_plain quote backslash fun control => other (.inl control)

/-- Half of a pair is written as it is. -/
theorem run_surrogate (surrogate : 0xD800 ≤ c.val) :
    run numbers ⟨stack, .string key chars⟩ [c] = some ⟨stack, .string key (chars ++ [c])⟩ := by
  apply run_plain
  · rintro rfl
    exact absurd surrogate (by decide)
  · rintro rfl
    exact absurd surrogate (by decide)
  · intro control
    exact absurd (surrogate.trans_lt (Fin.lt_def.mp control)) (by decide)

theorem run_quotedBody (text : JsText) :
    run numbers ⟨stack, .string key chars⟩ (quotedBody text) =
      some ⟨stack, .string key (chars ++ text)⟩ := by
  fun_induction quotedBody text generalizing chars with
  | case1 => simp
  | case2 c => exact run_escape c
  | case3 c d rest pair ih =>
      have leading : 0xD800 ≤ c.val := (of_decide_eq_true pair.1).1
      have trailing : 0xDC00 ≤ d.val := (of_decide_eq_true pair.2).1
      have split : c :: d :: quotedBody rest = [c] ++ ([d] ++ quotedBody rest) := rfl
      rw [split, run_append, run_surrogate leading, Option.bind_some, run_append,
        run_surrogate (by omega), Option.bind_some, ih]
      simp
  | case4 c d rest alone ih =>
      rw [run_append, run_escape, Option.bind_some, ih, List.append_assoc]
      rfl

/-- A string, up to the place where it belongs. -/
theorem run_string (text : JsText) :
    run numbers ⟨stack, .string key []⟩ (quotedBody text ++ [quote]) =
      closeString key text stack := by
  rw [run_append, run_quotedBody, Option.bind_some, run_singleton, List.nil_append]
  rfl

theorem run_quoted_key (text : JsText) {members : List (JsText × Json ν)} :
    run numbers ⟨.object members :: stack, .key closes⟩ (quoted text) =
      some ⟨.member members text :: stack, .colon⟩ := by
  have opened : step numbers ⟨.object members :: stack, .key closes⟩ quote =
      some ⟨.object members :: stack, .string true []⟩ := rfl
  rw [quoted, run_cons, opened, Option.bind_some, run_string]
  rfl

end Strings

section Values

/-- Wherever a value is expected, its text is read as the value. -/
def Prints (numbers : Numbers ν) (value : Json ν) : Prop :=
  ∀ stack closes, run numbers ⟨stack, .value closes⟩ (stringify numbers value) =
    complete value stack

theorem prints_string (text : JsText) : Prints numbers (.string text) := by
  intro stack closes
  have opened : step numbers ⟨stack, .value closes⟩ quote = some ⟨stack, .string false []⟩ := rfl
  rw [stringify, quoted, run_cons, opened, Option.bind_some, run_string]
  rfl

theorem run_restOfItems {items done : List (Json ν)}
    (prints : ∀ item ∈ items, Prints numbers item) :
    run numbers ⟨.array done :: stack, .after⟩ (restOfItems numbers items) =
      some ⟨.array (done ++ items) :: stack, .after⟩ := by
  induction items generalizing done with
  | nil => rw [restOfItems, run_nil, List.append_nil]
  | cons item rest ih =>
      obtain ⟨first, later⟩ := List.forall_mem_cons.mp prints
      have comma : run numbers ⟨.array done :: stack, .after⟩ (units ",") =
        some ⟨.array done :: stack, .value false⟩ := rfl
      rw [restOfItems, run_append, run_append, comma, Option.bind_some, first, complete,
        Option.bind_some, ih later, List.append_assoc]
      rfl

theorem prints_array {items : List (Json ν)} (prints : ∀ item ∈ items, Prints numbers item) :
    Prints numbers (.array items) := by
  intro stack closes
  have opened : run numbers ⟨stack, .value closes⟩ (units "[") =
    some ⟨.array [] :: stack, .value true⟩ := rfl
  have bracket : units "]" = [0x5D] := rfl
  rw [stringify, run_append, run_append, opened, Option.bind_some, bracket]
  cases items with
  | nil =>
      rw [itemsText, run_nil, Option.bind_some, run_singleton]
      rfl
  | cons item rest =>
      obtain ⟨first, later⟩ := List.forall_mem_cons.mp prints
      rw [itemsText, run_append, first, complete, Option.bind_some, run_restOfItems later,
        Option.bind_some, run_singleton]
      rfl

/-- A member, behind the brace or the comma. -/
theorem run_member {members : List (JsText × Json ν)} {value : Json ν} (text : JsText)
    (prints : Prints numbers value) :
    run numbers ⟨.object members :: stack, .key closes⟩
        (quoted text ++ units ":" ++ stringify numbers value) =
      some ⟨.object (members ++ [(text, value)]) :: stack, .after⟩ := by
  have colon : run numbers ⟨.member members text :: stack, .colon⟩ (units ":") =
    some ⟨.member members text :: stack, .value false⟩ := rfl
  rw [run_append, run_append, run_quoted_key, Option.bind_some, colon, Option.bind_some, prints,
    complete]

theorem run_restOfMembers {members done : List (JsText × Json ν)}
    (prints : ∀ member ∈ members, Prints numbers member.2) :
    run numbers ⟨.object done :: stack, .after⟩ (restOfMembers numbers members) =
      some ⟨.object (done ++ members) :: stack, .after⟩ := by
  induction members generalizing done with
  | nil => rw [restOfMembers, run_nil, List.append_nil]
  | cons member rest ih =>
      obtain ⟨first, later⟩ := List.forall_mem_cons.mp prints
      have comma : run numbers ⟨.object done :: stack, .after⟩ (units ",") =
        some ⟨.object done :: stack, .key false⟩ := rfl
      have split : restOfMembers numbers (member :: rest) = units "," ++
          ((quoted member.1 ++ units ":" ++ stringify numbers member.2) ++
            restOfMembers numbers rest) := by
        rw [restOfMembers]
        simp only [List.append_assoc]
      rw [split, run_append, comma, Option.bind_some, run_append, run_member _ first,
        Option.bind_some, ih later, List.append_assoc]
      rfl

theorem prints_object {members : List (JsText × Json ν)}
    (prints : ∀ member ∈ members, Prints numbers member.2) :
    Prints numbers (.object members) := by
  intro stack closes
  have opened : run numbers ⟨stack, .value closes⟩ (units "\x7b") =
    some ⟨.object [] :: stack, .key true⟩ := rfl
  have brace : units "\x7d" = [0x7D] := rfl
  rw [stringify, run_append, run_append, opened, Option.bind_some, brace]
  cases members with
  | nil =>
      rw [membersText, run_nil, Option.bind_some, run_singleton]
      rfl
  | cons member rest =>
      obtain ⟨first, later⟩ := List.forall_mem_cons.mp prints
      rw [membersText, run_append, run_member _ first, Option.bind_some, run_restOfMembers later,
        Option.bind_some, run_singleton]
      rfl

/-- `JSON.parse(JSON.stringify(value))` -/
theorem parse_stringify {value : Json ν} (prints : Prints numbers value) :
    parse numbers (stringify numbers value) = some value := by
  rw [parse, prints]
  rfl

end Values

end Json

end MultiAgent.Native
