import MultiAgent.Plugin.Json.Text
import Mathlib.Data.List.TakeWhile
import Mathlib.Tactic.IntervalCases

/-!
# JSON texts read back

A proper value is read back from its text (`loads_text`). What holds of strings, words and
marks, and of texts put together from them, holds of the text of each proper value
(`Composes.text`).
-/

namespace MultiAgent.Plugin.Json

variable {floats : Format} {reader : Reader} {stack : List Frame} {a b word : List Char}
  {value : Json}

/-- What `json` prints and reads without a loss: no dict has a key twice, the floats are
floats, and no function is in it. -/
inductive Proper (floats : Format) : Json → Prop
  | null : Proper floats .null
  | bool (value : Bool) : Proper floats (.bool value)
  | int (value : Int) : Proper floats (.int value)
  | float (value : ℚ) (is_float : floats.representable value) : Proper floats (.float value)
  | nan : Proper floats .nan
  | infinity (negative : Bool) : Proper floats (.infinity negative)
  | str (value : String) : Proper floats (.str value)
  | arr (items : List Json) (proper : ∀ item ∈ items, Proper floats item) :
    Proper floats (.arr items)
  | obj (fields : List (String × Json)) (distinct : (fields.map Prod.fst).Nodup)
    (proper : ∀ field ∈ fields, Proper floats field.2) : Proper floats (.obj fields)

theorem run_append : run floats reader (a ++ b) = (run floats reader a).bind (run floats · b) :=
  List.foldlM_append

theorem run_cons {c : Char} {rest : List Char} :
    run floats reader (c :: rest) = (step floats reader c).bind (run floats · rest) :=
  List.foldlM_cons

@[simp] theorem run_nil : run floats reader [] = some reader := rfl

section Strings

variable {key : Bool} {chars : List Char} {c : Char}

@[simp] theorem flushed_none : flushed floats chars none = chars := rfl

theorem hexValue_digitChar : ∀ n < 16, hexValue (Nat.digitChar n) = some n := by decide

theorem run_escape (c : Char) :
    run floats ⟨stack, .string key chars none⟩ (escape c) =
      some ⟨stack, .string key (chars ++ [c]) none⟩ := by
  unfold escape
  split_ifs with quote backslash newline return_ tab feed backspace control
  · subst quote
    rfl
  · subst backslash
    rfl
  · subst newline
    rfl
  · subst return_
    rfl
  · subst tab
    rfl
  · subst feed
    rfl
  · subst backspace
    rfl
  · have high := hexValue_digitChar (c.toNat / 16) (by omega)
    have low := hexValue_digitChar (c.toNat % 16) (by omega)
    have zero : hexValue '0' = some 0 := rfl
    have unit : 16 * (c.toNat / 16) + c.toNat % 16 = c.toNat := by omega
    have whole : closeUnicode floats key chars none c.toNat =
        .string key (chars ++ [c]) none := by
      simp (disch := omega) only [closeUnicode, if_neg, Char.ofNat_toNat, flushed_none]
    simp [run, step, stepString, stepEscape, zero, high, low, unit, whole]
  · simp [run, step, stepString, quote, backslash, control]

theorem run_flatMap_escape (text : List Char) :
    run floats ⟨stack, .string key chars none⟩ (text.flatMap escape) =
      some ⟨stack, .string key (chars ++ text) none⟩ := by
  induction text generalizing chars with
  | nil => simp
  | cons c rest ih =>
      rw [List.flatMap_cons, run_append, run_escape, Option.bind_some, ih]
      simp

/-- A string, up to the place where it belongs. -/
theorem run_string (s : String) :
    run floats ⟨stack, .string key [] none⟩ (s.toList.flatMap escape ++ ['"']) =
      closeString key s.toList stack := by
  rw [run_append, run_flatMap_escape, Option.bind_some, run_cons, List.nil_append]
  simp [step, stepString]

theorem run_quoted_value {closes : Bool} (s : String) :
    run floats ⟨stack, .value closes⟩ (quoted s) = complete (.str s) stack := by
  have opened : step floats ⟨stack, .value closes⟩ '"' = some ⟨stack, .string false [] none⟩ := rfl
  rw [quoted, run_cons, opened, Option.bind_some, run_string]
  simp [closeString]

theorem run_quoted_key {closes : Bool} {fields : Object} (s : String) :
    run floats ⟨.object fields :: stack, .key closes⟩ (quoted s) =
      some ⟨.member fields s :: stack, .colon⟩ := by
  have opened : step floats ⟨.object fields :: stack, .key closes⟩ '"' =
      some ⟨.object fields :: stack, .string true [] none⟩ := rfl
  rw [quoted, run_cons, opened, Option.bind_some, run_string]
  simp [closeString]

end Strings

section Words

theorem stepValue_word {closes : Bool} {c : Char} (in_word : isWordChar c = true) :
    stepValue closes stack c = some ⟨stack, .word [c]⟩ := by
  have plain : ∀ c ∈ "+-.0123456789eEnultrfasNIiy".toList,
      isBlank c = false ∧ c ≠ '"' ∧ c ≠ '[' ∧ c ≠ '\x7b' ∧ c ≠ ']' := by
    rw [← List.forall_iff_forall_mem]
    decide
  obtain ⟨blank, quote, bracket, brace, close⟩ := plain c (of_decide_eq_true in_word)
  simp [stepValue, blank, quote, bracket, brace, close, in_word]

theorem run_wordChars {chars : List Char} (in_word : ∀ c ∈ word, isWordChar c = true) :
    run floats ⟨stack, .word chars⟩ word = some ⟨stack, .word (chars ++ word)⟩ := by
  induction word generalizing chars with
  | nil => simp
  | cons c rest ih =>
      have next : step floats ⟨stack, .word chars⟩ c = some ⟨stack, .word (chars ++ [c])⟩ := by
        simp [step, in_word c (by simp)]
      rw [run_cons, next, Option.bind_some, ih fun c member => in_word c (by simp [member])]
      simp

/-- A word is read to its end, and stays open for more. -/
theorem run_word {closes : Bool} (nonempty : word ≠ [])
    (in_word : ∀ c ∈ word, isWordChar c = true) :
    run floats ⟨stack, .value closes⟩ word = some ⟨stack, .word word⟩ := by
  cases word with
  | nil => exact absurd rfl nonempty
  | cons c rest =>
      have first : step floats ⟨stack, .value closes⟩ c = some ⟨stack, .word [c]⟩ :=
        stepValue_word (in_word c (by simp))
      rw [run_cons, first, Option.bind_some,
        run_wordChars fun c member => in_word c (by simp [member])]
      rfl

end Words

section Literals

theorem isDigit_range {c : Char} (digit : c.isDigit = true) : 48 ≤ c.toNat ∧ c.toNat ≤ 57 := by
  simpa [Char.isDigit, UInt32.le_iff_toNat_le] using digit

theorem isWordChar_of_isDigit {c : Char} (digit : c.isDigit = true) : isWordChar c = true := by
  obtain ⟨low, high⟩ := isDigit_range digit
  rw [← Char.ofNat_toNat c]
  generalize c.toNat = n at low high
  interval_cases n <;> rfl

/-- An integer is a row of digits, maybe behind a sign. -/
theorem digits_of_isInteger (integer : isInteger word = true) :
    ∃ digits : List Char, (∀ c ∈ digits, c.isDigit = true) ∧
      (word = digits ∨ word = '-' :: digits) := by
  unfold isInteger at integer
  simp only [Bool.and_eq_true, List.all_eq_true] at integer
  obtain ⟨⟨-, digits⟩, -⟩ := integer
  split_ifs at digits with sign
  · refine ⟨word.drop 1, digits, .inr ?_⟩
    cases word with
    | nil => cases sign
    | cons c rest =>
        cases sign
        rfl
  · exact ⟨word, digits, .inl rfl⟩

theorem isInteger_chars (integer : isInteger word = true) :
    ∀ c ∈ word, c.isDigit = true ∨ c = '-' := by
  obtain ⟨digits, all, rfl | rfl⟩ := digits_of_isInteger integer
  · intro c member
    exact .inl (all c member)
  · intro c member
    obtain rfl | member := List.mem_cons.mp member
    · exact .inr rfl
    · exact .inl (all c member)

theorem isWordChar_of_isInteger (integer : isInteger word = true) :
    ∀ c ∈ word, isWordChar c = true := by
  intro c member
  obtain digit | rfl := isInteger_chars integer c member
  · exact isWordChar_of_isDigit digit
  · rfl

theorem isFloat_of_isInteger (integer : isInteger word = true) : isFloat word = false := by
  have plain : ∀ c ∈ word, c ≠ 'e' ∧ c ≠ 'E' ∧ c ≠ '.' := by
    intro c member
    obtain digit | rfl := isInteger_chars integer c member
    · refine ⟨?_, ?_, ?_⟩
      all_goals
        rintro rfl
        cases digit
    · decide
  have mantissa : word.takeWhile (fun c => decide (c ≠ 'e' ∧ c ≠ 'E')) = word := by
    rw [List.takeWhile_eq_self_iff]
    intro c member
    simp [plain c member]
  have exponent : word.dropWhile (fun c => decide (c ≠ 'e' ∧ c ≠ 'E')) = [] := by
    rw [List.dropWhile_eq_nil_iff]
    intro c member
    simp [plain c member]
  have fraction : word.dropWhile (fun c => decide (c ≠ '.')) = [] := by
    rw [List.dropWhile_eq_nil_iff]
    intro c member
    simp [plain c member]
  unfold isFloat
  simp only [mantissa, exponent, fraction]
  simp

/-- What a scan stops at, with what is behind it. -/
theorem mem_dropWhile_cases {p : Char → Bool} {l : List Char} {c : Char}
    (member : c ∈ l.dropWhile p) : p c = false ∨ c ∈ (l.dropWhile p).drop 1 := by
  cases stopped : l.dropWhile p with
  | nil => simp [stopped] at member
  | cons d rest =>
      rw [stopped, List.mem_cons] at member
      obtain rfl | member := member
      · left
        have := List.head?_dropWhile_not p l
        simpa [stopped] using this
      · exact .inr (by simpa using member)

theorem isWordChar_of_isFloat (float : isFloat word = true) : ∀ c ∈ word, isWordChar c = true := by
  unfold isFloat at float
  simp only [Bool.and_eq_true, Bool.or_eq_true, List.isEmpty_iff, List.all_eq_true] at float
  obtain ⟨⟨⟨whole, fraction⟩, exponent⟩, -⟩ := float
  intro c member
  rw [← List.takeWhile_append_dropWhile (p := fun c => decide (c ≠ 'e' ∧ c ≠ 'E')) (l := word),
    List.mem_append] at member
  obtain member | member := member
  · generalize word.takeWhile (fun c => decide (c ≠ 'e' ∧ c ≠ 'E')) = mantissa at *
    rw [← List.takeWhile_append_dropWhile (p := fun c => decide (c ≠ '.')) (l := mantissa),
      List.mem_append] at member
    obtain member | member := member
    · exact isWordChar_of_isInteger whole c member
    · obtain empty | ⟨-, digits⟩ := fraction
      · rw [empty] at member
        cases member
      · obtain point | digit := mem_dropWhile_cases member
        · obtain rfl : c = '.' := by simpa using point
          rfl
        · exact isWordChar_of_isDigit (digits c digit)
  · obtain empty | ⟨-, digits⟩ := exponent
    · rw [empty] at member
      cases member
    · obtain sign | power := mem_dropWhile_cases member
      · obtain rfl | rfl : c = 'e' ∨ c = 'E' := by
          simp only [decide_eq_false_iff_not] at sign
          tauto
        all_goals rfl
      · generalize (word.dropWhile fun c => decide (c ≠ 'e' ∧ c ≠ 'E')).drop 1 = power' at *
        split_ifs at digits with signed
        · cases power' with
          | nil => cases power
          | cons d rest =>
              obtain rfl | later := List.mem_cons.mp power
              · obtain rfl | rfl : c = '+' ∨ c = '-' := by simpa using signed
                all_goals rfl
              · exact isWordChar_of_isDigit (digits c later)
        · exact isWordChar_of_isDigit (digits c power)

theorem isDigit_toDigits {n : Nat} : ∀ c ∈ Nat.toDigits 10 n, c.isDigit = true :=
  fun _ member => Nat.isDigit_of_mem_toDigits (by decide) (by decide) member

theorem unsigned_toDigits (n : Nat) : (Nat.toDigits 10 n).head? ≠ some '-' := by
  intro sign
  have digit := isDigit_toDigits '-' (List.mem_of_head? sign)
  cases digit

/-- A positive number does not start with a zero. -/
theorem head?_toDigits {n : Nat} (positive : 0 < n) : (Nat.toDigits 10 n).head? ≠ some '0' := by
  induction n using Nat.strong_induction_on with
  | _ n ih =>
      by_cases small : n < 10
      · rw [Nat.toDigits_of_lt_base small]
        interval_cases n <;> decide
      · rw [Nat.toDigits_of_base_le (by decide) (by omega),
          List.head?_append_of_ne_nil _ Nat.toDigits_ne_nil]
        exact ih (n / 10) (by omega) (by omega)

theorem isInteger_toDigits (n : Nat) : isInteger (Nat.toDigits 10 n) = true := by
  have leading : (Nat.toDigits 10 n).length = 1 ∨ (Nat.toDigits 10 n).head? ≠ some '0' := by
    obtain rfl | positive := Nat.eq_zero_or_pos n
    · exact .inl rfl
    · exact .inr (head?_toDigits positive)
  unfold isInteger
  simp only [unsigned_toDigits, if_false, Bool.and_eq_true, List.all_eq_true, Bool.or_eq_true,
    beq_iff_eq, bne_iff_ne, Bool.not_eq_true', List.isEmpty_eq_false_iff]
  exact ⟨⟨Nat.toDigits_ne_nil, isDigit_toDigits⟩, leading⟩

theorem isInteger_intText (value : Int) : isInteger (intText value) = true := by
  cases value with
  | ofNat n => exact isInteger_toDigits n
  | negSucc n =>
      have digits := isInteger_toDigits (n + 1)
      unfold isInteger at digits ⊢
      simp only [unsigned_toDigits, if_false] at digits
      simpa [intText] using digits

theorem digitsValue_toDigits (n : Nat) : digitsValue (Nat.toDigits 10 n) = n := by
  rw [digitsValue, ← Nat.ofDigitChars_eq_foldl]
  exact Nat.ofDigitChars_toDigits (by decide) (by decide)

theorem intValue_intText (value : Int) : intValue (intText value) = value := by
  cases value with
  | ofNat n => simp [intValue, intText, unsigned_toDigits, digitsValue_toDigits]
  | negSucc n =>
      simp only [intValue, intText, List.head?_cons, if_true, List.drop_one, List.tail_cons,
        digitsValue_toDigits]
      omega

theorem atom_float {x : ℚ} (is_float : floats.representable x) :
    atom floats (floats.repr x) = some (.float x) := by
  simp [atom, floats.literal x is_float, floats.read_repr x is_float]

theorem atom_int (value : Int) : atom floats (intText value) = some (.int value) := by
  have integer := isInteger_intText value
  simp [atom, isFloat_of_isInteger integer, integer, intValue_intText]

end Literals

section Values

theorem text_str {s : String} : text floats (.str s) = quoted s := rfl

theorem text_arr {items : List Json} :
    text floats (.arr items) = '[' :: (itemsText floats items ++ [']']) := rfl

theorem text_obj {fields : List (String × Json)} :
    text floats (.obj fields) = '\x7b' :: (fieldsText floats fields ++ ['\x7d']) := rfl

/-- The value has been read: it is where it belongs, or still an open word. -/
def Stands (floats : Format) (value : Json) (stack : List Frame) (reader : Reader) : Prop :=
  complete value stack = some reader ∨
    ∃ word, reader = ⟨stack, .word word⟩ ∧ atom floats word = some value

theorem complete_mode (completed : complete value stack = some reader) :
    reader.mode = .after ∨ ∃ result, reader.mode = .done result := by
  unfold complete at completed
  split at completed
  · cases completed
    exact .inr ⟨value, rfl⟩
  · cases completed
    exact .inl rfl
  · cases completed
    exact .inl rfl
  · cases completed

/-- What follows a value is read behind it, whether it is a word or not. -/
theorem Stands.step {next : Reader} {c : Char} (stands : Stands floats value stack reader)
    (completed : complete value stack = some next) (delimiter : isWordChar c = false) :
    step floats reader c = stepAfter next c := by
  obtain same | ⟨word, rfl, read⟩ := stands
  · obtain rfl : next = reader := Option.some.inj (completed.symm.trans same)
    obtain after | ⟨result, done⟩ := complete_mode completed
    · simp [Json.step, after]
    · simp [Json.step, done]
  · simp [Json.step, delimiter, read, completed]

theorem run_word_value {closes : Bool} (read : atom floats word = some value) (nonempty : word ≠ [])
    (in_word : ∀ c ∈ word, isWordChar c = true) :
    ∃ reader, run floats ⟨stack, .value closes⟩ word = some reader ∧
      Stands floats value stack reader :=
  ⟨_, run_word nonempty in_word, .inr ⟨word, rfl, read⟩⟩

theorem run_keyword {closes : Bool} (word : String) (printed : text floats value = word.toList)
    (read : atom floats word.toList = some value) (nonempty : word.toList ≠ [])
    (in_word : word.toList.all isWordChar = true) :
    ∃ reader, run floats ⟨stack, .value closes⟩ (text floats value) = some reader ∧
      Stands floats value stack reader := by
  rw [printed]
  exact run_word_value read nonempty (List.all_eq_true.mp in_word)

/-- The items of an array, to the end of it. -/
theorem run_itemsText {items done : List Json} {closes : Bool}
    (read : ∀ item ∈ items, ∀ stack closes, (complete item stack).isSome →
      ∃ reader, run floats ⟨stack, .value closes⟩ (text floats item) = some reader ∧
        Stands floats item stack reader)
    (opened : items = [] → closes = true) :
    run floats ⟨.array done :: stack, .value closes⟩ (itemsText floats items ++ [']']) =
      complete (.arr (done ++ items)) stack := by
  induction items generalizing done closes with
  | nil =>
      obtain rfl := opened rfl
      rw [List.append_nil, itemsText, List.nil_append, run_cons]
      have closed : Json.step floats ⟨.array done :: stack, .value true⟩ ']' =
        complete (.arr done) stack := rfl
      rw [closed]
      cases complete (.arr done) stack <;> rfl
  | cons item rest ih =>
      obtain ⟨reader, ran, stands⟩ := read item (by simp) (.array done :: stack) closes rfl
      cases rest with
      | nil =>
          rw [itemsText, run_append, ran, Option.bind_some, run_cons, stands.step rfl rfl]
          have closed : stepAfter ⟨.array (done ++ [item]) :: stack, .after⟩ ']' =
            complete (.arr (done ++ [item])) stack := rfl
          rw [closed]
          cases complete (.arr (done ++ [item])) stack <;> rfl
      | cons second later =>
          have split : itemsText floats (item :: second :: later) ++ [']'] = text floats item ++
              (',' :: ' ' :: (itemsText floats (second :: later) ++ [']'])) := by
            simp [itemsText]
          rw [split, run_append, ran, Option.bind_some, run_cons, stands.step rfl rfl]
          have comma : stepAfter ⟨.array (done ++ [item]) :: stack, .after⟩ ',' =
            some ⟨.array (done ++ [item]) :: stack, .value false⟩ := rfl
          have blank : Json.step floats ⟨.array (done ++ [item]) :: stack, .value false⟩ ' ' =
            some ⟨.array (done ++ [item]) :: stack, .value false⟩ := rfl
          rw [comma, Option.bind_some, run_cons, blank, Option.bind_some,
            ih (fun item member => read item (by simp [member])) (by simp)]
          simp

theorem set_new {fields : Object} {key : String} (fresh : key ∉ fields.map Prod.fst) :
    Object.set fields key value = fields ++ [(key, value)] := by
  have absent : Object.has fields key = false := by
    simp only [Object.has, List.any_eq_false, decide_eq_true_eq]
    intro field member same
    exact fresh (List.mem_map.mpr ⟨field, member, same⟩)
  simp [Object.set, absent]

/-- A member of an object, up to what follows it. -/
theorem run_member {fields : Object} {key : String} {closes : Bool}
    (read : ∀ stack closes, (complete value stack).isSome →
      ∃ reader, run floats ⟨stack, .value closes⟩ (text floats value) = some reader ∧
        Stands floats value stack reader) (fresh : key ∉ fields.map Prod.fst) :
    ∃ reader, run floats ⟨.object fields :: stack, .key closes⟩
        (quoted key ++ ": ".toList ++ text floats value) = some reader ∧
      ∀ c, isWordChar c = false →
        Json.step floats reader c =
          stepAfter ⟨.object (fields ++ [(key, value)]) :: stack, .after⟩ c := by
  obtain ⟨reader, ran, stands⟩ := read (.member fields key :: stack) false rfl
  refine ⟨reader, ?_, ?_⟩
  · have colon : run floats ⟨.member fields key :: stack, .colon⟩ ": ".toList =
        some ⟨.member fields key :: stack, .value false⟩ := rfl
    rw [run_append, run_append, run_quoted_key, Option.bind_some, colon, Option.bind_some, ran]
  · intro c delimiter
    rw [← set_new fresh]
    exact stands.step rfl delimiter

/-- The members of an object, to the end of it. -/
theorem run_fieldsText {fields done : Object} {closes : Bool}
    (read : ∀ field ∈ fields, ∀ stack closes, (complete field.2 stack).isSome →
      ∃ reader, run floats ⟨stack, .value closes⟩ (text floats field.2) = some reader ∧
        Stands floats field.2 stack reader)
    (distinct : ((done ++ fields).map Prod.fst).Nodup) (opened : fields = [] → closes = true) :
    run floats ⟨.object done :: stack, .key closes⟩ (fieldsText floats fields ++ ['\x7d']) =
      complete (.obj (done ++ fields)) stack := by
  induction fields generalizing done closes with
  | nil =>
      obtain rfl := opened rfl
      rw [List.append_nil, fieldsText, List.nil_append, run_cons]
      have closed : Json.step floats ⟨.object done :: stack, .key true⟩ '\x7d' =
        complete (.obj done) stack := rfl
      rw [closed]
      cases complete (.obj done) stack <;> rfl
  | cons field rest ih =>
      obtain ⟨key, value⟩ := field
      have fresh : key ∉ done.map Prod.fst := by
        rw [List.map_append, List.nodup_append] at distinct
        intro member
        exact distinct.2.2 key member key (by simp) rfl
      obtain ⟨reader, ran, follows⟩ :=
        @run_member _ stack _ _ _ closes (read (key, value) (by simp)) fresh
      cases rest with
      | nil =>
          rw [fieldsText, run_append, ran, Option.bind_some, run_cons, follows _ rfl]
          have closed : stepAfter ⟨.object (done ++ [(key, value)]) :: stack, .after⟩ '\x7d' =
            complete (.obj (done ++ [(key, value)])) stack := rfl
          rw [closed]
          cases complete (.obj (done ++ [(key, value)])) stack <;> rfl
      | cons second later =>
          have split : fieldsText floats ((key, value) :: second :: later) ++ ['\x7d'] =
              quoted key ++ ": ".toList ++ text floats value ++
                (',' :: ' ' :: (fieldsText floats (second :: later) ++ ['\x7d'])) := by
            simp [fieldsText]
          rw [split, run_append, ran, Option.bind_some, run_cons, follows _ rfl]
          have comma : stepAfter ⟨.object (done ++ [(key, value)]) :: stack, .after⟩ ',' =
            some ⟨.object (done ++ [(key, value)]) :: stack, .key false⟩ := rfl
          have blank :
              Json.step floats ⟨.object (done ++ [(key, value)]) :: stack, .key false⟩ ' ' =
            some ⟨.object (done ++ [(key, value)]) :: stack, .key false⟩ := rfl
          have apart : (((done ++ [(key, value)]) ++ second :: later).map Prod.fst).Nodup := by
            simpa using distinct
          rw [comma, Option.bind_some, run_cons, blank, Option.bind_some,
            ih (fun field member => read field (by simp [member])) apart (by simp)]
          simp

/-- The reader gets back each proper value from its text. -/
theorem run_text (proper : Proper floats value) : ∀ stack closes, (complete value stack).isSome →
    ∃ reader, run floats ⟨stack, .value closes⟩ (text floats value) = some reader ∧
      Stands floats value stack reader := by
  induction proper with
  | null =>
      intro stack closes _
      exact run_keyword "null" rfl rfl (by decide) (by decide)
  | bool value =>
      intro stack closes _
      cases value with
      | true => exact run_keyword "true" rfl rfl (by decide) (by decide)
      | false => exact run_keyword "false" rfl rfl (by decide) (by decide)
  | int value =>
      intro stack closes _
      have integer := isInteger_intText value
      apply run_word_value (atom_int value)
      · intro empty
        rw [empty] at integer
        cases integer
      · exact isWordChar_of_isInteger integer
  | float value is_float =>
      intro stack closes _
      have literal := floats.literal value is_float
      apply run_word_value (atom_float is_float)
      · intro empty
        rw [empty] at literal
        cases literal
      · exact isWordChar_of_isFloat literal
  | nan =>
      intro stack closes _
      exact run_keyword "NaN" rfl rfl (by decide) (by decide)
  | infinity negative =>
      intro stack closes _
      cases negative with
      | true => exact run_keyword "-Infinity" rfl rfl (by decide) (by decide)
      | false => exact run_keyword "Infinity" rfl rfl (by decide) (by decide)
  | str value =>
      intro stack closes fits
      obtain ⟨reader, completed⟩ := Option.isSome_iff_exists.mp fits
      exact ⟨reader, by rw [text_str, run_quoted_value, completed], .inl completed⟩
  | arr items proper ih =>
      intro stack closes fits
      obtain ⟨reader, completed⟩ := Option.isSome_iff_exists.mp fits
      have opened : Json.step floats ⟨stack, .value closes⟩ '[' =
        some ⟨.array [] :: stack, .value true⟩ := rfl
      refine ⟨reader, ?_, .inl completed⟩
      rw [text_arr, run_cons, opened, Option.bind_some, run_itemsText ih (fun _ => rfl),
        List.nil_append, completed]
  | obj fields distinct proper ih =>
      intro stack closes fits
      obtain ⟨reader, completed⟩ := Option.isSome_iff_exists.mp fits
      have opened : Json.step floats ⟨stack, .value closes⟩ '\x7b' =
        some ⟨.object [] :: stack, .key true⟩ := rfl
      refine ⟨reader, ?_, .inl completed⟩
      rw [text_obj, run_cons, opened, Option.bind_some,
        run_fieldsText ih (by simpa using distinct) (fun _ => rfl), List.nil_append, completed]

/-- `json.loads` inverts `json.dumps` on proper values. -/
theorem loads_text (proper : Proper floats value) :
    loads floats (text floats value) = some value := by
  obtain ⟨reader, ran, stands⟩ := run_text proper [] false rfl
  rw [loads, ran, Option.bind_some]
  obtain same | ⟨word, rfl, read⟩ := stands
  · cases same
    rfl
  · exact read

end Values
section Composition

/-- A property of the parts that the texts of values are put together from. -/
structure Composes (property : List Char → Prop) : Prop where
  append : ∀ {a b}, property a → property b → property (a ++ b)
  quoted : ∀ s, property (quoted s)
  word : ∀ {word : List Char}, (∀ c ∈ word, isWordChar c = true) → property word
  mark : ∀ c ∈ "[]\x7b\x7d,: ".toList, property [c]

namespace Composes

variable {property : List Char → Prop}

theorem keyword (composes : Composes property) (word : String)
    (in_word : word.toList.all isWordChar = true) : property word.toList :=
  composes.word (List.all_eq_true.mp in_word)

theorem comma (composes : Composes property) : property ", ".toList :=
  composes.append (composes.mark ',' (by decide)) (composes.mark ' ' (by decide))

theorem member (composes : Composes property) (key : String)
    (holds : property (text floats value)) :
    property (Json.quoted key ++ ": ".toList ++ text floats value) :=
  composes.append (composes.append (composes.quoted key)
    (composes.append (composes.mark ':' (by decide)) (composes.mark ' ' (by decide)))) holds

theorem itemsText (composes : Composes property) {items : List Json}
    (each : ∀ item ∈ items, property (text floats item)) : property (itemsText floats items) := by
  induction items with
  | nil => exact composes.keyword "" rfl
  | cons item rest ih =>
      cases rest with
      | nil => exact each item (by simp)
      | cons second later =>
          have rest := ih fun item member => each item (by simp [member])
          exact composes.append (composes.append (each item (by simp)) composes.comma) rest

theorem fieldsText (composes : Composes property) {fields : List (String × Json)}
    (each : ∀ field ∈ fields, property (text floats field.2)) :
    property (fieldsText floats fields) := by
  induction fields with
  | nil => exact composes.keyword "" rfl
  | cons field rest ih =>
      obtain ⟨key, value⟩ := field
      have first : property (text floats value) := each (key, value) (by simp)
      cases rest with
      | nil => exact composes.member key first
      | cons second later =>
          have rest := ih fun field inside => each field (by simp [inside])
          exact composes.append (composes.append (composes.member key first) composes.comma) rest

/-- A property of the parts is one of the text of each proper value. -/
theorem text (composes : Composes property) (proper : Proper floats value) :
    property (text floats value) := by
  induction proper with
  | null => exact composes.keyword "null" (by decide)
  | bool value =>
      cases value with
      | true => exact composes.keyword "true" (by decide)
      | false => exact composes.keyword "false" (by decide)
  | int value => exact composes.word (isWordChar_of_isInteger (isInteger_intText value))
  | float value is_float =>
      exact composes.word (isWordChar_of_isFloat (floats.literal value is_float))
  | nan => exact composes.keyword "NaN" (by decide)
  | infinity negative =>
      cases negative with
      | true => exact composes.keyword "-Infinity" (by decide)
      | false => exact composes.keyword "Infinity" (by decide)
  | str value => exact composes.quoted value
  | arr items proper ih =>
      exact composes.append (composes.mark '[' (by decide))
        (composes.append (composes.itemsText ih) (composes.mark ']' (by decide)))
  | obj fields distinct proper ih =>
      exact composes.append (composes.mark '\x7b' (by decide))
        (composes.append (composes.fieldsText ih) (composes.mark '\x7d' (by decide)))

end Composes

end Composition

/-- Arrays that are opened in each other become too deep, whatever is behind them. -/
theorem readWithin_nested {depth n : Nat} {closes : Bool} (inside : stack.length ≤ depth)
    (deep : depth < stack.length + n) :
    readWithin floats depth ⟨stack, .value closes⟩ (List.replicate n '[' ++ a) =
      .recursionError := by
  induction n generalizing stack closes with
  | zero => omega
  | succ n ih =>
      have opened : step floats ⟨stack, .value closes⟩ '[' =
        some ⟨.array [] :: stack, .value true⟩ := rfl
      rw [List.replicate_succ, List.cons_append, readWithin, opened]
      simp only [overlong, Bool.false_and, Bool.false_eq_true, if_false, List.length_cons]
      split_ifs with beyond
      · rfl
      · refine ih ?_ ?_
        all_goals
          rw [List.length_cons]
          omega

end MultiAgent.Plugin.Json
