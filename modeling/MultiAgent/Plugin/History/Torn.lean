import MultiAgent.Plugin.Json.RoundTrip

/-!
# Records behind a torn one

A JSON text that was cut off behind its first brace, with the text of a whole record on
the same line behind it, is not read (`loads_torn`). If the text was cut off in a string,
the record turns it inside out, and the letters of its key `index` are no words. If not,
the record is at best a value of what was cut off, which stays open.
-/

namespace MultiAgent.Plugin.Json
variable {floats : Format} {reader next : Reader} {stack : List Frame} {a b word : List Char}
  {value : Json} {c : Char}

/-- The reader is in a string, between two characters of it. -/
def InString (reader : Reader) : Prop := ∃ key chars high, reader.mode = .string key chars high

/-- The reader is not in a string. -/
def Outside (reader : Reader) : Prop :=
  match reader.mode with
  | .string .. | .escape .. | .unicode .. => False
  | _ => True

theorem outside_complete (completed : complete value stack = some reader) : Outside reader := by
  obtain after | ⟨result, done⟩ := complete_mode completed
  · simp [Outside, after]
  · simp [Outside, done]

theorem outside_stepAfter (outside : Outside reader) (stepped : stepAfter reader c = some next) :
    Outside next := by
  rw [stepAfter.eq_def] at stepped
  split_ifs at stepped
  · cases stepped
    exact outside
  · split at stepped
    · cases stepped
      trivial
    · exact outside_complete stepped
    · cases stepped
      trivial
    · exact outside_complete stepped
    · cases stepped

theorem outside_step (outside : Outside reader) (other : c ≠ '"')
    (stepped : step floats reader c = some next) : Outside next := by
  obtain ⟨stack, mode⟩ := reader
  cases mode with
  | value closes =>
      simp only [step, stepValue, other, if_false] at stepped
      split_ifs at stepped
      · cases stepped
        trivial
      · cases stepped
        trivial
      · cases stepped
        trivial
      · split at stepped
        · exact outside_complete stepped
        · cases stepped
      · cases stepped
        trivial
  | key closes =>
      simp only [step, stepKey, other, if_false] at stepped
      split_ifs at stepped
      · cases stepped
        trivial
      · split at stepped
        · exact outside_complete stepped
        · cases stepped
  | colon =>
      simp only [step] at stepped
      split_ifs at stepped
      all_goals
        cases stepped
        trivial
  | after => exact outside_stepAfter outside stepped
  | done result => exact outside_stepAfter outside stepped
  | word chars =>
      simp only [step] at stepped
      split_ifs at stepped
      · cases stepped
        trivial
      · obtain ⟨value, -, rest⟩ := Option.bind_eq_some_iff.mp stepped
        obtain ⟨completed, done, rest⟩ := Option.bind_eq_some_iff.mp rest
        exact outside_stepAfter (outside_complete done) rest
  | _ => exact absurd outside id

theorem stepAfter_stray (blank : isBlank c = false) (other : c ∉ [',', ']', '\x7d']) :
    stepAfter reader c = none := by
  simp only [List.mem_cons, List.not_mem_nil, or_false, not_or] at other
  obtain ⟨comma, bracket, brace⟩ := other
  rw [stepAfter.eq_def]
  rw [blank, if_neg Bool.false_ne_true]
  split
  · exact absurd rfl comma
  · exact absurd rfl bracket
  · exact absurd rfl comma
  · exact absurd rfl brace
  · rfl

theorem step_word_stray {chars : List Char} (blank : isBlank c = false)
    (other : c ∉ [',', ']', '\x7d']) (delimiter : isWordChar c = false) :
    step floats ⟨stack, .word chars⟩ c = none := by
  simp only [step, delimiter]
  cases atom floats chars with
  | none => rfl
  | some value =>
      cases completed : complete value stack with
      | none => simp [completed]
      | some reader => simpa [completed] using stepAfter_stray blank other

/-- Outside of a string, a quote opens one. -/
theorem inString_of_quote (outside : Outside reader)
    (stepped : step floats reader '"' = some next) : InString next := by
  obtain ⟨stack, mode⟩ := reader
  cases mode with
  | value closes =>
      cases stepped
      exact ⟨_, _, _, rfl⟩
  | key closes =>
      cases stepped
      exact ⟨_, _, _, rfl⟩
  | colon => cases stepped
  | word chars => rw [step_word_stray rfl (by decide) rfl] at stepped; cases stepped
  | after => cases stepped.symm.trans (stepAfter_stray rfl (by decide))
  | done result => cases stepped.symm.trans (stepAfter_stray rfl (by decide))
  | _ => exact absurd outside id

/-- Outside of a string, what is neither blank nor a part of a word or of the structure is
an error. -/
theorem step_stray (outside : Outside reader) (delimiter : isWordChar c = false)
    (stray : c ∉ " \t\n\r,:[]\x7b\x7d\"".toList) : step floats reader c = none := by
  have plain : isBlank c = false ∧ c ∉ [',', ']', '\x7d'] ∧ c ≠ ':' ∧ c ≠ '[' ∧ c ≠ ']' ∧
      c ≠ '\x7b' ∧ c ≠ '\x7d' ∧ c ≠ '"' := by
    simp at stray
    simp [isBlank, stray]
  obtain ⟨blank, other, colon, bracket, close, brace, unbrace, quote⟩ := plain
  obtain ⟨stack, mode⟩ := reader
  cases mode with
  | value closes => simp [step, stepValue, blank, quote, bracket, brace, close, delimiter]
  | key closes => simp [step, stepKey, blank, quote, unbrace]
  | colon => simp [step, blank, colon]
  | word chars => exact step_word_stray blank other delimiter
  | after => exact stepAfter_stray blank other
  | done result => exact stepAfter_stray blank other
  | _ => exact absurd outside id

theorem inString_step (inside : InString reader) (quote : c ≠ '"') (backslash : c ≠ '\\')
    (stepped : step floats reader c = some next) : InString next := by
  obtain ⟨stack, mode⟩ := reader
  obtain ⟨key, chars, high, rfl⟩ := inside
  simp only [step, stepString, quote, backslash, if_false] at stepped
  split_ifs at stepped
  cases stepped
  exact ⟨_, _, _, rfl⟩

theorem outside_of_quote (inside : InString reader) (stepped : step floats reader '"' = some next) :
    Outside next := by
  obtain ⟨stack, mode⟩ := reader
  obtain ⟨key, chars, high, rfl⟩ := inside
  have quote : ('"' : Char) ≠ '\\' := by decide
  simp only [step, stepString, quote, if_false, if_true] at stepped
  rw [closeString.eq_def] at stepped
  split_ifs at stepped
  · split at stepped
    · cases stepped
      trivial
    · cases stepped
  · exact outside_complete stepped

/-- Where the text leads from the states of one kind, if it is read at all. -/
def Leads (floats : Format) (start stop : Reader → Prop) (text : List Char) : Prop :=
  ∀ reader next, start reader → run floats reader text = some next → stop next

namespace Leads

variable {start middle stop : Reader → Prop}

theorem nil : Leads floats start start [] := by
  intro reader next holds ran
  cases ran
  exact holds

theorem append (first : Leads floats start middle a) (second : Leads floats middle stop b) :
    Leads floats start stop (a ++ b) := by
  intro reader next holds ran
  rw [run_append, Option.bind_eq_some_iff] at ran
  obtain ⟨between, ran, rest⟩ := ran
  exact second between next (first reader between holds ran) rest

theorem single
    (leads : ∀ reader next, start reader → step floats reader c = some next → stop next) :
    Leads floats start stop [c] := by
  intro reader next holds ran
  rw [run_cons, Option.bind_eq_some_iff] at ran
  obtain ⟨reached, stepped, rest⟩ := ran
  cases rest
  exact leads reader next holds stepped

theorem cons (first : Leads floats start middle [c]) (second : Leads floats middle stop b) :
    Leads floats start stop (c :: b) :=
  append first second

theorem stuck (leads : Leads floats start (fun _ => False) a) (holds : start reader) :
    run floats reader (a ++ b) = none := by
  rw [run_append]
  cases ran : run floats reader a with
  | none => rfl
  | some next => exact absurd (leads reader next holds ran) id

theorem flatMap {α : Type} {l : List α} {f : α → List Char}
    (each : ∀ x ∈ l, Leads floats start start (f x)) : Leads floats start start (l.flatMap f) := by
  induction l with
  | nil => exact nil
  | cons x rest ih =>
      rw [List.flatMap_cons]
      exact append (each x (by simp)) (ih fun y member => each y (by simp [member]))

/-- In a string, a text without quotes and backslashes belongs to the string. -/
theorem inString (plain : ∀ c ∈ a, c ≠ '"' ∧ c ≠ '\\') : Leads floats InString InString a := by
  induction a with
  | nil => exact nil
  | cons c rest ih =>
      have first : Leads floats InString InString [c] := single fun reader next inside stepped =>
        inString_step inside (plain c (by simp)).1 (plain c (by simp)).2 stepped
      exact cons first (ih fun c member => plain c (by simp [member]))

theorem opens : Leads floats Outside InString ['"'] :=
  single fun _ _ outside stepped => inString_of_quote outside stepped

theorem closes : Leads floats InString Outside ['"'] :=
  single fun _ _ inside stepped => outside_of_quote inside stepped

theorem escape_cases (c : Char) :
    escape c = [c] ∧ c ≠ '"' ∨ ∃ rest, escape c = '\\' :: rest := by
  rw [escape]
  split_ifs with quote
  all_goals first
    | exact .inr ⟨_, rfl⟩
    | exact .inl ⟨rfl, quote⟩

/-- Outside of a string, the inside of one does not open a string. -/
theorem outside (chars : List Char) : Leads floats Outside Outside (chars.flatMap escape) := by
  induction chars with
  | nil => exact nil
  | cons c rest ih =>
      have first : Leads floats Outside Outside (escape c) := by
        obtain ⟨same, quote⟩ | ⟨tail, escaped⟩ := escape_cases c
        · rw [same]
          exact single fun reader next outside stepped => outside_step outside quote stepped
        · rw [escaped]
          intro reader next outside ran
          rw [run_cons, step_stray outside rfl (by decide)] at ran
          cases ran
      exact append first ih

/-- A string inside of a string ends it and starts another one. -/
theorem quoted (s : String) : Leads floats InString InString (quoted s) :=
  cons closes (append (outside s.toList) opens)

/-- In a string, each part of a text leads to the inside of a string. -/
theorem composes : Composes (Leads floats InString InString) where
  append := append
  quoted := quoted
  word := by
    intro word in_word
    apply inString
    intro c member
    constructor
    all_goals
      rintro rfl
      cases in_word _ member
  mark := by
    intro c mark
    apply inString
    have plain : ∀ c ∈ "[]\x7b\x7d,: ".toList, c ≠ '"' ∧ c ≠ '\\' := by
      rw [← List.forall_iff_forall_mem]
      decide
    intro d same
    rw [List.mem_singleton.mp same]
    exact plain c mark

end Leads

theorem fieldsText_append (floats : Format) (before after : List (String × Json))
    (key : String) (value : Json) :
    ∃ rest, fieldsText floats (before ++ (key, value) :: after) =
      (before.flatMap fun field =>
        quoted field.1 ++ ": ".toList ++ text floats field.2 ++ ", ".toList) ++
          quoted key ++ rest := by
  induction before with
  | nil =>
      cases after with
      | nil => exact ⟨": ".toList ++ text floats value, by simp [fieldsText]⟩
      | cons second later =>
          refine ⟨": ".toList ++ text floats value ++ ", ".toList ++
            fieldsText floats (second :: later), ?_⟩
          simp [fieldsText]
  | cons field before ih =>
      obtain ⟨rest, split⟩ := ih
      refine ⟨rest, ?_⟩
      obtain ⟨first, value'⟩ := field
      rw [List.flatMap_cons, List.append_assoc, List.append_assoc, ← List.append_assoc _ _ rest,
        ← split]
      cases before <;> simp [fieldsText]

/-- In a string, the text of an object turns its strings inside out, and the letters of a
key are no words. -/
theorem run_inString {fields : Object} (proper : Proper floats (.obj fields))
    (indexed : "index" ∈ fields.map Prod.fst) (inside : InString reader) :
    run floats reader (text floats (.obj fields)) = none := by
  obtain ⟨⟨key, value⟩, member, rfl : key = "index"⟩ := List.mem_map.mp indexed
  obtain ⟨before, after, rfl⟩ := List.append_of_mem member
  cases proper with
  | obj _ _ proper =>
      have earlier : Leads floats InString InString (before.flatMap fun field =>
          quoted field.1 ++ ": ".toList ++ text floats field.2 ++ ", ".toList) :=
        .flatMap fun field inside =>
          .append (Leads.composes.member field.1
            (Leads.composes.text (proper field (by simp [inside])))) Leads.composes.comma
      have next (c : Char) (letter : c ≠ '"') : Leads floats Outside Outside [c] :=
        .single fun _ _ outside stepped => outside_step outside letter stepped
      have stop : Leads floats Outside (fun _ => False) ['d'] :=
        .single fun _ _ outside stepped => by
          rw [step_stray outside rfl (by decide)] at stepped
          cases stepped
      have key : Leads floats InString (fun _ => False) "\"ind".toList :=
        .cons .closes (.cons (next 'i' (by decide)) (.cons (next 'n' (by decide)) stop))
      obtain ⟨rest, split⟩ := fieldsText_append floats before after "index" value
      have letters : quoted "index" = "\"ind".toList ++ "ex\"".toList := rfl
      have brace : Leads floats InString InString ['\x7b'] := Leads.composes.mark '\x7b' (by decide)
      rw [text_obj, split, letters]
      have stuck := (Leads.cons brace (.append earlier key)).stuck
        (b := "ex\"".toList ++ rest ++ ['\x7d']) inside
      simpa using stuck

/-- In an array or an object, or with a value behind. -/
def Grounded (reader : Reader) : Prop := reader.stack ≠ [] ∨ ∃ value, reader.mode = .done value

theorem grounded_complete (completed : complete value stack = some reader) : Grounded reader := by
  rw [complete.eq_def] at completed
  split at completed
  · cases completed
    exact .inr ⟨value, rfl⟩
  · cases completed
    exact .inl (List.cons_ne_nil _ _)
  · cases completed
    exact .inl (List.cons_ne_nil _ _)
  · cases completed

theorem grounded_stepAfter (grounded : Grounded reader)
    (stepped : stepAfter reader c = some next) : Grounded next := by
  rw [stepAfter.eq_def] at stepped
  split_ifs at stepped
  · cases stepped
    exact grounded
  · split at stepped
    · cases stepped
      exact .inl (List.cons_ne_nil _ _)
    · exact grounded_complete stepped
    · cases stepped
      exact .inl (List.cons_ne_nil _ _)
    · exact grounded_complete stepped
    · cases stepped

section Modes

variable {closes key : Bool} {chars : List Char} {high : Option Nat}

theorem grounded_stepValue (nonempty : stack ≠ [])
    (stepped : stepValue closes stack c = some next) : Grounded next := by
  rw [stepValue.eq_def] at stepped
  split_ifs at stepped
  · cases stepped
    exact .inl nonempty
  · cases stepped
    exact .inl nonempty
  · cases stepped
    exact .inl (List.cons_ne_nil _ _)
  · cases stepped
    exact .inl (List.cons_ne_nil _ _)
  · split at stepped
    · exact grounded_complete stepped
    · cases stepped
  · cases stepped
    exact .inl nonempty

theorem grounded_stepKey (nonempty : stack ≠ [])
    (stepped : stepKey closes stack c = some next) : Grounded next := by
  rw [stepKey.eq_def] at stepped
  split_ifs at stepped
  · cases stepped
    exact .inl nonempty
  · cases stepped
    exact .inl nonempty
  · split at stepped
    · exact grounded_complete stepped
    · cases stepped

theorem grounded_closeString (closed : closeString key chars stack = some next) :
    Grounded next := by
  rw [closeString.eq_def] at closed
  split_ifs at closed
  · split at closed
    · cases closed
      exact .inl (List.cons_ne_nil _ _)
    · cases closed
  · exact grounded_complete closed

theorem grounded_stepString (nonempty : stack ≠ [])
    (stepped : stepString floats key chars high stack c = some next) : Grounded next := by
  rw [stepString] at stepped
  split_ifs at stepped
  · cases stepped
    exact .inl nonempty
  · exact grounded_closeString stepped
  · cases stepped
    exact .inl nonempty

theorem grounded_stepEscape (nonempty : stack ≠ [])
    (stepped : stepEscape floats key chars high stack c = some next) : Grounded next := by
  rw [stepEscape] at stepped
  split_ifs at stepped
  · cases stepped
    exact .inl nonempty
  · obtain ⟨escaped, -, same⟩ := Option.map_eq_some_iff.mp stepped
    cases same
    exact .inl nonempty

end Modes

theorem grounded_step (grounded : Grounded reader) (stepped : step floats reader c = some next) :
    Grounded next := by
  obtain ⟨stack, mode⟩ := reader
  have inner (undone : ∀ value, mode ≠ .done value) : stack ≠ [] := by
    obtain nonempty | ⟨value, done⟩ := grounded
    · exact nonempty
    · exact absurd done (undone value)
  cases mode with
  | value closes => exact grounded_stepValue (inner (by simp)) stepped
  | key closes => exact grounded_stepKey (inner (by simp)) stepped
  | colon =>
      have nonempty := inner (by simp)
      simp only [step] at stepped
      split_ifs at stepped
      all_goals
        cases stepped
        exact .inl nonempty
  | after => exact grounded_stepAfter grounded stepped
  | done result => exact grounded_stepAfter grounded stepped
  | word chars =>
      have nonempty := inner (by simp)
      simp only [step] at stepped
      split_ifs at stepped
      · cases stepped
        exact .inl nonempty
      · obtain ⟨value, -, rest⟩ := Option.bind_eq_some_iff.mp stepped
        obtain ⟨completed, done, rest⟩ := Option.bind_eq_some_iff.mp rest
        exact grounded_stepAfter (grounded_complete done) rest
  | string key chars high => exact grounded_stepString (inner (by simp)) stepped
  | escape key chars high => exact grounded_stepEscape (inner (by simp)) stepped
  | unicode key chars high digits =>
      have nonempty := inner (by simp)
      simp only [step] at stepped
      obtain ⟨digit, -, rest⟩ := Option.bind_eq_some_iff.mp stepped
      split_ifs at rest
      · cases rest
        exact .inl nonempty
      · cases rest
        exact .inl nonempty

theorem grounded_run (grounded : Grounded reader) (ran : run floats reader a = some next) :
    Grounded next := by
  induction a generalizing reader with
  | nil =>
      cases ran
      exact grounded
  | cons c rest ih =>
      rw [run_cons, Option.bind_eq_some_iff] at ran
      obtain ⟨between, stepped, rest⟩ := ran
      exact ih (grounded_step grounded stepped) rest

/-- A text that was cut off behind its first brace, with the text of an object behind it,
is no JSON text. -/
theorem loads_torn {fields : Object} (proper : Proper floats (.obj fields))
    (indexed : "index" ∈ fields.map Prod.fst) (torn : List Char) :
    loads floats ('\x7b' :: torn ++ text floats (.obj fields)) = none := by
  rw [loads, run_append]
  cases ran : run floats ⟨[], .value false⟩ ('\x7b' :: torn) with
  | none => rfl
  | some reader =>
      have grounded : Grounded reader := by
        rw [run_cons] at ran
        exact grounded_run (.inl (by simp)) ran
      rw [Option.bind_some, Option.bind_eq_none_iff]
      intro final completed
      obtain ⟨stack, mode⟩ := reader
      have opened : (step floats ⟨stack, mode⟩ '\x7b').isSome := by
        rw [text_obj, run_cons] at completed
        obtain ⟨next, stepped, -⟩ := Option.bind_eq_some_iff.mp completed
        simp [stepped]
      cases mode with
      | value closes =>
          -- the object is read whole, into what the torn text left open
          cases proper with
          | obj _ distinct proper =>
              have start : step floats ⟨stack, .value closes⟩ '\x7b' =
                some ⟨.object [] :: stack, .key true⟩ := rfl
              rw [text_obj, run_cons, start, Option.bind_some,
                run_fieldsText (fun field member => run_text (proper field member))
                  (by simpa using distinct) (fun _ => rfl)] at completed
              cases stack with
              | nil =>
                  obtain nonempty | ⟨value, done⟩ := grounded
                  · exact absurd rfl nonempty
                  · cases done
              | cons frame rest =>
                  cases frame with
                  | array items =>
                      cases completed
                      rfl
                  | object fields => cases completed
                  | member fields key =>
                      cases completed
                      rfl
      | key closes => cases opened
      | colon => cases opened
      | after =>
          have stray : step floats ⟨stack, .after⟩ '\x7b' = none := stepAfter_stray rfl (by decide)
          rw [stray] at opened
          cases opened
      | done result =>
          have stray : step floats ⟨stack, .done result⟩ '\x7b' = none :=
            stepAfter_stray rfl (by decide)
          rw [stray] at opened
          cases opened
      | word chars =>
          rw [step_word_stray rfl (by decide) rfl] at opened
          cases opened
      | string key chars high =>
          rw [run_inString proper indexed ⟨_, _, _, rfl⟩] at completed
          cases completed
      | escape key chars high => simp [step, stepEscape, unescape] at opened
      | unicode key chars high digits => cases opened

end MultiAgent.Plugin.Json
