import MultiAgent.Native.Json

/-!
# JSON text read from inside a string

Outside of its strings, the text of a value without numbers and keywords has marks only, and
inside of them no bare quotes. So a text that is cut out behind a place inside a string is read
with the two exchanged: what it takes for strings are marks, and no key of what it is read for is
a word (`mute_of_parse`).
-/

namespace MultiAgent.Native

namespace Json

open CodeUnit

/-- The code units outside of the strings. -/
def marks : JsText := units "\x7b\x7d[],:"

/-- A place in the text of a value. -/
inductive Place where
  | outside
  | inside
  /-- Behind a backslash. -/
  | escaped
  deriving DecidableEq

/-- The place behind one more code unit; `none` is in no text of a value. -/
def Place.step : Place → CodeUnit → Option Place
  | .outside, c => if c = quote then some .inside else if c ∈ marks then some .outside else none
  | .inside, c =>
    some (if c = quote then .outside else if c = backslash then .escaped else .inside)
  | .escaped, c => if c ∈ units "\"\\bfnrtu" then some .inside else none

def Place.scan (place : Place) (text : JsText) : Option Place := text.foldlM Place.step place

variable {ν : Type} {numbers : Numbers ν} {place place' : Place} {a b : JsText} {c : CodeUnit}

theorem scan_append : place.scan (a ++ b) = (place.scan a).bind (Place.scan · b) :=
  List.foldlM_append

theorem scan_cons {rest : JsText} :
    place.scan (c :: rest) = (place.step c).bind (Place.scan · rest) := rfl

@[simp] theorem scan_nil : place.scan [] = some place := rfl

section Printed

theorem step_inside (bare : c ≠ quote) (plain : c ≠ backslash) :
    Place.inside.step c = some .inside := by
  simp only [Place.step, if_neg bare, if_neg plain]

theorem step_hexDigit : ∀ n < 16, Place.inside.step (hexDigit n) = some .inside := by decide

theorem scan_unicodeEscape (c : CodeUnit) : Place.inside.scan (unicodeEscape c) = some .inside := by
  have bound := c.isLt
  have first := step_hexDigit (c.val / 4096) (by omega)
  have second := step_hexDigit (c.val / 256 % 16) (by omega)
  have third := step_hexDigit (c.val / 16 % 16) (by omega)
  have fourth := step_hexDigit (c.val % 16) (by omega)
  have opened : Place.inside.step backslash = some .escaped := rfl
  have marked : Place.escaped.step 0x75 = some .inside := rfl
  simp only [unicodeEscape, scan_cons, opened, marked, first, second, third, fourth,
    Option.bind_some, scan_nil]

theorem scan_escape (c : CodeUnit) : Place.inside.scan (escape c) = some .inside := by
  rw [escape]
  split_ifs with bare plain
  any_goals rfl
  · exact scan_unicodeEscape c
  · rw [scan_cons, step_inside bare plain]
    rfl

theorem scan_quotedBody (text : JsText) : Place.inside.scan (quotedBody text) = some .inside := by
  fun_induction quotedBody text with
  | case1 => rfl
  | case2 c => exact scan_escape c
  | case3 c d rest pair ih =>
      have leading : 0xD800 ≤ c.val := (of_decide_eq_true pair.1).1
      have trailing : 0xDC00 ≤ d.val := (of_decide_eq_true pair.2).1
      have apart (c : CodeUnit) (high : 0xD800 ≤ c.val) : Place.inside.step c = some .inside := by
        apply step_inside
        · rintro rfl
          exact absurd high (by decide)
        · rintro rfl
          exact absurd high (by decide)
      rw [scan_cons, apart c leading, Option.bind_some, scan_cons, apart d (by omega),
        Option.bind_some, ih]
  | case4 c d rest alone ih => rw [scan_append, scan_escape, Option.bind_some, ih]

/-- The text begins and ends outside of strings. -/
def Level (text : JsText) : Prop := Place.outside.scan text = some .outside

theorem Level.append (first : Level a) (second : Level b) : Level (a ++ b) := by
  rw [Level, scan_append, first, Option.bind_some, second]

theorem level_quoted (text : JsText) : Level (quoted text) := by
  have opened : Place.outside.step quote = some .inside := rfl
  rw [Level, quoted, scan_cons, opened, Option.bind_some, scan_append, scan_quotedBody]
  rfl

theorem level_array {items : List (Json ν)}
    (level : ∀ item ∈ items, Level (stringify numbers item)) :
    Level (stringify numbers (.array items)) := by
  have comma : Level (units ",") := rfl
  have opening : Level (units "[") := rfl
  have closing : Level (units "]") := rfl
  have rest : ∀ items : List (Json ν), (∀ item ∈ items, Level (stringify numbers item)) →
      Level (restOfItems numbers items) := by
    intro items level
    induction items with
    | nil => rfl
    | cons item rest ih =>
        obtain ⟨first, later⟩ := List.forall_mem_cons.mp level
        exact (comma.append first).append (ih later)
  rw [stringify]
  refine (opening.append ?_).append closing
  cases items with
  | nil => rfl
  | cons item items =>
      obtain ⟨first, later⟩ := List.forall_mem_cons.mp level
      exact first.append (rest items later)

theorem level_object {members : List (JsText × Json ν)}
    (level : ∀ member ∈ members, Level (stringify numbers member.2)) :
    Level (stringify numbers (.object members)) := by
  have comma : Level (units ",") := rfl
  have colon : Level (units ":") := rfl
  have opening : Level (units "\x7b") := rfl
  have closing : Level (units "\x7d") := rfl
  have rest : ∀ members : List (JsText × Json ν),
      (∀ member ∈ members, Level (stringify numbers member.2)) →
      Level (restOfMembers numbers members) := by
    intro members level
    induction members with
    | nil => rfl
    | cons member rest ih =>
        obtain ⟨first, later⟩ := List.forall_mem_cons.mp level
        have key := comma.append (level_quoted member.1)
        exact ((key.append colon).append first).append (ih later)
  rw [stringify]
  refine (opening.append ?_).append closing
  cases members with
  | nil => rfl
  | cons member members =>
      obtain ⟨first, later⟩ := List.forall_mem_cons.mp level
      exact (((level_quoted member.1).append colon).append first).append (rest members later)

end Printed

section Inverted

variable {reader reader' : Reader ν} {stack : List (Frame ν)} {value : Json ν} {text key : JsText}

/-- The key has marks only. -/
def Marked (key : JsText) : Prop := ∀ c ∈ key, c ∈ marks

/-- If the value is an object, its keys have marks only. -/
def MarkedKeys : Json ν → Prop
  | .object members => ∀ member ∈ members, Marked member.1
  | _ => True

/-- No key of the value or of an item of it is a word. -/
def Mute : Json ν → Prop
  | .object members => ∀ member ∈ members, Marked member.1
  | .array items => ∀ item ∈ items, MarkedKeys item
  | _ => True

theorem Mute.markedKeys (mute : Mute value) : MarkedKeys value := by
  cases value with
  | object members => exact mute
  | _ => trivial

def Frame.Mute : Frame ν → Prop
  | .array items => ∀ item ∈ items, MarkedKeys item
  | .object members => ∀ member ∈ members, Marked member.1
  | .member members key => (∀ member ∈ members, Marked member.1) ∧ Marked key

/-- The reader is in a string where the text is outside of its strings, and the other way
round. -/
def Mode.Inverted : Place → Mode ν → Prop
  | .inside, .value _ | .inside, .key _ | .inside, .colon | .inside, .after | .inside, .word _ =>
    True
  | .inside, .done value => Mute value
  | .outside, .string _ chars => Marked chars
  | _, _ => False

structure Reader.Inverted (place : Place) (reader : Reader ν) : Prop where
  mode : reader.mode.Inverted place
  stack : ∀ frame ∈ reader.stack, frame.Mute

theorem inverted_complete (mute : Mute value) (frames : ∀ frame ∈ stack, frame.Mute)
    (completed : complete value stack = some reader) : reader.Inverted .inside := by
  cases stack with
  | nil =>
      cases completed
      exact ⟨mute, nofun⟩
  | cons frame stack =>
      obtain ⟨here, rest⟩ := List.forall_mem_cons.mp frames
      cases frame with
      | array items =>
          cases completed
          refine ⟨trivial, List.forall_mem_cons.mpr ⟨?_, rest⟩⟩
          exact List.forall_mem_append.mpr ⟨here, by simpa using mute.markedKeys⟩
      | object members => cases completed
      | member members key =>
          cases completed
          refine ⟨trivial, List.forall_mem_cons.mpr ⟨?_, rest⟩⟩
          exact List.forall_mem_append.mpr ⟨here.1, by simpa using here.2⟩

/-- What a step inside of a string comes to: the string ends, or it goes on and no escape
begins. -/
def Crosses (c : CodeUnit) (reader : Reader ν) : Prop :=
  (c = quote ∧ reader.Inverted .outside) ∨
    (c ≠ quote ∧ c ≠ backslash ∧ reader.Inverted .inside)

theorem isBlank_ne (blank : c.isBlank = true) : c ≠ quote ∧ c ≠ backslash := by
  constructor
  · rintro rfl
    exact absurd blank (by decide)
  · rintro rfl
    exact absurd blank (by decide)

theorem isWordChar_ne (in_word : isWordChar c = true) : c ≠ quote ∧ c ≠ backslash := by
  constructor
  · rintro rfl
    exact absurd in_word (by decide)
  · rintro rfl
    exact absurd in_word (by decide)

theorem crosses_stepAfter (inverted : reader.Inverted .inside)
    (stepped : stepAfter reader c = some reader') : Crosses c reader' := by
  right
  by_cases blank : c.isBlank = true
  · rw [stepAfter, if_pos blank] at stepped
    cases stepped
    exact ⟨(isBlank_ne blank).1, (isBlank_ne blank).2, inverted⟩
  · rw [stepAfter, if_neg blank] at stepped
    obtain ⟨stack, mode⟩ := reader
    cases mode with
    | after =>
        cases stack with
        | nil => cases stepped
        | cons frame stack =>
            obtain ⟨here, rest⟩ := List.forall_mem_cons.mp inverted.stack
            cases frame with
            | array items =>
                simp only at stepped
                split_ifs at stepped with comma bracket
                · cases stepped
                  subst comma
                  exact ⟨by decide, by decide, trivial, inverted.stack⟩
                · subst bracket
                  have mute : Mute (.array items) := here
                  exact ⟨by decide, by decide, inverted_complete mute rest stepped⟩
            | object members =>
                simp only at stepped
                split_ifs at stepped with comma brace
                · cases stepped
                  subst comma
                  exact ⟨by decide, by decide, trivial, inverted.stack⟩
                · subst brace
                  have mute : Mute (.object members) := here
                  exact ⟨by decide, by decide, inverted_complete mute rest stepped⟩
            | member members key => cases stepped
    | _ => cases stepped

theorem crosses_stepValue {closes : Bool} (frames : ∀ frame ∈ stack, frame.Mute)
    (stepped : stepValue closes stack c = some reader') : Crosses c reader' := by
  unfold stepValue at stepped
  split_ifs at stepped with blank opened bracket brace closed in_word
  · cases stepped
    exact .inr ⟨(isBlank_ne blank).1, (isBlank_ne blank).2, trivial, frames⟩
  · cases stepped
    exact .inl ⟨opened, nofun, frames⟩
  · cases stepped
    subst bracket
    exact .inr ⟨by decide, by decide, trivial, List.forall_mem_cons.mpr ⟨nofun, frames⟩⟩
  · cases stepped
    subst brace
    exact .inr ⟨by decide, by decide, trivial, List.forall_mem_cons.mpr ⟨nofun, frames⟩⟩
  · obtain ⟨rfl, -⟩ := closed
    split at stepped
    · rename_i items stack
      obtain ⟨here, rest⟩ := List.forall_mem_cons.mp frames
      have mute : Mute (.array items) := here
      exact .inr ⟨by decide, by decide, inverted_complete mute rest stepped⟩
    · cases stepped
  · cases stepped
    exact .inr ⟨(isWordChar_ne in_word).1, (isWordChar_ne in_word).2, trivial, frames⟩

theorem crosses_stepKey {closes : Bool} (frames : ∀ frame ∈ stack, frame.Mute)
    (stepped : stepKey closes stack c = some reader') : Crosses c reader' := by
  unfold stepKey at stepped
  split_ifs at stepped with blank opened closed
  · cases stepped
    exact .inr ⟨(isBlank_ne blank).1, (isBlank_ne blank).2, trivial, frames⟩
  · cases stepped
    exact .inl ⟨opened, nofun, frames⟩
  · obtain ⟨rfl, -⟩ := closed
    split at stepped
    · rename_i members stack
      obtain ⟨here, rest⟩ := List.forall_mem_cons.mp frames
      have mute : Mute (.object members) := here
      exact .inr ⟨by decide, by decide, inverted_complete mute rest stepped⟩
    · cases stepped

theorem mute_atom (read : atom numbers text = some value) : Mute value := by
  rw [atom] at read
  split_ifs at read <;> cases read <;> trivial

theorem crosses_step (inverted : reader.Inverted .inside)
    (stepped : step numbers reader c = some reader') : Crosses c reader' := by
  obtain ⟨stack, mode⟩ := reader
  have frames := inverted.stack
  cases mode with
  | value closes => exact crosses_stepValue frames stepped
  | key closes => exact crosses_stepKey frames stepped
  | colon =>
      simp only [step] at stepped
      split_ifs at stepped with blank colon
      · cases stepped
        exact .inr ⟨(isBlank_ne blank).1, (isBlank_ne blank).2, inverted⟩
      · cases stepped
        subst colon
        exact .inr ⟨by decide, by decide, trivial, frames⟩
  | after => exact crosses_stepAfter inverted stepped
  | done value => exact crosses_stepAfter inverted stepped
  | word chars =>
      simp only [step] at stepped
      split_ifs at stepped with in_word
      · cases stepped
        exact .inr ⟨(isWordChar_ne in_word).1, (isWordChar_ne in_word).2, trivial, frames⟩
      · obtain ⟨value, read, stepped⟩ := Option.bind_eq_some_iff.mp stepped
        obtain ⟨reader, completed, stepped⟩ := Option.bind_eq_some_iff.mp stepped
        exact crosses_stepAfter (inverted_complete (mute_atom read) frames completed) stepped
  | string key chars => exact inverted.mode.elim
  | escape key chars => exact inverted.mode.elim
  | unicode key chars digits => exact inverted.mode.elim

/-- A step outside of the strings, where the reader is in one. -/
theorem inverted_step_outside (inverted : reader.Inverted .outside)
    (stepped : step numbers reader c = some reader') (scanned : Place.outside.step c = some place) :
    reader'.Inverted place := by
  obtain ⟨stack, mode⟩ := reader
  have frames := inverted.stack
  cases mode with
  | string isKey chars =>
      have marked : Marked chars := inverted.mode
      simp only [step] at stepped
      simp only [Place.step] at scanned
      split_ifs at scanned with closes mark
      · subst closes
        cases scanned
        have closed : closeString isKey chars stack = some reader' := stepped
        cases isKey with
        | false =>
            have mute : Mute (.string chars : Json ν) := trivial
            exact inverted_complete mute frames closed
        | true =>
            cases stack with
            | nil => cases closed
            | cons frame stack =>
                obtain ⟨here, rest⟩ := List.forall_mem_cons.mp frames
                cases frame with
                | object members =>
                    cases closed
                    exact ⟨trivial, List.forall_mem_cons.mpr ⟨⟨here, marked⟩, rest⟩⟩
                | array items => cases closed
                | member members key => cases closed
      · cases scanned
        have plain : marks.all fun c => decide (c ≠ backslash ∧ ¬ c < 0x20) := by decide
        obtain ⟨unescaped, shown⟩ := of_decide_eq_true (List.all_eq_true.mp plain c mark)
        rw [stepString, if_neg unescaped, if_neg closes, if_neg shown] at stepped
        cases stepped
        exact ⟨List.forall_mem_append.mpr ⟨marked, by simpa using mark⟩, frames⟩
  | _ => exact inverted.mode.elim

theorem inverted_step (inverted : reader.Inverted place)
    (stepped : step numbers reader c = some reader') (scanned : place.step c = some place') :
    reader'.Inverted place' := by
  cases place with
  | outside => exact inverted_step_outside inverted stepped scanned
  | inside =>
      obtain ⟨rfl, crossed⟩ | ⟨bare, plain, kept⟩ := crosses_step inverted stepped
      · cases scanned
        exact crossed
      · rw [step_inside bare plain] at scanned
        cases scanned
        exact kept
  | escaped =>
      have mode := inverted.mode
      cases shown : reader.mode <;> rw [shown] at mode <;> exact mode.elim

theorem inverted_run (inverted : reader.Inverted place)
    (ran : run numbers reader text = some reader') (scanned : place.scan text = some place') :
    reader'.Inverted place' := by
  induction text generalizing reader place with
  | nil =>
      cases ran
      cases scanned
      exact inverted
  | cons c rest ih =>
      obtain ⟨next, stepped, ran⟩ := Option.bind_eq_some_iff.mp ran
      obtain ⟨there, moved, scanned⟩ := Option.bind_eq_some_iff.mp scanned
      exact ih (inverted_step inverted stepped moved) ran scanned

/-- What is read from inside a string has no words for keys. -/
theorem mute_of_parse (parsed : parse numbers text = some value)
    (scanned : Place.inside.scan text = some place) : Mute value := by
  obtain ⟨reader, ran, finished⟩ := Option.bind_eq_some_iff.mp parsed
  have begins : Reader.Inverted .inside (⟨[], .value false⟩ : Reader ν) := ⟨trivial, by simp⟩
  have inverted := inverted_run begins ran scanned
  obtain ⟨stack, mode⟩ := reader
  cases mode with
  | done value' =>
      cases finished
      have mode := inverted.mode
      cases place with
      | inside => exact mode
      | outside => exact mode.elim
      | escaped => exact mode.elim
  | word chars =>
      cases stack with
      | nil => exact mute_atom finished
      | cons frame stack => cases finished
  | _ => cases finished

end Inverted

end Json

end MultiAgent.Native
