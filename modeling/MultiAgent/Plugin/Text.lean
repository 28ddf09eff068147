import Mathlib.Data.List.Basic
import Mathlib.Data.List.DropRight

/-!
# Python strings

What the modelled functions use of `str`: white space as `str.isspace` has it,
`strip`, the first part of `split`, `lower` as far as its result can be ASCII, and
`int` of a string of decimal digits.
-/

namespace MultiAgent.Plugin

/-- `str.isspace` of a single character. -/
def isSpace (c : Char) : Bool :=
  let n := c.toNat
  (9 ≤ n && n ≤ 13) || (28 ≤ n && n ≤ 32) || n == 0x85 || n == 0xA0 || n == 0x1680 ||
    (0x2000 ≤ n && n ≤ 0x200A) || n == 0x2028 || n == 0x2029 || n == 0x202F || n == 0x205F ||
    n == 0x3000

/-- `str.strip()` -/
def strip (s : String) : String :=
  String.ofList ((s.toList.dropWhile isSpace).reverse.dropWhile isSpace).reverse

/-- `s.split(separator)[0]` -/
def splitFirst (separator : Char) (s : String) : String :=
  String.ofList (s.toList.takeWhile fun c => decide (c ≠ separator))

/-- The characters whose lower case has ASCII characters. -/
def lowerChar (c : Char) : List Char :=
  if c = '\u212a' then ['k'] else if c = '\u0130' then ['i', '\u0307'] else [c.toLower]

/-- `s.lower()`, exact where a character of the result is ASCII. -/
def lower (s : String) : String := String.ofList (s.toList.flatMap lowerChar)

theorem strip_eq_self {s : String} (solid : ∀ c ∈ s.toList, isSpace c = false) : strip s = s := by
  have start {l : List Char} (solid : ∀ c ∈ l, isSpace c = false) : l.dropWhile isSpace = l := by
    cases l with
    | nil => rfl
    | cons c rest => simp [List.dropWhile, solid c (by simp)]
  unfold strip
  rw [start solid, start (by simpa using solid), List.reverse_reverse, String.ofList_toList]

/-- A text without white space at its ends stays as it is. -/
theorem strip_strip (s : String) : strip (strip s) = strip s := by
  have front : (((s.toList.dropWhile isSpace).rdropWhile isSpace)).dropWhile isSpace =
      (s.toList.dropWhile isSpace).rdropWhile isSpace := by
    cases shown : (s.toList.dropWhile isSpace).rdropWhile isSpace with
    | nil => rfl
    | cons c rest =>
        obtain ⟨later, split⟩ := List.rdropWhile_prefix isSpace (s.toList.dropWhile isSpace)
        have visible := List.head?_dropWhile_not isSpace s.toList
        rw [← split, shown] at visible
        exact List.dropWhile_cons_of_neg (by simpa using visible)
  have chars : (strip s).toList = (s.toList.dropWhile isSpace).rdropWhile isSpace :=
    String.toList_ofList
  change String.ofList (((strip s).toList.dropWhile isSpace).rdropWhile isSpace) = strip s
  rw [chars, front, List.rdropWhile_idempotent]
  rfl

theorem strip_eq_empty_iff {s : String} : strip s = "" ↔ ∀ c ∈ s.toList, isSpace c = true := by
  have chars : (strip s).toList = (s.toList.dropWhile isSpace).rdropWhile isSpace :=
    String.toList_ofList
  rw [← String.toList_inj, chars, String.toList_empty, List.rdropWhile_eq_nil_iff]
  constructor
  · intro behind c member
    rw [← List.takeWhile_append_dropWhile (p := isSpace) (l := s.toList)] at member
    obtain front | back := List.mem_append.mp member
    · exact List.mem_takeWhile_imp front
    · exact behind c back
  · intro blank c member
    exact blank c ((List.dropWhile_sublist isSpace).subset member)

/-- The characters of a string that are not white space. -/
def solid (text : String) : List Char := text.toList.filter fun c => !isSpace c

theorem strip_of_solid {text : String} {c : Char} (single : solid text = [c]) :
    strip text = String.singleton c := by
  obtain ⟨before, after, split, blank, visible, rest⟩ := List.filter_eq_cons_iff.mp single
  have hidden : ∀ x ∈ before, isSpace x = true := by
    intro x member
    simpa using blank x member
  have behind : ∀ x ∈ after.reverse, isSpace x = true := by
    intro x member
    simpa using List.filter_eq_nil_iff.mp rest x (List.mem_reverse.mp member)
  have shown : ¬ isSpace c = true := by simpa using visible
  rw [strip, split, List.dropWhile_append_of_pos hidden, List.dropWhile_cons_of_neg shown,
    List.reverse_cons, List.dropWhile_append_of_pos behind, List.dropWhile_cons_of_neg shown]
  rfl

/-- White space has no lower case of its own. -/
theorem lowerChar_of_isSpace {c : Char} (space : isSpace c = true) : lowerChar c = [c] := by
  unfold lowerChar
  split_ifs with kelvin dotted
  · subst kelvin
    revert space
    decide
  · subst dotted
    revert space
    decide
  · delta Char.toLower
    simp only [List.cons.injEq, and_true, dite_eq_right_iff]
    rintro ⟨low, high⟩
    have low : 65 ≤ c.toNat := UInt32.le_iff_toNat_le.mp low
    have high : c.toNat ≤ 90 := UInt32.le_iff_toNat_le.mp high
    simp only [isSpace, Bool.or_eq_true, Bool.and_eq_true, decide_eq_true_eq, beq_iff_eq] at space
    omega

theorem solid_of_lower {s : String} (solid : ∀ c ∈ (lower s).toList, isSpace c = false) :
    ∀ c ∈ s.toList, isSpace c = false := by
  intro c member
  cases space : isSpace c with
  | false => rfl
  | true =>
      rw [← space]
      apply solid
      simp only [lower, String.toList_ofList, List.mem_flatMap]
      exact ⟨c, member, by simp [lowerChar_of_isSpace space]⟩

/-- `s[len(start):]` if `s.startswith(start)`. -/
def dropPrefix? (start s : String) : Option String :=
  if start.toList <+: s.toList then some (String.ofList (s.toList.drop start.length)) else none

theorem dropPrefix?_eq_some_iff {start s rest : String} :
    dropPrefix? start s = some rest ↔ s = start ++ rest := by
  rw [dropPrefix?, ← String.length_toList]
  constructor
  · intro dropped
    split at dropped
    · rename_i starts
      obtain ⟨later, split⟩ := starts
      obtain rfl := Option.some.inj dropped
      rw [← String.toList_inj, String.toList_append, String.toList_ofList, ← split,
        List.drop_left]
    · cases dropped
  · rintro rfl
    rw [String.toList_append, if_pos (List.prefix_append _ _), List.drop_left, String.ofList_toList]

def digitsValue (digits : List Char) : Nat :=
  digits.foldl (fun n c => 10 * n + (c.toNat - '0'.toNat)) 0

/-- The digits of an integer literal: single underscores may stand between digits. -/
def literalDigits : List Char → Option (List Char)
  | [] => none
  | [c] => if c.isDigit then some [c] else none
  | c :: '_' :: rest => if c.isDigit then (literalDigits rest).map (c :: ·) else none
  | c :: rest => if c.isDigit then (literalDigits rest).map (c :: ·) else none

/-- The longest literal that `int` converts (`sys.get_int_max_str_digits`). -/
def maxLiteralDigits : Nat := 4300

/-- The zeros of the decimal digits of Unicode 15. -/
def decimalZeros : List Nat :=
  [0x30, 0x660, 0x6F0, 0x7C0, 0x966, 0x9E6, 0xA66, 0xAE6, 0xB66, 0xBE6, 0xC66, 0xCE6, 0xD66,
   0xDE6, 0xE50, 0xED0, 0xF20, 0x1040, 0x1090, 0x17E0, 0x1810, 0x1946, 0x19D0, 0x1A80, 0x1A90,
   0x1B50, 0x1BB0, 0x1C40, 0x1C50, 0xA620, 0xA8D0, 0xA900, 0xA9D0, 0xA9F0, 0xAA50, 0xABF0, 0xFF10,
   0x104A0, 0x10D30, 0x11066, 0x110F0, 0x11136, 0x111D0, 0x112F0, 0x11450, 0x114D0, 0x11650,
   0x116C0, 0x11730, 0x118E0, 0x11950, 0x11C50, 0x11D50, 0x11DA0, 0x11F50, 0x16A60, 0x16AC0,
   0x16B50, 0x1D7CE, 0x1D7D8, 0x1D7E2, 0x1D7EC, 0x1D7F6, 0x1E140, 0x1E2F0, 0x1E4F0, 0x1E950,
   0x1FBF0]

/-- The value of a decimal digit. -/
def decimal? (c : Char) : Option Nat :=
  (decimalZeros.find? fun first => decide (first ≤ c.toNat ∧ c.toNat < first + 10)).map
    (c.toNat - ·)

/-- A decimal digit in ASCII; the other characters stay. -/
def asciiDigit (c : Char) : Char :=
  match decimal? c with
  | some digit => Nat.digitChar digit
  | none => c

/-- The white space that `int` and `float` leave out at the ends of a text. -/
def isNumberSpace (c : Char) : Bool := isSpace c && !(28 ≤ c.toNat && c.toNat ≤ 31)

/-- A text as `int` and `float` read it. -/
def numeral (s : String) : List Char :=
  ((s.toList.dropWhile isNumberSpace).rdropWhile isNumberSpace).map asciiDigit

/-- `int(s)`; `none` is a `ValueError`. -/
def parseInt (s : String) : Option Int :=
  let natural (chars : List Char) : Option Nat :=
    (literalDigits chars).bind fun digits =>
      if digits.length ≤ maxLiteralDigits then some (digitsValue digits) else none
  match numeral s with
  | '-' :: chars => (natural chars).map fun n => -(n : Int)
  | '+' :: chars => (natural chars).map fun n => (n : Int)
  | chars => (natural chars).map fun n => (n : Int)

example : parseInt "１_٣ " = some 13 := by decide +kernel

end MultiAgent.Plugin
