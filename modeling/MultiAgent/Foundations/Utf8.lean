import Mathlib.Data.List.Basic

/-!
# UTF-8

The bytes of a text, and a decoder that reads one byte at a time. A sequence of bytes
that is no character is kept as `none`, one for each longest part of a character, so the
decoder serves the readers that reject such a sequence and those that replace it.
-/

namespace MultiAgent.Utf8

/-- The bytes of a character. -/
def encodeChar (c : Char) : List UInt8 :=
  let n := c.toNat
  if n < 0x80 then [n.toUInt8]
  else if n < 0x800 then [(0xC0 + n / 64).toUInt8, (0x80 + n % 64).toUInt8]
  else if n < 0x10000 then
    [(0xE0 + n / 4096).toUInt8, (0x80 + n / 64 % 64).toUInt8, (0x80 + n % 64).toUInt8]
  else
    [(0xF0 + n / 262144).toUInt8, (0x80 + n / 4096 % 64).toUInt8, (0x80 + n / 64 % 64).toUInt8,
      (0x80 + n % 64).toUInt8]

def encode (text : List Char) : List UInt8 := text.flatMap encodeChar

/-- Where the decoder is. -/
inductive State where
  /-- Between two characters. -/
  | start
  /-- In a character: its bits so far, how many bytes it still needs, and the bounds of
  the next one. -/
  | inside (value missing low high : Nat)

/-- What the first byte of a character makes of the decoder. -/
def first (b : Nat) : List (Option Char) × State :=
  if b < 0x80 then ([some (Char.ofNat b)], .start)
  else if b < 0xC2 then ([none], .start)
  else if b < 0xE0 then ([], .inside (b - 0xC0) 1 0x80 0xBF)
  else if b < 0xF0 then
    ([], .inside (b - 0xE0) 2 (if b = 0xE0 then 0xA0 else 0x80) (if b = 0xED then 0x9F else 0xBF))
  else if b < 0xF5 then
    ([], .inside (b - 0xF0) 3 (if b = 0xF0 then 0x90 else 0x80) (if b = 0xF4 then 0x8F else 0xBF))
  else ([none], .start)

def step : State → UInt8 → List (Option Char) × State
  | .start, b => first b.toNat
  | .inside value missing low high, b =>
    if low ≤ b.toNat ∧ b.toNat ≤ high then
      let value := 64 * value + (b.toNat - 0x80)
      if missing = 1 then ([some (Char.ofNat value)], .start)
      else ([], .inside value (missing - 1) 0x80 0xBF)
    else
      -- the byte may start the next character
      (none :: (first b.toNat).1, (first b.toNat).2)

def run : State → List UInt8 → List (Option Char) × State
  | state, [] => ([], state)
  | state, b :: rest =>
    ((step state b).1 ++ (run (step state b).2 rest).1, (run (step state b).2 rest).2)

def decode (bytes : List UInt8) : List (Option Char) :=
  match run .start bytes with
  | (characters, .start) => characters
  | (characters, .inside ..) => characters ++ [none]

/-- The decoder that rejects what is no character. -/
def strict (bytes : List UInt8) : Option (List Char) := (decode bytes).mapM id

/-- The decoder that replaces what is no character by U+FFFD. -/
def replace (bytes : List UInt8) : List Char :=
  (decode bytes).map fun character => character.getD '\ufffd'

theorem run_append {state : State} {a b : List UInt8} :
    run state (a ++ b) =
      ((run state a).1 ++ (run (run state a).2 b).1, (run (run state a).2 b).2) := by
  induction a generalizing state with
  | nil => rfl
  | cons x rest ih => simp [run, ih]

theorem toNat_toUInt8 {n : Nat} (small : n < 256) : n.toUInt8.toNat = n := by
  rw [Nat.toUInt8, UInt8.toNat_ofNat']
  omega

section Steps

variable {value missing low high b : Nat} {rest : List UInt8}

/-- A first byte that emits nothing. -/
theorem run_first {state : State} (small : b < 256) (opens : first b = ([], state)) :
    run .start (b.toUInt8 :: rest) = run state rest := by
  simp [run, step, toNat_toUInt8 small, opens]

theorem run_continue (small : b < 256) (more : missing ≠ 1) (least : low ≤ b) (most : b ≤ high) :
    run (.inside value missing low high) (b.toUInt8 :: rest) =
      run (.inside (64 * value + (b - 0x80)) (missing - 1) 0x80 0xBF) rest := by
  simp [run, step, toNat_toUInt8 small, more, least, most]

theorem run_last (small : b < 256) (least : low ≤ b) (most : b ≤ high) :
    run (.inside value 1 low high) [b.toUInt8] =
      ([some (Char.ofNat (64 * value + (b - 0x80)))], .start) := by
  simp [run, step, toNat_toUInt8 small, least, most]

end Steps

/-- The bytes of a character beyond ASCII: the first one opens the character, the others
continue it. -/
theorem run_encodeChar (c : Char) : run .start (encodeChar c) = ([some c], .start) := by
  have valid : c.toNat < 0xD800 ∨ 0xDFFF < c.toNat ∧ c.toNat < 0x110000 := c.valid
  obtain ⟨n, value⟩ : ∃ n, c.toNat = n := ⟨_, rfl⟩
  have character : Char.ofNat n = c := value ▸ Char.ofNat_toNat c
  rw [value] at valid
  simp only [encodeChar, value]
  split_ifs with one two three
  · have a := toNat_toUInt8 (show n < 256 by omega)
    simp [run, step, first, a, one, character]
  · have opens : first (0xC0 + n / 64) = ([], .inside (n / 64) 1 0x80 0xBF) := by
      simp (disch := omega) only [first, if_neg, if_pos, Nat.add_sub_cancel_left]
    have total : 64 * (n / 64) + (0x80 + n % 64 - 0x80) = n := by omega
    rw [run_first (by omega) opens, run_last (by omega) (by omega) (by omega), total, character]
  · have opens : first (0xE0 + n / 4096) = ([], .inside (n / 4096) 2
        (if 0xE0 + n / 4096 = 0xE0 then 0xA0 else 0x80)
        (if 0xE0 + n / 4096 = 0xED then 0x9F else 0xBF)) := by
      simp (disch := omega) only [first, if_neg, if_pos, Nat.add_sub_cancel_left]
    have total : 64 * (64 * (n / 4096) + (0x80 + n / 64 % 64 - 0x80)) + (0x80 + n % 64 - 0x80) =
        n := by omega
    rw [run_first (by omega) opens,
      run_continue (by omega) (by omega) (by split <;> omega) (by split <;> omega),
      run_last (by omega) (by omega) (by omega), total, character]
  · have opens : first (0xF0 + n / 262144) = ([], .inside (n / 262144) 3
        (if 0xF0 + n / 262144 = 0xF0 then 0x90 else 0x80)
        (if 0xF0 + n / 262144 = 0xF4 then 0x8F else 0xBF)) := by
      simp (disch := omega) only [first, if_neg, if_pos, Nat.add_sub_cancel_left]
    have total : 64 * (64 * (64 * (n / 262144) + (0x80 + n / 4096 % 64 - 0x80)) +
        (0x80 + n / 64 % 64 - 0x80)) + (0x80 + n % 64 - 0x80) = n := by omega
    rw [run_first (by omega) opens,
      run_continue (by omega) (by omega) (by split <;> omega) (by split <;> omega),
      run_continue (by omega) (by omega) (by omega) (by omega),
      run_last (by omega) (by omega) (by omega), total, character]

theorem run_encode (text : List Char) : run .start (encode text) = (text.map some, .start) := by
  induction text with
  | nil => rfl
  | cons c rest ih =>
      have split : encode (c :: rest) = encodeChar c ++ encode rest := rfl
      simp [split, run_append, run_encodeChar, ih]

theorem mapM_id_map_some {α : Type} (l : List α) : (l.map some).mapM id = some l := by
  induction l with
  | nil => rfl
  | cons a rest ih =>
      rw [List.map_cons, List.mapM_cons, ih]
      rfl

theorem mapM_id_eq_none {α : Type} {l : List (Option α)} (missing : none ∈ l) :
    l.mapM id = none := by
  induction l with
  | nil => cases missing
  | cons a rest ih =>
      rw [List.mapM_cons]
      cases a with
      | none => rfl
      | some a =>
          rw [ih (by simpa using missing)]
          rfl

theorem decode_encode (text : List Char) : decode (encode text) = text.map some := by
  simp [decode, run_encode]

theorem strict_encode (text : List Char) : strict (encode text) = some text := by
  rw [strict, decode_encode, mapM_id_map_some]

theorem replace_encode (text : List Char) : replace (encode text) = text := by
  rw [replace, decode_encode, List.map_map]
  exact List.map_id text

theorem encode_append (a b : List Char) : encode (a ++ b) = encode a ++ encode b :=
  List.flatMap_append

/-- The decoder comes back to the start only by emitting a character or an error. -/
theorem run_silent {state : State} {bytes : List UInt8} (silent : (run state bytes).1 = [])
    (back : (run state bytes).2 = .start) : state = .start ∧ bytes = [] := by
  induction bytes generalizing state with
  | nil => exact ⟨back, rfl⟩
  | cons b rest ih =>
      exfalso
      simp only [run, List.append_eq_nil_iff] at silent back
      have moved := (ih silent.2 back).1
      have quiet := silent.1
      cases state with
      | start =>
          simp only [step, first] at moved quiet
          split_ifs at moved quiet
      | inside value missing low high =>
          simp only [step] at moved quiet
          split_ifs at moved quiet

/-- A part of a character leaves the decoder inside of it. -/
theorem run_part {c : Char} {part rest : List UInt8} (split : part ++ rest = encodeChar c)
    (begun : part ≠ []) (unfinished : rest ≠ []) :
    ∃ value missing low high, run .start part = ([], .inside value missing low high) := by
  have whole := run_encodeChar c
  rw [← split, run_append, Prod.mk.injEq, List.append_eq_singleton_iff] at whole
  obtain ⟨⟨quiet, -⟩ | ⟨-, quiet⟩, back⟩ := whole
  · cases state : (run .start part).2 with
    | start => exact absurd (run_silent quiet state).2 begun
    | inside value missing low high => exact ⟨value, missing, low, high, Prod.ext quiet state⟩
  · exact absurd (run_silent quiet back).2 unfinished

theorem strict_part {c : Char} {text : List Char} {part rest : List UInt8}
    (split : part ++ rest = encodeChar c) (begun : part ≠ []) (unfinished : rest ≠ []) :
    strict (encode text ++ part) = none := by
  obtain ⟨value, missing, low, high, reached⟩ := run_part split begun unfinished
  have decoded : decode (encode text ++ part) = text.map some ++ [none] := by
    simp [decode, run_append, run_encode, reached]
  rw [strict, decoded, mapM_id_eq_none (by simp)]

/-- A prefix of a text in bytes ends between two characters or in one. -/
theorem prefix_encode {text : List Char} {bytes : List UInt8} (cut : bytes <+: encode text) :
    ∃ before, before <+: text ∧ (bytes = encode before ∨
      ∃ c part rest, bytes = encode before ++ part ∧ part ++ rest = encodeChar c ∧ part ≠ [] ∧
        rest ≠ []) := by
  induction text generalizing bytes with
  | nil =>
      obtain rfl : bytes = [] := List.prefix_nil.mp cut
      exact ⟨[], List.prefix_rfl, .inl rfl⟩
  | cons c later ih =>
      obtain ⟨after, whole⟩ := cut
      have split : encode (c :: later) = encodeChar c ++ encode later := rfl
      rw [split] at whole
      obtain ⟨rest, inside, -⟩ | ⟨bytes', rfl, outside⟩ := List.append_eq_append_iff.mp whole
      · by_cases begun : bytes = []
        · exact ⟨[], List.nil_prefix, .inl begun⟩
        by_cases unfinished : rest = []
        · refine ⟨[c], by simp, .inl ?_⟩
          simpa [encode, unfinished] using inside.symm
        · exact ⟨[], List.nil_prefix, .inr ⟨c, bytes, rest, rfl, inside.symm, begun, unfinished⟩⟩
      · obtain ⟨before, start, shape⟩ := ih ⟨after, outside.symm⟩
        refine ⟨c :: before, List.cons_prefix_cons.mpr ⟨rfl, start⟩, ?_⟩
        obtain rfl | ⟨c', part, rest, rfl, inside, begun, unfinished⟩ := shape
        · exact .inl rfl
        · exact .inr ⟨c', part, rest, (List.append_assoc _ _ _).symm, inside, begun, unfinished⟩

/-- Behind whole characters, a piece of a text is accepted exactly when it ends between
two characters. -/
theorem strict_append_isSome_iff {text other : List Char} {bytes : List UInt8}
    (cut : bytes <+: encode other) :
    (strict (encode text ++ bytes)).isSome ↔
      ∃ before, before <+: other ∧ bytes = encode before := by
  constructor
  · intro accepted
    obtain ⟨before, start, rfl | ⟨c, part, rest, rfl, split, begun, unfinished⟩⟩ :=
      prefix_encode cut
    · exact ⟨before, start, rfl⟩
    · rw [← List.append_assoc, ← encode_append, strict_part split begun unfinished] at accepted
      cases accepted
  · rintro ⟨before, -, rfl⟩
    rw [← encode_append, strict_encode]
    rfl

/-- A line feed is a byte of no other character. -/
theorem mem_encodeChar_newline {c : Char} : (10 : UInt8) ∈ encodeChar c ↔ c = '\n' := by
  have byte {n : Nat} (small : n < 256) : (10 : UInt8) = n.toUInt8 ↔ 10 = n := by
    rw [← UInt8.toNat_inj, toNat_toUInt8 small]
    rfl
  have valid : c.toNat < 0xD800 ∨ 0xDFFF < c.toNat ∧ c.toNat < 0x110000 := c.valid
  have newline : c = '\n' ↔ c.toNat = 10 := by
    rw [← Char.toNat_inj]
    rfl
  rw [newline]
  simp only [encodeChar]
  split_ifs with one two three
  · rw [List.mem_singleton, byte (by omega)]
    exact eq_comm
  · simp only [List.mem_cons, List.not_mem_nil, or_false,
      byte (show 0xC0 + c.toNat / 64 < 256 by omega),
      byte (show 0x80 + c.toNat % 64 < 256 by omega)]
    omega
  · simp only [List.mem_cons, List.not_mem_nil, or_false,
      byte (show 0xE0 + c.toNat / 4096 < 256 by omega),
      byte (show 0x80 + c.toNat / 64 % 64 < 256 by omega),
      byte (show 0x80 + c.toNat % 64 < 256 by omega)]
    omega
  · simp only [List.mem_cons, List.not_mem_nil, or_false,
      byte (show 0xF0 + c.toNat / 262144 < 256 by omega),
      byte (show 0x80 + c.toNat / 4096 % 64 < 256 by omega),
      byte (show 0x80 + c.toNat / 64 % 64 < 256 by omega),
      byte (show 0x80 + c.toNat % 64 < 256 by omega)]
    omega

end MultiAgent.Utf8
