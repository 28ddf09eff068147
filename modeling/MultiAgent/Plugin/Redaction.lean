import MultiAgent.Foundations.Substitution
import MultiAgent.Plugin.Authentication

/-!
# Bearer tokens in the log

`redact` of `adapters/http.py`: two substitutions, one behind the other. Which tokens of the
authenticator it hides, and where (`redact_hides_iff`).
-/

namespace MultiAgent.Plugin.Redaction

open Substitution

/-- `[A-Za-z0-9._~+/=-]` -/
def isTokenChar (c : Char) : Bool := c.isAlphanum || decide (c ∈ "._~+/=-".toList)

/-- `[A-Za-z0-9_-]` -/
def isKeyChar (c : Char) : Bool := c.isAlphanum || decide (c ∈ "_-".toList)

/-- `\w`; beyond ASCII, `wide` is `str.isalnum`. -/
def isWord (wide : Char → Bool) (c : Char) : Bool :=
  if c.toNat < 128 then c.isAlphanum || decide (c = '_') else wide c

def stars : List Char := "***".toList

def bearer : List Char := "Bearer".toList

/-- `(Bearer\s+)[A-Za-z0-9._~+/=-]+`, replaced by `\1***`. -/
def findBearer : Finder Char := fun _ text =>
  let spaces := (text.drop 6).takeWhile isSpace
  let token := ((text.drop 6).dropWhile isSpace).takeWhile isTokenChar
  if bearer <+: text ∧ spaces ≠ [] ∧ token ≠ [] then
    some (6 + spaces.length + token.length, bearer ++ spaces ++ stars)
  else none

/-- A key that starts like this. -/
def keyAt (text start : List Char) : Option (Nat × List Char) :=
  let key := (text.drop start.length).takeWhile isKeyChar
  if start <+: text ∧ key ≠ [] then some (start.length + key.length, stars) else none

/-- `\b(?:sk|ghp|pypi)-[A-Za-z0-9_-]+`, replaced by `***`. -/
def findKey (wide : Char → Bool) : Finder Char := fun before text =>
  if before.any (isWord wide) then none
  else ["sk-".toList, "ghp-".toList, "pypi-".toList].findSome? (keyAt text)

/-- `redact` -/
def redact (wide : Char → Bool) (text : String) : String :=
  String.ofList (sub (findKey wide) none 0 (sub findBearer none 0 text.toList))

/-- A text with a bearer token in it. -/
def line (before token after : String) : String := before ++ "Bearer " ++ token ++ after

/-- The text is empty or starts with white space, such as a line end. -/
def Ends (after : String) : Prop := ∀ c ∈ after.toList.head?, isSpace c = true

/-- The constructor accepts the token, for some role. -/
def Accepted (token : String) : Prop :=
  ∃ roles auth role, TokenAuthenticator.new roles = .ok auth ∧
    roles.get? (Role.name role) = some (.str token)

/-- The first pattern matches all of the token. -/
def Plain (token : String) : Prop := token ≠ "" ∧ ∀ c ∈ token.toList, isTokenChar c = true

/-- The token matches, or is written as it is redacted. -/
def Redactable (token : String) : Prop := Plain token ∨ token = "***"

/-- Behind this text `Bearer` is not itself redacted, as the token of another one. -/
def Opens (before : String) : Prop :=
  (scan findBearer "Bearer ".toList none 0 before.toList).2 = 0

instance (before : String) : Decidable (Opens before) :=
  inferInstanceAs (Decidable (_ = 0))

instance (token : String) : Decidable (Plain token) :=
  inferInstanceAs (Decidable (_ ∧ ∀ c ∈ token.toList, _))

instance (after : String) : Decidable (Ends after) :=
  inferInstanceAs (Decidable (∀ c ∈ after.toList.head?, _))

example : Opens "Authorization: " ∧ ¬ Opens "Bearer " ∧ Opens "Bearer Bearer " := by decide

section Matches

variable {before : Option Char} {text rest spaces token : List Char} {c : Char}

theorem takeWhile_stop {p : Char → Bool} {stop : Char} {a b : List Char} (stops : p stop = false) :
    (a ++ stop :: b).takeWhile p = a.takeWhile p := by
  induction a with
  | nil => simp [stops]
  | cons x a ih => rw [List.cons_append, List.takeWhile_cons, List.takeWhile_cons, ih]

theorem dropWhile_stop {p : Char → Bool} {stop : Char} {a b : List Char} (stops : p stop = false) :
    (a ++ stop :: b).dropWhile p = a.dropWhile p ++ stop :: b := by
  induction a with
  | nil => simp [stops]
  | cons x a ih =>
      rw [List.cons_append, List.dropWhile_cons, List.dropWhile_cons, ih]
      split <;> rfl

theorem alphanum_range (letter : c.isAlphanum = true) : 48 ≤ c.toNat ∧ c.toNat ≤ 122 := by
  delta Char.isAlphanum Char.isAlpha Char.isUpper Char.isLower Char.isDigit at letter
  simp only [Bool.or_eq_true, Bool.and_eq_true, decide_eq_true_eq, ge_iff_le,
    UInt32.le_iff_toNat_le] at letter
  have same : c.val.toNat = c.toNat := rfl
  rw [same] at letter
  simp at letter
  omega

theorem tokenChar_range (found : isTokenChar c = true) : 33 ≤ c.toNat ∧ c.toNat ≤ 126 := by
  have marks : ∀ c ∈ "._~+/=-".toList, 33 ≤ c.toNat ∧ c.toNat ≤ 126 := by simp
  rw [isTokenChar, Bool.or_eq_true, decide_eq_true_iff] at found
  obtain letter | mark := found
  · have range := alphanum_range letter
    omega
  · exact marks c mark

theorem not_tokenChar_of_isSpace (space : isSpace c = true) : isTokenChar c = false := by
  rw [Bool.eq_false_iff]
  intro found
  have range := tokenChar_range found
  simp only [isSpace, Bool.or_eq_true, Bool.and_eq_true, decide_eq_true_eq, beq_iff_eq] at space
  omega

theorem isTokenChar_of_isKeyChar (key : isKeyChar c = true) : isTokenChar c = true := by
  have marks : ∀ c ∈ "_-".toList, c ∈ "._~+/=-".toList := by simp
  rw [isKeyChar, Bool.or_eq_true, decide_eq_true_iff] at key
  rw [isTokenChar, Bool.or_eq_true, decide_eq_true_iff]
  exact key.imp_right (marks c)

/-- What is found at `Bearer`. -/
theorem findBearer_bearer : findBearer before (bearer ++ rest) =
    if rest.takeWhile isSpace ≠ [] ∧ (rest.dropWhile isSpace).takeWhile isTokenChar ≠ [] then
      some (6 + (rest.takeWhile isSpace).length +
          ((rest.dropWhile isSpace).takeWhile isTokenChar).length,
        bearer ++ rest.takeWhile isSpace ++ stars)
    else none := by
  have drop : (bearer ++ rest).drop 6 = rest := rfl
  rw [findBearer, drop]
  simp only [List.prefix_append, true_and]

theorem findBearer_eq_none (other : ¬ bearer <+: text) : findBearer before text = none :=
  if_neg fun found => other found.1

theorem findBearer_of_ne (other : c ≠ 'B') : findBearer before (c :: rest) = none :=
  findBearer_eq_none fun starts => other (List.cons_prefix_cons.mp starts).1.symm

/-- A match at `Bearer` that starts in front of another one does not depend on what is behind. -/
theorem prefix_of_overlap (starts : bearer <+: c :: text ++ (bearer ++ rest)) :
    bearer <+: c :: text := by
  by_cases long : 6 ≤ (c :: text).length
  · exact List.prefix_of_prefix_length_le starts (List.prefix_append _ _) long
  · -- the letter of `Bearer` behind the text is no `B`
    exfalso
    obtain ⟨k, inside, split⟩ : ∃ k, k ∈ [1, 2, 3, 4, 5] ∧ (c :: text).length = k := by
      refine ⟨_, ?_, rfl⟩
      simp only [List.length_cons, List.mem_cons, List.not_mem_nil, or_false] at long ⊢
      omega
    have letters : ∀ k ∈ [1, 2, 3, 4, 5], k < bearer.length ∧ bearer[k]? ≠ some 'B' := by decide
    obtain ⟨within, other⟩ := letters k inside
    obtain ⟨tail, same⟩ := starts
    have here : (bearer ++ tail)[k]? = (c :: text ++ (bearer ++ rest))[k]? := by rw [same]
    rw [List.getElem?_append_left within, List.getElem?_append_right (by omega), split,
      Nat.sub_self] at here
    exact other here

theorem findBearer_overlap {tail : List Char} :
    findBearer before (bearer ++ tail ++ (bearer ++ ' ' :: rest)) =
      if tail.takeWhile isSpace ≠ [] ∧
          (tail.dropWhile isSpace ++ bearer).takeWhile isTokenChar ≠ [] then
        some (6 + (tail.takeWhile isSpace).length +
            ((tail.dropWhile isSpace ++ bearer).takeWhile isTokenChar).length,
          bearer ++ tail.takeWhile isSpace ++ stars)
      else none := by
  have spaces : (tail ++ (bearer ++ ' ' :: rest)).takeWhile isSpace = tail.takeWhile isSpace :=
    takeWhile_stop (by decide)
  have token : ((tail ++ (bearer ++ ' ' :: rest)).dropWhile isSpace).takeWhile isTokenChar =
      (tail.dropWhile isSpace ++ bearer).takeWhile isTokenChar := by
    have after : (tail ++ (bearer ++ ' ' :: rest)).dropWhile isSpace =
        tail.dropWhile isSpace ++ (bearer ++ ' ' :: rest) := dropWhile_stop (by decide)
    rw [after, ← List.append_assoc]
    exact takeWhile_stop (by decide)
  rw [List.append_assoc, findBearer_bearer, spaces, token]

theorem findBearer_ahead : findBearer before (c :: text ++ (bearer ++ ' ' :: rest)) =
    findBearer before (c :: text ++ (bearer ++ [' '])) := by
  by_cases starts : bearer <+: c :: text
  · obtain ⟨tail, split⟩ := starts
    rw [← split, findBearer_overlap, findBearer_overlap]
  · rw [findBearer_eq_none fun found => starts (prefix_of_overlap found),
      findBearer_eq_none fun found => starts (prefix_of_overlap found)]

theorem length_findBearer_le {length : Nat} {new : List Char}
    (found : findBearer before (c :: text ++ (bearer ++ ' ' :: rest)) = some (length, new)) :
    length ≤ text.length + 1 + 6 := by
  by_cases starts : bearer <+: c :: text
  · obtain ⟨tail, split⟩ := starts
    rw [← split, findBearer_overlap] at found
    split_ifs at found
    obtain ⟨rfl, -⟩ := Prod.mk.inj (Option.some.inj found)
    have run :=
      (List.takeWhile_sublist (l := tail.dropWhile isSpace ++ bearer) isTokenChar).length_le
    have parts := congrArg List.length (List.takeWhile_append_dropWhile (p := isSpace) (l := tail))
    have whole := congrArg List.length split
    have six : bearer.length = 6 := rfl
    simp only [List.length_append, List.length_cons] at run parts whole
    omega
  · rw [findBearer_eq_none fun found => starts (prefix_of_overlap found)] at found
    cases found

theorem sub_before_bearer (other : Option Char) {inside : Nat} :
    sub findBearer before inside text = sub findBearer other inside text :=
  sub_before (fun _ _ _ => rfl) other

/-- The first pattern at a bearer token. -/
theorem sub_bearer {after : List Char} (nonempty : token ≠ [])
    (visible : ∀ c ∈ token.head?, isSpace c = false) (ends : ∀ c ∈ after.head?, isSpace c = true) :
    sub findBearer before 0 (bearer ++ ' ' :: (token ++ after)) =
      bearer ++ ' ' :: if token.takeWhile isTokenChar = [] then
          sub findBearer none 0 (token ++ after)
        else stars ++ sub findBearer none 0 (token.dropWhile isTokenChar ++ after) := by
  obtain ⟨first, tail, rfl⟩ := List.exists_cons_of_ne_nil nonempty
  have shown : isSpace first = false := visible first rfl
  have blank : isSpace ' ' = true := by decide
  have spaces : (' ' :: (first :: tail ++ after)).takeWhile isSpace = [' '] := by
    simp [blank, shown]
  have behind : (' ' :: (first :: tail ++ after)).dropWhile isSpace = first :: tail ++ after := by
    simp [blank, shown]
  generalize first :: tail = token at spaces behind ⊢
  have run : (token ++ after).takeWhile isTokenChar = token.takeWhile isTokenChar := by
    cases after with
    | nil => rw [List.append_nil]
    | cons c rest => exact takeWhile_stop (not_tokenChar_of_isSpace (ends c rfl))
  have found : findBearer before (bearer ++ ' ' :: (token ++ after)) =
      if token.takeWhile isTokenChar ≠ [] then
        some (7 + (token.takeWhile isTokenChar).length, bearer ++ [' '] ++ stars)
      else none := by
    rw [findBearer_bearer, spaces, behind, run]
    simp only [ne_eq, List.cons_ne_nil, not_false_eq_true, true_and, List.length_singleton]
  by_cases none_ : token.takeWhile isTokenChar = []
  · rw [if_neg (not_not.mpr none_)] at found
    have apart : ∀ c ∈ "earer ".toList, ∀ before rest, findBearer before (c :: rest) = none := by
      intro c member before rest
      refine findBearer_of_ne ?_
      rintro rfl
      exact absurd member (by decide)
    rw [if_pos none_]
    refine (sub_cons_none found).trans (congrArg ('B' :: ·) ?_)
    exact (sub_of_apart apart).trans (congrArg ("earer ".toList ++ ·) (sub_before_bearer _))
  · rw [if_pos none_] at found
    rw [if_neg none_]
    refine (sub_cons_some found).trans ?_
    have length : 7 + (token.takeWhile isTokenChar).length - 1 =
        ("earer ".toList ++ token.takeWhile isTokenChar).length := by
      rw [List.length_append]
      have six : "earer ".toList.length = 6 := rfl
      omega
    have split : "earer".toList ++ ' ' :: (token ++ after) =
        ("earer ".toList ++ token.takeWhile isTokenChar) ++
          (token.dropWhile isTokenChar ++ after) := by
      rw [List.append_assoc, ← List.append_assoc (token.takeWhile _),
        List.takeWhile_append_dropWhile]
      rfl
    have passed : sub findBearer (some 'B') (7 + (token.takeWhile isTokenChar).length - 1)
        ("earer".toList ++ ' ' :: (token ++ after)) =
          sub findBearer none 0 (token.dropWhile isTokenChar ++ after) := by
      rw [split]
      exact (sub_inside length.symm).trans (sub_before_bearer none)
    refine (congrArg (bearer ++ [' '] ++ stars ++ ·) passed).trans ?_
    simp

theorem count_findBearer {length : Nat} {new : List Char} (space : isSpace c = true)
    (found : findBearer before text = some (length, new)) :
    0 < length ∧ new.count c = (text.take length).count c := by
  rw [findBearer] at found
  split_ifs at found with starts
  obtain ⟨⟨tail, rfl⟩, -, -⟩ := starts
  have drop : (bearer ++ tail).drop 6 = tail := rfl
  rw [drop] at found
  obtain ⟨rfl, rfl⟩ := Prod.mk.inj (Option.some.inj found)
  have taken : (bearer ++ tail).take (6 + (tail.takeWhile isSpace).length +
      ((tail.dropWhile isSpace).takeWhile isTokenChar).length) =
      bearer ++ tail.takeWhile isSpace ++ (tail.dropWhile isSpace).takeWhile isTokenChar := by
    have split : bearer ++ tail = bearer ++ tail.takeWhile isSpace ++
        (tail.dropWhile isSpace).takeWhile isTokenChar ++
          (tail.dropWhile isSpace).dropWhile isTokenChar := by
      rw [List.append_assoc, List.takeWhile_append_dropWhile, List.append_assoc,
        List.takeWhile_append_dropWhile]
    rw [split]
    refine List.take_left' ?_
    rw [List.length_append, List.length_append]
    rfl
  have none_ : ((tail.dropWhile isSpace).takeWhile isTokenChar).count c = 0 := by
    rw [List.count_eq_zero]
    intro member
    have token := List.mem_takeWhile_imp member
    rw [not_tokenChar_of_isSpace space] at token
    cases token
  have unstarred : stars.count c = 0 := by
    rw [List.count_eq_zero]
    intro member
    obtain rfl : c = '*' := by simpa [stars] using member
    exact absurd space (by decide)
  rw [taken]
  refine ⟨by omega, ?_⟩
  simp only [List.count_append, unstarred, none_]

/-- The characters in front of the first white space. -/
def word (text : List Char) : List Char := text.takeWhile fun c => !isSpace c

theorem word_append_space {a b : List Char} (space : isSpace c = true) :
    word (a ++ c :: b) = word a :=
  takeWhile_stop (by rw [space]; rfl)

/-- The first pattern leaves the first word, where nothing is matched in front of it. -/
theorem word_sub_bearer : word (sub findBearer before 0 text) = word text := by
  induction text generalizing before with
  | nil => rfl
  | cons c rest ih =>
      cases found : findBearer before (c :: rest) with
      | none =>
          rw [sub_cons_none found, word, word, List.takeWhile_cons, List.takeWhile_cons, ← word,
            ← word, ih]
      | some replaced =>
          obtain ⟨length, new⟩ := replaced
          rw [sub_cons_some found]
          rw [findBearer] at found
          split_ifs at found with starts
          obtain ⟨⟨tail, split⟩, some_, -⟩ := starts
          have drop : (c :: rest).drop 6 = tail := by
            rw [← split]
            rfl
          rw [drop] at some_ found
          obtain ⟨-, rfl⟩ := Prod.mk.inj (Option.some.inj found)
          cases tail with
          | nil => exact absurd rfl some_
          | cons space tail =>
              have blank : isSpace space = true := by
                by_contra shown
                exact some_ (List.takeWhile_cons_of_neg shown)
              rw [List.takeWhile_cons_of_pos blank, ← split, word_append_space blank]
              simp only [List.append_assoc, List.cons_append, word_append_space blank]

end Matches

section Keys

variable {wide : Char → Bool} {before : Option Char} {text rest start new : List Char} {c : Char}
  {length : Nat}

theorem not_keyChar_of_isSpace (space : isSpace c = true) : isKeyChar c = false := by
  cases key : isKeyChar c with
  | false => rfl
  | true =>
      have token := not_tokenChar_of_isSpace space
      rw [isTokenChar_of_isKeyChar key] at token
      cases token

theorem keyAt_stop (solid : ∀ c ∈ start, isSpace c = false) (space : isSpace c = true) :
    keyAt (text ++ c :: rest) start = keyAt text start := by
  have starts : start <+: text ++ c :: rest ↔ start <+: text := by
    constructor
    · intro found
      by_cases short : start.length ≤ text.length
      · exact List.prefix_of_prefix_length_le found (List.prefix_append _ _) short
      · -- the white space would belong to the start of the key
        have front : text ++ [c] <+: text ++ c :: rest := ⟨rest, by simp⟩
        have inside := (List.prefix_of_prefix_length_le front found (by simp; omega)).subset
          (List.mem_append_right _ (List.mem_singleton_self c))
        rw [solid c inside] at space
        cases space
    · exact fun found => found.trans (List.prefix_append _ _)
  rw [keyAt, keyAt]
  simp only [starts]
  by_cases here : start <+: text
  · obtain ⟨tail, rfl⟩ := here
    rw [List.append_assoc, List.drop_left, List.drop_left,
      takeWhile_stop (not_keyChar_of_isSpace space)]
  · rw [if_neg fun found => here found.1, if_neg fun found => here found.1]

theorem findKey_stop (space : isSpace c = true) :
    findKey wide before (text ++ c :: rest) = findKey wide before text := by
  have first : ∀ c ∈ "sk-".toList, isSpace c = false := by simp [isSpace]
  have second : ∀ c ∈ "ghp-".toList, isSpace c = false := by simp [isSpace]
  have third : ∀ c ∈ "pypi-".toList, isSpace c = false := by simp [isSpace]
  rw [findKey, findKey]
  simp only [List.findSome?_cons, keyAt_stop first space, keyAt_stop second space,
    keyAt_stop third space, List.findSome?_nil]

theorem of_keyAt (keys : ∀ c ∈ start, isKeyChar c = true)
    (found : keyAt text start = some (length, new)) :
    new = stars ∧ length ≤ text.length ∧ 0 < length ∧
      ∀ c ∈ text.take length, isKeyChar c = true := by
  rw [keyAt] at found
  split_ifs at found with here
  obtain ⟨⟨tail, rfl⟩, some_⟩ := here
  rw [List.drop_left] at found some_
  obtain ⟨rfl, rfl⟩ := Prod.mk.inj (Option.some.inj found)
  have positive := List.length_pos_of_ne_nil some_
  have fewer := (List.takeWhile_sublist (l := tail) isKeyChar).length_le
  have taken : (start ++ tail).take (start.length + (tail.takeWhile isKeyChar).length) =
      start ++ tail.takeWhile isKeyChar := by
    rw [List.take_length_add_append, List.prefix_iff_eq_take.mp (List.takeWhile_prefix _)]
    simp
  rw [List.length_append, taken]
  refine ⟨rfl, by omega, by omega, ?_⟩
  intro c member
  obtain front | back := List.mem_append.mp member
  · exact keys c front
  · exact List.mem_takeWhile_imp back

/-- A match of the second pattern has no other characters than those of keys. -/
theorem of_findKey (found : findKey wide before text = some (length, new)) :
    new = stars ∧ length ≤ text.length ∧ 0 < length ∧
      ∀ c ∈ text.take length, isKeyChar c = true := by
  have keys : ∀ start ∈ ["sk-".toList, "ghp-".toList, "pypi-".toList],
      ∀ c ∈ start, isKeyChar c = true := by simp [isKeyChar]
  rw [findKey] at found
  split_ifs at found
  obtain ⟨start, member, here⟩ := List.exists_of_findSome?_eq_some found
  exact of_keyAt (keys start member) here

theorem findKey_of_not_key (other : isKeyChar c = false) :
    findKey wide before (c :: rest) = none := by
  cases found : findKey wide before (c :: rest) with
  | none => rfl
  | some replaced =>
      obtain ⟨-, -, positive, keys⟩ := of_findKey found
      obtain ⟨k, split⟩ := Nat.exists_eq_add_of_lt positive
      rw [split, Nat.zero_add, List.take_succ_cons] at keys
      rw [keys c List.mem_cons_self] at other
      cases other

/-- White space ends whatever the second pattern matches. -/
theorem sub_key_space (space : isSpace c = true) :
    sub (findKey wide) before 0 (text ++ c :: rest) =
      sub (findKey wide) before 0 text ++ c :: sub (findKey wide) (some c) 0 rest := by
  rw [sub_append, scan_eq_sub (fun _ _ _ _ => findKey_stop space)
    (fun _ _ _ _ found => (of_findKey found).2.1) (Nat.zero_le _),
    sub_cons_none (findKey_of_not_key (not_keyChar_of_isSpace space))]

theorem count_sub_key (other : isKeyChar c = false) (unstarred : c ≠ '*') {inside : Nat} :
    (sub (findKey wide) before inside text).count c = (text.drop inside).count c := by
  refine count_sub fun before text length new found => ?_
  obtain ⟨rfl, -, positive, keys⟩ := of_findKey found
  refine ⟨positive, ?_⟩
  rw [List.count_eq_zero.mpr, List.count_eq_zero.mpr]
  · intro member
    rw [keys c member] at other
    cases other
  · intro member
    exact unstarred (by simpa [stars] using member)

/-- The first word of what the second pattern leaves is what it leaves of the first word. -/
theorem word_sub_key :
    word (sub (findKey wide) before 0 text) = sub (findKey wide) before 0 (word text) := by
  have solid : word (sub (findKey wide) before 0 (word text)) =
      sub (findKey wide) before 0 (word text) := by
    refine List.takeWhile_eq_self_iff.mpr fun c member => ?_
    by_contra blank
    have space : isSpace c = true := by simpa using blank
    have unstarred : c ≠ '*' := by
      rintro rfl
      exact absurd space (by decide)
    have counted := List.count_pos_iff.mpr member
    rw [count_sub_key (not_keyChar_of_isSpace space) unstarred, List.drop_zero,
      List.count_pos_iff] at counted
    exact blank (List.mem_takeWhile_imp (p := fun c => !isSpace c) counted)
  have split : text = word text ++ text.dropWhile fun c => !isSpace c :=
    (List.takeWhile_append_dropWhile ..).symm
  cases rest : text.dropWhile fun c => !isSpace c with
  | nil =>
      rw [rest, List.append_nil] at split
      rw [← split] at solid
      rw [solid, ← split]
  | cons c tail =>
      have shown := List.head?_dropWhile_not (fun c => !isSpace c) text
      rw [rest] at shown split
      have space : isSpace c = true := by simpa using shown
      conv_lhs => rw [split, sub_key_space space, word_append_space space]
      exact solid

end Keys

section Lines

variable {wide : Char → Bool} {before after token other : String} {c : Char}

/-- The text in front of `Bearer`, as the first pattern leaves it. -/
def front (before : String) : List Char × Nat :=
  scan findBearer "Bearer ".toList none 0 before.toList

/-- What the first pattern leaves behind `Bearer `. -/
def behind (token after : List Char) : List Char :=
  if token.takeWhile isTokenChar = [] then sub findBearer none 0 (token ++ after)
  else stars ++ sub findBearer none 0 (token.dropWhile isTokenChar ++ after)

theorem toList_line : (line before token after).toList =
    before.toList ++ (bearer ++ ' ' :: (token.toList ++ after.toList)) := by
  simp [line, bearer]

/-- What is in front of the token is scanned in the same way for every token. -/
theorem sub_line : sub findBearer none 0 (line before token after).toList =
    (front before).1 ++
      sub findBearer none (front before).2 (bearer ++ ' ' :: (token.toList ++ after.toList)) := by
  have same : scan findBearer (bearer ++ ' ' :: (token.toList ++ after.toList)) none 0
      before.toList = front before :=
    scan_congr fun _ _ _ _ => findBearer_ahead
  rw [toList_line, sub_append, same, sub_before_bearer none]

theorem reach_le : (front before).2 ≤ 6 :=
  scan_snd_le (fun _ _ _ _ _ _ found => length_findBearer_le found) (Nat.zero_le _)

theorem redact_line (opens : Opens before) (nonempty : token ≠ "")
    (visible : ∀ c ∈ token.toList.head?, isSpace c = false) (ends : Ends after) :
    (redact wide (line before token after)).toList =
      sub (findKey wide) none 0 ((front before).1 ++ bearer) ++
        ' ' :: sub (findKey wide) (some ' ') 0 (behind token.toList after.toList) := by
  have inside : (front before).2 = 0 := opens
  have some_ : token.toList ≠ [] := by simpa using nonempty
  rw [redact, String.toList_ofList, sub_line, inside, sub_bearer some_ visible ends,
    ← List.append_assoc, sub_key_space (by decide), behind]

theorem word_behind (solid : ∀ c ∈ token.toList, isSpace c = false) (ends : Ends after) :
    word (behind token.toList after.toList) =
      if token.toList.takeWhile isTokenChar = [] then token.toList
      else stars ++ token.toList.dropWhile isTokenChar := by
  have word_append {text : List Char} (solid : ∀ c ∈ text, isSpace c = false) :
      word (text ++ after.toList) = text := by
    have whole : word text = text :=
      List.takeWhile_eq_self_iff.mpr fun c member => by rw [solid c member]; rfl
    cases rest : after.toList with
    | nil => rw [List.append_nil, whole]
    | cons c tail => rw [word_append_space (ends c (by rw [rest]; rfl)), whole]
  have stars_append {text : List Char} : word (stars ++ text) = stars ++ word text := rfl
  rw [behind]
  split_ifs
  · rw [word_sub_bearer, word_append solid]
  · rw [stars_append, word_sub_bearer, word_append]
    intro c member
    exact solid c ((List.dropWhile_sublist isTokenChar).subset member)

/-- Behind a token that matches, and behind the stars, nothing of it is left. -/
theorem behind_redactable (redactable : Redactable token) :
    behind token.toList after.toList = stars ++ sub findBearer none 0 after.toList := by
  obtain ⟨nonempty, chars⟩ | rfl := redactable
  · have all_ : token.toList.takeWhile isTokenChar = token.toList :=
      List.takeWhile_eq_self_iff.mpr chars
    have none_ : token.toList.dropWhile isTokenChar = [] :=
      List.dropWhile_eq_nil_iff.mpr chars
    rw [behind, all_, none_, if_neg (by simpa using nonempty)]
    rfl
  · have apart : ∀ c ∈ stars, ∀ before rest, findBearer before (c :: rest) = none := by
      intro c member before rest
      refine findBearer_of_ne ?_
      rintro rfl
      exact absurd member (by decide)
    refine (if_pos (by decide)).trans ?_
    exact (sub_of_apart apart).trans (congrArg (stars ++ ·) (sub_before_bearer none))

theorem Redactable.visible (redactable : Redactable token) :
    token ≠ "" ∧ ∀ c ∈ token.toList.head?, isSpace c = false := by
  obtain ⟨nonempty, chars⟩ | rfl := redactable
  · refine ⟨nonempty, fun c first => ?_⟩
    cases space : isSpace c with
    | false => rfl
    | true =>
        have token := not_tokenChar_of_isSpace space
        rw [chars c (List.mem_of_mem_head? first)] at token
        cases token
  · exact ⟨by decide, by simp [isSpace]⟩

theorem redact_eq (opens : Opens before) (ends : Ends after) (first : Redactable token)
    (second : Redactable other) :
    redact wide (line before token after) = redact wide (line before other after) := by
  rw [← String.toList_inj, redact_line opens first.visible.1 first.visible.2 ends,
    redact_line opens second.visible.1 second.visible.2 ends, behind_redactable first,
    behind_redactable second]

theorem count_redact_space {text : String} (space : isSpace c = true) :
    (redact wide text).toList.count c = text.toList.count c := by
  have unstarred : c ≠ '*' := by
    rintro rfl
    exact absurd space (by decide)
  rw [redact, String.toList_ofList, count_sub_key (not_keyChar_of_isSpace space) unstarred,
    List.drop_zero, count_sub fun _ _ _ _ => count_findBearer space, List.drop_zero]

/-- A token that is not behind a `Bearer` of its own is left in the text. -/
theorem count_redact_tilde (inside : ¬ Opens before) (clean : 'B' ∉ token.toList) :
    (redact wide (line before token after)).toList.count '~' =
      (front before).1.count '~' + token.toList.count '~' +
        (sub findBearer none 0 after.toList).count '~' := by
  have reach : (front before).2 ≤ 6 := reach_le
  have positive : 0 < (front before).2 := Nat.pos_of_ne_zero inside
  have dropped : List.Sublist ("Bearer ".toList.drop (front before).2) "earer ".toList :=
    List.drop_sublist_drop_left _ positive
  have taken : ("Bearer ".toList.take (front before).2).length = (front before).2 :=
    List.length_take_of_le (Nat.le_trans reach (by decide))
  have apart : ∀ c ∈ "Bearer ".toList.drop (front before).2 ++ token.toList,
      ∀ before rest, findBearer before (c :: rest) = none := by
    intro c member before rest
    refine findBearer_of_ne ?_
    rintro rfl
    obtain lead | own := List.mem_append.mp member
    · exact absurd (dropped.subset lead) (by decide)
    · exact clean own
  have split : bearer ++ ' ' :: (token.toList ++ after.toList) =
      "Bearer ".toList.take (front before).2 ++
        ("Bearer ".toList.drop (front before).2 ++ token.toList ++ after.toList) := by
    rw [List.append_assoc, ← List.append_assoc, List.take_append_drop]
    rfl
  have passed : sub findBearer none (front before).2
      (bearer ++ ' ' :: (token.toList ++ after.toList)) =
        "Bearer ".toList.drop (front before).2 ++ token.toList ++
          sub findBearer none 0 after.toList := by
    rw [split, sub_inside taken, sub_of_apart apart, sub_before_bearer none]
  have lead : ("Bearer ".toList.drop (front before).2).count '~' = 0 :=
    List.count_eq_zero.mpr fun member => absurd (dropped.subset member) (by decide)
  rw [redact, String.toList_ofList, count_sub_key (by decide) (by decide), List.drop_zero, sub_line,
    passed]
  simp only [List.count_append, lead]
  omega

/-- A token that is redacted as another one is has no white space. -/
theorem solid_of_eq
    (same : redact wide (line before token after) = redact wide (line before "x" after)) :
    ∀ c ∈ token.toList, isSpace c = false := by
  intro c member
  cases space : isSpace c with
  | false => rfl
  | true =>
      have counts := congrArg (fun text => text.toList.count c) same
      simp only [count_redact_space space, toList_line, List.count_append, List.count_cons]
        at counts
      have shown : "x".toList.count c = 0 := by
        rw [List.count_eq_zero]
        intro only
        obtain rfl := List.mem_singleton.mp only
        exact absurd space (by decide)
      have positive := List.count_pos_iff.mpr member
      omega

theorem sub_stars {text : List Char} {previous : Option Char} :
    sub (findKey wide) previous 0 (stars ++ text) =
      stars ++ sub (findKey wide) (some '*') 0 text := by
  refine sub_of_apart fun c member _ _ => findKey_of_not_key ?_
  obtain rfl : c = '*' := by simpa [stars] using member
  decide

/-- A text that the second pattern leaves shorter than the stars has no match in it. -/
theorem sub_key_short {text : List Char} {previous : Option Char}
    (short : (sub (findKey wide) previous 0 text).length < 3) :
    sub (findKey wide) previous 0 text = text := by
  have long : ∀ before text length new, findKey wide before text = some (length, new) →
      3 ≤ new.length := by
    intro before text length new found
    rw [(of_findKey found).1]
    decide
  exact (sub_eq_self_or long).resolve_right (Nat.not_le.mpr short)

theorem redactable_of_eq (opens : Opens before) (ends : Ends after) (shown : strip token ≠ "")
    (same : redact wide (line before token after) = redact wide (line before "x" after)) :
    Redactable token := by
  have solid := solid_of_eq same
  have nonempty : token ≠ "" := by
    rintro rfl
    exact shown (by decide)
  -- the first words behind `Bearer ` are the same
  rw [← String.toList_inj, redact_line opens nonempty
    (fun c first => solid c (List.mem_of_mem_head? first)) ends,
    redact_line opens (by decide) (by simp [isSpace]) ends] at same
  have words := congrArg word (List.cons.inj (List.append_cancel_left same)).2
  have letter : word (behind "x".toList after.toList) = stars :=
    (word_behind (by simp [isSpace]) ends).trans (by decide)
  have unchanged : sub (findKey wide) (some ' ') 0 stars = stars := by
    rw [← List.append_nil stars, sub_stars]
    rfl
  rw [word_sub_key, word_sub_key, letter, word_behind solid ends, unchanged] at words
  split_ifs at words with none_
  · -- the token starts with a star, and no key is long enough to leave the other two
    refine .inr ?_
    obtain ⟨d, rest, split⟩ :=
      List.exists_cons_of_ne_nil (show token.toList ≠ [] by simpa using nonempty)
    rw [split] at none_ words
    have no_key : isKeyChar d = false := by
      rw [Bool.eq_false_iff]
      intro key
      rw [List.takeWhile_cons_of_pos (isTokenChar_of_isKeyChar key)] at none_
      cases none_
    rw [sub_cons_none (findKey_of_not_key no_key)] at words
    obtain ⟨rfl, tail⟩ := List.cons.inj words
    rw [sub_key_short (by rw [tail]; decide)] at tail
    rw [← String.toList_inj, split, tail]
    rfl
  · refine .inl ⟨nonempty, ?_⟩
    have tail : sub (findKey wide) (some '*') 0 (token.toList.dropWhile isTokenChar) = [] := by
      rw [sub_stars] at words
      exact List.append_right_eq_self.mp words
    rw [sub_key_short (by rw [tail]; decide)] at tail
    exact List.dropWhile_eq_nil_iff.mp tail

theorem Accepted.visible (accepted : Accepted token) : strip token ≠ "" := by
  obtain ⟨roles, auth, role, accepted, held⟩ := accepted
  have member := (TokenAuthenticator.get?_name_iff accepted).mp held
  exact auth.nonblank token (List.mem_map_of_mem member)

/-- A token is redacted as every token of the pattern's characters is, exactly where its
`Bearer` is not inside another match and the token itself is of these characters, or three
stars; two tokens of that kind cannot be told apart. -/
theorem redact_hides_iff (accepted : Accepted token) (ends : Ends after) :
    ((∀ other, Plain other →
        redact wide (line before token after) = redact wide (line before other after)) ↔
      Opens before ∧ Redactable token) ∧
    ∀ other, Opens before → Redactable token → Redactable other →
      redact wide (line before token after) = redact wide (line before other after) := by
  refine ⟨⟨fun hidden => ?_, ?_⟩, fun other opens => redact_eq opens ends⟩
  · have opens : Opens before := by
      by_contra inside
      -- two tokens that are left in the text, of different lengths
      have one := congrArg (fun text => text.toList.count '~')
        (hidden "~" (by simp [Plain, isTokenChar]))
      have two := congrArg (fun text => text.toList.count '~')
        (hidden "~~" (by simp [Plain, isTokenChar]))
      rw [one] at two
      simp only [count_redact_tilde inside (by decide : 'B' ∉ "~".toList),
        count_redact_tilde inside (by decide : 'B' ∉ "~~".toList)] at two
      have lengths : "~".toList.count '~' = 1 ∧ "~~".toList.count '~' = 2 := by decide
      omega
    exact ⟨opens, redactable_of_eq opens ends accepted.visible
      (hidden "x" (by simp [Plain, isTokenChar]))⟩
  · rintro ⟨opens, redactable⟩ other plain
    exact redact_eq opens ends redactable (.inl plain)

end Lines

/-- An accepted role map whose tokens are not of the pattern's characters. -/
def phrases : Dict String Json :=
  ⟨[("user", .str "correct horse"), ("admin", .str "pass!word")], by decide⟩

theorem accepted_horse : Accepted "correct horse" :=
  ⟨phrases, ⟨⟨[("correct horse", .user), ("pass!word", .admin)], by decide⟩, by decide⟩, .user,
    rfl, rfl⟩

theorem accepted_word : Accepted "pass!word" :=
  ⟨phrases, ⟨⟨[("correct horse", .user), ("pass!word", .admin)], by decide⟩, by decide⟩, .admin,
    rfl, rfl⟩

theorem redact_hides_iff_horse :
    ((∀ other, Plain other → redact (fun _ => true) (line "Authorization: " "correct horse" "") =
        redact (fun _ => true) (line "Authorization: " other "")) ↔
      Opens "Authorization: " ∧ Redactable "correct horse") ∧
    ∀ other, Opens "Authorization: " → Redactable "correct horse" → Redactable other →
      redact (fun _ => true) (line "Authorization: " "correct horse" "") =
        redact (fun _ => true) (line "Authorization: " other "") :=
  redact_hides_iff accepted_horse (by simp [Ends])

/-- Most of these tokens is written to the log. -/
theorem redact_tells_apart :
    Accepted "correct horse" ∧ Accepted "pass!word" ∧
      redact (fun _ => true) (line "Authorization: " "correct horse" "") =
        "Authorization: Bearer *** horse" ∧
      redact (fun _ => true) (line "Authorization: " "pass!word" "") =
        "Authorization: Bearer ***!word" := by
  refine ⟨accepted_horse, accepted_word, ?_, ?_⟩ <;> decide

end MultiAgent.Plugin.Redaction
