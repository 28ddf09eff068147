import Mathlib.Data.List.Basic

/-!
# Substitution from left to right

All matches of a pattern are replaced, the leftmost first; a match is looked for with the
text in front of it consumed, and never overlaps the one before. The beginning of a text is
scanned with the text behind it in view (`scan`), which is how substitutions compose.
-/

namespace MultiAgent.Substitution

variable {α : Type*}

/-- Behind a character, if there is one: the length of the match at the start of the text, and
what replaces it. -/
abbrev Finder (α : Type*) := Option α → List α → Option (Nat × List α)

/-- The text with its matches replaced; the first characters may belong to a match before it. -/
def sub (find : Finder α) : Option α → Nat → List α → List α
  | _, _, [] => []
  | _, inside + 1, c :: rest => sub find (some c) inside rest
  | before, 0, c :: rest =>
    match find before (c :: rest) with
    | none => c :: sub find (some c) 0 rest
    | some (length, new) => new ++ sub find (some c) (length - 1) rest

/-- What becomes of a text in front of another one, and how many characters of that belong to
the last match. -/
def scan (find : Finder α) (ahead : List α) : Option α → Nat → List α → List α × Nat
  | _, inside, [] => ([], inside)
  | _, inside + 1, c :: rest => scan find ahead (some c) inside rest
  | before, 0, c :: rest =>
    match find before (c :: rest ++ ahead) with
    | none => (c :: (scan find ahead (some c) 0 rest).1, (scan find ahead (some c) 0 rest).2)
    | some (length, new) =>
      (new ++ (scan find ahead (some c) (length - 1) rest).1,
        (scan find ahead (some c) (length - 1) rest).2)

/-- The last character of a text, or the one before it. -/
def last : Option α → List α → Option α
  | before, [] => before
  | _, c :: rest => last (some c) rest

variable {find : Finder α} {before : Option α} {inside : Nat} {text ahead : List α} {c : α}

theorem sub_cons_none (apart : find before (c :: text) = none) :
    sub find before 0 (c :: text) = c :: sub find (some c) 0 text := by
  rw [sub, apart]

theorem sub_cons_some {length : Nat} {new : List α}
    (found : find before (c :: text) = some (length, new)) :
    sub find before 0 (c :: text) = new ++ sub find (some c) (length - 1) text := by
  rw [sub, found]

theorem sub_append :
    sub find before inside (text ++ ahead) =
      (scan find ahead before inside text).1 ++
        sub find (last before text) (scan find ahead before inside text).2 ahead := by
  induction text generalizing before inside with
  | nil => rfl
  | cons c rest ih =>
      cases inside with
      | succ inside =>
          rw [List.cons_append, sub, scan, last]
          exact ih
      | zero =>
          rw [scan, last]
          cases found : find before (c :: rest ++ ahead) with
          | none => exact (sub_cons_none found).trans (congrArg (c :: ·) ih)
          | some replaced =>
              obtain ⟨length, new⟩ := replaced
              refine (sub_cons_some found).trans ?_
              change new ++ sub find (some c) (length - 1) (rest ++ ahead) = _
              rw [ih, ← List.append_assoc]

/-- The rest of a match is passed over. -/
theorem sub_inside (length : text.length = inside) : sub find before inside (text ++ ahead) =
    sub find (last before text) 0 ahead := by
  subst length
  induction text generalizing before with
  | nil => rfl
  | cons c rest ih =>
      rw [List.cons_append, List.length_cons, sub, last]
      exact ih

/-- Where no character can start a match, the text stays as it is. -/
theorem sub_of_apart (apart : ∀ c ∈ text, ∀ before rest, find before (c :: rest) = none) :
    sub find before 0 (text ++ ahead) = text ++ sub find (last before text) 0 ahead := by
  induction text generalizing before with
  | nil => rfl
  | cons c rest ih =>
      obtain ⟨first, later⟩ := List.forall_mem_cons.mp apart
      rw [List.cons_append, sub_cons_none (first _ _), ih later, last, List.cons_append]

/-- A pattern that does not look back finds the same behind any character. -/
theorem sub_before (blind : ∀ before other text, find before text = find other text)
    (other : Option α) : sub find before inside text = sub find other inside text := by
  cases text with
  | nil => rfl
  | cons c rest =>
      cases inside with
      | succ inside => rfl
      | zero => rw [sub, sub, blind before other]

/-- Two continuations that show the same matches are scanned for alike. -/
theorem scan_congr {other : List α}
    (same : ∀ before c rest, c :: rest <:+ text →
      find before (c :: rest ++ ahead) = find before (c :: rest ++ other)) :
    scan find ahead before inside text = scan find other before inside text := by
  induction text generalizing before inside with
  | nil => rfl
  | cons c rest ih =>
      have later {before inside} : scan find ahead before inside rest =
          scan find other before inside rest :=
        ih fun before d tail suffix => same before d tail (suffix.trans (List.suffix_cons c rest))
      cases inside with
      | succ inside => exact later
      | zero =>
          rw [scan, scan, same before c rest (List.suffix_refl _)]
          cases find before (c :: rest ++ other) with
          | none => simp only [later]
          | some replaced => simp only [later]

/-- No match that starts in the text ends more than `reach` characters behind it. -/
theorem scan_snd_le {reach : Nat}
    (bounded : ∀ before c rest length new, c :: rest <:+ text →
      find before (c :: rest ++ ahead) = some (length, new) → length ≤ rest.length + 1 + reach)
    (start : inside ≤ text.length + reach) :
    (scan find ahead before inside text).2 ≤ reach := by
  induction text generalizing before inside with
  | nil =>
      rw [List.length_nil, Nat.zero_add] at start
      exact start
  | cons c rest ih =>
      have later := fun before d tail length new (suffix : d :: tail <:+ rest) =>
        bounded before d tail length new (suffix.trans (List.suffix_cons c rest))
      rw [List.length_cons] at start
      cases inside with
      | succ inside => exact ih later (by omega)
      | zero =>
          rw [scan]
          cases found : find before (c :: rest ++ ahead) with
          | none => exact ih later (Nat.zero_le _)
          | some replaced =>
              have most := bounded before c rest _ _ (List.suffix_refl _) found
              exact ih later (by omega)

/-- A text that no match leaves is substituted on its own. -/
theorem scan_eq_sub
    (apart : ∀ before c rest, c :: rest <:+ text →
      find before (c :: rest ++ ahead) = find before (c :: rest))
    (bounded : ∀ before text length new, find before text = some (length, new) →
      length ≤ text.length) (start : inside ≤ text.length) :
    scan find ahead before inside text = (sub find before inside text, 0) := by
  induction text generalizing before inside with
  | nil =>
      obtain rfl := Nat.le_zero.mp start
      rfl
  | cons c rest ih =>
      have later {before inside} (start : inside ≤ rest.length) :
          scan find ahead before inside rest = (sub find before inside rest, 0) :=
        ih (fun before d tail suffix =>
          apart before d tail (suffix.trans (List.suffix_cons c rest))) start
      rw [List.length_cons] at start
      cases inside with
      | succ inside => exact later (by omega)
      | zero =>
          rw [scan, sub, apart before c rest (List.suffix_refl _)]
          cases found : find before (c :: rest) with
          | none => simp only [later (Nat.zero_le _)]
          | some replaced =>
              have most := bounded before _ _ _ found
              rw [List.length_cons] at most
              simp only [later (show replaced.1 - 1 ≤ rest.length by omega)]

/-- Where replacements are long, a short result is the text itself. -/
theorem sub_eq_self_or {least : Nat}
    (long : ∀ before text length new, find before text = some (length, new) →
      least ≤ new.length) :
    sub find before 0 text = text ∨ least ≤ (sub find before 0 text).length := by
  induction text generalizing before with
  | nil => exact .inl rfl
  | cons c rest ih =>
      cases found : find before (c :: rest) with
      | none =>
          rw [sub_cons_none found]
          refine ih.imp (fun same => congrArg (c :: ·) same) fun enough => ?_
          rw [List.length_cons]
          exact Nat.le_succ_of_le enough
      | some replaced =>
          rw [sub_cons_some found, List.length_append]
          have enough := long before _ _ _ found
          exact .inr (by omega)

/-- A character that replacements leave as often as it was stays as often as it is. -/
theorem count_sub [DecidableEq α] {d : α}
    (kept : ∀ before text length new, find before text = some (length, new) →
      0 < length ∧ new.count d = (text.take length).count d) :
    (sub find before inside text).count d = (text.drop inside).count d := by
  induction text generalizing before inside with
  | nil => simp [sub]
  | cons c rest ih =>
      cases inside with
      | succ inside => exact ih
      | zero =>
          rw [List.drop_zero]
          cases found : find before (c :: rest) with
          | none => rw [sub_cons_none found, List.count_cons, ih, List.drop_zero, List.count_cons]
          | some replaced =>
              obtain ⟨positive, same⟩ := kept before _ _ _ found
              obtain ⟨length, new⟩ := replaced
              obtain ⟨k, rfl⟩ := Nat.exists_eq_add_of_lt positive
              rw [sub_cons_some found, List.count_append, ih, same, ← List.count_append]
              congr 1
              simp

end MultiAgent.Substitution
