import MultiAgent.Foundations.Lines

/-!
# Reading lines from the end, block by block

A reader goes through a file from its end in blocks of a fixed size. The first part of a block
may be the end of a line, so it is kept for the next block. What the reader does with a line is
a parameter: it may fail, and it may have enough. The blocks make no difference to the lines
that are read.
-/

namespace MultiAgent.Blocks

variable {α σ ε : Type*} [DecidableEq α] {separator : α} {size : Nat} {positive : 0 < size}
  {full : σ → Bool} {turn : List α → σ → Except ε σ} {file chunk : List α} {pos : Nat} {s t : σ}

/-- The lines one after the other, until the reader has enough. -/
def scan (full : σ → Bool) (turn : List α → σ → Except ε σ) : List (List α) → σ → Except ε σ
  | [], s => .ok s
  | line :: rest, s =>
    match turn line s with
    | .error e => .error e
    | .ok t => if full t then .ok t else scan full turn rest t

/-- The blocks in front of `pos`; `chunk` is the start of a line behind it. -/
def readBack (separator : α) (size : Nat) (positive : 0 < size) (full : σ → Bool)
    (turn : List α → σ → Except ε σ) (file : List α) (pos : Nat) (chunk : List α) (s : σ) :
    Except ε σ :=
  if pos = 0 ∨ full s then .ok s
  else
    let start := pos - min size pos
    let parts := ((file.drop start).take (min size pos) ++ chunk).splitOn separator
    if 0 < start then
      match scan full turn parts.tail.reverse s with
      | .error e => .error e
      | .ok t => readBack separator size positive full turn file start (parts.headD []) t
    else scan full turn parts.reverse s
termination_by pos
decreasing_by omega

omit [DecidableEq α] in
theorem scan_congr {other : List α → σ → Except ε σ} {lines : List (List α)}
    (same : ∀ line ∈ lines, turn line = other line) :
    scan full turn lines s = scan full other lines s := by
  induction lines generalizing s with
  | nil => rfl
  | cons line rest ih =>
      rw [scan, scan, same line (by simp)]
      cases other line s with
      | error e => rfl
      | ok t =>
          dsimp only
          rw [ih fun line member => same line (by simp [member])]

omit [DecidableEq α] in
/-- The lines of two lists, where the second is left out if the first is enough. -/
theorem scan_append {a b : List (List α)} (missing : full s = false) :
    scan full turn (a ++ b) s =
      (scan full turn a s).bind fun t => if full t then .ok t else scan full turn b t := by
  induction a generalizing s with
  | nil =>
      change _ = if full s = true then _ else _
      rw [missing]
      rfl
  | cons line rest ih =>
      rw [List.cons_append, scan, scan]
      cases turn line s with
      | error e => rfl
      | ok t =>
          dsimp only
          cases enough : full t with
          | true => simp [Except.bind, enough]
          | false => exact ih enough

theorem readBack_of_full (enough : full s = true) :
    readBack separator size positive full turn file pos chunk s = .ok s := by
  rw [readBack, if_pos (.inr enough)]

/-- The reader goes through the lines in front of `pos`, whatever the blocks are. -/
theorem readBack_eq (inside : 0 < pos) (within : pos ≤ file.length) (missing : full s = false) :
    readBack separator size positive full turn file pos chunk s =
      scan full turn ((file.take pos ++ chunk).splitOn separator).reverse s := by
  induction pos using Nat.strongRecOn generalizing chunk s with
  | ind pos ih =>
      have open_ : ¬ (pos = 0 ∨ full s = true) := by
        rw [missing]
        simpa using Nat.ne_of_gt inside
      rw [readBack, if_neg open_]
      dsimp only
      by_cases more : 0 < pos - min size pos
      · rw [if_pos more]
        obtain ⟨first, rest, split⟩ := List.exists_cons_of_ne_nil (List.splitOn_ne_nil separator
          ((file.drop (pos - min size pos)).take (min size pos) ++ chunk))
        have block : file.take pos = file.take (pos - min size pos) ++
            (file.drop (pos - min size pos)).take (min size pos) := by
          rw [← List.take_add]
          congr 1
          omega
        rw [split, List.headD_cons, List.tail_cons, block, List.append_assoc,
          Lines.splitOn_append split, List.reverse_append, scan_append missing]
        cases scan full turn rest.reverse s with
        | error e => rfl
        | ok t =>
            cases enough : full t with
            | true => simp [readBack_of_full enough, Except.bind, enough]
            | false =>
                have later := @ih (pos - min size pos) (by omega) first t more (by omega) enough
                simp [later, Except.bind, enough]
      · have whole : min size pos = pos := by omega
        rw [if_neg more, whole, Nat.sub_self, List.drop_zero]

end MultiAgent.Blocks
