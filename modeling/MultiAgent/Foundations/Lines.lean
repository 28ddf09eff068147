import Mathlib.Data.List.Basic

/-!
# Lines

A text is split at a separator: whole lines, each with the separator behind it, come
first, and what is put before a text only changes its first line.
-/

namespace MultiAgent.Lines

variable {α : Type*} [DecidableEq α] {separator : α}

theorem splitOn_lines {lines : List (List α)} {rest : List α}
    (clean : ∀ line ∈ lines, separator ∉ line) :
    ((lines.flatMap fun line => line ++ [separator]) ++ rest).splitOn separator =
      lines ++ rest.splitOn separator := by
  induction lines with
  | nil => rfl
  | cons line later ih =>
      have split : ((line :: later).flatMap fun line => line ++ [separator]) ++ rest =
          line ++ separator :: ((later.flatMap fun line => line ++ [separator]) ++ rest) := by
        simp
      rw [split, List.splitOn_append_cons_self_of_not_mem (clean line (by simp)),
        ih fun line member => clean line (by simp [member]), List.cons_append]

/-- What comes before a text goes into its first line. -/
theorem splitOn_append {first : List α} {before text : List α} {later : List (List α)}
    (split : text.splitOn separator = first :: later) :
    (before ++ text).splitOn separator = (before ++ first).splitOn separator ++ later := by
  by_cases member : separator ∈ text
  · obtain ⟨line, rest, rfl, clean⟩ := List.eq_append_cons_of_mem member
    rw [List.splitOn_append_cons_self_of_not_mem clean, List.cons.injEq] at split
    obtain ⟨rfl, rfl⟩ := split
    rw [← List.append_assoc, List.splitOn_append_cons_self]
  · rw [List.splitOn_eq_singleton member, List.cons.injEq] at split
    obtain ⟨rfl, rfl⟩ := split
    rw [List.append_nil]

end MultiAgent.Lines
