import Mathlib.Data.List.Nodup

/-!
# Looking up by key

The first element of a list with a given key, and, in the reversed list, the last one. Where
no two elements share a key these are the same.
-/

namespace MultiAgent

namespace Lookup

variable {α κ : Type*} [DecidableEq κ] {key : α → κ} {l : List α} {a : α} {k : κ}

theorem find?_eq_none (unknown : k ∉ l.map key) :
    l.find? (fun b => decide (key b = k)) = none := by
  rw [List.find?_eq_none]
  intro b member same
  exact unknown (of_decide_eq_true same ▸ List.mem_map_of_mem member)

theorem of_find? {b : α} (found : l.find? (fun b => decide (key b = k)) = some b) :
    b ∈ l ∧ key b = k :=
  ⟨List.mem_of_find?_eq_some found, by simpa using List.find?_some found⟩

theorem exists_find? (key : α → κ) (member : a ∈ l) (same : key a = k) :
    ∃ b, l.find? (fun b => decide (key b = k)) = some b ∧ b ∈ l ∧ key b = k := by
  cases found : l.find? fun b => decide (key b = k) with
  | none => exact absurd same (by simpa using List.find?_eq_none.mp found a member)
  | some b => exact ⟨b, rfl, of_find? found⟩

theorem find?_eq_some (distinct : (l.map key).Nodup) (member : a ∈ l) :
    l.find? (fun b => decide (key b = key a)) = some a := by
  obtain ⟨b, found, inside, same⟩ := exists_find? key member rfl
  rw [found, List.inj_on_of_nodup_map distinct inside member same]

theorem find?_reverse_eq_none (unknown : k ∉ l.map key) :
    l.reverse.find? (fun b => decide (key b = k)) = none := by
  refine find?_eq_none ?_
  rwa [List.map_reverse, List.mem_reverse]

theorem find?_reverse_eq_some (distinct : (l.map key).Nodup) (member : a ∈ l) :
    l.reverse.find? (fun b => decide (key b = key a)) = some a := by
  refine find?_eq_some ?_ (List.mem_reverse.mpr member)
  rwa [List.map_reverse, List.nodup_reverse]

end Lookup

end MultiAgent
