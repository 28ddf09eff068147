import Mathlib.Data.List.DropRight

/-!
# The longest suffix that fits

A log that grows at its end is cut at its front until it fits again. What is left is the
longest suffix of the whole log that fits, if fewer of the newest elements always fit where
more of them do (`Longest.concat`).
-/

namespace MultiAgent

variable {α : Type*}

/-- Of the suffixes of `all` that fit, `kept` is the longest. -/
structure Longest (fits : List α → Prop) (all kept : List α) : Prop where
  suffix : kept <:+ all
  fit : fits kept
  most : ∀ other, other <:+ all → fits other → other <:+ kept

namespace Longest

variable {fits first second : List α → Prop} {all kept last : List α} {x : α}

theorem self (fit : fits all) : Longest fits all all where
  suffix := List.suffix_refl all
  fit := fit
  most _ suffix _ := suffix

/-- The oldest element goes where the whole does not fit. -/
theorem cons (longest : Longest fits all kept) (unfit : ¬ fits (x :: all)) :
    Longest fits (x :: all) kept where
  suffix := longest.suffix.trans (List.suffix_cons x all)
  fit := longest.fit
  most other suffix fit := by
    obtain rfl | inside := List.suffix_cons_iff.mp suffix
    · exact absurd fit unfit
    · exact longest.most other inside fit

/-- The log grows: what was cut off before does not come back. -/
theorem concat (narrow : ∀ l, fits (l ++ [x]) → fits l) (earlier : Longest fits all kept)
    (later : Longest fits (kept ++ [x]) last) : Longest fits (all ++ [x]) last where
  suffix := later.suffix.trans ((List.suffix_append_inj_of_length_eq rfl).mpr ⟨earlier.suffix, rfl⟩)
  fit := later.fit
  most other suffix fit := by
    obtain rfl | ⟨front, rfl, inside⟩ := List.suffix_concat_iff.mp suffix
    · exact List.nil_suffix
    · have older := earlier.most front inside (narrow front fit)
      exact later.most _ ((List.suffix_append_inj_of_length_eq rfl).mpr ⟨older, rfl⟩) fit

/-- Two bounds are met one after the other. -/
theorem and (closed : ∀ l k, k <:+ l → first l → first k) (outer : Longest first all kept)
    (inner : Longest second kept last) :
    Longest (fun l => first l ∧ second l) all last where
  suffix := inner.suffix.trans outer.suffix
  fit := ⟨closed kept last inner.suffix outer.fit, inner.fit⟩
  most other suffix fit := inner.most other (outer.most other suffix fit.1) fit.2

theorem congr (same : ∀ l, first l ↔ second l) (longest : Longest first all kept) :
    Longest second all kept where
  suffix := longest.suffix
  fit := (same kept).mp longest.fit
  most other suffix fit := longest.most other suffix ((same other).mpr fit)

/-- The newest element stays if it fits alone. -/
theorem getLast?_eq (longest : Longest fits all kept) (alone : ∀ x ∈ all, fits [x]) :
    kept.getLast? = all.getLast? := by
  obtain rfl | ⟨older, newest, rfl⟩ := all.eq_nil_or_concat'
  · rw [List.suffix_nil.mp longest.suffix]
  · have single : [newest] <:+ older ++ [newest] := List.suffix_append older [newest]
    obtain ⟨front, rfl⟩ := longest.most _ single (alone newest (single.subset (by simp)))
    rw [List.getLast?_concat, List.getLast?_concat]

/-- Where everything fits, everything is kept. -/
theorem eq_all (longest : Longest fits all kept) (fit : fits all) : kept = all :=
  longest.suffix.eq_of_length_le (longest.most all (List.suffix_refl all) fit).length_le

theorem rtake (n : Nat) (all : List α) : Longest (fun l => l.length ≤ n) all (all.rtake n) where
  suffix := List.drop_suffix _ all
  fit := by
    rw [List.rtake, List.length_drop]
    omega
  most other suffix fit := by
    refine List.suffix_of_suffix_length_le suffix (List.drop_suffix _ all) ?_
    have whole := suffix.length_le
    rw [List.rtake, List.length_drop]
    omega

end Longest

end MultiAgent
