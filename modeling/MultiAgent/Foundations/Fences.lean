import Mathlib.Data.List.TakeWhile

/-!
# Fenced blocks of a text

A fence is three ticks. A block starts behind a fence, which a tag and blanks may follow,
and ends in front of the next one: what the pattern `fence tag? blank* (.*?) fence` finds
from left to right. The tag and the blanks have no ticks, so a block is found wherever the
fence that opens it has another one behind it.
-/

namespace MultiAgent

namespace Fences

variable {α : Type*} [DecidableEq α] {tick : α} {tag text before inner rest : List α}
variable {blank : α → Bool}

/-- What stands before and behind the first fence. -/
def splitAtFence (tick : α) : List α → Option (List α × List α)
  | [] => none
  | c :: rest =>
    if [tick, tick, tick] <+: c :: rest then some ([], rest.drop 2)
    else (splitAtFence tick rest).map fun parts => (c :: parts.1, parts.2)

theorem splitAtFence_eq (found : splitAtFence tick text = some (before, rest)) :
    text = before ++ [tick, tick, tick] ++ rest := by
  induction text generalizing before with
  | nil => cases found
  | cons c text ih =>
      rw [splitAtFence] at found
      split_ifs at found with fence
      · cases found
        obtain ⟨later, split⟩ := fence
        cases split
        rfl
      · obtain ⟨⟨first, last⟩, later, same⟩ := Option.map_eq_some_iff.mp found
        cases same
        rw [ih later]
        rfl

theorem splitAtFence_eq_none (absent : tick ∉ text) : splitAtFence tick text = none := by
  cases found : splitAtFence tick text with
  | none => rfl
  | some parts =>
      apply absurd _ absent
      rw [splitAtFence_eq found]
      simp

/-- The text in a block, behind the tag and the blanks. -/
def blockStart (tag : List α) (blank : α → Bool) (opened : List α) : List α :=
  (if tag <+: opened then opened.drop tag.length else opened).dropWhile blank

theorem blockStart_suffix : blockStart tag blank text <:+ text := by
  rw [blockStart]
  split_ifs
  · exact (List.dropWhile_suffix _).trans (List.drop_suffix _ _)
  · exact List.dropWhile_suffix _

/-- The texts of the blocks. -/
def fences (tick : α) (tag : List α) (blank : α → Bool) (text : List α) : List (List α) :=
  match _opens : splitAtFence tick text with
  | none => []
  | some (_, opened) =>
    match _closes : splitAtFence tick (blockStart tag blank opened) with
    | none => []
    | some (inner, rest) => inner :: fences tick tag blank rest
termination_by text.length
decreasing_by
  have first := congrArg List.length (splitAtFence_eq _opens)
  have second := congrArg List.length (splitAtFence_eq _closes)
  have start := (@blockStart_suffix _ _ tag opened blank).length_le
  simp only [List.length_append, List.length_cons, List.length_nil] at first second
  omega

theorem fences_eq_nil (absent : tick ∉ text) : fences tick tag blank text = [] := by
  rw [fences]
  split
  · rfl
  · rename_i opens
    rw [splitAtFence_eq_none absent] at opens
    cases opens

theorem fences_cons {opened : List α} (opens : splitAtFence tick text = some (before, opened))
    (closes : splitAtFence tick (blockStart tag blank opened) = some (inner, rest)) :
    fences tick tag blank text = inner :: fences tick tag blank rest := by
  rw [fences]
  split
  · rename_i none
    rw [none] at opens
    cases opens
  · rename_i opened' some
    rw [opens] at some
    cases some
    split
    · rename_i none
      rw [none] at closes
      cases closes
    · rename_i inner' rest' some
      rw [closes] at some
      cases some
      rfl

/-- Between a fence and its block there are a tag and blanks at most. -/
theorem exists_gap (tag opened : List α) (blank : α → Bool) :
    ∃ gap, opened = gap ++ blockStart tag blank opened ∧ ∀ c ∈ gap, c ∈ tag ∨ blank c = true := by
  rw [blockStart]
  split_ifs with tagged
  · obtain ⟨rest, rfl⟩ := tagged
    refine ⟨tag ++ rest.takeWhile blank, ?_, ?_⟩
    · rw [List.drop_left, List.append_assoc, List.takeWhile_append_dropWhile]
    · intro c member
      obtain in_tag | in_rest := List.mem_append.mp member
      · exact .inl in_tag
      · exact .inr (List.mem_takeWhile_imp in_rest)
  · refine ⟨opened.takeWhile blank, List.takeWhile_append_dropWhile.symm, ?_⟩
    intro c member
    exact .inr (List.mem_takeWhile_imp member)

/-- Where a block stands in the text. -/
theorem exists_of_mem_fences (block : inner ∈ fences tick tag blank text) :
    ∃ before gap rest, text = before ++ [tick, tick, tick] ++ gap ++ inner ++ rest ∧
      ∀ c ∈ gap, c ∈ tag ∨ blank c = true := by
  fun_induction fences tick tag blank text with
  | case1 => cases block
  | case2 => cases block
  | case3 text before opened opens first rest closes ih =>
      obtain ⟨gap, start, small⟩ := exists_gap tag opened blank
      rw [splitAtFence_eq closes] at start
      obtain rfl | later := List.mem_cons.mp block
      · refine ⟨before, gap, [tick, tick, tick] ++ rest, ?_, small⟩
        rw [splitAtFence_eq opens, start]
        simp only [List.append_assoc]
      · obtain ⟨before', gap', rest', split, small'⟩ := ih later
        refine ⟨before ++ [tick, tick, tick] ++ gap ++ first ++ [tick, tick, tick] ++ before', gap',
          rest', ?_, small'⟩
        rw [splitAtFence_eq opens, start, split]
        simp only [List.append_assoc]

/-- The text from the first `start` to the last `stop`, if that comes later. -/
def span (start stop : α) (text : List α) : Option (List α) :=
  let tail := text.dropWhile fun c => decide (c ≠ start)
  let body := tail.reverse.dropWhile fun c => decide (c ≠ stop)
  if body.isEmpty then none else some body.reverse

theorem span_eq {start stop : α} (middle : List α) :
    span start stop (start :: (middle ++ [stop])) = some (start :: (middle ++ [stop])) := by
  simp [span]

theorem span_eq_none {start stop : α} {text : List α} (plain : start ∉ text) :
    span start stop text = none := by
  have nothing : (text.dropWhile fun c => decide (c ≠ start)) = [] := by
    rw [List.dropWhile_eq_nil_iff]
    intro c member
    exact decide_eq_true fun same => plain (same ▸ member)
  rw [span, nothing]
  rfl

end Fences

end MultiAgent
