import MultiAgent.Foundations.Lookup

/-!
# Dictionaries in insertion order

The dictionary of the modelled languages: a key keeps the position of its first
assignment, and a new key goes to the end. The keys are distinct by
construction, so a dictionary holds exactly one value for each of its keys.
-/

namespace MultiAgent

structure Dict (κ : Type*) (ν : Type*) where
  entries : List (κ × ν)
  distinct : (entries.map Prod.fst).Nodup

namespace Dict

variable {κ ν : Type*} [DecidableEq κ]

def empty : Dict κ ν := ⟨[], List.nodup_nil⟩

def keys (d : Dict κ ν) : List κ := d.entries.map Prod.fst

def values (d : Dict κ ν) : List ν := d.entries.map Prod.snd

def get? (d : Dict κ ν) (k : κ) : Option ν :=
  (d.entries.find? fun entry => decide (entry.1 = k)).map Prod.snd

/-- The entries after an assignment. -/
def assign (k : κ) (v : ν) (entries : List (κ × ν)) : List (κ × ν) :=
  if k ∈ entries.map Prod.fst then
    entries.map fun entry => if entry.1 = k then (k, v) else entry
  else entries ++ [(k, v)]

theorem map_fst_assign (k : κ) (v : ν) (entries : List (κ × ν)) :
    (assign k v entries).map Prod.fst =
      if k ∈ entries.map Prod.fst then entries.map Prod.fst else entries.map Prod.fst ++ [k] := by
  rw [assign]
  split
  · rw [List.map_map]
    apply List.map_congr_left
    intro entry _
    by_cases same : entry.1 = k <;> simp [same]
  · simp

def set (d : Dict κ ν) (k : κ) (v : ν) : Dict κ ν where
  entries := assign k v d.entries
  distinct := by
    rw [map_fst_assign]
    split
    · exact d.distinct
    · rename_i fresh
      rw [List.nodup_append]
      refine ⟨d.distinct, by simp, ?_⟩
      rintro a ha b hb rfl
      exact fresh (List.mem_singleton.mp hb ▸ ha)

variable {d : Dict κ ν} {k k' : κ} {v v' : ν}

theorem mem_keys_set : k' ∈ (d.set k v).keys ↔ k' = k ∨ k' ∈ d.keys := by
  have shape : (d.set k v).keys = if k ∈ d.keys then d.keys else d.keys ++ [k] :=
    map_fst_assign k v d.entries
  rw [shape]
  by_cases known : k ∈ d.keys
  · rw [if_pos known]
    exact ⟨.inr, fun h => h.elim (fun same => same ▸ known) id⟩
  · rw [if_neg known, List.mem_append, List.mem_singleton, or_comm]

/-- A new key goes to the end. -/
theorem entries_set_of_notMem (fresh : k ∉ d.keys) :
    (d.set k v).entries = d.entries ++ [(k, v)] :=
  if_neg fresh

theorem keys_set_of_notMem (fresh : k ∉ d.keys) : (d.set k v).keys = d.keys ++ [k] := by
  rw [keys, entries_set_of_notMem fresh, List.map_append]
  rfl

theorem get?_eq_some_iff : d.get? k = some v ↔ (k, v) ∈ d.entries := by
  constructor
  · intro found
    obtain ⟨entry, hit, rfl⟩ := Option.map_eq_some_iff.mp found
    obtain ⟨member, rfl⟩ := Lookup.of_find? hit
    exact member
  · intro member
    rw [get?, Lookup.find?_eq_some d.distinct member]
    rfl

theorem mem_keys_iff : k ∈ d.keys ↔ ∃ v, d.get? k = some v := by
  constructor
  · intro known
    obtain ⟨entry, member, rfl⟩ := List.mem_map.mp known
    exact ⟨entry.2, get?_eq_some_iff.mpr member⟩
  · rintro ⟨v, found⟩
    exact List.mem_map.mpr ⟨_, get?_eq_some_iff.mp found, rfl⟩

theorem get?_eq_none_iff : d.get? k = none ↔ k ∉ d.keys := by
  rw [mem_keys_iff, Option.eq_none_iff_forall_ne_some]
  exact not_exists.symm

@[simp] theorem get?_set_self : (d.set k v).get? k = some v := by
  rw [get?_eq_some_iff]
  change (k, v) ∈ assign k v d.entries
  rw [assign]
  split
  · rename_i known
    obtain ⟨entry, member, same⟩ := List.mem_map.mp known
    exact List.mem_map.mpr ⟨entry, member, if_pos same⟩
  · simp

theorem get?_set_of_ne (other : k' ≠ k) : (d.set k v).get? k' = d.get? k' := by
  apply Option.ext
  intro w
  rw [get?_eq_some_iff, get?_eq_some_iff]
  change (k', w) ∈ assign k v d.entries ↔ _
  rw [assign]
  split
  · rw [List.mem_map]
    constructor
    · rintro ⟨entry, member, same⟩
      by_cases hit : entry.1 = k
      · rw [if_pos hit] at same
        exact absurd (congrArg Prod.fst same).symm other
      · rw [if_neg hit] at same
        exact same ▸ member
    · exact fun member => ⟨_, member, if_neg other⟩
  · simp [other]

theorem get?_set : (d.set k v).get? k' = if k' = k then some v else d.get? k' := by
  by_cases same : k' = k
  · rw [if_pos same, same, get?_set_self]
  · rw [if_neg same, get?_set_of_ne same]

theorem mem_values_set (member : v' ∈ (d.set k v).values) : v' = v ∨ v' ∈ d.values := by
  obtain ⟨⟨key, _⟩, entry, rfl⟩ := List.mem_map.mp member
  have found := get?_eq_some_iff.mpr entry
  rw [get?_set] at found
  split at found
  · exact .inl (Option.some.inj found).symm
  · exact .inr (List.mem_map_of_mem (get?_eq_some_iff.mp found))

/-- `d.pop(k, None)` -/
def erase (d : Dict κ ν) (k : κ) : Dict κ ν where
  entries := d.entries.filter fun entry => decide (entry.1 ≠ k)
  distinct := d.distinct.sublist (List.filter_sublist.map Prod.fst)

theorem keys_erase : (d.erase k).keys = d.keys.filter fun key => decide (key ≠ k) := by
  rw [keys, keys, List.filter_map]
  rfl

theorem get?_erase : (d.erase k).get? k' = if k' = k then none else d.get? k' := by
  apply Option.ext
  intro v
  rw [get?_eq_some_iff, erase, List.mem_filter, decide_eq_true_iff, ← get?_eq_some_iff]
  by_cases same : k' = k <;> simp [same]

/-- Every key of the list is dropped. -/
def eraseAll (d : Dict κ ν) (ks : List κ) : Dict κ ν := ks.foldl erase d

theorem keys_eraseAll {ks : List κ} :
    (d.eraseAll ks).keys = d.keys.filter fun key => decide (key ∉ ks) := by
  induction ks generalizing d with
  | nil => simp [eraseAll]
  | cons k ks ih =>
      rw [eraseAll, List.foldl_cons, ← eraseAll, ih, keys_erase, List.filter_filter]
      apply List.filter_congr
      intro key _
      simp [Bool.and_comm]

theorem get?_eraseAll {ks : List κ} :
    (d.eraseAll ks).get? k = if k ∈ ks then none else d.get? k := by
  induction ks generalizing d with
  | nil => simp [eraseAll]
  | cons other ks ih =>
      rw [eraseAll, List.foldl_cons, ← eraseAll, ih, get?_erase]
      by_cases same : k = other <;> by_cases member : k ∈ ks <;> simp [same, member]

theorem keys_set_of_mem (known : k ∈ d.keys) : (d.set k v).keys = d.keys := by
  have shape : (d.set k v).keys = if k ∈ d.keys then d.keys else d.keys ++ [k] :=
    map_fst_assign k v d.entries
  rw [shape, if_pos known]

/-- The value of a key is replaced where it stands; a key that is not there is not added. -/
def modify (d : Dict κ ν) (k : κ) (change : ν → ν) : Dict κ ν where
  entries := d.entries.map fun entry => if entry.1 = k then (entry.1, change entry.2) else entry
  distinct := by
    have same : (d.entries.map fun entry =>
        if entry.1 = k then (entry.1, change entry.2) else entry).map Prod.fst =
        d.entries.map Prod.fst := by
      rw [List.map_map]
      apply List.map_congr_left
      intro entry _
      by_cases hit : entry.1 = k <;> simp [hit]
    rw [same]
    exact d.distinct

theorem keys_modify {change : ν → ν} : (d.modify k change).keys = d.keys := by
  rw [keys, modify, List.map_map]
  apply List.map_congr_left
  intro entry _
  by_cases hit : entry.1 = k <;> simp [hit]

theorem get?_modify {change : ν → ν} :
    (d.modify k change).get? k' = if k' = k then (d.get? k').map change else d.get? k' := by
  apply Option.ext
  intro w
  rw [get?_eq_some_iff, modify, List.mem_map]
  constructor
  · rintro ⟨entry, member, same⟩
    have found : d.get? entry.1 = some entry.2 := get?_eq_some_iff.mpr member
    by_cases hit : entry.1 = k
    · rw [if_pos hit, Prod.mk.injEq] at same
      rw [← same.1, if_pos hit, found, ← same.2]
      rfl
    · rw [if_neg hit] at same
      rw [same] at found hit
      rw [if_neg hit]
      exact found
  · intro found
    by_cases hit : k' = k
    · rw [if_pos hit] at found
      obtain ⟨v, before, rfl⟩ := Option.map_eq_some_iff.mp found
      exact ⟨(k', v), get?_eq_some_iff.mp before, if_pos hit⟩
    · rw [if_neg hit] at found
      exact ⟨(k', w), get?_eq_some_iff.mp found, if_neg hit⟩

/-- The `n` keys that were assigned first are dropped. -/
def drop (d : Dict κ ν) (n : Nat) : Dict κ ν where
  entries := d.entries.drop n
  distinct := d.distinct.sublist ((List.drop_sublist n _).map Prod.fst)

omit [DecidableEq κ] in
theorem keys_drop {n : Nat} : (d.drop n).keys = d.keys.drop n :=
  List.map_drop

omit [DecidableEq κ] in
theorem drop_zero : d.drop 0 = d := rfl

/-- `d.move_to_end(k)`, where `k` is a key of `d`. -/
def moveToEnd (d : Dict κ ν) (k : κ) : Dict κ ν :=
  match d.get? k with
  | some v => (d.erase k).set k v
  | none => d

theorem keys_moveToEnd (known : k ∈ d.keys) :
    (d.moveToEnd k).keys = d.keys.filter (fun key => decide (key ≠ k)) ++ [k] := by
  obtain ⟨v, found⟩ := mem_keys_iff.mp known
  have fresh : k ∉ (d.erase k).keys := by simp [keys_erase]
  rw [moveToEnd, found]
  simp only
  rw [keys_set_of_notMem fresh, keys_erase]

theorem get?_moveToEnd : (d.moveToEnd k).get? k' = d.get? k' := by
  rw [moveToEnd]
  cases found : d.get? k with
  | none => rfl
  | some v =>
      simp only
      rw [get?_set, get?_erase]
      split_ifs with same
      · rw [same, found]
      · rfl

omit [DecidableEq κ] in
theorem length_keys : d.keys.length = d.entries.length := List.length_map _

/-- The values are what the keys have, in the order of the keys. -/
theorem map_some_values : d.values.map some = d.keys.map d.get? := by
  rw [values, keys, List.map_map, List.map_map]
  apply List.map_congr_left
  intro entry member
  exact (get?_eq_some_iff.mpr member).symm

/-- A key that is left has the value it had. -/
theorem get?_of_drop {n : Nat} (found : (d.drop n).get? k = some v) : d.get? k = some v :=
  get?_eq_some_iff.mpr (List.mem_of_mem_drop (get?_eq_some_iff.mp found))

/-- A key has one entry. -/
theorem filter_entries {entries : List (κ × ν)} (distinct : (entries.map Prod.fst).Nodup)
    (member : (k, v) ∈ entries) :
    entries.filter (fun entry => decide (entry.1 = k)) = [(k, v)] := by
  induction entries with
  | nil => cases member
  | cons entry rest ih =>
      obtain ⟨fresh, distinct⟩ := List.nodup_cons.mp distinct
      obtain rfl | member := List.mem_cons.mp member
      · have others : rest.filter (fun entry => decide (entry.1 = k)) = [] :=
          List.filter_eq_nil_iff.mpr fun other here same =>
            fresh (List.mem_map.mpr ⟨other, here, of_decide_eq_true same⟩)
        rw [List.filter_cons_of_pos (by simp), others]
      · have differs : entry.1 ≠ k := fun same =>
          fresh (same ▸ List.mem_map.mpr ⟨(k, v), member, rfl⟩)
        rw [List.filter_cons_of_neg (by simpa using differs), ih distinct member]

theorem countP_entries {entries : List (κ × ν)} (distinct : (entries.map Prod.fst).Nodup)
    (p : ν → Bool) :
    entries.countP (fun entry => decide (entry.1 = k) && p entry.2) =
      ((entries.find? fun entry => decide (entry.1 = k)).map Prod.snd).toList.countP p := by
  induction entries with
  | nil => rfl
  | cons entry rest ih =>
      obtain ⟨fresh, distinct⟩ := List.nodup_cons.mp distinct
      by_cases same : entry.1 = k
      · have others : rest.countP (fun entry => decide (entry.1 = k) && p entry.2) = 0 := by
          rw [List.countP_eq_zero]
          intro other member hit
          have equal : other.1 = k := by simpa using (Bool.and_eq_true_iff.mp hit).1
          exact fresh (same ▸ equal ▸ List.mem_map_of_mem member)
        simp [List.countP_cons, others, same]
      · simp [ih distinct, same]

/-- When every value names its own key, the values that name a key are counted
by looking it up. -/
theorem countP_values {tag : ν → κ} (tagged : ∀ k v, d.get? k = some v → tag v = k)
    (p : ν → Bool) :
    d.values.countP (fun v => decide (tag v = k) && p v) = (d.get? k).toList.countP p := by
  have named : ∀ entry ∈ d.entries, tag entry.2 = entry.1 := fun entry member =>
    tagged entry.1 entry.2 (get?_eq_some_iff.mpr member)
  calc d.values.countP (fun v => decide (tag v = k) && p v)
      = d.entries.countP (fun entry => decide (tag entry.2 = k) && p entry.2) :=
        List.countP_map
    _ = d.entries.countP (fun entry => decide (entry.1 = k) && p entry.2) :=
        List.countP_congr fun entry member => by rw [named entry member]
    _ = (d.get? k).toList.countP p := countP_entries d.distinct p

end Dict

end MultiAgent
