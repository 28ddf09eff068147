import MultiAgent.Foundations.Dict
import MultiAgent.Foundations.Machine
import MultiAgent.Foundations.Recency
import Mathlib.Data.Rat.Defs
import Mathlib.Tactic.Linarith

/-!
# The response cache

`ResponseCache` of `cache.py`, over keys `κ` and values `υ`. Each operation runs under the
lock of the cache, so a run is a sequence of operations; an operation brings along what it
reads from the clock. Clock readings and the time to live are exact rationals.
-/

namespace MultiAgent.Plugin

/-- `data` has each value with the time at which it expires, least recently used first. -/
structure ResponseCache (κ υ : Type) where
  maxsize : Nat
  ttl : Option ℚ
  data : Dict κ (υ × Option ℚ)
  hits : Nat
  misses : Nat
  expired : Nat
  evictions : Nat

namespace ResponseCache

variable {κ υ : Type} [DecidableEq κ]

/-- `ResponseCache(maxsize, ttl)` -/
def new (maxsize : Int) (ttl : Option ℚ) : Except String (ResponseCache κ υ) :=
  let cache : ResponseCache κ υ := ⟨(max 1 maxsize).toNat, ttl, .empty, 0, 0, 0, 0⟩
  match ttl with
  | some seconds =>
    if seconds ≤ 0 then .error "ttl must be positive (or None to disable expiry)" else .ok cache
  | none => .ok cache

/-- `get`, where `now` is what the clock reads if it is asked. -/
def get (c : ResponseCache κ υ) (key : κ) (now : ℚ) : ResponseCache κ υ × Option υ :=
  match c.data.get? key with
  | none => ({ c with misses := c.misses + 1 }, none)
  | some (value, expiresAt) =>
    if expiresAt.any fun limit => decide (limit ≤ now) then
      ({ c with data := c.data.erase key, expired := c.expired + 1, misses := c.misses + 1 }, none)
    else ({ c with data := c.data.moveToEnd key, hits := c.hits + 1 }, some value)

/-- The loop of `put`: the least recently used entry goes, while there are too many. -/
def evict (c : ResponseCache κ υ) : ResponseCache κ υ :=
  if c.maxsize < c.data.entries.length then
    evict { c with data := c.data.drop 1, evictions := c.evictions + 1 }
  else c
termination_by c.data.entries.length
decreasing_by
  change (c.data.entries.drop 1).length < _
  rw [List.length_drop]
  omega

def put (c : ResponseCache κ υ) (key : κ) (value : υ) (now : ℚ) : ResponseCache κ υ :=
  evict { c with
    data := (c.data.set key (value, c.ttl.map fun seconds => now + seconds)).moveToEnd key }

def clear (c : ResponseCache κ υ) : ResponseCache κ υ := { c with data := .empty }

/-- `len(cache)` -/
def size (c : ResponseCache κ υ) : Nat := c.data.entries.length

/-- One operation of a run. -/
inductive Event (κ υ : Type) where
  | get (key : κ) (now : ℚ)
  | put (key : κ) (value : υ) (now : ℚ)
  | clear

def machine : Machine (ResponseCache κ υ) (Event κ υ) where
  step c
    | .get key now => some (c.get key now).1
    | .put key value now => some (c.put key value now)
    | .clear => some c.clear

/-- What a run shows of an operation: what `get` returned, whether the key of `put` was
new, and how many entries `clear` removed. -/
inductive Seen (κ υ : Type) where
  | got (key : κ) (found : Option υ)
  | put (key : κ) (value : υ) (now : ℚ) (fresh : Bool)
  | cleared (removed : Nat)

/-- The operations so far, and what came of them. -/
def seen (c : ResponseCache κ υ) : Event κ υ → List (Seen κ υ)
  | .get key now => [.got key (c.get key now).2]
  | .put key value now => [.put key value now (decide (key ∉ c.data.keys))]
  | .clear => [.cleared c.size]

namespace Seen

/-- The key that was put or hit. -/
def used : Seen κ υ → Option κ
  | .got key (some _) => some key
  | .got _ none => none
  | .put key _ _ _ => some key
  | .cleared _ => none

def isGet : Seen κ υ → Bool
  | .got _ _ => true
  | .put _ _ _ _ | .cleared _ => false

def isInsertion : Seen κ υ → Bool
  | .put _ _ _ fresh => fresh
  | .got _ _ | .cleared _ => false

def isClear : Seen κ υ → Bool
  | .cleared _ => true
  | .got _ _ | .put _ _ _ _ => false

def removed : Seen κ υ → Nat
  | .cleared removed => removed
  | .got _ _ | .put _ _ _ _ => 0

/-- The last value that was put under the key since the last `clear`, and when. -/
def lastPut (key : κ) (log : List (Seen κ υ)) : Option (υ × ℚ) :=
  log.foldl (fun last seen =>
    match seen with
    | .put other value now _ => if other = key then some (value, now) else last
    | .cleared _ => none
    | .got _ _ => last) none

/-- How many distinct other keys were put or hit since the key was. -/
def othersSince (key : κ) (log : List (Seen κ υ)) : Nat :=
  ((log.filterMap used).rtakeWhile fun other => decide (other ≠ key)).dedup.length

/-- What has been seen since the last `clear`. -/
def since (log : List (Seen κ υ)) : List (Seen κ υ) := log.rtakeWhile fun seen => !seen.isClear

end Seen

/-- A cache with the operations so far behaves as one that keeps the least recently used
entries out and its counters right. -/
structure Lru (c : ResponseCache κ υ) (log : List (Seen κ υ)) : Prop where
  /-- A hit returns the last value put since the last `clear`, which has not expired. -/
  current : ∀ key now value, (c.get key now).2 = some value → ∃ stored,
    Seen.lastPut key log = some (value, stored) ∧ ∀ seconds ∈ c.ttl, now - stored < seconds
  /-- Without expiry, a key hits while fewer than `maxsize` others came after it. -/
  recent : c.ttl = none → ∀ key now, (c.get key now).2.isSome ↔
    (Seen.lastPut key log).isSome ∧ Seen.othersSince key log < c.maxsize
  bounded : c.size ≤ c.maxsize
  reads : c.hits + c.misses = log.countP Seen.isGet
  insertions : log.countP Seen.isInsertion =
    c.size + c.evictions + c.expired + (log.map Seen.removed).sum

section Log

open Seen

variable {log : List (Seen κ υ)} {key other : κ} {value : υ} {now : ℚ} {fresh : Bool}
variable {found : Option υ} {removed : Nat}

@[simp] theorem lastPut_put : lastPut key (log ++ [.put other value now fresh]) =
    if other = key then some (value, now) else lastPut key log := by
  simp [lastPut]

@[simp] theorem lastPut_got : lastPut key (log ++ [.got other found]) = lastPut key log := by
  simp [lastPut]

@[simp] theorem lastPut_cleared : lastPut key (log ++ [.cleared removed]) = none := by
  simp [lastPut]

omit [DecidableEq κ] in
theorem since_concat {seen : Seen κ υ} (kept : seen.isClear = false) :
    since (log ++ [seen]) = since log ++ [seen] :=
  List.rtakeWhile_concat_pos _ _ _ (by simp [kept])

omit [DecidableEq κ] in
theorem since_cleared : since (log ++ [.cleared removed]) = [] :=
  List.rtakeWhile_concat_neg _ _ _ (by simp [isClear])

omit [DecidableEq κ] in
theorem used_concat {seen : Seen κ υ} (kept : seen.isClear = false) :
    (since (log ++ [seen])).filterMap used = (since log).filterMap used ++ seen.used.toList := by
  rw [since_concat kept, List.filterMap_append]
  cases used : seen.used <;> simp [used]

/-- What comes behind the last use of a key lies behind the last `clear`, if the use does. -/
theorem othersSince_eq (member : key ∈ (since log).filterMap used) :
    othersSince key log =
      (((since log).filterMap used).rtakeWhile fun other => decide (other ≠ key)).dedup.length := by
  have split : log.filterMap used =
      (log.rdropWhile fun seen => !seen.isClear).filterMap used ++ (since log).filterMap used := by
    rw [since, ← List.filterMap_append, List.rdropWhile_append_rtakeWhile]
  have stops : ((since log).filterMap used).reverse.takeWhile (fun other => decide (other ≠ key)) ≠
      ((since log).filterMap used).reverse := by
    intro all
    have others := List.takeWhile_eq_self_iff.mp all key (List.mem_reverse.mpr member)
    simp at others
  rw [othersSince, split, List.rtakeWhile, List.reverse_append, List.takeWhile_append, if_neg]
  · rfl
  · intro sizes
    exact stops ((List.takeWhile_prefix _).eq_of_length sizes)

/-- A key that was put since the last `clear` was used since. -/
theorem mem_used_of_lastPut (put : (lastPut key log).isSome) :
    key ∈ (since log).filterMap used := by
  induction log using List.reverseRecOn with
  | nil => cases put
  | append_singleton log seen ih =>
      cases seen with
      | got other found =>
          rw [used_concat rfl]
          rw [lastPut_got] at put
          exact List.mem_append_left _ (ih put)
      | put other value now fresh =>
          rw [used_concat rfl]
          rw [lastPut_put] at put
          split_ifs at put with same
          · exact List.mem_append_right _ (by simp [used, same])
          · exact List.mem_append_left _ (ih put)
      | cleared removed =>
          rw [lastPut_cleared] at put
          cases put

end Log

/-- What every operation keeps of the cache and the operations so far. -/
structure Kept (c : ResponseCache κ υ) (log : List (Seen κ υ)) : Prop where
  positive : 0 < c.maxsize
  bounded : c.size ≤ c.maxsize
  stored : ∀ key value expiresAt, c.data.get? key = some (value, expiresAt) → ∃ now,
    Seen.lastPut key log = some (value, now) ∧ expiresAt = c.ttl.map fun seconds => now + seconds
  used : ∀ key ∈ (Seen.since log).filterMap Seen.used, (Seen.lastPut key log).isSome
  keys : c.ttl = none →
    c.data.keys = Recency.recent c.maxsize ((Seen.since log).filterMap Seen.used)
  reads : c.hits + c.misses = log.countP Seen.isGet
  insertions : log.countP Seen.isInsertion =
    c.size + c.evictions + c.expired + (log.map Seen.removed).sum

section Steps

open Seen Recency

variable {c : ResponseCache κ υ} {log : List (Seen κ υ)} {key : κ} {value : υ} {now : ℚ}

omit [DecidableEq κ] in
theorem evict_eq (c : ResponseCache κ υ) : c.evict = { c with
    data := c.data.drop (c.size - c.maxsize)
    evictions := c.evictions + (c.size - c.maxsize) } := by
  induction c using evict.induct with
  | case1 c crowded ih =>
      have smaller : c.data.entries.length - c.maxsize =
          ((c.data.drop 1).entries.length - c.maxsize) + 1 := by
        change _ = ((c.data.entries.drop 1).length - c.maxsize) + 1
        rw [List.length_drop]
        omega
      rw [evict, if_pos crowded, ih]
      simp only [size, smaller]
      congr 1
      · simp [Dict.drop, Nat.add_comm]
      · omega
  | case2 c room =>
      have none_ : c.size - c.maxsize = 0 := Nat.sub_eq_zero_of_le (Nat.le_of_not_lt room)
      rw [evict, if_neg room, none_, Dict.drop_zero]
      rfl

/-- A key that is not there is looked for. -/
theorem Kept.absent (kept : Kept c log) :
    Kept { c with misses := c.misses + 1 } (log ++ [.got key none]) where
  positive := kept.positive
  bounded := kept.bounded
  stored := by simpa using kept.stored
  used := by
    rw [used_concat rfl]
    simpa [Seen.used] using kept.used
  keys := by
    rw [used_concat rfl]
    simpa [Seen.used] using kept.keys
  reads := by
    have reads := kept.reads
    simp only [List.countP_append, List.countP_singleton, isGet, if_true]
    omega
  insertions := by simpa [isInsertion, Seen.removed, size] using kept.insertions

theorem length_erase {d : Dict κ (υ × Option ℚ)} (member : key ∈ d.keys) :
    (d.erase key).entries.length + 1 = d.entries.length := by
  rw [← Dict.length_keys, ← Dict.length_keys, Dict.keys_erase]
  have distinct : d.keys.Nodup := d.distinct
  have erased : d.keys.filter (fun other => decide (other ≠ key)) = d.keys.erase key := by
    rw [distinct.erase_eq_filter]
    apply List.filter_congr
    intro other _
    simp [bne, decide_not, beq_eq_decide]
  rw [erased, List.length_erase_of_mem member]
  have some_ := List.length_pos_of_mem member
  omega

/-- An entry that has expired is dropped when it is read. -/
theorem Kept.lapsed (kept : Kept c log) (member : key ∈ c.data.keys) (expires : c.ttl ≠ none) :
    Kept { c with data := c.data.erase key, expired := c.expired + 1, misses := c.misses + 1 }
      (log ++ [.got key none]) where
  positive := kept.positive
  bounded := by
    have fewer := length_erase member
    have bounded := kept.bounded
    simp only [size] at bounded ⊢
    omega
  stored := by
    intro other value expiresAt found
    rw [Dict.get?_erase] at found
    split_ifs at found
    simpa using kept.stored other value expiresAt found
  used := by
    rw [used_concat rfl]
    simpa [Seen.used] using kept.used
  keys := fun never => absurd never expires
  reads := by
    have reads := kept.reads
    simp only [List.countP_append, List.countP_singleton, isGet, if_true]
    omega
  insertions := by
    have fewer := length_erase member
    have insertions := kept.insertions
    simp [isInsertion, Seen.removed, size] at insertions ⊢
    omega

theorem length_moveToEnd {d : Dict κ (υ × Option ℚ)} (member : key ∈ d.keys) :
    (d.moveToEnd key).entries.length = d.entries.length := by
  have fewer := length_erase member
  rw [← Dict.length_keys, Dict.keys_moveToEnd member, ← Dict.keys_erase, List.length_append,
    Dict.length_keys]
  exact fewer

/-- A hit makes its entry the one used last. -/
theorem Kept.hit (kept : Kept c log) {expiresAt : Option ℚ}
    (found : c.data.get? key = some (value, expiresAt)) :
    Kept { c with data := c.data.moveToEnd key, hits := c.hits + 1 }
      (log ++ [.got key (some value)]) := by
  have member : key ∈ c.data.keys := Dict.mem_keys_iff.mpr ⟨_, found⟩
  have size_eq := length_moveToEnd member
  constructor
  case positive => exact kept.positive
  case bounded =>
    have bounded := kept.bounded
    simp only [size] at bounded ⊢
    omega
  case stored =>
    intro other value expiresAt found
    rw [Dict.get?_moveToEnd] at found
    simpa using kept.stored other value expiresAt found
  case used =>
    rw [used_concat rfl]
    intro other used
    rw [lastPut_got]
    obtain earlier | last := List.mem_append.mp used
    · exact kept.used other earlier
    · obtain rfl : other = key := by simpa [Seen.used] using last
      obtain ⟨now, put, -⟩ := kept.stored _ _ _ found
      rw [put]
      rfl
  case keys =>
    intro never
    obtain ⟨n, positive⟩ : ∃ n, c.maxsize = n + 1 :=
      Nat.exists_eq_succ_of_ne_zero (Nat.ne_of_gt kept.positive)
    have bounded := kept.bounded
    have whole : ∀ l : List κ, l.length ≤ n + 1 → l.rtake (n + 1) = l := by
      intro l short
      rw [List.rtake, Nat.sub_eq_zero_of_le short, List.drop_zero]
    simp only
    rw [used_concat rfl]
    simp only [Seen.used, Option.toList_some, positive]
    rw [recent_concat, ← positive, ← kept.keys never, ← Dict.keys_moveToEnd member, positive, whole]
    rw [Dict.length_keys, size_eq, ← positive]
    exact bounded
  case reads =>
    have reads := kept.reads
    simp only [List.countP_append, List.countP_singleton, isGet, if_true]
    omega
  case insertions =>
    simpa [isInsertion, Seen.removed, size, size_eq] using kept.insertions

/-- `get` keeps the invariant. -/
theorem Kept.get (kept : Kept c log) :
    Kept (c.get key now).1 (log ++ [.got key (c.get key now).2]) := by
  rw [ResponseCache.get]
  cases found : c.data.get? key with
  | none => exact kept.absent
  | some entry =>
      obtain ⟨value, expiresAt⟩ := entry
      simp only
      split_ifs with late
      · apply kept.lapsed (Dict.mem_keys_iff.mpr ⟨_, found⟩)
        obtain ⟨put, -, limit⟩ := kept.stored _ _ _ found
        intro never
        rw [limit, never] at late
        cases late
      · exact kept.hit found

/-- The entry is put, before the oldest entries go. -/
def store (c : ResponseCache κ υ) (key : κ) (value : υ) (now : ℚ) : Dict κ (υ × Option ℚ) :=
  (c.data.set key (value, c.ttl.map fun seconds => now + seconds)).moveToEnd key

theorem keys_store : (c.store key value now).keys =
    c.data.keys.filter (fun other => decide (other ≠ key)) ++ [key] := by
  have member : key ∈ (c.data.set key (value, c.ttl.map fun seconds => now + seconds)).keys :=
    Dict.mem_keys_set.mpr (.inl rfl)
  rw [store, Dict.keys_moveToEnd member]
  by_cases known : key ∈ c.data.keys
  · rw [Dict.keys_set_of_mem known]
  · rw [Dict.keys_set_of_notMem known, List.filter_append]
    simp

theorem get?_store {other : κ} : (c.store key value now).get? other =
    if other = key then some (value, c.ttl.map fun seconds => now + seconds)
    else c.data.get? other := by
  rw [store, Dict.get?_moveToEnd, Dict.get?_set]

theorem length_store : (c.store key value now).entries.length =
    c.size + if key ∈ c.data.keys then 0 else 1 := by
  rw [← Dict.length_keys, keys_store, ← Dict.keys_erase, List.length_append, Dict.length_keys]
  split_ifs with known
  · exact length_erase known
  · have same : c.data.keys.filter (fun other => decide (other ≠ key)) = c.data.keys := by
      apply List.filter_eq_self.mpr
      intro other member
      simp only [ne_eq, decide_not, Bool.not_eq_true', decide_eq_false_iff_not]
      rintro rfl
      exact known member
    rw [← Dict.length_keys, Dict.keys_erase, same, Dict.length_keys]
    rfl

/-- `put` keeps the invariant. -/
theorem Kept.put (kept : Kept c log) :
    Kept (c.put key value now) (log ++ [.put key value now (decide (key ∉ c.data.keys))]) := by
  have opened : c.put key value now = evict { c with data := c.store key value now } := rfl
  have length := @length_store _ _ _ c key value now
  rw [opened, evict_eq]
  constructor
  case positive => exact kept.positive
  case bounded =>
    change ((c.store key value now).entries.drop _).length ≤ c.maxsize
    simp only [size, List.length_drop]
    omega
  case stored =>
    intro other value' expiresAt found
    have before := Dict.get?_of_drop found
    rw [lastPut_put]
    rw [get?_store] at before
    split_ifs at before ⊢ with same same' same'
    · cases before
      exact ⟨now, rfl, rfl⟩
    · exact absurd same.symm same'
    · exact absurd same'.symm same
    · exact kept.stored other value' expiresAt before
  case used =>
    rw [used_concat rfl]
    intro other used
    rw [lastPut_put]
    split_ifs with same
    · rfl
    · obtain earlier | last := List.mem_append.mp used
      · exact kept.used other earlier
      · exact absurd (by simpa [Seen.used] using last : other = key).symm same
  case keys =>
    intro never
    obtain ⟨n, positive⟩ : ∃ n, c.maxsize = n + 1 :=
      Nat.exists_eq_succ_of_ne_zero (Nat.ne_of_gt kept.positive)
    rw [used_concat rfl]
    simp only [Seen.used, Option.toList_some]
    rw [Dict.keys_drop, positive, recent_concat, ← positive, ← kept.keys never, keys_store,
      List.rtake, size, ← keys_store, Dict.length_keys]
  case reads =>
    simpa [isGet] using kept.reads
  case insertions =>
    have insertions := kept.insertions
    have stored : (evict { c with data := c.store key value now }).size =
        (c.store key value now).entries.length -
          ((c.store key value now).entries.length - c.maxsize) := by
      rw [evict_eq]
      exact List.length_drop
    rw [← evict_eq, stored, evict_eq]
    simp only [List.countP_append, insertions, List.countP_singleton, isInsertion, List.map_append,
      List.sum_append, Seen.removed, List.map_singleton, List.sum_singleton, decide_eq_true_eq]
    simp only [size] at length ⊢
    split_ifs at length ⊢ with known
    all_goals omega

/-- `clear` keeps the invariant. -/
theorem Kept.clear (kept : Kept c log) :
    Kept { c with data := .empty } (log ++ [.cleared c.size]) where
  positive := kept.positive
  bounded := Nat.zero_le _
  stored := by
    intro key value expiresAt found
    cases found
  used := by
    rw [since_cleared]
    nofun
  keys := by
    intro never
    rw [since_cleared, List.filterMap_nil, recent, List.dedup_nil, List.rtake_nil]
    rfl
  reads := by simpa [isGet] using kept.reads
  insertions := by
    have insertions := kept.insertions
    simp only [List.countP_append, insertions, List.countP_singleton, isInsertion, List.map_append,
      List.sum_append, Seen.removed, List.map_singleton, List.sum_singleton]
    change _ = 0 + c.evictions + c.expired + _
    simp only [Bool.false_eq_true, if_false]
    omega

theorem get_eq_some_iff : (c.get key now).2 = some value ↔
    ∃ expiresAt, c.data.get? key = some (value, expiresAt) ∧ ∀ limit ∈ expiresAt, now < limit := by
  rw [ResponseCache.get]
  cases found : c.data.get? key with
  | none => simp
  | some entry =>
      obtain ⟨stored, expiresAt⟩ := entry
      cases expiresAt with
      | none => simp
      | some limit =>
          simp only [Option.any_some, decide_eq_true_eq]
          split_ifs with late
          · simp [late]
          · simp [not_le.mp late]

theorem Kept.lru (kept : Kept c log) : Lru c log where
  current := by
    intro key now value hit
    obtain ⟨expiresAt, found, early⟩ := get_eq_some_iff.mp hit
    obtain ⟨stored, put, limit⟩ := kept.stored _ _ _ found
    refine ⟨stored, put, ?_⟩
    intro seconds lives
    have before : now < stored + seconds := early _ (by simp [limit, Option.mem_def.mp lives])
    linarith
  recent := by
    intro never key now
    have hits : (c.get key now).2.isSome ↔ key ∈ c.data.keys := by
      rw [Option.isSome_iff_exists, Dict.mem_keys_iff]
      constructor
      · rintro ⟨value, hit⟩
        obtain ⟨expiresAt, found, -⟩ := get_eq_some_iff.mp hit
        exact ⟨_, found⟩
      · rintro ⟨⟨value, expiresAt⟩, found⟩
        obtain ⟨_, -, limit⟩ := kept.stored _ _ _ found
        refine ⟨value, get_eq_some_iff.mpr ⟨_, found, ?_⟩⟩
        rw [limit, never]
        nofun
    rw [hits, kept.keys never, mem_recent_iff]
    constructor
    · rintro ⟨member, few⟩
      exact ⟨kept.used key member, by rwa [othersSince_eq member]⟩
    · rintro ⟨put, few⟩
      have member := mem_used_of_lastPut put
      exact ⟨member, by rwa [othersSince_eq member] at few⟩
  bounded := kept.bounded
  reads := kept.reads
  insertions := kept.insertions

theorem Kept.step {c' : ResponseCache κ υ} {e : Event κ υ} (kept : Kept c log)
    (taken : machine.step c e = some c') : Kept c' (log ++ seen c e) := by
  cases e with
  | get key now =>
      cases taken
      exact kept.get
  | put key value now =>
      cases taken
      exact kept.put
  | clear =>
      cases taken
      exact kept.clear

theorem kept_new {maxsize : Int} {ttl : Option ℚ} {start : ResponseCache κ υ}
    (opened : new maxsize ttl = .ok start) :
    Kept start [] ∧ start.maxsize = max 1 maxsize ∧ start.ttl = ttl := by
  have fields : start = ⟨(max 1 maxsize).toNat, ttl, .empty, 0, 0, 0, 0⟩ := by
    unfold new at opened
    cases ttl with
    | none =>
        cases opened
        rfl
    | some seconds =>
        simp only at opened
        split_ifs at opened
        cases opened
        rfl
  rw [fields]
  refine ⟨⟨?_, Nat.zero_le _, nofun, nofun, ?_, rfl, rfl⟩, ?_, rfl⟩
  · simp only
    omega
  · intro never
    exact (List.rtake_nil _).symm
  · simp only
    omega

/-- No operation changes the bounds of the cache. -/
theorem step_bounds {c' : ResponseCache κ υ} {e : Event κ υ} (taken : machine.step c e = some c') :
    c'.maxsize = c.maxsize ∧ c'.ttl = c.ttl := by
  cases e with
  | get key now =>
      cases taken
      rw [ResponseCache.get]
      split
      · exact ⟨rfl, rfl⟩
      · split_ifs <;> exact ⟨rfl, rfl⟩
  | put key value now =>
      cases taken
      rw [ResponseCache.put, evict_eq]
      exact ⟨rfl, rfl⟩
  | clear =>
      cases taken
      exact ⟨rfl, rfl⟩

theorem kept_run {maxsize : Int} {ttl : Option ℚ} {start : ResponseCache κ υ}
    {es : List (Event κ υ)} (opened : new maxsize ttl = .ok start)
    (execution : machine.run start es = some c) :
    Kept c (machine.log seen start es) ∧ c.maxsize = max 1 maxsize ∧ c.ttl = ttl := by
  have always : machine.Meets (fun _ _ => True) start es :=
    Machine.meets_of_forall (P := fun _ => True) (fun _ _ _ _ _ => trivial) (fun _ _ _ => trivial)
      trivial es
  apply Machine.run_log_invariant (m := machine)
    (P := fun c log => Kept c log ∧ c.maxsize = max 1 maxsize ∧ c.ttl = ttl) _
    (kept_new opened) always execution
  intro c log e c' inv _ taken
  obtain ⟨same_size, same_ttl⟩ := step_bounds taken
  rw [same_size, same_ttl]
  exact ⟨inv.1.step taken, inv.2⟩

/-- After any sequence of operations the cache is one with the least recently used entries
and with expiry. -/
theorem lru_run (maxsize : Int) (ttl : Option ℚ) (start c : ResponseCache κ υ)
    (es : List (Event κ υ)) (opened : new maxsize ttl = .ok start)
    (execution : machine.run start es = some c) :
    Lru c (machine.log seen start es) ∧ c.maxsize = max 1 maxsize ∧ c.ttl = ttl := by
  obtain ⟨kept, bounds⟩ := kept_run opened execution
  exact ⟨kept.lru, bounds⟩

/-- A cache for one entry, in which the second key pushes the first one out. -/
theorem lru_run_push : ∃ start c : ResponseCache Nat String,
    let es := [.put 0 "a" 0, .put 1 "b" 1, .get 0 2]
    new 1 none = .ok start ∧ machine.run start es = some c ∧ Lru c (machine.log seen start es) :=
  ⟨_, _, rfl, rfl, (lru_run 1 none _ _ _ rfl rfl).1⟩

/-- An entry that has expired, and is dropped when it is read. -/
def Lapsed (c : ResponseCache κ υ) (key : κ) (now : ℚ) : Prop :=
  ∃ value limit, c.data.get? key = some (value, some limit) ∧ limit ≤ now

theorem get?_get {other : κ} : (c.get key now).1.data.get? other =
    if (c.get key now).2 = none ∧ other = key then none else c.data.get? other := by
  rw [ResponseCache.get]
  cases found : c.data.get? key with
  | none =>
      simp only [true_and]
      split_ifs with same
      · rw [same, found]
      · rfl
  | some entry =>
      obtain ⟨value, expiresAt⟩ := entry
      simp only
      split_ifs with late again again
      · rw [Dict.get?_erase, if_pos again.2]
      · rw [Dict.get?_erase, if_neg fun same => again ⟨rfl, same⟩]
      · cases again.1
      · exact Dict.get?_moveToEnd

/-- Reading changes the entries only where one has expired. -/
theorem get_keeps_iff : (∀ other, (c.get key now).1.data.get? other = c.data.get? other) ↔
    ¬ c.Lapsed key now := by
  have missed : (c.get key now).2 = none ↔ ∀ value expiresAt,
      c.data.get? key = some (value, expiresAt) → ∃ limit ∈ expiresAt, limit ≤ now := by
    rw [Option.eq_none_iff_forall_ne_some]
    simp only [ne_eq, get_eq_some_iff, not_exists, not_and, not_forall, not_lt, exists_prop]
  constructor
  · rintro same ⟨value, limit, found, late⟩
    have none_ : (c.get key now).2 = none := by
      apply missed.mpr
      intro value' expiresAt' found'
      rw [found] at found'
      cases found'
      exact ⟨limit, rfl, late⟩
    have gone := same key
    rw [get?_get, if_pos ⟨none_, rfl⟩, found] at gone
    cases gone
  · intro lives other
    rw [get?_get]
    split_ifs with lost
    · obtain ⟨none_, rfl⟩ := lost
      cases found : c.data.get? other with
      | none => rfl
      | some entry =>
          obtain ⟨limit, given, late⟩ := missed.mp none_ entry.1 entry.2 found
          exact absurd ⟨entry.1, limit, by rw [found, ← Option.mem_def.mp given], late⟩ lives
    · rfl

/-- For a key that was there, there is room after it has been read. -/
theorem room_get (member : key ∈ c.data.keys) :
    (c.get key now).1.size + (if key ∈ (c.get key now).1.data.keys then 0 else 1) = c.size := by
  rw [ResponseCache.get]
  cases found : c.data.get? key with
  | none => exact absurd member (Dict.get?_eq_none_iff.mp found)
  | some entry =>
      simp only
      split_ifs with late again again
      · simp [Dict.keys_erase] at again
      · exact length_erase member
      · exact length_moveToEnd member
      · rw [Dict.keys_moveToEnd member] at again
        simp at again

theorem entries_store : ∃ earlier, (c.store key value now).entries =
    earlier ++ [(key, value, c.ttl.map fun seconds => now + seconds)] := by
  have fresh : key ∉ ((c.data.set key (value, c.ttl.map fun seconds => now + seconds)).erase
      key).keys := by
    simp [Dict.keys_erase]
  rw [store, Dict.moveToEnd, Dict.get?_set_self]
  exact ⟨_, Dict.entries_set_of_notMem fresh⟩

/-- The entry that was put is there. -/
theorem get?_put_self (positive : 0 < c.maxsize) : (c.put key value now).data.get? key =
    some (value, c.ttl.map fun seconds => now + seconds) := by
  have opened : c.put key value now = evict { c with data := c.store key value now } := rfl
  obtain ⟨earlier, split⟩ := @entries_store _ _ _ c key value now
  rw [opened, evict_eq, Dict.get?_eq_some_iff]
  change _ ∈ (c.store key value now).entries.drop
    ((c.store key value now).entries.length - c.maxsize)
  rw [split, List.drop_append_of_le_length]
  · simp
  · rw [List.length_append, List.length_singleton]
    omega

/-- Where there is room, no other entry changes. -/
theorem get?_put_of_room {other : κ} (room : c.size + (if key ∈ c.data.keys then 0 else 1) ≤
    c.maxsize) : (c.put key value now).data.get? other =
      if other = key then some (value, c.ttl.map fun seconds => now + seconds)
      else c.data.get? other := by
  have opened : c.put key value now = evict { c with data := c.store key value now } := rfl
  have fits : (ResponseCache.size { c with data := c.store key value now }) - c.maxsize = 0 := by
    change (c.store key value now).entries.length - _ = 0
    rw [length_store]
    omega
  rw [opened, evict_eq]
  simp only [fits, Dict.drop_zero]
  exact get?_store

/-- A cache that some operations lead to. -/
def Reachable (c : ResponseCache κ υ) : Prop :=
  ∃ maxsize ttl start es, new maxsize ttl = .ok start ∧ machine.run start es = some c

theorem Reachable.bounds (reachable : Reachable c) : 0 < c.maxsize ∧ c.size ≤ c.maxsize := by
  obtain ⟨_, _, _, _, opened, execution⟩ := reachable
  obtain ⟨kept, -⟩ := kept_run opened execution
  exact ⟨kept.positive, kept.bounded⟩

end Steps

end ResponseCache

end MultiAgent.Plugin
