import MultiAgent.Foundations.Dict
import MultiAgent.Foundations.Machine
import MultiAgent.Foundations.Oldest
import Mathlib.Algebra.Order.Field.Rat
import Mathlib.Tactic.Linarith

/-!
# Session lifetimes

`SessionManager` of `sessions.py`, over coordinators `κ`. Each operation runs under the
lock of the manager, so a run is a sequence of operations; an operation brings along what
it reads from the clock and what the factory answers. Clock readings and the idle time are
exact rationals.
-/

namespace MultiAgent.Plugin

structure SessionManager (κ : Type) where
  ttl : Option ℚ
  maxSessions : Option Int
  sessions : Dict String κ
  lastActive : Dict String ℚ
  created : Dict String ℚ

namespace SessionManager

variable {κ : Type}

/-- The constructor. -/
def new (ttl : Option ℚ) (maxSessions : Option Int) : SessionManager κ :=
  ⟨ttl, maxSessions, .empty, .empty, .empty⟩

/-- `_drop` -/
def drop (m : SessionManager κ) (sid : String) : SessionManager κ :=
  { m with
    sessions := m.sessions.erase sid
    lastActive := m.lastActive.erase sid
    created := m.created.erase sid }

/-- The test of the first loop of `_evict_locked`. -/
def expired (m : SessionManager κ) (now ttl : ℚ) (sid : String) : Bool :=
  decide ((m.lastActive.get? sid).getD now + ttl ≤ now)

/-- One turn of the first loop, on the manager and the evicted ids. -/
def expire (now ttl : ℚ) (state : SessionManager κ × List String) (sid : String) :
    SessionManager κ × List String :=
  if state.1.expired now ttl sid then (state.1.drop sid, state.2 ++ [sid]) else state

/-- The key of the sort. -/
def age (m : SessionManager κ) (sid : String) : ℚ := (m.lastActive.get? sid).getD 0

/-- `_evict_locked` at the clock reading `now`. -/
def evictLocked (m : SessionManager κ) (now : ℚ) (keep : Option Int) :
    SessionManager κ × List String :=
  let (left, evicted) :=
    match m.ttl with
    | some ttl => m.sessions.keys.foldl (expire now ttl) (m, [])
    | none => (m, [])
  match keep with
  | some keep =>
    if keep < left.sessions.keys.length then
      let byAge := oldest left.age left.sessions.keys (left.sessions.keys.length - keep).toNat
      (byAge.foldl drop left, evicted ++ byAge)
    else (left, evicted)
  | none => (left, evicted)

/-- `self.max_sessions - 1 if self.max_sessions else None` -/
def room (m : SessionManager κ) : Option Int :=
  m.maxSessions.bind fun limit => if limit = 0 then none else some (limit - 1)

/-- `get_or_create`, when the clock reads `now` and then `later`, and the factory answers
`made`. -/
def getOrCreate (m : SessionManager κ) (sid : String) (now later : ℚ) (made : Except String κ) :
    SessionManager κ × Except String κ :=
  match m.sessions.get? sid with
  | some coord => ({ m with lastActive := m.lastActive.set sid now }, .ok coord)
  | none =>
    let left := (m.evictLocked later m.room).1
    match made with
    | .ok coord =>
      ({ left with
          sessions := left.sessions.set sid coord
          lastActive := left.lastActive.set sid now
          created := left.created.set sid now }, .ok coord)
    | .error text => (left, .error text)

def touch (m : SessionManager κ) (sid : String) (now : ℚ) : SessionManager κ :=
  if sid ∈ m.sessions.keys then { m with lastActive := m.lastActive.set sid now } else m

/-- `delete`, with its answer. -/
def delete (m : SessionManager κ) (sid : String) : SessionManager κ × Bool :=
  (m.drop sid, (m.sessions.get? sid).isSome)

def cleanup (m : SessionManager κ) (now : ℚ) : SessionManager κ × List String :=
  m.evictLocked now m.maxSessions

/-- A manager with the latest reading of its clock. -/
structure Timed (κ : Type) where
  manager : SessionManager κ
  clock : ℚ

inductive Event (κ : Type) where
  | getOrCreate (sid : String) (now later : ℚ) (made : Except String κ)
  | get (sid : String)
  | touch (sid : String) (now : ℚ)
  | delete (sid : String)
  | cleanup (now : ℚ)

/-- What an event does to the manager. -/
def Event.apply (m : SessionManager κ) : Event κ → SessionManager κ
  | .getOrCreate sid now later made => (m.getOrCreate sid now later made).1
  | .get _ => m
  | .touch sid now => m.touch sid now
  | .delete sid => (m.delete sid).1
  | .cleanup now => (m.cleanup now).1

/-- The readings of an event, in order. -/
def Event.readings : Event κ → List ℚ
  | .getOrCreate _ now later _ => [now, later]
  | .touch _ now | .cleanup now => [now]
  | .get _ | .delete _ => []

/-- The clock does not go back. -/
def step (s : Timed κ) (event : Event κ) : Option (Timed κ) :=
  if (s.clock :: event.readings).Pairwise (· ≤ ·) then
    some ⟨event.apply s.manager, event.readings.getLast?.getD s.clock⟩
  else none

def machine : Machine (Timed κ) (Event κ) := ⟨step⟩

section Eviction

variable {m : SessionManager κ} {now ttl : ℚ} {keep : Option Int} {sid : String}

/-- The manager without some of its sessions. -/
def without (m : SessionManager κ) (gone : List String) : SessionManager κ :=
  { m with
    sessions := m.sessions.eraseAll gone
    lastActive := m.lastActive.eraseAll gone
    created := m.created.eraseAll gone }

theorem foldl_drop (m : SessionManager κ) (gone : List String) :
    gone.foldl drop m = m.without gone := by
  induction gone generalizing m with
  | nil => rfl
  | cons sid gone ih => exact ih (m.drop sid)

theorem without_append (m : SessionManager κ) (gone more : List String) :
    (m.without gone).without more = m.without (gone ++ more) := by
  rw [← foldl_drop, ← foldl_drop, ← foldl_drop, List.foldl_append]

theorem expired_drop {other : String} (differs : other ≠ sid) :
    (m.drop sid).expired now ttl other = m.expired now ttl other := by
  simp [expired, drop, Dict.get?_erase, differs]

/-- The first loop drops what is expired at its start. -/
theorem foldl_expire {sids evicted : List String} (distinct : sids.Nodup) :
    sids.foldl (expire now ttl) (m, evicted) =
      (m.without (sids.filter (m.expired now ttl)),
        evicted ++ sids.filter (m.expired now ttl)) := by
  induction sids generalizing m evicted with
  | nil => simp [without, Dict.eraseAll]
  | cons sid sids ih =>
      obtain ⟨fresh, distinct⟩ := List.nodup_cons.mp distinct
      rw [List.foldl_cons]
      by_cases gone : m.expired now ttl sid = true
      · have same : sids.filter ((m.drop sid).expired now ttl) =
            sids.filter (m.expired now ttl) := by
          apply List.filter_congr
          intro other member
          exact expired_drop fun equal => fresh (equal ▸ member)
        rw [expire, if_pos gone, ih distinct, same, List.filter_cons_of_pos gone,
          List.append_assoc]
        rfl
      · rw [expire, if_neg gone, ih distinct, List.filter_cons_of_neg gone]

/-- The sessions that the first loop of `_evict_locked` drops. -/
def idle (m : SessionManager κ) (now : ℚ) : List String :=
  match m.ttl with
  | some ttl => m.sessions.keys.filter (m.expired now ttl)
  | none => []

/-- The sessions that the second part drops. -/
def crowd (m : SessionManager κ) (now : ℚ) (keep : Option Int) : List String :=
  let left := m.without (m.idle now)
  match keep with
  | some keep =>
    if keep < left.sessions.keys.length then
      oldest left.age left.sessions.keys (left.sessions.keys.length - keep).toNat
    else []
  | none => []

theorem evictLocked_eq (m : SessionManager κ) (now : ℚ) (keep : Option Int) :
    m.evictLocked now keep = (m.without (m.idle now ++ m.crowd now keep),
      m.idle now ++ m.crowd now keep) := by
  have first : (match m.ttl with
      | some ttl => m.sessions.keys.foldl (expire now ttl) (m, [])
      | none => (m, [])) = (m.without (m.idle now), m.idle now) := by
    unfold idle
    cases m.ttl with
    | none => rfl
    | some ttl => exact foldl_expire m.sessions.distinct
  rw [evictLocked, first, ← without_append]
  unfold crowd
  cases keep with
  | none => simp [without, Dict.eraseAll]
  | some keep =>
      dsimp only
      split
      · rw [foldl_drop]
      · simp [without, Dict.eraseAll]

end Eviction

/-- A session of `m` without activity for at least the idle time. -/
def Idle (m : SessionManager κ) (now : ℚ) (sid : String) : Prop :=
  ∃ ttl ∈ m.ttl, ∃ last, m.lastActive.get? sid = some last ∧ last + ttl ≤ now

/-- More than `keep` sessions were left after the expired ones, and no session of `m'` was
active before this one. -/
def Crowded (m m' : SessionManager κ) (now : ℚ) (keep : Option Int) (sid : String) : Prop :=
  (∃ limit ∈ keep, limit < (m.without (m.idle now)).sessions.keys.length) ∧
    ∃ last, m.lastActive.get? sid = some last ∧
      ∀ other last', m'.lastActive.get? other = some last' → last ≤ last'

/-- The reasons for which an event that leads from `m` to `m'` may drop a session. -/
def Event.Drops (m m' : SessionManager κ) (sid : String) : Event κ → Prop
  | .delete deleted => sid = deleted
  | .getOrCreate _ _ later _ => m.Idle later sid ∨ Crowded m m' later m.room sid
  | .cleanup now => m.Idle now sid ∨ Crowded m m' now m.maxSessions sid
  | .get _ | .touch _ _ => False

section Dropped

variable {m : SessionManager κ} {now : ℚ} {keep : Option Int} {sid : String}

theorem mem_keys_without {gone : List String} :
    sid ∈ (m.without gone).sessions.keys ↔ sid ∈ m.sessions.keys ∧ sid ∉ gone := by
  rw [without, Dict.keys_eraseAll, List.mem_filter, decide_eq_true_iff]

theorem lastActive_without {gone : List String} {last : ℚ} :
    (m.without gone).lastActive.get? sid = some last ↔
      m.lastActive.get? sid = some last ∧ sid ∉ gone := by
  rw [without, Dict.get?_eraseAll]
  by_cases member : sid ∈ gone <;> simp [member]

/-- Dropping some of the sessions leaves the others. -/
theorem length_without {gone : List String} (distinct : gone.Nodup)
    (known : ∀ sid ∈ gone, sid ∈ m.sessions.keys) :
    (m.without gone).sessions.keys.length + gone.length = m.sessions.keys.length := by
  have parts := List.length_eq_length_filter_add (l := m.sessions.keys) fun sid =>
    decide (sid ∉ gone)
  have same : (m.sessions.keys.filter fun sid => !decide (sid ∉ gone)).Perm gone := by
    have whole : m.sessions.keys.Nodup := m.sessions.distinct
    rw [List.perm_ext_iff_of_nodup (whole.filter _) distinct]
    intro sid
    rw [List.mem_filter]
    simpa using known sid
  rw [parts, same.length_eq, without, Dict.keys_eraseAll]

variable (aligned : m.lastActive.keys = m.sessions.keys)
include aligned

theorem exists_lastActive (member : sid ∈ m.sessions.keys) :
    ∃ last, m.lastActive.get? sid = some last :=
  Dict.mem_keys_iff.mp (aligned ▸ member)

theorem idle_of_mem (member : sid ∈ m.idle now) : m.Idle now sid := by
  unfold idle at member
  cases given : m.ttl with
  | none => simp [given] at member
  | some ttl =>
      rw [given] at member
      obtain ⟨known, late⟩ := List.mem_filter.mp member
      obtain ⟨last, active⟩ := exists_lastActive aligned known
      refine ⟨ttl, given, last, active, ?_⟩
      simpa [expired, active] using late

theorem crowded_of_mem (member : sid ∈ m.crowd now keep) :
    Crowded m (m.evictLocked now keep).1 now keep sid := by
  rw [evictLocked_eq]
  unfold crowd at member ⊢
  cases keep with
  | none => cases member
  | some keep =>
      dsimp only at member ⊢
      split at member
      case isFalse => cases member
      case isTrue excess =>
        rw [if_pos excess]
        have known := Oldest.mem_of_mem member
        obtain ⟨last, active⟩ := exists_lastActive aligned (mem_keys_without.mp known).1
        have left := (mem_keys_without.mp known).2
        refine ⟨⟨keep, rfl, excess⟩, last, active, ?_⟩
        intro other last' active'
        obtain ⟨kept, out⟩ := lastActive_without.mp active'
        obtain ⟨here, later⟩ := not_or.mp (mt List.mem_append.mpr out)
        have present : other ∈ (m.without (m.idle now)).sessions.keys :=
          mem_keys_without.mpr ⟨aligned ▸ Dict.mem_keys_iff.mpr ⟨last', kept⟩, here⟩
        have older := Oldest.le_of_left member present later
        simpa [age, lastActive_without.mpr ⟨active, left⟩,
          lastActive_without.mpr ⟨kept, here⟩] using older

omit aligned in
/-- What is left is at most what was to be kept. -/
theorem length_evictLocked_le {limit : Int} (given : keep = some limit) (nonneg : 0 ≤ limit) :
    ((m.evictLocked now keep).1.sessions.keys.length : Int) ≤ limit := by
  subst given
  rw [evictLocked_eq, ← without_append]
  unfold crowd
  dsimp only
  split
  · rename_i excess
    set left := m.without (m.idle now)
    have enough : (left.sessions.keys.length - limit).toNat ≤ left.sessions.keys.length := by
      omega
    have distinct : (oldest left.age left.sessions.keys
        (left.sessions.keys.length - limit).toNat).Nodup := Oldest.nodup left.sessions.distinct
    have parts := length_without (m := left) distinct fun _ member => Oldest.mem_of_mem member
    rw [Oldest.length_of_le enough] at parts
    omega
  · rename_i excess
    simpa [without, Dict.eraseAll] using excess

end Dropped

section Runs

/-- What holds between two events. -/
structure Bounded (maxSessions : Option Int) (s : Timed κ) : Prop where
  limits : s.manager.maxSessions = maxSessions
  lastActive : s.manager.lastActive.keys = s.manager.sessions.keys
  created : s.manager.created.keys = s.manager.sessions.keys
  past : ∀ sid last, s.manager.lastActive.get? sid = some last → last ≤ s.clock
  size : ∀ limit ∈ maxSessions, 1 ≤ limit → (s.manager.sessions.keys.length : Int) ≤ limit

variable {maxSessions : Option Int} {s t : Timed κ} {m : SessionManager κ} {sid : String}
  {now later clock : ℚ} {made : Except String κ} {event : Event κ}

theorem bounded_new (ttl : Option ℚ) (maxSessions : Option Int) (clock : ℚ) :
    Bounded maxSessions ⟨(new ttl maxSessions : SessionManager κ), clock⟩ where
  limits := rfl
  lastActive := rfl
  created := rfl
  past _ _ active := nomatch active
  size limit _ one := by
    simp only [new, Dict.keys, Dict.empty, List.map_nil, List.length_nil]
    omega

/-- Time passes. -/
theorem Bounded.wait (bounded : Bounded maxSessions s) (later : s.clock ≤ clock) :
    Bounded maxSessions ⟨s.manager, clock⟩ :=
  { bounded with past := fun sid last active => (bounded.past sid last active).trans later }

theorem Bounded.without (bounded : Bounded maxSessions ⟨m, clock⟩) (gone : List String) :
    Bounded maxSessions ⟨m.without gone, clock⟩ where
  limits := bounded.limits
  lastActive := by
    simp only [SessionManager.without, Dict.keys_eraseAll, bounded.lastActive]
  created := by
    simp only [SessionManager.without, Dict.keys_eraseAll, bounded.created]
  past sid last active := bounded.past sid last (lastActive_without.mp active).1
  size limit given one := by
    have size := bounded.size limit given one
    have fewer : (m.without gone).sessions.keys.length ≤ m.sessions.keys.length := by
      rw [SessionManager.without, Dict.keys_eraseAll]
      exact List.length_filter_le _ _
    dsimp only at size ⊢
    omega

/-- The session is in use at `now`. -/
theorem Bounded.activate (bounded : Bounded maxSessions ⟨m, clock⟩)
    (known : sid ∈ m.sessions.keys) (current : now ≤ clock) :
    Bounded maxSessions ⟨{ m with lastActive := m.lastActive.set sid now }, clock⟩ :=
  { bounded with
    lastActive := by
      rw [Dict.keys_set_of_mem (bounded.lastActive ▸ known)]
      exact bounded.lastActive
    past := by
      intro other last active
      rw [Dict.get?_set] at active
      split at active
      · cases active
        exact current
      · exact bounded.past other last active }

/-- A new session is put beside at most one less than the limit. -/
theorem Bounded.insert (bounded : Bounded maxSessions ⟨m, clock⟩) (coord : κ)
    (fresh : sid ∉ m.sessions.keys) (current : now ≤ clock)
    (free : ∀ limit ∈ maxSessions, 1 ≤ limit → (m.sessions.keys.length : Int) ≤ limit - 1) :
    Bounded maxSessions
      ⟨{ m with
          sessions := m.sessions.set sid coord
          lastActive := m.lastActive.set sid now
          created := m.created.set sid now }, clock⟩ where
  limits := bounded.limits
  lastActive := by
    rw [Dict.keys_set_of_notMem fresh, Dict.keys_set_of_notMem (bounded.lastActive ▸ fresh)]
    rw [bounded.lastActive]
  created := by
    rw [Dict.keys_set_of_notMem fresh, Dict.keys_set_of_notMem (bounded.created ▸ fresh)]
    rw [bounded.created]
  past := by
    intro other last active
    rw [Dict.get?_set] at active
    split at active
    · cases active
      exact current
    · exact bounded.past other last active
  size limit given one := by
    have room := free limit given one
    rw [Dict.keys_set_of_notMem fresh, List.length_append, List.length_singleton]
    push_cast
    omega

/-- The room that is made for a new session. -/
theorem Bounded.room (bounded : Bounded maxSessions ⟨m, clock⟩) :
    ∀ limit ∈ maxSessions, 1 ≤ limit →
      ((m.evictLocked now m.room).1.sessions.keys.length : Int) ≤ limit - 1 := by
  intro limit given one
  have keep : m.room = some (limit - 1) := by
    rw [SessionManager.room, bounded.limits, Option.mem_def.mp given, Option.bind_some,
      if_neg (by omega)]
  exact length_evictLocked_le keep (by omega)

theorem evictLocked_fst (m : SessionManager κ) (now : ℚ) (keep : Option Int) :
    ∃ gone, (m.evictLocked now keep).1 = m.without gone :=
  ⟨_, by rw [evictLocked_eq]⟩

/-- What `get_or_create` can do. -/
theorem getOrCreate_cases (m : SessionManager κ) (sid : String) (now later : ℚ)
    (made : Except String κ) :
    (∃ coord, m.sessions.get? sid = some coord ∧ m.getOrCreate sid now later made =
      ({ m with lastActive := m.lastActive.set sid now }, .ok coord)) ∨
    sid ∉ m.sessions.keys ∧
      ((∃ coord, made = .ok coord ∧ m.getOrCreate sid now later made =
        ({ (m.evictLocked later m.room).1 with
            sessions := (m.evictLocked later m.room).1.sessions.set sid coord
            lastActive := (m.evictLocked later m.room).1.lastActive.set sid now
            created := (m.evictLocked later m.room).1.created.set sid now }, .ok coord)) ∨
      ∃ text, made = .error text ∧ m.getOrCreate sid now later made =
        ((m.evictLocked later m.room).1, .error text)) := by
  unfold getOrCreate
  cases known : m.sessions.get? sid with
  | some coord => exact .inl ⟨coord, rfl, rfl⟩
  | none =>
      refine .inr ⟨Dict.get?_eq_none_iff.mp known, ?_⟩
      cases made with
      | ok coord => exact .inl ⟨coord, rfl, rfl⟩
      | error text => exact .inr ⟨text, rfl, rfl⟩

theorem notMem_evictLocked {keep : Option Int} (fresh : sid ∉ m.sessions.keys) :
    sid ∉ (m.evictLocked now keep).1.sessions.keys := by
  obtain ⟨gone, left⟩ := evictLocked_fst m now keep
  rw [left]
  exact fun known => fresh (mem_keys_without.mp known).1

theorem Bounded.getOrCreate (bounded : Bounded maxSessions ⟨m, later⟩) (current : now ≤ later) :
    Bounded maxSessions ⟨(m.getOrCreate sid now later made).1, later⟩ := by
  obtain ⟨gone, left⟩ := evictLocked_fst m later m.room
  obtain ⟨coord, known, same⟩ | ⟨fresh, ⟨coord, -, same⟩ | ⟨text, -, same⟩⟩ :=
    getOrCreate_cases m sid now later made
  · rw [same]
    exact bounded.activate (Dict.mem_keys_iff.mpr ⟨coord, known⟩) current
  · rw [same]
    apply Bounded.insert
    · exact left ▸ bounded.without gone
    · exact notMem_evictLocked fresh
    · exact current
    · exact bounded.room
  · rw [same, left]
    exact bounded.without gone

theorem Bounded.step (bounded : Bounded maxSessions s) (transition : step s event = some t) :
    Bounded maxSessions t := by
  rw [SessionManager.step, Option.ite_none_right_eq_some] at transition
  obtain ⟨ordered, same⟩ := transition
  cases same
  cases event with
  | getOrCreate sid now later made =>
      have order : (s.clock ≤ now ∧ s.clock ≤ later) ∧ now ≤ later := by
        simpa [Event.readings] using ordered
      exact (bounded.wait order.1.2).getOrCreate order.2
  | get sid => exact bounded
  | touch sid now =>
      have order : s.clock ≤ now := by simpa [Event.readings] using ordered
      have waited := bounded.wait order
      dsimp only [Event.apply, Event.readings, List.getLast?_singleton, Option.getD_some, touch]
      split
      · rename_i known
        exact waited.activate known le_rfl
      · exact waited
  | delete sid => exact bounded.without [sid]
  | cleanup now =>
      have order : s.clock ≤ now := by simpa [Event.readings] using ordered
      obtain ⟨gone, left⟩ := evictLocked_fst s.manager now s.manager.maxSessions
      have waited := (bounded.wait order).without gone
      rw [← left] at waited
      exact waited

/-- The session that was asked for is there, unless the factory failed to make it. -/
theorem getOrCreate_present (m : SessionManager κ) (sid : String) (now later : ℚ)
    (made : Except String κ) :
    (∃ coord, (m.getOrCreate sid now later made).2 = .ok coord ∧
      (m.getOrCreate sid now later made).1.sessions.get? sid = some coord) ∨
    sid ∉ m.sessions.keys ∧ ∃ text, made = .error text ∧
      (m.getOrCreate sid now later made).2 = .error text := by
  obtain ⟨coord, known, same⟩ | ⟨fresh, ⟨coord, -, same⟩ | ⟨text, failed, same⟩⟩ :=
    getOrCreate_cases m sid now later made
  · exact .inl ⟨coord, by rw [same], by rw [same]; exact known⟩
  · exact .inl ⟨coord, by rw [same], by rw [same]; exact Dict.get?_set_self⟩
  · exact .inr ⟨fresh, text, failed, by rw [same]⟩

/-- A session that the eviction drops. -/
theorem drops_evictLocked {keep : Option Int} {coord : κ}
    (aligned : m.lastActive.keys = m.sessions.keys) (known : m.sessions.get? sid = some coord) :
    (m.evictLocked now keep).1.sessions.get? sid = some coord ∨
      (m.evictLocked now keep).1.sessions.get? sid = none ∧
        (m.Idle now sid ∨ Crowded m (m.evictLocked now keep).1 now keep sid) := by
  by_cases gone : sid ∈ m.idle now ++ m.crowd now keep
  · refine .inr ⟨?_, ?_⟩
    · rw [evictLocked_eq]
      exact (Dict.get?_eraseAll).trans (if_pos gone)
    · obtain early | late := List.mem_append.mp gone
      · exact .inl (idle_of_mem aligned early)
      · exact .inr (crowded_of_mem aligned late)
  · rw [evictLocked_eq]
    exact .inl ((Dict.get?_eraseAll).trans ((if_neg gone).trans known))

/-- A session goes for one of the reasons of the event. -/
theorem drops_step {coord : κ} (bounded : Bounded maxSessions s)
    (transition : step s event = some t) (known : s.manager.sessions.get? sid = some coord) :
    t.manager.sessions.get? sid = some coord ∨
      t.manager.sessions.get? sid = none ∧ event.Drops s.manager t.manager sid := by
  rw [SessionManager.step, Option.ite_none_right_eq_some] at transition
  obtain ⟨ordered, same⟩ := transition
  cases same
  cases event with
  | getOrCreate asked now later made =>
      dsimp only [Event.apply]
      obtain ⟨coord', -, same⟩ | ⟨fresh, ⟨coord', -, same⟩ | ⟨text, -, same⟩⟩ :=
        getOrCreate_cases s.manager asked now later made
      · rw [same]
        exact .inl known
      · have other : sid ≠ asked := by
          rintro rfl
          exact fresh (Dict.mem_keys_iff.mpr ⟨coord, known⟩)
        have order : (s.clock ≤ now ∧ s.clock ≤ later) ∧ now ≤ later := by
          simpa [Event.readings] using ordered
        rw [same]
        dsimp only
        rw [Dict.get?_set_of_ne other]
        refine (drops_evictLocked bounded.lastActive known).imp id (And.imp id (Or.imp id ?_))
        rintro ⟨excess, last, active, oldest⟩
        refine ⟨excess, last, active, ?_⟩
        intro kept last' active'
        rw [Dict.get?_set] at active'
        split at active'
        · cases active'
          exact (bounded.past sid last active).trans order.1.1
        · exact oldest kept last' active'
      · rw [same]
        exact drops_evictLocked bounded.lastActive known
  | get asked => exact .inl known
  | touch asked now =>
      refine .inl ?_
      dsimp only [Event.apply, touch]
      split
      · exact known
      · exact known
  | delete deleted =>
      dsimp only [Event.apply, delete, drop]
      rw [Dict.get?_erase]
      by_cases same : sid = deleted
      · exact .inr ⟨if_pos same, same⟩
      · exact .inl ((if_neg same).trans known)
  | cleanup now => exact drops_evictLocked bounded.lastActive known

/-- In every run the three maps have the same keys; after `get_or_create` there are at most
`max_sessions` sessions, with the one that was asked for among them unless the factory
failed; and a session goes only for one of the reasons of the event. -/
theorem sessions_bounded {ttl : Option ℚ} {maxSessions : Option Int} {clock : ℚ}
    {events : List (Event κ)} {s : Timed κ} (limited : ∀ limit ∈ maxSessions, 1 ≤ limit)
    (execution : machine.run ⟨new ttl maxSessions, clock⟩ events = some s) :
    s.manager.lastActive.keys = s.manager.sessions.keys ∧
      s.manager.created.keys = s.manager.sessions.keys ∧
      ∀ event t, step s event = some t →
        (∀ sid now later made, event = .getOrCreate sid now later made →
          (∀ limit ∈ maxSessions, (t.manager.sessions.keys.length : Int) ≤ limit) ∧
            ((∃ coord, (s.manager.getOrCreate sid now later made).2 = .ok coord ∧
              t.manager.sessions.get? sid = some coord) ∨
            sid ∉ s.manager.sessions.keys ∧ ∃ text, made = .error text ∧
              (s.manager.getOrCreate sid now later made).2 = .error text)) ∧
        ∀ sid coord, s.manager.sessions.get? sid = some coord →
          t.manager.sessions.get? sid = some coord ∨
            t.manager.sessions.get? sid = none ∧ event.Drops s.manager t.manager sid := by
  have bounded : Bounded maxSessions s :=
    Machine.run_invariant (fun _ _ _ inv transition => inv.step transition)
      (bounded_new ttl maxSessions clock) execution
  refine ⟨bounded.lastActive, bounded.created, ?_⟩
  intro event t transition
  constructor
  · rintro sid now later made rfl
    have after := bounded.step transition
    refine ⟨fun limit given => after.size limit given (limited limit given), ?_⟩
    rw [SessionManager.step, Option.ite_none_right_eq_some] at transition
    obtain ⟨-, same⟩ := transition
    cases same
    exact getOrCreate_present s.manager sid now later made
  · intro sid coord known
    exact drops_step bounded transition known

end Runs

/-- Two sessions one after the other, where only one has room. -/
theorem sessions_bounded_twoVisitors :
    ∃ s t : Timed Nat,
      machine.run ⟨new none (some 1), 0⟩ [.getOrCreate "ada" 0 0 (.ok 1)] = some s ∧
      step s (.getOrCreate "bob" 3 4 (.ok 2)) = some t ∧
      t.manager.sessions.keys.length = 1 ∧
      (Event.getOrCreate "bob" 3 4 (.ok 2)).Drops s.manager t.manager "ada" := by
  have visits : (machine.run ⟨new none (some 1), 0⟩ [.getOrCreate "ada" 0 0 (.ok 1)]).any
      (fun s : Timed Nat => decide (s.manager.sessions.get? "ada" = some 1) &&
        (step s (.getOrCreate "bob" 3 4 (.ok 2))).any fun t =>
          decide (t.manager.sessions.keys = ["bob"])) = true := by
    decide +kernel
  obtain ⟨s, execution, visits⟩ := (Option.any_eq_true _ _).mp visits
  obtain ⟨known, visits⟩ := Bool.and_eq_true_iff.mp visits
  obtain ⟨t, transition, keys⟩ := (Option.any_eq_true _ _).mp visits
  have only : t.manager.sessions.keys = ["bob"] := of_decide_eq_true keys
  have holds := sessions_bounded (by simp) execution
  obtain kept | ⟨-, reason⟩ := (holds.2.2 _ t transition).2 "ada" 1 (of_decide_eq_true known)
  · have absent := only ▸ Dict.mem_keys_iff.mpr ⟨1, kept⟩
    simp at absent
  · exact ⟨s, t, execution, transition, by rw [only]; rfl, reason⟩

/-- When the factory fails, the session that was asked for is not there. -/
theorem factoryFails_absent :
    ∃ s t : Timed Nat, machine.run ⟨new none (some 1), 0⟩ [] = some s ∧
      step s (.getOrCreate "ada" 0 0 (.error "no agents")) = some t ∧
      "ada" ∉ t.manager.sessions.keys := by
  have visits : (step ⟨(new none (some 1) : SessionManager Nat), 0⟩
      (.getOrCreate "ada" 0 0 (.error "no agents"))).any
        (fun t => decide ("ada" ∉ t.manager.sessions.keys)) = true := by
    decide +kernel
  obtain ⟨t, transition, absent⟩ := (Option.any_eq_true _ _).mp visits
  exact ⟨_, t, rfl, transition, of_decide_eq_true absent⟩

end SessionManager

end MultiAgent.Plugin
