import MultiAgent.Plugin.Sessions

/-!
# Expired sessions

A session expires when its id was not used for the idle time. `get_or_create` looks for
expired sessions only when it creates one, so an expired session that is still stored is
returned and used again. That an id is still stored is read off the history: no event since
the last use has cleared it (`stored_iff`). So no session is revived exactly when one has,
each time an id is asked for after the idle time (`revivesNone_iff`).
-/

namespace MultiAgent.Plugin.SessionManager

variable {κ : Type} {ttl : Option ℚ} {maxSessions : Option Int} {clock now later : ℚ}
  {events : List (Event κ)} {event : Event κ} {s t : Timed κ} {m : SessionManager κ}
  {sid : String} {made : Except String κ}

/-- The reading at which the event uses the session. -/
def Event.use (sid : String) : Event κ → Option ℚ
  | .getOrCreate asked now _ _ | .touch asked now => if asked = sid then some now else none
  | .get _ | .delete _ | .cleanup _ => none

/-- The reading of the last use of the session. -/
def lastUse (sid : String) (events : List (Event κ)) : Option ℚ :=
  events.reverse.findSome? (Event.use sid)

/-- Where an id was not used for the idle time, `get_or_create` returns what the factory makes,
whatever that is. -/
def RevivesNone (start : Timed κ) (events : List (Event κ)) : Prop :=
  ∀ before sid now later made after s,
    events = before ++ .getOrCreate sid now later made :: after →
    machine.run start before = some s →
    ∀ ttl ∈ s.manager.ttl, ∀ last, lastUse sid before = some last → last + ttl ≤ now →
      ∀ answer, (s.manager.getOrCreate sid now later answer).2 = answer

/-- An eviction at `now` reaches the session that was last used at `last`: the idle time has
passed, or too many others are left. -/
def Evicts (m : SessionManager κ) (sid : String) (last now : ℚ) (keep : Option Int) : Prop :=
  (∃ ttl ∈ m.ttl, last + ttl ≤ now) ∨ sid ∈ m.crowd now keep

/-- The events behind which no session of the id is stored, when `last` is its last use. A use
is one of them if it stores nothing. -/
def Event.Clears (m : SessionManager κ) (sid : String) (last : ℚ) : Event κ → Prop
  | .getOrCreate asked _ later made =>
    asked ∉ m.sessions.keys ∧
      if asked = sid then ∃ text, made = .error text else m.Evicts sid last later m.room
  | .get _ => False
  | .touch asked _ => asked = sid ∧ sid ∉ m.sessions.keys
  | .delete deleted => deleted = sid
  | .cleanup now => m.Evicts sid last now m.maxSessions

/-- One of the events from the last use on has cleared the id. -/
def Cleared (start : Timed κ) (events : List (Event κ)) (sid : String) (last : ℚ) : Prop :=
  ∃ before event after s, events = before ++ event :: after ∧
    machine.run start before = some s ∧ event.Clears s.manager sid last ∧
    ∀ other ∈ after, other.use sid = none

/-- Each time `get_or_create` is asked for an id that was not used for the idle time, the id has
been cleared. -/
def ClearsIdle (start : Timed κ) (events : List (Event κ)) : Prop :=
  ∀ before sid now later made after s,
    events = before ++ .getOrCreate sid now later made :: after →
    machine.run start before = some s →
    ∀ ttl ∈ s.manager.ttl, ∀ last, lastUse sid before = some last → last + ttl ≤ now →
      Cleared start before sid last

theorem lastUse_concat :
    lastUse sid (events ++ [event]) = (event.use sid).or (lastUse sid events) := by
  rw [lastUse, List.reverse_append, List.reverse_singleton, List.singleton_append,
    List.findSome?_cons]
  cases event.use sid <;> rfl

theorem get?_without {gone : List String} (left : sid ∈ (m.without gone).sessions.keys) :
    (m.without gone).lastActive.get? sid = m.lastActive.get? sid := by
  rw [without, Dict.get?_eraseAll, if_neg (mem_keys_without.mp left).2]

/-- A table of the last uses in which one more use is noted. -/
theorem get?_noted {table : Dict String ℚ} {asked : String} {now : ℚ} {before : Option ℚ}
    (past : sid ≠ asked → table.get? sid = before) :
    (table.set asked now).get? sid = (if asked = sid then some now else none).or before := by
  rw [Dict.get?_set]
  by_cases own : sid = asked
  · rw [if_pos own, if_pos own.symm, Option.some_or]
  · rw [if_neg own, if_neg (Ne.symm own), Option.none_or]
    exact past own

/-- The table holds the last use of each stored session. -/
theorem lastActive_step (past : ∀ sid ∈ s.manager.sessions.keys,
      s.manager.lastActive.get? sid = lastUse sid events)
    (transition : step s event = some t) (known : sid ∈ t.manager.sessions.keys) :
    t.manager.lastActive.get? sid = lastUse sid (events ++ [event]) := by
  rw [SessionManager.step, Option.ite_none_right_eq_some] at transition
  obtain ⟨-, same⟩ := transition
  cases same
  rw [lastUse_concat]
  have evicted {gone : List String}
      (left : sid ∈ (s.manager.without gone).sessions.keys) :
      (s.manager.without gone).lastActive.get? sid = lastUse sid events := by
    rw [get?_without left]
    exact past sid (mem_keys_without.mp left).1
  cases event with
  | getOrCreate asked now later made =>
      dsimp only [Event.apply, Event.use] at known ⊢
      obtain ⟨gone, left⟩ := evictLocked_fst s.manager later s.manager.room
      obtain ⟨coord, -, same⟩ | ⟨fresh, ⟨coord, -, same⟩ | ⟨text, -, same⟩⟩ :=
        getOrCreate_cases s.manager asked now later made
      · rw [same] at known ⊢
        exact get?_noted fun _ => past sid known
      · rw [same, left] at known
        rw [same, left]
        exact get?_noted fun own => evicted ((Dict.mem_keys_set.mp known).resolve_left own)
      · rw [same, left] at known
        rw [same, left]
        -- the session that could not be made is not there
        have other : asked ≠ sid := by
          rintro rfl
          exact fresh (mem_keys_without.mp known).1
        rw [if_neg other, Option.none_or]
        exact evicted known
  | get asked => exact past sid known
  | touch asked now =>
      dsimp only [Event.apply, Event.use, touch] at known ⊢
      split at known
      · rename_i stored
        rw [if_pos stored]
        exact get?_noted fun _ => past sid known
      · rename_i stored
        have other : asked ≠ sid := by
          rintro rfl
          exact stored known
        rw [if_neg stored, if_neg other, Option.none_or]
        exact past sid known
  | delete deleted =>
      have left : sid ∈ (s.manager.without [deleted]).sessions.keys := known
      exact evicted left
  | cleanup now =>
      obtain ⟨gone, left⟩ := evictLocked_fst s.manager now s.manager.maxSessions
      dsimp only [Event.apply, Event.use, cleanup] at known ⊢
      rw [left] at known ⊢
      exact evicted known

theorem lastActive_run (execution : machine.run ⟨new ttl maxSessions, clock⟩ events = some s)
    (known : sid ∈ s.manager.sessions.keys) :
    s.manager.lastActive.get? sid = lastUse sid events := by
  have held := Machine.run_history (m := machine)
    (P := fun s past => ∀ sid, sid ∈ s.manager.sessions.keys →
      s.manager.lastActive.get? sid = lastUse sid past)
    (fun _ _ _ _ past transition sid known =>
      lastActive_step (fun sid known => past sid known) transition known)
    (fun _ known => absurd known List.not_mem_nil) execution
  exact held sid known

/-- A stored session is returned, and what is not stored is made. -/
theorem getOrCreate_answers_iff :
    (∀ answer, (m.getOrCreate sid now later answer).2 = answer) ↔ sid ∉ m.sessions.keys := by
  constructor
  · intro answers known
    obtain ⟨coord, stored⟩ := Dict.mem_keys_iff.mp known
    have refused := answers (.error "")
    rw [getOrCreate, stored] at refused
    cases refused
  · intro fresh answer
    rw [getOrCreate, Dict.get?_eq_none_iff.mpr fresh]
    cases answer <;> rfl

theorem mem_idle_iff {last : ℚ} (known : sid ∈ m.sessions.keys)
    (active : m.lastActive.get? sid = some last) :
    sid ∈ m.idle now ↔ ∃ ttl ∈ m.ttl, last + ttl ≤ now := by
  rw [idle]
  cases m.ttl with
  | none => simp
  | some ttl => simp [List.mem_filter, known, expired, active]

/-- What an eviction leaves. -/
theorem notMem_evictLocked_iff {keep : Option Int} {last : ℚ}
    (active : sid ∈ m.sessions.keys → m.lastActive.get? sid = some last) :
    sid ∉ (m.evictLocked now keep).1.sessions.keys ↔
      m.Evicts sid last now keep ∨ sid ∉ m.sessions.keys := by
  rw [evictLocked_eq, mem_keys_without, List.mem_append, Evicts]
  by_cases known : sid ∈ m.sessions.keys
  · rw [mem_idle_iff known (active known), and_iff_right known, not_not,
      or_iff_left (not_not_intro known)]
  · simp [known]

theorem notMem_getOrCreate_self_iff :
    sid ∉ (m.getOrCreate sid now later made).1.sessions.keys ↔
      sid ∉ m.sessions.keys ∧ ∃ text, made = .error text := by
  obtain ⟨coord, known, same⟩ | ⟨fresh, ⟨coord, rfl, same⟩ | ⟨text, rfl, same⟩⟩ :=
    getOrCreate_cases m sid now later made
  · have stored : sid ∈ m.sessions.keys := Dict.mem_keys_iff.mpr ⟨coord, known⟩
    rw [same]
    simp [stored]
  · rw [same]
    simp [Dict.mem_keys_set]
  · rw [same]
    simp [fresh, notMem_evictLocked fresh]

theorem notMem_getOrCreate_iff {asked : String} {last : ℚ} (other : asked ≠ sid)
    (active : sid ∈ m.sessions.keys → m.lastActive.get? sid = some last) :
    sid ∉ (m.getOrCreate asked now later made).1.sessions.keys ↔
      asked ∉ m.sessions.keys ∧ m.Evicts sid last later m.room ∨ sid ∉ m.sessions.keys := by
  obtain ⟨coord, known, same⟩ | ⟨fresh, created⟩ := getOrCreate_cases m asked now later made
  · have stored : asked ∈ m.sessions.keys := Dict.mem_keys_iff.mpr ⟨coord, known⟩
    rw [same]
    simp [stored]
  · rw [and_iff_right fresh, ← notMem_evictLocked_iff active]
    obtain ⟨coord, -, same⟩ | ⟨text, -, same⟩ := created
    · rw [same, Dict.mem_keys_set, or_iff_right (Ne.symm other)]
    · rw [same]

/-- An id is not stored behind an event that clears it, and behind those that do not use it if
it was not stored before. -/
theorem notMem_step_iff {last : ℚ}
    (past : sid ∈ s.manager.sessions.keys → s.manager.lastActive.get? sid = lastUse sid events)
    (transition : step s event = some t) (used : lastUse sid (events ++ [event]) = some last) :
    sid ∉ t.manager.sessions.keys ↔ event.Clears s.manager sid last ∨
      event.use sid = none ∧ sid ∉ s.manager.sessions.keys := by
  rw [SessionManager.step, Option.ite_none_right_eq_some] at transition
  obtain ⟨-, same⟩ := transition
  cases same
  rw [lastUse_concat] at used
  have active (unused : event.use sid = none) (known : sid ∈ s.manager.sessions.keys) :
      s.manager.lastActive.get? sid = some last := by
    rw [unused, Option.none_or] at used
    rw [past known, used]
  cases event with
  | getOrCreate asked now later made =>
      dsimp only [Event.apply, Event.Clears]
      by_cases own : asked = sid
      · subst own
        rw [notMem_getOrCreate_self_iff, if_pos rfl]
        simp [Event.use]
      · have unused : (Event.getOrCreate asked now later made).use sid = none := if_neg own
        rw [if_neg own, and_iff_right unused]
        exact notMem_getOrCreate_iff own (active unused)
  | get asked => simp [Event.apply, Event.Clears, Event.use]
  | touch asked now =>
      have kept : (s.manager.touch asked now).sessions = s.manager.sessions := by
        rw [touch]
        split <;> rfl
      dsimp only [Event.apply, Event.Clears, Event.use]
      rw [kept]
      by_cases own : asked = sid <;> simp [own]
  | delete deleted =>
      dsimp only [Event.apply, Event.Clears, Event.use, delete, drop]
      rw [Dict.keys_erase]
      by_cases own : sid = deleted <;> simp [own, eq_comm]
  | cleanup now =>
      dsimp only [Event.apply, Event.Clears, Event.use, cleanup]
      rw [and_iff_right rfl]
      exact notMem_evictLocked_iff (active rfl)

theorem cleared_concat {start : Timed κ} {last : ℚ}
    (execution : machine.run start events = some s) :
    Cleared start (events ++ [event]) sid last ↔ event.Clears s.manager sid last ∨
      event.use sid = none ∧ Cleared start events sid last := by
  constructor
  · rintro ⟨before, clearing, after, u, split, reached, clears, unused⟩
    obtain rfl | ⟨after, final, rfl⟩ := List.eq_nil_or_concat after
    · obtain ⟨rfl, same⟩ := List.append_inj' split rfl
      cases same
      rw [execution] at reached
      cases reached
      exact .inl clears
    · rw [List.concat_eq_append, ← List.cons_append, ← List.append_assoc] at split
      obtain ⟨rfl, same⟩ := List.append_inj' split rfl
      cases same
      rw [List.concat_eq_append, List.forall_mem_append, List.forall_mem_singleton] at unused
      exact .inr ⟨unused.2, before, clearing, after, u, rfl, reached, clears, unused.1⟩
  · rintro (clears | ⟨idle, before, clearing, after, u, rfl, reached, clears, unused⟩)
    · exact ⟨events, event, [], s, rfl, execution, clears, by simp⟩
    · refine ⟨before, clearing, after ++ [event], u, by simp, reached, clears, ?_⟩
      rw [List.forall_mem_append, List.forall_mem_singleton]
      exact ⟨unused, idle⟩

/-- An id that was used is stored unless it has been cleared since. -/
theorem stored_iff {last : ℚ}
    (execution : machine.run ⟨new ttl maxSessions, clock⟩ events = some s)
    (used : lastUse sid events = some last) :
    sid ∉ s.manager.sessions.keys ↔ Cleared ⟨new ttl maxSessions, clock⟩ events sid last := by
  have held := Machine.run_history (m := machine)
    (P := fun s past => machine.run ⟨new ttl maxSessions, clock⟩ past = some s ∧
      ∀ sid last, lastUse sid past = some last →
        (sid ∉ s.manager.sessions.keys ↔ Cleared ⟨new ttl maxSessions, clock⟩ past sid last))
    ?_ ⟨rfl, fun _ _ used => nomatch used⟩ execution
  · exact held.2 sid last used
  · rintro s past event t ⟨reached, ih⟩ transition
    refine ⟨machine.run_append_iff.mpr ⟨s, reached, machine.run_cons_iff.mpr ⟨t, transition, rfl⟩⟩,
      ?_⟩
    intro sid last used
    rw [notMem_step_iff (lastActive_run reached) transition used, cleared_concat reached]
    refine or_congr_right (and_congr_right fun unused => ih sid last ?_)
    rwa [lastUse_concat, unused, Option.none_or] at used

/-- In a run, no expired session is revived exactly when each time `get_or_create` is asked for
an id that was not used for the idle time, the id has been cleared since its last use. -/
theorem revivesNone_iff (ttl : Option ℚ) (maxSessions : Option Int) (clock : ℚ)
    (events : List (Event κ)) :
    RevivesNone ⟨new ttl maxSessions, clock⟩ events ↔
      ClearsIdle ⟨new ttl maxSessions, clock⟩ events := by
  have call {before : List (Event κ)} {s : Timed κ} {sid : String} {last now later : ℚ}
      (execution : machine.run ⟨new ttl maxSessions, clock⟩ before = some s)
      (used : lastUse sid before = some last) :
      (∀ answer, (s.manager.getOrCreate sid now later answer).2 = answer) ↔
        Cleared ⟨new ttl maxSessions, clock⟩ before sid last := by
    rw [getOrCreate_answers_iff, stored_iff execution used]
  constructor
  · intro none_ before sid now later made after s split execution ttl given last used idle
    exact (call execution used).mp
      (none_ before sid now later made after s split execution ttl given last used idle)
  · intro clears before sid now later made after s split execution ttl given last used idle
    exact (call execution used).mpr
      (clears before sid now later made after s split execution ttl given last used idle)

/-- A session that should last ten seconds is returned after a minute without use. -/
theorem revived_after_minute :
    ∃ s t : Timed Nat, machine.run ⟨new (some 10) none, 0⟩ [.getOrCreate "ada" 0 0 (.ok 1)] =
        some s ∧ step s (.getOrCreate "ada" 60 60 (.ok 2)) = some t ∧
      (s.manager.getOrCreate "ada" 60 60 (.ok 2)).2 = .ok 1 ∧
      ¬ RevivesNone ⟨(new (some 10) none : SessionManager Nat), 0⟩
        [.getOrCreate "ada" 0 0 (.ok 1), .getOrCreate "ada" 60 60 (.ok 2)] := by
  have visits : (machine.run ⟨new (some 10) none, 0⟩ [.getOrCreate "ada" 0 0 (.ok 1)]).any
      (fun s : Timed Nat => decide (s.manager.ttl = some 10) &&
        decide ((s.manager.getOrCreate "ada" 60 60 (.ok 2)).2 = .ok 1) &&
        (step s (.getOrCreate "ada" 60 60 (.ok 2))).isSome) = true := by
    decide +kernel
  obtain ⟨s, execution, visits⟩ := (Option.any_eq_true _ _).mp visits
  obtain ⟨visits, transition⟩ := Bool.and_eq_true_iff.mp visits
  obtain ⟨given, returned⟩ := Bool.and_eq_true_iff.mp visits
  obtain ⟨t, transition⟩ := Option.isSome_iff_exists.mp transition
  have revived := of_decide_eq_true returned
  refine ⟨s, t, execution, transition, revived, ?_⟩
  intro none_
  have made := none_ [_] "ada" 60 60 (.ok 2) [] s rfl execution 10 (of_decide_eq_true given) 0 rfl
    (by norm_num) (.ok 2)
  rw [revived] at made
  cases made

end MultiAgent.Plugin.SessionManager
