import MultiAgent.Foundations.Plurality
import MultiAgent.Plugin.Text
import Mathlib.Data.List.Infix

/-!
# Votes of a consensus

The votes of `run_consensus` and who is declared their winner. A vote is read off the text of
a response, of an error as well, in the order of the agents; a name that another one begins
with is found in the votes for the other. `tally_iff` says for which responses the tally is
right. `str.lower` is a parameter.
-/

namespace MultiAgent.Plugin

namespace Consensus

/-- A response: what `str` makes of it, and `_is_error`. -/
structure Response where
  text : String
  isError : Bool
  deriving DecidableEq

section Votes

variable (lower : String → String)

/-- The text is the name of the candidate, or a vote for it. -/
def isVote (low c : String) : Bool :=
  decide (low = lower c ∨ low = "vote:" ++ lower c ∨ low = "vote: " ++ lower c)

/-- There is a vote for the candidate in the text. -/
def hasVote (low c : String) : Bool :=
  decide (("vote:" ++ lower c).toList <:+: low.toList ∨
    ("vote: " ++ lower c).toList <:+: low.toList)

/-- `_parse_vote` -/
def parseVote (text : String) (candidates : List String) : Option String :=
  let low := lower (strip text)
  match candidates.find? (isVote lower low) with
  | some c => some c
  | none => candidates.find? (hasVote lower low)

/-- What a response adds to the counts. -/
def counted (names : List String) (response : Response) : Option String :=
  (parseVote lower response.text names).filter fun name => decide (name ≠ "")

/-- `counts` -/
def counts (names : List String) (votes : List Response) : Dict String Nat :=
  Counter.tally (votes.filterMap (counted lower names))

/-- The winner that is declared without the judge. -/
def declared (names : List String) (proposals : String → Response) (votes : List Response) :
    Option String :=
  (Counter.leader (counts lower names votes)).filter fun winner => !(proposals winner).isError

/-- How a run ends: the winner, or the agent that is asked to judge. -/
inductive Final where
  | winner (name : String) (response : Response)
  | judge (name : String)
  deriving DecidableEq

/-- `run_consensus` from the votes on; `none` is a `StrategyError`. -/
def runConsensus (names : List String) (judge : Option String) (proposals : String → Response)
    (votes : List Response) : Option Final :=
  if names.length < 2 then none
  else match declared lower names proposals votes with
    | some name => some (.winner name (proposals name))
    | none => some (.judge (match judge.filter fun name => decide (name ≠ "") with
      | some name => name
      | none => if "judge" ∈ names then "judge" else names.headD ""))

/-- A vote for the candidate that begins at a position of the text: its full name follows, and
behind that white space or the end. -/
def MarkerAt (low c : String) (position : Nat) : Prop :=
  ∃ marker ∈ ["vote:" ++ lower c, "vote: " ++ lower c],
    marker.toList <+: low.toList.drop position ∧
    (low.toList.drop (position + marker.length)).head?.all isSpace = true

/-- The text has one vote marker, that of the candidate. -/
def SoleMarker (names : List String) (text c : String) : Prop :=
  ∃ position, MarkerAt lower (lower (strip text)) c position ∧
    ∀ other ∈ names, ∀ place, MarkerAt lower (lower (strip text)) other place →
      other = c ∧ place = position

/-- What is asked of a tally, in every order of the agents and the responses. -/
structure TallyCorrect (names : List String) (judge : Option String)
    (proposals : String → Response) (votes : List Response) : Prop where
  errors : ∀ r ∈ votes, r.isError = true → counted lower names r = none
  marked : ∀ r ∈ votes, r.isError = false → ∀ c ∈ names, SoleMarker lower names r.text c →
    counted lower names r = some c
  alike : ∀ names', names.Perm names' → ∀ r ∈ votes,
    counted lower names' r = counted lower names r
  winner : ∀ names' votes', names.Perm names' → votes.Perm votes' → ∀ w,
    (∃ r, runConsensus lower names' judge proposals votes' = some (.winner w r)) ↔
      Plurality (votes.filterMap (counted lower names)) w ∧ (proposals w).isError = false

/-- The candidates among which the order of the agents decides. -/
def matching (names : List String) (text : String) : List String :=
  if names.filter (isVote lower (lower (strip text))) = [] then
    names.filter (hasVote lower (lower (strip text)))
  else names.filter (isVote lower (lower (strip text)))

/-- A response that the tally reads as it is meant. -/
structure Readable (names : List String) (r : Response) : Prop where
  errors : r.isError = true → ∀ c ∈ matching lower names r.text, c = ""
  single : (matching lower names r.text).length ≤ 1
  marked : r.isError = false → ∀ c ∈ names, SoleMarker lower names r.text c →
    c ≠ "" ∧ ∀ d ∈ names, isVote lower (lower (strip r.text)) d = true → d = c

variable {lower} {names names' : List String} {text c : String} {r : Response}

theorem parseVote_eq : parseVote lower text names = (matching lower names text).head? := by
  rw [parseVote, matching]
  cases whole : names.filter (isVote lower (lower (strip text))) with
  | nil =>
      rw [← List.head?_filter, whole, if_pos rfl, List.head?_filter]
      rfl
  | cons c rest =>
      rw [← List.head?_filter, whole, if_neg (List.cons_ne_nil _ _)]
      rfl

theorem counted_eq_some_iff : counted lower names r = some c ↔
    (matching lower names r.text).head? = some c ∧ c ≠ "" := by
  rw [counted, parseVote_eq, Option.filter_eq_some_iff, decide_eq_true_eq]

theorem matching_perm (perm : names.Perm names') :
    (matching lower names text).Perm (matching lower names' text) := by
  have whole := perm.filter (isVote lower (lower (strip text)))
  have within := perm.filter (hasVote lower (lower (strip text)))
  rw [matching, matching]
  by_cases none : names.filter (isVote lower (lower (strip text))) = []
  · rw [none] at whole
    rw [if_pos none, if_pos whole.nil_eq.symm]
    exact within
  · have some : names'.filter (isVote lower (lower (strip text))) ≠ [] := by
      intro none'
      rw [none'] at whole
      exact none whole.eq_nil
    rw [if_neg none, if_neg some]
    exact whole

theorem matching_nodup (distinct : names.Nodup) : (matching lower names text).Nodup := by
  rw [matching]
  split_ifs <;> exact distinct.filter _

theorem matching_subset : matching lower names text ⊆ names := by
  intro c member
  rw [matching] at member
  split_ifs at member <;> exact List.mem_of_mem_filter member

/-- A matching candidate can come first. -/
theorem exists_first (member : c ∈ matching lower names text) :
    ∃ names', names.Perm names' ∧ (matching lower names' text).head? = some c := by
  have perm := List.perm_cons_erase (matching_subset member)
  refine ⟨c :: names.erase c, perm, ?_⟩
  rw [matching] at member ⊢
  split_ifs at member with none
  · have none' := perm.filter (isVote lower (lower (strip text)))
    rw [none] at none'
    rw [if_pos none'.nil_eq.symm, List.filter_cons_of_pos (List.mem_filter.mp member).2]
    rfl
  · rw [List.filter_cons_of_pos (List.mem_filter.mp member).2, if_neg (List.cons_ne_nil _ _)]
    rfl

/-- A response is counted alike in every order when a single candidate matches at most. -/
theorem alike_iff (distinct : names.Nodup) :
    (∀ names', names.Perm names' → counted lower names' r = counted lower names r) ↔
      (matching lower names r.text).length ≤ 1 := by
  constructor
  · intro alike
    by_contra several
    obtain ⟨first, second, rest, shown⟩ : ∃ first second rest,
        matching lower names r.text = first :: second :: rest := by
      match shown : matching lower names r.text with
      | [] => simp [shown] at several
      | [_] => simp [shown] at several
      | first :: second :: rest => exact ⟨first, second, rest, rfl⟩
    have apart : first ≠ second := by
      have nodup := @matching_nodup lower names r.text distinct
      rw [shown, List.nodup_cons] at nodup
      intro same
      exact nodup.1 (same ▸ List.mem_cons_self)
    obtain ⟨names', perm, turn⟩ := @exists_first lower names r.text second (by simp [shown])
    have same := alike names' perm
    by_cases blank : second = ""
    · have one : counted lower names r = some first :=
        counted_eq_some_iff.mpr ⟨by rw [shown, List.head?_cons], blank ▸ apart⟩
      rw [← same, counted_eq_some_iff, turn] at one
      exact apart (Option.some.inj one.1).symm
    · have two : counted lower names' r = some second :=
        counted_eq_some_iff.mpr ⟨turn, blank⟩
      rw [same, counted_eq_some_iff, shown, List.head?_cons] at two
      exact apart (Option.some.inj two.1)
  · intro single names' perm
    have same := @matching_perm lower names names' r.text perm
    rw [counted, counted, parseVote_eq, parseVote_eq]
    congr 1
    cases shown : matching lower names r.text with
    | nil =>
        rw [shown] at same
        rw [same.nil_eq]
    | cons c rest =>
        rw [shown] at same single
        have alone : rest = [] := by simpa using single
        subst alone
        rw [List.singleton_perm.mp same]

theorem counted_eq_none_iff (single : (matching lower names r.text).length ≤ 1) :
    counted lower names r = none ↔ ∀ c ∈ matching lower names r.text, c = "" := by
  rw [Option.eq_none_iff_forall_ne_some]
  constructor
  · intro none c member
    by_contra named
    apply none c
    rw [counted_eq_some_iff]
    refine ⟨?_, named⟩
    cases shown : matching lower names r.text with
    | nil =>
        rw [shown] at member
        cases member
    | cons first rest =>
        rw [shown] at member single
        have alone : rest = [] := by simpa using single
        rw [alone, List.mem_singleton] at member
        rw [member, List.head?_cons]
  · intro blank c some_counted
    obtain ⟨first, named⟩ := counted_eq_some_iff.mp some_counted
    exact named (blank c (List.mem_of_head? first))

theorem hasVote_of_marker {low : String} {position : Nat}
    (marker : MarkerAt lower low c position) : hasVote lower low c = true := by
  obtain ⟨marker, form, here, -⟩ := marker
  have within := here.isInfix.trans (List.drop_suffix position low.toList).isInfix
  rw [hasVote, decide_eq_true_eq]
  rcases List.mem_pair.mp form with rfl | rfl
  · exact .inl within
  · exact .inr within

/-- The sole marker of a text counts unless the whole text is a vote for another candidate. -/
theorem counted_sole_iff (single : (matching lower names r.text).length ≤ 1) (member : c ∈ names)
    (sole : SoleMarker lower names r.text c) : counted lower names r = some c ↔
      c ≠ "" ∧ ∀ d ∈ names, isVote lower (lower (strip r.text)) d = true → d = c := by
  obtain ⟨position, marker, -⟩ := sole
  have within : c ∈ names.filter (hasVote lower (lower (strip r.text))) :=
    List.mem_filter.mpr ⟨member, hasVote_of_marker marker⟩
  rw [counted_eq_some_iff, and_comm]
  refine and_congr_right fun _ => ?_
  rw [matching] at single ⊢
  split_ifs at single ⊢ with none
  · refine iff_of_true ?_ ?_
    · cases shown : names.filter (hasVote lower (lower (strip r.text))) with
      | nil =>
          rw [shown] at within
          cases within
      | cons first rest =>
          rw [shown] at within single
          have alone : rest = [] := by simpa using single
          rw [alone, List.mem_singleton] at within
          rw [within, List.head?_cons]
    · intro d inside whole
      exact absurd whole (List.filter_eq_nil_iff.mp none d inside)
  · cases shown : names.filter (isVote lower (lower (strip r.text))) with
    | nil => exact absurd shown none
    | cons first rest =>
        rw [shown] at single
        have alone : rest = [] := by simpa using single
        have only (d : String) : d ∈ names ∧ isVote lower (lower (strip r.text)) d = true ↔
            d = first := by
          rw [← List.mem_filter, shown, alone, List.mem_singleton]
        rw [List.head?_cons, Option.some_inj]
        constructor
        · rintro rfl d inside whole
          exact (only d).mp ⟨inside, whole⟩
        · intro same
          obtain ⟨inside, whole⟩ := (only first).mpr rfl
          exact same first inside whole

theorem runConsensus_winner {judge : Option String} {proposals : String → Response}
    {votes : List Response} {w : String} (enough : 2 ≤ names.length) :
    (∃ r, runConsensus lower names judge proposals votes = some (.winner w r)) ↔
      Plurality (votes.filterMap (counted lower names)) w ∧ (proposals w).isError = false := by
  have declared_iff : declared lower names proposals votes = some w ↔
      Plurality (votes.filterMap (counted lower names)) w ∧ (proposals w).isError = false := by
    rw [declared, counts, Option.filter_eq_some_iff, Counter.leader_tally_iff,
      Bool.not_eq_true']
  rw [← declared_iff, runConsensus, if_neg (not_lt.mpr enough)]
  cases declared lower names proposals votes with
  | none => simp
  | some name =>
      constructor
      · rintro ⟨r, same⟩
        cases same
        rfl
      · rintro ⟨⟩
        exact ⟨_, rfl⟩

/-- Responses that are counted alike in every order make the same winner in every order. -/
theorem winner_perm {votes votes' : List Response} (perm : votes.Perm votes')
    (alike : ∀ r ∈ votes, counted lower names' r = counted lower names r) (w : String) :
    Plurality (votes'.filterMap (counted lower names')) w ↔
      Plurality (votes.filterMap (counted lower names)) w := by
  have same : votes.filterMap (counted lower names') = votes.filterMap (counted lower names) :=
    List.filterMap_congr alike
  have counts := perm.filterMap (counted lower names')
  rw [same] at counts
  simp only [Plurality, counts.count_eq]

/-- The tally is correct exactly when every response is read as it is meant. -/
theorem tally_iff (lower : String → String) {names : List String}
    (distinct : (names.map lower).Nodup) (enough : 2 ≤ names.length) (judge : Option String)
    (proposals : String → Response) (votes : List Response) :
    TallyCorrect lower names judge proposals votes ↔ ∀ r ∈ votes, Readable lower names r := by
  have apart : names.Nodup := List.Nodup.of_map lower distinct
  constructor
  · intro correct r member
    have single := (alike_iff apart).mp fun names' perm => correct.alike names' perm r member
    refine ⟨?_, single, ?_⟩
    · intro error
      exact (counted_eq_none_iff single).mp (correct.errors r member error)
    · intro sound c inside sole
      exact (counted_sole_iff single inside sole).mp (correct.marked r member sound c inside sole)
  · intro readable
    have alike (names' : List String) (perm : names.Perm names') :
        ∀ r ∈ votes, counted lower names' r = counted lower names r :=
      fun r member => (alike_iff apart).mpr (readable r member).single names' perm
    refine ⟨?_, ?_, alike, ?_⟩
    · intro r member error
      exact (counted_eq_none_iff (readable r member).single).mpr ((readable r member).errors error)
    · intro r member sound c inside sole
      exact (counted_sole_iff (readable r member).single inside sole).mpr
        ((readable r member).marked sound c inside sole)
    · intro names' votes' same_names same_votes w
      rw [runConsensus_winner (same_names.length_eq ▸ enough),
        winner_perm same_votes (alike names' same_names)]

end Votes

section Texts

theorem lt_of_marker {low c : String} {position : Nat} (marker : MarkerAt lower low c position) :
    position < low.toList.length := by
  obtain ⟨marker, form, here, -⟩ := marker
  by_contra beyond
  rw [List.drop_of_length_le (not_lt.mp beyond), List.prefix_nil] at here
  rcases List.mem_pair.mp form with rfl | rfl <;> simp at here

theorem prefix_of_marker {low c : String} {position : Nat}
    (marker : MarkerAt lower low c position) :
    ['v', 'o', 't', 'e', ':'] <+: low.toList.drop position := by
  obtain ⟨marker, form, here, -⟩ := marker
  refine List.IsPrefix.trans ?_ here
  rcases List.mem_pair.mp form with rfl | rfl
  · exact ⟨(lower c).toList, by rw [String.toList_append]; rfl⟩
  · exact ⟨' ' :: (lower c).toList, by rw [String.toList_append]; rfl⟩

theorem sole_alice : SoleMarker lower ["al", "alice"] "so vote:alice" "alice" := by
  have text : (lower (strip "so vote:alice")).toList =
      ['s', 'o', ' ', 'v', 'o', 't', 'e', ':', 'a', 'l', 'i', 'c', 'e'] := by decide
  refine ⟨3, ⟨"vote:alice", by decide, by decide, by decide⟩, ?_⟩
  intro other inside place marker
  have near := lt_of_marker marker
  have start := prefix_of_marker marker
  rw [text] at near start
  have third : ∀ place < 13, ['v', 'o', 't', 'e', ':'] <+:
      ['s', 'o', ' ', 'v', 'o', 't', 'e', ':', 'a', 'l', 'i', 'c', 'e'].drop place →
      place = 3 := by decide
  obtain rfl := third place near start
  refine ⟨?_, rfl⟩
  rcases List.mem_pair.mp inside with rfl | rfl
  · obtain ⟨marker, form, here, behind⟩ := marker
    rw [text] at here behind
    rcases List.mem_pair.mp form with rfl | rfl
    · exact absurd behind (by decide)
    · exact absurd here (by decide)
  · rfl

theorem tally_iff_greeting : TallyCorrect lower ["al", "bo"] none (fun _ => ⟨"hi", false⟩)
    [⟨"bo", false⟩, ⟨"\x7b'error': 'timeout'\x7d", true⟩] := by
  apply (tally_iff lower (by decide) (by decide) _ _ _).mpr
  intro r member
  rcases List.mem_pair.mp member with rfl | rfl
  · refine ⟨nofun, by decide, ?_⟩
    intro _ c inside ⟨place, marker, _⟩
    have within := hasVote_of_marker marker
    have nowhere : ∀ c ∈ ["al", "bo"], hasVote lower (lower (strip "bo")) c = false := by decide
    rw [nowhere c inside] at within
    cases within
  · exact ⟨fun _ => by decide, by decide, nofun⟩

/-- A marker for one candidate is counted for another whose name begins its name, and the text
of an error is counted. -/
theorem not_tally : ¬ TallyCorrect lower ["al", "alice"] none (fun _ => ⟨"hi", false⟩)
      [⟨"so vote:alice", false⟩] ∧
    ¬ TallyCorrect lower ["al", "alice"] none (fun _ => ⟨"hi", false⟩)
      [⟨"\x7b'error': 'no vote: al'\x7d", true⟩] := by
  constructor
  · intro correct
    have counts := correct.marked _ (List.mem_singleton_self _) rfl "alice" (by decide) sole_alice
    exact absurd counts (by decide)
  · intro correct
    have counts := correct.errors _ (List.mem_singleton_self _) rfl
    exact absurd counts (by decide)

end Texts

end Consensus

end MultiAgent.Plugin
