import MultiAgent.Plugin.Strategies.Chains

/-!
# Strategies that share the memory

`run_debate` shows its agents the memory of the coordinator, which others may change at any
time. Every agent of a round is shown the memory as it stands before the round, with all that
the debate has recorded until then (`debate_shows`); where nobody else uses the memory, it holds
the prompt and the statements of the earlier rounds (`debate_transcript`).
-/

namespace MultiAgent.Plugin

namespace Strategies

section Debate

variable {repr : Json → String} {shared : MessageStore} {env : Environment} {prompt : Json}
  {policy : Option ContextPolicy} {names : List String} {maxChars : Option Int}
  {timeout : Option ℚ}

/-- What a round does itself, when it is shown a memory. -/
def debateRound (repr : Json → String) (prompt : Json) (policy : Option ContextPolicy)
    (names : List String) (memory : MessageStore) (responses : Dict String Json) : List Act :=
  (responses.keys.map fun agent =>
      .ask agent prompt (debateContexts repr prompt policy names memory agent)) ++
    spokenAll responses

/-- The rounds of a debate behind some acts: others have their turn, then every agent is asked
with the memory of this moment, and then the responses are recorded. -/
def Debated (repr : Json → String) (shared : MessageStore) (prompt : Json)
    (policy : Option ContextPolicy) (names : List String) :
    List Act → List (Dict String Json) → List Act → Prop
  | _, [], more => more = []
  | before, responses :: rest, more => ∃ idle round later, more = idle ++ (round ++ later) ∧
      own idle = [] ∧
      own round = debateRound repr prompt policy names (replay repr shared (before ++ idle))
        responses ∧
      Debated repr shared prompt policy names (before ++ idle ++ round) rest later

theorem adds_debateRounds {left r : Nat} {responses : Dict String Json} :
    Adds env (debateRounds env prompt policy timeout names left r responses :
        Run repr shared (List Record × Dict String Json))
      fun before result more => ∃ rounds, rounds.length = left ∧
        (∀ round ∈ rounds, ∃ k, round.keys = env.agents k) ∧
        result.1 = roundRecords "debate" r rounds ∧
        result.2 = rounds.getLast?.getD responses ∧
        Debated repr shared prompt policy names before rounds more := by
  induction left generalizing r responses with
  | zero => exact .pure fun _ => ⟨[], rfl, by simp, rfl, rfl, rfl⟩
  | succ left ih =>
      refine does_moment.adds.bind ?_
      rintro _ before idle ⟨quiet, -⟩
      refine .get fun w => does_parallel.adds.bind ?_
      rintro responses _ asks ⟨asked, registered⟩
      refine does_recordAll.adds.bind fun _ _ said recorded => ih.bind ?_
      rintro ⟨records, last⟩ _ later ⟨rounds, length, all, shown, final, debated⟩
      refine .pure fun _ => ?_
      rintro rfl rfl rfl here rfl
      refine ⟨responses :: rounds, congrArg (· + 1) length,
        List.forall_mem_cons.mpr ⟨registered, all⟩, ?_, ?_, idle, asks ++ said, later, ?_, quiet,
        ?_, ?_⟩
      · rw [roundRecords_cons]
        exact congrArg _ shown
      · rw [List.getLast?_cons]
        exact final
      · simp only [List.append_assoc, List.append_nil]
      · rw [own_append, asked, recorded, w.replayed, here]
        rfl
      · rw [← List.append_assoc]
        exact debated

/-- What a debate does around its rounds: it records the prompt, and its judge is asked for a
verdict on the last round. -/
structure DebateEnds (env : Environment) (repr : Json → String) (prompt : Json)
    (rounds : Except Raised Int) (maxChars : Option Int) (names : List String) (judge : String)
    (responses : List (Dict String Json)) (final : Json) (result : Result)
    (first last : List Act) : Prop where
  bounded : Bound env maxChars
  registered : ∃ k, names = env.agents k
  enough : 2 ≤ names.length
  known : Known env judge
  limit : ∃ limit, rounds = .ok limit ∧ responses.length = (max 1 limit).toNat
  agents : ∀ round ∈ responses, ∃ k, round.keys = env.agents k
  records : result.rounds =
    roundRecords "debate" 1 responses ++ [.named "judge" judge final]
  answer : result.final = .str (final.toStr repr)
  opening : own first = [.record "user" prompt none]
  verdict : own last = .ask judge
      (.str (judgeInput repr prompt (responses.getLast?.getD .empty) maxChars)) none ::
    spoken final final judge

theorem adds_runDebate {rounds : Except Raised Int} {judge : Option String} :
    Adds env (runDebate env prompt rounds judge timeout : Run repr shared Result)
      fun before result more => ∃ maxChars names responses final first round last,
        DebateEnds env repr prompt rounds maxChars names (judgeName judge names) responses final
          result first last ∧
        more = first ++ (round ++ last) ∧ ∃ k,
        Debated repr shared prompt (env.policy k) names (before ++ first) responses round := by
  refine does_agents.adds.bind ?_
  rintro _ before m1 ⟨q1, k1, rfl⟩
  refine .ite (fun _ => .throw) fun enough => does_policy.adds.bind ?_
  rintro _ _ m2 ⟨q2, k2, rfl⟩
  refine does_maxChars.adds.bind ?_
  rintro maxChars _ m3 ⟨q3, bound⟩
  refine does_record.adds.bind fun _ _ m4 recorded => ?_
  cases rounds with
  | error raised => exact .throw
  | ok limit =>
      refine adds_debateRounds.bind ?_
      rintro ⟨records, responses⟩ _ round ⟨all, length, registered, shown, final, debated⟩
      refine does_isRegistered.adds.bind ?_
      rintro _ _ m5 ⟨q5, k5, rfl⟩
      refine .ite (fun known => ?_) fun _ => .throw
      refine does_callAgent.adds.bind fun verdict _ m6 asked => ?_
      refine does_recordSound.adds.bind fun _ _ m7 said => .pure fun _ => ?_
      rintro rfl rfl rfl rfl rfl rfl rfl rfl
      obtain rfl : responses = all.getLast?.getD .empty := final
      refine ⟨maxChars, env.agents k1, all, verdict, m1 ++ (m2 ++ (m3 ++ m4)), round,
        m5 ++ (m6 ++ m7), ?_, ?_, k2, ?_⟩
      · refine ⟨bound, ⟨k1, rfl⟩, not_lt.mp enough, ⟨k5, of_decide_eq_true known⟩,
          ⟨limit, rfl, length⟩, registered, ?_, rfl, ?_, ?_⟩
        · exact congrArg (· ++ _) shown
        · rw [own_append, own_append, own_append, q1, q2, q3, recorded]
          rfl
        · rw [own_append, own_append, q5, asked, said]
          rfl
      · simp only [List.append_assoc, List.append_nil]
      · simpa only [List.append_assoc] using debated

def Act.isRecord : Act → Bool
  | .record _ _ _ => true
  | .others _ | .ask _ _ _ => false

/-- Every agent that is asked with a context is shown the memory as it stood behind the acts
`seen`, since when the run itself has recorded nothing. -/
def Shows (repr : Json → String) (shared : MessageStore) (prompt : Json)
    (policy : Option ContextPolicy) (names : List String) (before more : List Act) : Prop :=
  ∀ earlier agent message context later,
    more = earlier ++ .ask agent message (some context) :: later →
    ∃ seen since, before ++ earlier = seen ++ since ∧ (∀ act ∈ since, act.isRecord = false) ∧
      some context =
        debateContexts repr prompt policy names (replay repr shared seen) agent

theorem Shows.append {before more later : List Act}
    (first : Shows repr shared prompt policy names before more)
    (second : Shows repr shared prompt policy names (before ++ more) later) :
    Shows repr shared prompt policy names before (more ++ later) := by
  intro earlier agent message context rest split
  obtain ⟨inside, rfl, here⟩ | ⟨inside, rfl, here⟩ := List.append_eq_append_iff.mp split
  · rw [← List.append_assoc]
    exact second inside agent message context rest here
  · cases inside with
    | nil =>
        simp only [List.append_nil, List.nil_append] at second here
        simpa only [List.append_nil] using second [] agent message context rest here.symm
    | cons act inside =>
        obtain ⟨rfl, rfl⟩ := List.cons.inj here
        exact first earlier agent message context inside rfl

/-- Acts without a context show nothing. -/
theorem Shows.of_own {before more : List Act}
    (none : ∀ agent message context, .ask agent message (some context) ∉ own more) :
    Shows repr shared prompt policy names before more := by
  rintro earlier agent message context later rfl
  refine absurd ?_ (none agent message context)
  exact List.mem_filter.mpr ⟨by simp, rfl⟩

theorem isRecord_of_spokenAll {act : Act} {responses : Dict String Json}
    (member : act ∈ spokenAll responses) : act.isRecord = true := by
  obtain ⟨entry, -, inside⟩ := List.mem_flatMap.mp member
  rw [spoken] at inside
  split_ifs at inside
  · cases inside
  · rw [List.mem_singleton.mp inside]
    rfl

theorem isRecord_of_own {acts : List Act} (asks : ∀ act ∈ own acts, act.isRecord = false) :
    ∀ act ∈ acts, act.isRecord = false := by
  intro act member
  cases act with
  | others operation => rfl
  | record role content agent => exact asks _ (List.mem_filter.mpr ⟨member, rfl⟩)
  | ask agent message context => rfl

/-- The asks of a round are shown what the memory holds before it. -/
theorem shows_round {before idle round : List Act} {responses : Dict String Json}
    (quiet : own idle = [])
    (acts : own round = debateRound repr prompt policy names
      (replay repr shared (before ++ idle)) responses) :
    Shows repr shared prompt policy names before (idle ++ round) := by
  refine Shows.append (.of_own (by simp [quiet])) ?_
  rintro earlier agent message context later rfl
  refine ⟨before ++ idle, earlier, rfl, ?_⟩
  have order : own earlier ++ .ask agent message (some context) :: own later =
      debateRound repr prompt policy names (replay repr shared (before ++ idle)) responses := by
    rw [← acts, own_append]
    rfl
  -- The ask is one of the questions of the round, so only questions are before it.
  obtain ⟨asks, inside, rest⟩ | ⟨said, -, rest⟩ := List.append_eq_append_iff.mp order
  · have member : .ask agent message (some context) ∈ asks := by
      cases asks with
      | nil =>
          have spoken : .ask agent message (some context) ∈ spokenAll responses := by
            rw [List.nil_append] at rest
            rw [← rest]
            exact List.mem_cons_self
          cases isRecord_of_spokenAll spoken
      | cons act asks =>
          rw [(List.cons.inj rest).1]
          exact List.mem_cons_self
    refine ⟨isRecord_of_own fun act here => ?_, ?_⟩
    · obtain ⟨other, -, rfl⟩ := List.mem_map.mp (inside ▸ List.mem_append_left asks here)
      rfl
    · obtain ⟨other, -, same⟩ := List.mem_map.mp (inside ▸ List.mem_append_right _ member)
      obtain ⟨rfl, -, shown⟩ := Act.ask.inj same
      exact shown.symm
  · have spoken : .ask agent message (some context) ∈ spokenAll responses := by
      rw [rest]
      exact List.mem_append_right _ List.mem_cons_self
    cases isRecord_of_spokenAll spoken

theorem shows_debated {before more : List Act} {rounds : List (Dict String Json)}
    (debated : Debated repr shared prompt policy names before rounds more) :
    Shows repr shared prompt policy names before more := by
  induction rounds generalizing before more with
  | nil =>
      obtain rfl : more = [] := debated
      exact .of_own (by simp)
  | cons responses rest ih =>
      obtain ⟨idle, round, later, rfl, quiet, acts, debated⟩ := debated
      rw [← List.append_assoc]
      refine (shows_round quiet acts).append (ih ?_)
      rw [← List.append_assoc]
      exact debated

/-- The memory behind some operations has the bounds that it had before. -/
theorem replay_eq (operations : List MessageStore.Operation) (store : MessageStore) :
    operations.foldl (MessageStore.apply repr) store =
      { store with messages := (operations.foldl (MessageStore.apply repr) store).messages } := by
  induction operations generalizing store with
  | nil => rfl
  | cons operation rest ih =>
      obtain ⟨capacity, maxChars⟩ := @MessageStore.apply_bounds repr store operation
      rw [List.foldl_cons, ih, capacity, maxChars]

theorem longest_replay {log : List Object} (limited : ∀ limit ∈ shared.capacity, 1 ≤ limit)
    (longest : Longest (MessageStore.Fits repr shared.capacity shared.maxChars) log shared.messages)
    (acts : List Act) :
    ∃ kept, replay repr shared acts = { shared with messages := kept } ∧
      Longest (MessageStore.Fits repr shared.capacity shared.maxChars)
        ((acts.filterMap Act.operation).foldl MessageStore.logged log) kept :=
  ⟨_, replay_eq _ _, MessageStore.longest_run repr limited longest _⟩

/-- Whatever others do to the memory meanwhile, every agent that is asked in a round of a debate
is shown the longest part that the memory keeps of everything that was said on it up to a moment
since when the debate has recorded nothing: all the statements of the earlier rounds are in
what was said, and none of its own round. -/
theorem debate_shows (env : Environment) (prompt : Json) (rounds : Except Raised Int)
    (judge : Option String) (timeout : Option ℚ) {log : List Object}
    (limited : ∀ limit ∈ shared.capacity, 1 ≤ limit)
    (longest : Longest (MessageStore.Fits repr shared.capacity shared.maxChars) log shared.messages)
    {result : Result} {w : World repr shared}
    (returned : runDebate env prompt rounds judge timeout (.start repr shared) = .ok result w) :
    ∃ k maxChars names responses final first round last,
      DebateEnds env repr prompt rounds maxChars names (judgeName judge names) responses final
        result first last ∧
      w.acts = first ++ (round ++ last) ∧
      Debated repr shared prompt (env.policy k) names first responses round ∧
      ∀ earlier agent message context later,
        w.acts = earlier ++ .ask agent message (some context) :: later →
        ∃ seen since kept, earlier = seen ++ since ∧ (∀ act ∈ since, act.isRecord = false) ∧
          Longest (MessageStore.Fits repr shared.capacity shared.maxChars)
            ((seen.filterMap Act.operation).foldl MessageStore.logged log) kept ∧
          some context = debateContexts repr prompt (env.policy k) names
            { shared with messages := kept } agent := by
  obtain ⟨more, added, maxChars, names, responses, final, first, round, last, ends, rfl, k,
    debated⟩ := (adds_runDebate []).of_ok rfl returned
  have acts : w.acts = first ++ (round ++ last) := added.eq
  refine ⟨k, maxChars, names, responses, final, first, round, last, ends, acts, debated, ?_⟩
  have opening : Shows repr shared prompt (env.policy k) names [] first :=
    .of_own (by simp [ends.opening])
  have verdict : Shows repr shared prompt (env.policy k) names (first ++ round) last := by
    refine .of_own ?_
    rw [ends.verdict, spoken]
    split_ifs <;> simp
  have shows_ : Shows repr shared prompt (env.policy k) names [] (first ++ (round ++ last)) :=
    opening.append ((shows_debated debated).append verdict)
  intro earlier agent message context later split
  obtain ⟨seen, since, before, silent, shown⟩ :=
    shows_ earlier agent message context later (acts ▸ split)
  obtain ⟨kept, memory, retained⟩ := longest_replay limited longest seen
  exact ⟨seen, since, kept, before, silent, retained, memory ▸ shown⟩

/-- The message that an act of the run stores. -/
def Act.message : Act → Option Object
  | .record role content agent => some (MessageStore.message role content agent [])
  | .others _ | .ask _ _ _ => none

theorem logged_own {acts : List Act} (mine : ∀ act ∈ acts, act.isOwn = true) (log : List Object) :
    (acts.filterMap Act.operation).foldl MessageStore.logged log =
      log ++ acts.filterMap Act.message := by
  induction acts generalizing log with
  | nil => exact (List.append_nil log).symm
  | cons act rest ih =>
      obtain ⟨own, rest_own⟩ := List.forall_mem_cons.mp mine
      cases act with
      | others operation => cases own
      | record role content agent =>
          simp only [List.filterMap_cons, Act.operation, Act.message, List.foldl_cons,
            ih rest_own, MessageStore.logged, List.append_assoc, List.singleton_append]
      | ask agent message context =>
          simp only [List.filterMap_cons, Act.operation, Act.message, ih rest_own]

theorem isOwn_of_alone {before acts more : List Act} (alone : ∀ k, env.others k = [])
    (added : Extends env before acts more) : ∀ act ∈ more, act.isOwn = true := by
  intro act member
  cases act with
  | others operation =>
      obtain ⟨k, inside⟩ := added.foreign operation member
      rw [alone k] at inside
      cases inside
  | record role content agent => rfl
  | ask agent message context => rfl

/-- What is asked changes no memory. -/
theorem replay_debateRound {before : List Act} {memory : MessageStore}
    {responses : Dict String Json} (later : List Act) :
    replay repr shared (before ++ debateRound repr prompt policy names memory responses ++ later) =
      replay repr shared (before ++ (spokenAll responses ++ later)) := by
  have silent : (responses.keys.map fun agent => Act.ask agent prompt
      (debateContexts repr prompt policy names memory agent)).filterMap Act.operation =
        [] := by
    rw [List.filterMap_eq_nil_iff]
    intro act member
    obtain ⟨agent, -, rfl⟩ := List.mem_map.mp member
    rfl
  simp only [replay, debateRound, List.filterMap_append, silent, List.nil_append,
    List.append_assoc]

/-- Without others the rounds are shown the memory behind what was recorded before them. -/
theorem acts_debated {before more : List Act} {rounds : List (Dict String Json)}
    (mine : ∀ act ∈ more, act.isOwn = true)
    (debated : Debated repr shared prompt policy names before rounds more) :
    more = (threaded rounds).flatMap fun entry => debateRound repr prompt policy names
      (replay repr shared (before ++ entry.1.flatMap spokenAll)) entry.2 := by
  induction rounds generalizing before more with
  | nil => exact debated
  | cons responses rest ih =>
      obtain ⟨idle, round, later, rfl, quiet, acts, debated⟩ := debated
      obtain ⟨mine_idle, mine_rest⟩ := List.forall_mem_append.mp mine
      obtain ⟨mine_round, mine_later⟩ := List.forall_mem_append.mp mine_rest
      obtain rfl : idle = [] := by
        rw [← quiet, own, List.filter_eq_self.mpr mine_idle]
      rw [own, List.filter_eq_self.mpr mine_round, List.append_nil] at acts
      rw [List.append_nil] at debated
      rw [List.nil_append, flatMap_threaded_cons, ih mine_later debated, acts]
      congr 1
      · rw [List.flatMap_nil, List.append_nil]
      · congr 1
        funext entry
        rw [List.flatMap_cons, replay_debateRound]

/-- The messages of a debate: the prompt, and the responses of its rounds that are no errors. -/
def statements (prompt : Json) (rounds : List (Dict String Json)) : List Object :=
  MessageStore.message "user" prompt none [] :: rounds.flatMap fun responses =>
    (responses.entries.filter fun entry => !isError entry.2).map fun entry =>
      MessageStore.message "assistant" entry.2 (some entry.1) []

theorem statements_eq {rounds : List (Dict String Json)} :
    (.record "user" prompt none :: rounds.flatMap spokenAll).filterMap Act.message =
      statements prompt rounds := by
  rw [List.filterMap_cons, statements]
  refine congrArg (MessageStore.message "user" prompt none [] :: ·) ?_
  rw [List.filterMap_flatMap]
  congr 1
  funext responses
  rw [spokenAll, List.filterMap_flatMap]
  induction responses.entries with
  | nil => rfl
  | cons entry rest ih =>
      rw [List.flatMap_cons, ih, spoken]
      by_cases error : isError entry.2 = true
      · rw [if_pos error, List.filter_cons_of_neg (by simp [error])]
        rfl
      · rw [if_neg error, List.filter_cons_of_pos (by simpa using error)]
        rfl

theorem isOwn_said (rounds : List (Dict String Json)) :
    ∀ act ∈ .record "user" prompt none :: rounds.flatMap spokenAll, act.isOwn = true := by
  refine List.forall_mem_cons.mpr ⟨rfl, fun act member => ?_⟩
  obtain ⟨responses, -, inside⟩ := List.mem_flatMap.mp member
  have record := isRecord_of_spokenAll inside
  cases act with
  | others operation => cases record
  | record role content agent => rfl
  | ask agent message context => rfl

/-- Where nobody else uses the memory, a debate does nothing but this: it records the prompt, asks
all its agents in each round with what the memory keeps of the messages before the debate, the
prompt and the statements of the earlier rounds, and records their statements; then it asks the
judge. An unbounded memory keeps everything. -/
theorem debate_transcript (env : Environment) (alone : ∀ k, env.others k = []) (prompt : Json)
    (rounds : Except Raised Int) (judge : Option String) (timeout : Option ℚ) {log : List Object}
    (limited : ∀ limit ∈ shared.capacity, 1 ≤ limit)
    (longest : Longest (MessageStore.Fits repr shared.capacity shared.maxChars) log shared.messages)
    {result : Result} {w : World repr shared}
    (returned : runDebate env prompt rounds judge timeout (.start repr shared) = .ok result w) :
    ∃ k maxChars names responses final first last, ∃ kept : List (Dict String Json) → List Object,
      DebateEnds env repr prompt rounds maxChars names (judgeName judge names) responses final
        result first last ∧
      w.acts = first ++ (((threaded responses).flatMap fun entry =>
        debateRound repr prompt (env.policy k) names { shared with messages := kept entry.1 }
          entry.2) ++ last) ∧
      (∀ earlier, Longest (MessageStore.Fits repr shared.capacity shared.maxChars)
        (log ++ statements prompt earlier) (kept earlier)) ∧
      (shared.capacity = none → shared.maxChars = none →
        ∀ earlier, kept earlier = log ++ statements prompt earlier) := by
  obtain ⟨more, added, maxChars, names, responses, final, first, round, last, ends, rfl, k,
    debated⟩ := (adds_runDebate []).of_ok rfl returned
  have mine := isOwn_of_alone alone added
  obtain ⟨mine_first, mine_rest⟩ := List.forall_mem_append.mp mine
  obtain ⟨mine_round, -⟩ := List.forall_mem_append.mp mine_rest
  have opening : first = [.record "user" prompt none] := by
    rw [← ends.opening, own, List.filter_eq_self.mpr mine_first]
  let said (earlier : List (Dict String Json)) : List Act :=
    .record "user" prompt none :: earlier.flatMap spokenAll
  have retained : ∀ earlier, ∃ kept, replay repr shared (said earlier) =
        { shared with messages := kept } ∧
      Longest (MessageStore.Fits repr shared.capacity shared.maxChars)
        (log ++ statements prompt earlier) kept := by
    intro earlier
    have kept := longest_replay limited longest (said earlier)
    rwa [logged_own (isOwn_said earlier), statements_eq] at kept
  choose kept memory longest using retained
  refine ⟨k, maxChars, names, responses, final, first, last, kept, ends, ?_, longest, ?_⟩
  · have acts := acts_debated mine_round debated
    rw [opening] at acts
    have shown : (fun entry : List (Dict String Json) × Dict String Json =>
        debateRound repr prompt (env.policy k) names
          (replay repr shared ([] ++ [.record "user" prompt none] ++ entry.1.flatMap spokenAll))
          entry.2) = fun entry => debateRound repr prompt (env.policy k) names
            { shared with messages := kept entry.1 } entry.2 := by
      funext entry
      rw [← memory entry.1]
      rfl
    rw [added.eq, acts, shown]
    rfl
  · intro capacity maxChars earlier
    refine (longest earlier).eq_all ⟨?_, ?_⟩
    · rw [capacity]
      simp
    · rw [maxChars]
      simp

theorem runDebate_duo : ∃ (result : Result) (w : World (fun _ => "") (.new none none)),
    runDebate duo (.str "go") (.ok 2) none none (.start _ _) = .ok result w := by
  have two : (max 1 (2 : Int)).toNat = 2 := rfl
  simp only [runDebate, two, debateRounds, parallel, ended_duo]
  exact ⟨_, _, rfl⟩

theorem debate_shows_duo : ∃ (result : Result) (w : World (fun _ => "") (.new none none)),
    runDebate duo (.str "go") (.ok 2) none none (.start _ _) = .ok result w ∧
      ∃ names, ∀ earlier agent message context later,
        w.acts = earlier ++ .ask agent message (some context) :: later →
        ∃ seen since kept, earlier = seen ++ since ∧ (∀ act ∈ since, act.isRecord = false) ∧
          Longest (MessageStore.Fits (fun _ => "") none none)
            ((seen.filterMap Act.operation).foldl MessageStore.logged []) kept ∧
          some context = debateContexts (fun _ => "") (.str "go") none names
            ⟨none, none, kept⟩ agent := by
  obtain ⟨result, w, returned⟩ := runDebate_duo
  have empty : Longest (MessageStore.Fits (fun _ => "") none none) [] [] :=
    .self ⟨by simp, by simp⟩
  obtain ⟨k, maxChars, names, -, -, -, -, -, -, -, -, shown⟩ :=
    debate_shows duo (.str "go") (.ok 2) none none (by simp [MessageStore.new]) empty returned
  exact ⟨result, w, returned, names, shown⟩

theorem debate_transcript_duo : ∃ (result : Result) (w : World (fun _ => "") (.new none none)),
    runDebate duo (.str "go") (.ok 2) none none (.start _ _) = .ok result w ∧
      ∃ names responses first last, w.acts = first ++ (((threaded responses).flatMap fun entry =>
        debateRound (fun _ => "") (.str "go") none names
          ⟨none, none, statements (.str "go") entry.1⟩ entry.2) ++ last) := by
  obtain ⟨result, w, returned⟩ := runDebate_duo
  have empty : Longest (MessageStore.Fits (fun _ => "") none none) [] [] :=
    .self ⟨by simp, by simp⟩
  obtain ⟨k, maxChars, names, responses, final, first, last, kept, ends, acts, -, whole⟩ :=
    debate_transcript duo (fun _ => rfl) (.str "go") (.ok 2) none none (by simp [MessageStore.new])
      empty returned
  have all : ∀ earlier, kept earlier = statements (.str "go") earlier := whole rfl rfl
  simp only [all] at acts
  exact ⟨result, w, returned, names, responses, first, last, acts⟩

end Debate

end Strategies

end MultiAgent.Plugin
