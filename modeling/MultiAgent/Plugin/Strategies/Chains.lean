import MultiAgent.Plugin.Strategies.Acts

/-!
# Strategies that hand a text on

`run_sequential`, `run_relay` and `run_broadcast`. What a run has asked and recorded is read
off the records of its result: each message is a function of the responses before it
(`sequential_threads`, `relay_threads`, `broadcast_feeds`).
-/

namespace MultiAgent.Plugin

namespace Strategies

section Threads

/-- Each item of a list with what comes before it. -/
def threaded {α : Type} (items : List α) : List (List α × α) := items.inits.zip items

@[simp] theorem threaded_nil {α : Type} : threaded ([] : List α) = [] := rfl

theorem threaded_cons {α : Type} (item : α) (rest : List α) : threaded (item :: rest) =
    ([], item) :: (threaded rest).map fun entry => (item :: entry.1, entry.2) := by
  rw [threaded, List.inits_cons, List.zip_cons_cons, List.zip_map_left]
  rfl

theorem flatMap_threaded_cons {α β : Type} {f : List α × α → List β} {item : α} {rest : List α} :
    (threaded (item :: rest)).flatMap f =
      f ([], item) ++ (threaded rest).flatMap fun entry => f (item :: entry.1, entry.2) := by
  rw [threaded_cons, List.flatMap_cons, List.flatMap_map]

theorem threaded_append {α : Type} (a b : List α) : threaded (a ++ b) =
    threaded a ++ (threaded b).map fun entry => (a ++ entry.1, entry.2) := by
  induction a with
  | nil => simp
  | cons item rest ih =>
      rw [List.cons_append, threaded_cons, threaded_cons, ih, List.map_append, List.map_map]
      rfl

theorem length_truncate_le {text : String} {limit : Int}
    (short : (text.length : Int) ≤ max 0 limit) : truncate text (some limit) = text :=
  if_pos short

theorem toList_truncate {text : String} {limit : Int} (long : ¬ (text.length : Int) ≤ max 0 limit) :
    (truncate text (some limit)).toList =
      text.toList.take (max 0 limit).toNat ++ ellipsis.toList := by
  rw [truncate, if_neg long, String.toList_append, String.toList_ofList]

/-- A text that is cut off before something is added is cut off at the same place. -/
theorem truncate_append (a b : String) (maxChars : Option Int) :
    truncate (truncate a maxChars ++ b) maxChars = truncate (a ++ b) maxChars := by
  cases maxChars with
  | none => rfl
  | some limit =>
      by_cases short : (a.length : Int) ≤ max 0 limit
      · rw [length_truncate_le short]
      · have chars : (max 0 limit).toNat ≤ a.toList.length := by
          rw [String.length_toList]
          omega
        have cut : ¬ ((truncate a (some limit) ++ b).length : Int) ≤ max 0 limit := by
          have one : ellipsis.toList.length = 1 := rfl
          rw [← String.length_toList, String.toList_append, toList_truncate short,
            List.length_append, List.length_append, List.length_take_of_le chars, one]
          omega
        have longer : ¬ ((a ++ b).length : Int) ≤ max 0 limit := by
          rw [String.length_append]
          omega
        have front : (a.toList.take (max 0 limit).toNat).length = (max 0 limit).toNat :=
          List.length_take_of_le chars
        rw [← String.toList_inj, toList_truncate cut, toList_truncate longer,
          String.toList_append, String.toList_append, toList_truncate short, List.append_assoc,
          List.take_append_of_le_length front.ge, List.take_take, min_self,
          List.take_append_of_le_length chars]

end Threads

section Sequential

variable {repr : Json → String} {shared : MessageStore} {env : Environment} {prompt : Json}
  {maxChars : Option Int} {timeout : Option ℚ}

/-- The transcript behind some steps. -/
def transcript (repr : Json → String) (maxChars : Option Int) (before : String)
    (steps : List Step) : String :=
  steps.foldl (fun text step => truncate (text ++ line repr step) maxChars) before

theorem transcript_concat {before : String} {steps : List Step} {step : Step} :
    transcript repr maxChars before (steps ++ [step]) =
      truncate (transcript repr maxChars before steps ++ line repr step) maxChars := by
  rw [transcript, List.foldl_append]
  rfl

/-- The whole conversation is cut off once. -/
theorem transcript_eq {before : String} {steps : List Step} (some_step : steps ≠ []) :
    transcript repr maxChars before steps =
      truncate (transcript repr none before steps) maxChars := by
  induction steps using List.reverseRecOn with
  | nil => exact absurd rfl some_step
  | append_singleton steps step ih =>
      rw [transcript_concat, transcript_concat]
      by_cases first : steps = []
      · rw [first]
        rfl
      · rw [ih first, truncate_append]
        rfl

/-- A step asks the agent with the transcript, and records a response that is no error. -/
def sequentialActs (repr : Json → String) (maxChars : Option Int) (before : String)
    (steps : List Step) : List Act :=
  (threaded steps).flatMap fun entry =>
    .ask entry.2.agent (.str (transcript repr maxChars before entry.1)) none ::
      spoken entry.2.response entry.2.response entry.2.agent

theorem does_sequentialSteps {names : List String} {i : Nat} {before : String} :
    Does env (sequentialSteps env maxChars timeout i before names : Run repr shared (List Step))
      fun steps acts => steps.map Step.agent = names ∧
        acts = sequentialActs repr maxChars before steps := by
  induction names generalizing i before with
  | nil => exact .pure ⟨rfl, rfl⟩
  | cons name rest ih =>
      refine does_callAgent.acting fun response => does_recordSound.acting fun _ => ?_
      refine ih.returning fun steps acts done => ⟨congrArg (name :: ·) done.1, ?_⟩
      rw [done.2, sequentialActs, sequentialActs, flatMap_threaded_cons]
      rfl

/-- The names that take turns: those in the order that is given, else the registered ones. -/
def Turns (env : Environment) (order names : List String) : Prop :=
  if order = [] then ∃ k, names = env.agents k else names = order

theorem does_turns {order : List String} :
    Does env (turns env order : Run repr shared (List String))
      fun names acts => acts = [] ∧ Turns env order names := by
  refine .ite (fun none => does_agents.imp fun names acts done => ?_) fun given => .pure ?_
  · rw [Turns, if_pos none]
    exact done
  · rw [Turns, if_neg given]
    exact ⟨rfl, rfl⟩

/-- Every agent is asked once, in turn, with the prompt and everything that was said before it,
errors included, cut off once. -/
def Sequential (env : Environment) (repr : Json → String) (prompt : Json) (order : List String)
    (result : Result) (acts : List Act) : Prop :=
  ∃ maxChars steps, Bound env maxChars ∧ Turns env order (steps.map Step.agent) ∧
    (∀ step ∈ steps, Known env step.agent) ∧
    result.rounds = steps.map .step ∧
    result.final = .str (((steps.getLast?.map Step.response).getD prompt).toStr repr) ∧
    acts = .record "user" prompt none :: (threaded steps).flatMap fun entry =>
      .ask entry.2.agent (.str (if entry.1 = [] then prompt.toStr repr else
          truncate (entry.1.foldl (fun text step => text ++ line repr step) (prompt.toStr repr))
            maxChars)) none ::
        spoken entry.2.response entry.2.response entry.2.agent

theorem sequentialActs_eq {before : String} {steps : List Step} :
    sequentialActs repr maxChars before steps = (threaded steps).flatMap fun entry =>
      .ask entry.2.agent (.str (if entry.1 = [] then before else
          truncate (entry.1.foldl (fun text step => text ++ line repr step) before) maxChars))
            none ::
        spoken entry.2.response entry.2.response entry.2.agent := by
  rw [sequentialActs]
  congr 1
  funext entry
  split_ifs with first
  · rw [first]
    rfl
  · rw [transcript_eq first]
    rfl

theorem does_runSequential {order : List String} :
    Does env (runSequential env prompt order timeout : Run repr shared Result)
      (Sequential env repr prompt order) := by
  refine does_turns.quiet fun names turns => does_missing.quiet fun unknown known => ?_
  refine .ite (fun _ => .throw) fun none => does_maxChars.quiet fun maxChars bound => ?_
  refine does_record.acting fun _ => does_sequentialSteps.returning fun steps acts done => ?_
  obtain ⟨rfl, rfl⟩ := done
  refine ⟨maxChars, steps, bound, turns, fun step member => ?_, rfl, rfl, ?_⟩
  · exact known (not_not.mp none) _ (List.mem_map_of_mem member)
  · rw [sequentialActs_eq]
    rfl

/-- Whatever others do meanwhile, a chain asks its agents as described, and records the prompt
and each response that is no error, behind its question. -/
theorem sequential_threads (env : Environment) (prompt : Json) (order : List String)
    (timeout : Option ℚ) {result : Result} {w : World repr shared}
    (returned : runSequential env prompt order timeout (.start repr shared) = .ok result w) :
    Sequential env repr prompt order result (own w.acts) :=
  does_runSequential.of_run returned

end Sequential

section Relay

variable {repr : Json → String} {shared : MessageStore} {env : Environment} {prompt : Json}
  {maxChars : Option Int} {timeout : Option ℚ} {names : List String}

/-- The draft behind some steps: the last response that is no error, else the draft before. -/
def draftAfter (repr : Json → String) (before : String) (steps : List Step) : String :=
  steps.foldl (fun draft step =>
    if isError step.response then draft else step.response.toStr repr) before

/-- A step asks for a better draft, and records a response that is no error as the next one. -/
def relayActs (repr : Json → String) (prompt : Json) (maxChars : Option Int) (before : String)
    (steps : List Step) : List Act :=
  (threaded steps).flatMap fun entry =>
    .ask entry.2.agent
        (.str (relayMessage repr prompt (draftAfter repr before entry.1) maxChars)) none ::
      spoken entry.2.response (.str (entry.2.response.toStr repr)) entry.2.agent

theorem draftAfter_append {before : String} {a b : List Step} :
    draftAfter repr before (a ++ b) = draftAfter repr (draftAfter repr before a) b :=
  List.foldl_append

theorem relayActs_append {before : String} {a b : List Step} :
    relayActs repr prompt maxChars before (a ++ b) = relayActs repr prompt maxChars before a ++
      relayActs repr prompt maxChars (draftAfter repr before a) b := by
  rw [relayActs, threaded_append, List.flatMap_append, List.flatMap_map]
  simp only [draftAfter_append]
  rfl

theorem does_relayRound {i : Nat} {before : String} :
    Does env (relayRound env prompt maxChars timeout i before names :
        Run repr shared (List Step × String))
      fun result acts => result.1.map Step.agent = names ∧
        result.2 = draftAfter repr before result.1 ∧
        acts = relayActs repr prompt maxChars before result.1 := by
  induction names generalizing i before with
  | nil => exact .pure ⟨rfl, rfl, rfl⟩
  | cons name rest ih =>
      refine does_callAgent.acting fun response => does_recordSound.acting fun _ => ?_
      refine ih.returning ?_
      rintro ⟨steps, last⟩ acts ⟨agents, draft, done⟩
      refine ⟨congrArg (name :: ·) agents, draft, ?_⟩
      rw [done, relayActs, relayActs, flatMap_threaded_cons, spoken, spoken]
      split_ifs with error
      · simp only [draftAfter, List.foldl_cons, if_pos error]
        rfl
      · simp only [draftAfter, List.foldl_cons, if_neg error]
        rfl

/-- The round leaves the draft as it is. -/
def Unchanged (repr : Json → String) (before : String) (rounds : List (List Step))
    (steps : List Step) : Prop :=
  draftAfter repr before (rounds.flatten ++ steps) = draftAfter repr before rounds.flatten

instance (before : String) (rounds : List (List Step)) (steps : List Step) :
    Decidable (Unchanged repr before rounds steps) :=
  inferInstanceAs (Decidable (_ = _))

/-- In every round each name has its turn. The rounds end at the first one that leaves the draft
as it is, or at the bound on their number. -/
structure RelayRounds (repr : Json → String) (names : List String) (bound : Nat) (before : String)
    (rounds : List (List Step)) : Prop where
  turns : ∀ steps ∈ rounds, steps.map Step.agent = names
  bounded : rounds.length ≤ bound
  going : ∀ earlier steps later, rounds = earlier ++ steps :: later → later ≠ [] →
    ¬ Unchanged repr before earlier steps
  ended : rounds.length < bound → ∃ earlier steps, rounds = earlier ++ [steps] ∧
    Unchanged repr before earlier steps

theorem Unchanged.cons_iff {before : String} {first steps : List Step}
    {rounds : List (List Step)} : Unchanged repr before (first :: rounds) steps ↔
      Unchanged repr (draftAfter repr before first) rounds steps := by
  rw [Unchanged, Unchanged, List.flatten_cons, List.append_assoc,
    draftAfter_append (a := first), draftAfter_append (a := first)]

theorem RelayRounds.last {bound : Nat} {before : String} {steps : List Step}
    (turn : steps.map Step.agent = names) (same : Unchanged repr before [] steps) :
    RelayRounds repr names (bound + 1) before [steps] where
  turns := by simpa using turn
  bounded := by simp
  going := by
    intro earlier other later split more
    have short := congrArg List.length split
    rw [List.length_singleton, List.length_append, List.length_cons] at short
    have none : later = [] := List.eq_nil_of_length_eq_zero (by omega)
    exact absurd none more
  ended := fun _ => ⟨[], steps, rfl, same⟩

theorem RelayRounds.cons {bound : Nat} {before : String} {steps : List Step}
    {rounds : List (List Step)} (turn : steps.map Step.agent = names)
    (changed : ¬ Unchanged repr before [] steps)
    (others : RelayRounds repr names bound (draftAfter repr before steps) rounds) :
    RelayRounds repr names (bound + 1) before (steps :: rounds) where
  turns := List.forall_mem_cons.mpr ⟨turn, others.turns⟩
  bounded := by
    have bounded := others.bounded
    rw [List.length_cons]
    omega
  going := by
    intro earlier other later split more
    cases earlier with
    | nil =>
        obtain ⟨rfl, -⟩ := List.cons.inj split
        exact changed
    | cons first earlier =>
        obtain ⟨rfl, rest⟩ := List.cons.inj split
        rw [Unchanged.cons_iff]
        exact others.going earlier other later rest more
  ended := by
    intro below
    rw [List.length_cons] at below
    obtain ⟨earlier, last, rfl, same⟩ := others.ended (by omega)
    exact ⟨steps :: earlier, last, rfl, Unchanged.cons_iff.mpr same⟩

/-- The records of the rounds, the first of which has the number `r`. -/
def relayRecords (repr : Json → String) (r : Nat) (before : String) (rounds : List (List Step)) :
    List Record :=
  (threaded rounds).map fun entry =>
    .relay (r + entry.1.length) entry.2 (decide (Unchanged repr before entry.1 entry.2))

theorem relayRecords_cons {r : Nat} {before : String} {steps : List Step}
    {rounds : List (List Step)} : relayRecords repr r before (steps :: rounds) =
      .relay r steps (decide (Unchanged repr before [] steps)) ::
        relayRecords repr (r + 1) (draftAfter repr before steps) rounds := by
  rw [relayRecords, threaded_cons, List.map_cons, List.map_map, relayRecords]
  congr 1
  apply List.map_congr_left
  intro entry _
  simp only [Function.comp_apply, List.length_cons, Unchanged.cons_iff]
  congr 1
  omega

theorem does_relayRounds {bound r : Nat} {before : String} :
    Does env (relayRounds env prompt maxChars timeout names bound r before :
        Run repr shared (List Record × String))
      fun result acts => ∃ rounds, RelayRounds repr names bound before rounds ∧
        result.1 = relayRecords repr r before rounds ∧
        result.2 = draftAfter repr before rounds.flatten ∧
        acts = relayActs repr prompt maxChars before rounds.flatten := by
  induction bound generalizing r before with
  | zero =>
      refine .pure ⟨[], ⟨by simp, Nat.le_refl 0, by simp, by simp⟩, rfl, rfl, rfl⟩
  | succ bound ih =>
      refine does_relayRound.bind ?_
      rintro ⟨steps, last⟩ _ ⟨turn, draft, rfl⟩
      obtain rfl : last = draftAfter repr before steps := draft
      refine .ite (fun same => .pure ?_) fun changed => ih.returning ?_
      · refine ⟨[steps], .last turn same, ?_, ?_, ?_⟩
        · rw [relayRecords_cons, decide_eq_true (show Unchanged repr before [] steps from same)]
          rfl
        · rw [List.flatten_singleton]
        · rw [List.append_nil, List.flatten_singleton]
      · rintro ⟨records, final⟩ acts ⟨rounds, others, shown, draft, done⟩
        refine ⟨steps :: rounds, others.cons turn changed, ?_, ?_, ?_⟩
        · rw [relayRecords_cons,
            decide_eq_false (show ¬ Unchanged repr before [] steps from changed), ← shown]
        · rw [List.flatten_cons, draftAfter_append]
          exact draft
        · rw [List.flatten_cons, relayActs_append, done]

/-- Each step gets the prompt and the latest response that was no error, across the rounds, and
its own response becomes the draft unless it is an error. All agents have their turn in every
round, and the rounds end with the first one that leaves the draft as it is. -/
def Relay (env : Environment) (repr : Json → String) (prompt : Json) (rounds : Except Raised Int)
    (order : List String) (result : Result) (acts : List Act) : Prop :=
  ∃ maxChars names limit turns, Bound env maxChars ∧ Turns env order names ∧ 2 ≤ names.length ∧
    (∀ name ∈ names, Known env name) ∧ rounds = .ok limit ∧
    RelayRounds repr names (max 1 limit).toNat (prompt.toStr repr) turns ∧
    result.rounds = relayRecords repr 1 (prompt.toStr repr) turns ∧
    result.final = .str (draftAfter repr (prompt.toStr repr) turns.flatten) ∧
    acts = .record "user" prompt none ::
      relayActs repr prompt maxChars (prompt.toStr repr) turns.flatten

theorem does_runRelay {rounds : Except Raised Int} {order : List String} :
    Does env (runRelay env prompt rounds order timeout : Run repr shared Result)
      (Relay env repr prompt rounds order) := by
  refine does_turns.quiet fun names turns => .ite (fun _ => .throw) fun enough => ?_
  refine does_missing.quiet fun unknown known => .ite (fun _ => .throw) fun none => ?_
  refine does_maxChars.quiet fun maxChars bound => does_record.acting fun _ => ?_
  cases rounds with
  | error raised => exact .throw
  | ok limit =>
      refine does_relayRounds.returning ?_
      rintro ⟨records, draft⟩ acts ⟨rounds, relay, shown, last, done⟩
      refine ⟨maxChars, names, limit, rounds, bound, turns, not_lt.mp enough,
        known (not_not.mp none), rfl, relay, shown, congrArg Json.str last, ?_⟩
      rw [done]
      rfl

/-- Whatever others do meanwhile, a relay threads its draft as described. -/
theorem relay_threads (env : Environment) (prompt : Json) (rounds : Except Raised Int)
    (order : List String) (timeout : Option ℚ) {result : Result} {w : World repr shared}
    (returned : runRelay env prompt rounds order timeout (.start repr shared) = .ok result w) :
    Relay env repr prompt rounds order result (own w.acts) :=
  does_runRelay.of_run returned

end Relay

section Broadcast

variable {repr : Json → String} {shared : MessageStore} {env : Environment} {prompt : Json}
  {maxChars : Option Int} {timeout : Option ℚ}

/-- What the rounds of a broadcast are asked: the prompt, then what is joined of the responses of
the round before, with a bound behind the prompt and cut off. -/
def fedAfter (repr : Json → String) (prompt : Json) (maxChars : Option Int) (before : Json)
    (rounds : List (Dict String Json)) : Json :=
  rounds.foldl (fun last responses =>
    match maxChars with
    | none => join repr responses last
    | some limit => .str (truncate
        (prompt.toStr repr ++ "\n\n" ++ (join repr responses last).toStr repr) (some limit)))
    before

/-- A round asks all its agents the same, and records their responses that are no errors. -/
def broadcastActs (repr : Json → String) (prompt : Json) (maxChars : Option Int) (before : Json)
    (rounds : List (Dict String Json)) : List Act :=
  (threaded rounds).flatMap fun entry =>
    (entry.2.keys.map fun agent =>
        .ask agent (fedAfter repr prompt maxChars before entry.1) none) ++ spokenAll entry.2

/-- The final answer: what is joined of the last responses, which is never cut off. -/
def broadcastFinal (repr : Json → String) (prompt : Json) (maxChars : Option Int) (before : Json)
    (rounds : List (Dict String Json)) : Json :=
  match rounds.getLast? with
  | none => before
  | some responses => join repr responses (fedAfter repr prompt maxChars before rounds.dropLast)

/-- The records of the rounds, the first of which has the number `r`. -/
def roundRecords (kind : String) (r : Nat) (rounds : List (Dict String Json)) : List Record :=
  rounds.mapIdx fun i responses => .round (r + i) kind responses

theorem roundRecords_cons {kind : String} {r : Nat} {responses : Dict String Json}
    {rounds : List (Dict String Json)} : roundRecords kind r (responses :: rounds) =
      .round r kind responses :: roundRecords kind (r + 1) rounds := by
  rw [roundRecords, List.mapIdx_cons, roundRecords]
  congr 2
  funext i other
  congr 1
  omega

theorem broadcastFinal_cons {before : Json} {responses next : Dict String Json}
    {rounds : List (Dict String Json)} :
    broadcastFinal repr prompt maxChars before (responses :: next :: rounds) =
      broadcastFinal repr prompt maxChars (fedAfter repr prompt maxChars before [responses])
        (next :: rounds) := rfl

theorem fed_eq {before : Json} {responses : Dict String Json} {left : Nat} (more : left ≠ 0) :
    (if maxChars.isSome = true ∧ left ≠ 0 then
        Json.str (truncate (prompt.toStr repr ++ "\n\n" ++
          (join repr responses before).toStr repr) maxChars)
      else join repr responses before) = fedAfter repr prompt maxChars before [responses] := by
  cases maxChars with
  | none => rfl
  | some limit => exact if_pos ⟨rfl, more⟩

/-- How many statements a round takes: one asks, and each response that is recorded has one. -/
def roundLength (responses : Dict String Json) : Nat := 1 + (spokenAll responses).length

/-- The agents of each round are those that are registered at its first statement, when the first
round starts at the statement `k`. -/
def Registered (env : Environment) (k : Nat) (rounds : List (Dict String Json)) : Prop :=
  ∀ entry ∈ threaded rounds, entry.2.keys = env.agents (k + (entry.1.map roundLength).sum)

theorem registered_cons_iff {k : Nat} {responses : Dict String Json}
    {rounds : List (Dict String Json)} : Registered env k (responses :: rounds) ↔
      responses.keys = env.agents k ∧ Registered env (k + roundLength responses) rounds := by
  rw [Registered, threaded_cons, List.forall_mem_cons, List.forall_mem_map]
  refine and_congr Iff.rfl (forall_congr' fun entry => imp_congr_right fun _ => ?_)
  rw [List.map_cons, List.sum_cons, ← Nat.add_assoc]

theorem takes_broadcastRounds {left r k : Nat} {before : Json} :
    Takes k (broadcastRounds env prompt maxChars timeout left r before :
        Run repr shared (List Record × Json))
      fun result _ => ∀ rounds, result.1 = roundRecords "broadcast" r rounds →
        Registered env k rounds := by
  induction left generalizing r k before with
  | zero =>
      refine .pure fun rounds shown => ?_
      cases rounds with
      | nil => simp [Registered]
      | cons responses rounds =>
          rw [roundRecords_cons] at shown
          cases shown
  | succ left ih =>
      refine takes_parallel.bind ?_
      rintro responses _ ⟨registered, rfl⟩
      refine takes_recordAll.onwards fun _ => ih.bind ?_
      rintro ⟨records, last⟩ _ later
      refine .pure fun rounds shown => ?_
      cases rounds with
      | nil => cases shown
      | cons other rounds =>
          rw [roundRecords_cons] at shown
          obtain ⟨same, rest⟩ := List.cons.inj shown
          cases same
          rw [registered_cons_iff, roundLength, ← Nat.add_assoc]
          exact ⟨registered, later rounds rest⟩

theorem does_broadcastRounds {left r : Nat} {before : Json} :
    Does env (broadcastRounds env prompt maxChars timeout left r before :
        Run repr shared (List Record × Json))
      fun result acts => ∃ rounds, rounds.length = left ∧
        result.1 = roundRecords "broadcast" r rounds ∧
        result.2 = broadcastFinal repr prompt maxChars before rounds ∧
        acts = broadcastActs repr prompt maxChars before rounds := by
  induction left generalizing r before with
  | zero => exact .pure ⟨[], rfl, rfl, rfl, rfl⟩
  | succ left ih =>
      refine does_parallel.bind ?_
      rintro responses _ ⟨rfl, -⟩
      refine does_recordAll.acting fun _ => ih.returning ?_
      rintro ⟨records, last⟩ acts ⟨rounds, length, shown, final, done⟩
      refine ⟨responses :: rounds, congrArg (· + 1) length, ?_, ?_, ?_⟩
      · rw [roundRecords_cons]
        exact congrArg _ shown
      -- What is fed back is cut off if another round follows.
      · cases rounds with
        | nil =>
            obtain rfl : 0 = left := length
            exact final.trans (if_neg (by simp))
        | cons next others =>
            have more : left ≠ 0 := by simp [← length]
            rw [broadcastFinal_cons, ← fed_eq more]
            exact final
      · rw [done, broadcastActs, broadcastActs, flatMap_threaded_cons, List.append_assoc]
        cases rounds with
        | nil => rfl
        | cons next others =>
            rw [fed_eq (by simp [← length])]
            rfl

/-- All the agents of a round are asked the same: the prompt first, then what the round before
has come to. The final answer is what the last round comes to; a round whose responses are all
errors comes to what it was asked. -/
def Feeds (env : Environment) (repr : Json → String) (prompt : Json) (rounds : Except Raised Int)
    (responses : List (Dict String Json)) (result : Result) (acts : List Act) : Prop :=
  ∃ maxChars limit, Bound env maxChars ∧ rounds = .ok limit ∧
    responses.length = (max 1 limit).toNat ∧
    result.rounds = roundRecords "broadcast" 1 responses ∧
    result.final = broadcastFinal repr prompt maxChars prompt responses ∧
    acts = .record "user" prompt none :: broadcastActs repr prompt maxChars prompt responses

/-- The rounds feed one another, and each asks all the agents that are registered at its start.
The policy is read and the prompt recorded before the first one. -/
def Broadcast (env : Environment) (repr : Json → String) (prompt : Json)
    (rounds : Except Raised Int) (result : Result) (acts : List Act) : Prop :=
  ∃ responses, Feeds env repr prompt rounds responses result acts ∧ Registered env 2 responses

theorem takes_runBroadcast {rounds : Except Raised Int} :
    Takes 0 (runBroadcast env prompt rounds timeout : Run repr shared Result)
      fun result _ => ∀ responses, result.rounds = roundRecords "broadcast" 1 responses →
        Registered env 2 responses := by
  refine takes_maxChars.onwards fun maxChars => ?_
  cases rounds with
  | error raised => exact .throw
  | ok limit =>
      refine takes_record.onwards fun _ => takes_broadcastRounds.bind ?_
      rintro ⟨records, last⟩ _ registered
      exact .pure registered

theorem does_runBroadcast {rounds : Except Raised Int} :
    Does env (runBroadcast env prompt rounds timeout : Run repr shared Result)
      fun result acts => ∃ responses, Feeds env repr prompt rounds responses result acts := by
  refine does_maxChars.quiet fun maxChars bound => ?_
  cases rounds with
  | error raised => exact .throw
  | ok limit =>
      refine does_record.acting fun _ => does_broadcastRounds.returning ?_
      rintro ⟨records, last⟩ acts ⟨responses, length, shown, final, done⟩
      refine ⟨responses, maxChars, limit, bound, rfl, length, shown, final, ?_⟩
      rw [done]
      rfl

/-- Whatever others do meanwhile, a broadcast feeds its rounds as described. -/
theorem broadcast_feeds (env : Environment) (prompt : Json) (rounds : Except Raised Int)
    (timeout : Option ℚ) {result : Result} {w : World repr shared}
    (returned : runBroadcast env prompt rounds timeout (.start repr shared) = .ok result w) :
    Broadcast env repr prompt rounds result (own w.acts) := by
  obtain ⟨responses, maxChars, limit, bound, given, length, shown, final⟩ :=
    does_runBroadcast.of_run returned
  have registered := takes_runBroadcast.of_run returned responses shown
  exact ⟨responses, ⟨maxChars, limit, bound, given, length, shown, final⟩, registered⟩

end Broadcast

section Duo

theorem sequential_threads_duo : ∃ (result : Result) (w : World (fun _ => "") (.new none none)),
    runSequential duo (.str "go") [] none (.start _ _) = .ok result w ∧
      Sequential duo (fun _ => "") (.str "go") [] result (own w.acts) := by
  obtain ⟨result, w, returned⟩ : ∃ (result : Result) (w : World (fun _ => "") (.new none none)),
      runSequential duo (.str "go") [] none (.start _ _) = .ok result w := ⟨_, _, rfl⟩
  exact ⟨result, w, returned, sequential_threads duo (.str "go") [] none returned⟩

/-- The second round leaves the draft as it is. -/
theorem relay_threads_duo : ∃ (result : Result) (w : World (fun _ => "") (.new none none)),
    runRelay duo (.str "go") (.ok 3) [] none (.start _ _) = .ok result w ∧
      result.final = .str "better" ∧ result.rounds.length = 2 ∧
      Relay duo (fun _ => "") (.str "go") (.ok 3) [] result (own w.acts) := by
  obtain ⟨result, w, returned, final, length⟩ :
      ∃ (result : Result) (w : World (fun _ => "") (.new none none)),
      runRelay duo (.str "go") (.ok 3) [] none (.start _ _) = .ok result w ∧
      result.final = .str "better" ∧ result.rounds.length = 2 := ⟨_, _, rfl, rfl, rfl⟩
  exact ⟨result, w, returned, final, length,
    relay_threads duo (.str "go") (.ok 3) [] none returned⟩

theorem broadcast_feeds_duo : ∃ (result : Result) (w : World (fun _ => "") (.new none none)),
    runBroadcast duo (.str "go") (.ok 2) none (.start _ _) = .ok result w ∧
      Broadcast duo (fun _ => "") (.str "go") (.ok 2) result (own w.acts) := by
  obtain ⟨result, w, returned⟩ : ∃ (result : Result) (w : World (fun _ => "") (.new none none)),
      runBroadcast duo (.str "go") (.ok 2) none (.start _ _) = .ok result w := by
    have two : (max 1 (2 : Int)).toNat = 2 := rfl
    simp only [runBroadcast, two, broadcastRounds, parallel, ended_duo]
    exact ⟨_, _, rfl⟩
  exact ⟨result, w, returned, broadcast_feeds duo (.str "go") (.ok 2) none returned⟩

end Duo

end Strategies

end MultiAgent.Plugin
