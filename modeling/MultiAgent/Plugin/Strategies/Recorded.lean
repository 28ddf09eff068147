import MultiAgent.Plugin.Strategies.Discussions

/-!
# What a run records

The messages that a run of any strategy records are the prompt and then, in their order, the
responses of its records that are no errors; a ballot is not recorded, and neither is the answer
of a winner, which is one of the proposals. A run that fails its checks has recorded nothing, and
nothing is asked before the prompt is recorded (`records_said`).
-/

namespace MultiAgent.Plugin

namespace Strategies

section Records

variable {repr : Json → String} {shared : MessageStore} {env : Environment} {prompt : Json}
  {timeout : Option ℚ}

/-- The message of a response, if it is no error. -/
def saidOf (response content : Json) (agent : String) : List Object :=
  if isError response then [] else [MessageStore.message "assistant" content (some agent) []]

/-- The message of the result of a task, if it is a success. -/
def saidResult (view : Task × TaskResult Json) : List Object :=
  if view.2.status = .success then
    [MessageStore.message "assistant" (view.2.output.getD .null) (agentOf view.1 view.2) []]
  else []

/-- The messages of a record. -/
def Record.said (repr : Json → String) : Record → List Object
  | .step turn => saidOf turn.response turn.response turn.agent
  | .round _ _ responses | .propose responses =>
    responses.entries.flatMap fun entry => saidOf entry.2 entry.2 entry.1
  | .relay _ steps _ =>
    steps.flatMap fun step => saidOf step.response (.str (step.response.toStr repr)) step.agent
  | .named _ agent response => saidOf response response agent
  | .vote _ | .winner _ _ _ => []
  | .verdict judge _ response => saidOf response response judge
  | .work _ _ _ tasks _ _ => tasks.flatMap saidResult

theorem messages_spoken {response content : Json} {agent : String} :
    (spoken response content agent).filterMap Act.message = saidOf response content agent := by
  rw [spoken, saidOf]
  split_ifs <;> rfl

theorem messages_spokenAll {responses : Dict String Json} :
    (spokenAll responses).filterMap Act.message =
      responses.entries.flatMap fun entry => saidOf entry.2 entry.2 entry.1 := by
  rw [spokenAll, List.filterMap_flatMap]
  simp only [messages_spoken]

theorem messages_ask {agent : String} {message : Json} {context : Option (List ChatMessage)}
    {acts : List Act} : (Act.ask agent message context :: acts).filterMap Act.message =
      acts.filterMap Act.message := rfl

theorem messages_asks {message : Json} (contexts : String → Option (List ChatMessage))
    {targets : List String} : (targets.map fun agent =>
      Act.ask agent message (contexts agent)).filterMap Act.message = [] := by
  rw [List.filterMap_eq_nil_iff]
  intro act member
  obtain ⟨agent, -, rfl⟩ := List.mem_map.mp member
  rfl

/-- What a list is asked and says, where what is asked depends on what came before. -/
theorem flatMap_threaded_snd {α β : Type} {f : α → List β} {items : List α} :
    ((threaded items).flatMap fun entry => f entry.2) = items.flatMap f := by
  induction items with
  | nil => rfl
  | cons item rest ih => rw [flatMap_threaded_cons, ih, List.flatMap_cons]

/-- The run has recorded the prompt and what its records say. -/
def Recorded (repr : Json → String) (prompt : Json) (result : Result) (acts : List Act) : Prop :=
  acts.filterMap Act.message =
    MessageStore.message "user" prompt none [] :: result.rounds.flatMap (Record.said repr)

theorem Sequential.recorded {order : List String} {result : Result} {acts : List Act}
    (done : Sequential env repr prompt order result acts) : Recorded repr prompt result acts := by
  obtain ⟨maxChars, steps, -, -, -, rounds, -, rfl⟩ := done
  rw [Recorded, rounds, List.flatMap_map, List.filterMap_cons, List.filterMap_flatMap]
  refine congrArg (MessageStore.message "user" prompt none [] :: ·) ?_
  simp only [List.filterMap_cons, Act.message, messages_spoken]
  exact flatMap_threaded_snd (f := fun step : Step =>
    saidOf step.response step.response step.agent)

theorem Relay.recorded {rounds : Except Raised Int} {order : List String} {result : Result}
    {acts : List Act} (done : Relay env repr prompt rounds order result acts) :
    Recorded repr prompt result acts := by
  obtain ⟨maxChars, names, limit, turns, -, -, -, -, -, -, rounds, -, rfl⟩ := done
  rw [Recorded, rounds, relayRecords, List.flatMap_map, List.filterMap_cons, relayActs,
    List.filterMap_flatMap]
  refine congrArg (MessageStore.message "user" prompt none [] :: ·) ?_
  simp only [List.filterMap_cons, Act.message, messages_spoken, Record.said]
  rw [flatMap_threaded_snd (f := fun step : Step =>
      saidOf step.response (.str (step.response.toStr repr)) step.agent),
    flatMap_threaded_snd (f := fun steps : List Step => steps.flatMap fun step =>
      saidOf step.response (.str (step.response.toStr repr)) step.agent), List.flatMap_def,
    List.map_flatten, List.flatten_flatten, List.map_map]
  rfl

theorem said_roundRecords {kind : String} {r : Nat} {rounds : List (Dict String Json)} :
    (roundRecords kind r rounds).flatMap (Record.said repr) =
      rounds.flatMap fun responses =>
        responses.entries.flatMap fun entry => saidOf entry.2 entry.2 entry.1 := by
  induction rounds generalizing r with
  | nil => rfl
  | cons responses rest ih =>
      rw [roundRecords_cons, List.flatMap_cons, List.flatMap_cons, ih, Record.said]

theorem Feeds.recorded {rounds : Except Raised Int} {responses : List (Dict String Json)}
    {result : Result} {acts : List Act}
    (done : Feeds env repr prompt rounds responses result acts) :
    Recorded repr prompt result acts := by
  obtain ⟨maxChars, limit, -, -, -, rounds, -, rfl⟩ := done
  rw [Recorded, rounds, said_roundRecords, List.filterMap_cons, broadcastActs,
    List.filterMap_flatMap]
  refine congrArg (MessageStore.message "user" prompt none [] :: ·) ?_
  simp only [List.filterMap_append, messages_spokenAll]
  simp only [messages_asks (fun _ => none), List.nil_append]
  exact flatMap_threaded_snd (f := fun responses : Dict String Json =>
    responses.entries.flatMap fun entry => saidOf entry.2 entry.2 entry.1)

theorem messages_debated {policy : Option ContextPolicy} {names : List String}
    {before more : List Act} {rounds : List (Dict String Json)}
    (debated : Debated repr shared prompt policy names before rounds more) :
    (own more).filterMap Act.message = rounds.flatMap fun responses =>
      responses.entries.flatMap fun entry => saidOf entry.2 entry.2 entry.1 := by
  induction rounds generalizing before more with
  | nil =>
      obtain rfl : more = [] := debated
      rfl
  | cons responses rest ih =>
      obtain ⟨idle, round, later, rfl, quiet, acts, debated⟩ := debated
      rw [own_append, own_append, quiet, acts, List.nil_append, List.filterMap_append, ih debated,
        debateRound, List.filterMap_append, messages_asks, messages_spokenAll, List.flatMap_cons,
        List.nil_append]

theorem does_runDebate {rounds : Except Raised Int} {judge : Option String} :
    Does env (runDebate env prompt rounds judge timeout : Run repr shared Result)
      (Recorded repr prompt) := by
  refine Adds.imp adds_runDebate ?_
  rintro before result more ⟨maxChars, names, responses, final, first, round, last, ends, rfl, k,
    debated⟩
  rw [Recorded, own_append, own_append, ends.opening, ends.verdict, ends.records,
    List.filterMap_append, List.filterMap_append, messages_debated debated, List.flatMap_append,
    said_roundRecords]
  simp [Act.message, Record.said, messages_ask, messages_spoken]

/-- Everyone proposes, then everyone votes on the proposals that are no errors; without a winner
the judge is asked. -/
theorem does_runConsensus {lower : String → String} {judge : Option String} :
    Does env (runConsensus env lower prompt judge timeout : Run repr shared Result)
      (Recorded repr prompt) := by
  refine does_agents.quiet fun names _ => .ite (fun _ => .throw) fun enough => ?_
  refine does_maxChars.quiet fun maxChars bound => does_record.acting fun _ => ?_
  refine does_parallel.bind ?_
  rintro proposals _ ⟨rfl, -⟩
  refine does_recordAll.acting fun _ => does_parallel.bind ?_
  rintro votes _ ⟨rfl, -⟩
  have asked {message : Json} {targets : List String} : (targets.map fun agent =>
      Act.ask agent message none).filterMap Act.message = [] :=
    messages_asks fun _ => none
  dsimp only
  split
  · split
    · refine .pure ?_
      simp [Recorded, asked, messages_spokenAll, Act.message, Record.said]
    · exact .throw
  · refine does_moment.quiet fun _ _ => does_callAgent.acting fun verdict => ?_
    refine does_recordSound.acting fun _ => .pure ?_
    simp [Recorded, asked, messages_spokenAll, messages_ask, messages_spoken, Act.message,
      Record.said]

/-- The results of the tasks that are successes, as they are recorded. -/
def recordedResults (views : List (Task × TaskResult Json)) : List Act :=
  views.flatMap fun view =>
    if view.2.status = .success then
      [.record "assistant" (view.2.output.getD .null) (agentOf view.1 view.2)]
    else []

theorem does_recordResults {views : List (Task × TaskResult Json)} :
    Does env (recordResults env views : Run repr shared Unit)
      fun _ acts => acts = recordedResults views := by
  induction views with
  | nil => exact .pure rfl
  | cons view rest ih =>
      refine .ite (fun success => ?_) fun failed => ih.imp fun _ acts same => ?_
      · refine does_record.acting fun _ => ih.imp fun _ acts same => ?_
        rw [same, recordedResults, recordedResults, List.flatMap_cons, if_pos success]
      · rw [same, recordedResults, recordedResults, List.flatMap_cons, if_neg failed,
          List.nil_append]

theorem messages_recordedResults {views : List (Task × TaskResult Json)} :
    (recordedResults views).filterMap Act.message = views.flatMap saidResult := by
  rw [recordedResults, List.filterMap_flatMap]
  congr 1
  funext view
  rw [saidResult]
  split_ifs <;> rfl

/-- The results of a run of the scheduler that has ended. -/
def Executes (env : Environment) (scheduler : TaskScheduler) (plan : TaskPlan)
    (results : Dict String (TaskResult Json)) : Prop :=
  ∃ k s, (TaskScheduler.machine scheduler (scheduler.runDeadline (env.calls k).runDeadline)).run
      (TaskScheduler.start plan fun _ => .pending) (env.schedule k) = some s ∧
    TaskScheduler.execute s = some (.ok results)

theorem does_execute {scheduler : TaskScheduler} {plan : TaskPlan} :
    Does env (execute env scheduler plan : Run repr shared (Dict String (TaskResult Json)))
      fun results acts => acts = [] ∧ Executes env scheduler plan results := by
  refine does_moment.quiet fun k _ => ?_
  dsimp only
  split
  · rename_i results ended
    obtain ⟨s, execution, ended⟩ := Option.bind_eq_some_iff.mp ended
    exact .pure ⟨rfl, k, s, execution, ended⟩
  · exact .throw
  · exact .throw

/-- A supervisor is asked for a plan of what its text is parsed to, the plan is executed, and the
supervisor is asked for a report on the results. -/
def Supervision (env : Environment) (repr : Json → String) (floats : Json.Format)
    (set : SetIteration) (prompt : Json) (sup : String) (workers : List String)
    (timeout : Option ℚ) (result : Result) (acts : List Act) : Prop :=
  ∃ k maxChars planned plan format notes results views report,
    Bound env maxChars ∧
    parsePlan floats env.depth repr set (planned.toStr repr) (prompt.toStr repr)
      ⟨workers, env.capabilities k⟩ = .ok (plan, format, notes) ∧
    Executes env ⟨none, timeout, (env.calls k).runDeadline⟩ plan results ∧
    resultsOf results plan.tasks = .ok views ∧
    result.rounds = [.named "plan" sup planned,
      .work (plan.tasks.map Task.description) (assigned views) (workerResults repr views) views
        format notes,
      .named "report" sup report] ∧
    result.final = .str (report.toStr repr) ∧
    acts = .record "user" prompt none :: .ask sup (.str (planPrompt (prompt.toStr repr))) none ::
      (spoken planned planned sup ++ (recordedResults views ++
        .ask sup (.str (reportInput repr prompt results plan.tasks maxChars)) none ::
          spoken report report sup))

theorem does_supervise {floats : Json.Format} {set : SetIteration} {sup : String}
    {workers : List String} :
    Does env (supervise env floats set prompt sup workers timeout : Run repr shared Result)
      (Supervision env repr floats set prompt sup workers timeout) := by
  refine does_record.acting fun _ => does_maxChars.quiet fun maxChars bound => ?_
  refine does_callAgent.acting fun planned => does_recordSound.acting fun _ => ?_
  refine does_moment.quiet fun k _ => ?_
  split
  · exact .throw
  · rename_i plan format notes parsed
    refine does_execute.quiet fun results executed => ?_
    split
    · exact .throw
    · rename_i views found
      refine does_recordResults.acting fun _ => does_callAgent.acting fun report => ?_
      refine does_recordSound.acting fun _ => .pure ?_
      refine ⟨k, maxChars, planned, plan, format, notes, results, views, report, bound, parsed,
        executed, found, rfl, rfl, ?_⟩
      simp

theorem Supervision.recorded {floats : Json.Format} {set : SetIteration} {sup : String}
    {workers : List String} {result : Result} {acts : List Act}
    (done : Supervision env repr floats set prompt sup workers timeout result acts) :
    Recorded repr prompt result acts := by
  obtain ⟨k, maxChars, planned, plan, format, notes, results, views, report, -, -, -, -, rounds, -,
    rfl⟩ := done
  rw [Recorded, rounds]
  simp [Act.message, Record.said, messages_ask, messages_spoken, messages_recordedResults]

/-- A supervisor that is registered, and workers that are, at least one. -/
def Supervisor (env : Environment) (repr : Json → String) (floats : Json.Format)
    (set : SetIteration) (prompt : Json) (supervisor : Option String) (workers : List String)
    (timeout : Option ℚ) (result : Result) (acts : List Act) : Prop :=
  ∃ k sup team, supervisorName supervisor (env.agents k) = .ok sup ∧ Known env sup ∧
    team = (if workers = [] then (env.agents k).filter fun name => decide (name ≠ sup)
      else workers) ∧
    team ≠ [] ∧ (∀ name ∈ team, Known env name) ∧
    Supervision env repr floats set prompt sup team timeout result acts

theorem does_runSupervisor {floats : Json.Format} {set : SetIteration}
    {supervisor : Option String} {workers : List String} :
    Does env (runSupervisor env floats set prompt supervisor workers timeout :
        Run repr shared Result)
      (Supervisor env repr floats set prompt supervisor workers timeout) := by
  refine does_agents.quiet ?_
  rintro _ ⟨k, rfl⟩
  split
  · exact .throw
  · rename_i sup named
    refine does_isRegistered.quiet ?_
    rintro _ ⟨k', rfl⟩
    refine .ite (fun known => ?_) fun _ => .throw
    dsimp only
    refine .ite (fun _ => .throw) fun some_worker => does_missing.quiet fun unknown others => ?_
    refine .ite (fun _ => .throw) fun none => does_supervise.imp fun result acts done => ?_
    exact ⟨k, sup, _, named, ⟨k', of_decide_eq_true known⟩, rfl, some_worker,
      others (not_not.mp none), done⟩

end Records

section Openings

variable {repr : Json → String} {shared : MessageStore} {env : Environment} {α β : Type}
  {x : Run repr shared α} {prompt : Json}

/-- The program does nothing itself, whether it returns or raises. -/
def Silent (x : Run repr shared α) : Prop :=
  ∀ acts, Triple (fun w => own w.acts = acts) x (fun _ w => own w.acts = acts)
    fun _ w => own w.acts = acts

namespace Silent

theorem pure {a : α} : Silent (Pure.pure a : Run repr shared α) :=
  fun _ => Triple.pure fun _ same => same

theorem bind {f : α → Run repr shared β} (first : Silent x) (rest : ∀ a, Silent (f a)) :
    Silent (x >>= f) :=
  fun acts => (first acts).bind fun a => rest a acts

theorem ite {c : Prop} [Decidable c] {y : Run repr shared α} (yes : Silent x) (no : Silent y) :
    Silent (if c then x else y) :=
  fun acts => .ite (fun _ => yes acts) fun _ => no acts

theorem moment : Silent (Strategies.moment env : Run repr shared Nat) := by
  rintro acts w rfl
  have others : ((env.others w.clock).foldl (fun w operation => w.act (.others operation)) w).acts =
      w.acts ++ (env.others w.clock).map .others := acts_others _ w
  change own (List.foldl _ w _).acts = own w.acts
  rw [others, own_append, own_others, List.append_nil]

theorem agents : Silent (Strategies.agents env : Run repr shared (List String)) :=
  moment.bind fun _ => pure

theorem turns {order : List String} :
    Silent (Strategies.turns env order : Run repr shared (List String)) :=
  .ite agents pure

theorem isRegistered {name : String} :
    Silent (Strategies.isRegistered env name : Run repr shared Bool) :=
  moment.bind fun _ => pure

theorem missing {names : List String} :
    Silent (Strategies.missing env names : Run repr shared (List String)) := by
  induction names with
  | nil => exact pure
  | cons name rest ih => exact isRegistered.bind fun _ => ih.bind fun _ => pure

theorem policy : Silent (Strategies.policy env : Run repr shared (Option ContextPolicy)) :=
  moment.bind fun _ => pure

theorem maxChars : Silent (Strategies.maxChars env : Run repr shared (Option Int)) :=
  policy.bind fun _ => pure

end Silent

/-- A program that raises has done nothing before, or it has recorded the prompt first. -/
def Opens (prompt : Json) (x : Run repr shared α) : Prop :=
  Triple (fun w => own w.acts = []) x (fun _ _ => True)
    fun _ w => own w.acts = [] ∨ ∃ later, own w.acts = .record "user" prompt none :: later

namespace Opens

theorem throw {e : Raised} : Opens prompt (MonadExcept.throw e : Run repr shared α) :=
  Triple.throw fun _ none => .inl none

theorem silent {f : α → Run repr shared β} (first : Silent x) (rest : ∀ a, Opens prompt (f a)) :
    Opens prompt (x >>= f) :=
  ((first []).imp_raised fun _ _ none => .inl none).bind rest

theorem ite {c : Prop} [Decidable c] {y : Run repr shared α} (yes : Opens prompt x)
    (no : Opens prompt y) : Opens prompt (if c then x else y) :=
  Triple.ite (fun _ => yes) fun _ => no

/-- Behind the prompt a program may do anything. -/
theorem record {f : Unit → Run repr shared β} {Q : β → List Act → Prop}
    (rest : ∀ u, Does env (f u) Q) :
    Opens prompt (Strategies.record env "user" prompt none >>= f) := by
  have recorded : Triple (fun w : World repr shared => own w.acts = [])
      (Strategies.record env "user" prompt none)
      (fun _ w => own w.acts = [.record "user" prompt none])
      fun _ w => own w.acts = [] ∨ ∃ later, own w.acts = .record "user" prompt none :: later := by
    refine ((Silent.moment []).imp_raised fun _ _ none => .inl none).bind fun _ => ?_
    refine Triple.assign fun w none => ?_
    rw [World.act, own_append, none]
    rfl
  refine recorded.bind fun u w opened => ?_
  have ends := rest u w.acts w rfl
  split at ends
  · trivial
  · obtain ⟨more, grown⟩ := ends
    refine .inr ⟨own more, ?_⟩
    rw [← grown, own_append, opened]
    rfl

theorem of_run {e : Raised} {w : World repr shared} (opens : Opens prompt x)
    (stopped : x (.start repr shared) = .error e w) :
    own w.acts = [] ∨ ∃ later, own w.acts = .record "user" prompt none :: later := by
  have ends := opens (.start repr shared) rfl
  rw [stopped] at ends
  exact ends

end Opens

/-- One program behind another, of which nothing is asked. -/
theorem Does.then {f : α → Run repr shared β} {Q : α → List Act → Prop} (first : Does env x Q)
    (rest : ∀ a, Does env (f a) fun _ _ => True) : Does env (x >>= f) fun _ _ => True :=
  first.bind fun a _ _ => rest a

theorem opens_runBroadcast {rounds : Except Raised Int} {timeout : Option ℚ} :
    Opens prompt (runBroadcast env prompt rounds timeout : Run repr shared Result) := by
  refine .silent .maxChars fun maxChars => ?_
  cases rounds with
  | error raised => exact .throw
  | ok limit =>
      exact .record (Q := fun _ _ => True) fun _ =>
        does_broadcastRounds.then fun _ => .pure trivial

theorem opens_runSequential {order : List String} {timeout : Option ℚ} :
    Opens prompt (runSequential env prompt order timeout : Run repr shared Result) := by
  refine .silent .turns fun names => .silent .missing fun unknown => .ite .throw ?_
  refine .silent .maxChars fun maxChars => .record (Q := fun _ _ => True) fun _ => ?_
  exact does_sequentialSteps.then fun _ => .pure trivial

theorem opens_runRelay {rounds : Except Raised Int} {order : List String} {timeout : Option ℚ} :
    Opens prompt (runRelay env prompt rounds order timeout : Run repr shared Result) := by
  refine .silent .turns fun names => .ite .throw ?_
  refine .silent .missing fun unknown => .ite .throw ?_
  refine .silent .maxChars fun maxChars => .record (Q := fun _ _ => True) fun _ => ?_
  cases rounds with
  | error raised => exact .throw
  | ok limit => exact does_relayRounds.then fun _ => .pure trivial

theorem opens_runDebate {rounds : Except Raised Int} {judge : Option String}
    {timeout : Option ℚ} :
    Opens prompt (runDebate env prompt rounds judge timeout : Run repr shared Result) := by
  refine .silent .agents fun names => .ite .throw (.silent .policy fun policy => ?_)
  refine .silent .maxChars fun maxChars => .record (Q := fun _ _ => True) fun _ => ?_
  cases rounds with
  | error raised => exact .throw
  | ok limit =>
      have debated : Does env (debateRounds env prompt policy timeout names (max 1 limit).toNat 1
          .empty : Run repr shared _) fun _ _ => True :=
        adds_debateRounds.imp fun _ _ _ _ => trivial
      refine debated.then fun _ => does_isRegistered.then fun _ => ?_
      refine .ite (fun _ => ?_) fun _ => .throw
      exact does_callAgent.then fun _ => does_recordSound.then fun _ => .pure trivial

theorem opens_runConsensus {lower : String → String} {judge : Option String}
    {timeout : Option ℚ} :
    Opens prompt (runConsensus env lower prompt judge timeout : Run repr shared Result) := by
  refine .silent .agents fun names => .ite .throw (.silent .maxChars fun maxChars => ?_)
  refine .record (Q := fun _ _ => True) fun _ => does_parallel.then fun proposals => ?_
  refine does_recordAll.then fun _ => does_parallel.then fun votes => ?_
  dsimp only
  split
  · split
    · exact .pure trivial
    · exact .throw
  · refine does_moment.then fun _ => does_callAgent.then fun _ => ?_
    exact does_recordSound.then fun _ => .pure trivial

theorem opens_runSupervisor {floats : Json.Format} {set : SetIteration}
    {supervisor : Option String} {workers : List String} {timeout : Option ℚ} :
    Opens prompt (runSupervisor env floats set prompt supervisor workers timeout :
      Run repr shared Result) := by
  refine .silent .agents fun names => ?_
  split
  · exact .throw
  · rename_i sup _
    refine .silent .isRegistered fun known => .ite ?_ .throw
    dsimp only
    refine .ite .throw (.silent .missing fun unknown => .ite .throw ?_)
    refine .record (Q := fun _ _ => True) fun _ => does_maxChars.then fun _ => ?_
    refine does_callAgent.then fun _ => does_recordSound.then fun _ => does_moment.then fun _ => ?_
    split
    · exact .throw
    · refine does_execute.then fun _ => ?_
      split
      · exact .throw
      · refine does_recordResults.then fun _ => does_callAgent.then fun _ => ?_
        exact does_recordSound.then fun _ => .pure trivial

end Openings

section Said

variable {repr : Json → String} {shared : MessageStore} {env : Environment} {prompt : Json}
  {lower : String → String} {floats : Json.Format} {set : SetIteration} {strategy : String}
  {options : Options}

theorem does_runStrategy :
    Does env (runStrategy env lower floats set strategy prompt options : Run repr shared Result)
      (Recorded repr prompt) := by
  rw [runStrategy]
  split
  · refine does_runBroadcast.imp ?_
    rintro _ _ ⟨responses, done⟩
    exact done.recorded
  · exact does_runSequential.imp fun _ _ done => done.recorded
  · exact does_runDebate
  · refine does_runSupervisor.imp ?_
    rintro _ _ ⟨k, sup, team, -, -, -, -, -, done⟩
    exact done.recorded
  · exact does_runConsensus
  · exact does_runRelay.imp fun _ _ done => done.recorded
  · exact .throw

theorem opens_runStrategy : Opens prompt
    (runStrategy env lower floats set strategy prompt options : Run repr shared Result) := by
  rw [runStrategy]
  split
  · exact opens_runBroadcast
  · exact opens_runSequential
  · exact opens_runDebate
  · exact opens_runSupervisor
  · exact opens_runConsensus
  · exact opens_runRelay
  · exact .throw

/-- Whatever the agents answer and others do meanwhile: a run that returns has recorded the prompt
and then exactly the responses of its records that are no errors; a run that raises has done
nothing, or it has recorded the prompt before anything else. The memory keeps the longest part
that fits of what it held and of what the run and others have added. -/
theorem records_said (env : Environment) (lower : String → String) (floats : Json.Format)
    (set : SetIteration) (strategy : String) (prompt : Json) (options : Options)
    {log : List Object} (limited : ∀ limit ∈ shared.capacity, 1 ≤ limit)
    (longest : Longest (MessageStore.Fits repr shared.capacity shared.maxChars) log shared.messages)
    (w : World repr shared) :
    (∀ result, runStrategy env lower floats set strategy prompt options (.start repr shared) =
        .ok result w →
      (own w.acts).filterMap Act.message =
        MessageStore.message "user" prompt none [] :: result.rounds.flatMap (Record.said repr)) ∧
    (∀ raised, runStrategy env lower floats set strategy prompt options (.start repr shared) =
        .error raised w →
      own w.acts = [] ∨ ∃ later, own w.acts = .record "user" prompt none :: later) ∧
    ∃ kept, w.memory = { shared with messages := kept } ∧
      Longest (MessageStore.Fits repr shared.capacity shared.maxChars)
        ((w.acts.filterMap Act.operation).foldl MessageStore.logged log) kept := by
  refine ⟨fun result returned => does_runStrategy.of_run returned, fun raised stopped => ?_, ?_⟩
  · exact opens_runStrategy.of_run stopped
  · rw [w.replayed]
    exact longest_replay limited longest w.acts

/-- A relay of two rounds over a memory for one message. -/
theorem records_said_duo : ∃ (result : Result) (w : World (fun _ => "") (.new (some 1) none)),
    runStrategy duo id default .dedup "relay" (.str "go") ⟨none, [], none, none, [], none⟩
        (.start _ _) = .ok result w ∧
      w.memory.messages.length = 1 ∧
      (own w.acts).filterMap Act.message = MessageStore.message "user" (.str "go") none [] ::
        result.rounds.flatMap (Record.said fun _ => "") := by
  obtain ⟨result, w, returned, length⟩ :
      ∃ (result : Result) (w : World (fun _ => "") (.new (some 1) none)),
      runStrategy duo id default .dedup "relay" (.str "go") ⟨none, [], none, none, [], none⟩
        (.start _ _) = .ok result w ∧ w.memory.messages.length = 1 := ⟨_, _, rfl, rfl⟩
  have empty : Longest (MessageStore.Fits (fun _ => "") (some 1) none) [] [] :=
    .self ⟨by simp, by simp⟩
  exact ⟨result, w, returned, length, (records_said duo id default .dedup "relay" (.str "go")
    ⟨none, [], none, none, [], none⟩ (by simp [MessageStore.new]) empty w).1 result returned⟩

end Said

end Strategies

end MultiAgent.Plugin
