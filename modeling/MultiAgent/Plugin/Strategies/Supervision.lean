import MultiAgent.Plugin.Planning.Repair
import MultiAgent.Plugin.Scheduler.Delivery
import MultiAgent.Plugin.Strategies.Recorded

/-!
# What a supervisor sees done

A run of a supervisor that returns has planned a valid graph of tasks for its team, has one
result for each of them, has recorded the successes in the order of the plan, each under the
agent that the plan names, and has asked for a report on all of them. No lookup of a result
fails (`supervisor_delivers`).
-/

namespace MultiAgent.Plugin

namespace Planning

variable {set : SetIteration} {router : WorkerRouter} {knownAgents knownCaps : List String}
  {tasks : List Task} {s last : State} {plan : TaskPlan}

/-- What is returned is assigned to workers. -/
theorem routed_of_attempt (workers : router.workers ≠ []) {allow : Bool} {attempts : Nat}
    (ended : attempt set router knownAgents knownCaps allow attempts s = (last, .ok ())) :
    ∀ task ∈ last.tasks, Routed router task := by
  have routed {s : State} (ended : attempt.route router s = (last, .ok ())) :
      ∀ task ∈ last.tasks, Routed router task := by
    obtain ⟨tasks', cursor', assigned, all⟩ := routeAgents_ok workers s.cursor s.tasks
    simp only [attempt.route, assigned] at ended
    cases ended
    intro task member
    obtain ⟨i, bound, rfl⟩ := List.getElem_of_mem member
    exact (all.get (by rw [all.length_eq]; exact bound) bound).routed
  induction attempts generalizing s with
  | zero =>
      rw [attempt] at ended
      split at ended
      · exact routed ended
      · simp only at ended
        split_ifs at ended
        · split at ended
          · exact routed ended
          · cases ended
        · cases ended
  | succ left ih =>
      rw [attempt] at ended
      split at ended
      · exact routed ended
      · simp only at ended
        split at ended
        · exact ih ended
        · cases ended

/-- A constructed plan is one of its tasks, with a valid graph. -/
theorem of_new (made : TaskPlan.new set.iter tasks = .ok plan) :
    plan.tasks = tasks ∧ ValidGraph plan.tasks := by
  obtain ⟨built, collected, checked⟩ := bind_eq_ok_iff.mp made
  obtain ⟨valid, same⟩ := check_bind_eq_ok_iff.mp checked
  cases same
  exact ⟨(collect_ok_iff.mp collected).1, ((validate_ok_iff none none).mp valid).2.1⟩

end Planning

namespace Strategies

section Views

variable {repr : Json → String} {results : Dict String (TaskResult Json)} {tasks : List Task}
  {views : List (Task × TaskResult Json)} {worker : String}

/-- The views are the tasks with their results. -/
theorem resultsOf_eq_ok (found : resultsOf results tasks = .ok views) :
    views.map Prod.fst = tasks ∧ ∀ view ∈ views, results.get? view.1.id = some view.2 := by
  induction tasks generalizing views with
  | nil =>
      cases found
      exact ⟨rfl, by simp⟩
  | cons task rest ih =>
      rw [resultsOf] at found
      split at found
      · cases found
      · rename_i result here
        cases later : resultsOf results rest with
        | error raised =>
            rw [later] at found
            cases found
        | ok others =>
            rw [later] at found
            cases found
            obtain ⟨same, all⟩ := ih later
            exact ⟨congrArg (task :: ·) same, List.forall_mem_cons.mpr ⟨here, all⟩⟩

/-- Where every task has its result, no lookup fails. -/
theorem resultsOf_complete
    (complete : ∀ task ∈ tasks, ∃ result, results.get? task.id = some result) :
    ∃ views, resultsOf results tasks = .ok views := by
  induction tasks with
  | nil => exact ⟨[], rfl⟩
  | cons task rest ih =>
      obtain ⟨⟨result, here⟩, later⟩ := List.forall_mem_cons.mp complete
      obtain ⟨views, found⟩ := ih later
      refine ⟨(task, result) :: views, ?_⟩
      rw [resultsOf, here, found]
      rfl

/-- The agents that results name, and the descriptions of their tasks. -/
theorem get?_assigned (views : List (Task × TaskResult Json)) (worker : String) :
    ((assigned views).get? worker).getD [] =
      ((views.filter fun view => decide (view.2.agent = some worker ∧ worker ≠ "")).map
        fun view => view.1.description) := by
  induction views using List.reverseRecOn with
  | nil => rfl
  | append_singleton views view ih =>
      rw [List.filter_append, List.map_append, ← ih, assigned, List.foldl_append, List.foldl_cons,
        List.foldl_nil]
      cases named : view.2.agent.filter fun agent => decide (agent ≠ "") with
      | some agent =>
        obtain ⟨given, solid⟩ := Option.filter_eq_some_iff.mp named
        change (((assigned views).set agent
          (((assigned views).get? agent).getD [] ++ [view.1.description])).get? worker).getD [] = _
        rw [Dict.get?_set]
        split_ifs with same
        · subst same
          simp [given, of_decide_eq_true solid]
        · have other : ¬ (view.2.agent = some worker ∧ worker ≠ "") := by
            rw [given]
            rintro ⟨⟨⟩, -⟩
            exact same rfl
          rw [List.filter_cons_of_neg (by simpa using other), List.filter_nil, List.map_nil,
            List.append_nil]
      | none =>
        have other : ¬ (view.2.agent = some worker ∧ worker ≠ "") := by
          rintro ⟨given, solid⟩
          rw [given, Option.filter_some, if_pos (decide_eq_true solid)] at named
          cases named
        change ((assigned views).get? worker).getD [] = _
        rw [List.filter_cons_of_neg (by simpa using other), List.filter_nil, List.map_nil,
          List.append_nil]

/-- The line of a task in the summary of the results. -/
def summary (repr : Json → String) (view : Task × TaskResult Json) : String :=
  "[" ++ view.1.id ++ "][" ++ optionText view.2.agent ++ "] " ++
    if view.2.status = .success then (view.2.output.getD .null).toStr repr
    else "未完成（" ++ view.2.status.value ++ ": " ++ optionText view.2.error ++ "）"

theorem formatTaskResults_eq (found : resultsOf results tasks = .ok views) :
    formatTaskResults repr results tasks = "\n\n".intercalate (views.map (summary repr)) := by
  obtain ⟨rfl, all⟩ := resultsOf_eq_ok found
  rw [formatTaskResults, List.filterMap_map, ← List.filterMap_eq_map]
  refine congrArg _ (List.filterMap_congr fun view member => ?_)
  rw [Function.comp_apply, all view member]
  rfl

end Views

section Work

variable {repr : Json → String} {shared : MessageStore} {env : Environment} {prompt : Json}
  {plan : TaskPlan} {results : Dict String (TaskResult Json)}
  {views : List (Task × TaskResult Json)} {team : List String}

/-- `run_task` of a supervisor returns what an agent answers, and no `TaskResult`. -/
def Answers (env : Environment) : Prop :=
  ∀ k, ∀ event ∈ env.schedule k, TaskScheduler.Answering event

theorem Executes.delivered {scheduler : TaskScheduler} (answers : Answers env)
    (executed : Executes env scheduler plan results) : TaskScheduler.Delivered plan results := by
  obtain ⟨k, s, execution, returned⟩ := executed
  exact TaskScheduler.delivered_of_returned (answers k) execution returned

/-- The work of a team on a plan. -/
structure Worked (team : List String) (plan : TaskPlan) (views : List (Task × TaskResult Json)) :
    Prop where
  graph : Planning.ValidGraph plan.tasks
  routed : ∀ task ∈ plan.tasks, ∃ worker ∈ team, task.agent = some worker
  tasks : views.map Prod.fst = plan.tasks
  signed : ∀ view ∈ views, TaskScheduler.Signs view.1 view.2
  terminal : ∀ view ∈ views, view.2.status.isTerminal = true
  skipped : ∀ view ∈ views, view.2.status = .skipped ↔
    ∃ dep ∈ views, dep.1.id ∈ view.1.dependsOn ∧ dep.2.status ≠ .success
  assigned : ∀ worker ≠ "", ((assigned views).get? worker).getD [] =
    (plan.tasks.filter fun task => decide (task.agent = some worker)).map Task.description

theorem worked_of_delivered (graph : Planning.ValidGraph plan.tasks)
    (routed : ∀ task ∈ plan.tasks, ∃ worker ∈ team, task.agent = some worker)
    (delivered : TaskScheduler.Delivered plan results)
    (found : resultsOf results plan.tasks = .ok views) : Worked team plan views := by
  obtain ⟨tasks, all⟩ := resultsOf_eq_ok found
  have known (view) (member : view ∈ views) : view.1 ∈ plan.tasks :=
    tasks ▸ List.mem_map_of_mem member
  have delivers (view) (member : view ∈ views) :
      TaskScheduler.Delivers results view.1 view.2 := by
    obtain ⟨result, here, delivers⟩ := delivered.each view.1 (known view member)
    rw [all view member] at here
    cases here
    exact delivers
  refine ⟨graph, routed, tasks, fun view member => (delivers view member).signs,
    fun view member => (delivers view member).terminal, ?_, ?_⟩
  · intro view member
    rw [(delivers view member).skipped]
    constructor
    · rintro ⟨dep, edge, unsuccessful⟩
      obtain ⟨task, here, rfl⟩ := List.mem_map.mp (graph.closed view.1 (known view member) dep edge)
      rw [← tasks] at here
      obtain ⟨other, inside, rfl⟩ := List.mem_map.mp here
      exact ⟨other, inside, edge, fun success => unsuccessful ⟨other.2, all other inside, success⟩⟩
    · rintro ⟨dep, inside, edge, unsuccessful⟩
      refine ⟨dep.1.id, edge, ?_⟩
      rintro ⟨result, here, success⟩
      rw [all dep inside] at here
      cases here
      exact unsuccessful success
  · intro worker solid
    rw [get?_assigned, ← tasks, List.filter_map, List.map_map]
    refine congrArg _ (List.filter_congr fun view member => ?_)
    rw [(delivers view member).signs.agent]
    simp [solid]

/-- The successes, as they are recorded. -/
def successes (views : List (Task × TaskResult Json)) : List Act :=
  (views.filter fun view => decide (view.2.status = .success)).map fun view =>
    .record "assistant" (view.2.output.getD .null) view.1.agent

theorem Worked.recordedResults_eq (worked : Worked team plan views) :
    recordedResults views = successes views := by
  have signed := worked.signed
  rw [recordedResults, successes]
  clear worked
  induction views with
  | nil => rfl
  | cons view rest ih =>
      obtain ⟨here, later⟩ := List.forall_mem_cons.mp signed
      have agent : agentOf view.1 view.2 = view.1.agent := by
        rw [agentOf, here.agent]
        cases view.1.agent <;> simp
      rw [List.flatMap_cons, ih later, agent]
      by_cases success : view.2.status = .success
      · rw [if_pos success, List.filter_cons_of_pos (by simpa using success), List.map_cons,
          List.singleton_append]
      · rw [if_neg success, List.filter_cons_of_neg (by simpa using success), List.nil_append]

/-- What the supervisor is asked last. -/
def reportRequest (repr : Json → String) (prompt : Json)
    (views : List (Task × TaskResult Json)) (maxChars : Option Int) : Json :=
  .str (prompt.toStr repr ++ "\n\n子任务完成情况:\n" ++
    truncate ("\n\n".intercalate (views.map (summary repr))) maxChars ++
    "\n\n请综合所有子任务结果，给出最终的完整回答。")

/-- What a run of a supervisor comes to, with its team, its plan and the results. -/
structure Supervised (env : Environment) (repr : Json → String) (prompt : Json) (result : Result)
    (acts : List Act) (sup : String) (team : List String) (plan : TaskPlan)
    (views : List (Task × TaskResult Json)) (planned report : Json) : Prop where
  supervisor : Known env sup
  members : team ≠ [] ∧ ∀ worker ∈ team, Known env worker
  worked : Worked team plan views
  rounds : ∃ format notes, result.rounds = [.named "plan" sup planned,
    .work (plan.tasks.map Task.description) (assigned views) (workerResults repr views) views
      format notes,
    .named "report" sup report]
  final : result.final = .str (report.toStr repr)
  acts : ∃ maxChars, Bound env maxChars ∧
    acts = .record "user" prompt none :: .ask sup (.str (planPrompt (prompt.toStr repr))) none ::
      (spoken planned planned sup ++ (successes views ++
        .ask sup (reportRequest repr prompt views maxChars) none :: spoken report report sup))

theorem parsePlan_ok {floats : Json.Format} {depth : Nat} {set : SetIteration}
    {text ask format : String} {router : Planning.WorkerRouter} {notes : List Planning.Note}
    (workers : router.workers ≠ [])
    (parsed : parsePlan floats depth repr set text ask router = .ok (plan, format, notes)) :
    Planning.ValidGraph plan.tasks ∧ ∀ task ∈ plan.tasks, Planning.Routed router task := by
  rw [parsePlan] at parsed
  split at parsed
  · cases parsed
  · rename_i tasks _ _ read
    split at parsed
    · cases parsed
    · rename_i plan' made
      cases parsed
      obtain ⟨same, graph⟩ := Planning.of_new made
      refine ⟨graph, ?_⟩
      rw [same]
      obtain ⟨⟨raw, form⟩, -, read⟩ := bind_eq_ok_iff.mp read
      obtain ⟨⟨⟩, ended, same⟩ := bind_eq_ok_iff.mp read
      cases same
      exact Planning.routed_of_attempt workers (Prod.ext rfl ended)

end Work

section Lookups

variable {repr : Json → String} {shared : MessageStore} {env : Environment} {prompt : Json}
  {timeout : Option ℚ} {α β : Type}

/-- The exception is no failed lookup. -/
def Raised.Found (raised : Raised) : Prop := ∀ key, raised ≠ .keyError key

/-- No lookup of the program fails. -/
abbrev Finds (x : Run repr shared α) (Q : α → Prop) : Prop :=
  Triple (fun _ => True) x (fun a _ => Q a) fun raised _ => raised.Found

namespace Finds

variable {x : Run repr shared α} {Q : α → Prop}

theorem pure {a : α} (post : Q a) : Finds (Pure.pure a : Run repr shared α) Q :=
  Triple.pure fun _ _ => post

theorem throw {raised : Raised} (found : raised.Found) :
    Finds (MonadExcept.throw raised : Run repr shared α) Q :=
  Triple.throw fun _ _ => found

theorem bind {f : α → Run repr shared β} {R : β → Prop} (first : Finds x Q)
    (rest : ∀ a, Q a → Finds (f a) R) : Finds (x >>= f) R :=
  Triple.bind first fun a _ post => rest a post _ trivial

/-- A program of whose value nothing is known, and then another one. -/
theorem and_then {f : α → Run repr shared β} {R : β → Prop} (first : Finds x fun _ => True)
    (rest : ∀ a, Finds (f a) R) : Finds (x >>= f) R :=
  first.bind fun a _ => rest a

theorem moment : Finds (Strategies.moment env : Run repr shared Nat) fun _ => True :=
  fun _ _ => trivial

theorem record {role : String} {content : Json} {agent : Option String} :
    Finds (Strategies.record env role content agent : Run repr shared Unit) fun _ => True :=
  moment.and_then fun _ => Triple.assign fun _ _ => trivial

theorem recordSound {response content : Json} {agent : String} :
    Finds (Strategies.recordSound env response content agent : Run repr shared Unit)
      fun _ => True :=
  Triple.ite (fun _ => pure trivial) fun _ => record

theorem recordResults {views : List (Task × TaskResult Json)} :
    Finds (Strategies.recordResults env views : Run repr shared Unit) fun _ => True := by
  induction views with
  | nil => exact pure trivial
  | cons view rest ih => exact Triple.ite (fun _ => record.and_then fun _ => ih) fun _ => ih

theorem agents : Finds (Strategies.agents env : Run repr shared (List String)) fun _ => True :=
  moment.and_then fun _ => pure trivial

theorem isRegistered {name : String} :
    Finds (Strategies.isRegistered env name : Run repr shared Bool) fun _ => True :=
  moment.and_then fun _ => pure trivial

theorem missing {names : List String} :
    Finds (Strategies.missing env names : Run repr shared (List String)) fun _ => True := by
  induction names with
  | nil => exact pure trivial
  | cons name rest ih => exact isRegistered.and_then fun _ => ih.and_then fun _ => pure trivial

theorem maxChars : Finds (Strategies.maxChars env : Run repr shared (Option Int)) fun _ => True :=
  (moment.and_then fun _ => pure trivial : Finds (policy env) _).and_then fun _ => pure trivial

theorem callAgent {agent : String} {message : Json} :
    Finds (Strategies.callAgent env agent message timeout : Run repr shared Json)
      fun _ => True := by
  refine moment.and_then fun k => Triple.bind (R := fun _ _ => True)
    (Triple.assign fun _ _ => trivial) fun _ => ?_
  split
  · exact pure trivial
  · rename_i raised _
    refine throw ?_
    cases raised <;> exact fun _ => nofun

theorem execute {scheduler : TaskScheduler} {plan : TaskPlan} :
    Finds (Strategies.execute env scheduler plan :
      Run repr shared (Dict String (TaskResult Json))) (Executes env scheduler plan) := by
  refine moment.and_then fun k => ?_
  dsimp only
  split
  · rename_i results ended
    obtain ⟨s, execution, ended⟩ := Option.bind_eq_some_iff.mp ended
    exact pure ⟨k, s, execution, ended⟩
  · exact throw fun _ => nofun
  · exact throw fun _ => nofun

end Finds

theorem finds_supervise {floats : Json.Format} {set : SetIteration} {sup : String}
    {team : List String} (answers : Answers env) :
    Finds (supervise env floats set prompt sup team timeout : Run repr shared Result)
      fun _ => True := by
  refine Finds.record.and_then fun _ => Finds.maxChars.and_then fun maxChars => ?_
  refine Finds.callAgent.and_then fun planned => Finds.recordSound.and_then fun _ => ?_
  refine Finds.moment.and_then fun k => ?_
  split
  · rename_i raised parsed
    refine .throw ?_
    rw [parsePlan] at parsed
    split at parsed
    · cases parsed
      exact fun _ => nofun
    · split at parsed
      · cases parsed
        exact fun _ => nofun
      · cases parsed
  · rename_i plan format notes _
    refine Finds.execute.bind fun results executed => ?_
    -- The results hold every task of the plan.
    obtain ⟨views, found⟩ := resultsOf_complete fun task member =>
      (executed.delivered answers).each task member |>.imp fun _ both => both.1
    rw [found]
    refine Finds.recordResults.and_then fun _ => Finds.callAgent.and_then fun report => ?_
    exact Finds.recordSound.and_then fun _ => .pure trivial

theorem finds_runSupervisor {floats : Json.Format} {set : SetIteration}
    {supervisor : Option String} {workers : List String} (answers : Answers env) :
    Finds (runSupervisor env floats set prompt supervisor workers timeout :
      Run repr shared Result) fun _ => True := by
  refine Finds.agents.and_then fun names => ?_
  split
  · rename_i raised named
    refine .throw ?_
    unfold supervisorName at named
    split at named
    · cases named
    · split_ifs at named
      split at named
      · cases named
      · cases named
        exact fun _ => nofun
  · refine Finds.isRegistered.and_then fun known => Triple.ite (fun _ => ?_) fun _ =>
      .throw fun _ => nofun
    dsimp only
    refine Triple.ite (fun _ => .throw fun _ => nofun) fun _ => ?_
    refine Finds.missing.and_then fun unknown => Triple.ite (fun _ => .throw fun _ => nofun) ?_
    exact fun _ => finds_supervise answers

end Lookups

section Delivery

variable {repr : Json → String} {shared : MessageStore} {env : Environment}

/-- Where `run_task` returns no `TaskResult` of its own: a supervisor that returns has planned a
valid graph for its team, and has one terminal result for each task, skipped exactly behind a
dependency without success. The successes are recorded in the order of the plan, each under the
agent of its task, and the report is asked for with a line for each task. Whatever the supervisor
answers and however the tasks end, no result of a task is missing. -/
theorem supervisor_delivers (env : Environment) (floats : Json.Format) (set : SetIteration)
    (prompt : Json) (supervisor : Option String) (workers : List String) (timeout : Option ℚ)
    (answers : Answers env) (w : World repr shared) :
    (∀ result, runSupervisor env floats set prompt supervisor workers timeout
        (.start repr shared) = .ok result w →
      ∃ sup team plan views planned report,
        Supervised env repr prompt result (own w.acts) sup team plan views planned report) ∧
    ∀ raised, runSupervisor env floats set prompt supervisor workers timeout
        (.start repr shared) = .error raised w → ∀ key, raised ≠ .keyError key := by
  refine ⟨fun result returned => ?_, fun raised stopped =>
    (finds_runSupervisor answers).of_error trivial stopped⟩
  obtain ⟨k, sup, team, -, supervisor, -, some_worker, known, k', maxChars, planned, plan, format,
    notes, results, views, report, bound, parsed, executed, found, rounds, final, acts⟩ :=
    does_runSupervisor.of_run returned
  obtain ⟨graph, routed⟩ := parsePlan_ok some_worker parsed
  have worked := worked_of_delivered graph routed (executed.delivered answers) found
  refine ⟨sup, team, plan, views, planned, report, supervisor, ⟨some_worker, known⟩, worked,
    ⟨format, notes, rounds⟩, final, maxChars, bound, ?_⟩
  rw [acts, worked.recordedResults_eq, reportInput, formatTaskResults_eq found]
  rfl

/-- A supervisor that plans a draft and its review, and a worker that is offline. -/
def crew : Environment where
  others _ := []
  agents _ := ["supervisor", "w"]
  distinct _ := by decide
  capabilities _ _ := none
  policy _ := none
  calls _ :=
    { duo.calls 0 with
      outcome := fun _ => .value (.str ("[\x7b\"id\":\"a\",\"task\":\"draft\"\x7d," ++
        "\x7b\"id\":\"b\",\"task\":\"review\",\"depends_on\":[\"a\"]\x7d]")) }
  depth := 900
  schedule _ :=
    [.pass ⟨0, fun _ => .accepted 0, 0, none⟩,
     .wake ⟨[⟨"a", 1, .raised (.other "offline")⟩], 1, none⟩,
     .pass ⟨2, fun _ => .accepted 2, 2, none⟩]

theorem answers_crew : Answers crew := by
  intro k event member
  obtain rfl | rfl | rfl : event = _ ∨ event = _ ∨ event = _ := by simpa [crew] using member
  · trivial
  · simp [TaskScheduler.Answering]
  · trivial

theorem supervisor_delivers_crew :
    ∃ (result : Result) (w : World (fun _ => "") (.new none none)),
      runSupervisor crew default .dedup (.str "go") none [] none (.start _ _) = .ok result w ∧
      ∃ sup team plan views planned report,
        Supervised crew (fun _ => "") (.str "go") result (own w.acts) sup team plan views planned
          report := by
  have returns : ((runSupervisor crew default .dedup (.str "go") none [] none).run'
      (.start (fun _ => "") (.new none none))).isSome = true := by decide +kernel
  cases returned : runSupervisor crew default .dedup (.str "go") none [] none
      (.start (fun _ => "") (.new none none)) with
  | ok result w =>
      exact ⟨result, w, rfl, (supervisor_delivers crew default .dedup (.str "go") none [] none
        answers_crew w).1 result returned⟩
  | error raised w =>
      have silent : ((runSupervisor crew default .dedup (.str "go") none [] none).run'
          (.start (fun _ => "") (.new none none))).isSome = false :=
        congrArg (fun result => (EStateM.run' (fun _ => result)
          (World.start (fun _ => "") (.new none none))).isSome) returned
      rw [silent] at returns
      cases returns

end Delivery

end Strategies

end MultiAgent.Plugin
