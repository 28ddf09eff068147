import MultiAgent.Plugin.Strategies
import Mathlib.Data.List.Infix

/-!
# What a strategy does

Rules for the acts of a program: a program only adds acts, whether it returns or raises, and
what it has added when it returns is related to its value. The rules follow the program. A
statement of a run has the acts that others do before it, so what a run does itself is read
off its own acts. At which statement a program ends is related to its value as well, where
what it reads there matters.
-/

namespace MultiAgent.Plugin

namespace Strategies

def Act.isOwn : Act → Bool
  | .others _ => false
  | .record _ _ _ | .ask _ _ _ => true

/-- The acts of the run itself. -/
def own (acts : List Act) : List Act := acts.filter Act.isOwn

@[simp] theorem own_nil : own [] = [] := rfl

@[simp] theorem own_append {acts more : List Act} : own (acts ++ more) = own acts ++ own more :=
  List.filter_append ..

/-- The memory behind the acts. -/
def replay (repr : Json → String) (shared : MessageStore) (acts : List Act) : MessageStore :=
  (acts.filterMap Act.operation).foldl (MessageStore.apply repr) shared

section Rules

variable {repr : Json → String} {shared : MessageStore} {env : Environment} {α β : Type}

/-- What is added to the acts; what others do is what the environment says. -/
structure Extends (env : Environment) (before acts more : List Act) : Prop where
  eq : acts = before ++ more
  foreign : ∀ operation, .others operation ∈ more → ∃ k, operation ∈ env.others k

theorem Extends.trans {before mid acts more later : List Act} (first : Extends env before mid more)
    (second : Extends env mid acts later) : Extends env before acts (more ++ later) where
  eq := by rw [second.eq, first.eq, List.append_assoc]
  foreign := by
    intro operation member
    exact (List.mem_append.mp member).elim (first.foreign operation) (second.foreign operation)

/-- What a program adds to the acts before it is related to its value; a program that raises
adds to them as well. -/
def Adds (env : Environment) (x : Run repr shared α) (Q : List Act → α → List Act → Prop) : Prop :=
  ∀ before, Triple (fun w => w.acts = before) x
    (fun a w => ∃ more, Extends env before w.acts more ∧ Q before a more)
    fun _ w => before <+: w.acts

namespace Adds

variable {x : Run repr shared α} {Q R : List Act → α → List Act → Prop}

theorem imp (adds : Adds env x Q) (post : ∀ before a more, Q before a more → R before a more) :
    Adds env x R := by
  intro before
  refine (adds before).imp_post ?_
  rintro a w ⟨more, added, holds⟩
  exact ⟨more, added, post before a more holds⟩

theorem pure {a : α} (post : ∀ before, Q before a []) :
    Adds env (Pure.pure a : Run repr shared α) Q := by
  intro before
  apply Triple.pure
  rintro w rfl
  exact ⟨[], ⟨(List.append_nil _).symm, by simp⟩, post _⟩

theorem throw {e : Raised} : Adds env (MonadExcept.throw e : Run repr shared α) Q := by
  intro before
  apply Triple.throw
  rintro w rfl
  exact List.prefix_refl _

theorem bind {f : α → Run repr shared β} {T : List Act → β → List Act → Prop}
    (first : Adds env x Q)
    (rest : ∀ a before more, Q before a more → Adds env (f a) fun now b later =>
      now = before ++ more → T before b (more ++ later)) : Adds env (x >>= f) T := by
  intro before
  refine (first before).bind ?_
  rintro a w ⟨more, added, holds⟩
  refine (rest a before more holds (before ++ more)).conseq (fun _ same => same) ?_ ?_ w added.eq
  · rintro b v ⟨later, follows, done⟩
    exact ⟨more ++ later, added.trans (added.eq ▸ follows), done rfl⟩
  · intro _ v grown
    exact (List.prefix_append before more).trans grown

theorem ite {c : Prop} [Decidable c] {y : Run repr shared α} (yes : c → Adds env x Q)
    (no : ¬ c → Adds env y Q) : Adds env (if c then x else y) Q := by
  split
  · exact yes ‹c›
  · exact no ‹¬ c›

/-- Reading the state. -/
theorem get {f : World repr shared → Run repr shared α}
    (rest : ∀ w, Adds env (f w) fun before a more => w.acts = before → Q before a more) :
    Adds env (MonadState.get >>= f) Q := by
  intro before
  refine Triple.get ?_
  rintro w rfl
  refine (rest w w.acts).conseq ?_ ?_ fun _ _ grown => grown
  · rintro _ rfl
    rfl
  · rintro a v ⟨more, added, holds⟩
    exact ⟨more, added, holds rfl⟩

end Adds

/-- What a program that returns has done itself is related to its value. -/
def Does (env : Environment) (x : Run repr shared α) (Q : α → List Act → Prop) : Prop :=
  Adds env x fun _ a more => Q a (own more)

namespace Does

variable {x : Run repr shared α} {Q R : α → List Act → Prop}

theorem adds (does : Does env x Q) : Adds env x fun _ a more => Q a (own more) := does

theorem imp (does : Does env x Q) (post : ∀ a more, Q a more → R a more) : Does env x R :=
  Adds.imp does fun _ a more => post a (own more)

theorem pure {a : α} (post : Q a []) : Does env (Pure.pure a : Run repr shared α) Q :=
  Adds.pure fun _ => post

theorem throw {e : Raised} : Does env (MonadExcept.throw e : Run repr shared α) Q := Adds.throw

theorem ite {c : Prop} [Decidable c] {y : Run repr shared α} (yes : c → Does env x Q)
    (no : ¬ c → Does env y Q) : Does env (if c then x else y) Q :=
  Adds.ite yes no

theorem bind {f : α → Run repr shared β} {T : β → List Act → Prop} (first : Does env x Q)
    (rest : ∀ a acts, Q a acts → Does env (f a) fun b more => T b (acts ++ more)) :
    Does env (x >>= f) T := by
  refine Adds.bind first fun a before more done => ?_
  refine Adds.imp (rest a (own more) done) fun now b later follows _ => ?_
  rw [own_append]
  exact follows

/-- A program that only reads, and then another one. -/
theorem quiet {f : α → Run repr shared β} {K : α → Prop} {T : β → List Act → Prop}
    (first : Does env x fun a acts => acts = [] ∧ K a) (rest : ∀ a, K a → Does env (f a) T) :
    Does env (x >>= f) T :=
  first.bind fun a _ done => done.1 ▸ rest a done.2

/-- A program whose acts are known, and then another one. -/
theorem acting {f : α → Run repr shared β} {acts : List Act} {T : β → List Act → Prop}
    (first : Does env x fun _ more => more = acts)
    (rest : ∀ a, Does env (f a) fun b more => T b (acts ++ more)) : Does env (x >>= f) T :=
  first.bind fun a _ same => same ▸ rest a

/-- A program, and then one that makes its value. -/
theorem returning {f : α → β} {T : β → List Act → Prop} (first : Does env x Q)
    (post : ∀ a acts, Q a acts → T (f a) acts) :
    Does env (x >>= fun a => Pure.pure (f a) : Run repr shared β) T :=
  first.bind fun a acts done => .pure (by rw [List.append_nil]; exact post a acts done)

end Does

/-- Where a program that starts at the statement `k` ends, if it returns, is related to its
value. -/
def Takes (k : Nat) (x : Run repr shared α) (N : α → Nat → Prop) : Prop :=
  Triple (fun w => w.clock = k) x (fun a w => N a w.clock) fun _ _ => True

namespace Takes

variable {x : Run repr shared α} {N O : α → Nat → Prop} {k : Nat}

theorem imp (takes : Takes k x N) (post : ∀ a last, N a last → O a last) : Takes k x O :=
  takes.imp_post fun a w => post a w.clock

theorem pure {a : α} (post : N a k) : Takes k (Pure.pure a : Run repr shared α) N := by
  rintro w rfl
  exact post

theorem throw {e : Raised} : Takes k (MonadExcept.throw e : Run repr shared α) N :=
  fun _ _ => trivial

theorem ite {c : Prop} [Decidable c] {y : Run repr shared α} (yes : c → Takes k x N)
    (no : ¬ c → Takes k y N) : Takes k (if c then x else y) N :=
  Triple.ite yes no

theorem bind {f : α → Run repr shared β} {T : β → Nat → Prop} (first : Takes k x N)
    (rest : ∀ a mid, N a mid → Takes mid (f a) T) : Takes k (x >>= f) T :=
  Triple.bind first fun a w follows => rest a w.clock follows w rfl

/-- A program whose end is known, and then another one. -/
theorem onwards {f : α → Run repr shared β} {mid : Nat} {T : β → Nat → Prop}
    (first : Takes k x fun _ last => last = mid) (rest : ∀ a, Takes mid (f a) T) :
    Takes k (x >>= f) T :=
  first.bind fun a _ same => same ▸ rest a

/-- What the value of a program that returns has to do with where it ends. -/
theorem of_run {a : α} {w : World repr shared} (takes : Takes 0 x N)
    (returned : x (.start repr shared) = .ok a w) : N a w.clock :=
  takes.of_ok rfl returned

end Takes

end Rules

section Statements

variable {repr : Json → String} {shared : MessageStore} {env : Environment}

theorem acts_others (operations : List MessageStore.Operation) (w : World repr shared) :
    (operations.foldl (fun w operation => w.act (.others operation)) w).acts =
      w.acts ++ operations.map .others := by
  induction operations generalizing w with
  | nil => exact (List.append_nil _).symm
  | cons operation rest ih =>
      rw [List.foldl_cons, ih, World.act, List.append_assoc, List.map_cons]
      rfl

theorem own_others (operations : List MessageStore.Operation) :
    own (operations.map .others) = [] := by
  rw [own, List.filter_eq_nil_iff]
  rintro act member own
  obtain ⟨operation, -, rfl⟩ := List.mem_map.mp member
  cases own

theorem does_moment :
    Does env (moment env : Run repr shared Nat) fun _ acts => acts = [] ∧ True := by
  rintro before w rfl
  refine ⟨_, ⟨acts_others _ w, ?_⟩, own_others _, trivial⟩
  intro operation member
  obtain ⟨other, inside, ⟨⟩⟩ := List.mem_map.mp member
  exact ⟨w.clock, inside⟩

theorem does_act {act : Act} (mine : act.isOwn = true) :
    Does env (modify fun w => w.act act : Run repr shared PUnit) fun _ acts => acts = [act] := by
  rintro before w rfl
  refine ⟨[act], ⟨rfl, ?_⟩, List.filter_cons_of_pos mine⟩
  intro operation member
  rw [← List.mem_singleton.mp member] at mine
  cases mine

theorem does_agents : Does env (agents env : Run repr shared (List String))
    fun names acts => acts = [] ∧ ∃ k, names = env.agents k :=
  does_moment.quiet fun k _ => .pure ⟨rfl, k, rfl⟩

theorem does_isRegistered {name : String} : Does env (isRegistered env name : Run repr shared Bool)
    fun known acts => acts = [] ∧ ∃ k, known = decide (name ∈ env.agents k) :=
  does_moment.quiet fun k _ => .pure ⟨rfl, k, rfl⟩

/-- The name was registered at some statement. -/
def Known (env : Environment) (name : String) : Prop := ∃ k, name ∈ env.agents k

theorem does_missing {names : List String} :
    Does env (missing env names : Run repr shared (List String))
      fun unknown acts => acts = [] ∧ (unknown = [] → ∀ name ∈ names, Known env name) := by
  induction names with
  | nil => exact .pure ⟨rfl, by simp⟩
  | cons name rest ih =>
      refine does_isRegistered.quiet ?_
      rintro _ ⟨k, rfl⟩
      refine ih.quiet fun later others => .pure ⟨rfl, ?_⟩
      by_cases known : name ∈ env.agents k
      · rw [if_pos (decide_eq_true known)]
        intro none
        exact List.forall_mem_cons.mpr ⟨⟨k, known⟩, others none⟩
      · rw [if_neg (by simpa using known)]
        intro none
        cases none

theorem does_policy : Does env (policy env : Run repr shared (Option ContextPolicy))
    fun policy acts => acts = [] ∧ ∃ k, policy = env.policy k :=
  does_moment.quiet fun k _ => .pure ⟨rfl, k, rfl⟩

/-- The bound on the characters is that of the policy at some statement. -/
def Bound (env : Environment) (maxChars : Option Int) : Prop :=
  ∃ k, maxChars = (env.policy k).bind ContextPolicy.maxChars

theorem does_maxChars : Does env (maxChars env : Run repr shared (Option Int))
    fun maxChars acts => acts = [] ∧ Bound env maxChars := by
  refine does_policy.quiet ?_
  rintro _ ⟨k, rfl⟩
  exact .pure ⟨rfl, k, rfl⟩

theorem does_record {role : String} {content : Json} {agent : Option String} :
    Does env (record env role content agent : Run repr shared Unit)
      fun _ acts => acts = [.record role content agent] :=
  does_moment.quiet fun _ _ => does_act rfl

theorem does_callAgent {agent : String} {message : Json} {timeout : Option ℚ} :
    Does env (callAgent env agent message timeout : Run repr shared Json)
      fun _ acts => acts = [.ask agent message none] := by
  refine does_moment.quiet fun k _ => (does_act rfl).acting fun _ => ?_
  split
  · exact .pure rfl
  · exact .throw

/-- What is recorded of a response. -/
def spoken (response content : Json) (agent : String) : List Act :=
  if isError response then [] else [.record "assistant" content (some agent)]

theorem does_recordSound {response content : Json} {agent : String} :
    Does env (recordSound env response content agent : Run repr shared Unit)
      fun _ acts => acts = spoken response content agent := by
  refine .ite (fun error => .pure ?_) fun sound => does_record.imp fun _ _ same => ?_
  · rw [spoken, if_pos error]
  · rw [spoken, if_neg sound, same]

/-- What is recorded of the responses of a round. -/
def spokenAll (responses : Dict String Json) : List Act :=
  responses.entries.flatMap fun entry => spoken entry.2 entry.2 entry.1

theorem does_recordAll {responses : Dict String Json} :
    Does env (recordAll env responses.entries : Run repr shared Unit)
      fun _ acts => acts = spokenAll responses := by
  rw [spokenAll]
  induction responses.entries with
  | nil => exact .pure rfl
  | cons entry rest ih =>
      refine does_recordSound.acting fun _ => ih.imp fun _ acts same => ?_
      rw [same, List.flatMap_cons]

theorem does_askAll {message : Json} {contexts : String → Option (List ChatMessage)}
    {targets : List String} : Does env (askAll message contexts targets : Run repr shared Unit)
      fun _ acts => acts = targets.map fun agent => .ask agent message (contexts agent) := by
  induction targets with
  | nil => exact .pure rfl
  | cons agent rest ih =>
      refine (does_act rfl).acting fun _ => ih.imp fun _ acts same => ?_
      rw [same]
      rfl

theorem keys_responsesOf {results : Dict String (Parallel.Answer Json)} :
    (responsesOf results).keys = results.keys := by
  rw [Dict.keys, responsesOf, List.map_map]
  rfl

/-- Every agent that is registered is asked and has a response, in the order of registration. -/
theorem does_parallel {message : Json} {contexts : String → Option (List ChatMessage)}
    {timeout : Option ℚ} :
    Does env (parallel env message contexts timeout : Run repr shared (Dict String Json))
      fun responses acts =>
        acts = (responses.keys.map fun agent => .ask agent message (contexts agent)) ∧
          ∃ k, responses.keys = env.agents k := by
  refine does_moment.quiet fun k _ => does_askAll.acting fun _ => ?_
  split
  · rename_i results notes ended
    have keys : (responsesOf results).keys = env.agents k :=
      keys_responsesOf.trans (Parallel.keys_of_ok (env.distinct k) ended)
    refine .pure ⟨?_, k, keys⟩
    rw [List.append_nil, keys]
  · exact .throw

theorem clock_others (operations : List MessageStore.Operation) (w : World repr shared) :
    (operations.foldl (fun w operation => w.act (.others operation)) w).clock = w.clock := by
  induction operations generalizing w with
  | nil => rfl
  | cons operation rest ih =>
      rw [List.foldl_cons, ih]
      rfl

variable {k : Nat}

theorem takes_moment :
    Takes k (moment env : Run repr shared Nat) fun a last => a = k ∧ last = k + 1 := by
  rintro w rfl
  exact ⟨rfl, congrArg (· + 1) (clock_others _ w)⟩

theorem takes_act {act : Act} :
    Takes k (modify fun w => w.act act : Run repr shared PUnit) fun _ last => last = k := by
  rintro w rfl
  rfl

theorem takes_maxChars :
    Takes k (maxChars env : Run repr shared (Option Int)) fun _ last => last = k + 1 := by
  refine Takes.bind (takes_moment.bind ?_) fun _ _ last => .pure last
  rintro _ _ ⟨-, rfl⟩
  exact .pure rfl

theorem takes_record {role : String} {content : Json} {agent : Option String} :
    Takes k (record env role content agent : Run repr shared Unit) fun _ last => last = k + 1 := by
  refine takes_moment.bind ?_
  rintro _ _ ⟨-, rfl⟩
  exact takes_act

theorem takes_recordSound {response content : Json} {agent : String} :
    Takes k (recordSound env response content agent : Run repr shared Unit)
      fun _ last => last = k + (spoken response content agent).length := by
  refine .ite (fun error => .pure ?_) fun sound => takes_record.imp fun _ _ last => ?_
  · rw [spoken, if_pos error, List.length_nil, Nat.add_zero]
  · rw [spoken, if_neg sound, List.length_singleton, last]

/-- Each response that is recorded takes a statement. -/
theorem takes_recordAll {responses : Dict String Json} :
    Takes k (recordAll env responses.entries : Run repr shared Unit)
      fun _ last => last = k + (spokenAll responses).length := by
  rw [spokenAll]
  induction responses.entries generalizing k with
  | nil => exact .pure rfl
  | cons entry rest ih =>
      refine takes_recordSound.onwards fun _ => ih.imp fun _ _ last => ?_
      rw [last, List.flatMap_cons, List.length_append, Nat.add_assoc]

theorem takes_askAll {message : Json} {contexts : String → Option (List ChatMessage)}
    {targets : List String} : Takes k (askAll message contexts targets : Run repr shared Unit)
      fun _ last => last = k := by
  induction targets with
  | nil => exact .pure rfl
  | cons agent rest ih => exact takes_act.onwards fun _ => ih

/-- The agents that are asked are those of the statement that asks them. -/
theorem takes_parallel {message : Json} {contexts : String → Option (List ChatMessage)}
    {timeout : Option ℚ} :
    Takes k (parallel env message contexts timeout : Run repr shared (Dict String Json))
      fun responses last => responses.keys = env.agents k ∧ last = k + 1 := by
  refine takes_moment.bind ?_
  rintro _ _ ⟨rfl, rfl⟩
  refine takes_askAll.onwards fun _ => ?_
  split
  · rename_i results notes ended
    exact .pure ⟨keys_responsesOf.trans (Parallel.keys_of_ok (env.distinct _) ended), rfl⟩
  · exact .throw

/-- What a program that returns has done in a run of its own. -/
theorem Does.of_run {α : Type} {x : Run repr shared α} {Q : α → List Act → Prop} {a : α}
    {w : World repr shared} (does : Does env x Q) (returned : x (.start repr shared) = .ok a w) :
    Q a (own w.acts) := by
  obtain ⟨more, added, done⟩ := (does []).of_ok rfl returned
  rw [added.eq]
  exact done

end Statements

section Duo

/-- Two agents, the second of which fails. -/
def duo : Environment where
  others _ := []
  agents _ := ["a", "b"]
  distinct _ := by decide
  capabilities _ _ := none
  policy _ := none
  calls _ :=
    { runDeadline := none
      now := fun _ => 0
      rounded := id
      longest := 9223372036
      submit := fun _ => .accepted
      blocks := fun _ => false
      done := fun _ _ => true
      outcome := fun agent =>
        .value (if agent = "a" then .str "better" else .obj [("error", .str "offline")]) }
  depth := 900
  schedule _ := []

theorem collect_duo {s : Parallel.State Json} :
    Parallel.collect (duo.calls 0) none 2 s ["a", "b"] =
      .ok (⟨(s.results.set "a" (.value (.str "better"))).set "b"
        (.value (.obj [("error", .str "offline")])), s.notes⟩, []) := by
  rw [Parallel.collect, if_neg (by simp [Parallel.expired]),
    if_neg (by simp [Parallel.tooLong, Parallel.finished, duo]),
    if_neg (by simp [Parallel.finished, duo])]
  change Parallel.collect _ _ _ _ [] = _
  rw [Parallel.collect, if_pos (.inl rfl)]
  rfl

theorem ended_duo {k : Nat} : Parallel.parallel (duo.calls k) (duo.agents k) none =
    .ok ((Dict.empty.set "a" (.value (.str "better"))).set "b"
      (.value (.obj [("error", .str "offline")])), []) := by
  change (Parallel.collect (duo.calls 0) none 2 _ ["a", "b"] >>= _) = _
  rw [collect_duo]
  rfl

end Duo

end Strategies

end MultiAgent.Plugin
