import MultiAgent.Foundations.Dict
import MultiAgent.Plugin.Agents

/-!
# Register events

The register branch of the dispatcher, over the registry of a coordinator and with the
factory of the package behind it. The branch checks the kind that a configuration
declares, and the factory goes by a kind that it may read or infer elsewhere; `Smuggles`
is what comes between the two.
-/

namespace MultiAgent.Plugin

/-- The registry of a coordinator, with what it went through. -/
structure AgentCoordinator where
  agents : Dict String Agent
  /-- The agents that `register_agent` put into the registry, oldest first. -/
  registered : List Agent

namespace AgentCoordinator

def put (coord : AgentCoordinator) (agent : Agent) : AgentCoordinator where
  agents := coord.agents.set agent.name agent
  registered := coord.registered ++ [agent]

def registerAgent (coord : AgentCoordinator) (agent : Agent) (replace : Bool) :
    Except String AgentCoordinator :=
  if (coord.agents.get? agent.name).isSome && !replace then
    .error s!"agent '{agent.name}' already registered"
  else .ok (coord.put agent)

theorem registered_foldl_put {coord : AgentCoordinator} {built : List Agent} :
    (built.foldl put coord).registered = coord.registered ++ built := by
  induction built generalizing coord with
  | nil => simp
  | cons agent rest ih =>
      rw [List.foldl_cons, ih]
      simp [put]

/-- The agent was put into the registry between the two states. -/
def Registers (before after : AgentCoordinator) (agent : Agent) : Prop :=
  ∃ earlier later, after.registered = before.registered ++ (earlier ++ agent :: later)

theorem registers_foldl_put_iff {coord : AgentCoordinator} {built : List Agent} {agent : Agent} :
    Registers coord (built.foldl put coord) agent ↔ agent ∈ built := by
  unfold Registers
  rw [registered_foldl_put, List.mem_iff_append]
  apply exists_congr
  intro earlier
  apply exists_congr
  intro later
  exact List.append_right_inj _

theorem not_registers_self {coord : AgentCoordinator} {agent : Agent} :
    ¬ Registers coord coord agent := by
  rintro ⟨earlier, later, same⟩
  have sizes := congrArg List.length same
  simp at sizes

end AgentCoordinator

namespace DeepseekAdapter

open AgentCoordinator AgentFactory

variable {adapter : DeepseekAdapter AgentCoordinator Agent} {before coord : AgentCoordinator}
  {cfg : Json} {configs : List Json} {event : Object}

/-- The adapter over the registry and the factory of the package. -/
def withFactory (adapter : DeepseekAdapter AgentCoordinator Agent) :
    DeepseekAdapter AgentCoordinator Agent :=
  { adapter with
    coordinators :=
      { adapter.coordinators with
        agents := fun coord => coord.agents.values
        name := fun agent => .str agent.name
        fromConfig := fromConfig adapter.str
        registerAgent := fun coord agent => coord.registerAgent agent true } }

/-- What the event gives as its agents. -/
def configurations (event : Object) : Option (List Json) :=
  elements (event.getD "agents" (.arr []))

/-- The kind that the configuration declares can be read, and is not restricted. -/
def Passes (adapter : DeepseekAdapter AgentCoordinator Agent) (cfg : Json) : Prop :=
  ∃ declared, adapter.declaredKind cfg = .ok declared ∧ adapter.restricted declared = false

/-- The configuration is turned away: by the check of its kind, or by the factory. -/
def Rejects (adapter : DeepseekAdapter AgentCoordinator Agent) (cfg : Json) : Prop :=
  ¬ adapter.Passes cfg ∨ ¬ Accepts adapter.str cfg

/-- The list of configurations is turned away. -/
def Refuses (adapter : DeepseekAdapter AgentCoordinator Agent) (configs : List Json) : Prop :=
  maxRegisterAgents < configs.length ∨ ∃ cfg ∈ configs, adapter.Rejects cfg

theorem restricted_iff {kind : String} :
    adapter.restricted kind = true ↔
      kind ∈ optInRegisterKinds ∧ kind ∉ adapter.allowedRegisterKinds := by
  simp [restricted]

theorem findRestricted_eq_none_iff :
    adapter.findRestricted configs = .ok none ↔ ∀ cfg ∈ configs, adapter.Passes cfg := by
  induction configs with
  | nil => simp [findRestricted]
  | cons cfg rest ih =>
      unfold findRestricted
      rw [bind_eq_ok_iff, List.forall_mem_cons, ← ih, Passes]
      constructor
      · rintro ⟨declared, read, passed⟩
        cases denied : adapter.restricted declared with
        | true => simp [denied, pure, Except.pure] at passed
        | false => exact ⟨⟨declared, read, denied⟩, by simpa [denied] using passed⟩
      · rintro ⟨⟨declared, read, denied⟩, passed⟩
        exact ⟨declared, read, by simpa [denied] using passed⟩

theorem findRestricted_withFactory :
    adapter.withFactory.findRestricted configs = adapter.findRestricted configs := by
  induction configs with
  | nil => rfl
  | cons cfg rest ih =>
      unfold findRestricted
      rw [ih]
      rfl

theorem registerAll_withFactory {built : List Agent} :
    adapter.withFactory.registerAll coord built =
      (built.foldl put coord, .ok (built.map fun agent => .str agent.name)) := by
  induction built generalizing coord with
  | nil => rfl
  | cons agent rest ih =>
      have put : adapter.withFactory.coordinators.registerAgent coord agent =
          .ok (coord.put agent) := by
        simp [withFactory, registerAgent]
      unfold registerAll
      simp only [put, ih]
      rfl

theorem register_none (given : configurations event = none) :
    (adapter.withFactory.register before event).1 = before := by
  unfold configurations at given
  simp [register, given]

/-- The factory is asked for every configuration, or for none. -/
theorem not_refuses_iff :
    ¬ adapter.Refuses configs ↔ configs.length ≤ maxRegisterAgents ∧
      adapter.findRestricted configs = .ok none ∧
      (configs.mapM (fromConfig adapter.str)).isOk := by
  rw [findRestricted_eq_none_iff, isOk_mapM_iff]
  simp only [Refuses, Rejects, fromConfig_isOk_iff]
  push Not
  exact and_congr_right fun _ => forall₂_and

/-- A list that is refused leaves the registry alone. -/
theorem register_refused (given : configurations event = some configs)
    (refused : adapter.Refuses configs) :
    (adapter.withFactory.register before event).1 = before := by
  unfold configurations at given
  unfold register
  simp only [given, findRestricted_withFactory]
  split_ifs with long
  · rfl
  cases found : adapter.findRestricted configs with
  | error text => rfl
  | ok declared =>
      cases declared with
      | some declared => rfl
      | none =>
          cases built : configs.mapM (fromConfig adapter.str) with
          | error text => simp [withFactory, built]
          | ok agents =>
              exfalso
              apply not_refuses_iff.mpr _ refused
              exact ⟨Nat.le_of_not_lt long, found, isOk_iff.mpr ⟨agents, built⟩⟩

/-- A list that is not refused is registered as a whole. -/
theorem register_built (given : configurations event = some configs)
    (kept : ¬ adapter.Refuses configs) :
    ∃ built, configs.mapM (fromConfig adapter.str) = .ok built ∧
      (adapter.withFactory.register before event).1 = built.foldl put before := by
  obtain ⟨short, passed, succeeds⟩ := not_refuses_iff.mp kept
  obtain ⟨built, computed⟩ := isOk_iff.mp succeeds
  refine ⟨built, computed, ?_⟩
  have computed : configs.mapM adapter.withFactory.coordinators.fromConfig = .ok built := computed
  unfold configurations at given
  unfold register
  simp only [given, Nat.not_lt.mpr short, if_false, findRestricted_withFactory, passed, computed,
    registerAll_withFactory]

/-- What a register event may do to the registry: no agent of an opt-in kind gets in
without a permission, and if one configuration is turned away the registry stays as it
was; it gets all the agents or none. -/
structure SafeRegistration (adapter : DeepseekAdapter AgentCoordinator Agent)
    (before : AgentCoordinator) (event : Object) : Prop where
  allowed : ∀ agent, Registers before (adapter.withFactory.register before event).1 agent →
    agent.backend.kind ∈ optInRegisterKinds → agent.backend.kind ∈ adapter.allowedRegisterKinds
  nothing : ∀ configs cfg, configurations event = some configs → cfg ∈ configs →
    ¬ adapter.Passes cfg ∨ (fromConfig adapter.str cfg).isOk = false →
    (adapter.withFactory.register before event).1 = before
  whole : (adapter.withFactory.register before event).1 = before ∨
    ∃ configs built, configurations event = some configs ∧
      configs.mapM (fromConfig adapter.str) = .ok built ∧
      (adapter.withFactory.register before event).1 = built.foldl put before

/-- The configuration gives the factory an opt-in kind that needs a permission, but not
as the kind of a dict. -/
def Smuggles (adapter : DeepseekAdapter AgentCoordinator Agent) (cfg : Json) : Prop :=
  ∃ keywords kind, Keywords.ofJson cfg = .ok keywords ∧
    lowered (kindOf keywords.entries) = .ok kind ∧ adapter.restricted kind = true ∧
    ∀ fields, cfg = .obj fields → (Object.get fields "kind").isNull

/-- The kind that a dict declares and the one that the factory goes by are the same, if
the latter is an opt-in kind. -/
theorem declaredKind_of_lowered {fields : Object} {kind : String}
    (given : lowered (Object.get fields "kind") = .ok kind) (optIn : kind ∈ optInRegisterKinds) :
    adapter.declaredKind (.obj fields) = .ok kind := by
  obtain ⟨text, shape, rfl⟩ | rfl := lowered_eq_ok given
  · have solid : ∀ kind ∈ optInRegisterKinds, ∀ c ∈ kind.toList, isSpace c = false := by
      simp only [← List.forall_iff_forall_mem]
      decide
    have unpadded : strip text = text := strip_eq_self (solid_of_lower (solid _ optIn))
    have nonempty : text.isEmpty = false := by
      rw [Bool.eq_false_iff]
      intro empty
      rw [String.isEmpty_iff.mp empty] at optIn
      exact absurd optIn (by decide)
    simp [declaredKind, shape, Json.truthy, nonempty, str, Except.map, unpadded]
  · exact absurd optIn (by decide)

theorem not_passes_of_restricted {kind : String} (declared : adapter.declaredKind cfg = .ok kind)
    (restricted : adapter.restricted kind = true) : ¬ adapter.Passes cfg := by
  rintro ⟨other, read, free⟩
  rw [declared] at read
  cases read
  rw [restricted] at free
  cases free

/-- An agent of a restricted kind that was built past the check was smuggled. -/
theorem smuggles_of_built {agent : Agent} (passed : adapter.Passes cfg)
    (built : fromConfig adapter.str cfg = .ok agent)
    (restricted : adapter.restricted agent.backend.kind = true) : adapter.Smuggles cfg := by
  obtain ⟨keywords, copied, lower⟩ := fromConfig_kind agent built
  refine ⟨keywords, agent.backend.kind, copied, lower, restricted, ?_⟩
  rintro fields rfl
  cases copied
  cases missing : (Object.get fields "kind").isNull with
  | true => rfl
  | false =>
      exfalso
      have optIn : agent.backend.kind ∈ optInRegisterKinds := (restricted_iff.mp restricted).1
      have declared : lowered (Object.get fields "kind") = .ok agent.backend.kind := by
        simpa [kindOf, missing] using lower
      exact not_passes_of_restricted (declaredKind_of_lowered declared optIn) restricted passed

/-- A register event is safe exactly when none of its configurations smuggles a kind, or
the list is refused for another reason. -/
theorem safeRegistration_iff (adapter : DeepseekAdapter AgentCoordinator Agent)
    (before : AgentCoordinator) (event : Object) :
    SafeRegistration adapter before event ↔
      ∀ configs cfg, configurations event = some configs → cfg ∈ configs →
        adapter.Smuggles cfg → adapter.Refuses configs := by
  constructor
  · intro safe configs cfg given member smuggled
    by_contra kept
    obtain ⟨keywords, kind, copied, lower, restricted, -⟩ := smuggled
    obtain ⟨built, computed, after⟩ := @register_built adapter before _ _ given kept
    obtain ⟨agent, made⟩ : ∃ agent, fromConfig adapter.str cfg = .ok agent :=
      isOk_iff.mp (isOk_mapM_iff.mp (isOk_iff.mpr ⟨built, computed⟩) cfg member)
    have registers : Registers before (adapter.withFactory.register before event).1 agent := by
      rw [after]
      exact registers_foldl_put_iff.mpr ((mem_mapM_iff computed).mpr ⟨cfg, member, made⟩)
    obtain ⟨other, copied', lower'⟩ := fromConfig_kind agent made
    obtain rfl : keywords = other := by simpa [copied] using copied'
    obtain rfl : kind = agent.backend.kind := by simpa [lower] using lower'
    obtain ⟨optIn, denied⟩ := restricted_iff.mp restricted
    exact denied (safe.allowed agent registers optIn)
  · intro clean
    constructor
    · intro agent registers optIn
      by_contra denied
      cases given : configurations event with
      | none => exact not_registers_self (register_none given ▸ registers)
      | some configs =>
          by_cases refused : adapter.Refuses configs
          · exact not_registers_self (register_refused given refused ▸ registers)
          · obtain ⟨built, computed, after⟩ := @register_built adapter before _ _ given refused
            rw [after, registers_foldl_put_iff, mem_mapM_iff computed] at registers
            obtain ⟨cfg, member, made⟩ := registers
            have passed : adapter.Passes cfg :=
              findRestricted_eq_none_iff.mp (not_refuses_iff.mp refused).2.1 cfg member
            have restricted : adapter.restricted agent.backend.kind = true :=
              restricted_iff.mpr ⟨optIn, denied⟩
            exact refused (clean configs cfg given member
              (smuggles_of_built passed made restricted))
    · intro configs cfg given member rejected
      rw [Bool.eq_false_iff, Ne, fromConfig_isOk_iff] at rejected
      exact register_refused given (.inr ⟨cfg, member, rejected⟩)
    · cases given : configurations event with
      | none => exact .inl (register_none given)
      | some configs =>
          by_cases refused : adapter.Refuses configs
          · exact .inl (register_refused given refused)
          · obtain ⟨built, computed, after⟩ := register_built given refused
            exact .inr ⟨configs, built, rfl, computed, after⟩

/-- An adapter that allows the default kinds. -/
def defaultAdapter : DeepseekAdapter AgentCoordinator Agent where
  coordinators :=
    { agents := fun coord => coord.agents.values
      runs := fun _ => 0
      autoStrategy := fun _ => "broadcast"
      name := fun agent => .str agent.name
      describe := fun agent => .obj [("name", .str agent.name)]
      run := fun _ prompt _ _ => .ok [("final", prompt)]
      fromConfig := fun _ => .error ""
      registerAgent := fun coord agent => coord.registerAgent agent true }
  coordinator := ⟨.empty, []⟩
  registry := none
  history := none
  historyPromptLimit := none
  historyFinalLimit := none
  acquire := true
  allowedRegisterKinds := defaultRegisterKinds
  repr := fun _ => .ok ""

def registering (cfg : Json) : Object := [("type", .str "register"), ("agents", .arr [cfg])]

/-- The configuration of a command line agent, as a list of pairs. -/
def pairsConfig : Json :=
  .arr [.arr [.str "name", .str "x"], .arr [.str "kind", .str "cli"],
    .arr [.str "command", .str "id"]]

/-- A configuration with a handler and without a kind. -/
def handlerConfig : Json := .obj [("name", .str "x"), ("handler", .callable 0)]

/-- An empty registry that gets an agent of a restricted kind. -/
theorem unsafe_of_registered {kind : String} (empty : before.registered = [])
    (put : (adapter.withFactory.register before event).1.registered.map (·.backend.kind) = [kind])
    (restricted : adapter.restricted kind = true) : ¬ SafeRegistration adapter before event := by
  intro safe
  obtain ⟨agent, registered, rfl⟩ := List.map_eq_singleton_iff.mp put
  have registers : Registers before (adapter.withFactory.register before event).1 agent :=
    ⟨[], [], by simp [empty, registered]⟩
  obtain ⟨optIn, denied⟩ := restricted_iff.mp restricted
  exact denied (safe.allowed agent registers optIn)

/-- Both get an agent of a kind in that is not allowed. -/
theorem smuggled_registered :
    (defaultAdapter.withFactory.register defaultAdapter.coordinator
        (registering pairsConfig)).1.registered.map (·.backend.kind) = ["cli"] ∧
      ¬ SafeRegistration defaultAdapter defaultAdapter.coordinator (registering pairsConfig) ∧
      ¬ SafeRegistration defaultAdapter defaultAdapter.coordinator
        (registering handlerConfig) := by
  have pairs : (defaultAdapter.withFactory.register defaultAdapter.coordinator
      (registering pairsConfig)).1.registered.map (·.backend.kind) = ["cli"] := by decide +kernel
  have handler : (defaultAdapter.withFactory.register defaultAdapter.coordinator
      (registering handlerConfig)).1.registered.map (·.backend.kind) = ["custom"] := by
    decide +kernel
  exact ⟨pairs, unsafe_of_registered rfl pairs rfl, unsafe_of_registered rfl handler rfl⟩

end DeepseekAdapter

end MultiAgent.Plugin
