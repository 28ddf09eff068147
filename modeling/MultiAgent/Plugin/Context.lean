import MultiAgent.Plugin.Memory
import MultiAgent.Plugin.Options

/-!
# What an agent sees of a discussion

`MessageStore.to_chat` of `memory.py` and `build_context` of `context.py`, which project
messages on their own paths. Both are the same projection of the messages that are left
after filtering, in this order: the leading copy of the prompt, the window, the agent's own
statements (`buildContext_projects`).
-/

namespace MultiAgent.Plugin

/-- A message in the format of a chat request. -/
structure ChatMessage where
  role : String
  content : String
  deriving DecidableEq

/-- The role of a message, if it is one of the three roles of a chat. -/
def chatRole (message : Object) : Option String :=
  match Object.get message "role" with
  | .str role => if role ∈ ["user", "assistant", "system"] then some role else none
  | _ => none

/-- The message is one of a chat. -/
def isChat (message : Object) : Bool := (chatRole message).isSome

section Projections

variable (repr : Json → String)

/-- `str(m.get("content", ""))` -/
def contentOf (message : Object) : String :=
  (Object.getD message "content" (.str "")).toStr repr

/-- `f"[{m['agent']}]: {content}"` -/
def speaking (message : Object) (content : String) : String :=
  "[" ++ (Object.get message "agent").toStr repr ++ "]: " ++ content

/-- `to_chat` -/
def MessageStore.toChat (store : MessageStore) (limit : Option Int) (withSpeaker : Bool) :
    List ChatMessage :=
  let msgs :=
    match limit with
    | none => store.messages
    | some limit => store.recent limit
  msgs.filterMap fun m =>
    (chatRole m).map fun role =>
      let content := contentOf repr m
      if withSpeaker = true ∧ role = "assistant" ∧ (Object.get m "agent").truthy = true then
        ⟨role, speaking repr m content⟩
      else ⟨role, content⟩

/-- All switches are off. -/
def ContextPolicy.default : ContextPolicy := ⟨none, none, false⟩

def ellipsis : String := "…"

/-- `truncate` of a text. -/
def truncate (text : String) (maxChars : Option Int) : String :=
  match maxChars with
  | none => text
  | some maxChars =>
    let limit := max 0 maxChars
    if text.length ≤ limit then text else String.ofList (text.toList.take limit.toNat) ++ ellipsis

/-- `_project_message` -/
def projectMessage (msg : Object) : ChatMessage :=
  let role := (chatRole msg).getD ""
  let content := contentOf repr msg
  if role = "assistant" ∧ (Object.get msg "agent").truthy = true then
    ⟨role, speaking repr msg content⟩
  else ⟨role, content⟩

/-- The test for a copy of the prompt. -/
def isCopy (prompt : Json) (msg : Object) : Bool :=
  (Object.get msg "role").isText "user" && decide (contentOf repr msg = prompt.toStr repr)

/-- The test for a statement of the agent itself. -/
def isOwn (policy : ContextPolicy) (agentName : Option String) (msg : Object) : Bool :=
  match agentName with
  | some name => policy.hideOwnStatements && (Object.get msg "role").isText "assistant" &&
    (Object.get msg "agent").isText name
  | none => false

/-- `build_context` -/
def buildContext (prompt : Json) (messages : List Object) (policy : Option ContextPolicy)
    (agentName : Option String) : List ChatMessage :=
  let first : ChatMessage := ⟨"user", prompt.toStr repr⟩
  let history := messages.filter isChat
  let history :=
    match history with
    | [] => []
    | msg :: rest => if isCopy repr prompt msg then rest else msg :: rest
  match policy with
  | none => first :: history.map (projectMessage repr)
  | some policy =>
    let history :=
      match policy.window with
      | none => history
      | some window => if 0 < max 0 window then sliceFrom (-max 0 window) history else []
    first :: history.filterMap fun msg =>
      if isOwn policy agentName msg then none
      else
        let role := (chatRole msg).getD ""
        let content := truncate (contentOf repr msg) policy.maxChars
        if role = "assistant" ∧ (Object.get msg "agent").truthy = true then
          some ⟨role, speaking repr msg content⟩
        else some ⟨role, content⟩

/-- What `run_debate` shows to a debater. -/
def debateContext (store : MessageStore) (prompt : Json) (policy : Option ContextPolicy)
    (name : String) : List ChatMessage :=
  match policy with
  | some policy => buildContext repr prompt store.messages (some policy) (some name)
  | none => store.toChat repr none true

/-- The last of the messages, all of them without a window. -/
def lastOf (window : Option Int) (messages : List Object) : List Object :=
  match window with
  | none => messages
  | some window => messages.rtake window.toNat

/-- The messages without the first one of a chat, if that is a copy of the prompt. -/
def withoutCopy (prompt : Json) : List Object → List Object
  | [] => []
  | m :: rest =>
    if isChat m then if isCopy repr prompt m then rest else m :: rest
    else m :: withoutCopy prompt rest

/-- A message as it is sent: cut off, then with its speaker. -/
def project (maxChars : Option Int) (msg : Object) : ChatMessage where
  role := (chatRole msg).getD ""
  content :=
    if chatRole msg = some "assistant" ∧ (Object.get msg "agent").truthy = true then
      speaking repr msg (truncate (contentOf repr msg) maxChars)
    else truncate (contentOf repr msg) maxChars

end Projections

section Agreement

variable {repr : Json → String} {prompt : Json} {messages : List Object} {msg : Object}

theorem filter_withoutCopy : (withoutCopy repr prompt messages).filter isChat =
    match messages.filter isChat with
    | [] => []
    | msg :: rest => if isCopy repr prompt msg then rest else msg :: rest := by
  induction messages with
  | nil => rfl
  | cons m rest ih =>
      rw [withoutCopy]
      by_cases chat : isChat m = true
      · rw [if_pos chat, List.filter_cons_of_pos chat]
        dsimp only
        split
        · rfl
        · rw [List.filter_cons_of_pos chat]
      · rw [if_neg chat, List.filter_cons_of_neg chat, List.filter_cons_of_neg chat, ih]

/-- The message as each of the three paths projects it. -/
theorem project_eq (chat : isChat msg = true) {maxChars : Option Int} :
    some (project repr maxChars msg) =
      (chatRole msg).map fun role =>
        if role = "assistant" ∧ (Object.get msg "agent").truthy = true then
          ⟨role, speaking repr msg (truncate (contentOf repr msg) maxChars)⟩
        else ⟨role, truncate (contentOf repr msg) maxChars⟩ := by
  obtain ⟨role, found⟩ := Option.isSome_iff_exists.mp chat
  rw [project, found, Option.map_some, Option.getD_some]
  by_cases speaks : role = "assistant" ∧ (Object.get msg "agent").truthy = true
  · rw [if_pos speaks, if_pos (speaks.imp_left (congrArg some))]
  · rw [if_neg speaks, if_neg fun named => speaks (named.imp_left Option.some.inj)]

theorem projectMessage_eq (chat : isChat msg = true) :
    projectMessage repr msg = project repr none msg := by
  obtain ⟨role, found⟩ := Option.isSome_iff_exists.mp chat
  refine Option.some.inj (.trans ?_ (project_eq chat).symm)
  rw [projectMessage, found]
  rfl

theorem lastOf_suffix {window : Option Int} : lastOf window messages <:+ messages := by
  cases window with
  | none => exact List.suffix_refl messages
  | some window => exact List.drop_suffix _ messages

theorem lastOf_eq {window : Option Int} :
    (match window with
    | none => messages
    | some window => if 0 < max 0 window then sliceFrom (-max 0 window) messages else []) =
      lastOf window messages := by
  cases window with
  | none => rfl
  | some window =>
      rw [lastOf]
      dsimp only
      split
      · rename_i positive
        rw [sliceFrom_neg positive]
        congr 1
        omega
      · rename_i none_
        have zero : window.toNat = 0 := by omega
        rw [zero, List.rtake_zero]

/-- `to_chat` with speakers is the projection without a bound. -/
theorem toChat_eq (store : MessageStore) :
    store.toChat repr none true = (store.messages.filter isChat).map (project repr none) := by
  rw [MessageStore.toChat]
  dsimp only
  induction store.messages with
  | nil => rfl
  | cons m rest ih =>
      by_cases chat : isChat m = true
      · rw [List.filter_cons_of_pos chat, List.map_cons, ← ih]
        refine List.filterMap_cons_some (.trans ?_ (project_eq chat).symm)
        simp only [true_and, truncate]
      · have other : chatRole m = none := by simpa [isChat] using chat
        rw [List.filter_cons_of_neg chat, ← ih]
        refine List.filterMap_cons_none ?_
        rw [other, Option.map_none]

/-- With a policy: the window first, then the agent's own statements, then each content. -/
theorem buildContext_policy (policy : ContextPolicy) (agentName : Option String) :
    buildContext repr prompt messages (some policy) agentName =
      ⟨"user", prompt.toStr repr⟩ ::
        ((lastOf policy.window ((withoutCopy repr prompt messages).filter isChat)).filter
          fun msg => !isOwn policy agentName msg).map (project repr policy.maxChars) := by
  rw [buildContext]
  dsimp only
  rw [lastOf_eq, ← filter_withoutCopy, ← List.filterMap_eq_map, List.filterMap_filter]
  congr 1
  refine List.filterMap_congr fun msg member => ?_
  have chat : isChat msg = true := (List.mem_filter.mp (lastOf_suffix.subset member)).2
  cases isOwn policy agentName msg with
  | true => rfl
  | false =>
      obtain ⟨role, found⟩ := Option.isSome_iff_exists.mp chat
      refine .trans ?_ (project_eq chat).symm
      rw [found, Option.map_some, Option.getD_some, apply_ite some]
      rfl

theorem buildContext_none (agentName : Option String) :
    buildContext repr prompt messages none agentName = ⟨"user", prompt.toStr repr⟩ ::
      ((withoutCopy repr prompt messages).filter isChat).map (project repr none) := by
  rw [buildContext, ← filter_withoutCopy]
  congr 1
  exact List.map_congr_left fun msg member => projectMessage_eq (List.mem_filter.mp member).2

theorem buildContext_default (agentName : Option String) :
    buildContext repr prompt messages (some .default) agentName =
      buildContext repr prompt messages none agentName := by
  have nothing_own : (fun msg => !isOwn .default agentName msg) = fun _ => true := by
    funext msg
    cases agentName <;> rfl
  rw [buildContext_none, buildContext_policy, nothing_own, List.filter_true]
  rfl

/-- The context starts with the prompt. Behind it are the last messages of a chat, without the
leading copy of the prompt and then without the agent's own statements, each cut off before its
speaker is named. Without a policy, or with one that asks for nothing, that is the prompt and
what the store shows of the messages without the leading copy. -/
theorem buildContext_projects (repr : Json → String) (prompt : Json) (messages : List Object)
    (agentName : Option String) :
    (∀ policy : ContextPolicy, buildContext repr prompt messages (some policy) agentName =
      ⟨"user", prompt.toStr repr⟩ ::
        ((lastOf policy.window ((withoutCopy repr prompt messages).filter isChat)).filter
          fun msg => !isOwn policy agentName msg).map (project repr policy.maxChars)) ∧
      ∀ store : MessageStore,
        buildContext repr prompt messages none agentName = ⟨"user", prompt.toStr repr⟩ ::
            { store with messages := withoutCopy repr prompt messages }.toChat repr none true ∧
          buildContext repr prompt messages (some .default) agentName =
            buildContext repr prompt messages none agentName := by
  refine ⟨fun policy => buildContext_policy policy agentName, fun store => ?_⟩
  rw [toChat_eq]
  exact ⟨buildContext_none agentName, buildContext_default agentName⟩

/-- A debate shows the same with a policy that asks for nothing as without one, as long as the
prompt is the first message of the chat that is stored. -/
theorem debateContext_default {store : MessageStore} {rest : List Object}
    (starts : store.messages.filter isChat = msg :: rest) (copy : isCopy repr prompt msg = true)
    (name : String) :
    debateContext repr store prompt (some .default) name =
      debateContext repr store prompt none name := by
  have first : project repr none msg = ⟨"user", prompt.toStr repr⟩ := by
    rw [isCopy, Bool.and_eq_true, decide_eq_true_iff] at copy
    have user : chatRole msg = some "user" := by
      obtain ⟨role, -⟩ := copy
      rw [chatRole]
      cases given : Object.get msg "role" with
      | str text =>
          rw [given] at role
          obtain rfl : text = "user" := of_decide_eq_true role
          rfl
      | _ =>
          rw [given] at role
          cases role
    rw [project, user]
    simp [truncate, copy.2]
  have left : (withoutCopy repr prompt store.messages).filter isChat = rest := by
    rw [filter_withoutCopy, starts]
    exact if_pos copy
  rw [debateContext, debateContext, buildContext_default, buildContext_none, toChat_eq, left,
    starts, List.map_cons, first]

end Agreement

end MultiAgent.Plugin
