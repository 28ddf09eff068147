import MultiAgent.Plugin.Cache
import MultiAgent.Plugin.Json.Text

/-!
# Cached completions

`chat_completion` of `agents.py` with a cache. The server may answer each attempt as it
likes. The digest of the parameters that can change a reply is a parameter, as is the text
of a float; the pauses between attempts are left out.
-/

namespace MultiAgent.Plugin

/-- The arguments that say what is asked for. -/
structure ChatRequest where
  baseUrl : String
  model : String
  messages : Json
  temperature : Option ℚ
  maxTokens : Option Int
  responseFormat : Option Json
  retries : Int

/-- What an attempt comes to: a body that is read as JSON or is not, a status other than
200, a failed connection, or any other exception. -/
inductive HttpResponse where
  | reply (body : Option Json)
  | httpError (code : Nat)
  | unreachable
  | broken (text : String)

structure ReplyUsage where
  promptTokens : Json
  completionTokens : Json
  totalTokens : Json
  cacheHit : Bool

/-- The content, and the usage if it is asked for. -/
structure ChatCompletion where
  content : Json
  usage : Option ReplyUsage

namespace Json

/-- `value[key]` -/
def item (value : Json) (key : String) : Option Json :=
  match value with
  | .obj fields => (fields.find? fun entry => decide (entry.1 = key)).map Prod.snd
  | _ => none

/-- `value[0]` -/
def first : Json → Option Json
  | .arr items => items.head?
  | .str value => value.toList.head?.map fun c => .str (String.singleton c)
  | _ => none

end Json

namespace ChatRequest

/-- The parameters that the digest is over. -/
def fields (r : ChatRequest) : Object :=
  [("provider", .str r.baseUrl), ("model", .str r.model), ("messages", r.messages),
    ("temperature", (r.temperature.map Json.float).getD .null),
    ("max_tokens", (r.maxTokens.map Json.int).getD .null),
    ("response_format", r.responseFormat.getD .null)]

def url (r : ChatRequest) : String :=
  String.ofList (r.baseUrl.toList.rdropWhile fun c => decide (c = '/')) ++ "/chat/completions"

def payload (r : ChatRequest) : Object :=
  [("model", .str r.model), ("messages", r.messages)] ++
    (r.temperature.map fun value => ("temperature", Json.float value)).toList ++
    (r.maxTokens.map fun value => ("max_tokens", Json.int value)).toList ++
    (r.responseFormat.map fun value => ("response_format", value)).toList

end ChatRequest

namespace ChatCompletion

/-- `RETRYABLE_STATUS` -/
def retryableStatus : List Nat := [429, 500, 502, 503, 504]

/-- The attempts from `attempt` on, of which `left` are left: how many attempts there were
in all, and the body. -/
def fetch (server : Nat → HttpResponse) (retries : Int) (attempt : Nat) :
    Nat → Nat × Except String Json
  | 0 => (attempt, .ok (.obj []))
  | left + 1 =>
    match server attempt with
    | .reply (some body) => (attempt + 1, .ok body)
    | .reply none =>
      if attempt < retries then fetch server retries (attempt + 1) left
      else (attempt + 1, .error "JSONDecodeError")
    | .httpError code =>
      if code ∈ retryableStatus ∧ attempt < retries then fetch server retries (attempt + 1) left
      else (attempt + 1, .error s!"HTTP Error {code}")
    | .unreachable =>
      if attempt < retries then fetch server retries (attempt + 1) left
      else (attempt + 1, .error "URLError")
    | .broken text => (attempt + 1, .error text)

variable (floats : Json.Format)

/-- The content of a reply; a body of another shape is the content itself. -/
def contentOf (body : Json) : Except String Json :=
  let content := do
    let choices ← body.item "choices"
    let choice ← choices.first
    let message ← choice.item "message"
    message.item "content"
  match content with
  | some content => .ok content
  | none => (Json.dumps floats body).map fun text => .str (String.ofList text)

/-- The token counts, which are read from an object only. -/
def usageOf (body : Json) : Except String ReplyUsage :=
  match body with
  | .obj fields =>
    match (Object.get fields "usage").orElse (.obj []) with
    | .obj usage =>
      let count (key : String) : Json := (Object.getD usage key (.int 0)).orElse (.int 0)
      .ok ⟨count "prompt_tokens", count "completion_tokens", count "total_tokens", false⟩
    | _ => .error "object has no attribute 'get'"
  | _ => .error "object has no attribute 'get'"

/-- What a hit reports. -/
def cachedUsage : ReplyUsage := ⟨.int 0, .int 0, .int 0, true⟩

variable {κ : Type} [DecidableEq κ] (fingerprint : Object → κ)
variable (server : String → Object → Nat → HttpResponse)

/-- The part of `chat_completion` behind the cache: the attempts, the entry that is put at
the time `later`, and the result. -/
def complete (request : ChatRequest) (returnUsage : Bool) (cache : ResponseCache κ Json)
    (later : ℚ) : ResponseCache κ Json × Nat × Except String ChatCompletion :=
  let (requests, reply) := fetch (server request.url request.payload) request.retries 0
    (max 0 request.retries + 1).toNat
  let answer : Except String (Json × Json) := do
    let body ← reply
    return (body, ← contentOf floats body)
  match answer with
  | .error text => (cache, requests, .error text)
  | .ok (body, content) =>
    let cache := cache.put (fingerprint request.fields) content later
    if returnUsage then
      (cache, requests, (usageOf body).map fun usage => ⟨content, some usage⟩)
    else (cache, requests, .ok ⟨content, none⟩)

/-- `chat_completion`: the cache, the number of HTTP requests, and the result. The cache is
read at the time `now`. -/
def chatCompletion (request : ChatRequest) (returnUsage : Bool) (cache : ResponseCache κ Json)
    (now later : ℚ) : ResponseCache κ Json × Nat × Except String ChatCompletion :=
  let (cache, cached) := cache.get (fingerprint request.fields) now
  -- `None` is a miss, and so is a `None` that was put
  match cached.filter fun value => !value.isNull with
  | some value => (cache, 0, .ok ⟨value, if returnUsage then some cachedUsage else none⟩)
  | none => complete floats fingerprint server request returnUsage cache later

section Transparency

variable {floats fingerprint server}
variable {request : ChatRequest} {returnUsage : Bool} {cache : ResponseCache κ Json}
variable {now later : ℚ}

/-- The reply to the request: the body, and its content. -/
def answer (floats : Json.Format) (server : String → Object → Nat → HttpResponse)
    (request : ChatRequest) : Except String (Json × Json) := do
  let body ← (fetch (server request.url request.payload) request.retries 0
    (max 0 request.retries + 1).toNat).2
  return (body, ← contentOf floats body)

/-- A call that raises leaves the stored entries as they were, and what a call returns is
returned again by the next call, while the entry lives, without any request. -/
def Transparent (floats : Json.Format) (fingerprint : Object → κ)
    (server : String → Object → Nat → HttpResponse) (request : ChatRequest) (returnUsage : Bool)
    (cache : ResponseCache κ Json) (now later : ℚ) : Prop :=
  let call := chatCompletion floats fingerprint server request returnUsage cache now later
  (∀ text, call.2.2 = .error text →
    ∀ key, call.1.data.get? key = cache.data.get? key) ∧
  ∀ completion, call.2.2 = .ok completion → ∀ server' now' later',
    (∀ value limit, call.1.data.get? (fingerprint request.fields) = some (value, some limit) →
      now' < limit) →
    let next := chatCompletion floats fingerprint server' request returnUsage call.1 now' later'
    next.2.1 = 0 ∧ ∃ again, next.2.2 = .ok again ∧ again.content = completion.content

/-- The call is answered from the cache. -/
def Answered (fingerprint : Object → κ) (request : ChatRequest) (cache : ResponseCache κ Json)
    (now : ℚ) : Prop :=
  ∃ value, (cache.get (fingerprint request.fields) now).2 = some value ∧ value.isNull = false

theorem chatCompletion_answered {value : Json}
    (found : (cache.get (fingerprint request.fields) now).2 = some value)
    (shown : value.isNull = false) :
    chatCompletion floats fingerprint server request returnUsage cache now later =
      ((cache.get (fingerprint request.fields) now).1, 0,
        .ok ⟨value, if returnUsage then some cachedUsage else none⟩) := by
  have kept : Option.filter (fun value : Json => !value.isNull) (some value) = some value := by
    simp [Option.filter, shown]
  simp only [chatCompletion, found, kept]

theorem chatCompletion_asked (asked : ¬ Answered fingerprint request cache now) :
    chatCompletion floats fingerprint server request returnUsage cache now later =
      complete floats fingerprint server request returnUsage
        (cache.get (fingerprint request.fields) now).1 later := by
  have none_ : (cache.get (fingerprint request.fields) now).2.filter
      (fun value => !value.isNull) = none := by
    rw [Option.filter_eq_none_iff]
    intro value found shown
    exact asked ⟨value, found, by simpa using shown⟩
  rw [chatCompletion]
  simp only [none_]

/-- Something is asked of the server. -/
theorem fetch_requests {responses : Nat → HttpResponse} {retries : Int} {attempt left : Nat} :
    attempt ≤ (fetch responses retries attempt left).1 ∧
      (0 < left → attempt < (fetch responses retries attempt left).1) := by
  induction left generalizing attempt with
  | zero => exact ⟨Nat.le_refl _, nofun⟩
  | succ left ih =>
      have further := (@ih (attempt + 1)).1
      have here : attempt < attempt + 1 := Nat.lt_succ_self attempt
      suffices more : attempt < (fetch responses retries attempt (left + 1)).1 from
        ⟨Nat.le_of_lt more, fun _ => more⟩
      rw [fetch]
      split
      · exact here
      · split_ifs
        · exact further
        · exact here
      · split_ifs
        · exact further
        · exact here
      · split_ifs
        · exact further
        · exact here
      · exact here

theorem complete_requests {cache : ResponseCache κ Json} :
    0 < (complete floats fingerprint server request returnUsage cache later).2.1 := by
  have asked := (@fetch_requests (server request.url request.payload) request.retries 0
    (max 0 request.retries + 1).toNat).2 (by omega)
  rw [complete]
  simp only
  split
  · exact asked
  · split_ifs <;> exact asked

/-- A failed request leaves the cache as it is. -/
theorem complete_failed (fingerprint : Object → κ) (returnUsage : Bool)
    (cache : ResponseCache κ Json) (later : ℚ) {text : String}
    (failed : answer floats server request = .error text) :
    (complete floats fingerprint server request returnUsage cache later).1 = cache ∧
      ∃ text, (complete floats fingerprint server request returnUsage cache later).2.2 =
        .error text := by
  rw [complete]
  simp only
  rw [answer] at failed
  rw [failed]
  exact ⟨rfl, text, rfl⟩

theorem complete_replied (fingerprint : Object → κ) (returnUsage : Bool)
    (cache : ResponseCache κ Json) (later : ℚ) {body content : Json}
    (replied : answer floats server request = .ok (body, content)) :
    (complete floats fingerprint server request returnUsage cache later).1 =
        cache.put (fingerprint request.fields) content later ∧
      (complete floats fingerprint server request returnUsage cache later).2.2 =
        if returnUsage then (usageOf body).map fun usage => ⟨content, some usage⟩
        else .ok ⟨content, none⟩ := by
  rw [complete]
  simp only
  rw [answer] at replied
  rw [replied]
  split_ifs <;> exact ⟨rfl, rfl⟩

/-- What decides whether a call is transparent: it is answered from the cache; or the
request fails, and no expired entry is dropped; or the reply has a content, and a usage that
can be read if it is asked for. An entry that is put as it was makes no difference. -/
def Storable (floats : Json.Format) (fingerprint : Object → κ)
    (server : String → Object → Nat → HttpResponse) (request : ChatRequest) (returnUsage : Bool)
    (cache : ResponseCache κ Json) (now later : ℚ) : Prop :=
  Answered fingerprint request cache now ∨
    match answer floats server request with
    | .error _ => ¬ cache.Lapsed (fingerprint request.fields) now
    | .ok (body, content) =>
      if returnUsage = true ∧ (usageOf body).isOk = false then
        cache.data.get? (fingerprint request.fields) =
          some (content, cache.ttl.map fun seconds => later + seconds)
      else content.isNull = false

/-- An entry that lives answers the next call. -/
theorem answered_next {content : Json} {expiresAt : Option ℚ} {now' later' : ℚ}
    {server' : String → Object → Nat → HttpResponse}
    (found : cache.data.get? (fingerprint request.fields) = some (content, expiresAt))
    (shown : content.isNull = false)
    (lives : ∀ value limit, cache.data.get? (fingerprint request.fields) =
      some (value, some limit) → now' < limit) :
    (chatCompletion floats fingerprint server' request returnUsage cache now' later').2.1 = 0 ∧
      ∃ again, (chatCompletion floats fingerprint server' request returnUsage cache now'
        later').2.2 = .ok again ∧ again.content = content := by
  have hit : (cache.get (fingerprint request.fields) now').2 = some content := by
    refine ResponseCache.get_eq_some_iff.mpr ⟨expiresAt, found, ?_⟩
    intro limit given
    exact lives content limit (by rw [found, Option.mem_def.mp given])
  rw [chatCompletion_answered hit shown]
  exact ⟨rfl, _, rfl, rfl⟩

theorem transparent_of_answered (answered : Answered fingerprint request cache now) :
    Transparent floats fingerprint server request returnUsage cache now later := by
  obtain ⟨value, hit, shown⟩ := answered
  rw [Transparent]
  simp only [chatCompletion_answered hit shown]
  constructor
  · intro text raised
    cases raised
  · intro completion returned server' now' later' lives
    cases returned
    obtain ⟨expiresAt, found, early⟩ := ResponseCache.get_eq_some_iff.mp hit
    have kept : (cache.get (fingerprint request.fields) now).1.data.get?
        (fingerprint request.fields) = some (value, expiresAt) := by
      rw [ResponseCache.get?_get, if_neg (by simp [hit]), found]
    exact answered_next kept shown lives

/-- The usage is asked for and cannot be read: the entry has been put before. -/
theorem transparent_raised {body content : Json} {text : String}
    (reachable : cache.Reachable) (asked : ¬ Answered fingerprint request cache now)
    (replied : answer floats server request = .ok (body, content))
    (raised : usageOf body = .error text) :
    Transparent floats fingerprint server request true cache now later ↔
      cache.data.get? (fingerprint request.fields) =
        some (content, cache.ttl.map fun seconds => later + seconds) := by
  obtain ⟨stored, result⟩ := complete_replied fingerprint true
    (cache.get (fingerprint request.fields) now).1 later replied
  obtain ⟨same_size, same_ttl⟩ := @ResponseCache.step_bounds κ Json _ cache _
    (.get (fingerprint request.fields) now) rfl
  obtain ⟨positive, bounded⟩ := reachable.bounds
  rw [Transparent]
  simp only [chatCompletion_asked asked, stored, result, raised, if_true]
  constructor
  · rintro ⟨unchanged, -⟩
    rw [← unchanged text rfl, ResponseCache.get?_put_self (by rw [same_size]; exact positive),
      same_ttl]
  · intro same
    constructor
    · intro _ _ key
      have member : fingerprint request.fields ∈ cache.data.keys :=
        Dict.mem_keys_iff.mpr ⟨_, same⟩
      rw [ResponseCache.get?_put_of_room, same_ttl, ResponseCache.get?_get]
      · split_ifs with equal gone
        · rw [equal, same]
        · exact absurd gone.2 equal
        · rfl
      · rw [ResponseCache.room_get member, same_size]
        exact bounded
    · intro completion returned
      cases returned

/-- The call returns. -/
theorem transparent_returned {body content : Json} {completion : ChatCompletion}
    (reachable : cache.Reachable) (asked : ¬ Answered fingerprint request cache now)
    (replied : answer floats server request = .ok (body, content))
    (returned : (complete floats fingerprint server request returnUsage
      (cache.get (fingerprint request.fields) now).1 later).2.2 = .ok completion)
    (shows : completion.content = content) :
    Transparent floats fingerprint server request returnUsage cache now later ↔
      content.isNull = false := by
  obtain ⟨stored, -⟩ := complete_replied fingerprint returnUsage
    (cache.get (fingerprint request.fields) now).1 later replied
  obtain ⟨same_size, same_ttl⟩ := @ResponseCache.step_bounds κ Json _ cache _
    (.get (fingerprint request.fields) now) rfl
  have put := @ResponseCache.get?_put_self κ Json _ (cache.get (fingerprint request.fields) now).1
    (fingerprint request.fields) content later (by rw [same_size]; exact reachable.bounds.1)
  rw [Transparent]
  simp only [chatCompletion_asked asked, stored, returned]
  constructor
  · rintro ⟨-, again⟩
    by_contra null
    rw [Bool.not_eq_false] at null
    -- at any time before the entry expires, it is there and shows nothing
    obtain ⟨now', lives⟩ : ∃ now', ∀ limit ∈ cache.ttl.map (fun seconds => later + seconds),
        now' < limit := by
      cases cache.ttl.map fun seconds => later + seconds with
      | none => exact ⟨0, by simp⟩
      | some limit => exact ⟨limit - 1, by simp⟩
    obtain ⟨unasked, -⟩ := again completion rfl server now' now' (by
      intro value limit found
      rw [put, same_ttl, Option.some.injEq, Prod.mk.injEq] at found
      exact lives limit found.2)
    have next : ¬ Answered fingerprint request
        ((cache.get (fingerprint request.fields) now).1.put (fingerprint request.fields) content
          later) now' := by
      rintro ⟨value, hit, shown⟩
      obtain ⟨expiresAt, found, -⟩ := ResponseCache.get_eq_some_iff.mp hit
      rw [put] at found
      cases found
      rw [null] at shown
      cases shown
    rw [chatCompletion_asked next] at unasked
    exact absurd unasked (Nat.ne_of_gt complete_requests)
  · intro shown
    constructor
    · intro text raised
      cases raised
    · intro completion' returned' server' now' later' lives
      cases returned'
      rw [shows]
      exact answered_next put shown lives

/-- A call is transparent exactly when what it stores can be told from a miss, and is stored
only by a call that returns. -/
theorem transparent_iff (floats : Json.Format) (fingerprint : Object → κ)
    (server : String → Object → Nat → HttpResponse) (request : ChatRequest) (returnUsage : Bool)
    (cache : ResponseCache κ Json) (now later : ℚ) (reachable : cache.Reachable) :
    Transparent floats fingerprint server request returnUsage cache now later ↔
      Storable floats fingerprint server request returnUsage cache now later := by
  rw [Storable]
  by_cases asked : Answered fingerprint request cache now
  · exact iff_of_true (transparent_of_answered asked) (.inl asked)
  · rw [or_iff_right asked]
    cases replied : answer floats server request with
    | error text =>
        obtain ⟨same, text, raised⟩ := complete_failed fingerprint returnUsage
          (cache.get (fingerprint request.fields) now).1 later replied
        rw [Transparent]
        simp only [chatCompletion_asked asked, same, raised]
        rw [← ResponseCache.get_keeps_iff]
        constructor
        · rintro ⟨unchanged, -⟩
          exact unchanged text rfl
        · intro unchanged
          refine ⟨fun _ _ => unchanged, ?_⟩
          intro completion returned
          cases returned
    | ok reply =>
        obtain ⟨body, content⟩ := reply
        have result := (complete_replied fingerprint returnUsage
          (cache.get (fingerprint request.fields) now).1 later replied).2
        simp only
        cases returnUsage with
        | false =>
            rw [if_neg (by simp)]
            exact transparent_returned reachable asked replied result rfl
        | true =>
            cases usage : usageOf body with
            | error text =>
                rw [if_pos ⟨rfl, rfl⟩]
                exact transparent_raised reachable asked replied usage
            | ok usage' =>
                rw [if_neg (by simp [Except.isOk, Except.toBool])]
                rw [usage] at result
                exact transparent_returned reachable asked replied result rfl

def greeting : ChatRequest where
  baseUrl := "https://api.deepseek.com"
  model := "deepseek-chat"
  messages := .arr [.obj [("role", .str "user"), ("content", .str "hi")]]
  temperature := none
  maxTokens := none
  responseFormat := none
  retries := 0

def fresh : ResponseCache Unit Json := ⟨128, none, .empty, 0, 0, 0, 0⟩

theorem fresh_reachable : fresh.Reachable := ⟨128, none, fresh, [], rfl, rfl⟩

theorem fresh_asked : ¬ Answered (fun _ => ()) greeting fresh 0 := by
  rintro ⟨value, hit, -⟩
  cases hit

/-- A body without a content, which is its own content. -/
def strayBody : Json := .arr [.int 1]

def nullBody : Json := .obj [("choices", .arr [.obj [("message", .obj [("content", .null)])]])]

theorem transparent_iff_stray :
    Transparent default (fun _ => ()) (fun _ _ _ => .reply (some strayBody)) greeting false
      fresh 0 1 ↔
    Storable default (fun _ => ()) (fun _ _ _ => .reply (some strayBody)) greeting false
      fresh 0 1 :=
  transparent_iff default _ _ greeting false fresh 0 1 fresh_reachable

/-- A call that raises has stored an entry, and a content that is null is asked for again. -/
theorem not_transparent :
    ¬ Transparent default (fun _ => ()) (fun _ _ _ => .reply (some strayBody)) greeting true
        fresh 0 1 ∧
      ¬ Transparent default (fun _ => ()) (fun _ _ _ => .reply (some nullBody)) greeting false
        fresh 0 1 := by
  constructor
  · rw [@transparent_raised _ _ _ _ _ _ _ _ _ strayBody (.str "[1]") _ fresh_reachable fresh_asked
      rfl rfl]
    intro stored
    cases stored
  · rw [@transparent_returned _ _ _ _ _ _ _ _ _ _ nullBody .null ⟨.null, none⟩ fresh_reachable
      fresh_asked rfl rfl rfl]
    intro shown
    cases shown

end Transparency

end ChatCompletion

end MultiAgent.Plugin
