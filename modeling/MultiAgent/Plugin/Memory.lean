import MultiAgent.Foundations.Longest
import MultiAgent.Plugin.Json
import Mathlib.Algebra.Order.BigOperators.Group.List
import Mathlib.Algebra.GroupWithZero.Nat

/-!
# The memory of a discussion

`MessageStore` of `memory.py`. Each `add` prunes what earlier ones left; the store then
holds the longest suffix of all messages since the last `clear` that meets both bounds
(`retains_longest`). `str` of a value that is no string is a parameter.
-/

namespace MultiAgent.Plugin

/-- `items[start:]` -/
def sliceFrom {α : Type} (start : Int) (items : List α) : List α :=
  if start < 0 then items.drop (items.length + start).toNat else items.drop start.toNat

theorem sliceFrom_neg {α : Type} {n : Int} {items : List α} (positive : 0 < n) :
    sliceFrom (-n) items = items.rtake n.toNat := by
  rw [sliceFrom, if_pos (by omega), List.rtake]
  congr 1
  omega

/-- `fields.update(other)` -/
def Object.update (fields other : Object) : Object :=
  other.foldl (fun fields entry => fields.set entry.1 entry.2) fields

structure MessageStore where
  capacity : Option Int
  maxChars : Option Int
  messages : List Object

namespace MessageStore

/-- The constructor. -/
def new (capacity maxChars : Option Int) : MessageStore := ⟨capacity, maxChars, []⟩

variable (repr : Json → String)

/-- `len(str(m.get("content", "")))` -/
def chars (message : Object) : Nat :=
  ((Object.getD message "content" (.str "")).toStr repr).length

/-- The messages have that many characters. -/
def total (messages : List Object) : Nat := (messages.map (chars repr)).sum

/-- The loop of `_enforce_locked`, with its running total. -/
def popOldest (limit : Int) : Int → List Object → List Object
  | left, oldest :: next :: rest =>
    if limit < left then popOldest limit (left - chars repr oldest) (next :: rest)
    else oldest :: next :: rest
  | _, messages => messages

/-- `_enforce_locked`, the number of messages. -/
def cutCount (capacity : Option Int) (messages : List Object) : List Object :=
  match capacity with
  | some capacity =>
    if capacity ≠ 0 ∧ capacity < messages.length then sliceFrom (-capacity) messages else messages
  | none => messages

/-- `_enforce_locked`, their characters. -/
def cutChars (maxChars : Option Int) (messages : List Object) : List Object :=
  match maxChars with
  | some limit => popOldest repr limit (total repr messages) messages
  | none => messages

/-- `_enforce_locked` -/
def enforce (store : MessageStore) : MessageStore :=
  { store with
    messages := cutChars repr store.maxChars (cutCount store.capacity store.messages) }

/-- The message that `add` stores. -/
def message (role : String) (content : Json) (agent : Option String) (meta_ : Object) : Object :=
  Object.update
    [("role", .str role), ("content", content), ("agent", agent.elim .null .str)] meta_

/-- `add`, with the message that it returns. -/
def add (store : MessageStore) (role : String) (content : Json) (agent : Option String)
    (meta_ : Object) : MessageStore × Object :=
  let msg := message role content agent meta_
  ({ store with messages := store.messages ++ [msg] }.enforce repr, msg)

def clear (store : MessageStore) : MessageStore := { store with messages := [] }

/-- `recent` -/
def recent (store : MessageStore) (n : Int) : List Object := sliceFrom (-n) store.messages

inductive Operation where
  | add (role : String) (content : Json) (agent : Option String) (meta_ : Object)
  | clear

/-- The store after an operation. -/
def apply (store : MessageStore) : Operation → MessageStore
  | .add role content agent meta_ => (store.add repr role content agent meta_).1
  | .clear => store.clear

/-- The messages since the last `clear`, after one more operation. -/
def logged (log : List Object) : Operation → List Object
  | .add role content agent meta_ => log ++ [message role content agent meta_]
  | .clear => []

/-- The messages meet the bounds of the store; a single one may have any length. -/
structure Fits (capacity maxChars : Option Int) (messages : List Object) : Prop where
  count : ∀ limit ∈ capacity, (messages.length : Int) ≤ limit
  chars : ∀ limit ∈ maxChars, messages.length ≤ 1 ∨ (total repr messages : Int) ≤ limit

section Pruning

variable {repr : Json → String} {store : MessageStore} {messages : List Object} {msg : Object}
  {capacity maxChars : Option Int} {limit : Int}

theorem total_append {a b : List Object} : total repr (a ++ b) = total repr a + total repr b := by
  rw [total, List.map_append, List.sum_append]
  rfl

theorem longest_popOldest :
    Longest (fun messages => messages.length ≤ 1 ∨ (total repr messages : Int) ≤ limit) messages
      (popOldest repr limit (total repr messages) messages) := by
  induction messages with
  | nil => exact .self (.inl (Nat.zero_le _))
  | cons oldest later ih =>
      cases later with
      | nil => exact .self (.inl (Nat.le_refl _))
      | cons next rest =>
          rw [popOldest]
          split
          · rename_i above
            have left : (total repr (oldest :: next :: rest) : Int) - chars repr oldest =
                total repr (next :: rest) := by
              simp only [total, List.map_cons, List.sum_cons]
              omega
            rw [left]
            refine ih.cons ?_
            rintro (short | fits)
            · simp only [List.length_cons] at short
              omega
            · omega
          · rename_i fits
            exact .self (.inr (Int.not_lt.mp fits))

theorem longest_cutCount (limited : ∀ limit ∈ capacity, 1 ≤ limit) :
    Longest (fun messages => ∀ limit ∈ capacity, (messages.length : Int) ≤ limit) messages
      (cutCount capacity messages) := by
  cases capacity with
  | none =>
      refine .self fun limit given => ?_
      cases given
  | some limit =>
      have positive : 1 ≤ limit := limited limit rfl
      have only {l : List Object} : (∀ other ∈ some limit, (l.length : Int) ≤ other) ↔
          (l.length : Int) ≤ limit := by simp
      rw [cutCount]
      split
      · rw [sliceFrom_neg (by omega)]
        refine (Longest.rtake limit.toNat messages).congr fun l => ?_
        rw [only]
        omega
      · rename_i within
        refine .self (only.mpr ?_)
        omega

theorem longest_cutChars :
    Longest (fun messages => ∀ limit ∈ maxChars,
        messages.length ≤ 1 ∨ (total repr messages : Int) ≤ limit) messages
      (cutChars repr maxChars messages) := by
  cases maxChars with
  | none =>
      refine .self fun limit given => ?_
      cases given
  | some limit => exact longest_popOldest.congr fun l => by simp

/-- Pruning leaves the longest suffix that meets the bounds. -/
theorem longest_enforce (limited : ∀ limit ∈ store.capacity, 1 ≤ limit) :
    Longest (Fits repr store.capacity store.maxChars) store.messages
      (store.enforce repr).messages := by
  have closed : ∀ l k : List Object, k <:+ l →
      (∀ limit ∈ store.capacity, (l.length : Int) ≤ limit) →
      ∀ limit ∈ store.capacity, (k.length : Int) ≤ limit := by
    intro l k suffix count limit given
    have most := count limit given
    have fewer := suffix.length_le
    omega
  refine ((longest_cutCount limited).and closed longest_cutChars).congr fun l => ?_
  exact ⟨fun fits => ⟨fits.1, fits.2⟩, fun fits => ⟨fits.count, fits.chars⟩⟩

theorem fits_narrow (fits : Fits repr capacity maxChars (messages ++ [msg])) :
    Fits repr capacity maxChars messages := by
  constructor
  · intro limit given
    have count := fits.count limit given
    rw [List.length_append] at count
    omega
  · intro limit given
    have chars := fits.chars limit given
    rw [List.length_append, List.length_singleton, total_append] at chars
    omega

theorem longest_apply {log : List Object} (limited : ∀ limit ∈ store.capacity, 1 ≤ limit)
    (longest : Longest (Fits repr store.capacity store.maxChars) log store.messages)
    (operation : Operation) :
    Longest (Fits repr store.capacity store.maxChars) (logged log operation)
      (store.apply repr operation).messages := by
  cases operation with
  | add role content agent meta_ =>
      refine longest.concat (fun _ => fits_narrow) ?_
      let appended : MessageStore :=
        { store with messages := store.messages ++ [message role content agent meta_] }
      have pruned : Longest (Fits repr appended.capacity appended.maxChars) appended.messages
          (appended.enforce repr).messages := longest_enforce limited
      exact pruned
  | clear =>
      refine .self ⟨fun limit given => ?_, fun _ _ => .inl (Nat.zero_le _)⟩
      have positive := limited limit given
      change (0 : Int) ≤ limit
      omega

end Pruning

theorem apply_bounds {store : MessageStore} (operation : Operation) :
    (store.apply repr operation).capacity = store.capacity ∧
      (store.apply repr operation).maxChars = store.maxChars := by
  cases operation <;> exact ⟨rfl, rfl⟩

theorem longest_run {log : List Object} {store : MessageStore}
    (limited : ∀ limit ∈ store.capacity, 1 ≤ limit)
    (longest : Longest (Fits repr store.capacity store.maxChars) log store.messages)
    (operations : List Operation) :
    Longest (Fits repr store.capacity store.maxChars) (operations.foldl logged log)
      (operations.foldl (apply repr) store).messages := by
  induction operations generalizing log store with
  | nil => exact longest
  | cons operation rest ih =>
      obtain ⟨capacity, maxChars⟩ : (store.apply repr operation).capacity = store.capacity ∧
          (store.apply repr operation).maxChars = store.maxChars := apply_bounds repr operation
      rw [List.foldl_cons, List.foldl_cons, ← capacity, ← maxChars]
      refine ih (capacity ▸ limited) ?_
      rw [capacity, maxChars]
      exact longest_apply limited longest operation

/-- In every run the store holds the longest suffix of the messages since the last `clear` that
has at most `capacity` messages and, unless it is a single one, at most `max_chars` characters;
the newest message is always in it. -/
theorem retains_longest (capacity maxChars : Option Int)
    (limited : ∀ limit ∈ capacity, 1 ≤ limit) (operations : List Operation) :
    Longest (Fits repr capacity maxChars) (operations.foldl logged [])
        (operations.foldl (apply repr) (new capacity maxChars)).messages ∧
      (operations.foldl (apply repr) (new capacity maxChars)).messages.getLast? =
        (operations.foldl logged []).getLast? := by
  have alone {messages : List Object} (short : messages.length ≤ 1) :
      Fits repr capacity maxChars messages := by
    refine ⟨fun limit given => ?_, fun _ _ => .inl short⟩
    have positive := limited limit given
    omega
  have empty : Longest (Fits repr (new capacity maxChars).capacity
      (new capacity maxChars).maxChars) [] (new capacity maxChars).messages :=
    .self (alone (Nat.zero_le _))
  have longest : Longest (Fits repr capacity maxChars) (operations.foldl logged [])
      (operations.foldl (apply repr) (new capacity maxChars)).messages :=
    longest_run repr limited empty operations
  exact ⟨longest, longest.getLast?_eq fun _ _ => alone (Nat.le_refl _)⟩

/-- A store for two messages of eight characters. -/
def threeTurns : List Operation :=
  [.add "user" (.str "hi") none [], .clear, .add "user" (.str "hello") none [],
    .add "assistant" (.str "good morning") (some "a") [], .add "user" (.str "again") none []]

theorem retains_longest_threeTurns :
    ((threeTurns.foldl (apply fun _ => "") (new (some 2) (some 8))).messages.map fun message =>
        message.get "content") = [.str "again"] ∧
      Longest (Fits (fun _ => "") (some 2) (some 8)) (threeTurns.foldl logged [])
        (threeTurns.foldl (apply fun _ => "") (new (some 2) (some 8))).messages :=
  ⟨rfl, (retains_longest (fun _ => "") (some 2) (some 8) (by simp) threeTurns).1⟩

end MessageStore

end MultiAgent.Plugin
