import MultiAgent.Plugin.Security

/-!
# Which headers authenticate

The token of the header is stripped and those of the role map are not, and comparing two
tokens raises when one of them is not ASCII. `Comparable` is where the header authenticates
the role whose token it bears, and no other (`authenticate_exact_iff`).
-/

namespace MultiAgent.Plugin.TokenAuthenticator

/-- `str.isascii` -/
def isAscii (s : String) : Bool := s.toList.all fun c => decide (c.toNat < 128)

/-- `Bearer ` and the token, up to the white space around it. -/
def Bears (authorization token : String) : Prop :=
  ∃ rest, authorization = "Bearer " ++ rest ∧ strip rest = strip token

/-- The header authenticates the role whose token it bears, and nothing is raised. -/
def Exact (roles : Dict String Json) (auth : TokenAuthenticator) (authorization : String) : Prop :=
  ∃ result, auth.authenticate authorization = some result ∧
    ∀ role, result = some role ↔
      ∃ token, roles.get? role.name = some (.str token) ∧ Bears authorization token

/-- The tokens of the role map, in its order. -/
def tokens (roles : Dict String Json) : List String :=
  roles.values.filterMap fun value =>
    match value with
    | .str token => some token
    | _ => none

/-- The tokens in front of the given one, or all of them, are ASCII. -/
def AsciiUpTo (roles : Dict String Json) (token : String) : Prop :=
  ∀ known ∈ (tokens roles).takeWhile fun known => decide (known ≠ token), isAscii known = true

/-- No comparison raises before the token of the header is found, and white space around a
configured token does not hide it. -/
def Comparable (roles : Dict String Json) (authorization : String) : Prop :=
  ∀ rest, authorization = "Bearer " ++ rest → tokens roles = [] ∨
    isAscii (strip rest) = true ∧ AsciiUpTo roles (strip rest) ∧
      ∀ token ∈ tokens roles, strip token = strip rest → token = strip rest

variable {roles : Dict String Json} {auth seen : TokenAuthenticator}
  {authorization token rest : String} {role : Role}

section Constructor

theorem ofName_eq_some {name : String} (known : Role.ofName name = some role) :
    name = role.name := by
  unfold Role.ofName at known
  split at known <;> cases known <;> rfl

/-- The entries of a role map whose names are all known. -/
theorem named_entries {entries : List (String × Json)}
    (known : ∀ entry ∈ entries, ∃ role, Role.ofName entry.1 = some role) :
    (entries.filterMap fun entry => (Role.ofName entry.1).map fun role => (role, entry.2)).map
      (fun entry => (entry.1.name, entry.2)) = entries := by
  induction entries with
  | nil => rfl
  | cons entry rest ih =>
      obtain ⟨⟨role, found⟩, known⟩ := List.forall_mem_cons.mp known
      rw [List.filterMap_cons_some (by rw [found, Option.map_some]), List.map_cons, ih known,
        ← ofName_eq_some found]

/-- The tokens are stored in the order of the role map, and each is a string. -/
theorem collect_ok {entries : List (Role × Json)} (distinct : (entries.map Prod.fst).Nodup)
    (fresh : ∀ entry ∈ entries, entry.1 ∉ seen.byToken.values)
    (collected : collect seen entries = .ok auth) :
    ∃ pairs, auth.byToken.entries = seen.byToken.entries ++ pairs ∧
      entries = pairs.map fun pair : String × Role => (pair.2, .str pair.1) := by
  induction entries generalizing seen with
  | nil =>
      cases collected
      exact ⟨[], (List.append_nil _).symm, rfl⟩
  | cons entry rest ih =>
      obtain ⟨role, value⟩ := entry
      obtain ⟨unused, unused_later⟩ := List.forall_mem_cons.mp fresh
      rw [List.map_cons, List.nodup_cons] at distinct
      cases value with
      | str token =>
          rw [collect] at collected
          split at collected
          · cases collected
          · split at collected
            · rename_i prior found
              -- the role of a known token stands in front of this one
              have member := List.mem_map_of_mem (f := Prod.snd) (Dict.get?_eq_some_iff.mp found)
              split at collected
              · cases collected
              · rename_i same
                rw [not_not] at same
                exact absurd (same ▸ member) unused
            · rename_i unknown
              have new : token ∉ seen.byToken.keys := Dict.get?_eq_none_iff.mp unknown
              have later : ∀ entry ∈ rest, entry.1 ∉ (seen.byToken.set token role).values := by
                intro entry member stored
                obtain same | old := Dict.mem_values_set stored
                · exact distinct.1 (List.mem_map.mpr ⟨entry, member, same⟩)
                · exact unused_later entry member old
              obtain ⟨pairs, stored, shape⟩ := ih distinct.2 later collected
              refine ⟨(token, role) :: pairs, ?_, ?_⟩
              · rw [stored, Dict.entries_set_of_notMem new, List.append_assoc]
                rfl
              · rw [shape, List.map_cons]
      | _ => cases collected

/-- An accepted role map is the table of its tokens, the other way round. -/
theorem new_ok (accepted : new roles = .ok auth) :
    roles.entries = auth.byToken.entries.map fun pair => (pair.2.name, .str pair.1) := by
  rw [new] at accepted
  split at accepted
  · cases accepted
  · rename_i all_known
    rw [not_not, List.filter_eq_nil_iff] at all_known
    have known : ∀ entry ∈ roles.entries, ∃ role, Role.ofName entry.1 = some role := by
      intro entry member
      have found := all_known entry.1 (List.mem_map_of_mem member)
      rwa [Option.isNone_iff_eq_none, ← Ne, Option.ne_none_iff_exists'] at found
    have named := named_entries known
    have distinct := roles.distinct
    rw [← named, List.map_map] at distinct
    have once : ((roles.entries.filterMap fun entry =>
        (Role.ofName entry.1).map fun role => (role, entry.2)).map Prod.fst).Nodup := by
      refine List.Nodup.of_map Role.name ?_
      rwa [List.map_map]
    obtain ⟨pairs, stored, shape⟩ := collect_ok once (fun _ _ member => by cases member) accepted
    rw [← named, shape, stored, List.map_map]
    rfl

end Constructor

section Headers

theorem get?_name_iff (accepted : new roles = .ok auth) :
    roles.get? role.name = some (.str token) ↔ (token, role) ∈ auth.byToken.entries := by
  have name_inj : ∀ a b : Role, a.name = b.name → a = b := by
    intro a b
    cases a <;> cases b <;> decide
  rw [Dict.get?_eq_some_iff, new_ok accepted, List.mem_map]
  constructor
  · rintro ⟨⟨known, other⟩, member, same⟩
    obtain ⟨names, values⟩ := Prod.mk.inj same
    obtain rfl := name_inj _ _ names
    obtain rfl := Json.str.inj values
    exact member
  · intro member
    exact ⟨_, member, rfl⟩

theorem tokens_eq (accepted : new roles = .ok auth) :
    tokens roles = auth.byToken.entries.map Prod.fst := by
  rw [tokens, Dict.values, new_ok accepted, List.map_map, List.filterMap_map,
    ← List.filterMap_eq_map]
  rfl

/-- One role has one token. -/
theorem token_unique (accepted : new roles = .ok auth) {known : String}
    (first : (token, role) ∈ auth.byToken.entries)
    (second : (known, role) ∈ auth.byToken.entries) : token = known := by
  rw [← get?_name_iff accepted] at first second
  rw [first] at second
  exact Json.str.inj (Option.some.inj second)

variable {entries : List (String × Role)}

theorem lookup_cons {known : String} :
    lookup token ((known, role) :: entries) =
      if isAscii token = true ∧ isAscii known = true then
        if token = known then some (some role) else lookup token entries
      else none := by
  rw [lookup, compareDigest, ← isAscii, ← isAscii]
  simp only [Bool.and_eq_true]
  by_cases plain : isAscii token = true ∧ isAscii known = true
  · rw [if_pos plain, if_pos plain]
    by_cases same : token = known
    · rw [if_pos same, decide_eq_true same]
    · rw [if_neg same, decide_eq_false same]
  · rw [if_neg plain, if_neg plain]

/-- Looking up a token raises nothing as long as only ASCII strings are compared. -/
theorem lookup_returns_iff :
    (∃ result, lookup token entries = some result) ↔ entries = [] ∨
      isAscii token = true ∧ ∀ known ∈ (entries.map Prod.fst).takeWhile
        fun known => decide (known ≠ token), isAscii known = true := by
  induction entries with
  | nil => exact ⟨fun _ => .inl rfl, fun _ => ⟨none, rfl⟩⟩
  | cons entry rest ih =>
      obtain ⟨known, role⟩ := entry
      rw [lookup_cons, List.map_cons]
      by_cases same : known = token
      · subst same
        simp
      · rw [List.takeWhile_cons_of_pos (by simpa using same), if_neg (Ne.symm same),
          List.forall_mem_cons]
        split_ifs with plain
        · rw [ih]
          simp only [plain, true_and, false_or]
          refine or_iff_right_of_imp ?_
          rintro rfl
          exact nofun
        · simp only [exists_false, false_or, false_iff]
          rintro ⟨ascii, head, -⟩
          exact plain ⟨ascii, head⟩

theorem of_lookup_some (found : lookup token entries = some (some role)) :
    (token, role) ∈ entries := by
  induction entries with
  | nil => cases found
  | cons entry rest ih =>
      obtain ⟨known, owner⟩ := entry
      rw [lookup_cons] at found
      split_ifs at found with plain same
      · cases found
        exact same ▸ List.mem_cons_self
      · exact List.mem_cons_of_mem _ (ih found)

theorem of_lookup_none (missing : lookup token entries = some none) :
    token ∉ entries.map Prod.fst := by
  induction entries with
  | nil => exact List.not_mem_nil
  | cons entry rest ih =>
      obtain ⟨known, owner⟩ := entry
      rw [lookup_cons] at missing
      split_ifs at missing with plain same
      · cases missing
      · rw [List.map_cons, List.mem_cons, not_or]
        exact ⟨same, ih missing⟩

theorem authenticate_bearer :
    auth.authenticate ("Bearer " ++ rest) = lookup (strip rest) auth.byToken.entries := by
  rw [authenticate, dropPrefix?_eq_some_iff.mpr rfl]

/-- What is returned is right wherever white space does not hide a token. -/
theorem exact_bearer_iff (accepted : new roles = .ok auth) :
    Exact roles auth ("Bearer " ++ rest) ↔
      (∃ result, lookup (strip rest) auth.byToken.entries = some result) ∧
        ∀ token ∈ tokens roles, strip token = strip rest → token = strip rest := by
  have bears {token : String} : Bears ("Bearer " ++ rest) token ↔ strip rest = strip token := by
    constructor
    · rintro ⟨other, same, stripped⟩
      rwa [(String.append_right_inj _).mp same]
    · exact fun stripped => ⟨rest, rfl, stripped⟩
  simp only [Exact, authenticate_bearer, bears, get?_name_iff accepted, tokens_eq accepted]
  constructor
  · rintro ⟨result, found, right⟩
    refine ⟨⟨result, found⟩, ?_⟩
    intro token configured stripped
    obtain ⟨⟨known, role⟩, member, rfl⟩ := List.mem_map.mp configured
    obtain rfl := (right role).mpr ⟨known, member, stripped.symm⟩
    exact token_unique accepted member (of_lookup_some found)
  · rintro ⟨⟨result, found⟩, solid⟩
    refine ⟨result, found, ?_⟩
    intro role
    constructor
    · rintro rfl
      exact ⟨strip rest, of_lookup_some found, (strip_strip rest).symm⟩
    · rintro ⟨token, member, stripped⟩
      obtain rfl := solid token (List.mem_map_of_mem member) stripped.symm
      cases result with
      | none => exact absurd (List.mem_map_of_mem member) (of_lookup_none found)
      | some owner =>
          have same := Dict.get?_eq_some_iff.mpr (of_lookup_some found)
          rw [Dict.get?_eq_some_iff.mpr member] at same
          exact same.symm

/-- A header authenticates exactly the role whose token it bears, without raising, where it is
`Comparable` with the role map; the token of a role authenticates it where it is stripped, and
ASCII as all tokens in front of it are. -/
theorem authenticate_exact_iff (accepted : new roles = .ok auth) (authorization : String) :
    (Exact roles auth authorization ↔ Comparable roles authorization) ∧
      ∀ role token, roles.get? role.name = some (.str token) →
        (auth.authenticate ("Bearer " ++ token) = some (some role) ↔
          strip token = token ∧ isAscii token = true ∧ AsciiUpTo roles token) := by
  have none_ : auth.byToken.entries = [] ↔ tokens roles = [] := by
    rw [tokens_eq accepted, List.map_eq_nil_iff]
  constructor
  · cases dropped : dropPrefix? "Bearer " authorization with
    | none =>
        have other : ∀ rest, authorization ≠ "Bearer " ++ rest := by
          rintro rest rfl
          rw [dropPrefix?_eq_some_iff.mpr rfl] at dropped
          cases dropped
        refine iff_of_true ⟨none, by rw [authenticate, dropped], fun role => ?_⟩
          fun rest same => absurd same (other rest)
        refine iff_of_false nofun ?_
        rintro ⟨token, -, rest, same, -⟩
        exact other rest same
    | some rest =>
        obtain rfl := dropPrefix?_eq_some_iff.mp dropped
        rw [exact_bearer_iff accepted, lookup_returns_iff, none_, ← tokens_eq accepted]
        constructor
        · rintro ⟨compared, solid⟩ other same
          obtain rfl := (String.append_right_inj _).mp same
          exact compared.imp_right fun plain => ⟨plain.1, plain.2, solid⟩
        · intro comparable
          obtain empty | ⟨ascii, before, solid⟩ := comparable rest rfl
          · exact ⟨.inl empty, by simp [empty]⟩
          · exact ⟨.inr ⟨ascii, before⟩, solid⟩
  · intro role token held
    have member := (get?_name_iff accepted).mp held
    have some_ : auth.byToken.entries ≠ [] := List.ne_nil_of_mem member
    rw [authenticate_bearer, AsciiUpTo, tokens_eq accepted]
    constructor
    · intro found
      have same := token_unique accepted (of_lookup_some found) member
      rw [same] at found
      exact ⟨same, (lookup_returns_iff.mp ⟨_, found⟩).resolve_left some_⟩
    · rintro ⟨same, plain⟩
      obtain ⟨result, found⟩ := lookup_returns_iff.mpr (.inr plain)
      rw [same, found]
      cases result with
      | none => exact absurd (List.mem_map_of_mem member) (of_lookup_none found)
      | some owner =>
          have same := Dict.get?_eq_some_iff.mpr (of_lookup_some found)
          rw [Dict.get?_eq_some_iff.mpr member] at same
          rw [same]

end Headers

/-- A role map whose last token is padded. -/
def paddedMap : Dict String Json :=
  ⟨[("user", .str "u-token"), ("admin", .str " secret ")], by decide⟩

/-- The authenticator of the role map. -/
def padded : TokenAuthenticator where
  byToken := ⟨[("u-token", .user), (" secret ", .admin)], by decide⟩
  nonblank := by decide

theorem authenticate_exact_iff_padded :
    (Exact paddedMap padded "Bearer  u-token" ↔ Comparable paddedMap "Bearer  u-token") ∧
      ∀ role token, paddedMap.get? role.name = some (.str token) →
        (padded.authenticate ("Bearer " ++ token) = some (some role) ↔
          strip token = token ∧ isAscii token = true ∧ AsciiUpTo paddedMap token) :=
  authenticate_exact_iff rfl _

/-- The padded token authenticates nobody, and a letter that is not ASCII raises. -/
theorem not_exact_padded :
    new paddedMap = .ok padded ∧
      padded.authenticate "Bearer  secret " = some none ∧
      ¬ Exact paddedMap padded "Bearer  secret " ∧
      padded.authenticate "Bearer é" = none ∧ ¬ Exact paddedMap padded "Bearer é" := by
  have unknown : padded.authenticate "Bearer  secret " = some none := by decide
  have raised : padded.authenticate "Bearer é" = none := by decide
  refine ⟨rfl, unknown, ?_, raised, ?_⟩
  · rintro ⟨result, returned, right⟩
    have borne := (right .admin).mpr ⟨" secret ", rfl, " secret ", rfl, rfl⟩
    rw [unknown, borne] at returned
    cases returned
  · rintro ⟨result, returned, -⟩
    rw [raised] at returned
    cases returned

end MultiAgent.Plugin.TokenAuthenticator
