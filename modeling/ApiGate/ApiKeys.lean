import Mathlib.Data.List.TakeWhile
import Mathlib.Logic.Function.Basic
import ApiGate.AcceptedRoutes

/-!
# API keys against their grammar

`authenticate_api_key` scans the value of an Authorization field by hand and
compares digests that were stored one by one when the configuration was loaded.
Here the scanner is a grammar (`Bearer`), the filled part of the array is the set
of the configured keys (`Stores`), and together they say what passes the gate of
every route that `parse_routes` accepts.
-/

namespace ApiGate

namespace ApiKeys

open LoadConfig RoutesCallback

/-! ## The grammar -/

/-- The character class of a key. -/
def KeyCharacter (c : Char) : Prop :=
  ('A' ≤ c ∧ c ≤ 'Z') ∨ ('a' ≤ c ∧ c ≤ 'z') ∨ ('0' ≤ c ∧ c ≤ '9') ∨ c = '_' ∨ c = '-'

def IsKey (key : Text) : Prop :=
  32 ≤ key.length ∧ key.length ≤ 256 ∧ ∀ c ∈ key, KeyCharacter c

/-- `value` is the scheme `Bearer` in any letter case, one or more spaces, and `credential`. -/
def Bearer (value credential : Text) : Prop :=
  ∃ scheme spaces, value = scheme ++ (spaces ++ credential)
    ∧ lowercase scheme = "bearer".toList
    ∧ spaces ≠ [] ∧ (∀ c ∈ spaces, c = ' ') ∧ IsKey credential

theorem validApiKey_iff (key : Text) : validApiKey key = true ↔ IsKey key := by
  simp only [validApiKey, upperDigitOrUnderscore, Bool.and_eq_true, Bool.or_eq_true,
    decide_eq_true_eq, List.all_eq_true, IsKey, KeyCharacter, and_assoc]
  refine and_congr_right fun _ => and_congr_right fun _ => forall_congr' fun c => ?_
  refine imp_congr_right fun _ => ?_
  tauto

theorem not_keyCharacter_blank : ¬KeyCharacter ' ' := by
  unfold KeyCharacter
  decide

theorem IsKey.ne_nil {key : Text} (h : IsKey key) : key ≠ [] := by
  rintro rfl
  exact absurd h.1 (by decide)

/-! ## The scanner -/

theorem blank_notMem_scheme {scheme : Text} (h : lowercase scheme = "bearer".toList) :
    ∀ c ∈ scheme, decide (c ≠ ' ') = true := by
  intro c hc
  rw [decide_eq_true_eq]
  rintro rfl
  have hmem : lowercaseChar ' ' ∈ "bearer".toList := h ▸ List.mem_map_of_mem hc
  exact absurd hmem (by decide)

/-- What is left behind the text up to the first space. -/
theorem drop_takeWhile (value : Text) (p : Char → Bool) :
    value.drop (value.takeWhile p).length = value.dropWhile p := by
  have h := List.takeWhile_append_dropWhile (p := p) (l := value)
  calc value.drop (value.takeWhile p).length
      = (value.takeWhile p ++ value.dropWhile p).drop (value.takeWhile p).length := by rw [h]
    _ = value.dropWhile p := List.drop_left

/-- The scheme ends at a space. -/
theorem eq_blank_of_dropWhile {value rest : Text} {c : Char}
    (h : value.dropWhile (fun c => decide (c ≠ ' ')) = c :: rest) : c = ' ' := by
  have hne : value.dropWhile (fun c => decide (c ≠ ' ')) ≠ [] := by
    rw [h]
    exact List.cons_ne_nil c rest
  have hnot := List.head_dropWhile_not (fun c => decide (c ≠ ' ')) hne
  simp only [h, List.head_cons] at hnot
  simpa using hnot

theorem dropWhile_blanks {spaces credential : Text} (hspaces : ∀ c ∈ spaces, c = ' ')
    (hkey : IsKey credential) :
    (spaces ++ credential).dropWhile (fun c => decide (c = ' ')) = credential := by
  rw [List.dropWhile_append_of_pos (by simpa using hspaces)]
  cases credential with
  | nil => rfl
  | cons c rest =>
      have hc : KeyCharacter c := hkey.2.2 c (List.mem_cons_self ..)
      have hne : c ≠ ' ' := by
        rintro rfl
        exact not_keyCharacter_blank hc
      simp [hne]

/-- A value of this form is taken apart where the scanner takes it apart. -/
theorem scan_bearer {scheme spaces credential : Text} (hscheme : lowercase scheme = "bearer".toList)
    (hne : spaces ≠ []) (hspaces : ∀ c ∈ spaces, c = ' ') (hkey : IsKey credential) :
    (scheme ++ (spaces ++ credential)).takeWhile (fun c => decide (c ≠ ' ')) = scheme
      ∧ ((scheme ++ (spaces ++ credential)).drop scheme.length).dropWhile
        (fun c => decide (c = ' ')) = credential := by
  refine ⟨?_, by rw [List.drop_left, dropWhile_blanks hspaces hkey]⟩
  rw [List.takeWhile_append_of_pos (blank_notMem_scheme hscheme)]
  cases spaces with
  | nil => exact absurd rfl hne
  | cons c rest =>
      rw [hspaces c (List.mem_cons_self ..)]
      simp

/-- The test that is made of a value. -/
theorem authenticate_value (lib : Library) (config : ApiKeyAuthConfig) (request : HttpRequest)
    {authorization : Field}
    (h : request.fields.equalRange "authorization".toList = [authorization]) :
    authenticateApiKey lib config request = true
      ↔ ∃ c, Bearer authorization.value c ∧ matchesApiKeyDigest config (lib.sha256 c) = true := by
  generalize hvalue : authorization.value = value
  have hsplit := List.takeWhile_append_dropWhile (p := fun c => decide (c ≠ ' ')) (l := value)
  simp only [authenticateApiKey, h, hvalue]
  constructor
  · intro haccept
    split at haccept
    · cases haccept
    · rename_i hsep
      rw [Bool.or_eq_true, not_or, decide_eq_true_eq, not_not, List.isEmpty_iff,
        drop_takeWhile] at hsep
      rw [Bool.and_eq_true, Bool.and_eq_true, drop_takeWhile] at haccept
      obtain ⟨hrest, hscheme⟩ := hsep
      obtain ⟨⟨-, hkey⟩, hmatch⟩ := haccept
      generalize hr : value.dropWhile (fun c => decide (c ≠ ' ')) = rest at *
      have hblank : ∀ c ∈ rest.takeWhile (fun c => decide (c = ' ')), c = ' ' := by
        intro c hc
        simpa using List.mem_takeWhile_imp hc
      refine ⟨rest.dropWhile (fun c => decide (c = ' ')), ⟨_, rest.takeWhile (fun c =>
        decide (c = ' ')), ?_, hscheme, ?_, hblank, (validApiKey_iff _).mp hkey⟩, hmatch⟩
      · rw [List.takeWhile_append_dropWhile, hsplit]
      · -- the text behind the scheme begins with the space that ended it
        cases rest with
        | nil => exact absurd rfl hrest
        | cons c more => simp [eq_blank_of_dropWhile hr]
  · rintro ⟨c, ⟨scheme, spaces, rfl, hscheme, hne, hspaces, hkey⟩, hmatch⟩
    obtain ⟨htake, hdrop⟩ := scan_bearer hscheme hne hspaces hkey
    rw [htake, hdrop, if_neg]
    · simp [(validApiKey_iff c).mpr hkey, hmatch, hkey.ne_nil]
    · rw [List.drop_left]
      simp [hscheme, hkey.ne_nil]

theorem authenticate_iff (lib : Library) (config : ApiKeyAuthConfig) (request : HttpRequest) :
    authenticateApiKey lib config request = true
      ↔ ∃ value c, (request.fields.equalRange "authorization".toList).map Field.value = [value]
        ∧ Bearer value c ∧ matchesApiKeyDigest config (lib.sha256 c) = true := by
  rcases hrange : request.fields.equalRange "authorization".toList with _ | ⟨first, _ | ⟨second, more⟩⟩
  · simp only [authenticateApiKey, hrange]
    simp
  · rw [authenticate_value lib config request hrange]
    simp
  · simp only [authenticateApiKey, hrange]
    simp

/-! ## The stored digests -/

/-- The configured part of the array. -/
def stored (config : ApiKeyAuthConfig) : List Digest :=
  config.digests.toList.take config.keyCount

/-- The configuration has these digests, in this order. -/
def Holds (config : ApiKeyAuthConfig) (digests : List Digest) : Prop :=
  config.keyCount = digests.length ∧ digests.length ≤ 4 ∧ stored config = digests

variable {config : ApiKeyAuthConfig} {digests : List Digest}

theorem holds_empty : Holds { digests := Vector.replicate 4 emptyDigest } [] :=
  ⟨rfl, by simp, by simp [stored]⟩

theorem Holds.matches_iff (h : Holds config digests) (candidate : Digest) :
    matchesApiKeyDigest config candidate = true ↔ candidate ∈ digests := by
  obtain ⟨hcount, hle, hstored⟩ := h
  unfold matchesApiKeyDigest
  rw [show config.digests.toList.take config.keyCount = digests from hstored, hcount]
  split
  · rename_i hout
    have hnil : digests = [] := by
      rw [Bool.or_eq_true, decide_eq_true_eq, decide_eq_true_eq] at hout
      exact List.length_eq_zero_iff.mp (by omega)
    simp [hnil]
  · rw [List.any_eq_true]
    simp

theorem Holds.store (h : Holds config digests) (hroom : digests.length < 4) (digest : Digest) :
    Holds (storeDigest config digest) (digests ++ [digest]) := by
  obtain ⟨hcount, -, hstored⟩ := h
  refine ⟨by simp [storeDigest, hcount], by simp; omega, ?_⟩
  have hlt : config.keyCount < config.digests.toList.length := by
    rw [Vector.length_toList, hcount]
    exact hroom
  unfold stored storeDigest at *
  simp only [Vector.toList_setIfInBounds]
  rw [List.take_add_one, List.take_set_of_le (Nat.le_refl _), hstored, List.getElem?_set_self hlt]
  rfl

/-! ## The loop over the references -/

variable {s : Startup}

/-- What one reference adds: the digest of a key that is not there yet. -/
theorem addReference_ok {loop loop' : KeyLoop} {reference : Text}
    (h : addReference s loop reference = .ok loop') :
    ∃ key, s.getenv reference = some key ∧ IsKey key
      ∧ matchesApiKeyDigest loop.configured (s.lib.sha256 key) = false
      ∧ loop'.configured = storeDigest loop.configured (s.lib.sha256 key) := by
  unfold addReference at h
  split at h
  · cases h
  · split at h
    · cases h
    · obtain ⟨digest, hdigest, h⟩ := EventLoop.bind_eq_ok.mp h
      split at h
      · cases h
      · rename_i hnew
        cases h
        unfold referencedDigest at hdigest
        split at hdigest
        · cases hdigest
        · rename_i key hkey
          split at hdigest
          · cases hdigest
          · rename_i hvalid
            unfold hashApiKey at hdigest
            split at hdigest
            · cases hdigest
            · rename_i digest' hhash
              cases hdigest
              split at hhash
              · cases hhash
              · cases hhash
                have hkey' : IsKey key := by
                  rw [← validApiKey_iff]
                  simpa using hvalid
                exact ⟨key, hkey, hkey', by simpa using hnew, rfl⟩

/-- The keys of a list of references. -/
def KeysOf (s : Startup) (references keys : List Text) : Prop :=
  List.Forall₂ (fun reference key => s.getenv reference = some key ∧ IsKey key) references keys

theorem feed_addReference (references : List Text) {loop loop' : KeyLoop}
    (h : EventLoop.feed (addReference s) loop references = .ok loop')
    (hholds : Holds loop.configured digests) (hdistinct : digests.Nodup)
    (hroom : digests.length + references.length ≤ 4) :
    ∃ keys, KeysOf s references keys ∧ Holds loop'.configured (digests ++ keys.map s.lib.sha256)
      ∧ (digests ++ keys.map s.lib.sha256).Nodup := by
  induction references generalizing loop digests with
  | nil =>
      cases h
      exact ⟨[], .nil, by simpa using hholds, by simpa using hdistinct⟩
  | cons reference rest ih =>
      rw [EventLoop.feed_cons] at h
      obtain ⟨next, hstep, hrest⟩ := EventLoop.bind_eq_ok.mp h
      obtain ⟨key, hkey, hvalid, hnew, hnext⟩ := addReference_ok hstep
      rw [List.length_cons] at hroom
      have hnotMem : s.lib.sha256 key ∉ digests := by
        intro hmem
        rw [(hholds.matches_iff _).mpr hmem] at hnew
        cases hnew
      have hholds' : Holds next.configured (digests ++ [s.lib.sha256 key]) := by
        rw [hnext]
        exact hholds.store (by omega) _
      have hdistinct' : (digests ++ [s.lib.sha256 key]).Nodup := by
        simpa using List.Nodup.concat hnotMem hdistinct
      obtain ⟨keys, hkeys, hfinal, hnodup⟩ := ih hrest hholds' hdistinct' (by
        rw [List.length_append, List.length_singleton]
        omega)
      refine ⟨key :: keys, .cons ⟨hkey, hvalid⟩ hkeys, ?_, ?_⟩
      · simpa using hfinal
      · simpa using hnodup

/-! ## The `auth` object of a route -/

/-- The references that an `auth` object consists of. -/
inductive RefersTo : Json → List Text → Prop
  | one (name : Text) : RefersTo (.object [(apiKeyEnvKey, .string name)]) [name]
  | several (names : List Text) :
      RefersTo (.object [(apiKeyEnvsKey, .array (names.map .string))]) names

theorem referenceText_ok {value : Json} {name : Text} (h : referenceText value = .ok name) :
    value = .string name := by
  unfold referenceText at h
  split at h
  · split at h
    · cases h
    · cases h
      rfl
  · cases h

theorem mapM_referenceText {values : List Json} {names : List Text}
    (h : values.mapM referenceText = .ok names) : values = names.map .string := by
  have hall : List.Forall₂ (fun v name => v = Json.string name) values names :=
    (EventLoop.mapM_eq_ok h).imp fun _ _ hone => referenceText_ok hone
  rw [← List.forall₂_eq_eq_eq, List.forall₂_map_right_iff]
  exact hall

/-- The only member of an object. -/
theorem eq_singleton_of_get? {members : List (Text × Json)} {name : Text} {v : Json}
    (hlength : members.length = 1) (h : (Json.object members).get? name = some v) :
    members = [(name, v)] := by
  obtain ⟨m, rfl⟩ := List.length_eq_one_iff.mp hlength
  obtain ⟨name', v'⟩ := m
  by_cases heq : name' = name
  · subst heq
    simpa [Json.get?] using h
  · simp [Json.get?, heq] at h

theorem keyReferences_ok {settings : Json} {references : List Text}
    (h : keyReferences settings = .ok references) :
    RefersTo settings references ∧ 1 ≤ references.length ∧ references.length ≤ 4 := by
  unfold keyReferences at h
  split at h
  · rename_i members
    split at h
    · cases h
    · rename_i hlength
      rw [not_not] at hlength
      split at h
      · rename_i name hone
        cases h
        rw [eq_singleton_of_get? hlength hone]
        exact ⟨.one name, by simp⟩
      · cases h
      · rename_i values _ hseveral
        split at h
        · cases h
        · rename_i hcount
          rw [Bool.or_eq_true, not_or, List.isEmpty_iff, decide_eq_true_eq, Nat.not_lt] at hcount
          have hvalues := mapM_referenceText h
          rw [eq_singleton_of_get? hlength hseveral, hvalues]
          rw [hvalues, List.length_map] at hcount
          refine ⟨.several references, ?_, hcount.2⟩
          exact List.length_pos_iff.mpr fun hnil => hcount.1 (by rw [hnil]; rfl)
      · cases h
      · cases h
  · cases h

/-! ## The gate of a route -/

/-- The digests of these keys are what the configuration has, in this order. -/
structure Stores (lib : Library) (config : ApiKeyAuthConfig) (keys : List Text) : Prop where
  count : 1 ≤ keys.length ∧ keys.length ≤ 4
  valid : ∀ key ∈ keys, IsKey key
  keyCount : config.keyCount = keys.length
  stored : stored config = keys.map lib.sha256
  distinct : (keys.map lib.sha256).Nodup

/-- The one Authorization field of the request, and a credential in it. -/
def Presents (request : HttpRequest) (credential : Text) : Prop :=
  ∃ value, (request.fields.equalRange "authorization".toList).map Field.value = [value]
    ∧ Bearer value credential

/-- What passes, and what this does not depend on. -/
structure Gate (lib : Library) (config : ApiKeyAuthConfig) (keys : List Text) : Prop where
  accepts : ∀ request, authenticateApiKey lib config request = true
    ↔ ∃ c, Presents request c ∧ lib.sha256 c ∈ keys.map lib.sha256
  injective : Function.Injective lib.sha256 → ∀ request,
    (authenticateApiKey lib config request = true ↔ ∃ c, Presents request c ∧ c ∈ keys)
  request : ∀ r r' : HttpRequest,
    (r.fields.equalRange "authorization".toList).map Field.value
        = (r'.fields.equalRange "authorization".toList).map Field.value →
      authenticateApiKey lib config r = authenticateApiKey lib config r'
  order : ∀ other keys', Stores lib other keys' → keys'.Perm keys → ∀ request,
    authenticateApiKey lib other request = authenticateApiKey lib config request

theorem Stores.accepts {lib : Library} {keys : List Text} (h : Stores lib config keys)
    (request : HttpRequest) : authenticateApiKey lib config request = true
      ↔ ∃ c, Presents request c ∧ lib.sha256 c ∈ keys.map lib.sha256 := by
  have hholds : Holds config (keys.map lib.sha256) := by
    refine ⟨by rw [h.keyCount, List.length_map], ?_, h.stored⟩
    rw [List.length_map]
    exact h.count.2
  rw [authenticate_iff]
  simp only [hholds.matches_iff, Presents]
  constructor
  · rintro ⟨value, c, hvalue, hbearer, hmem⟩
    exact ⟨c, ⟨value, hvalue, hbearer⟩, hmem⟩
  · rintro ⟨c, ⟨value, hvalue, hbearer⟩, hmem⟩
    exact ⟨value, c, hvalue, hbearer, hmem⟩

theorem Stores.gate {lib : Library} {keys : List Text} (h : Stores lib config keys) :
    Gate lib config keys where
  accepts := h.accepts
  injective hinj request := by
    rw [h.accepts request]
    simp only [List.mem_map_of_injective hinj]
  request r r' heq := by
    rw [Bool.eq_iff_iff, h.accepts, h.accepts]
    simp only [Presents, heq]
  order other keys' hother hperm request := by
    rw [Bool.eq_iff_iff, h.accepts, hother.accepts]
    simp only [(hperm.map lib.sha256).mem_iff]

/-- The keys that an `auth` object refers to. -/
def ReferencedKeys (s : Startup) (settings : Json) (keys : List Text) : Prop :=
  ∃ references, RefersTo settings references ∧ KeysOf s references keys

/-- A route has a gate if its entry has an `auth` object, for the keys of that object. -/
structure Protected (s : Startup) (entry : Json) (route : RouteConfig) : Prop where
  without : entry.get? authFieldKey = none → route.auth = none
  auth : ∀ settings, entry.get? authFieldKey = some settings →
    ∃ keys config, ReferencedKeys s settings keys ∧ route.auth = some config
      ∧ Stores s.lib config keys ∧ Gate s.lib config keys

theorem configureKeys_ok {references : List Text} (hlow : 1 ≤ references.length)
    (hhigh : references.length ≤ 4) (h : configureKeys s references = .ok config) :
    ∃ keys, KeysOf s references keys ∧ Stores s.lib config keys := by
  obtain ⟨loop, hfeed, h⟩ := EventLoop.bind_eq_ok.mp h
  cases h
  obtain ⟨keys, hkeys, ⟨hcount, -, hstored⟩, hdistinct⟩ :=
    feed_addReference references hfeed holds_empty List.nodup_nil (by simpa using hhigh)
  rw [List.nil_append] at hcount hstored hdistinct
  have hlength := hkeys.length_eq
  refine ⟨keys, hkeys, ⟨by omega, ?_, by rw [hcount, List.length_map], hstored, hdistinct⟩⟩
  intro key hkey
  obtain ⟨i, hi, rfl⟩ := List.getElem_of_mem hkey
  exact (hkeys.get (hlength ▸ hi) hi).2

theorem protected_of_parseAuth {entry : Json} {route : RouteConfig}
    (h : parseAuth s entry = .ok route.auth) : Protected s entry route := by
  unfold parseAuth at h
  constructor
  · intro hnone
    rw [hnone] at h
    exact (Except.ok.inj h).symm
  · intro settings hsettings
    rw [hsettings] at h
    obtain ⟨references, hreferences, h⟩ := EventLoop.bind_eq_ok.mp h
    obtain ⟨configured, hkeys, h⟩ := EventLoop.bind_eq_ok.mp h
    obtain ⟨hrefers, hlow, hhigh⟩ := keyReferences_ok hreferences
    obtain ⟨keys, hkeysOf, hstores⟩ := configureKeys_ok hlow hhigh hkeys
    exact ⟨keys, configured, ⟨references, hrefers, hkeysOf⟩, (Except.ok.inj h).symm, hstores,
      hstores.gate⟩

/-- For every document that is accepted, entry by entry. -/
theorem routes_protected (s : Startup) (value : Text) (routes : List RouteConfig)
    (h : parseRoutes s value = .ok routes) :
    ∃ entries, s.parseJson value = .document (.array entries)
      ∧ List.Forall₂ (Protected s) entries routes := by
  obtain ⟨entries, hparse, hroutes, -⟩ := parseRoutes_ok h
  refine ⟨entries, hparse, hroutes.each.imp ?_⟩
  rintro entry route ⟨-, hauth⟩
  exact protected_of_parseAuth hauth

/-- A parser that knows one text and the document that it is the text of. -/
def readsOnly (text : Text) (document : Json) (value : Text) : Parsed :=
  if value = text then .document document else .malformed []

theorem readsOnly_self (text : Text) (document : Json) :
    readsOnly text document text = .document document := if_pos rfl

def oneKeyText : Text :=
  ("[\x7b\"prefix\":\"/\",\"host\":\"::1\",\"port\":80,"
    ++ "\"auth\":\x7b\"api_key_env\":\"APIGATE_AUTH_KEY_A\"\x7d\x7d]").toList

/-- One route with one key, where a digest is the key itself. -/
def oneKeyStartup : Startup where
  getenv name := if name = "APIGATE_AUTH_KEY_A".toList then some (List.replicate 32 'a') else none
  makeAddress host := if host = "::1".toList then some host else none
  parseJson := readsOnly oneKeyText (.array [.object [
    ("prefix".toList, .string "/".toList), ("host".toList, .string "::1".toList),
    ("port".toList, .unsigned 80),
    (authFieldKey, .object [(apiKeyEnvKey, .string "APIGATE_AUTH_KEY_A".toList)])]])
  lib := { intToStatus := id, sha256 := id }
  digestFails _ := false
  loadUpstreamTls _ := some 0
  loadDownstreamTls _ _ := true

def oneKeyRoute : RouteConfig where
  routePrefix := "/".toList
  upstreams := [{ host := "::1".toList, port := 80 }]
  auth := some ⟨#v[List.replicate 32 'a', emptyDigest, emptyDigest, emptyDigest], 1⟩

theorem routes_protected_one :
    ∃ entries, oneKeyStartup.parseJson oneKeyText = .document (.array entries)
      ∧ List.Forall₂ (Protected oneKeyStartup) entries [oneKeyRoute] :=
  routes_protected oneKeyStartup oneKeyText [oneKeyRoute] (by rfl)

end ApiKeys

end ApiGate
