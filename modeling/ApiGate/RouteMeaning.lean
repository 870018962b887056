import ApiGate.ApiKeys
import ApiGate.RoutesShape

/-!
# What a text of routes means

`RouteSaid` is the meaning of an entry of the document, said of its members and without the
order in which `parse_routes` looks at them: the names that may be there, what may be left out
and stands for what then, and the short forms. The parser accepts exactly the texts within its
limit whose document has the shape that the callback lets through and says a table of routes,
and its result is this table.
-/

namespace ApiGate

namespace LoadConfig

open ConfigText RoutesCallback ApiKeys
open EventLoop (bind_eq_ok)

variable {s : Startup} {entry object : Json} {name : Text} {low high n : Nat}

/-! ## Numbers -/

/-- The integers that are not negative. -/
inductive Counts : Json → Nat → Prop where
  | unsigned (value : UInt64) : Counts (.unsigned value) value.toNat
  | integer (value : Int64) (h : 0 ≤ value) : Counts (.integer value) value.toInt.toNat

/-- The member `name` is a number from `low` to `high`. -/
def NumberSaid (object : Json) (name : Text) (low high n : Nat) : Prop :=
  (∃ value, object.get? name = some value ∧ Counts value n) ∧ low ≤ n ∧ n ≤ high

/-- As `NumberSaid`, or left out for `default`. -/
def NumberMeant (object : Json) (name : Text) (default low high n : Nat) : Prop :=
  (object.get? name = none ∧ n = default) ∨ NumberSaid object name low high n

theorem routeInteger_iff {value : Json} {maximum : Nat} :
    routeInteger value maximum = .ok n ↔ Counts value n ∧ 1 ≤ n ∧ n ≤ maximum := by
  have hrange : ∀ m : Nat, (if m = 0 || m > maximum then
      (.error "APIGATE_ROUTES integer field is out of range" : Except ConfigError Nat)
        else .ok m) = .ok n ↔ m = n ∧ 1 ≤ n ∧ n ≤ maximum := by
    intro m
    split
    · rename_i hout
      rw [Bool.or_eq_true, decide_eq_true_eq, decide_eq_true_eq] at hout
      exact iff_of_false (by simp) (by omega)
    · rename_i hin
      rw [Bool.or_eq_true, not_or, decide_eq_true_eq, decide_eq_true_eq] at hin
      rw [Except.ok.injEq]
      omega
  cases value with
  | unsigned value =>
      refine (hrange value.toNat).trans (and_congr_left fun _ => ⟨?_, ?_⟩)
      · rintro rfl
        exact .unsigned value
      · rintro ⟨⟩
        rfl
  | integer value =>
      by_cases hnegative : value < 0
      · refine iff_of_false ?_ ?_
        · simp [routeInteger, hnegative]
        · rintro ⟨hcounts, -⟩
          cases hcounts with
          | integer _ hle => exact absurd hnegative (Int64.not_lt.mpr hle)
      · have hle := Int64.not_lt.mp hnegative
        have heq : routeInteger (.integer value) maximum
            = if value.toUInt64.toNat = 0 || value.toUInt64.toNat > maximum then
              .error "APIGATE_ROUTES integer field is out of range"
            else .ok value.toUInt64.toNat := if_neg hnegative
        have hsame : value.toUInt64.toNat = value.toInt.toNat := Int64.toNat_toUInt64_of_le hle
        rw [heq, hsame]
        refine (hrange _).trans (and_congr_left fun _ => ⟨?_, ?_⟩)
        · rintro rfl
          exact .integer value hle
        · rintro ⟨⟩
          rfl
  | _ =>
      refine iff_of_false (by simp [routeInteger]) ?_
      rintro ⟨⟨⟩, -⟩

theorem integerField_iff {default maximum : Nat} :
    integerField object name default maximum = .ok n ↔
      NumberMeant object name default 1 maximum n := by
  unfold integerField NumberMeant NumberSaid
  cases hvalue : object.get? name with
  | none => simp [eq_comm]
  | some value => simp [routeInteger_iff]

theorem healthInteger_iff {options : NumberOptions} (hlow : 1 ≤ options.minimum)
    (hdefault : options.minimum ≤ options.default) :
    healthInteger object name options = .ok n ↔
      NumberMeant object name options.default options.minimum options.maximum n := by
  have hmin : ∀ m, (if m < options.minimum then
      (.error "APIGATE_ROUTES health_check number is out of range" : Except ConfigError Nat)
        else .ok m) = .ok n ↔ m = n ∧ options.minimum ≤ n := by
    intro m
    split
    · exact iff_of_false (by simp) (by omega)
    · rw [Except.ok.injEq]
      omega
  unfold healthInteger
  rw [bind_eq_ok]
  simp only [hmin, integerField_iff]
  constructor
  · rintro ⟨m, hmeant, rfl, hle⟩
    rcases hmeant with hleft | ⟨hsaid, -, hhigh⟩
    · exact .inl hleft
    · exact .inr ⟨hsaid, hle, hhigh⟩
  · rintro (⟨hnone, rfl⟩ | ⟨hsaid, hle, hhigh⟩)
    · exact ⟨_, .inl ⟨hnone, rfl⟩, rfl, hdefault⟩
    · exact ⟨n, .inr ⟨hsaid, by omega, hhigh⟩, rfl, hle⟩

/-- What the parser asks of the size of an array. -/
theorem countOk_iff {values : List Json} {most : Nat} :
    ¬(values.isEmpty || values.length > most) = true ↔
      1 ≤ values.length ∧ values.length ≤ most := by
  rw [Bool.or_eq_true, not_or, List.isEmpty_iff, decide_eq_true_eq, Nat.not_lt]
  exact and_congr_left fun _ => List.length_pos_iff.symm

/-! ## Upstreams -/

/-- A host is the text of an address, or a name that is no address. -/
def HostMeant (s : Startup) (text host : Text) : Prop :=
  text ≠ [] ∧ (s.makeAddress text = some host
    ∨ s.makeAddress text = none ∧ IsHostname text ∧ host = text)

def schemeText : UpstreamScheme → Text
  | .http => "http".toList
  | .https => "https".toList

def SchemeMeant (object : Json) (scheme : UpstreamScheme) : Prop :=
  (object.get? "scheme".toList = none ∧ scheme = .http)
    ∨ object.get? "scheme".toList = some (.string (schemeText scheme))

/-- The members of an upstream, in an object of their own or among those of the route. -/
structure UpstreamSaid (s : Startup) (object : Json) (upstream : UpstreamConfig) : Prop where
  host : ∃ text, object.get? "host".toList = some (.string text) ∧ HostMeant s text upstream.host
  port : NumberSaid object "port".toList 1 65535 upstream.port
  timeout : NumberMeant object "timeout_ms".toList 3000 1 60000 upstream.timeoutMs
  scheme : SchemeMeant object upstream.scheme

/-- One upstream among the members of the route, or an array of upstreams and nothing of one
upstream. -/
inductive UpstreamsSaid (s : Startup) (entry : Json) : List UpstreamConfig → Prop where
  | one {upstream : UpstreamConfig} (absent : entry.get? upstreamsKey = none)
      (said : UpstreamSaid s entry upstream) : UpstreamsSaid s entry [upstream]
  | pool {backends : List Json} {upstreams : List UpstreamConfig}
      (present : entry.get? upstreamsKey = some (.array backends))
      (count : 1 ≤ backends.length ∧ backends.length ≤ 16)
      (alone : ∀ field ∈ upstreamFields, entry.get? field = none)
      (said : List.Forall₂ (fun backend upstream => backend.isObject = true
        ∧ backend.onlyNames upstreamFields = true ∧ UpstreamSaid s backend upstream)
        backends upstreams) : UpstreamsSaid s entry upstreams

theorem validatedHost_iff {text host : Text} :
    validatedHost s text = .ok host ↔ HostMeant s text host := by
  unfold validatedHost HostMeant parseUpstreamHost
  cases text with
  | nil => simp
  | cons c rest =>
      rw [show (c :: rest).isEmpty = false from rfl, if_neg Bool.false_ne_true]
      cases haddress : s.makeAddress (c :: rest) with
      | some address => simp
      | none =>
          rw [← validateDnsHostname_iff]
          cases hname : validateDnsHostname (c :: rest) with
          | error e => simp [bind, Except.bind]
          | ok u => simp [bind, Except.bind, eq_comm]

theorem parseScheme_iff {scheme : UpstreamScheme} :
    parseScheme object = .ok scheme ↔ SchemeMeant object scheme := by
  unfold parseScheme SchemeMeant
  cases hvalue : object.get? "scheme".toList with
  | none => simp [eq_comm]
  | some value =>
      cases value with
      | string text =>
          dsimp only
          split
          · rename_i hhttps
            cases scheme <;> simp [hhttps, schemeText]
          · split
            · rename_i hhttp
              cases scheme <;> simp [hhttp, schemeText]
            · rename_i hhttps hhttp
              refine iff_of_false (by simp) ?_
              rintro (⟨hnone, -⟩ | hsome)
              · cases hnone
              · obtain rfl : text = schemeText scheme := by simpa using hsome
                cases scheme with
                | http => exact hhttp rfl
                | https => exact hhttps rfl
      | _ => simp

theorem parseRouteUpstream_iff {upstream : UpstreamConfig} :
    parseRouteUpstream s object = .ok upstream ↔ UpstreamSaid s object upstream := by
  constructor
  · intro h
    unfold parseRouteUpstream at h
    split at h
    · rename_i text value htext hvalue
      obtain ⟨host, hhost, h⟩ := bind_eq_ok.mp h
      obtain ⟨port, hport, h⟩ := bind_eq_ok.mp h
      obtain ⟨timeoutMs, htimeout, h⟩ := bind_eq_ok.mp h
      obtain ⟨scheme, hscheme, h⟩ := bind_eq_ok.mp h
      cases h
      obtain ⟨hcounts, hrange⟩ := routeInteger_iff.mp hport
      exact {
        host := ⟨text, htext, validatedHost_iff.mp hhost⟩
        port := ⟨⟨value, hvalue, hcounts⟩, hrange⟩
        timeout := integerField_iff.mp htimeout
        scheme := parseScheme_iff.mp hscheme }
    · cases h
  · rintro ⟨⟨text, htext, hhost⟩, ⟨⟨value, hvalue, hcounts⟩, hrange⟩, htimeout, hscheme⟩
    unfold parseRouteUpstream
    rw [htext, hvalue]
    dsimp only
    rw [validatedHost_iff.mpr hhost, routeInteger_iff.mpr ⟨hcounts, hrange⟩,
      integerField_iff.mpr htimeout, parseScheme_iff.mpr hscheme]
    rfl

theorem parseBackend_iff {backend : Json} {upstream : UpstreamConfig} :
    parseBackend s backend = .ok upstream ↔ backend.isObject = true
      ∧ backend.onlyNames upstreamFields = true ∧ UpstreamSaid s backend upstream := by
  unfold parseBackend
  split
  · rename_i hobject
    exact iff_of_false (by simp) fun h => by simp [h.1] at hobject
  · split
    · rename_i hnames
      exact iff_of_false (by simp) fun h => by simp [h.2.1] at hnames
    · rename_i hobject hnames
      rw [parseRouteUpstream_iff]
      exact ⟨fun h => ⟨by simpa using hobject, by simpa using hnames, h⟩, fun h => h.2.2⟩

theorem parseUpstreams_iff {upstreams : List UpstreamConfig} :
    parseUpstreams s entry = .ok upstreams ↔ UpstreamsSaid s entry upstreams := by
  constructor
  · intro h
    unfold parseUpstreams at h
    split at h
    · rename_i pool hpool
      split at h
      · cases h
      · rename_i halone
        split at h
        · rename_i backends
          split at h
          · cases h
          · rename_i hcount
            refine .pool hpool (countOk_iff.mp hcount) (fun field hfield => ?_)
              ((EventLoop.mapM_eq_ok h).imp fun _ _ => parseBackend_iff.mp)
            simp only [Bool.not_eq_true, List.any_eq_false] at halone
            simpa using halone field hfield
        · cases h
    · rename_i habsent
      obtain ⟨upstream, hone, h⟩ := bind_eq_ok.mp h
      cases h
      exact .one habsent (parseRouteUpstream_iff.mp hone)
  · rintro (⟨habsent, hsaid⟩ | ⟨hpresent, hcount, halone, hsaid⟩)
    · unfold parseUpstreams
      rw [habsent]
      dsimp only
      rw [parseRouteUpstream_iff.mpr hsaid]
      rfl
    · have hnone : ¬(upstreamFields.any fun field => (entry.get? field).isSome) = true := by
        rw [Bool.not_eq_true, List.any_eq_false]
        intro field hfield
        simp [halone field hfield]
      unfold parseUpstreams
      rw [hpresent]
      dsimp only
      rw [if_neg hnone, if_neg (countOk_iff.mpr hcount)]
      exact EventLoop.mapM_of_forall₂ (hsaid.imp fun _ _ => parseBackend_iff.mpr)

/-! ## Keys -/

/-- The array with these digests at its front. -/
def keyTable (digests : List Digest) : ApiKeyAuthConfig where
  digests := Vector.ofFn fun i => digests.getD i emptyDigest
  keyCount := digests.length

theorem keyTable_nil : keyTable [] = { digests := Vector.replicate 4 emptyDigest } := by
  unfold keyTable
  congr 1

theorem holds_keyTable {digests : List Digest} (h : digests.length ≤ 4) :
    Holds (keyTable digests) digests := by
  refine ⟨rfl, h, ?_⟩
  unfold stored keyTable
  refine List.ext_getElem (by simp [h]) fun i hi hi' => ?_
  simp [hi']

theorem storeDigest_keyTable (digests : List Digest) (digest : Digest) :
    storeDigest (keyTable digests) digest = keyTable (digests ++ [digest]) := by
  have hvector : (keyTable digests).digests.setIfInBounds digests.length digest
      = (keyTable (digests ++ [digest])).digests := by
    refine Vector.ext fun i hi => ?_
    rw [Vector.getElem_setIfInBounds hi]
    simp only [keyTable, Vector.getElem_ofFn, List.getD_eq_getElem?_getD]
    rcases Nat.lt_trichotomy i digests.length with hlt | rfl | hgt
    · rw [if_neg (by omega), List.getElem?_append_left hlt]
    · simp
    · rw [if_neg (by omega), List.getElem?_eq_none (by omega),
        List.getElem?_eq_none (by simp; omega)]
  unfold storeDigest
  rw [show (keyTable digests).keyCount = digests.length from rfl, hvector]
  unfold keyTable
  simp

/-- A variable with a key of which a digest can be calculated. -/
structure Resolves (s : Startup) (reference key : Text) : Prop where
  name : validApiKeyReference reference = true
  value : s.getenv reference = some key
  valid : IsKey key
  digest : s.digestFails key = false

theorem referencedDigest_iff {reference : Text} {digest : Digest} :
    validApiKeyReference reference = true ∧ referencedDigest s reference = .ok digest
      ↔ ∃ key, Resolves s reference key ∧ digest = s.lib.sha256 key := by
  constructor
  · rintro ⟨hname, h⟩
    unfold referencedDigest at h
    split at h
    · cases h
    · rename_i key hvalue
      split at h
      · cases h
      · rename_i hvalid
        unfold hashApiKey at h
        by_cases hfails : s.digestFails key = true
        · rw [if_pos hfails] at h
          cases h
        · rw [if_neg hfails] at h
          cases h
          exact ⟨key, ⟨hname, hvalue, (validApiKey_iff key).mp (by simpa using hvalid),
            by simpa using hfails⟩, rfl⟩
  · rintro ⟨key, ⟨hname, hvalue, hkey, hdigest⟩, rfl⟩
    refine ⟨hname, ?_⟩
    unfold referencedDigest hashApiKey
    rw [hvalue]
    simp [(validApiKey_iff key).mpr hkey, hdigest]

/-- One turn of the loop, after references `done` to `keys`. -/
theorem addReference_iff {done keys : List Text} (hroom : keys.length < 4) {reference : Text}
    {loop : KeyLoop} :
    addReference s ⟨keyTable (keys.map s.lib.sha256), done⟩ reference = .ok loop ↔
      reference ∉ done ∧ ∃ key, Resolves s reference key
        ∧ s.lib.sha256 key ∉ keys.map s.lib.sha256
        ∧ loop = ⟨keyTable ((keys ++ [key]).map s.lib.sha256), reference :: done⟩ := by
  have hfits : (keys.map s.lib.sha256).length ≤ 4 := by
    rw [List.length_map]
    omega
  have hmatches := (holds_keyTable hfits).matches_iff
  constructor
  · intro h
    unfold addReference at h
    split at h
    · cases h
    · rename_i hname
      split at h
      · cases h
      · rename_i hnew
        obtain ⟨digest, hdigest, h⟩ := bind_eq_ok.mp h
        obtain ⟨key, hkey, rfl⟩ := referencedDigest_iff.mp ⟨by simpa using hname, hdigest⟩
        split at h
        · cases h
        · rename_i hmiss
          cases h
          refine ⟨by simpa using hnew, key, hkey, fun hmem => hmiss ((hmatches _).mpr hmem), ?_⟩
          rw [storeDigest_keyTable, List.map_append, List.map_singleton]
  · rintro ⟨hnew, key, hkey, hmiss, rfl⟩
    obtain ⟨hname, hdigest⟩ := referencedDigest_iff.mpr ⟨key, hkey, rfl⟩
    have hunmatched : ¬matchesApiKeyDigest (keyTable (keys.map s.lib.sha256))
        (s.lib.sha256 key) = true := fun heq => hmiss ((hmatches _).mp heq)
    unfold addReference
    rw [if_neg (by simp [hname]), if_neg (by simpa using hnew), hdigest]
    show (if matchesApiKeyDigest (keyTable (keys.map s.lib.sha256)) (s.lib.sha256 key) = true then
      _ else _) = _
    rw [if_neg hunmatched, storeDigest_keyTable, List.map_append, List.map_singleton]

/-- Different references to keys with different digests. -/
structure References (s : Startup) (references keys : List Text) : Prop where
  resolve : List.Forall₂ (Resolves s) references keys
  names : references.Nodup
  digests : (keys.map s.lib.sha256).Nodup

theorem feed_addReference_iff (references : List Text) {done keys : List Text}
    (hroom : keys.length + references.length ≤ 4) (hdone : done.Nodup)
    (hkeys : (keys.map s.lib.sha256).Nodup) {config : ApiKeyAuthConfig} :
    (∃ loop, EventLoop.feed (addReference s) ⟨keyTable (keys.map s.lib.sha256), done⟩ references
        = .ok loop ∧ loop.configured = config) ↔
      ∃ more, List.Forall₂ (Resolves s) references more ∧ (references.reverse ++ done).Nodup
        ∧ ((keys ++ more).map s.lib.sha256).Nodup
        ∧ config = keyTable ((keys ++ more).map s.lib.sha256) := by
  induction references generalizing done keys config with
  | nil =>
      constructor
      · rintro ⟨loop, hloop, rfl⟩
        cases hloop
        exact ⟨[], .nil, by simpa using hdone, by simpa using hkeys, by simp⟩
      · rintro ⟨more, hmore, -, -, rfl⟩
        cases hmore
        exact ⟨_, rfl, by simp⟩
  | cons reference rest ih =>
      rw [List.length_cons] at hroom
      have hone : ∀ key, s.lib.sha256 key ∉ keys.map s.lib.sha256 →
          ((keys ++ [key]).map s.lib.sha256).Nodup := by
        intro key hmiss
        rw [List.map_append, List.map_singleton]
        simpa using List.Nodup.concat hmiss hkeys
      have hfits : ∀ key, (keys ++ [key]).length + rest.length ≤ 4 := by
        intro key
        rw [List.length_append, List.length_singleton]
        omega
      constructor
      · rintro ⟨loop, hloop, hconfig⟩
        rw [EventLoop.feed_cons] at hloop
        obtain ⟨next, hnext, hrest⟩ := bind_eq_ok.mp hloop
        obtain ⟨hnew, key, hkey, hmiss, rfl⟩ := (addReference_iff (by omega)).mp hnext
        obtain ⟨more, hmore, hnames, hdigests, heq⟩ := (ih (hfits key)
          (List.nodup_cons.mpr ⟨hnew, hdone⟩) (hone key hmiss)).mp ⟨loop, hrest, hconfig⟩
        rw [List.append_assoc, List.singleton_append] at hdigests heq
        refine ⟨key :: more, .cons hkey hmore, ?_, hdigests, heq⟩
        rw [List.reverse_cons, List.append_assoc, List.singleton_append]
        exact hnames
      · rintro ⟨more, hmore, hnames, hdigests, rfl⟩
        cases hmore with
        | @cons _ key _ others hkey hothers =>
            rw [List.reverse_cons, List.append_assoc, List.singleton_append] at hnames
            have hlater := (List.nodup_append.mp hnames).2.1
            have hmiss : s.lib.sha256 key ∉ keys.map s.lib.sha256 := by
              rw [List.map_append, List.map_cons] at hdigests
              intro hmem
              exact (List.nodup_append.mp hdigests).2.2 _ hmem _ (List.mem_cons_self ..) rfl
            obtain ⟨loop, hloop, hconfig⟩ := (ih (hfits key) hlater (hone key hmiss)).mpr
              ⟨others, hothers, hnames, by simpa using hdigests, rfl⟩
            refine ⟨loop, ?_, by rw [hconfig]; simp⟩
            rw [EventLoop.feed_cons, (addReference_iff (by omega)).mpr
              ⟨(List.nodup_cons.mp hlater).1, key, hkey, hmiss, rfl⟩]
            exact hloop

theorem configureKeys_iff {references : List Text} (hcount : references.length ≤ 4)
    {config : ApiKeyAuthConfig} :
    configureKeys s references = .ok config ↔
      ∃ keys, References s references keys ∧ config = keyTable (keys.map s.lib.sha256) := by
  have hnone : (([] : List Text).map s.lib.sha256).Nodup := List.nodup_nil
  have hfeed : (∃ loop, EventLoop.feed (addReference s)
      ⟨keyTable (([] : List Text).map s.lib.sha256), []⟩ references = .ok loop
        ∧ loop.configured = config) ↔ _ :=
    feed_addReference_iff references (by simpa using hcount) List.nodup_nil hnone
  have hstart : (⟨keyTable (([] : List Text).map s.lib.sha256), []⟩ : KeyLoop) = {} := by
    rw [List.map_nil, keyTable_nil]
  rw [hstart] at hfeed
  constructor
  · intro h
    obtain ⟨loop, hloop, h⟩ := bind_eq_ok.mp h
    cases h
    obtain ⟨keys, hresolve, hnames, hdigests, heq⟩ := hfeed.mp ⟨loop, hloop, rfl⟩
    exact ⟨keys, ⟨hresolve, by simpa using hnames, by simpa using hdigests⟩, by simpa using heq⟩
  · rintro ⟨keys, ⟨hresolve, hnames, hdigests⟩, heq⟩
    obtain ⟨loop, hloop, rfl⟩ := hfeed.mpr
      ⟨keys, hresolve, by simpa using hnames, by simpa using hdigests, by simpa using heq⟩
    unfold configureKeys
    rw [hloop]
    rfl

/-! ## The other fields of a route -/

/-- A switch, off if it is left out. -/
def SwitchMeant (entry : Json) (name : Text) (value : Bool) : Prop :=
  (entry.get? name = none ∧ value = false) ∨ entry.get? name = some (.boolean value)

/-- Both numbers, and nothing else. -/
structure RateLimitSaid (object : Json) (limit : RateLimitConfig) : Prop where
  members : ∃ members, object = .object members ∧ members.length = 2
  requests : NumberSaid object "requests_per_second".toList 1 1000000 limit.requestsPerSecond.toNat
  burst : NumberSaid object "burst".toList 1 1000000 limit.burst.toNat

structure HealthCheckSaid (object : Json) (settings : HealthCheckConfig) : Prop where
  names : object.onlyNames healthFields = true
  path : object.get? "path".toList = some (.string settings.path) ∧ isHealthPath settings.path = true
  interval : NumberMeant object "interval_ms".toList 5000 100 60000 settings.intervalMs
  timeout : NumberMeant object "timeout_ms".toList 1000 50 60000 settings.timeoutMs
  unhealthy : NumberMeant object "unhealthy_threshold".toList 3 1 10 settings.unhealthyThreshold
  healthy : NumberMeant object "healthy_threshold".toList 2 1 10 settings.healthyThreshold
  order : settings.timeoutMs ≤ settings.intervalMs

/-- One reference, or one to four of them. -/
inductive ReferencesSaid : Json → List Text → Prop where
  | one (reference : Text) : ReferencesSaid (.object [(apiKeyEnvKey, .string reference)]) [reference]
  | several {references : List Text} (count : 1 ≤ references.length ∧ references.length ≤ 4)
      (nonempty : ∀ reference ∈ references, reference ≠ []) :
      ReferencesSaid (.object [(apiKeyEnvsKey, .array (references.map .string))]) references

/-- Different references to variables with keys of different digests. -/
def AuthSaid (s : Startup) (object : Json) (config : ApiKeyAuthConfig) : Prop :=
  ∃ references keys, ReferencesSaid object references ∧ References s references keys
    ∧ config = keyTable (keys.map s.lib.sha256)

/-- A section of a route, or none. -/
def SectionMeant {α : Type} (entry : Json) (name : Text) (said : Json → α → Prop) :
    Option α → Prop
  | none => entry.get? name = none
  | some x => ∃ object, entry.get? name = some object ∧ said object x

theorem booleanField_iff {message : String} {value : Bool} :
    booleanField object name message = .ok value ↔ SwitchMeant object name value := by
  unfold booleanField SwitchMeant
  cases hvalue : object.get? name with
  | none => simp [eq_comm]
  | some v => cases v <;> simp

theorem parseRateLimit_iff {limit : Option RateLimitConfig} :
    parseRateLimit entry = .ok limit ↔ SectionMeant entry rateLimitKey RateLimitSaid limit := by
  constructor
  · intro h
    unfold parseRateLimit at h
    split at h
    · rename_i habsent
      cases h
      exact habsent
    · rename_i object hobject
      split at h
      · rename_i members requestsValue burstValue hrequestsValue hburstValue
        split at h
        · cases h
        · rename_i hcount
          obtain ⟨requests, hrequests, h⟩ := bind_eq_ok.mp h
          obtain ⟨burst, hburst, h⟩ := bind_eq_ok.mp h
          cases h
          obtain ⟨hcounts, hrange⟩ := routeInteger_iff.mp hrequests
          obtain ⟨hcounts', hrange'⟩ := routeInteger_iff.mp hburst
          refine ⟨_, hobject, ⟨members, rfl, not_not.mp hcount⟩, ?_, ?_⟩
          · rw [toNat_ofNat hrange.2]
            exact ⟨⟨requestsValue, hrequestsValue, hcounts⟩, hrange⟩
          · rw [toNat_ofNat hrange'.2]
            exact ⟨⟨burstValue, hburstValue, hcounts'⟩, hrange'⟩
      · cases h
  · intro h
    unfold parseRateLimit
    cases limit with
    | none =>
        rw [show entry.get? rateLimitKey = none from h]
    | some limit =>
        obtain ⟨object, hobject, ⟨members, rfl, hcount⟩, ⟨⟨requests, hrequests, hcounts⟩, hrange⟩,
          ⟨burst, hburst, hcounts'⟩, hrange'⟩ := h
        rw [hobject]
        dsimp only
        rw [hrequests, hburst]
        dsimp only
        rw [if_neg (not_not.mpr hcount), routeInteger_iff.mpr ⟨hcounts, hrange⟩,
          routeInteger_iff.mpr ⟨hcounts', hrange'⟩]
        show Except.ok (some (RateLimitConfig.mk (UInt32.ofNat limit.requestsPerSecond.toNat)
          (UInt32.ofNat limit.burst.toNat))) = _
        rw [UInt32.ofNat_toNat, UInt32.ofNat_toNat]

theorem parseHealthSettings_iff {settings : HealthCheckConfig} :
    parseHealthSettings object = .ok settings ↔ HealthCheckSaid object settings := by
  constructor
  · intro h
    unfold parseHealthSettings at h
    split at h
    · rename_i path hpath
      split at h
      · cases h
      · rename_i hnames
        split at h
        · cases h
        · rename_i hvalid
          obtain ⟨interval, hinterval, h⟩ := bind_eq_ok.mp h
          obtain ⟨timeout, htimeout, h⟩ := bind_eq_ok.mp h
          obtain ⟨unhealthy, hunhealthy, h⟩ := bind_eq_ok.mp h
          obtain ⟨healthy, hhealthy, h⟩ := bind_eq_ok.mp h
          split at h
          · cases h
          · rename_i hle
            cases h
            exact {
              names := by simpa using hnames
              path := ⟨hpath, by simpa using hvalid⟩
              interval := (healthInteger_iff (by decide) (by decide)).mp hinterval
              timeout := (healthInteger_iff (by decide) (by decide)).mp htimeout
              unhealthy := (healthInteger_iff (by decide) (by decide)).mp hunhealthy
              healthy := (healthInteger_iff (by decide) (by decide)).mp hhealthy
              order := Nat.not_lt.mp hle }
    · cases h
  · intro h
    have hinterval : healthInteger object "interval_ms".toList ⟨5000, 100, 60000⟩
        = .ok settings.intervalMs := (healthInteger_iff (by decide) (by decide)).mpr h.interval
    have htimeout : healthInteger object "timeout_ms".toList ⟨1000, 50, 60000⟩
        = .ok settings.timeoutMs := (healthInteger_iff (by decide) (by decide)).mpr h.timeout
    have hunhealthy : healthInteger object "unhealthy_threshold".toList ⟨3, 1, 10⟩
        = .ok settings.unhealthyThreshold :=
      (healthInteger_iff (by decide) (by decide)).mpr h.unhealthy
    have hhealthy : healthInteger object "healthy_threshold".toList ⟨2, 1, 10⟩
        = .ok settings.healthyThreshold := (healthInteger_iff (by decide) (by decide)).mpr h.healthy
    unfold parseHealthSettings
    rw [h.path.1]
    dsimp only
    rw [if_neg (by simp [h.names]), if_neg (by simp [h.path.2]), hinterval, htimeout, hunhealthy,
      hhealthy]
    exact if_neg (Nat.not_lt.mpr h.order)

theorem parseHealthCheck_iff {settings : Option HealthCheckConfig} :
    parseHealthCheck entry = .ok settings
      ↔ SectionMeant entry healthCheckKey HealthCheckSaid settings := by
  unfold parseHealthCheck
  cases hobject : entry.get? healthCheckKey with
  | none =>
      cases settings with
      | none => exact iff_of_true rfl hobject
      | some settings =>
          refine iff_of_false (by simp) ?_
          rintro ⟨object, hsome, -⟩
          rw [hobject] at hsome
          cases hsome
  | some object =>
      rw [bind_eq_ok]
      constructor
      · rintro ⟨found, hfound, h⟩
        cases h
        exact ⟨object, hobject, parseHealthSettings_iff.mp hfound⟩
      · intro h
        cases settings with
        | none => cases hobject.symm.trans h
        | some settings =>
            obtain ⟨other, hother, hsaid⟩ := h
            obtain rfl := Option.some.inj (hobject.symm.trans hother)
            exact ⟨settings, parseHealthSettings_iff.mpr hsaid, rfl⟩

/-! ## References -/

theorem ReferencesSaid.count {references : List Text} (h : ReferencesSaid object references) :
    references.length ≤ 4 := by
  cases h with
  | one reference => simp
  | several count nonempty => exact count.2

theorem referenceText_eq_ok {value : Json} {reference : Text} :
    referenceText value = .ok reference ↔ value = .string reference ∧ reference ≠ [] := by
  cases value with
  | string text =>
      simp only [referenceText]
      split
      · rename_i hempty
        refine iff_of_false (by simp) ?_
        rintro ⟨heq, hne⟩
        cases heq
        exact hne (List.isEmpty_iff.mp hempty)
      · rename_i hnonempty
        rw [List.isEmpty_iff] at hnonempty
        constructor
        · intro h
          cases h
          exact ⟨rfl, hnonempty⟩
        · rintro ⟨heq, -⟩
          cases heq
          rfl
  | _ => simp [referenceText]

theorem mapM_referenceText_iff {values : List Json} {references : List Text} :
    values.mapM referenceText = .ok references ↔
      values = references.map .string ∧ ∀ reference ∈ references, reference ≠ [] := by
  constructor
  · intro h
    have heach := (EventLoop.mapM_eq_ok h).imp fun _ _ => referenceText_eq_ok.mp
    have hlength := heach.length_eq
    constructor
    · refine List.ext_getElem (by simpa using hlength) fun i hi hi' => ?_
      rw [List.getElem_map]
      exact (heach.get hi (by simpa using hi')).1
    · intro reference hmem
      obtain ⟨i, hi, rfl⟩ := List.getElem_of_mem hmem
      exact (heach.get (hlength ▸ hi) hi).2
  · rintro ⟨rfl, hnonempty⟩
    refine EventLoop.mapM_of_forall₂ ?_
    rw [List.forall₂_map_left_iff, List.forall₂_same]
    exact fun reference hmem => referenceText_eq_ok.mpr ⟨rfl, hnonempty reference hmem⟩

theorem keyReferences_iff {references : List Text} :
    keyReferences object = .ok references ↔ ReferencesSaid object references := by
  constructor
  · intro h
    unfold keyReferences at h
    split at h
    · rename_i members
      split at h
      · cases h
      · rename_i hcount
        obtain ⟨⟨key, value⟩, rfl⟩ := List.length_eq_one_iff.mp (not_not.mp hcount)
        have hget : ∀ field, (Json.object [(key, value)]).get? field
            = if key = field then some value else none := by
          intro field
          by_cases hkey : key = field <;> simp [Json.get?, hkey]
        rw [hget, hget] at h
        by_cases hone : key = apiKeyEnvKey
        · subst hone
          rw [if_pos rfl] at h
          cases value with
          | string reference =>
              cases h
              exact .one reference
          | _ => cases h
        · rw [if_neg hone] at h
          by_cases hseveral : key = apiKeyEnvsKey
          · subst hseveral
            rw [if_pos rfl] at h
            cases value with
            | array values =>
                dsimp only at h
                split at h
                · cases h
                · rename_i hsize
                  have hrange := countOk_iff.mp hsize
                  obtain ⟨rfl, hnonempty⟩ := mapM_referenceText_iff.mp h
                  rw [List.length_map] at hrange
                  exact .several hrange hnonempty
            | _ => cases h
          · rw [if_neg hseveral] at h
            cases h
    · cases h
  · rintro (reference | ⟨hrange, hnonempty⟩)
    · rfl
    · have hcount := countOk_iff.mpr
        (show 1 ≤ (references.map Json.string).length ∧ _ by rwa [List.length_map])
      exact (if_neg hcount).trans (mapM_referenceText_iff.mpr ⟨rfl, hnonempty⟩)

theorem parseAuth_iff {auth : Option ApiKeyAuthConfig} :
    parseAuth s entry = .ok auth ↔ SectionMeant entry authFieldKey (AuthSaid s) auth := by
  unfold parseAuth
  cases hobject : entry.get? authFieldKey with
  | none =>
      cases auth with
      | none => exact iff_of_true rfl hobject
      | some config =>
          refine iff_of_false (by simp) ?_
          rintro ⟨object, hsome, -⟩
          rw [hobject] at hsome
          cases hsome
  | some object =>
      rw [bind_eq_ok]
      constructor
      · rintro ⟨references, hreferences, h⟩
        obtain ⟨config, hconfig, h⟩ := bind_eq_ok.mp h
        cases h
        have hsaid := keyReferences_iff.mp hreferences
        obtain ⟨keys, hkeys, heq⟩ := (configureKeys_iff hsaid.count).mp hconfig
        exact ⟨object, hobject, references, keys, hsaid, hkeys, heq⟩
      · intro h
        cases auth with
        | none => cases hobject.symm.trans h
        | some config =>
            obtain ⟨other, hother, references, keys, hsaid, hkeys, heq⟩ := h
            obtain rfl := Option.some.inj (hobject.symm.trans hother)
            refine ⟨references, keyReferences_iff.mpr hsaid, ?_⟩
            rw [(configureKeys_iff hsaid.count).mpr ⟨keys, hkeys, heq⟩]
            rfl

/-! ## Routes and tables -/

structure RouteSaid (s : Startup) (entry : Json) (route : RouteConfig) : Prop where
  names : entry.onlyNames routeFields = true
  routePrefix : entry.get? "prefix".toList = some (.string route.routePrefix)
    ∧ IsPrefix route.routePrefix
  upstreams : UpstreamsSaid s entry route.upstreams
  stripPrefix : SwitchMeant entry "strip_prefix".toList route.stripPrefix
  rateLimit : SectionMeant entry rateLimitKey RateLimitSaid route.rateLimit
  healthCheck : SectionMeant entry healthCheckKey HealthCheckSaid route.healthCheck
  auth : SectionMeant entry authFieldKey (AuthSaid s) route.auth
  streamResponse : SwitchMeant entry "stream_response".toList route.streamResponse

/-- One to thirty-two entries, each of which says a route, with different prefixes. -/
structure TableSaid (s : Startup) (entries : List Json) (routes : List RouteConfig) : Prop where
  count : 1 ≤ entries.length ∧ entries.length ≤ 32
  each : List.Forall₂ (RouteSaid s) entries routes
  distinct : (routes.map RouteConfig.routePrefix).Nodup

theorem parsePrefix_iff {prefixes : List Text} {routePrefix : Text} :
    parsePrefix prefixes entry = .ok routePrefix ↔ entry.onlyNames routeFields = true
      ∧ (entry.get? "prefix".toList = some (.string routePrefix) ∧ IsPrefix routePrefix)
      ∧ routePrefix ∉ prefixes := by
  constructor
  · intro h
    unfold parsePrefix at h
    split at h
    · cases h
    · rename_i value hvalue
      split at h
      · cases h
      · rename_i hnames
        split at h
        · rename_i text
          obtain ⟨_, hvalid, h⟩ := bind_eq_ok.mp h
          split at h
          · cases h
          · rename_i hnew
            cases h
            exact ⟨by simpa using hnames, ⟨hvalue, (validateRoutePrefix_iff _).mp hvalid⟩,
              by simpa using hnew⟩
        · cases h
  · rintro ⟨hnames, ⟨hvalue, hvalid⟩, hnew⟩
    unfold parsePrefix
    rw [hvalue]
    dsimp only
    rw [if_neg (by simp [hnames]), (validateRoutePrefix_iff _).mpr hvalid]
    exact if_neg (by simpa using hnew)

theorem parseRoute_iff {prefixes : List Text} {route : RouteConfig} :
    parseRoute s prefixes entry = .ok route ↔
      RouteSaid s entry route ∧ route.routePrefix ∉ prefixes := by
  constructor
  · intro h
    obtain ⟨routePrefix, hprefix, h⟩ := bind_eq_ok.mp h
    obtain ⟨upstreams, hupstreams, h⟩ := bind_eq_ok.mp h
    obtain ⟨stripPrefix, hstrip, h⟩ := bind_eq_ok.mp h
    obtain ⟨rateLimit, hlimit, h⟩ := bind_eq_ok.mp h
    obtain ⟨healthCheck, hhealth, h⟩ := bind_eq_ok.mp h
    obtain ⟨auth, hauth, h⟩ := bind_eq_ok.mp h
    obtain ⟨streamResponse, hstream, h⟩ := bind_eq_ok.mp h
    cases h
    obtain ⟨hnames, hvalid, hnew⟩ := parsePrefix_iff.mp hprefix
    exact ⟨{
      names := hnames
      routePrefix := hvalid
      upstreams := parseUpstreams_iff.mp hupstreams
      stripPrefix := booleanField_iff.mp hstrip
      rateLimit := parseRateLimit_iff.mp hlimit
      healthCheck := parseHealthCheck_iff.mp hhealth
      auth := parseAuth_iff.mp hauth
      streamResponse := booleanField_iff.mp hstream }, hnew⟩
  · rintro ⟨h, hnew⟩
    unfold parseRoute
    rw [parsePrefix_iff.mpr ⟨h.names, h.routePrefix, hnew⟩, parseUpstreams_iff.mpr h.upstreams,
      booleanField_iff.mpr h.stripPrefix, parseRateLimit_iff.mpr h.rateLimit,
      parseHealthCheck_iff.mpr h.healthCheck, parseAuth_iff.mpr h.auth,
      booleanField_iff.mpr h.streamResponse]
    rfl

/-- The loop adds a route for every entry, and refuses a prefix that is there. -/
theorem feed_addRoute_iff {entries : List Json} {routes routes' : List RouteConfig}
    (hroutes : (routes.map RouteConfig.routePrefix).Nodup) :
    EventLoop.feed (addRoute s) routes entries = .ok routes' ↔
      ∃ more, routes' = routes ++ more ∧ List.Forall₂ (RouteSaid s) entries more
        ∧ (routes'.map RouteConfig.routePrefix).Nodup := by
  induction entries generalizing routes with
  | nil =>
      constructor
      · intro h
        cases h
        exact ⟨[], (List.append_nil _).symm, .nil, hroutes⟩
      · rintro ⟨more, rfl, hmore, -⟩
        cases hmore
        rw [List.append_nil]
        rfl
  | cons entry rest ih =>
      have hgrown : ∀ {route : RouteConfig}, route.routePrefix ∉ routes.map RouteConfig.routePrefix →
          ((routes ++ [route]).map RouteConfig.routePrefix).Nodup := by
        intro route hnew
        rw [List.map_append, List.map_singleton]
        simpa using List.Nodup.concat hnew hroutes
      rw [EventLoop.feed_cons]
      constructor
      · intro h
        obtain ⟨next, hnext, hrest⟩ := bind_eq_ok.mp h
        obtain ⟨route, hroute, hnext⟩ := bind_eq_ok.mp hnext
        cases hnext
        obtain ⟨hsaid, hnew⟩ := parseRoute_iff.mp hroute
        obtain ⟨more, rfl, hmore, hdistinct⟩ := (ih (hgrown hnew)).mp hrest
        exact ⟨route :: more, by simp, .cons hsaid hmore, hdistinct⟩
      · rintro ⟨more, rfl, hmore, hdistinct⟩
        cases hmore with
        | @cons _ route _ others hsaid hothers =>
            have hall := hdistinct
            rw [List.append_cons] at hdistinct
            have hfront : ((routes ++ [route]).map RouteConfig.routePrefix).Nodup := by
              rw [List.map_append] at hdistinct
              exact (List.nodup_append.mp hdistinct).1
            have hnew : route.routePrefix ∉ routes.map RouteConfig.routePrefix := by
              rw [List.map_append, List.map_singleton] at hfront
              intro hmem
              exact (List.nodup_append.mp hfront).2.2 _ hmem _ (List.mem_singleton_self _) rfl
            have hone : addRoute s routes entry = .ok (routes ++ [route]) := by
              unfold addRoute
              rw [parseRoute_iff.mpr ⟨hsaid, hnew⟩]
              rfl
            rw [hone]
            exact (ih hfront).mpr ⟨others, List.append_cons .., hothers, hall⟩

theorem routesOf_iff {document : Json} {routes : List RouteConfig} :
    routesOf s document = .ok routes ↔ ∃ entries, document = .array entries
      ∧ TableSaid s entries routes := by
  have hnone : (([] : List RouteConfig).map RouteConfig.routePrefix).Nodup := List.nodup_nil
  constructor
  · intro h
    unfold routesOf at h
    split at h
    · rename_i entries
      split at h
      · cases h
      · rename_i hcount
        obtain ⟨more, rfl, heach, hdistinct⟩ := (feed_addRoute_iff hnone).mp h
        exact ⟨entries, rfl, countOk_iff.mp hcount, heach, hdistinct⟩
    · cases h
  · rintro ⟨entries, rfl, hcount, heach, hdistinct⟩
    unfold routesOf
    dsimp only
    rw [if_neg (countOk_iff.mpr hcount)]
    exact (feed_addRoute_iff hnone).mpr ⟨routes, rfl, heach, hdistinct⟩

theorem parseDocument_iff {value : Text} {document : Json} :
    parseDocument s value = .ok document ↔ s.parseJson value = .document document
      ∧ Passes document := by
  unfold parseDocument
  cases hparsed : s.parseJson value with
  | document found =>
      rw [bind_eq_ok]
      constructor
      · rintro ⟨final, hfinal, h⟩
        cases h
        exact ⟨rfl, final, hfinal⟩
      · rintro ⟨heq, final, hfinal⟩
        cases heq
        exact ⟨final, hfinal, rfl⟩
  | malformed reported =>
      refine iff_of_false (fun h => ?_) (fun h => by cases h.1)
      obtain ⟨_, -, h⟩ := bind_eq_ok.mp h
      cases h

/-- A text is accepted exactly when it has at most 65536 bytes and is that of an array with the
shape of a route document which says a table of routes; and this table is what it is read as. -/
theorem accepted_texts_exact (s : Startup) (value : Text) (routes : List RouteConfig) :
    parseRoutes s value = .ok routes ↔ value.length ≤ 65536
      ∧ ∃ entries, s.parseJson value = .document (.array entries) ∧ Document (.array entries)
        ∧ TableSaid s entries routes := by
  have hread : (parseDocument s value >>= routesOf s) = .ok routes ↔
      ∃ entries, s.parseJson value = .document (.array entries) ∧ Document (.array entries)
        ∧ TableSaid s entries routes := by
    rw [bind_eq_ok]
    constructor
    · rintro ⟨document, hdocument, h⟩
      obtain ⟨entries, rfl, htable⟩ := routesOf_iff.mp h
      obtain ⟨hparsed, hpasses⟩ := parseDocument_iff.mp hdocument
      exact ⟨entries, hparsed, (passes_iff _).mp hpasses, htable⟩
    · rintro ⟨entries, hparsed, hshape, htable⟩
      exact ⟨.array entries, parseDocument_iff.mpr ⟨hparsed, (passes_iff _).mpr hshape⟩,
        routesOf_iff.mpr ⟨entries, rfl, htable⟩⟩
  unfold parseRoutes
  split
  · exact iff_of_false (by simp) (by omega)
  · rw [hread]
    exact ⟨fun h => ⟨by omega, h⟩, fun h => h.2⟩

end LoadConfig

end ApiGate
