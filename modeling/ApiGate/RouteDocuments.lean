import ApiGate.RouteMeaning

/-!
# Every table of routes has a document

A document says more or less in words: defaults may be left out, one upstream may stand in the
route itself, and one key has a form of its own. `tableDocument` spells everything out. What it
says is the table that it was made of, so any text of it that is short enough is read back as
this table.
-/

namespace ApiGate

namespace LoadConfig

open ConfigText RoutesCallback ApiKeys
open EventLoop (bind_eq_ok)

variable {s : Startup}

/-! ## Documents -/

def number (n : Nat) : Json := .unsigned (UInt64.ofNat n)

def upstreamDocument (u : UpstreamConfig) : Json :=
  .object [("host".toList, .string u.host), ("port".toList, number u.port),
    ("timeout_ms".toList, number u.timeoutMs), ("scheme".toList, .string (schemeText u.scheme))]

def rateLimitDocument (limit : RateLimitConfig) : Json :=
  .object [("requests_per_second".toList, number limit.requestsPerSecond.toNat),
    ("burst".toList, number limit.burst.toNat)]

def healthDocument (settings : HealthCheckConfig) : Json :=
  .object [("path".toList, .string settings.path), ("interval_ms".toList, number settings.intervalMs),
    ("timeout_ms".toList, number settings.timeoutMs),
    ("unhealthy_threshold".toList, number settings.unhealthyThreshold),
    ("healthy_threshold".toList, number settings.healthyThreshold)]

def authDocument (references : List Text) : Json :=
  .object [(apiKeyEnvsKey, .array (references.map .string))]

/-- The fields of a route that may be absent. -/
def optionalMembers (references : List Text) (route : RouteConfig) : List (Text × Json) :=
  (route.rateLimit.map fun limit => (rateLimitKey, rateLimitDocument limit)).toList
    ++ (route.healthCheck.map fun settings => (healthCheckKey, healthDocument settings)).toList
    ++ (route.auth.map fun _ => (authFieldKey, authDocument references)).toList

def routeMembers (references : List Text) (route : RouteConfig) : List (Text × Json) :=
  [("prefix".toList, .string route.routePrefix),
    (upstreamsKey, .array (route.upstreams.map upstreamDocument)),
    ("strip_prefix".toList, .boolean route.stripPrefix),
    ("stream_response".toList, .boolean route.streamResponse)] ++ optionalMembers references route

def routeDocument (references : List Text) (route : RouteConfig) : Json :=
  .object (routeMembers references route)

/-- The routes, each with the references to its keys. -/
def tableDocument (table : List (RouteConfig × List Text)) : Json :=
  .array (table.map fun x => routeDocument x.2 x.1)

/-! ### What the parts say -/

theorem numberSaid_number {object : Json} {name : Text} {low high n : Nat}
    (hvalue : object.get? name = some (number n)) (hlow : low ≤ n) (hhigh : n ≤ high)
    (hsize : high ≤ 1000000) : NumberSaid object name low high n := by
  have hsame : (UInt64.ofNat n).toNat = n := by
    rw [UInt64.toNat_ofNat']
    exact Nat.mod_eq_of_lt (by omega)
  have hcounts := Counts.unsigned (UInt64.ofNat n)
  rw [hsame] at hcounts
  exact ⟨⟨number n, hvalue, hcounts⟩, hlow, hhigh⟩

/-- A host that the check leaves as it is. -/
structure HostOk (s : Startup) (host : Text) : Prop where
  nonempty : host ≠ []
  same : parseUpstreamHost s.makeAddress host = .ok host

theorem HostOk.meant {host : Text} (h : HostOk s host) : HostMeant s host host := by
  refine validatedHost_iff.mp ?_
  unfold validatedHost
  rw [if_neg (by simpa using h.nonempty), h.same]

theorem upstreamSaid_document {u : UpstreamConfig} (hok : UpstreamOk u) (hhost : HostOk s u.host) :
    UpstreamSaid s (upstreamDocument u) u where
  host := ⟨u.host, rfl, hhost.meant⟩
  port := numberSaid_number rfl hok.port.1 hok.port.2 (by decide)
  timeout := .inr (numberSaid_number rfl hok.timeout.1 hok.timeout.2 (by decide))
  scheme := .inr rfl

theorem rateLimitSaid_document {limit : RateLimitConfig} (hok : RateLimitOk limit) :
    RateLimitSaid (rateLimitDocument limit) limit where
  members := ⟨_, rfl, rfl⟩
  requests := numberSaid_number rfl hok.requests.1 hok.requests.2 (by decide)
  burst := numberSaid_number rfl hok.burst.1 hok.burst.2 (by decide)

theorem healthCheckSaid_document {settings : HealthCheckConfig} (hok : HealthCheckOk settings) :
    HealthCheckSaid (healthDocument settings) settings where
  names := by simp [healthDocument, Json.onlyNames, healthFields]
  path := ⟨rfl, hok.path⟩
  interval := .inr (numberSaid_number rfl hok.interval.1 hok.interval.2 (by decide))
  timeout := .inr (numberSaid_number rfl hok.timeout.1 (hok.timeout.2.trans hok.interval.2)
    (by decide))
  unhealthy := .inr (numberSaid_number rfl hok.unhealthy.1 hok.unhealthy.2 (by decide))
  healthy := .inr (numberSaid_number rfl hok.healthy.1 hok.healthy.2 (by decide))
  order := hok.timeout.2

/-! ### A route -/

/-- The names of the members of a route, when all are there. -/
def memberNames : List Text :=
  ["prefix".toList, upstreamsKey, "strip_prefix".toList, "stream_response".toList, rateLimitKey,
   healthCheckKey, authFieldKey]

theorem sublist_singleton {α : Type} (x : Option α) (name : Text) (f : α → Json) :
    ((x.map fun a => (name, f a)).toList.map Prod.fst).Sublist [name] := by
  cases x with
  | none => exact List.nil_sublist _
  | some a => exact List.Sublist.refl _

theorem memberNames_sublist (references : List Text) (route : RouteConfig) :
    ((routeMembers references route).map Prod.fst).Sublist memberNames := by
  unfold routeMembers optionalMembers memberNames
  rw [List.map_append, List.map_append, List.map_append]
  have hoptional := ((sublist_singleton route.rateLimit rateLimitKey rateLimitDocument).append
    (sublist_singleton route.healthCheck healthCheckKey healthDocument)).append
    (sublist_singleton route.auth authFieldKey fun _ => authDocument references)
  exact (List.Sublist.refl ["prefix".toList, upstreamsKey, "strip_prefix".toList,
    "stream_response".toList]).append hoptional

theorem memberNames_nodup : memberNames.Nodup := by decide

theorem onlyNames_routeDocument (references : List Text) (route : RouteConfig) :
    (routeDocument references route).onlyNames routeFields = true := by
  have hall : ∀ name ∈ memberNames, routeFields.contains name = true := by decide
  show ((routeMembers references route).all fun m => routeFields.contains m.1) = true
  rw [List.all_eq_true]
  intro m hm
  exact hall m.1 ((memberNames_sublist references route).subset (List.mem_map_of_mem hm))

/-- What the rest of the document has under these names. -/
theorem get?_routeDocument (references : List Text) (route : RouteConfig) :
    (routeDocument references route).get? rateLimitKey = route.rateLimit.map rateLimitDocument
      ∧ (routeDocument references route).get? healthCheckKey
        = route.healthCheck.map healthDocument
      ∧ (routeDocument references route).get? authFieldKey
        = route.auth.map fun _ => authDocument references := by
  obtain ⟨routePrefix, upstreams, stripPrefix, rateLimit, healthCheck, auth, streamResponse⟩ := route
  cases rateLimit <;> cases healthCheck <;> cases auth <;> exact ⟨rfl, rfl, rfl⟩

theorem get?_upstreamFields (references : List Text) (route : RouteConfig) :
    (upstreamFields.any fun field => ((routeDocument references route).get? field).isSome)
      = false := by
  obtain ⟨routePrefix, upstreams, stripPrefix, rateLimit, healthCheck, auth, streamResponse⟩ := route
  cases rateLimit <;> cases healthCheck <;> cases auth <;> rfl

/-- A route that a document can say. -/
structure Expressible (s : Startup) (references : List Text) (route : RouteConfig) : Prop where
  ok : RouteOk route
  host : ∀ u ∈ route.upstreams, HostOk s u.host
  auth : ∀ config, route.auth = some config → 1 ≤ references.length ∧ references.length ≤ 4
    ∧ ∃ keys, References s references keys ∧ config = keyTable (keys.map s.lib.sha256)

theorem References.ne_nil {references keys : List Text} (h : References s references keys) :
    ∀ name ∈ references, name ≠ [] := by
  intro name hname hnil
  obtain ⟨i, hi, rfl⟩ := List.getElem_of_mem hname
  have hresolve := h.resolve.get hi (h.resolve.length_eq ▸ hi)
  have hvalid := hresolve.name
  rw [List.get_eq_getElem, hnil] at hvalid
  cases hvalid

theorem sectionMeant_map {α : Type} {entry : Json} {name : Text} {said : Json → α → Prop}
    {f : α → Json} {x : Option α} (hget : entry.get? name = x.map f)
    (hsaid : ∀ a, x = some a → said (f a) a) : SectionMeant entry name said x := by
  cases x with
  | none => exact hget
  | some a => exact ⟨f a, hget, hsaid a rfl⟩

theorem routeSaid_document {references : List Text} {route : RouteConfig}
    (h : Expressible s references route) : RouteSaid s (routeDocument references route) route := by
  obtain ⟨hlimit, hhealth, hauth⟩ := get?_routeDocument references route
  have hpool : UpstreamsSaid s (routeDocument references route) route.upstreams := by
    refine .pool rfl ?_ (fun field hfield => ?_) ?_
    · rw [List.length_map]
      exact h.ok.upstreams
    · have hnone := List.any_eq_false.mp (get?_upstreamFields references route) field hfield
      simpa using hnone
    · rw [List.forall₂_map_left_iff, List.forall₂_same]
      exact fun u hu => ⟨rfl, by simp [Json.onlyNames, upstreamDocument, upstreamFields],
        upstreamSaid_document (h.ok.upstream u hu) (h.host u hu)⟩
  exact {
    names := onlyNames_routeDocument references route
    routePrefix := ⟨rfl, h.ok.routePrefix⟩
    upstreams := hpool
    stripPrefix := .inr rfl
    rateLimit := sectionMeant_map hlimit fun limit hsome =>
      rateLimitSaid_document (h.ok.rateLimit limit hsome)
    healthCheck := sectionMeant_map hhealth fun settings hsome =>
      healthCheckSaid_document (h.ok.healthCheck settings hsome)
    auth := sectionMeant_map hauth fun config hsome => by
      obtain ⟨hlow, hhigh, keys, hkeys, heq⟩ := h.auth config hsome
      exact ⟨references, keys, .several ⟨hlow, hhigh⟩ hkeys.ne_nil, hkeys, heq⟩
    streamResponse := .inr rfl }

/-! ### The shape of the document -/

theorem upstreamEntry_document (u : UpstreamConfig) : UpstreamEntry (upstreamDocument u) := by
  have hnames : (["host".toList, "port".toList, "timeout_ms".toList,
      "scheme".toList] : List Text).Nodup := by decide
  refine ⟨hnames, ?_⟩
  intro field hfield
  simp only [List.mem_cons, List.not_mem_nil, or_false] at hfield
  rcases hfield with rfl | rfl | rfl | rfl <;> rfl

theorem routeValue_upstreams {upstreams : List UpstreamConfig} (hcount : upstreams.length ≤ 16) :
    RouteValue upstreamsKey (.array (upstreams.map upstreamDocument)) := by
  refine ⟨rfl, ?_, fun e he => ?_⟩
  · refine List.countP_le_length.trans ?_
    rw [List.length_map]
    exact hcount
  · obtain ⟨upstream, -, rfl⟩ := List.mem_map.mp he
    exact upstreamEntry_document upstream

theorem routeValue_rateLimit (limit : RateLimitConfig) :
    RouteValue rateLimitKey (rateLimitDocument limit) := by
  have hnames : (["requests_per_second".toList, "burst".toList] : List Text).Nodup := by decide
  have hother : rateLimitKey ≠ authFieldKey := by decide
  refine ⟨.inl rfl, hnames, fun hauth => absurd hauth hother, ?_⟩
  intro field hfield
  simp only [List.mem_cons, List.not_mem_nil, or_false] at hfield
  rcases hfield with rfl | rfl <;> trivial

theorem routeValue_health (settings : HealthCheckConfig) :
    RouteValue healthCheckKey (healthDocument settings) := by
  have hnames : (["path".toList, "interval_ms".toList, "timeout_ms".toList,
      "unhealthy_threshold".toList, "healthy_threshold".toList] : List Text).Nodup := by decide
  have hother : healthCheckKey ≠ authFieldKey := by decide
  refine ⟨.inr (.inl rfl), hnames, fun hauth => absurd hauth hother, ?_⟩
  intro field hfield
  simp only [List.mem_cons, List.not_mem_nil, or_false] at hfield
  rcases hfield with rfl | rfl | rfl | rfl | rfl <;> trivial

theorem routeValue_auth {references : List Text} (hcount : references.length ≤ 4)
    (hnonempty : ∀ name ∈ references, name ≠ []) :
    RouteValue authFieldKey (authDocument references) := by
  refine ⟨.inr (.inr rfl), List.nodup_singleton _, fun _ field hfield => ?_, fun field hfield => ?_⟩
  · rw [List.mem_singleton.mp hfield]
    exact .inr rfl
  · rw [List.mem_singleton.mp hfield]
    refine ⟨⟨rfl, rfl⟩, fun e he => ?_, by rwa [List.length_map]⟩
    obtain ⟨name, hname, rfl⟩ := List.mem_map.mp he
    simp [isReference, hnonempty name hname]

theorem routeEntry_document {references : List Text} {route : RouteConfig}
    (h : Expressible s references route) : RouteEntry (routeDocument references route) := by
  refine ⟨(memberNames_sublist references route).nodup memberNames_nodup, fun m hm => ?_⟩
  rcases List.mem_append.mp hm with hfixed | hoptional
  · simp only [List.mem_cons, List.not_mem_nil, or_false] at hfixed
    rcases hfixed with rfl | rfl | rfl | rfl
    · trivial
    · exact routeValue_upstreams h.ok.upstreams.2
    · trivial
    · trivial
  · unfold optionalMembers at hoptional
    simp only [List.mem_append, Option.mem_toList, Option.map_eq_some_iff] at hoptional
    rcases hoptional with (⟨limit, -, rfl⟩ | ⟨settings, -, rfl⟩) | ⟨config, hconfig, rfl⟩
    · exact routeValue_rateLimit limit
    · exact routeValue_health settings
    · obtain ⟨-, hhigh, keys, hkeys, -⟩ := h.auth config hconfig
      exact routeValue_auth hhigh hkeys.ne_nil

/-! ### A table -/

theorem passes_tableDocument {table : List (RouteConfig × List Text)}
    (hcount : table.length ≤ 32) (htable : ∀ x ∈ table, Expressible s x.2 x.1) :
    Passes (tableDocument table) := by
  rw [passes_iff]
  refine ⟨?_, fun e he => ?_⟩
  · refine List.countP_le_length.trans ?_
    rw [List.length_map]
    exact hcount
  · obtain ⟨x, hx, rfl⟩ := List.mem_map.mp he
    exact routeEntry_document (htable x hx)

theorem tableSaid_document {table : List (RouteConfig × List Text)}
    (hcount : 1 ≤ table.length ∧ table.length ≤ 32)
    (hdistinct : ((table.map Prod.fst).map RouteConfig.routePrefix).Nodup)
    (htable : ∀ x ∈ table, Expressible s x.2 x.1) :
    TableSaid s (table.map fun x => routeDocument x.2 x.1) (table.map Prod.fst) where
  count := by
    rw [List.length_map]
    exact hcount
  each := by
    rw [List.forall₂_map_left_iff, List.forall₂_map_right_iff, List.forall₂_same]
    exact fun x hx => routeSaid_document (htable x hx)
  distinct := hdistinct

/-- A table of routes with different prefixes, each of which can be said, is read back from its
document as it was. -/
theorem routes_read_back (s : Startup) (table : List (RouteConfig × List Text)) {value : Text}
    (hsize : value.length ≤ 65536) (hparse : s.parseJson value = .document (tableDocument table))
    (hcount : 1 ≤ table.length ∧ table.length ≤ 32)
    (hdistinct : ((table.map Prod.fst).map RouteConfig.routePrefix).Nodup)
    (htable : ∀ x ∈ table, Expressible s x.2 x.1) :
    parseRoutes s value = .ok (table.map Prod.fst) := by
  unfold parseRoutes
  rw [if_neg (by omega), parseDocument_iff.mpr ⟨hparse, passes_tableDocument hcount.2 htable⟩]
  exact routesOf_iff.mpr ⟨_, rfl, tableSaid_document hcount hdistinct htable⟩

/-- The route with one key, spelled out. -/
def loopbackText : Text :=
  ("[\x7b\"prefix\":\"/\",\"upstreams\":[\x7b\"host\":\"::1\",\"port\":80,\"timeout_ms\":3000,"
    ++ "\"scheme\":\"http\"\x7d],\"strip_prefix\":false,\"stream_response\":false,"
    ++ "\"auth\":\x7b\"api_key_envs\":[\"APIGATE_AUTH_KEY_A\"]\x7d\x7d]").toList

/-- One route with one key, over an address. -/
def loopback : Startup where
  getenv name := if name = "APIGATE_AUTH_KEY_A".toList then some (List.replicate 32 'a') else none
  makeAddress host := if host = "::1".toList then some host else none
  parseJson :=
    readsOnly loopbackText (tableDocument [(oneKeyRoute, ["APIGATE_AUTH_KEY_A".toList])])
  lib := { intToStatus := id, sha256 := id }
  digestFails _ := false
  loadUpstreamTls _ := some 0
  loadDownstreamTls _ _ := true

theorem expressible_oneKeyRoute :
    Expressible loopback ["APIGATE_AUTH_KEY_A".toList] oneKeyRoute := by
  refine ⟨⟨?_, by decide, ?_, ?_, ?_⟩, ?_, ?_⟩
  · exact (validateRoutePrefix_iff _).mp rfl
  · intro u hu
    rw [List.mem_singleton.mp hu]
    exact ⟨by decide, by decide⟩
  · intro limit hlimit
    cases hlimit
  · intro settings hsettings
    cases hsettings
  · intro u hu
    rw [List.mem_singleton.mp hu]
    exact ⟨by decide, rfl⟩
  · intro config hconfig
    cases hconfig
    refine ⟨by decide, by decide, [List.replicate 32 'a'], ⟨.cons ?_ .nil, by decide, by decide⟩, rfl⟩
    exact ⟨rfl, rfl, (validApiKey_iff _).mp rfl, rfl⟩

theorem loopback_parseJson (text : Text) : loopback.parseJson text
    = readsOnly loopbackText (tableDocument [(oneKeyRoute, ["APIGATE_AUTH_KEY_A".toList])]) text := rfl

theorem routes_read_back_one_key : parseRoutes loopback loopbackText = .ok [oneKeyRoute] := by
  have hsize : loopbackText.length ≤ 65536 := by decide +kernel
  have hread : loopback.parseJson loopbackText
      = .document (tableDocument [(oneKeyRoute, ["APIGATE_AUTH_KEY_A".toList])]) := by
    rw [loopback_parseJson, readsOnly_self]
  exact routes_read_back loopback [(oneKeyRoute, ["APIGATE_AUTH_KEY_A".toList])] hsize hread
    (by decide) (by decide) fun x hx => by
      rw [List.mem_singleton.mp hx]
      exact expressible_oneKeyRoute

/-! ## Hosts in their canonical form -/

/-- The text of an address is an address with this text, and not empty. -/
def Canonical (makeAddress : Text → Option Text) : Prop :=
  ∀ text address, makeAddress text = some address →
    address ≠ [] ∧ makeAddress address = some address

theorem hostOk_of_validatedHost (hcanonical : Canonical s.makeAddress) {host validated : Text}
    (h : validatedHost s host = .ok validated) : HostOk s validated := by
  unfold validatedHost at h
  dsimp only at h
  split at h
  · cases h
  · rename_i hnonempty
    unfold parseUpstreamHost at h
    cases haddress : s.makeAddress host with
    | some address =>
        rw [haddress] at h
        cases h
        obtain ⟨hne, hsame⟩ := hcanonical _ _ haddress
        refine ⟨hne, ?_⟩
        unfold parseUpstreamHost
        rw [hsame]
    | none =>
        rw [haddress] at h
        cases hname : validateDnsHostname host with
        | error message =>
            rw [hname] at h
            cases h
        | ok u =>
            rw [hname] at h
            cases h
            refine ⟨by simpa using hnonempty, ?_⟩
            unfold parseUpstreamHost
            rw [haddress]
            show (validateDnsHostname host >>= _) = _
            rw [hname]
            rfl

theorem canonical_loopback : Canonical loopback.makeAddress := by
  intro text address h
  unfold loopback at h ⊢
  dsimp only at h ⊢
  split at h
  · rename_i heq
    cases h
    subst heq
    exact ⟨by decide, by decide⟩
  · cases h

end LoadConfig

end ApiGate
