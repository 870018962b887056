import ApiGate.AcceptedConfig
import ApiGate.AdmissionGuards
import ApiGate.MetricsText
import ApiGate.ProbeTargets

/-!
# The guards behind an accepted configuration

The server checks again what the loader has checked: buckets and schedules are made
with ranges of their own, an admission throws on a route that does not fit its state,
a connection and a probe throw without trust, and the metrics have limits. Under an
accepted configuration none of these throws.
-/

namespace ApiGate

open EventLoop Act

/-! ## Metrics -/

namespace Metrics

open Exposition

/-- Neither of the limits on the configuration. -/
def Tolerated (e : RenderError) : Prop := e ≠ .routeLimit ∧ e ≠ .upstreamLimit

abbrev Tolerates (m : Exposition Unit) : Prop := Output.Throws Tolerated m

theorem tolerates_append (text : Text) : Tolerates (append text) :=
  Output.throws_append ⟨by simp, by simp⟩ text

theorem tolerates_number (chars : Option Text) : Tolerates (number chars) := by
  cases chars with
  | none => exact Output.throws_throw ⟨by simp, by simp⟩
  | some text => exact tolerates_append text

theorem tolerates_unsigned (value : Nat) : Tolerates (unsigned value) := tolerates_number _

theorem tolerates_family (f : MetricFamily) : Tolerates (family f) :=
  (tolerates_append _).seq <| (tolerates_append _).seq <| (tolerates_append _).seq <|
    (tolerates_append _).seq <| (tolerates_append _).seq <| (tolerates_append _).seq <|
    (tolerates_append _).seq <| (tolerates_append _).seq (tolerates_append _)

theorem tolerates_gauge (name help : Text) (value : UInt64) :
    Tolerates (Exposition.gauge name help value) :=
  (tolerates_family _).seq <| (tolerates_append _).seq <| (tolerates_append _).seq <|
    (tolerates_append _).seq <| (tolerates_unsigned _).seq (tolerates_append _)

/-- A line with one label. -/
theorem tolerates_line {inner value : Exposition Unit} (hinner : Tolerates inner)
    (hvalue : Tolerates value) (first mid last : Text) :
    Tolerates (append first >>= fun _ => inner >>= fun _ => append mid >>= fun _ =>
      value >>= fun _ => append last) :=
  (tolerates_append _).seq <| hinner.seq <| (tolerates_append _).seq <|
    hvalue.seq (tolerates_append _)

theorem tolerates_response (m : Metrics) (index : Nat) : Tolerates (renderResponse m index) := by
  refine tolerates_line ?_ (tolerates_unsigned _) _ _ _
  unfold renderStatus
  split
  · exact tolerates_append _
  · exact tolerates_unsigned _

theorem tolerates_available (health : UpstreamHealthState) (route slot : Nat) :
    Tolerates (renderAvailable health route slot) := by
  unfold renderAvailable
  split
  · exact Output.throws_throw ⟨by simp, by simp⟩
  · exact tolerates_unsigned _

theorem tolerates_slot (health : UpstreamHealthState) (route slot : Nat) :
    Tolerates (renderSlot health route slot) :=
  (tolerates_append _).seq <| (tolerates_unsigned _).seq <| (tolerates_append _).seq <|
    (tolerates_unsigned _).seq <| (tolerates_append _).seq <|
    (tolerates_available _ _ _).seq (tolerates_append _)

theorem tolerates_route (health : UpstreamHealthState) {entry : RouteConfig × Nat}
    (h : entry.1.upstreams.length ≤ 16) : Tolerates (renderRoute health entry) := by
  unfold renderRoute
  rw [if_neg (Nat.not_lt.mpr h)]
  exact Output.throws_forM fun slot _ => tolerates_slot health entry.2 slot

theorem tolerates_gauges (connections : AcceptCapacityState) (proxies : ProxyAdmissionState)
    (budget : BufferBudgetControl) : Tolerates (renderGauges connections proxies budget) :=
  (tolerates_gauge _ _ _).seq <| (tolerates_gauge _ _ _).seq <| (tolerates_gauge _ _ _).seq <|
    (tolerates_gauge _ _ _).seq <| (tolerates_gauge _ _ _).seq (tolerates_gauge _ _ _)

section Render

variable {D : Type} (toChars : D → Option Text) (m : Metrics) (processingSum : D)

theorem tolerates_processing : Tolerates (renderProcessing toChars m processingSum) :=
  tolerates_line (tolerates_number _) (tolerates_unsigned _) _ _ _

/-- Whatever the numbers are, and whatever the health state is. -/
theorem render_tolerated {config : AppConfig} (connections : AcceptCapacityState)
    (proxies : ProxyAdmissionState) (budget : BufferBudgetControl) (health : UpstreamHealthState)
    (hcount : config.routes.length ≤ 32)
    (hsize : ∀ route ∈ config.routes, route.upstreams.length ≤ 16) {e : RenderError}
    (h : render toChars m processingSum config connections proxies budget health = .error e) :
    Tolerated e := by
  have hroutes : Tolerates (config.routes.zipIdx.forM (renderRoute health)) := by
    refine Output.throws_forM fun entry hentry => tolerates_route health (hsize _ ?_)
    exact (List.mem_zipIdx' hentry).2 ▸ List.getElem_mem _
  have hfamilies : Tolerates
      (renderFamilies toChars m processingSum config connections proxies budget health) :=
    (tolerates_family _).seq <|
      (Output.throws_forM fun index _ => tolerates_response m index).seq <|
      (tolerates_family _).seq <|
      (Output.throws_forM fun _ _ =>
        tolerates_line (tolerates_append _) (tolerates_unsigned _) _ _ _).seq <|
      (tolerates_family _).seq <|
      (Output.throws_forM fun _ _ =>
        tolerates_line (tolerates_append _) (tolerates_unsigned _) _ _ _).seq <|
      (tolerates_family _).seq <| (tolerates_processing toChars m processingSum).seq <|
      (tolerates_gauges connections proxies budget).seq <| (tolerates_family _).seq hroutes
  unfold render at h
  rw [if_neg (Nat.not_lt.mpr hcount)] at h
  cases hrun : renderFamilies toChars m processingSum config connections proxies budget health []
    with
  | ok output =>
      rw [hrun] at h
      cases h
  | error e' =>
      rw [hrun] at h
      cases h
      exact hfamilies [] e hrun

end Render

end Metrics

/-! ## Requests -/

namespace LoadConfig

open RoutesCallback

variable {config : AppConfig} {request : HttpRequest} {route : SelectedRoute}

theorem RateLimitOk.admitted {limit : RateLimitConfig} (h : RateLimitOk limit) :
    TokenBucket.Admitted limit := ⟨h.requests.1, h.requests.2, h.burst.1, h.burst.2⟩

theorem Accepted.admitted (h : Accepted config) : ∀ route ∈ config.routes, ∀ limit,
    route.rateLimit = some limit → TokenBucket.Admitted limit :=
  fun route hroute limit hlimit => ((h.route route hroute).rateLimit limit hlimit).admitted

theorem Accepted.selected_count (h : Accepted config)
    (hselected : selectHttpRoute config request = some route) :
    1 ≤ route.upstreams.length ∧ route.upstreams.length ≤ 16 := by
  rcases selectHttpRoute_source hselected with ⟨upstream, -, rfl⟩ | ⟨r, entry, hentry, rfl⟩
  · exact ⟨Nat.le_refl 1, by simp⟩
  · exact (h.route entry (List.mem_of_getElem? hentry)).upstreams

theorem Accepted.selected_trusted (h : Accepted config)
    (hselected : selectHttpRoute config request = some route) {upstream : UpstreamConfig}
    (hupstream : upstream ∈ route.upstreams) (hscheme : upstream.scheme = .https) :
    config.upstreamTlsContext ≠ none := by
  rcases selectHttpRoute_source hselected with ⟨one, hone, rfl⟩ | ⟨r, entry, hentry, rfl⟩
  · -- the upstream without a table is never an https one
    obtain rfl := List.mem_singleton.mp hupstream
    rw [(h.upstream _ hone).2] at hscheme
    cases hscheme
  · exact h.trusted entry (List.mem_of_getElem? hentry) upstream hupstream hscheme

/-- A state that fits the routes fits every selected route. -/
theorem Accepted.fits (h : Accepted config) {f : Outline} (hf : f.Guarded config.routes)
    {a : RouteProxyAdmission} (hlimits : a.rateLimits = f.limits)
    (hpositions : a.nextUpstream = f.positions) (hsizes : a.health.sizes = f.sizes)
    (hselected : selectHttpRoute config request = some route) : a.Fits route := by
  have hentry : ∀ r, route.routeIndex = some r →
      ∃ entry, config.routes[r]? = some entry ∧ route.upstreams = entry.upstreams := by
    intro r hr
    rcases selectHttpRoute_source hselected with ⟨upstream, -, rfl⟩ | ⟨r', entry, hentry, rfl⟩
    · cases hr
    · cases hr
      exact ⟨entry, hentry, rfl⟩
  refine ⟨h.selected_count hselected, fun r hr => ?_, fun r hr => ?_, fun r hr => ?_⟩
  · obtain ⟨entry, hentry, -⟩ := hentry r hr
    rw [hlimits, hf.buckets]
    exact (List.getElem?_eq_some_iff.mp hentry).1
  · obtain ⟨entry, hentry, hupstreams⟩ := hentry r hr
    rw [hpositions, hupstreams]
    exact hf.positions r entry hentry
  · obtain ⟨entry, hentry, hupstreams⟩ := hentry r hr
    rw [hsizes, hf.sizes, List.getElem?_map, hentry, hupstreams]
    rfl

theorem Accepted.unhindered {g : Setup} (h : Accepted g.config) {start : TimePoint}
    {limits : RouteRateLimits} (hmake : RouteRateLimits.make start g.config.routes = .ok limits)
    (inputs : List Gateway.Input) : Gateway.Unhindered g (Gateway.after g limits inputs) where
  admission request route now hselected := by
    have hguarded := Gateway.after_guarded hmake
      (fun route hroute => (h.route route hroute).upstreams.1) inputs 0
    exact (h.fits hguarded rfl rfl rfl hselected).tryAcquire_ok now
  connection request route now result selected hselected hresult hupstream w := by
    obtain ⟨upstream, hmem, rfl⟩ := RouteProxyAdmission.tryAcquire_upstream hresult hupstream
    exact Session.makeExchange_returns (h.selected_trusted hselected hmem) request w

/-! ## Probes -/

theorem Accepted.targets (h : Accepted config) {target : ProbeTarget}
    (htarget : target ∈ HealthChecks.targetsFrom 0 config.routes) :
    HealthCheckOk target.health
      ∧ (target.backend.scheme = .https → config.upstreamTlsContext ≠ none) := by
  obtain ⟨entry, hentry, hhealth, hbackend⟩ := HealthChecks.mem_targetsFrom htarget
  exact ⟨(h.route entry hentry).healthCheck _ hhealth, h.trusted entry hentry _ hbackend⟩

theorem Accepted.schedule (h : Accepted config) (now : TimePoint) :
    ∃ schedule, ProbeSchedule.make
      ((HealthChecks.targetsFrom 0 config.routes).map (·.health.intervalMs)) now = .ok schedule := by
  unfold ProbeSchedule.make
  split
  · rename_i hrange
    rw [List.any_map, List.any_eq_true] at hrange
    obtain ⟨target, htarget, hout⟩ := hrange
    have hinterval := (h.targets htarget).1.interval
    rw [Function.comp_apply, Bool.or_eq_true, decide_eq_true_eq, decide_eq_true_eq] at hout
    omega
  · exact ⟨_, rfl⟩

theorem Accepted.checks (h : Accepted config) (now : TimePoint) :
    ∃ checks, HealthChecks.make config now = .ok checks := by
  obtain ⟨schedule, hschedule⟩ := h.schedule now
  unfold HealthChecks.make
  dsimp only
  rw [hschedule]
  exact ⟨_, rfl⟩

theorem Accepted.probe (h : Accepted config) {now : TimePoint} {checks₀ checks : HealthChecks}
    {events : List HealthChecks.Event} (hmake : HealthChecks.make config now = .ok checks₀)
    (hrun : checks₀.after events = some checks) {slot : Nat} {target : ProbeTarget}
    (htarget : checks.targets[slot]? = some target) :
    ∃ p, Probe.make slot target checks.context = .ok p := by
  have hwatches := HealthChecks.watches_after hmake hrun
  rw [hwatches.targets] at htarget
  have htrust := (h.targets (List.mem_of_getElem? htarget)).2
  unfold Probe.make
  rw [hwatches.context]
  split
  · rename_i hscheme
    rw [if_neg]
    · exact ⟨_, rfl⟩
    · rw [Option.isNone_iff_eq_none]
      exact htrust hscheme
  · exact ⟨_, rfl⟩

/-! ## All of them -/

/-- No guard behind the configuration throws: not when the server is made, not in any run of
the gateway or of the health checks, and not when the metrics are rendered. -/
structure TripsNoGuard (config : AppConfig) : Prop where
  buckets : ∀ route ∈ config.routes, ∀ limit now, route.rateLimit = some limit →
    ∃ bucket, TokenBucket.make limit now = .ok bucket
  limits : ∀ now, ∃ limits, RouteRateLimits.make now config.routes = .ok limits
  schedule : ∀ now, ∃ schedule, ProbeSchedule.make
    ((HealthChecks.targetsFrom 0 config.routes).map (·.health.intervalMs)) now = .ok schedule
  checks : ∀ now, ∃ checks, HealthChecks.make config now = .ok checks
  requests : ∀ (g : Setup) start limits inputs, g.config = config →
    RouteRateLimits.make start config.routes = .ok limits →
    Gateway.Unhindered g (Gateway.after g limits inputs)
  probes : ∀ now checks₀ checks events, HealthChecks.make config now = .ok checks₀ →
    checks₀.after events = some checks → ∀ (slot : Nat) target,
    checks.targets[slot]? = some target → ∃ p, Probe.make slot target checks.context = .ok p
  metrics : ∀ {D : Type} (toChars : D → Option Text) m processingSum connections proxies budget
    health e, Metrics.render toChars m processingSum config connections proxies budget health
      = .error e → Metrics.Tolerated e

/-- Whatever the environment is: a configuration that the loader returns has passed all
checks, and none of the guards behind it can throw. -/
theorem loaded_config_trips_no_guard (s : Startup) (config : AppConfig)
    (h : loadConfigFromEnvironment s = .ok config) : Accepted config ∧ TripsNoGuard config := by
  have haccepted := accepted_of_load h
  refine ⟨haccepted, ?_⟩
  exact
    { buckets := fun route hroute limit now hlimit =>
        ⟨_, TokenBucket.make_eq (haccepted.admitted route hroute limit hlimit) now⟩
      limits := RouteRateLimits.exists_make haccepted.admitted
      schedule := haccepted.schedule
      checks := haccepted.checks
      requests := by
        rintro g start limits inputs rfl hmake
        exact haccepted.unhindered hmake inputs
      probes := fun now checks₀ checks events hmake hrun slot target htarget =>
        haccepted.probe hmake hrun htarget
      metrics := fun toChars m processingSum connections proxies budget health e he =>
        Metrics.render_tolerated toChars m processingSum connections proxies budget health
          haccepted.count (fun route hroute => (haccepted.route route hroute).upstreams.2) he }

def guardedText : Text :=
  ("[\x7b\"prefix\":\"/\",\"host\":\"::1\",\"port\":443,\"scheme\":\"https\","
    ++ "\"rate_limit\":\x7b\"requests_per_second\":2,\"burst\":4\x7d,"
    ++ "\"health_check\":\x7b\"path\":\"/h\"\x7d,"
    ++ "\"auth\":\x7b\"api_key_env\":\"APIGATE_AUTH_KEY_A\"\x7d\x7d]").toList

/-- One route with everything that is checked: keys, an https upstream, a rate limit and health
checks. -/
def guardedStartup : Startup where
  getenv name :=
    if name = "APIGATE_ROUTES".toList then some guardedText
    else if name = "APIGATE_TLS_CERT_FILE".toList then some "c".toList
    else if name = "APIGATE_TLS_KEY_FILE".toList then some "k".toList
    else ApiKeys.oneKeyStartup.getenv name
  makeAddress host := if host = "::1".toList then some host else none
  parseJson := ApiKeys.readsOnly guardedText (.array [.object [
    ("prefix".toList, .string "/".toList), ("host".toList, .string "::1".toList),
    ("port".toList, .unsigned 443), ("scheme".toList, .string "https".toList),
    (rateLimitKey, .object [("requests_per_second".toList, .unsigned 2),
      ("burst".toList, .unsigned 4)]),
    (healthCheckKey, .object [("path".toList, .string "/h".toList)]),
    (authFieldKey, .object [(apiKeyEnvKey, .string "APIGATE_AUTH_KEY_A".toList)])]])
  lib := ApiKeys.oneKeyStartup.lib
  digestFails _ := false
  loadUpstreamTls _ := some 0
  loadDownstreamTls _ _ := true

def guardedConfig : AppConfig where
  routes := [{ ApiKeys.oneKeyRoute with
    upstreams := [{ host := "::1".toList, port := 443, scheme := .https }]
    rateLimit := some ⟨2, 4⟩
    healthCheck := some { path := "/h".toList } }]
  upstreamTlsContext := some 0
  downstreamTlsContext := true

theorem loaded_config_trips_no_guard_https : Accepted guardedConfig ∧ TripsNoGuard guardedConfig :=
  loaded_config_trips_no_guard guardedStartup guardedConfig (by decide +kernel)

end LoadConfig

end ApiGate
