import Mathlib.Data.List.Nodup
import ApiGate.ConfigGrammar
import ApiGate.LoadConfig

/-!
# What an accepted route document says

`parse_routes` either throws or gives a route for every entry of the document. Here is what
each part of a route satisfies then, whatever the document was.
-/

namespace ApiGate

namespace LoadConfig

open ConfigText RoutesCallback
open EventLoop (bind_eq_ok)

variable {s : Startup}

/-! ## Ranges -/

structure UpstreamOk (upstream : UpstreamConfig) : Prop where
  port : 1 ≤ upstream.port ∧ upstream.port ≤ 65535
  timeout : 1 ≤ upstream.timeoutMs ∧ upstream.timeoutMs ≤ 60000

structure RateLimitOk (limit : RateLimitConfig) : Prop where
  requests : 1 ≤ limit.requestsPerSecond.toNat ∧ limit.requestsPerSecond.toNat ≤ 1000000
  burst : 1 ≤ limit.burst.toNat ∧ limit.burst.toNat ≤ 1000000

structure HealthCheckOk (settings : HealthCheckConfig) : Prop where
  path : isHealthPath settings.path = true
  interval : 100 ≤ settings.intervalMs ∧ settings.intervalMs ≤ 60000
  timeout : 50 ≤ settings.timeoutMs ∧ settings.timeoutMs ≤ settings.intervalMs
  unhealthy : 1 ≤ settings.unhealthyThreshold ∧ settings.unhealthyThreshold ≤ 10
  healthy : 1 ≤ settings.healthyThreshold ∧ settings.healthyThreshold ≤ 10

/-! ## Numbers -/

theorem routeInteger_ok {value : Json} {maximum n : Nat} (h : routeInteger value maximum = .ok n) :
    1 ≤ n ∧ n ≤ maximum := by
  unfold routeInteger at h
  have hrange : ∀ m : Nat, (if m = 0 || m > maximum then
      (.error "APIGATE_ROUTES integer field is out of range" : Except ConfigError Nat)
        else .ok m) = .ok n → 1 ≤ n ∧ n ≤ maximum := by
    intro m hm
    split at hm
    · cases hm
    · rename_i hin
      cases hm
      rw [Bool.or_eq_true, not_or, decide_eq_true_eq, decide_eq_true_eq] at hin
      omega
  split at h
  · exact hrange _ h
  · split at h
    · cases h
    · exact hrange _ h
  · cases h

theorem integerField_ok {object : Json} {field : Text} {default maximum n : Nat}
    (hdefault : 1 ≤ default ∧ default ≤ maximum)
    (h : integerField object field default maximum = .ok n) : 1 ≤ n ∧ n ≤ maximum := by
  unfold integerField at h
  split at h
  · exact routeInteger_ok h
  · cases h
    exact hdefault

theorem healthInteger_ok {health : Json} {field : Text} {options : NumberOptions} {n : Nat}
    (hdefault : 1 ≤ options.default ∧ options.default ≤ options.maximum)
    (h : healthInteger health field options = .ok n) : options.minimum ≤ n ∧ n ≤ options.maximum := by
  obtain ⟨m, hm, h⟩ := bind_eq_ok.mp h
  split at h
  · cases h
  · rename_i hmin
    cases h
    exact ⟨Nat.not_lt.mp hmin, (integerField_ok hdefault hm).2⟩

theorem toNat_ofNat {n : Nat} (h : n ≤ 1000000) : (UInt32.ofNat n).toNat = n := by
  rw [UInt32.toNat_ofNat']
  exact Nat.mod_eq_of_lt (Nat.lt_of_le_of_lt h (by decide))

/-! ## The parts of a route -/

theorem parseRouteUpstream_ok {entry : Json} {upstream : UpstreamConfig}
    (h : parseRouteUpstream s entry = .ok upstream) : UpstreamOk upstream := by
  unfold parseRouteUpstream at h
  split at h
  · obtain ⟨host, -, h⟩ := bind_eq_ok.mp h
    obtain ⟨port, hport, h⟩ := bind_eq_ok.mp h
    obtain ⟨timeoutMs, htimeout, h⟩ := bind_eq_ok.mp h
    obtain ⟨scheme, -, h⟩ := bind_eq_ok.mp h
    cases h
    exact ⟨routeInteger_ok hport, integerField_ok (by decide) htimeout⟩
  · cases h

theorem parseBackend_ok {backend : Json} {upstream : UpstreamConfig}
    (h : parseBackend s backend = .ok upstream) : UpstreamOk upstream := by
  unfold parseBackend at h
  split at h
  · cases h
  · split at h
    · cases h
    · exact parseRouteUpstream_ok h

theorem parseUpstreams_ok {entry : Json} {upstreams : List UpstreamConfig}
    (h : parseUpstreams s entry = .ok upstreams) :
    1 ≤ upstreams.length ∧ upstreams.length ≤ 16 ∧ ∀ u ∈ upstreams, UpstreamOk u := by
  unfold parseUpstreams at h
  split at h
  · split at h
    · cases h
    · split at h
      · rename_i backends _
        split at h
        · cases h
        · rename_i hcount
          rw [Bool.or_eq_true, not_or, List.isEmpty_iff, decide_eq_true_eq, Nat.not_lt] at hcount
          rw [← (EventLoop.mapM_eq_ok h).length_eq]
          refine ⟨List.length_pos_iff.mpr hcount.1, hcount.2, fun u hu => ?_⟩
          obtain ⟨backend, -, hbackend⟩ := EventLoop.exists_of_mem_mapM h hu
          exact parseBackend_ok hbackend
      · cases h
  · obtain ⟨upstream, hone, h⟩ := bind_eq_ok.mp h
    cases h
    refine ⟨by simp, by simp, fun u hu => ?_⟩
    rw [List.mem_singleton.mp hu]
    exact parseRouteUpstream_ok hone

theorem parseRateLimit_ok {entry : Json} {limit : RateLimitConfig}
    (h : parseRateLimit entry = .ok (some limit)) : RateLimitOk limit := by
  unfold parseRateLimit at h
  split at h
  · cases h
  · split at h
    · split at h
      · cases h
      · obtain ⟨requests, hrequests, h⟩ := bind_eq_ok.mp h
        obtain ⟨burst, hburst, h⟩ := bind_eq_ok.mp h
        cases h
        have hr := routeInteger_ok hrequests
        have hb := routeInteger_ok hburst
        exact ⟨by rwa [toNat_ofNat hr.2], by rwa [toNat_ofNat hb.2]⟩
    · cases h

theorem parseHealthSettings_ok {health : Json} {settings : HealthCheckConfig}
    (h : parseHealthSettings health = .ok settings) : HealthCheckOk settings := by
  unfold parseHealthSettings at h
  split at h
  · split at h
    · cases h
    · split at h
      · cases h
      · rename_i hpath
        obtain ⟨interval, hinterval, h⟩ := bind_eq_ok.mp h
        obtain ⟨timeout, htimeout, h⟩ := bind_eq_ok.mp h
        obtain ⟨unhealthy, hunhealthy, h⟩ := bind_eq_ok.mp h
        obtain ⟨healthy, hhealthy, h⟩ := bind_eq_ok.mp h
        split at h
        · cases h
        · rename_i hle
          cases h
          exact {
            path := by simpa using hpath
            interval := healthInteger_ok (by decide) hinterval
            timeout := ⟨(healthInteger_ok (by decide) htimeout).1, Nat.not_lt.mp hle⟩
            unhealthy := healthInteger_ok (by decide) hunhealthy
            healthy := healthInteger_ok (by decide) hhealthy }
  · cases h

theorem parseHealthCheck_ok {entry : Json} {settings : HealthCheckConfig}
    (h : parseHealthCheck entry = .ok (some settings)) : HealthCheckOk settings := by
  unfold parseHealthCheck at h
  split at h
  · cases h
  · obtain ⟨_, hsettings, h⟩ := bind_eq_ok.mp h
    cases h
    exact parseHealthSettings_ok hsettings

theorem parsePrefix_ok {prefixes : List Text} {entry : Json} {routePrefix : Text}
    (h : parsePrefix prefixes entry = .ok routePrefix) :
    IsPrefix routePrefix ∧ routePrefix ∉ prefixes := by
  unfold parsePrefix at h
  split at h
  · cases h
  · split at h
    · cases h
    · split at h
      · obtain ⟨_, hvalid, h⟩ := bind_eq_ok.mp h
        split at h
        · cases h
        · rename_i hnew
          cases h
          rw [List.contains_iff_mem] at hnew
          exact ⟨(validateRoutePrefix_iff _).mp hvalid, hnew⟩
      · cases h

/-! ## A route -/

structure RouteOk (route : RouteConfig) : Prop where
  routePrefix : IsPrefix route.routePrefix
  upstreams : 1 ≤ route.upstreams.length ∧ route.upstreams.length ≤ 16
  upstream : ∀ u ∈ route.upstreams, UpstreamOk u
  rateLimit : ∀ limit, route.rateLimit = some limit → RateLimitOk limit
  healthCheck : ∀ settings, route.healthCheck = some settings → HealthCheckOk settings

theorem parseRoute_ok {prefixes : List Text} {entry : Json} {route : RouteConfig}
    (h : parseRoute s prefixes entry = .ok route) :
    RouteOk route ∧ route.routePrefix ∉ prefixes ∧ parseAuth s entry = .ok route.auth := by
  obtain ⟨routePrefix, hprefix, h⟩ := bind_eq_ok.mp h
  obtain ⟨upstreams, hupstreams, h⟩ := bind_eq_ok.mp h
  obtain ⟨stripPrefix, -, h⟩ := bind_eq_ok.mp h
  obtain ⟨rateLimit, hlimit, h⟩ := bind_eq_ok.mp h
  obtain ⟨healthCheck, hhealth, h⟩ := bind_eq_ok.mp h
  obtain ⟨auth, hauth, h⟩ := bind_eq_ok.mp h
  obtain ⟨streamResponse, -, h⟩ := bind_eq_ok.mp h
  cases h
  obtain ⟨hvalid, hnew⟩ := parsePrefix_ok hprefix
  obtain ⟨hlow, hhigh, hall⟩ := parseUpstreams_ok hupstreams
  refine ⟨⟨hvalid, ⟨hlow, hhigh⟩, hall, ?_, ?_⟩, hnew, hauth⟩
  · rintro limit rfl
    exact parseRateLimit_ok hlimit
  · rintro settings rfl
    exact parseHealthCheck_ok hhealth

/-! ## The document -/

/-- What the loop adds for the entries. -/
structure RoutesOf (s : Startup) (entries : List Json) (routes : List RouteConfig) : Prop where
  distinct : (routes.map RouteConfig.routePrefix).Nodup
  each : List.Forall₂ (fun entry route => RouteOk route ∧ parseAuth s entry = .ok route.auth)
    entries routes

theorem feed_addRoute {done entries : List Json} {routes routes' : List RouteConfig}
    (h : EventLoop.feed (addRoute s) routes entries = .ok routes')
    (hdone : RoutesOf s done routes) : RoutesOf s (done ++ entries) routes' := by
  induction entries generalizing done routes with
  | nil =>
      cases h
      rw [List.append_nil]
      exact hdone
  | cons entry rest ih =>
      rw [EventLoop.feed_cons] at h
      obtain ⟨next, hstep, hrest⟩ := bind_eq_ok.mp h
      obtain ⟨route, hroute, hstep⟩ := bind_eq_ok.mp hstep
      cases hstep
      obtain ⟨hok, hnew, hauth⟩ := parseRoute_ok hroute
      have hnext : RoutesOf s (done ++ [entry]) (routes ++ [route]) := by
        refine ⟨?_, List.rel_append hdone.each (.cons ⟨hok, hauth⟩ .nil)⟩
        rw [List.map_append, List.map_singleton]
        simpa using List.Nodup.concat hnew hdone.distinct
      rw [List.append_cons]
      exact ih hrest hnext

theorem parseRoutes_ok {value : Text} {routes : List RouteConfig}
    (h : parseRoutes s value = .ok routes) :
    ∃ entries, s.parseJson value = .document (.array entries) ∧ RoutesOf s entries routes
      ∧ 1 ≤ routes.length ∧ routes.length ≤ 32 := by
  unfold parseRoutes at h
  split at h
  · cases h
  · obtain ⟨document, hdocument, h⟩ := bind_eq_ok.mp h
    unfold parseDocument at hdocument
    split at hdocument
    · rename_i doc hparse
      obtain ⟨_, -, hdoc⟩ := bind_eq_ok.mp hdocument
      cases hdoc
      unfold routesOf at h
      split at h
      · rename_i entries
        split at h
        · cases h
        · rename_i hcount
          rw [Bool.or_eq_true, not_or, List.isEmpty_iff, decide_eq_true_eq, Nat.not_lt] at hcount
          have hroutes := feed_addRoute h ⟨List.nodup_nil, .nil⟩
          rw [List.nil_append] at hroutes
          have hlength := hroutes.each.length_eq
          refine ⟨entries, hparse, hroutes, ?_, ?_⟩
          · rw [← hlength]
            exact List.length_pos_iff.mpr hcount.1
          · rw [← hlength]
            exact hcount.2
      · cases h
    · obtain ⟨_, -, hdoc⟩ := bind_eq_ok.mp hdocument
      cases hdoc

end LoadConfig

end ApiGate
