import ApiGate.ApiKeys

/-!
# What an accepted configuration says

`load_config_from_environment` puts the checks of the single values together and adds
the few that look at several settings. `Accepted` is what a configuration satisfies
that has come through, whatever the environment was.
-/

namespace ApiGate

namespace LoadConfig

open ConfigText
open EventLoop (bind_eq_ok)

variable {s : Startup} {config config' : AppConfig}

/-- One to four digests, no two of them alike. -/
structure KeysOk (auth : ApiKeyAuthConfig) : Prop where
  count : 1 ≤ auth.keyCount ∧ auth.keyCount ≤ 4
  distinct : (ApiKeys.stored auth).Nodup

structure Accepted (config : AppConfig) : Prop where
  count : config.routes.length ≤ 32
  distinct : (config.routes.map RouteConfig.routePrefix).Nodup
  route : ∀ route ∈ config.routes, RouteOk route
  keys : ∀ route ∈ config.routes, ∀ auth, route.auth = some auth → KeysOk auth
  downstream : ∀ route ∈ config.routes, route.auth ≠ none → config.downstreamTlsContext = true
  exclusive : config.upstream = none ∨ config.routes = []
  upstream : ∀ upstream, config.upstream = some upstream →
    UpstreamOk upstream ∧ upstream.scheme = .http
  trusted : ∀ route ∈ config.routes, ∀ upstream ∈ route.upstreams, upstream.scheme = .https →
    config.upstreamTlsContext ≠ none

/-! ## Settings -/

/-- Nothing is said about upstreams yet. -/
def Bare (config : AppConfig) : Prop := config.upstream = none ∧ config.routes = []

theorem Bare.of_setting {name : String} {assign : Text → Except ConfigError AppConfig}
    (h : Bare config) (hset : setting s name assign config = .ok config')
    (hassign : ∀ value config', assign value = .ok config' → Bare config') : Bare config' := by
  obtain ⟨value, -, hset⟩ := bind_eq_ok.mp hset
  cases value with
  | none =>
      cases hset
      exact h
  | some value => exact hassign value config' hset

theorem Bare.next {name : String} {assign : Text → Except ConfigError AppConfig}
    {rest : AppConfig → Except ConfigError AppConfig} (h : Bare config)
    (hrun : (setting s name assign config >>= rest) = .ok config')
    (hassign : ∀ value config', assign value = .ok config' → Bare config') :
    ∃ next, Bare next ∧ rest next = .ok config' := by
  obtain ⟨next, hset, hrest⟩ := bind_eq_ok.mp hrun
  exact ⟨next, h.of_setting hset hassign, hrest⟩

/-- A value that is checked changes its own field only. -/
theorem bare_assign {α : Type} {check : Except ConfigError α} {f : α → AppConfig}
    (h : (check >>= fun a => .ok (f a)) = .ok config') (hf : ∀ a, Bare (f a)) : Bare config' := by
  obtain ⟨a, -, h⟩ := bind_eq_ok.mp h
  cases h
  exact hf a

theorem loadSettings_bare (h : loadSettings s = .ok config) : Bare config := by
  obtain ⟨certificate, -, h⟩ := bind_eq_ok.mp h
  obtain ⟨privateKey, -, h⟩ := bind_eq_ok.mp h
  obtain ⟨downstream, -, h⟩ := bind_eq_ok.mp h
  have h₀ : Bare { downstreamTlsContext := downstream } := ⟨rfl, rfl⟩
  obtain ⟨c₁, h₁, h⟩ := h₀.next h fun _ _ hvalue => bare_assign hvalue fun _ => h₀
  obtain ⟨c₂, h₂, h⟩ := h₁.next h fun _ _ hvalue => bare_assign hvalue fun _ => h₁
  obtain ⟨c₃, h₃, h⟩ := h₂.next h fun _ _ hvalue => bare_assign hvalue fun _ => h₂
  obtain ⟨c₄, h₄, h⟩ := h₃.next h fun _ _ hvalue => bare_assign hvalue fun _ => h₃
  obtain ⟨c₅, h₅, h⟩ := h₄.next h fun _ _ hvalue => bare_assign hvalue fun _ => h₄
  obtain ⟨c₆, h₆, h⟩ := h₅.next h fun _ _ hvalue => bare_assign hvalue fun _ => h₅
  obtain ⟨c₇, h₇, h⟩ := h₆.next h fun _ _ hvalue => bare_assign hvalue fun _ => h₆
  obtain ⟨c₈, h₈, h⟩ := h₇.next h fun _ _ hvalue => bare_assign hvalue fun _ => h₇
  obtain ⟨c₉, h₉, h⟩ := h₈.next h fun _ _ hvalue => bare_assign hvalue fun _ => h₈
  obtain ⟨c₁₀, h₁₀, h⟩ := h₉.next h fun _ _ hvalue => bare_assign hvalue fun _ => h₉
  exact h₁₀.of_setting h fun _ _ hvalue => bare_assign hvalue fun _ => h₁₀

/-! ## Upstreams -/

theorem makeUpstreamTlsContext_ok {caFile : Option Text} {context : TlsContext}
    (h : makeUpstreamTlsContext s caFile true = .ok context) : context ≠ none := by
  unfold makeUpstreamTlsContext at h
  split at h
  · rename_i hnone
    simp at hnone
  · split at h
    · cases h
      exact Option.some_ne_none _
    · cases h

theorem hasHttps_of_mem {routes : List RouteConfig} {route : RouteConfig}
    {upstream : UpstreamConfig} (hroute : route ∈ routes) (hupstream : upstream ∈ route.upstreams)
    (hscheme : upstream.scheme = .https) : hasHttps routes = true := by
  unfold hasHttps
  rw [List.any_eq_true]
  refine ⟨route, hroute, ?_⟩
  rw [List.any_eq_true]
  exact ⟨upstream, hupstream, decide_eq_true hscheme⟩

theorem parseUpstream_ok {host port : Text} {timeout : Option Text} {upstream : UpstreamConfig}
    (h : parseUpstream s host port timeout = .ok upstream) :
    UpstreamOk upstream ∧ upstream.scheme = .http := by
  obtain ⟨host, -, h⟩ := bind_eq_ok.mp h
  obtain ⟨port, hport, h⟩ := bind_eq_ok.mp h
  have hrange := boundedNumber_range hport
  cases timeout with
  | none =>
      cases h
      have hdefault : (1 : Nat) ≤ 3000 ∧ 3000 ≤ 60000 := by decide
      exact ⟨⟨hrange, hdefault⟩, rfl⟩
  | some value =>
      obtain ⟨timeoutMs, htimeout, h⟩ := bind_eq_ok.mp h
      cases h
      exact ⟨⟨hrange, boundedNumber_range htimeout⟩, rfl⟩

theorem legacyUpstream_ok {host port timeout : Option Text} {upstream : UpstreamConfig}
    (h : legacyUpstream s host port timeout = .ok (some upstream)) :
    UpstreamOk upstream ∧ upstream.scheme = .http := by
  unfold legacyUpstream at h
  split at h
  · cases h
  · split at h
    · obtain ⟨one, hone, h⟩ := bind_eq_ok.mp h
      cases h
      exact parseUpstream_ok hone
    · cases h

/-! ## Routes -/

theorem parseAuth_ok {entry : Json} {auth : ApiKeyAuthConfig}
    (h : parseAuth s entry = .ok (some auth)) : KeysOk auth := by
  unfold parseAuth at h
  split at h
  · cases h
  · obtain ⟨references, hreferences, h⟩ := bind_eq_ok.mp h
    obtain ⟨configured, hkeys, h⟩ := bind_eq_ok.mp h
    cases h
    obtain ⟨-, hlow, hhigh⟩ := ApiKeys.keyReferences_ok hreferences
    obtain ⟨keys, -, hstores⟩ := ApiKeys.configureKeys_ok hlow hhigh hkeys
    refine ⟨?_, ?_⟩
    · rw [hstores.keyCount]
      exact hstores.count
    · rw [hstores.stored]
      exact hstores.distinct

/-- Every route comes from an entry. -/
theorem RoutesOf.mem {entries : List Json} {routes : List RouteConfig} {route : RouteConfig}
    (h : RoutesOf s entries routes) (hroute : route ∈ routes) :
    RouteOk route ∧ ∃ entry ∈ entries, parseAuth s entry = .ok route.auth := by
  obtain ⟨i, hi, rfl⟩ := List.getElem_of_mem hroute
  have hi' : i < entries.length := h.each.length_eq ▸ hi
  obtain ⟨hok, hauth⟩ := h.each.get hi' hi
  exact ⟨hok, entries[i], List.getElem_mem hi', hauth⟩

theorem loadRoutes_accepted {value : Text} (hbare : Bare config)
    (h : loadRoutes s config value = .ok config') : Accepted config' := by
  obtain ⟨routes, hparse, h⟩ := bind_eq_ok.mp h
  obtain ⟨entries, -, hroutes, -, hcount⟩ := parseRoutes_ok hparse
  split at h
  · cases h
  · rename_i htls
    obtain ⟨caFile, -, h⟩ := bind_eq_ok.mp h
    obtain ⟨context, hcontext, h⟩ := bind_eq_ok.mp h
    cases h
    exact
      { count := hcount
        distinct := hroutes.distinct
        route := fun route hroute => (hroutes.mem hroute).1
        keys := by
          intro route hroute auth hauth
          obtain ⟨-, entry, -, hentry⟩ := hroutes.mem hroute
          rw [hauth] at hentry
          exact parseAuth_ok hentry
        downstream := by
          intro route hroute hauth
          by_contra hnone
          rw [Bool.not_eq_true] at hnone
          refine htls ?_
          rw [Bool.and_eq_true, Bool.not_eq_true', List.any_eq_true]
          exact ⟨hnone, route, hroute, Option.isSome_iff_ne_none.mpr hauth⟩
        exclusive := Or.inl hbare.1
        upstream := by
          intro upstream hupstream
          rw [hbare.1] at hupstream
          cases hupstream
        trusted := by
          intro route hroute upstream hupstream hscheme
          rw [hasHttps_of_mem hroute hupstream hscheme] at hcontext
          exact makeUpstreamTlsContext_ok hcontext }

theorem loadUpstream_accepted (hbare : Bare config) (h : loadUpstream s config = .ok config') :
    Accepted config' := by
  obtain ⟨host, -, h⟩ := bind_eq_ok.mp h
  obtain ⟨port, -, h⟩ := bind_eq_ok.mp h
  obtain ⟨timeout, -, h⟩ := bind_eq_ok.mp h
  obtain ⟨upstream, hupstream, h⟩ := bind_eq_ok.mp h
  obtain ⟨caFile, -, h⟩ := bind_eq_ok.mp h
  obtain ⟨context, -, h⟩ := bind_eq_ok.mp h
  cases h
  have hnone : ∀ route, route ∉ config.routes := by
    intro route
    rw [hbare.2]
    exact List.not_mem_nil
  exact
    { count := by simp [hbare.2]
      distinct := by simp [hbare.2]
      route := fun route hroute => absurd hroute (hnone route)
      keys := fun route hroute => absurd hroute (hnone route)
      downstream := fun route hroute => absurd hroute (hnone route)
      exclusive := Or.inr hbare.2
      upstream := by
        rintro one rfl
        exact legacyUpstream_ok hupstream
      trusted := fun route hroute => absurd hroute (hnone route) }

/-- For every environment. -/
theorem accepted_of_load (h : loadConfigFromEnvironment s = .ok config) : Accepted config := by
  obtain ⟨settings, hsettings, h⟩ := bind_eq_ok.mp h
  have hbare := loadSettings_bare hsettings
  split at h
  · cases h
  · obtain ⟨value, -, h⟩ := bind_eq_ok.mp h
    cases value with
    | none => exact loadUpstream_accepted hbare h
    | some value => exact loadRoutes_accepted hbare h

end LoadConfig

end ApiGate
