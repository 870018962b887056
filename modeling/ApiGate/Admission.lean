import ApiGate.RateLimit
import ApiGate.Health
import ApiGate.Handler

/-!
# Admission of a proxied request

`ProxyPermit` and `ProxyAdmissionState` bound the concurrent exchanges;
`RouteProxyAdmission::try_acquire` asks, in this order, the route's token
bucket, the permit count and the health of the route's slots, and moves the
route's round-robin position only when it admits. A permit in a result that is
dropped, also by an exception, is given back.
-/

namespace ApiGate

structure ProxyAdmissionState where
  maxProxies : Nat
  activeProxies : Nat := 0
  deriving DecidableEq, Repr

namespace ProxyAdmissionState

/-- `ProxyPermit::try_acquire`; the permit itself is the answer `true`. -/
def tryAcquire (p : ProxyAdmissionState) : Bool × ProxyAdmissionState :=
  if p.activeProxies ≥ p.maxProxies then (false, p)
  else (true, { p with activeProxies := p.activeProxies + 1 })

/-- `ProxyPermit::release` of a permit that is owned. -/
def release (p : ProxyAdmissionState) : ProxyAdmissionState :=
  if p.activeProxies > 0 then { p with activeProxies := p.activeProxies - 1 } else p

end ProxyAdmissionState

structure RouteProxyAdmissionResult where
  rateLimit : RateLimitDecision := {}
  permit : Bool := false
  upstream : Option SelectedUpstream := none
  noHealthyUpstream : Bool := false
  deriving DecidableEq, Repr

structure RouteProxyAdmission where
  rateLimits : RouteRateLimits
  proxies : ProxyAdmissionState
  nextUpstream : List Nat
  health : UpstreamHealthState
  deriving DecidableEq, Repr

namespace RouteProxyAdmission

/-- The constructor, which throws when a bucket cannot be made. -/
def make (routes : List RouteConfig) (maxProxies : Nat) (now : TimePoint) :
    Except Unit RouteProxyAdmission := do
  let rateLimits ← RouteRateLimits.make now routes
  pure { rateLimits, proxies := { maxProxies },
         nextUpstream := List.replicate routes.length 0,
         health := UpstreamHealthState.make routes }

/-- The search for an available slot: `left` slots are still to visit, `ok none`
means that all were unavailable. -/
def firstAvailable (available : Nat → Option Bool) (size : Nat) :
    Nat → Nat → Except Unit (Option Nat)
  | 0, _ => .ok none
  | left + 1, index =>
      match available index with
      | none => .error ()
      | some true => .ok (some index)
      | some false =>
          firstAvailable available size left (if index + 1 = size then 0 else index + 1)

def selectedUpstream (route : SelectedRoute) (upstream : UpstreamConfig) : SelectedUpstream :=
  { upstream, routePrefix := route.routePrefix, stripPrefix := route.stripPrefix,
    routeIndex := route.routeIndex, stripAuthorization := route.auth.isSome,
    streamResponse := route.streamResponse }

/-- The choice of a slot, once the permit is held. -/
def choose (a : RouteProxyAdmission) (route : SelectedRoute) :
    Except Unit (Option SelectedUpstream × List Nat) :=
  if route.upstreams.isEmpty || route.upstreams.length > 16 then .error ()
  else
    match route.routeIndex with
    | none =>
        .ok ((route.upstreams[0]?).map (selectedUpstream route), a.nextUpstream)
    | some r => do
        let next ← match a.nextUpstream[r]? with
          | some next => .ok next
          | none => .error ()
        if next ≥ route.upstreams.length then .error ()
        else
          match ← firstAvailable (a.health.available r) route.upstreams.length
              route.upstreams.length next with
          | none => .ok (none, a.nextUpstream)
          | some index =>
              .ok ((route.upstreams[index]?).map (selectedUpstream route),
                a.nextUpstream.set r
                  (if index = route.upstreams.length - 1 then 0 else index + 1))

/-- The rate limit of a route; a route without an index has none. -/
def checkRate (a : RouteProxyAdmission) (route : SelectedRoute) (now : TimePoint) :
    Except Unit RateLimitDecision × RouteProxyAdmission :=
  match route.routeIndex with
  | none => (.ok {}, a)
  | some r =>
      ((a.rateLimits.tryAcquire r now).1,
        { a with rateLimits := (a.rateLimits.tryAcquire r now).2 })

def tryAcquire (a : RouteProxyAdmission) (route : SelectedRoute) (now : TimePoint) :
    Except Unit RouteProxyAdmissionResult × RouteProxyAdmission :=
  match a.checkRate route now with
  | (.error e, a) => (.error e, a)
  | (.ok decision, a) =>
      if !decision.allowed then (.ok { rateLimit := decision }, a)
      else if !a.proxies.tryAcquire.1 then (.ok { rateLimit := decision }, a)
      else
        match a.choose route with
        -- the permit is released with the result
        | .error e => (.error e, a)
        | .ok (none, _) => (.ok { rateLimit := decision, noHealthyUpstream := true }, a)
        | .ok (some upstream, nextUpstream) =>
            (.ok { rateLimit := decision, permit := true, upstream := some upstream },
              { a with proxies := a.proxies.tryAcquire.2, nextUpstream })

/-! ## What an admission does to the permit count -/

@[simp] theorem checkRate_proxies (a : RouteProxyAdmission) (route : SelectedRoute)
    (now : TimePoint) : (a.checkRate route now).2.proxies = a.proxies := by
  unfold checkRate
  split <;> rfl

theorem checkRate_eq (a : RouteProxyAdmission) (route : SelectedRoute) (now : TimePoint) :
    a.checkRate route now = ((a.rateLimits.check route.routeIndex now).1,
      { a with rateLimits := (a.rateLimits.check route.routeIndex now).2 }) := by
  unfold checkRate RouteRateLimits.check
  cases route.routeIndex <;> rfl

/-- After the rate limit nothing looks at the buckets again. -/
theorem tryAcquire_rateLimits (a : RouteProxyAdmission) (route : SelectedRoute)
    (now : TimePoint) : (a.tryAcquire route now).2.rateLimits
      = (a.rateLimits.check route.routeIndex now).2 := by
  unfold tryAcquire
  rw [checkRate_eq]
  rcases a.rateLimits.check route.routeIndex now with ⟨e | decision, limits⟩
  · rfl
  · dsimp only
    repeat' split
    all_goals rfl

theorem choose_upstream {a : RouteProxyAdmission} {route : SelectedRoute}
    {upstream : SelectedUpstream} {nextUpstream : List Nat}
    (h : a.choose route = .ok (some upstream, nextUpstream)) :
    ∃ u ∈ route.upstreams, upstream = selectedUpstream route u := by
  have hget : ∀ i : Nat, (route.upstreams[i]?).map (selectedUpstream route) = some upstream →
      ∃ u ∈ route.upstreams, upstream = selectedUpstream route u := by
    intro i hi
    obtain ⟨u, hu, rfl⟩ := Option.map_eq_some_iff.mp hi
    exact ⟨u, List.mem_of_getElem? hu, rfl⟩
  unfold choose at h
  split at h
  · cases h
  · split at h
    · simp only [Except.ok.injEq, Prod.mk.injEq] at h
      exact hget 0 h.1
    · rename_i r _
      cases hnext : a.nextUpstream[r]? with
      | none => simp [hnext, bind, Except.bind] at h
      | some next =>
          simp only [hnext, bind, Except.bind] at h
          split at h
          · cases h
          · cases hfirst : firstAvailable (a.health.available r) route.upstreams.length
                route.upstreams.length next with
            | error e => simp [hfirst] at h
            | ok found =>
                cases found with
                | none => simp [hfirst] at h
                | some index =>
                    simp only [hfirst, Except.ok.injEq, Prod.mk.injEq] at h
                    exact hget index h.1

/-- A permit in the result is one more active proxy, and there was room for it;
without a permit the count is unchanged. An admitted result names an upstream
of the route it was made for. -/
theorem tryAcquire_cases (a : RouteProxyAdmission) (route : SelectedRoute) (now : TimePoint) :
    ((∃ e, (a.tryAcquire route now).1 = .error e)
        ∧ (a.tryAcquire route now).2.proxies = a.proxies)
    ∨ (∃ r, (a.tryAcquire route now).1 = .ok r ∧ r.permit = false ∧ r.upstream = none
        ∧ (a.tryAcquire route now).2.proxies = a.proxies)
    ∨ (∃ r u, (a.tryAcquire route now).1 = .ok r ∧ r.permit = true
        ∧ r.rateLimit.allowed = true ∧ r.noHealthyUpstream = false
        ∧ r.upstream = some (selectedUpstream route u) ∧ u ∈ route.upstreams
        ∧ a.proxies.activeProxies < a.proxies.maxProxies
        ∧ (a.tryAcquire route now).2.proxies =
            { a.proxies with activeProxies := a.proxies.activeProxies + 1 }) := by
  have hproxies := checkRate_proxies a route now
  unfold tryAcquire
  revert hproxies
  rcases a.checkRate route now with ⟨e | decision, a'⟩
  · intro hproxies
    exact Or.inl ⟨⟨e, rfl⟩, hproxies⟩
  · intro hproxies
    dsimp only at hproxies ⊢
    split
    · exact Or.inr (Or.inl ⟨_, rfl, rfl, rfl, hproxies⟩)
    · rename_i hallowed
      split
      · exact Or.inr (Or.inl ⟨_, rfl, rfl, rfl, hproxies⟩)
      · rename_i hpermit
        have hroom : ¬a'.proxies.activeProxies ≥ a'.proxies.maxProxies := by
          intro hfull
          simp [ProxyAdmissionState.tryAcquire, hfull] at hpermit
        rcases hchoose : a'.choose route with e | ⟨_ | upstream, nextUpstream⟩
        · exact Or.inl ⟨⟨e, rfl⟩, hproxies⟩
        · exact Or.inr (Or.inl ⟨_, rfl, rfl, rfl, hproxies⟩)
        · obtain ⟨u, hu, rfl⟩ := choose_upstream hchoose
          refine Or.inr (Or.inr ⟨_, u, rfl, rfl, by simpa using hallowed, rfl, rfl, hu, ?_, ?_⟩)
          · rw [← hproxies]
            omega
          · rw [← hproxies]
            simp [ProxyAdmissionState.tryAcquire, hroom]

theorem tryAcquire_upstream {a : RouteProxyAdmission} {route : SelectedRoute} {now : TimePoint}
    {r : RouteProxyAdmissionResult} {s : SelectedUpstream}
    (h : (a.tryAcquire route now).1 = .ok r) (hs : r.upstream = some s) :
    ∃ u ∈ route.upstreams, s = selectedUpstream route u := by
  rcases tryAcquire_cases a route now with
    ⟨⟨e, herr⟩, -⟩ | ⟨r', hok, -, hnone, -⟩ | ⟨r', u, hok, -, -, -, hup, hu, -⟩
  · rw [herr] at h
    cases h
  · rw [hok] at h
    cases h
    rw [hnone] at hs
    cases hs
  · rw [hok] at h
    cases h
    rw [hup] at hs
    exact ⟨u, hu, (Option.some.inj hs).symm⟩

end RouteProxyAdmission

end ApiGate
