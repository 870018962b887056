import ApiGate.RateIsolation
import ApiGate.RouteSelection

/-!
# The guards of an admission

`try_acquire` throws when its state does not fit the route that it is called for:
`Fits` is what its guards ask. In a run of the gateway the state is made from the
routes, and every move of a session keeps it that way (`Outline.Guarded`), so what is
left to ask is said about the routes alone.
-/

namespace ApiGate

open EventLoop Act

/-! ## Buckets -/

namespace RouteRateLimits

theorem exists_make {routes : List RouteConfig} (h : ∀ route ∈ routes, ∀ limit,
    route.rateLimit = some limit → TokenBucket.Admitted limit) (now : TimePoint) :
    ∃ limits, make now routes = .ok limits := by
  induction routes with
  | nil => exact ⟨[], rfl⟩
  | cons route rest ih =>
      rw [List.forall_mem_cons] at h
      obtain ⟨hroute, hrest⟩ := h
      obtain ⟨others, hothers⟩ := ih hrest
      unfold make
      cases hlimit : route.rateLimit with
      | none =>
          rw [hothers]
          exact ⟨_, rfl⟩
      | some limit =>
          dsimp only
          rw [TokenBucket.make_eq (hroute limit hlimit) now, hothers]
          exact ⟨_, rfl⟩

theorem length_make {routes : List RouteConfig} {now : TimePoint} {limits : RouteRateLimits}
    (h : make now routes = .ok limits) : limits.length = routes.length := by
  induction routes generalizing limits with
  | nil =>
      cases h
      rfl
  | cons route rest ih =>
      obtain ⟨bucket, others, -, hothers, rfl⟩ := make_cons h
      rw [List.length_cons, List.length_cons, ih hothers]

@[simp] theorem length_check (limits : RouteRateLimits) (index : Option Nat) (now : TimePoint) :
    (limits.check index now).2.length = limits.length := by
  unfold check
  split
  · rfl
  · unfold tryAcquire
    split
    · rfl
    · rfl
    · exact List.length_set ..

theorem check_ok {limits : RouteRateLimits} {index : Option Nat}
    (h : ∀ r, index = some r → r < limits.length) (now : TimePoint) :
    ∃ decision limits', limits.check index now = (.ok decision, limits') := by
  cases index with
  | none => exact ⟨_, _, rfl⟩
  | some r =>
      show ∃ decision limits', limits.tryAcquire r now = (.ok decision, limits')
      obtain ⟨slot, hslot⟩ : ∃ slot, limits[r]? = some slot :=
        ⟨_, List.getElem?_eq_getElem (h r rfl)⟩
      unfold tryAcquire
      rw [hslot]
      cases slot with
      | none => exact ⟨_, _, rfl⟩
      | some bucket => exact ⟨_, _, rfl⟩

end RouteRateLimits

/-! ## Admissions -/

namespace RouteProxyAdmission

variable {a : RouteProxyAdmission} {route : SelectedRoute}

/-- What the guards of `try_acquire` ask of the state. -/
structure Fits (a : RouteProxyAdmission) (route : SelectedRoute) : Prop where
  count : 1 ≤ route.upstreams.length ∧ route.upstreams.length ≤ 16
  bucket : ∀ r, route.routeIndex = some r → r < a.rateLimits.length
  position : ∀ r, route.routeIndex = some r →
    ∃ position, a.nextUpstream[r]? = some position ∧ position < route.upstreams.length
  slots : ∀ r, route.routeIndex = some r → a.health.sizes[r]? = some route.upstreams.length

theorem firstAvailable_ok {r size position : Nat} (hsize : a.health.sizes[r]? = some size)
    (hposition : position < size) :
    ∃ found, firstAvailable (a.health.available r) size size position = .ok found := by
  have hspec := firstAvailable_spec (a.health.available r) size hposition
  cases hfirst : firstAvailable (a.health.available r) size size position with
  | ok found => exact ⟨found, rfl⟩
  | error e =>
      rw [hfirst] at hspec
      obtain ⟨j, -, hnone⟩ := hspec
      have hlt : (position + j) % size < size := Nat.mod_lt _ (Nat.zero_lt_of_lt hposition)
      obtain ⟨available, hsome⟩ := UpstreamHealthState.available_of_sizes hsize hlt
      rw [hsome] at hnone
      cases hnone

theorem Fits.choose_ok (h : Fits a route) : ∃ choice, a.choose route = .ok choice := by
  obtain ⟨hlow, hhigh⟩ := h.count
  have hguard : ¬((route.upstreams.isEmpty || decide (route.upstreams.length > 16)) = true) := by
    rw [Bool.or_eq_true, not_or, List.isEmpty_iff, decide_eq_true_eq, Nat.not_lt]
    exact ⟨List.length_pos_iff.mp hlow, hhigh⟩
  unfold choose
  rw [if_neg hguard]
  cases hindex : route.routeIndex with
  | none => exact ⟨_, rfl⟩
  | some r =>
      obtain ⟨position, hposition, hlt⟩ := h.position r hindex
      obtain ⟨found, hfound⟩ := firstAvailable_ok (h.slots r hindex) hlt
      simp only [hposition, bind, Except.bind]
      rw [if_neg (Nat.not_le.mpr hlt), hfound]
      cases found with
      | none => exact ⟨_, rfl⟩
      | some slot => exact ⟨_, rfl⟩

theorem Fits.tryAcquire_ok (h : Fits a route) (now : TimePoint) :
    ∃ result, (a.tryAcquire route now).1 = .ok result := by
  obtain ⟨decision, limits, hcheck⟩ := RouteRateLimits.check_ok h.bucket now
  obtain ⟨⟨upstream, positions⟩, hchoice⟩ := h.choose_ok
  -- the choice does not look at the buckets
  have hchoose : ({ a with rateLimits := limits } : RouteProxyAdmission).choose route
      = .ok (upstream, positions) := hchoice
  unfold tryAcquire
  rw [checkRate_eq, hcheck]
  dsimp only
  split
  · exact ⟨_, rfl⟩
  · split
    · exact ⟨_, rfl⟩
    · rw [hchoose]
      cases upstream with
      | none => exact ⟨_, rfl⟩
      | some upstream => exact ⟨_, rfl⟩

end RouteProxyAdmission

/-- A selected route is one of the table, or the upstream that needs no table. -/
theorem selectHttpRoute_source {config : AppConfig} {request : HttpRequest} {route : SelectedRoute}
    (h : selectHttpRoute config request = some route) :
    (∃ upstream, config.upstream = some upstream ∧ route = { upstreams := [upstream] })
      ∨ ∃ r entry, config.routes[r]? = some entry ∧ route = SelectedRoute.ofRoute r entry := by
  rcases selectHttpRoute_eq config request with ⟨-, heq⟩ | ⟨-, heq⟩
  · rw [h] at heq
    cases hlegacy : config.upstream with
    | some upstream =>
        rw [hlegacy] at heq
        exact Or.inl ⟨upstream, rfl, Option.some.inj heq⟩
    | none =>
        rw [hlegacy] at heq
        dsimp only at heq
        rcases selectLongest_spec (requestPath request.target) config.routes 0 0 none with
          ⟨hnone, -⟩ | ⟨r, entry, hentry, -, -, -, hsome⟩
        · rw [hnone] at heq
          cases heq
        · rw [hsome, Nat.zero_add] at heq
          exact Or.inr ⟨r, entry, hentry, Option.some.inj heq⟩
  · rw [h] at heq
    cases heq

/-! ## What a session keeps of them -/

namespace Outline

variable {g : Setup} {lenient lossy : Prop} {f f' : Outline}

/-- The admission state fits the routes. -/
structure Guarded (routes : List RouteConfig) (f : Outline) : Prop where
  buckets : f.limits.length = routes.length
  positions : ∀ (r : Nat) (entry : RouteConfig), routes[r]? = some entry →
    ∃ position, f.positions[r]? = some position ∧ position < entry.upstreams.length
  sizes : f.sizes = routes.map fun entry => entry.upstreams.length

theorem Guarded.same {routes : List RouteConfig} (h : Guarded routes f)
    (hlimits : f'.limits = f.limits) (hpositions : f'.positions = f.positions)
    (hsizes : f'.sizes = f.sizes) : Guarded routes f' where
  buckets := by rw [hlimits, h.buckets]
  positions := by
    rw [hpositions]
    exact h.positions
  sizes := by rw [hsizes, h.sizes]

theorem Guarded.check (h : Guarded g.config.routes f) {request : HttpRequest}
    {route : SelectedRoute} {positions : List Nat}
    (hselected : selectHttpRoute g.config request = some route)
    (hturned : Turned route f.positions positions) :
    Guarded g.config.routes { f.check request route with positions } where
  buckets := by
    show (f.limits.check route.routeIndex f.now).2.length = _
    rw [RouteRateLimits.length_check, h.buckets]
  sizes := h.sizes
  positions := by
    intro r entry hentry
    show ∃ position, positions[r]? = some position ∧ position < entry.upstreams.length
    obtain ⟨position, hposition, hlt⟩ := h.positions r entry hentry
    rcases hturned with rfl | ⟨r', slot, hindex, hslot, rfl⟩
    · exact ⟨position, hposition, hlt⟩
    · by_cases hsame : r' = r
      · subst hsame
        rcases selectHttpRoute_source hselected with
          ⟨upstream, -, rfl⟩ | ⟨r'', entry', hentry', rfl⟩
        · cases hindex
        · obtain rfl : r'' = r' := Option.some.inj hindex
          rw [hentry] at hentry'
          cases hentry'
          have hr := (List.getElem?_eq_some_iff.mp hposition).1
          exact ⟨slot, List.getElem?_set_self hr, hslot⟩
      · exact ⟨position, (List.getElem?_set_ne hsame).trans hposition, hlt⟩

theorem Guarded.move (h : Guarded g.config.routes f) (hmove : Move g lenient lossy f f') :
    Guarded g.config.routes f' := by
  cases hmove with
  | check hselected _ hturned => exact h.check hselected hturned
  | _ => exact h.same rfl rfl rfl

end Outline

/-! ## Requests -/

namespace Gateway

variable {g : Setup}

theorem launch_guarded {start : TimePoint} {limits : RouteRateLimits}
    (hmake : RouteRateLimits.make start g.config.routes = .ok limits)
    (hsize : ∀ route ∈ g.config.routes, 1 ≤ route.upstreams.length) (i : Nat) :
    Outline.Guarded g.config.routes ((launch g limits).outline i) where
  buckets := RouteRateLimits.length_make hmake
  sizes := UpstreamHealthState.sizes_make _
  positions := by
    intro r entry hentry
    have hr : r < g.config.routes.length := (List.getElem?_eq_some_iff.mp hentry).1
    refine ⟨0, ?_, hsize entry (List.mem_of_getElem? hentry)⟩
    show (List.replicate g.config.routes.length 0)[r]? = some 0
    rw [List.getElem?_replicate, if_pos hr]

theorem after_guarded {start : TimePoint} {limits : RouteRateLimits}
    (hmake : RouteRateLimits.make start g.config.routes = .ok limits)
    (hsize : ∀ route ∈ g.config.routes, 1 ≤ route.upstreams.length) (inputs : List Input)
    (i : Nat) : Outline.Guarded g.config.routes ((after g limits inputs).outline i) := by
  revert i
  refine after_turns (P := fun gw => ∀ i, Outline.Guarded g.config.routes (gw.outline i))
    (fun _ _ _ _ => heeds_all g _ _) (launch_guarded hmake hsize) ?_
  intro input gw gw' i _ htame hturn h j
  have hstart : Outline.Guarded g.config.routes ((gw.outline i).tick input.now) :=
    (h i).same rfl rfl rfl
  have hi : Outline.Guarded g.config.routes (gw'.outline i) :=
    hturn.moves.keeps (fun hmove _ hf => hf.move hmove) ((htame i).tick _) hstart
  -- all sessions see one admission state
  exact hi.same rfl rfl rfl

/-- The guards that a request meets: an admission does not throw, and the connection to
an upstream that it gives is made unless the library throws. -/
structure Unhindered (g : Setup) (gw : Gateway) : Prop where
  admission : ∀ request route now, selectHttpRoute g.config request = some route →
    ∃ result, (gw.shared.admission.tryAcquire route now).1 = .ok result
  connection : ∀ request route now result selected,
    selectHttpRoute g.config request = some route →
    (gw.shared.admission.tryAcquire route now).1 = .ok result →
    result.upstream = some selected → ∀ w : World Session,
      wp (fun site => site = .exchangeMake) (Session.makeExchange g selected request)
        (fun _ _ => True) (fun _ => False) w

end Gateway

namespace Session

theorem makeExchange_returns {g : Setup} {selected : SelectedUpstream}
    (h : selected.upstream.scheme = .https → g.config.upstreamTlsContext ≠ none)
    (request : HttpRequest) (w : World Session) :
    wp (fun site => site = .exchangeMake) (makeExchange g selected request)
      (fun _ _ => True) (fun _ => False) w := by
  unfold makeExchange
  refine wp_mayThrow_bind (wp_survey_bind fun clean => ?_) fun hthrows => hthrows rfl
  simp only [wp_get_bind, wp_modify_bind]
  split
  · rename_i htrust
    simp only [Bool.and_eq_true, decide_eq_true_eq, Option.isNone_iff_eq_none] at htrust
    exact absurd htrust.2 (h htrust.1.2)
  · split
    · refine wp_mayThrow_bind ?_ fun hthrows => hthrows rfl
      simp only [wp_modify_bind]
      exact wp_pure.mpr trivial
    · simp only [wp_modify_bind]
      exact wp_pure.mpr trivial

end Session

end ApiGate
