import ApiGate.Handler

/-!
# Which route a request takes

The loop of `select_http_route` keeps the longest prefix that matches so far.
`PrefixMatches` is the relation it is after, with the boundary of segments
spelled out, and `Selects` the route that the relation singles out: distinct
prefixes of one path have distinct lengths, so there is one of maximal length,
whatever the order of the table. The requests that are answered locally are the
ones that `Eligible` leaves out, up to the prefix.
-/

namespace ApiGate

/-! ## Matching prefixes -/

/-- The path lies below the prefix, at a boundary of segments. -/
def PrefixMatches (routePrefix path : Text) : Prop :=
  routePrefix = "/".toList ∨ path = routePrefix ∨ routePrefix ++ ['/'] <+: path

/-- What `select_http_route` asks of a request before it looks at the routes. -/
structure Eligible (config : AppConfig) (request : HttpRequest) : Prop where
  method : request.method = .get ∨ request.method = .post ∨ request.method = .put
    ∨ request.method = .patch
  notHealthz : requestPath request.target ≠ "/healthz".toList
  notReadyz : requestPath request.target ≠ "/readyz".toList
  notMetrics : config.metricsEnabled = true → requestPath request.target ≠ "/metrics".toList
  origin : ∃ rest, request.target = '/' :: rest
  noFragment : '#' ∉ request.target
  noUpgrade : ∀ f ∈ request.fields, lowercase f.name ≠ "upgrade".toList
  noGetBody : request.method = .get → request.body = []

theorem isSupportedProxyMethod_iff (method : Verb) : isSupportedProxyMethod method = true ↔
    method = .get ∨ method = .post ∨ method = .put ∨ method = .patch := by
  cases method <;> simp [isSupportedProxyMethod]

theorem classifyHttpRoute_eq_unmatched (target : Text) : classifyHttpRoute target = .unmatched ↔
    requestPath target ≠ "/healthz".toList ∧ requestPath target ≠ "/readyz".toList := by
  unfold classifyHttpRoute
  split
  · rename_i h
    exact iff_of_false (by simp) fun hne => hne.1 h
  · rename_i h
    split
    · rename_i h'
      exact iff_of_false (by simp) fun hne => hne.2 h'
    · rename_i h'
      exact iff_of_true rfl ⟨h, h'⟩

theorem isMetricsTarget_iff (config : AppConfig) (target : Text) :
    isMetricsTarget config target = true ↔
      config.metricsEnabled = true ∧ requestPath target = "/metrics".toList := by
  rw [isMetricsTarget, Bool.and_eq_true, decide_eq_true_iff]

theorem isSupportedProxyTarget_iff (target : Text) : isSupportedProxyTarget target = true ↔
    (∃ rest, target = '/' :: rest) ∧ '#' ∉ target := by
  rw [isSupportedProxyTarget, Bool.and_eq_true, decide_eq_true_iff, Bool.not_eq_true',
    List.contains_eq_mem, decide_eq_false_iff_not]
  refine and_congr_left fun _ => ?_
  cases target with
  | nil => simp
  | cons c rest => simp

theorem requestsUpgrade_eq_false (request : HttpRequest) : requestsUpgrade request = false ↔
    ∀ f ∈ request.fields, lowercase f.name ≠ "upgrade".toList := by
  rw [requestsUpgrade, Fields.has, List.any_eq_false]
  simp only [Field.named, decide_eq_true_eq]

/-- In the words of the code. -/
theorem eligible_iff (config : AppConfig) (request : HttpRequest) : Eligible config request ↔
    isSupportedProxyMethod request.method = true ∧ classifyHttpRoute request.target = .unmatched
      ∧ isMetricsTarget config request.target = false
      ∧ isSupportedProxyTarget request.target = true ∧ requestsUpgrade request = false
      ∧ (request.method = .get → request.body = []) := by
  rw [isSupportedProxyMethod_iff, classifyHttpRoute_eq_unmatched, ← Bool.not_eq_true,
    isMetricsTarget_iff, isSupportedProxyTarget_iff, requestsUpgrade_eq_false]
  constructor
  · intro h
    exact ⟨h.method, ⟨h.notHealthz, h.notReadyz⟩, fun hm => h.notMetrics hm.1 hm.2,
      ⟨h.origin, h.noFragment⟩, h.noUpgrade, h.noGetBody⟩
  · rintro ⟨hmethod, ⟨hhealthz, hreadyz⟩, hmetrics, ⟨horigin, hfragment⟩, hupgrade, hbody⟩
    exact ⟨hmethod, hhealthz, hreadyz, fun henabled hpath => hmetrics ⟨henabled, hpath⟩, horigin,
      hfragment, hupgrade, hbody⟩

/-- The three guards are the eligibility. -/
theorem selectHttpRoute_eq (config : AppConfig) (request : HttpRequest) :
    (Eligible config request ∧ selectHttpRoute config request = match config.upstream with
        | some upstream => some { upstreams := [upstream] }
        | none => selectLongest (requestPath request.target) config.routes 0 0 none)
      ∨ (¬Eligible config request ∧ selectHttpRoute config request = none) := by
  rw [eligible_iff]
  unfold selectHttpRoute
  split
  · rename_i h
    exact Or.inr ⟨fun he => by simp [he.1] at h, rfl⟩
  · rename_i hmethod
    split
    · rename_i h
      exact Or.inr ⟨fun he => by simp [he.2.1, he.2.2.1] at h, rfl⟩
    · rename_i hlocal
      split
      · rename_i h
        refine Or.inr ⟨fun ⟨_, _, _, htarget, hupgrade, hbody⟩ => ?_, rfl⟩
        simp only [htarget, hupgrade, Bool.not_true, Bool.or_self, Bool.false_or,
          Bool.and_eq_true, decide_eq_true_eq, Bool.not_eq_true'] at h
        rw [hbody h.1] at h
        cases h.2
      · rename_i hrest
        simp only [Bool.not_eq_true, Bool.not_eq_false', Bool.or_eq_false_iff,
          decide_eq_false_iff_not, not_not, Bool.and_eq_false_iff] at hmethod hlocal hrest
        obtain ⟨⟨htarget, hupgrade⟩, hbody⟩ := hrest
        refine Or.inl ⟨⟨hmethod, hlocal.1, hlocal.2, htarget, hupgrade, fun hget => ?_⟩, rfl⟩
        rcases hbody with hne | hempty
        · exact absurd hget hne
        · simpa using hempty

theorem Eligible.path {config : AppConfig} {request : HttpRequest}
    (h : Eligible config request) : ∃ rest, requestPath request.target = '/' :: rest := by
  obtain ⟨rest, htarget⟩ := h.origin
  rw [htarget]
  exact ⟨requestPath rest, rfl⟩

/-- The test in the loop, for a path that begins with a slash. -/
theorem matchesPrefix_iff {routePrefix path : Text} (hpath : ∃ rest, path = '/' :: rest) :
    matchesPrefix routePrefix path = true ↔ PrefixMatches routePrefix path := by
  unfold matchesPrefix PrefixMatches
  rw [Bool.and_eq_true, List.isPrefixOf_iff_prefix, Bool.or_eq_true, Bool.or_eq_true,
    decide_eq_true_iff, decide_eq_true_iff, decide_eq_true_iff]
  constructor
  · rintro ⟨⟨rest, rfl⟩, (hroot | hlen) | hslash⟩
    · exact Or.inl hroot
    · rw [List.length_append] at hlen
      obtain rfl : rest = [] := List.eq_nil_of_length_eq_zero (by omega)
      exact Or.inr (Or.inl (List.append_nil _))
    · rw [List.getElem?_append_right (Nat.le_refl _), Nat.sub_self] at hslash
      cases rest with
      | nil => cases hslash
      | cons c rest =>
          obtain rfl : c = '/' := Option.some.inj hslash
          exact Or.inr (Or.inr ⟨rest, by simp⟩)
  · rintro (rfl | rfl | ⟨rest, rfl⟩)
    · obtain ⟨rest, rfl⟩ := hpath
      exact ⟨⟨rest, rfl⟩, Or.inl (Or.inl rfl)⟩
    · exact ⟨List.prefix_refl _, Or.inl (Or.inr rfl)⟩
    · refine ⟨⟨'/' :: rest, by simp⟩, Or.inr ?_⟩
      rw [List.append_assoc, List.getElem?_append_right (Nat.le_refl _), Nat.sub_self]
      rfl

/-! ## The longest one -/

/-- The route at `index` of the table, as it is handed on. -/
def SelectedRoute.ofRoute (index : Nat) (route : RouteConfig) : SelectedRoute where
  upstreams := route.upstreams
  routePrefix := route.routePrefix
  stripPrefix := route.stripPrefix
  routeIndex := some index
  auth := route.auth
  streamResponse := route.streamResponse

/-- What the loop returns: the best so far, or a route that beats it and every other. -/
theorem selectLongest_spec (path : Text) (routes : List RouteConfig) (index longest : Nat)
    (selected : Option SelectedRoute) :
    (selectLongest path routes index longest selected = selected
        ∧ ∀ route ∈ routes, matchesPrefix route.routePrefix path = true →
          route.routePrefix.length ≤ longest)
      ∨ ∃ i route, routes[i]? = some route ∧ matchesPrefix route.routePrefix path = true
        ∧ longest < route.routePrefix.length
        ∧ (∀ other ∈ routes, matchesPrefix other.routePrefix path = true →
          other.routePrefix.length ≤ route.routePrefix.length)
        ∧ selectLongest path routes index longest selected
          = some (SelectedRoute.ofRoute (index + i) route) := by
  induction routes generalizing index longest selected with
  | nil => exact Or.inl ⟨rfl, fun route hmem => by cases hmem⟩
  | cons first rest ih =>
      unfold selectLongest
      split
      · rename_i hfirst
        rw [Bool.and_eq_true, decide_eq_true_iff] at hfirst
        obtain ⟨hlonger, hmatches⟩ := hfirst
        obtain ⟨heq, hall⟩ | ⟨i, route, hroute, hm, hlt, hmax, heq⟩ :=
          ih (index + 1) first.routePrefix.length (some (SelectedRoute.ofRoute index first))
        · refine Or.inr ⟨0, first, rfl, hmatches, hlonger, fun other hmem hother => ?_, heq⟩
          rcases List.mem_cons.mp hmem with rfl | hmem
          · exact Nat.le_refl _
          · exact hall other hmem hother
        · refine Or.inr ⟨i + 1, route, hroute, hm, Nat.lt_trans hlonger hlt,
            fun other hmem hother => ?_, heq.trans (by congr 2; omega)⟩
          rcases List.mem_cons.mp hmem with rfl | hmem
          · exact Nat.le_of_lt hlt
          · exact hmax other hmem hother
      · rename_i hfirst
        -- the first route does not beat the best so far
        have hskip : matchesPrefix first.routePrefix path = true →
            first.routePrefix.length ≤ longest := by
          intro hm
          simp only [hm, Bool.and_true, decide_eq_true_eq, Nat.not_lt] at hfirst
          exact hfirst
        rcases ih (index + 1) longest selected with
          ⟨heq, hall⟩ | ⟨i, route, hroute, hm, hlt, hmax, heq⟩
        · refine Or.inl ⟨heq, fun other hmem hother => ?_⟩
          rcases List.mem_cons.mp hmem with rfl | hmem
          · exact hskip hother
          · exact hall other hmem hother
        · refine Or.inr ⟨i + 1, route, hroute, hm, hlt, fun other hmem hother => ?_,
            heq.trans (by congr 2; omega)⟩
          rcases List.mem_cons.mp hmem with rfl | hmem
          · exact Nat.le_trans (hskip hother) (Nat.le_of_lt hlt)
          · exact hmax other hmem hother

/-- `selected` is the one matching route of maximal length, at its own index. -/
def Selects (routes : List RouteConfig) (path : Text) (selected : SelectedRoute) : Prop :=
  ∃ i route, routes[i]? = some route ∧ selected = SelectedRoute.ofRoute i route
    ∧ PrefixMatches route.routePrefix path
    ∧ ∀ j other, routes[j]? = some other → PrefixMatches other.routePrefix path →
      j = i ∨ other.routePrefix.length < route.routePrefix.length

theorem PrefixMatches.isPrefix {routePrefix path : Text} (h : PrefixMatches routePrefix path)
    (hpath : ∃ rest, path = '/' :: rest) : routePrefix <+: path := by
  rcases h with rfl | rfl | ⟨rest, rfl⟩
  · obtain ⟨rest, rfl⟩ := hpath
    exact ⟨rest, rfl⟩
  · exact List.prefix_refl _
  · exact ⟨'/' :: rest, by simp⟩

/-- Matching prefixes of one length are one prefix. -/
theorem PrefixMatches.eq_of_length {p q path : Text} (hp : PrefixMatches p path)
    (hq : PrefixMatches q path) (hpath : ∃ rest, path = '/' :: rest)
    (hlen : p.length = q.length) : p = q :=
  (List.prefix_of_prefix_length_le (hp.isPrefix hpath) (hq.isPrefix hpath)
    (Nat.le_of_eq hlen)).eq_of_length hlen

section Tables

variable {config : AppConfig} {request : HttpRequest} {routes : List RouteConfig}

theorem eq_of_routePrefix (hdistinct : (routes.map RouteConfig.routePrefix).Nodup) {i j : Nat}
    {route other : RouteConfig} (hi : routes[i]? = some route) (hj : routes[j]? = some other)
    (heq : route.routePrefix = other.routePrefix) : i = j := by
  have hmap : ∀ {k : Nat} {x : RouteConfig}, routes[k]? = some x →
      (routes.map RouteConfig.routePrefix)[k]? = some x.routePrefix := by
    intro k x hk
    rw [List.getElem?_map, hk]
    rfl
  have hlt : i < (routes.map RouteConfig.routePrefix).length :=
    (List.getElem?_eq_some_iff.mp (hmap hi)).1
  refine (List.getElem?_inj hlt hdistinct).mp ?_
  rw [hmap hi, hmap hj, heq]

/-- Without an upstream for everything the routes decide. -/
theorem selectHttpRoute_selects (config : AppConfig) (request : HttpRequest)
    (hlegacy : config.upstream = none)
    (hnonempty : ∀ route ∈ config.routes, route.routePrefix ≠ [])
    (hdistinct : (config.routes.map RouteConfig.routePrefix).Nodup) :
    (selectHttpRoute config request = none ∧ ¬(Eligible config request
        ∧ ∃ route ∈ config.routes, PrefixMatches route.routePrefix (requestPath request.target)))
      ∨ ∃ selected, selectHttpRoute config request = some selected ∧ Eligible config request
        ∧ Selects config.routes (requestPath request.target) selected := by
  rcases selectHttpRoute_eq config request with ⟨heligible, heq⟩ | ⟨hnot, heq⟩
  · have hpath := heligible.path
    rw [hlegacy] at heq
    dsimp only at heq
    rcases selectLongest_spec (requestPath request.target) config.routes 0 0 none with
      ⟨hnone, hall⟩ | ⟨i, route, hroute, hm, -, hmax, hsome⟩
    · refine Or.inl ⟨heq.trans hnone, ?_⟩
      rintro ⟨-, route, hmem, hmatches⟩
      have hzero := hall route hmem ((matchesPrefix_iff hpath).mpr hmatches)
      exact hnonempty route hmem (List.eq_nil_of_length_eq_zero (by omega))
    · rw [Nat.zero_add] at hsome
      have hmatches := (matchesPrefix_iff hpath).mp hm
      refine Or.inr ⟨_, heq.trans hsome, heligible, i, route, hroute, rfl, hmatches, ?_⟩
      intro j other hother hmatches'
      have hle := hmax other (List.mem_of_getElem? hother)
        ((matchesPrefix_iff hpath).mpr hmatches')
      rcases Nat.lt_or_eq_of_le hle with hlt | hsame
      · exact Or.inr hlt
      · exact Or.inl (eq_of_routePrefix hdistinct hother hroute
          (hmatches'.eq_of_length hmatches hpath hsame))
  · exact Or.inl ⟨heq, fun h => hnot h.1⟩

theorem Eligible.withRoutes (h : Eligible config request) (routes : List RouteConfig) :
    Eligible { config with routes } request :=
  { h with }

/-- Two tables with the same routes single out the same route. -/
theorem Selects.perm {routes' : List RouteConfig} {path : Text} {selected selected' : SelectedRoute}
    (hpath : ∃ rest, path = '/' :: rest) (hperm : routes'.Perm routes)
    (hdistinct : (routes.map RouteConfig.routePrefix).Nodup)
    (h : Selects routes path selected) (h' : Selects routes' path selected') :
    { selected' with routeIndex := none } = { selected with routeIndex := none } := by
  obtain ⟨i, route, hi, rfl, hm, hmax⟩ := h
  obtain ⟨i', route', hi', rfl, hm', hmax'⟩ := h'
  have hmem : route ∈ routes := List.mem_of_getElem? hi
  have hmem' : route' ∈ routes' := List.mem_of_getElem? hi'
  -- each is in the other table, and is not longer than the other
  obtain ⟨j, hj⟩ := List.mem_iff_getElem?.mp (hperm.mem_iff.mp hmem')
  obtain ⟨j', hj'⟩ := List.mem_iff_getElem?.mp (hperm.mem_iff.mpr hmem)
  have hle : route'.routePrefix.length ≤ route.routePrefix.length := by
    rcases hmax j route' hj hm' with rfl | hlt
    · have hsame : route' = route := Option.some.inj (hj.symm.trans hi)
      exact Nat.le_of_eq (congrArg (fun r => r.routePrefix.length) hsame)
    · exact Nat.le_of_lt hlt
  have hge : route.routePrefix.length ≤ route'.routePrefix.length := by
    rcases hmax' j' route hj' hm with rfl | hlt
    · have hsame : route = route' := Option.some.inj (hj'.symm.trans hi')
      exact Nat.le_of_eq (congrArg (fun r => r.routePrefix.length) hsame)
    · exact Nat.le_of_lt hlt
  have hsame : route' = route := by
    have hprefix := hm'.eq_of_length hm hpath (Nat.le_antisymm hle hge)
    obtain rfl : i = j := eq_of_routePrefix hdistinct hi hj hprefix.symm
    exact Option.some.inj (hj.symm.trans hi)
  rw [hsame]
  rfl

/-- The route of a request, for a table whose prefixes are not empty and distinct: it is
the one of the longest prefix that matches at a boundary of segments, and the order of
the table does not matter. -/
theorem longest_prefix_selected (config : AppConfig) (request : HttpRequest)
    (hlegacy : config.upstream = none)
    (hnonempty : ∀ route ∈ config.routes, route.routePrefix ≠ [])
    (hdistinct : (config.routes.map RouteConfig.routePrefix).Nodup) :
    ((selectHttpRoute config request).isSome = true ↔ Eligible config request
        ∧ ∃ route ∈ config.routes, PrefixMatches route.routePrefix (requestPath request.target))
      ∧ (∀ selected, selectHttpRoute config request = some selected →
        Selects config.routes (requestPath request.target) selected)
      ∧ ∀ routes' : List RouteConfig, routes'.Perm config.routes →
        (selectHttpRoute { config with routes := routes' } request).map
            (fun s => { s with routeIndex := none })
          = (selectHttpRoute config request).map (fun s => { s with routeIndex := none }) := by
  have hself := selectHttpRoute_selects config request hlegacy hnonempty hdistinct
  refine ⟨?_, ?_, ?_⟩
  · rcases hself with ⟨hnone, hnot⟩ | ⟨selected, hsome, heligible, i, route, hi, -, hm, -⟩
    · rw [hnone]
      exact iff_of_false (by simp) hnot
    · rw [hsome]
      exact iff_of_true rfl ⟨heligible, route, List.mem_of_getElem? hi, hm⟩
  · intro selected hselected
    rcases hself with ⟨hnone, -⟩ | ⟨selected', hsome, -, hselects⟩
    · rw [hnone] at hselected
      cases hselected
    · rw [hsome] at hselected
      cases hselected
      exact hselects
  · intro routes' hperm
    have hdistinct' : (routes'.map RouteConfig.routePrefix).Nodup :=
      (hperm.map RouteConfig.routePrefix).nodup_iff.mpr hdistinct
    have hother := selectHttpRoute_selects { config with routes := routes' } request hlegacy
      (fun route hmem => hnonempty route (hperm.mem_iff.mp hmem)) hdistinct'
    rcases hself with ⟨hnone, hnot⟩ | ⟨selected, hsome, heligible, hselects⟩
    · rcases hother with ⟨hnone', -⟩ | ⟨selected', -, heligible', i, route, hi, -, hm, -⟩
      · rw [hnone, hnone']
      · exact absurd ⟨heligible'.withRoutes config.routes, route,
          hperm.mem_iff.mp (List.mem_of_getElem? hi), hm⟩ hnot
    · rcases hother with ⟨-, hnot'⟩ | ⟨selected', hsome', -, hselects'⟩
      · obtain ⟨i, route, hi, -, hm, -⟩ := hselects
        exact absurd ⟨heligible.withRoutes routes', route,
          hperm.mem_iff.mpr (List.mem_of_getElem? hi), hm⟩ hnot'
      · rw [hsome, hsome']
        exact congrArg some (hselects.perm heligible.path hperm hdistinct hselects')

def nestedRoutes : AppConfig where
  routes :=
    [{ routePrefix := "/api".toList, upstreams := [⟨"a".toList, 1, 3000, .http⟩] },
     { routePrefix := "/api/v1".toList, upstreams := [⟨"b".toList, 2, 3000, .http⟩] }]

/-- The path has the longer prefix, but `/api/v10` would not have it. -/
theorem longest_prefix_selected_nested :
    let request : HttpRequest := { method := .get, target := "/api/v1/x?y".toList }
    (selectHttpRoute nestedRoutes request).map SelectedRoute.routeIndex = some (some 1)
      ∧ ∀ selected, selectHttpRoute nestedRoutes request = some selected →
        Selects nestedRoutes.routes (requestPath request.target) selected := by
  intro request
  refine ⟨by decide +kernel, ?_⟩
  exact (longest_prefix_selected nestedRoutes request rfl (by decide) (by decide)).2.1

end Tables

/-! ## Local answers -/

/-- The path of an endpoint that the gateway answers itself. -/
def LocalEndpoint (config : AppConfig) (target : Text) : Prop :=
  requestPath target = "/healthz".toList ∨ requestPath target = "/readyz".toList
    ∨ (config.metricsEnabled = true ∧ requestPath target = "/metrics".toList)

def ProxyEnabled (config : AppConfig) : Prop :=
  config.upstream.isSome = true ∨ config.routes ≠ []

/-- The method is not allowed for the target. -/
def NotAllowed (config : AppConfig) (request : HttpRequest) : Prop :=
  (LocalEndpoint config request.target ∧ request.method ≠ .get)
    ∨ isSupportedProxyMethod request.method = false
    ∨ (¬ProxyEnabled config ∧ request.method ≠ .get)

/-- A route for every path. -/
def withRootRoute (config : AppConfig) (upstreams : List UpstreamConfig) : AppConfig :=
  { config with routes := config.routes ++ [{ routePrefix := "/".toList, upstreams }] }

theorem makeJsonResponse_status (request : HttpRequest) (status : Nat) (body : Text) :
    (makeJsonResponse request status body).status = status := rfl

theorem makeMethodNotAllowed_status (request : HttpRequest) (proxyEnabled : Bool) :
    (makeMethodNotAllowed request proxyEnabled).status = 405 := rfl

theorem makeMetricsResponse_status (request : HttpRequest) (body : Text) :
    (makeMetricsResponse request body).status = 200 := rfl

theorem localEndpoint_iff (config : AppConfig) (target : Text) : LocalEndpoint config target ↔
    classifyHttpRoute target ≠ .unmatched ∨ isMetricsTarget config target = true := by
  rw [Ne, classifyHttpRoute_eq_unmatched, isMetricsTarget_iff, not_and_or, Ne, Ne, not_not, not_not,
    or_assoc, LocalEndpoint]

/-- A table with a root route takes every eligible request. -/
theorem selects_withRootRoute (config : AppConfig) (request : HttpRequest)
    (upstreams : List UpstreamConfig) :
    (selectHttpRoute (withRootRoute config upstreams) request).isSome = true
      ↔ Eligible config request := by
  rcases selectHttpRoute_eq (withRootRoute config upstreams) request with
    ⟨heligible, heq⟩ | ⟨hnot, heq⟩
  · refine iff_of_true ?_ (heligible.withRoutes config.routes)
    rw [heq]
    split
    · rfl
    · obtain ⟨-, hall⟩ | ⟨i, route, -, -, -, -, hsome⟩ :=
        selectLongest_spec (requestPath request.target) (withRootRoute config upstreams).routes 0 0
          none
      · have hroot := hall { routePrefix := "/".toList, upstreams } (by simp [withRootRoute])
          ((matchesPrefix_iff heligible.path).mpr (Or.inl rfl))
        exact absurd hroot (Nat.not_succ_le_zero 0)
      · rw [hsome]
        rfl
  · rw [heq]
    exact iff_of_false (by simp) fun h => hnot (h.withRoutes _)

theorem proxyEnabled_iff (config : AppConfig) : ProxyEnabled config ↔
    (config.upstream.isSome || !config.routes.isEmpty) = true := by
  unfold ProxyEnabled
  cases config.routes <;> simp

/-- The status as a function of what `handle_http_request` looks at: whether the metrics
are asked for, the local endpoint, the method, whether there is a body, an Upgrade field,
any proxying, and a target that can be proxied. -/
def statusFor (metrics : Bool) (route : LocalRoute) (method : Verb)
    (body upgrade proxyEnabled supportedTarget : Bool) : Nat :=
  if metrics then
    if method ≠ .get then 405 else if body || upgrade then 400 else 200
  else if route ≠ .unmatched && method ≠ .get then 405
  else if !isSupportedProxyMethod method then 405
  else if proxyEnabled && upgrade then 400
  else if route = .healthz then 200
  else if route = .readyz then 200
  else if !proxyEnabled && method ≠ .get then 405
  else if proxyEnabled && (!supportedTarget || (method = .get && body)) then 400
  else 404

theorem handleHttpRequest_status (config : AppConfig) (request : HttpRequest) :
    (handleHttpRequest config request).status
      = statusFor (isMetricsTarget config request.target) (classifyHttpRoute request.target)
        request.method (!request.body.isEmpty) (requestsUpgrade request)
        (config.upstream.isSome || !config.routes.isEmpty)
        (isSupportedProxyTarget request.target) := by
  unfold handleHttpRequest statusFor
  simp only [apply_ite HttpResponse.status, makeJsonResponse_status, makeMethodNotAllowed_status,
    makeMetricsResponse_status]

section Table

/-! There are finitely many cases, and the answer is right in each. -/

variable (metrics body upgrade proxyEnabled supportedTarget : Bool) (route : LocalRoute)
  (method : Verb)

theorem statusFor_ok :
    statusFor metrics route method body upgrade proxyEnabled supportedTarget = 200 →
      (route ≠ .unmatched ∨ metrics = true) ∧ method = .get := by
  revert metrics body upgrade proxyEnabled supportedTarget
  cases route <;> cases method <;> decide

theorem statusFor_enabled :
    statusFor metrics route method body upgrade true supportedTarget = 404 ↔
      isSupportedProxyMethod method = true ∧ route = .unmatched ∧ metrics = false
        ∧ supportedTarget = true ∧ upgrade = false ∧ (method = .get → body = false) := by
  revert metrics body upgrade supportedTarget
  cases route <;> cases method <;> decide

theorem statusFor_disabled :
    statusFor metrics route method body upgrade false supportedTarget = 404 ↔
      ¬(route ≠ .unmatched ∨ metrics = true) ∧ method = .get := by
  revert metrics body upgrade supportedTarget
  cases route <;> cases method <;> decide

theorem statusFor_notAllowed :
    statusFor metrics route method body upgrade proxyEnabled supportedTarget = 405 ↔
      ((route ≠ .unmatched ∨ metrics = true) ∧ method ≠ .get)
        ∨ isSupportedProxyMethod method = false ∨ (¬proxyEnabled = true ∧ method ≠ .get) := by
  revert metrics body upgrade proxyEnabled supportedTarget
  cases route <;> cases method <;> decide

theorem statusFor_mem :
    statusFor metrics route method body upgrade proxyEnabled supportedTarget
      ∈ [200, 400, 404, 405] := by
  revert metrics body upgrade proxyEnabled supportedTarget
  cases route <;> cases method <;> decide

end Table

/-- What the gateway's own answer says about a request. -/
structure AnswersLocally (config : AppConfig) (request : HttpRequest) (status : Nat) : Prop where
  ok : status = 200 → LocalEndpoint config request.target ∧ request.method = .get
  /-- the request would be taken by a route for every path, whatever its upstreams -/
  notFound : ∀ upstreams, status = 404 ↔ ¬LocalEndpoint config request.target
    ∧ ((ProxyEnabled config
        ∧ (selectHttpRoute (withRootRoute config upstreams) request).isSome = true)
      ∨ (¬ProxyEnabled config ∧ request.method = .get))
  notAllowed : status = 405 ↔ NotAllowed config request
  otherwise : status ≠ 200 → status ≠ 404 → status ≠ 405 → status = 400

theorem Eligible.not_local {config : AppConfig} {request : HttpRequest}
    (h : Eligible config request) : ¬LocalEndpoint config request.target := by
  obtain ⟨-, hunmatched, hmetrics, -⟩ := (eligible_iff _ _).mp h
  rw [localEndpoint_iff, hunmatched, hmetrics]
  simp

/-- A request is unknown when it could be proxied but for its path, or asks for nothing
and nothing is proxied. -/
theorem handleHttpRequest_notFound (config : AppConfig) (request : HttpRequest) :
    (handleHttpRequest config request).status = 404 ↔ ¬LocalEndpoint config request.target
      ∧ ((ProxyEnabled config ∧ Eligible config request)
        ∨ (¬ProxyEnabled config ∧ request.method = .get)) := by
  rw [handleHttpRequest_status]
  by_cases henabled : ProxyEnabled config
  · have hbody : (!request.body.isEmpty) = false ↔ request.body = [] := by simp
    rw [(proxyEnabled_iff config).mp henabled, statusFor_enabled, hbody, ← eligible_iff]
    simp only [henabled, true_and, not_true_eq_false, false_and, or_false]
    exact ⟨fun h => ⟨h.not_local, h⟩, And.right⟩
  · have hdisabled : (config.upstream.isSome || !config.routes.isEmpty) = false := by
      rw [← Bool.not_eq_true, ← proxyEnabled_iff]
      exact henabled
    rw [hdisabled, statusFor_disabled, ← localEndpoint_iff]
    simp only [henabled, false_and, not_false_eq_true, true_and, false_or]

theorem ProxyEnabled.of_selected {config : AppConfig} {request : HttpRequest}
    (h : (selectHttpRoute config request).isSome = true) :
    ProxyEnabled config ∧ Eligible config request := by
  rcases selectHttpRoute_eq config request with ⟨heligible, heq⟩ | ⟨-, hnone⟩
  · refine ⟨?_, heligible⟩
    cases hup : config.upstream with
    | some upstream => exact Or.inl (by rw [hup]; rfl)
    | none =>
        refine Or.inr fun hroutes => ?_
        rw [heq, hup, hroutes] at h
        cases h
  · rw [hnone] at h
    cases h

/-- The gateway's own answers agree with the selection of routes, and a request that is
selected is one that it would not know. -/
theorem local_answers_agree (config : AppConfig) (request : HttpRequest) :
    AnswersLocally config request (handleHttpRequest config request).status
      ∧ ((selectHttpRoute config request).isSome = true →
        ¬LocalEndpoint config request.target
          ∧ (handleHttpRequest config request).status = 404) := by
  have hstatus := handleHttpRequest_status config request
  refine ⟨⟨fun hok => ?_, fun upstreams => ?_, ?_, fun h200 h404 h405 => ?_⟩, fun hsome => ?_⟩
  · rw [localEndpoint_iff]
    exact statusFor_ok _ _ _ _ _ _ _ (hstatus.symm.trans hok)
  · rw [selects_withRootRoute]
    exact handleHttpRequest_notFound config request
  · unfold NotAllowed
    rw [hstatus, statusFor_notAllowed, localEndpoint_iff, proxyEnabled_iff]
  · have hmem := statusFor_mem (isMetricsTarget config request.target) (!request.body.isEmpty)
      (requestsUpgrade request) (config.upstream.isSome || !config.routes.isEmpty)
      (isSupportedProxyTarget request.target) (classifyHttpRoute request.target) request.method
    rw [← hstatus] at hmem
    simpa [h200, h404, h405] using hmem
  · obtain ⟨henabled, heligible⟩ := ProxyEnabled.of_selected hsome
    exact ⟨heligible.not_local, (handleHttpRequest_notFound config request).mpr
      ⟨heligible.not_local, Or.inl ⟨henabled, heligible⟩⟩⟩

end ApiGate
