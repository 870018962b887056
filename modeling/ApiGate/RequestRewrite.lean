import Mathlib.Data.List.TakeWhile
import ApiGate.Admission
import ApiGate.FieldFilters
import ApiGate.RouteSelection

/-!
# The request that goes upstream

`make_upstream_request` in terms of the request that came in: the fields are a
filter of the old ones with at most three new ones behind it
(`upstream_request_exact`), and the target is the old one, or the old one without
the prefix that the selection has matched (`prefix_stripping`).
-/

namespace ApiGate

/-! ## The fields -/

/-- The names that no upstream gets. -/
def requestNames : List Text :=
  hopByHopNames ++ ["host".toList, "content-length".toList, "expect".toList]

/-- The field is not passed on. -/
def DroppedUpstream (selected : SelectedUpstream) (fields : Fields) (name : Text) : Prop :=
  lowercase name ∈ requestNames ∨ "x-forwarded-".toList <+: lowercase name
    ∨ Nominated fields name
    ∨ (selected.stripAuthorization = true ∧ lowercase name = "authorization".toList)

theorem dropsUpstream_iff {selected : SelectedUpstream} {fields : Fields} {f : Field} :
    dropsUpstream selected (connectionTokens fields) f = true ↔
      DroppedUpstream selected fields f.name := by
  unfold dropsUpstream DroppedUpstream requestNames isForwardingMetadata
  simp only [Bool.or_eq_true, Bool.and_eq_true, isHopByHop_iff, Field.named, decide_eq_true_eq,
    List.isPrefixOf_iff_prefix, List.mem_append, List.mem_cons, List.not_mem_nil, or_false]
  constructor
  · rintro (((((hauth | (hhop | hnominated)) | hforwarded) | hhost) | hlength) | hexpect)
    · exact Or.inr (Or.inr (Or.inr hauth))
    · exact Or.inl (Or.inl hhop)
    · exact Or.inr (Or.inr (Or.inl hnominated))
    · exact Or.inr (Or.inl hforwarded)
    · exact Or.inl (Or.inr (Or.inl hhost))
    · exact Or.inl (Or.inr (Or.inr (Or.inl hlength)))
    · exact Or.inl (Or.inr (Or.inr (Or.inr hexpect)))
  · rintro ((hhop | hhost | hlength | hexpect) | hforwarded | hnominated | hauth)
    · exact Or.inl (Or.inl (Or.inl (Or.inl (Or.inr (Or.inl hhop)))))
    · exact Or.inl (Or.inl (Or.inr hhost))
    · exact Or.inl (Or.inr hlength)
    · exact Or.inr hexpect
    · exact Or.inl (Or.inl (Or.inl (Or.inr hforwarded)))
    · exact Or.inl (Or.inl (Or.inl (Or.inl (Or.inr (Or.inr hnominated)))))
    · exact Or.inl (Or.inl (Or.inl (Or.inl (Or.inl hauth))))

theorem dropsUpstream_congr (selected : SelectedUpstream) (tokens : List Text) {f g : Field}
    (h : lowercase f.name = lowercase g.name) :
    dropsUpstream selected tokens f = dropsUpstream selected tokens g := by
  unfold dropsUpstream isForwardingMetadata Field.named
  rw [isHopByHop_congr tokens h, h]

/-- The fields of the client that are passed on. -/
def keptUpstream (selected : SelectedUpstream) (fields : Fields) : Fields :=
  fields.filter fun f => !dropsUpstream selected (connectionTokens fields) f

theorem mem_keptUpstream {selected : SelectedUpstream} {fields : Fields} {f : Field} :
    f ∈ keptUpstream selected fields ↔ f ∈ fields ∧ ¬DroppedUpstream selected fields f.name := by
  unfold keptUpstream
  rw [List.mem_filter, Bool.not_eq_true', ← Bool.not_eq_true, dropsUpstream_iff]

theorem keptUpstream_absent {selected : SelectedUpstream} {fields : Fields} {name : Text}
    (h : name ∈ requestNames) : (keptUpstream selected fields).has name = false := by
  rw [Fields.has_eq_false]
  intro f hf heq
  exact (mem_keptUpstream.mp hf).2 (Or.inl (heq ▸ h))

/-! ## The new fields -/

/-- Content-Length; a GET without a body has none. -/
def lengthField (request : HttpRequest) : Fields :=
  if request.method = .get ∧ request.body = [] then []
  else [⟨"Content-Length".toList, decimal request.body.length⟩]

def hostField (upstream : UpstreamConfig) : Field :=
  ⟨"Host".toList, makeUpstreamAuthority upstream.host upstream.port⟩

theorem equalRange_hostField (upstream : UpstreamConfig) (name : Text) :
    Fields.equalRange [hostField upstream] name
      = if name = "host".toList then [hostField upstream] else [] :=
  equalRange_singleton (show lowercase "Host".toList = "host".toList by decide) name

theorem equalRange_lengthField (request : HttpRequest) (name : Text) :
    (lengthField request).equalRange name
      = if name = "content-length".toList then lengthField request else [] := by
  unfold lengthField
  split
  · exact (ite_self []).symm
  · exact equalRange_singleton
      (show lowercase "Content-Length".toList = "content-length".toList by decide) name

theorem makeUpstreamRequest_fields (selected : SelectedUpstream) {request : HttpRequest}
    (keepAlive : Bool) (hgrouped : request.fields.Grouped) :
    (makeUpstreamRequest selected request keepAlive).fields
      = keptUpstream selected request.fields ++ [hostField selected.upstream]
        ++ connectionField 11 keepAlive ++ lengthField request := by
  have hcopy : copyFields (dropsUpstream selected (connectionTokens request.fields)) request.fields
      = keptUpstream selected request.fields :=
    copyFields_eq_filter hgrouped fun f g h => dropsUpstream_congr selected _ h
  have hhost : (keptUpstream selected request.fields).set "Host".toList
      (makeUpstreamAuthority selected.upstream.host selected.upstream.port)
      = keptUpstream selected request.fields ++ [hostField selected.upstream] := by
    have hlower : lowercase "Host".toList = "host".toList := by decide
    rw [Fields.set_of_absent (by rw [hlower]; exact keptUpstream_absent (by decide))]
    rfl
  -- none of the names of the setters is among the fields that are passed on
  have habsent : ∀ name ∈ requestNames, name ≠ "host".toList →
      Fields.has (keptUpstream selected request.fields ++ [hostField selected.upstream]) name
        = false := by
    intro name hname hne
    have hlower : lowercase (hostField selected.upstream).name = "host".toList := by
      show lowercase "Host".toList = "host".toList
      decide
    rw [Fields.has_append, keptUpstream_absent hname, Fields.has_singleton, hlower,
      decide_eq_false (Ne.symm hne)]
    rfl
  have hconnection := setKeepAlive_absent
    (habsent "connection".toList (by decide) (by decide)) 11 keepAlive
  have hmore : ∀ name ∈ requestNames, name ≠ "host".toList → name ≠ "connection".toList →
      Fields.has (keptUpstream selected request.fields ++ [hostField selected.upstream]
        ++ connectionField 11 keepAlive) name = false := by
    intro name hname hne hne'
    rw [Fields.has_append, habsent name hname hne, has_connectionField hne']
    rfl
  unfold makeUpstreamRequest lengthField
  dsimp only
  rw [hcopy, hhost, hconnection]
  by_cases hget : request.method = .get ∧ request.body = []
  · rw [if_pos hget, if_neg (by simp [hget.1, hget.2]), List.append_nil]
  · rw [if_neg hget, if_pos (by
      cases hbody : request.body with
      | nil => simpa [hbody] using hget
      | cons => simp)]
    exact setContentLength_absent (hmore _ (by decide) (by decide) (by decide))
      (hmore _ (by decide) (by decide) (by decide)) _

/-- What the request upstream has of the one that came in. -/
structure RewritesRequest (selected : SelectedUpstream) (request : HttpRequest) (keepAlive : Bool)
    (upstream : HttpRequest) : Prop where
  method : upstream.method = request.method
  body : upstream.body = request.body
  version : upstream.version = 11
  /-- the fields that are passed on, in their order, and the new ones -/
  fields : ∃ keep : Field → Bool,
    (∀ f, keep f = true ↔ ¬DroppedUpstream selected request.fields f.name)
      ∧ upstream.fields = request.fields.filter keep ++ [hostField selected.upstream]
        ++ connectionField 11 keepAlive ++ lengthField request
  host : upstream.fields.equalRange "host".toList = [hostField selected.upstream]
  connection : upstream.fields.equalRange "connection".toList = connectionField 11 keepAlive
  length : upstream.fields.equalRange "content-length".toList = lengthField request
  coding : upstream.fields.equalRange "transfer-encoding".toList = []

/-- The request upstream is the rewrite of the one that came in, whatever fields that one
has, as long as they are stored in groups. -/
theorem upstream_request_exact (selected : SelectedUpstream) (request : HttpRequest)
    (keepAlive : Bool) (hgrouped : request.fields.Grouped) :
    RewritesRequest selected request keepAlive (makeUpstreamRequest selected request keepAlive) := by
  have hfields := makeUpstreamRequest_fields selected keepAlive hgrouped
  have hrange : ∀ name ∈ requestNames,
      (makeUpstreamRequest selected request keepAlive).fields.equalRange name
        = (if name = "host".toList then [hostField selected.upstream] else [])
          ++ (if name = "connection".toList then connectionField 11 keepAlive else [])
          ++ (if name = "content-length".toList then lengthField request else []) := by
    intro name hname
    rw [hfields, equalRange_append, equalRange_append, equalRange_append,
      equalRange_absent (keptUpstream_absent hname), List.nil_append, equalRange_hostField,
      equalRange_connectionField, equalRange_lengthField]
  refine ⟨rfl, rfl, rfl, ⟨_, fun f => ?_, hfields⟩, ?_, ?_, ?_, ?_⟩
  · rw [Bool.not_eq_true', ← Bool.not_eq_true, dropsUpstream_iff]
  · rw [hrange _ (by decide), if_pos rfl, if_neg (by decide), if_neg (by decide)]
    rfl
  · rw [hrange _ (by decide), if_neg (by decide), if_pos rfl, if_neg (by decide), List.append_nil]
    rfl
  · rw [hrange _ (by decide), if_neg (by decide), if_neg (by decide), if_pos rfl]
    rfl
  · rw [hrange _ (by decide), if_neg (by decide), if_neg (by decide), if_neg (by decide)]
    rfl

/-- Two Connection fields with several elements, apart from each other; one of them names a
field in other letters. -/
def noisyRequest : HttpRequest where
  method := .post
  target := "/a".toList
  fields := Fields.stored
    [⟨"Host".toList, "gate".toList⟩,
     ⟨"connection".toList, "close , \tX-Remove".toList⟩,
     ⟨"X-Keep".toList, "2".toList⟩,
     ⟨"Connection".toList, ",te".toList⟩,
     ⟨"x-remove".toList, "1".toList⟩,
     ⟨"Transfer-Encoding".toList, "chunked".toList⟩,
     ⟨"X-Forwarded-For".toList, "4".toList⟩,
     ⟨"x-keep".toList, "3".toList⟩]
  body := "body".toList

def backend : UpstreamConfig where
  host := "backend".toList
  port := 80

def selectedBackend : SelectedUpstream where
  upstream := backend

theorem upstream_request_exact_noisy :
    (makeUpstreamRequest selectedBackend noisyRequest false).fields
        = [⟨"X-Keep".toList, "2".toList⟩, ⟨"x-keep".toList, "3".toList⟩,
           ⟨"Host".toList, "backend:80".toList⟩, ⟨"Connection".toList, "close".toList⟩,
           ⟨"Content-Length".toList, "4".toList⟩]
      ∧ RewritesRequest selectedBackend noisyRequest false
        (makeUpstreamRequest selectedBackend noisyRequest false) :=
  ⟨by decide +kernel, upstream_request_exact selectedBackend noisyRequest false
    (Fields.stored_grouped _)⟩

/-! ## The target -/

/-- The target from its first question mark on. -/
def queryPart (target : Text) : Text := target.dropWhile (· ≠ '?')

theorem requestPath_append_queryPart (target : Text) :
    requestPath target ++ queryPart target = target :=
  List.takeWhile_append_dropWhile

theorem requestPath_noQuery (target : Text) : ∀ c ∈ requestPath target, c ≠ '?' := by
  intro c hc
  exact of_decide_eq_true (List.mem_takeWhile_imp (p := fun c => decide (c ≠ '?')) hc)

theorem queryPart_begins (target : Text) :
    queryPart target = [] ∨ ∃ rest, queryPart target = '?' :: rest := by
  cases hquery : queryPart target with
  | nil => exact Or.inl rfl
  | cons c rest =>
      have hhead := List.head_dropWhile_not (fun c => decide (c ≠ '?')) (l := target)
        (by unfold queryPart at hquery; rw [hquery]; simp)
      unfold queryPart at hquery
      simp only [hquery, List.head_cons, decide_eq_false_iff_not, not_not] at hhead
      exact Or.inr ⟨rest, by rw [hhead]⟩

/-- A path without a question mark, in front of a query. -/
theorem requestPath_append {path query : Text} (hpath : ∀ c ∈ path, c ≠ '?')
    (hquery : query = [] ∨ ∃ rest, query = '?' :: rest) :
    requestPath (path ++ query) = path ∧ queryPart (path ++ query) = query := by
  have hall : ∀ c ∈ path, decide (c ≠ '?') = true := fun c hc => decide_eq_true (hpath c hc)
  unfold requestPath queryPart
  rw [List.takeWhile_append_of_pos hall, List.dropWhile_append_of_pos hall]
  rcases hquery with rfl | ⟨rest, rfl⟩
  · simp
  · simp

/-- The route leaves the target as it is. -/
def KeepsTarget (config : AppConfig) (route : SelectedRoute) : Prop :=
  config.upstream.isSome = true ∨ route.stripPrefix = false ∨ route.routePrefix = "/".toList

/-- What the target upstream has of the one that came in, for a route of a configuration. -/
structure RewritesTarget (config : AppConfig) (route : SelectedRoute)
    (target upstream : Text) : Prop where
  /-- `remove_prefix` stays inside the target -/
  bounds : route.routePrefix.length ≤ target.length
  origin : ∃ rest, upstream = '/' :: rest
  query : queryPart upstream = queryPart target
  kept : KeepsTarget config route → upstream = target
  stripped : ¬KeepsTarget config route →
    (requestPath target = route.routePrefix ∧ requestPath upstream = "/".toList)
      ∨ (requestPath target ≠ route.routePrefix
        ∧ requestPath target = route.routePrefix ++ requestPath upstream)

theorem rewriteTarget_kept {selected : SelectedUpstream} (target : Text)
    (h : selected.stripPrefix = false ∨ selected.routePrefix = "/".toList) :
    rewriteTarget selected target = target := by
  unfold rewriteTarget
  refine if_neg ?_
  rw [Bool.and_eq_true, Bool.and_eq_true, decide_eq_true_iff]
  rintro ⟨⟨hstrip, -⟩, hroot⟩
  rcases h with hoff | hsame
  · rw [hoff] at hstrip
    cases hstrip
  · exact hroot hsame

theorem rewriteTarget_stripped (selected : SelectedUpstream) (path query : Text)
    (hstrip : selected.stripPrefix = true) (hroot : selected.routePrefix ≠ "/".toList)
    (hne : selected.routePrefix ≠ []) :
    rewriteTarget selected (selected.routePrefix ++ path ++ query)
      = if (path ++ query).isEmpty || (path ++ query).head? = some '?'
        then '/' :: (path ++ query) else path ++ query := by
  unfold rewriteTarget
  rw [if_pos, List.append_assoc, List.drop_left]
  rw [Bool.and_eq_true, Bool.and_eq_true, decide_eq_true_iff, Bool.not_eq_true',
    List.isEmpty_eq_false_iff]
  exact ⟨⟨hstrip, hne⟩, hroot⟩

/-- The path is the prefix, or goes on behind it with a slash. -/
theorem PrefixMatches.split {routePrefix path : Text} (h : PrefixMatches routePrefix path)
    (hroot : routePrefix ≠ "/".toList) :
    path = routePrefix ∨ ∃ rest, path = routePrefix ++ '/' :: rest := by
  rcases h with h | h | ⟨rest, h⟩
  · exact absurd h hroot
  · exact Or.inl h
  · exact Or.inr ⟨rest, by rw [← h]; simp⟩

/-- The rewrite behind the prefix of a route that matches the path. -/
theorem rewritesTarget_of_matches {config : AppConfig} {route : SelectedRoute}
    {selected : SelectedUpstream} {target : Text} (hconfig : config.upstream = none)
    (hsame : selected.routePrefix = route.routePrefix)
    (hflag : selected.stripPrefix = route.stripPrefix)
    (horigin : ∃ rest, target = '/' :: rest) (hne : route.routePrefix ≠ [])
    (hmatches : PrefixMatches route.routePrefix (requestPath target)) :
    RewritesTarget config route target (rewriteTarget selected target) := by
  obtain ⟨rest, htarget⟩ := horigin
  have hpath : requestPath target = '/' :: requestPath rest := by
    rw [htarget]
    rfl
  have hwhole := requestPath_append_queryPart target
  have hbounds : route.routePrefix.length ≤ target.length := by
    have hle := (hmatches.isPrefix ⟨_, hpath⟩).length_le
    rw [← hwhole, List.length_append]
    omega
  by_cases hkeep : KeepsTarget config route
  · have heq : rewriteTarget selected target = target := by
      refine rewriteTarget_kept target ?_
      rw [hflag, hsame]
      refine hkeep.resolve_left ?_
      rw [hconfig]
      simp
    rw [heq]
    exact ⟨hbounds, ⟨rest, htarget⟩, rfl, fun _ => rfl, fun hnot => absurd hkeep hnot⟩
  · have hstrip : selected.stripPrefix = true := by
      rw [hflag, ← Bool.not_eq_false]
      exact fun hoff => hkeep (Or.inr (Or.inl hoff))
    have hroot : route.routePrefix ≠ "/".toList := fun h => hkeep (Or.inr (Or.inr h))
    have hquery := queryPart_begins target
    have hnoQuery := requestPath_noQuery target
    rcases hmatches.split hroot with hexact | ⟨below, hbelow⟩
    · -- nothing but the query is behind the prefix
      have heq : rewriteTarget selected target = ['/'] ++ queryPart target := by
        have h := rewriteTarget_stripped selected [] (queryPart target) hstrip
          (by rw [hsame]; exact hroot) (by rw [hsame]; exact hne)
        rw [List.append_nil, hsame, ← hexact, hwhole, List.nil_append] at h
        rw [h, if_pos]
        · rfl
        · rcases hquery with hnil | ⟨r, hr⟩
          · rw [hnil]
            rfl
          · rw [hr]
            rfl
      have hslash : ∀ c ∈ ['/'], c ≠ '?' := by simp
      obtain ⟨hp, hq⟩ := requestPath_append hslash hquery
      rw [heq]
      exact ⟨hbounds, ⟨_, rfl⟩, hq, fun h => absurd h hkeep, fun _ => Or.inl ⟨hexact, hp⟩⟩
    · have heq : rewriteTarget selected target = ('/' :: below) ++ queryPart target := by
        have h := rewriteTarget_stripped selected ('/' :: below) (queryPart target)
          hstrip (by rw [hsame]; exact hroot) (by rw [hsame]; exact hne)
        rw [hsame, ← hbelow, hwhole] at h
        exact h
      have hmem : ∀ c ∈ '/' :: below, c ≠ '?' := by
        intro c hc
        exact hnoQuery c (by rw [hbelow]; exact List.mem_append_right _ hc)
      obtain ⟨hp, hq⟩ := requestPath_append hmem hquery
      rw [heq]
      refine ⟨hbounds, ⟨_, rfl⟩, hq, fun h => absurd h hkeep, fun _ => Or.inr ⟨?_, ?_⟩⟩
      · rw [hbelow]
        simp
      · rw [hp, hbelow]

/-- Whatever route the selection hands on, and whatever upstream of it is admitted: the target
upstream is the target, or the target without the prefix. -/
theorem prefix_stripping (config : AppConfig) (request : HttpRequest) (route : SelectedRoute)
    (upstream : UpstreamConfig) (keepAlive : Bool)
    (hroute : selectHttpRoute config request = some route) :
    RewritesTarget config route request.target
      (makeUpstreamRequest (RouteProxyAdmission.selectedUpstream route upstream) request
        keepAlive).target := by
  show RewritesTarget config route request.target
    (rewriteTarget (RouteProxyAdmission.selectedUpstream route upstream) request.target)
  rcases selectHttpRoute_eq config request with ⟨heligible, hselect⟩ | ⟨-, hnone⟩
  · rw [hroute] at hselect
    cases hconfig : config.upstream with
    | some legacy =>
        rw [hconfig] at hselect
        obtain rfl := Option.some.inj hselect
        rw [rewriteTarget_kept _ (Or.inl rfl)]
        exact ⟨Nat.zero_le _, heligible.origin, rfl, fun _ => rfl,
          fun hnot => absurd (Or.inl (by rw [hconfig]; rfl)) hnot⟩
    | none =>
        rw [hconfig] at hselect
        rcases selectLongest_spec (requestPath request.target) config.routes 0 0 none with
          ⟨heq, -⟩ | ⟨i, entry, -, hmatches, hlonger, -, heq⟩
        · rw [heq] at hselect
          cases hselect
        · obtain rfl := Option.some.inj (hselect.trans heq)
          exact rewritesTarget_of_matches hconfig rfl rfl heligible.origin
            (List.ne_nil_of_length_pos hlonger)
            ((matchesPrefix_iff heligible.path).mp hmatches)
  · rw [hroute] at hnone
    cases hnone

/-- A route that strips its prefix. -/
def strippedTable : AppConfig where
  routes := [{ routePrefix := "/api".toList, stripPrefix := true, upstreams := [backend] }]

def strippedRoute : SelectedRoute :=
  SelectedRoute.ofRoute 0
    { routePrefix := "/api".toList, stripPrefix := true, upstreams := [backend] }

/-- The query names the prefix once more. -/
def queryRequest : HttpRequest where
  method := .get
  target := "/api?x=/api".toList

theorem prefix_stripping_exact :
    (makeUpstreamRequest (RouteProxyAdmission.selectedUpstream strippedRoute backend) queryRequest
        true).target = "/?x=/api".toList
      ∧ RewritesTarget strippedTable strippedRoute queryRequest.target
        (makeUpstreamRequest (RouteProxyAdmission.selectedUpstream strippedRoute backend)
          queryRequest true).target :=
  ⟨by decide +kernel, prefix_stripping strippedTable queryRequest strippedRoute backend true
    (by decide +kernel)⟩

end ApiGate
