import ApiGate.Handler

/-!
# API keys and message rewriting

What a request must carry to pass the API-key gate (`api_key_auth.cpp`), the
request that goes upstream and the response head that comes back
(`make_upstream_request`, `make_downstream_header`, `make_downstream_response`).
-/

namespace ApiGate

/-! ## API keys -/

def upperDigitOrUnderscore (c : Char) : Bool :=
  ('A' ≤ c && c ≤ 'Z') || ('0' ≤ c && c ≤ '9') || c = '_'

def validApiKey (key : Text) : Bool :=
  32 ≤ key.length && key.length ≤ 256 &&
    key.all fun c => upperDigitOrUnderscore c || ('a' ≤ c && c ≤ 'z') || c = '-'

def matchesApiKeyDigest (config : ApiKeyAuthConfig) (candidate : Digest) : Bool :=
  if config.keyCount = 0 || config.keyCount > 4 then false
  else (config.digests.toList.take config.keyCount).any (· = candidate)

/-- `hash_api_key` is `lib.sha256`; it may throw, which the caller models. -/
def authenticateApiKey (lib : Library) (config : ApiKeyAuthConfig) (request : HttpRequest) :
    Bool :=
  match request.fields.equalRange "authorization".toList with
  | [authorization] =>
      let scheme := authorization.value.takeWhile (· ≠ ' ')
      let rest := authorization.value.drop scheme.length
      if rest.isEmpty || lowercase scheme ≠ "bearer".toList then false
      else
        let credential := rest.dropWhile (· = ' ')
        !credential.isEmpty && validApiKey credential
          && matchesApiKeyDigest config (lib.sha256 credential)
  | _ => false

/-! ## Field filters -/

def trimHttpToken (value : Text) : Text := lowercase (trim value)

/-- `std::set`: only membership is asked. -/
def connectionTokens (fields : Fields) : List Text :=
  (fields.equalRange "connection".toList).flatMap fun f =>
    ((splitComma f.value).map trimHttpToken).filter fun t => !t.isEmpty

def hopByHopNames : List Text :=
  ["connection".toList, "keep-alive".toList, "te".toList, "trailer".toList,
   "transfer-encoding".toList, "upgrade".toList, "proxy-connection".toList,
   "proxy-authenticate".toList, "proxy-authorization".toList]

def isHopByHop (name : Text) (dynamicTokens : List Text) : Bool :=
  hopByHopNames.contains (lowercase name) || dynamicTokens.contains (lowercase name)

def isForwardingMetadata (name : Text) : Bool :=
  "x-forwarded-".toList.isPrefixOf (lowercase name)

/-! ## The upstream request -/

def makeUpstreamAuthority (host : Text) (port : Nat) : Text :=
  if host.contains ':' then ['['] ++ host ++ "]:".toList ++ decimal port
  else host ++ [':'] ++ decimal port

/-- The field loops of both rewrites: `insert` what is not dropped. -/
def copyFields (drop : Field → Bool) (source : Fields) : Fields :=
  source.foldl (fun kept f => if drop f then kept else kept.insert f.name f.value) []

def dropsUpstream (selected : SelectedUpstream) (dynamicTokens : List Text) (f : Field) : Bool :=
  (selected.stripAuthorization && f.named "authorization".toList)
    || isHopByHop f.name dynamicTokens || isForwardingMetadata f.name
    || f.named "host".toList || f.named "content-length".toList || f.named "expect".toList

/-- `strip_prefix` on the raw target. -/
def rewriteTarget (selected : SelectedUpstream) (target : Text) : Text :=
  if selected.stripPrefix && !selected.routePrefix.isEmpty
      && selected.routePrefix ≠ "/".toList then
    let rest := target.drop selected.routePrefix.length
    if rest.isEmpty || rest.head? = some '?' then '/' :: rest else rest
  else target

def makeUpstreamRequest (selected : SelectedUpstream) (request : HttpRequest)
    (keepAlive : Bool) : HttpRequest :=
  let fields := copyFields (dropsUpstream selected (connectionTokens request.fields))
    request.fields
  let fields := fields.set "Host".toList
    (makeUpstreamAuthority selected.upstream.host selected.upstream.port)
  let fields := fields.setKeepAlive 11 keepAlive
  { method := request.method
    target := rewriteTarget selected request.target
    version := 11
    fields :=
      -- `prepare_payload` of a GET with a body sets the same field
      if request.method ≠ .get || !request.body.isEmpty then
        fields.setContentLength request.body.length
      else fields
    body := request.body }

/-! ## The downstream response -/

def dropsDownstream (dynamicTokens : List Text) (f : Field) : Bool :=
  isHopByHop f.name dynamicTokens || f.named "server".toList || f.named "content-length".toList

/-- The status is `result()`, so a code that Beast does not register becomes 0. -/
def makeDownstreamHeader (lib : Library) (request : HttpRequest)
    (upstreamResponse : HttpResponse) : HttpResponse :=
  let fields := copyFields (dropsDownstream (connectionTokens upstreamResponse.fields))
    upstreamResponse.fields
  let fields := fields.set "Server".toList "ApiGate".toList
  { status := upstreamResponse.result lib
    version := request.version
    reason := upstreamResponse.reason
    fields := fields.setKeepAlive request.version request.keepAlive }

def makeDownstreamResponse (lib : Library) (request : HttpRequest)
    (upstreamResponse : HttpResponse) : Except Unit HttpResponse :=
  let response := makeDownstreamHeader lib request upstreamResponse
  HttpResponse.preparePayload lib { response with body := upstreamResponse.body }

/-! ## What survives a rewrite -/

theorem Fields.mem_insert {fs : Fields} {name value : Text} {f : Field}
    (h : f ∈ fs.insert name value) : f = ⟨name, value⟩ ∨ f ∈ fs := by
  unfold Fields.insert at h
  induction fs with
  | nil => exact Or.inl (by simpa [insertAfterLast] using h)
  | cons g rest ih =>
      unfold insertAfterLast at h
      split at h
      · rcases List.mem_cons.mp h with hg | h'
        · exact Or.inr (by simp [hg])
        · rcases List.mem_cons.mp h' with hf | hr
          · exact Or.inl hf
          · exact Or.inr (by simp [hr])
      · rcases List.mem_cons.mp h with hg | h'
        · exact Or.inr (by simp [hg])
        · exact (ih h').imp id (List.mem_cons_of_mem g)

/-- Only fields of the source that the filter keeps are copied. -/
theorem mem_copyFields {drop : Field → Bool} {source : Fields} {f : Field}
    (h : f ∈ copyFields drop source) : f ∈ source ∧ drop f = false := by
  unfold copyFields at h
  suffices ∀ kept : Fields, f ∈ source.foldl (fun kept g =>
      if drop g then kept else kept.insert g.name g.value) kept →
      f ∈ kept ∨ (f ∈ source ∧ drop f = false) by
    exact (this [] h).resolve_left (by simp)
  clear h
  induction source with
  | nil => exact fun kept h => Or.inl h
  | cons g rest ih =>
      intro kept h
      rw [List.foldl_cons] at h
      rcases ih _ h with hk | ⟨hr, hd⟩
      · by_cases hg : drop g
        · rw [if_pos hg] at hk
          exact Or.inl hk
        · rw [if_neg hg] at hk
          rcases Fields.mem_insert hk with rfl | hk'
          · exact Or.inr ⟨by simp, by simpa using hg⟩
          · exact Or.inl hk'
      · exact Or.inr ⟨List.mem_cons_of_mem g hr, hd⟩

theorem Fields.mem_set {fs : Fields} {name value : Text} {f : Field} (h : f ∈ fs.set name value) :
    f = ⟨name, value⟩ ∨ f ∈ fs := by
  unfold Fields.set Fields.erase at h
  rcases List.mem_append.mp h with h' | h'
  · exact Or.inr (List.mem_of_mem_filter h')
  · exact Or.inl (by simpa using h')

/-- A field that the setters of a message may add or change. -/
def Field.isFraming (f : Field) : Bool :=
  f.named "connection".toList || f.named "transfer-encoding".toList
    || f.named "content-length".toList || f.named "host".toList

theorem Fields.mem_setKeepAlive {fs : Fields} {version : Nat} {keep : Bool} {f : Field}
    (h : f ∈ fs.setKeepAlive version keep) : f ∈ fs ∨ f.isFraming = true := by
  unfold Fields.setKeepAlive at h
  dsimp only at h
  split at h
  · exact Or.inl (List.mem_of_mem_filter h)
  · rcases Fields.mem_set h with rfl | h'
    · exact Or.inr rfl
    · exact Or.inl h'

theorem Fields.mem_setContentLength {fs : Fields} {n : Nat} {f : Field}
    (h : f ∈ fs.setContentLength n) : f ∈ fs ∨ f.isFraming = true := by
  have hset : ∀ g ∈ fs.set "Content-Length".toList (decimal n), g ∈ fs ∨ g.isFraming = true := by
    intro g hg
    rcases Fields.mem_set hg with rfl | hg'
    · exact Or.inr rfl
    · exact Or.inl hg'
  unfold Fields.setContentLength Fields.clearChunked at h
  dsimp only at h
  split at h
  · split at h
    · exact hset f (List.mem_of_mem_filter h)
    · rcases Fields.mem_set h with rfl | h'
      · exact Or.inr rfl
      · exact hset f h'
  · exact hset f h

theorem mem_makeUpstreamRequest {selected : SelectedUpstream} {request : HttpRequest}
    {keep : Bool} {f : Field} (h : f ∈ (makeUpstreamRequest selected request keep).fields) :
    f.isFraming = true
      ∨ dropsUpstream selected (connectionTokens request.fields) f = false := by
  have hbase : ∀ g ∈ ((copyFields (dropsUpstream selected (connectionTokens request.fields))
      request.fields).set "Host".toList
      (makeUpstreamAuthority selected.upstream.host selected.upstream.port)).setKeepAlive 11 keep,
      g.isFraming = true
        ∨ dropsUpstream selected (connectionTokens request.fields) g = false := by
    intro g hg
    rcases Fields.mem_setKeepAlive hg with hg' | hf
    · rcases Fields.mem_set hg' with rfl | hc
      · exact Or.inl rfl
      · exact Or.inr (mem_copyFields hc).2
    · exact Or.inl hf
  unfold makeUpstreamRequest at h
  simp only at h
  split at h
  · rcases Fields.mem_setContentLength h with h' | hf
    · exact hbase f h'
    · exact Or.inl hf
  · exact hbase f h

/-- The request for a protected route carries no Authorization field, in
whatever letter case the client wrote it. -/
theorem makeUpstreamRequest_unauthorized {selected : SelectedUpstream}
    (hstrip : selected.stripAuthorization = true) (request : HttpRequest) (keep : Bool) :
    (makeUpstreamRequest selected request keep).fields.has "authorization".toList = false := by
  rw [Fields.has, List.any_eq_false]
  intro f hf hname
  rcases mem_makeUpstreamRequest hf with hframing | hkept
  · have hn : lowercase f.name = "authorization".toList := of_decide_eq_true hname
    simp only [Field.isFraming, Field.named, hn] at hframing
    exact absurd hframing (by decide)
  · simp only [dropsUpstream, hstrip, hname, Bool.true_and, Bool.true_or, reduceCtorEq] at hkept

theorem makeDownstreamResponse_head {lib : Library} {request : HttpRequest}
    {up response : HttpResponse} (h : makeDownstreamResponse lib request up = .ok response) :
    response.status = lib.intToStatus up.status ∧ response.reason = up.reason := by
  unfold makeDownstreamResponse HttpResponse.preparePayload at h
  dsimp only at h
  split at h
  · cases h
  · cases h
    exact ⟨rfl, rfl⟩

end ApiGate
