import ApiGate.Config

/-!
# Local answers and route selection

`http_handler.cpp`: which requests are proxied and to which route, what the
gateway answers itself, and the JSON bodies of its own responses. `nlohmann`
writes object members in the order of their keys.
-/

namespace ApiGate

/-! ## Targets -/

def requestPath (target : Text) : Text := target.takeWhile (· ≠ '?')

def isSupportedProxyTarget (target : Text) : Bool :=
  target.head? = some '/' && !target.contains '#'

def requestsUpgrade (request : HttpRequest) : Bool := request.fields.has "upgrade".toList

def isSupportedProxyMethod : Verb → Bool
  | .get | .post | .put | .patch => true
  | .other => false

inductive LocalRoute where
  | healthz
  | readyz
  | unmatched
  deriving DecidableEq, Repr

def classifyHttpRoute (target : Text) : LocalRoute :=
  if requestPath target = "/healthz".toList then .healthz
  else if requestPath target = "/readyz".toList then .readyz
  else .unmatched

def isMetricsTarget (config : AppConfig) (target : Text) : Bool :=
  config.metricsEnabled && requestPath target = "/metrics".toList

/-! ## Route selection -/

structure SelectedRoute where
  upstreams : List UpstreamConfig
  routePrefix : Text := []
  stripPrefix : Bool := false
  routeIndex : Option Nat := none
  auth : Option ApiKeyAuthConfig := none
  streamResponse : Bool := false
  deriving DecidableEq, Repr

structure SelectedUpstream where
  upstream : UpstreamConfig
  routePrefix : Text := []
  stripPrefix : Bool := false
  routeIndex : Option Nat := none
  stripAuthorization : Bool := false
  streamResponse : Bool := false
  deriving DecidableEq, Repr

/-- A prefix matches at a segment boundary of the path. -/
def matchesPrefix (routePrefix path : Text) : Bool :=
  routePrefix.isPrefixOf path &&
    (routePrefix = "/".toList || path.length = routePrefix.length
      || path[routePrefix.length]? = some '/')

/-- The loop over the routes, from `index` on, with the best one so far. -/
def selectLongest (path : Text) : List RouteConfig → Nat → Nat → Option SelectedRoute →
    Option SelectedRoute
  | [], _, _, selected => selected
  | route :: rest, index, longest, selected =>
      if route.routePrefix.length > longest && matchesPrefix route.routePrefix path then
        selectLongest path rest (index + 1) route.routePrefix.length
          (some { upstreams := route.upstreams, routePrefix := route.routePrefix,
                  stripPrefix := route.stripPrefix, routeIndex := some index,
                  auth := route.auth, streamResponse := route.streamResponse })
      else selectLongest path rest (index + 1) longest selected

def selectHttpRoute (config : AppConfig) (request : HttpRequest) : Option SelectedRoute :=
  if !isSupportedProxyMethod request.method then none
  else if classifyHttpRoute request.target ≠ .unmatched
      || isMetricsTarget config request.target then none
  else if !isSupportedProxyTarget request.target || requestsUpgrade request
      || (request.method = .get && !request.body.isEmpty) then none
  else
    match config.upstream with
    | some upstream => some { upstreams := [upstream] }
    | none => selectLongest (requestPath request.target) config.routes 0 0 none

def shouldProxyHttpRequest (config : AppConfig) (request : HttpRequest) : Bool :=
  (selectHttpRoute config request).isSome

/-! ## The gateway's own responses -/

def hexDigit (n : Nat) : Char := Char.ofNat (if n < 10 then 48 + n else 87 + n)

/-- A character inside a JSON string. -/
def jsonChar (c : Char) : Text :=
  if c = '"' then [Char.ofNat 92, '"']
  else if c.toNat = 92 then [Char.ofNat 92, Char.ofNat 92]
  else if c.toNat = 8 then [Char.ofNat 92, 'b']
  else if c.toNat = 9 then [Char.ofNat 92, 't']
  else if c.toNat = 10 then [Char.ofNat 92, 'n']
  else if c.toNat = 12 then [Char.ofNat 92, 'f']
  else if c.toNat = 13 then [Char.ofNat 92, 'r']
  else if c.toNat < 32 then
    [Char.ofNat 92, 'u', '0', '0', hexDigit (c.toNat / 16), hexDigit (c.toNat % 16)]
  else [c]

def jsonString (value : Text) : Text := ['"'] ++ value.flatMap jsonChar ++ ['"']

def jsonMembers (members : List (Text × Text)) : Text :=
  ((members.map fun m => jsonString m.1 ++ [':'] ++ m.2).intersperse [',']).flatten

/-- An object whose values are written already; the callers list the keys in
order. -/
def jsonObject (members : List (Text × Text)) : Text :=
  "\x7b".toList ++ jsonMembers members ++ "\x7d".toList

def errorBody (code message : String) : Text :=
  jsonObject [("error".toList,
    jsonObject [("code".toList, jsonString code.toList),
                ("message".toList, jsonString message.toList)])]

/-- The response without its payload fields. -/
def makeBareResponse (version status : Nat) (contentType : String) (keep : Bool)
    (body : Text) : HttpResponse :=
  let fields : Fields := []
  let fields := fields.set "Server".toList "ApiGate".toList
  let fields := fields.set "Content-Type".toList contentType.toList
  let fields := fields.set "Cache-Control".toList "no-store".toList
  { status, version, fields := fields.setKeepAlive version keep, body }

/-- No status of the gateway's own responses is one without a body. -/
def withPayload (response : HttpResponse) : HttpResponse :=
  { response with fields := response.fields.setContentLength response.body.length }

def makeJsonResponse (request : HttpRequest) (status : Nat) (body : Text) : HttpResponse :=
  withPayload (makeBareResponse request.version status "application/json" request.keepAlive body)

def HttpResponse.setField (response : HttpResponse) (name : String) (value : Text) :
    HttpResponse :=
  { response with fields := response.fields.set name.toList value }

def makeMethodNotAllowed (request : HttpRequest) (proxyEnabled : Bool) : HttpResponse :=
  let allowed := if proxyEnabled then "GET, POST, PUT, PATCH" else "GET"
  let message := if proxyEnabled then "method is not supported" else "only GET is supported"
  (makeJsonResponse request 405 (errorBody "method_not_allowed" message)).setField "Allow"
    allowed.toList

def makeMetricsResponse (request : HttpRequest) (body : Text) : HttpResponse :=
  withPayload (makeBareResponse request.version 200 "text/plain; version=0.0.4; charset=utf-8"
    request.keepAlive body)

def statusBody (status : String) (config : AppConfig) : Text :=
  jsonObject [("service".toList, jsonString config.serviceName),
              ("status".toList, jsonString status.toList)]

def handleHttpRequest (config : AppConfig) (request : HttpRequest) : HttpResponse :=
  let route := classifyHttpRoute request.target
  let proxyEnabled := config.upstream.isSome || !config.routes.isEmpty
  if isMetricsTarget config request.target then
    if request.method ≠ .get then makeMethodNotAllowed request false
    else if !request.body.isEmpty || requestsUpgrade request then
      makeJsonResponse request 400 (errorBody "unsupported_request" "invalid metrics request")
    else makeMetricsResponse request []
  else if route ≠ .unmatched && request.method ≠ .get then makeMethodNotAllowed request false
  else if !isSupportedProxyMethod request.method then makeMethodNotAllowed request proxyEnabled
  else if proxyEnabled && requestsUpgrade request then
    makeJsonResponse request 400 (errorBody "unsupported_request" "request cannot be proxied")
  else if route = .healthz then makeJsonResponse request 200 (statusBody "ok" config)
  else if route = .readyz then makeJsonResponse request 200 (statusBody "ready" config)
  else if !proxyEnabled && request.method ≠ .get then makeMethodNotAllowed request false
  else if proxyEnabled && (!isSupportedProxyTarget request.target
      || (request.method = .get && !request.body.isEmpty)) then
    makeJsonResponse request 400 (errorBody "unsupported_request" "request cannot be proxied")
  else makeJsonResponse request 404 (errorBody "not_found" "route not found")

def makeAuthenticationFailedResponse (request : HttpRequest) : HttpResponse :=
  (makeJsonResponse request 401
    (errorBody "authentication_failed" "authentication failed")).setField "WWW-Authenticate"
    "Bearer realm=\"ApiGate\"".toList

def makeRateLimitedResponse (request : HttpRequest) (retryAfterSeconds : Nat) : HttpResponse :=
  (makeJsonResponse request 429
    (errorBody "rate_limited" "request rate limit is exceeded")).setField "Retry-After"
    (decimal retryAfterSeconds)

inductive GatewayFailure where
  | badGateway
  | gatewayTimeout
  | gatewayOverloaded
  | bufferCapacityExhausted
  | noHealthyUpstream
  deriving DecidableEq, Repr

def makeGatewayErrorResponse (request : HttpRequest) : GatewayFailure → HttpResponse
  | .noHealthyUpstream =>
      makeJsonResponse request 503
        (errorBody "no_healthy_upstream" "no healthy upstream is available")
  | .gatewayTimeout =>
      makeJsonResponse request 504 (errorBody "gateway_timeout" "upstream request timed out")
  | .gatewayOverloaded =>
      makeJsonResponse request 503
        (errorBody "gateway_overloaded" "proxy capacity is exhausted")
  | .bufferCapacityExhausted =>
      makeJsonResponse request 503
        (errorBody "gateway_overloaded" "buffer capacity is exhausted")
  | .badGateway =>
      makeJsonResponse request 502 (errorBody "bad_gateway" "upstream request failed")

end ApiGate
