import ApiGate.ConfigText
import ApiGate.Rewrite

/-!
# Loading the configuration

`parse_routes` and `load_config_from_environment`. What the process is given
(the environment, the JSON parser, address parsing, the digest and the files with
certificates) is a `Startup`; everything that is decided about it is here.
-/

namespace ApiGate

/-- What the JSON parser makes of a text. It reports events until the text is malformed. -/
inductive Parsed where
  | document (doc : Json)
  | malformed (reported : List Json.ParseEvent)

structure Startup where
  getenv : Text → Option Text
  /-- `make_address` and `to_string`, without a result for an error -/
  makeAddress : Text → Option Text
  parseJson : Text → Parsed
  lib : Library
  /-- the digest of this key cannot be calculated -/
  digestFails : Text → Bool
  /-- the rest of `make_upstream_tls_context`: the new object, or none for an exception -/
  loadUpstreamTls : Option Text → TlsContext
  /-- the rest of `make_downstream_tls_context`, true unless there is an exception -/
  loadDownstreamTls : Text → Text → Bool

namespace Json

/-- `at(name)`, where `contains(name)`. -/
def get? (name : Text) : Json → Option Json
  | .object members => (members.find? fun m => m.1 = name).map Prod.snd
  | _ => none

/-- All members of the object are named like this. -/
def onlyNames (names : List Text) : Json → Bool
  | .object members => members.all fun m => names.contains m.1
  | _ => true

end Json

namespace LoadConfig

open ConfigText RoutesCallback

variable (s : Startup)

/-! ## Keys in the environment -/

def referencePrefix : Text := "APIGATE_AUTH_KEY_".toList

def validApiKeyReference (reference : Text) : Bool :=
  referencePrefix.isPrefixOf reference &&
    let rest := reference.drop referencePrefix.length
    !rest.isEmpty && rest.length ≤ 64 && rest.all upperDigitOrUnderscore

/-- Without a result for an exception. -/
def hashApiKey (key : Text) : Option Digest :=
  if s.digestFails key then none else some (s.lib.sha256 key)

def readEnvironment (name : String) : Except ConfigError (Option Text) :=
  match s.getenv name.toList with
  | none => .ok none
  | some value => if value.isEmpty then .error (name ++ " must not be empty") else .ok (some value)

/-! ## Upstreams -/

def routeInteger (value : Json) (maximum : Nat) : Except ConfigError Nat :=
  let positive := "APIGATE_ROUTES integer field must be a positive integer"
  let inRange := fun number : Nat =>
    if number = 0 || number > maximum then
      .error "APIGATE_ROUTES integer field is out of range"
    else .ok number
  match value with
  | .unsigned n => inRange n.toNat
  | .integer n => if n < 0 then .error positive else inRange n.toUInt64.toNat
  | _ => .error positive

/-- A number that may be left out. -/
def integerField (object : Json) (field : Text) (default maximum : Nat) : Except ConfigError Nat :=
  match object.get? field with
  | some value => routeInteger value maximum
  | none => .ok default

def validatedHost (host : Text) : Except ConfigError Text :=
  let message := "APIGATE_ROUTES host must be a valid hostname or IP address"
  if host.isEmpty then .error message
  else
    match parseUpstreamHost s.makeAddress host with
    | .ok validated => .ok validated
    | .error _ => .error message

def parseScheme (entry : Json) : Except ConfigError UpstreamScheme :=
  let message := "APIGATE_ROUTES scheme must be http or https"
  match entry.get? "scheme".toList with
  | none => .ok .http
  | some (.string value) =>
      if value = "https".toList then .ok .https
      else if value = "http".toList then .ok .http
      else .error message
  | some _ => .error message

def parseRouteUpstream (entry : Json) : Except ConfigError UpstreamConfig :=
  match entry.get? "host".toList, entry.get? "port".toList with
  | some (.string host), some portValue => do
      let host ← validatedHost s host
      let port ← routeInteger portValue 65535
      let timeoutMs ← integerField entry "timeout_ms".toList 3000 60000
      let scheme ← parseScheme entry
      .ok { host, port, timeoutMs, scheme }
  | _, _ => .error "APIGATE_ROUTES upstream requires string host and integer port"

def upstreamFields : List Text :=
  ["host".toList, "port".toList, "timeout_ms".toList, "scheme".toList]

def parseBackend (backend : Json) : Except ConfigError UpstreamConfig :=
  if !backend.isObject then .error "APIGATE_ROUTES upstream entry must be an object"
  else if !backend.onlyNames upstreamFields then
    .error "APIGATE_ROUTES upstream entry contains an unknown field"
  else parseRouteUpstream s backend

def parseUpstreams (entry : Json) : Except ConfigError (List UpstreamConfig) :=
  match entry.get? upstreamsKey with
  | some pool =>
      if upstreamFields.any fun field => (entry.get? field).isSome then
        .error "APIGATE_ROUTES upstreams conflicts with route-level upstream fields"
      else
        match pool with
        | .array backends =>
            if backends.isEmpty || backends.length > 16 then
              .error "APIGATE_ROUTES upstreams must contain 1-16 upstream objects"
            else backends.mapM (parseBackend s)
        | _ => .error "APIGATE_ROUTES upstreams must contain 1-16 upstream objects"
  | none => do
      let upstream ← parseRouteUpstream s entry
      .ok [upstream]

/-! ## The other fields of a route -/

/-- A switch that may be left out. -/
def booleanField (entry : Json) (field : Text) (message : String) : Except ConfigError Bool :=
  match entry.get? field with
  | none => .ok false
  | some (.boolean value) => .ok value
  | some _ => .error message

def parseRateLimit (entry : Json) : Except ConfigError (Option RateLimitConfig) :=
  match entry.get? rateLimitKey with
  | none => .ok none
  | some limit =>
      match limit, limit.get? "requests_per_second".toList, limit.get? "burst".toList with
      | .object members, some requestsValue, some burstValue =>
          if members.length ≠ 2 then
            .error "APIGATE_ROUTES rate_limit requires only requests_per_second and burst"
          else do
            let requests ← routeInteger requestsValue 1000000
            let burst ← routeInteger burstValue 1000000
            .ok (some ⟨UInt32.ofNat requests, UInt32.ofNat burst⟩)
      | _, _, _ => .error "APIGATE_ROUTES rate_limit requires only requests_per_second and burst"

def healthFields : List Text :=
  ["path".toList, "interval_ms".toList, "timeout_ms".toList, "unhealthy_threshold".toList,
   "healthy_threshold".toList]

def isHealthPath (path : Text) : Bool :=
  path.head? = some '/' &&
    !path.any fun c => c.toNat ≤ 32 || c.toNat = 127 || c = '?' || c = '#'

structure NumberOptions where
  default : Nat
  minimum : Nat
  maximum : Nat

def healthInteger (health : Json) (field : Text) (options : NumberOptions) :
    Except ConfigError Nat := do
  let number ← integerField health field options.default options.maximum
  if number < options.minimum then .error "APIGATE_ROUTES health_check number is out of range"
  else .ok number

def parseHealthSettings (health : Json) : Except ConfigError HealthCheckConfig :=
  match health.get? "path".toList with
  | some (.string path) =>
      if !health.onlyNames healthFields then
        .error "APIGATE_ROUTES health_check contains an unknown field"
      else if !isHealthPath path then
        .error "APIGATE_ROUTES health_check path must be a path without query or fragment"
      else do
        let intervalMs ← healthInteger health "interval_ms".toList ⟨5000, 100, 60000⟩
        let timeoutMs ← healthInteger health "timeout_ms".toList ⟨1000, 50, 60000⟩
        let unhealthyThreshold ← healthInteger health "unhealthy_threshold".toList ⟨3, 1, 10⟩
        let healthyThreshold ← healthInteger health "healthy_threshold".toList ⟨2, 1, 10⟩
        if timeoutMs > intervalMs then
          .error "APIGATE_ROUTES health_check timeout must not exceed interval"
        else .ok { path, intervalMs, timeoutMs, unhealthyThreshold, healthyThreshold }
  | _ => .error "APIGATE_ROUTES health_check requires a path string"

def parseHealthCheck (entry : Json) : Except ConfigError (Option HealthCheckConfig) :=
  match entry.get? healthCheckKey with
  | none => .ok none
  | some health => do
      let settings ← parseHealthSettings health
      .ok (some settings)

/-! ## Keys of a route -/

/-- The text of a reference in `api_key_envs`. -/
def referenceText (reference : Json) : Except ConfigError Text :=
  match reference with
  | .string name =>
      if name.isEmpty then .error "APIGATE_ROUTES auth requires 1-4 nonempty key references"
      else .ok name
  | _ => .error "APIGATE_ROUTES auth requires 1-4 nonempty key references"

/-- What `api_key_env` or `api_key_envs` refers to. -/
def keyReferences (settings : Json) : Except ConfigError (List Text) :=
  match settings with
  | .object members =>
      if members.length ≠ 1 then
        .error "APIGATE_ROUTES auth requires exactly one key reference field"
      else
        match settings.get? apiKeyEnvKey, settings.get? apiKeyEnvsKey with
        | some (.string name), _ => .ok [name]
        | some _, _ => .error "APIGATE_ROUTES auth requires an api_key_env string"
        | none, some (.array values) =>
            if values.isEmpty || values.length > 4 then
              .error "APIGATE_ROUTES auth requires 1-4 nonempty key references"
            else values.mapM referenceText
        | none, some _ => .error "APIGATE_ROUTES auth requires 1-4 nonempty key references"
        | none, none => .error "APIGATE_ROUTES auth requires exactly one key reference field"
  | _ => .error "APIGATE_ROUTES auth requires exactly one key reference field"

def emptyDigest : Digest := List.replicate 32 (Char.ofNat 0)

/-- The variables of the loop over the references. -/
structure KeyLoop where
  configured : ApiKeyAuthConfig := { digests := Vector.replicate 4 emptyDigest }
  uniqueReferences : List Text := []

/-- `configured.digests[configured.key_count++] = digest` -/
def storeDigest (configured : ApiKeyAuthConfig) (digest : Digest) : ApiKeyAuthConfig :=
  { digests := configured.digests.setIfInBounds configured.keyCount digest
    keyCount := configured.keyCount + 1 }

/-- The digest of the key that a reference stands for. -/
def referencedDigest (reference : Text) : Except ConfigError Digest :=
  match s.getenv reference with
  | none => .error "referenced authentication key is missing or invalid"
  | some key =>
      if !validApiKey key then .error "referenced authentication key is missing or invalid"
      else
        match hashApiKey s key with
        | none => .error "authentication key configuration failed"
        | some digest => .ok digest

/-- The body of the loop. -/
def addReference (loop : KeyLoop) (reference : Text) : Except ConfigError KeyLoop :=
  if !validApiKeyReference reference then .error "APIGATE_ROUTES auth key reference is invalid"
  else if loop.uniqueReferences.contains reference then
    .error "authentication key configuration contains duplicates"
  else do
    let digest ← referencedDigest s reference
    if matchesApiKeyDigest loop.configured digest then
      .error "authentication key configuration contains duplicates"
    else
      .ok { configured := storeDigest loop.configured digest
            uniqueReferences := reference :: loop.uniqueReferences }

def configureKeys (references : List Text) : Except ConfigError ApiKeyAuthConfig := do
  let loop ← EventLoop.feed (addReference s) {} references
  .ok loop.configured

def parseAuth (entry : Json) : Except ConfigError (Option ApiKeyAuthConfig) :=
  match entry.get? authFieldKey with
  | none => .ok none
  | some settings => do
      let references ← keyReferences settings
      let configured ← configureKeys s references
      .ok (some configured)

/-! ## Routes -/

def routeFields : List Text :=
  ["prefix".toList, "host".toList, "port".toList, "timeout_ms".toList, "strip_prefix".toList,
   rateLimitKey, upstreamsKey, "scheme".toList, healthCheckKey, authFieldKey,
   "stream_response".toList]

/-- The prefix of a route, which must be new. -/
def parsePrefix (prefixes : List Text) (entry : Json) : Except ConfigError Text :=
  match entry.get? "prefix".toList with
  | none => .error "APIGATE_ROUTES entry requires prefix and an upstream configuration"
  | some prefixValue =>
      if !entry.onlyNames routeFields then
        .error "APIGATE_ROUTES entry contains an unknown field"
      else
        match prefixValue with
        | .string routePrefix => do
            validateRoutePrefix routePrefix
            if prefixes.contains routePrefix then .error "APIGATE_ROUTES contains a duplicate prefix"
            else .ok routePrefix
        | _ => .error "APIGATE_ROUTES prefix must be a string"

def parseRoute (prefixes : List Text) (entry : Json) : Except ConfigError RouteConfig := do
  let routePrefix ← parsePrefix prefixes entry
  let upstreams ← parseUpstreams s entry
  let stripPrefix ← booleanField entry "strip_prefix".toList
    "APIGATE_ROUTES strip_prefix must be a boolean"
  let rateLimit ← parseRateLimit entry
  let healthCheck ← parseHealthCheck entry
  let auth ← parseAuth s entry
  let streamResponse ← booleanField entry "stream_response".toList
    "APIGATE_ROUTES stream_response must be a boolean"
  .ok { routePrefix, upstreams, stripPrefix, rateLimit, healthCheck, auth, streamResponse }

/-- The body of the loop. `prefixes` of the source are the prefixes of the routes so far. -/
def addRoute (routes : List RouteConfig) (entry : Json) : Except ConfigError (List RouteConfig) := do
  let route ← parseRoute s (routes.map RouteConfig.routePrefix) entry
  .ok (routes ++ [route])

/-- `Json::parse` with the callback. -/
def parseDocument (value : Text) : Except ConfigError Json :=
  match s.parseJson value with
  | .document doc => do
      let _ ← EventLoop.feed callback {} (Json.events 0 doc)
      .ok doc
  | .malformed reported => do
      let _ ← EventLoop.feed callback {} reported
      .error "APIGATE_ROUTES must contain valid JSON"

def routesOf (document : Json) : Except ConfigError (List RouteConfig) :=
  match document with
  | .array entries =>
      if entries.isEmpty || entries.length > 32 then
        .error "APIGATE_ROUTES must contain 1-32 route objects"
      else EventLoop.feed (addRoute s) [] entries
  | _ => .error "APIGATE_ROUTES must contain 1-32 route objects"

def parseRoutes (value : Text) : Except ConfigError (List RouteConfig) :=
  if value.length > 65536 then .error "APIGATE_ROUTES must not exceed 65536 bytes"
  else do
    let document ← parseDocument s value
    routesOf s document

/-! ## The whole configuration -/

def makeUpstreamTlsContext (caFile : Option Text) (httpsEnabled : Bool) :
    Except ConfigError TlsContext :=
  if caFile.isNone && !httpsEnabled then .ok none
  else
    match s.loadUpstreamTls caFile with
    | some trust => .ok (some trust)
    | none => .error "upstream TLS trust configuration could not be loaded"

def makeDownstreamTlsContext (certificate privateKey : Option Text) : Except ConfigError Bool :=
  match certificate, privateKey with
  | none, none => .ok false
  | some cert, some key =>
      if cert.isEmpty || key.isEmpty then
        .error "downstream TLS certificate and key must not be empty"
      else if s.loadDownstreamTls cert key then .ok true
      else .error "downstream TLS certificate and unencrypted matching key could not be loaded"
  | _, _ => .error "APIGATE_TLS_CERT_FILE and APIGATE_TLS_KEY_FILE must be set together"

def parseSwitch (value : Text) (variableName : String) : Except ConfigError Bool :=
  if value = "true".toList then .ok true
  else if value = "false".toList then .ok false
  else .error (variableName ++ " must be true or false")

/-- A setting that changes the configuration when its variable is there. -/
def setting (name : String) (assign : Text → Except ConfigError AppConfig) (config : AppConfig) :
    Except ConfigError AppConfig := do
  match ← readEnvironment s name with
  | none => .ok config
  | some value => assign value

/-- The settings that have nothing to do with upstreams, in the source's order. -/
def loadSettings : Except ConfigError AppConfig := do
  let certificate ← readEnvironment s "APIGATE_TLS_CERT_FILE"
  let privateKey ← readEnvironment s "APIGATE_TLS_KEY_FILE"
  let downstreamTlsContext ← makeDownstreamTlsContext s certificate privateKey
  let config : AppConfig := { downstreamTlsContext }
  let config ← setting s "APIGATE_UPSTREAM_KEEP_ALIVE" (fun value => do
    let upstreamKeepAlive ← parseSwitch value "APIGATE_UPSTREAM_KEEP_ALIVE"
    .ok { config with upstreamKeepAlive }) config
  let config ← setting s "APIGATE_METRICS_ENABLED" (fun value => do
    let metricsEnabled ← parseSwitch value "APIGATE_METRICS_ENABLED"
    .ok { config with metricsEnabled }) config
  let config ← setting s "APIGATE_SERVICE_NAME" (fun value => do
    validateLabel value "APIGATE_SERVICE_NAME"
    .ok { config with serviceName := value }) config
  let config ← setting s "APIGATE_ENVIRONMENT" (fun value => do
    validateLabel value "APIGATE_ENVIRONMENT"
    .ok { config with environment := value }) config
  let config ← setting s "APIGATE_LOG_LEVEL" (fun value => do
    let logLevel ← parseLogLevel value
    .ok { config with logLevel }) config
  let config ← setting s "APIGATE_LISTEN_ADDRESS" (fun value => do
    let listenAddress ← parseListenAddress s.makeAddress value
    .ok { config with listenAddress }) config
  let config ← setting s "APIGATE_LISTEN_PORT" (fun value => do
    let listenPort ← parseListenPort value
    .ok { config with listenPort }) config
  let config ← setting s "APIGATE_MAX_CONNECTIONS" (fun value => do
    let maxConnections ← parseCapacityLimit value "APIGATE_MAX_CONNECTIONS"
    .ok { config with maxConnections }) config
  let config ← setting s "APIGATE_MAX_CONCURRENT_PROXIES" (fun value => do
    let maxConcurrentProxies ← parseCapacityLimit value "APIGATE_MAX_CONCURRENT_PROXIES"
    .ok { config with maxConcurrentProxies }) config
  let config ← setting s "APIGATE_MAX_IN_FLIGHT_BYTES" (fun value => do
    let bytes ← parseMaxInFlightBytes value
    .ok { config with maxInFlightBytes := UInt64.ofNat bytes }) config
  setting s "APIGATE_SHUTDOWN_GRACE_MS" (fun value => do
    let shutdownGraceMs ← parseBoundedMilliseconds value "APIGATE_SHUTDOWN_GRACE_MS"
    .ok { config with shutdownGraceMs }) config

def hasHttps (routes : List RouteConfig) : Bool :=
  routes.any fun route => route.upstreams.any fun upstream => upstream.scheme = .https

/-- With `APIGATE_ROUTES`. -/
def loadRoutes (config : AppConfig) (value : Text) : Except ConfigError AppConfig := do
  let routes ← parseRoutes s value
  if !config.downstreamTlsContext && routes.any fun route => route.auth.isSome then
    .error "protected routes require downstream TLS"
  else do
    let caFile ← readEnvironment s "APIGATE_UPSTREAM_CA_FILE"
    let upstreamTlsContext ← makeUpstreamTlsContext s caFile (hasHttps routes)
    .ok { config with routes, upstreamTlsContext }

def parseUpstream (host port : Text) (timeout : Option Text) : Except ConfigError UpstreamConfig := do
  let host ← parseUpstreamHost s.makeAddress host
  let port ← parseUpstreamPort port
  match timeout with
  | none => .ok { host, port }
  | some value => do
      let timeoutMs ← parseBoundedMilliseconds value "APIGATE_UPSTREAM_TIMEOUT_MS"
      .ok { host, port, timeoutMs }

def legacyUpstream (host port timeout : Option Text) : Except ConfigError (Option UpstreamConfig) :=
  if host.isSome ≠ port.isSome || (timeout.isSome && host.isNone) then
    .error ("APIGATE_UPSTREAM_HOST and APIGATE_UPSTREAM_PORT must be set together; "
      ++ "APIGATE_UPSTREAM_TIMEOUT_MS requires both")
  else
    match host, port with
    | some host, some port => do
        let upstream ← parseUpstream s host port timeout
        .ok (some upstream)
    | _, _ => .ok none

/-- Without `APIGATE_ROUTES`. -/
def loadUpstream (config : AppConfig) : Except ConfigError AppConfig := do
  let host ← readEnvironment s "APIGATE_UPSTREAM_HOST"
  let port ← readEnvironment s "APIGATE_UPSTREAM_PORT"
  let timeout ← readEnvironment s "APIGATE_UPSTREAM_TIMEOUT_MS"
  let upstream ← legacyUpstream s host port timeout
  let caFile ← readEnvironment s "APIGATE_UPSTREAM_CA_FILE"
  let upstreamTlsContext ← makeUpstreamTlsContext s caFile false
  .ok { config with upstream, upstreamTlsContext }

def legacyVariables : List String :=
  ["APIGATE_UPSTREAM_HOST", "APIGATE_UPSTREAM_PORT", "APIGATE_UPSTREAM_TIMEOUT_MS"]

def loadConfigFromEnvironment : Except ConfigError AppConfig := do
  let config ← loadSettings s
  if (s.getenv "APIGATE_ROUTES".toList).isSome
      && legacyVariables.any fun name => (s.getenv name.toList).isSome then
    .error "APIGATE_ROUTES conflicts with legacy upstream variables"
  else
    match ← readEnvironment s "APIGATE_ROUTES" with
    | some value => loadRoutes s config value
    | none => loadUpstream s config

end LoadConfig

end ApiGate
