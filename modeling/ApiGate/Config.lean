import ApiGate.Message

/-!
# Configuration

`AppConfig`. Of a TLS context for upstreams only its identity is here, of the one
for clients only whether there is one.
-/

namespace ApiGate

inductive UpstreamScheme where
  | http
  | https
  deriving DecidableEq, Repr

structure UpstreamConfig where
  host : Text
  port : Nat
  timeoutMs : Nat := 3000
  scheme : UpstreamScheme := .http
  deriving DecidableEq, Repr

/-- A pointer to an `UpstreamTlsContext`: which object, or null. -/
abbrev TlsContext := Option Nat

structure RateLimitConfig where
  requestsPerSecond : UInt32
  burst : UInt32
  deriving DecidableEq, Repr

structure HealthCheckConfig where
  path : Text
  intervalMs : Nat := 5000
  timeoutMs : Nat := 1000
  unhealthyThreshold : Nat := 3
  healthyThreshold : Nat := 2
  deriving DecidableEq, Repr

/-- The first `keyCount` digests are configured. -/
structure ApiKeyAuthConfig where
  digests : Vector Digest 4
  keyCount : Nat := 0
  deriving DecidableEq, Repr

structure RouteConfig where
  routePrefix : Text
  upstreams : List UpstreamConfig
  stripPrefix : Bool := false
  rateLimit : Option RateLimitConfig := none
  healthCheck : Option HealthCheckConfig := none
  auth : Option ApiKeyAuthConfig := none
  streamResponse : Bool := false
  deriving DecidableEq, Repr

inductive LogLevel where
  | trace
  | debug
  | info
  | warn
  | error
  | critical
  deriving DecidableEq, Repr

structure AppConfig where
  serviceName : Text := "api-gate".toList
  environment : Text := "development".toList
  logLevel : LogLevel := .info
  listenAddress : Text := "127.0.0.1".toList
  listenPort : Nat := 8080
  maxConnections : Nat := 256
  maxConcurrentProxies : Nat := 32
  maxInFlightBytes : UInt64 := 67108864
  shutdownGraceMs : Nat := 5000
  metricsEnabled : Bool := false
  upstreamKeepAlive : Bool := false
  upstream : Option UpstreamConfig := none
  routes : List RouteConfig := []
  upstreamTlsContext : TlsContext := none
  downstreamTlsContext : Bool := false
  deriving DecidableEq, Repr

end ApiGate
