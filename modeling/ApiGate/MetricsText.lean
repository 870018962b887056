import ApiGate.Admission
import ApiGate.BufferBudget
import ApiGate.Metrics
import ApiGate.Output.Bounded
import ApiGate.ServerState

/-!
# The text of the metrics

`Exposition` collects the output under its hard limit, and `Metrics::render`
writes the ten families. The sum of the processing times is a floating-point
number of a type `D`; `toChars` is what `std::to_chars` makes of one, `none` where
it fails.
-/

namespace ApiGate

/-! ## Exposition -/

structure MetricFamily where
  name : Text
  type : Text
  help : Text
  deriving DecidableEq, Repr

namespace Metrics

def maxOutputBytes : Nat := 128 * 1024

inductive RenderError where
  | outputLimit
  | conversion
  | routeLimit
  | upstreamLimit
  | noSuchSlot
  deriving DecidableEq, Repr

/-- The text of the exception; that of `vector::at` is the library's. -/
def RenderError.what : RenderError → String
  | .outputLimit => "metrics output exceeds limit"
  | .conversion => "metrics number conversion failed"
  | .routeLimit => "metrics route limit exceeded"
  | .upstreamLimit => "metrics upstream limit exceeded"
  | .noSuchSlot => "vector::at"

end Metrics

abbrev Exposition := Output.Bounded Char Metrics.RenderError

namespace Exposition

def append (text : Text) : Exposition Unit := Output.append Metrics.maxOutputBytes .outputLimit text

/-- `chars` is the result of `to_chars` on a buffer of 64 characters. -/
def number (chars : Option Text) : Exposition Unit :=
  match chars with
  | none => throw .conversion
  | some text => append text

/-- An unsigned number always fits the buffer. -/
def unsigned (value : Nat) : Exposition Unit := number (some (decimal value))

def family (definition : MetricFamily) : Exposition Unit := do
  append "# HELP apigate_".toList
  append definition.name
  append " ".toList
  append definition.help
  append "\n# TYPE apigate_".toList
  append definition.name
  append " ".toList
  append definition.type
  append "\n".toList

def gauge (name help : Text) (value : UInt64) : Exposition Unit := do
  family { name, type := "gauge".toList, help }
  append "apigate_".toList
  append name
  append " ".toList
  unsigned value.toNat
  append "\n".toList

end Exposition

/-! ## The families -/

namespace Metrics

def rejectionNames : List (RejectionReason × Text) :=
  [(.rateLimit, "rate_limit".toList), (.proxyCapacity, "proxy_capacity".toList),
    (.bufferCapacity, "buffer_capacity".toList),
    (.noHealthyUpstream, "no_healthy_upstream".toList)]

def failureStages : List ProxyFailureStage :=
  [.resolve, .connect, .handshake, .write, .read, .timeout, .responseTooLarge, .invalidResponse]

end Metrics

/-- `to_string`. -/
def ProxyFailureStage.text : ProxyFailureStage → Text
  | .resolve => "resolve".toList
  | .connect => "connect".toList
  | .handshake => "handshake".toList
  | .write => "write".toList
  | .read => "read".toList
  | .timeout => "timeout".toList
  | .responseTooLarge => "response_too_large".toList
  | .invalidResponse => "invalid_response".toList

namespace Metrics

open Exposition

def responsesFamily : MetricFamily where
  name := "http_responses_total".toList
  type := "counter".toList
  help := "Final responses generated, not delivery acknowledgements; ".toList
    ++ "excludes metrics requests.".toList

def rejectionsFamily : MetricFamily where
  name := "rejections_total".toList
  type := "counter".toList
  help := "Local admission rejections; excludes metrics requests.".toList

def failuresFamily : MetricFamily where
  name := "upstream_failures_total".toList
  type := "counter".toList
  help := "Business proxy failures; excludes health probes and normal cancellation.".toList

def processingFamily : MetricFamily where
  name := "request_processing_seconds".toList
  type := "summary".toList
  help := "Complete request dispatch to response ready (streaming: header ready); excludes ".toList
    ++ "upload, downstream write, ".toList
    ++ "early parse rejections, cancellation without response and metrics requests. ".toList
    ++ "Population differs from http_responses_total.".toList

def availableFamily : MetricFamily where
  name := "upstream_available".toList
  type := "gauge".toList
  help := "Slot eligible for selection; not proof of health or reachability.".toList

def renderStatus (index : Nat) : Exposition Unit :=
  if index = 500 then append "other".toList else unsigned (index + 100)

/-- One line of the responses. -/
def renderResponse (m : Metrics) (index : Nat) : Exposition Unit := do
  append "apigate_http_responses_total\x7bstatus=\"".toList
  renderStatus index
  append "\"\x7d ".toList
  unsigned (m.responses index).toNat
  append "\n".toList

def renderRejection (m : Metrics) (reason : RejectionReason × Text) : Exposition Unit := do
  append "apigate_rejections_total\x7breason=\"".toList
  append reason.2
  append "\"\x7d ".toList
  unsigned (m.rejections reason.1).toNat
  append "\n".toList

def renderFailure (m : Metrics) (stage : ProxyFailureStage) : Exposition Unit := do
  append "apigate_upstream_failures_total\x7bstage=\"".toList
  append stage.text
  append "\"\x7d ".toList
  unsigned (m.failures stage).toNat
  append "\n".toList

def renderAvailable (health : UpstreamHealthState) (route slot : Nat) : Exposition Unit :=
  match health.available route slot with
  | none => throw .noSuchSlot
  | some available => unsigned (if available then 1 else 0)

def renderSlot (health : UpstreamHealthState) (route slot : Nat) : Exposition Unit := do
  append "apigate_upstream_available\x7broute_index=\"".toList
  unsigned route
  append "\",upstream_index=\"".toList
  unsigned slot
  append "\"\x7d ".toList
  renderAvailable health route slot
  append "\n".toList

def renderRoute (health : UpstreamHealthState) (entry : RouteConfig × Nat) : Exposition Unit :=
  if entry.1.upstreams.length > 16 then throw .upstreamLimit
  else (List.range entry.1.upstreams.length).forM (renderSlot health entry.2)

section Render

variable {D : Type} (toChars : D → Option Text)

def renderProcessing (m : Metrics) (processingSum : D) : Exposition Unit := do
  append "apigate_request_processing_seconds_sum ".toList
  number (toChars processingSum)
  append "\napigate_request_processing_seconds_count ".toList
  unsigned m.processingCount.toNat
  append "\n".toList

def renderGauges (connections : AcceptCapacityState) (proxies : ProxyAdmissionState)
    (budget : BufferBudgetControl) : Exposition Unit := do
  Exposition.gauge "active_connections".toList
    "Current downstream connections, including the scraper.".toList
    (UInt64.ofNat connections.activeConnections)
  Exposition.gauge "max_connections".toList "Downstream connection limit.".toList
    (UInt64.ofNat connections.maxConnections)
  Exposition.gauge "active_proxies".toList "Current business proxy permits.".toList
    (UInt64.ofNat proxies.activeProxies)
  Exposition.gauge "max_concurrent_proxies".toList "Business proxy permit limit.".toList
    (UInt64.ofNat proxies.maxProxies)
  Exposition.gauge "in_flight_body_bytes".toList "Current business body reservation bytes.".toList
    budget.currentBytes
  Exposition.gauge "max_in_flight_body_bytes".toList
    "Business body reservation limit, not an RSS limit.".toList budget.maxBytes

/-- The families in the order of the output. -/
def renderFamilies (m : Metrics) (processingSum : D) (config : AppConfig)
    (connections : AcceptCapacityState) (proxies : ProxyAdmissionState)
    (budget : BufferBudgetControl) (health : UpstreamHealthState) : Exposition Unit := do
  family responsesFamily
  (List.range 501).forM (renderResponse m)
  family rejectionsFamily
  rejectionNames.forM (renderRejection m)
  family failuresFamily
  failureStages.forM (renderFailure m)
  family processingFamily
  renderProcessing toChars m processingSum
  renderGauges connections proxies budget
  family availableFamily
  config.routes.zipIdx.forM (renderRoute health)

def render (m : Metrics) (processingSum : D) (config : AppConfig)
    (connections : AcceptCapacityState) (proxies : ProxyAdmissionState)
    (budget : BufferBudgetControl) (health : UpstreamHealthState) : Except RenderError Text :=
  if config.routes.length > 32 then .error .routeLimit
  else
    (renderFamilies toChars m processingSum config connections proxies budget health []).map
      Prod.snd

end Render

end Metrics

end ApiGate
