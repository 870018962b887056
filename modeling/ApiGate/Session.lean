import ApiGate.Exchange
import ApiGate.ServerState

/-!
# One downstream connection

`HttpSession`: handshake, read a request, answer it or proxy it, write the
response, read the next request. The session owns at most one exchange, whose
callbacks are the functions `onProxyComplete`, `onProxyAborted`,
`onStreamComplete`, `writeStreamHeader` and `writeStreamBody` below. The
functions stand in the order in which they call each other: the ones that end
an exchange first, then the stream callbacks, which may call a `StreamResume`,
then those that start an exchange.

Logging that the source protects by its own `try` is left out. Two records are
not in the source, both latest first. `trace` has the executions of
`read_request`, the response heads that are handed to the transport and the
completions of a response's last write. `log` has what happens to the requests
of the connection and what is counted for them.
-/

namespace ApiGate

open EventLoop Act

/-- What the sessions are configured with; `render` is the text of the metrics. -/
structure Setup where
  config : AppConfig
  lib : Library
  render : Shared → Text

/-! ## State -/

def maxBodyBytes : UInt64 := 65536

def maxRequestsPerConnection : Nat := 100

/-- What the request parser holds. -/
structure RequestParser where
  request : HttpRequest := { method := .other, target := [] }
  contentLength : Option UInt64 := none
  isDone : Bool := false
  deriving DecidableEq, Repr

/-- The outstanding operations of a session. A stream write carries the
`StreamResume` it will call. -/
inductive SessionOp where
  | handshake
  | readHeader
  | readBody
  | write (closeAfterWrite : Bool)
  | streamHeader (exchange : Nat) (final : Bool)
  | streamBody (exchange : Nat) (final : Bool)
  | shutdown
  deriving DecidableEq, Repr

inductive Mark where
  | readRequest
  /-- a response, the upstream response it was made from, if any, and the status
  that the request's observation has recorded -/
  | head (upstream : Option HttpResponse) (response : HttpResponse) (recorded : Option Nat)
  | lastWrite (error : Error) (closeAfterWrite draining : Bool)
  deriving DecidableEq, Repr

inductive Note where
  /-- `read_request` resets the observation: a new request -/
  | reset
  /-- `async_read_header` is started -/
  | readHeader
  /-- the header was read, up to this target -/
  | header (target : Text)
  /-- `process_request` is executed -/
  | dispatch
  | counted (counter : Counter)
  /-- a response head is handed to the transport -/
  | head (response : HttpResponse)
  /-- a stream that has begun fails in the upstream -/
  | streamFailed (stage : ProxyFailureStage)
  deriving DecidableEq, Repr

/-- `closes` counts the calls of `on_close_`; `started` says that `start()` was
called. -/
structure Session where
  started : Bool := false
  phase : SessionPhase := .reading
  tlsEstablished : Bool := false
  draining : Bool := false
  stopping : Bool := false
  finished : Bool := false
  requestsServed : Nat := 0
  observation : RequestObservation := {}
  parser : Option RequestParser := none
  response : Option HttpResponse := none
  responseBodyPermit : BufferBudgetPermit := {}
  streamWriter : Option HttpResponse := none
  streamPendingBytes : Nat := 0
  streamStatus : Nat := 0
  streamClose : Bool := false
  proxyExchange : Option Nat := none
  proxyPermit : Bool := false
  requestBodyPermit : Option Nat := none
  ops : List SessionOp := []
  closes : Nat := 0
  trace : List Mark := []
  log : List Note := []
  deriving DecidableEq, Repr

namespace Session

abbrev SessionAct := GateAct Session

def set (f : Session → Session) (w : World Session) : World Session := { w with env := f w.env }

def addOp (op : SessionOp) : World Session → World Session :=
  set fun s => { s with ops := op :: s.ops }

def note (m : Mark) : World Session → World Session :=
  set fun s => { s with trace := m :: s.trace }

def record (notes : List Note) : World Session → World Session :=
  set fun s => { s with log := notes ++ s.log }

/-! ## Closing -/

/-- `proxy_permit_.reset()` -/
def dropPermit (w : World Session) : World Session :=
  set (fun s => { s with proxyPermit := false })
    (w.setShared fun s =>
      { s with admission := { s.admission with
          proxies := if w.env.proxyPermit then s.admission.proxies.release
            else s.admission.proxies } })

/-- `proxy_exchange_.reset()` and the permit. -/
def dropProxy (w : World Session) : World Session :=
  dropPermit (set (fun s => { s with proxyExchange := none }) w)

/-- The same with an exchange that is cancelled first. -/
def cancelProxy (w : World Session) : World Session :=
  dropProxy { w with
    exs := match w.env.proxyExchange with
      | some k => Function.update w.exs k (w.exs k).cancel
      | none => w.exs }

def finish (w : World Session) : World Session :=
  if w.env.finished then w
  else set (fun s => { s with finished := true, phase := .finished, closes := s.closes + 1 }) w

def closeSocket (w : World Session) : World Session :=
  if w.env.finished then w else finish (cancelProxy w)

def stop (w : World Session) : World Session :=
  if w.env.finished then w
  else finish (cancelProxy (set (fun s => { s with stopping := true }) w))

def beginDrain (w : World Session) : World Session :=
  if w.env.draining || w.env.finished then w
  else
    let w := set (fun s => { s with draining := true }) w
    match classifySessionDrain w.env.phase with
    | .closeImmediately => stop w
    | .waitForCurrent | .ignored => w

def runHandler (action : SessionAct Unit) : SessionAct Unit := do
  try action
  catch _ => modify closeSocket

variable (g : Setup)

def gracefulClose : SessionAct Unit := do
  let w ← get
  if w.env.finished || w.env.phase = .closing then pure ()
  else if !g.config.downstreamTlsContext || !w.env.tlsEstablished then modify closeSocket
  else
    modify (set fun s => { s with phase := .closing })
    try
      mayThrow .shutdownInit
      modify (addOp .shutdown)
    catch _ => modify closeSocket

/-! ## Reading and writing -/

def readRequest : SessionAct Unit := do
  modify (note .readRequest)
  let w ← get
  if w.env.stopping || w.env.draining then modify closeSocket
  else
    modify (set fun s => { s with observation := {}, phase := .reading, parser := some {},
                                  log := .reset :: s.log })
    mayThrow .readHeaderInit
    modify (addOp .readHeader)
    modify (record [.readHeader])

/-- The counters, latest first, as they are noted. -/
def counted (counters : List Counter) : List Note := (counters.map Note.counted).reverse

/-- `observation_.finish` with the metrics of the process. -/
def finishObservation (status : Nat) (w : World Session) : World Session :=
  let r := w.env.observation.finish w.shared.metrics status w.shared.now
  let counters := w.env.observation.finishCounts w.shared.metrics status w.shared.now
  set (fun s => { s with observation := r.2.1, log := counted counters ++ s.log })
    (w.setShared fun s => { s with metrics := r.2.2 })

/-- `observation_.reject`, `fail` and `fail_stream` -/
def observe (call : ObservationCall) (w : World Session) : World Session :=
  set (fun s =>
      { s with observation := (call.apply s.observation w.shared.metrics).1,
               log := counted (call.counts s.observation w.shared.metrics) ++ s.log })
    (w.setShared fun s => { s with metrics := (call.apply w.env.observation s.metrics).2 })

def observeAny : Option ObservationCall → World Session → World Session
  | some call => observe call
  | none => id

/-- `site` is where this call of `write_response` throws, once the observation is
finished. -/
def writeResponse (site : Site) (upstream : Option HttpResponse) (response : HttpResponse)
    (bodyPermit : BufferBudgetPermit) : SessionAct Unit := do
  let w ← get
  if w.env.finished || w.env.stopping || w.env.observation.completed then
    modify (World.setShared (Shared.dropPermit bodyPermit))
  else
    modify (finishObservation response.status)
    modify (set fun s => { s with phase := .writing })
    let response := if w.env.draining then response.setKeepAlive false else response
    if ← ask site then
      modify (World.setShared (Shared.dropPermit bodyPermit))
      throw ()
    else
      modify fun w => set
        (fun s => { s with response := some response, responseBodyPermit := bodyPermit })
        (w.setShared (Shared.dropPermit w.env.responseBodyPermit))
      modify fun w => note (.head upstream response w.env.observation.status) w
      modify (record [.head response])
      mayThrow site
      modify (addOp (.write (response.needEof g.lib)))

def resetRequest (w : World Session) : World Session :=
  set (fun s => { s with parser := none, requestBodyPermit := none })
    (w.setShared (Shared.dropCell w.env.requestBodyPermit))

def onWrite (error : Error) (closeAfterWrite : Bool) : SessionAct Unit := do
  let w ← get
  if w.env.finished then pure ()
  else
    modify (note (.lastWrite error closeAfterWrite w.env.draining))
    modify fun w => set (fun s => { s with response := none, responseBodyPermit := {} })
      (w.setShared (Shared.dropPermit w.env.responseBodyPermit))
    modify resetRequest
    match classifyHttpWriteResult error w.env.stopping with
    | .success =>
        if closeAfterWrite || w.env.draining then gracefulClose g else readRequest
    | .expectedCancellation | .clientDisconnected | .unexpectedError => modify closeSocket

/-- `keep_alive(false)` on the last response of a connection. -/
def limitRequests (w : World Session) (response : HttpResponse) : HttpResponse :=
  if w.env.requestsServed ≥ maxRequestsPerConnection then response.setKeepAlive false
  else response

/-! ## The end of an exchange -/

def onProxyComplete (result : ProxyResult) : SessionAct Unit := do
  try
    modify dropProxy
    let w ← get
    if w.env.finished || w.env.stopping || w.env.observation.completed then
      modify (World.setShared (Shared.dropPermit result.bodyPermit))
    else
      if ← ask .build then
        modify (World.setShared (Shared.dropPermit result.bodyPermit))
        throw ()
      else
        modify (observeAny (result.failure.map fun f => .fail f.stage))
        modify (observeAny (result.bufferBudgetRejectedBytes.map fun _ => .reject .bufferCapacity))
        writeResponse g .writeInit result.upstream (limitRequests w result.response)
          result.bodyPermit
  catch _ => modify closeSocket

def onProxyAborted : SessionAct Unit := do
  modify dropProxy
  let w ← get
  if w.env.finished || w.env.stopping then pure () else modify closeSocket

def onStreamComplete (failure : Option ProxyFailure) (downstreamFailed : Bool) :
    SessionAct Unit :=
  runHandler do
    modify dropProxy
    modify (set fun s => { s with streamWriter := none })
    let w ← get
    if w.env.finished || w.env.stopping then pure ()
    else if failure.isSome || downstreamFailed then
      modify (record ((failure.map fun f => .streamFailed f.stage).toList))
      modify (observeAny (failure.map fun f => .failStream f.stage))
      mayThrow .log
      modify closeSocket
    else if w.env.streamClose || w.env.draining then gracefulClose g
    else readRequest

/-- The callbacks that the session installs in its exchange. -/
def endCallbacks : EndCallbacks Session :=
  { complete := fun _ result => onProxyComplete g result
    abort := fun _ => onProxyAborted
    finish := fun _ failure downstreamFailed => onStreamComplete g failure downstreamFailed }

/-! ## The stream callbacks -/

def writeStreamHeader (k : Nat) (header upstream : HttpResponse) (final : Bool) :
    SessionAct Unit := do
  let w ← get
  if w.env.finished || w.env.stopping then
    Exchange.resumeStream (endCallbacks g) k final (some .operationAborted)
  else
    mayThrow .streamInit
    let header := if w.env.draining || w.env.requestsServed ≥ maxRequestsPerConnection then
      header.setKeepAlive false else header
    modify (set fun s => { s with streamClose := header.needEof g.lib,
                                  streamStatus := header.status })
    modify (finishObservation header.status)
    mayThrow .streamHeadInit
    modify (set fun s => { s with streamWriter := some header, phase := .writing })
    modify fun w => note (.head (some upstream) header w.env.observation.status) w
    modify (record [.head header])
    mayThrow .streamHeadInit
    modify (addOp (.streamHeader k final))

def writeStreamBody (k : Nat) (block : Text) (final : Bool) : SessionAct Unit := do
  let w ← get
  if w.env.finished || w.env.stopping then
    Exchange.resumeStream (endCallbacks g) k final (some .operationAborted)
  else
    modify (set fun s => { s with streamPendingBytes := block.length })
    mayThrow .streamInit
    modify (addOp (.streamBody k final))

def streamCallbacks : StreamCallbacks Session :=
  { header := writeStreamHeader g
    body := writeStreamBody g }

/-- The completion of a stream write. -/
def onStreamWritten (k : Nat) (final : Bool) (error : Error) : SessionAct Unit := do
  modify fun w =>
    if final && !w.env.finished then note (.lastWrite error w.env.streamClose w.env.draining) w
    else w
  runHandler (Exchange.resumeStream (endCallbacks g) k final error)

/-! ## Requests -/

def writeProtocolError (status : Nat) (code message : String) : SessionAct Unit := do
  mayThrow .build
  let response := withPayload
    (makeBareResponse 11 status "application/json" false (errorBody code message))
  mayThrow .log
  writeResponse g .writeInit none response {}

def rejectBufferBudget (request : HttpRequest) : SessionAct Unit := do
  modify (observe (.reject .bufferCapacity))
  mayThrow .build
  writeResponse g .writeInit none
    ((makeGatewayErrorResponse request .bufferCapacityExhausted).setKeepAlive false) {}

def handleReadError (error : ErrorCode) : SessionAct Unit :=
  match error with
  | .endOfStream => gracefulClose g
  | .operationAborted | .streamTruncated => modify closeSocket
  | .beastTimeout => do
      mayThrow .log
      modify closeSocket
  | .bodyLimit => writeProtocolError g 413 "payload_too_large" "request body is too large"
  | .headerLimit =>
      writeProtocolError g 431 "headers_too_large" "request headers are too large"
  | _ => do
      mayThrow .log
      writeProtocolError g 400 "bad_request" "malformed HTTP request"

/-- The three answers of `start_proxy_request` to a request it does not admit. -/
def rejectProxy (reason : RejectionReason) (response : HttpResponse) : SessionAct Unit := do
  modify (observe (.reject reason))
  mayThrow .rejectionBuild
  let w ← get
  writeResponse g .rejectionWrite none (limitRequests w response) {}

/-- `pool_->take`, where there is a pool. -/
def takePooled (clean : Nat → Bool) (backend : UpstreamConfig) (s : Shared) :
    Option UpstreamConnection × UpstreamPool :=
  if g.config.upstreamKeepAlive then
    s.pool.take clean backend g.config.upstreamTlsContext s.now
  else (none, s.pool)

/-- The exchange exists; it shares the permit for the request body. `fresh` says
that it made its connection itself. -/
def addExchange (x : Exchange) (fresh : Bool) (w : World Session) : World Session :=
  { w with
    shared := Shared.shareCell x.requestBodyPermit
      { w.shared with nextConnection := w.shared.nextConnection + fresh.toNat }
    exs := Function.update w.exs w.nextExchange x
    nextExchange := w.nextExchange + 1 }

/-- The constructor of `HttpProxyExchange`. -/
def makeExchange (selected : SelectedUpstream) (request : HttpRequest) : SessionAct Nat := do
  mayThrow .exchangeMake
  let clean ← survey Site.clean
  let w ← get
  let taken := takePooled g clean selected.upstream w.shared
  modify (World.setShared fun s => { s with pool := taken.2 })
  if taken.1.isNone && selected.upstream.scheme = .https && g.config.upstreamTlsContext.isNone then
    throw ()
  else
    if taken.1.isNone then mayThrow .exchangeMake
    let connection := taken.1.getD
      ⟨w.shared.nextConnection, selected.upstream, g.config.upstreamTlsContext⟩
    modify (addExchange (Exchange.make selected request g.config.upstreamKeepAlive connection
      taken.1.isSome w.env.requestBodyPermit) taken.1.isNone)
    pure w.nextExchange

/-- The `try` block of `start_proxy_request`. -/
def admitProxy (request : HttpRequest) (route : SelectedRoute) : SessionAct Unit := do
  modify (World.setShared (Shared.check request route))
  let w ← get
  let (result, admission) := w.shared.admission.tryAcquire route w.shared.now
  modify (World.setShared fun s => { s with admission })
  match result with
  | .error _ => throw ()
  | .ok r =>
      if !r.rateLimit.allowed then
        rejectProxy g .rateLimit
          (makeRateLimitedResponse request r.rateLimit.retryAfterSeconds.toNat)
      else if r.noHealthyUpstream then
        rejectProxy g .noHealthyUpstream (makeGatewayErrorResponse request .noHealthyUpstream)
      else
        modify dropPermit
        modify (set fun s => { s with proxyPermit := r.permit })
        if !r.permit then
          rejectProxy g .proxyCapacity (makeGatewayErrorResponse request .gatewayOverloaded)
        else
          match r.upstream with
          | none => throw ()
          | some selected =>
              let k ← makeExchange g selected request
              modify (set fun s => { s with proxyExchange := some k })
              Exchange.start k
              modify resetRequest

/-- Its outer `catch`: `proxy_exchange_` is the local `exchange` from its
construction on. -/
def onStartFailed (request : HttpRequest) : SessionAct Unit := do
  modify cancelProxy
  try
    mayThrow .build
    modify (observe (.fail .connect))
    writeResponse g .writeInit none (makeGatewayErrorResponse request .badGateway) {}
  catch _ => modify closeSocket

def startProxyRequest (request : HttpRequest) (route : SelectedRoute) : SessionAct Unit := do
  try admitProxy g request route
  catch _ => onStartFailed g request

/-- Whether the request may use the route. -/
def authorized (route : SelectedRoute) (request : HttpRequest) : Bool :=
  match route.auth with
  | some auth => authenticateApiKey g.lib auth request
  | none => true

/-- A request that is not proxied. -/
def answerLocally (request : HttpRequest) : SessionAct Unit := do
  mayThrow .build
  let response := handleHttpRequest g.config request
  let w ← get
  if isMetricsTarget g.config request.target && response.status = 200 then
    if w.shared.metrics.isNone then throw ()
    else
      mayThrow .render
      writeResponse g .writeInit none
        (limitRequests w (makeMetricsResponse request (g.render w.shared))) {}
  else writeResponse g .writeInit none (limitRequests w response) {}

def processRequest : SessionAct Unit := do
  modify (record [.dispatch])
  let w ← get
  match w.env.parser with
  | none =>
      mayThrow .log
      modify closeSocket
  | some parser =>
      modify (set fun s => { s with observation := s.observation.begin w.shared.now,
                                    requestsServed := s.requestsServed + 1 })
      match selectHttpRoute g.config parser.request with
      | some route =>
          mayThrow .hash
          if !authorized g route parser.request then
            mayThrow .build
            let w ← get
            writeResponse g .writeInit none
              (limitRequests w (makeAuthenticationFailedResponse parser.request)) {}
          else
            modify (set fun s => { s with phase := .proxying })
            startProxyRequest g parser.request route
      | none => answerLocally g parser.request

/-- Scrapes of the metrics are not counted. -/
def excludeMetrics (w : World Session) : World Session :=
  match w.env.parser with
  | some parser =>
      let excluded := isMetricsTarget g.config parser.request.target
      set (fun s => { s with observation := s.observation.exclude excluded,
                             log := .header parser.request.target :: s.log }) w
  | none => w

def onReadHeader (error : Error) : SessionAct Unit := do
  modify (excludeMetrics g)
  let w ← get
  if w.env.finished then pure ()
  else
    match error, w.env.parser with
    | some code, _ => handleReadError g code
    | none, none => do
        mayThrow .log
        modify closeSocket
    | none, some parser => do
        if ((parser.request.fields.equalRange "expect".toList).any fun f => !f.value.isEmpty) then
          writeProtocolError g 417 "expectation_failed" "Expect is not supported"
        else if (parser.contentLength.any fun n => n > maxBodyBytes) then
          writeProtocolError g 413 "payload_too_large" "request body is too large"
        else
          let reservation := planBodyReservation parser.contentLength parser.isDone maxBodyBytes
          match reservation.kind with
          | .none => processRequest g
          | .tooLarge => writeProtocolError g 413 "payload_too_large" "request body is too large"
          | .reserve =>
              match w.shared.budget.tryAcquire reservation.bytes with
              | (none, _) => rejectBufferBudget g parser.request
              | (some permit, budget) =>
                  -- the permit is given back when `make_shared` throws
                  mayThrow .build
                  modify fun w => set (fun s => { s with requestBodyPermit := some w.shared.nextCell })
                    (w.setShared fun s => Shared.newCell permit
                      (Shared.dropCell w.env.requestBodyPermit { s with budget }))
                  mayThrow .readBodyInit
                  modify (addOp .readBody)

/-- `request_body_permit_->shrink_to` on the shared permit. -/
def shrinkRequest (w : World Session) : Option (World Session) :=
  match w.env.parser, w.env.requestBodyPermit with
  | some parser, some c =>
      match (w.shared.cells c).permit.shrinkTo (UInt64.ofNat parser.request.body.length)
          w.shared.budget with
      | (true, permit, budget) =>
          some (w.setShared fun s =>
            { s with budget, cells := Function.update s.cells c { s.cells c with permit } })
      | (false, _, _) => none
  | _, _ => none

def onReadBody (error : Error) : SessionAct Unit := do
  let w ← get
  if w.env.finished then pure ()
  else
    match error with
    | some code => handleReadError g code
    | none =>
        match shrinkRequest w with
        | none => modify closeSocket
        | some w' => do
            modify fun _ => w'
            processRequest g

def onHandshake (error : Error) : SessionAct Unit := do
  let w ← get
  if w.env.finished then pure ()
  else if error.isSome then modify closeSocket
  else
    modify (Session.set fun s => { s with tlsEstablished := true })
    readRequest

def onShutdown : SessionAct Unit := do
  let w ← get
  if w.env.finished then pure () else modify closeSocket

def start : SessionAct Unit :=
  if !g.config.downstreamTlsContext then readRequest
  else do
    modify (set fun s => { s with phase := .handshaking })
    mayThrow .handshakeInit
    modify (addOp .handshake)

/-! ## Events -/

/-- The completion of an outstanding operation of the session; a read leaves
`parser` behind. -/
structure Completion where
  op : SessionOp
  error : Error := none
  parser : RequestParser := {}
  deriving DecidableEq, Repr

/-- The operation is no longer outstanding, and what it read is in the parser. -/
def Completion.receive (c : Completion) (s : Session) : Session :=
  { s with
    ops := s.ops.erase c.op
    parser := if c.op = .readHeader || c.op = .readBody then s.parser.map fun _ => c.parser
      else s.parser
    streamPendingBytes := match c.op with
      | .streamBody _ _ => 0
      | _ => s.streamPendingBytes }

/-- Reading the body leaves the start line of the request as it is. -/
def Completion.fits (c : Completion) (s : Session) : Bool :=
  c.op ≠ .readBody || s.parser.all fun p =>
    c.parser.request.method = p.request.method && c.parser.request.target = p.request.target
      && c.parser.request.version = p.request.version

def handler (c : Completion) : SessionAct Unit :=
  match c.op with
  | .handshake => runHandler (onHandshake c.error)
  | .readHeader => runHandler (onReadHeader g c.error)
  | .readBody => runHandler (onReadBody g c.error)
  | .write closeAfterWrite => runHandler (onWrite g c.error closeAfterWrite)
  | .streamHeader k final | .streamBody k final => onStreamWritten g k final c.error
  | .shutdown => onShutdown

inductive Event where
  /-- the server accepts the connection -/
  | start
  | completion (c : Completion)
  /-- an operation of exchange `k` completes -/
  | exchange (k : Nat) (c : Exchange.Completion)
  | drain
  | stop
  /-- the last reference to exchange `k` is gone -/
  | destroyExchange (k : Nat)
  /-- the last reference to the session is gone -/
  | destroy
  deriving DecidableEq, Repr

def SessionOp.uses (k : Nat) : SessionOp → Bool
  | .streamHeader j _ | .streamBody j _ => j = k
  | _ => false

/-- An exchange without outstanding operations gives its permits back when nobody
refers to it any more. -/
def destroyExchange (k : Nat) (w : World Session) : World Session :=
  if (w.exs k).ops.isEmpty && w.env.proxyExchange ≠ some k && !w.env.ops.any (SessionOp.uses k) then
    World.setEx k
      (fun x => { x with requestBodyPermit := none, responseBodyPermit := {}, streamPermit := {} })
      (w.setShared fun s => Shared.dropCell (w.exs k).requestBodyPermit
        (Shared.dropPermit (w.exs k).responseBodyPermit
          (Shared.dropPermit (w.exs k).streamPermit s)))
  else w

def destroy (w : World Session) : World Session :=
  if w.env.finished && w.env.ops.isEmpty then
    set (fun s => { s with requestBodyPermit := none, responseBodyPermit := {} })
      (w.setShared fun s => Shared.dropCell w.env.requestBodyPermit
        (Shared.dropPermit w.env.responseBodyPermit s))
  else w

/-- An exception of `start` ends in `fail_runtime`, which stops every session. -/
def handle : Event → SessionAct Unit
  | .start => do
      let w ← get
      if w.env.started then pure ()
      else
        modify (set fun s => { s with started := true })
        try start g
        catch _ => modify stop
  | .completion c => do
      let w ← get
      if c.op ∈ w.env.ops && c.fits w.env then
        modify (set c.receive)
        handler g c
      else pure ()
  | .exchange k c => do
      let w ← get
      if k < w.nextExchange then
        Exchange.dispatch (endCallbacks g) g.lib (streamCallbacks g) k c
      else pure ()
  | .drain => do
      let w ← get
      if w.env.started then modify beginDrain else pure ()
  | .stop => do
      let w ← get
      if w.env.started then modify stop else pure ()
  | .destroyExchange k => modify (destroyExchange k)
  | .destroy => modify destroy

end Session

end ApiGate
