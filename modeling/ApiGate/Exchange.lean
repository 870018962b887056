import Mathlib.Logic.Function.Basic
import ApiGate.EventLoop.Act
import ApiGate.EventLoop.Relay
import ApiGate.Admission
import ApiGate.BufferBudget
import ApiGate.Metrics
import ApiGate.Rewrite
import ApiGate.UpstreamPool

/-!
# One upstream exchange

`HttpProxyExchange::Impl`: resolve, connect, handshake, write the request, read
the response head, then either read the whole body and complete, or stream it
block by block. Every step has a deadline, every handler may throw, and the
owner may cancel at any time.

The handlers run in a world that holds the state shared by all sessions, the
exchanges that exist (an old one lives on until its last operation has
completed) and the owner, whose type is a parameter. The callbacks that the
owner installs are parameters too. They come in two groups: the ones that end
an exchange, and the two that deliver a streamed response, which get a
`StreamResume` and may call it at once. A `StreamResume` is the pair of the
exchange and the flag `final` that the closure of the source captures.
-/

namespace ApiGate

open EventLoop Act

/-- Where a handler may throw, and what it asks its surroundings. -/
inductive Site where
  /-- constructing the exchange or its connection throws -/
  | exchangeMake
  /-- setting or starting the exchange's deadline throws -/
  | deadlineInit
  | resolveInit
  | connectInit
  | upstreamHandshakeInit
  | upstreamWriteInit
  | upstreamHeaderInit
  | upstreamBodyInit
  | blockReadInit
  /-- building a response head, a response or a block throws -/
  | build
  /-- `configure_upstream_tls_identity` fails -/
  | tlsIdentity
  /-- the socket of this connection is clean -/
  | clean (connection : Nat)
  /-- arming the pool's cleanup timer throws -/
  | poolTimer
  /-- starting a downstream handshake, read or write throws -/
  | handshakeInit
  | readHeaderInit
  | readBodyInit
  | writeInit
  /-- `write_response` throws for the answer to a request that
  `start_proxy_request` rejects -/
  | rejectionWrite
  /-- building that answer throws -/
  | rejectionBuild
  /-- handing the head of a stream to the transport throws -/
  | streamHeadInit
  | streamInit
  | shutdownInit
  /-- logging throws where the source does not catch it -/
  | log
  /-- copying the selected route or hashing an API key throws -/
  | hash
  /-- rendering the metrics throws -/
  | render
  deriving DecidableEq, Repr

/-! ## State -/

/-- A permit behind a `shared_ptr`, with the number of its owners. -/
structure PermitCell where
  permit : BufferBudgetPermit := {}
  owners : Nat := 0
  deriving DecidableEq, Repr

/-- A call of `RouteProxyAdmission::try_acquire`, as far as its rate limit goes. -/
structure RateCheck where
  request : HttpRequest
  route : SelectedRoute
  now : TimePoint
  decision : Except Unit RateLimitDecision

/-- What all sessions share. `now` is the clock reading of the current handler.
`checks` is not in the source: it records, latest first, the admission checks. -/
structure Shared where
  admission : RouteProxyAdmission
  budget : BufferBudgetControl
  pool : UpstreamPool := {}
  metrics : Option Metrics := none
  now : TimePoint := 0
  nextConnection : Nat := 0
  cells : Nat → PermitCell := fun _ => {}
  nextCell : Nat := 0
  checks : List RateCheck := []

/-- What Beast's response parser and the read buffer hold. `needEof` is the
parser's: the body ends with the connection. -/
structure ParserState where
  response : HttpResponse := { status := 0 }
  contentLength : Option UInt64 := none
  isDone : Bool := false
  needEof : Bool := false
  bufferSize : Nat := 0
  deriving DecidableEq, Repr

inductive ExchangeOp where
  | resolve
  | connect
  | handshake
  | write
  | readHeader
  | readBody
  | readBlock
  | wait (generation : Nat)
  deriving DecidableEq, Repr

inductive Lease where
  | held
  | closed
  | pooled
  deriving DecidableEq, Repr

structure ProxyFailure where
  stage : ProxyFailureStage
  error : Error
  deriving DecidableEq, Repr

/-- What an exchange does with its connection and with a stream. -/
inductive ExchangeNote where
  | requestWritten
  /-- the connection is handed to `pool_->put`, with a socket that was clean or not -/
  | put (parser : ParserState) (clean : Bool)
  /-- an exception has left a handler -/
  | aborted
  /-- `cancel_operations` -/
  | cancelled
  /-- `streaming_.finish` is called -/
  | finish (failure : Option ProxyFailure) (downstreamFailed : Bool)
  /-- `streaming_.header` or `body` is called, a block was read, a `StreamResume` is called -/
  | relay (note : Relay.Note Char ErrorCode)
  deriving DecidableEq, Repr

/-- What an exchange does with its deadline, and the operations it starts. -/
inductive DeadlineNote where
  /-- `deadline_generation_` is counted up -/
  | bumped
  /-- an operation is started, which may be the wait of a deadline -/
  | started (op : ExchangeOp)
  /-- a wait has found that its deadline is the current one -/
  | expired (generation : Nat)
  /-- `fail` ends the exchange -/
  | failed (stage : ProxyFailureStage)
  deriving DecidableEq, Repr

/-- `onComplete`, `onAbort` and `finish` say whether the callback is still
installed, `completed` is the claim of `completion_state_`, `observed` is
`completion_observed_`. `puts` counts the calls of `pool_->put`. `journal` and
`timeline` are not in the source: they record, latest first, what the exchange has
done. -/
structure Exchange where
  selected : SelectedUpstream := { upstream := { host := [], port := 0 } }
  downstreamRequest : HttpRequest := { method := .get, target := [] }
  upstreamRequest : HttpRequest := { method := .get, target := [] }
  pooled : Bool := false
  connection : UpstreamConnection := ⟨0, { host := [], port := 0 }, none⟩
  lease : Lease := .held
  puts : Nat := 0
  reused : Bool := false
  requestBodyPermit : Option Nat := none
  parser : ParserState := {}
  responseBodyPermit : BufferBudgetPermit := {}
  streamPermit : BufferBudgetPermit := {}
  streamStarted : Bool := false
  onComplete : Bool := true
  onAbort : Bool := true
  finish : Bool := true
  completed : Bool := false
  observed : Bool := false
  deadlineGeneration : Nat := 0
  ops : List ExchangeOp := []
  journal : List ExchangeNote := []
  timeline : List DeadlineNote := []
  deriving DecidableEq, Repr

structure World (E : Type) where
  shared : Shared
  exs : Nat → Exchange := fun _ => {}
  nextExchange : Nat := 0
  env : E

variable {E : Type}

namespace World

def setEx (k : Nat) (f : Exchange → Exchange) (w : World E) : World E :=
  { w with exs := Function.update w.exs k (f (w.exs k)) }

def setShared (f : Shared → Shared) (w : World E) : World E := { w with shared := f w.shared }

@[simp] theorem setEx_env (k : Nat) (f : Exchange → Exchange) (w : World E) :
    (w.setEx k f).env = w.env := rfl

@[simp] theorem setEx_shared (k : Nat) (f : Exchange → Exchange) (w : World E) :
    (w.setEx k f).shared = w.shared := rfl

@[simp] theorem setEx_nextExchange (k : Nat) (f : Exchange → Exchange) (w : World E) :
    (w.setEx k f).nextExchange = w.nextExchange := rfl

@[simp] theorem setEx_same (k : Nat) (f : Exchange → Exchange) (w : World E) :
    (w.setEx k f).exs k = f (w.exs k) := Function.update_self ..

@[simp] theorem setEx_ne {j k : Nat} (h : j ≠ k) (f : Exchange → Exchange) (w : World E) :
    (w.setEx k f).exs j = w.exs j := Function.update_of_ne h ..

@[simp] theorem setEx_id (k : Nat) (w : World E) : w.setEx k id = w := by
  simp only [setEx, id, Function.update_eq_self]

@[simp] theorem setEx_setEx (k : Nat) (f g : Exchange → Exchange) (w : World E) :
    (w.setEx k f).setEx k g = w.setEx k fun x => g (f x) := by
  simp only [setEx, Function.update_self, Function.update_idem]

end World

/-- A permit is destroyed. -/
def Shared.dropPermit (p : BufferBudgetPermit) (s : Shared) : Shared :=
  { s with budget := (p.release s.budget).2 }

/-- One owner of a shared permit lets go of it. -/
def Shared.dropCell (cell : Option Nat) (s : Shared) : Shared :=
  match cell with
  | none => s
  | some c =>
      if (s.cells c).owners ≤ 1 then
        { s with budget := ((s.cells c).permit.release s.budget).2,
                 cells := Function.update s.cells c {} }
      else
        { s with cells := Function.update s.cells c
                   { s.cells c with owners := (s.cells c).owners - 1 } }

def Shared.shareCell (cell : Option Nat) (s : Shared) : Shared :=
  match cell with
  | none => s
  | some c =>
      { s with cells := Function.update s.cells c
                 { s.cells c with owners := (s.cells c).owners + 1 } }

/-- `make_shared` of a permit. -/
def Shared.newCell (permit : BufferBudgetPermit) (s : Shared) : Shared :=
  { s with cells := Function.update s.cells s.nextCell ⟨permit, 1⟩, nextCell := s.nextCell + 1 }

/-- The check of the rate limit that `try_acquire` is about to make. -/
def Shared.check (request : HttpRequest) (route : SelectedRoute) (s : Shared) : Shared :=
  { s with checks :=
      ⟨request, route, s.now, (s.admission.checkRate route s.now).1⟩ :: s.checks }

@[simp] theorem Shared.dropCell_admission (cell : Option Nat) (s : Shared) :
    (s.dropCell cell).admission = s.admission := by
  unfold Shared.dropCell
  split
  · rfl
  · split <;> rfl

@[simp] theorem Shared.dropCell_pool (cell : Option Nat) (s : Shared) :
    (s.dropCell cell).pool = s.pool := by
  unfold Shared.dropCell
  split
  · rfl
  · split <;> rfl

@[simp] theorem Shared.dropCell_metrics (cell : Option Nat) (s : Shared) :
    (s.dropCell cell).metrics = s.metrics := by
  unfold Shared.dropCell
  split
  · rfl
  · split <;> rfl

@[simp] theorem Shared.dropCell_checks (cell : Option Nat) (s : Shared) :
    (s.dropCell cell).checks = s.checks := by
  unfold Shared.dropCell
  split
  · rfl
  · split <;> rfl

@[simp] theorem Shared.dropCell_now (cell : Option Nat) (s : Shared) :
    (s.dropCell cell).now = s.now := by
  unfold Shared.dropCell
  split
  · rfl
  · split <;> rfl

@[simp] theorem Shared.shareCell_admission (cell : Option Nat) (s : Shared) :
    (s.shareCell cell).admission = s.admission := by
  cases cell <;> rfl

@[simp] theorem Shared.shareCell_pool (cell : Option Nat) (s : Shared) :
    (s.shareCell cell).pool = s.pool := by
  cases cell <;> rfl

/-- `upstream` is not in the source: it records the upstream response that the
result was made from, if it was made from one. -/
structure ProxyResult where
  response : HttpResponse
  failure : Option ProxyFailure := none
  bufferBudgetRejectedBytes : Option UInt64 := none
  bodyPermit : BufferBudgetPermit := {}
  upstream : Option HttpResponse := none
  deriving DecidableEq, Repr

abbrev GateAct (E : Type) := Act Site (World E)

/-- The callbacks that end an exchange; the first argument is the exchange. -/
structure EndCallbacks (E : Type) where
  complete : Nat → ProxyResult → GateAct E Unit
  abort : Nat → GateAct E Unit
  finish : Nat → Option ProxyFailure → Bool → GateAct E Unit

/-- `StreamCallbacks` without `finish`. The Boolean is the `final` that the
`StreamResume` captures, and for `body` also its argument. The second response
of `header` is again the upstream one, for the record. -/
structure StreamCallbacks (E : Type) where
  header : Nat → HttpResponse → HttpResponse → Bool → GateAct E Unit
  body : Nat → Text → Bool → GateAct E Unit

/-! ## Functions that cannot throw -/

namespace Exchange

def maxUpstreamBodyBytes : UInt64 := 1048576

/-- `completion_state_.claim()`, by a caller that found it free. -/
def claim (x : Exchange) : Exchange := { x with completed := true }

def finishDeadline (x : Exchange) : Exchange :=
  { x with deadlineGeneration := x.deadlineGeneration + 1, timeline := .bumped :: x.timeline }

def expire (generation : Nat) (x : Exchange) : Exchange :=
  if x.observed then x else { x with timeline := .expired generation :: x.timeline }

def recordFailure (stage : ProxyFailureStage) (x : Exchange) : Exchange :=
  { x with timeline := .failed stage :: x.timeline }

def closeUpstream (x : Exchange) : Exchange :=
  if x.lease = .held then { x with lease := .closed } else x

def record (n : ExchangeNote) (x : Exchange) : Exchange := { x with journal := n :: x.journal }

def cancelOperations (x : Exchange) : Exchange :=
  closeUpstream { x.record .cancelled with observed := true }

def recordPut (reusable clean : Bool) (x : Exchange) : Exchange :=
  if reusable then x.record (.put x.parser clean) else x

def cancel (x : Exchange) : Exchange :=
  if x.completed then x
  else cancelOperations { x.claim with onComplete := false, onAbort := false }

/-- A newly constructed exchange. -/
def make (selected : SelectedUpstream) (request : HttpRequest) (pooled : Bool)
    (connection : UpstreamConnection) (reused : Bool) (cell : Option Nat) : Exchange :=
  { selected, downstreamRequest := request,
    upstreamRequest := makeUpstreamRequest selected request pooled,
    pooled, connection, reused, requestBodyPermit := cell }

def addOp (op : ExchangeOp) (x : Exchange) : Exchange :=
  { x with ops := op :: x.ops, timeline := .started op :: x.timeline }

@[simp] theorem claim_onComplete (x : Exchange) : x.claim.onComplete = x.onComplete := rfl

@[simp] theorem claim_onAbort (x : Exchange) : x.claim.onAbort = x.onAbort := rfl

@[simp] theorem claim_finish (x : Exchange) : x.claim.finish = x.finish := rfl

@[simp] theorem cancelOperations_onAbort (x : Exchange) :
    x.cancelOperations.onAbort = x.onAbort := by
  unfold cancelOperations closeUpstream
  split <;> rfl

end Exchange

namespace Exchange

/-! ## Starting operations -/

def beginDeadline (k : Nat) : GateAct E Unit := do
  modify (World.setEx k finishDeadline)
  mayThrow .deadlineInit
  modify (World.setEx k fun x => x.addOp (.wait x.deadlineGeneration))

def initiate (site : Site) (op : ExchangeOp) (k : Nat) : GateAct E Unit := do
  mayThrow site
  modify (World.setEx k (addOp op))

def writeRequest (k : Nat) : GateAct E Unit := do
  beginDeadline k
  initiate .upstreamWriteInit .write k

def readStreamBlock (k : Nat) : GateAct E Unit := initiate .blockReadInit .readBlock k

def start (k : Nat) : GateAct E Unit := do
  let w ← get
  if (w.exs k).reused then writeRequest k
  else
    beginDeadline k
    initiate .resolveInit .resolve k

/-- `pool_->put(std::move(connection_))` or `close_upstream()`. -/
def releaseUpstream (k : Nat) (reusable : Bool) : GateAct E Unit := do
  if reusable then
    let w ← get
    let clean ← ask (.clean (w.exs k).connection.id)
    let fails ← ask .poolTimer
    modify fun w => World.setEx k (fun x => { x with lease := .pooled, puts := x.puts + 1 })
      (w.setShared fun s =>
        { s with pool := s.pool.put clean fails (w.exs k).connection s.now })
  else modify (World.setEx k closeUpstream)

/-! ## Ending the exchange -/

section Ending

variable (cb : EndCallbacks E)

def notifyAbort (k : Nat) : GateAct E Unit := do
  modify (World.setEx k fun x => { x with onComplete := false })
  let w ← get
  if (w.exs k).onAbort then
    modify (World.setEx k fun x => { x with onAbort := false })
    try cb.abort k
    catch _ => pure ()
  else pure ()

def complete (k : Nat) (result : ProxyResult) : GateAct E Unit := do
  let w ← get
  if (w.exs k).completed then pure ()
  else
    modify (World.setEx k claim)
    try
      modify (World.setEx k fun x => { x with observed := true })
      let w ← get
      if (w.exs k).onComplete then
        modify (World.setEx k fun x => { x with onComplete := false })
        cb.complete k result
        modify (World.setEx k fun x => { x with onAbort := false })
      else notifyAbort cb k
    catch _ =>
      modify (World.setEx k fun x => { x with observed := true })
      notifyAbort cb k

/-- Calling the moved-from `finish` a second time would throw
`bad_function_call`. -/
def completeStream (k : Nat) (failure : Option ProxyFailure) (downstreamFailed : Bool) :
    GateAct E Unit := do
  let w ← get
  if (w.exs k).completed then pure ()
  else
    modify (World.setEx k claim)
    try
      modify (World.setEx k fun x => { x with observed := true, onComplete := false })
      let w ← get
      modify (World.setEx k fun x => { x with finish := false })
      if (w.exs k).finish then
        modify (World.setEx k (record (.finish failure downstreamFailed)))
        cb.finish k failure downstreamFailed
      else throw ()
      modify (World.setEx k fun x => { x with onAbort := false })
    catch _ => notifyAbort cb k

/-- What `run_proxy_handler_action` does with an exception. -/
def abandon (k : Nat) : GateAct E Unit := do
  let w ← get
  if (w.exs k).completed then pure ()
  else
    modify (World.setEx k fun x => (x.claim.record .aborted).cancelOperations)
    notifyAbort cb k

/-- `run_proxy_handler_action` -/
def runHandler (k : Nat) (handler : GateAct E Unit) : GateAct E Unit := do
  try handler
  catch _ => abandon cb k

def fail (k : Nat) (stage : ProxyFailureStage) (error : Error) : GateAct E Unit := do
  let w ← get
  if (w.exs k).observed then pure ()
  else
    modify (World.setEx k fun x => (x.recordFailure stage).finishDeadline.cancelOperations)
    if (w.exs k).streamStarted then completeStream cb k (some ⟨stage, error⟩) false
    else
      mayThrow .build
      let failure := if stage = .timeout then GatewayFailure.gatewayTimeout else .badGateway
      complete cb k
        { response := makeGatewayErrorResponse (w.exs k).downstreamRequest failure
          failure := some ⟨stage, error⟩ }

def rejectBufferBudget (k : Nat) (requestedBytes : UInt64) : GateAct E Unit := do
  modify (World.setEx k cancelOperations)
  mayThrow .build
  let w ← get
  complete cb k
    { response := makeGatewayErrorResponse (w.exs k).downstreamRequest .bufferCapacityExhausted
      bufferBudgetRejectedBytes := some requestedBytes }

def finishStream (k : Nat) : GateAct E Unit := do
  mayThrow .build
  let w ← get
  let x := w.exs k
  let clean ← ask (.clean x.connection.id)
  let reusable := x.pooled && x.parser.isDone && !x.parser.needEof && x.parser.response.keepAlive
    && x.parser.bufferSize = 0
    && !(connectionTokens x.parser.response.fields).contains "upgrade".toList && clean
  modify (World.setEx k finishDeadline)
  modify (World.setEx k (recordPut reusable clean))
  releaseUpstream k reusable
  completeStream cb k none false

/-- The call of a `StreamResume`. -/
def resumeStream (k : Nat) (final : Bool) (error : Error) : GateAct E Unit :=
  runHandler cb k do
    let w ← get
    if (w.exs k).observed then pure ()
    else
      modify (World.setEx k (record (.relay (.taken error))))
      if error.isSome then
        modify (World.setEx k cancelOperations)
        completeStream cb k none true
      else if final then finishStream cb k
      else readStreamBlock k

variable (lib : Library)

def finishResponse (k : Nat) : GateAct E Unit := do
  mayThrow .build
  let w ← get
  let x := w.exs k
  let clean ← ask (.clean x.connection.id)
  let original := x.parser.response
  let reusable := x.pooled && x.parser.isDone && !x.parser.needEof && original.keepAlive
    && original.status ≥ 200 && !original.fields.has "upgrade".toList
    && !(connectionTokens original.fields).contains "upgrade".toList
    && x.parser.bufferSize = 0 && clean
  modify (World.setEx k finishDeadline)
  modify (World.setEx k (recordPut reusable clean))
  releaseUpstream k reusable
  mayThrow .build
  match makeDownstreamResponse lib x.downstreamRequest original with
  | .error _ => throw ()
  | .ok response =>
      modify (World.setEx k fun x => { x with responseBodyPermit := {} })
      complete cb k { response, bodyPermit := x.responseBodyPermit, upstream := some original }

/-! ## Completions -/

variable (scb : StreamCallbacks E)

/-- The head of a streamed response: its framing follows the upstream one. -/
def streamHead (request : HttpRequest) (parser : ParserState) : HttpResponse :=
  let header := makeDownstreamHeader lib request parser.response
  if !parser.isDone then
    match parser.contentLength with
    | some length => { header with fields := header.fields.setContentLength length.toNat }
    | none =>
        if header.version ≥ 11 then { header with fields := header.fields.setChunked }
        else header.setKeepAlive false
  else if parser.response.result lib ≠ 204 && parser.response.result lib ≠ 304 then
    { header with fields := header.fields.setContentLength 0 }
  else header

def sendStreamHead (k : Nat) : GateAct E Unit := do
  mayThrow .build
  let w ← get
  let x := w.exs k
  modify (World.setEx k fun x => { x with streamStarted := true })
  -- making the `StreamResume` may throw, here and before every block
  mayThrow .build
  modify (World.setEx k (record (.relay (.opened x.parser.isDone))))
  scb.header k (streamHead lib x.downstreamRequest x.parser) x.parser.response x.parser.isDone

def startStream (k : Nat) : GateAct E Unit := do
  let w ← get
  let parser := (w.exs k).parser
  if parser.response.status < 200 || parser.response.fields.has "upgrade".toList then
    fail cb k .invalidResponse none
  else if (parser.contentLength.any fun n => n > maxUpstreamBodyBytes) then
    fail cb k .responseTooLarge (some .bodyLimit)
  else
    mayThrow .build
    if !parser.isDone then
      let bytes := min 16384 (w.shared.budget.maxBytes - w.shared.budget.currentBytes)
      if bytes = 0 then rejectBufferBudget cb k 1
      else
        match w.shared.budget.tryAcquire bytes with
        | (none, _) => rejectBufferBudget cb k 1
        | (some permit, budget) =>
            modify fun w => World.setEx k (fun x => { x with streamPermit := permit })
              (w.setShared fun s => { s with budget })
            mayThrow .build
            sendStreamHead lib scb k
    else sendStreamHead lib scb k

def readStage (error : Error) : ProxyFailureStage :=
  if error = some .bodyLimit then .responseTooLarge else .read

def onResolve (k : Nat) (error : Error) : GateAct E Unit := do
  let w ← get
  if (w.exs k).observed then pure ()
  else
    modify (World.setEx k finishDeadline)
    if error.isSome then fail cb k .resolve error
    else
      beginDeadline k
      initiate .connectInit .connect k

def onConnect (k : Nat) (error : Error) : GateAct E Unit := do
  let w ← get
  if (w.exs k).observed then pure ()
  else
    modify (World.setEx k finishDeadline)
    if error.isSome then fail cb k .connect error
    else if (w.exs k).selected.upstream.scheme = .https then
      if ← ask .tlsIdentity then fail cb k .handshake (some .invalidArgument)
      else
        beginDeadline k
        initiate .upstreamHandshakeInit .handshake k
    else writeRequest k

def onHandshake (k : Nat) (error : Error) : GateAct E Unit := do
  let w ← get
  if (w.exs k).observed then pure ()
  else
    modify (World.setEx k finishDeadline)
    if error.isSome then fail cb k .handshake error
    else writeRequest k

def onWrite (k : Nat) (error : Error) : GateAct E Unit := do
  let w ← get
  if (w.exs k).observed then pure ()
  else
    modify (World.setEx k finishDeadline)
    if error.isSome then fail cb k .write error
    else
      modify (World.setEx k (record .requestWritten))
      beginDeadline k
      initiate .upstreamHeaderInit .readHeader k

def onReadHeader (k : Nat) (error : Error) : GateAct E Unit := do
  let w ← get
  let x := w.exs k
  if x.observed then pure ()
  else if error.isSome then
    modify (World.setEx k finishDeadline)
    fail cb k (readStage error) error
  else if x.selected.streamResponse then startStream cb lib scb k
  else if x.parser.response.status < 200 then
    modify (World.setEx k finishDeadline)
    fail cb k .invalidResponse none
  else
    let plan := planBodyReservation x.parser.contentLength x.parser.isDone maxUpstreamBodyBytes
    match plan.kind with
    | .tooLarge =>
        modify (World.setEx k finishDeadline)
        fail cb k .responseTooLarge (some .bodyLimit)
    | .none =>
        modify (World.setEx k finishDeadline)
        finishResponse cb lib k
    | .reserve =>
        match w.shared.budget.tryAcquire plan.bytes with
        | (none, _) =>
            modify (World.setEx k finishDeadline)
            rejectBufferBudget cb k plan.bytes
        | (some permit, budget) =>
            modify fun w => World.setEx k (fun x => { x with responseBodyPermit := permit })
              (w.setShared fun s => { s with budget })
            initiate .upstreamBodyInit .readBody k

def onReadBody (k : Nat) (error : Error) : GateAct E Unit := do
  let w ← get
  let x := w.exs k
  if x.observed then pure ()
  else
    modify (World.setEx k finishDeadline)
    if error.isSome then fail cb k (readStage error) error
    else
      match x.responseBodyPermit.shrinkTo (UInt64.ofNat x.parser.response.body.length)
          w.shared.budget with
      | (false, _, _) => fail cb k .read none
      | (true, permit, budget) =>
          modify fun w => World.setEx k (fun x => { x with responseBodyPermit := permit })
            (w.setShared fun s => { s with budget })
          finishResponse cb lib k

/-- `block` holds the bytes that this read delivered. -/
def onReadBlock (k : Nat) (error : Error) (block : Text) : GateAct E Unit := do
  let w ← get
  if (w.exs k).observed then pure ()
  else if error.isSome && error ≠ some .needBuffer then fail cb k (readStage error) error
  else if block.isEmpty && !(w.exs k).parser.isDone then readStreamBlock k
  else
    mayThrow .build
    modify (World.setEx k (record (.relay (.passed block (w.exs k).parser.isDone))))
    scb.body k block (w.exs k).parser.isDone

def onDeadline (k : Nat) (generation : Nat) (error : Error) : GateAct E Unit := do
  let w ← get
  if error.isNone && generation = (w.exs k).deadlineGeneration then
    modify (World.setEx k (expire generation))
    fail cb k .timeout (some .timedOut)
  else pure ()

/-! ## Dispatch -/

/-- What a completed read has left in the parser and the buffer. -/
inductive Report where
  | nothing
  | header (parser : ParserState)
  | body (body : Text) (isDone : Bool) (bufferSize : Nat)
  | block (isDone : Bool) (bufferSize : Nat)
  deriving DecidableEq, Repr

/-- An operation leaves behind only what it reads. -/
def Report.apply (op : ExchangeOp) (report : Report) (x : Exchange) : Exchange :=
  match op, report with
  | .readHeader, .header parser => { x with parser }
  | .readBody, .body text isDone bufferSize =>
      { x with parser := { x.parser with response := { x.parser.response with body := text },
                                         isDone, bufferSize } }
  | .readBlock, .block isDone bufferSize => { x with parser := { x.parser with isDone, bufferSize } }
  | _, _ => x

/-- The completion of an outstanding operation. -/
structure Completion where
  op : ExchangeOp
  error : Error := none
  report : Report := .nothing
  /-- the shared block after a block read -/
  bytes : Text := []
  /-- `body().size` after a block read: the rest of the block, which is still free -/
  leftover : Nat := 0
  deriving DecidableEq, Repr

namespace Completion

/-- The bytes that a block read has delivered. -/
def block (c : Completion) : Text := c.bytes.take (c.bytes.length - c.leftover)

/-- A block read that has filled its block or finds nothing more has not failed. -/
def delivers (c : Completion) : Bool :=
  c.op = .readBlock && (c.error = none || c.error = some .needBuffer)

/-- A block read for an exchange that still looks at it. -/
def note (c : Completion) (x : Exchange) : Exchange :=
  if c.delivers && !x.observed then x.record (.relay (.read c.block x.parser.isDone)) else x

/-- The operation is no longer outstanding, and what it read is there. -/
def receive (c : Completion) (x : Exchange) : Exchange :=
  c.note (c.report.apply c.op { x with ops := x.ops.erase c.op })

end Completion

def handler (k : Nat) (c : Completion) : GateAct E Unit :=
  match c.op with
  | .resolve => onResolve cb k c.error
  | .connect => onConnect cb k c.error
  | .handshake => onHandshake cb k c.error
  | .write => onWrite cb k c.error
  | .readHeader => onReadHeader cb lib scb k c.error
  | .readBody => onReadBody cb lib k c.error
  | .readBlock => onReadBlock cb scb k c.error c.block
  | .wait generation => onDeadline cb k generation c.error

/-- An operation completes only if it is outstanding. -/
def dispatch (k : Nat) (c : Completion) : GateAct E Unit := do
  let w ← get
  if c.op ∈ (w.exs k).ops then
    modify (World.setEx k c.receive)
    runHandler cb k (handler cb lib scb k c)
  else pure ()

end Ending

end Exchange

end ApiGate
