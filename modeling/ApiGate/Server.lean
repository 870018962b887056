import ApiGate.ServerState
import ApiGate.EventLoop.Act
import ApiGate.EventLoop.Run

/-!
# The server and the application around it

`HttpServer::Impl` with the `Application::Impl` that owns it, as handlers over
one state. A session is here what the server can see of it: that it exists,
whether it was told to drain, and that it calls `remove_session` at the moment
it finishes. It may finish in a handler of its own at any time, and also inside
the server's calls: `stop()` always finishes a session that is not finished,
`begin_drain()` finishes one that is reading, and `start()` may finish it too.
These calls re-enter the server while it is in the middle of `on_accept`,
`begin_drain_impl` or `stop_all_sessions`.

The re-entry makes `stop()` recursive: stopping the last session completes a
drain, the completion calls the application, and the application may call
`stop()` again. The handlers therefore take the inner `stop()` as an argument
and `stop` ties the knot at depth two; `outOfFuel` would record a deeper call.

Besides the fields of the source the state counts the asynchronous operations
that are outstanding and the accepts that were ever started, and `notes` records, latest first, the moments the
results speak about. `loopHeads` records what the loop of `stop_all_sessions`
finds each time it evaluates its condition.
-/

namespace ApiGate

open EventLoop

/-- Where the server's handlers may throw, and what a session decides. -/
inductive ServerSite where
  /-- `acceptor_.async_accept` throws -/
  | acceptInit
  /-- logging a failed accept throws -/
  | acceptLog
  /-- setting or starting the accept-retry timer throws -/
  | retryInit
  /-- constructing or inserting the session throws -/
  | sessionMake
  /-- `session->start()` throws -/
  | sessionStart
  /-- the session finishes inside `start()` -/
  | sessionFinishes
  /-- the session is in a phase that `begin_drain()` closes at once -/
  | drainCloses
  /-- copying the session set throws -/
  | snapshot
  /-- setting or starting the drain timer throws -/
  | drainTimerInit
  /-- opening the listener throws -/
  | listen
  /-- starting the health checks throws -/
  | healthStart
  /-- `signals_.async_wait` throws -/
  | signalInit
  /-- `signals_.cancel()` throws -/
  | signalCancel
  deriving DecidableEq, Repr

inductive ServerNote where
  | drainBegun
  /-- `stop()` was called -/
  | stopped
  /-- `fail_runtime` won its claim -/
  | runtimeFailure
  | forcedBySignal
  | forcedByTimeout
  /-- `fail_signal_wait` ran -/
  | signalWaitFailed
  /-- `on_drain_complete_` was called, in this phase with this many sessions -/
  | drainComplete (phase : ServerDrainPhase) (activeSessions : Nat)
  deriving DecidableEq, Repr

/-- The sessions of the server at the head of the loop of `stop_all_sessions`. -/
structure LoopHead where
  sessions : List Nat
  finished : Nat → Bool
  /-- sessions created so far -/
  created : Nat
  activeConnections : Nat
  activeSessions : Nat

structure ServerState where
  acceptCapacity : AcceptCapacityState
  drainState : DrainState := {}
  /-- `runtime_failure_state_` is claimed -/
  runtimeFailureClaimed : Bool := false
  /-- `sessions_`, in the order of the set -/
  sessions : List Nat := []
  acceptorOpen : Bool := false
  poolStopped : Bool := false
  healthChecksStopped : Bool := false
  started : Bool := false
  listenerStopLogged : Bool := false
  drainCompletionEnabled : Bool := false
  drainCallbackClaimed : Bool := false
  drainForced : Bool := false
  /-- sessions created so far; ids are handed out in order -/
  nextSession : Nat := 0
  sessionFinished : Nat → Bool := fun _ => false
  sessionDraining : Nat → Bool := fun _ => false
  /-- `exit_code_` is `EXIT_FAILURE` -/
  exitFailure : Bool := false
  shutdownSignal : ShutdownSignalState := {}
  ioStopped : Bool := false
  acceptOps : Nat := 0
  /-- calls of `async_accept` so far -/
  acceptsStarted : Nat := 0
  retryWaits : Nat := 0
  drainWaits : Nat := 0
  signalWaits : Nat := 0
  notes : List ServerNote := []
  /-- the evaluations of `!sessions_.empty()`, latest first -/
  loopHeads : List LoopHead := []
  outOfFuel : Bool := false

abbrev ServerAct := Act ServerSite ServerState

namespace ServerState

def note (n : ServerNote) (s : ServerState) : ServerState := { s with notes := n :: s.notes }

def phase (s : ServerState) : ServerDrainPhase := s.drainState.phase

def loopHead (s : ServerState) : LoopHead :=
  { sessions := s.sessions, finished := s.sessionFinished, created := s.nextSession,
    activeConnections := s.acceptCapacity.activeConnections,
    activeSessions := s.drainState.activeSessions }

def atLoopHead (s : ServerState) : ServerState :=
  { s with loopHeads := s.loopHead :: s.loopHeads }

/-- The first lines of `HttpSession::finish()`. -/
def finish (i : Nat) (s : ServerState) : ServerState :=
  { s with sessionFinished := Function.update s.sessionFinished i true }

/-- `stop_accepting()`: pending accept and retry operations are cancelled, and
complete later. -/
def stopAccepting (s : ServerState) : ServerState :=
  { s with poolStopped := true, healthChecksStopped := true,
           acceptCapacity := s.acceptCapacity.stop, acceptorOpen := false,
           listenerStopLogged := s.started || s.listenerStopLogged }

end ServerState

namespace Server

open Act ServerState

/-! ## Accepting -/

def driveAccept : ServerAct Unit := do
  let s ← get
  if s.phase ≠ .running then pure ()
  else
    modify fun s => { s with acceptCapacity := s.acceptCapacity.nextAction.2 }
    match s.acceptCapacity.nextAction.1 with
    | .none | .pause => pure ()
    | .resumeAndStart | .startAccept =>
        mayThrow .acceptInit
        modify fun s => { s with acceptOps := s.acceptOps + 1,
                                 acceptsStarted := s.acceptsStarted + 1 }

/-! ## Failure and completion

`stopServer` is the inner call of `HttpServer::stop()`. -/

section Reentrant

variable (stopServer : ServerAct Unit)

/-- `Application::on_runtime_failure` -/
def onRuntimeFailure : ServerAct Unit :=
  modify fun s => { s with shutdownSignal := s.shutdownSignal.markCompleted,
                           exitFailure := true, ioStopped := true }

def failRuntime : ServerAct Unit := do
  let s ← get
  if s.runtimeFailureClaimed then pure ()
  else
    modify fun s => note .runtimeFailure { s with runtimeFailureClaimed := true }
    stopServer
    onRuntimeFailure

/-- `Application::fail_signal_wait` -/
def failSignalWait : ServerAct Unit := do
  modify fun s => note .signalWaitFailed
    { s with shutdownSignal := s.shutdownSignal.markCompleted, exitFailure := true }
  stopServer
  modify fun s => { s with ioStopped := true }

/-- `Application::on_drain_complete` -/
def onDrainComplete : ServerAct Unit := do
  modify fun s => { s with shutdownSignal := s.shutdownSignal.markCompleted }
  try mayThrow .signalCancel
  catch _ => failSignalWait stopServer

def finishDrain : ServerAct Unit := do
  let s ← get
  if s.drainCallbackClaimed || !s.drainCompletionEnabled then pure ()
  else
    modify fun s => note (.drainComplete s.phase s.drainState.activeSessions)
      { s with drainCallbackClaimed := true }
    try onDrainComplete stopServer
    catch _ => failRuntime stopServer

/-! ## Sessions -/

def removeSession (i : Nat) : ServerAct Unit := do
  let s ← get
  if i ∈ s.sessions then
    modify fun s => { s with sessions := s.sessions.erase i,
                             acceptCapacity := s.acceptCapacity.sessionFinished,
                             drainState := s.drainState.sessionFinished.2 }
    if s.drainState.sessionFinished.1 then
      if s.drainCompletionEnabled then finishDrain stopServer else pure ()
    else
      try driveAccept
      catch _ => failRuntime stopServer
  else pure ()

/-- `HttpSession::stop()`, as far as the server sees it. -/
def sessionStop (i : Nat) : ServerAct Unit := do
  let s ← get
  if s.sessionFinished i then pure ()
  else
    modify (finish i)
    removeSession stopServer i

/-- `HttpSession::begin_drain()`, as far as the server sees it. -/
def sessionBeginDrain (i : Nat) : ServerAct Unit := do
  let s ← get
  if s.sessionDraining i || s.sessionFinished i then pure ()
  else
    modify fun s => { s with sessionDraining := Function.update s.sessionDraining i true }
    if ← ask .drainCloses then sessionStop stopServer i else pure ()

/-- `while (!sessions_.empty())`; `fuel` bounds the iterations. -/
def stopAllSessions : Nat → ServerAct Unit
  | 0 => modify fun s => atLoopHead { s with outOfFuel := s.outOfFuel || !s.sessions.isEmpty }
  | fuel + 1 => do
      modify atLoopHead
      let s ← get
      match s.sessions with
      | [] => pure ()
      | i :: _ =>
          sessionStop stopServer i
          stopAllSessions fuel

def stopBody : ServerAct Unit := do
  modify fun s => note .stopped { s with drainCompletionEnabled := false }
  let s ← get
  modify fun s => { s with drainState := s.drainState.beginForceStop.2 }
  if s.drainState.beginForceStop.1 = .unchanged then pure ()
  else
    modify stopAccepting
    stopAllSessions stopServer s.sessions.length

end Reentrant

/-- `HttpServer::stop()` with calls of itself nested to the given depth. -/
def stopAt : Nat → ServerAct Unit
  | 0 => modify fun s => { s with outOfFuel := true }
  | depth + 1 => stopBody (stopAt depth)

def stop : ServerAct Unit := stopAt 2

/-! ## Draining -/

def beginDrainSessions : List Nat → ServerAct Unit
  | [] => pure ()
  | i :: rest => do
      sessionBeginDrain stop i
      beginDrainSessions rest

def beginDrainImpl : ServerAct Unit := do
  let s ← get
  if s.drainState.beginDrain.1 = .unchanged then pure ()
  else
    modify fun s => stopAccepting <| note .drainBegun
      { s with drainState := s.drainState.beginDrain.2, drainCompletionEnabled := true }
    if s.drainState.beginDrain.1 = .completed then finishDrain stop
    else
      mayThrow .snapshot
      beginDrainSessions s.sessions
      let s ← get
      if s.phase ≠ .draining then pure ()
      else
        mayThrow .drainTimerInit
        modify fun s => { s with drainWaits := s.drainWaits + 1 }

def beginDrain : ServerAct Unit := do
  try beginDrainImpl
  catch _ => failRuntime stop

/-- What `force_stop_drain` and `force_stop_after_timeout` share: `why` is the
event each of them logs. -/
def forceStop (why : ServerNote) : ServerAct Unit := do
  let s ← get
  if s.drainState.beginForceStop.1 = .unchanged then pure ()
  else
    modify fun s => stopAccepting <| note why
      { s with drainState := s.drainState.beginForceStop.2, drainForced := true }
    stopAllSessions stop s.sessions.length
    if s.drainState.beginForceStop.1 = .completed then finishDrain stop else pure ()

def forceStopDrain : ServerAct Unit := do
  let s ← get
  if s.phase ≠ .draining then pure () else forceStop .forcedBySignal

def forceStopAfterTimeout : ServerAct Unit := forceStop .forcedByTimeout

def onDrainTimer (error : Error) : ServerAct Unit := do
  let s ← get
  match classifyDrainTimerCompletion error s.phase with
  | .ignored => pure ()
  | .timedOut => forceStopAfterTimeout
  | .fatal => failRuntime stop

/-! ## Accept completions -/

/-- The order of `sessions_` is that of the objects' addresses: a new session
goes to any position. -/
def insertAt (position : Nat) (i : Nat) (l : List Nat) : List Nat :=
  l.take position ++ i :: l.drop position

/-- `session->start()`, as far as the server sees it. -/
def sessionStart (i : Nat) : ServerAct Unit := do
  mayThrow .sessionStart
  if ← ask .sessionFinishes then sessionStop stop i else pure ()

def onAccept (error : Error) (position : Nat) : ServerAct Unit := do
  modify fun s => { s with acceptCapacity := s.acceptCapacity.acceptCompleted }
  let s ← get
  if s.phase ≠ .running then pure ()
  else if error.isSome then
    mayThrow .acceptLog
    modify fun s => { s with acceptCapacity := s.acceptCapacity.retryScheduled }
    mayThrow .retryInit
    modify fun s => { s with retryWaits := s.retryWaits + 1 }
  else
    mayThrow .sessionMake
    modify fun s =>
      { s with sessions := insertAt position s.nextSession s.sessions,
               nextSession := s.nextSession + 1,
               acceptCapacity := s.acceptCapacity.sessionStarted,
               drainState := s.drainState.sessionStarted }
    sessionStart s.nextSession
    driveAccept

def onAcceptRetryTimer (error : Error) : ServerAct Unit := do
  modify fun s => { s with acceptCapacity := s.acceptCapacity.retryCompleted }
  let s ← get
  match classifyAcceptRetryCompletion error (s.phase ≠ .running) with
  | .retry =>
      try driveAccept
      catch _ => failRuntime stop
  | .stopped => pure ()
  | .fatal => failRuntime stop

/-! ## Signals -/

/-- `arm_signal_wait()`; the result says whether the wait was started. -/
def armSignalWait : ServerAct Bool := do
  try
    mayThrow .signalInit
    modify fun s => { s with signalWaits := s.signalWaits + 1 }
    pure true
  catch _ =>
    failSignalWait stop
    pure false

def onSignal (error : Error) : ServerAct Unit := do
  let s ← get
  modify fun s => { s with shutdownSignal := (s.shutdownSignal.onWaitCompletion error).2 }
  match (s.shutdownSignal.onWaitCompletion error).1 with
  | .beginDrain =>
      if ← armSignalWait then beginDrain else pure ()
  | .forceStop => forceStopDrain
  | .ignored => pure ()
  | .fatal => failSignalWait stop

/-! ## Starting, and the event loop -/

/-- `HttpServer::start()` -/
def start : ServerAct Unit := do
  mayThrow .listen
  modify fun s => { s with acceptorOpen := true, started := true }
  driveAccept
  mayThrow .healthStart

/-- `Application::run()` up to the event loop: `none` when `start()` throws, so
that no event loop runs. When the first signal wait cannot be started the
server is stopped again and the state is the one `run()` returns in. -/
def launch (maxConnections : Nat) (o : Oracle ServerSite) : Option ServerState :=
  match (do start; let _ ← armSignalWait; pure () : ServerAct Unit) o
      { acceptCapacity := { maxConnections } } with
  | (.ok _, _, s) => some s
  | (.error _, _, _) => none

inductive ServerEvent where
  | accept (error : Error) (position : Nat)
  | acceptRetry (error : Error)
  /-- session `i` finishes in one of its own handlers -/
  | sessionFinish (i : Nat)
  | drainTimer (error : Error)
  | signal (error : Error)
  /-- the health checks report that their scheduler failed -/
  | healthFailure
  /-- `HttpServer::stop()`, called by the destructor -/
  | stop
  deriving DecidableEq, Repr

/-- The handler of an event. An operation completes only if it is outstanding;
a session finishes only once. -/
def handle : ServerEvent → ServerAct Unit
  | .accept error position => do
      let s ← get
      if s.acceptOps = 0 then pure ()
      else
        modify fun s => { s with acceptOps := s.acceptOps - 1 }
        try onAccept error position
        catch _ => failRuntime Server.stop
  | .acceptRetry error => do
      let s ← get
      if s.retryWaits = 0 then pure ()
      else
        modify fun s => { s with retryWaits := s.retryWaits - 1 }
        onAcceptRetryTimer error
  | .sessionFinish i => do
      let s ← get
      if i < s.nextSession then sessionStop Server.stop i else pure ()
  | .drainTimer error => do
      let s ← get
      if s.drainWaits = 0 then pure ()
      else
        modify fun s => { s with drainWaits := s.drainWaits - 1 }
        onDrainTimer error
  | .signal error => do
      let s ← get
      if s.signalWaits = 0 then pure ()
      else
        modify fun s => { s with signalWaits := s.signalWaits - 1 }
        onSignal error
  | .healthFailure => do
      let s ← get
      if s.healthChecksStopped then pure ()
      else
        modify fun s => { s with healthChecksStopped := true }
        failRuntime Server.stop
  | .stop => Server.stop

/-- One event with the answers its handler gets. -/
def step (e : ServerEvent × Oracle ServerSite) (s : ServerState) : ServerState :=
  exec (handle e.1) e.2 s

end Server

end ApiGate
