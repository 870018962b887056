import Mathlib.Tactic.Tauto
import ApiGate.ErrorCode

/-!
# The one-shot states of the server

The small classes that `HttpServer` and `Application` consult before they act:
the drain phase with its session count (`DrainState`), the accept back-pressure
(`AcceptCapacityState`), the signal state of the application
(`ShutdownSignalState`), and the classification of completed timers and writes.
Each method is a function of the state before it.
-/

namespace ApiGate

/-! ## Classification of completions -/

inductive HttpWriteDisposition where
  | success
  | expectedCancellation
  | clientDisconnected
  | unexpectedError
  deriving DecidableEq, Repr

def classifyHttpWriteResult (error : Error) (stopping : Bool) : HttpWriteDisposition :=
  if stopping || error = some .operationAborted then .expectedCancellation
  else
    match error with
    | none => .success
    | some .brokenPipe | some .connectionAborted | some .connectionReset | some .eof =>
        .clientDisconnected
    | some _ => .unexpectedError

inductive AcceptRetryDisposition where
  | retry
  | stopped
  | fatal
  deriving DecidableEq, Repr

def classifyAcceptRetryCompletion (error : Error) (stopping : Bool) : AcceptRetryDisposition :=
  if stopping then .stopped
  else if error.isSome then .fatal
  else .retry

inductive ServerDrainPhase where
  | running
  | draining
  | forceStopping
  | completed
  deriving DecidableEq, Repr

inductive DrainTimerDisposition where
  | ignored
  | timedOut
  | fatal
  deriving DecidableEq, Repr

def classifyDrainTimerCompletion (error : Error) (phase : ServerDrainPhase) :
    DrainTimerDisposition :=
  if phase ≠ .draining then .ignored
  else if error.isNone then .timedOut
  else .fatal

inductive SessionPhase where
  | handshaking
  | reading
  | proxying
  | writing
  | closing
  | finished
  deriving DecidableEq, Repr

inductive SessionDrainDisposition where
  | closeImmediately
  | waitForCurrent
  | ignored
  deriving DecidableEq, Repr

def classifySessionDrain : SessionPhase → SessionDrainDisposition
  | .handshaking | .reading => .closeImmediately
  | .proxying | .writing | .closing => .waitForCurrent
  | .finished => .ignored

/-! ## The drain phase -/

inductive DrainStartResult where
  | unchanged
  | started
  | completed
  deriving DecidableEq, Repr

structure DrainState where
  phase : ServerDrainPhase := .running
  activeSessions : Nat := 0
  deriving DecidableEq, Repr

namespace DrainState

def sessionStarted (d : DrainState) : DrainState :=
  if d.phase = .running then { d with activeSessions := d.activeSessions + 1 } else d

def sessionFinished (d : DrainState) : Bool × DrainState :=
  if d.activeSessions = 0 then (false, d)
  else if d.activeSessions - 1 = 0 ∧ (d.phase = .draining ∨ d.phase = .forceStopping) then
    (true, { phase := .completed, activeSessions := d.activeSessions - 1 })
  else (false, { d with activeSessions := d.activeSessions - 1 })

def transitionTo (d : DrainState) (phase : ServerDrainPhase) : DrainStartResult × DrainState :=
  if d.activeSessions = 0 then (.completed, { d with phase := .completed })
  else (.started, { d with phase := phase })

def beginDrain (d : DrainState) : DrainStartResult × DrainState :=
  if d.phase ≠ .running then (.unchanged, d) else d.transitionTo .draining

def beginForceStop (d : DrainState) : DrainStartResult × DrainState :=
  if d.phase = .forceStopping ∨ d.phase = .completed then (.unchanged, d)
  else d.transitionTo .forceStopping

end DrainState

/-! ## Accept back-pressure -/

inductive AcceptCapacityAction where
  | none
  | startAccept
  | pause
  | resumeAndStart
  deriving DecidableEq, Repr

structure AcceptCapacityState where
  maxConnections : Nat
  activeConnections : Nat := 0
  acceptPending : Bool := false
  retryPending : Bool := false
  paused : Bool := false
  stopped : Bool := false
  deriving DecidableEq, Repr

namespace AcceptCapacityState

def nextAction (c : AcceptCapacityState) : AcceptCapacityAction × AcceptCapacityState :=
  if c.stopped || c.acceptPending || c.retryPending then (.none, c)
  else if c.activeConnections ≥ c.maxConnections then
    if c.paused then (.none, c) else (.pause, { c with paused := true })
  else if c.paused then
    (.resumeAndStart, { c with acceptPending := true, paused := false })
  else (.startAccept, { c with acceptPending := true })

/-- `next_action` starts an accept, and marks it pending, exactly when nothing is
pending and there is room. -/
theorem nextAction_cases (c : AcceptCapacityState) :
    (∃ a b, (a = .none ∨ a = .pause) ∧ c.nextAction = (a, { c with paused := b })
      ∧ (c.stopped = true ∨ c.acceptPending = true ∨ c.retryPending = true
        ∨ c.maxConnections ≤ c.activeConnections))
    ∨ (∃ a, (a = .resumeAndStart ∨ a = .startAccept)
      ∧ c.nextAction = (a, { c with acceptPending := true, paused := false })
      ∧ c.acceptPending = false ∧ c.retryPending = false
      ∧ c.activeConnections < c.maxConnections) := by
  unfold nextAction
  split
  · rename_i hbusy
    simp only [Bool.or_eq_true] at hbusy
    exact Or.inl ⟨.none, c.paused, Or.inl rfl, rfl, by tauto⟩
  · rename_i hfree
    simp only [Bool.or_eq_true, not_or, Bool.not_eq_true] at hfree
    split
    · rename_i hfull
      refine Or.inl ?_
      split
      · exact ⟨.none, c.paused, Or.inl rfl, rfl, Or.inr (Or.inr (Or.inr hfull))⟩
      · exact ⟨.pause, true, Or.inr rfl, rfl, Or.inr (Or.inr (Or.inr hfull))⟩
    · rename_i hroom
      refine Or.inr ?_
      split
      · exact ⟨_, Or.inl rfl, rfl, hfree.1.2, hfree.2, by omega⟩
      · rename_i hpaused
        have hp : c.paused = false := by simpa using hpaused
        exact ⟨_, Or.inr rfl, by rw [← hp], hfree.1.2, hfree.2, by omega⟩

def acceptCompleted (c : AcceptCapacityState) : AcceptCapacityState :=
  { c with acceptPending := false }

def retryScheduled (c : AcceptCapacityState) : AcceptCapacityState :=
  { c with retryPending := true }

def retryCompleted (c : AcceptCapacityState) : AcceptCapacityState :=
  { c with retryPending := false }

def sessionStarted (c : AcceptCapacityState) : AcceptCapacityState :=
  { c with activeConnections := c.activeConnections + 1 }

def sessionFinished (c : AcceptCapacityState) : AcceptCapacityState :=
  if c.activeConnections > 0 then { c with activeConnections := c.activeConnections - 1 } else c

def stop (c : AcceptCapacityState) : AcceptCapacityState := { c with stopped := true }

end AcceptCapacityState

/-! ## Shutdown signals -/

inductive ShutdownSignalDisposition where
  | beginDrain
  | forceStop
  | ignored
  | fatal
  deriving DecidableEq, Repr

structure ShutdownSignalState where
  draining : Bool := false
  forceRequested : Bool := false
  completed : Bool := false
  deriving DecidableEq, Repr

namespace ShutdownSignalState

def onWaitCompletion (s : ShutdownSignalState) (error : Error) :
    ShutdownSignalDisposition × ShutdownSignalState :=
  match error with
  | some code =>
      if s.completed && code = .operationAborted then (.ignored, s) else (.fatal, s)
  | none =>
      if s.completed || s.forceRequested then (.ignored, s)
      else if !s.draining then (.beginDrain, { s with draining := true })
      else (.forceStop, { s with forceRequested := true })

def markCompleted (s : ShutdownSignalState) : ShutdownSignalState :=
  { s with completed := true }

end ShutdownSignalState

end ApiGate
