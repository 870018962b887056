import ApiGate.RateLimit
import ApiGate.ErrorCode

/-!
# Idle upstream connections

`UpstreamPool`: at most 32 idle connections with the time each expires, and one
cleanup timer for all of them. Whether a socket is still clean is asked at the
moment it is needed, so `take` gets the answers for all connections and `put`
the one for its own.
-/

namespace ApiGate

/-- `id` is the identity of the object. -/
structure UpstreamConnection where
  id : Nat
  backend : UpstreamConfig
  context : TlsContext
  deriving DecidableEq, Repr

def UpstreamConnection.matches (c : UpstreamConnection) (backend : UpstreamConfig)
    (context : TlsContext) : Bool :=
  c.backend.host = backend.host && c.backend.port = backend.port
    && c.backend.scheme = backend.scheme && c.context = context

structure IdleConnection where
  connection : UpstreamConnection
  deadline : TimePoint
  deriving DecidableEq, Repr

/-- 30 seconds. -/
def idleTimeout : TimePoint := 30000000000

structure UpstreamPool where
  idle : List (Option IdleConnection) := List.replicate 32 none
  timerPending : Bool := false
  stopped : Bool := false
  /-- the expiry times of the cleanup waits that are outstanding -/
  waits : List TimePoint := []
  deriving DecidableEq, Repr

namespace UpstreamPool

def expireEntry (now : TimePoint) : Option IdleConnection → Option IdleConnection
  | some slot => if slot.deadline ≤ now then none else some slot
  | none => none

def expire (p : UpstreamPool) (now : TimePoint) : UpstreamPool :=
  { p with idle := p.idle.map (expireEntry now) }

/-- The cancelled wait still completes. -/
def stop (p : UpstreamPool) : UpstreamPool :=
  if p.stopped then p else { p with stopped := true, idle := p.idle.map fun _ => none }

/-- The search through the entries: unclean matches are dropped on the way. -/
def takeFrom (clean : Nat → Bool) (backend : UpstreamConfig) (context : TlsContext) :
    List (Option IdleConnection) → Option UpstreamConnection × List (Option IdleConnection)
  | [] => (none, [])
  | none :: rest =>
      ((takeFrom clean backend context rest).1, none :: (takeFrom clean backend context rest).2)
  | some slot :: rest =>
      if slot.connection.matches backend context then
        if clean slot.connection.id then (some slot.connection, none :: rest)
        else
          ((takeFrom clean backend context rest).1,
            none :: (takeFrom clean backend context rest).2)
      else
        ((takeFrom clean backend context rest).1,
          some slot :: (takeFrom clean backend context rest).2)

def take (p : UpstreamPool) (clean : Nat → Bool) (backend : UpstreamConfig)
    (context : TlsContext) (now : TimePoint) : Option UpstreamConnection × UpstreamPool :=
  if p.stopped then (none, p)
  else
    let p := p.expire now
    ((takeFrom clean backend context p.idle).1,
      { p with idle := (takeFrom clean backend context p.idle).2 })

def earliestDeadline : List (Option IdleConnection) → Option TimePoint
  | [] => none
  | none :: rest => earliestDeadline rest
  | some slot :: rest =>
      match earliestDeadline rest with
      | none => some slot.deadline
      | some other => some (if other < slot.deadline then other else slot.deadline)

/-- `fails` says that setting or starting the timer throws. -/
def armCleanup (p : UpstreamPool) (fails : Bool) : Except Unit Unit × UpstreamPool :=
  if p.stopped || p.timerPending then (.ok (), p)
  else
    match earliestDeadline p.idle with
    | none => (.ok (), p)
    | some deadline =>
        if fails then (.error (), { p with timerPending := true })
        else (.ok (), { p with timerPending := true, waits := deadline :: p.waits })

def fillFirst (slot : IdleConnection) :
    List (Option IdleConnection) → Option (List (Option IdleConnection))
  | [] => none
  | none :: rest => some (some slot :: rest)
  | some other :: rest => (fillFirst slot rest).map (some other :: ·)

def saturatingDeadline (now : TimePoint) : TimePoint :=
  if now > Int64.maxValue - idleTimeout then Int64.maxValue else now + idleTimeout

/-- A connection that is not kept is closed by its destruction. -/
def put (p : UpstreamPool) (clean fails : Bool) (connection : UpstreamConnection)
    (now : TimePoint) : UpstreamPool :=
  if p.stopped || !clean then p
  else
    let p := p.expire now
    match fillFirst ⟨connection, saturatingDeadline now⟩ p.idle with
    | none => p
    | some idle =>
        match armCleanup { p with idle } fails with
        | (.ok _, p) => p
        | (.error _, p) => p.stop

/-- The handler of a cleanup wait. -/
def onCleanup (p : UpstreamPool) (error : Error) (fails : Bool) (now : TimePoint) :
    UpstreamPool :=
  if p.stopped then p
  else
    let p := { p with timerPending := false }
    if error.isSome then
      if error ≠ some .operationAborted then p.stop else p
    else
      match armCleanup (p.expire now) fails with
      | (.ok _, p) => p
      | (.error _, p) => p.stop

def idleCount (p : UpstreamPool) : Nat := p.idle.countP Option.isSome

end UpstreamPool

end ApiGate
