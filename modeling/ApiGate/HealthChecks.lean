import ApiGate.Health
import ApiGate.UpstreamPool

/-!
# Active health checks

`ProbeSchedule` picks the slot whose probe is due, `Probe` is one request to an
upstream, and `HealthChecks` (its `Impl`) keeps at most one probe for each slot,
records the results and sets a timer for the next one. `pump` may be entered
again from inside itself, when a probe is over before its `start` returns.

The loop of `pump` reads the clock at every turn; the readings are a list, and
a list that is too short stands for a loop that has not returned.
-/

namespace ApiGate

/-! ## The schedule -/

/-- `interval` in nanoseconds. -/
structure ProbeSlot where
  interval : Int64
  due : TimePoint
  inFlight : Bool := false
  deriving DecidableEq, Repr

structure ProbeSchedule where
  slots : List ProbeSlot := []
  cursor : Nat := 0
  active : Nat := 0
  stopped : Bool := false
  deriving DecidableEq, Repr

namespace ProbeSchedule

def maxInFlight : Nat := 4

/-- Milliseconds as nanoseconds of the clock. -/
def nanoseconds (intervalMs : Nat) : Int64 := Int64.ofNat (intervalMs * 1000000)

/-- The constructor, which throws on an interval out of range. -/
def make (intervalsMs : List Nat) (now : TimePoint) : Except Unit ProbeSchedule :=
  if intervalsMs.any fun interval => interval < 100 || interval > 60000 then .error ()
  else .ok { slots := intervalsMs.map fun interval => { interval := nanoseconds interval, due := now } }

def dueAfter (interval : Int64) (now : TimePoint) : TimePoint :=
  if now > Int64.maxValue - interval then Int64.maxValue else now + interval

/-- The rotation of `take_due`, with the visits that are left. -/
def takeDueFrom (now : TimePoint) : Nat → ProbeSchedule → Option Nat × ProbeSchedule
  | 0, s => (none, s)
  | visits + 1, s =>
      let index := s.cursor
      let s := { s with cursor := if s.cursor + 1 = s.slots.length then 0 else s.cursor + 1 }
      match s.slots[index]? with
      | some slot =>
          if !slot.inFlight && slot.due ≤ now then
            (some index,
              { s with
                slots := s.slots.set index
                  { slot with inFlight := true, due := dueAfter slot.interval now }
                active := s.active + 1 })
          else takeDueFrom now visits s
      | none => takeDueFrom now visits s

def takeDue (s : ProbeSchedule) (now : TimePoint) : Option Nat × ProbeSchedule :=
  if s.stopped || s.active = maxInFlight then (none, s)
  else takeDueFrom now s.slots.length s

/-- Throws where there is no such slot. -/
def complete (s : ProbeSchedule) (slot : Nat) : Except Unit ProbeSchedule :=
  match s.slots[slot]? with
  | none => .error ()
  | some entry =>
      if entry.inFlight then
        .ok { s with slots := s.slots.set slot { entry with inFlight := false },
                     active := s.active - 1 }
      else .ok s

/-- The earliest time among the slots that are not in flight. -/
def earliestDue : List ProbeSlot → Option TimePoint
  | [] => none
  | slot :: rest =>
      match earliestDue rest with
      | none => if slot.inFlight then none else some slot.due
      | some next => if slot.inFlight || next < slot.due then some next else some slot.due

def nextDue (s : ProbeSchedule) : Option TimePoint :=
  if s.stopped || s.active = maxInFlight then none else earliestDue s.slots

def stop (s : ProbeSchedule) : ProbeSchedule :=
  { s with
    stopped := true
    slots := s.slots.map fun slot => { slot with inFlight := false }
    active := 0 }

end ProbeSchedule

/-! ## A probe -/

structure ProbeTarget where
  route : Nat
  upstream : Nat
  backend : UpstreamConfig
  health : HealthCheckConfig
  deriving DecidableEq, Repr

inductive ProbeOp where
  | resolve
  | connect
  | handshake
  | write
  | readHeader
  deriving DecidableEq, Repr

/-- `deadline` and `op` are what the probe waits for. The completion function is there until the
probe is done. -/
structure Probe where
  slot : Nat
  tls : Bool
  done : Bool := false
  deadline : Bool := false
  op : Option ProbeOp := none
  deriving DecidableEq, Repr

/-- The handlers of a probe; `fails` says that starting the next operation throws. -/
inductive ProbeEvent where
  | deadline (error : Error)
  | resolved (error : Error) (fails : Bool)
  | connected (error : Error) (identity fails : Bool)
  | handshaken (error : Error) (fails : Bool)
  | written (error : Error) (fails : Bool)
  | headerRead (error : Error) (status : Nat)
  deriving DecidableEq, Repr

/-- What a handler comes to. -/
inductive ProbeStep where
  | wait
  | next (op : ProbeOp)
  | finish (success : Bool) (reason : String)
  deriving DecidableEq, Repr

namespace Probe

/-- The constructor; HTTPS requires validated trust. -/
def make (slot : Nat) (target : ProbeTarget) (context : TlsContext) : Except Unit Probe :=
  if target.backend.scheme = .https then
    if context.isNone then .error () else .ok { slot, tls := true }
  else .ok { slot, tls := false }

def cancel (p : Probe) : Probe := if p.done then p else { p with done := true }

/-- The operation that an event reports on; `none` is the deadline. -/
def reports : ProbeEvent → Option ProbeOp
  | .deadline _ => none
  | .resolved _ _ => some .resolve
  | .connected _ _ _ => some .connect
  | .handshaken _ _ => some .handshake
  | .written _ _ => some .write
  | .headerRead _ _ => some .readHeader

def startNext (fails : Bool) (op : ProbeOp) : ProbeStep :=
  if fails then .finish false "exception" else .next op

/-- The body of a handler, inside `guarded`. -/
def react (p : Probe) : ProbeEvent → ProbeStep
  | .deadline none => .finish false "timeout"
  | .deadline (some error) =>
      if error ≠ .operationAborted then .finish false "timer" else .wait
  | .resolved (some _) _ => .finish false "resolve"
  | .resolved none fails => startNext fails .connect
  | .connected (some _) _ _ => .finish false "connect"
  | .connected none identity fails =>
      if !p.tls then startNext fails .write
      else if !identity then .finish false "handshake"
      else startNext fails .handshake
  | .handshaken (some _) _ => .finish false "handshake"
  | .handshaken none fails => startNext fails .write
  | .written (some _) _ => .finish false "write"
  | .written none fails => startNext fails .readHeader
  | .headerRead (some _) _ => .finish false "read"
  | .headerRead none status => .finish (200 ≤ status && status ≤ 299) "status"

/-- The event is there to be handled. -/
def expects (p : Probe) (event : ProbeEvent) : Bool :=
  match reports event with
  | none => p.deadline
  | some op => p.op = some op

/-- The event is no longer outstanding. -/
def consume (p : Probe) (event : ProbeEvent) : Probe :=
  match reports event with
  | none => { p with deadline := false }
  | some _ => { p with op := none }

end Probe

/-! ## The manager -/

/-- What `Probe::start` comes to. -/
inductive ProbeStarted where
  | running
  | deadlineThrows
  | resolveThrows
  deriving DecidableEq, Repr

/-- One turn of the loop of `pump`. -/
structure PumpTurn where
  now : TimePoint
  makeFails : Bool := false
  started : ProbeStarted := .running
  deriving DecidableEq, Repr

/-- One call of `pump`; `armFails` says that setting the timer throws. -/
structure PumpInput where
  turns : List PumpTurn
  armFails : Bool := false
  deriving DecidableEq, Repr

structure ProbeStart where
  slot : Nat
  time : TimePoint
  probe : Nat
  deriving DecidableEq, Repr

structure ProbeRecord where
  probe : Nat
  route : Nat
  upstream : Nat
  success : Bool
  deriving DecidableEq, Repr

/-- `objects` are the probes that were ever made, `probes` has the ones that a slot holds, and
`timer` is when the wait that was started last is due. The last four fields are a log, newest
first: the probes that were started, the calls of `UpstreamHealthState::record`, how often
`on_failure_` was called, and how often `pump` returned after doing its work. -/
structure HealthChecks where
  targets : List ProbeTarget
  context : TlsContext
  state : UpstreamHealthState
  schedule : ProbeSchedule
  probes : List (Option Nat)
  objects : List Probe := []
  timer : Option TimePoint := none
  staleWaits : Nat := 0
  posted : Bool := false
  started : Bool := false
  stopped : Bool := false
  pumping : Bool := false
  starts : List ProbeStart := []
  records : List ProbeRecord := []
  failures : Nat := 0
  pumps : Nat := 0

namespace HealthChecks

def routeTargets (route : Nat) (settings : HealthCheckConfig) (upstreams : List UpstreamConfig) :
    List ProbeTarget :=
  upstreams.mapIdx fun upstream backend => ⟨route, upstream, backend, settings⟩

/-- The slots of the routes from the position `route` on that have a health check. -/
def targetsFrom (route : Nat) : List RouteConfig → List ProbeTarget
  | [] => []
  | entry :: rest =>
      match entry.healthCheck with
      | none => targetsFrom (route + 1) rest
      | some settings =>
          routeTargets route settings entry.upstreams ++ targetsFrom (route + 1) rest

/-- The constructor, with the health state of the same routes. -/
def make (config : AppConfig) (now : TimePoint) : Except Unit HealthChecks := do
  let targets := targetsFrom 0 config.routes
  let schedule ← ProbeSchedule.make (targets.map (·.health.intervalMs)) now
  pure
    { targets
      context := config.upstreamTlsContext
      state := UpstreamHealthState.make config.routes
      schedule
      probes := List.replicate targets.length none }

def start (s : HealthChecks) : HealthChecks :=
  if s.started || s.stopped || s.targets.isEmpty then s
  else { s with started := true, posted := true }

/-- A cancelled wait still completes. -/
def cancelTimer (s : HealthChecks) : HealthChecks :=
  match s.timer with
  | none => s
  | some _ => { s with timer := none, staleWaits := s.staleWaits + 1 }

/-- The probe that a slot holds is cancelled. -/
def cancelHeld (s : HealthChecks) : List Probe :=
  s.objects.mapIdx fun id p => if some id ∈ s.probes then p.cancel else p

def stop (s : HealthChecks) : HealthChecks :=
  if s.stopped then s
  else
    let s := cancelTimer { s with stopped := true, schedule := s.schedule.stop }
    { s with objects := s.cancelHeld, probes := s.probes.map fun _ => none }

def failed (s : HealthChecks) : HealthChecks :=
  if s.stopped then s else { s.stop with failures := s.failures + 1 }

/-- The `try` block of `completed` up to its call of `pump`; false says that it threw. -/
def recordResult (s : HealthChecks) (id index : Nat) (success : Bool) : HealthChecks × Bool :=
  match s.schedule.complete index with
  | .error _ => (s, false)
  | .ok schedule =>
      let s := { s with schedule, probes := s.probes.set index none }
      match s.targets[index]? with
      | none => (s, false)
      | some target =>
          if (s.state.available target.route target.upstream).isNone then (s, false)
          else
            ({ s with
                state := (s.state.record target.route target.upstream success).2
                records := ⟨id, target.route, target.upstream, success⟩ :: s.records },
              true)

/-- `again` is the call of `pump` at the end. -/
def completed (again : HealthChecks → Option HealthChecks) (s : HealthChecks) (id index : Nat)
    (success : Bool) : Option HealthChecks :=
  if s.stopped then some s
  else
    let result := s.recordResult id index success
    if result.2 then again result.1 else some result.1.failed

def setProbe (s : HealthChecks) (id : Nat) (p : Probe) : HealthChecks :=
  { s with objects := s.objects.set id p }

/-- `Probe::finish`. -/
def finish (again : HealthChecks → Option HealthChecks) (s : HealthChecks) (id : Nat) (p : Probe)
    (success : Bool) : Option HealthChecks :=
  if p.done then some s
  else completed again (s.setProbe id { p with done := true }) id p.slot success

/-- `Probe::start`, from inside `pump`: the `pump` that a completion calls then returns at once. -/
def startProbe (s : HealthChecks) (id : Nat) (p : Probe) : ProbeStarted → Option HealthChecks
  | .running => some (s.setProbe id { p with deadline := true, op := some .resolve })
  | .deadlineThrows => finish some s id p false
  | .resolveThrows =>
      finish some (s.setProbe id { p with deadline := true }) id { p with deadline := true } false

/-- The new probe is made and put into its slot. -/
def makeProbe (s : HealthChecks) (slot : Nat) (turn : PumpTurn) :
    Except Unit (Nat × Probe × HealthChecks) :=
  match s.targets[slot]? with
  | none => .error ()
  | some target =>
      if turn.makeFails then .error ()
      else do
        let p ← Probe.make slot target s.context
        let id := s.objects.length
        pure (id, p,
          { s with
            objects := s.objects ++ [p]
            probes := s.probes.set slot (some id)
            starts := ⟨slot, turn.now, id⟩ :: s.starts })

/-- The loop of `pump`; false says that it threw, `none` that it is still going on. -/
def pumpLoop : List PumpTurn → HealthChecks → Option (HealthChecks × Bool)
  | [], _ => none
  | turn :: rest, s =>
      let due := s.schedule.takeDue turn.now
      let s := { s with schedule := due.2 }
      match due.1 with
      | none => some (s, true)
      | some slot =>
          match s.makeProbe slot turn with
          | .error _ => some (s, false)
          | .ok (id, p, s) => (s.startProbe id p turn.started).bind (pumpLoop rest)

/-- `timer_.expires_at` cancels the wait there was. -/
def armTimer (s : HealthChecks) (due : TimePoint) : HealthChecks :=
  { s.cancelTimer with timer := some due }

def pump (input : PumpInput) (s : HealthChecks) : Option HealthChecks :=
  if s.stopped || s.pumping then some s
  else do
    let (s, ok) ← pumpLoop input.turns { s with pumping := true }
    let s := if !ok then s.failed
      else
        match s.schedule.nextDue with
        | none => s
        | some due => if input.armFails then s.failed else s.armTimer due
    pure { s with pumping := false, pumps := s.pumps + 1 }

/-- A handler of a probe: `guarded` around its body. -/
def onProbe (input : PumpInput) (s : HealthChecks) (id : Nat) (event : ProbeEvent) :
    Option HealthChecks :=
  match s.objects[id]? with
  | none => some s
  | some p =>
      if !p.expects event then some s
      else
        let p := p.consume event
        let s := s.setProbe id p
        if p.done then some s
        else
          match p.react event with
          | .wait => some s
          | .next op => some (s.setProbe id { p with op := some op })
          | .finish success _ => finish (pump input) s id p success

/-- The handler of a wait of the timer; a stale one was cancelled, or was on its way already. -/
def onTimer (input : PumpInput) (s : HealthChecks) (error : Error) : Option HealthChecks :=
  match error with
  | none => pump input s
  | some error => some (if error ≠ .operationAborted then s.failed else s)

inductive Event where
  | start
  | stop
  | posted (input : PumpInput)
  | timer (error : Error) (input : PumpInput)
  | staleTimer (error : Error) (input : PumpInput)
  | probe (id : Nat) (event : ProbeEvent) (input : PumpInput)

/-- `none` is a call that has not returned. -/
def handle (s : HealthChecks) : Event → Option HealthChecks
  | .start => some s.start
  | .stop => some s.stop
  | .posted input => if s.posted then pump input { s with posted := false } else some s
  | .timer error input =>
      if s.timer.isSome then onTimer input { s with timer := none } error else some s
  | .staleTimer error input =>
      if s.staleWaits > 0 then onTimer input { s with staleWaits := s.staleWaits - 1 } error
      else some s
  | .probe id event input => s.onProbe input id event

def after (s : HealthChecks) (events : List Event) : Option HealthChecks := events.foldlM handle s

end HealthChecks

end ApiGate
