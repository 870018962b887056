import Mathlib.Logic.Relation
import ApiGate.Gateway

/-!
# The moves of a session

The results about requests look at a few things only: the phase and the flags
of a session, the observation of its current request, what it has logged, and
the token buckets, positions and counters that all sessions share. `Outline` is that part
of a world, and `Outline.Move` says once and for all what the handlers of a
session can do to it. A handler is a sequence of moves (`SessionMoves`), so a
property of the moves is a property of every run.

Two parameters weaken what a move promises. Where `lenient` holds, a response
may ignore the bound on the requests of a connection; where `lossy` holds, a
request may be counted as answered although its head was never handed over.
-/

namespace ApiGate

open EventLoop Act

/-- `headers` and `bodies` count the reads that are outstanding; `reuse` says that
a response is being written after which the connection stays. `positions` are the
stored positions of the routes, and `sizes` says how many slots each has. -/
structure Outline where
  limits : RouteRateLimits
  positions : List Nat
  sizes : List Nat
  checks : List RateCheck
  metrics : Option Metrics
  now : TimePoint
  started : Bool
  phase : SessionPhase
  draining : Bool
  stopping : Bool
  finished : Bool
  target : Option Text
  busy : Bool
  served : Nat
  observation : RequestObservation
  headers : Nat
  bodies : Nat
  reuse : Bool
  streamClose : Bool
  log : List Note

namespace Session

def outline (w : World Session) : Outline where
  limits := w.shared.admission.rateLimits
  positions := w.shared.admission.nextUpstream
  sizes := w.shared.admission.health.sizes
  checks := w.shared.checks
  metrics := w.shared.metrics
  now := w.shared.now
  started := w.env.started
  phase := w.env.phase
  draining := w.env.draining
  stopping := w.env.stopping
  finished := w.env.finished
  target := w.env.parser.map fun p => p.request.target
  busy := w.env.proxyExchange.isSome
  served := w.env.requestsServed
  observation := w.env.observation
  headers := w.env.ops.count .readHeader
  bodies := w.env.ops.count .readBody
  reuse := w.env.ops.contains (.write false)
  streamClose := w.env.streamClose
  log := w.env.log

end Session

namespace Outline

/-! ## Effects -/

/-- `observation_.finish` -/
def finish (status : Nat) (now : TimePoint) (f : Outline) : Outline :=
  { f with
    observation := (f.observation.finish f.metrics status now).2.1
    metrics := (f.observation.finish f.metrics status now).2.2
    log := Session.counted (f.observation.finishCounts f.metrics status now) ++ f.log }

/-- `observation_.reject`, `fail` and `fail_stream` -/
def call (c : ObservationCall) (f : Outline) : Outline :=
  { f with
    observation := (c.apply f.observation f.metrics).1
    metrics := (c.apply f.observation f.metrics).2
    log := Session.counted (c.counts f.observation f.metrics) ++ f.log }

/-- The session is over. -/
def shutDown (stopping : Bool) (f : Outline) : Outline :=
  { f with stopping, finished := true, phase := .finished, busy := false }

/-- The rate limit of `route` is checked for `request`. -/
def check (request : HttpRequest) (route : SelectedRoute) (f : Outline) : Outline :=
  { f with
    limits := (f.limits.check route.routeIndex f.now).2
    checks := ⟨request, route, f.now, (f.limits.check route.routeIndex f.now).1⟩ :: f.checks }

/-- An admission for `route` moves the position of this route at most, to one of its slots. -/
def Turned (route : SelectedRoute) (positions positions' : List Nat) : Prop :=
  positions' = positions ∨ ∃ r slot, route.routeIndex = some r ∧ slot < route.upstreams.length
    ∧ positions' = positions.set r slot

/-- A request is being worked on that has no answer yet. -/
structure Pending (f : Outline) : Prop where
  unfinished : f.finished = false
  unstopped : f.stopping = false
  noHeader : f.headers = 0
  noBody : f.bodies = 0
  noWrite : f.reuse = false
  unanswered : f.observation.completed = false

/-- What a response head owes to the drain and to the bound on the requests. -/
structure Polite (lenient : Prop) (f : Outline) (response : HttpResponse) : Prop where
  drain : f.draining = true → response.keepAlive = false
  cap : lenient ∨ f.served < maxRequestsPerConnection ∨ response.keepAlive = false

/-- A request is being read, or was read and not dispatched yet. -/
structure Reading (g : Setup) (lenient : Prop) (f : Outline) : Prop where
  phase : f.phase = .reading
  quiet : f.draining = false
  target : ∃ target, f.target = some target
    ∧ f.observation.excluded = isMetricsTarget g.config target
  unfailed : f.observation.failed = false
  fresh : f.observation.started = none
  spare : lenient ∨ f.served < maxRequestsPerConnection

/-! ## Moves -/

variable (g : Setup) (lenient lossy : Prop)

inductive Move : Outline → Outline → Prop where
  /-- an operation completes, or one is started that nobody looks at -/
  | settle {f : Outline} {headers bodies : Nat} {reuse : Bool} (fewer : headers ≤ f.headers)
      (less : bodies ≤ f.bodies) (kept : reuse = true → f.reuse = true) :
      Move f { f with headers, bodies, reuse }
  /-- a response is being written after which the connection stays -/
  | keep {f : Outline} (cap : lenient ∨ f.served < maxRequestsPerConnection) :
      Move f { f with reuse := true }
  /-- the request goes out of sight -/
  | forget {f : Outline} (phase : f.phase ≠ .reading) : Move f { f with target := none }
  /-- an exchange is made -/
  | own {f : Outline} (phase : f.phase = .proxying) (included : f.observation.excluded = false)
      (unfailed : f.observation.failed = false) : Move f { f with busy := true }
  | disown {f : Outline} : Move f { f with busy := false }
  | accept {f : Outline} (new : f.started = false) : Move f { f with started := true }
  | handshake {f : Outline} (quiet : f.draining = false) (none : f.served = 0)
      (noHeader : f.headers = 0) (noBody : f.bodies = 0) :
      Move f { f with phase := .handshaking }
  /-- `begin_drain` of a session that works on a request -/
  | drain {f : Outline} (started : f.started = true) (busy : f.phase ≠ .reading)
      (established : f.phase ≠ .handshaking) : Move f { f with draining := true }
  /-- `begin_drain` of one that does not -/
  | drainClosing {f : Outline} (started : f.started = true) :
      Move f { f.shutDown true with draining := true }
  /-- `close_socket` and `stop` -/
  | close {f : Outline} {stopping : Bool} : Move f (f.shutDown stopping)
  /-- `graceful_close` -/
  | shut {f : Outline} (unfinished : f.finished = false) (noHeader : f.headers = 0)
      (noBody : f.bodies = 0) : Move f { f with phase := .closing }
  | reset {f : Outline} (unfinished : f.finished = false) (unstopped : f.stopping = false)
      (quiet : f.draining = false) (noHeader : f.headers = 0) (noBody : f.bodies = 0)
      (idle : f.busy = false) :
      Move f { f with observation := {}, phase := .reading, target := some [],
                      log := .reset :: f.log }
  | readHeader {f : Outline} {log : List Note} (unfinished : f.finished = false)
      (reading : f.Reading g lenient) (fresh : f.log = .reset :: log) (noHeader : f.headers = 0) :
      Move f { f with headers := 1, log := .readHeader :: f.log }
  | readBody {f : Outline} (reading : f.Reading g lenient) : Move f { f with bodies := 1 }
  /-- `on_read_header` of a request for `target` -/
  | header {f : Outline} (target : Text) (outstanding : 0 < f.headers) (idle : f.busy = false) :
      Move f { f with
        headers := f.headers - 1
        target := some target
        observation := f.observation.exclude (isMetricsTarget g.config target)
        log := .header target :: f.log }
  | dispatch {f : Outline} (now : TimePoint) (pending : f.Pending)
      (reading : f.Reading g lenient) :
      Move f { f with observation := f.observation.begin now, served := f.served + 1,
                      log := .dispatch :: f.log }
  | proxy {f : Outline} (pending : f.Pending) (phase : f.phase = .reading) :
      Move f { f with phase := .proxying }
  | check {f : Outline} {request : HttpRequest} {route : SelectedRoute} {positions : List Nat}
      (selected : selectHttpRoute g.config request = some route)
      (authorized : Session.authorized g route request = true)
      (turned : Turned route f.positions positions) :
      Move f { f.check request route with positions }
  /-- `observation_.reject` -/
  | reject {f : Outline} (pending : f.Pending) (reason : RejectionReason) :
      Move f (f.call (.reject reason))
  /-- `observation_.fail` -/
  | fail {f : Outline} (pending : f.Pending) (phase : f.phase = .proxying) (idle : f.busy = false)
      (stage : ProxyFailureStage) : Move f (f.call (.fail stage))
  /-- `on_stream_complete` with a failure -/
  | failStream {f : Outline} (unfinished : f.finished = false) (unstopped : f.stopping = false)
      (noHeader : f.headers = 0) (noBody : f.bodies = 0) (phase : f.phase = .writing)
      (busy : f.busy = true) (stage : ProxyFailureStage) :
      Move f (call (.failStream stage) { f with busy := false, log := .streamFailed stage :: f.log })
  /-- `write_response` -/
  | answer {f : Outline} {response : HttpResponse} (now : TimePoint) (pending : f.Pending)
      (idle : f.busy = false) (polite : Polite lenient f response) :
      Move f { f.finish response.status now with
        phase := .writing
        log := .head response :: (f.finish response.status now).log }
  /-- `write_stream_header` -/
  | stream {f : Outline} {response : HttpResponse} (now : TimePoint) (close : Bool)
      (pending : f.Pending) (polite : Polite False f response)
      (cap : close = false → f.served < maxRequestsPerConnection) :
      Move f { f.finish response.status now with
        phase := .writing
        streamClose := close
        log := .head response :: (f.finish response.status now).log }
  /-- either of them throws before the head is handed over -/
  | lose {f : Outline} {phase : SessionPhase} {close : Bool} (loss : lossy) (status : Nat)
      (now : TimePoint) (pending : f.Pending)
      (writing : (phase = .proxying ∧ f.phase = .proxying)
        ∨ (phase = .writing ∧ f.busy = false)) :
      Move f { f.finish status now with phase, streamClose := close }

/-- What a handler does. -/
abbrev Moves : Outline → Outline → Prop := Relation.ReflTransGen (Move g lenient lossy)

/-! ## What the guards need -/

/-- What every handler finds: the guards of its moves follow from this and from
the invariant of the session. -/
structure Tame (f : Outline) : Prop where
  read : f.finished = false → 0 < f.headers + f.bodies → f.Reading g lenient
  handshaking : f.phase = .handshaking → f.served = 0
  reuse : f.finished = false → f.reuse = true → lenient ∨ f.served < maxRequestsPerConnection
  stream : f.finished = false → f.phase = .writing → f.busy = true → f.streamClose = false →
    lenient ∨ f.served < maxRequestsPerConnection

variable {g lenient lossy} {f f' : Outline}

/-- Nothing is being read. -/
theorem Tame.silent (hn : f.headers = 0) (hb : f.bodies = 0)
    (hh : f.phase = .handshaking → f.served = 0)
    (hr : f.finished = false → f.reuse = true → lenient ∨ f.served < maxRequestsPerConnection)
    (hs : f.finished = false → f.phase = .writing → f.busy = true → f.streamClose = false →
      lenient ∨ f.served < maxRequestsPerConnection) : Tame g lenient f where
  read _ hpos := by omega
  handshaking := hh
  reuse := hr
  stream := hs

theorem Tame.shutDown (hf : f.finished = true) (hphase : f.phase = .finished) : Tame g lenient f where
  read hu := by
    rw [hf] at hu
    cases hu
  handshaking hp := by
    rw [hphase] at hp
    cases hp
  reuse hu := by
    rw [hf] at hu
    cases hu
  stream hu := by
    rw [hf] at hu
    cases hu

theorem Pending.silent {f' : Outline} (hp : f.Pending)
    (hn : f'.headers = f.headers) (hb : f'.bodies = f.bodies) (hr : f'.reuse = f.reuse)
    (hh : f'.phase = .handshaking → f'.served = 0)
    (hs : f'.phase = .writing → f'.busy = true → f'.streamClose = false →
      lenient ∨ f'.served < maxRequestsPerConnection) : Tame g lenient f' := by
  refine Tame.silent (hn.trans hp.noHeader) (hb.trans hp.noBody) hh ?_ fun _ => hs
  intro _ hreuse
  rw [hr, hp.noWrite] at hreuse
  cases hreuse

theorem Move.tame (h : Move g lenient lossy f f') (hf : Tame g lenient f) :
    Tame g lenient f' := by
  cases h with
  | settle hfewer hless hkept =>
      exact ⟨fun hu hpos => { hf.read hu (by simp only at hpos; omega) with }, hf.handshaking,
        fun hu hr => hf.reuse hu (hkept hr), hf.stream⟩
  | keep hcap =>
      exact ⟨fun hu hpos => { hf.read hu hpos with }, hf.handshaking, fun _ _ => hcap, hf.stream⟩
  | forget hphase =>
      exact { hf with read := fun hu hpos => absurd (hf.read hu hpos).phase hphase }
  | own hphase =>
      refine { hf with read := fun hu hpos => { hf.read hu hpos with }, stream := ?_ }
      intro _ hw
      rw [show f.phase = _ from hw] at hphase
      cases hphase
  | disown =>
      exact ⟨fun hu hpos => { hf.read hu hpos with }, hf.handshaking, hf.reuse,
        fun _ _ hb => by cases hb⟩
  | accept => exact { hf with read := fun hu hpos => { hf.read hu hpos with } }
  | handshake _ hnone hn hb =>
      exact Tame.silent hn hb (fun _ => hnone) hf.reuse fun _ hw => by cases hw
  | drain _ hreading =>
      exact { hf with read := fun hu hpos => absurd (hf.read hu hpos).phase hreading }
  | drainClosing => exact Tame.shutDown rfl rfl
  | close => exact Tame.shutDown rfl rfl
  | shut _ hn hb => exact Tame.silent hn hb (fun hp => by cases hp) hf.reuse fun _ hw => by cases hw
  | reset _ _ _ hn hb =>
      exact Tame.silent hn hb (fun hp => by cases hp) hf.reuse fun _ hw => by cases hw
  | readHeader _ hreading =>
      exact ⟨fun _ _ => { hreading with }, hf.handshaking, hf.reuse, hf.stream⟩
  | readBody hreading => exact ⟨fun _ _ => { hreading with }, hf.handshaking, hf.reuse, hf.stream⟩
  | header target hpos _ =>
      refine ⟨fun hu _ => ?_, hf.handshaking, hf.reuse, hf.stream⟩
      have hreading := hf.read hu (by omega)
      exact { hreading with target := ⟨target, rfl, rfl⟩ }
  | dispatch now hp hreading =>
      refine hp.silent rfl rfl rfl (fun hh => ?_) fun hw => ?_
      · have hphase := hreading.phase
        rw [show f.phase = _ from hh] at hphase
        cases hphase
      · have hphase := hreading.phase
        rw [show f.phase = _ from hw] at hphase
        cases hphase
  | proxy hp => exact hp.silent rfl rfl rfl (fun hh => by cases hh) fun hw => by cases hw
  | check => exact { hf with read := fun hu hpos => { hf.read hu hpos with } }
  | reject hp => exact hp.silent rfl rfl rfl hf.handshaking (hf.stream hp.unfinished)
  | fail hp => exact hp.silent rfl rfl rfl hf.handshaking (hf.stream hp.unfinished)
  | failStream _ _ hn hb =>
      exact Tame.silent hn hb hf.handshaking hf.reuse fun _ _ hbusy => by cases hbusy
  | answer now hp hidle =>
      refine hp.silent rfl rfl rfl (fun hh => by cases hh) fun _ hbusy => ?_
      rw [show f.busy = true from hbusy] at hidle
      cases hidle
  | stream now close hp _ hcap =>
      exact hp.silent rfl rfl rfl (fun hh => by cases hh) fun _ _ hclose => Or.inr (hcap hclose)
  | lose _ status now hp hphase =>
      rcases hphase with ⟨rfl, -⟩ | ⟨rfl, hidle⟩
      · exact hp.silent rfl rfl rfl (fun hh => by cases hh) fun hw => by cases hw
      · refine hp.silent rfl rfl rfl (fun hh => by cases hh) fun _ hbusy => ?_
        rw [show f.busy = true from hbusy] at hidle
        cases hidle

theorem Moves.tame (h : Moves g lenient lossy f f') (hf : Tame g lenient f) :
    Tame g lenient f' := by
  induction h with
  | refl => exact hf
  | tail _ hmove ih => exact hmove.tame ih

end Outline

end ApiGate
