import Mathlib.Logic.Relation
import ApiGate.EventLoop.Keeps
import ApiGate.AdmissionOutcomes
import ApiGate.GatewaySafety

/-!
# Who holds which connection

A connection belongs to one exchange or lies in the pool. `Custody` is the part of a
session's world that decides this: the pool, the admission state, and of each exchange
what it was made for and what has become of its connection. `Custody.Move` lists all that
a handler can do to it. The admission state belongs here because an exchange is made only
for what an admission has granted.
-/

namespace ApiGate

open EventLoop Act

/-- Of an exchange: what it is for, and where its connection is. -/
structure Holder where
  lease : Lease
  connection : UpstreamConnection
  selected : SelectedUpstream
  request : HttpRequest
  reused : Bool
  deriving DecidableEq

def Exchange.holder (x : Exchange) : Holder :=
  ⟨x.lease, x.connection, x.selected, x.downstreamRequest, x.reused⟩

/-- `close_upstream` -/
def Holder.close (h : Holder) : Holder :=
  if h.lease = .held then { h with lease := .closed } else h

structure Custody where
  pool : UpstreamPool
  admission : RouteProxyAdmission
  checks : List RateCheck
  now : TimePoint
  nextConnection : Nat
  nextExchange : Nat
  holder : Nat → Holder

namespace Session

def custody (w : World Session) : Custody where
  pool := w.shared.pool
  admission := w.shared.admission
  checks := w.shared.checks
  now := w.shared.now
  nextConnection := w.shared.nextConnection
  nextExchange := w.nextExchange
  holder k := (w.exs k).holder

end Session

namespace Custody

/-- `pool_->take`, where there is a pool. -/
def taken (g : Setup) (clean : Nat → Bool) (backend : UpstreamConfig) (c : Custody) :
    Option UpstreamConnection × UpstreamPool :=
  if g.config.upstreamKeepAlive then
    c.pool.take clean backend g.config.upstreamTlsContext c.now
  else (none, c.pool)

/-- The route selected for `request` was admitted, towards `selected`, while the slots were
as healthy as they are now. -/
def Granted (g : Setup) (request : HttpRequest) (selected : SelectedUpstream) (c : Custody) :
    Prop :=
  ∃ route r admission, selectHttpRoute g.config request = some route
    ∧ Session.authorized g route request = true
    ∧ (RouteProxyAdmission.tryAcquire admission route c.now).1 = .ok r
    ∧ r.upstream = some selected ∧ admission.health = c.admission.health

variable (g : Setup)

/-- What a handler of a session can do. -/
inductive Move : Custody → Custody → Prop where
  | close {c : Custody} (k : Nat) :
      Move c { c with holder := Function.update c.holder k (c.holder k).close }
  /-- `pool_->put(std::move(connection_))` -/
  | put {c : Custody} (k : Nat) (clean fails : Bool) (known : k < c.nextExchange)
      (held : (c.holder k).lease = .held) :
      Move c { c with
        holder := Function.update c.holder k { c.holder k with lease := .pooled }
        pool := c.pool.put clean fails (c.holder k).connection c.now }
  /-- the pool had nothing for an exchange that is not made after all -/
  | miss {c : Custody} (clean : Nat → Bool) (backend : UpstreamConfig)
      (nothing : (c.taken g clean backend).1 = none) :
      Move c { c with pool := (c.taken g clean backend).2 }
  /-- an exchange is made, with a connection of the pool or with a new one -/
  | make {c : Custody} (clean : Nat → Bool) (request : HttpRequest) (selected : SelectedUpstream)
      (granted : c.Granted g request selected)
      (secured : (c.taken g clean selected.upstream).1 = none →
        selected.upstream.scheme = .https → g.config.upstreamTlsContext ≠ none) :
      Move c { c with
        pool := (c.taken g clean selected.upstream).2
        nextConnection :=
          c.nextConnection + (c.taken g clean selected.upstream).1.isNone.toNat
        nextExchange := c.nextExchange + 1
        holder := Function.update c.holder c.nextExchange
          { lease := .held
            connection := (c.taken g clean selected.upstream).1.getD
              ⟨c.nextConnection, selected.upstream, g.config.upstreamTlsContext⟩
            selected, request
            reused := (c.taken g clean selected.upstream).1.isSome } }
  /-- `try_acquire` for a request -/
  | check {c : Custody} (request : HttpRequest) (route : SelectedRoute)
      (found : selectHttpRoute g.config request = some route) :
      Move c { c with
        admission := (c.admission.tryAcquire route c.now).2
        checks := ⟨request, route, c.now, (c.admission.checkRate route c.now).1⟩ :: c.checks }
  /-- a permit is given back -/
  | release {c : Custody} :
      Move c { c with admission :=
        { c.admission with proxies := c.admission.proxies.release } }

/-- The clock and the number of checks and exchanges only go forward. -/
def Moves : Custody → Custody → Prop := Relation.ReflTransGen (Move g)

end Custody

/-! ## Updates of a world -/

namespace Session

variable {g : Setup} {o : Custody} {w : World Session} {k : Nat}

/-- `w` is reached from `o` by moves. -/
def Reached (g : Setup) (o : Custody) (w : World Session) : Prop := Custody.Moves g o (custody w)

/-- An update that no custody depends on. -/
theorem Reached.quiet (h : Reached g o w) {w' : World Session} (heq : custody w' = custody w) :
    Reached g o w' := by
  unfold Reached
  rw [heq]
  exact h

theorem Reached.move (h : Reached g o w) {w' : World Session}
    (hmove : Custody.Move g (custody w) (custody w')) : Reached g o w' :=
  Relation.ReflTransGen.tail h hmove

theorem custody_setEx (w : World Session) (k : Nat) (f : Exchange → Exchange) :
    custody (w.setEx k f) = { custody w with
      holder := Function.update (custody w).holder k (f (w.exs k)).holder } := by
  have hholder : (custody (w.setEx k f)).holder
      = Function.update (custody w).holder k (f (w.exs k)).holder := by
    funext j
    by_cases hjk : j = k
    · subst hjk
      rw [Function.update_self]
      exact congrArg Exchange.holder (World.setEx_same ..)
    · rw [Function.update_of_ne hjk]
      exact congrArg Exchange.holder (World.setEx_ne hjk ..)
  rw [← hholder]
  rfl

theorem Reached.setEx (h : Reached g o w) {f : Exchange → Exchange}
    (hf : (f (w.exs k)).holder = (w.exs k).holder) : Reached g o (w.setEx k f) := by
  refine h.quiet ?_
  rw [custody_setEx, hf]
  show { custody w with holder := Function.update (custody w).holder k ((custody w).holder k) } = _
  rw [Function.update_eq_self]

/-- An update that closes the connection. -/
theorem Reached.closeEx (h : Reached g o w) {f : Exchange → Exchange}
    (hf : (f (w.exs k)).holder = (w.exs k).holder.close) : Reached g o (w.setEx k f) := by
  refine h.move ?_
  rw [custody_setEx, hf]
  exact .close k

theorem holder_closeUpstream (x : Exchange) : x.closeUpstream.holder = x.holder.close := by
  unfold Exchange.closeUpstream Holder.close
  by_cases hheld : x.lease = .held
  · rw [if_pos hheld, if_pos (show x.holder.lease = .held from hheld)]
    rfl
  · rw [if_neg hheld, if_neg (show ¬x.holder.lease = .held from hheld)]

theorem holder_cancelOperations (x : Exchange) :
    x.cancelOperations.holder = x.holder.close :=
  holder_closeUpstream { x.record .cancelled with observed := true }

theorem holder_cancel (x : Exchange) :
    x.cancel.holder = x.holder ∨ x.cancel.holder = x.holder.close := by
  unfold Exchange.cancel
  split
  · exact Or.inl rfl
  · exact Or.inr (holder_cancelOperations { x.claim with onComplete := false, onAbort := false })

theorem holder_recordPut (reusable clean : Bool) (x : Exchange) :
    (x.recordPut reusable clean).holder = x.holder := by
  unfold Exchange.recordPut
  split <;> rfl

theorem holder_receive (c : Exchange.Completion) (x : Exchange) :
    (c.receive x).holder = x.holder := by
  unfold Exchange.Completion.receive Exchange.Completion.note
  split
  all_goals
    unfold Exchange.Report.apply
    split <;> rfl

theorem Reached.dropPermit (h : Reached g o w) : Reached g o (dropPermit w) := by
  cases hpermit : w.env.proxyPermit with
  | false =>
      refine h.quiet ?_
      simp [custody, Session.dropPermit, Session.set, World.setShared, hpermit]
  | true =>
      refine h.move ?_
      have heq : custody (Session.dropPermit w) = { custody w with admission :=
          { (custody w).admission with proxies := (custody w).admission.proxies.release } } := by
        simp [custody, Session.dropPermit, Session.set, World.setShared, hpermit]
      rw [heq]
      exact .release

theorem Reached.dropProxy (h : Reached g o w) : Reached g o (dropProxy w) :=
  Reached.dropPermit (w := Session.set (fun s => { s with proxyExchange := none }) w) (h.quiet rfl)

theorem Reached.cancelProxy (h : Reached g o w) : Reached g o (cancelProxy w) := by
  unfold Session.cancelProxy
  cases w.env.proxyExchange with
  | none => exact h.dropProxy
  | some k =>
      refine Reached.dropProxy (w := w.setEx k Exchange.cancel) ?_
      rcases holder_cancel (w.exs k) with hsame | hclosed
      · exact h.setEx hsame
      · exact h.closeEx hclosed

theorem Reached.finish (h : Reached g o w) : Reached g o (finish w) := by
  unfold Session.finish
  split
  · exact h
  · exact h.quiet rfl

theorem Reached.closeSocket (h : Reached g o w) : Reached g o (closeSocket w) := by
  unfold Session.closeSocket
  split
  · exact h
  · exact h.cancelProxy.finish

theorem Reached.stop (h : Reached g o w) : Reached g o (stop w) := by
  unfold Session.stop
  split
  · exact h
  · have hset : Reached g o (Session.set (fun s => { s with stopping := true }) w) := h.quiet rfl
    exact hset.cancelProxy.finish

theorem Reached.beginDrain (h : Reached g o w) : Reached g o (beginDrain w) := by
  unfold Session.beginDrain
  split
  · exact h
  · have hset : Reached g o (Session.set (fun s => { s with draining := true }) w) := h.quiet rfl
    dsimp only
    split
    · exact hset.stop
    · exact hset
    · exact hset

theorem custody_dropCell (cell : Option Nat) (w : World Session) :
    custody (w.setShared (Shared.dropCell cell)) = custody w := by
  unfold custody World.setShared Shared.dropCell
  dsimp only
  split
  · rfl
  · split <;> rfl

theorem Reached.resetRequest (h : Reached g o w) : Reached g o (resetRequest w) :=
  h.quiet (custody_dropCell w.env.requestBodyPermit w)

theorem Reached.observeAny (h : Reached g o w) (call : Option ObservationCall) :
    Reached g o (observeAny call w) := by
  cases call with
  | none => exact h
  | some call => exact h.quiet rfl

end Session

end ApiGate
