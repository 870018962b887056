import ApiGate.EventLoop.Run
import ApiGate.EventLoop.Tally
import ApiGate.SessionSteps

/-!
# All sessions together

The sessions of a server, each with its own exchanges, over one shared state:
the admission state, the body budget, the pool and the metrics. An event
belongs to one session, or to the health checks or the pool. Sessions do not
see each other, so the invariant of the whole is that of each session plus one
equation: the active proxies are the permits that the sessions own.
-/

namespace ApiGate

open EventLoop Act

/-! ## Model -/

/-- What belongs to one session alone. -/
structure Local where
  exs : Nat → Exchange := fun _ => {}
  nextExchange : Nat := 0
  session : Session := {}

structure Gateway where
  shared : Shared
  locals : Nat → Local := fun _ => {}

namespace Gateway

def session (i : Nat) (gw : Gateway) : Session := (gw.locals i).session

/-- What session `i` sees. -/
def view (i : Nat) (gw : Gateway) : World Session :=
  { shared := gw.shared
    exs := (gw.locals i).exs
    nextExchange := (gw.locals i).nextExchange
    env := (gw.locals i).session }

def put (i : Nat) (w : World Session) (gw : Gateway) : Gateway :=
  { shared := w.shared
    locals := Function.update gw.locals i ⟨w.exs, w.nextExchange, w.env⟩ }

inductive Event where
  | session (i : Nat) (event : Session.Event)
  /-- a health check reports on a slot -/
  | probe (route upstream : Nat) (success : Bool)
  /-- a cleanup wait of the pool completes -/
  | cleanup (error : Error) (fails : Bool)
  /-- the server stops its pool -/
  | stopPool
  deriving DecidableEq, Repr

def handle (g : Setup) : Event → Act Site Gateway Unit
  | .session i event => zoom (view i) (put i) (Session.handle g event)
  | .probe route upstream success =>
      modify fun gw => { gw with shared := { gw.shared with
        admission := { gw.shared.admission with
          health := (gw.shared.admission.health.record route upstream success).2 } } }
  | .cleanup error fails =>
      modify fun gw => { gw with shared := { gw.shared with
        pool := gw.shared.pool.onCleanup error fails gw.shared.now } }
  | .stopPool =>
      modify fun gw => { gw with shared := { gw.shared with pool := gw.shared.pool.stop } }

/-- An event, the clock when it is handled, and what throws on the way. -/
structure Input where
  event : Event
  now : TimePoint := 0
  oracle : Oracle Site := fun _ _ => false

def tick (now : TimePoint) (gw : Gateway) : Gateway :=
  { gw with shared := { gw.shared with now } }

def step (g : Setup) (input : Input) (gw : Gateway) : Gateway :=
  exec (handle g input.event) input.oracle (gw.tick input.now)

/-- The server's constructor. `rateLimits` are the buckets that
`RouteRateLimits` makes of the routes. -/
def launch (g : Setup) (rateLimits : RouteRateLimits) : Gateway :=
  { shared :=
      { admission :=
          { rateLimits
            proxies := { maxProxies := g.config.maxConcurrentProxies }
            nextUpstream := List.replicate g.config.routes.length 0
            health := UpstreamHealthState.make g.config.routes }
        budget := { maxBytes := g.config.maxInFlightBytes }
        metrics := if g.config.metricsEnabled then some {} else none } }

/-- The state after a run from the start. -/
def after (g : Setup) (rateLimits : RouteRateLimits) (inputs : List Input) : Gateway :=
  run (step g) (launch g rateLimits) inputs

/-! ## The invariant -/

variable {g : Setup} {F : Site → Prop} {gw : Gateway} {i : Nat}

/-- The permits that session `i` owns: none or one. -/
def permits (gw : Gateway) (i : Nat) : Nat := (gw.session i).proxyPermit.toNat

/-- What a step of session `i` is judged against. -/
def context (g : Setup) (gw : Gateway) (i : Nat) (touched : Prop) : Session.Context :=
  { setup := g
    others := gw.shared.admission.proxies.activeProxies - gw.permits i
    admission := gw.shared.admission
    pool := gw.shared.pool
    exchanges := (gw.locals i).nextExchange
    touched }

structure Inv (g : Setup) (F : Site → Prop) (live : Finset Nat) (gw : Gateway) : Prop where
  steady : ∀ i, Session.Steady (gw.context g i True) F (gw.view i)
  outside : ∀ i, i ∉ live → (gw.session i).proxyPermit = false
  ledger : gw.shared.admission.proxies.activeProxies = ∑ i ∈ live, gw.permits i
  room : gw.shared.admission.proxies.activeProxies ≤ gw.shared.admission.proxies.maxProxies
  capacity : gw.shared.admission.proxies.maxProxies = g.config.maxConcurrentProxies

/-- No session owns more than all. -/
theorem permits_le {live : Finset Nat} {active : Nat}
    (houtside : ∀ i, i ∉ live → (gw.session i).proxyPermit = false)
    (hledger : active = ∑ i ∈ live, gw.permits i) (i : Nat) : gw.permits i ≤ active := by
  by_cases hi : i ∈ live
  · rw [hledger]
    exact weight_le_tally (fun n : Nat => n) gw.permits hi
  · unfold permits
    rw [houtside i hi]
    exact Nat.zero_le _

end Gateway

/-- A session does not depend on the rest of the shared state. -/
theorem Session.Steady.reshare {c c' : Session.Context} {F : Site → Prop} {w : World Session}
    (h : Session.Steady c F w) {s : Shared} (hsetup : c'.setup = c.setup)
    (hactive : s.admission.proxies.activeProxies = c'.others + w.env.proxyPermit.toNat)
    (hroom : s.admission.proxies.activeProxies ≤ s.admission.proxies.maxProxies)
    (hcap : s.admission.proxies.maxProxies = c'.admission.proxies.maxProxies)
    (htouch : c'.touched ∨ (s.admission = c'.admission ∧ s.pool = c'.pool
      ∧ w.nextExchange = c'.exchanges))
    (hreach : w.env.proxyPermit = true → c'.touched) :
    Session.Steady c' F { w with shared := s } := by
  rcases h with hidle | hrest
  · refine Or.inl ⟨hidle.env, hidle.next, ?_, hroom, hcap, htouch⟩
    rw [hidle.env] at hactive
    exact hactive
  · refine Or.inr
      { hrest.toBase with
        orderly := hsetup ▸ hrest.orderly
        admitted := hsetup ▸ hrest.admitted
        active := hactive
        room := hroom
        capacity := hcap
        touch := htouch
        reach := hreach
        permit := hrest.permit
        mode := hrest.mode.alike (Session.Alike.refl _) fun _ _ => rfl }

theorem Session.Steady.ledger {c : Session.Context} {F : Site → Prop} {w : World Session}
    (h : Session.Steady c F w) :
    w.shared.admission.proxies.activeProxies = c.others + w.env.proxyPermit.toNat
      ∧ w.shared.admission.proxies.activeProxies ≤ w.shared.admission.proxies.maxProxies
      ∧ w.shared.admission.proxies.maxProxies = c.admission.proxies.maxProxies := by
  rcases h with hidle | hrest
  · refine ⟨?_, hidle.room, hidle.capacity⟩
    rw [hidle.active, hidle.env]
    rfl
  · exact ⟨hrest.active, hrest.room, hrest.capacity⟩

namespace Gateway

variable {g : Setup} {F : Site → Prop} {gw : Gateway} {i : Nat} {live : Finset Nat}

/-- A change of the shared state that leaves the permits alone. -/
theorem Inv.reshare (h : Inv g F live gw) {s : Shared}
    (hproxies : s.admission.proxies = gw.shared.admission.proxies) :
    Inv g F live { gw with shared := s } where
  steady i := by
    have hle := permits_le h.outside h.ledger i
    refine (h.steady i).reshare rfl ?_ ?_ rfl (Or.inl trivial) fun _ => trivial
    · show s.admission.proxies.activeProxies
        = s.admission.proxies.activeProxies - gw.permits i + gw.permits i
      rw [hproxies]
      omega
    · rw [hproxies]
      exact h.room
  outside := h.outside
  ledger := by
    show s.admission.proxies.activeProxies = _
    rw [hproxies]
    exact h.ledger
  room := by
    show s.admission.proxies.activeProxies ≤ s.admission.proxies.maxProxies
    rw [hproxies]
    exact h.room
  capacity := by
    show s.admission.proxies.maxProxies = _
    rw [hproxies]
    exact h.capacity

theorem view_put_ne {i j : Nat} (hji : j ≠ i) (w : World Session) (gw : Gateway) :
    (gw.put i w).view j = { gw.view j with shared := w.shared } := by
  simp [view, put, Function.update_of_ne hji]

theorem view_put_same (i : Nat) (w : World Session) (gw : Gateway) : (gw.put i w).view i = w := by
  simp [view, put]

/-- The invariant of one session, against what the step started from. -/
theorem Inv.focus (h : Inv g F live gw) (i : Nat) {touched : Prop}
    (hreach : (gw.session i).proxyPermit = true → touched) :
    Session.Steady (gw.context g i touched) F (gw.view i) := by
  have hle := permits_le h.outside h.ledger i
  refine (h.steady i).reshare rfl ?_ h.room rfl (Or.inr ⟨rfl, rfl, rfl⟩) hreach
  show gw.shared.admission.proxies.activeProxies
    = gw.shared.admission.proxies.activeProxies - gw.permits i + gw.permits i
  omega

theorem permits_put (i : Nat) (w : World Session) (gw : Gateway) :
    (gw.put i w).permits = Function.update gw.permits i w.env.proxyPermit.toNat := by
  funext j
  by_cases hji : j = i
  · subst hji
    simp [permits, session, put]
  · simp [permits, session, put, Function.update_of_ne hji]

/-- Session `i` has made a step; the others find its permit in the count. -/
theorem Inv.put (h : Inv g F live gw) {touched : Prop} {w : World Session}
    (hw : Session.Steady (gw.context g i touched) F w) :
    Inv g F (insert i live) (gw.put i w) := by
  obtain ⟨hactive, hroom, hcap⟩ := hw.ledger
  have hle := permits_le h.outside h.ledger i
  have hother : (gw.context g i touched).others
      = gw.shared.admission.proxies.activeProxies - gw.permits i := rfl
  have houtside : ∀ j, j ∉ insert i live → ((gw.put i w).session j).proxyPermit = false := by
    intro j hj
    rw [Finset.mem_insert, not_or] at hj
    have hsame : (gw.put i w).session j = gw.session j := by
      simp [session, Gateway.put, Function.update_of_ne hj.1]
    rw [hsame]
    exact h.outside j hj.2
  have hledger : (gw.put i w).shared.admission.proxies.activeProxies
      = ∑ j ∈ insert i live, (gw.put i w).permits j := by
    show w.shared.admission.proxies.activeProxies = _
    rw [permits_put, hactive, hother, h.ledger]
    by_cases hi : i ∈ live
    · have htally := tally_update (fun n : Nat => n) gw.permits hi w.env.proxyPermit.toNat
      have hone : gw.permits i ≤ ∑ j ∈ live, gw.permits j := h.ledger ▸ hle
      rw [Finset.insert_eq_of_mem hi]
      omega
    · have htally := tally_insert (fun n : Nat => n) gw.permits hi w.env.proxyPermit.toNat
      have hnone : gw.permits i = 0 := by
        unfold permits
        rw [h.outside i hi]
        rfl
      rw [htally, hnone, Nat.sub_zero]
  refine ⟨fun j => ?_, houtside, hledger, hroom, hcap.trans h.capacity⟩
  have hlej := permits_le houtside hledger j
  have hshare : w.shared.admission.proxies.activeProxies
      = w.shared.admission.proxies.activeProxies - (gw.put i w).permits j
        + (gw.put i w).permits j := (Nat.sub_add_cancel hlej).symm
  by_cases hji : j = i
  · subst hji
    have hpermits : (gw.put j w).permits j = w.env.proxyPermit.toNat := by
      rw [permits_put, Function.update_self]
    rw [view_put_same]
    refine hw.reshare (s := w.shared) rfl ?_ hroom rfl (Or.inl trivial) fun _ => trivial
    rw [← hpermits]
    exact hshare
  · have hpermits : (gw.put i w).permits j = (gw.view j).env.proxyPermit.toNat := by
      rw [permits_put, Function.update_of_ne hji]
      rfl
    rw [view_put_ne hji]
    refine (h.steady j).reshare rfl ?_ hroom rfl (Or.inl trivial) fun _ => trivial
    rw [← hpermits]
    exact hshare

/-! ## Steps and runs -/

theorem Inv.tick (h : Inv g F live gw) (now : TimePoint) : Inv g F live (gw.tick now) :=
  h.reshare rfl

/-- What a step of session `i` does, against what it started from. -/
theorem step_session (h : Inv g F live gw) (i : Nat) (event : Session.Event) (now : TimePoint)
    {o : Oracle Site} (ho : Admissible F o) :
    ∃ w, step g ⟨.session i event, now, o⟩ gw = (gw.tick now).put i w
      ∧ Session.Steady ((gw.tick now).context g i
          (Session.Touches g ((gw.tick now).view i) event)) F w := by
  have hfocus : Session.Steady ((gw.tick now).context g i
      (Session.Touches g ((gw.tick now).view i) event)) F ((gw.tick now).view i) :=
    (h.tick now).focus i Or.inl
  have hwp : wp F (Session.handle g event) _ _ ((gw.tick now).view i) :=
    Session.wp_handle hfocus event id
  refine exec_of_wp (P := fun gw' => ∃ w, gw' = (gw.tick now).put i w
    ∧ Session.Steady _ F w) ho ?_
  refine wp_zoom (wp_mono hwp ?_ ?_)
  · exact fun _ w hw => ⟨w, rfl, hw⟩
  · exact fun _ hf => hf.elim

/-- The invariant, for whatever set of sessions. -/
def Safe (g : Setup) (F : Site → Prop) (gw : Gateway) : Prop := ∃ live, Inv g F live gw

theorem step_safe (h : Safe g F gw) (input : Input) (ho : Admissible F input.oracle) :
    Safe g F (step g input gw) := by
  obtain ⟨live, hinv⟩ := h
  obtain ⟨event, now, o⟩ := input
  cases event with
  | session i event =>
      obtain ⟨w, hstep, hw⟩ := step_session hinv i event now ho
      rw [hstep]
      exact ⟨insert i live, (hinv.tick now).put hw⟩
  | probe route upstream success =>
      have htick := hinv.tick now
      exact ⟨live, htick.reshare rfl⟩
  | cleanup error fails =>
      have htick := hinv.tick now
      exact ⟨live, htick.reshare rfl⟩
  | stopPool =>
      have htick := hinv.tick now
      exact ⟨live, htick.reshare rfl⟩

theorem launch_safe (g : Setup) (F : Site → Prop) (rateLimits : RouteRateLimits) :
    Safe g F (launch g rateLimits) := by
  refine ⟨∅, fun i => ?_, fun _ _ => rfl, rfl, Nat.zero_le _, rfl⟩
  exact Or.inl ⟨rfl, rfl, rfl, Nat.zero_le _, rfl, Or.inl trivial⟩

/-- Every run whose oracles leave the places in `F` alone. -/
theorem after_safe (g : Setup) (F : Site → Prop) (rateLimits : RouteRateLimits)
    (inputs : List Input) (hinputs : ∀ input ∈ inputs, Admissible F input.oracle) :
    Safe g F (after g rateLimits inputs) :=
  run_invariant (Safe g F) (fun input _ ho h => step_safe h input ho) (launch_safe g F rateLimits)
    inputs hinputs

theorem after_safe_all (g : Setup) (rateLimits : RouteRateLimits) (inputs : List Input) :
    Safe g (fun _ => False) (after g rateLimits inputs) :=
  after_safe g _ rateLimits inputs fun input _ => admissible_none input.oracle

end Gateway

end ApiGate
