import ApiGate.Session
import ApiGate.StreamJournal

/-!
# What holds of a session between handlers

`Base` is what no handler ever breaks, not even halfway: the trace is in order,
every exchange but the owned one is over, and the count of active proxies is
that of the other sessions plus this one's permit. It is what the `catch` of
`run_handler` finds, and enough for `close_socket`. `Rest` adds that the
session is in one of its modes: each names what will call back next.

A step is judged against a context, which says what the other sessions
contribute and whether this step may touch the admission state at all.
-/

namespace ApiGate

open EventLoop Act Exchange

/-! ## Traces -/

/-- What a mark says of the response it stands for. -/
def Mark.Sound (lib : Library) : Mark → Prop
  | .head upstream response recorded =>
      recorded = some response.status ∧ ∀ up, upstream = some up → response.From lib up
  | .readRequest | .lastWrite .. => True

/-- Which mark may come right before. -/
def Mark.Follows : Mark → List Mark → Prop
  | .readRequest, earlier => earlier = [] ∨ ∃ rest, earlier = .lastWrite none false false :: rest
  | .head .., earlier => ∃ rest, earlier = .readRequest :: rest
  | .lastWrite .., earlier => ∃ up r recorded rest, earlier = .head up r recorded :: rest

/-- Request, head, last write, and again. -/
def Orderly (lib : Library) : List Mark → Prop
  | [] => True
  | m :: earlier => Orderly lib earlier ∧ m.Follows earlier ∧ m.Sound lib

/-- The current request has no answer yet. -/
structure Unanswered (s : Session) : Prop where
  completed : s.observation.completed = false
  trace : ∃ rest, s.trace = .readRequest :: rest

/-- The head of the answer was handed over, and nothing has happened since. -/
structure Answered (s : Session) : Prop where
  completed : s.observation.completed = true
  trace : ∃ up r recorded rest, s.trace = .head up r recorded :: rest

namespace Session

/-! ## The invariant -/

/-- The exchange belongs to a request that passed the gate of its route. -/
def Admitted (g : Setup) (x : Exchange) : Prop :=
  ∃ route upstream keepAlive, selectHttpRoute g.config x.downstreamRequest = some route
    ∧ authorized g route x.downstreamRequest = true
    ∧ x.selected = RouteProxyAdmission.selectedUpstream route upstream
    ∧ x.upstreamRequest = makeUpstreamRequest x.selected x.downstreamRequest keepAlive

theorem Admitted.kin {g : Setup} {x x' : Exchange} (h : Admitted g x) (hk : Kin x x') :
    Admitted g x' := by
  obtain ⟨route, upstream, keepAlive, hselect, hauth, hselected, hrequest⟩ := h
  refine ⟨route, upstream, keepAlive, ?_, ?_, ?_, ?_⟩
  · rwa [hk.downstream]
  · rwa [hk.downstream]
  · rwa [hk.selected]
  · rwa [hk.upstream, hk.selected, hk.downstream]

theorem Admitted.receive {g : Setup} {x : Exchange} (h : Admitted g x) (c : Exchange.Completion) :
    Admitted g (c.receive x) := by
  obtain ⟨hselected, hdownstream, hupstream⟩ := receive_requests c x
  unfold Admitted
  rw [hselected, hdownstream, hupstream]
  exact h

/-- What one step is judged against: the permits of the other sessions, and the
admission state, the pool and the number of exchanges as the step found them,
which it leaves alone unless `touched`. -/
structure Context where
  setup : Setup
  others : Nat
  admission : RouteProxyAdmission
  pool : UpstreamPool
  exchanges : Nat
  touched : Prop

structure Base (c : Context) (w : World Session) : Prop where
  started : w.env.started = true
  orderly : Orderly c.setup.lib w.env.trace
  closes : w.env.closes = w.env.finished.toNat
  stopped : w.env.stopping = true → w.env.finished = true
  unowned : w.env.finished = true → w.env.proxyExchange = none ∧ w.env.proxyPermit = false
  exchanges : ∀ j, j < w.nextExchange →
    Ended (w.exs j) ∨ (w.env.proxyExchange = some j ∧ Open (w.exs j))
  owned : ∀ k, w.env.proxyExchange = some k → k < w.nextExchange
  uses : ∀ op ∈ w.env.ops, ∀ k, SessionOp.uses k op = true → k < w.nextExchange
  admitted : ∀ j, j < w.nextExchange → Admitted c.setup (w.exs j)
  relayed : ∀ j, j < w.nextExchange →
    Relayed (w.exs j) (w.env.ops.countP (SessionOp.uses j))
  active : w.shared.admission.proxies.activeProxies = c.others + w.env.proxyPermit.toNat
  room : w.shared.admission.proxies.activeProxies ≤ w.shared.admission.proxies.maxProxies
  capacity : w.shared.admission.proxies.maxProxies = c.admission.proxies.maxProxies
  touch : c.touched ∨ (w.shared.admission = c.admission ∧ w.shared.pool = c.pool
    ∧ w.nextExchange = c.exchanges)
  reach : w.env.proxyPermit = true → c.touched

/-- Nothing is under way and nothing is owned. -/
structure Free (c : Context) (w : World Session) : Prop extends Base c w where
  unfinished : w.env.finished = false
  ops : w.env.ops = []
  exchange : w.env.proxyExchange = none
  permit : w.env.proxyPermit = false
  notClosing : w.env.phase ≠ .closing

/-- A stream waits for one write, or for one block of the upstream. -/
def StreamWaits (w : World Session) (k : Nat) : Prop :=
  (w.env.ops = [] ∧ (w.exs k).relay = .reading)
  ∨ ∃ final, (w.env.ops = [.streamHeader k final] ∨ w.env.ops = [.streamBody k final])
      ∧ (w.exs k).relay = .sending final

/-- The modes of a session. It is stuck only where the answer to a request that
was not admitted could not be written. -/
inductive Mode (F : Site → Prop) (w : World Session) : Prop where
  | gone (finished : w.env.finished = true)
  | handshaking (finished : w.env.finished = false) (exchange : w.env.proxyExchange = none)
      (phase : w.env.phase = .handshaking) (ops : w.env.ops = [.handshake])
      (trace : w.env.trace = [])
  | reading (op : SessionOp) (finished : w.env.finished = false)
      (exchange : w.env.proxyExchange = none) (phase : w.env.phase = .reading)
      (ops : w.env.ops = [op]) (reads : op = .readHeader ∨ op = .readBody)
      (unanswered : Unanswered w.env)
  | proxying (k : Nat) (finished : w.env.finished = false)
      (exchange : w.env.proxyExchange = some k) (phase : w.env.phase = .proxying)
      (ops : w.env.ops = []) (unanswered : Unanswered w.env) (live : Live (w.exs k))
      (stream : (w.exs k).streamStarted = false)
  | streaming (k : Nat) (finished : w.env.finished = false)
      (exchange : w.env.proxyExchange = some k) (phase : w.env.phase = .writing)
      (answered : Answered w.env) (live : Live (w.exs k))
      (stream : (w.exs k).streamStarted = true) (waits : StreamWaits w k)
  | writing (closeAfterWrite : Bool) (finished : w.env.finished = false)
      (exchange : w.env.proxyExchange = none) (phase : w.env.phase = .writing)
      (ops : w.env.ops = [.write closeAfterWrite]) (answered : Answered w.env)
  | closing (finished : w.env.finished = false) (exchange : w.env.proxyExchange = none)
      (phase : w.env.phase = .closing) (ops : w.env.ops = [.shutdown])
  | stuck (lost : ¬F .rejectionWrite) (finished : w.env.finished = false)
      (exchange : w.env.proxyExchange = none) (phase : w.env.phase = .writing)
      (ops : w.env.ops = [])

structure Rest (c : Context) (F : Site → Prop) (w : World Session) : Prop extends Base c w where
  permit : w.env.proxyPermit = w.env.proxyExchange.isSome
  mode : Mode F w

/-- At rest without an exchange. -/
structure Loose (c : Context) (F : Site → Prop) (w : World Session) : Prop
    extends Rest c F w where
  loose : w.env.proxyExchange = none

variable {c : Context} {F : Site → Prop} {w w' : World Session} {k : Nat}

/-- The first operation under way is `op`. -/
theorem uses_cons {op : SessionOp} {ops : List SessionOp} {next : Nat} (hops : ops = [])
    (h : ∀ k, SessionOp.uses k op = true → k < next) :
    ∀ op' ∈ op :: ops, ∀ k, SessionOp.uses k op' = true → k < next := by
  subst hops
  intro op' hmem
  rw [List.mem_singleton.mp hmem]
  exact h

/-! ## Closing -/

theorem Base.unstopped (h : Base c w) (hf : w.env.finished = false) : w.env.stopping = false := by
  cases hs : w.env.stopping with
  | false => rfl
  | true =>
      have := h.stopped hs
      rw [hf] at this
      cases this

/-- The body budget and the metrics do not matter. -/
theorem Base.shared (h : Base c w) {s : Shared} (hadm : s.admission = w.shared.admission)
    (hpool : s.pool = w.shared.pool) : Base c { w with shared := s } :=
  { h with
    active := by
      show s.admission.proxies.activeProxies = _
      rw [hadm]
      exact h.active
    room := by
      show s.admission.proxies.activeProxies ≤ s.admission.proxies.maxProxies
      rw [hadm]
      exact h.room
    capacity := by
      show s.admission.proxies.maxProxies = _
      rw [hadm]
      exact h.capacity
    touch := by
      show c.touched ∨ (s.admission = c.admission ∧ s.pool = c.pool
        ∧ w.nextExchange = c.exchanges)
      rw [hadm, hpool]
      exact h.touch }

/-- The permit goes back to the count it was taken from. -/
theorem Base.dropPermit (h : Base c w) : Base c (dropPermit w) := by
  cases hp : w.env.proxyPermit with
  | false =>
      have hadm : (Session.dropPermit w).shared.admission = w.shared.admission := by
        simp [Session.dropPermit, Session.set, World.setShared, hp]
      exact
        { h with
          unowned := fun hf => ⟨(h.unowned hf).1, rfl⟩
          active := by
            rw [hadm, h.active, hp]
            rfl
          room := by
            rw [hadm]
            exact h.room
          capacity := by
            rw [hadm]
            exact h.capacity
          touch := by
            rw [hadm]
            exact h.touch
          reach := fun hr => by cases hr }
  | true =>
      have hactive := h.active
      rw [hp] at hactive
      have hadm : (Session.dropPermit w).shared.admission.proxies
          = { w.shared.admission.proxies with activeProxies := c.others } := by
        simp [Session.dropPermit, Session.set, World.setShared, hp, ProxyAdmissionState.release,
          hactive]
      exact
        { h with
          unowned := fun hf => ⟨(h.unowned hf).1, rfl⟩
          active := by
            rw [hadm]
            rfl
          room := by
            have hroom := h.room
            rw [hadm]
            show c.others ≤ w.shared.admission.proxies.maxProxies
            omega
          capacity := by
            rw [hadm]
            exact h.capacity
          touch := Or.inl (h.reach hp)
          reach := fun hr => by cases hr }

/-- An exchange that is over may be let go of. -/
theorem Base.dropProxy (h : Base c w)
    (hk : ∀ k, w.env.proxyExchange = some k → Ended (w.exs k)) : Base c (dropProxy w) := by
  refine Base.dropPermit (w := Session.set (fun s => { s with proxyExchange := none }) w) ?_
  exact
    { h with
      unowned := fun hf => ⟨rfl, (h.unowned hf).2⟩
      exchanges := by
        intro j hj
        rcases h.exchanges j hj with he | ⟨hown, -⟩
        · exact Or.inl he
        · exact Or.inl (hk j hown)
      owned := fun k hk => by cases hk }

theorem Base.cancelProxy (h : Base c w) : Base c (cancelProxy w) := by
  unfold Session.cancelProxy
  cases hk : w.env.proxyExchange with
  | none =>
      refine Base.dropProxy (w := w) h ?_
      intro k hk'
      rw [hk] at hk'
      cases hk'
  | some k =>
      have hlt := h.owned k hk
      have hended : Ended (w.exs k).cancel ∧ Kin (w.exs k) (w.exs k).cancel := by
        rcases h.exchanges k hlt with he | ⟨-, ho⟩
        · rw [he.cancel]
          exact ⟨he, Kin.refl _⟩
        · exact ho.cancel
      refine Base.dropProxy
        (w := { w with exs := Function.update w.exs k (w.exs k).cancel }) ?_ ?_
      · exact
          { h with
            exchanges := by
              intro j hj
              by_cases hjk : j = k
              · subst hjk
                exact Or.inl (by simpa using hended.1)
              · simp only [Function.update_of_ne hjk]
                exact h.exchanges j hj
            relayed := by
              intro j hj
              by_cases hjk : j = k
              · subst hjk
                simp only [Function.update_self]
                exact (h.relayed j hj).kin hended.2
              · simp only [Function.update_of_ne hjk]
                exact h.relayed j hj
            admitted := by
              intro j hj
              by_cases hjk : j = k
              · subst hjk
                have hadm := h.admitted j hj
                simp only [Function.update_self]
                exact hadm.kin hended.2
              · simp only [Function.update_of_ne hjk]
                exact h.admitted j hj }
      · intro k' hk'
        have : k = k' := by
          rw [hk] at hk'
          exact Option.some.inj hk'
        subst this
        simpa using hended.1

theorem closeSocket_of_unfinished (hf : w.env.finished = false) :
    closeSocket w = set (fun s => { s with finished := true, phase := .finished,
                                           closes := s.closes + 1 }) (cancelProxy w) := by
  unfold closeSocket finish
  rw [if_neg (by simp [hf]), if_neg (by simp [cancelProxy, dropProxy, dropPermit, set,
    World.setShared, hf])]

/-- Once it is finished, and once `finish` has run, a session is over. -/
theorem Base.gone (h : Base c w) (hf : w.env.finished = true) : Loose c F w :=
  { h with
    permit := by
      rw [(h.unowned hf).1, (h.unowned hf).2]
      rfl
    mode := .gone hf
    loose := (h.unowned hf).1 }

theorem Base.finish (h : Base c w) (hf : w.env.finished = false)
    (hx : w.env.proxyExchange = none) (hp : w.env.proxyPermit = false) :
    Base c (set (fun s => { s with finished := true, phase := .finished,
                                   closes := s.closes + 1 }) w) :=
  { h with
    closes := by
      show w.env.closes + 1 = 1
      rw [h.closes, hf]
      rfl
    stopped := fun _ => rfl
    unowned := fun _ => ⟨hx, hp⟩ }

theorem Base.closeSocket (h : Base c w) : Loose c F (closeSocket w) := by
  cases hf : w.env.finished with
  | true =>
      unfold Session.closeSocket
      rw [if_pos hf]
      exact h.gone hf
  | false =>
      rw [closeSocket_of_unfinished hf]
      exact (h.cancelProxy.finish hf rfl rfl).gone rfl

theorem Base.stop (h : Base c w) : Loose c F (stop w) := by
  cases hf : w.env.finished with
  | true =>
      unfold Session.stop
      rw [if_pos hf]
      exact h.gone hf
  | false =>
      have hstop : Session.stop w
          = set (fun s => { s with finished := true, phase := .finished, closes := s.closes + 1,
                                   stopping := true }) (Session.cancelProxy w) := by
        unfold Session.stop Session.finish
        rw [if_neg (by simp [hf]), if_neg (by simp [Session.cancelProxy, Session.dropProxy,
          Session.dropPermit, set, World.setShared, hf])]
        rfl
      rw [hstop]
      have hb := h.cancelProxy.finish hf rfl rfl
      refine Base.gone (F := F) ?_ rfl
      exact { hb with stopped := fun _ => rfl }

/-- `run_handler` closes the session on an exception. -/
theorem wp_session_runHandler {action : SessionAct Unit} {Q : World Session → Prop}
    (hQ : ∀ w', Loose c F w' → Q w') (h : wp F action (fun _ => Q) (Base c) w) :
    wp F (runHandler action) (fun _ => Q) (fun _ => False) w :=
  wp_tryCatch (wp_mono h (fun _ _ hq => hq) fun _ hb => wp_modify.mpr (hQ _ hb.closeSocket))

theorem wp_toRest {m : SessionAct Unit} {R : World Session → Prop}
    (h : wp F m (fun _ => Loose c F) R w) : wp F m (fun _ => Rest c F) R w :=
  wp_mono h (fun _ _ hl => hl.toRest) fun _ hr => hr

/-! ## The exchanges -/

/-- A handler of the owned exchange ran, up to `f`, which the owner looks at. -/
theorem Base.exchange_set (h : Base c w) (hp : w.env.proxyPermit = true) (hs : Same k w w')
    {f : Exchange → Exchange}
    (hx : Ended (f (w'.exs k)) ∨ (w.env.proxyExchange = some k ∧ Open (f (w'.exs k))))
    (hadm : Admitted c.setup (w'.exs k) → Admitted c.setup (f (w'.exs k)))
    (hrel : k < w.nextExchange →
      Relayed (f (w'.exs k)) (w.env.ops.countP (SessionOp.uses k))) :
    Base c (w'.setEx k f) where
  started := hs.env ▸ h.started
  orderly := hs.env ▸ h.orderly
  closes := hs.env ▸ h.closes
  stopped := hs.env ▸ h.stopped
  unowned := hs.env ▸ h.unowned
  exchanges := by
    intro j hj
    rw [World.setEx_env, hs.env]
    by_cases hjk : j = k
    · subst hjk
      rw [World.setEx_same]
      exact hx
    · rw [World.setEx_ne hjk, hs.others j hjk]
      exact h.exchanges j (hs.next ▸ hj)
  owned := by
    rw [World.setEx_env, World.setEx_nextExchange, hs.env, hs.next]
    exact h.owned
  uses := by
    rw [World.setEx_env, World.setEx_nextExchange, hs.env, hs.next]
    exact h.uses
  admitted := by
    intro j hj
    have hbefore := h.admitted j (hs.next ▸ hj)
    by_cases hjk : j = k
    · subst hjk
      rw [World.setEx_same]
      exact hadm (hbefore.kin hs.kin)
    · rwa [World.setEx_ne hjk, hs.others j hjk]
  relayed := by
    intro j hj
    rw [World.setEx_env, hs.env]
    by_cases hjk : j = k
    · subst hjk
      rw [World.setEx_same]
      exact hrel (hs.next ▸ hj)
    · rw [World.setEx_ne hjk, hs.others j hjk]
      exact h.relayed j (hs.next ▸ hj)
  active := by
    rw [World.setEx_env, World.setEx_shared, hs.admission, hs.env]
    exact h.active
  room := by
    rw [World.setEx_shared, hs.admission]
    exact h.room
  capacity := by
    rw [World.setEx_shared, hs.admission]
    exact h.capacity
  touch := Or.inl (h.reach hp)
  reach := hs.env ▸ h.reach

/-- A handler of the owned exchange ran. -/
theorem Base.exchange (h : Base c w) (hk : w.env.proxyExchange = some k)
    (hp : w.env.proxyPermit = true) (hs : Same k w w')
    (hx : Ended (w'.exs k) ∨ Open (w'.exs k)) : Base c w' := by
  have hset := h.exchange_set hp hs (f := id) (hx.imp_right fun ho => ⟨hk, ho⟩) id
    fun hlt => (h.relayed k hlt).kin hs.kin
  rwa [World.setEx_id] at hset

/-- An update of exchange `k` alone. -/
theorem Base.setEx (h : Base c w) {f : Exchange → Exchange}
    (hf : k < w.nextExchange →
      (Ended (f (w.exs k)) ∨ (w.env.proxyExchange = some k ∧ Open (f (w.exs k))))
        ∧ (Admitted c.setup (w.exs k) → Admitted c.setup (f (w.exs k)))
        ∧ Relayed (f (w.exs k)) (w.env.ops.countP (SessionOp.uses k))) :
    Base c (w.setEx k f) :=
  { h with
    exchanges := by
      intro j hj
      by_cases hjk : j = k
      · subst hjk
        rw [World.setEx_same]
        exact (hf hj).1
      · rw [World.setEx_ne hjk]
        exact h.exchanges j hj
    admitted := by
      intro j hj
      by_cases hjk : j = k
      · subst hjk
        rw [World.setEx_same]
        exact (hf hj).2.1 (h.admitted j hj)
      · rw [World.setEx_ne hjk]
        exact h.admitted j hj
    relayed := by
      intro j hj
      by_cases hjk : j = k
      · subst hjk
        rw [World.setEx_same]
        exact (hf hj).2.2
      · rw [World.setEx_ne hjk]
        exact h.relayed j hj }

/-- An exchange that the session does not own is over. -/
theorem Base.over (h : Base c w) (hk : w.env.proxyExchange ≠ some k) (hlt : k < w.nextExchange) :
    Ended (w.exs k) :=
  (h.exchanges k hlt).resolve_right fun ⟨hown, _⟩ => hk hown

/-- Something happened to an exchange that is over. -/
theorem Base.late (h : Base c w) (hk : w.env.proxyExchange ≠ some k) {f : Exchange → Exchange}
    (hf : ∀ x, Ended x → Ended (f x) ∧ Kin x (f x)) : Base c (w.setEx k f) := by
  refine h.setEx fun hlt => ?_
  obtain ⟨hended, hkin⟩ := hf _ (h.over hk hlt)
  exact ⟨Or.inl hended, fun hadm => hadm.kin hkin, (h.relayed k hlt).kin hkin⟩

/-- The parts of a session that its mode looks at. -/
structure Alike (s s' : Session) : Prop where
  finished : s'.finished = s.finished
  exchange : s'.proxyExchange = s.proxyExchange
  phase : s'.phase = s.phase
  ops : s'.ops = s.ops
  completed : s'.observation.completed = s.observation.completed
  trace : s'.trace = s.trace

theorem Alike.refl (s : Session) : Alike s s := ⟨rfl, rfl, rfl, rfl, rfl, rfl⟩

theorem Alike.unanswered {s s' : Session} (h : Alike s s') (hu : Unanswered s) :
    Unanswered s' := ⟨h.completed.trans hu.completed, h.trace ▸ hu.trace⟩

theorem Alike.answered {s s' : Session} (h : Alike s s') (ha : Answered s) :
    Answered s' := ⟨h.completed.trans ha.completed, h.trace ▸ ha.trace⟩

/-- Of the exchanges a mode only looks at the owned one. -/
theorem Mode.alike (h : Mode F w) (ha : Alike w.env w'.env)
    (hex : ∀ j, w.env.proxyExchange = some j → w'.exs j = w.exs j) : Mode F w' := by
  cases h with
  | gone hf => exact .gone (ha.finished.trans hf)
  | handshaking hf hx hp ho ht =>
      exact .handshaking (ha.finished.trans hf) (ha.exchange.trans hx) (ha.phase.trans hp)
        (ha.ops.trans ho) (ha.trace.trans ht)
  | reading op hf hx hp ho hr hu =>
      exact .reading op (ha.finished.trans hf) (ha.exchange.trans hx) (ha.phase.trans hp)
        (ha.ops.trans ho) hr (ha.unanswered hu)
  | proxying j hf hx hp ho hu hl hs =>
      have hj := hex j hx
      exact .proxying j (ha.finished.trans hf) (ha.exchange.trans hx) (ha.phase.trans hp)
        (ha.ops.trans ho) (ha.unanswered hu) (hj ▸ hl) (hj ▸ hs)
  | streaming j hf hx hp han hl hs hw =>
      have hj := hex j hx
      refine .streaming j (ha.finished.trans hf) (ha.exchange.trans hx) (ha.phase.trans hp)
        (ha.answered han) (hj ▸ hl) (hj ▸ hs) ?_
      unfold StreamWaits
      rw [ha.ops, hj]
      exact hw
  | writing cl hf hx hp ho han =>
      exact .writing cl (ha.finished.trans hf) (ha.exchange.trans hx) (ha.phase.trans hp)
        (ha.ops.trans ho) (ha.answered han)
  | closing hf hx hp ho =>
      exact .closing (ha.finished.trans hf) (ha.exchange.trans hx) (ha.phase.trans hp)
        (ha.ops.trans ho)
  | stuck hl hf hx hp ho =>
      exact .stuck hl (ha.finished.trans hf) (ha.exchange.trans hx) (ha.phase.trans hp)
        (ha.ops.trans ho)

/-- Something happened to an exchange that is over, and to a session at rest. -/
theorem Rest.late (h : Rest c F w) (hk : w.env.proxyExchange ≠ some k)
    {f : Exchange → Exchange} (hf : ∀ x, Ended x → Ended (f x) ∧ Kin x (f x)) :
    Rest c F (w.setEx k f) := by
  refine { h.toBase.late hk hf with permit := h.permit, mode := ?_ }
  refine h.mode.alike (Alike.refl _) fun j hj => World.setEx_ne ?_ f w
  rintro rfl
  exact hk hj

theorem Loose.dropAbort (h : Loose c F w) (k : Nat) : Rest c F (w.setEx k dropAbort) := by
  refine h.toRest.late ?_ fun x hx => ⟨hx.dropAbort, .of_eq rfl rfl rfl id rfl rfl⟩
  rw [h.loose]
  intro h
  cases h

end Session

end ApiGate
