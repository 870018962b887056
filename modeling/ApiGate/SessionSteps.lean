import ApiGate.SessionHandlers

/-!
# Requests and events

The second half of the rules: what a session does with a request it has read,
up to a new exchange, and then every event. `wp_handle` at the end is the step
lemma of the session: an event that finds it at rest leaves it at rest.
-/

namespace ApiGate

open EventLoop Act Exchange

namespace Session

variable {c : Context} {F : Site → Prop} {w w' : World Session} {k : Nat}
  {R : World Session → Prop}

/-! ## Local answers -/

/-- A request was read and nothing was done about it yet. -/
structure Asking (c : Context) (w : World Session) : Prop extends Free c w where
  unanswered : Unanswered w.env

theorem Asking.observe (h : Asking c w) (call : ObservationCall) : Asking c (observe call w) :=
  { h.toFree.observe call with unanswered := Unanswered.observe h.unanswered call }

/-- The gateway's own answers have no upstream response. -/
theorem Asking.wp_answer (h : Asking c w) (site : Site) (response : HttpResponse) :
    wp F (writeResponse c.setup site none response {}) (fun _ => Loose c F) (Base c) w :=
  Session.wp_answer h.toFree h.unanswered {} fun _ hup => by cases hup

theorem wp_writeProtocolError (h : Asking c w) (status : Nat) (code message : String) :
    wp F (writeProtocolError c.setup status code message) (fun _ => Loose c F) (Base c) w := by
  unfold writeProtocolError
  refine wp_mayThrow_bind ?_ fun _ => h.toBase
  exact wp_mayThrow_bind (h.wp_answer _ _) fun _ => h.toBase

theorem wp_rejectBufferBudget (h : Asking c w) (request : HttpRequest) :
    wp F (rejectBufferBudget c.setup request) (fun _ => Loose c F) (Base c) w := by
  unfold rejectBufferBudget
  simp only [wp_modify_bind]
  have h' := h.observe (.reject .bufferCapacity)
  exact wp_mayThrow_bind (h'.wp_answer _ _) fun _ => h'.toBase

theorem wp_handleReadError (h : Asking c w) (code : ErrorCode) :
    wp F (handleReadError c.setup code) (fun _ => Loose c F) (Base c) w := by
  have hclose : wp F (modify closeSocket) (fun _ => Loose c F) (Base c) w :=
    wp_modify.mpr h.toBase.closeSocket
  unfold handleReadError
  split
  · exact wp_gracefulClose h.toFree
  · exact hclose
  · exact hclose
  · exact wp_mayThrow_bind hclose fun _ => h.toBase
  · exact wp_writeProtocolError h _ _ _
  · exact wp_writeProtocolError h _ _ _
  · exact wp_mayThrow_bind (wp_writeProtocolError h _ _ _) fun _ => h.toBase

theorem wp_answerLocally (h : Asking c w) (request : HttpRequest) :
    wp F (answerLocally c.setup request) (fun _ => Loose c F) (Base c) w := by
  unfold answerLocally
  refine wp_mayThrow_bind ?_ fun _ => h.toBase
  simp only [wp_get_bind]
  split
  · split
    · exact wp_throw.mpr h.toBase
    · exact wp_mayThrow_bind (h.wp_answer _ _) fun _ => h.toBase
  · exact h.wp_answer _ _

/-! ## Starting an exchange -/

/-- Inside the `try` of `start_proxy_request`: a permit or an exchange may have
been taken already. -/
structure Pending (c : Context) (w : World Session) : Prop extends Base c w where
  unfinished : w.env.finished = false
  ops : w.env.ops = []
  phase : w.env.phase = .proxying
  unanswered : Unanswered w.env
  touched : c.touched

theorem Pending.not_finished (h : Pending c w) {P : Prop} (hf : w.env.finished = true) : P := by
  rw [h.unfinished] at hf
  cases hf

/-- What the `catch` of `start_proxy_request` finds. -/
def Failed (c : Context) (F : Site → Prop) (w : World Session) : Prop :=
  Pending c w ∨ (Lost c w ∧ ¬F .rejectionWrite)

theorem Pending.asking (h : Pending c w) (hx : w.env.proxyExchange = none)
    (hp : w.env.proxyPermit = false) : Asking c w :=
  { h.toBase with
    unfinished := h.unfinished
    ops := h.ops
    exchange := hx
    permit := hp
    notClosing := by
      rw [h.phase]
      intro hc
      cases hc
    unanswered := h.unanswered }

theorem Pending.cancelProxy (h : Pending c w) : Asking c (cancelProxy w) := by
  refine Pending.asking ?_ rfl rfl
  exact
    { h.toBase.cancelProxy with
      unfinished := h.unfinished
      ops := h.ops
      phase := h.phase
      unanswered := ⟨h.unanswered.completed, h.unanswered.trace⟩
      touched := h.touched }

theorem Lost.cancelProxy (h : Lost c w) : Lost c (cancelProxy w) :=
  { h.toBase.cancelProxy with
    unfinished := h.unfinished
    ops := h.ops
    exchange := rfl
    permit := rfl
    notClosing := h.notClosing
    completed := h.completed
    phase := h.phase }

/-- Of a lost answer nothing is left to be written: the session stays without
anything under way. -/
theorem wp_onStartFailed (h : Failed c F w) (request : HttpRequest) :
    wp F (onStartFailed c.setup request) (fun _ => Loose c F) R w := by
  unfold onStartFailed
  simp only [wp_modify_bind]
  refine wp_tryCatch (wp_mono (Q := fun _ => Loose c F) (E := Base c) ?_ (fun _ _ hq => hq)
    fun _ hb => wp_modify.mpr hb.closeSocket)
  rcases h with hp | ⟨hl, hF⟩
  · have hask := hp.cancelProxy
    refine wp_mayThrow_bind ?_ fun _ => hask.toBase
    simp only [wp_modify_bind]
    exact (hask.observe _).wp_answer _ _
  · have hl' := hl.cancelProxy
    refine wp_mayThrow_bind ?_ fun _ => hl'.toBase
    simp only [wp_modify_bind]
    unfold writeResponse
    simp only [wp_get_bind]
    have hdone : (observe (.fail .connect) (Session.cancelProxy w)).env.observation.completed
        = true := (RequestObservation.call_completed ..).trans hl'.completed
    rw [if_pos (by simp [hdone])]
    refine wp_modify.mpr (Lost.toRest ?_ hF)
    exact { hl' with completed := hdone }

theorem wp_rejectProxy (h : Pending c w) (hx : w.env.proxyExchange = none)
    (hp : w.env.proxyPermit = false) (reason : RejectionReason) (response : HttpResponse) :
    wp F (rejectProxy c.setup reason response) (fun _ => Loose c F) (Failed c F) w := by
  have h' : Pending c (Session.observe (.reject reason) w) :=
    { h with unanswered := Unanswered.observe h.unanswered _ }
  unfold rejectProxy
  simp only [wp_modify_bind]
  refine wp_mayThrow_bind ?_ fun _ => Or.inl h'
  simp only [wp_get_bind]
  have hask := h'.asking hx hp
  exact wp_mono (wp_writeResponse hask.toFree hask.unanswered {} fun _ hup => by cases hup)
    (fun _ _ hq => hq) fun _ hl => Or.inr hl

/-- The exchange is there, and nothing was started. -/
structure Ready (c : Context) (w : World Session) (k : Nat) : Prop extends Holding c w k where
  ops : w.env.ops = []
  phase : w.env.phase = .proxying
  unanswered : Unanswered w.env
  live : Live (w.exs k)
  stream : (w.exs k).streamStarted = false

theorem Ready.pending (h : Ready c w k) : Pending c w :=
  { h.toBase with
    unfinished := h.unfinished
    ops := h.ops
    phase := h.phase
    unanswered := h.unanswered
    touched := h.reach h.permit }

theorem Ready.going (h : Ready c w k) (hg : Exchange.Going k w w') :
    Ready c w' k :=
  have henv := hg.same.env
  { h.toHolding.same hg.same hg.live.toOpen with
    ops := henv ▸ h.ops
    phase := henv ▸ h.phase
    unanswered := henv ▸ h.unanswered
    live := hg.live
    stream := hg.stream.trans h.stream }

/-- The admission state changes its buckets and its round-robin, not its permits. -/
theorem Pending.admission (h : Pending c w) {a : RouteProxyAdmission}
    (ha : a.proxies = w.shared.admission.proxies) :
    Pending c (w.setShared fun s => { s with admission := a }) :=
  { h with
    active := by
      show a.proxies.activeProxies = _
      rw [ha]
      exact h.active
    room := by
      show a.proxies.activeProxies ≤ a.proxies.maxProxies
      rw [ha]
      exact h.room
    capacity := by
      show a.proxies.maxProxies = _
      rw [ha]
      exact h.capacity
    touch := Or.inl h.touched }

/-- The admission state gives one more permit, and the session takes it. -/
theorem Pending.takePermit (h : Pending c w) (hp : w.env.proxyPermit = false)
    {a : RouteProxyAdmission}
    (hroom : w.shared.admission.proxies.activeProxies < w.shared.admission.proxies.maxProxies)
    (ha : a.proxies = { w.shared.admission.proxies with
      activeProxies := w.shared.admission.proxies.activeProxies + 1 }) :
    Pending c (set (fun s => { s with proxyPermit := true })
      (dropPermit (w.setShared fun s => { s with admission := a }))) := by
  have hproxies : (dropPermit (w.setShared fun s => { s with admission := a })).shared.admission.proxies
      = { w.shared.admission.proxies with
          activeProxies := w.shared.admission.proxies.activeProxies + 1 } := by
    simp [dropPermit, Session.set, World.setShared, hp, ha]
  have hactive := h.active
  rw [hp] at hactive
  exact
    { h with
      unowned := h.not_finished
      active := by
        show (dropPermit _).shared.admission.proxies.activeProxies = _
        rw [hproxies]
        show w.shared.admission.proxies.activeProxies + 1 = c.others + 1
        rw [hactive]
        rfl
      room := by
        show (dropPermit _).shared.admission.proxies.activeProxies
          ≤ (dropPermit _).shared.admission.proxies.maxProxies
        rw [hproxies]
        exact hroom
      capacity := by
        show (dropPermit _).shared.admission.proxies.maxProxies = _
        rw [hproxies]
        exact h.capacity
      touch := Or.inl h.touched
      reach := fun _ => h.touched
      unanswered := ⟨h.unanswered.completed, h.unanswered.trace⟩ }

/-- Without a permit in the result the session stays as it was. -/
theorem Pending.noPermit (h : Pending c w) :
    Pending c (set (fun s => { s with proxyPermit := false }) (dropPermit w)) :=
  { h.toBase.dropPermit with
    unowned := fun hf => ⟨(h.unowned hf).1, rfl⟩
    active := h.toBase.dropPermit.active
    reach := fun hr => by cases hr
    unfinished := h.unfinished
    ops := h.ops
    phase := h.phase
    unanswered := ⟨h.unanswered.completed, h.unanswered.trace⟩
    touched := h.touched }

/-- The request may be proxied: it selects a route, and it satisfies the route's
API-key gate. -/
def Passes (g : Setup) (request : HttpRequest) : Prop :=
  ∃ route, selectHttpRoute g.config request = some route ∧ authorized g route request = true

/-- A new exchange, for a request that passes. -/
theorem Pending.addExchange (h : Pending c w) (hx : w.env.proxyExchange = none)
    (hp : w.env.proxyPermit = true) {x : Exchange} (hl : Live x) (hs : x.streamStarted = false)
    (hadm : Admitted c.setup x) (hrel : Relayed x 0) (fresh : Bool) :
    Ready c (set (fun s => { s with proxyExchange := some w.nextExchange })
      (addExchange x fresh w)) w.nextExchange := by
  have hshared : Base c { w with
      shared := Shared.shareCell x.requestBodyPermit
        { w.shared with nextConnection := w.shared.nextConnection + fresh.toNat } } :=
    h.toBase.shared (by simp) (by simp)
  have hnew : (Function.update w.exs w.nextExchange x) w.nextExchange = x := Function.update_self ..
  have hold : ∀ j, j < w.nextExchange → (Function.update w.exs w.nextExchange x) j = w.exs j :=
    fun j hj => Function.update_of_ne (Nat.ne_of_lt hj) ..
  exact
    { hshared with
      touch := Or.inl h.touched
      unowned := h.not_finished
      exchanges := by
        intro j hj
        rcases Nat.lt_succ_iff_lt_or_eq.mp hj with hlt | rfl
        · show Ended ((Function.update w.exs w.nextExchange x) j) ∨ _
          rw [hold j hlt]
          rcases h.exchanges j hlt with he | ⟨hown, -⟩
          · exact Or.inl he
          · rw [hx] at hown
            cases hown
        · refine Or.inr ⟨rfl, ?_⟩
          show Open ((Function.update w.exs w.nextExchange x) w.nextExchange)
          rw [hnew]
          exact hl.toOpen
      owned := by
        intro k hk
        cases hk
        exact Nat.lt_succ_self _
      uses := fun op hop j hj => Nat.lt_succ_of_lt (h.uses op hop j hj)
      admitted := by
        intro j hj
        rcases Nat.lt_succ_iff_lt_or_eq.mp hj with hlt | rfl
        · show Admitted c.setup ((Function.update w.exs w.nextExchange x) j)
          rw [hold j hlt]
          exact h.admitted j hlt
        · show Admitted c.setup ((Function.update w.exs w.nextExchange x) w.nextExchange)
          rw [hnew]
          exact hadm
      relayed := by
        intro j hj
        show Relayed ((Function.update w.exs w.nextExchange x) j)
          (w.env.ops.countP (SessionOp.uses j))
        rcases Nat.lt_succ_iff_lt_or_eq.mp hj with hlt | rfl
        · rw [hold j hlt]
          exact h.relayed j hlt
        · rw [hnew, h.ops]
          exact hrel
      unfinished := h.unfinished
      exchange := rfl
      permit := hp
      isOpen := by
        show Open ((Function.update w.exs w.nextExchange x) w.nextExchange)
        rw [hnew]
        exact hl.toOpen
      ops := h.ops
      phase := h.phase
      unanswered := ⟨h.unanswered.completed, h.unanswered.trace⟩
      live := by
        show Live ((Function.update w.exs w.nextExchange x) w.nextExchange)
        rw [hnew]
        exact hl
      stream := by
        show ((Function.update w.exs w.nextExchange x) w.nextExchange).streamStarted = false
        rw [hnew]
        exact hs }

/-- An exchange is made for a request that passes, to an upstream of its route. -/
theorem wp_makeExchange (h : Pending c w) (hx : w.env.proxyExchange = none)
    (hp : w.env.proxyPermit = true) {request : HttpRequest} {route : SelectedRoute}
    (hselect : selectHttpRoute c.setup.config request = some route)
    (hauth : authorized c.setup route request = true) (upstream : UpstreamConfig) :
    wp F (makeExchange c.setup (RouteProxyAdmission.selectedUpstream route upstream) request)
      (fun k w' => Ready c (set (fun s => { s with proxyExchange := some k }) w') k
        ∧ (w'.exs k).ops = []) (Pending c) w := by
  unfold makeExchange
  refine wp_mayThrow_bind (wp_survey_bind fun clean => ?_) fun _ => h
  simp only [wp_get_bind, wp_modify_bind]
  have h' : Pending c (w.setShared fun s => { s with pool := (takePooled c.setup clean
      (RouteProxyAdmission.selectedUpstream route upstream).upstream w.shared).2 }) :=
    { h with touch := Or.inl h.touched }
  generalize (takePooled c.setup clean (RouteProxyAdmission.selectedUpstream route
    upstream).upstream w.shared) = taken at h' ⊢
  have hmake : ∀ (connection : UpstreamConnection) (reused fresh : Bool), wp F (do
      modify (addExchange (Exchange.make (RouteProxyAdmission.selectedUpstream route upstream)
        request c.setup.config.upstreamKeepAlive connection reused w.env.requestBodyPermit) fresh)
      pure w.nextExchange)
      (fun k w' => Ready c (set (fun s => { s with proxyExchange := some k }) w') k
        ∧ (w'.exs k).ops = []) (Pending c) (w.setShared fun s => { s with pool := taken.2 }) := by
    intro connection reused fresh
    simp only [wp_modify_bind]
    refine wp_pure.mpr ⟨?_, ?_⟩
    · refine h'.addExchange hx hp (live_make ..) rfl ?_ (relayed_make ..) _
      exact ⟨route, upstream, c.setup.config.upstreamKeepAlive, hselect, hauth, rfl, rfl⟩
    · show ((Function.update w.exs w.nextExchange _) w.nextExchange).ops = []
      rw [Function.update_self]
  split
  · exact wp_throw.mpr h'
  · split
    · exact wp_mayThrow_bind (hmake _ _ _) fun _ => h'
    · exact hmake _ _ _

theorem Ready.resetRequest (h : Ready c w k) : Rest c F (resetRequest w) := by
  have hb : Base c { w with shared := Shared.dropCell w.env.requestBodyPermit w.shared } :=
    h.toBase.shared (by simp) (by simp)
  exact
    { hb with
      permit := h.permit_eq
      mode := .proxying k h.unfinished h.exchange h.phase h.ops
        ⟨h.unanswered.completed, h.unanswered.trace⟩ h.live h.stream }

/-- The `try` block: it starts an exchange, or answers, or leaves it to the
`catch`. -/
theorem wp_admitProxy (h : Pending c w) (hx : w.env.proxyExchange = none)
    (hp : w.env.proxyPermit = false) {request : HttpRequest} {route : SelectedRoute}
    (hselect : selectHttpRoute c.setup.config request = some route)
    (hauth : authorized c.setup route request = true) :
    wp F (admitProxy c.setup request route) (fun _ => Rest c F) (Failed c F) w := by
  unfold admitProxy
  simp only [wp_modify_bind, wp_get_bind]
  have h : Pending c (w.setShared (Shared.check request route)) := { h with }
  replace hx : (w.setShared (Shared.check request route)).env.proxyExchange = none := hx
  replace hp : (w.setShared (Shared.check request route)).env.proxyPermit = false := hp
  generalize w.setShared (Shared.check request route) = w at h hx hp
  rcases RouteProxyAdmission.tryAcquire_cases w.shared.admission route w.shared.now with
    ⟨⟨e, herr⟩, hprox⟩ | ⟨r, hok, hpermit, -, hprox⟩
    | ⟨r, u, hok, hpermit, hallowed, hhealthy, hup, -, hroom, hprox⟩
  · simp only [herr]
    exact wp_throw.mpr (Or.inl (h.admission hprox))
  · have h₁ := h.admission hprox
    simp only [hok]
    split
    · exact wp_toRest (wp_rejectProxy h₁ hx hp _ _)
    · split
      · exact wp_toRest (wp_rejectProxy h₁ hx hp _ _)
      · simp only [wp_modify_bind, hpermit]
        exact wp_toRest (wp_rejectProxy h₁.noPermit hx rfl _ _)
  · simp only [wp_modify_bind, hok, hallowed, hhealthy, hpermit, hup, Bool.not_true,
      Bool.false_eq_true, if_false]
    have h₁ := h.takePermit hp hroom hprox
    refine wp_bind (wp_mono (wp_makeExchange h₁ hx rfl hselect hauth u) ?_
      fun _ hpend => Or.inl hpend)
    rintro k w' ⟨hready, hops⟩
    simp only [wp_modify_bind]
    have hz : (w'.exs k).stages = 0 := by simp [stages, hops]
    refine wp_bind (wp_mono (wp_start hready.live hready.stream hz) ?_ ?_)
    · intro _ w₂ hg
      exact wp_modify.mpr (hready.going hg).resetRequest
    · exact fun w₂ hg => Or.inl (hready.going hg).pending

theorem wp_startProxyRequest (h : Pending c w) (hx : w.env.proxyExchange = none)
    (hp : w.env.proxyPermit = false) {request : HttpRequest} {route : SelectedRoute}
    (hselect : selectHttpRoute c.setup.config request = some route)
    (hauth : authorized c.setup route request = true) :
    wp F (startProxyRequest c.setup request route) (fun _ => Rest c F) R w := by
  refine wp_tryCatch (wp_mono (wp_admitProxy h hx hp hselect hauth) (fun _ _ hr => hr) ?_)
  exact fun w' hf => wp_toRest (wp_onStartFailed hf request)

/-! ## Requests -/

/-- Only a request that passes lets the step touch the admission state. -/
def Gated (c : Context) (w : World Session) : Prop :=
  ∀ parser, w.env.parser = some parser → Passes c.setup parser.request → c.touched

theorem wp_processRequest (h : Asking c w) (hgate : Gated c w) :
    wp F (processRequest c.setup) (fun _ => Rest c F) (Base c) w := by
  unfold processRequest
  simp only [wp_modify_bind, wp_get_bind]
  have h : Asking c (record [.dispatch] w) :=
    { h with unanswered := ⟨h.unanswered.completed, h.unanswered.trace⟩ }
  have hgate : Gated c (record [.dispatch] w) := hgate
  generalize record [.dispatch] w = w at h hgate
  split
  · refine wp_mayThrow_bind (wp_modify.mpr h.toBase.closeSocket.toRest) fun _ => h.toBase
  · rename_i parser hparser
    simp only [wp_modify_bind]
    have h₁ : Asking c (set (fun s => { s with
        observation := s.observation.begin w.shared.now
        requestsServed := s.requestsServed + 1 }) w) :=
      { h with
        unanswered :=
          ⟨(RequestObservation.begin_completed ..).trans h.unanswered.completed,
            h.unanswered.trace⟩ }
    split
    · rename_i route hselect
      refine wp_mayThrow_bind ?_ fun _ => h₁.toBase
      split
      · refine wp_mayThrow_bind ?_ fun _ => h₁.toBase
        simp only [wp_get_bind]
        exact wp_toRest (h₁.wp_answer _ _)
      · rename_i hauth
        have hauth' : authorized c.setup route parser.request = true := by simpa using hauth
        simp only [wp_modify_bind]
        refine wp_startProxyRequest ?_ ?_ ?_ hselect hauth'
        · exact
            { h₁.toBase with
              unfinished := h.unfinished
              ops := h.ops
              phase := rfl
              unanswered := ⟨h₁.unanswered.completed, h.unanswered.trace⟩
              touched := hgate parser hparser ⟨route, hselect, hauth'⟩ }
        · exact h.exchange
        · exact h.permit
    · exact wp_toRest (wp_answerLocally h₁ _)

theorem Asking.excludeMetrics (h : Asking c w) : Asking c (excludeMetrics c.setup w) := by
  unfold Session.excludeMetrics
  split
  · exact { h with unanswered := ⟨h.unanswered.completed, h.unanswered.trace⟩ }
  · exact h

theorem Gated.excludeMetrics (h : Gated c w) : Gated c (excludeMetrics c.setup w) := by
  unfold Session.excludeMetrics
  split
  · exact h
  · exact h

theorem wp_onReadHeader (h : Asking c w) (hphase : w.env.phase = .reading) (hgate : Gated c w)
    (error : Error) :
    wp F (onReadHeader c.setup error) (fun _ => Rest c F) (Base c) w := by
  unfold onReadHeader
  simp only [wp_modify_bind, wp_get_bind]
  have h' := h.excludeMetrics
  have hgate' := hgate.excludeMetrics
  have hphase' : (Session.excludeMetrics c.setup w).env.phase = .reading := by
    unfold Session.excludeMetrics
    split <;> exact hphase
  generalize Session.excludeMetrics c.setup w = w₁ at h' hgate' hphase'
  rw [if_neg (by simp [h'.unfinished])]
  split
  · exact wp_toRest (wp_handleReadError h' _)
  · exact wp_toRest (wp_mayThrow_bind (wp_modify.mpr h'.toBase.closeSocket) fun _ => h'.toBase)
  · rename_i parser _
    split
    · exact wp_toRest (wp_writeProtocolError h' _ _ _)
    · split
      · exact wp_toRest (wp_writeProtocolError h' _ _ _)
      · split
        · exact wp_processRequest h' hgate'
        · exact wp_toRest (wp_writeProtocolError h' _ _ _)
        · split
          · exact wp_toRest (wp_rejectBufferBudget h' _)
          · rename_i permit budget _
            refine wp_mayThrow_bind ?_ fun _ => h'.toBase
            simp only [wp_modify_bind]
            have hb : Base c { w₁ with
                shared := Shared.newCell permit
                  (Shared.dropCell w₁.env.requestBodyPermit { w₁.shared with budget }) } :=
              h'.toBase.shared (by simp [Shared.newCell]) (by simp [Shared.newCell])
            refine wp_mayThrow_bind ?_ fun _ => { hb with }
            refine wp_modify.mpr ?_
            exact
              { hb with
                uses := uses_cons h'.ops fun _ hu => by cases hu
                permit := h'.permit_eq
                mode := .reading .readBody h'.unfinished h'.exchange hphase'
                  (congrArg _ h'.ops) (Or.inr rfl)
                  ⟨h'.unanswered.completed, h'.unanswered.trace⟩ }

theorem shrinkRequest_eq (h : shrinkRequest w = some w') :
    ∃ budget cells, w' = { w with shared := { w.shared with budget, cells } } := by
  unfold shrinkRequest at h
  split at h
  · split at h
    · cases h
      exact ⟨_, _, rfl⟩
    · cases h
  · cases h

theorem wp_onReadBody (h : Asking c w) (hgate : Gated c w) (error : Error) :
    wp F (onReadBody c.setup error) (fun _ => Rest c F) (Base c) w := by
  unfold onReadBody
  simp only [wp_get_bind]
  rw [if_neg (by simp [h.unfinished])]
  split
  · exact wp_toRest (wp_handleReadError h _)
  · split
    · exact wp_modify.mpr h.toBase.closeSocket.toRest
    · rename_i w' hshrink
      simp only [wp_modify_bind]
      obtain ⟨budget, cells, rfl⟩ := shrinkRequest_eq hshrink
      have hb : Base c { w with shared := { w.shared with budget, cells } } :=
        h.toBase.shared rfl rfl
      refine wp_processRequest ?_ hgate
      exact
        { hb with
          unfinished := h.unfinished
          ops := h.ops
          exchange := h.exchange
          permit := h.permit
          notClosing := h.notClosing
          unanswered := h.unanswered }

/-! ## Completions -/

/-- An operation is no longer outstanding. -/
theorem Base.received (h : Base c w) (x : Completion) : Base c (set x.receive w) :=
  { h with
    uses := fun op hop => h.uses op (List.mem_of_mem_erase hop)
    relayed := fun j hj => (h.relayed j hj).fewer (List.erase_sublist ..).countP_le }

/-- The operation of a mode that waits for one thing has completed. -/
theorem Rest.received (h : Rest c F w) (x : Completion) (hf : w.env.finished = false)
    (hx : w.env.proxyExchange = none) (hops : w.env.ops = [x.op])
    (hphase : w.env.phase ≠ .closing) : Free c (set x.receive w) :=
  { h.toBase.received x with
    unfinished := hf
    ops := by
      show w.env.ops.erase x.op = []
      rw [hops, List.erase_cons_head]
    exchange := hx
    permit := by
      show w.env.proxyPermit = false
      rw [h.permit, hx]
      rfl
    notClosing := hphase }

theorem classify_success {error : Error} {stopping : Bool}
    (h : classifyHttpWriteResult error stopping = .success) : error = none := by
  unfold classifyHttpWriteResult at h
  split at h
  · cases h
  · split at h
    · rfl
    all_goals cases h

/-- The response's only write completes: the next request is read when it went
well and the connection stays. -/
theorem wp_onWrite (h : Free c w) (ha : Answered w.env) (error : Error)
    (closeAfterWrite : Bool) :
    wp F (onWrite c.setup error closeAfterWrite) (fun _ => Loose c F) (Base c) w := by
  have horderly : Orderly c.setup.lib
      (.lastWrite error closeAfterWrite w.env.draining :: w.env.trace) :=
    ⟨h.orderly, ha.trace, trivial⟩
  have hb : Base c { w with
      env := { w.env with trace := .lastWrite error closeAfterWrite w.env.draining :: w.env.trace }
      shared := Shared.dropCell w.env.requestBodyPermit
        (Shared.dropPermit w.env.responseBodyPermit w.shared) } :=
    Base.shared (w := { w with env := { w.env with
        trace := .lastWrite error closeAfterWrite w.env.draining :: w.env.trace } })
      { h.toBase with orderly := horderly } (by simp [Shared.dropPermit])
      (by simp [Shared.dropPermit])
  unfold onWrite
  simp only [wp_get_bind]
  rw [if_neg (by simp [h.unfinished])]
  simp only [wp_modify_bind]
  have hfree : Free c (resetRequest (set (fun s => { s with response := none,
                                                            responseBodyPermit := {} })
      ((note (.lastWrite error closeAfterWrite w.env.draining) w).setShared
        (Shared.dropPermit w.env.responseBodyPermit)))) :=
    { hb with
      unfinished := h.unfinished
      ops := h.ops
      exchange := h.exchange
      permit := h.permit
      notClosing := h.notClosing }
  split
  · rename_i hsuccess
    split
    · exact wp_gracefulClose hfree
    · rename_i hkeep
      refine wp_readRequest hfree (Or.inr ⟨w.env.trace, ?_⟩)
      have hclose : closeAfterWrite = false ∧ w.env.draining = false := by simpa using hkeep
      show Mark.lastWrite error closeAfterWrite w.env.draining :: w.env.trace = _
      rw [classify_success hsuccess, hclose.1, hclose.2]
  · exact wp_modify.mpr hfree.toBase.closeSocket
  · exact wp_modify.mpr hfree.toBase.closeSocket
  · exact wp_modify.mpr hfree.toBase.closeSocket

theorem wp_onHandshake (h : Free c w) (htrace : w.env.trace = []) (error : Error) :
    wp F (onHandshake error) (fun _ => Loose c F) (Base c) w := by
  unfold onHandshake
  simp only [wp_get_bind]
  rw [if_neg (by simp [h.unfinished])]
  split
  · exact wp_modify.mpr h.toBase.closeSocket
  · simp only [wp_modify_bind]
    exact wp_readRequest { h with } (Or.inl htrace)

theorem wp_onShutdown (h : Base c w) : wp F onShutdown (fun _ => Loose c F) R w := by
  unfold onShutdown
  simp only [wp_get_bind]
  split
  · rename_i hf
    exact wp_pure.mpr (h.gone hf)
  · exact wp_modify.mpr h.closeSocket

/-- A stream write completes. -/
theorem wp_onStreamWritten (h : Holding c w k) (hops : w.env.ops = [])
    (hphase : w.env.phase = .writing) (ha : Answered w.env) (hl : Live (w.exs k))
    (hs : (w.exs k).streamStarted = true) {final : Bool}
    (hsending : (w.exs k).relay = .sending final) (error : Error) :
    wp F (onStreamWritten c.setup k final error) (fun _ => Rest c F) (fun _ => False) w := by
  have hclosing : w.env.phase ≠ .closing := by
    rw [hphase]
    intro hc
    cases hc
  unfold onStreamWritten
  simp only [wp_modify_bind]
  refine wp_session_runHandler (c := c) (fun _ hq => hq.toRest) ?_
  refine wp_mono (Q := fun _ => Rest c F) (E := fun _ => False) ?_ (fun _ _ hr => hr)
    fun _ hf => hf.elim
  cases final with
  | true =>
      simp only [h.unfinished, Bool.not_false, Bool.and_self, if_true]
      have hmarked : Holding c
          (note (.lastWrite error w.env.streamClose w.env.draining) w) k :=
        { h with orderly := ⟨h.orderly, ha.trace, trivial⟩ }
      exact wp_resume_last hmarked hops hclosing hl hs hsending (Or.inl rfl)
        fun _ => ⟨w.env.trace, rfl⟩
  | false =>
      simp only [Bool.false_and, Bool.false_eq_true, if_false]
      cases error with
      | none => exact wp_resume_next h hops hphase ha hl hs hsending
      | some e =>
          exact wp_resume_last h hops hclosing hl hs hsending (Or.inr rfl) fun hf => by cases hf

/-- Once a session is finished, what still completes finds it so. -/
theorem wp_handler_over (h : Base c w) (hf : w.env.finished = true) (x : Completion)
    (huses : ∀ k, SessionOp.uses k x.op = true → k < w.nextExchange) :
    wp F (handler c.setup x) (fun _ => Rest c F) (fun _ => False) w := by
  have hdone : ∀ m : SessionAct Unit, wp F m (fun _ => Rest c F) (Base c) w →
      wp F (runHandler m) (fun _ => Rest c F) (fun _ => False) w :=
    fun m hm => wp_session_runHandler (fun _ hl => hl.toRest) hm
  have hrest : Rest c F w := (h.gone hf).toRest
  have hstream : ∀ k final, k < w.nextExchange →
      wp F (onStreamWritten c.setup k final x.error) (fun _ => Rest c F) (fun _ => False) w := by
    intro k final hk
    have hended : Ended (w.exs k) := h.over (by simp [(h.unowned hf).1]) hk
    unfold onStreamWritten
    simp only [wp_modify_bind, hf, Bool.not_true, Bool.and_false, Bool.false_eq_true, if_false]
    refine hdone _ (wp_mono (wp_resumeStream_ended hended final x.error) ?_ fun _ hfa => hfa.elim)
    rintro _ w' rfl
    exact hrest
  unfold handler
  split
  · refine hdone _ ?_
    unfold onHandshake
    simp only [wp_get_bind, hf, if_true]
    exact wp_pure.mpr hrest
  · refine hdone _ ?_
    unfold onReadHeader
    simp only [wp_modify_bind, wp_get_bind]
    have hb : Base c (excludeMetrics c.setup w) ∧ (excludeMetrics c.setup w).env.finished = true := by
      unfold excludeMetrics
      split
      · exact ⟨{ h with }, hf⟩
      · exact ⟨h, hf⟩
    rw [if_pos hb.2]
    exact wp_pure.mpr (hb.1.gone hb.2).toRest
  · refine hdone _ ?_
    unfold onReadBody
    simp only [wp_get_bind, hf, if_true]
    exact wp_pure.mpr hrest
  · refine hdone _ ?_
    unfold onWrite
    simp only [wp_get_bind, hf, if_true]
    exact wp_pure.mpr hrest
  · rename_i k final heq
    exact hstream k final (huses k (by simp [heq, SessionOp.uses]))
  · rename_i k final heq
    exact hstream k final (huses k (by simp [heq, SessionOp.uses]))
  · exact wp_toRest (wp_onShutdown h)

/-- The parser now holds what the read delivered. -/
theorem gated_received {x : Completion}
    (hgate : Passes c.setup x.parser.request → c.touched)
    (hread : x.op = .readHeader ∨ x.op = .readBody) : Gated c (set x.receive w) := by
  intro parser hparser
  have hp : w.env.parser.map (fun _ => x.parser) = some parser := by
    rcases hread with hop | hop
    all_goals
      have hp : (x.receive w.env).parser = some parser := hparser
      simpa [Completion.receive, hop] using hp
  cases hw : w.env.parser with
  | none => simp [hw] at hp
  | some p =>
      simp only [hw, Option.map_some, Option.some.injEq] at hp
      rw [← hp]
      exact hgate

/-- The step lemma for the session's own operations, one case for each mode. -/
theorem wp_completion (h : Rest c F w) (x : Completion) (hmem : x.op ∈ w.env.ops)
    (hgate : x.op = .readHeader ∨ x.op = .readBody → Passes c.setup x.parser.request → c.touched) :
    wp F (handler c.setup x) (fun _ => Rest c F) (fun _ => False) (set x.receive w) := by
  have hrun : ∀ {m : SessionAct Unit}, wp F m (fun _ => Rest c F) (Base c) (set x.receive w) →
      wp F (runHandler m) (fun _ => Rest c F) (fun _ => False) (set x.receive w) :=
    fun hm => wp_session_runHandler (fun _ hl => hl.toRest) hm
  have hloose : ∀ {m : SessionAct Unit}, wp F m (fun _ => Loose c F) (Base c) (set x.receive w) →
      wp F (runHandler m) (fun _ => Rest c F) (fun _ => False) (set x.receive w) :=
    fun hm => hrun (wp_toRest hm)
  have hb : Base c (set x.receive w) := h.toBase.received x
  cases h.mode with
  | gone hf => exact wp_handler_over hb hf x (h.uses x.op hmem)
  | handshaking hf hx hphase hops htrace =>
      have hop : x.op = .handshake := by simpa [hops] using hmem
      have hfree := h.received x hf hx (hop ▸ hops) (by simp [hphase])
      unfold handler
      rw [hop]
      exact hloose (wp_onHandshake hfree htrace _)
  | reading op hf hx hphase hops hreads hu =>
      have hop : x.op = op := by simpa [hops] using hmem
      have hfree := h.received x hf hx (hop ▸ hops) (by simp [hphase])
      have hask : Asking c (set x.receive w) :=
        { hfree with unanswered := ⟨hu.completed, hu.trace⟩ }
      have hg : Gated c (set x.receive w) :=
        gated_received (hgate (hop ▸ hreads)) (hop ▸ hreads)
      unfold handler
      rcases hreads with rfl | rfl
      · rw [hop]
        exact hrun (wp_onReadHeader hask hphase hg _)
      · rw [hop]
        exact hrun (wp_onReadBody hask hg _)
  | proxying _ _ _ _ hops =>
      rw [hops] at hmem
      cases hmem
  | streaming k hf hx hphase ha hl hs hw =>
      rcases hw with ⟨hops, -⟩ | ⟨final, hops, hsending⟩
      · rw [hops] at hmem
        cases hmem
      · have hhold : Holding c (set x.receive w) k :=
          { hb with
            unfinished := hf
            exchange := hx
            permit := by
              show w.env.proxyPermit = true
              rw [h.permit, hx]
              rfl
            isOpen := hl.toOpen }
        have hdone : ∀ op, w.env.ops = [op] → (set x.receive w).env.ops = [] := by
          intro op hop
          have hx : x.op = op := by simpa [hop] using hmem
          show w.env.ops.erase x.op = []
          rw [hop, hx, List.erase_cons_head]
        have ha' : Answered (set x.receive w).env := ⟨ha.completed, ha.trace⟩
        unfold handler
        rcases hops with hops | hops
        · have hop : x.op = .streamHeader k final := by simpa [hops] using hmem
          rw [hop]
          exact wp_onStreamWritten hhold (hdone _ hops) hphase ha' hl hs hsending _
        · have hop : x.op = .streamBody k final := by simpa [hops] using hmem
          rw [hop]
          exact wp_onStreamWritten hhold (hdone _ hops) hphase ha' hl hs hsending _
  | writing closeAfterWrite hf hx hphase hops ha =>
      have hop : x.op = .write closeAfterWrite := by simpa [hops] using hmem
      have hfree := h.received x hf hx (hop ▸ hops) (by simp [hphase])
      unfold handler
      rw [hop]
      exact hloose (wp_onWrite hfree ⟨ha.completed, ha.trace⟩ _ _)
  | closing hf hx hphase hops =>
      have hop : x.op = .shutdown := by simpa [hops] using hmem
      unfold handler
      rw [hop]
      exact wp_toRest (wp_onShutdown hb)
  | stuck _ _ _ _ hops =>
      rw [hops] at hmem
      cases hmem

/-! ## Events -/

/-- A connection that the server has not accepted yet. -/
structure Idle (c : Context) (w : World Session) : Prop where
  env : w.env = {}
  next : w.nextExchange = 0
  active : w.shared.admission.proxies.activeProxies = c.others
  room : w.shared.admission.proxies.activeProxies ≤ w.shared.admission.proxies.maxProxies
  capacity : w.shared.admission.proxies.maxProxies = c.admission.proxies.maxProxies
  touch : c.touched ∨ (w.shared.admission = c.admission ∧ w.shared.pool = c.pool
    ∧ w.nextExchange = c.exchanges)

/-- The invariant between events. -/
def Steady (c : Context) (F : Site → Prop) (w : World Session) : Prop := Idle c w ∨ Rest c F w

theorem Idle.accepted (h : Idle c w) :
    Free c (set (fun s => { s with started := true }) w)
      ∧ (set (fun s => { s with started := true }) w).env.trace = [] := by
  have henv := h.env
  have hnext := h.next
  obtain ⟨shared, exs, next, env⟩ := w
  subst henv
  subst hnext
  refine ⟨?_, rfl⟩
  exact
    { started := rfl
      orderly := trivial
      closes := rfl
      stopped := fun hs => by cases hs
      unowned := fun hf => by cases hf
      exchanges := fun j hj => absurd hj (Nat.not_lt_zero j)
      owned := fun k hk => by cases hk
      uses := fun op hop => by cases hop
      admitted := fun j hj => absurd hj (Nat.not_lt_zero j)
      relayed := fun j hj => absurd hj (Nat.not_lt_zero j)
      active := h.active
      room := h.room
      capacity := h.capacity
      touch := h.touch
      reach := fun hr => by cases hr
      unfinished := rfl
      ops := rfl
      exchange := rfl
      permit := rfl
      notClosing := fun hp => by cases hp }

theorem wp_session_start (h : Free c w) (htrace : w.env.trace = []) :
    wp F (start c.setup) (fun _ => Loose c F) (Base c) w := by
  unfold start
  split
  · exact wp_readRequest h (Or.inl htrace)
  · simp only [wp_modify_bind]
    have hb : Base c (set (fun s => { s with phase := .handshaking }) w) := { h.toBase with }
    refine wp_mayThrow_bind ?_ fun _ => hb
    refine wp_modify.mpr ?_
    exact
      { hb with
        uses := uses_cons h.ops fun _ hu => by cases hu
        permit := h.permit_eq
        mode := .handshaking h.unfinished h.exchange rfl (congrArg _ h.ops) htrace
        loose := h.exchange }

theorem Rest.beginDrain (h : Rest c F w) : Rest c F (beginDrain w) := by
  unfold Session.beginDrain
  split
  · exact h
  · have hd : Rest c F (set (fun s => { s with draining := true }) w) :=
      { h.toBase with
        permit := h.permit
        mode := h.mode.alike ⟨rfl, rfl, rfl, rfl, rfl, rfl⟩ fun _ _ => rfl }
    dsimp only
    split
    · exact hd.toBase.stop.toRest
    · exact hd
    · exact hd

/-- A change of the body budget. -/
theorem Rest.shared (h : Rest c F w) {s : Shared} (hadm : s.admission = w.shared.admission)
    (hpool : s.pool = w.shared.pool) : Rest c F { w with shared := s } :=
  { h.toBase.shared hadm hpool with
    permit := h.permit
    mode := h.mode.alike (Alike.refl _) fun _ _ => rfl }

theorem Rest.destroyExchange (h : Rest c F w) (k : Nat) : Rest c F (destroyExchange k w) := by
  unfold Session.destroyExchange
  split
  · rename_i hgone
    have hk : w.env.proxyExchange ≠ some k := by
      simp only [Bool.and_eq_true, decide_eq_true_eq] at hgone
      exact hgone.1.2
    have hs : Rest c F (w.setShared fun s => Shared.dropCell (w.exs k).requestBodyPermit
        (Shared.dropPermit (w.exs k).responseBodyPermit
          (Shared.dropPermit (w.exs k).streamPermit s))) :=
      h.shared (by simp [Shared.dropPermit]) (by simp [Shared.dropPermit])
    exact hs.late hk fun x hx => ⟨{ hx with }, .of_eq rfl rfl rfl id rfl rfl⟩
  · exact h

theorem Rest.destroy (h : Rest c F w) : Rest c F (destroy w) := by
  unfold Session.destroy
  split
  · have hs : Rest c F (w.setShared fun s => Shared.dropCell w.env.requestBodyPermit
        (Shared.dropPermit w.env.responseBodyPermit s)) :=
      h.shared (by simp [Shared.dropPermit]) (by simp [Shared.dropPermit])
    exact
      { hs.toBase with
        permit := hs.permit
        mode := hs.mode.alike ⟨rfl, rfl, rfl, rfl, rfl, rfl⟩ fun _ _ => rfl }
  · exact h

/-- An operation of any exchange completes. -/
theorem wp_exchange (h : Rest c F w) (hk : k < w.nextExchange) (x : Exchange.Completion) :
    wp F (dispatch (endCallbacks c.setup) c.setup.lib (streamCallbacks c.setup) k x)
      (fun _ => Rest c F) (fun _ => False) w := by
  by_cases hown : w.env.proxyExchange = some k
  · have hpermit : w.env.proxyPermit = true := by
      rw [h.permit, hown]
      rfl
    have hlive : Live (w.exs k) ∧ w.env.finished = false := by
      cases h.mode with
      | gone hf =>
          rw [(h.unowned hf).1] at hown
          cases hown
      | proxying j hf hx _ _ _ hl =>
          rw [hown] at hx
          cases hx
          exact ⟨hl, hf⟩
      | streaming j hf hx _ _ hl =>
          rw [hown] at hx
          cases hx
          exact ⟨hl, hf⟩
      | handshaking _ hn | reading _ _ hn | writing _ _ hn | closing _ hn | stuck _ _ hn =>
          rw [hown] at hn
          cases hn
    exact wp_exchange_owned
      { h.toBase with
        unfinished := hlive.2
        exchange := hown
        permit := hpermit
        isOpen := hlive.1.toOpen } hlive.1 h.mode x
  · refine wp_mono (wp_dispatch_ended (h.over hown hk) x) ?_ fun _ hf => hf
    rintro _ w' (rfl | rfl)
    · exact h
    · exact h.late hown fun y hy => ⟨hy.completion x, hy.kin_receive x⟩

/-- Which events may touch the admission state: those of a session that owns a
permit, and the read that completes a request which passes. -/
def Touches (g : Setup) (w : World Session) (event : Event) : Prop :=
  w.env.proxyPermit = true ∨ ∃ x, event = .completion x
    ∧ (x.op = .readHeader ∨ x.op = .readBody) ∧ Passes g x.parser.request

/-- An event that finds the session at rest leaves it at rest. -/
theorem wp_handle_rest (h : Rest c F w) (event : Event)
    (hgate : Touches c.setup w event → c.touched) :
    wp F (handle c.setup event) (fun _ => Steady c F) (fun _ => False) w := by
  have hsteady : ∀ {m : SessionAct Unit}, wp F m (fun _ => Rest c F) (fun _ => False) w →
      wp F m (fun _ => Steady c F) (fun _ => False) w :=
    fun hm => wp_mono hm (fun _ _ hr => Or.inr hr) fun _ hf => hf
  refine hsteady ?_
  unfold handle
  cases event with
  | start =>
      simp only [wp_get_bind]
      rw [if_pos h.started]
      exact wp_pure.mpr h
  | completion x =>
      simp only [wp_get_bind]
      split
      · rename_i hready
        have hmem : x.op ∈ w.env.ops := by
          simp only [Bool.and_eq_true, decide_eq_true_eq] at hready
          exact hready.1
        simp only [wp_modify_bind]
        exact wp_completion h x hmem fun hread hpass => hgate (Or.inr ⟨x, rfl, hread, hpass⟩)
      · exact wp_pure.mpr h
  | exchange k x =>
      simp only [wp_get_bind]
      split
      · rename_i hk
        exact wp_exchange h hk x
      · exact wp_pure.mpr h
  | drain =>
      simp only [wp_get_bind]
      rw [if_pos h.started]
      exact wp_modify.mpr h.beginDrain
  | stop =>
      simp only [wp_get_bind]
      rw [if_pos h.started]
      exact wp_modify.mpr h.toBase.stop.toRest
  | destroyExchange k => exact wp_modify.mpr (h.destroyExchange k)
  | destroy => exact wp_modify.mpr h.destroy

theorem Idle.destroyExchange (h : Idle c w) (k : Nat) : Idle c (destroyExchange k w) := by
  unfold Session.destroyExchange
  split
  · exact
      { h with
        active := by simpa [World.setShared, Shared.dropPermit] using h.active
        room := by simpa [World.setShared, Shared.dropPermit] using h.room
        capacity := by simpa [World.setShared, Shared.dropPermit] using h.capacity
        touch := by simpa [World.setShared, Shared.dropPermit] using h.touch }
  · exact h

theorem wp_handle_idle (h : Idle c w) (event : Event) :
    wp F (handle c.setup event) (fun _ => Steady c F) (fun _ => False) w := by
  have hidle : wp F (pure ()) (fun _ => Steady c F) (fun _ => False) w :=
    wp_pure.mpr (Or.inl h)
  unfold handle
  cases event with
  | start =>
      simp only [wp_get_bind]
      rw [if_neg (by simp [h.env])]
      simp only [wp_modify_bind]
      obtain ⟨hfree, htrace⟩ := h.accepted
      refine wp_tryCatch (wp_mono (wp_session_start hfree htrace) ?_ ?_)
      · exact fun _ _ hl => Or.inr hl.toRest
      · exact fun _ hb => wp_modify.mpr (Or.inr hb.stop.toRest)
  | completion x =>
      simp only [wp_get_bind]
      rw [if_neg (by simp [h.env])]
      exact hidle
  | exchange k x =>
      simp only [wp_get_bind]
      rw [if_neg (by simp [h.next])]
      exact hidle
  | drain =>
      simp only [wp_get_bind]
      rw [if_neg (by simp [h.env])]
      exact hidle
  | stop =>
      simp only [wp_get_bind]
      rw [if_neg (by simp [h.env])]
      exact hidle
  | destroyExchange k => exact wp_modify.mpr (Or.inl (h.destroyExchange k))
  | destroy =>
      refine wp_modify.mpr (Or.inl ?_)
      unfold destroy
      rw [if_neg (by simp [h.env])]
      exact h

/-- The step lemma of the session. -/
theorem wp_handle (h : Steady c F w) (event : Event)
    (hgate : Touches c.setup w event → c.touched) :
    wp F (handle c.setup event) (fun _ => Steady c F) (fun _ => False) w := by
  rcases h with hidle | hrest
  · exact wp_handle_idle hidle event
  · exact wp_handle_rest hrest event hgate

end Session

end ApiGate
