import ApiGate.AdmissionOutcomes
import ApiGate.SessionMoves

/-!
# Every event is a sequence of moves

The second half of the walk: what a session does with a request it has read,
and then every event. `does_handle` at the end is the simulation: between two
outlines of a run there is a sequence of moves.
-/

namespace ApiGate

open EventLoop Act Exchange

namespace Session

open Walk

variable {t : Walk} {w w' : World Session} {k : Nat} {R : World Session → Prop}

/-! ## Local answers -/

theorem does_writeProtocolError (h : t.Reached w) (ha : Answering w) (status : Nat)
    (code message : String) : t.Does (writeProtocolError t.setup status code message) w := by
  unfold writeProtocolError
  refine wp_mayThrow_bind ?_ fun _ => h
  refine wp_mayThrow_bind ?_ fun _ => h
  refine does_answer h ha _ _ (capped_closing ?_)
  rw [keepAlive_withPayload]
  exact keepAlive_makeBareResponse ..

theorem does_rejectBufferBudget (h : t.Reached w) (ha : Answering w) (request : HttpRequest) :
    t.Does (rejectBufferBudget t.setup request) w := by
  unfold rejectBufferBudget Walk.Does
  simp only [wp_modify_bind]
  have hreject := h.observeReject ha .bufferCapacity
  refine wp_mayThrow_bind ?_ fun _ => hreject
  exact does_answer hreject (ha.observe _) _ _
    (capped_closing (HttpResponse.keepAlive_setKeepAlive _))

theorem does_handleReadError (h : t.Reached w) (ha : Answering w) (code : ErrorCode) :
    t.Does (handleReadError t.setup code) w := by
  have hclose : t.Does (modify closeSocket) w := wp_modify.mpr h.closeSocket
  unfold handleReadError
  split
  · exact does_gracefulClose h ha.ops
  · exact hclose
  · exact hclose
  · exact wp_mayThrow_bind hclose fun _ => h
  · exact does_writeProtocolError h ha _ _ _
  · exact does_writeProtocolError h ha _ _ _
  · exact wp_mayThrow_bind (does_writeProtocolError h ha _ _ _) fun _ => h

theorem does_answerLocally (h : t.Reached w) (ha : Answering w) (request : HttpRequest) :
    t.Does (answerLocally t.setup request) w := by
  unfold answerLocally
  refine wp_mayThrow_bind ?_ fun _ => h
  simp only [wp_get_bind]
  split
  · split
    · exact wp_throw.mpr h
    · exact wp_mayThrow_bind (does_answer h ha _ _ (capped_limitRequests rfl _)) fun _ => h
  · exact does_answer h ha _ _ (capped_limitRequests rfl _)

/-! ## Starting an exchange -/

/-- The `try` block of `start_proxy_request` threw: the request was counted as
answered, or there is an excuse for not heeding the bound. -/
structure Walk.Missed (t : Walk) (served : Nat) (excused : Prop) (w : World Session) : Prop where
  reached : t.Reached w
  served : w.env.requestsServed = served
  excuse : excused ∨ w.env.observation.completed = true

/-- What else the `try` block may throw at. -/
inductive StartSite : Site → Prop where
  | rejectionBuild : StartSite .rejectionBuild
  | exchangeMake : StartSite .exchangeMake
  | deadlineInit : StartSite .deadlineInit
  | resolveInit : StartSite .resolveInit
  | upstreamWriteInit : StartSite .upstreamWriteInit

/-- Every exception of the `try` block has an excuse. -/
structure Walk.Starts (t : Walk) (shared : Shared) (route : SelectedRoute) (excused : Prop) :
    Prop where
  sites : ∀ site, StartSite site → ¬t.sites site → excused
  admission : ∀ e, (shared.admission.tryAcquire route shared.now).1 = .error e → excused
  trust : ∀ r u, (shared.admission.tryAcquire route shared.now).1 = .ok r →
    r.upstream = some u → u.upstream.scheme = .https →
    t.setup.config.upstreamTlsContext = none → excused

theorem does_rejectProxy {excused : Prop} (h : t.Reached w) (ha : Answering w)
    (hsite : ¬t.sites .rejectionBuild → excused) (reason : RejectionReason)
    (response : HttpResponse) :
    wp t.sites (rejectProxy t.setup reason response) (fun _ => t.Reached)
      (t.Missed w.env.requestsServed excused) w := by
  unfold rejectProxy
  simp only [wp_modify_bind]
  have hreject := h.observeReject ha reason
  refine wp_mayThrow_bind ?_ fun hF => ⟨hreject, rfl, Or.inl (hsite hF)⟩
  simp only [wp_get_bind]
  refine wp_mono (does_writeResponse hreject (ha.observe _) (Or.inr rfl) _ _
    (capped_limitRequests rfl _)) (fun _ _ hr => hr) ?_
  rintro w' ⟨hr, hserved, hcompleted⟩
  exact ⟨hr, hserved, Or.inr hcompleted⟩

theorem outline_addExchange (x : Exchange) (fresh : Bool) :
    outline (addExchange x fresh w) = outline w := by
  unfold addExchange Shared.shareCell
  cases x.requestBodyPermit <;> rfl

/-- The constructor of an exchange does not show. -/
theorem does_makeExchange {excused : Prop} (hsite : ¬t.sites .exchangeMake → excused)
    {selected : SelectedUpstream} (htrusted : selected.upstream.scheme = .https →
      t.setup.config.upstreamTlsContext = none → excused) (request : HttpRequest) :
    wp t.sites (makeExchange t.setup selected request)
      (fun _ w' => outline w' = outline w) (fun w' => outline w' = outline w ∧ excused) w := by
  unfold makeExchange
  refine wp_mayThrow_bind (wp_survey_bind fun clean => ?_) fun hF => ⟨rfl, hsite hF⟩
  simp only [wp_get_bind, wp_modify_bind]
  generalize takePooled t.setup clean selected.upstream w.shared = taken
  split
  · rename_i htrust
    simp only [Bool.and_eq_true, decide_eq_true_eq, Option.isNone_iff_eq_none] at htrust
    exact wp_throw.mpr ⟨rfl, htrusted htrust.1.2 htrust.2⟩
  · split
    · refine wp_mayThrow_bind ?_ fun hF => ⟨rfl, hsite hF⟩
      simp only [wp_modify_bind]
      exact wp_pure.mpr (outline_addExchange _ _)
    · simp only [wp_modify_bind]
      exact wp_pure.mpr (outline_addExchange _ _)

/-- What makes `start` throw. -/
theorem does_exchange_start {excused : Prop}
    (hs : ∀ site, StartSite site → ¬t.sites site → excused) :
    wp t.sites (Exchange.start k) (fun _ _ => True) (fun _ => excused) w := by
  have hthen : ∀ {site op} {w' : World Session}, StartSite site →
      wp t.sites (do beginDeadline k; initiate site op k) (fun _ _ => True) (fun _ => excused)
        w' := by
    intro site op w' hsite
    refine wp_bind ?_
    unfold beginDeadline
    simp only [wp_modify_bind]
    refine wp_mayThrow_bind (wp_modify.mpr ?_) fun hF => hs _ .deadlineInit hF
    exact wp_mayThrow_bind (wp_modify.mpr trivial) fun hF => hs site hsite hF
  unfold Exchange.start writeRequest
  simp only [wp_get_bind]
  split
  · exact hthen .upstreamWriteInit
  · exact hthen .resolveInit

/-- What an admission does to the stored positions. -/
theorem turned_tryAcquire (a : RouteProxyAdmission) (route : SelectedRoute) (now : TimePoint) :
    Outline.Turned route a.nextUpstream (a.tryAcquire route now).2.nextUpstream := by
  obtain ⟨o, ho⟩ := RouteProxyAdmission.tryAcquire_ends a route now
  cases o with
  | rateDenied =>
      obtain ⟨d, limits', -, -, heq⟩ := ho
      rw [heq]
      exact Or.inl rfl
  | capacityDenied =>
      obtain ⟨limits', -, -, heq⟩ := ho
      rw [heq]
      exact Or.inl rfl
  | noHealthyUpstream =>
      obtain ⟨limits', r, -, -, -, -, heq⟩ := ho
      rw [heq]
      exact Or.inl rfl
  | admitted =>
      obtain ⟨limits', u, positions, -, -, hturn, heq⟩ := ho
      rw [heq]
      rcases hturn with ⟨-, -, rfl⟩ | ⟨r, slot, hr, -, hadvances⟩
      · exact Or.inl rfl
      · obtain ⟨position, -, hlt, -⟩ := hadvances.turn
        exact Or.inr ⟨r, _, hr, Nat.mod_lt _ (Nat.zero_lt_of_lt hlt), hadvances.positions⟩
  | thrown =>
      obtain ⟨e, limits', -, heq⟩ := ho
      rw [heq]
      exact Or.inl rfl

/-- The rate limit is checked, and the admission state is the one after it. -/
theorem outline_admission (request : HttpRequest) (route : SelectedRoute) :
    outline ((w.setShared (Shared.check request route)).setShared fun s =>
        { s with admission := (w.shared.admission.tryAcquire route w.shared.now).2 })
      = { (outline w).check request route with
          positions := (w.shared.admission.tryAcquire route w.shared.now).2.nextUpstream } := by
  unfold outline Outline.check World.setShared Shared.check
  dsimp only
  rw [RouteProxyAdmission.tryAcquire_rateLimits, RouteProxyAdmission.checkRate_eq,
    (RouteProxyAdmission.tryAcquire_frame _ route _).health]

theorem does_admitProxy (h : Pending t.context w) (hr : t.Reached w)
    (hx : w.env.proxyExchange = none) (hp : w.env.proxyPermit = false)
    {request : HttpRequest} {route : SelectedRoute} {excused : Prop}
    (hselect : selectHttpRoute t.setup.config request = some route)
    (hauth : authorized t.setup route request = true)
    (hincluded : w.env.observation.excluded = false)
    (hunfailed : w.env.observation.failed = false) (hs : t.Starts w.shared route excused) :
    wp t.sites (admitProxy t.setup request route) (fun _ => t.Reached)
      (t.Missed w.env.requestsServed excused) w := by
  have hcheck : t.Reached ((w.setShared (Shared.check request route)).setShared fun s =>
      { s with admission := (w.shared.admission.tryAcquire route w.shared.now).2 }) := by
    unfold Walk.Reached
    rw [outline_admission]
    exact hr.tail (.check hselect hauth (turned_tryAcquire ..))
  have ha : Answering ((w.setShared (Shared.check request route)).setShared fun s =>
      { s with admission := (w.shared.admission.tryAcquire route w.shared.now).2 }) :=
    ⟨h.unfinished, h.toBase.unstopped h.unfinished, h.ops, hx, h.unanswered.completed⟩
  have h₀ : Pending t.context (w.setShared (Shared.check request route)) := { h with }
  unfold admitProxy
  simp only [wp_modify_bind, wp_get_bind]
  rcases RouteProxyAdmission.tryAcquire_cases
      (w.setShared (Shared.check request route)).shared.admission route
      (w.setShared (Shared.check request route)).shared.now with
    ⟨⟨e, herr⟩, hprox⟩ | ⟨r, hok, hpermit, -, hprox⟩
    | ⟨r, u, hok, hpermit, hallowed, hhealthy, hup, -, hroom, hprox⟩
  · simp only [herr]
    exact wp_throw.mpr ⟨hcheck, rfl, Or.inl (hs.admission e herr)⟩
  · simp only [hok]
    have hbuild := hs.sites _ .rejectionBuild
    split
    · exact does_rejectProxy hcheck ha hbuild _ _
    · split
      · exact does_rejectProxy hcheck ha hbuild _ _
      · simp only [wp_modify_bind, hpermit, Bool.not_false, if_true]
        refine does_rejectProxy ?_ ?_ hbuild _ _
        · exact hcheck.same rfl
        · exact ⟨ha.unfinished, ha.unstopped, ha.ops, ha.exchange, ha.unanswered⟩
  · simp only [wp_modify_bind, hok, hallowed, hhealthy, hpermit, hup, Bool.not_true,
      Bool.false_eq_true, if_false]
    have h₁ := h₀.takePermit hp hroom hprox
    have hpermitted : t.Reached (set (fun s => { s with proxyPermit := true })
        (dropPermit ((w.setShared (Shared.check request route)).setShared fun s =>
          { s with admission := (w.shared.admission.tryAcquire route w.shared.now).2 }))) :=
      hcheck.same rfl
    refine wp_bind (wp_mono (wp_and (wp_makeExchange h₁ hx rfl hselect hauth u)
      (does_makeExchange (hs.sites _ .exchangeMake) (hs.trust r _ hok hup) request)) ?_ ?_)
    · rintro k w' ⟨⟨hready, hops⟩, hsame⟩
      have hserved : w'.env.requestsServed = w.env.requestsServed := congrArg Outline.served hsame
      simp only [wp_modify_bind]
      have hown : t.Reached (set (fun s => { s with proxyExchange := some k }) w') := by
        refine (hpermitted.same hsame).move (Outline.Move.own (f := outline w') ?_ ?_ ?_)
        · rw [hsame]
          exact h.phase
        · rw [hsame]
          exact hincluded
        · rw [hsame]
          exact hunfailed
      have hz : (w'.exs k).stages = 0 := by simp [stages, hops]
      refine wp_bind (wp_mono (wp_and (wp_start hready.live hready.stream hz)
        (does_exchange_start hs.sites)) ?_ ?_)
      · rintro _ w₂ ⟨hg, -⟩
        refine wp_modify.mpr ?_
        have hphase : w₂.env.phase = .proxying := hg.same.env ▸ hready.phase
        unfold Walk.Reached
        rw [outline_resetRequest]
        refine (hown.same (outline_same hg.same)).tail (Outline.Move.forget (f := outline w₂) ?_)
        rw [show (outline w₂).phase = .proxying from hphase]
        simp
      · rintro w₂ ⟨hg, hexcused⟩
        refine ⟨hown.same (outline_same hg.same), ?_, Or.inl hexcused⟩
        rw [hg.same.env]
        exact hserved
    · rintro w' ⟨-, hsame, hexcused⟩
      exact ⟨hpermitted.same hsame, congrArg Outline.served hsame, Or.inl hexcused⟩

theorem keepAlive_makeGatewayErrorResponse {request : HttpRequest}
    (h : request.keepAlive = false) (failure : GatewayFailure) :
    (makeGatewayErrorResponse request failure).keepAlive = false := by
  have hjson : ∀ status body, (makeJsonResponse request status body).keepAlive = false := by
    intro status body
    unfold makeJsonResponse
    rw [keepAlive_withPayload, h]
    exact keepAlive_makeBareResponse ..
  cases failure <;> exact hjson _ _

theorem observe_fail_of_completed (h : w.env.observation.completed = true)
    (stage : ProxyFailureStage) : outline (observe (.fail stage) w) = outline w := by
  rw [outline_observe]
  unfold Outline.call ObservationCall.apply ObservationCall.counts RequestObservation.fail
  have hcompleted : (outline w).observation.completed = true := h
  simp [hcompleted, counted]

/-- The `catch` of `start_proxy_request`: it does not look at the number of
requests, so the bound holds only with an excuse. -/
theorem does_onStartFailed {request : HttpRequest} {served : Nat} {excused : Prop}
    (h : Failed t.context t.sites w) (hm : t.Missed served excused w)
    (hexcuse : excused → t.lenient ∨ served < maxRequestsPerConnection
      ∨ request.keepAlive = false) :
    wp t.sites (onStartFailed t.setup request) (fun _ => t.Reached) R w := by
  have hr : t.Reached (cancelProxy w) :=
    hm.reached.move (Outline.Move.disown (f := outline w))
  unfold onStartFailed
  simp only [wp_modify_bind]
  refine wp_tryCatch (wp_mono (Q := fun _ => t.Reached) (E := t.Reached) ?_ (fun _ _ hq => hq)
    fun _ hr' => wp_modify.mpr hr'.closeSocket)
  refine wp_mayThrow_bind ?_ fun _ => hr
  simp only [wp_modify_bind]
  rcases h with hp | ⟨hl, -⟩
  · have ha : Answering (cancelProxy w) :=
      ⟨hp.unfinished, hp.toBase.unstopped hp.unfinished, hp.ops, rfl, hp.unanswered.completed⟩
    refine does_answer (hr.observeFail ha hp.phase .connect) (ha.observe _) _ _ ?_
    rcases hm.excuse with he | hc
    · rcases hexcuse he with hlenient | hlt | hka
      · exact Or.inl hlenient
      · refine Or.inr (Or.inl ?_)
        show w.env.requestsServed < maxRequestsPerConnection
        rw [hm.served]
        exact hlt
      · exact capped_closing (keepAlive_makeGatewayErrorResponse hka _)
    · rw [hp.unanswered.completed] at hc
      cases hc
  · -- the answer was lost, and nothing is written any more
    have hdone : (cancelProxy w).env.observation.completed = true := hl.completed
    have hsame := hr.same (observe_fail_of_completed hdone .connect)
    unfold writeResponse
    simp only [wp_get_bind]
    have hdone' : (observe (.fail .connect) (cancelProxy w)).env.observation.completed = true :=
      (RequestObservation.call_completed ..).trans hdone
    rw [if_pos (by simp [hdone'])]
    exact wp_modify.mpr (hsame.same rfl)

theorem does_startProxyRequest (h : Pending t.context w) (hr : t.Reached w)
    (hx : w.env.proxyExchange = none) (hp : w.env.proxyPermit = false)
    {request : HttpRequest} {route : SelectedRoute}
    (hselect : selectHttpRoute t.setup.config request = some route)
    (hauth : authorized t.setup route request = true)
    (hincluded : w.env.observation.excluded = false)
    (hunfailed : w.env.observation.failed = false)
    (hs : t.Starts w.shared route (t.lenient ∨ w.env.requestsServed < maxRequestsPerConnection
      ∨ request.keepAlive = false)) :
    wp t.sites (startProxyRequest t.setup request route) (fun _ => t.Reached) R w := by
  unfold startProxyRequest
  refine wp_tryCatch (wp_mono (wp_and (wp_admitProxy h hx hp hselect hauth)
    (does_admitProxy h hr hx hp hselect hauth hincluded hunfailed hs)) (fun _ _ hq => hq.2) ?_)
  rintro w' ⟨hfailed, hmissed⟩
  exact does_onStartFailed hfailed hmissed id

/-- A request was read, and its observation is as `on_read_header` left it. -/
structure Walk.HasRead (t : Walk) (w : World Session) (parser : RequestParser) : Prop where
  held : w.env.parser = some parser
  reading : (outline w).Reading t.setup t.lenient
  starts : ∀ route, selectHttpRoute t.setup.config parser.request = some route →
    authorized t.setup route parser.request = true →
    t.Starts w.shared route (t.lenient ∨ w.env.requestsServed + 1 < maxRequestsPerConnection
      ∨ parser.request.keepAlive = false)

theorem Walk.HasRead.excluded {parser : RequestParser} (h : t.HasRead w parser) :
    w.env.observation.excluded = isMetricsTarget t.setup.config parser.request.target := by
  obtain ⟨target, htarget, hexcluded⟩ := h.reading.target
  have hsome : w.env.parser.map (fun p => p.request.target) = some target := htarget
  rw [h.held, Option.map_some, Option.some.injEq] at hsome
  rw [hsome]
  exact hexcluded

/-- Requests for the metrics are not proxied. -/
theorem selectHttpRoute_metrics {config : AppConfig} {request : HttpRequest}
    {route : SelectedRoute} (h : selectHttpRoute config request = some route) :
    isMetricsTarget config request.target = false := by
  unfold selectHttpRoute at h
  split at h
  · cases h
  · split at h
    · cases h
    · rename_i hlocal
      simp only [Bool.or_eq_true, not_or, Bool.not_eq_true] at hlocal
      exact hlocal.2

theorem does_processRequest (h : Asking t.context w) (hgate : t.context.touched)
    (hr : t.Reached w) {parser : RequestParser} (hread : t.HasRead w parser) :
    t.Does (processRequest t.setup) w := by
  have ha : Answering w := h.toFree.answering h.unanswered.completed
  unfold processRequest Walk.Does
  simp only [wp_modify_bind, wp_get_bind]
  have hparser : (record [.dispatch] w).env.parser = some parser := hread.held
  rw [hparser]
  simp only [wp_modify_bind]
  have hdispatch : t.Reached (set (fun s => { s with
      observation := s.observation.begin (record [.dispatch] w).shared.now
      requestsServed := s.requestsServed + 1 }) (record [.dispatch] w)) :=
    hr.move (Outline.Move.dispatch (f := outline w) w.shared.now ha.pending hread.reading)
  have hbegun : (w.env.observation.begin w.shared.now).completed = false :=
    (RequestObservation.begin_completed ..).trans ha.unanswered
  have ha₁ : Answering (set (fun s => { s with
      observation := s.observation.begin (record [.dispatch] w).shared.now
      requestsServed := s.requestsServed + 1 }) (record [.dispatch] w)) :=
    ⟨ha.unfinished, ha.unstopped, ha.ops, ha.exchange, hbegun⟩
  split
  · rename_i route hselect
    refine wp_mayThrow_bind ?_ fun _ => hdispatch
    split
    · refine wp_mayThrow_bind ?_ fun _ => hdispatch
      simp only [wp_get_bind]
      exact does_answer hdispatch ha₁ _ _ (capped_limitRequests rfl _)
    · rename_i hauth
      have hauth' : authorized t.setup route parser.request = true := by simpa using hauth
      simp only [wp_modify_bind]
      refine does_startProxyRequest ?_ ?_ ?_ ?_ hselect hauth' ?_ ?_ ?_
      · exact
          { h.toBase with
            unfinished := h.unfinished
            ops := h.ops
            phase := rfl
            unanswered := ⟨hbegun, h.unanswered.trace⟩
            touched := hgate }
      · exact hdispatch.move (Outline.Move.proxy ha₁.pending hread.reading.phase)
      · exact h.exchange
      · exact h.permit
      · show (w.env.observation.begin w.shared.now).excluded = false
        rw [RequestObservation.begin_excluded, hread.excluded]
        exact selectHttpRoute_metrics hselect
      · show (w.env.observation.begin w.shared.now).failed = false
        rw [RequestObservation.begin_failed]
        exact hread.reading.unfailed
      · exact hread.starts route hselect hauth'
  · exact does_answerLocally hdispatch ha₁ _

/-! ## Reads -/

theorem Asking.answering (h : Asking t.context w) : Answering w :=
  h.toFree.answering h.unanswered.completed

theorem does_startBody (h : t.Reached w) (hread : (outline w).Reading t.setup t.lenient)
    (hops : w.env.ops = []) :
    t.Does (do mayThrow .readBodyInit; modify (addOp .readBody)) w := by
  refine wp_mayThrow_bind (wp_modify.mpr ?_) fun _ => h
  unfold Walk.Reached
  rw [outline_addBody hops]
  exact h.tail (Outline.Move.readBody hread)

theorem does_onReadHeader (h : Asking t.context w) (hgate : t.context.touched)
    (hr : t.Reached (excludeMetrics t.setup w)) {parser : RequestParser}
    (hread : t.HasRead (excludeMetrics t.setup w) parser) (error : Error) :
    t.Does (onReadHeader t.setup error) w := by
  unfold onReadHeader Walk.Does
  simp only [wp_modify_bind, wp_get_bind]
  have h' := h.excludeMetrics
  generalize excludeMetrics t.setup w = w₁ at h' hr hread
  have ha := h'.answering
  rw [if_neg (by simp [ha.unfinished])]
  split
  · exact does_handleReadError hr ha _
  · rename_i hnone
    rw [hread.held] at hnone
    cases hnone
  · rename_i parser' hparser
    have heq : parser' = parser := by
      rw [hread.held] at hparser
      exact (Option.some.inj hparser).symm
    subst heq
    split
    · exact does_writeProtocolError hr ha _ _ _
    · split
      · exact does_writeProtocolError hr ha _ _ _
      · split
        · exact does_processRequest h' hgate hr hread
        · exact does_writeProtocolError hr ha _ _ _
        · split
          · exact does_rejectBufferBudget hr ha _
          · rename_i permit budget _
            refine wp_mayThrow_bind ?_ fun _ => hr
            simp only [wp_modify_bind]
            have hshared : outline { w₁ with
                shared := Shared.newCell permit
                  (Shared.dropCell w₁.env.requestBodyPermit { w₁.shared with budget }) }
                = outline w₁ :=
              outline_shared (by simp [Shared.newCell]) (by simp [Shared.newCell])
                (by simp [Shared.newCell]) (by simp [Shared.newCell])
            have hreserved : outline (set
                (fun s => { s with requestBodyPermit := some w₁.shared.nextCell })
                (w₁.setShared fun s => Shared.newCell permit
                  (Shared.dropCell w₁.env.requestBodyPermit { s with budget }))) = outline w₁ :=
              hshared
            refine does_startBody (hr.same hreserved) ?_ ha.ops
            rw [hreserved]
            exact hread.reading

theorem does_onReadBody (h : Asking t.context w) (hgate : t.context.touched)
    (hr : t.Reached w) {parser : RequestParser} (hread : t.HasRead w parser) (error : Error) :
    t.Does (onReadBody t.setup error) w := by
  unfold onReadBody Walk.Does
  simp only [wp_get_bind]
  rw [if_neg (by simp [h.unfinished])]
  split
  · exact does_handleReadError hr h.answering _
  · split
    · exact wp_modify.mpr hr.closeSocket
    · rename_i w' hshrink
      simp only [wp_modify_bind]
      obtain ⟨budget, cells, rfl⟩ := shrinkRequest_eq hshrink
      have hb : Base t.context { w with shared := { w.shared with budget, cells } } :=
        h.toBase.shared rfl rfl
      have hask : Asking t.context { w with shared := { w.shared with budget, cells } } :=
        { hb with
          unfinished := h.unfinished
          ops := h.ops
          exchange := h.exchange
          permit := h.permit
          notClosing := h.notClosing
          unanswered := h.unanswered }
      have hread' : t.HasRead { w with shared := { w.shared with budget, cells } } parser :=
        { hread with
          starts := fun route hselect hauth => { hread.starts route hselect hauth with } }
      exact does_processRequest hask hgate (hr.same rfl) hread'

theorem does_onHandshake (h : t.Reached w) (hf : w.env.finished = false) (hops : w.env.ops = [])
    (hx : w.env.proxyExchange = none) (hcap : t.Spare w) (error : Error) :
    t.Does (onHandshake error) w := by
  unfold onHandshake Walk.Does
  simp only [wp_get_bind]
  rw [if_neg (by simp [hf])]
  split
  · exact wp_modify.mpr h.closeSocket
  · simp only [wp_modify_bind]
    exact does_readRequest (h.same rfl) hf hops hx hcap

theorem does_session_start (h : t.Reached w) (hf : w.env.finished = false)
    (hd : w.env.draining = false) (hops : w.env.ops = []) (hx : w.env.proxyExchange = none)
    (hserved : w.env.requestsServed = 0) : t.Does (start t.setup) w := by
  unfold start
  split
  · refine does_readRequest h hf hops hx (Or.inr ?_)
    rw [hserved]
    decide
  · unfold Walk.Does
    simp only [wp_modify_bind]
    have hshake : t.Reached (set (fun s => { s with phase := .handshaking }) w) :=
      h.move (Outline.Move.handshake (f := outline w) hd hserved (by simp [outline, hops])
        (by simp [outline, hops]))
    refine wp_mayThrow_bind ?_ fun _ => hshake
    exact wp_modify.mpr (hshake.same (outline_addOp (by simp) (by simp) (by simp)))

theorem does_onShutdown (h : t.Reached w) :
    wp t.sites onShutdown (fun _ => t.Reached) R w := by
  unfold onShutdown
  simp only [wp_get_bind]
  split
  · exact wp_pure.mpr h
  · exact wp_modify.mpr h.closeSocket

/-! ## Completions -/

/-- An operation other than the read of a header is no longer outstanding. -/
theorem outline_receive {x : Completion} (hop : x.op ≠ .readHeader)
    (hfits : x.fits w.env = true) : outline (set x.receive w) = { outline w with
      headers := (w.env.ops.erase x.op).count .readHeader
      bodies := (w.env.ops.erase x.op).count .readBody
      reuse := (w.env.ops.erase x.op).contains (.write false) } := by
  have htarget : (x.receive w.env).parser.map (fun p => p.request.target)
      = w.env.parser.map fun p => p.request.target := by
    unfold Completion.receive Completion.fits at *
    by_cases hbody : x.op = .readBody
    · cases hparser : w.env.parser with
      | none => simp
      | some p =>
          simp only [hbody, hparser, ne_eq, not_true_eq_false, decide_false, Bool.false_or,
            Option.all_some, Bool.and_eq_true, decide_eq_true_eq] at hfits
          simp [hbody, hfits.1.2]
    · simp [hop, hbody]
  unfold outline Session.set
  dsimp only
  rw [htarget]
  rfl

theorem Walk.Reached.receive (h : t.Reached w) {x : Completion} (hop : x.op ≠ .readHeader)
    (hfits : x.fits w.env = true) : t.Reached (set x.receive w) := by
  unfold Walk.Reached
  rw [outline_receive hop hfits]
  refine h.tail (Outline.Move.settle (f := outline w) ?_ ?_ ?_)
  · exact (List.erase_sublist).count_le _
  · exact (List.erase_sublist).count_le _
  · intro hmem
    simp only [List.contains_eq_mem, decide_eq_true_eq] at hmem
    simpa [outline] using List.mem_of_mem_erase hmem

/-- The read of a header is no longer outstanding, and `on_read_header` has looked
at what it read. -/
theorem outline_receiveHeader {g : Setup} {x : Completion} (hop : x.op = .readHeader)
    {p : RequestParser} (hparser : w.env.parser = some p) :
    outline (excludeMetrics g (set x.receive w)) = { outline w with
      headers := w.env.ops.count .readHeader - 1
      target := some x.parser.request.target
      observation := w.env.observation.exclude (isMetricsTarget g.config x.parser.request.target)
      log := .header x.parser.request.target :: w.env.log } := by
  unfold excludeMetrics outline Completion.receive Session.set
  simp [hop, hparser]

theorem Walk.Reached.receiveHeader (h : t.Reached w) {x : Completion} (hop : x.op = .readHeader)
    (hmem : x.op ∈ w.env.ops) (hx : w.env.proxyExchange = none) :
    t.Reached (excludeMetrics t.setup (set x.receive w)) := by
  have hpos : 0 < w.env.ops.count .readHeader := List.count_pos_iff.mpr (hop ▸ hmem)
  unfold Walk.Reached
  cases hparser : w.env.parser with
  | none =>
      have hsame : outline (excludeMetrics t.setup (set x.receive w))
          = { outline w with headers := w.env.ops.count .readHeader - 1 } := by
        unfold excludeMetrics outline Completion.receive Session.set
        simp [hop, hparser]
      rw [hsame]
      exact h.tail (Outline.Move.settle (f := outline w) (Nat.sub_le _ _) (Nat.le_refl _) id)
  | some p =>
      rw [outline_receiveHeader hop hparser]
      exact h.tail (Outline.Move.header (f := outline w) x.parser.request.target hpos
        (by simp [outline, hx]))

/-- Once a session is finished, what still completes finds it so. -/
theorem does_handler_over (h : Base t.context w) (hf : w.env.finished = true)
    (hr : t.Reached w) (x : Completion) (hmem : x.op ∈ w.env.ops) (hfits : x.fits w.env = true) :
    wp t.sites (handler t.setup x) (fun _ => t.Reached) R (set x.receive w) := by
  have hrun : ∀ {m : SessionAct Unit}, t.Does m (set x.receive w) →
      wp t.sites (runHandler m) (fun _ => t.Reached) R (set x.receive w) :=
    fun hm => hm.runHandler
  have hreceived : x.op ≠ .readHeader → t.Reached (set x.receive w) :=
    fun hop => hr.receive hop hfits
  have hf' : (set x.receive w).env.finished = true := hf
  have hstream : ∀ k final, x.op ≠ .readHeader → k < w.nextExchange →
      wp t.sites (onStreamWritten t.setup k final x.error) (fun _ => t.Reached) R
        (set x.receive w) := by
    intro k final hop hk
    have hended : Ended (w.exs k) := h.over (by simp [(h.unowned hf).1]) hk
    unfold onStreamWritten
    simp only [wp_modify_bind, hf', Bool.not_true, Bool.and_false, Bool.false_eq_true, if_false]
    refine hrun (wp_mono (wp_resumeStream_ended (w := set x.receive w) hended final x.error) ?_
      fun _ hfa => hfa.elim)
    rintro _ w' rfl
    exact hreceived hop
  have huses := h.uses x.op hmem
  unfold handler
  split
  · rename_i hop
    refine hrun ?_
    unfold onHandshake Walk.Does
    simp only [wp_get_bind, hf', if_true]
    exact wp_pure.mpr (hreceived (by simp [hop]))
  · rename_i hop
    refine hrun ?_
    unfold onReadHeader Walk.Does
    simp only [wp_modify_bind, wp_get_bind]
    have hexcluded : (excludeMetrics t.setup (set x.receive w)).env.finished = true := by
      unfold excludeMetrics
      split
      · exact hf
      · exact hf
    rw [if_pos hexcluded]
    exact wp_pure.mpr (hr.receiveHeader hop hmem (h.unowned hf).1)
  · rename_i hop
    refine hrun ?_
    unfold onReadBody Walk.Does
    simp only [wp_get_bind, hf', if_true]
    exact wp_pure.mpr (hreceived (by simp [hop]))
  · rename_i hop
    refine hrun ?_
    unfold onWrite Walk.Does
    simp only [wp_get_bind, hf', if_true]
    exact wp_pure.mpr (hreceived (by simp [hop]))
  · rename_i k final hop
    exact hstream k final (by simp [hop]) (huses k (by simp [hop, SessionOp.uses]))
  · rename_i k final hop
    exact hstream k final (by simp [hop]) (huses k (by simp [hop, SessionOp.uses]))
  · rename_i hop
    exact does_onShutdown (hreceived (by simp [hop]))

/-- The exceptions of `start_proxy_request` have an excuse, should this event make
the session dispatch a request. -/
def Walk.Excused (t : Walk) (w : World Session) (event : Event) : Prop :=
  ∀ x, event = .completion x → x.op = .readHeader ∨ x.op = .readBody →
    ∀ route, selectHttpRoute t.setup.config x.parser.request = some route →
      authorized t.setup route x.parser.request = true →
      t.Starts w.shared route (t.lenient ∨ w.env.requestsServed + 1 < maxRequestsPerConnection
        ∨ x.parser.request.keepAlive = false)

theorem Outline.Reading.parser {g : Setup} {lenient : Prop}
    (h : (outline w).Reading g lenient) : ∃ p, w.env.parser = some p := by
  obtain ⟨target, htarget, -⟩ := h.target
  obtain ⟨p, hp, -⟩ := Option.map_eq_some_iff.mp htarget
  exact ⟨p, hp⟩

theorem excludeMetrics_shared (g : Setup) (w : World Session) :
    (excludeMetrics g w).shared = w.shared := by
  unfold excludeMetrics
  split <;> rfl

/-- A stream write completes. -/
theorem does_onStreamWritten (h : Owning w k) (hr : t.Reached w) (hl : Live (w.exs k))
    (hs : (w.exs k).streamStarted = true) (hw : Writing t w) (hops : w.env.ops = [])
    (final : Bool) (error : Error) :
    wp t.sites (onStreamWritten t.setup k final error) (fun _ => t.Reached) R w := by
  unfold onStreamWritten
  simp only [wp_modify_bind]
  refine Walk.Does.runHandler ?_
  -- the mark in the trace does not show
  have hmarked : ∀ {mark : Mark}, t.Reached (note mark w) := hr.same rfl
  have hnext : ∀ {w' : World Session}, Owning w' k → t.Reached w' → Live (w'.exs k) →
      (w'.exs k).streamStarted = true → Writing t w' → w'.env.ops = [] →
      t.Does (resumeStream (endCallbacks t.setup) k final error) w' := by
    intro w' h' hr' hl' hs' hw' hops'
    refine wp_mono (Q := fun _ => t.Reached) (E := fun _ => False) ?_ (fun _ _ hq => hq)
      fun _ hf => hf.elim
    have hresumed : t.Reached (resumed k error w') := hr'.same rfl
    have hwriting : Writing t (resumed k error w') :=
      ⟨hw'.noHeader, hw'.noBody, hw'.phase, hw'.spare⟩
    refine wp_resumeStream hl' hs'
      ((h'.setEx _).walk_ends hresumed (fun _ => hops') fun _ => hwriting) ?_
    exact fun _ _ => hresumed.same rfl
  split
  · exact hnext ⟨h.unfinished, h.unstopped, h.exchange⟩ hmarked hl hs
      ⟨hw.noHeader, hw.noBody, hw.phase, hw.spare⟩ hops
  · exact hnext h hr hl hs hw hops

/-- The step lemma for the session's own operations, one case for each mode. -/
theorem does_completion {F : Site → Prop} (h : Rest t.context F w)
    (htame : Outline.Tame t.setup t.lenient (outline w)) (hgate : t.context.touched)
    (hr : t.Reached w) (x : Completion) (hmem : x.op ∈ w.env.ops) (hfits : x.fits w.env = true)
    (hstart : t.Excused w (.completion x)) :
    wp t.sites (handler t.setup x) (fun _ => t.Reached) R (set x.receive w) := by
  have hreceived : x.op ≠ .readHeader → t.Reached (set x.receive w) :=
    fun hop => hr.receive hop hfits
  have hb : Base t.context (set x.receive w) := h.toBase.received x
  cases h.mode with
  | gone hf => exact does_handler_over h.toBase hf hr x hmem hfits
  | handshaking hf hx hphase hops htrace =>
      have hop : x.op = .handshake := by simpa [hops] using hmem
      have hfree := h.received x hf hx (hop ▸ hops) (by simp [hphase])
      unfold handler
      rw [hop]
      refine Walk.Does.runHandler (does_onHandshake (hreceived (by simp [hop])) hf hfree.ops hx
        (Or.inr ?_) _)
      show w.env.requestsServed < maxRequestsPerConnection
      rw [show w.env.requestsServed = 0 from htame.handshaking hphase]
      decide
  | reading op hf hx hphase hops hreads hu =>
      have hop : x.op = op := by simpa [hops] using hmem
      have hfree := h.received x hf hx (hop ▸ hops) (by simp [hphase])
      have hask : Asking t.context (set x.receive w) :=
        { hfree with unanswered := ⟨hu.completed, hu.trace⟩ }
      have hreading : (outline w).Reading t.setup t.lenient := by
        refine htame.read hf ?_
        show 0 < w.env.ops.count .readHeader + w.env.ops.count .readBody
        rw [hops]
        rcases hreads with rfl | rfl <;> decide
      obtain ⟨p, hparser⟩ := Outline.Reading.parser hreading
      have hexcused := hstart x rfl (hop ▸ hreads)
      unfold handler
      rcases hreads with rfl | rfl
      · rw [hop]
        have hheader := outline_receiveHeader (g := t.setup) hop hparser
        refine Walk.Does.runHandler (does_onReadHeader hask hgate (hr.receiveHeader hop hmem hx)
          (?_ : t.HasRead _ x.parser) _)
        refine ⟨?_, ?_, ?_⟩
        · simp [excludeMetrics, Completion.receive, Session.set, hop, hparser]
        · rw [hheader]
          exact { hreading with target := ⟨_, rfl, rfl⟩ }
        · intro route hselect hauth
          have hserved : (excludeMetrics t.setup (set x.receive w)).env.requestsServed
              = w.env.requestsServed := congrArg Outline.served hheader
          rw [excludeMetrics_shared, hserved]
          exact hexcused route hselect hauth
      · rw [hop]
        refine Walk.Does.runHandler (does_onReadBody hask hgate (hreceived (by simp [hop]))
          (?_ : t.HasRead _ x.parser) _)
        refine ⟨?_, ?_, hexcused⟩
        · simp [Completion.receive, Session.set, hop, hparser]
        · rw [outline_receive (by simp [hop]) hfits]
          exact { hreading with }
  | proxying _ _ _ _ hops =>
      rw [hops] at hmem
      cases hmem
  | streaming k hf hx hphase ha hl hs hw =>
      have hown : Owning (set x.receive w) k := ⟨hf, h.toBase.unstopped hf, hx⟩
      have hstream : ∀ {op : SessionOp}, w.env.ops = [op] → x.op = op ∧ w.env.ops.erase x.op = [] := by
        intro op hops
        have hop : x.op = op := by simpa [hops] using hmem
        refine ⟨hop, ?_⟩
        rw [hops, hop, List.erase_cons_head]
      have hwriting : w.env.ops.erase x.op = [] → Writing t (set x.receive w) := by
        intro hdone
        refine ⟨?_, ?_, hphase, htame.stream hf hphase ?_⟩
        · show (w.env.ops.erase x.op).count .readHeader = 0
          rw [hdone]
          rfl
        · show (w.env.ops.erase x.op).count .readBody = 0
          rw [hdone]
          rfl
        · show w.env.proxyExchange.isSome = true
          rw [hx]
          rfl
      unfold handler
      rcases hw with ⟨hops, -⟩ | ⟨final, hops | hops, -⟩
      · rw [hops] at hmem
        cases hmem
      · obtain ⟨hop, hdone⟩ := hstream hops
        rw [hop]
        exact does_onStreamWritten hown (hreceived (by simp [hop])) hl hs (hwriting hdone) hdone _ _
      · obtain ⟨hop, hdone⟩ := hstream hops
        rw [hop]
        exact does_onStreamWritten hown (hreceived (by simp [hop])) hl hs (hwriting hdone) hdone _ _
  | writing closeAfterWrite hf hx hphase hops ha =>
      have hop : x.op = .write closeAfterWrite := by simpa [hops] using hmem
      have hfree := h.received x hf hx (hop ▸ hops) (by simp [hphase])
      unfold handler
      rw [hop]
      refine Walk.Does.runHandler (does_onWrite (hreceived (by simp [hop])) hf hfree.ops hx hphase
        _ fun hclose => ?_)
      refine htame.reuse hf ?_
      show w.env.ops.contains (.write false) = true
      rw [hops, hclose]
      decide
  | closing hf hx hphase hops =>
      have hop : x.op = .shutdown := by simpa [hops] using hmem
      unfold handler
      rw [hop]
      exact does_onShutdown (hreceived (by simp [hop]))
  | stuck _ _ _ _ hops =>
      rw [hops] at hmem
      cases hmem

/-! ## Events -/

/-- An operation of any exchange completes. -/
theorem does_exchange {F : Site → Prop} (h : Rest t.context F w)
    (htame : Outline.Tame t.setup t.lenient (outline w)) (hr : t.Reached w)
    (hk : k < w.nextExchange) (x : Exchange.Completion) :
    wp t.sites (dispatch (endCallbacks t.setup) t.setup.lib (streamCallbacks t.setup) k x)
      (fun _ => t.Reached) (fun _ => False) w := by
  by_cases hown : w.env.proxyExchange = some k
  · have hne : w.env.proxyExchange ≠ none := by simp [hown]
    have hreceived : t.Reached (w.setEx k x.receive) := hr.same rfl
    have hstarted : ((w.setEx k x.receive).exs k).streamStarted = (w.exs k).streamStarted := by
      rw [World.setEx_same, receive_streamStarted]
    cases h.mode with
    | gone hf => exact absurd (h.unowned hf).1 hne
    | proxying j hf hx hphase hops hu hl hs =>
        rw [hown] at hx
        cases hx
        have howning : Owning w k := ⟨hf, h.toBase.unstopped hf, hown⟩
        exact wp_dispatch hl x hr fun _ => walk_proxying (howning.setEx x.receive) hreceived hops
          hphase hu.completed (hstarted.trans hs)
    | streaming j hf hx hphase ha hl hs hw =>
        rw [hown] at hx
        cases hx
        have howning : Owning w k := ⟨hf, h.toBase.unstopped hf, hown⟩
        refine wp_dispatch hl x hr fun _ => walk_streaming (howning.setEx x.receive) hreceived
          (hstarted.trans hs) ?_
        have hreads : w.env.ops.count .readHeader = 0 ∧ w.env.ops.count .readBody = 0 := by
          rcases hw with ⟨hops, -⟩ | ⟨final, hops | hops, -⟩
          all_goals
            rw [hops]
            simp
        refine ⟨hreads.1, hreads.2, hphase, htame.stream hf hphase ?_⟩
        show w.env.proxyExchange.isSome = true
        rw [hown]
        rfl
    | handshaking _ hn | reading _ _ hn | writing _ _ hn | closing _ hn | stuck _ _ hn =>
        exact absurd hn hne
  · refine wp_mono (wp_dispatch_ended (h.over hown hk) x) ?_ fun _ hf => hf
    rintro _ w' (rfl | rfl)
    · exact hr
    · exact hr.same rfl

theorem Walk.Reached.destroyExchange (h : t.Reached w) (k : Nat) :
    t.Reached (destroyExchange k w) := by
  unfold Session.destroyExchange
  split
  · have hsame : outline (w.setShared fun s => Shared.dropCell (w.exs k).requestBodyPermit
        (Shared.dropPermit (w.exs k).responseBodyPermit
          (Shared.dropPermit (w.exs k).streamPermit s))) = outline w :=
      outline_shared (by simp [Shared.dropPermit]) (by simp [Shared.dropPermit])
        (by simp [Shared.dropPermit]) (by simp [Shared.dropPermit])
    exact h.same hsame
  · exact h

theorem Walk.Reached.destroy (h : t.Reached w) : t.Reached (destroy w) := by
  unfold Session.destroy
  split
  · have hsame : outline (w.setShared fun s => Shared.dropCell w.env.requestBodyPermit
        (Shared.dropPermit w.env.responseBodyPermit s)) = outline w :=
      outline_shared (by simp [Shared.dropPermit]) (by simp [Shared.dropPermit])
        (by simp [Shared.dropPermit]) (by simp [Shared.dropPermit])
    exact h.same hsame
  · exact h

/-- The simulation: an event is a sequence of moves. -/
theorem does_handle {F : Site → Prop} (h : Steady t.context F w)
    (htame : Outline.Tame t.setup t.lenient (outline w)) (hgate : t.context.touched)
    (hr : t.Reached w) (event : Event) (hstart : t.Excused w event) :
    wp t.sites (handle t.setup event) (fun _ => t.Reached) (fun _ => False) w := by
  unfold handle
  cases event with
  | start =>
      simp only [wp_get_bind]
      split
      · exact wp_pure.mpr hr
      · rename_i hnew
        rcases h with hidle | hrest
        · simp only [wp_modify_bind]
          have hnew' : w.env.started = false := by simpa using hnew
          refine wp_tryCatch (wp_mono (Q := fun _ => t.Reached) (E := t.Reached) ?_
            (fun _ _ hq => hq) fun _ hr' => wp_modify.mpr hr'.stop)
          have haccept : t.Reached (set (fun s => { s with started := true }) w) :=
            hr.move (Outline.Move.accept (f := outline w) hnew')
          have henv := hidle.env
          refine does_session_start haccept ?_ ?_ ?_ ?_ ?_
          all_goals simp [Session.set, henv]
        · exact absurd hrest.started hnew
  | completion x =>
      simp only [wp_get_bind]
      split
      · rename_i hready
        simp only [Bool.and_eq_true, decide_eq_true_eq] at hready
        simp only [wp_modify_bind]
        rcases h with hidle | hrest
        · have hops : w.env.ops = [] := by simp [hidle.env]
          rw [hops] at hready
          cases hready.1
        · exact does_completion hrest htame hgate hr x hready.1 hready.2 hstart
      · exact wp_pure.mpr hr
  | exchange k x =>
      simp only [wp_get_bind]
      split
      · rename_i hk
        rcases h with hidle | hrest
        · rw [hidle.next] at hk
          exact absurd hk (Nat.not_lt_zero k)
        · exact does_exchange hrest htame hr hk x
      · exact wp_pure.mpr hr
  | drain =>
      simp only [wp_get_bind]
      split
      · rename_i hstarted
        exact wp_modify.mpr (hr.beginDrain hstarted)
      · exact wp_pure.mpr hr
  | stop =>
      simp only [wp_get_bind]
      split
      · exact wp_modify.mpr hr.stop
      · exact wp_pure.mpr hr
  | destroyExchange k => exact wp_modify.mpr (hr.destroyExchange k)
  | destroy => exact wp_modify.mpr hr.destroy

end Session

end ApiGate
