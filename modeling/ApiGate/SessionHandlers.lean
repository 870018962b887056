import ApiGate.SessionInvariant

/-!
# The functions of a session keep the invariant

One rule for each function of `Session`, in the order of the calls. A function
that ends a handler leaves the session at rest, or throws with `Base`, after
which `run_handler` closes the session. The exceptions are
`start_proxy_request`, which answers an exception itself, and the stream
callbacks, whose exceptions go to the exchange and come back as an abort.
-/

namespace ApiGate

open EventLoop Act Exchange

namespace Session

variable {c : Context} {F : Site → Prop} {w w' : World Session} {k : Nat}
  {R : World Session → Prop}

theorem Free.permit_eq (h : Free c w) : w.env.proxyPermit = w.env.proxyExchange.isSome := by
  rw [h.exchange, h.permit]
  rfl

/-! ## Reading and writing -/

theorem wp_gracefulClose (h : Free c w) :
    wp F (gracefulClose c.setup) (fun _ => Loose c F) R w := by
  unfold gracefulClose
  simp only [wp_get_bind]
  rw [if_neg (by simp [h.unfinished, h.notClosing])]
  split
  · exact wp_modify.mpr h.toBase.closeSocket
  · simp only [wp_modify_bind]
    have hb : Base c (set (fun s => { s with phase := .closing }) w) := { h.toBase with }
    refine wp_tryCatch (wp_mayThrow_bind ?_ fun _ => wp_modify.mpr hb.closeSocket)
    refine wp_modify.mpr ?_
    exact
      { h.toBase with
        uses := uses_cons h.ops fun _ hu => by cases hu
        permit := h.permit_eq
        mode := .closing h.unfinished h.exchange rfl (by simp [addOp, set, h.ops])
        loose := h.exchange }

theorem wp_readRequest (h : Free c w) (hfollows : Mark.readRequest.Follows w.env.trace) :
    wp F readRequest (fun _ => Loose c F) (Base c) w := by
  have hb : Base c (note .readRequest w) :=
    { h.toBase with orderly := ⟨h.orderly, hfollows, trivial⟩ }
  unfold readRequest
  simp only [wp_modify_bind, wp_get_bind]
  split
  · exact wp_modify.mpr hb.closeSocket
  · simp only [wp_modify_bind]
    refine wp_mayThrow_bind ?_ fun _ => { hb with }
    refine wp_modify.mpr ?_
    exact
      { hb with
        uses := uses_cons h.ops fun _ hu => by cases hu
        permit := h.permit_eq
        mode := .reading .readHeader h.unfinished h.exchange rfl (by simp [addOp, set, note, record, h.ops])
          (Or.inl rfl) ⟨rfl, _, rfl⟩
        loose := h.exchange }

/-- The response that is sent differs at most in its Connection field. -/
theorem keepAlive_sent (close : Bool) (response : HttpResponse) : ∃ sent,
    (if close then response.setKeepAlive false else response) = sent
      ∧ sent.status = response.status ∧ sent.reason = response.reason := by
  refine ⟨_, rfl, ?_⟩
  split <;> exact ⟨rfl, rfl⟩

/-- The answer to the request was lost on its way to the transport. -/
structure Lost (c : Context) (w : World Session) : Prop extends Free c w where
  completed : w.env.observation.completed = true
  phase : w.env.phase = .writing

theorem wp_writeResponse (h : Free c w) (hu : Unanswered w.env) {site : Site}
    {upstream : Option HttpResponse} {response : HttpResponse} (permit : BufferBudgetPermit)
    (hfrom : ∀ up, upstream = some up → response.From c.setup.lib up) :
    wp F (writeResponse c.setup site upstream response permit) (fun _ => Loose c F)
      (fun w' => Lost c w' ∧ ¬F site) w := by
  unfold writeResponse
  simp only [wp_get_bind]
  rw [if_neg (by simp [h.unfinished, h.toBase.unstopped h.unfinished, hu.completed])]
  simp only [wp_modify_bind]
  have hcompleted : (w.env.observation.finish w.shared.metrics response.status
      w.shared.now).2.1.completed = true := RequestObservation.finish_completed ..
  have hlost : Lost c (set (fun s => { s with phase := .writing })
      (finishObservation response.status w)) :=
    { h with
      completed := hcompleted
      phase := rfl
      notClosing := by simp [set] }
  obtain ⟨sent, hsent, hstatus, hreason⟩ := keepAlive_sent w.env.draining response
  rw [hsent]
  refine wp_ask_bind ?_ fun hF => ?_
  · simp only [Bool.false_eq_true, if_false, wp_modify_bind]
    have hsound : (Mark.head upstream sent (w.env.observation.finish w.shared.metrics
        response.status w.shared.now).2.1.status).Sound c.setup.lib := by
      refine ⟨?_, fun up hup => ?_⟩
      · rw [RequestObservation.finish_status hu.completed, hstatus]
      · obtain ⟨hs, hr⟩ := hfrom up hup
        exact ⟨hstatus.trans hs, hreason.trans hr⟩
    have horderly : Orderly c.setup.lib (Mark.head upstream sent (w.env.observation.finish
        w.shared.metrics response.status w.shared.now).2.1.status :: w.env.trace) :=
      ⟨h.orderly, hu.trace, hsound⟩
    refine wp_mayThrow_bind ?_ fun hF => ⟨{ hlost with orderly := horderly }, hF⟩
    refine wp_modify.mpr ?_
    exact
      { hlost.toBase with
        orderly := horderly
        uses := uses_cons h.ops fun _ hu => by cases hu
        permit := h.permit_eq
        mode := .writing (sent.needEof c.setup.lib) h.unfinished h.exchange rfl
          (by simp [addOp, set, note, record, finishObservation, World.setShared, h.ops])
          ⟨hcompleted, _, _, _, _, rfl⟩
        loose := h.exchange }
  · simp only [if_true, wp_modify_bind]
    exact wp_throw.mpr ⟨{ hlost with }, hF⟩

/-- The form for the callers that leave exceptions to `run_handler`. -/
theorem wp_answer (h : Free c w) (hu : Unanswered w.env) {site : Site}
    {upstream : Option HttpResponse} {response : HttpResponse} (permit : BufferBudgetPermit)
    (hfrom : ∀ up, upstream = some up → response.From c.setup.lib up) :
    wp F (writeResponse c.setup site upstream response permit) (fun _ => Loose c F) (Base c) w :=
  wp_mono (wp_writeResponse h hu permit hfrom) (fun _ _ hq => hq) fun _ hl => hl.1.toBase

theorem Lost.toRest (h : Lost c w) (hF : ¬F .rejectionWrite) : Loose c F w :=
  { h.toBase with
    permit := h.permit_eq
    mode := .stuck hF h.unfinished h.exchange h.phase h.ops
    loose := h.exchange }

/-- Metrics and flags of the observation do not matter to a free session. -/
theorem Free.observe (h : Free c w) (call : ObservationCall) : Free c (observe call w) :=
  { h with }

theorem Unanswered.observe (h : Unanswered w.env) (call : ObservationCall) :
    Unanswered (observe call w).env where
  completed := (RequestObservation.call_completed ..).trans h.completed
  trace := h.trace

theorem Base.observeAny (h : Base c w) (call : Option ObservationCall) :
    Base c (observeAny call w) := by
  cases call with
  | none => exact h
  | some call => exact { h with }

theorem Free.observeAny (h : Free c w) (call : Option ObservationCall) :
    Free c (observeAny call w) := by
  cases call with
  | none => exact h
  | some call => exact h.observe call

theorem Unanswered.observeAny (h : Unanswered w.env) (call : Option ObservationCall) :
    Unanswered (observeAny call w).env := by
  cases call with
  | none => exact h
  | some call => exact Unanswered.observe h call

theorem limitRequests_from {lib : Library} {response up : HttpResponse}
    (h : response.From lib up) : (limitRequests w response).From lib up := by
  unfold limitRequests
  split
  · exact h
  · exact h

/-! ## The end of an exchange -/

/-- The session still owns the exchange, which is not over. -/
structure Holding (c : Context) (w : World Session) (k : Nat) : Prop extends Base c w where
  unfinished : w.env.finished = false
  exchange : w.env.proxyExchange = some k
  permit : w.env.proxyPermit = true
  isOpen : Open (w.exs k)

theorem Holding.permit_eq (h : Holding c w k) :
    w.env.proxyPermit = w.env.proxyExchange.isSome := by
  rw [h.exchange, h.permit]
  rfl

/-- The exchange is over and reports to the session, which still owns it. -/
structure Ending (c : Context) (w : World Session) (k : Nat) : Prop extends Base c w where
  unfinished : w.env.finished = false
  exchange : w.env.proxyExchange = some k
  ended : Ended (w.exs k)

theorem Holding.ending (h : Holding c w k) (hs : Same k w w') (he : Ended (w'.exs k)) :
    Ending c w' k :=
  { h.toBase.exchange h.exchange h.permit hs (Or.inl he) with
    unfinished := hs.env ▸ h.unfinished
    exchange := hs.env ▸ h.exchange
    ended := he }

/-- The end of a stream is noted before the session learns of it. -/
theorem Holding.ending_noted (h : Holding c w k) (hs : Same k w w') {failure : Option ProxyFailure}
    {downstreamFailed : Bool} (he : Ended ((w'.exs k).record (.finish failure downstreamFailed)))
    (hgood : failure = none → downstreamFailed = false → (w.exs k).relay = .delivered) :
    Ending c (w'.setEx k (Exchange.record (.finish failure downstreamFailed))) k where
  toBase := by
    refine h.toBase.exchange_set h.permit hs (Or.inl he) id fun hlt => ?_
    refine ((h.relayed k hlt).kin hs.kin).finish fun hnone hdown => ?_
    rw [hs.kin.relay_eq]
    exact hgood hnone hdown
  unfinished := hs.env ▸ h.unfinished
  exchange := hs.env ▸ h.exchange
  ended := by
    rw [World.setEx_same]
    exact he

theorem Ending.drop (h : Ending c w k) : Base c (dropProxy w) := by
  refine h.toBase.dropProxy fun j hj => ?_
  rw [h.exchange] at hj
  cases hj
  exact h.ended

theorem Ending.free (h : Ending c w k) (hops : w.env.ops = [])
    (hphase : w.env.phase ≠ .closing) : Free c (dropProxy w) :=
  { h.drop with
    unfinished := h.unfinished
    ops := hops
    exchange := rfl
    permit := rfl
    notClosing := hphase }

theorem Ending.running (h : Ending c w k) :
    ((dropProxy w).env.finished || (dropProxy w).env.stopping) = false := by
  simp [dropProxy, dropPermit, set, World.setShared, h.unfinished,
    h.toBase.unstopped h.unfinished]

theorem wp_onProxyAborted (h : Ending c w k) :
    wp F onProxyAborted (fun _ => Loose c F) R w := by
  unfold onProxyAborted
  simp only [wp_modify_bind, wp_get_bind]
  rw [if_neg (by simp [h.running])]
  exact wp_modify.mpr h.drop.closeSocket

theorem wp_onProxyComplete (h : Ending c w k) (hops : w.env.ops = [])
    (hphase : w.env.phase ≠ .closing) (hu : Unanswered w.env) {result : ProxyResult}
    (hr : result.Faithful c.setup.lib) :
    wp F (onProxyComplete c.setup result) (fun _ => Loose c F) R w := by
  have hfree := h.free hops hphase
  have hu' : Unanswered (dropProxy w).env := ⟨hu.completed, hu.trace⟩
  unfold onProxyComplete
  -- every exception closes the session
  refine wp_tryCatch (wp_mono (Q := fun _ => Loose c F) (E := Base c) ?_ (fun _ _ hq => hq)
    fun _ hb => wp_modify.mpr hb.closeSocket)
  simp only [wp_modify_bind, wp_get_bind]
  rw [if_neg (by simp [hfree.unfinished, hfree.toBase.unstopped hfree.unfinished, hu'.completed])]
  refine wp_ask_bind ?_ fun _ => ?_
  · simp only [Bool.false_eq_true, if_false]
    simp only [wp_modify_bind]
    refine wp_answer ((hfree.observeAny _).observeAny _)
      (Unanswered.observeAny (Unanswered.observeAny hu' _) _) _ fun up hup => ?_
    exact limitRequests_from (hr up hup)
  · simp only [if_true, wp_modify_bind]
    exact wp_throw.mpr { hfree.toBase with }

/-- A stream that ends well ended with the write of its last block. -/
theorem wp_onStreamComplete (h : Ending c w k) {failure : Option ProxyFailure}
    {downstreamFailed : Bool}
    (hlast : failure = none → downstreamFailed = false → w.env.ops = []
      ∧ w.env.phase ≠ .closing
      ∧ ∃ rest, w.env.trace = .lastWrite none w.env.streamClose w.env.draining :: rest) :
    wp F (onStreamComplete c.setup failure downstreamFailed) (fun _ => Loose c F)
      (fun _ => False) w := by
  unfold onStreamComplete
  refine wp_session_runHandler (fun _ hl => hl) ?_
  simp only [wp_modify_bind, wp_get_bind]
  have hb : Base c (set (fun s => { s with streamWriter := none }) (dropProxy w)) :=
    { h.drop with }
  rw [if_neg (by simpa [set] using h.running)]
  split
  · have hclose : ∀ w' : World Session, Base c w' →
        wp F (do mayThrow .log; modify closeSocket) (fun _ => Loose c F) (Base c) w' :=
      fun w' hb' => wp_mayThrow_bind (wp_modify.mpr hb'.closeSocket) fun _ => hb'
    simp only [wp_modify_bind]
    refine hclose _ (Base.observeAny ?_ _)
    exact { hb with }
  · rename_i hok
    have hnone : failure = none := by
      cases failure with
      | none => rfl
      | some value => simp at hok
    have hdown : downstreamFailed = false := by
      cases downstreamFailed with
      | false => rfl
      | true => simp at hok
    obtain ⟨hops, hphase, rest, htrace⟩ := hlast hnone hdown
    have hfree : Free c (set (fun s => { s with streamWriter := none }) (dropProxy w)) :=
      { h.free hops hphase with }
    split
    · exact wp_gracefulClose hfree
    · rename_i hkeep
      refine wp_readRequest hfree (Or.inr ⟨rest, ?_⟩)
      have hclose : w.env.streamClose = false ∧ w.env.draining = false := by
        simpa [dropProxy, dropPermit, set, World.setShared] using hkeep
      show w.env.trace = _
      rw [htrace, hclose.1, hclose.2]

/-- Wherever a stream callback throws, the exchange aborts and the session closes. -/
theorem Holding.rescued (h : Holding c w k) :
    Rescued F (endCallbacks c.setup) k (Rest c F) w :=
  wp_abandon h.isOpen.toUnclaimed (fun ⟨p, d, hput⟩ => absurd hput (h.isOpen.unput p d))
    fun _ hs he => wp_toRest (wp_onProxyAborted (h.ending hs he))

/-! ## The stream callbacks -/

theorem Holding.lt_next (h : Holding c w k) {j : Nat} (hj : k = j) : j < w.nextExchange :=
  hj ▸ h.owned k h.exchange

/-- The write of a stream is under way; nothing else was. -/
theorem Holding.addWrite (h : Holding c w k) (hops : w.env.ops = [])
    {final : Bool} (hs : (w.exs k).relay = .sending final) {op : SessionOp}
    (hop : ∀ j, SessionOp.uses j op = true → k = j) (j : Nat) (hj : j < w.nextExchange) :
    Relayed (w.exs j) ((op :: w.env.ops).countP (SessionOp.uses j)) := by
  have hrel := h.relayed j hj
  rw [hops]
  by_cases huses : SessionOp.uses j op = true
  · obtain rfl := hop j huses
    rw [List.countP_cons_of_pos huses]
    refine { hrel with writes := ?_ }
    rw [hs]
    exact Nat.le_refl 1
  · rw [List.countP_cons_of_neg huses]
    rwa [hops] at hrel

theorem wp_writeStreamHeader (h : Holding c w k) (hops : w.env.ops = [])
    (hu : Unanswered w.env) (hl : Live (w.exs k)) (hs : (w.exs k).streamStarted = true)
    {final : Bool} (hsending : (w.exs k).relay = .sending final) {header upstream : HttpResponse}
    (hfrom : header.From c.setup.lib upstream) :
    wp F (writeStreamHeader c.setup k header upstream final) (fun _ => Rest c F)
      (Rescued F (endCallbacks c.setup) k (Rest c F)) w := by
  unfold writeStreamHeader
  simp only [wp_get_bind]
  rw [if_neg (by simp [h.unfinished, h.toBase.unstopped h.unfinished])]
  refine wp_mayThrow_bind ?_ fun _ => h.rescued
  obtain ⟨sent, hsent, hstatus, hreason⟩ := keepAlive_sent
    (w.env.draining || w.env.requestsServed ≥ maxRequestsPerConnection) header
  rw [hsent]
  simp only [wp_modify_bind]
  have hcompleted : (w.env.observation.finish w.shared.metrics sent.status
      w.shared.now).2.1.completed = true := RequestObservation.finish_completed ..
  refine wp_mayThrow_bind ?_ fun _ => Holding.rescued (c := c) { h with }
  simp only [wp_modify_bind]
  have horderly : Orderly c.setup.lib (Mark.head (some upstream) sent (w.env.observation.finish
      w.shared.metrics sent.status w.shared.now).2.1.status :: w.env.trace) := by
    refine ⟨h.orderly, hu.trace, ?_, ?_⟩
    · rw [RequestObservation.finish_status hu.completed]
    · rintro up hup
      cases hup
      exact ⟨hstatus.trans hfrom.1, hreason.trans hfrom.2⟩
  refine wp_mayThrow_bind ?_ fun _ => Holding.rescued (c := c) { h with orderly := horderly }
  refine wp_modify.mpr ?_
  exact
    { h.toBase with
      orderly := horderly
      uses := uses_cons hops fun j hj => h.lt_next (of_decide_eq_true hj)
      relayed := h.addWrite hops hsending fun _ hj => of_decide_eq_true hj
      permit := h.permit_eq
      mode := .streaming k h.unfinished h.exchange rfl ⟨hcompleted, _, _, _, _, rfl⟩ hl hs
        (Or.inr ⟨final, Or.inl (congrArg _ hops), hsending⟩) }

theorem wp_writeStreamBody (h : Holding c w k) (hops : w.env.ops = [])
    (hphase : w.env.phase = .writing) (ha : Answered w.env) (hl : Live (w.exs k))
    (hs : (w.exs k).streamStarted = true) (block : Text) {final : Bool}
    (hsending : (w.exs k).relay = .sending final) :
    wp F (writeStreamBody c.setup k block final) (fun _ => Rest c F)
      (Rescued F (endCallbacks c.setup) k (Rest c F)) w := by
  unfold writeStreamBody
  simp only [wp_get_bind]
  rw [if_neg (by simp [h.unfinished, h.toBase.unstopped h.unfinished])]
  simp only [wp_modify_bind]
  refine wp_mayThrow_bind ?_ fun _ => Holding.rescued (c := c) { h with }
  refine wp_modify.mpr ?_
  exact
    { h.toBase with
      uses := uses_cons hops fun j hj => h.lt_next (of_decide_eq_true hj)
      relayed := h.addWrite hops hsending fun _ hj => of_decide_eq_true hj
      permit := h.permit_eq
      mode := .streaming k h.unfinished h.exchange hphase ⟨ha.completed, ha.trace⟩ hl hs
        (Or.inr ⟨final, Or.inr (congrArg _ hops), hsending⟩) }

/-! ## What the session answers for -/

theorem Holding.same (h : Holding c w k) (hs : Same k w w') (ho : Open (w'.exs k)) :
    Holding c w' k :=
  { h.toBase.exchange h.exchange h.permit hs (Or.inr ho) with
    unfinished := hs.env ▸ h.unfinished
    exchange := hs.env ▸ h.exchange
    permit := hs.env ▸ h.permit
    isOpen := ho }

/-- An update of the owned exchange. -/
theorem Holding.setEx (h : Holding c w k) {f : Exchange → Exchange} (ho : Open (f (w.exs k)))
    (hadm : Admitted c.setup (w.exs k) → Admitted c.setup (f (w.exs k)))
    (hrel : Relayed (w.exs k) (w.env.ops.countP (SessionOp.uses k)) →
      Relayed (f (w.exs k)) (w.env.ops.countP (SessionOp.uses k))) :
    Holding c (w.setEx k f) k :=
  { h.toBase.setEx fun hlt => ⟨Or.inr ⟨h.exchange, ho⟩, hadm, hrel (h.relayed k hlt)⟩ with
    unfinished := h.unfinished
    exchange := h.exchange
    permit := h.permit
    isOpen := by
      rw [World.setEx_same]
      exact ho }

theorem Holding.toRest (h : Holding c w k) (mode : Mode F w) : Rest c F w :=
  { h.toBase with
    permit := h.permit_eq
    mode }

/-- A completed operation has left the exchange something to look at. -/
theorem Holding.receive (h : Holding c w k) (hl : Live (w.exs k)) {x : Exchange.Completion}
    (hop : x.op ∈ (w.exs k).ops) : Holding c (w.setEx k x.receive) k := by
  refine h.setEx (hl.completion hop).toOpen ?_ fun hrel => hrel.receive hl hop
  exact fun hadm => hadm.receive x

/-- The end of a stream, for an exchange that the session owns. -/
theorem Holding.ends (h : Holding c w k) {success : Prop}
    (hsuccess : success → w.env.ops = [] ∧ w.env.phase ≠ .closing
      ∧ (∃ rest, w.env.trace = .lastWrite none w.env.streamClose w.env.draining :: rest)
      ∧ (w.exs k).relay = .delivered) :
    Ends F (endCallbacks c.setup) k w success (Rest c F) where
  abort w' hs he :=
    wp_toRest (wp_onProxyAborted (h.ending hs he))
  finish _ w' failure downstreamFailed hs he hgood := by
    refine wp_mono (wp_onStreamComplete (h.ending_noted hs he ?_) ?_)
      (fun _ _ hl => hl.dropAbort k) fun _ hf => hf
    · exact fun hnone hdown => (hsuccess (hgood hnone hdown)).2.2.2
    · intro hnone hdown
      rw [World.setEx_env, hs.env]
      obtain ⟨hops, hphase, htrace, -⟩ := hsuccess (hgood hnone hdown)
      exact ⟨hops, hphase, htrace⟩

theorem outcomes_proxying (h : Holding c w k) (hops : w.env.ops = [])
    (hphase : w.env.phase = .proxying) (hu : Unanswered w.env)
    (hs : (w.exs k).streamStarted = false) (hclosed : (w.exs k).relay = .closed) {reading : Prop}
    (hquiet : ¬reading) :
    Outcomes F (endCallbacks c.setup) (streamCallbacks c.setup) c.setup.lib k w reading False
      (Rest c F) :=
  { h.ends fun hf => hf.elim with
    quiet := by
      intro _ w' hg
      have hh := h.same hg.same hg.live.toOpen
      have henv := hg.same.env
      exact hh.toRest (.proxying k hh.unfinished hh.exchange (henv ▸ hphase) (henv ▸ hops)
        (henv ▸ hu) hg.live (hg.stream.trans hs))
    next := fun hreading => absurd hreading hquiet
    complete := by
      intro _ w' r hsame he hr
      have hend := h.ending hsame he
      have henv := hsame.env
      refine wp_mono (wp_onProxyComplete hend (henv ▸ hops) ?_ (henv ▸ hu) hr)
        (fun _ _ hl => hl.dropAbort k) fun _ hf => hf
      rw [henv, hphase]
      intro hp
      cases hp
    header := by
      intro _ w' head up final hsame hl hstream hfrom
      have henv := hsame.env
      have hh := h.same hsame hl.toOpen
      have hl' := hl.relay hstream (.opened final)
      have hclosed' : (w'.exs k).relay = .closed := hsame.kin.relay_eq.trans hclosed
      have hnoted : Holding c (w'.setEx k (Exchange.record (.relay (.opened final)))) k :=
        hh.setEx hl'.toOpen id fun hrel => (hrel.opened hl.unsettled hclosed' final).fewer (by
          rw [henv, hops]
          exact Nat.zero_le 1)
      refine wp_writeStreamHeader hnoted (henv ▸ hops) (henv ▸ hu) ?_ ?_ ?_ hfrom
      · rw [World.setEx_same]
        exact hl'
      · rw [World.setEx_same]
        exact hstream
      · rw [World.setEx_same, relay_record, hclosed']
        rfl
    body := fun hreading => absurd hreading hquiet }

theorem outcomes_streaming (h : Holding c w k) (hl : Live (w.exs k))
    (hphase : w.env.phase = .writing) (ha : Answered w.env)
    (hs : (w.exs k).streamStarted = true) (hw : StreamWaits w k) {x : Exchange.Completion}
    (hop : x.op ∈ (w.exs k).ops) :
    Outcomes F (endCallbacks c.setup) (streamCallbacks c.setup) c.setup.lib k
      (w.setEx k x.receive) (x.delivers = true) False (Rest c F) := by
  have hh := h.receive hl hop
  have hlt := h.owned k h.exchange
  have hstarted : ((w.setEx k x.receive).exs k).streamStarted = true := by
    rw [World.setEx_same, receive_streamStarted]
    exact hs
  -- a block was being read, so no write is under way
  have hreading : x.delivers = true → w.env.ops = [] ∧ (w.exs k).relay = .reading
      ∧ (x.receive (w.exs k)).blocks = 0 := by
    intro hdelivers
    have hread : x.op = .readBlock := by
      simp only [Exchange.Completion.delivers, Bool.and_eq_true, decide_eq_true_eq] at hdelivers
      exact hdelivers.1
    obtain ⟨hrelay, hone⟩ := (h.relayed k hlt).reading (hread ▸ hop)
    rcases hw with ⟨hops, -⟩ | ⟨final, -, hsending⟩
    · refine ⟨hops, hrelay, ?_⟩
      rw [receive_blocks hread, hone]
    · rw [hrelay] at hsending
      cases hsending
  exact
    { hh.ends fun hf => hf.elim with
      quiet := by
        intro hquiet w' hg
        have hh' := hh.same hg.same hg.live.toOpen
        have henv : w'.env = w.env := hg.same.env
        have hrelay : (w'.exs k).relay = (w.exs k).relay := by
          rw [hg.same.kin.relay_eq, World.setEx_same]
          exact relay_of_undelivered (by simpa using hquiet) _
        refine hh'.toRest (.streaming k hh'.unfinished hh'.exchange (henv ▸ hphase) (henv ▸ ha)
          hg.live (hg.stream.trans hstarted) ?_)
        unfold StreamWaits
        rw [henv, hrelay]
        exact hw
      next := by
        intro hdelivers _ w' hg hjournal
        obtain ⟨hops, hrelay, hblocks⟩ := hreading hdelivers
        have henv : w'.env = w.env := hg.same.env
        have hstream := hg.stream.trans hstarted
        have hl' := hg.live.addBlock hstream
        have hwaits : (w'.exs k).relay = .reading := by
          obtain ⟨earlier, hearlier⟩ := hjournal
          rw [World.setEx_same] at hearlier
          rw [hg.same.kin.relay_eq, World.setEx_same,
            receive_relay hrelay hl.observed hdelivers hearlier]
          exact if_pos ⟨rfl, rfl⟩
        have hnone : (w'.exs k).blocks = 0 := by
          have hle := hg.same.kin.blocks
          rw [World.setEx_same, hblocks] at hle
          exact Nat.le_zero.mp hle
        have hh' : Holding c (w'.setEx k (Exchange.addOp .readBlock)) k :=
          (hh.same hg.same hg.live.toOpen).setEx hl'.toOpen id fun hrel =>
            hrel.addBlock hwaits hnone
        refine hh'.toRest (.streaming k hh'.unfinished hh'.exchange (henv ▸ hphase) (henv ▸ ha)
          ?_ ?_ (Or.inl ⟨henv ▸ hops, ?_⟩))
        · rw [World.setEx_same]
          exact hl'
        · rw [World.setEx_same]
          exact hstream
        · rw [World.setEx_same]
          exact hwaits
      complete := by
        intro hstream
        rw [hstarted] at hstream
        cases hstream
      header := by
        intro hstream
        rw [hstarted] at hstream
        cases hstream
      body := by
        intro hdelivers _ w' block final hsame hlive hstream hmore hjournal
        obtain ⟨hops, hrelay, hblocks⟩ := hreading hdelivers
        have henv : w'.env = w.env := hsame.env
        have hl' := hlive.relay hstream (.passed block final)
        have hholding : (w'.exs k).relay = .holding block final := by
          obtain ⟨earlier, hearlier⟩ := hjournal
          rw [World.setEx_same] at hearlier
          rw [hsame.kin.relay_eq, World.setEx_same,
            receive_relay hrelay hl.observed hdelivers hearlier]
          exact if_neg hmore
        have hh' : Holding c (w'.setEx k (Exchange.record (.relay (.passed block final)))) k :=
          (hh.same hsame hlive.toOpen).setEx hl'.toOpen id fun hrel =>
            (hrel.passed hlive.unsettled hholding).fewer (by
              rw [henv, hops]
              exact Nat.zero_le 1)
        refine wp_writeStreamBody hh' (henv ▸ hops) (henv ▸ hphase) (henv ▸ ha) ?_ ?_ block ?_
        · rw [World.setEx_same]
          exact hl'
        · rw [World.setEx_same]
          exact hstream
        · rw [World.setEx_same, relay_record, hholding]
          exact if_pos ⟨rfl, rfl⟩ }

/-- An operation of the owned exchange completes. -/
theorem wp_exchange_owned (h : Holding c w k) (hl : Live (w.exs k))
    (hm : Mode F w) (x : Exchange.Completion) :
    wp F (dispatch (endCallbacks c.setup) c.setup.lib (streamCallbacks c.setup) k x)
      (fun _ => Rest c F) (fun _ => False) w := by
  have hx : w.env.proxyExchange = some k := h.exchange
  have hne : w.env.proxyExchange ≠ none := by simp [hx]
  refine wp_dispatch hl x (h.toRest hm) fun hop => ?_
  cases hm with
  | gone hf =>
      rw [h.unfinished] at hf
      cases hf
  | handshaking _ hn => exact absurd hn hne
  | reading _ _ hn => exact absurd hn hne
  | writing _ _ hn => exact absurd hn hne
  | closing _ hn => exact absurd hn hne
  | stuck _ _ hn => exact absurd hn hne
  | proxying j _ hj hphase hops hu _ hs =>
      rw [hx] at hj
      cases hj
      have hquiet : ¬x.delivers = true := by
        intro hdelivers
        simp only [Exchange.Completion.delivers, Bool.and_eq_true, decide_eq_true_eq] at hdelivers
        have hstream := hl.streaming (hdelivers.1 ▸ hop)
        rw [hs] at hstream
        cases hstream
      refine outcomes_proxying (h.receive hl hop) hops hphase hu ?_ ?_ hquiet
      · rw [World.setEx_same, receive_streamStarted]
        exact hs
      · rw [World.setEx_same, relay_of_undelivered (by simpa using hquiet)]
        exact relay_of_silent (hl.silent hs)
  | streaming j _ hj hphase ha _ hs hw =>
      rw [hx] at hj
      cases hj
      exact outcomes_streaming h hl hphase ha hs hw hop

/-! ## Stream writes -/

/-- The write of the owned exchange is over. -/
theorem Holding.resumed (h : Holding c w k) (hops : w.env.ops = []) (hl : Live (w.exs k))
    (hs : (w.exs k).streamStarted = true) {final : Bool}
    (hsending : (w.exs k).relay = .sending final) (error : Error) :
    Holding c (Exchange.resumed k error w) k ∧ Live ((Exchange.resumed k error w).exs k)
      ∧ ((Exchange.resumed k error w).exs k).relay
        = (Relay.State.sending final).next (.taken error) := by
  have hl' := hl.relay hs (.taken error)
  refine ⟨h.setEx hl'.toOpen id fun hrel => ?_, ?_, ?_⟩
  · rw [hops]
    exact hrel.taken hl.unsettled hsending error
  · rw [Exchange.resumed, World.setEx_same]
    exact hl'
  · rw [Exchange.resumed, World.setEx_same, relay_record, hsending]

/-- The last write of a response, or a write that failed: the stream ends. -/
theorem wp_resume_last (h : Holding c w k) (hops : w.env.ops = [])
    (hphase : w.env.phase ≠ .closing) (hl : Live (w.exs k))
    (hs : (w.exs k).streamStarted = true) {final : Bool} {error : Error}
    (hsending : (w.exs k).relay = .sending final)
    (hlast : final = true ∨ error.isSome = true)
    (htrace : final = true →
      ∃ rest, w.env.trace = .lastWrite error w.env.streamClose w.env.draining :: rest) :
    wp F (resumeStream (endCallbacks c.setup) k final error) (fun _ => Rest c F)
      (fun _ => False) w := by
  obtain ⟨hh, -, hrelay⟩ := h.resumed hops hl hs hsending error
  refine wp_resumeStream_last hl hs hlast (hh.ends ?_)
  rintro ⟨rfl, rfl⟩
  exact ⟨hops, hphase, htrace rfl, hrelay⟩

/-- Between two writes the next block is read. -/
theorem wp_resume_next (h : Holding c w k) (hops : w.env.ops = [])
    (hphase : w.env.phase = .writing) (ha : Answered w.env) (hl : Live (w.exs k))
    (hs : (w.exs k).streamStarted = true) (hsending : (w.exs k).relay = .sending false) :
    wp F (resumeStream (endCallbacks c.setup) k false none) (fun _ => Rest c F)
      (fun _ => False) w := by
  obtain ⟨hh, hl', hrelay⟩ := h.resumed hops hl hs hsending none
  refine wp_resumeStream hl hs (hh.ends (fun hf => by cases hf.1)) fun _ _ => ?_
  have hstream : ((Exchange.resumed k none w).exs k).streamStarted = true := by
    rw [Exchange.resumed, World.setEx_same]
    exact hs
  have hblock := hl'.addBlock hstream
  have hnone : ((Exchange.resumed k none w).exs k).blocks = 0 := by
    have hreads := (h.relayed k (h.owned k h.exchange)).reads
    rw [hsending] at hreads
    rw [Exchange.resumed, World.setEx_same]
    exact Nat.le_zero.mp hreads
  have hh' : Holding c ((Exchange.resumed k none w).setEx k (Exchange.addOp .readBlock)) k :=
    hh.setEx hblock.toOpen id fun hrel => hrel.addBlock hrelay hnone
  refine hh'.toRest (.streaming k hh'.unfinished hh'.exchange hphase ha ?_ ?_
    (Or.inl ⟨hops, ?_⟩))
  · rw [World.setEx_same]
    exact hblock
  · rw [World.setEx_same]
    exact hstream
  · rw [World.setEx_same]
    exact hrelay

end Session

end ApiGate
