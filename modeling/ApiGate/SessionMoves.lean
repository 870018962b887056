import ApiGate.KeepAlive
import ApiGate.Outline

/-!
# Every handler is a sequence of moves

One rule for each function of `Session`, in the order of the calls: what it
does to the outline is a sequence of `Outline.Move`s. The invariant of the
session (`Free`, `Holding`, `Pending` and so on) supplies the guards of the
moves; what the invariant does not know (that a request was read, that its
observation is fresh, that a kept connection has requests left) is `Tame`, a
property of the outline that the moves themselves keep.
-/

namespace ApiGate

open EventLoop Act Exchange

namespace Session

/-- The setting of a walk: the places in `sites` do not throw, and `origin` is
where it began. -/
structure Walk where
  context : Context
  sites : Site → Prop
  lenient : Prop
  lossy : Prop
  origin : Outline
  losses : ∀ site, site = .writeInit ∨ site = .rejectionWrite ∨ site = .streamHeadInit →
    ¬sites site → lossy

variable {t : Walk} {w w' : World Session} {k : Nat} {R : World Session → Prop}

namespace Walk

abbrev setup (t : Walk) : Setup := t.context.setup

def Reached (t : Walk) (w : World Session) : Prop :=
  Outline.Moves t.setup t.lenient t.lossy t.origin (outline w)

/-- Whether `m` returns or throws, its effect is a sequence of moves. -/
def Does (t : Walk) {α : Type} (m : SessionAct α) (w : World Session) : Prop :=
  wp t.sites m (fun _ => t.Reached) t.Reached w

theorem Reached.move (h : t.Reached w)
    (hm : Outline.Move t.setup t.lenient t.lossy (outline w) (outline w')) : t.Reached w' :=
  h.tail hm

theorem Reached.same (h : t.Reached w) (hw : outline w' = outline w) : t.Reached w' := by
  unfold Reached
  rw [hw]
  exact h

end Walk

/-! ## What the outline does not show -/

theorem outline_shared {s : Shared} (hadmission : s.admission = w.shared.admission)
    (hchecks : s.checks = w.shared.checks) (hmetrics : s.metrics = w.shared.metrics)
    (hnow : s.now = w.shared.now) : outline { w with shared := s } = outline w := by
  unfold outline
  rw [hadmission, hchecks, hmetrics, hnow]

theorem outline_dropCell (cell : Option Nat) :
    outline (w.setShared (Shared.dropCell cell)) = outline w :=
  outline_shared (by simp) (by simp) (by simp) (by simp)

theorem outline_addOp {op : SessionOp} (hheader : op ≠ .readHeader) (hbody : op ≠ .readBody)
    (hkeep : op ≠ .write false) : outline (addOp op w) = outline w := by
  have hheaders : (op :: w.env.ops).count .readHeader = w.env.ops.count .readHeader :=
    List.count_cons_of_ne hheader
  have hbodies : (op :: w.env.ops).count .readBody = w.env.ops.count .readBody :=
    List.count_cons_of_ne hbody
  have hcontains : (op :: w.env.ops).contains (.write false)
      = w.env.ops.contains (.write false) := by
    rw [List.contains_cons]
    simp [Ne.symm hkeep]
  unfold outline addOp Session.set
  dsimp only
  rw [hheaders, hbodies, hcontains]

theorem outline_addHeader (hops : w.env.ops = []) :
    outline (addOp .readHeader w) = { outline w with headers := 1 } := by
  unfold outline addOp Session.set
  dsimp only
  rw [hops]
  rfl

theorem outline_addBody (hops : w.env.ops = []) :
    outline (addOp .readBody w) = { outline w with bodies := 1 } := by
  unfold outline addOp Session.set
  dsimp only
  rw [hops]
  rfl

theorem outline_observe (call : ObservationCall) :
    outline (observe call w) = (outline w).call call := rfl

theorem outline_resetRequest :
    outline (resetRequest w) = { outline w with target := none } := by
  have hcell := outline_dropCell (w := w) w.env.requestBodyPermit
  unfold resetRequest
  show { outline (w.setShared (Shared.dropCell w.env.requestBodyPermit)) with target := none } = _
  rw [hcell]

theorem outline_same (h : Same k w w') : outline w' = outline w := by
  unfold outline
  rw [h.env, h.admission, h.metrics, h.checks, h.now]

/-! ## Closing -/

open Walk

theorem Walk.Reached.closeSocket (h : t.Reached w) : t.Reached (closeSocket w) := by
  cases hf : w.env.finished with
  | true =>
      unfold Session.closeSocket
      rw [if_pos hf]
      exact h
  | false =>
      rw [closeSocket_of_unfinished hf]
      exact h.move (Outline.Move.close (f := outline w))

theorem stop_of_unfinished (hf : w.env.finished = false) :
    stop w = set (fun s => { s with finished := true, phase := .finished, closes := s.closes + 1,
                                    stopping := true }) (cancelProxy w) := by
  unfold stop finish
  rw [if_neg (by simp [hf]), if_neg (by simp [cancelProxy, dropProxy, dropPermit, set,
    World.setShared, hf])]
  rfl

theorem Walk.Reached.stop (h : t.Reached w) : t.Reached (stop w) := by
  cases hf : w.env.finished with
  | true =>
      unfold Session.stop
      rw [if_pos hf]
      exact h
  | false =>
      rw [stop_of_unfinished hf]
      exact h.move (Outline.Move.close (f := outline w))

theorem Walk.Reached.beginDrain (h : t.Reached w) (hs : w.env.started = true) :
    t.Reached (beginDrain w) := by
  unfold Session.beginDrain
  split
  · exact h
  · rename_i hnew
    have hf : w.env.finished = false := by
      simp only [Bool.or_eq_true, not_or, Bool.not_eq_true] at hnew
      exact hnew.2
    dsimp only
    split
    · rw [stop_of_unfinished (w := set (fun s => { s with draining := true }) w) hf]
      exact h.move (Outline.Move.drainClosing (f := outline w) hs)
    all_goals
      rename_i hclass
      have hclass : classifySessionDrain w.env.phase = _ := hclass
      refine h.move (Outline.Move.drain (f := outline w) hs ?_ ?_)
      · intro hp
        rw [show w.env.phase = _ from hp] at hclass
        cases hclass
      · intro hp
        rw [show w.env.phase = _ from hp] at hclass
        cases hclass

/-- `run_handler` closes the session on an exception. -/
theorem Walk.Does.runHandler {action : SessionAct Unit} (h : t.Does action w) :
    wp t.sites (runHandler action) (fun _ => t.Reached) R w :=
  wp_tryCatch (wp_mono h (fun _ _ hr => hr) fun _ hr => wp_modify.mpr hr.closeSocket)

theorem does_gracefulClose (h : t.Reached w) (hops : w.env.ops = []) :
    wp t.sites (gracefulClose t.setup) (fun _ => t.Reached) R w := by
  unfold gracefulClose
  simp only [wp_get_bind]
  split
  · exact wp_pure.mpr h
  · rename_i hopen
    have hf : w.env.finished = false := by
      simp only [Bool.or_eq_true, not_or, Bool.not_eq_true] at hopen
      exact hopen.1
    split
    · exact wp_modify.mpr h.closeSocket
    · simp only [wp_modify_bind]
      have hshut : t.Reached (set (fun s => { s with phase := .closing }) w) :=
        h.move (Outline.Move.shut (f := outline w) hf (by simp [outline, hops])
          (by simp [outline, hops]))
      refine wp_tryCatch (wp_mayThrow_bind ?_ fun _ => wp_modify.mpr hshut.closeSocket)
      exact wp_modify.mpr (hshut.same (outline_addOp (by simp) (by simp) (by simp)))

/-! ## Reading and writing -/

/-- The connection may take another request. -/
def Walk.Spare (t : Walk) (w : World Session) : Prop :=
  t.lenient ∨ w.env.requestsServed < maxRequestsPerConnection

/-- The end of `read_request`. -/
theorem does_startHeader (h : t.Reached w) (hread : (outline w).Reading t.setup t.lenient)
    {log : List Note} (hlog : w.env.log = .reset :: log) (hf : w.env.finished = false)
    (hops : w.env.ops = []) :
    t.Does (do
      mayThrow .readHeaderInit
      modify (addOp .readHeader)
      modify (record [.readHeader])) w := by
  refine wp_mayThrow_bind ?_ fun _ => h
  simp only [wp_modify_bind]
  refine wp_modify.mpr (h.move ?_)
  show Outline.Move _ _ _ _ { outline (addOp .readHeader w) with log := .readHeader :: w.env.log }
  rw [outline_addHeader hops]
  exact Outline.Move.readHeader (f := outline w) hf hread hlog (by simp [outline, hops])

/-- A target without a path is not that of the metrics. -/
theorem isMetricsTarget_nil (config : AppConfig) : isMetricsTarget config [] = false := by
  simp [isMetricsTarget, requestPath]

theorem does_readRequest (h : t.Reached w) (hf : w.env.finished = false) (hops : w.env.ops = [])
    (hx : w.env.proxyExchange = none) (hcap : t.Spare w) : t.Does readRequest w := by
  unfold readRequest Walk.Does
  simp only [wp_modify_bind, wp_get_bind]
  have hnote : t.Reached (note .readRequest w) := h.same rfl
  split
  · exact wp_modify.mpr hnote.closeSocket
  · rename_i hgo
    simp only [Bool.or_eq_true, not_or, Bool.not_eq_true] at hgo
    simp only [wp_modify_bind]
    refine does_startHeader ?_ ?_ rfl hf hops
    · exact hnote.move (Outline.Move.reset (f := outline w) hf hgo.1 hgo.2
        (by simp [outline, hops]) (by simp [outline, hops]) (by simp [outline, hx]))
    · exact
        { phase := rfl
          quiet := hgo.2
          target := ⟨[], rfl, (isMetricsTarget_nil _).symm⟩
          unfailed := rfl
          fresh := rfl
          spare := hcap }

/-- A function that answers a request finds it so. -/
structure Answering (w : World Session) : Prop where
  unfinished : w.env.finished = false
  unstopped : w.env.stopping = false
  ops : w.env.ops = []
  exchange : w.env.proxyExchange = none
  unanswered : w.env.observation.completed = false

theorem Free.answering {c : Context} (h : Free c w) (hu : w.env.observation.completed = false) :
    Answering w where
  unfinished := h.unfinished
  unstopped := h.toBase.unstopped h.unfinished
  ops := h.ops
  exchange := h.exchange
  unanswered := hu

theorem Answering.pending (h : Answering w) : (outline w).Pending where
  unfinished := h.unfinished
  unstopped := h.unstopped
  noHeader := by simp [outline, h.ops]
  noBody := by simp [outline, h.ops]
  noWrite := by simp [outline, h.ops]
  unanswered := h.unanswered

theorem Answering.idle (h : Answering w) : (outline w).busy = false := by
  show w.env.proxyExchange.isSome = false
  rw [h.exchange]
  rfl

/-- The response does not exceed the bound on the requests. -/
def Walk.Capped (t : Walk) (w : World Session) (response : HttpResponse) : Prop :=
  t.lenient ∨ w.env.requestsServed < maxRequestsPerConnection ∨ response.keepAlive = false

/-- What `write_response` sends. -/
theorem polite_sent {response : HttpResponse} (hcap : t.Capped w response) :
    Outline.Polite t.lenient (outline w)
      (if w.env.draining then response.setKeepAlive false else response) := by
  cases hd : w.env.draining with
  | true =>
      simp only [if_true]
      exact ⟨fun _ => HttpResponse.keepAlive_setKeepAlive _,
        Or.inr (Or.inr (HttpResponse.keepAlive_setKeepAlive _))⟩
  | false =>
      simp only [Bool.false_eq_true, if_false]
      refine ⟨fun hdrain => ?_, hcap⟩
      rw [show w.env.draining = true from hdrain] at hd
      cases hd

/-- The write is started: the connection stays only if there are requests left. -/
theorem Walk.Reached.addWrite (h : t.Reached w) {response : HttpResponse}
    (hcap : t.Capped w response) :
    t.Reached (addOp (.write (response.needEof t.setup.lib)) w) := by
  cases hclose : response.needEof t.setup.lib with
  | true => exact h.same (outline_addOp (by simp) (by simp) (by simp))
  | false =>
      have hspare : t.lenient ∨ w.env.requestsServed < maxRequestsPerConnection := by
        rcases hcap with hl | hlt | hka
        · exact Or.inl hl
        · exact Or.inr hlt
        · rw [HttpResponse.needEof_of_keepAlive _ hka] at hclose
          cases hclose
      have hadd : outline (addOp (.write false) w) = { outline w with reuse := true } := by
        have hheaders : (SessionOp.write false :: w.env.ops).count .readHeader
            = w.env.ops.count .readHeader := List.count_cons_of_ne (by simp)
        have hbodies : (SessionOp.write false :: w.env.ops).count .readBody
            = w.env.ops.count .readBody := List.count_cons_of_ne (by simp)
        have hcontains : (SessionOp.write false :: w.env.ops).contains (.write false) = true := by
          simp
        unfold outline addOp Session.set
        dsimp only
        rw [hheaders, hbodies, hcontains]
      unfold Walk.Reached
      rw [hadd]
      exact h.tail (Outline.Move.keep hspare)

theorem does_writeResponse (h : t.Reached w) (ha : Answering w) {site : Site}
    (hsite : site = .writeInit ∨ site = .rejectionWrite) (upstream : Option HttpResponse)
    {response : HttpResponse} (permit : BufferBudgetPermit) (hcap : t.Capped w response) :
    wp t.sites (writeResponse t.setup site upstream response permit) (fun _ => t.Reached)
      (fun w' => t.Reached w' ∧ (outline w').served = (outline w).served
        ∧ w'.env.observation.completed = true) w := by
  unfold writeResponse
  simp only [wp_get_bind]
  rw [if_neg (by simp [ha.unfinished, ha.unstopped, ha.unanswered])]
  simp only [wp_modify_bind]
  have hpolite := polite_sent hcap
  have hcompleted : (w.env.observation.finish w.shared.metrics response.status
      w.shared.now).2.1.completed = true := RequestObservation.finish_completed ..
  have hstatus : (if w.env.draining then response.setKeepAlive false else response).status
      = response.status := by
    split <;> rfl
  generalize hsent : (if w.env.draining then response.setKeepAlive false else response) = sent
    at hpolite hstatus
  refine wp_ask_bind ?_ fun hF => ?_
  · simp only [Bool.false_eq_true, if_false, wp_modify_bind]
    have hmove : Outline.Move t.setup t.lenient t.lossy (outline w) _ :=
      Outline.Move.answer w.shared.now ha.pending ha.idle hpolite
    rw [hstatus] at hmove
    refine wp_mayThrow_bind ?_ fun _ => ⟨h.move hmove, rfl, hcompleted⟩
    refine wp_modify.mpr (Walk.Reached.addWrite ?_ hpolite.cap)
    exact h.move hmove
  · simp only [if_true, wp_modify_bind]
    refine wp_throw.mpr ⟨h.move ?_, rfl, hcompleted⟩
    refine Outline.Move.lose (f := outline w) (t.losses site ?_ hF) response.status w.shared.now
      ha.pending (Or.inr ⟨rfl, ha.idle⟩)
    exact hsite.imp_right Or.inl

/-- The form for the callers that leave exceptions to `run_handler`. -/
theorem does_answer (h : t.Reached w) (ha : Answering w) (upstream : Option HttpResponse)
    {response : HttpResponse} (permit : BufferBudgetPermit) (hcap : t.Capped w response) :
    t.Does (writeResponse t.setup .writeInit upstream response permit) w :=
  wp_mono (does_writeResponse h ha (Or.inl rfl) upstream permit hcap) (fun _ _ hr => hr)
    fun _ hl => hl.1

theorem capped_limitRequests (hserved : w'.env.requestsServed = w.env.requestsServed)
    (response : HttpResponse) : t.Capped w' (limitRequests w response) := by
  unfold limitRequests
  split
  · exact Or.inr (Or.inr (HttpResponse.keepAlive_setKeepAlive _))
  · rename_i hlt
    refine Or.inr (Or.inl ?_)
    rw [hserved]
    exact Nat.lt_of_not_le hlt

theorem capped_closing {response : HttpResponse} (h : response.keepAlive = false) :
    t.Capped w response := Or.inr (Or.inr h)

/-- The write of a response completes; `Spare` is what its flag stands for. -/
theorem does_onWrite (h : t.Reached w) (hf : w.env.finished = false) (hops : w.env.ops = [])
    (hx : w.env.proxyExchange = none) (hphase : w.env.phase = .writing) (error : Error)
    {closeAfterWrite : Bool} (hcap : closeAfterWrite = false → t.Spare w) :
    t.Does (onWrite t.setup error closeAfterWrite) w := by
  unfold onWrite Walk.Does
  simp only [wp_get_bind]
  rw [if_neg (by simp [hf])]
  simp only [wp_modify_bind]
  have hreset : t.Reached (resetRequest (set (fun s => { s with response := none,
                                                                responseBodyPermit := {} })
      ((note (.lastWrite error closeAfterWrite w.env.draining) w).setShared
        (Shared.dropPermit w.env.responseBodyPermit)))) := by
    unfold Walk.Reached
    rw [outline_resetRequest]
    refine h.tail (Outline.Move.forget (f := outline w) ?_)
    rw [show (outline w).phase = .writing from hphase]
    simp
  split
  · split
    · exact does_gracefulClose hreset hops
    · rename_i hkeep
      have hclose : closeAfterWrite = false := by
        simp only [Bool.or_eq_true, not_or, Bool.not_eq_true] at hkeep
        exact hkeep.1
      exact does_readRequest hreset hf hops hx (hcap hclose)
  · exact wp_modify.mpr hreset.closeSocket
  · exact wp_modify.mpr hreset.closeSocket
  · exact wp_modify.mpr hreset.closeSocket

/-! ## The end of an exchange -/

theorem Walk.Reached.dropProxy (h : t.Reached w) : t.Reached (dropProxy w) :=
  h.move (Outline.Move.disown (f := outline w))

theorem does_onProxyAborted (h : t.Reached w) :
    wp t.sites onProxyAborted (fun _ => t.Reached) R w := by
  unfold onProxyAborted
  simp only [wp_modify_bind, wp_get_bind]
  split
  · exact wp_pure.mpr h.dropProxy
  · exact wp_modify.mpr h.dropProxy.closeSocket

/-- A failure is counted while the request is proxied and unanswered. -/
theorem Walk.Reached.observeFail (h : t.Reached w) (ha : Answering w)
    (hphase : w.env.phase = .proxying) (stage : ProxyFailureStage) :
    t.Reached (observe (.fail stage) w) :=
  h.move (Outline.Move.fail (f := outline w) ha.pending hphase ha.idle stage)

theorem Walk.Reached.observeReject (h : t.Reached w) (ha : Answering w)
    (reason : RejectionReason) : t.Reached (observe (.reject reason) w) :=
  h.move (Outline.Move.reject (f := outline w) ha.pending reason)

theorem Answering.observe (h : Answering w) (call : ObservationCall) :
    Answering (observe call w) where
  unfinished := h.unfinished
  unstopped := h.unstopped
  ops := h.ops
  exchange := h.exchange
  unanswered := (RequestObservation.call_completed ..).trans h.unanswered

theorem observeAny_served (call : Option ObservationCall) :
    (observeAny call w).env.requestsServed = w.env.requestsServed := by
  cases call <;> rfl

/-- The session works on a request with exchange `k`. -/
structure Owning (w : World Session) (k : Nat) : Prop where
  unfinished : w.env.finished = false
  unstopped : w.env.stopping = false
  exchange : w.env.proxyExchange = some k

theorem Owning.same (h : Owning w k) (hs : Same k w w') : Owning w' k :=
  ⟨hs.env ▸ h.unfinished, hs.env ▸ h.unstopped, hs.env ▸ h.exchange⟩

theorem Owning.setEx (h : Owning w k) (f : Exchange → Exchange) : Owning (w.setEx k f) k :=
  ⟨h.unfinished, h.unstopped, h.exchange⟩

theorem does_onProxyComplete (h : t.Reached w) (he : Owning w k) (hops : w.env.ops = []) (hphase : w.env.phase = .proxying)
    (hu : w.env.observation.completed = false) (result : ProxyResult) :
    wp t.sites (onProxyComplete t.setup result) (fun _ => t.Reached) R w := by
  unfold onProxyComplete
  refine wp_tryCatch (wp_mono (Q := fun _ => t.Reached) (E := t.Reached) ?_ (fun _ _ hq => hq)
    fun _ hr => wp_modify.mpr hr.closeSocket)
  simp only [wp_modify_bind, wp_get_bind]
  have ha : Answering (dropProxy w) :=
    ⟨he.unfinished, he.unstopped, hops, rfl, hu⟩
  rw [if_neg (by simp [ha.unfinished, ha.unstopped, ha.unanswered])]
  refine wp_ask_bind ?_ fun _ => ?_
  · simp only [Bool.false_eq_true, if_false, wp_modify_bind]
    have hfail : t.Reached (observeAny (result.failure.map fun f => .fail f.stage) (dropProxy w))
        ∧ Answering (observeAny (result.failure.map fun f => .fail f.stage) (dropProxy w)) := by
      cases result.failure with
      | none => exact ⟨h.dropProxy, ha⟩
      | some f => exact ⟨h.dropProxy.observeFail ha hphase f.stage, ha.observe _⟩
    have hreject : ∀ {w' : World Session}, t.Reached w' → Answering w' →
        t.Reached (observeAny (result.bufferBudgetRejectedBytes.map fun _ =>
            .reject .bufferCapacity) w')
          ∧ Answering (observeAny (result.bufferBudgetRejectedBytes.map fun _ =>
            .reject .bufferCapacity) w') := by
      intro w' hr ha'
      cases result.bufferBudgetRejectedBytes with
      | none => exact ⟨hr, ha'⟩
      | some _ => exact ⟨hr.observeReject ha' _, ha'.observe _⟩
    obtain ⟨hr, ha'⟩ := hreject hfail.1 hfail.2
    refine does_answer hr ha' _ _ (capped_limitRequests ?_ _)
    rw [observeAny_served, observeAny_served]
  · simp only [if_true, wp_modify_bind]
    exact wp_throw.mpr (h.dropProxy.same rfl)

/-- A stream ends. It was being written, and `Spare` is what `stream_close_` stands
for. -/
theorem does_onStreamComplete (h : t.Reached w) (he : Owning w k)
    (hheaders : w.env.ops.count .readHeader = 0) (hbodies : w.env.ops.count .readBody = 0)
    (hphase : w.env.phase = .writing) (hcap : w.env.streamClose = false → t.Spare w) {failure : Option ProxyFailure}
    {downstreamFailed : Bool}
    (hlast : failure = none → downstreamFailed = false → w.env.ops = []) :
    wp t.sites (onStreamComplete t.setup failure downstreamFailed) (fun _ => t.Reached) R w := by
  unfold onStreamComplete
  refine Walk.Does.runHandler ?_
  unfold Walk.Does
  simp only [wp_modify_bind, wp_get_bind]
  have hdrop : t.Reached (set (fun s => { s with streamWriter := none }) (dropProxy w)) :=
    h.dropProxy.same rfl
  rw [if_neg (by simp [set, dropProxy, dropPermit, World.setShared, he.unfinished, he.unstopped])]
  split
  · simp only [wp_modify_bind]
    have hfail : t.Reached (observeAny (failure.map fun f => .failStream f.stage)
        (record ((failure.map fun f => Note.streamFailed f.stage).toList)
          (set (fun s => { s with streamWriter := none }) (dropProxy w)))) := by
      cases failure with
      | none => exact hdrop.same rfl
      | some f =>
          have hbusy : (outline w).busy = true := by
            show w.env.proxyExchange.isSome = true
            rw [he.exchange]
            rfl
          have hmove : Outline.Move t.setup t.lenient t.lossy (outline w) _ :=
            Outline.Move.failStream he.unfinished he.unstopped hheaders hbodies hphase hbusy
              f.stage
          show t.Reached (observe (.failStream f.stage) (record [.streamFailed f.stage]
            (set (fun s => { s with streamWriter := none }) (dropProxy w))))
          unfold Walk.Reached
          rw [outline_observe]
          exact h.tail hmove
    exact wp_mayThrow_bind (wp_modify.mpr hfail.closeSocket) fun _ => hfail
  · rename_i hok
    simp only [Bool.or_eq_true, not_or, Bool.not_eq_true, Option.isSome_eq_false_iff,
      Option.isNone_iff_eq_none] at hok
    have hops := hlast hok.1 hok.2
    split
    · exact does_gracefulClose hdrop hops
    · rename_i hkeep
      have hclose : w.env.streamClose = false := by
        simp only [Bool.or_eq_true, not_or, Bool.not_eq_true] at hkeep
        exact hkeep.1
      exact does_readRequest hdrop he.unfinished hops rfl (hcap hclose)

/-- Wherever a stream callback throws, the exchange aborts and the session closes. -/
theorem Walk.Reached.rescued (h : t.Reached w) (ho : Open (w.exs k)) :
    Rescued t.sites (endCallbacks t.setup) k t.Reached w :=
  wp_abandon ho.toUnclaimed (fun ⟨p, c, hput⟩ => absurd hput (ho.unput p c))
    fun _ hs _ => does_onProxyAborted (h.same (outline_same hs))

/-! ## The stream callbacks -/

theorem does_writeStreamHeader (h : Owning w k) (ho : Open (w.exs k)) (hr : t.Reached w)
    (hops : w.env.ops = []) (hphase : w.env.phase = .proxying)
    (hu : w.env.observation.completed = false) (header upstream : HttpResponse) (final : Bool) :
    wp t.sites (writeStreamHeader t.setup k header upstream final) (fun _ => t.Reached)
      (Rescued t.sites (endCallbacks t.setup) k t.Reached) w := by
  have hpending : (outline w).Pending :=
    { unfinished := h.unfinished
      unstopped := h.unstopped
      noHeader := by simp [outline, hops]
      noBody := by simp [outline, hops]
      noWrite := by simp [outline, hops]
      unanswered := hu }
  unfold writeStreamHeader
  simp only [wp_get_bind]
  rw [if_neg (by simp [h.unfinished, h.unstopped])]
  refine wp_mayThrow_bind ?_ fun _ => hr.rescued ho
  have hpolite : Outline.Polite False (outline w)
      (if w.env.draining || w.env.requestsServed ≥ maxRequestsPerConnection then
        header.setKeepAlive false else header) := by
    split
    · exact ⟨fun _ => HttpResponse.keepAlive_setKeepAlive _,
        Or.inr (Or.inr (HttpResponse.keepAlive_setKeepAlive _))⟩
    · rename_i hkeep
      simp only [Bool.or_eq_true, not_or, Bool.not_eq_true, decide_eq_true_eq] at hkeep
      refine ⟨fun hd => ?_, Or.inr (Or.inl (Nat.lt_of_not_le hkeep.2))⟩
      rw [show w.env.draining = true from hd] at hkeep
      cases hkeep.1
  generalize (if w.env.draining || w.env.requestsServed ≥ maxRequestsPerConnection then
    header.setKeepAlive false else header) = sent at hpolite
  simp only [wp_modify_bind]
  have hcap : sent.needEof t.setup.lib = false →
      (outline w).served < maxRequestsPerConnection := by
    intro hclose
    rcases hpolite.cap with hf | hlt | hka
    · exact hf.elim
    · exact hlt
    · rw [HttpResponse.needEof_of_keepAlive _ hka] at hclose
      cases hclose
  have hmove : Outline.Move t.setup t.lenient t.lossy (outline w) _ :=
    Outline.Move.stream w.shared.now (sent.needEof t.setup.lib) hpending hpolite hcap
  refine wp_mayThrow_bind ?_ fun hF => ?_
  · simp only [wp_modify_bind]
    refine wp_mayThrow_bind ?_ fun _ => ?_
    · refine wp_modify.mpr (Walk.Reached.same ?_ (outline_addOp (by simp) (by simp) (by simp)))
      exact hr.move hmove
    · refine Walk.Reached.rescued ?_ ho
      exact hr.move hmove
  · refine Walk.Reached.rescued ?_ ho
    refine hr.move ?_
    exact Outline.Move.lose (f := outline w) (t.losses _ (Or.inr (Or.inr rfl)) hF) sent.status
      w.shared.now hpending (Or.inl ⟨hphase, hphase⟩)

theorem does_writeStreamBody (h : Owning w k) (ho : Open (w.exs k)) (hr : t.Reached w)
    (block : Text) (final : Bool) :
    wp t.sites (writeStreamBody t.setup k block final) (fun _ => t.Reached)
      (Rescued t.sites (endCallbacks t.setup) k t.Reached) w := by
  unfold writeStreamBody
  simp only [wp_get_bind]
  rw [if_neg (by simp [h.unfinished, h.unstopped])]
  simp only [wp_modify_bind]
  have hpending : t.Reached (set (fun s => { s with streamPendingBytes := block.length }) w) :=
    hr.same rfl
  refine wp_mayThrow_bind ?_ fun _ => hpending.rescued ho
  exact wp_modify.mpr (hpending.same (outline_addOp (by simp) (by simp) (by simp)))

/-! ## What the session answers for -/

/-- A stream is being written: what its end needs to know. -/
structure Writing (t : Walk) (w : World Session) : Prop where
  noHeader : w.env.ops.count .readHeader = 0
  noBody : w.env.ops.count .readBody = 0
  phase : w.env.phase = .writing
  spare : w.env.streamClose = false → t.Spare w

theorem Owning.walk_ends (h : Owning w k) (hr : t.Reached w) {success : Prop}
    (hsuccess : success → w.env.ops = [])
    (hstream : (w.exs k).streamStarted = true → Writing t w) :
    Ends t.sites (endCallbacks t.setup) k w success t.Reached where
  abort _ hs _ := does_onProxyAborted (hr.same (outline_same hs))
  finish hs w' failure downstreamFailed hsame _ hgood := by
    have hw := hstream hs
    have henv := hsame.env
    have hspare : w'.env.streamClose = false → t.Spare w' := by
      unfold Walk.Spare
      rw [henv]
      exact hw.spare
    -- the note of the end is not in the outline
    have hnoted : t.Reached
        (w'.setEx k (Exchange.record (.finish failure downstreamFailed))) :=
      (hr.same (outline_same hsame)).same rfl
    refine wp_mono (does_onStreamComplete (R := fun _ => False) hnoted
      ((h.same hsame).setEx _) (henv ▸ hw.noHeader) (henv ▸ hw.noBody) (henv ▸ hw.phase) hspare ?_)
      (fun _ _ hq => hq.same rfl) fun _ hf => hf
    intro hnone hdown
    rw [World.setEx_env, henv]
    exact hsuccess (hgood hnone hdown)

theorem walk_proxying (h : Owning w k) (hr : t.Reached w)
    (hops : w.env.ops = []) (hphase : w.env.phase = .proxying)
    (hu : w.env.observation.completed = false) (hs : (w.exs k).streamStarted = false)
    {reading : Prop} :
    Outcomes t.sites (endCallbacks t.setup) (streamCallbacks t.setup) t.setup.lib k w reading False
      t.Reached :=
  { h.walk_ends hr (fun hf => hf.elim) (fun hstream => by
      rw [hs] at hstream
      cases hstream) with
    quiet := fun _ _ hg => hr.same (outline_same hg.same)
    next := by
      intro _ hstream
      rw [hs] at hstream
      cases hstream
    complete := by
      intro _ w' r hsame _ _
      have henv := hsame.env
      refine wp_mono (does_onProxyComplete (R := fun _ => False) (hr.same (outline_same hsame))
        (h.same hsame) (henv ▸ hops) (henv ▸ hphase) (henv ▸ hu) r)
        (fun _ _ hq => hq.same rfl) fun _ hf => hf
    header := by
      intro _ w' head up final hsame hl hstream _
      have henv := hsame.env
      have hnoted : t.Reached (w'.setEx k (Exchange.record (.relay (.opened final)))) :=
        (hr.same (outline_same hsame)).same rfl
      refine does_writeStreamHeader ((h.same hsame).setEx _) ?_ hnoted (henv ▸ hops)
        (henv ▸ hphase) (henv ▸ hu) head up final
      rw [World.setEx_same]
      exact (hl.relay hstream _).toOpen
    body := by
      intro _ hstream
      rw [hs] at hstream
      cases hstream }

theorem walk_streaming (h : Owning w k) (hr : t.Reached w)
    (hs : (w.exs k).streamStarted = true) (hw : Writing t w) {reading : Prop} :
    Outcomes t.sites (endCallbacks t.setup) (streamCallbacks t.setup) t.setup.lib k w reading False
      t.Reached :=
  { h.walk_ends hr (fun hf => hf.elim) (fun _ => hw) with
    quiet := fun _ _ hg => hr.same (outline_same hg.same)
    next := fun _ _ _ hg _ => (hr.same (outline_same hg.same)).same rfl
    complete := by
      intro hstream
      rw [hs] at hstream
      cases hstream
    header := by
      intro hstream
      rw [hs] at hstream
      cases hstream
    body := by
      intro _ _ w' block final hsame hl hstream _ _
      have hnoted : t.Reached (w'.setEx k (Exchange.record (.relay (.passed block final)))) :=
        (hr.same (outline_same hsame)).same rfl
      refine does_writeStreamBody ((h.same hsame).setEx _) ?_ hnoted block final
      rw [World.setEx_same]
      exact (hl.relay hstream _).toOpen }

end Session

end ApiGate
