import ApiGate.BodyLedger

/-!
# Every handler keeps the ledger

One rule for each function of a session and of its exchanges, in the order of the calls.
Nothing is assumed of the session's mode: no handler ever gives back a permit that it
does not hold, whatever it finds. Where a function takes over a permit, its bytes are
`carried` into it.
-/

namespace ApiGate

open EventLoop Act Exchange

namespace Session

variable {gw : Gateway} {i bodies carried : Nat} {reading : Nat → Prop} {g : Setup} {F : Site → Prop}
  {w : World Session} {k : Nat} {R : World Session → Prop}

/-! ## Closing -/

theorem Ledger.dropProxyPermit (h : Ledger gw i reading bodies carried w) :
    Ledger gw i reading bodies carried (Session.dropPermit w) :=
  h.alike rfl rfl rfl rfl rfl rfl (Nat.le_refl _)

theorem Ledger.dropProxy (h : Ledger gw i reading bodies carried w) :
    Ledger gw i reading bodies carried (dropProxy w) :=
  Ledger.dropProxyPermit (h.set (f := fun s => { s with proxyExchange := none }) rfl rfl rfl)

theorem Ledger.cancelProxy (h : Ledger gw i reading bodies carried w) :
    Ledger gw i reading bodies carried (cancelProxy w) := by
  unfold Session.cancelProxy
  cases w.env.proxyExchange with
  | none => exact h.dropProxy
  | some k => exact Ledger.dropProxy (h.setEx (sameHold_cancel (w.exs k)))

theorem Ledger.finish (h : Ledger gw i reading bodies carried w) :
    Ledger gw i reading bodies carried (finish w) := by
  unfold Session.finish
  split
  · exact h
  · exact h.set rfl rfl rfl

theorem Ledger.closeSocket (h : Ledger gw i reading bodies carried w) :
    Ledger gw i reading bodies carried (closeSocket w) := by
  unfold Session.closeSocket
  split
  · exact h
  · exact h.cancelProxy.finish

theorem Ledger.stop (h : Ledger gw i reading bodies carried w) : Ledger gw i reading bodies carried (stop w) := by
  unfold Session.stop
  split
  · exact h
  · have hset := h.set (f := fun s => { s with stopping := true }) rfl rfl rfl
    exact hset.cancelProxy.finish

theorem Ledger.beginDrain (h : Ledger gw i reading bodies carried w) :
    Ledger gw i reading bodies carried (beginDrain w) := by
  unfold Session.beginDrain
  split
  · exact h
  · have hset := h.set (f := fun s => { s with draining := true }) rfl rfl rfl
    dsimp only
    split
    · exact hset.stop
    · exact hset
    · exact hset

/-- `run_handler` closes the session on an exception. -/
theorem saves_session_runHandler {action : SessionAct Unit}
    (h : wp F action (fun _ => Ledger gw i reading bodies carried) (Ledger gw i reading bodies carried) w) :
    wp F (runHandler action) (fun _ => Ledger gw i reading bodies carried) R w :=
  wp_tryCatch (wp_mono h (fun _ _ h' => h') fun _ h' => wp_modify.mpr h'.closeSocket)

theorem saves_gracefulClose (h : Ledger gw i reading bodies carried w) :
    wp F (gracefulClose g) (fun _ => Ledger gw i reading bodies carried) R w := by
  unfold gracefulClose
  simp only [wp_get_bind]
  split
  · exact wp_pure.mpr h
  · split
    · exact wp_modify.mpr h.closeSocket
    · simp only [wp_modify_bind]
      have hset := h.set (f := fun s => { s with phase := .closing }) rfl rfl rfl
      refine wp_tryCatch (wp_mayThrow_bind ?_ fun _ => wp_modify.mpr hset.closeSocket)
      exact wp_modify.mpr (hset.addOp (by simp))

/-! ## Reading and writing -/

theorem saves_readRequest (h : Ledger gw i reading bodies carried w) :
    wp F readRequest (fun _ => Ledger gw i reading bodies carried) (Ledger gw i reading bodies carried) w := by
  unfold readRequest
  simp only [wp_modify_bind, wp_get_bind]
  have hnoted : Ledger gw i reading bodies carried (note .readRequest w) :=
    h.set rfl rfl rfl
  split
  · exact wp_modify.mpr hnoted.closeSocket
  · simp only [wp_modify_bind]
    refine wp_mayThrow_bind ?_ fun _ => hnoted.set rfl rfl rfl
    simp only [wp_modify_bind]
    exact wp_modify.mpr (Ledger.set (Ledger.addOp (hnoted.set rfl rfl rfl) (by simp)) rfl rfl rfl)

theorem Ledger.finishObservation (h : Ledger gw i reading bodies carried w) (status : Nat) :
    Ledger gw i reading bodies carried (finishObservation status w) :=
  h.alike rfl rfl rfl rfl rfl rfl (Nat.le_refl _)

theorem Ledger.observe (h : Ledger gw i reading bodies carried w) (call : ObservationCall) :
    Ledger gw i reading bodies carried (observe call w) :=
  h.alike rfl rfl rfl rfl rfl rfl (Nat.le_refl _)

theorem Ledger.observeAny (h : Ledger gw i reading bodies carried w) (call : Option ObservationCall) :
    Ledger gw i reading bodies carried (observeAny call w) := by
  cases call with
  | none => exact h
  | some call => exact h.observe call

/-- `write_response` takes the permit over. -/
theorem saves_writeResponse {p : BufferBudgetPermit}
    (h : Ledger gw i reading bodies (carried + p.held) w) (site : Site) (upstream : Option HttpResponse)
    (response : HttpResponse) :
    wp F (writeResponse g site upstream response p) (fun _ => Ledger gw i reading bodies carried)
      (Ledger gw i reading bodies carried) w := by
  unfold writeResponse
  simp only [wp_get_bind]
  split
  · exact wp_modify.mpr h.dropPermit
  · simp only [wp_modify_bind]
    have hwriting := (h.finishObservation response.status).set
      (f := fun s => { s with phase := .writing }) rfl rfl rfl
    refine wp_ask_bind ?_ fun _ => ?_
    · simp only [Bool.false_eq_true, if_false, wp_modify_bind]
      generalize (if w.env.draining then response.setKeepAlive false else response) = sent
      have hput := hwriting.putResponse
        (f := fun s => { s with response := some sent, responseBodyPermit := p }) rfl rfl rfl
      refine wp_mayThrow_bind (wp_modify.mpr (Ledger.addOp ?_ (by simp))) fun _ => ?_
      all_goals exact hput.alike rfl rfl rfl rfl rfl rfl (Nat.le_refl _)
    · simp only [if_true, wp_modify_bind]
      exact wp_throw.mpr hwriting.dropPermit

/-- The same without a permit. -/
theorem Ledger.answers (h : Ledger gw i reading bodies carried w) (site : Site)
    (upstream : Option HttpResponse) (response : HttpResponse) :
    wp F (writeResponse g site upstream response {}) (fun _ => Ledger gw i reading bodies carried)
      (Ledger gw i reading bodies carried) w :=
  saves_writeResponse (p := {}) h site upstream response

theorem saves_onWrite (h : Ledger gw i reading bodies carried w) (error : Error) (closeAfterWrite : Bool) :
    wp F (onWrite g error closeAfterWrite) (fun _ => Ledger gw i reading bodies carried)
      (Ledger gw i reading bodies carried) w := by
  unfold onWrite
  simp only [wp_get_bind]
  split
  · exact wp_pure.mpr h
  · simp only [wp_modify_bind]
    have hnoted : Ledger gw i reading bodies carried
        (note (.lastWrite error closeAfterWrite w.env.draining) w) :=
      h.set rfl rfl rfl
    have hcleared := Ledger.putResponse (p := {}) hnoted
      (f := fun s => { s with response := none, responseBodyPermit := {} }) rfl rfl rfl
    have hreset := hcleared.resetRequest
    split
    · split
      · exact saves_gracefulClose hreset
      · exact saves_readRequest hreset
    all_goals exact wp_modify.mpr hreset.closeSocket

/-! ## The end of an exchange -/

theorem saves_onProxyComplete {result : ProxyResult}
    (h : Ledger gw i reading bodies (carried + result.bodyPermit.held) w) :
    wp F (onProxyComplete g result) (fun _ => Ledger gw i reading bodies carried) R w := by
  unfold onProxyComplete
  refine wp_tryCatch ?_
  simp only [wp_modify_bind, wp_get_bind]
  have hdropped := h.dropProxy
  split
  · exact wp_modify.mpr hdropped.dropPermit
  · refine wp_ask_bind ?_ fun _ => ?_
    · simp only [Bool.false_eq_true, if_false, wp_modify_bind]
      have hobserved := (hdropped.observeAny (result.failure.map fun f => .fail f.stage)).observeAny
        (result.bufferBudgetRejectedBytes.map fun _ => .reject .bufferCapacity)
      exact wp_mono (saves_writeResponse hobserved _ _ _) (fun _ _ h' => h')
        fun _ h' => wp_modify.mpr h'.closeSocket
    · simp only [if_true, wp_modify_bind]
      exact wp_throw.mpr (wp_modify.mpr hdropped.dropPermit.closeSocket)

theorem saves_onProxyAborted (h : Ledger gw i reading bodies carried w) :
    wp F onProxyAborted (fun _ => Ledger gw i reading bodies carried) R w := by
  unfold onProxyAborted
  simp only [wp_modify_bind, wp_get_bind]
  split
  · exact wp_pure.mpr h.dropProxy
  · exact wp_modify.mpr h.dropProxy.closeSocket

theorem saves_onStreamComplete (h : Ledger gw i reading bodies carried w) (failure : Option ProxyFailure)
    (downstreamFailed : Bool) :
    wp F (onStreamComplete g failure downstreamFailed) (fun _ => Ledger gw i reading bodies carried) R w := by
  unfold onStreamComplete
  refine saves_session_runHandler ?_
  simp only [wp_modify_bind, wp_get_bind]
  have hset := h.dropProxy.set (f := fun s => { s with streamWriter := none }) rfl rfl rfl
  split
  · exact wp_pure.mpr hset
  · split
    · simp only [wp_modify_bind]
      have hlogged : Ledger gw i reading bodies carried (record
          ((failure.map fun f => .streamFailed f.stage).toList)
          (Session.set (fun s => { s with streamWriter := none }) (dropProxy w))) :=
        hset.set rfl rfl rfl
      have hobserved := hlogged.observeAny (failure.map fun f => .failStream f.stage)
      exact wp_mayThrow_bind (wp_modify.mpr hobserved.closeSocket) fun _ => hobserved
    · split
      · exact saves_gracefulClose hset
      · exact saves_readRequest hset

/-! ## Ending an exchange -/

theorem Ledger.setFlags (h : Ledger gw i reading bodies carried w) {f : Exchange → Exchange}
    (hresponse : (f (w.exs k)).responseBodyPermit = (w.exs k).responseBodyPermit)
    (hstream : (f (w.exs k)).streamPermit = (w.exs k).streamPermit)
    (hrequest : (f (w.exs k)).requestBodyPermit = (w.exs k).requestBodyPermit)
    (hparser : (f (w.exs k)).parser = (w.exs k).parser)
    (hops : (f (w.exs k)).ops = (w.exs k).ops) :
    Ledger gw i reading bodies carried (w.setEx k f) :=
  h.setEx (.of_eq hresponse hstream hrequest hparser hops)

theorem saves_notifyAbort (h : Ledger gw i reading bodies carried w) :
    wp F (notifyAbort (endCallbacks g) k) (fun _ => Ledger gw i reading bodies carried) R w := by
  unfold notifyAbort
  simp only [wp_modify_bind, wp_get_bind]
  have hdropped : Ledger gw i reading bodies carried (w.setEx k fun x => { x with onComplete := false }) :=
    h.setFlags rfl rfl rfl rfl rfl
  split
  · simp only [wp_modify_bind]
    exact wp_tryCatch (saves_onProxyAborted (hdropped.setFlags rfl rfl rfl rfl rfl))
  · exact wp_pure.mpr hdropped

/-- `complete` hands the permit of the result over to the session. -/
theorem saves_complete {result : ProxyResult}
    (h : Ledger gw i reading bodies (carried + result.bodyPermit.held) w) :
    wp F (complete (endCallbacks g) k result) (fun _ => Ledger gw i reading bodies carried) R w := by
  have hless : carried ≤ carried + result.bodyPermit.held := Nat.le_add_right ..
  unfold complete
  simp only [wp_get_bind]
  split
  · exact wp_pure.mpr (h.mono hless)
  · simp only [wp_modify_bind]
    refine wp_tryCatch ?_
    simp only [wp_modify_bind, wp_get_bind, World.setEx_setEx]
    split
    · simp only [wp_modify_bind, World.setEx_setEx]
      refine wp_bind (wp_mono (saves_onProxyComplete (h.setFlags rfl rfl rfl rfl rfl)) ?_
        fun _ h' => h')
      exact fun _ w' h' => wp_modify.mpr (h'.setFlags rfl rfl rfl rfl rfl)
    · exact saves_notifyAbort ((h.mono hless).setFlags rfl rfl rfl rfl rfl)

/-- A result without a body permit. -/
theorem Ledger.completes (h : Ledger gw i reading bodies carried w) {result : ProxyResult}
    (hempty : result.bodyPermit = {}) :
    wp F (complete (endCallbacks g) k result) (fun _ => Ledger gw i reading bodies carried) R w := by
  refine saves_complete ?_
  rw [hempty]
  exact h

theorem saves_completeStream (h : Ledger gw i reading bodies carried w) (failure : Option ProxyFailure)
    (downstreamFailed : Bool) :
    wp F (completeStream (endCallbacks g) k failure downstreamFailed)
      (fun _ => Ledger gw i reading bodies carried) R w := by
  unfold completeStream
  simp only [wp_get_bind]
  split
  · exact wp_pure.mpr h
  · simp only [wp_modify_bind]
    refine wp_tryCatch ?_
    simp only [wp_modify_bind, wp_get_bind, World.setEx_setEx]
    split
    · refine wp_bind (wp_modify.mpr (wp_bind ?_))
      rw [World.setEx_setEx]
      refine wp_mono (saves_onStreamComplete (h.setFlags rfl rfl rfl rfl rfl) failure
        downstreamFailed) ?_ fun _ h' => h'
      exact fun _ w' h' => wp_modify.mpr (h'.setFlags rfl rfl rfl rfl rfl)
    · rw [wp_throw_bind]
      exact saves_notifyAbort (h.setFlags rfl rfl rfl rfl rfl)

theorem saves_abandon (h : Ledger gw i reading bodies carried w) :
    wp F (abandon (endCallbacks g) k) (fun _ => Ledger gw i reading bodies carried) R w := by
  unfold abandon
  simp only [wp_get_bind]
  split
  · exact wp_pure.mpr h
  · simp only [wp_modify_bind]
    refine saves_notifyAbort (h.setEx (SameHold.trans ?_ (sameHold_cancelOperations _)))
    exact .of_eq rfl rfl rfl rfl rfl

theorem saves_runHandler {body : SessionAct Unit}
    (h : wp F body (fun _ => Ledger gw i reading bodies carried) (Ledger gw i reading bodies carried) w) :
    wp F (Exchange.runHandler (endCallbacks g) k body) (fun _ => Ledger gw i reading bodies carried) R w :=
  wp_tryCatch (wp_mono h (fun _ _ h' => h') fun _ h' => saves_abandon h')

theorem saves_fail (h : Ledger gw i reading bodies carried w) (stage : ProxyFailureStage)
    (error : Error) :
    wp F (fail (endCallbacks g) k stage error) (fun _ => Ledger gw i reading bodies carried)
      (Ledger gw i reading bodies carried) w := by
  unfold fail
  simp only [wp_get_bind]
  split
  · exact wp_pure.mpr h
  · simp only [wp_modify_bind]
    have hcancelled : Ledger gw i reading bodies carried
        (w.setEx k fun x => (x.recordFailure stage).finishDeadline.cancelOperations) := by
      refine h.setEx (SameHold.trans ?_ (sameHold_cancelOperations _))
      exact .of_eq rfl rfl rfl rfl rfl
    split
    · exact saves_completeStream hcancelled _ _
    · exact wp_mayThrow_bind (hcancelled.completes rfl) fun _ => hcancelled

theorem saves_exchange_rejectBufferBudget (h : Ledger gw i reading bodies carried w) (bytes : UInt64) :
    wp F (Exchange.rejectBufferBudget (endCallbacks g) k bytes)
      (fun _ => Ledger gw i reading bodies carried) (Ledger gw i reading bodies carried) w := by
  unfold Exchange.rejectBufferBudget
  simp only [wp_modify_bind]
  have hcancelled := h.setEx (sameHold_cancelOperations (w.exs k))
  refine wp_mayThrow_bind ?_ fun _ => hcancelled
  simp only [wp_get_bind]
  exact hcancelled.completes rfl

/-- The end of a response leaves the permit of its body where it is. -/
theorem saves_release {reusable clean : Bool} {f : Unit → SessionAct Unit}
    (h : Ledger gw i reading bodies carried w) {Q : Unit → World Session → Prop}
    (hf : ∀ w', Ledger gw i reading bodies carried w' →
      (w'.exs k).responseBodyPermit = (w.exs k).responseBodyPermit →
      (w'.exs k).ops = (w.exs k).ops → wp F (f ()) Q R w') :
    wp F (modify (World.setEx k Exchange.finishDeadline) >>= fun _ =>
      modify (World.setEx k (recordPut reusable clean)) >>= fun _ =>
        releaseUpstream k reusable >>= f) Q R w := by
  simp only [wp_modify_bind, World.setEx_setEx]
  have hrecorded : ∀ x : Exchange, SameHold x (x.finishDeadline.recordPut reusable clean)
      ∧ (x.finishDeadline.recordPut reusable clean).ops = x.ops := by
    intro x
    unfold recordPut
    split <;> exact ⟨.of_eq rfl rfl rfl rfl rfl, rfl⟩
  obtain ⟨hsame, hrest⟩ := hrecorded (w.exs k)
  have hput : Ledger gw i reading bodies carried
      (w.setEx k fun x => x.finishDeadline.recordPut reusable clean) := h.setEx hsame
  have hresponse : ((w.setEx k fun x => x.finishDeadline.recordPut reusable clean).exs
      k).responseBodyPermit = (w.exs k).responseBodyPermit := by
    rw [World.setEx_same]
    exact hsame.response
  have hops : ((w.setEx k fun x => x.finishDeadline.recordPut reusable clean).exs k).ops
      = (w.exs k).ops := by
    rw [World.setEx_same]
    exact hrest
  generalize (w.setEx k fun x => x.finishDeadline.recordPut reusable clean) = w₁
    at hput hresponse hops
  unfold releaseUpstream
  split
  · have hpooled : ∀ shared : Shared, shared.budget = w₁.shared.budget →
        shared.cells = w₁.shared.cells → shared.nextCell = w₁.shared.nextCell →
        Ledger gw i reading bodies carried
          (World.setEx k (fun x => { x with lease := .pooled, puts := x.puts + 1 })
            (w₁.setShared fun _ => shared)) := by
      intro shared hbudget hcells hnext
      have hshared : Ledger gw i reading bodies carried (w₁.setShared fun _ => shared) :=
        hput.alike rfl hbudget hcells hnext rfl rfl (Nat.le_refl _)
      exact hshared.setFlags rfl rfl rfl rfl rfl
    refine wp_bind ?_
    simp only [wp_get_bind]
    refine wp_ask_bind ?_ fun _ => ?_
    all_goals
      refine wp_ask_bind ?_ fun _ => ?_
    all_goals
      refine wp_modify.mpr (hf _ (hpooled _ rfl rfl rfl) ?_ ?_)
      · rw [World.setEx_same]
        exact hresponse
      · rw [World.setEx_same]
        exact hops
  · refine wp_bind (wp_modify.mpr (hf _ (hput.setEx (sameHold_closeUpstream _)) ?_ ?_))
    · rw [World.setEx_same, (sameHold_closeUpstream _).response, hresponse]
    · rw [World.setEx_same]
      unfold closeUpstream
      split <;> exact hops

theorem saves_finishStream (h : Ledger gw i reading bodies carried w) :
    wp F (finishStream (endCallbacks g) k) (fun _ => Ledger gw i reading bodies carried)
      (Ledger gw i reading bodies carried) w := by
  unfold finishStream
  refine wp_mayThrow_bind ?_ fun _ => h
  simp only [wp_get_bind]
  refine wp_ask_bind ?_ fun _ => ?_
  all_goals exact saves_release h fun w' h' _ _ => saves_completeStream h' _ _

theorem saves_initiate (h : Ledger gw i reading bodies carried w) {site : Site} {op : ExchangeOp}
    (hop : preStream op = false) :
    wp F (initiate site op k) (fun _ => Ledger gw i reading bodies carried) (Ledger gw i reading bodies carried)
      w := by
  unfold initiate
  exact wp_mayThrow_bind (wp_modify.mpr (h.setEx (sameHold_addOp hop _))) fun _ => h

theorem saves_resumeStream (h : Ledger gw i reading bodies carried w) (final : Bool) (error : Error) :
    wp F (resumeStream (endCallbacks g) k final error) (fun _ => Ledger gw i reading bodies carried) R
      w := by
  refine saves_runHandler ?_
  simp only [wp_get_bind]
  split
  · exact wp_pure.mpr h
  · simp only [wp_modify_bind]
    have hnoted : Ledger gw i reading bodies carried
        (w.setEx k (Exchange.record (.relay (.taken error)))) := h.setFlags rfl rfl rfl rfl rfl
    split
    · simp only [wp_modify_bind]
      exact saves_completeStream (hnoted.setEx (sameHold_cancelOperations _)) _ _
    · split
      · exact saves_finishStream hnoted
      · exact saves_initiate hnoted rfl

/-- No stage is under way; a body that was being read has been read. -/
def Clear (k : Nat) (w : World Session) : Prop := (w.exs k).stages = 0

theorem saves_finishResponse (h : Ledger gw i reading bodies carried w) (hc : Clear k w) :
    wp F (finishResponse (endCallbacks g) g.lib k) (fun _ => Ledger gw i reading bodies carried)
      (Ledger gw i reading bodies carried) w := by
  unfold finishResponse
  refine wp_mayThrow_bind ?_ fun _ => h
  simp only [wp_get_bind]
  refine wp_ask_bind ?_ fun _ => ?_
  all_goals
    refine saves_release h fun w' h' hresponse hops => ?_
    refine wp_mayThrow_bind ?_ fun _ => h'
    split
    · exact wp_throw.mpr h'
    · simp only [wp_modify_bind]
      have hclear : (w'.exs k).stages = 0 := by
        unfold stages
        rw [hops]
        exact hc
      -- the permit goes from the exchange into the result
      have hreserved : Reserved (reading k) { w'.exs k with responseBodyPermit := {} } :=
        reserved_of_noStage hclear
      have htaken := Ledger.putBody (p := {}) h' hreserved
      rw [hresponse] at htaken
      exact saves_complete htaken

/-! ## Streams -/

theorem saves_writeStreamHeader (h : Ledger gw i reading bodies carried w)
    (header upstream : HttpResponse) (final : Bool) :
    wp F (writeStreamHeader g k header upstream final) (fun _ => Ledger gw i reading bodies carried)
      (Ledger gw i reading bodies carried) w := by
  unfold writeStreamHeader
  simp only [wp_get_bind]
  split
  · exact saves_resumeStream h final _
  · refine wp_mayThrow_bind ?_ fun _ => h
    simp only [wp_modify_bind]
    refine wp_mayThrow_bind ?_ fun _ => ?_
    · simp only [wp_modify_bind]
      refine wp_mayThrow_bind (wp_modify.mpr (Ledger.addOp ?_ (by simp))) fun _ => ?_
      all_goals exact h.alike rfl rfl rfl rfl rfl rfl (Nat.le_refl _)
    · exact h.alike rfl rfl rfl rfl rfl rfl (Nat.le_refl _)

theorem saves_writeStreamBody (h : Ledger gw i reading bodies carried w) (block : Text) (final : Bool) :
    wp F (writeStreamBody g k block final) (fun _ => Ledger gw i reading bodies carried)
      (Ledger gw i reading bodies carried) w := by
  unfold writeStreamBody
  simp only [wp_get_bind]
  split
  · exact saves_resumeStream h final _
  · simp only [wp_modify_bind]
    have hset := h.set (f := fun s => { s with streamPendingBytes := block.length }) rfl rfl rfl
    exact wp_mayThrow_bind (wp_modify.mpr (hset.addOp (by simp))) fun _ => hset

theorem saves_onStreamWritten (h : Ledger gw i reading bodies carried w) (final : Bool) (error : Error) :
    wp F (onStreamWritten g k final error) (fun _ => Ledger gw i reading bodies carried) R w := by
  unfold onStreamWritten
  simp only [wp_modify_bind]
  have hnoted : Ledger gw i reading bodies carried (if final && !w.env.finished then
      note (.lastWrite error w.env.streamClose w.env.draining) w else w) := by
    split
    · exact h.set rfl rfl rfl
    · exact h
  exact saves_session_runHandler (saves_resumeStream hnoted final error)

theorem saves_sendStreamHead (h : Ledger gw i reading bodies carried w) :
    wp F (sendStreamHead g.lib (streamCallbacks g) k) (fun _ => Ledger gw i reading bodies carried)
      (Ledger gw i reading bodies carried) w := by
  unfold sendStreamHead
  refine wp_mayThrow_bind ?_ fun _ => h
  simp only [wp_get_bind, wp_modify_bind]
  have hstarted : Ledger gw i reading bodies carried
      (w.setEx k fun x => { x with streamStarted := true }) := h.setFlags rfl rfl rfl rfl rfl
  refine wp_mayThrow_bind ?_ fun _ => hstarted
  simp only [wp_modify_bind]
  exact saves_writeStreamHeader (hstarted.setFlags rfl rfl rfl rfl rfl) _ _ _

theorem saves_startStream (h : Ledger gw i reading bodies carried w) :
    wp F (startStream (endCallbacks g) g.lib (streamCallbacks g) k)
      (fun _ => Ledger gw i reading bodies carried) (Ledger gw i reading bodies carried) w := by
  unfold startStream
  simp only [wp_get_bind]
  split
  · exact saves_fail h _ _
  · split
    · exact saves_fail h _ _
    · refine wp_mayThrow_bind ?_ fun _ => h
      split
      · split
        · exact saves_exchange_rejectBufferBudget h _
        · split
          · exact saves_exchange_rejectBufferBudget h _
          · rename_i permit budget hacquired
            simp only [wp_modify_bind]
            obtain ⟨-, htaken⟩ := h.acquire hacquired
            have hput := (htaken.putStream k).mono (Nat.le_add_right ..)
            exact wp_mayThrow_bind (saves_sendStreamHead hput) fun _ => hput
      · exact saves_sendStreamHead h

/-! ## Stages -/

theorem stages_armed (x : Exchange) : x.armed.stages = x.stages :=
  List.countP_cons_of_neg (by simp [preStream])

theorem saves_nextStage (h : Ledger gw i reading bodies carried w) (hc : Clear k w) {site : Site}
    {op : ExchangeOp} (hop : op ≠ .readBody) :
    wp F (do beginDeadline k; initiate site op k) (fun _ => Ledger gw i reading bodies carried)
      (Ledger gw i reading bodies carried) w := by
  refine wp_mono wp_nextStage ?_ ?_
  · rintro _ w' rfl
    exact h.setHeld rfl rfl (fun _ hc => Or.inr ⟨k, hc⟩)
      (reserved_addStage ((stages_armed _).trans hc) hop)
  · rintro w' (rfl | rfl)
    · exact h.setEx (sameHold_finishDeadline _)
    · exact h.setHeld rfl rfl (fun _ hc => Or.inr ⟨k, hc⟩)
        (reserved_of_noStage ((stages_armed _).trans hc))

/-- What the handlers of the stages before the response have in common. -/
theorem saves_stageEnd {next : SessionAct Unit} (h : Ledger gw i reading bodies carried w)
    (hc : Clear k w) {stage : ProxyFailureStage} {error : Error}
    (hnext : Ledger gw i reading bodies carried (w.setEx k finishDeadline) →
      Clear k (w.setEx k finishDeadline) →
      wp F next (fun _ => Ledger gw i reading bodies carried) (Ledger gw i reading bodies carried)
        (w.setEx k finishDeadline)) :
    wp F (do
      let w ← get
      if (w.exs k).observed then pure ()
      else
        modify (World.setEx k finishDeadline)
        if error.isSome then Exchange.fail (endCallbacks g) k stage error else next)
      (fun _ => Ledger gw i reading bodies carried) (Ledger gw i reading bodies carried) w := by
  simp only [wp_get_bind]
  split
  · exact wp_pure.mpr h
  · simp only [wp_modify_bind]
    have hfinished := h.setEx (sameHold_finishDeadline (w.exs k))
    have hclear : Clear k (w.setEx k finishDeadline) := by
      unfold Clear
      rw [World.setEx_same]
      exact hc
    split
    · exact saves_fail hfinished _ _
    · exact hnext hfinished hclear

theorem saves_onResolve (h : Ledger gw i reading bodies carried w) (hc : Clear k w) (error : Error) :
    wp F (onResolve (endCallbacks g) k error) (fun _ => Ledger gw i reading bodies carried)
      (Ledger gw i reading bodies carried) w :=
  saves_stageEnd h hc fun h' hc' => saves_nextStage h' hc' (by simp)

theorem saves_onConnect (h : Ledger gw i reading bodies carried w) (hc : Clear k w) (error : Error) :
    wp F (onConnect (endCallbacks g) k error) (fun _ => Ledger gw i reading bodies carried)
      (Ledger gw i reading bodies carried) w := by
  unfold onConnect
  simp only [wp_get_bind]
  split
  · exact wp_pure.mpr h
  · simp only [wp_modify_bind]
    have hfinished := h.setEx (sameHold_finishDeadline (w.exs k))
    have hclear : Clear k (w.setEx k finishDeadline) := by
      unfold Clear
      rw [World.setEx_same]
      exact hc
    split
    · exact saves_fail hfinished _ _
    · split
      · refine wp_ask_bind ?_ fun _ => ?_
        · simp only [Bool.false_eq_true, if_false]
          exact saves_nextStage hfinished hclear (by simp)
        · simp only [if_true]
          exact saves_fail hfinished _ _
      · exact saves_nextStage hfinished hclear (by simp)

theorem saves_exchange_onHandshake (h : Ledger gw i reading bodies carried w) (hc : Clear k w) (error : Error) :
    wp F (Exchange.onHandshake (endCallbacks g) k error) (fun _ => Ledger gw i reading bodies carried)
      (Ledger gw i reading bodies carried) w :=
  saves_stageEnd h hc fun h' hc' => saves_nextStage h' hc' (by simp)

theorem saves_exchange_onWrite (h : Ledger gw i reading bodies carried w) (hc : Clear k w)
    (error : Error) :
    wp F (Exchange.onWrite (endCallbacks g) k error) (fun _ => Ledger gw i reading bodies carried)
      (Ledger gw i reading bodies carried) w := by
  refine saves_stageEnd h hc fun h' hc' => ?_
  simp only [wp_modify_bind]
  refine saves_nextStage (h'.setFlags rfl rfl rfl rfl rfl) ?_ (by simp)
  unfold Clear
  rw [World.setEx_same]
  exact hc'

/-- The body is read only behind a reservation. -/
theorem saves_exchange_onReadHeader (h : Ledger gw i reading bodies carried w) (hc : Clear k w)
    {error : Error} (hgranted : error = none → (w.shared.budget.tryAcquire
      ((w.exs k).parser.contentLength.getD maxUpstreamBodyBytes)).1.isSome = true → reading k) :
    wp F (Exchange.onReadHeader (endCallbacks g) g.lib (streamCallbacks g) k error)
      (fun _ => Ledger gw i reading bodies carried) (Ledger gw i reading bodies carried) w := by
  unfold Exchange.onReadHeader
  simp only [wp_get_bind]
  have hfinished := h.setEx (sameHold_finishDeadline (w.exs k))
  have hclear : Clear k (w.setEx k finishDeadline) := by
    unfold Clear
    rw [World.setEx_same]
    exact hc
  split
  · exact wp_pure.mpr h
  · split
    · simp only [wp_modify_bind]
      exact saves_fail hfinished _ _
    · rename_i hok
      split
      · exact saves_startStream h
      · split
        · simp only [wp_modify_bind]
          exact saves_fail hfinished _ _
        · split
          · simp only [wp_modify_bind]
            exact saves_fail hfinished _ _
          · simp only [wp_modify_bind]
            exact saves_finishResponse hfinished hclear
          · rename_i hplan
            split
            · simp only [wp_modify_bind]
              exact saves_exchange_rejectBufferBudget hfinished _
            · rename_i permit budget hacquired
              simp only [wp_modify_bind]
              rw [planBodyReservation_reserve hplan] at hacquired
              have hreading : reading k := hgranted (by simpa using hok) (by rw [hacquired]; rfl)
              obtain ⟨hpermit, htaken⟩ := h.acquire hacquired
              have hreserved : Reserved (reading k) { w.exs k with responseBodyPermit := permit } :=
                reserved_of_noStage hc
              have hput := (htaken.putBody (k := k) hreserved).mono (Nat.le_add_right ..)
              unfold initiate
              refine wp_mayThrow_bind (wp_modify.mpr ?_) fun _ => hput
              refine hput.setHeld rfl rfl (fun _ hc => Or.inr ⟨k, hc⟩) ?_
              rw [World.setEx_same]
              exact reserved_addBody (x := { w.exs k with responseBodyPermit := permit }) hc hpermit
                hreading

theorem saves_exchange_onReadBody (h : Ledger gw i reading bodies carried w) (hc : Clear k w)
    (error : Error) :
    wp F (Exchange.onReadBody (endCallbacks g) g.lib k error)
      (fun _ => Ledger gw i reading bodies carried) (Ledger gw i reading bodies carried) w := by
  unfold Exchange.onReadBody
  simp only [wp_get_bind]
  split
  · exact wp_pure.mpr h
  · simp only [wp_modify_bind]
    have hfinished := h.setEx (sameHold_finishDeadline (w.exs k))
    split
    · exact saves_fail hfinished _ _
    · split
      · exact saves_fail hfinished _ _
      · rename_i permit budget hshrunk
        simp only [wp_modify_bind]
        have hkept : ((w.setEx k finishDeadline).exs k).responseBodyPermit
            = (w.exs k).responseBodyPermit := by
          rw [World.setEx_same]
          rfl
        rw [← hkept] at hshrunk
        have hreserved : Reserved (reading k)
            { (w.setEx k finishDeadline).exs k with responseBodyPermit := permit } := by
          rw [World.setEx_same]
          exact reserved_of_noStage hc
        refine saves_finishResponse (hfinished.shrinkBody hshrunk hreserved) ?_
        unfold Clear
        rw [World.setEx_same]
        show ((w.setEx k finishDeadline).exs k).stages = 0
        rw [World.setEx_same]
        exact hc

theorem saves_onReadBlock (h : Ledger gw i reading bodies carried w) (error : Error) (block : Text) :
    wp F (onReadBlock (endCallbacks g) (streamCallbacks g) k error block)
      (fun _ => Ledger gw i reading bodies carried) (Ledger gw i reading bodies carried) w := by
  unfold onReadBlock
  simp only [wp_get_bind]
  split
  · exact wp_pure.mpr h
  · split
    · exact saves_fail h _ _
    · split
      · exact saves_initiate h rfl
      · refine wp_mayThrow_bind ?_ fun _ => h
        simp only [wp_modify_bind]
        exact saves_writeStreamBody (h.setFlags rfl rfl rfl rfl rfl) _ _

theorem saves_onDeadline (h : Ledger gw i reading bodies carried w) (generation : Nat) (error : Error) :
    wp F (onDeadline (endCallbacks g) k generation error) (fun _ => Ledger gw i reading bodies carried)
      (Ledger gw i reading bodies carried) w := by
  unfold onDeadline
  simp only [wp_get_bind]
  split
  · simp only [wp_modify_bind]
    exact saves_fail (h.setEx (sameHold_expire _ _)) _ _
  · exact wp_pure.mpr h

/-- Any completion of an operation of an exchange. -/
theorem saves_dispatch (h : Ledger gw i reading bodies carried w) {c : Exchange.Completion}
    (hgranted : c.op = .readHeader → c.error = none → (w.shared.budget.tryAcquire
      ((c.receive (w.exs k)).parser.contentLength.getD maxUpstreamBodyBytes)).1.isSome = true →
        reading k) :
    wp F (dispatch (endCallbacks g) g.lib (streamCallbacks g) k c)
      (fun _ => Ledger gw i reading bodies carried) R w := by
  unfold dispatch
  simp only [wp_get_bind]
  split
  · rename_i hop
    simp only [wp_modify_bind]
    refine saves_runHandler ?_
    obtain ⟨hresponse, hstream, hrequest, -⟩ := receive_holds c (w.exs k)
    have hreceived : Ledger gw i reading bodies carried (w.setEx k c.receive) :=
      h.setHeld hresponse hstream (fun _ hc => Or.inr ⟨k, hrequest ▸ hc⟩)
        ((h.exchanges k).receive hop)
    have hclear : preStream c.op = true → Clear k (w.setEx k c.receive) := by
      intro hstage
      unfold Clear
      rw [World.setEx_same]
      exact stages_receive (h.exchanges k) hop hstage
    unfold Exchange.handler
    cases hc : c.op with
    | resolve => exact saves_onResolve hreceived (hclear (by rw [hc]; rfl)) _
    | connect => exact saves_onConnect hreceived (hclear (by rw [hc]; rfl)) _
    | handshake => exact saves_exchange_onHandshake hreceived (hclear (by rw [hc]; rfl)) _
    | write => exact saves_exchange_onWrite hreceived (hclear (by rw [hc]; rfl)) _
    | readHeader =>
        refine saves_exchange_onReadHeader hreceived (hclear (by rw [hc]; rfl)) ?_
        rw [World.setEx_same]
        exact hgranted hc
    | readBody => exact saves_exchange_onReadBody hreceived (hclear (by rw [hc]; rfl)) _
    | readBlock => exact saves_onReadBlock hreceived _ _
    | wait generation => exact saves_onDeadline hreceived _ _
  · exact wp_pure.mpr h

theorem saves_exchange_start (h : Ledger gw i reading bodies carried w) (hc : Clear k w) :
    wp F (Exchange.start k) (fun _ => Ledger gw i reading bodies carried) (Ledger gw i reading bodies carried)
      w := by
  unfold Exchange.start
  simp only [wp_get_bind]
  split
  · exact saves_nextStage h hc (by simp)
  · exact saves_nextStage h hc (by simp)

/-! ## Requests -/

theorem saves_writeProtocolError (h : Ledger gw i reading bodies carried w) (status : Nat)
    (code message : String) :
    wp F (writeProtocolError g status code message) (fun _ => Ledger gw i reading bodies carried)
      (Ledger gw i reading bodies carried) w := by
  unfold writeProtocolError
  refine wp_mayThrow_bind ?_ fun _ => h
  exact wp_mayThrow_bind (h.answers _ _ _) fun _ => h

theorem saves_rejectBufferBudget (h : Ledger gw i reading bodies carried w) (request : HttpRequest) :
    wp F (rejectBufferBudget g request) (fun _ => Ledger gw i reading bodies carried)
      (Ledger gw i reading bodies carried) w := by
  unfold rejectBufferBudget
  simp only [wp_modify_bind]
  have hobserved := h.observe (.reject .bufferCapacity)
  exact wp_mayThrow_bind (hobserved.answers _ _ _) fun _ => hobserved

theorem saves_handleReadError (h : Ledger gw i reading bodies carried w) (error : ErrorCode) :
    wp F (handleReadError g error) (fun _ => Ledger gw i reading bodies carried)
      (Ledger gw i reading bodies carried) w := by
  unfold handleReadError
  split
  · exact saves_gracefulClose h
  · exact wp_modify.mpr h.closeSocket
  · exact wp_modify.mpr h.closeSocket
  · exact wp_mayThrow_bind (wp_modify.mpr h.closeSocket) fun _ => h
  · exact saves_writeProtocolError h _ _ _
  · exact saves_writeProtocolError h _ _ _
  · exact wp_mayThrow_bind (saves_writeProtocolError h _ _ _) fun _ => h

theorem saves_rejectProxy (h : Ledger gw i reading bodies carried w) (reason : RejectionReason)
    (response : HttpResponse) :
    wp F (rejectProxy g reason response) (fun _ => Ledger gw i reading bodies carried)
      (Ledger gw i reading bodies carried) w := by
  unfold rejectProxy
  simp only [wp_modify_bind]
  have hobserved := h.observe (.reject reason)
  refine wp_mayThrow_bind ?_ fun _ => hobserved
  simp only [wp_get_bind]
  exact hobserved.answers _ _ _

/-- The new exchange has nothing under way. -/
theorem saves_makeExchange (h : Ledger gw i reading bodies carried w) (selected : SelectedUpstream)
    (request : HttpRequest) :
    wp F (makeExchange g selected request)
      (fun k w' => Ledger gw i reading bodies carried w' ∧ Clear k w') (Ledger gw i reading bodies carried) w := by
  unfold makeExchange
  refine wp_mayThrow_bind (wp_survey_bind fun clean => ?_) fun _ => h
  simp only [wp_get_bind, wp_modify_bind]
  generalize takePooled g clean selected.upstream w.shared = taken
  have hpooled : Ledger gw i reading bodies carried (w.setShared fun s => { s with pool := taken.2 }) :=
    h.alike rfl rfl rfl rfl rfl rfl (Nat.le_refl _)
  have hadded : ∀ (connection : UpstreamConnection) (reused fresh : Bool),
      let w' := addExchange (Exchange.make selected request g.config.upstreamKeepAlive connection
        reused w.env.requestBodyPermit) fresh (w.setShared fun s => { s with pool := taken.2 })
      Ledger gw i reading bodies carried w' ∧ Clear w.nextExchange w' := by
    intro connection reused fresh
    refine ⟨hpooled.addExchange rfl rfl rfl rfl fresh, ?_⟩
    show stages (Function.update w.exs w.nextExchange _ w.nextExchange) = 0
    rw [Function.update_self]
    rfl
  split
  · exact wp_throw.mpr hpooled
  · split
    · refine wp_mayThrow_bind ?_ fun _ => hpooled
      simp only [wp_modify_bind]
      exact wp_pure.mpr (hadded _ _ _)
    · simp only [wp_modify_bind]
      exact wp_pure.mpr (hadded _ _ _)

theorem saves_admitProxy (h : Ledger gw i reading bodies carried w) (request : HttpRequest)
    (route : SelectedRoute) :
    wp F (admitProxy g request route) (fun _ => Ledger gw i reading bodies carried)
      (Ledger gw i reading bodies carried) w := by
  unfold admitProxy
  simp only [wp_modify_bind, wp_get_bind]
  rcases (w.setShared (Shared.check request route)).shared.admission.tryAcquire route
    (w.setShared (Shared.check request route)).shared.now with ⟨result, admission⟩
  have hadmitted : Ledger gw i reading bodies carried
      ((w.setShared (Shared.check request route)).setShared fun s => { s with admission }) :=
    h.alike rfl rfl rfl rfl rfl rfl (Nat.le_refl _)
  rcases result with e | r
  · exact wp_throw.mpr hadmitted
  · dsimp only
    split
    · exact saves_rejectProxy hadmitted _ _
    · split
      · exact saves_rejectProxy hadmitted _ _
      · simp only [wp_modify_bind]
        have hpermit := hadmitted.dropProxyPermit.set
          (f := fun s => { s with proxyPermit := r.permit }) rfl rfl rfl
        split
        · exact saves_rejectProxy hpermit _ _
        · split
          · exact wp_throw.mpr hpermit
          · refine wp_bind (wp_mono (saves_makeExchange hpermit _ request) ?_ fun _ h' => h')
            rintro k w' ⟨hmade, hclear⟩
            simp only [wp_modify_bind]
            have howned := hmade.set (f := fun s => { s with proxyExchange := some k }) rfl rfl rfl
            refine wp_bind (wp_mono (saves_exchange_start howned hclear) ?_ fun _ h' => h')
            exact fun _ w'' h' => wp_modify.mpr h'.resetRequest

theorem saves_startProxyRequest (h : Ledger gw i reading bodies carried w) (request : HttpRequest)
    (route : SelectedRoute) :
    wp F (startProxyRequest g request route) (fun _ => Ledger gw i reading bodies carried)
      (Ledger gw i reading bodies carried) w := by
  unfold startProxyRequest
  refine wp_tryCatch (wp_mono (saves_admitProxy h request route) (fun _ _ h' => h') ?_)
  intro w' h'
  unfold onStartFailed
  simp only [wp_modify_bind]
  have hcancelled := h'.cancelProxy
  refine wp_tryCatch ?_
  refine wp_mayThrow_bind ?_ fun _ => wp_modify.mpr hcancelled.closeSocket
  simp only [wp_modify_bind]
  exact wp_mono ((hcancelled.observe (.fail .connect)).answers _ _ _) (fun _ _ h'' => h'')
    fun _ h'' => wp_modify.mpr h''.closeSocket

theorem saves_answerLocally (h : Ledger gw i reading bodies carried w) (request : HttpRequest) :
    wp F (answerLocally g request) (fun _ => Ledger gw i reading bodies carried)
      (Ledger gw i reading bodies carried) w := by
  unfold answerLocally
  refine wp_mayThrow_bind ?_ fun _ => h
  simp only [wp_get_bind]
  split
  · split
    · exact wp_throw.mpr h
    · exact wp_mayThrow_bind (h.answers _ _ _) fun _ => h
  · exact h.answers _ _ _

theorem saves_processRequest (h : Ledger gw i reading bodies carried w) :
    wp F (processRequest g) (fun _ => Ledger gw i reading bodies carried) (Ledger gw i reading bodies carried)
      w := by
  unfold processRequest
  simp only [wp_modify_bind, wp_get_bind]
  have hlogged : Ledger gw i reading bodies carried (record [.dispatch] w) := h.set rfl rfl rfl
  split
  · exact wp_mayThrow_bind (wp_modify.mpr hlogged.closeSocket) fun _ => hlogged
  · simp only [wp_modify_bind]
    have hbegun := hlogged.set (f := fun s => { s with
      observation := s.observation.begin (record [.dispatch] w).shared.now
      requestsServed := s.requestsServed + 1 }) rfl rfl rfl
    split
    · refine wp_mayThrow_bind ?_ fun _ => hbegun
      split
      · refine wp_mayThrow_bind ?_ fun _ => hbegun
        simp only [wp_get_bind]
        exact hbegun.answers _ _ _
      · simp only [wp_modify_bind]
        exact saves_startProxyRequest (hbegun.set rfl rfl rfl) _ _
    · exact saves_answerLocally hbegun _

theorem Ledger.excludeMetrics (h : Ledger gw i reading bodies carried w) :
    Ledger gw i reading bodies carried (excludeMetrics g w) := by
  unfold Session.excludeMetrics
  split
  · exact h.set rfl rfl rfl
  · exact h

theorem saves_onReadBody (h : Ledger gw i reading bodies carried w) (error : Error) :
    wp F (onReadBody g error) (fun _ => Ledger gw i reading bodies carried)
      (Ledger gw i reading bodies carried) w := by
  unfold onReadBody
  simp only [wp_get_bind]
  split
  · exact wp_pure.mpr h
  · split
    · exact saves_handleReadError h _
    · split
      · exact wp_modify.mpr h.closeSocket
      · rename_i w' hshrunk
        simp only [wp_modify_bind]
        exact saves_processRequest (h.shrinkRequest hshrunk)

theorem saves_onHandshake (h : Ledger gw i reading bodies carried w) (error : Error) :
    wp F (onHandshake error) (fun _ => Ledger gw i reading bodies carried)
      (Ledger gw i reading bodies carried) w := by
  unfold onHandshake
  simp only [wp_get_bind]
  split
  · exact wp_pure.mpr h
  · split
    · exact wp_modify.mpr h.closeSocket
    · simp only [wp_modify_bind]
      exact saves_readRequest (h.set rfl rfl rfl)

theorem saves_onShutdown (h : Ledger gw i reading bodies carried w) :
    wp F onShutdown (fun _ => Ledger gw i reading bodies carried) R w := by
  unfold onShutdown
  simp only [wp_get_bind]
  split
  · exact wp_pure.mpr h
  · exact wp_modify.mpr h.closeSocket

theorem saves_start (h : Ledger gw i reading bodies carried w) :
    wp F (start g) (fun _ => Ledger gw i reading bodies carried) (Ledger gw i reading bodies carried) w := by
  unfold start
  split
  · exact saves_readRequest h
  · simp only [wp_modify_bind]
    have hset := h.set (f := fun s => { s with phase := .handshaking }) rfl rfl rfl
    exact wp_mayThrow_bind (wp_modify.mpr (hset.addOp (by simp))) fun _ => hset

/-! ## The last references -/

/-- `~HttpProxyExchange` -/
theorem Ledger.destroyExchange (h : Ledger gw i reading bodies carried w) (k : Nat) :
    Ledger gw i reading bodies carried (destroyExchange k w) := by
  unfold Session.destroyExchange
  split
  · rename_i hunused
    have hops : (w.exs k).ops = [] := by
      rw [Bool.and_eq_true, Bool.and_eq_true, List.isEmpty_iff] at hunused
      exact hunused.1.1
    have hidle : ∀ x : Exchange, x.ops = [] → Reserved (reading k) x := fun x hx =>
      reserved_of_noStage (by simp [stages, hx])
    have hstream := Ledger.dropPermit (h.putStream (p := {}) k)
    have hbody := Ledger.dropPermit (Ledger.putBody (p := {}) hstream (k := k)
      (hidle _ (by simpa [World.setEx, World.setShared] using hops)))
    have hcell := hbody.dropCell (w.exs k).requestBodyPermit
      fun _ hc => Or.inr ⟨k, by simpa [World.setEx, World.setShared] using hc⟩
    have hforgotten := hcell.setHeld (k := k) (f := fun x => { x with requestBodyPermit := none })
      rfl rfl (fun _ hc => by cases hc)
      (hidle _ (by simpa [World.setEx, World.setShared] using hops))
    simpa [World.setEx, World.setShared] using hforgotten
  · exact h

/-- `~HttpSession` -/
theorem Ledger.destroy (h : Ledger gw i reading bodies carried w) :
    Ledger gw i reading bodies carried (destroy w) := by
  unfold Session.destroy
  split
  · have hresponse := Ledger.putResponse (p := {}) h
      (f := fun s => { s with responseBodyPermit := {} }) rfl rfl rfl
    have hcell := hresponse.dropCell w.env.requestBodyPermit fun _ hc => Or.inl hc
    exact hcell.forgetRequest
      (f := fun s => { s with requestBodyPermit := none, responseBodyPermit := {} }) rfl rfl rfl
  · exact h

/-! ## The body of a request -/

/-- A request's body is read, if that is `allowed`, under the reservation planned for it,
in a cell that no exchange shares. -/
def RequestReserved (allowed : Prop) (w : World Session) : Prop :=
  .readBody ∈ w.env.ops →
    allowed ∧ w.env.ops = [.readBody] ∧ ∃ parser c, w.env.parser = some parser
      ∧ w.env.requestBodyPermit = some c ∧ (∀ k, (w.exs k).requestBodyPermit ≠ some c)
      ∧ (w.shared.cells c).permit = ⟨true, parser.contentLength.getD maxBodyBytes⟩

/-- What a step of the session leaves behind. -/
structure Leaves (gw : Gateway) (i : Nat) (reading : Nat → Prop) (allowed : Prop)
    (w : World Session) : Prop where
  ledger : Ledger gw i reading 1 0 w
  request : RequestReserved allowed w

variable {allowed : Prop}

theorem requestReserved_of_noRead (h : .readBody ∉ w.env.ops) : RequestReserved allowed w :=
  fun hmem => absurd hmem h

theorem Ledger.no_read (h : Ledger gw i reading 0 carried w) : .readBody ∉ w.env.ops := by
  intro hmem
  have hpos : 0 < w.env.ops.count .readBody := List.count_pos_iff.mpr hmem
  have hzero := h.reads
  omega

theorem Ledger.leaves (h : Ledger gw i reading 0 0 w) : Leaves gw i reading allowed w where
  ledger := { h with reads := Nat.le_trans h.reads (Nat.zero_le 1) }
  request := requestReserved_of_noRead h.no_read

theorem wp_leaves {m : SessionAct Unit}
    (h : wp F m (fun _ => Ledger gw i reading 0 0) (Ledger gw i reading 0 0) w) :
    wp F m (fun _ => Leaves gw i reading allowed) (Leaves gw i reading allowed) w :=
  wp_mono h (fun _ _ h' => h'.leaves) fun _ h' => h'.leaves

theorem dropCell_nextCell (cell : Option Nat) (s : Shared) :
    (s.dropCell cell).nextCell = s.nextCell := by
  unfold Shared.dropCell
  split
  · rfl
  · split <;> rfl

/-- Where the new permit is. -/
theorem permit_newCell (p : BufferBudgetPermit) (cell : Option Nat) (s : Shared) :
    ((Shared.newCell p (Shared.dropCell cell s)).cells s.nextCell).permit = p := by
  unfold Shared.newCell
  rw [dropCell_nextCell]
  simp

theorem excludeMetrics_eq (g : Setup) (w : World Session) :
    ∃ observation log, excludeMetrics g w
      = Session.set (fun s => { s with observation, log }) w := by
  unfold excludeMetrics
  split
  · exact ⟨_, _, rfl⟩
  · exact ⟨w.env.observation, w.env.log, rfl⟩

/-- The body is read only behind a reservation. -/
theorem leaves_onReadHeader (h : Ledger gw i reading 0 0 w)
    (hops : w.env.finished = false → w.env.ops = [])
    (hbelow : ∀ c, Refers (gw.view i) c → c < gw.shared.nextCell) {error : Error}
    (hallowed : ∀ parser, w.env.parser = some parser → error = none →
      (w.shared.budget.tryAcquire (parser.contentLength.getD maxBodyBytes)).1.isSome = true →
        allowed) :
    wp F (onReadHeader g error) (fun _ => Leaves gw i reading allowed)
      (Leaves gw i reading allowed) w := by
  unfold onReadHeader
  simp only [wp_modify_bind, wp_get_bind]
  have hexcluded : Ledger gw i reading 0 0 (excludeMetrics g w) := h.excludeMetrics
  obtain ⟨observation, log, heq⟩ := excludeMetrics_eq g w
  rw [heq] at hexcluded ⊢
  split
  · exact wp_pure.mpr hexcluded.leaves
  · rename_i hunfinished
    have hops' : w.env.ops = [] := hops (by simpa [Session.set] using hunfinished)
    split
    · exact wp_leaves (saves_handleReadError hexcluded _)
    · exact wp_mayThrow_bind (wp_modify.mpr hexcluded.closeSocket.leaves)
        fun _ => hexcluded.leaves
    · rename_i parser hparser
      split
      · exact wp_leaves (saves_writeProtocolError hexcluded _ _ _)
      · split
        · exact wp_leaves (saves_writeProtocolError hexcluded _ _ _)
        · split
          · exact wp_leaves (saves_processRequest hexcluded)
          · exact wp_leaves (saves_writeProtocolError hexcluded _ _ _)
          · rename_i hplan
            split
            · exact wp_leaves (saves_rejectBufferBudget hexcluded _)
            · rename_i permit budget hacquired
              rw [planBodyReservation_reserve hplan] at hacquired
              have hasked : allowed := hallowed parser hparser rfl (by
                rw [show w.shared.budget.tryAcquire _ = _ from hacquired]
                rfl)
              obtain ⟨hpermit, htaken⟩ := hexcluded.acquire hacquired
              have hdropped := htaken.dropCell w.env.requestBodyPermit
                fun _ hc => Or.inl hc
              have hnew := hdropped.newCell
              have hcell : ((w.setShared fun s => { s with budget }).setShared
                  (Shared.dropCell w.env.requestBodyPermit)).shared.nextCell
                    = w.shared.nextCell := dropCell_nextCell _ _
              have hbodies : Ledger gw i reading 0 0 (Session.set
                  (fun s => { s with requestBodyPermit := some w.shared.nextCell })
                  ((Session.set (fun s => { s with observation, log }) w).setShared fun s =>
                    Shared.newCell permit
                      (Shared.dropCell w.env.requestBodyPermit { s with budget }))) := by
                rw [← hcell]
                exact hnew
              refine wp_mayThrow_bind ?_ fun _ => hexcluded.leaves
              simp only [wp_modify_bind]
              refine wp_mayThrow_bind (wp_modify.mpr ⟨?_, fun _ => ?_⟩) fun _ => hbodies.leaves
              · refine hbodies.recount rfl rfl rfl rfl rfl rfl ?_
                show (SessionOp.readBody :: w.env.ops).count .readBody ≤ 1
                rw [hops']
                exact Nat.le_refl _
              · refine ⟨hasked, congrArg (SessionOp.readBody :: ·) hops', parser,
                  w.shared.nextCell, hparser, rfl, fun k hk => ?_, ?_⟩
                · rcases hexcluded.refers _ (Or.inr ⟨k, hk⟩) with hview | ⟨-, hlt⟩
                  · have hle := hexcluded.grown
                    have hlt := hbelow _ hview
                    have heq : (Session.set (fun s => { s with observation, log }) w).shared.nextCell
                        = w.shared.nextCell := rfl
                    omega
                  · exact absurd hlt (Nat.lt_irrefl _)
                · exact (permit_newCell permit w.env.requestBodyPermit
                    { w.shared with budget }).trans hpermit

end Session

end ApiGate
