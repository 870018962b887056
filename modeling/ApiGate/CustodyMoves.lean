import ApiGate.BodyReservations
import ApiGate.Custody

/-!
# Every handler is a sequence of moves

One rule for each function of a session and of its exchanges, in the order of the calls,
as in `SessionMoves`. Most of them move a connection nowhere, and what they keep is all
there is to say. The exceptions are the functions that end a response: they may put a
connection, so that it must be theirs (`Holds`).
-/

namespace ApiGate

open EventLoop Act Exchange

namespace Session

variable {g : Setup} {o : Custody} {F : Site → Prop} {w : World Session} {k : Nat}

/-! ## Sessions -/

/-- `run_handler` closes the session on an exception. -/
theorem keeps_session_runHandler {action : SessionAct Unit} (h : Keeps (Reached g o) action) :
    Keeps (Reached g o) (runHandler action) :=
  .tryCatch h (.update fun _ hw => hw.closeSocket)

theorem keeps_gracefulClose : Keeps (Reached g o) (gracefulClose g) := by
  unfold gracefulClose
  refine .get_bind fun w _ => .ite (.pure _) (.ite (.update fun _ hw => hw.closeSocket) ?_)
  refine .update_bind (fun _ hw => hw.quiet rfl) (.tryCatch ?_ (.update fun _ hw => hw.closeSocket))
  exact .mayThrow_bind (.update fun _ hw => hw.quiet rfl)

theorem keeps_readRequest : Keeps (Reached g o) readRequest := by
  unfold readRequest
  refine .update_bind (fun _ hw => hw.quiet rfl) (.get_bind fun w _ => ?_)
  refine .ite (.update fun _ hw => hw.closeSocket) ?_
  refine .update_bind (fun _ hw => hw.quiet rfl) (.mayThrow_bind ?_)
  exact .update_bind (fun _ hw => hw.quiet rfl) (.update fun _ hw => hw.quiet rfl)

theorem keeps_writeResponse (site : Site) (upstream : Option HttpResponse)
    (response : HttpResponse) (permit : BufferBudgetPermit) :
    Keeps (Reached g o) (writeResponse g site upstream response permit) := by
  unfold writeResponse
  refine .get_bind fun w _ => .ite (.update fun _ hw => hw.quiet rfl) ?_
  refine .update_bind (fun _ hw => hw.quiet rfl) (.update_bind (fun _ hw => hw.quiet rfl) ?_)
  refine .ask_bind fun lost => .ite ?_ ?_
  · exact .update_bind (fun _ hw => hw.quiet rfl) (.throw _)
  · refine .update_bind (fun _ hw => hw.quiet rfl) (.update_bind (fun _ hw => hw.quiet rfl) ?_)
    exact .update_bind (fun _ hw => hw.quiet rfl)
      (.mayThrow_bind (.update fun _ hw => hw.quiet rfl))

theorem keeps_onWrite (error : Error) (closeAfterWrite : Bool) :
    Keeps (Reached g o) (onWrite g error closeAfterWrite) := by
  unfold onWrite
  refine .get_bind fun w _ => .ite (.pure _) ?_
  refine .update_bind (fun _ hw => hw.quiet rfl) (.update_bind (fun _ hw => hw.quiet rfl) ?_)
  refine .update_bind (fun _ hw => hw.resetRequest) ?_
  split
  · exact .ite keeps_gracefulClose keeps_readRequest
  all_goals exact .update fun _ hw => hw.closeSocket

theorem keeps_onProxyComplete (result : ProxyResult) :
    Keeps (Reached g o) (onProxyComplete g result) := by
  unfold onProxyComplete
  refine .tryCatch ?_ (.update fun _ hw => hw.closeSocket)
  refine .update_bind (fun _ hw => hw.dropProxy) (.get_bind fun w _ => ?_)
  refine .ite (.update fun _ hw => hw.quiet rfl) (.ask_bind fun lost => .ite ?_ ?_)
  · exact .update_bind (fun _ hw => hw.quiet rfl) (.throw _)
  · refine .update_bind (fun _ hw => hw.observeAny _) (.update_bind (fun _ hw => hw.observeAny _) ?_)
    exact keeps_writeResponse _ _ _ _

theorem keeps_onProxyAborted : Keeps (Reached g o) onProxyAborted := by
  unfold onProxyAborted
  refine .update_bind (fun _ hw => hw.dropProxy) (.get_bind fun w _ => ?_)
  exact .ite (.pure _) (.update fun _ hw => hw.closeSocket)

theorem keeps_onStreamComplete (failure : Option ProxyFailure) (downstreamFailed : Bool) :
    Keeps (Reached g o) (onStreamComplete g failure downstreamFailed) := by
  unfold onStreamComplete
  refine keeps_session_runHandler ?_
  refine .update_bind (fun _ hw => hw.dropProxy) (.update_bind (fun _ hw => hw.quiet rfl) ?_)
  refine .get_bind fun w _ => .ite (.pure _) (.ite ?_ (.ite keeps_gracefulClose keeps_readRequest))
  refine .update_bind (fun _ hw => hw.quiet rfl) (.update_bind (fun _ hw => hw.observeAny _) ?_)
  exact .mayThrow_bind (.update fun _ hw => hw.closeSocket)

/-! ## Ending an exchange -/

theorem keeps_notifyAbort : Keeps (Reached g o) (notifyAbort (endCallbacks g) k) := by
  unfold notifyAbort
  refine .update_bind (fun _ hw => hw.setEx rfl) (.get_bind fun w _ => .ite ?_ (.pure _))
  refine .update_bind (fun _ hw => hw.setEx rfl) ?_
  exact .tryCatch keeps_onProxyAborted (.pure _)

theorem keeps_complete (result : ProxyResult) :
    Keeps (Reached g o) (complete (endCallbacks g) k result) := by
  unfold complete
  refine .get_bind fun w _ => .ite (.pure _) ?_
  refine .update_bind (fun _ hw => hw.setEx rfl) (.tryCatch ?_ ?_)
  · refine .update_bind (fun _ hw => hw.setEx rfl) (.get_bind fun w _ => ?_)
    refine .ite (.update_bind (fun _ hw => hw.setEx rfl) ?_) keeps_notifyAbort
    exact .bind (keeps_onProxyComplete result) fun _ => .update fun _ hw => hw.setEx rfl
  · exact .update_bind (fun _ hw => hw.setEx rfl) keeps_notifyAbort

theorem keeps_completeStream (failure : Option ProxyFailure) (downstreamFailed : Bool) :
    Keeps (Reached g o) (completeStream (endCallbacks g) k failure downstreamFailed) := by
  unfold completeStream
  refine .get_bind fun w _ => .ite (.pure _) ?_
  refine .update_bind (fun _ hw => hw.setEx rfl) (.tryCatch ?_ keeps_notifyAbort)
  refine .update_bind (fun _ hw => hw.setEx rfl) (.get_bind fun w _ => ?_)
  refine .update_bind (fun _ hw => hw.setEx rfl) (.ite ?_ (.bind (.throw _) fun _ => ?_))
  · refine .update_bind (fun _ hw => hw.setEx rfl) ?_
    exact .bind (keeps_onStreamComplete failure downstreamFailed) fun _ =>
      .update fun _ hw => hw.setEx rfl
  · exact .update fun _ hw => hw.setEx rfl

theorem keeps_abandon : Keeps (Reached g o) (abandon (endCallbacks g) k) := by
  unfold abandon
  refine .get_bind fun w _ => .ite (.pure _) ?_
  exact .update_bind (fun _ hw => hw.closeEx (holder_cancelOperations _)) keeps_notifyAbort

theorem keeps_fail (stage : ProxyFailureStage) (error : Error) :
    Keeps (Reached g o) (fail (endCallbacks g) k stage error) := by
  unfold fail
  refine .get_bind fun w _ => .ite (.pure _) ?_
  refine .update_bind (fun _ hw => hw.closeEx (holder_cancelOperations _)) ?_
  exact .ite (keeps_completeStream _ _) (.mayThrow_bind (keeps_complete _))

theorem keeps_exchange_rejectBufferBudget (bytes : UInt64) :
    Keeps (Reached g o) (Exchange.rejectBufferBudget (endCallbacks g) k bytes) := by
  unfold Exchange.rejectBufferBudget
  refine .update_bind (fun _ hw => hw.closeEx (holder_cancelOperations _)) (.mayThrow_bind ?_)
  exact .get_bind fun w _ => keeps_complete _

/-- `run_proxy_handler_action` -/
theorem reached_runHandler {body : SessionAct Unit}
    (h : wp F body (fun _ => Reached g o) (Reached g o) w) :
    wp F (Exchange.runHandler (endCallbacks g) k body) (fun _ => Reached g o) (Reached g o) w :=
  wp_tryCatch (wp_mono h (fun _ _ h' => h') fun _ h' => keeps_abandon.wp h')

/-! ## Putting the connection -/

/-- The connection of exchange `k` is its own. -/
structure Holds (k : Nat) (w : World Session) : Prop where
  known : k < w.nextExchange
  held : (w.exs k).lease = .held

theorem Holds.setEx (h : Holds k w) {f : Exchange → Exchange}
    (hf : (f (w.exs k)).lease = (w.exs k).lease) : Holds k (w.setEx k f) := by
  refine ⟨h.known, ?_⟩
  rw [World.setEx_same, hf]
  exact h.held

/-- The connection goes to the pool, or is closed. -/
theorem reached_releaseUpstream (h : Reached g o w) (hholds : Holds k w) (reusable : Bool) :
    wp F (releaseUpstream k reusable) (fun _ => Reached g o) (Reached g o) w := by
  unfold releaseUpstream
  split
  · simp only [wp_get_bind]
    have hput : ∀ clean fails, Reached g o
        (World.setEx k (fun x => { x with lease := .pooled, puts := x.puts + 1 })
          (w.setShared fun s =>
            { s with pool := s.pool.put clean fails (w.exs k).connection s.now })) := by
      intro clean fails
      refine h.move ?_
      rw [custody_setEx]
      exact .put k clean fails hholds.known hholds.held
    refine wp_ask_bind ?_ fun _ => ?_
    all_goals exact wp_ask_bind (wp_modify.mpr (hput _ _)) fun _ => wp_modify.mpr (hput _ _)
  · exact wp_modify.mpr (h.closeEx (holder_closeUpstream _))

/-- What `finish_response` and `finish_stream` have in common. -/
theorem reached_release {reusable clean : Bool} {f : Unit → SessionAct Unit} (h : Reached g o w)
    (hholds : Holds k w) (hf : Keeps (Reached g o) (f ())) :
    wp F (modify (World.setEx k Exchange.finishDeadline) >>= fun _ =>
      modify (World.setEx k (recordPut reusable clean)) >>= fun _ =>
        releaseUpstream k reusable >>= f) (fun _ => Reached g o) (Reached g o) w := by
  simp only [wp_modify_bind, World.setEx_setEx]
  have hrecorded : ((w.exs k).finishDeadline.recordPut reusable clean).holder = (w.exs k).holder :=
    holder_recordPut reusable clean (w.exs k).finishDeadline
  have hreached := h.setEx (f := fun x => x.finishDeadline.recordPut reusable clean) hrecorded
  have hheld := hholds.setEx (f := fun x => x.finishDeadline.recordPut reusable clean)
    (congrArg Holder.lease hrecorded)
  refine wp_bind (wp_mono (reached_releaseUpstream hreached hheld reusable) ?_ fun _ h' => h')
  exact fun _ w' h' => hf.wp h'

theorem reached_finishStream (h : Reached g o w) (hholds : Holds k w) :
    wp F (finishStream (endCallbacks g) k) (fun _ => Reached g o) (Reached g o) w := by
  unfold finishStream
  refine wp_mayThrow_bind ?_ fun _ => h
  simp only [wp_get_bind]
  refine wp_ask_bind ?_ fun _ => ?_
  all_goals exact reached_release h hholds (keeps_completeStream _ _)

theorem reached_finishResponse (h : Reached g o w) (hholds : Holds k w) :
    wp F (finishResponse (endCallbacks g) g.lib k) (fun _ => Reached g o) (Reached g o) w := by
  unfold finishResponse
  refine wp_mayThrow_bind ?_ fun _ => h
  simp only [wp_get_bind]
  refine wp_ask_bind ?_ fun _ => ?_
  all_goals
    refine reached_release h hholds (.mayThrow_bind ?_)
    split
    · exact .throw _
    · exact .update_bind (fun _ hw => hw.setEx rfl) (keeps_complete _)

theorem keeps_initiate (site : Site) (op : ExchangeOp) :
    Keeps (Reached g o) (initiate site op k) := by
  unfold initiate
  exact .mayThrow_bind (.update fun _ hw => hw.setEx rfl)

/-- A stream ends well only in an exchange that holds its connection. -/
theorem reached_resumeStream (h : Reached g o w) (final : Bool) {error : Error}
    (hholds : error = none → (w.exs k).observed = false → Holds k w) :
    wp F (resumeStream (endCallbacks g) k final error) (fun _ => Reached g o) (Reached g o) w := by
  refine reached_runHandler ?_
  simp only [wp_get_bind]
  split
  · exact wp_pure.mpr h
  · rename_i hobserved
    simp only [wp_modify_bind]
    have hnoted : Reached g o (w.setEx k (Exchange.record (.relay (.taken error)))) := h.setEx rfl
    split
    · simp only [wp_modify_bind]
      exact (keeps_completeStream _ _).wp (hnoted.closeEx (holder_cancelOperations _))
    · rename_i herror
      split
      · refine reached_finishStream hnoted ?_
        exact (hholds (by simpa using herror) (by simpa using hobserved)).setEx rfl
      · exact (keeps_initiate _ _).wp hnoted

/-! ## Streams -/

theorem keeps_writeStreamHeader (header upstream : HttpResponse) (final : Bool) :
    Keeps (Reached g o) (writeStreamHeader g k header upstream final) := by
  unfold writeStreamHeader
  refine .get_bind fun w _ => .ite ?_ (.mayThrow_bind ?_)
  · exact fun F w hw => reached_resumeStream hw final fun hnone => by cases hnone
  · refine .update_bind (fun _ hw => hw.quiet rfl) (.update_bind (fun _ hw => hw.quiet rfl) ?_)
    refine .mayThrow_bind (.update_bind (fun _ hw => hw.quiet rfl) ?_)
    refine .update_bind (fun _ hw => hw.quiet rfl) (.update_bind (fun _ hw => hw.quiet rfl) ?_)
    exact .mayThrow_bind (.update fun _ hw => hw.quiet rfl)

theorem keeps_writeStreamBody (block : Text) (final : Bool) :
    Keeps (Reached g o) (writeStreamBody g k block final) := by
  unfold writeStreamBody
  refine .get_bind fun w _ => .ite ?_ (.update_bind (fun _ hw => hw.quiet rfl) ?_)
  · exact fun F w hw => reached_resumeStream hw final fun hnone => by cases hnone
  · exact .mayThrow_bind (.update fun _ hw => hw.quiet rfl)

/-- The completion of a stream write. -/
theorem reached_onStreamWritten (h : Reached g o w) (final : Bool) {error : Error}
    (hholds : (w.exs k).observed = false → Holds k w) :
    wp F (onStreamWritten g k final error) (fun _ => Reached g o) (Reached g o) w := by
  unfold onStreamWritten
  simp only [wp_modify_bind]
  have hnoted : ∀ w' : World Session, w' = w ∨ (∃ m, w' = note m w) →
      wp F (runHandler (resumeStream (endCallbacks g) k final error)) (fun _ => Reached g o)
        (Reached g o) w' := by
    intro w' hw'
    have hreached : Reached g o w' := by
      rcases hw' with rfl | ⟨m, rfl⟩
      · exact h
      · exact h.quiet rfl
    have hheld : (w'.exs k).observed = false → Holds k w' := by
      rcases hw' with rfl | ⟨m, rfl⟩
      · exact hholds
      · exact fun hobserved => ⟨(hholds hobserved).known, (hholds hobserved).held⟩
    refine wp_tryCatch (wp_mono (reached_resumeStream hreached final fun _ => hheld)
      (fun _ _ h' => h') ?_)
    exact fun _ h' => wp_modify.mpr h'.closeSocket
  split
  · exact hnoted _ (Or.inr ⟨_, rfl⟩)
  · exact hnoted _ (Or.inl rfl)

theorem keeps_sendStreamHead :
    Keeps (Reached g o) (sendStreamHead g.lib (streamCallbacks g) k) := by
  unfold sendStreamHead
  refine .mayThrow_bind (.get_bind fun w _ => .update_bind (fun _ hw => hw.setEx rfl) ?_)
  refine .mayThrow_bind (.update_bind (fun _ hw => hw.setEx rfl) ?_)
  exact keeps_writeStreamHeader _ _ _

theorem Reached.setBudget (h : Reached g o w) (budget : BufferBudgetControl)
    {f : Exchange → Exchange} (hf : (f (w.exs k)).holder = (w.exs k).holder) :
    Reached g o (World.setEx k f (w.setShared fun s => { s with budget })) := by
  have hshared : Reached g o (w.setShared fun s => { s with budget }) := h.quiet rfl
  exact hshared.setEx hf

theorem keeps_startStream :
    Keeps (Reached g o) (startStream (endCallbacks g) g.lib (streamCallbacks g) k) := by
  unfold startStream
  refine .get_bind fun w _ => .ite (keeps_fail _ _) (.ite (keeps_fail _ _) (.mayThrow_bind ?_))
  refine .ite (.ite (keeps_exchange_rejectBufferBudget _) ?_) keeps_sendStreamHead
  split
  · exact keeps_exchange_rejectBufferBudget _
  · refine .update_bind (fun _ hw => hw.setBudget _ rfl) (.mayThrow_bind keeps_sendStreamHead)

/-! ## Stages -/

theorem keeps_beginDeadline : Keeps (Reached g o) (beginDeadline k) := by
  unfold beginDeadline
  refine .update_bind (fun _ hw => hw.setEx rfl) ?_
  exact .mayThrow_bind (.update fun _ hw => hw.setEx rfl)

theorem keeps_writeRequest : Keeps (Reached g o) (writeRequest k) :=
  .bind keeps_beginDeadline fun _ => keeps_initiate _ _

theorem keeps_exchange_start : Keeps (Reached g o) (Exchange.start k) := by
  unfold Exchange.start
  refine .get_bind fun w _ => .ite keeps_writeRequest ?_
  exact .bind keeps_beginDeadline fun _ => keeps_initiate _ _

theorem keeps_onResolve (error : Error) :
    Keeps (Reached g o) (onResolve (endCallbacks g) k error) := by
  unfold onResolve
  refine .get_bind fun w _ => .ite (.pure _) (.update_bind (fun _ hw => hw.setEx rfl) ?_)
  exact .ite (keeps_fail _ _) (.bind keeps_beginDeadline fun _ => keeps_initiate _ _)

theorem keeps_onConnect (error : Error) :
    Keeps (Reached g o) (onConnect (endCallbacks g) k error) := by
  unfold onConnect
  refine .get_bind fun w _ => .ite (.pure _) (.update_bind (fun _ hw => hw.setEx rfl) ?_)
  refine .ite (keeps_fail _ _) (.ite (.ask_bind fun refused => .ite (keeps_fail _ _) ?_)
    keeps_writeRequest)
  exact .bind keeps_beginDeadline fun _ => keeps_initiate _ _

theorem keeps_exchange_onHandshake (error : Error) :
    Keeps (Reached g o) (Exchange.onHandshake (endCallbacks g) k error) := by
  unfold Exchange.onHandshake
  refine .get_bind fun w _ => .ite (.pure _) (.update_bind (fun _ hw => hw.setEx rfl) ?_)
  exact .ite (keeps_fail _ _) keeps_writeRequest

theorem keeps_exchange_onWrite (error : Error) :
    Keeps (Reached g o) (Exchange.onWrite (endCallbacks g) k error) := by
  unfold Exchange.onWrite
  refine .get_bind fun w _ => .ite (.pure _) (.update_bind (fun _ hw => hw.setEx rfl) ?_)
  refine .ite (keeps_fail _ _) (.update_bind (fun _ hw => hw.setEx rfl) ?_)
  exact .bind keeps_beginDeadline fun _ => keeps_initiate _ _

theorem keeps_onReadBlock (error : Error) (block : Text) :
    Keeps (Reached g o)
      (onReadBlock (endCallbacks g) (streamCallbacks g) k error block) := by
  unfold onReadBlock
  refine .get_bind fun w _ => .ite (.pure _) (.ite (keeps_fail _ _) (.ite (keeps_initiate _ _) ?_))
  refine .mayThrow_bind (.update_bind (fun _ hw => hw.setEx rfl) ?_)
  exact keeps_writeStreamBody _ _

theorem keeps_onDeadline (generation : Nat) (error : Error) :
    Keeps (Reached g o) (onDeadline (endCallbacks g) k generation error) := by
  unfold onDeadline
  refine .get_bind fun w _ => .ite (.update_bind (fun _ hw => hw.setEx ?_) (keeps_fail _ _)) (.pure _)
  unfold Exchange.expire
  split <;> rfl

theorem reached_exchange_onReadHeader (h : Reached g o w) (hholds : Holds k w) (error : Error) :
    wp F (Exchange.onReadHeader (endCallbacks g) g.lib (streamCallbacks g) k error)
      (fun _ => Reached g o) (Reached g o) w := by
  unfold Exchange.onReadHeader
  simp only [wp_get_bind]
  have hfinished : Reached g o (w.setEx k finishDeadline) := h.setEx rfl
  have hheld : Holds k (w.setEx k finishDeadline) := hholds.setEx rfl
  split
  · exact wp_pure.mpr h
  · split
    · simp only [wp_modify_bind]
      exact (keeps_fail _ _).wp hfinished
    · split
      · exact keeps_startStream.wp h
      · split
        · simp only [wp_modify_bind]
          exact (keeps_fail _ _).wp hfinished
        · split
          · simp only [wp_modify_bind]
            exact (keeps_fail _ _).wp hfinished
          · simp only [wp_modify_bind]
            exact reached_finishResponse hfinished hheld
          · split
            · simp only [wp_modify_bind]
              exact (keeps_exchange_rejectBufferBudget _).wp hfinished
            · simp only [wp_modify_bind]
              exact (keeps_initiate _ _).wp (h.setBudget _ rfl)

theorem reached_exchange_onReadBody (h : Reached g o w) (hholds : Holds k w) (error : Error) :
    wp F (Exchange.onReadBody (endCallbacks g) g.lib k error) (fun _ => Reached g o) (Reached g o)
      w := by
  unfold Exchange.onReadBody
  simp only [wp_get_bind]
  split
  · exact wp_pure.mpr h
  · simp only [wp_modify_bind]
    have hfinished : Reached g o (w.setEx k finishDeadline) := h.setEx rfl
    have hheld : Holds k (w.setEx k finishDeadline) := hholds.setEx rfl
    split
    · exact (keeps_fail _ _).wp hfinished
    · split
      · exact (keeps_fail _ _).wp hfinished
      · simp only [wp_modify_bind]
        refine reached_finishResponse (hfinished.setBudget _ rfl) ⟨hheld.known, ?_⟩
        rw [World.setEx_same]
        exact hheld.held

/-- Any completion of an operation of an exchange that holds its connection. -/
theorem reached_dispatch (h : Reached g o w) (hholds : Holds k w) (c : Exchange.Completion) :
    wp F (dispatch (endCallbacks g) g.lib (streamCallbacks g) k c) (fun _ => Reached g o)
      (Reached g o) w := by
  unfold dispatch
  simp only [wp_get_bind]
  split
  · simp only [wp_modify_bind]
    have hreceived : Reached g o (w.setEx k c.receive) := h.setEx (holder_receive c _)
    have hheld : Holds k (w.setEx k c.receive) :=
      hholds.setEx (congrArg Holder.lease (holder_receive c _))
    refine reached_runHandler ?_
    unfold Exchange.handler
    cases c.op with
    | resolve => exact (keeps_onResolve _).wp hreceived
    | connect => exact (keeps_onConnect _).wp hreceived
    | handshake => exact (keeps_exchange_onHandshake _).wp hreceived
    | write => exact (keeps_exchange_onWrite _).wp hreceived
    | readHeader => exact reached_exchange_onReadHeader hreceived hheld _
    | readBody => exact reached_exchange_onReadBody hreceived hheld _
    | readBlock => exact (keeps_onReadBlock _ _).wp hreceived
    | wait generation => exact (keeps_onDeadline _ _).wp hreceived
  · exact wp_pure.mpr h

/-! ## Requests -/

theorem keeps_writeProtocolError (status : Nat) (code message : String) :
    Keeps (Reached g o) (writeProtocolError g status code message) := by
  unfold writeProtocolError
  exact .mayThrow_bind (.mayThrow_bind (keeps_writeResponse _ _ _ _))

theorem keeps_rejectBufferBudget (request : HttpRequest) :
    Keeps (Reached g o) (rejectBufferBudget g request) := by
  unfold rejectBufferBudget
  exact .update_bind (fun _ hw => hw.quiet rfl) (.mayThrow_bind (keeps_writeResponse _ _ _ _))

theorem keeps_handleReadError (error : ErrorCode) :
    Keeps (Reached g o) (handleReadError g error) := by
  unfold handleReadError
  split
  · exact keeps_gracefulClose
  · exact .update fun _ hw => hw.closeSocket
  · exact .update fun _ hw => hw.closeSocket
  · exact .mayThrow_bind (.update fun _ hw => hw.closeSocket)
  · exact keeps_writeProtocolError _ _ _
  · exact keeps_writeProtocolError _ _ _
  · exact .mayThrow_bind (keeps_writeProtocolError _ _ _)

theorem keeps_rejectProxy (reason : RejectionReason) (response : HttpResponse) :
    Keeps (Reached g o) (rejectProxy g reason response) := by
  unfold rejectProxy
  refine .update_bind (fun _ hw => hw.quiet rfl) (.mayThrow_bind ?_)
  exact .get_bind fun w _ => keeps_writeResponse _ _ _ _

theorem custody_addExchange (x : Exchange) (fresh : Bool) (w : World Session) :
    custody (addExchange x fresh w) = { custody w with
      nextConnection := w.shared.nextConnection + fresh.toNat
      nextExchange := w.nextExchange + 1
      holder := Function.update (custody w).holder w.nextExchange x.holder } := by
  have hholder : (custody (addExchange x fresh w)).holder
      = Function.update (custody w).holder w.nextExchange x.holder := by
    funext j
    by_cases hj : j = w.nextExchange
    · subst hj
      rw [Function.update_self]
      exact congrArg Exchange.holder (Function.update_self ..)
    · rw [Function.update_of_ne hj]
      exact congrArg Exchange.holder (Function.update_of_ne hj ..)
  rw [← hholder]
  unfold custody addExchange Shared.shareCell
  dsimp only
  split <;> rfl

/-- The constructor of an exchange takes what the pool gives it into its own hands. -/
theorem reached_makeExchange (h : Reached g o w) {selected : SelectedUpstream}
    {request : HttpRequest} (hgranted : (custody w).Granted g request selected) :
    wp F (makeExchange g selected request) (fun _ => Reached g o) (Reached g o) w := by
  unfold makeExchange
  refine wp_mayThrow_bind (wp_survey_bind fun clean => ?_) fun _ => h
  simp only [wp_get_bind, wp_modify_bind]
  have htaken : takePooled g clean selected.upstream w.shared
      = (custody w).taken g clean selected.upstream := rfl
  rw [htaken]
  have hmiss : ((custody w).taken g clean selected.upstream).1.isNone = true →
      Reached g o (w.setShared fun s =>
        { s with pool := ((custody w).taken g clean selected.upstream).2 }) := by
    intro hnone
    exact h.move (.miss clean selected.upstream (by simpa using hnone))
  have hmake : (((custody w).taken g clean selected.upstream).1 = none →
      selected.upstream.scheme = .https → g.config.upstreamTlsContext ≠ none) →
      Reached g o (addExchange (Exchange.make selected request g.config.upstreamKeepAlive
        (((custody w).taken g clean selected.upstream).1.getD
          ⟨w.shared.nextConnection, selected.upstream, g.config.upstreamTlsContext⟩)
        ((custody w).taken g clean selected.upstream).1.isSome w.env.requestBodyPermit)
        ((custody w).taken g clean selected.upstream).1.isNone (w.setShared fun s =>
          { s with pool := ((custody w).taken g clean selected.upstream).2 })) := by
    intro hsecured
    refine h.move ?_
    rw [custody_addExchange]
    exact .make clean request selected hgranted hsecured
  split
  · rename_i hrefused
    rw [Bool.and_eq_true, Bool.and_eq_true] at hrefused
    exact wp_throw.mpr (hmiss hrefused.1.1)
  · rename_i haccepted
    have hsecured : ((custody w).taken g clean selected.upstream).1 = none →
        selected.upstream.scheme = .https → g.config.upstreamTlsContext ≠ none := by
      intro hnone hhttps hcontext
      simp [hnone, hhttps, hcontext] at haccepted
    split
    · rename_i hnone
      refine wp_mayThrow_bind ?_ fun _ => hmiss hnone
      simp only [wp_modify_bind]
      exact wp_pure.mpr (hmake hsecured)
    · simp only [wp_modify_bind]
      exact wp_pure.mpr (hmake hsecured)

/-- The permits do not count for what was granted. -/
theorem granted_dropPermit {request : HttpRequest} {selected : SelectedUpstream}
    (h : (custody w).Granted g request selected) :
    (custody (Session.dropPermit w)).Granted g request selected := by
  obtain ⟨route, r, admission, hselect, hauth, hok, hup, hhealth⟩ := h
  exact ⟨route, r, admission, hselect, hauth, hok, hup, hhealth⟩

theorem reached_admitProxy (h : Reached g o w) {request : HttpRequest} {route : SelectedRoute}
    (hselect : selectHttpRoute g.config request = some route)
    (hauth : authorized g route request = true) :
    wp F (admitProxy g request route) (fun _ => Reached g o) (Reached g o) w := by
  unfold admitProxy
  simp only [wp_modify_bind, wp_get_bind]
  have hadmission : (w.setShared (Shared.check request route)).shared.admission
      = w.shared.admission := rfl
  have hnow : (w.setShared (Shared.check request route)).shared.now = w.shared.now := rfl
  rw [hadmission, hnow]
  have hframe := RouteProxyAdmission.tryAcquire_frame w.shared.admission route w.shared.now
  have hchecked : Reached g o ((w.setShared (Shared.check request route)).setShared fun s =>
      { s with admission := (w.shared.admission.tryAcquire route w.shared.now).2 }) :=
    h.move (.check request route hselect)
  rcases hresult : w.shared.admission.tryAcquire route w.shared.now with ⟨result, admission⟩
  rw [hresult] at hchecked hframe
  rcases result with e | r
  · exact wp_throw.mpr hchecked
  · dsimp only at hchecked hframe ⊢
    split
    · exact (keeps_rejectProxy _ _).wp hchecked
    · split
      · exact (keeps_rejectProxy _ _).wp hchecked
      · simp only [wp_modify_bind]
        generalize hw₁ : ((w.setShared (Shared.check request route)).setShared fun s =>
          { s with admission }) = w₁ at hchecked
        have hpermit : Reached g o (Session.set (fun s => { s with proxyPermit := r.permit })
            (Session.dropPermit w₁)) := Reached.quiet hchecked.dropPermit rfl
        split
        · exact (keeps_rejectProxy _ _).wp hpermit
        · split
          · exact wp_throw.mpr hpermit
          · rename_i selected hup
            have hgranted : (custody w₁).Granted g request selected := by
              subst hw₁
              refine ⟨route, r, w.shared.admission, hselect, hauth, ?_, hup, hframe.health.symm⟩
              exact congrArg Prod.fst hresult
            refine wp_bind (wp_mono (reached_makeExchange hpermit (granted_dropPermit hgranted)) ?_
              fun _ h' => h')
            intro k w₂ hmade
            simp only [wp_modify_bind]
            refine Keeps.wp (.bind keeps_exchange_start fun _ =>
              .update fun _ hw => hw.resetRequest) (Reached.quiet hmade rfl)

theorem reached_startProxyRequest (h : Reached g o w) {request : HttpRequest}
    {route : SelectedRoute} (hselect : selectHttpRoute g.config request = some route)
    (hauth : authorized g route request = true) :
    wp F (startProxyRequest g request route) (fun _ => Reached g o) (Reached g o) w := by
  unfold startProxyRequest
  refine wp_tryCatch (wp_mono (reached_admitProxy h hselect hauth) (fun _ _ h' => h') ?_)
  intro w' h'
  refine Keeps.wp ?_ h'
  unfold onStartFailed
  refine .update_bind (fun _ hw => hw.cancelProxy) (.tryCatch (.mayThrow_bind ?_) ?_)
  · exact .update_bind (fun _ hw => hw.quiet rfl) (keeps_writeResponse _ _ _ _)
  · exact .update fun _ hw => hw.closeSocket

theorem keeps_answerLocally (request : HttpRequest) :
    Keeps (Reached g o) (answerLocally g request) := by
  unfold answerLocally
  refine .mayThrow_bind (.get_bind fun w _ => .ite (.ite (.throw _) (.mayThrow_bind ?_)) ?_)
  all_goals exact keeps_writeResponse _ _ _ _

theorem keeps_processRequest : Keeps (Reached g o) (processRequest g) := by
  unfold processRequest
  refine .update_bind (fun _ hw => hw.quiet rfl) (.get_bind fun w _ => ?_)
  split
  · exact .mayThrow_bind (.update fun _ hw => hw.closeSocket)
  · rename_i parser _
    refine .update_bind (fun _ hw => hw.quiet rfl) ?_
    split
    · rename_i route hselect
      refine .mayThrow_bind ?_
      split
      · exact .mayThrow_bind (.get_bind fun w _ => keeps_writeResponse _ _ _ _)
      · rename_i hauth
        refine .update_bind (fun _ hw => hw.quiet rfl) fun F w hw => ?_
        exact reached_startProxyRequest hw hselect (by simpa using hauth)
    · exact keeps_answerLocally _

theorem keeps_onReadHeader (error : Error) : Keeps (Reached g o) (onReadHeader g error) := by
  unfold onReadHeader
  refine .update_bind (fun w hw => ?_) (.get_bind fun w _ => .ite (.pure _) ?_)
  · obtain ⟨observation, log, heq⟩ := excludeMetrics_eq g w
    rw [heq]
    exact hw.quiet rfl
  · split
    · exact keeps_handleReadError _
    · exact .mayThrow_bind (.update fun _ hw => hw.closeSocket)
    · refine .ite (keeps_writeProtocolError _ _ _) (.ite (keeps_writeProtocolError _ _ _) ?_)
      dsimp only
      split
      · exact keeps_processRequest
      · exact keeps_writeProtocolError _ _ _
      · split
        · exact keeps_rejectBufferBudget _
        · rename_i permit budget _
          refine .mayThrow_bind (.update_bind (fun w hw => ?_) (.mayThrow_bind ?_))
          · refine hw.quiet ?_
            exact custody_dropCell w.env.requestBodyPermit
              (w.setShared fun s => { s with budget })
          · exact .update fun _ hw => hw.quiet rfl

theorem Reached.shrinkRequest (h : Reached g o w) {w' : World Session}
    (hshrunk : shrinkRequest w = some w') : Reached g o w' := by
  unfold Session.shrinkRequest at hshrunk
  split at hshrunk
  · split at hshrunk
    · cases hshrunk
      exact h.quiet rfl
    · cases hshrunk
  · cases hshrunk

theorem keeps_onReadBody (error : Error) : Keeps (Reached g o) (onReadBody g error) := by
  unfold onReadBody
  refine .get_bind fun w hw => .ite (.pure _) ?_
  split
  · exact keeps_handleReadError _
  · split
    · exact .update fun _ hw => hw.closeSocket
    · rename_i w' hshrunk
      exact .update_bind (fun _ _ => hw.shrinkRequest hshrunk) keeps_processRequest

theorem keeps_onHandshake (error : Error) : Keeps (Reached g o) (onHandshake error) := by
  unfold onHandshake
  refine .get_bind fun w _ => .ite (.pure _) (.ite (.update fun _ hw => hw.closeSocket) ?_)
  exact .update_bind (fun _ hw => hw.quiet rfl) keeps_readRequest

theorem keeps_onShutdown : Keeps (Reached g o) onShutdown := by
  unfold onShutdown
  exact .get_bind fun w _ => .ite (.pure _) (.update fun _ hw => hw.closeSocket)

theorem keeps_start : Keeps (Reached g o) (start g) := by
  unfold start
  refine .ite keeps_readRequest (.update_bind (fun _ hw => hw.quiet rfl) ?_)
  exact .mayThrow_bind (.update fun _ hw => hw.quiet rfl)

theorem Reached.destroyExchange (h : Reached g o w) (k : Nat) :
    Reached g o (destroyExchange k w) := by
  unfold Session.destroyExchange
  split
  · refine Reached.setEx (h.quiet ?_) rfl
    exact custody_dropCell (w.exs k).requestBodyPermit
      ((w.setShared (Shared.dropPermit (w.exs k).streamPermit)).setShared
        (Shared.dropPermit (w.exs k).responseBodyPermit))
  · exact h

theorem Reached.destroy (h : Reached g o w) : Reached g o (destroy w) := by
  unfold Session.destroy
  split
  · refine h.quiet ?_
    exact custody_dropCell w.env.requestBodyPermit
      (w.setShared (Shared.dropPermit w.env.responseBodyPermit))
  · exact h

/-! ## Events -/

/-- An exchange that is not over holds its connection. -/
theorem Steady.holds {c : Context} {F' : Site → Prop} (h : Steady c F' w) {j : Nat}
    (hj : j < w.nextExchange) : Ended (w.exs j) ∨ Holds j w := by
  rcases h with hidle | hrest
  · rw [hidle.next] at hj
    exact absurd hj (Nat.not_lt_zero j)
  · rcases hrest.exchanges j hj with hended | ⟨howned, -⟩
    · exact Or.inl hended
    · refine Or.inr ⟨hj, ?_⟩
      have hlive : ∀ k, w.env.proxyExchange = some k → Live (w.exs k) → (w.exs j).lease = .held := by
        intro k hk hlive
        obtain rfl : j = k := Option.some.inj (howned.symm.trans hk)
        exact hlive.held
      cases hrest.mode with
      | gone hfinished =>
          rw [(hrest.unowned hfinished).1] at howned
          cases howned
      | proxying k _ hk _ _ _ hl _ => exact hlive k hk hl
      | streaming k _ hk _ _ hl _ _ => exact hlive k hk hl
      | handshaking _ hnone | reading _ _ hnone | writing _ _ hnone | closing _ hnone
      | stuck _ _ hnone =>
          rw [hnone] at howned
          cases howned

theorem reached_handler {c : Context} {F' : Site → Prop} (h : Reached g o w)
    (hsteady : Steady c F' w) {x : Completion} (hop : x.op ∈ w.env.ops) :
    wp F (handler g x) (fun _ => Reached g o) (Reached g o) (Session.set x.receive w) := by
  have hreceived : Reached g o (Session.set x.receive w) := h.quiet rfl
  have hstream : ∀ k, SessionOp.uses k x.op = true → (w.exs k).observed = false →
      Holds k (Session.set x.receive w) := by
    intro k huses hobserved
    have hk : k < w.nextExchange := by
      rcases hsteady with hidle | hrest
      · rw [hidle.env] at hop
        cases hop
      · exact hrest.uses x.op hop k huses
    rcases hsteady.holds hk with hended | hholds
    · rw [hended.observed] at hobserved
      cases hobserved
    · exact ⟨hholds.known, hholds.held⟩
  unfold handler
  cases hx : x.op with
  | handshake => exact (keeps_session_runHandler (keeps_onHandshake _)).wp hreceived
  | readHeader => exact (keeps_session_runHandler (keeps_onReadHeader _)).wp hreceived
  | readBody => exact (keeps_session_runHandler (keeps_onReadBody _)).wp hreceived
  | write closeAfterWrite => exact (keeps_session_runHandler (keeps_onWrite _ _)).wp hreceived
  | streamHeader k final =>
      exact reached_onStreamWritten hreceived final (hstream k (by simp [hx, SessionOp.uses]))
  | streamBody k final =>
      exact reached_onStreamWritten hreceived final (hstream k (by simp [hx, SessionOp.uses]))
  | shutdown => exact keeps_onShutdown.wp hreceived

/-- What a step of a session does to the connections. -/
theorem reached_handle {c : Context} {F' : Site → Prop} (h : Reached g o w)
    (hsteady : Steady c F' w) (event : Event) :
    wp F (handle g event) (fun _ => Reached g o) (Reached g o) w := by
  unfold handle
  cases event with
  | start =>
      refine Keeps.wp (.get_bind fun w _ => .ite (.pure _) ?_) h
      refine .update_bind (fun _ hw => hw.quiet rfl) (.tryCatch keeps_start ?_)
      exact .update fun _ hw => hw.stop
  | completion x =>
      simp only [wp_get_bind]
      split
      · rename_i hfits
        rw [Bool.and_eq_true, decide_eq_true_eq] at hfits
        simp only [wp_modify_bind]
        exact reached_handler h hsteady hfits.1
      · exact wp_pure.mpr h
  | exchange k x =>
      simp only [wp_get_bind]
      split
      · rename_i hk
        rcases hsteady.holds hk with hended | hholds
        · refine wp_mono (wp_dispatch_ended hended x) ?_ fun _ hf => hf.elim
          rintro _ w' (rfl | rfl)
          · exact h
          · exact h.setEx (holder_receive x _)
        · exact reached_dispatch h hholds x
      · exact wp_pure.mpr h
  | drain => exact Keeps.wp (.get_bind fun w _ => .ite (.update fun _ hw => hw.beginDrain) (.pure _)) h
  | stop => exact Keeps.wp (.get_bind fun w _ => .ite (.update fun _ hw => hw.stop) (.pure _)) h
  | destroyExchange k => exact Keeps.wp (.update fun _ hw => hw.destroyExchange k) h
  | destroy => exact Keeps.wp (.update fun _ hw => hw.destroy) h

end Session

end ApiGate
