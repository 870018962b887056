import ApiGate.DeadlineTimeline
import ApiGate.ExchangeSafety

/-!
# Stage deadlines

Every handler of an exchange leaves it `Guarded`: with a wait for its current deadline,
or over. This needs nothing of the rest of the exchange, so the rules are for any owner
that keeps some `I` of its own state; the `Driver` of `ExchangeSafety` is one of whom
nothing is known but the interface.
-/

namespace ApiGate

open EventLoop Act Exchange

namespace StageDeadlines

variable {E : Type} {begun : Prop} {F : Site → Prop} {I : E → Prop} {cb : EndCallbacks E}
  {scb : StreamCallbacks E} {lib : Library} {k : Nat} {w : World E} {R : World E → Prop}

/-- Inside a handler. -/
def Ticking (I : E → Prop) (k : Nat) (w : World E) : Prop := Timed (w.exs k) ∧ I w.env

/-- Between handlers. -/
def Watched (begun : Prop) (I : E → Prop) (k : Nat) (w : World E) : Prop :=
  Guarded begun (w.exs k) ∧ I w.env

/-- When the owner is told the end. -/
structure Over (I : E → Prop) (k : Nat) (w : World E) : Prop where
  timed : Timed (w.exs k)
  completed : (w.exs k).completed = true
  observed : (w.exs k).observed = true
  env : I w.env

/-- What is asked of the owner's callbacks. -/
structure Owner (F : Site → Prop) (I : E → Prop) (cb : EndCallbacks E) (k : Nat) : Prop where
  complete : ∀ w r, Over I k w → wp F (cb.complete k r) (fun _ => Over I k) (Over I k) w
  abort : ∀ w, Over I k w → wp F (cb.abort k) (fun _ => Over I k) (Over I k) w
  finish : ∀ w failure downstreamFailed, Over I k w →
    wp F (cb.finish k failure downstreamFailed) (fun _ => Over I k) (Over I k) w

structure StreamOwner (begun : Prop) (F : Site → Prop) (I : E → Prop)
    (scb : StreamCallbacks E) (k : Nat) : Prop where
  header : ∀ w head up final, Watched begun I k w →
    wp F (scb.header k head up final) (fun _ => Watched begun I k) (Ticking I k) w
  body : ∀ w block final, Watched begun I k w →
    wp F (scb.body k block final) (fun _ => Watched begun I k) (Ticking I k) w

theorem Watched.ticking (h : Watched begun I k w) : Ticking I k w := ⟨h.1.toTimed, h.2⟩

theorem Ticking.watched (h : Ticking I k w) (hc : (w.exs k).completed = true) :
    Watched begun I k w :=
  ⟨h.1.guarded hc, h.2⟩

theorem Over.watched (h : Over I k w) : Watched begun I k w :=
  ⟨h.timed.guarded h.completed, h.env⟩

theorem Ticking.set (h : Ticking I k w) {f : Exchange → Exchange} (hf : Timed (f (w.exs k))) :
    Ticking I k (w.setEx k f) := by
  refine ⟨?_, h.2⟩
  rw [World.setEx_same]
  exact hf

theorem Watched.set (h : Watched begun I k w) {f : Exchange → Exchange} (hf : Guarded begun (f (w.exs k))) :
    Watched begun I k (w.setEx k f) := by
  refine ⟨?_, h.2⟩
  rw [World.setEx_same]
  exact hf

theorem Ticking.over (h : Ticking I k w) {f : Exchange → Exchange} (hf : Timed (f (w.exs k)))
    (hc : (f (w.exs k)).completed = true) (ho : (f (w.exs k)).observed = true) :
    Over I k (w.setEx k f) where
  timed := by rwa [World.setEx_same]
  completed := by rwa [World.setEx_same]
  observed := by rwa [World.setEx_same]
  env := h.2

theorem Over.set (h : Over I k w) {f : Exchange → Exchange} (hf : Timed (f (w.exs k)))
    (hc : (f (w.exs k)).completed = (w.exs k).completed)
    (ho : (f (w.exs k)).observed = (w.exs k).observed) : Over I k (w.setEx k f) :=
  Ticking.over ⟨h.timed, h.env⟩ hf (hc.trans h.completed) (ho.trans h.observed)

/-! ## Ending the exchange -/

theorem over_notifyAbort (o : Owner F I cb k) (h : Over I k w) :
    wp F (notifyAbort cb k) (fun _ => Over I k) R w := by
  unfold notifyAbort
  simp only [wp_modify_bind, wp_get_bind]
  have hdrop : Over I k (w.setEx k fun x => { x with onComplete := false }) :=
    h.set { h.timed with } rfl rfl
  split
  · simp only [wp_modify_bind, World.setEx_setEx]
    have hdrop' : Over I k
        (w.setEx k fun x => { x with onComplete := false, onAbort := false }) :=
      h.set { h.timed with } rfl rfl
    exact wp_tryCatch (wp_mono (o.abort _ hdrop') (fun _ _ h' => h') fun _ h' => wp_pure.mpr h')
  · exact wp_pure.mpr hdrop

/-- An exception ends the exchange. -/
theorem watches_abandon (o : Owner F I cb k) (h : Ticking I k w) :
    wp F (abandon cb k) (fun _ => Watched begun I k) R w := by
  unfold abandon
  simp only [wp_get_bind]
  split
  · rename_i hc
    exact wp_pure.mpr (h.watched hc)
  · simp only [wp_modify_bind]
    have hclaimed : Timed ((w.exs k).claim.record .aborted) := { h.1 with }
    have hover : Over I k (w.setEx k fun x => (x.claim.record .aborted).cancelOperations) := by
      refine h.over hclaimed.cancelOperations ?_ ?_
      all_goals
        unfold cancelOperations closeUpstream
        split <;> rfl
    exact wp_mono (over_notifyAbort o hover) (fun _ _ h' => h'.watched) fun _ h' => h'

theorem watches_runHandler (o : Owner F I cb k) {body : GateAct E Unit}
    (h : wp F body (fun _ => Watched begun I k) (Ticking I k) w) :
    wp F (runHandler cb k body) (fun _ => Watched begun I k) R w :=
  wp_tryCatch (wp_mono h (fun _ _ h' => h') fun _ h' => watches_abandon o h')

theorem watches_complete (o : Owner F I cb k) (h : Ticking I k w) (result : ProxyResult) :
    wp F (complete cb k result) (fun _ => Watched begun I k) R w := by
  unfold complete
  simp only [wp_get_bind]
  split
  · rename_i hc
    exact wp_pure.mpr (h.watched hc)
  · simp only [wp_modify_bind]
    have hcatch : ∀ w', Over I k w' → wp F (do
        modify (World.setEx k fun x => { x with observed := true })
        notifyAbort cb k) (fun _ => Watched begun I k) R w' := by
      intro w' h'
      simp only [wp_modify_bind]
      have hset : Over I k (w'.setEx k fun x => { x with observed := true }) :=
        Ticking.over ⟨h'.timed, h'.env⟩ { h'.timed with } h'.completed rfl
      exact wp_mono (over_notifyAbort o hset) (fun _ _ h'' => h''.watched) fun _ h'' => h''
    refine wp_tryCatch ?_
    simp only [wp_modify_bind, wp_get_bind, World.setEx_setEx]
    have hover : Over I k (w.setEx k fun x => { x.claim with observed := true }) :=
      h.over { h.1 with } rfl rfl
    split
    · simp only [wp_modify_bind, World.setEx_setEx]
      have hover' : Over I k
          (w.setEx k fun x => { x.claim with observed := true, onComplete := false }) :=
        h.over { h.1 with } rfl rfl
      refine wp_bind (wp_mono (o.complete _ result hover') ?_ hcatch)
      exact fun _ w' h' => wp_modify.mpr (Over.watched (h'.set { h'.timed with } rfl rfl))
    · exact wp_mono (over_notifyAbort o hover) (fun _ _ h' => h'.watched) hcatch

theorem watches_completeStream (o : Owner F I cb k) (h : Ticking I k w)
    (failure : Option ProxyFailure) (downstreamFailed : Bool) :
    wp F (completeStream cb k failure downstreamFailed) (fun _ => Watched begun I k) R w := by
  unfold completeStream
  simp only [wp_get_bind]
  split
  · rename_i hc
    exact wp_pure.mpr (h.watched hc)
  · simp only [wp_modify_bind]
    have hcatch : ∀ w', Over I k w' →
        wp F (notifyAbort cb k) (fun _ => Watched begun I k) R w' := fun w' h' =>
      wp_mono (over_notifyAbort o h') (fun _ _ h'' => h''.watched) fun _ h'' => h''
    refine wp_tryCatch ?_
    simp only [wp_modify_bind, wp_get_bind, World.setEx_setEx]
    have hover : Over I k (w.setEx k fun x =>
        { x.claim with observed := true, onComplete := false, finish := false }) :=
      h.over { h.1 with } rfl rfl
    split
    · refine wp_bind (wp_modify.mpr (wp_bind ?_))
      refine wp_mono (o.finish _ failure downstreamFailed
        (hover.set (f := record (.finish failure downstreamFailed)) { hover.timed with } rfl rfl))
        ?_ hcatch
      exact fun _ w' h' => wp_modify.mpr (Over.watched (h'.set { h'.timed with } rfl rfl))
    · rw [wp_throw_bind]
      exact hcatch _ hover

/-- A failure ends the exchange; one by a timeout stands on the note of its wait. -/
theorem watches_fail (o : Owner F I cb k) (h : Ticking I k w)
    (hs : (w.exs k).observed = true → (w.exs k).completed = true) {stage : ProxyFailureStage}
    (hstage : (w.exs k).observed = false → stage = .timeout →
      ∃ g rest, (w.exs k).timeline = .expired g :: rest) (error : Error) :
    wp F (fail cb k stage error) (fun _ => Watched begun I k) (Ticking I k) w := by
  unfold fail
  simp only [wp_get_bind]
  split
  · rename_i hobs
    exact wp_pure.mpr (h.watched (hs hobs))
  · rename_i hobs
    simp only [wp_modify_bind]
    have hfailed : Timed ((w.exs k).recordFailure stage) :=
      h.1.recordFailure (hstage (by simpa using hobs))
    have ht : Ticking I k
        (w.setEx k fun x => (x.recordFailure stage).finishDeadline.cancelOperations) :=
      h.set hfailed.finishDeadline.cancelOperations
    split
    · exact watches_completeStream o ht _ _
    · exact wp_mayThrow_bind (watches_complete o ht _) fun _ => ht

/-- The failures that are not timeouts. -/
theorem Watched.fail (h : Watched begun I k w) (o : Owner F I cb k) {stage : ProxyFailureStage}
    (hstage : stage ≠ .timeout) (error : Error) :
    wp F (fail cb k stage error) (fun _ => Watched begun I k) (Ticking I k) w :=
  watches_fail o h.ticking h.1.settled (fun _ heq => absurd heq hstage) error

theorem Ticking.fail (h : Ticking I k w) (hobs : (w.exs k).observed = false)
    (o : Owner F I cb k) {stage : ProxyFailureStage} (hstage : stage ≠ .timeout) (error : Error) :
    wp F (Exchange.fail cb k stage error) (fun _ => Watched begun I k) (Ticking I k) w := by
  refine watches_fail o h (fun h' => ?_) (fun _ heq => absurd heq hstage) error
  rw [hobs] at h'
  cases h'

theorem watches_rejectBufferBudget (o : Owner F I cb k) (h : Ticking I k w) (bytes : UInt64) :
    wp F (rejectBufferBudget cb k bytes) (fun _ => Watched begun I k) (Ticking I k) w := by
  unfold rejectBufferBudget
  simp only [wp_modify_bind]
  have ht : Ticking I k (w.setEx k cancelOperations) := h.set h.1.cancelOperations
  refine wp_mayThrow_bind ?_ fun _ => ht
  simp only [wp_get_bind]
  exact watches_complete o ht _

/-- The end of a response: the deadline and the connection go. -/
theorem watches_release {reusable clean : Bool} {f : Unit → GateAct E Unit} (h : Ticking I k w)
    {Q : Unit → World E → Prop} (hf : ∀ w', Ticking I k w' → wp F (f ()) Q R w') :
    wp F (modify (World.setEx k Exchange.finishDeadline) >>= fun _ =>
      modify (World.setEx k (recordPut reusable clean)) >>= fun _ =>
        releaseUpstream k reusable >>= f) Q R w := by
  simp only [wp_modify_bind, World.setEx_setEx]
  have hrecorded : Timed ((w.exs k).finishDeadline.recordPut reusable clean) := by
    unfold recordPut
    split
    · exact { h.1.finishDeadline with }
    · exact h.1.finishDeadline
  have ht : Ticking I k (w.setEx k fun x => x.finishDeadline.recordPut reusable clean) :=
    h.set hrecorded
  unfold releaseUpstream
  split
  · refine wp_bind ?_
    simp only [wp_get_bind]
    have hpooled : ∀ shared : Shared, Ticking I k (World.setEx k
        (fun x => { x with lease := .pooled, puts := x.puts + 1 })
        ((w.setEx k fun x => x.finishDeadline.recordPut reusable clean).setShared fun _ =>
          shared)) := fun shared =>
      Ticking.set (w := World.setShared (fun _ => shared) _) ht { ht.1 with }
    refine wp_ask_bind ?_ fun _ => ?_
    all_goals
      refine wp_ask_bind ?_ fun _ => ?_
    all_goals exact wp_modify.mpr (hf _ (hpooled _))
  · refine wp_bind (wp_modify.mpr (hf _ (ht.set ?_)))
    unfold closeUpstream
    split
    · exact { ht.1 with }
    · exact ht.1

theorem watches_finishStream (o : Owner F I cb k) (h : Ticking I k w) :
    wp F (finishStream cb k) (fun _ => Watched begun I k) (Ticking I k) w := by
  unfold finishStream
  refine wp_mayThrow_bind ?_ fun _ => h
  simp only [wp_get_bind]
  refine wp_ask_bind ?_ fun _ => ?_
  all_goals exact watches_release h fun w' h' => watches_completeStream o h' _ _

theorem watches_finishResponse (o : Owner F I cb k) (h : Ticking I k w) :
    wp F (finishResponse cb lib k) (fun _ => Watched begun I k) (Ticking I k) w := by
  unfold finishResponse
  refine wp_mayThrow_bind ?_ fun _ => h
  simp only [wp_get_bind]
  refine wp_ask_bind ?_ fun _ => ?_
  all_goals
    refine watches_release h fun w' h' => ?_
    refine wp_mayThrow_bind ?_ fun _ => h'
    split
    · exact wp_throw.mpr h'
    · simp only [wp_modify_bind]
      exact watches_complete o (h'.set { h'.1 with }) _

/-! ## Stages -/

/-- Reading goes on under the deadline of the header. -/
theorem watches_initiateRead (h : Watched begun I k w) {site : Site} {op : ExchangeOp}
    (hop : op = .readBody ∨ op = .readBlock) :
    wp F (initiate site op k) (fun _ => Watched begun I k) (Ticking I k) w := by
  unfold initiate
  exact wp_mayThrow_bind (wp_modify.mpr (h.set (h.1.addRead hop))) fun _ => h.ticking

/-- Any other stage gets a deadline of its own. -/
theorem watches_nextStage (h : Ticking I k w)
    (hs : (w.exs k).observed = true → (w.exs k).completed = true) (hb : Between (w.exs k))
    {site : Site} {op : ExchangeOp} (hop : op.early = true ∨ op = .readHeader) :
    wp F (do beginDeadline k; initiate site op k) (fun _ => Watched begun I k) (Ticking I k) w := by
  refine wp_mono wp_nextStage ?_ ?_
  · rintro _ w₁ rfl
    refine ⟨?_, h.2⟩
    rw [World.setEx_same]
    exact h.1.nextStage hs hb hop
  · rintro w₁ (rfl | rfl)
    · exact h.set h.1.finishDeadline
    · exact h.set (h.1.armed hb).1

/-! ## Streams -/

theorem watches_resumeStream (o : Owner F I cb k) (h : Watched begun I k w) (final : Bool)
    (error : Error) :
    wp F (resumeStream cb k final error) (fun _ => Watched begun I k) R w := by
  refine watches_runHandler o ?_
  simp only [wp_get_bind]
  split
  · exact wp_pure.mpr h
  · simp only [wp_modify_bind]
    have hnoted : Watched begun I k (w.setEx k (record (.relay (.taken error)))) :=
      h.set { h.1 with }
    split
    · simp only [wp_modify_bind]
      exact watches_completeStream o (hnoted.ticking.set hnoted.1.toTimed.cancelOperations) _ _
    · split
      · exact watches_finishStream o hnoted.ticking
      · exact watches_initiateRead hnoted (Or.inr rfl)

theorem watches_sendStreamHead (so : StreamOwner begun F I scb k) (h : Watched begun I k w) :
    wp F (sendStreamHead lib scb k) (fun _ => Watched begun I k) (Ticking I k) w := by
  unfold sendStreamHead
  refine wp_mayThrow_bind ?_ fun _ => h.ticking
  simp only [wp_get_bind, wp_modify_bind]
  have hstarted : Watched begun I k (w.setEx k fun x => { x with streamStarted := true }) :=
    h.set { h.1 with }
  refine wp_mayThrow_bind ?_ fun _ => hstarted.ticking
  simp only [wp_modify_bind]
  exact so.header _ _ _ _ (hstarted.set { hstarted.1 with })

theorem watches_startStream (o : Owner F I cb k) (so : StreamOwner begun F I scb k)
    (h : Watched begun I k w) :
    wp F (startStream cb lib scb k) (fun _ => Watched begun I k) (Ticking I k) w := by
  unfold startStream
  simp only [wp_get_bind]
  split
  · exact h.fail o (by simp) _
  · split
    · exact h.fail o (by simp) _
    · refine wp_mayThrow_bind ?_ fun _ => h.ticking
      split
      · split
        · exact watches_rejectBufferBudget o h.ticking _
        · split
          · exact watches_rejectBufferBudget o h.ticking _
          · rename_i permit budget _
            simp only [wp_modify_bind]
            have htaken : Watched begun I k (World.setEx k (fun x => { x with streamPermit := permit })
                (w.setShared fun s => { s with budget })) :=
              Watched.set (w := w.setShared fun s => { s with budget }) h { h.1 with }
            exact wp_mayThrow_bind (watches_sendStreamHead so htaken) fun _ => htaken.ticking
      · exact watches_sendStreamHead so h

/-! ## Handlers -/

theorem readStage_ne (error : Error) : readStage error ≠ .timeout := by
  unfold readStage
  split <;> simp

/-- A stage before the response has ended: a failure, or the next stage. -/
theorem watches_stageEnd {next : GateAct E Unit} (o : Owner F I cb k) (h : Watched begun I k w)
    {stage : ProxyFailureStage} (hstage : stage ≠ .timeout) {error : Error}
    (hnext : (w.exs k).observed = false → Ticking I k (w.setEx k finishDeadline) →
      wp F next (fun _ => Watched begun I k) (Ticking I k) (w.setEx k finishDeadline)) :
    wp F (do
      let w ← get
      if (w.exs k).observed then pure ()
      else
        modify (World.setEx k finishDeadline)
        if error.isSome then Exchange.fail cb k stage error else next)
      (fun _ => Watched begun I k) (Ticking I k) w := by
  simp only [wp_get_bind]
  split
  · exact wp_pure.mpr h
  · rename_i hobs
    have hobs' : (w.exs k).observed = false := by simpa using hobs
    simp only [wp_modify_bind]
    have ht : Ticking I k (w.setEx k finishDeadline) := h.ticking.set h.1.toTimed.finishDeadline
    split
    · refine ht.fail ?_ o hstage _
      rw [World.setEx_same]
      exact hobs'
    · exact hnext hobs' ht

/-- What the handlers of these stages have in common. -/
theorem watches_next (h : Between (w.exs k)) (hobs : (w.exs k).observed = false)
    (ht : Ticking I k (w.setEx k finishDeadline)) {site : Site} {op : ExchangeOp}
    (hop : op.early = true ∨ op = .readHeader) :
    wp F (do beginDeadline k; initiate site op k) (fun _ => Watched begun I k) (Ticking I k)
      (w.setEx k finishDeadline) := by
  refine watches_nextStage ht ?_ ?_ hop
  · rw [World.setEx_same]
    intro hx
    rw [show (w.exs k).observed = true from hx] at hobs
    cases hobs
  · rw [World.setEx_same]
    exact h.later rfl rfl (by simp)

theorem watches_onResolve (o : Owner F I cb k) (h : Watched begun I k w) (hb : Between (w.exs k))
    (error : Error) : wp F (onResolve cb k error) (fun _ => Watched begun I k) (Ticking I k) w :=
  watches_stageEnd o h (by simp) fun hobs ht => watches_next hb hobs ht (Or.inl rfl)

theorem watches_onConnect (o : Owner F I cb k) (h : Watched begun I k w) (hb : Between (w.exs k))
    (error : Error) : wp F (onConnect cb k error) (fun _ => Watched begun I k) (Ticking I k) w := by
  refine watches_stageEnd o h (by simp) fun hobs ht => ?_
  split
  · refine wp_ask_bind ?_ fun _ => ?_
    · exact watches_next hb hobs ht (Or.inl rfl)
    · refine ht.fail ?_ o (by simp) _
      rw [World.setEx_same]
      exact hobs
  · exact watches_next hb hobs ht (Or.inl rfl)

theorem watches_onHandshake (o : Owner F I cb k) (h : Watched begun I k w) (hb : Between (w.exs k))
    (error : Error) : wp F (onHandshake cb k error) (fun _ => Watched begun I k) (Ticking I k) w :=
  watches_stageEnd o h (by simp) fun hobs ht => watches_next hb hobs ht (Or.inl rfl)

theorem watches_onWrite (o : Owner F I cb k) (h : Watched begun I k w) (hb : Between (w.exs k))
    (error : Error) : wp F (onWrite cb k error) (fun _ => Watched begun I k) (Ticking I k) w := by
  refine watches_stageEnd o h (by simp) fun hobs ht => ?_
  simp only [wp_modify_bind, World.setEx_setEx]
  have hwritten : Timed ((w.exs k).finishDeadline.record .requestWritten) :=
    { h.1.toTimed.finishDeadline with }
  have hbumped : Between (w.exs k).finishDeadline := hb.later rfl rfl (by simp)
  refine watches_nextStage (h.ticking.set hwritten) ?_ ?_ (Or.inr rfl)
  · rw [World.setEx_same]
    intro hx
    rw [show (w.exs k).observed = true from hx] at hobs
    cases hobs
  · rw [World.setEx_same]
    exact ⟨hbumped.idle, hbumped.unread⟩

theorem watches_onReadHeader (o : Owner F I cb k) (so : StreamOwner begun F I scb k)
    (h : Watched begun I k w) (error : Error) :
    wp F (onReadHeader cb lib scb k error) (fun _ => Watched begun I k) (Ticking I k) w := by
  unfold onReadHeader
  simp only [wp_get_bind]
  have ht : Ticking I k (w.setEx k finishDeadline) := h.ticking.set h.1.toTimed.finishDeadline
  split
  · exact wp_pure.mpr h
  · rename_i hobs
    have hobs' : ((w.setEx k finishDeadline).exs k).observed = false := by
      rw [World.setEx_same]
      exact Bool.not_eq_true _ ▸ hobs
    split
    · simp only [wp_modify_bind]
      exact ht.fail hobs' o (readStage_ne error) _
    · split
      · exact watches_startStream o so h
      · split
        · simp only [wp_modify_bind]
          exact ht.fail hobs' o (by simp) _
        · split
          · simp only [wp_modify_bind]
            exact ht.fail hobs' o (by simp) _
          · simp only [wp_modify_bind]
            exact watches_finishResponse o ht
          · split
            · simp only [wp_modify_bind]
              exact watches_rejectBufferBudget o ht _
            · rename_i permit budget _
              simp only [wp_modify_bind]
              refine watches_initiateRead ?_ (Or.inl rfl)
              exact Watched.set (w := w.setShared fun s => { s with budget }) h { h.1 with }

theorem watches_onReadBody (o : Owner F I cb k) (h : Watched begun I k w) (error : Error) :
    wp F (onReadBody cb lib k error) (fun _ => Watched begun I k) (Ticking I k) w := by
  unfold onReadBody
  simp only [wp_get_bind]
  have ht : Ticking I k (w.setEx k finishDeadline) := h.ticking.set h.1.toTimed.finishDeadline
  split
  · exact wp_pure.mpr h
  · rename_i hobs
    have hobs' : ((w.setEx k finishDeadline).exs k).observed = false := by
      rw [World.setEx_same]
      exact Bool.not_eq_true _ ▸ hobs
    simp only [wp_modify_bind]
    split
    · exact ht.fail hobs' o (readStage_ne error) _
    · split
      · exact ht.fail hobs' o (by simp) _
      · rename_i permit budget _
        simp only [wp_modify_bind]
        refine watches_finishResponse o ?_
        exact Ticking.set (w := (w.setEx k finishDeadline).setShared fun s => { s with budget }) ht
          { ht.1 with }

theorem watches_onReadBlock (o : Owner F I cb k) (so : StreamOwner begun F I scb k)
    (h : Watched begun I k w) (error : Error) (block : Text) :
    wp F (onReadBlock cb scb k error block) (fun _ => Watched begun I k) (Ticking I k) w := by
  unfold onReadBlock
  simp only [wp_get_bind]
  split
  · exact wp_pure.mpr h
  · split
    · exact h.fail o (readStage_ne error) _
    · split
      · exact watches_initiateRead h (Or.inr rfl)
      · refine wp_mayThrow_bind ?_ fun _ => h.ticking
        simp only [wp_modify_bind]
        exact so.body _ _ _ (h.set { h.1 with })

/-- A wait that finds its generation ends the exchange; any other is too late. -/
theorem watches_onDeadline (o : Owner F I cb k) (h : Watched begun I k w) {c : Exchange.Completion}
    {g : Nat} (hc : c.op = .wait g) (hop : c.op ∈ (w.exs k).ops)
    (hclock : begun → c.op = .wait (w.exs k).deadlineGeneration →
      (w.exs k).completed = false → c.error = none) :
    wp F (onDeadline cb k g c.error) (fun _ => Watched begun I k) (Ticking I k)
      (w.setEx k c.receive) := by
  obtain ⟨-, htimeline, hgeneration, hobserved, hcompleted⟩ := receive_deadline c (w.exs k)
  unfold onDeadline
  simp only [wp_get_bind, World.setEx_same, hgeneration]
  split
  · rename_i hcurrent
    rw [Bool.and_eq_true, decide_eq_true_eq] at hcurrent
    have hmem : .started (.wait g) ∈ (c.receive (w.exs k)).timeline := by
      rw [htimeline]
      exact h.1.waits g (hc ▸ hop)
    have hexpired : Timed ((c.receive (w.exs k)).expire g) :=
      (h.1.toTimed.receive c).expire hmem (hcurrent.2.trans hgeneration.symm)
    simp only [wp_modify_bind, World.setEx_setEx]
    refine watches_fail o (h.ticking.set hexpired) ?_ ?_ _
    all_goals
      rw [World.setEx_same]
      unfold expire
      split
    · rw [hobserved, hcompleted]
      exact h.1.settled
    · show (c.receive (w.exs k)).observed = true → (c.receive (w.exs k)).completed = true
      rw [hobserved, hcompleted]
      exact h.1.settled
    · rename_i hobs
      intro hnot
      rw [hobs] at hnot
      cases hnot
    · exact fun _ _ => ⟨g, _, rfl⟩
  · rename_i hlate
    refine wp_pure.mpr (h.set (h.1.receive fun hbegun hthis => ?_))
    -- the wait of the current deadline has failed, which it does only when it is over
    cases hdone : (w.exs k).completed with
    | true => rfl
    | false =>
        have hnone := hclock hbegun hthis hdone
        rw [hc] at hthis
        cases hthis
        simp [hnone] at hlate

theorem watches_dispatch (o : Owner F I cb k) (so : StreamOwner begun F I scb k)
    (h : Watched begun I k w) (c : Exchange.Completion)
    (hclock : begun → c.op = .wait (w.exs k).deadlineGeneration →
      (w.exs k).completed = false → c.error = none) :
    wp F (dispatch cb lib scb k c) (fun _ => Watched begun I k) R w := by
  unfold dispatch
  simp only [wp_get_bind]
  split
  · rename_i hop
    simp only [wp_modify_bind]
    refine watches_runHandler o ?_
    have hreceived : (∀ g, c.op ≠ .wait g) → Watched begun I k (w.setEx k c.receive) := fun hne =>
      h.set (h.1.receive fun _ hthis => absurd hthis (hne _))
    have hbetween : c.op.early = true → Between ((w.setEx k c.receive).exs k) := by
      intro hearly
      rw [World.setEx_same]
      exact h.1.toTimed.between hop hearly
    unfold handler
    cases hc : c.op with
    | resolve => exact watches_onResolve o (hreceived (by simp [hc])) (hbetween (by rw [hc]; rfl)) _
    | connect => exact watches_onConnect o (hreceived (by simp [hc])) (hbetween (by rw [hc]; rfl)) _
    | handshake =>
        exact watches_onHandshake o (hreceived (by simp [hc])) (hbetween (by rw [hc]; rfl)) _
    | write => exact watches_onWrite o (hreceived (by simp [hc])) (hbetween (by rw [hc]; rfl)) _
    | readHeader => exact watches_onReadHeader o so (hreceived (by simp [hc])) _
    | readBody => exact watches_onReadBody o (hreceived (by simp [hc])) _
    | readBlock => exact watches_onReadBlock o so (hreceived (by simp [hc])) _ _
    | wait g => exact watches_onDeadline o h hc hop hclock
  · exact wp_pure.mpr h

/-- `start()` that throws has begun no stage. -/
theorem watches_start (h : Ticking I k w)
    (hs : (w.exs k).observed = true → (w.exs k).completed = true) (hb : Between (w.exs k)) :
    wp F (Exchange.start k) (fun _ => Watched begun I k) (Watched False I k) w := by
  have hthrown : ∀ w', w' = w.setEx k finishDeadline ∨ w' = w.setEx k armed →
      Watched False I k w' := by
    rintro w' (rfl | rfl)
    all_goals
      refine ⟨?_, h.2⟩
      rw [World.setEx_same]
    · exact { h.1.finishDeadline with settled := hs, covered := False.elim }
    · exact { (h.1.armed hb).1 with settled := hs, covered := False.elim }
  have hreturned : ∀ op : ExchangeOp, op.early = true → ∀ w',
      w' = (w.setEx k fun x => x.armed.addOp op) → Watched begun I k w' := by
    rintro op hop w' rfl
    refine ⟨?_, h.2⟩
    rw [World.setEx_same]
    exact h.1.nextStage hs hb (Or.inl hop)
  unfold Exchange.start
  simp only [wp_get_bind]
  split
  · exact wp_mono wp_nextStage (fun _ => hreturned .write rfl) hthrown
  · exact wp_mono wp_nextStage (fun _ => hreturned .resolve rfl) hthrown

/-- A wait of a deadline that is over, or of an exchange that is over, changes nothing. -/
theorem stale_wait {c : Exchange.Completion} {g : Nat} (hc : c.op = .wait g)
    (hlate : c.error ≠ none ∨ g ≠ (w.exs k).deadlineGeneration ∨ (w.exs k).observed = true) :
    wp F (dispatch cb lib scb k c) (fun _ w' => w' = w ∨ w' = w.setEx k c.receive)
      (fun _ => False) w := by
  obtain ⟨-, -, hgeneration, hobserved, -⟩ := receive_deadline c (w.exs k)
  unfold dispatch
  simp only [wp_get_bind]
  split
  · simp only [wp_modify_bind]
    refine wp_tryCatch ?_
    unfold handler
    simp only [hc]
    unfold onDeadline
    simp only [wp_get_bind, World.setEx_same, hgeneration]
    split
    · rename_i hcurrent
      rw [Bool.and_eq_true, decide_eq_true_eq, Option.isNone_iff_eq_none] at hcurrent
      have hobs : (c.receive (w.exs k)).observed = true := by
        rw [hobserved]
        rcases hlate with herror | hother | hobs
        · exact absurd hcurrent.1 herror
        · exact absurd hcurrent.2 hother
        · exact hobs
      have hsame : (w.setEx k c.receive).setEx k (expire g) = w.setEx k c.receive := by
        rw [World.setEx_setEx]
        simp only [World.setEx, expire, hobs, if_true]
      simp only [wp_modify_bind, hsame]
      unfold fail
      simp only [wp_get_bind, World.setEx_same]
      rw [if_pos hobs]
      exact wp_pure.mpr (Or.inr rfl)
    · exact wp_pure.mpr (Or.inr rfl)
  · exact wp_pure.mpr (Or.inl rfl)

/-! ## The driver -/

section Driving

variable {w : World Driver} {cb : EndCallbacks Driver}

/-- `start()` was called. -/
def Started (d : Driver) : Prop := d.started = true

theorem over_call (h : Over Started 0 w) (c : Driver.Call) :
    wp F (Driver.call cb c) (fun _ => Over Started 0) (fun _ => False) w := by
  cases c with
  | cancel =>
      refine wp_modify.mpr ?_
      unfold Driver.cancelExchange
      rw [if_pos h.completed]
      have hcancel : (w.exs 0).cancel = w.exs 0 := if_pos h.completed
      refine h.set ?_ ?_ ?_
      · rw [hcancel]
        exact h.timed
      · rw [hcancel]
      · rw [hcancel]
  | resume final error =>
      unfold Driver.call
      simp only [wp_get_bind]
      split
      · refine wp_tryCatch ?_
        simp only [wp_get_bind]
        rw [if_pos h.observed]
        exact wp_pure.mpr h
      · exact wp_pure.mpr h

theorem over_answer (what : Driver.What) (h : Over Started 0 w) :
    wp F (Driver.answer cb what) (fun _ => Over Started 0) (Over Started 0) w := by
  unfold Driver.answer
  simp only [wp_modify_bind]
  have hnoted : Over Started 0 (Driver.note what w) := ⟨h.timed, h.completed, h.observed, h.env⟩
  refine wp_bind (wp_mono (Driver.wp_runScript (fun c w h => over_call h c)
    (fun w scripts h => ⟨h.timed, h.completed, h.observed, h.env⟩) hnoted) ?_
    fun _ hf => hf.elim)
  exact fun _ _ h' => wp_pure.mpr h'

theorem driver_owner (depth : Nat) : Owner F Started (Driver.endCallbacks depth) 0 := by
  have hnote : ∀ (w : World Driver) (what : Driver.What), Over Started 0 w →
      Over Started 0 (Driver.note what w) := fun w what h =>
    ⟨h.timed, h.completed, h.observed, h.env⟩
  cases depth with
  | zero =>
      exact ⟨fun w _ h => wp_modify.mpr (hnote w _ h), fun w h => wp_modify.mpr (hnote w _ h),
        fun w _ _ h => wp_modify.mpr (hnote w _ h)⟩
  | succ depth =>
      exact ⟨fun w _ h => over_answer _ h, fun w h => over_answer _ h,
        fun w _ _ h => over_answer _ h⟩

theorem watches_cancel (h : Watched begun Started 0 w) :
    Watched begun Started 0 (Driver.cancelExchange w) := by
  unfold Driver.cancelExchange
  split
  · exact h.set h.1.cancel
  · exact h.set (f := Exchange.cancel) h.1.cancel

theorem watches_call (depth : Nat) (h : Watched begun Started 0 w) (c : Driver.Call) :
    wp F (Driver.call (Driver.endCallbacks depth) c) (fun _ => Watched begun Started 0)
      (fun _ => False) w := by
  cases c with
  | cancel => exact wp_modify.mpr (watches_cancel h)
  | resume final error =>
      unfold Driver.call
      simp only [wp_get_bind]
      split
      · exact watches_resumeStream (driver_owner depth) h final error
      · exact wp_pure.mpr h

theorem watches_deliver (depth : Nat) (h : Watched begun Started 0 w) (what : Driver.What)
    (final : Bool) :
    wp F (Driver.deliver (Driver.endCallbacks depth) what final) (fun _ => Watched begun Started 0)
      (Ticking Started 0) w := by
  unfold Driver.deliver
  simp only [wp_modify_bind]
  have hnoted : Watched begun Started 0 { Driver.note what w with
      env := { (Driver.note what w).env with resumes := final :: w.env.resumes } } := h
  refine wp_bind (wp_mono (Driver.wp_runScript (fun c w h => watches_call depth h c)
    (fun w scripts h => h) hnoted) ?_ fun _ hf => hf.elim)
  intro throws w' h'
  cases throws with
  | true => exact wp_throw.mpr h'.ticking
  | false => exact wp_pure.mpr h'

theorem driver_streamOwner (depth : Nat) :
    StreamOwner begun F Started (Driver.streamCallbacks (Driver.endCallbacks depth)) 0 :=
  ⟨fun _ _ _ final h => watches_deliver depth h _ final,
    fun _ _ final h => watches_deliver depth h _ final⟩

/-! ## Runs -/

/-- Nothing has happened before `start()`, a `cancel()` apart. -/
structure Fresh (w : World Driver) : Prop where
  ops : (w.exs 0).ops = []
  timeline : (w.exs 0).timeline = []
  resumes : w.env.resumes = []

structure Steady (w : World Driver) : Prop where
  guarded : Guarded False (w.exs 0)
  fresh : w.env.started = false → Fresh w

/-- The timer's promise: a wait fails only when it is cancelled, and that of the current
deadline is not cancelled before the exchange is over. -/
def ClockKept (w : World Driver) (input : Driver.Input) : Prop :=
  ∀ c, input.event = .completion c → c.op = .wait (w.exs 0).deadlineGeneration →
    (w.exs 0).completed = false → c.error = none

/-- `start()` is called for the first time, and returns. -/
def StartReturns (w : World Driver) (input : Driver.Input) : Prop :=
  input.event = .start ∧ w.env.started = false
    ∧ (Exchange.start 0 input.oracle
        { w with env := { w.env with scripts := input.scripts, started := true } }).1 = .ok ()

theorem Watched.steady (h : Watched False Started 0 w) : Steady w where
  guarded := h.1
  fresh hnot := by
    rw [show w.env.started = true from h.2] at hnot
    cases hnot

theorem Fresh.between (h : Fresh w) : Between (w.exs 0) := by
  refine ⟨by rw [h.ops]; rfl, ?_⟩
  rw [h.timeline]
  exact List.not_mem_nil

/-- `cancel()` before `start()` -/
theorem Steady.cancelled (h : Steady w) (hfresh : Fresh w) :
    Steady (Driver.cancelExchange w) := by
  have hset : Steady (w.setEx 0 Exchange.cancel) := by
    refine ⟨?_, fun _ => ⟨?_, ?_, hfresh.resumes⟩⟩
    all_goals rw [World.setEx_same]
    · exact h.guarded.cancel
    · unfold Exchange.cancel cancelOperations closeUpstream
      split
      · exact hfresh.ops
      · split <;> exact hfresh.ops
    · unfold Exchange.cancel cancelOperations closeUpstream
      split
      · exact hfresh.timeline
      · split <;> exact hfresh.timeline
  unfold Driver.cancelExchange
  split
  · exact hset
  · exact ⟨hset.guarded, fun hnot =>
      ⟨(hset.fresh hnot).ops, (hset.fresh hnot).timeline, (hset.fresh hnot).resumes⟩⟩

/-- One event of a started exchange. -/
theorem handle_watched (depth : Nat) (h : Watched begun Started 0 w) {event : Driver.Event}
    (hclock : begun → ∀ c, event = .completion c →
      c.op = .wait (w.exs 0).deadlineGeneration → (w.exs 0).completed = false → c.error = none) :
    wp F (Driver.handle lib depth event) (fun _ => Watched begun Started 0)
      (Watched begun Started 0) w := by
  cases event with
  | start =>
      unfold Driver.handle
      simp only [wp_get_bind]
      rw [if_pos (show w.env.started = true from h.2)]
      exact wp_pure.mpr h
  | completion c =>
      exact watches_dispatch (driver_owner depth) (driver_streamOwner depth) h c
        fun hbegun => hclock hbegun c rfl
  | call c => exact wp_mono (watches_call depth h c) (fun _ _ h' => h') fun _ hf => hf.elim

/-- One event, whatever has happened. -/
theorem handle_steady (depth : Nat) (h : Steady w) (event : Driver.Event) :
    wp F (Driver.handle lib depth event) (fun _ => Steady) Steady w := by
  cases hstarted : w.env.started with
  | true =>
      have hw : Watched False Started 0 w := ⟨h.guarded, hstarted⟩
      exact wp_mono (handle_watched depth hw False.elim) (fun _ _ h' => h'.steady)
        fun _ h' => h'.steady
  | false =>
      have hfresh := h.fresh hstarted
      cases event with
      | start =>
          unfold Driver.handle
          simp only [wp_get_bind]
          rw [if_neg (by simp [hstarted])]
          simp only [wp_modify_bind]
          have hticking : Ticking Started 0 { w with env := { w.env with started := true } } :=
            ⟨h.guarded.toTimed, rfl⟩
          have hstart : wp F (Exchange.start 0) (fun _ => Watched False Started 0)
              (Watched False Started 0) { w with env := { w.env with started := true } } :=
            watches_start hticking h.guarded.settled hfresh.between
          refine wp_tryCatch (wp_mono hstart ?_ ?_)
          · exact fun _ _ h' => h'.steady
          · exact fun _ h' => wp_pure.mpr h'.steady
      | completion c =>
          unfold Driver.handle dispatch
          simp only [wp_get_bind]
          rw [if_neg (by simp [hfresh.ops])]
          exact wp_pure.mpr h
      | call c =>
          cases c with
          | cancel => exact wp_modify.mpr (h.cancelled hfresh)
          | resume final error =>
              unfold Driver.handle Driver.call
              simp only [wp_get_bind]
              rw [if_neg (by simp [hfresh.resumes])]
              exact wp_pure.mpr h

theorem Steady.step (depth : Nat) (input : Driver.Input) (h : Steady w) :
    Steady (Driver.step lib depth input w) := by
  refine exec_of_wp (admissible_none input.oracle) (handle_steady depth ?_ input.event)
  exact ⟨h.guarded, fun hnot =>
    ⟨(h.fresh hnot).ops, (h.fresh hnot).timeline, (h.fresh hnot).resumes⟩⟩

theorem Watched.step (depth : Nat) {input : Driver.Input} (hclock : ClockKept w input)
    (h : Watched True Started 0 w) :
    Watched True Started 0 (Driver.step lib depth input w) :=
  exec_of_wp (admissible_none input.oracle)
    (handle_watched (w := { w with env := { w.env with scripts := input.scripts } }) depth h
      fun _ => hclock)

/-- A `start()` that returns. -/
theorem Steady.started (depth : Nat) {input : Driver.Input} (h : Steady w)
    (hreturns : StartReturns w input) :
    Watched True Started 0 (Driver.step lib depth input w) := by
  obtain ⟨hevent, hnot, hok⟩ := hreturns
  have hfresh := h.fresh hnot
  have hticking : Ticking Started 0
      { w with env := { w.env with scripts := input.scripts, started := true } } :=
    ⟨h.guarded.toTimed, rfl⟩
  have hstart : wp (fun _ => False) (Exchange.start 0) (fun _ => Watched True Started 0)
      (Watched False Started 0)
      { w with env := { w.env with scripts := input.scripts, started := true } } :=
    watches_start hticking h.guarded.settled hfresh.between
  have hresult := hstart input.oracle (admissible_none _)
  rcases hrun : Exchange.start 0 input.oracle
    { w with env := { w.env with scripts := input.scripts, started := true } } with ⟨r, o', w'⟩
  rw [hrun] at hok hresult
  cases hok
  have hstep : Driver.step lib depth input w = w' := by
    unfold Driver.step Driver.handle
    rw [hevent, exec_get_bind, if_neg (by simp [hnot]), exec_modify_bind]
    exact exec_tryCatch hrun
  rw [hstep]
  exact hresult.2

/-! ## Every run -/

/-- What the timeline of an exchange says about its deadlines. -/
structure Exact (x : Exchange) : Prop where
  /-- A timeout is that of the wait armed last, and no deadline has ended since. -/
  timeout : ∀ later earlier, x.timeline = later ++ .failed .timeout :: earlier →
    ∃ g between before,
      earlier = .expired g :: (between ++ .started (.wait g) :: .bumped :: before)
        ∧ .bumped ∉ between
  /-- A deadline that has ended is not the current one again. -/
  superseded : ∀ later earlier g, x.timeline = later ++ .started (.wait g) :: earlier →
    .bumped ∈ later → g < x.deadlineGeneration
  /-- Every stage starts behind a deadline armed for it. -/
  fresh : ∀ later op earlier, x.timeline = later ++ .started op :: earlier →
    op.early = true ∨ op = .readHeader →
      ∃ g rest, earlier = .started (.wait g) :: .bumped :: rest
  /-- From the header on no deadline is armed. -/
  once : ∀ later earlier g, x.timeline = later ++ .started .readHeader :: earlier →
    .started (.wait g) ∉ later

/-- What holds once `start()` has returned. -/
structure Covered (x : Exchange) : Prop where
  armed : x.completed = true ∨ .wait x.deadlineGeneration ∈ x.ops
  /-- The deadline of the header lasts to the end. -/
  reading : x.completed = false →
    ∀ later earlier, x.timeline = later ++ .started .readHeader :: earlier →
      .bumped ∉ later
        ∧ ∃ rest, earlier = .started (.wait x.deadlineGeneration) :: .bumped :: rest

/-- A wait that is late is only taken off the operations under way. -/
def IgnoresLate (lib : Library) (depth : Nat) (w : World Driver) : Prop :=
  ∀ (input : Driver.Input) (c : Exchange.Completion) (g : Nat),
    input.event = .completion c → c.op = .wait g →
    g ≠ (w.exs 0).deadlineGeneration ∨ (w.exs 0).completed = true →
      (Driver.step lib depth input w).env.log = w.env.log
        ∧ ((Driver.step lib depth input w).exs 0 = w.exs 0
          ∨ (Driver.step lib depth input w).exs 0 = c.receive (w.exs 0))

theorem exact_of_timed {x : Exchange} (h : Timed x) : Exact x where
  timeout later earlier heq := (heq ▸ h.inOrder).timeout
  superseded later earlier g heq hended := by
    rw [h.generation, heq]
    exact (heq ▸ h.inOrder).superseded hended
  fresh later op earlier heq hop := (heq ▸ h.inOrder).armed_first hop
  once later earlier g heq := (heq ▸ h.inOrder).unarmed g

theorem covered_of_guarded {x : Exchange} (h : Guarded True x) : Covered x where
  armed := h.covered trivial
  reading hrunning later earlier heq := by
    have hwait : .wait x.deadlineGeneration ∈ x.ops := by
      rcases h.covered trivial with hdone | hwait
      · rw [hrunning] at hdone
        cases hdone
      · exact hwait
    have hmem := h.waits _ hwait
    have hcount := h.generation
    have horder := h.inOrder
    rw [heq] at hmem hcount horder
    exact horder.reading hmem hcount

theorem ignoresLate_of_steady (depth : Nat) (h : Driver.Steady w) : IgnoresLate lib depth w := by
  intro input c g hevent hop hlate
  have hobs : (w.exs 0).completed = true → (w.exs 0).observed = true := by
    intro hdone
    rcases h with hidle | hgo | hover
    · rw [hidle.live.completed] at hdone
      cases hdone
    · rw [hgo.live.completed] at hdone
      cases hdone
    · exact hover.ended.observed
  have hlate' : c.error ≠ none ∨ g ≠ (w.exs 0).deadlineGeneration
      ∨ (w.exs 0).observed = true := Or.inr (hlate.imp_right hobs)
  have hwp : wp (fun _ => False) (Driver.handle lib depth (.completion c))
      (fun _ w' => w' = { w with env := { w.env with scripts := input.scripts } }
        ∨ w' = World.setEx 0 c.receive { w with env := { w.env with scripts := input.scripts } })
      (fun _ => False) { w with env := { w.env with scripts := input.scripts } } :=
    stale_wait hop hlate'
  unfold Driver.step
  rw [hevent]
  refine exec_of_wp (P := fun w' => w'.env.log = w.env.log
    ∧ (w'.exs 0 = w.exs 0 ∨ w'.exs 0 = c.receive (w.exs 0))) (admissible_none input.oracle)
    (wp_mono hwp ?_ fun _ hf => hf.elim)
  rintro _ w' (rfl | rfl)
  · exact ⟨rfl, Or.inl rfl⟩
  · exact ⟨rfl, Or.inr (World.setEx_same ..)⟩

section

variable (lib : Library) (shared : Shared) (selected : SelectedUpstream) (request : HttpRequest)
  (pooled : Bool) (connection : UpstreamConnection) (reused : Bool) (cell : Option Nat)
  (depth : Nat)

/-- An exchange after some inputs. -/
def reach (inputs : List Driver.Input) : World Driver :=
  run (Driver.step lib depth)
    (Driver.launch shared selected request pooled connection reused cell) inputs

theorem steady_reach (inputs : List Driver.Input) :
    Steady (reach lib shared selected request pooled connection reused cell depth inputs) := by
  refine run_invariant_all Steady (fun input w h => h.step depth input) ?_ inputs
  exact ⟨guarded_make .., fun _ => ⟨rfl, rfl, rfl⟩⟩

theorem driver_steady_reach (inputs : List Driver.Input) :
    Driver.Steady
      (reach lib shared selected request pooled connection reused cell depth inputs) := by
  refine run_invariant_all Driver.Steady (fun input w => Driver.step_steady depth input)
    (Or.inl ?_) inputs
  exact ⟨live_make .., rfl, rfl, rfl, rfl⟩

/-- In every run of an exchange, whatever its owner does and in whatever order the
completions come: a timeout is that of the last deadline; a wait of a deadline that has
ended, or of an exchange that is over, does nothing; every stage has a deadline of its
own, and reading the response one that is never renewed; and after a `start()` that has
returned, a wait of the current deadline is outstanding until the exchange is over. -/
theorem generation_exact (inputs : List Driver.Input) :
    let reached := reach lib shared selected request pooled connection reused cell depth
    Exact ((reached inputs).exs 0) ∧ IgnoresLate lib depth (reached inputs)
      ∧ ∀ before start rest, inputs = before ++ start :: rest →
          StartReturns (reached before) start →
          (∀ earlier input later, rest = earlier ++ input :: later →
            ClockKept (reached (before ++ start :: earlier)) input) →
          Covered ((reached inputs).exs 0) := by
  intro reached
  refine ⟨exact_of_timed (steady_reach ..).guarded.toTimed,
    ignoresLate_of_steady depth (driver_steady_reach ..), ?_⟩
  rintro before start rest rfl hreturns hclock
  have hsplit : ∀ later, reached (before ++ start :: later)
      = run (Driver.step lib depth) (Driver.step lib depth start (reached before)) later := by
    intro later
    exact (run_append [start] later ▸ run_append before (start :: later)).symm
  have hstarted : Watched True Started 0 (Driver.step lib depth start (reached before)) :=
    (steady_reach ..).started depth hreturns
  have hwatched : Watched True Started 0 (reached (before ++ start :: rest)) := by
    rw [hsplit]
    refine run_invariant_along (Watched True Started 0) (G := ClockKept)
      (fun input w hkept h => h.step depth hkept) hstarted rest ?_
    intro earlier input later hrest
    rw [← hsplit]
    exact hclock earlier input later hrest
  exact covered_of_guarded hwatched.1

end

/-- The exchange resolves a name; the wait of that stage comes late. -/
theorem generation_exact_late_wait :
    let shared : Shared :=
      { admission := ⟨[], { maxProxies := 1 }, [], []⟩, budget := { maxBytes := 0 } }
    let backend : UpstreamConfig := { host := "backend".toList, port := 80 }
    let reached := reach { intToStatus := id, sha256 := id } shared { upstream := backend }
      { method := .get, target := "/".toList } false ⟨0, backend, none⟩ false none 0
      [{ event := .start }, { event := .completion { op := .resolve } },
       { event := .completion { op := .wait 1 } }]
    Covered (reached.exs 0) := by
  intro shared backend reached
  refine (generation_exact { intToStatus := id, sha256 := id } shared { upstream := backend }
    { method := .get, target := "/".toList } false ⟨0, backend, none⟩ false none 0 _).2.2 []
    { event := .start } _ rfl ⟨rfl, rfl, rfl⟩ ?_
  intro earlier input later heq c hevent hop hrunning
  -- neither completion is one of the current wait
  rcases earlier with _ | ⟨_, _ | ⟨_, _ | ⟨_, _⟩⟩⟩
  · cases heq
    cases hevent
    cases hop
  · cases heq
    cases hevent
    cases hop
  · cases heq
  · cases heq

end Driving

end StageDeadlines

end ApiGate
