import ApiGate.Drain
import ApiGate.DrainReport
import ApiGate.UpstreamPoolSafety

/-!
# After the drain

Once the drain is reported, all that is left to the event loop are completions of
operations that were cancelled. Their handlers find their exchange, their session or
the server over and start nothing, so each takes one operation out of what is
outstanding, and the loop runs out of work.
-/

namespace ApiGate

open EventLoop Act

/-! ## An exchange that has ended -/

namespace Exchange

variable {E : Type} {F : Site → Prop} {cb : EndCallbacks E} {scb : StreamCallbacks E}
  {lib : Library} {w : World E} {k : Nat}

theorem wp_handler_ended (he : Ended (w.exs k)) (c : Completion) :
    wp F (handler cb lib scb k c) (fun _ w' => w' = w) (fun _ => False) w := by
  have hdone : wp F (pure ()) (fun _ w' => w' = w) (fun _ => False) w := wp_pure.mpr rfl
  cases hop : c.op with
  | wait generation =>
      simp only [handler, hop, onDeadline, wp_get_bind]
      split
      · have hexpire : w.setEx k (expire generation) = w := by
          simp [World.setEx, expire, he.observed]
        simp only [fail, wp_modify_bind, hexpire, wp_get_bind, he.observed, if_true]
        exact hdone
      · exact hdone
  | _ =>
      simp only [handler, hop, onResolve, onConnect, onHandshake, onWrite, onReadHeader, onReadBody,
        onReadBlock, wp_get_bind, he.observed, if_true]
      exact hdone

/-- A late completion takes its operation out, and that is all. -/
theorem wp_dispatch_due (he : Ended (w.exs k)) {c : Completion} (hdue : c.op ∈ (w.exs k).ops) :
    wp F (dispatch cb lib scb k c) (fun _ w' => w' = w.setEx k c.receive) (fun _ => False) w := by
  unfold dispatch
  simp only [wp_get_bind, hdue, if_true, wp_modify_bind]
  have hended : Ended ((w.setEx k c.receive).exs k) := by
    rw [World.setEx_same]
    exact he.completion c
  exact wp_tryCatch (wp_mono (wp_handler_ended hended c) (fun _ _ heq => heq) fun _ hf => hf.elim)

theorem Ended.receive_ops {x : Exchange} (h : Ended x) (c : Completion) :
    (c.receive x).ops = x.ops.erase c.op := by
  obtain ⟨parser, heq⟩ := h.receive_eq c
  rw [heq]

end Exchange

/-! ## A session that has finished -/

/-- Nobody is admitted or counted from `s` to `s'`, and no connection is made or kept. -/
structure Shared.Spent (s s' : Shared) : Prop where
  connections : s'.nextConnection = s.nextConnection
  limits : s'.admission.rateLimits = s.admission.rateLimits
  positions : s'.admission.nextUpstream = s.admission.nextUpstream
  proxies : s'.admission.proxies = s.admission.proxies
  idle : ∀ slot, some slot ∈ s'.pool.idle → some slot ∈ s.pool.idle
  checks : s'.checks = s.checks
  metrics : s'.metrics = s.metrics

theorem Shared.Spent.refl (s : Shared) : Shared.Spent s s :=
  ⟨rfl, rfl, rfl, rfl, fun _ => id, rfl, rfl⟩

theorem Shared.Spent.trans {s s' s'' : Shared} (h : Shared.Spent s s') (h' : Shared.Spent s' s'') :
    Shared.Spent s s'' where
  connections := h'.connections.trans h.connections
  limits := h'.limits.trans h.limits
  positions := h'.positions.trans h.positions
  proxies := h'.proxies.trans h.proxies
  idle slot := h.idle slot ∘ h'.idle slot
  checks := h'.checks.trans h.checks
  metrics := h'.metrics.trans h.metrics

theorem Shared.spent_dropPermit (p : BufferBudgetPermit) (s : Shared) :
    Shared.Spent s (s.dropPermit p) := { Shared.Spent.refl s with }

theorem Shared.spent_dropCell (cell : Option Nat) (s : Shared) :
    Shared.Spent s (s.dropCell cell) := by
  unfold Shared.dropCell
  split
  · exact .refl s
  · split
    · exact { Shared.Spent.refl s with }
    · exact { Shared.Spent.refl s with }

/-- The operations that are outstanding, of the session and of all its exchanges. -/
def Local.work (l : Local) : Nat :=
  l.session.ops.length + ∑ k ∈ Finset.range l.nextExchange, (l.exs k).ops.length

namespace Session

def work (w : World Session) : Nat := Local.work ⟨w.exs, w.nextExchange, w.env⟩

/-- The event is the completion of an operation that is outstanding. -/
def Event.due (w : World Session) : Event → Bool
  | .completion c => c.op ∈ w.env.ops && c.fits w.env
  | .exchange k c => k < w.nextExchange && c.op ∈ (w.exs k).ops
  | _ => false

/-- Nothing is started, made or handed over from `w` to `w'`. -/
structure Spent (w w' : World Session) : Prop where
  started : w'.env.started = w.env.started
  finished : w'.env.finished = w.env.finished
  trace : w'.env.trace = w.env.trace
  ops : w'.env.ops.Sublist w.env.ops
  exchanges : w'.nextExchange = w.nextExchange
  exchangeOps : ∀ k, (w'.exs k).ops.Sublist (w.exs k).ops
  shared : Shared.Spent w.shared w'.shared

variable {c : Context} {F : Site → Prop} {w w' w'' : World Session} {k : Nat}

theorem Spent.refl (w : World Session) : Spent w w :=
  ⟨rfl, rfl, rfl, .refl _, rfl, fun _ => .refl _, .refl _⟩

theorem Spent.trans (h : Spent w w') (h' : Spent w' w'') : Spent w w'' where
  started := h'.started.trans h.started
  finished := h'.finished.trans h.finished
  trace := h'.trace.trans h.trace
  ops := h'.ops.trans h.ops
  exchanges := h'.exchanges.trans h.exchanges
  exchangeOps k := (h'.exchangeOps k).trans (h.exchangeOps k)
  shared := h.shared.trans h'.shared

/-- `w'` has what is left of `w` when `n` operations have completed. -/
structure Pays (n : Nat) (w w' : World Session) : Prop extends Spent w w' where
  work : Session.work w' + n = Session.work w

theorem Pays.refl (w : World Session) : Pays 0 w w := ⟨.refl w, rfl⟩

theorem Pays.trans {m n : Nat} (h : Pays m w w') (h' : Pays n w' w'') : Pays (m + n) w w'' := by
  refine ⟨h.toSpent.trans h'.toSpent, ?_⟩
  have hfirst := h.work
  have hsecond := h'.work
  omega

/-- The operation of an exchange, and with it one of all. -/
theorem pays_exchange (hk : k < w.nextExchange) (he : Exchange.Ended (w.exs k))
    {x : Exchange.Completion} (hdue : x.op ∈ (w.exs k).ops) :
    Pays 1 w (w.setEx k x.receive) := by
  have hops := he.receive_ops x
  refine ⟨{ Spent.refl w with exchangeOps := fun j => ?_ }, ?_⟩
  · by_cases hjk : j = k
    · rw [hjk, World.setEx_same, hops]
      exact List.erase_sublist ..
    · rw [World.setEx_ne hjk]
  · have htally := tally_update (fun y : Exchange => y.ops.length) w.exs
      (Finset.mem_range.mpr hk) (x.receive (w.exs k))
    have hpos := List.length_pos_of_mem hdue
    simp only [hops, List.length_erase_of_mem hdue] at htally
    simp only [Session.work, Local.work, World.setEx]
    omega

/-- The session has one operation less. -/
theorem pays_receive {x : Completion} (hdue : x.op ∈ w.env.ops) : Pays 1 w (set x.receive w) := by
  refine ⟨{ Spent.refl w with ops := List.erase_sublist .. }, ?_⟩
  have hpos := List.length_pos_of_mem hdue
  have hlength : (set x.receive w).env.ops.length = w.env.ops.length - 1 :=
    List.length_erase_of_mem hdue
  have hexs : (set x.receive w).exs = w.exs := rfl
  have hnext : (set x.receive w).nextExchange = w.nextExchange := rfl
  simp only [Session.work, Local.work, hlength, hexs, hnext]
  omega

theorem pays_excludeMetrics (g : Setup) (w : World Session) : Pays 0 w (excludeMetrics g w) := by
  unfold excludeMetrics
  split
  · exact ⟨{ Spent.refl w with }, rfl⟩
  · exact .refl w

/-- The operations stay as they are. -/
theorem Spent.pays (h : Spent w w') (hops : w'.env.ops = w.env.ops)
    (hexs : ∀ k, (w'.exs k).ops = (w.exs k).ops) : Pays 0 w w' :=
  ⟨h, by simp only [Session.work, Local.work, hops, hexs, h.exchanges, Nat.add_zero]⟩

theorem exchangeOps_setEx {f : Exchange → Exchange} (hf : ∀ x, (f x).ops = x.ops) (k j : Nat)
    (w : World Session) : ((w.setEx k f).exs j).ops = (w.exs j).ops := by
  by_cases hjk : j = k
  · rw [hjk, World.setEx_same, hf]
  · rw [World.setEx_ne hjk]

theorem pays_destroyExchange (k : Nat) (w : World Session) : Pays 0 w (destroyExchange k w) := by
  unfold destroyExchange
  split
  · refine Spent.pays { Spent.refl w with
      exchangeOps := fun j => ?_
      shared := ((Shared.spent_dropPermit _ _).trans (Shared.spent_dropPermit _ _)).trans
        (Shared.spent_dropCell _ _) } rfl fun j => ?_
    · rw [exchangeOps_setEx]
      · exact .refl _
      · exact fun _ => rfl
    · rw [exchangeOps_setEx]
      · rfl
      · exact fun _ => rfl
  · exact .refl w

theorem pays_destroy (w : World Session) : Pays 0 w (destroy w) := by
  unfold destroy
  split
  · exact Spent.pays { Spent.refl w with
      shared := (Shared.spent_dropPermit _ _).trans (Shared.spent_dropCell _ _) } rfl fun _ => rfl
  · exact .refl w

/-- A session that has finished looks at what still completes, and that is all. -/
theorem wp_handler_finished (h : Base c w) (hf : w.env.finished = true) (x : Completion)
    (huses : ∀ k, SessionOp.uses k x.op = true → k < w.nextExchange) :
    wp F (handler c.setup x) (fun _ w' => Pays 0 w w') (fun _ => False) w := by
  have hrun : ∀ {m : SessionAct Unit}, wp F m (fun _ w' => Pays 0 w w') (fun _ => False) w →
      wp F (runHandler m) (fun _ w' => Pays 0 w w') (fun _ => False) w :=
    fun hm => wp_tryCatch (wp_mono hm (fun _ _ hp => hp) fun _ hfalse => hfalse.elim)
  have hpure : wp F (pure () : SessionAct Unit) (fun _ w' => Pays 0 w w') (fun _ => False) w :=
    wp_pure.mpr (.refl w)
  have hstream : ∀ k final, k < w.nextExchange →
      wp F (onStreamWritten c.setup k final x.error) (fun _ w' => Pays 0 w w') (fun _ => False)
        w := by
    intro k final hk
    have hended : Exchange.Ended (w.exs k) := h.over (by simp [(h.unowned hf).1]) hk
    simp only [onStreamWritten, wp_modify_bind, hf, Bool.not_true, Bool.and_false,
      Bool.false_eq_true, if_false]
    refine hrun (wp_mono (Exchange.wp_resumeStream_ended hended final x.error) ?_
      fun _ hfalse => hfalse)
    rintro _ w' rfl
    exact .refl w'
  cases hop : x.op with
  | handshake =>
      simp only [handler, hop]
      refine hrun ?_
      simp only [onHandshake, wp_get_bind, hf, if_true]
      exact hpure
  | readHeader =>
      simp only [handler, hop]
      refine hrun ?_
      have hpays := pays_excludeMetrics c.setup w
      simp only [onReadHeader, wp_modify_bind, wp_get_bind, hpays.finished, hf, if_true]
      exact wp_pure.mpr hpays
  | readBody =>
      simp only [handler, hop]
      refine hrun ?_
      simp only [onReadBody, wp_get_bind, hf, if_true]
      exact hpure
  | write closeAfterWrite =>
      simp only [handler, hop]
      refine hrun ?_
      simp only [onWrite, wp_get_bind, hf, if_true]
      exact hpure
  | streamHeader k final =>
      simp only [handler, hop]
      exact hstream k final (huses k (by simp [hop, SessionOp.uses]))
  | streamBody k final =>
      simp only [handler, hop]
      exact hstream k final (huses k (by simp [hop, SessionOp.uses]))
  | shutdown =>
      simp only [handler, hop, onShutdown, wp_get_bind, hf, if_true]
      exact hpure

/-- An event that finds the session finished. -/
theorem wp_handle_finished (h : Rest c F w) (hf : w.env.finished = true) (event : Event) :
    wp F (handle c.setup event) (fun _ w' => Pays (event.due w).toNat w w') (fun _ => False)
      w := by
  have hpure : wp F (pure () : SessionAct Unit) (fun _ w' => Pays 0 w w') (fun _ => False) w :=
    wp_pure.mpr (.refl w)
  unfold handle
  cases event with
  | start =>
      simp only [wp_get_bind, h.started, if_true]
      exact hpure
  | completion x =>
      simp only [wp_get_bind, Event.due]
      split
      · rename_i hready
        rw [hready]
        simp only [Bool.and_eq_true, decide_eq_true_eq] at hready
        have hpays := pays_receive (w := w) hready.1
        simp only [wp_modify_bind]
        refine wp_mono (wp_handler_finished (h.toBase.received x) hf x (h.uses x.op hready.1)) ?_
          fun _ hfalse => hfalse
        exact fun _ w' hp => hpays.trans hp
      · rename_i hlate
        rw [Bool.not_eq_true] at hlate
        rw [hlate]
        exact hpure
  | exchange k x =>
      simp only [wp_get_bind, Event.due]
      split
      · rename_i hk
        have hended : Exchange.Ended (w.exs k) := h.toBase.over (by simp [(h.unowned hf).1]) hk
        by_cases hdue : x.op ∈ (w.exs k).ops
        · simp only [hk, hdue, decide_true, Bool.and_self]
          refine wp_mono (Exchange.wp_dispatch_due hended hdue) ?_ fun _ hfalse => hfalse
          rintro _ w' rfl
          exact pays_exchange hk hended hdue
        · simp only [hdue, decide_false, Bool.and_false, Exchange.dispatch, wp_get_bind, if_false]
          exact hpure
      · rename_i hk
        simp only [hk, decide_false, Bool.false_and]
        exact hpure
  | drain =>
      simp only [wp_get_bind, h.started, if_true]
      refine wp_modify.mpr ?_
      rw [beginDrain, if_pos (by simp [hf])]
      exact .refl w
  | stop =>
      simp only [wp_get_bind, h.started, if_true]
      refine wp_modify.mpr ?_
      rw [Session.stop, if_pos hf]
      exact .refl w
  | destroyExchange k => exact wp_modify.mpr (pays_destroyExchange k w)
  | destroy => exact wp_modify.mpr (pays_destroy w)

/-- A session that is not accepted has nothing outstanding. -/
theorem Idle.due (h : Idle c w) (event : Event) : event.due w = false := by
  cases event with
  | completion x => simp [Event.due, h.env]
  | exchange k x => simp [Event.due, h.next]
  | _ => rfl

theorem wp_handle_unaccepted (h : Idle c w) {event : Event} (hnew : event ≠ .start) :
    wp F (handle c.setup event) (fun _ w' => Pays (event.due w).toNat w w') (fun _ => False)
      w := by
  have hpure : wp F (pure () : SessionAct Unit) (fun _ w' => Pays 0 w w') (fun _ => False) w :=
    wp_pure.mpr (.refl w)
  rw [h.due]
  unfold handle
  cases event with
  | start => exact absurd rfl hnew
  | completion x =>
      simp only [wp_get_bind, h.env, List.not_mem_nil, decide_false, Bool.false_and,
        Bool.false_eq_true, if_false]
      exact hpure
  | exchange k x =>
      simp only [wp_get_bind, h.next, Nat.not_lt_zero, if_false]
      exact hpure
  | drain | stop =>
      simp only [wp_get_bind, h.env, Bool.false_eq_true, if_false]
      exact hpure
  | destroyExchange k => exact wp_modify.mpr (pays_destroyExchange k w)
  | destroy => exact wp_modify.mpr (pays_destroy w)

/-- The server accepts a connection that is new. -/
theorem wp_accepted (h : Idle c w) :
    wp F (handle c.setup .start) (fun _ w' => w'.env.started = true) (fun _ => False) w := by
  obtain ⟨hfree, htrace⟩ := h.accepted
  unfold handle
  simp only [wp_get_bind, h.env, Bool.false_eq_true, if_false, wp_modify_bind]
  refine wp_tryCatch (wp_mono (wp_session_start hfree htrace) (fun _ _ hl => ?_) fun _ hb => ?_)
  · exact hl.started
  · exact wp_modify.mpr (hb.stop (F := F)).started

end Session

/-! ## All sessions -/

namespace Gateway

variable {g : Setup} {gw gw' gw'' : Gateway} {i n : Nat}

/-- What is outstanding for the first `n` sessions. -/
def work (n : Nat) (gw : Gateway) : Nat := ∑ i ∈ Finset.range n, (gw.locals i).work

def due (gw : Gateway) : Event → Bool
  | .session i event => event.due (gw.view i)
  | .probe _ _ _ | .cleanup _ _ | .stopPool => false

/-- `gw'` has what is left of `gw` when `m` operations have completed. -/
structure Pays (n m : Nat) (gw gw' : Gateway) : Prop where
  sessions : ∀ i, Session.Spent (gw.view i) (gw'.view i)
  work : Gateway.work n gw' + m = Gateway.work n gw

theorem Pays.refl (n : Nat) (gw : Gateway) : Pays n 0 gw gw := ⟨fun _ => .refl _, rfl⟩

theorem Pays.trans {m m' : Nat} (h : Pays n m gw gw') (h' : Pays n m' gw' gw'') :
    Pays n (m + m') gw gw'' := by
  refine ⟨fun i => (h.sessions i).trans (h'.sessions i), ?_⟩
  have hfirst := h.work
  have hsecond := h'.work
  omega

/-- A change of the shared state. -/
theorem pays_shared {s : Shared} (h : Shared.Spent gw.shared s) (n : Nat) :
    Pays n 0 gw { gw with shared := s } :=
  ⟨fun _ => { Session.Spent.refl _ with shared := h }, rfl⟩

theorem pays_tick (now : TimePoint) (n : Nat) (gw : Gateway) : Pays n 0 gw (gw.tick now) := by
  have hspent : Shared.Spent gw.shared (gw.tick now).shared := { Shared.Spent.refl gw.shared with }
  exact pays_shared hspent n

/-- A step of session `i`, which is one of the first `n` unless nothing of it completes. -/
theorem pays_put {w : World Session} {m : Nat} (hw : Session.Pays m (gw.view i) w)
    (hi : i < n ∨ m = 0) : Pays n m gw (gw.put i w) := by
  have hspent : Session.Spent (gw.view i) w := hw.toSpent
  refine ⟨fun j => ?_, ?_⟩
  · by_cases hji : j = i
    · rw [hji, view_put_same]
      exact hspent
    · rw [view_put_ne hji]
      exact { Session.Spent.refl _ with shared := hspent.shared }
  · have hwork : Local.work ⟨w.exs, w.nextExchange, w.env⟩ + m = (gw.locals i).work := hw.work
    by_cases hmem : i < n
    · have htally := tally_update Local.work gw.locals (Finset.mem_range.mpr hmem)
        ⟨w.exs, w.nextExchange, w.env⟩
      simp only [Gateway.work, put]
      omega
    · have hzero : m = 0 := hi.resolve_left hmem
      have hsame : ∀ j ∈ Finset.range n, ((gw.put i w).locals j).work = (gw.locals j).work := by
        intro j hj
        have hji : j ≠ i := by
          rintro rfl
          exact hmem (Finset.mem_range.mp hj)
        simp only [put, Function.update_of_ne hji]
      rw [hzero, Nat.add_zero]
      exact Finset.sum_congr rfl hsame

/-- Every session that was accepted has finished, and is one of the first `n`. -/
def Over (n : Nat) (gw : Gateway) : Prop :=
  ∀ i, (gw.session i).started = true → (gw.session i).finished = true ∧ i < n

theorem Over.spent (h : Over n gw) (hs : ∀ i, Session.Spent (gw.view i) (gw'.view i)) :
    Over n gw' := by
  intro i hstarted
  have hview : (gw'.session i).started = (gw.session i).started := (hs i).started
  have hfinished : (gw'.session i).finished = (gw.session i).finished := (hs i).finished
  rw [hfinished]
  exact h i (hview ▸ hstarted)

/-- No session is accepted that was not before. -/
def Admits (gw : Gateway) (event : Event) : Prop :=
  ∀ i, event = .session i .start → (gw.session i).started = true

theorem step_pays (hsafe : Safe g (fun _ => False) gw) (hover : Over n gw) (input : Input)
    (hnew : Admits gw input.event) :
    Pays n (gw.due input.event).toNat gw (step g input gw) := by
  obtain ⟨live, hinv⟩ := hsafe
  obtain ⟨event, now, o⟩ := input
  have htick := pays_tick now n gw
  cases event with
  | session i event =>
      have hsteady : Session.Steady ((gw.tick now).context g i True) (fun _ => False)
          ((gw.tick now).view i) := (hinv.tick now).focus i fun _ => trivial
      have hstep : ∃ w, step g ⟨.session i event, now, o⟩ gw = (gw.tick now).put i w
          ∧ Session.Pays (event.due ((gw.tick now).view i)).toNat ((gw.tick now).view i) w := by
        refine exec_of_wp (P := fun gw' => ∃ w, gw' = (gw.tick now).put i w ∧ Session.Pays _ _ w)
          (admissible_none o) (wp_zoom ?_)
        have hhandle : wp (fun _ => False) (Session.handle g event)
            (fun _ w => Session.Pays (event.due ((gw.tick now).view i)).toNat
              ((gw.tick now).view i) w) (fun _ => False) ((gw.tick now).view i) := by
          rcases hsteady with hidle | hrest
          · refine Session.wp_handle_unaccepted hidle ?_
            rintro rfl
            have hstarted : ((gw.tick now).view i).env.started = true := hnew i rfl
            rw [hidle.env] at hstarted
            cases hstarted
          · exact Session.wp_handle_finished hrest (hover i hrest.started).1 event
        exact wp_mono hhandle (fun _ w hw => ⟨w, rfl, hw⟩) fun _ hf => hf.elim
      obtain ⟨w, heq, hpays⟩ := hstep
      have hdue : event.due ((gw.tick now).view i) = gw.due (.session i event) := rfl
      rw [heq, ← hdue]
      have hput := htick.trans (pays_put hpays (n := n) ?_)
      · rw [Nat.zero_add] at hput
        exact hput
      · rcases hsteady with hidle | hrest
        · exact Or.inr (congrArg Bool.toNat (hidle.due event))
        · exact Or.inl (hover i hrest.started).2
  | probe route upstream success =>
      have hspent : Shared.Spent (gw.tick now).shared
          (step g ⟨.probe route upstream success, now, o⟩ gw).shared :=
        { Shared.Spent.refl (gw.tick now).shared with }
      exact htick.trans (pays_shared hspent n)
  | cleanup error fails =>
      have hspent : Shared.Spent (gw.tick now).shared
          (step g ⟨.cleanup error fails, now, o⟩ gw).shared := by
        refine { Shared.Spent.refl (gw.tick now).shared with idle := fun slot hmem => ?_ }
        have hold := (UpstreamPool.onCleanup_moves _ error fails _).entries slot hmem
        simpa using hold
      exact htick.trans (pays_shared hspent n)
  | stopPool =>
      have hspent : Shared.Spent (gw.tick now).shared
          (step g ⟨.stopPool, now, o⟩ gw).shared := by
        refine { Shared.Spent.refl (gw.tick now).shared with idle := fun slot hmem => ?_ }
        have hold := (UpstreamPool.stop_moves _).entries slot hmem
        simpa using hold
      exact htick.trans (pays_shared hspent n)

/-- A session that the server has started is accepted. -/
theorem step_accepted (hsafe : Safe g (fun _ => False) gw) {input : Input}
    (hstart : input.event = .session i .start) :
    ((step g input gw).session i).started = true := by
  obtain ⟨live, hinv⟩ := hsafe
  obtain ⟨event, now, o⟩ := input
  have hstart : event = .session i .start := hstart
  subst hstart
  have hsteady : Session.Steady ((gw.tick now).context g i True) (fun _ => False)
      ((gw.tick now).view i) := (hinv.tick now).focus i fun _ => trivial
  have hhandle : wp (fun _ => False) (Session.handle g .start)
      (fun _ w => w.env.started = true) (fun _ => False) ((gw.tick now).view i) := by
    rcases hsteady with hidle | hrest
    · exact Session.wp_accepted hidle
    · simp only [Session.handle, wp_get_bind, hrest.started, if_true]
      exact wp_pure.mpr hrest.started
  refine exec_of_wp (P := fun gw' : Gateway => (gw'.session i).started = true)
    (admissible_none o) (wp_zoom (wp_mono hhandle (fun _ w hw => ?_) fun _ hf => hf.elim))
  have hself : ((gw.tick now).put i w).session i = w.env := by
    simp [Gateway.session, put]
  rw [hself]
  exact hw

theorem due_call {event : Event} (h : event.isCall = true) : gw.due event = false := by
  cases event with
  | session i event => cases event <;> first | rfl | cases h
  | stopPool => rfl
  | probe | cleanup => rfl

/-- The calls of a server that accepts no session. -/
theorem run_calls_pays {calls : List Input} (hcalls : ∀ input ∈ calls, input.event.isCall = true)
    (hsafe : Safe g (fun _ => False) gw) (hover : Over n gw)
    (hsame : ∀ i, ((run (step g) gw calls).session i).started = (gw.session i).started) :
    Pays n 0 gw (run (step g) gw calls) := by
  induction calls generalizing gw with
  | nil => exact .refl n gw
  | cons input rest ih =>
      have hcall := hcalls input (List.mem_cons_self ..)
      have hrest : ∀ input ∈ rest, input.event.isCall = true :=
        fun input hmem => hcalls input (List.mem_cons_of_mem _ hmem)
      have hnew : Admits gw input.event := by
        intro i hstart
        rw [← hsame i]
        exact (session_run_calls hrest (step_accepted hsafe hstart)).started
      have hpays := step_pays hsafe hover input hnew
      rw [due_call hcall] at hpays
      refine hpays.trans (ih hrest (step_safe hsafe input (admissible_none _))
        (hover.spent hpays.sessions) fun i => ?_)
      rw [show ((step g input gw).session i).started = (gw.session i).started from
        (hpays.sessions i).started]
      exact hsame i

end Gateway

/-! ## The system -/

namespace System

/-- The operations of the server, of its sessions and of their exchanges that are outstanding.
The wait of the pool's clean-up and what the health checks have under way are not among them. -/
def work (x : System) : Nat :=
  Server.work x.server + Gateway.work x.server.nextSession x.gateway

/-- A run of `Step` from `x` in whose steps operations complete `n` times. -/
inductive Completing (g : Setup) (R : Gateway.Input → Prop) (x : System) : Nat → System → Prop where
  | refl : Completing g R x 0 x
  | server {n : Nat} {y : System} (before : Completing g R x n y)
      (e : Server.ServerEvent × Oracle ServerSite) (calls : List Gateway.Input)
      (called : ∀ input ∈ calls, input.event.isCall = true) (allowed : ∀ input ∈ calls, R input)
      (agrees : Agrees (y.serve g e calls)) :
      Completing g R x (n + (e.1.due y.server).toNat) (y.serve g e calls)
  | own {n : Nat} {y : System} (before : Completing g R x n y) (input : Gateway.Input)
      (uncalled : input.event.isCall = false) (allowed : R input)
      (agrees : Agrees ⟨y.server, Gateway.step g input y.gateway⟩) :
      Completing g R x (n + (y.gateway.due input.event).toNat)
        ⟨y.server, Gateway.step g input y.gateway⟩
  | finish {n : Nat} {y : System} (before : Completing g R x n y) (i : Nat)
      (event : Session.Event) (input : Gateway.Input) (owner : input.event = .session i event)
      (uncalled : input.event.isCall = false) (o : Oracle ServerSite)
      (calls : List Gateway.Input) (called : ∀ input ∈ calls, input.event.isCall = true)
      (allowed : ∀ input' ∈ input :: calls, R input')
      (agrees : Agrees (serve g (.sessionFinish i, o) calls
        ⟨y.server, Gateway.step g input y.gateway⟩)) :
      Completing g R x (n + (y.gateway.due input.event).toNat)
        (serve g (.sessionFinish i, o) calls ⟨y.server, Gateway.step g input y.gateway⟩)

variable {g : Setup} {R : Gateway.Input → Prop} {a b x y : System} {m n : Nat}

theorem Completing.run (h : Completing g R a n b) : Run g R a b := by
  induction h with
  | refl => exact .refl
  | server _ e calls called allowed agrees ih => exact ih.tail (.server e calls called allowed agrees)
  | own _ input uncalled allowed agrees ih => exact ih.tail (.own input uncalled allowed agrees)
  | finish _ i event input owner uncalled o calls called allowed agrees ih =>
      exact ih.tail (.finish i event input owner uncalled o calls called allowed agrees)

/-- Every run completes some number of operations. -/
theorem Run.completing (h : Run g R a b) : ∃ n, Completing g R a n b := by
  induction h with
  | refl => exact ⟨0, .refl⟩
  | tail _ hstep ih =>
      obtain ⟨n, hn⟩ := ih
      cases hstep with
      | server e calls called allowed agrees => exact ⟨_, hn.server e calls called allowed agrees⟩
      | own input uncalled allowed agrees => exact ⟨_, hn.own input uncalled allowed agrees⟩
      | finish i event input owner uncalled o calls called allowed agrees =>
          exact ⟨_, hn.finish i event input owner uncalled o calls called allowed agrees⟩

/-- Nothing is accepted, made or started from `a` to `b`, every session is finished, and
`n` of the operations that were outstanding have completed. -/
structure WindsDown (n : Nat) (a b : System) : Prop where
  server : Server.Spent a.server b.server
  sessions : ∀ i, Session.Spent (a.gateway.view i) (b.gateway.view i)
  finished : ∀ i, (b.gateway.session i).started = true → (b.gateway.session i).finished = true
  work : work b + n = work a

/-- What holds of a drained system between handlers. -/
structure Drained (m : Nat) (g : Setup) (x : System) : Prop where
  rest : Server.Rest m x.server
  tracked : Server.Tracked x.server
  done : Server.Done x.server
  safe : Gateway.Safe g (fun _ => False) x.gateway
  agrees : Agrees x

theorem Drained.over (h : Drained m g x) : Gateway.Over x.server.nextSession x.gateway := by
  intro i hstarted
  rw [h.agrees.started i, decide_eq_true_eq] at hstarted
  refine ⟨?_, hstarted⟩
  rw [h.agrees.finished i]
  by_contra hopen
  have hmem := h.tracked i hstarted (by simpa using hopen)
  rw [h.rest.core.drained h.done.phase] at hmem
  cases hmem

theorem WindsDown.refl (h : Drained m g x) : WindsDown 0 x x :=
  ⟨(Server.Pays.refl _).toSpent, fun _ => .refl _, fun i hs => (h.over i hs).1, rfl⟩

theorem WindsDown.trans {n' : Nat} {c : System} (h : WindsDown n a b) (h' : WindsDown n' b c) :
    WindsDown (n + n') a c := by
  refine ⟨h.server.trans h'.server, fun i => (h.sessions i).trans (h'.sessions i), h'.finished, ?_⟩
  have hfirst := h.work
  have hsecond := h'.work
  omega

/-- The server handles an event and calls its sessions, after which it knows no other. -/
theorem Drained.serve (h : Drained m g x) (e : Server.ServerEvent × Oracle ServerSite)
    {gw : Gateway} (hgw : Gateway.Pays x.server.nextSession n x.gateway gw)
    (hsafe : Gateway.Safe g (fun _ => False) gw) {calls : List Gateway.Input}
    (hcalls : ∀ input ∈ calls, input.event.isCall = true)
    (hagrees : Agrees (System.serve g e calls ⟨x.server, gw⟩)) :
    Drained m g (System.serve g e calls ⟨x.server, gw⟩)
      ∧ WindsDown ((e.1.due x.server).toNat + n) x (System.serve g e calls ⟨x.server, gw⟩) := by
  obtain ⟨hdone, hserver⟩ := Server.step_done h.done h.rest.core h.tracked e
  have hnext : (Server.step e x.server).nextSession = x.server.nextSession := hserver.sessions
  have hsame : ∀ i, ((EventLoop.run (Gateway.step g) gw calls).session i).started
      = (gw.session i).started := by
    intro i
    have hbefore : (gw.session i).started = (x.gateway.session i).started :=
      (hgw.sessions i).started
    have hafter := hagrees.started i
    rw [hbefore, h.agrees.started i, ← hnext]
    exact hafter
  have hpays := Gateway.run_calls_pays hcalls hsafe (h.over.spent hgw.sessions) hsame
  have hdrained : Drained m g (System.serve g e calls ⟨x.server, gw⟩) :=
    { rest := Server.step_rest h.rest e
      tracked := (Server.step_onward e x.server).tracked h.tracked
      done := hdone
      safe := run_invariant_all (Gateway.Safe g fun _ => False)
        (fun input _ hs => Gateway.step_safe hs input (admissible_none _)) hsafe calls
      agrees := hagrees }
  refine ⟨hdrained, hserver.toSpent, fun i => (hgw.sessions i).trans (hpays.sessions i),
    fun i hs => (hdrained.over i hs).1, ?_⟩
  have hfirst := hserver.work
  have hsecond := hgw.work
  have hthird := hpays.work
  show Server.work (Server.step e x.server)
      + Gateway.work (Server.step e x.server).nextSession (EventLoop.run (Gateway.step g) gw calls)
      + ((e.1.due x.server).toNat + n) = _
  rw [hnext]
  simp only [System.work]
  omega

/-- A handler that the server does not see. -/
theorem Drained.own (h : Drained m g x) {input : Gateway.Input}
    (huncalled : input.event.isCall = false) :
    Gateway.Pays x.server.nextSession (x.gateway.due input.event).toNat x.gateway
      (Gateway.step g input x.gateway) := by
  refine Gateway.step_pays h.safe h.over input fun i hstart => ?_
  rw [hstart] at huncalled
  cases huncalled

/-- Whatever the oracles answer. -/
theorem Completing.winds_down (hdrained : Drained m g a) (h : Completing g R a n b) :
    Drained m g b ∧ WindsDown n a b := by
  induction h with
  | refl => exact ⟨hdrained, .refl hdrained⟩
  | server _ e calls called _ agrees ih =>
      obtain ⟨hy, hbefore⟩ := ih
      obtain ⟨hz, hstep⟩ := hy.serve e (.refl _ _) hy.safe called agrees
      exact ⟨hz, hbefore.trans hstep⟩
  | own _ input uncalled _ agrees ih =>
      obtain ⟨hy, hbefore⟩ := ih
      have hpays := hy.own uncalled
      have hz : Drained m g ⟨_, Gateway.step g input _⟩ :=
        { hy with
          safe := Gateway.step_safe hy.safe input (admissible_none _)
          agrees }
      refine ⟨hz, hbefore.trans ⟨(Server.Pays.refl _).toSpent, hpays.sessions,
        fun i hs => (hz.over i hs).1, ?_⟩⟩
      have hwork := hpays.work
      simp only [System.work]
      omega
  | finish _ i event input _ uncalled o calls called _ agrees ih =>
      obtain ⟨hy, hbefore⟩ := ih
      obtain ⟨hz, hstep⟩ := hy.serve (.sessionFinish i, o) (hy.own uncalled)
        (Gateway.step_safe hy.safe input (admissible_none _)) called agrees
      refine ⟨hz, ?_⟩
      have hall := hbefore.trans hstep
      rw [show (Server.ServerEvent.due _ (.sessionFinish i)).toNat = 0 from rfl, Nat.zero_add] at hall
      exact hall

theorem Run.marked {past : Prop} (h : Run g R a b) (hmarked : Server.Marked past a.server) :
    Server.Marked past b.server := by
  induction h with
  | refl => exact hmarked
  | tail _ hstep ih =>
      obtain ⟨-, hsame | ⟨e, he⟩⟩ := hstep.parts
      · rw [hsame]
        exact ih
      · rw [he]
        exact Server.step_marked ih e

/-- A system whose server has reported the end of its drain. -/
theorem Run.drained {rateLimits : RouteRateLimits} {o : Oracle ServerSite} {s₀ : ServerState}
    (hlaunch : Server.launch m o = some s₀) (h : Run g R (launch g rateLimits s₀) a)
    (hreported : ∃ p k, .drainComplete p k ∈ a.server.notes) : Drained m g a := by
  obtain ⟨hrest, honward⟩ := h.server (Server.launch_rest hlaunch)
  exact
    { rest := hrest
      tracked := honward.tracked (Server.launch_unborn hlaunch).1
      done := .of_reported hrest (h.marked (Server.launch_marked hlaunch)) hreported
      safe := h.ready.1.safe
      agrees := h.agrees (launch_agrees hlaunch) }

/-- After the drain is reported, in every further run no connection is accepted, no exchange made
and no operation started, and of the operations that are outstanding each completes at most
once: their handlers start nothing, so that the event loop runs out of work. -/
theorem drained_winds_down {rateLimits : RouteRateLimits} {o : Oracle ServerSite}
    {s₀ : ServerState} (hlaunch : Server.launch m o = some s₀)
    (hbefore : Run g R (launch g rateLimits s₀) a)
    (hreported : ∃ p k, .drainComplete p k ∈ a.server.notes) (hafter : Run g R a b) :
    (∃ n, Completing g R a n b) ∧ ∀ n, Completing g R a n b → WindsDown n a b ∧ n ≤ work a := by
  refine ⟨hafter.completing, fun n hcompleting => ?_⟩
  have hwinds := (hcompleting.winds_down (hbefore.drained hlaunch hreported)).2
  have hwork := hwinds.work
  exact ⟨hwinds, by omega⟩

theorem drained_winds_down_read :
    WindsDown 1 drainedReading unread ∧ 1 ≤ work drainedReading := by
  have hagrees : Agrees drainedReading := agrees_of_one (by decide) (by decide)
    fun _ => ⟨rfl, rfl, rfl⟩
  have hbefore : Run oneChecked (fun _ => True) (launch oneChecked [none] Server.launched)
      drainedReading := by
    refine (connected_run trivial).tail (.server (.signal none, fun _ site => site = .drainCloses)
      [{ event := .session 0 .drain }] ?_ (fun _ _ => trivial) hagrees)
    simp [Gateway.Event.isCall]
  have hafter : Completing oneChecked (fun _ => True) drainedReading 1 unread := by
    refine Completing.own .refl lateRead rfl trivial ?_
    exact agrees_of_one (by decide) (by decide) fun _ => ⟨rfl, rfl, rfl⟩
  exact (drained_winds_down (o := Server.smooth) (m := 1) rfl hbefore
    ⟨.completed, 0, by decide⟩ hafter.run).2 1 hafter

end System

end ApiGate
