import ApiGate.BodyReservations
import ApiGate.GatewaySafety

/-!
# Reservations are exact

Between events the budget covers every permit, no two sessions look at one cell, and
whatever reads a body holds the reservation planned for it (`Balanced`). The ledger
carries that through a step; what else a step of the session could do to a body read of
its own is excluded by the mode: all its exchanges are over then, and nothing but the
read is under way.
-/

namespace ApiGate

open EventLoop Act Exchange

namespace Session

variable {gw : Gateway} {i k : Nat} {reading : Nat → Prop} {allowed : Prop} {g : Setup}
  {F F' : Site → Prop} {c : Context} {w w' w'' : World Session} {op : SessionOp}

/-! ## A body read that nothing disturbs -/

/-- The parser, the permit and the operations of the session are as they were. -/
structure SameRequest (w w' : World Session) : Prop where
  ops : w'.env.ops = w.env.ops
  parser : w'.env.parser = w.env.parser
  request : w'.env.requestBodyPermit = w.env.requestBodyPermit
  exchanges : ∀ k c, (w'.exs k).requestBodyPermit = some c →
    (w.exs k).requestBodyPermit = some c
  cells : ∀ c, w.env.requestBodyPermit = some c →
    (∀ k, (w.exs k).requestBodyPermit ≠ some c) →
    (w'.shared.cells c).permit = (w.shared.cells c).permit

theorem SameRequest.trans (h : SameRequest w w') (h' : SameRequest w' w'') :
    SameRequest w w'' where
  ops := h'.ops.trans h.ops
  parser := h'.parser.trans h.parser
  request := h'.request.trans h.request
  exchanges k c hc := h.exchanges k c (h'.exchanges k c hc)
  cells c hrequest hprivate := by
    have hrequest' : w'.env.requestBodyPermit = some c := h.request.trans hrequest
    rw [h'.cells c hrequest' fun k hk => hprivate k (h.exchanges k c hk)]
    exact h.cells c hrequest hprivate

theorem RequestReserved.same (h : RequestReserved allowed w) (hs : SameRequest w w') :
    RequestReserved allowed w' := by
  intro hmem
  rw [hs.ops] at hmem
  obtain ⟨hallowed, hops, parser, c, hparser, hrequest, hprivate, hpermit⟩ := h hmem
  refine ⟨hallowed, hs.ops.trans hops, parser, c, hs.parser.trans hparser,
    hs.request.trans hrequest, fun k hk => hprivate k (hs.exchanges k c hk), ?_⟩
  rw [hs.cells c hrequest hprivate]
  exact hpermit

theorem sameRequest_set (w : World Session) {f : Session → Session}
    (hops : (f w.env).ops = w.env.ops) (hparser : (f w.env).parser = w.env.parser)
    (hrequest : (f w.env).requestBodyPermit = w.env.requestBodyPermit) :
    SameRequest w (Session.set f w) :=
  ⟨hops, hparser, hrequest, fun _ _ hc => hc, fun _ _ _ => rfl⟩

theorem sameRequest_setEx (w : World Session) {f : Exchange → Exchange}
    (hrequest : (f (w.exs k)).requestBodyPermit = (w.exs k).requestBodyPermit) :
    SameRequest w (w.setEx k f) := by
  refine ⟨rfl, rfl, rfl, fun j c hc => ?_, fun _ _ _ => rfl⟩
  by_cases hjk : j = k
  · subst hjk
    rwa [World.setEx_same, hrequest] at hc
  · rwa [World.setEx_ne hjk] at hc

theorem sameRequest_cancelProxy (w : World Session) : SameRequest w (cancelProxy w) := by
  unfold cancelProxy
  cases w.env.proxyExchange with
  | none => exact ⟨rfl, rfl, rfl, fun _ _ hc => hc, fun _ _ _ => rfl⟩
  | some k =>
      have hcancelled := sameRequest_setEx w (sameHold_cancel (w.exs k)).request
      exact ⟨rfl, rfl, rfl, hcancelled.exchanges, fun _ _ _ => rfl⟩

theorem sameRequest_finish (w : World Session) : SameRequest w (finish w) := by
  unfold finish
  split
  · exact sameRequest_set w (f := id) rfl rfl rfl
  · exact sameRequest_set w rfl rfl rfl

theorem sameRequest_closeSocket (w : World Session) : SameRequest w (closeSocket w) := by
  unfold closeSocket
  split
  · exact sameRequest_set w (f := id) rfl rfl rfl
  · exact (sameRequest_cancelProxy w).trans (sameRequest_finish _)

theorem sameRequest_stop (w : World Session) : SameRequest w (stop w) := by
  unfold stop
  split
  · exact sameRequest_set w (f := id) rfl rfl rfl
  · have hset := sameRequest_set w (f := fun s => { s with stopping := true }) rfl rfl rfl
    exact (hset.trans (sameRequest_cancelProxy _)).trans (sameRequest_finish _)

theorem sameRequest_beginDrain (w : World Session) : SameRequest w (beginDrain w) := by
  unfold beginDrain
  split
  · exact sameRequest_set w (f := id) rfl rfl rfl
  · have hset := sameRequest_set w (f := fun s => { s with draining := true }) rfl rfl rfl
    dsimp only
    split
    · exact hset.trans (sameRequest_stop _)
    · exact hset
    · exact hset

theorem cells_dropCell {cell : Option Nat} {n : Nat} (hn : cell ≠ some n) (s : Shared) :
    (s.dropCell cell).cells n = s.cells n := by
  unfold Shared.dropCell
  cases cell with
  | none => rfl
  | some m =>
      have hne : n ≠ m := fun heq => hn (by rw [heq])
      dsimp only
      split <;> exact Function.update_of_ne hne ..

/-- What an exchange gives back is not the permit of the body that is read. -/
theorem sameRequest_destroyExchange (k : Nat) (w : World Session) :
    SameRequest w (destroyExchange k w) := by
  unfold destroyExchange
  split
  · refine ⟨rfl, rfl, rfl, fun j c hc => ?_, fun c _ hprivate => ?_⟩
    · by_cases hjk : j = k
      · subst hjk
        rw [World.setEx_same] at hc
        cases hc
      · rwa [World.setEx_ne hjk] at hc
    · exact congrArg PermitCell.permit (cells_dropCell (hprivate k) _)
  · exact sameRequest_set w (f := id) rfl rfl rfl

/-- Where a body is read there is something under way. -/
theorem destroy_of_read (hmem : .readBody ∈ w.env.ops) : destroy w = w := by
  unfold destroy
  rw [if_neg]
  intro hover
  rw [Bool.and_eq_true, List.isEmpty_iff] at hover
  rw [hover.2] at hmem
  cases hmem

/-! ## The mode of a reader -/

/-- A session that reads has no exchange that is not over. -/
theorem Steady.ended_of_read (h : Steady c F w) (hread : op = .readHeader ∨ op = .readBody)
    (hmem : op ∈ w.env.ops) (hk : k < w.nextExchange) : Ended (w.exs k) := by
  have hnone : w.env.proxyExchange = none := by
    cases hx : w.env.proxyExchange with
    | none => rfl
    | some k' =>
        have hp : w.env.proxyPermit = true := by rw [h.permit, hx]; rfl
        exact absurd hmem (h.no_read hp hread)
  rcases h with hidle | hrest
  · rw [hidle.next] at hk
    exact absurd hk (Nat.not_lt_zero k)
  · rcases hrest.exchanges k hk with hended | ⟨howned, -⟩
    · exact hended
    · rw [hnone] at howned
      cases howned

theorem Steady.reads_alone (h : Steady c F w) (hread : op = .readHeader ∨ op = .readBody)
    (hmem : op ∈ w.env.ops) (hf : w.env.finished = false) : w.env.ops = [op] := by
  rcases h with hidle | hrest
  · rw [hidle.env] at hmem
    cases hmem
  · cases hrest.mode with
    | gone hfinished =>
        rw [hf] at hfinished
        cases hfinished
    | reading op' _ _ _ hops _ _ =>
        rw [hops] at hmem ⊢
        rw [List.mem_singleton.mp hmem]
    | streaming k _ _ _ _ _ _ hw =>
        rcases hw with ⟨hops, -⟩ | ⟨final, hops | hops, -⟩
        · rw [hops] at hmem
          cases hmem
        all_goals
          rw [hops, List.mem_singleton] at hmem
          rcases hread with rfl | rfl <;> cases hmem
    | proxying _ _ _ _ hops | stuck _ _ _ _ hops =>
        rw [hops] at hmem
        cases hmem
    | handshaking _ _ _ hops | writing _ _ _ _ hops | closing _ _ _ hops =>
        rw [hops, List.mem_singleton] at hmem
        rcases hread with rfl | rfl <;> cases hmem

/-! ## A step of the session -/

/-- The reservation of a body, as it is planned, was not refused. -/
def Granted (budget : BufferBudgetControl) (contentLength : Option UInt64) (limit : UInt64) :
    Prop :=
  (budget.tryAcquire (contentLength.getD limit)).1.isSome = true

/-- When the session reads a body after `event`. -/
def ReadsRequest (w : World Session) (event : Event) : Prop :=
  .readBody ∈ w.env.ops ∨ ∃ x, event = .completion x ∧ x.op = .readHeader ∧ x.error = none
    ∧ Granted w.shared.budget x.parser.contentLength maxBodyBytes

/-- When exchange `k` reads a body after `event`. -/
def ReadsResponse (w : World Session) (event : Event) (k : Nat) : Prop :=
  .readBody ∈ (w.exs k).ops ∨ ∃ x, event = .exchange k x ∧ x.op = .readHeader ∧ x.error = none
    ∧ Granted w.shared.budget (x.receive (w.exs k)).parser.contentLength maxUpstreamBodyBytes

theorem Leaves.closeSocket (h : Leaves gw i reading allowed w) :
    Leaves gw i reading allowed (closeSocket w) :=
  ⟨h.ledger.closeSocket, h.request.same (sameRequest_closeSocket w)⟩

theorem Leaves.same (h : Leaves gw i reading allowed w) (hs : SameRequest w w')
    (hledger : Ledger gw i reading 1 0 w') : Leaves gw i reading allowed w' :=
  ⟨hledger, h.request.same hs⟩

/-- An operation of the session completes; no body is read any more. -/
theorem Leaves.receive (h : Leaves gw i reading allowed w) (x : Completion)
    (hop : x.op ∈ w.env.ops) : Ledger gw i reading 0 0 (Session.set x.receive w) := by
  refine h.ledger.recount rfl rfl rfl rfl rfl rfl ?_
  show (w.env.ops.erase x.op).count .readBody ≤ 0
  by_cases hmem : .readBody ∈ w.env.ops
  · obtain ⟨-, hops, -⟩ := h.request hmem
    rw [hops, List.mem_singleton] at hop
    rw [hops, hop]
    exact Nat.le_refl _
  · rw [List.count_eq_zero.mpr fun h' => hmem (List.mem_of_mem_erase h')]

/-- A walk that starts where the session reads no body. -/
theorem wp_leaves_of {m : SessionAct Unit} (h : Leaves gw i reading allowed w)
    (hnone : .readBody ∉ w.env.ops)
    (hm : Ledger gw i reading 0 0 w →
      wp F m (fun _ => Ledger gw i reading 0 0) (Ledger gw i reading 0 0) w) :
    wp F m (fun _ => Leaves gw i reading allowed) (Leaves gw i reading allowed) w :=
  wp_leaves (hm { h.ledger with reads := Nat.le_of_eq (List.count_eq_zero.mpr hnone) })

theorem leaves_completion (h : Leaves gw i reading allowed w) (hsteady : Steady c F' w)
    (hbelow : ∀ n, Refers (gw.view i) n → n < gw.shared.nextCell) {x : Completion}
    (hop : x.op ∈ w.env.ops) (hallowed : x.op = .readHeader → x.error = none →
      Granted w.shared.budget x.parser.contentLength maxBodyBytes → allowed) :
    wp F (handler g x) (fun _ => Leaves gw i reading allowed) (Leaves gw i reading allowed)
      (Session.set x.receive w) := by
  have hreceived := h.receive x hop
  unfold handler
  cases hx : x.op with
  | handshake => exact wp_leaves (saves_session_runHandler (saves_onHandshake hreceived _))
  | readHeader =>
      rw [hx] at hop
      have hops : w.env.finished = false → (Session.set x.receive w).env.ops = [] := by
        intro hf
        show w.env.ops.erase x.op = []
        rw [hsteady.reads_alone (Or.inl rfl) hop hf, hx]
        simp
      have hasked : ∀ parser, (Session.set x.receive w).env.parser = some parser →
          x.error = none → (w.shared.budget.tryAcquire
            (parser.contentLength.getD maxBodyBytes)).1.isSome = true → allowed := by
        intro parser hparser herror hgranted
        have hread : (w.env.parser.map fun _ => x.parser) = some parser := by
          simpa [Session.set, Completion.receive, hx] using hparser
        rw [Option.map_eq_some_iff] at hread
        obtain ⟨-, -, rfl⟩ := hread
        exact hallowed hx herror hgranted
      refine wp_tryCatch (wp_mono (leaves_onReadHeader hreceived hops hbelow hasked)
        (fun _ _ h' => h') ?_)
      exact fun _ h' => wp_modify.mpr h'.closeSocket
  | readBody => exact wp_leaves (saves_session_runHandler (saves_onReadBody hreceived _))
  | write closeAfterWrite =>
      exact wp_leaves (saves_session_runHandler (saves_onWrite hreceived _ _))
  | streamHeader k final => exact wp_leaves (saves_onStreamWritten hreceived _ _)
  | streamBody k final => exact wp_leaves (saves_onStreamWritten hreceived _ _)
  | shutdown => exact wp_leaves (saves_onShutdown hreceived)

/-- An exchange of a session that reads a body is over, so nothing comes of its
completions. -/
theorem leaves_exchange (h : Leaves gw i reading allowed w) (hsteady : Steady c F' w)
    (hk : k < w.nextExchange) {x : Exchange.Completion}
    (hgranted : x.op = .readHeader → x.error = none →
      Granted w.shared.budget (x.receive (w.exs k)).parser.contentLength maxUpstreamBodyBytes →
      reading k) :
    wp F (dispatch (endCallbacks g) g.lib (streamCallbacks g) k x)
      (fun _ => Leaves gw i reading allowed) (Leaves gw i reading allowed) w := by
  by_cases hread : .readBody ∈ w.env.ops
  · have hended := hsteady.ended_of_read (Or.inr rfl) hread hk
    refine wp_mono (wp_and (wp_dispatch_ended hended x)
      (saves_dispatch (R := fun _ => True) h.ledger hgranted)) ?_ fun _ hf => hf.1.elim
    rintro _ w' ⟨rfl | rfl, hledger⟩
    · exact h
    · exact h.same (sameRequest_setEx w (receive_holds x (w.exs k)).2.2.1) hledger
  · exact wp_leaves_of h hread fun h' => saves_dispatch h' hgranted

/-- What a step of the session leaves behind: the ledger in order, and a body read only
where it was before or where a reservation was granted for it. -/
theorem leaves_handle {event : Event}
    (h : Leaves gw i (ReadsResponse w event) (ReadsRequest w event) w)
    (hsteady : Steady c F' w) (hbelow : ∀ n, Refers (gw.view i) n → n < gw.shared.nextCell) :
    wp F (handle g event) (fun _ => Leaves gw i (ReadsResponse w event) (ReadsRequest w event))
      (Leaves gw i (ReadsResponse w event) (ReadsRequest w event)) w := by
  unfold handle
  cases event with
  | start =>
      simp only [wp_get_bind]
      split
      · exact wp_pure.mpr h
      · rename_i hstarted
        have hnone : .readBody ∉ w.env.ops := by
          rcases hsteady with hidle | hrest
          · rw [hidle.env]
            simp
          · exact absurd hrest.started hstarted
        refine wp_leaves_of h hnone fun h' => ?_
        simp only [wp_modify_bind]
        refine wp_tryCatch (wp_mono (saves_start (h'.set rfl rfl rfl)) (fun _ _ h'' => h'') ?_)
        exact fun _ h'' => wp_modify.mpr h''.stop
  | completion x =>
      simp only [wp_get_bind]
      split
      · rename_i hfits
        rw [Bool.and_eq_true, decide_eq_true_eq] at hfits
        simp only [wp_modify_bind]
        refine leaves_completion h hsteady hbelow hfits.1 ?_
        exact fun hop herror hgranted => Or.inr ⟨x, rfl, hop, herror, hgranted⟩
      · exact wp_pure.mpr h
  | exchange k x =>
      simp only [wp_get_bind]
      split
      · rename_i hk
        refine leaves_exchange h hsteady hk ?_
        exact fun hop herror hgranted => Or.inr ⟨x, rfl, hop, herror, hgranted⟩
      · exact wp_pure.mpr h
  | drain =>
      simp only [wp_get_bind]
      split
      · exact wp_modify.mpr (h.same (sameRequest_beginDrain w) h.ledger.beginDrain)
      · exact wp_pure.mpr h
  | stop =>
      simp only [wp_get_bind]
      split
      · exact wp_modify.mpr (h.same (sameRequest_stop w) h.ledger.stop)
      · exact wp_pure.mpr h
  | destroyExchange k =>
      exact wp_modify.mpr (h.same (sameRequest_destroyExchange k w) (h.ledger.destroyExchange k))
  | destroy =>
      by_cases hread : .readBody ∈ w.env.ops
      · refine wp_modify.mpr ?_
        rw [destroy_of_read hread]
        exact h
      · exact wp_leaves_of h hread fun h' => wp_modify.mpr h'.destroy

end Session

/-! ## All sessions -/

namespace Gateway

variable {gw : Gateway} {i k : Nat} {reading : Nat → Prop} {allowed : Prop} {g : Setup}
  {w : World Session}

/-- The invariant between events. -/
structure Balanced (gw : Gateway) : Prop where
  covered : Covered 0 gw.shared.budget gw.permitAt
  below : ∀ i n, Session.Refers (gw.view i) n → n < gw.shared.nextCell
  apart : ∀ i j n, Session.Refers (gw.view i) n → Session.Refers (gw.view j) n → i = j
  requests : ∀ i, Session.RequestReserved True (gw.view i)
  exchanges : ∀ i k, Exchange.Reserved True ((gw.locals i).exs k)

theorem put_view (i : Nat) (gw : Gateway) : gw.put i (gw.view i) = gw := by
  simp [put, view]

/-- What a step of session `i` starts from. -/
theorem Balanced.leaves (h : Balanced gw) (i : Nat) (event : Session.Event) :
    Session.Leaves gw i (Session.ReadsResponse (gw.view i) event)
      (Session.ReadsRequest (gw.view i) event) (gw.view i) where
  ledger :=
    { covered := by
        rw [put_view]
        exact h.covered
      grown := Nat.le_refl _
      refers := fun _ hn => Or.inl hn
      foreign := fun _ _ _ => rfl
      reads := by
        by_cases hread : .readBody ∈ (gw.view i).env.ops
        · obtain ⟨-, hops, -⟩ := h.requests i hread
          rw [hops]
          exact Nat.le_refl _
        · rw [List.count_eq_zero.mpr hread]
          exact Nat.zero_le _
      exchanges := fun k =>
        { single := (h.exchanges i k).single
          reserved := (h.exchanges i k).reserved
          granted := Or.inl } }
  request := fun hread => ⟨Or.inl hread, (h.requests i hread).2⟩

/-- The cells of the other sessions are as they were. -/
theorem Balanced.requests_ne (h : Balanced gw) (hw : Session.Leaves gw i reading allowed w)
    {j : Nat} (hji : j ≠ i) : Session.RequestReserved True ((gw.put i w).view j) := by
  refine (h.requests j).same ?_
  rw [view_put_ne hji]
  refine ⟨rfl, rfl, rfl, fun _ _ hc => hc, fun n hn _ => ?_⟩
  have hrefers : Session.Refers (gw.view j) n := Or.inl hn
  refine congrArg PermitCell.permit (hw.ledger.foreign n (h.below j n hrefers) fun hi => ?_)
  exact hji (h.apart j i n hrefers hi)

/-- Session `i` has made a step. -/
theorem Balanced.put (h : Balanced gw) (hw : Session.Leaves gw i reading allowed w) :
    Balanced (gw.put i w) := by
  have hsame : ∀ {n}, Session.Refers ((gw.put i w).view i) n → Session.Refers w n := by
    intro n hn
    rwa [view_put_same] at hn
  have hother : ∀ {j n}, j ≠ i → Session.Refers ((gw.put i w).view j) n →
      Session.Refers (gw.view j) n := by
    intro j n hji hn
    rw [view_put_ne hji] at hn
    exact hn
  -- what session `i` refers to, the others do not
  have hapart : ∀ {j n}, j ≠ i → Session.Refers w n → Session.Refers (gw.view j) n → False := by
    intro j n hji hw' hj
    rcases hw.ledger.refers n hw' with hi | ⟨hge, -⟩
    · exact hji (h.apart j i n hj hi)
    · exact absurd (h.below j n hj) (Nat.not_lt.mpr hge)
  refine ⟨hw.ledger.covered, fun j n hn => ?_, fun j j' n hn hn' => ?_, fun j => ?_,
    fun j k => ?_⟩
  · show n < w.shared.nextCell
    by_cases hji : j = i
    · subst hji
      rcases hw.ledger.refers n (hsame hn) with hview | ⟨-, hlt⟩
      · exact Nat.lt_of_lt_of_le (h.below j n hview) hw.ledger.grown
      · exact hlt
    · exact Nat.lt_of_lt_of_le (h.below j n (hother hji hn)) hw.ledger.grown
  · by_cases hji : j = i
    · subst hji
      by_cases hji' : j' = j
      · exact hji'.symm
      · exact (hapart hji' (hsame hn) (hother hji' hn')).elim
    · by_cases hji' : j' = i
      · subst hji'
        exact (hapart hji (hsame hn') (hother hji hn)).elim
      · exact h.apart j j' n (hother hji hn) (hother hji' hn')
  · by_cases hji : j = i
    · subst hji
      rw [view_put_same]
      exact fun hread => ⟨trivial, (hw.request hread).2⟩
    · exact h.requests_ne hw hji
  · by_cases hji : j = i
    · subst hji
      have hreserved := hw.ledger.exchanges k
      have hexs : ((gw.put j w).locals j).exs k = w.exs k := by simp [Gateway.put]
      rw [hexs]
      exact ⟨hreserved.single, hreserved.reserved, fun _ => trivial⟩
    · have hexs : ((gw.put i w).locals j).exs k = (gw.locals j).exs k := by
        simp [Gateway.put, Function.update_of_ne hji]
      rw [hexs]
      exact h.exchanges j k

/-- A change of the shared state that concerns neither the budget nor a cell. -/
theorem Balanced.reshare (h : Balanced gw) {s : Shared} (hbudget : s.budget = gw.shared.budget)
    (hcells : s.cells = gw.shared.cells) (hnext : s.nextCell = gw.shared.nextCell) :
    Balanced { gw with shared := s } where
  covered := by
    have hsame : ({ gw with shared := s } : Gateway).permitAt = gw.permitAt := by
      funext place
      cases place with
      | cell n => exact congrArg (fun cells => (cells n).permit) hcells
      | _ => rfl
    rw [hsame]
    show Covered 0 s.budget gw.permitAt
    rw [hbudget]
    exact h.covered
  below i n hn := by
    show n < s.nextCell
    rw [hnext]
    exact h.below i n hn
  apart := h.apart
  requests i := (h.requests i).same
    ⟨rfl, rfl, rfl, fun _ _ hc => hc, fun n _ _ => congrArg (fun cells => (cells n).permit) hcells⟩
  exchanges := h.exchanges

theorem Balanced.tick (h : Balanced gw) (now : TimePoint) : Balanced (gw.tick now) :=
  h.reshare rfl rfl rfl

/-- The ledger after a step of session `i`. -/
theorem step_leaves (hsafe : Safe g (fun _ => False) gw) (h : Balanced gw) (i : Nat)
    (event : Session.Event) (now : TimePoint) (o : Oracle Site) :
    ∃ w, step g ⟨.session i event, now, o⟩ gw = (gw.tick now).put i w
      ∧ Session.Leaves (gw.tick now) i (Session.ReadsResponse ((gw.tick now).view i) event)
        (Session.ReadsRequest ((gw.tick now).view i) event) w := by
  obtain ⟨live, hinv⟩ := hsafe
  have htick := h.tick now
  have hwp := Session.leaves_handle (g := g) (F := fun _ => False) (htick.leaves i event)
    ((hinv.tick now).steady i) (htick.below i)
  refine exec_of_wp (P := fun gw' => ∃ w, gw' = (gw.tick now).put i w
    ∧ Session.Leaves (gw.tick now) i _ _ w) (admissible_none o) ?_
  exact wp_zoom (wp_mono hwp (fun _ w hw => ⟨w, rfl, hw⟩) fun w hw => ⟨w, rfl, hw⟩)

theorem step_balanced (hsafe : Safe g (fun _ => False) gw) (h : Balanced gw) (input : Input) :
    Balanced (step g input gw) := by
  obtain ⟨event, now, o⟩ := input
  have htick := h.tick now
  cases event with
  | session i event =>
      obtain ⟨w, hstep, hw⟩ := step_leaves hsafe h i event now o
      rw [hstep]
      exact htick.put hw
  | probe route upstream success => exact htick.reshare rfl rfl rfl
  | cleanup error fails => exact htick.reshare rfl rfl rfl
  | stopPool => exact htick.reshare rfl rfl rfl

theorem launch_balanced (g : Setup) (rateLimits : RouteRateLimits) :
    Balanced (launch g rateLimits) := by
  have hnothing : ∀ i n, ¬Session.Refers ((launch g rateLimits).view i) n := by
    rintro i n (hn | ⟨k, hn⟩) <;> cases hn
  refine ⟨⟨UInt64.zero_le, fun live => ?_⟩, fun i n hn => absurd hn (hnothing i n),
    fun i _ n hn => absurd hn (hnothing i n),
    fun i => Session.requestReserved_of_noRead (List.not_mem_nil),
    fun _ _ => Exchange.reserved_of_noStage rfl⟩
  have hempty : ∀ place ∈ live, ((launch g rateLimits).permitAt place).held = 0 := by
    intro place _
    cases place <;> rfl
  rw [Finset.sum_eq_zero hempty]
  exact Nat.zero_le _

theorem after_balanced (g : Setup) (rateLimits : RouteRateLimits) (inputs : List Input) :
    Balanced (after g rateLimits inputs) := by
  refine (run_invariant_all (fun gw => Safe g (fun _ => False) gw ∧ Balanced gw) ?_ ?_ inputs).2
  · exact fun input gw h => ⟨step_safe h.1 input (admissible_none _), step_balanced h.1 h.2 input⟩
  · exact ⟨launch_safe g _ rateLimits, launch_balanced g rateLimits⟩

end Gateway

/-! ## What Beast delivers -/

/-- What a parser may hold while it reads a body: no more than `Content-Length` bytes, or
than the limit. -/
def MayHold (contentLength : Option UInt64) (limit : UInt64) (size : Nat) : Prop :=
  match contentLength with
  | some n => size ≤ n.toNat
  | none => size ≤ limit.toNat

/-- What it holds after a read that went well: exactly `Content-Length` bytes, or at most
the limit. -/
def HasDelivered (contentLength : Option UInt64) (limit : UInt64) (size : Nat) : Prop :=
  match contentLength with
  | some n => size = n.toNat
  | none => size ≤ limit.toNat

theorem MayHold.le {contentLength : Option UInt64} {limit : UInt64} {size : Nat}
    (h : MayHold contentLength limit size) : size ≤ (contentLength.getD limit).toNat := by
  cases contentLength <;> exact h

theorem HasDelivered.mayHold {contentLength : Option UInt64} {limit : UInt64} {size : Nat}
    (h : HasDelivered contentLength limit size) : MayHold contentLength limit size := by
  cases contentLength with
  | none => exact h
  | some n => exact Nat.le_of_eq h

/-- The permit covers the body while it is read, and shrinks to it once it was. -/
structure ReservedExactly (budget : BufferBudgetControl) (permit : BufferBudgetPermit)
    (contentLength : Option UInt64) (limit : UInt64) : Prop where
  owned : permit.control = true
  covers : ∀ size, MayHold contentLength limit size → size ≤ permit.bytes.toNat
  shrinks : ∀ size, HasDelivered contentLength limit size → ∃ permit' budget',
    permit.shrinkTo (UInt64.ofNat size) budget = (true, permit', budget')
      ∧ permit'.control = true ∧ permit'.bytes.toNat = size

/-- So does the permit that was planned, wherever it lies. -/
theorem Covered.reservedExactly {Place : Type} [DecidableEq Place]
    {budget : BufferBudgetControl} {permit : Place → BufferBudgetPermit}
    (h : Covered 0 budget permit) (place : Place) {contentLength : Option UInt64}
    {limit : UInt64} (hpermit : permit place = ⟨true, contentLength.getD limit⟩) :
    ReservedExactly budget (permit place) contentLength limit := by
  have htaken : Covered (0 + (permit place).held) budget (Function.update permit place {}) :=
    h.swap (p := {}) place
  rw [hpermit] at htaken ⊢
  refine ⟨rfl, fun _ hsize => hsize.le, fun size hsize => ?_⟩
  have hle := hsize.mayHold.le
  have hlt := (contentLength.getD limit).toNat_lt
  have hnat : (UInt64.ofNat size).toNat = size := UInt64.toNat_ofNat_of_lt' (by
    rw [UInt64.size]
    omega)
  have hfits : UInt64.ofNat size ≤ contentLength.getD limit := by
    rw [UInt64.le_iff_toNat_le, hnat]
    exact hle
  obtain ⟨budget', hshrunk, -⟩ := htaken.shrinkTo rfl hfits
  exact ⟨_, budget', hshrunk, rfl, hnat⟩

namespace Session

theorem shrinkRequest_of_shrinks {w : World Session} {parser : RequestParser} {n : Nat}
    {permit : BufferBudgetPermit} {budget : BufferBudgetControl}
    (hparser : w.env.parser = some parser) (hrequest : w.env.requestBodyPermit = some n)
    (hshrunk : (w.shared.cells n).permit.shrinkTo
      (UInt64.ofNat parser.request.body.length) w.shared.budget = (true, permit, budget)) :
    ∃ w', shrinkRequest w = some w' ∧ (w'.shared.cells n).permit = permit := by
  unfold shrinkRequest
  rw [hparser, hrequest]
  dsimp only
  rw [hshrunk]
  refine ⟨_, rfl, ?_⟩
  simp [World.setShared]

/-- After a shrink that goes well the request is processed. -/
theorem onReadBody_shrunk {w w' : World Session} (hf : w.env.finished = false)
    (hshrunk : shrinkRequest w = some w') (g : Setup) (o : Oracle Site) :
    onReadBody g none o w = processRequest g o w' := by
  unfold onReadBody
  rw [get_bind_apply]
  simp only [hf, hshrunk, Bool.false_eq_true, if_false]
  exact modify_bind_apply o w

end Session

/-- After a shrink that goes well the response is finished. -/
theorem Exchange.onReadBody_shrunk {w : World Session} {k : Nat} {cb : EndCallbacks Session}
    {lib : Library} {permit : BufferBudgetPermit} {budget : BufferBudgetControl}
    (hobserved : (w.exs k).observed = false)
    (hshrunk : (w.exs k).responseBodyPermit.shrinkTo
      (UInt64.ofNat (w.exs k).parser.response.body.length) w.shared.budget
        = (true, permit, budget)) (o : Oracle Site) :
    Exchange.onReadBody cb lib k none o w
      = finishResponse cb lib k o (World.setEx k (fun x => { x with responseBodyPermit := permit })
          ((w.setEx k finishDeadline).setShared fun s => { s with budget })) := by
  unfold Exchange.onReadBody
  rw [get_bind_apply]
  simp only [hobserved, hshrunk, Bool.false_eq_true, if_false, Option.isSome_none]
  exact modify_bind_apply o w

namespace Gateway

variable (g : Setup) (gw : Gateway) (i k : Nat)

/-- Session `i` reads a body into a parser, under a permit that covers it; and when the
read goes well, `on_read_body` finds the permit to shrink to the body and goes on with
the request. -/
def RequestExact : Prop :=
  ∃ parser n, (gw.session i).parser = some parser ∧ (gw.session i).requestBodyPermit = some n
    ∧ ReservedExactly gw.shared.budget (gw.shared.cells n).permit parser.contentLength
        maxBodyBytes
    ∧ ∀ (x : Session.Completion) (now : TimePoint), x.op = .readBody → x.error = none →
        HasDelivered parser.contentLength maxBodyBytes x.parser.request.body.length →
        ∃ w', (w'.shared.cells n).permit.control = true
          ∧ (w'.shared.cells n).permit.bytes.toNat = x.parser.request.body.length
          ∧ ((gw.session i).finished = false → ∀ o,
              Session.onReadBody g x.error o (Session.set x.receive ((gw.tick now).view i))
                = Session.processRequest g o w')

/-- The same for exchange `k` of the session and the body of its response. -/
def ResponseExact : Prop :=
  let x := (gw.locals i).exs k
  ReservedExactly gw.shared.budget x.responseBodyPermit x.parser.contentLength
      maxUpstreamBodyBytes
    ∧ ∀ (c : Exchange.Completion) (now : TimePoint), c.op = .readBody → c.error = none →
        HasDelivered x.parser.contentLength maxUpstreamBodyBytes
          (c.receive x).parser.response.body.length →
        ∃ w', (w'.exs k).responseBodyPermit.control = true
          ∧ (w'.exs k).responseBodyPermit.bytes.toNat
              = (c.receive x).parser.response.body.length
          ∧ ((c.receive x).observed = false → ∀ o,
              Exchange.onReadBody (Session.endCallbacks g) g.lib k c.error o
                  (((gw.tick now).view i).setEx k c.receive)
                = finishResponse (Session.endCallbacks g) g.lib k o w')

variable {g gw i k}

theorem Balanced.requestExact (h : Balanced gw) (hread : .readBody ∈ (gw.session i).ops) :
    RequestExact g gw i := by
  obtain ⟨-, -, parser, n, hparser, hrequest, -, hpermit⟩ := h.requests i hread
  have hexact := h.covered.reservedExactly (.cell n) hpermit
  refine ⟨parser, n, hparser, hrequest, hexact, fun x now hop herror hbody => ?_⟩
  obtain ⟨permit, budget, hshrunk, howned, hbytes⟩ := hexact.shrinks _ hbody
  have hreceived : (Session.set x.receive ((gw.tick now).view i)).env.parser
      = some x.parser := by
    show (if x.op = .readHeader || x.op = .readBody then
      ((gw.tick now).view i).env.parser.map fun _ => x.parser else _) = _
    rw [hop, show ((gw.tick now).view i).env.parser = some parser from hparser]
    rfl
  obtain ⟨w', hfound, hat⟩ := Session.shrinkRequest_of_shrinks hreceived hrequest hshrunk
  refine ⟨w', ?_, ?_, fun hf o => ?_⟩
  · rw [hat]
    exact howned
  · rw [hat]
    exact hbytes
  · rw [herror]
    exact Session.onReadBody_shrunk hf hfound g o

theorem Balanced.responseExact (h : Balanced gw)
    (hread : .readBody ∈ ((gw.locals i).exs k).ops) : ResponseExact g gw i k := by
  have hexact := h.covered.reservedExactly (.body i k)
    ((h.exchanges i k).reserved hread)
  refine ⟨hexact, fun c now hop herror hbody => ?_⟩
  obtain ⟨permit, budget, hshrunk, howned, hbytes⟩ := hexact.shrinks _ hbody
  have hreceived := World.setEx_same k c.receive ((gw.tick now).view i)
  have hshrunk' : ((((gw.tick now).view i).setEx k c.receive).exs k).responseBodyPermit.shrinkTo
      (UInt64.ofNat ((((gw.tick now).view i).setEx k c.receive).exs k).parser.response.body.length)
      gw.shared.budget = (true, permit, budget) := by
    rw [hreceived, (receive_holds c _).1]
    exact hshrunk
  refine ⟨World.setEx k (fun x => { x with responseBodyPermit := permit })
    (((((gw.tick now).view i).setEx k c.receive).setEx k finishDeadline).setShared fun s =>
      { s with budget }), ?_, ?_, fun hobserved o => ?_⟩
  · rw [World.setEx_same]
    exact howned
  · rw [World.setEx_same]
    exact hbytes
  · rw [herror]
    refine Exchange.onReadBody_shrunk ?_ hshrunk' o
    rw [hreceived]
    exact hobserved

/-- No body of a request is read unless its reservation was granted. -/
theorem reads_request (hsafe : Safe g (fun _ => False) gw) (h : Balanced gw) (input : Input)
    (hread : .readBody ∈ ((step g input gw).session i).ops) :
    .readBody ∈ (gw.session i).ops ∨ ∃ x, input.event = .session i (.completion x)
      ∧ x.op = .readHeader ∧ x.error = none
      ∧ Session.Granted gw.shared.budget x.parser.contentLength maxBodyBytes := by
  obtain ⟨event, now, o⟩ := input
  cases event with
  | session j event =>
      obtain ⟨w, hstep, hw⟩ := step_leaves hsafe h j event now o
      rw [hstep] at hread
      by_cases hij : i = j
      · subst hij
        have henv : ((gw.tick now).put i w).session i = w.env := by simp [session, put]
        rw [henv] at hread
        obtain ⟨hasked, -⟩ := hw.request hread
        rcases hasked with hbefore | ⟨x, rfl, hx⟩
        · exact Or.inl hbefore
        · exact Or.inr ⟨x, rfl, hx⟩
      · have henv : ((gw.tick now).put j w).session i = gw.session i := by
          simp [session, put, tick, hij]
        rw [henv] at hread
        exact Or.inl hread
  | probe route upstream success => exact Or.inl hread
  | cleanup error fails => exact Or.inl hread
  | stopPool => exact Or.inl hread

/-- Nor the body of a response. -/
theorem reads_response (hsafe : Safe g (fun _ => False) gw) (h : Balanced gw) (input : Input)
    (hread : .readBody ∈ (((step g input gw).locals i).exs k).ops) :
    .readBody ∈ ((gw.locals i).exs k).ops ∨ ∃ c, input.event = .session i (.exchange k c)
      ∧ c.op = .readHeader ∧ c.error = none
      ∧ Session.Granted gw.shared.budget
          (c.receive ((gw.locals i).exs k)).parser.contentLength maxUpstreamBodyBytes := by
  obtain ⟨event, now, o⟩ := input
  cases event with
  | session j event =>
      obtain ⟨w, hstep, hw⟩ := step_leaves hsafe h j event now o
      rw [hstep] at hread
      by_cases hij : i = j
      · subst hij
        have hexs : ((gw.tick now).put i w).locals i = ⟨w.exs, w.nextExchange, w.env⟩ := by
          simp [put]
        rw [hexs] at hread
        rcases (hw.ledger.exchanges k).granted hread with hbefore | ⟨c, rfl, hc⟩
        · exact Or.inl hbefore
        · exact Or.inr ⟨c, rfl, hc⟩
      · have hexs : ((gw.tick now).put j w).locals i = gw.locals i := by
          simp [put, tick, hij]
        rw [hexs] at hread
        exact Or.inl hread
  | probe route upstream success => exact Or.inl hread
  | cleanup error fails => exact Or.inl hread
  | stopPool => exact Or.inl hread

/-- In every run, whatever the budget is and whoever shares it: while a body of a request
or of a response is read, the reservation covers all that the parser may hold; when the
read goes well, the permit shrinks to exactly the body, and the handler goes on; and a
read is started only where the reservation was granted. -/
theorem body_reservations_exact (g : Setup) (rateLimits : RouteRateLimits)
    (inputs : List Input) :
    let gw := after g rateLimits inputs
    (∀ i, .readBody ∈ (gw.session i).ops → RequestExact g gw i)
      ∧ (∀ i k, .readBody ∈ ((gw.locals i).exs k).ops → ResponseExact g gw i k)
      ∧ (∀ input i, .readBody ∈ ((step g input gw).session i).ops →
          .readBody ∈ (gw.session i).ops ∨ ∃ x, input.event = .session i (.completion x)
            ∧ x.op = .readHeader ∧ x.error = none
            ∧ Session.Granted gw.shared.budget x.parser.contentLength maxBodyBytes)
      ∧ ∀ input i k, .readBody ∈ (((step g input gw).locals i).exs k).ops →
          .readBody ∈ ((gw.locals i).exs k).ops ∨ ∃ c, input.event = .session i (.exchange k c)
            ∧ c.op = .readHeader ∧ c.error = none
            ∧ Session.Granted gw.shared.budget
                (c.receive ((gw.locals i).exs k)).parser.contentLength maxUpstreamBodyBytes := by
  intro gw
  have hsafe : Safe g (fun _ => False) gw := after_safe_all g rateLimits inputs
  have hbalanced : Balanced gw := after_balanced g rateLimits inputs
  exact ⟨fun i hread => hbalanced.requestExact hread,
    fun i k hread => hbalanced.responseExact hread,
    fun input i hread => reads_request hsafe hbalanced input hread,
    fun input i k hread => reads_response hsafe hbalanced input hread⟩

/-- A POST with three bytes, of which none has come yet. -/
def posted : Input :=
  { event := .session 0 (.completion
      { op := .readHeader
        parser := { request := { method := .post, target := "/".toList },
                    contentLength := some 3 } }) }

/-- A POST whose body is on its way, and a GET whose answer is. -/
theorem body_reservations_exact_reads :
    RequestExact oneProxy (after oneProxy [] [accepted 0, posted]) 0
      ∧ ResponseExact oneProxy (after oneProxy [] [accepted 0, requested 0,
          progressed .resolve .nothing, progressed .connect .nothing, progressed .write .nothing,
          progressed .readHeader (.header { response := { status := 200 },
                                            contentLength := some 5 })]) 0 0 :=
  ⟨(body_reservations_exact oneProxy [] _).1 0 (by decide),
    (body_reservations_exact oneProxy [] _).2.1 0 0 (by decide)⟩

end Gateway

end ApiGate
