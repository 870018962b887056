import ApiGate.Reservations

/-!
# The ledger of a step

`Ledger` is what holds at every moment of a step of session `i`, also halfway through a
handler: the budget covers the permits of all sessions; the session has let the cells of
the others alone; it has started no body read since the step began; and every exchange
that reads a body holds the reservation planned for it. There is a rule for each kind of
update that the handlers make.
-/

namespace ApiGate

open EventLoop Act

/-- A plan that reserves: the body is not there yet, and what is reserved is its length,
or else the limit. -/
theorem planBodyReservation_reserve {contentLength : Option UInt64} {messageComplete : Bool}
    {bodyLimit : UInt64}
    (h : (planBodyReservation contentLength messageComplete bodyLimit).kind = .reserve) :
    (planBodyReservation contentLength messageComplete bodyLimit).bytes
      = contentLength.getD bodyLimit := by
  unfold planBodyReservation at h ⊢
  split at h
  · cases h
  · split at h
    · cases h
    · rw [if_neg ‹_›, if_neg ‹_›]

/-! ## Exchanges -/

namespace Exchange

/-- One stage at a time; a body is read under the reservation planned for it, and only
if it is `allowed`. -/
structure Reserved (allowed : Prop) (x : Exchange) : Prop where
  single : x.stages ≤ 1
  reserved : .readBody ∈ x.ops →
    x.responseBodyPermit = ⟨true, x.parser.contentLength.getD maxUpstreamBodyBytes⟩
  granted : .readBody ∈ x.ops → allowed

/-- An update that concerns no permit. -/
structure SameHold (x x' : Exchange) : Prop where
  response : x'.responseBodyPermit = x.responseBodyPermit
  stream : x'.streamPermit = x.streamPermit
  request : x'.requestBodyPermit = x.requestBodyPermit
  length : x'.parser.contentLength = x.parser.contentLength
  stages : x'.stages ≤ x.stages
  body : .readBody ∈ x'.ops → .readBody ∈ x.ops

variable {allowed : Prop} {x x' x'' : Exchange}

theorem SameHold.of_eq (hresponse : x'.responseBodyPermit = x.responseBodyPermit)
    (hstream : x'.streamPermit = x.streamPermit)
    (hrequest : x'.requestBodyPermit = x.requestBodyPermit) (hparser : x'.parser = x.parser)
    (hops : x'.ops = x.ops) : SameHold x x' where
  response := hresponse
  stream := hstream
  request := hrequest
  length := by rw [hparser]
  stages := by
    unfold Exchange.stages
    rw [hops]
  body := by
    rw [hops]
    exact id

theorem SameHold.trans (h : SameHold x x') (h' : SameHold x' x'') : SameHold x x'' where
  response := h'.response.trans h.response
  stream := h'.stream.trans h.stream
  request := h'.request.trans h.request
  length := h'.length.trans h.length
  stages := Nat.le_trans h'.stages h.stages
  body := fun hmem => h.body (h'.body hmem)

theorem sameHold_finishDeadline (x : Exchange) : SameHold x x.finishDeadline :=
  .of_eq rfl rfl rfl rfl rfl

theorem sameHold_cancelOperations (x : Exchange) : SameHold x x.cancelOperations := by
  unfold cancelOperations closeUpstream
  split <;> exact .of_eq rfl rfl rfl rfl rfl

theorem sameHold_closeUpstream (x : Exchange) : SameHold x x.closeUpstream := by
  unfold closeUpstream
  split <;> exact .of_eq rfl rfl rfl rfl rfl

theorem sameHold_cancel (x : Exchange) : SameHold x x.cancel := by
  unfold cancel
  split
  · exact .of_eq rfl rfl rfl rfl rfl
  · have hclaimed : SameHold x { x.claim with onComplete := false, onAbort := false } :=
      .of_eq rfl rfl rfl rfl rfl
    exact hclaimed.trans (sameHold_cancelOperations _)

theorem sameHold_expire (generation : Nat) (x : Exchange) : SameHold x (x.expire generation) := by
  unfold expire
  split <;> exact .of_eq rfl rfl rfl rfl rfl

/-- An operation that is not a stage. -/
theorem sameHold_addOp {op : ExchangeOp} (hop : preStream op = false) (x : Exchange) :
    SameHold x (x.addOp op) where
  response := rfl
  stream := rfl
  request := rfl
  length := rfl
  stages := Nat.le_of_eq (List.countP_cons_of_neg (by simp [hop]))
  body hmem := by
    rcases List.mem_cons.mp hmem with rfl | hmem
    · cases hop
    · exact hmem

theorem not_mem_readBody (hz : x.stages = 0) : .readBody ∉ x.ops := by
  intro hmem
  have hpos : 0 < x.ops.countP preStream := List.countP_pos_iff.mpr ⟨_, hmem, rfl⟩
  exact absurd hz (Nat.ne_of_gt hpos)

theorem Reserved.same (h : Reserved allowed x) (hs : SameHold x x') : Reserved allowed x' where
  single := Nat.le_trans hs.stages h.single
  reserved hmem := by
    rw [hs.response, hs.length]
    exact h.reserved (hs.body hmem)
  granted hmem := h.granted (hs.body hmem)

/-- A stage where there is none. -/
theorem reserved_addStage (hz : x.stages = 0) {op : ExchangeOp} (hop : op ≠ .readBody) :
    Reserved allowed (x.addOp op) where
  single := by
    have hle : (op :: x.ops).countP preStream ≤ x.ops.countP preStream + 1 := by
      rw [List.countP_cons]
      split <;> omega
    exact Nat.le_trans hle (by rw [show x.ops.countP preStream = 0 from hz])
  reserved hmem := by
    rcases List.mem_cons.mp hmem with heq | hmem
    · exact absurd heq.symm hop
    · exact absurd hmem (not_mem_readBody hz)
  granted hmem := by
    rcases List.mem_cons.mp hmem with heq | hmem
    · exact absurd heq.symm hop
    · exact absurd hmem (not_mem_readBody hz)

/-- The body is read where there is a reservation for it. -/
theorem reserved_addBody (hz : x.stages = 0)
    (hpermit : x.responseBodyPermit
      = ⟨true, x.parser.contentLength.getD maxUpstreamBodyBytes⟩) (hallowed : allowed) :
    Reserved allowed (x.addOp .readBody) where
  single := by
    show (ExchangeOp.readBody :: x.ops).countP preStream ≤ 1
    rw [List.countP_cons_of_pos rfl, show x.ops.countP preStream = 0 from hz]
  reserved _ := hpermit
  granted _ := hallowed

theorem reserved_of_noStage (hz : x.stages = 0) : Reserved allowed x where
  single := Nat.le_trans (Nat.le_of_eq hz) (Nat.zero_le 1)
  reserved hmem := absurd hmem (not_mem_readBody hz)
  granted hmem := absurd hmem (not_mem_readBody hz)

/-- What a completion does to the permits: nothing. -/
theorem receive_holds (c : Completion) (x : Exchange) :
    (c.receive x).responseBodyPermit = x.responseBodyPermit
      ∧ (c.receive x).streamPermit = x.streamPermit
      ∧ (c.receive x).requestBodyPermit = x.requestBodyPermit
      ∧ (c.op ≠ .readHeader → (c.receive x).parser.contentLength = x.parser.contentLength) := by
  unfold Completion.receive Completion.note
  split
  all_goals
    unfold Report.apply
    split
    · rename_i hop _
      exact ⟨rfl, rfl, rfl, fun hne => absurd hop hne⟩
    all_goals exact ⟨rfl, rfl, rfl, fun _ => rfl⟩

theorem stages_receive {c : Completion} (h : Reserved allowed x) (hop : c.op ∈ x.ops)
    (hstage : preStream c.op = true) : (c.receive x).stages = 0 := by
  have hpos : 0 < x.ops.countP preStream := List.countP_pos_iff.mpr ⟨_, hop, hstage⟩
  have hsingle : x.ops.countP preStream ≤ 1 := h.single
  unfold stages
  rw [receive_ops, List.countP_erase, if_pos ⟨hop, hstage⟩]
  omega

theorem Reserved.receive {c : Completion} (h : Reserved allowed x) (hop : c.op ∈ x.ops) :
    Reserved allowed (c.receive x) := by
  cases hstage : preStream c.op with
  | true => exact reserved_of_noStage (stages_receive h hop hstage)
  | false =>
      obtain ⟨hresponse, hstream, hrequest, hlength⟩ := receive_holds c x
      refine h.same ⟨hresponse, hstream, hrequest, hlength ?_, ?_, ?_⟩
      · intro heq
        rw [heq] at hstage
        cases hstage
      · unfold stages
        rw [receive_ops]
        exact (List.erase_sublist ..).countP_le
      · rw [receive_ops]
        exact fun hmem => List.mem_of_mem_erase hmem

end Exchange

/-! ## Places -/

/-- Where a permit lies: with session `i`, with its exchange `k`, or in a cell. -/
inductive Place where
  | response (i : Nat)
  | body (i k : Nat)
  | stream (i k : Nat)
  | cell (c : Nat)
  deriving DecidableEq

namespace Gateway

def permitAt (gw : Gateway) : Place → BufferBudgetPermit
  | .response i => (gw.session i).responseBodyPermit
  | .body i k => ((gw.locals i).exs k).responseBodyPermit
  | .stream i k => ((gw.locals i).exs k).streamPermit
  | .cell c => (gw.shared.cells c).permit

variable {gw : Gateway} {i k : Nat} {w w' : World Session} {p : BufferBudgetPermit}

theorem permitAt_put (gw : Gateway) (i : Nat) (w : World Session) (place : Place) :
    (gw.put i w).permitAt place =
      match place with
      | .response j => if j = i then w.env.responseBodyPermit else gw.permitAt (.response j)
      | .body j k => if j = i then (w.exs k).responseBodyPermit else gw.permitAt (.body j k)
      | .stream j k => if j = i then (w.exs k).streamPermit else gw.permitAt (.stream j k)
      | .cell c => (w.shared.cells c).permit := by
  cases place with
  | cell c => rfl
  | _ j =>
      by_cases hji : j = i
      · subst hji
        simp [permitAt, session, put]
      · simp [permitAt, session, put, hji]

theorem permitAt_same (hresponse : w'.env.responseBodyPermit = w.env.responseBodyPermit)
    (hexs : ∀ k, (w'.exs k).responseBodyPermit = (w.exs k).responseBodyPermit
      ∧ (w'.exs k).streamPermit = (w.exs k).streamPermit)
    (hcells : ∀ c, (w'.shared.cells c).permit = (w.shared.cells c).permit) :
    (gw.put i w').permitAt = (gw.put i w).permitAt := by
  funext place
  rw [permitAt_put, permitAt_put]
  cases place with
  | response j => simp only [hresponse]
  | body j k => simp only [(hexs k).1]
  | stream j k => simp only [(hexs k).2]
  | cell c => exact hcells c

/-- One permit of the session's world is another one. -/
theorem permitAt_update {place : Place}
    (hat : (gw.put i w').permitAt place = p)
    (helse : ∀ place', place' ≠ place →
      (gw.put i w').permitAt place' = (gw.put i w).permitAt place') :
    (gw.put i w').permitAt = Function.update (gw.put i w).permitAt place p := by
  funext place'
  by_cases hp : place' = place
  · subst hp
    rw [Function.update_self, hat]
  · rw [Function.update_of_ne hp, helse place' hp]

end Gateway

/-! ## The ledger -/

namespace Session

/-- The session or one of its exchanges shares the permit in cell `c`. -/
def Refers (w : World Session) (c : Nat) : Prop :=
  w.env.requestBodyPermit = some c ∨ ∃ k, (w.exs k).requestBodyPermit = some c

/-- A step of session `i` of `gw` has come to `w`; `carried` are the bytes of a permit
that the handler holds, `bodies` the body reads it may leave outstanding, `reading` the
exchanges that may read a body. -/
structure Ledger (gw : Gateway) (i : Nat) (reading : Nat → Prop) (bodies carried : Nat)
    (w : World Session) : Prop where
  covered : Covered carried w.shared.budget (gw.put i w).permitAt
  grown : gw.shared.nextCell ≤ w.shared.nextCell
  refers : ∀ c, Refers w c →
    Refers (gw.view i) c ∨ (gw.shared.nextCell ≤ c ∧ c < w.shared.nextCell)
  foreign : ∀ c, c < gw.shared.nextCell → ¬Refers (gw.view i) c →
    w.shared.cells c = gw.shared.cells c
  reads : w.env.ops.count .readBody ≤ bodies
  exchanges : ∀ k, Exchange.Reserved (reading k) (w.exs k)

variable {gw : Gateway} {i bodies carried : Nat} {reading : Nat → Prop} {w : World Session}
  {p : BufferBudgetPermit}

theorem Ledger.mono (h : Ledger gw i reading bodies carried w) {carried' : Nat}
    (hle : carried' ≤ carried) : Ledger gw i reading bodies carried' w :=
  { h with covered := h.covered.mono hle }

/-! ### Updates that concern no permit -/

/-- Nothing changes that has to do with permits, but for the reads under way. -/
theorem Ledger.recount (h : Ledger gw i reading bodies carried w) {bodies' : Nat} {w' : World Session}
    (hexs : w'.exs = w.exs) (hbudget : w'.shared.budget = w.shared.budget)
    (hcells : w'.shared.cells = w.shared.cells) (hnext : w'.shared.nextCell = w.shared.nextCell)
    (hresponse : w'.env.responseBodyPermit = w.env.responseBodyPermit)
    (hrequest : w'.env.requestBodyPermit = w.env.requestBodyPermit)
    (hreads : w'.env.ops.count .readBody ≤ bodies') : Ledger gw i reading bodies' carried w' where
  covered := by
    have hsame : (gw.put i w').permitAt = (gw.put i w).permitAt :=
      Gateway.permitAt_same hresponse (fun _ => by rw [hexs]; exact ⟨rfl, rfl⟩)
        fun _ => by rw [hcells]
    rw [hsame, hbudget]
    exact h.covered
  grown := hnext ▸ h.grown
  refers c hc := by
    rw [hnext]
    refine h.refers c ?_
    unfold Refers at hc ⊢
    rwa [hexs, hrequest] at hc
  foreign := hcells ▸ h.foreign
  reads := hreads
  exchanges := hexs ▸ h.exchanges

theorem Ledger.alike (h : Ledger gw i reading bodies carried w) {w' : World Session}
    (hexs : w'.exs = w.exs) (hbudget : w'.shared.budget = w.shared.budget)
    (hcells : w'.shared.cells = w.shared.cells) (hnext : w'.shared.nextCell = w.shared.nextCell)
    (hresponse : w'.env.responseBodyPermit = w.env.responseBodyPermit)
    (hrequest : w'.env.requestBodyPermit = w.env.requestBodyPermit)
    (hops : w'.env.ops.count .readBody ≤ w.env.ops.count .readBody) :
    Ledger gw i reading bodies carried w' :=
  h.recount hexs hbudget hcells hnext hresponse hrequest (Nat.le_trans hops h.reads)

theorem Ledger.set (h : Ledger gw i reading bodies carried w) {f : Session → Session}
    (hresponse : (f w.env).responseBodyPermit = w.env.responseBodyPermit)
    (hrequest : (f w.env).requestBodyPermit = w.env.requestBodyPermit)
    (hops : (f w.env).ops = w.env.ops) : Ledger gw i reading bodies carried (Session.set f w) :=
  h.alike rfl rfl rfl rfl hresponse hrequest
    (Nat.le_of_eq (congrArg (List.count SessionOp.readBody) hops))

/-- An operation that is not a body read. -/
theorem Ledger.addOp (h : Ledger gw i reading bodies carried w) {op : SessionOp} (hop : op ≠ .readBody) :
    Ledger gw i reading bodies carried (Session.addOp op w) :=
  h.alike rfl rfl rfl rfl rfl rfl (Nat.le_of_eq (List.count_cons_of_ne hop))

theorem refers_setEx {k c : Nat} {f : Exchange → Exchange}
    (hrequest : ∀ c, (f (w.exs k)).requestBodyPermit = some c → Refers w c)
    (hc : Refers (w.setEx k f) c) : Refers w c := by
  rcases hc with hc | ⟨j, hc⟩
  · exact Or.inl hc
  · by_cases hjk : j = k
    · subst hjk
      rw [World.setEx_same] at hc
      exact hrequest c hc
    · rw [World.setEx_ne hjk] at hc
      exact Or.inr ⟨j, hc⟩

theorem reserved_setEx (h : ∀ j, Exchange.Reserved (reading j) (w.exs j)) {k : Nat}
    {f : Exchange → Exchange} (hf : Exchange.Reserved (reading k) (f (w.exs k))) (j : Nat) :
    Exchange.Reserved (reading j) ((w.setEx k f).exs j) := by
  by_cases hjk : j = k
  · subst hjk
    rw [World.setEx_same]
    exact hf
  · rw [World.setEx_ne hjk]
    exact h j

/-- An exchange keeps its permits. -/
theorem Ledger.setHeld (h : Ledger gw i reading bodies carried w) {k : Nat} {f : Exchange → Exchange}
    (hresponse : (f (w.exs k)).responseBodyPermit = (w.exs k).responseBodyPermit)
    (hstream : (f (w.exs k)).streamPermit = (w.exs k).streamPermit)
    (hrequest : ∀ c, (f (w.exs k)).requestBodyPermit = some c → Refers w c)
    (hreserved : Exchange.Reserved (reading k) (f (w.exs k))) :
    Ledger gw i reading bodies carried (w.setEx k f) := by
  have hexs : ∀ j, ((w.setEx k f).exs j).responseBodyPermit = (w.exs j).responseBodyPermit
      ∧ ((w.setEx k f).exs j).streamPermit = (w.exs j).streamPermit := by
    intro j
    by_cases hjk : j = k
    · subst hjk
      rw [World.setEx_same]
      exact ⟨hresponse, hstream⟩
    · rw [World.setEx_ne hjk]
      exact ⟨rfl, rfl⟩
  have hsame : (gw.put i (w.setEx k f)).permitAt = (gw.put i w).permitAt :=
    Gateway.permitAt_same rfl hexs fun _ => rfl
  refine
    { h with
      covered := ?_
      refers := fun c hc => h.refers c (refers_setEx hrequest hc)
      exchanges := reserved_setEx h.exchanges hreserved }
  rw [hsame]
  exact h.covered

theorem Ledger.setEx (h : Ledger gw i reading bodies carried w) {k : Nat} {f : Exchange → Exchange}
    (hf : Exchange.SameHold (w.exs k) (f (w.exs k))) :
    Ledger gw i reading bodies carried (w.setEx k f) :=
  h.setHeld hf.response hf.stream (fun _ hc => Or.inr ⟨k, hf.request ▸ hc⟩)
    ((h.exchanges k).same hf)

/-! ### Permits on the move -/

/-- The destructor of a permit in hand. -/
theorem Ledger.dropPermit (h : Ledger gw i reading bodies (carried + p.held) w) :
    Ledger gw i reading bodies carried (w.setShared (Shared.dropPermit p)) where
  covered := h.covered.release
  grown := h.grown
  refers := h.refers
  foreign := h.foreign
  reads := h.reads
  exchanges := h.exchanges

/-- `try_acquire` -/
theorem Ledger.acquire (h : Ledger gw i reading bodies carried w) {bytes : UInt64}
    {budget : BufferBudgetControl}
    (hacquired : w.shared.budget.tryAcquire bytes = (some p, budget)) :
    p = ⟨true, bytes⟩
      ∧ Ledger gw i reading bodies (carried + p.held) (w.setShared fun s => { s with budget }) := by
  obtain ⟨hp, hcovered⟩ := h.covered.tryAcquire hacquired
  exact ⟨hp, { h with covered := hcovered }⟩

/-- `response_body_permit_ = std::move(permit)` of a session. -/
theorem Ledger.putResponse (h : Ledger gw i reading bodies (carried + p.held) w)
    {f : Session → Session} (hresponse : (f w.env).responseBodyPermit = p)
    (hrequest : (f w.env).requestBodyPermit = w.env.requestBodyPermit)
    (hops : (f w.env).ops = w.env.ops) :
    Ledger gw i reading bodies carried
      (Session.set f (w.setShared (Shared.dropPermit w.env.responseBodyPermit))) := by
  have hput : Ledger gw i reading bodies (carried + w.env.responseBodyPermit.held) (Session.set f w) := by
    refine { h with covered := ?_, refers := ?_, reads := ?_ }
    · have hupdate : (gw.put i (Session.set f w)).permitAt
          = Function.update (gw.put i w).permitAt (.response i) p := by
        refine Gateway.permitAt_update ?_ fun place hne => ?_
        · rw [Gateway.permitAt_put]
          exact (if_pos rfl).trans hresponse
        · rw [Gateway.permitAt_put, Gateway.permitAt_put]
          cases place with
          | response j =>
              have hji : j ≠ i := fun hji => hne (by rw [hji])
              simp only [if_neg hji]
          | _ => rfl
      have hold : (gw.put i w).permitAt (.response i) = w.env.responseBodyPermit := by
        rw [Gateway.permitAt_put]
        simp
      have hswap := h.covered.swap (.response i)
      rw [hold] at hswap
      rw [hupdate]
      exact hswap
    · intro c hc
      refine h.refers c ?_
      unfold Refers at hc ⊢
      rw [show (Session.set f w).env.requestBodyPermit = _ from hrequest] at hc
      exact hc
    · show (f w.env).ops.count .readBody ≤ bodies
      rw [hops]
      exact h.reads
  exact hput.dropPermit

theorem permitAt_body (gw : Gateway) (i k : Nat) (w : World Session) :
    (gw.put i w).permitAt (.body i k) = (w.exs k).responseBodyPermit := by
  rw [Gateway.permitAt_put]
  exact if_pos rfl

theorem permitAt_stream (gw : Gateway) (i k : Nat) (w : World Session) :
    (gw.put i w).permitAt (.stream i k) = (w.exs k).streamPermit := by
  rw [Gateway.permitAt_put]
  exact if_pos rfl

/-- An exchange has two places. -/
theorem permitAt_setEx (gw : Gateway) (i k : Nat) (w : World Session) (f : Exchange → Exchange) :
    (gw.put i (w.setEx k f)).permitAt
      = Function.update
          (Function.update (gw.put i w).permitAt (.body i k) (f (w.exs k)).responseBodyPermit)
          (.stream i k) (f (w.exs k)).streamPermit := by
  funext place
  by_cases hstream : place = .stream i k
  · subst hstream
    rw [Function.update_self, permitAt_stream, World.setEx_same]
  · rw [Function.update_of_ne hstream]
    by_cases hbody : place = .body i k
    · subst hbody
      rw [Function.update_self, permitAt_body, World.setEx_same]
    · rw [Function.update_of_ne hbody, Gateway.permitAt_put, Gateway.permitAt_put]
      cases place with
      | body j j' =>
          dsimp only
          split
          · rename_i hji
            have hjk : j' ≠ k := fun hjk => hbody (by rw [hji, hjk])
            rw [World.setEx_ne hjk]
          · rfl
      | stream j j' =>
          dsimp only
          split
          · rename_i hji
            have hjk : j' ≠ k := fun hjk => hstream (by rw [hji, hjk])
            rw [World.setEx_ne hjk]
          · rfl
      | _ => rfl

theorem permitAt_setBody (gw : Gateway) (i k : Nat) (w : World Session) (p : BufferBudgetPermit) :
    (gw.put i (w.setEx k fun x => { x with responseBodyPermit := p })).permitAt
      = Function.update (gw.put i w).permitAt (.body i k) p := by
  rw [permitAt_setEx]
  refine Function.update_eq_self_iff.mpr ?_
  rw [Function.update_of_ne (by simp), permitAt_stream]

theorem permitAt_setStream (gw : Gateway) (i k : Nat) (w : World Session)
    (p : BufferBudgetPermit) :
    (gw.put i (w.setEx k fun x => { x with streamPermit := p })).permitAt
      = Function.update (gw.put i w).permitAt (.stream i k) p := by
  rw [permitAt_setEx, ← permitAt_body gw i k w, Function.update_eq_self]

/-- A permit goes from hand into an exchange, and the old one into the hand. -/
theorem Ledger.putBody (h : Ledger gw i reading bodies (carried + p.held) w) {k : Nat}
    (hreserved : Exchange.Reserved (reading k) { w.exs k with responseBodyPermit := p }) :
    Ledger gw i reading bodies (carried + (w.exs k).responseBodyPermit.held)
      (w.setEx k fun x => { x with responseBodyPermit := p }) := by
  have hswap := h.covered.swap (.body i k)
  rw [permitAt_body, ← permitAt_setBody] at hswap
  exact
    { h with
      covered := hswap
      refers := fun c hc => h.refers c (refers_setEx (fun _ hc => Or.inr ⟨k, hc⟩) hc)
      exchanges := reserved_setEx h.exchanges hreserved }

/-- `response_body_permit_.shrink_to` -/
theorem Ledger.shrinkBody (h : Ledger gw i reading bodies carried w) {k : Nat} {bytes : UInt64}
    {budget : BufferBudgetControl}
    (hshrunk : (w.exs k).responseBodyPermit.shrinkTo bytes w.shared.budget = (true, p, budget))
    (hreserved : Exchange.Reserved (reading k) { w.exs k with responseBodyPermit := p }) :
    Ledger gw i reading bodies carried
      (World.setEx k (fun x => { x with responseBodyPermit := p })
        (w.setShared fun s => { s with budget })) := by
  rw [← permitAt_body gw i k w] at hshrunk
  have hcovered := h.covered.shrinkAt (.body i k) hshrunk
  rw [← permitAt_setBody] at hcovered
  exact
    { h with
      covered := hcovered
      refers := fun c hc => h.refers c
        (refers_setEx (w := w.setShared fun s => { s with budget }) (fun _ hc => Or.inr ⟨k, hc⟩) hc)
      exchanges := reserved_setEx (w := w.setShared fun s => { s with budget }) h.exchanges hreserved }

theorem Ledger.putStream (h : Ledger gw i reading bodies (carried + p.held) w) (k : Nat) :
    Ledger gw i reading bodies (carried + (w.exs k).streamPermit.held)
      (w.setEx k fun x => { x with streamPermit := p }) := by
  have hswap := h.covered.swap (.stream i k)
  rw [permitAt_stream, ← permitAt_setStream] at hswap
  have hreserved : Exchange.Reserved (reading k) { w.exs k with streamPermit := p } :=
    ⟨(h.exchanges k).single, (h.exchanges k).reserved, (h.exchanges k).granted⟩
  exact
    { h with
      covered := hswap
      refers := fun c hc => h.refers c (refers_setEx (fun _ hc => Or.inr ⟨k, hc⟩) hc)
      exchanges := reserved_setEx h.exchanges hreserved }

/-- An exchange without permits takes the place of one of which nothing is known. -/
theorem Ledger.putFresh (h : Ledger gw i reading bodies carried w) (k : Nat) {x : Exchange}
    (hresponse : x.responseBodyPermit = {}) (hstream : x.streamPermit = {})
    (hrequest : ∀ c, x.requestBodyPermit = some c → Refers w c) (hops : x.ops = []) :
    Ledger gw i reading bodies carried (w.setEx k fun _ => x) := by
  have hbody := h.covered.store (p := {}) (.body i k)
  have hboth := hbody.store (p := {}) (.stream i k)
  have hupdate := permitAt_setEx gw i k w fun _ => x
  rw [hresponse, hstream] at hupdate
  rw [← hupdate] at hboth
  have hreserved : Exchange.Reserved (reading k) x :=
    Exchange.reserved_of_noStage (by simp [Exchange.stages, hops])
  exact
    { h with
      covered := hboth
      refers := fun c hc => h.refers c (refers_setEx hrequest hc)
      exchanges := reserved_setEx h.exchanges hreserved }

/-! ### Cells -/

/-- The cells that the session may change: its own, and those made in this step. -/
theorem Ledger.mine (h : Ledger gw i reading bodies carried w) {c : Nat} (hc : Refers w c)
    {c' : Nat} (hlt : c' < gw.shared.nextCell) (hnot : ¬Refers (gw.view i) c') : c' ≠ c := by
  rintro rfl
  rcases h.refers c' hc with hview | ⟨hge, -⟩
  · exact hnot hview
  · omega

theorem permitAt_setCell (gw : Gateway) (i : Nat) (w : World Session) (c : Nat) (x : PermitCell)
    (budget : BufferBudgetControl) :
    (gw.put i (w.setShared fun s =>
        { s with budget, cells := Function.update s.cells c x })).permitAt
      = Function.update (gw.put i w).permitAt (.cell c) x.permit := by
  refine Gateway.permitAt_update ?_ fun place hne => ?_
  · rw [Gateway.permitAt_put]
    simp [World.setShared]
  · rw [Gateway.permitAt_put, Gateway.permitAt_put]
    cases place with
    | cell c' =>
        have hcc : c' ≠ c := fun hcc => hne (by rw [hcc])
        simp [World.setShared, Function.update_of_ne hcc]
    | _ => rfl

/-- The permit in a cell is replaced, and the old one is in hand. -/
theorem Ledger.putCell {x : PermitCell} (h : Ledger gw i reading bodies (carried + x.permit.held) w)
    {c : Nat} (hmine : ∀ c', c' < gw.shared.nextCell → ¬Refers (gw.view i) c' → c' ≠ c) :
    Ledger gw i reading bodies (carried + (w.shared.cells c).permit.held)
      (w.setShared fun s => { s with cells := Function.update s.cells c x }) := by
  have hswap := h.covered.swap (.cell c)
  rw [← permitAt_setCell gw i w c x w.shared.budget] at hswap
  exact
    { h with
      covered := hswap
      foreign := fun c' hlt hnot =>
        (Function.update_of_ne (hmine c' hlt hnot) ..).trans (h.foreign c' hlt hnot) }

/-- One more or one less shares the permit in a cell. -/
theorem Ledger.setOwners (h : Ledger gw i reading bodies carried w) (owners : Nat) {c : Nat}
    (hc : Refers w c) :
    Ledger gw i reading bodies carried (w.setShared fun s =>
      { s with cells := Function.update s.cells c { s.cells c with owners } }) := by
  have hsame : (gw.put i (w.setShared fun s =>
        { s with cells := Function.update s.cells c { s.cells c with owners } })).permitAt
      = (gw.put i w).permitAt := by
    refine Gateway.permitAt_same rfl (fun _ => ⟨rfl, rfl⟩) fun c' => ?_
    show (Function.update w.shared.cells c _ c').permit = _
    by_cases hcc : c' = c
    · subst hcc
      rw [Function.update_self]
    · rw [Function.update_of_ne hcc]
  refine { h with covered := ?_, foreign := fun c' hlt hnot => ?_ }
  · rw [hsame]
    exact h.covered
  · exact (Function.update_of_ne (h.mine hc hlt hnot) ..).trans (h.foreign c' hlt hnot)

theorem Ledger.dropCell (h : Ledger gw i reading bodies carried w) (cell : Option Nat)
    (hcell : ∀ c, cell = some c → Refers w c) :
    Ledger gw i reading bodies carried (w.setShared (Shared.dropCell cell)) := by
  unfold Shared.dropCell
  cases cell with
  | none => exact h
  | some c =>
      dsimp only
      by_cases howners : (w.shared.cells c).owners ≤ 1
      · have hdropped := Ledger.dropPermit (h.putCell (x := {}) fun _ => h.mine (hcell c rfl))
        simpa only [World.setShared, Shared.dropPermit, howners, if_true] using hdropped
      · have howned := h.setOwners ((w.shared.cells c).owners - 1) (hcell c rfl)
        simpa only [World.setShared, howners, if_false] using howned

theorem Ledger.shareCell (h : Ledger gw i reading bodies carried w) (cell : Option Nat)
    (hcell : ∀ c, cell = some c → Refers w c) :
    Ledger gw i reading bodies carried (w.setShared (Shared.shareCell cell)) := by
  cases cell with
  | none => exact h
  | some c => exact h.setOwners _ (hcell c rfl)

/-- The session no longer looks at its shared permit. -/
theorem Ledger.forgetRequest (h : Ledger gw i reading bodies carried w) {f : Session → Session}
    (hrequest : (f w.env).requestBodyPermit = none)
    (hresponse : (f w.env).responseBodyPermit = w.env.responseBodyPermit)
    (hops : (f w.env).ops = w.env.ops) : Ledger gw i reading bodies carried (Session.set f w) := by
  have hsame : (gw.put i (Session.set f w)).permitAt = (gw.put i w).permitAt :=
    Gateway.permitAt_same hresponse (fun _ => ⟨rfl, rfl⟩) fun _ => rfl
  refine { h with covered := ?_, refers := ?_, reads := ?_ }
  · rw [hsame]
    exact h.covered
  · rintro c (hc | ⟨k, hc⟩)
    · rw [show (Session.set f w).env.requestBodyPermit = none from hrequest] at hc
      cases hc
    · exact h.refers c (Or.inr ⟨k, hc⟩)
  · show (f w.env).ops.count .readBody ≤ bodies
    rw [hops]
    exact h.reads

/-- `parser_.reset()` and `request_body_permit_.reset()` -/
theorem Ledger.resetRequest (h : Ledger gw i reading bodies carried w) :
    Ledger gw i reading bodies carried (resetRequest w) :=
  Ledger.forgetRequest (h.dropCell w.env.requestBodyPermit fun _ hc => Or.inl hc)
    rfl rfl rfl

/-- A new exchange, which shares the permit of the request. -/
theorem Ledger.addExchange (h : Ledger gw i reading bodies carried w) {x : Exchange}
    (hresponse : x.responseBodyPermit = {}) (hstream : x.streamPermit = {})
    (hrequest : x.requestBodyPermit = w.env.requestBodyPermit) (hops : x.ops = [])
    (fresh : Bool) : Ledger gw i reading bodies carried (addExchange x fresh w) := by
  have hcounted : Ledger gw i reading bodies carried (w.setShared fun s =>
      { s with nextConnection := s.nextConnection + fresh.toNat }) :=
    h.alike rfl rfl rfl rfl rfl rfl (Nat.le_refl _)
  have hshared := hcounted.shareCell x.requestBodyPermit
    fun c hc => Or.inl (hrequest.symm.trans hc)
  have hput := hshared.putFresh w.nextExchange hresponse hstream
    (fun c hc => Or.inl (hrequest.symm.trans hc)) hops
  exact hput.alike rfl rfl rfl rfl rfl rfl (Nat.le_refl _)

/-- `std::make_shared` of a permit in hand. -/
theorem Ledger.newCell (h : Ledger gw i reading bodies (carried + p.held) w) :
    Ledger gw i reading bodies carried
      (Session.set (fun s => { s with requestBodyPermit := some w.shared.nextCell })
        (w.setShared (Shared.newCell p))) := by
  have hput : Ledger gw i reading bodies (carried + (w.shared.cells w.shared.nextCell).permit.held)
      (w.setShared fun s =>
        { s with cells := Function.update s.cells w.shared.nextCell ⟨p, 1⟩ }) := by
    refine Ledger.putCell (x := ⟨p, 1⟩) h fun c' hlt _ => ?_
    have hgrown := h.grown
    omega
  have hput := hput.mono (Nat.le_add_right ..)
  have hsame : (gw.put i (Session.set
        (fun s => { s with requestBodyPermit := some w.shared.nextCell })
        (w.setShared (Shared.newCell p)))).permitAt
      = (gw.put i (w.setShared fun s =>
        { s with cells := Function.update s.cells w.shared.nextCell ⟨p, 1⟩ })).permitAt :=
    Gateway.permitAt_same rfl (fun _ => ⟨rfl, rfl⟩) fun _ => rfl
  have hgrown := h.grown
  refine { hput with covered := ?_, grown := ?_, refers := ?_ }
  · rw [hsame]
    exact hput.covered
  · show gw.shared.nextCell ≤ w.shared.nextCell + 1
    omega
  · show ∀ c, _ → _ ∨ (_ ∧ c < w.shared.nextCell + 1)
    rintro c (hc | ⟨k, hc⟩)
    · cases hc
      exact Or.inr ⟨hgrown, Nat.lt_succ_self _⟩
    · refine (h.refers c (Or.inr ⟨k, hc⟩)).imp_right fun ⟨hge, hlt⟩ => ⟨hge, ?_⟩
      exact Nat.lt_succ_of_lt hlt

/-- `request_body_permit_->shrink_to` -/
theorem Ledger.shrinkRequest (h : Ledger gw i reading bodies carried w) {w' : World Session}
    (hshrunk : shrinkRequest w = some w') : Ledger gw i reading bodies carried w' := by
  unfold Session.shrinkRequest at hshrunk
  split at hshrunk
  · rename_i parser c _ hrequest
    split at hshrunk
    · rename_i permit budget hpermit
      cases hshrunk
      have hcovered := h.covered.shrinkAt (.cell c) hpermit
      rw [← permitAt_setCell gw i w c { w.shared.cells c with permit } budget] at hcovered
      exact
        { h with
          covered := hcovered
          foreign := fun c' hlt hnot =>
            (Function.update_of_ne (h.mine (Or.inl hrequest) hlt hnot) ..).trans
              (h.foreign c' hlt hnot) }
    · cases hshrunk
  · cases hshrunk

end Session

end ApiGate
