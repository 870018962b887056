import ApiGate.ExchangeRules

/-!
# The timeline of an exchange

`deadline_generation_` is counted up whenever a deadline begins or ends, and a wait
carries the generation it was armed for. So a wait that finds its own generation is
the one of the last deadline, and no deadline has ended since: between two moments
with the same count nothing was counted. `Timed` is what every update of an exchange
keeps, also halfway through a handler; `Guarded` adds what holds between handlers.
-/

namespace ApiGate

/-! ## Timelines -/

/-- The stages before the response is read. -/
def ExchangeOp.early : ExchangeOp → Bool
  | .resolve | .connect | .handshake | .write => true
  | .readHeader | .readBody | .readBlock | .wait _ => false

/-- How often the generation was counted up. -/
def bumps (timeline : List DeadlineNote) : Nat := timeline.count .bumped

/-- Which note may stand on the earlier ones. -/
def DeadlineNote.Follows : DeadlineNote → List DeadlineNote → Prop
  | .bumped, _ => True
  | .started op, earlier =>
      (∀ g, op = .wait g → (∃ rest, earlier = .bumped :: rest) ∧ g = bumps earlier
        ∧ .started .readHeader ∉ earlier)
      ∧ (op.early = true ∨ op = .readHeader → ∃ g rest, earlier = .started (.wait g) :: rest)
  | .expired g, earlier => .started (.wait g) ∈ earlier ∧ g = bumps earlier
  | .failed stage, earlier => stage = .timeout → ∃ g rest, earlier = .expired g :: rest

/-- A timeline in order. -/
def InOrder : List DeadlineNote → Prop
  | [] => True
  | n :: earlier => InOrder earlier ∧ n.Follows earlier

section

variable {later earlier timeline : List DeadlineNote} {n : DeadlineNote} {op : ExchangeOp}
  {g : Nat}

theorem InOrder.suffix (h : InOrder (later ++ earlier)) : InOrder earlier := by
  induction later with
  | nil => exact h
  | cons m later ih => exact ih h.1

theorem InOrder.follows (h : InOrder (later ++ n :: earlier)) : n.Follows earlier := h.suffix.2

theorem bumps_cons (h : n ≠ .bumped) : bumps (n :: earlier) = bumps earlier :=
  List.count_cons_of_ne h

theorem bumps_append (later earlier : List DeadlineNote) :
    bumps (later ++ earlier) = bumps later + bumps earlier := by
  simp [bumps, List.count_append]

/-- Where the count is that of a wait, nothing has been counted since it was armed. -/
theorem InOrder.armed_last (h : InOrder timeline) (hmem : .started (.wait g) ∈ timeline)
    (hg : g = bumps timeline) :
    ∃ between before, timeline = between ++ .started (.wait g) :: .bumped :: before
      ∧ .bumped ∉ between := by
  obtain ⟨between, earlier, rfl⟩ := List.append_of_mem hmem
  obtain ⟨⟨before, rfl⟩, hcount, -⟩ := h.follows.1 g rfl
  refine ⟨between, before, rfl, ?_⟩
  rw [bumps_append, bumps_cons (by simp), ← hcount] at hg
  have hzero : bumps between = 0 := by omega
  exact List.count_eq_zero.mp hzero

theorem InOrder.wait_le (h : InOrder timeline) (hmem : .started (.wait g) ∈ timeline) :
    g ≤ bumps timeline := by
  obtain ⟨between, earlier, rfl⟩ := List.append_of_mem hmem
  obtain ⟨-, hcount, -⟩ := h.follows.1 g rfl
  rw [bumps_append, bumps_cons (by simp), ← hcount]
  exact Nat.le_add_left ..

/-- A deadline that has ended is never again the current one. -/
theorem InOrder.superseded (h : InOrder (later ++ .started (.wait g) :: earlier))
    (hended : .bumped ∈ later) : g < bumps (later ++ .started (.wait g) :: earlier) := by
  obtain ⟨-, hcount, -⟩ := h.follows.1 g rfl
  have hpos : 0 < bumps later := List.count_pos_iff.mpr hended
  rw [bumps_append, bumps_cons (by simp), ← hcount]
  omega

/-- Once the header is being read, no deadline is armed. -/
theorem InOrder.unarmed (h : InOrder (later ++ .started .readHeader :: earlier)) (g : Nat) :
    .started (.wait g) ∉ later := by
  intro hmem
  obtain ⟨front, rest, rfl⟩ := List.append_of_mem hmem
  rw [List.append_assoc] at h
  have hnot := (h.follows.1 g rfl).2.2
  exact hnot (by simp)

/-- A stage is started right after its deadline was armed. -/
theorem InOrder.armed_first (h : InOrder (later ++ .started op :: earlier))
    (hop : op.early = true ∨ op = .readHeader) :
    ∃ g rest, earlier = .started (.wait g) :: .bumped :: rest := by
  obtain ⟨g, rest, rfl⟩ := h.follows.2 hop
  obtain ⟨⟨rest, rfl⟩, -⟩ := h.suffix.1.2.1 g rfl
  exact ⟨g, rest, rfl⟩

/-- Reading the response goes on under the deadline of the header. -/
theorem InOrder.reading (h : InOrder (later ++ .started .readHeader :: earlier))
    (hmem : .started (.wait g) ∈ later ++ .started .readHeader :: earlier)
    (hg : g = bumps (later ++ .started .readHeader :: earlier)) :
    .bumped ∉ later ∧ ∃ rest, earlier = .started (.wait g) :: .bumped :: rest := by
  obtain ⟨g', rest, rfl⟩ := h.armed_first (Or.inr rfl)
  have hcount : g' = bumps (.bumped :: rest) :=
    (h.suffix.1.2.1 g' rfl).2.1
  have htotal : bumps (later ++ .started .readHeader :: .started (.wait g') :: .bumped :: rest)
      = bumps later + g' := by
    rw [bumps_append, bumps_cons (by simp), bumps_cons (by simp), hcount]
  have hmem' : .started (.wait g) ∈ .started (.wait g') :: .bumped :: rest := by
    rcases List.mem_append.mp hmem with hlater | hmem
    · exact absurd hlater (h.unarmed g)
    · rcases List.mem_cons.mp hmem with heq | hmem
      · cases heq
      · exact hmem
  have hle : g ≤ g' := by
    have hbound := h.suffix.1.wait_le hmem'
    rwa [bumps_cons (by simp), ← hcount] at hbound
  rw [htotal] at hg
  have hsame : g = g' := by omega
  subst hsame
  exact ⟨List.count_eq_zero.mp (show bumps later = 0 by omega), rest, rfl⟩

/-- A timeout is that of the last deadline. -/
theorem InOrder.timeout (h : InOrder (later ++ .failed .timeout :: earlier)) :
    ∃ g between before,
      earlier = .expired g :: (between ++ .started (.wait g) :: .bumped :: before)
        ∧ .bumped ∉ between := by
  obtain ⟨g, rest, rfl⟩ := h.follows rfl
  obtain ⟨hmem, hg⟩ := h.suffix.1.2
  obtain ⟨between, before, rfl, hnone⟩ := (h.suffix.1).1.armed_last hmem hg
  exact ⟨g, between, before, rfl, hnone⟩

end

namespace Exchange

/-! ## One exchange -/

/-- What every update keeps. -/
structure Timed (x : Exchange) : Prop where
  inOrder : InOrder x.timeline
  generation : x.deadlineGeneration = bumps x.timeline
  waits : ∀ g, .wait g ∈ x.ops → .started (.wait g) ∈ x.timeline
  single : x.ops.countP ExchangeOp.early ≤ 1
  unread : 0 < x.ops.countP ExchangeOp.early → .started .readHeader ∉ x.timeline

/-- Between handlers: a wait of the current generation is outstanding, provided that
the exchange has `begun`, which `start()` that throws need not do. -/
structure Guarded (begun : Prop) (x : Exchange) : Prop extends Timed x where
  settled : x.observed = true → x.completed = true
  covered : begun → x.completed = true ∨ .wait x.deadlineGeneration ∈ x.ops

/-- No stage is under way, and the response is not being read. -/
structure Between (x : Exchange) : Prop where
  idle : x.ops.countP ExchangeOp.early = 0
  unread : .started .readHeader ∉ x.timeline

variable {begun : Prop} {x : Exchange}

theorem Timed.guarded (h : Timed x) (hc : x.completed = true) : Guarded begun x :=
  { h with
    settled := fun _ => hc
    covered := fun _ => Or.inl hc }

theorem guarded_make (selected : SelectedUpstream) (request : HttpRequest) (pooled : Bool)
    (connection : UpstreamConnection) (reused : Bool) (cell : Option Nat) :
    Guarded False (make selected request pooled connection reused cell) where
  inOrder := trivial
  generation := rfl
  waits g hg := by cases hg
  single := Nat.zero_le _
  unread hpos := by cases hpos
  settled h := by cases h
  covered := False.elim

/-! ### Updates -/

theorem Timed.finishDeadline (h : Timed x) : Timed x.finishDeadline where
  inOrder := ⟨h.inOrder, trivial⟩
  generation := by
    show x.deadlineGeneration + 1 = bumps (.bumped :: x.timeline)
    rw [h.generation, bumps, bumps, List.count_cons_self]
  waits g hg := List.mem_cons_of_mem _ (h.waits g hg)
  single := h.single
  unread hpos hmem := by
    rcases List.mem_cons.mp hmem with heq | hmem
    · cases heq
    · exact h.unread hpos hmem

theorem Timed.recordFailure (h : Timed x) {stage : ProxyFailureStage}
    (hstage : stage = .timeout → ∃ g rest, x.timeline = .expired g :: rest) :
    Timed (x.recordFailure stage) where
  inOrder := ⟨h.inOrder, hstage⟩
  generation := h.generation.trans (bumps_cons (by simp)).symm
  waits g hg := List.mem_cons_of_mem _ (h.waits g hg)
  single := h.single
  unread hpos hmem := by
    rcases List.mem_cons.mp hmem with heq | hmem
    · cases heq
    · exact h.unread hpos hmem

/-- A wait has found its own generation. -/
theorem Timed.expire (h : Timed x) {g : Nat} (hmem : .started (.wait g) ∈ x.timeline)
    (hg : g = x.deadlineGeneration) : Timed (x.expire g) := by
  unfold Exchange.expire
  split
  · exact h
  · exact
      { inOrder := ⟨h.inOrder, hmem, hg.trans h.generation⟩
        generation := h.generation.trans (bumps_cons (by simp)).symm
        waits := fun g hg => List.mem_cons_of_mem _ (h.waits g hg)
        single := h.single
        unread := by
          intro hpos hmem
          rcases List.mem_cons.mp hmem with heq | hmem
          · cases heq
          · exact h.unread hpos hmem }

theorem Timed.cancelOperations (h : Timed x) : Timed x.cancelOperations := by
  unfold Exchange.cancelOperations closeUpstream
  split <;> exact { h with }

/-- The rest of `begin_deadline`, once the generation was counted up. -/
theorem Timed.addWait (h : Timed x) {rest : List DeadlineNote} (htop : x.timeline = .bumped :: rest)
    (hb : Between x) : Timed (x.addOp (.wait x.deadlineGeneration)) where
  inOrder := by
    refine ⟨h.inOrder, fun g hg => ?_, fun hop => ?_⟩
    · cases hg
      exact ⟨⟨rest, htop⟩, h.generation, hb.unread⟩
    · rcases hop with hop | hop <;> cases hop
  generation := h.generation.trans (bumps_cons (by simp)).symm
  waits g hg := by
    rcases List.mem_cons.mp hg with heq | hg
    · cases heq
      exact List.mem_cons_self ..
    · exact List.mem_cons_of_mem _ (h.waits g hg)
  single := h.single
  unread hpos hmem := by
    rcases List.mem_cons.mp hmem with heq | hmem
    · cases heq
    · exact h.unread hpos hmem

theorem Between.later (h : Between x) {x' : Exchange} {n : DeadlineNote}
    (hops : x'.ops.countP ExchangeOp.early = x.ops.countP ExchangeOp.early)
    (htimeline : x'.timeline = n :: x.timeline) (hn : n ≠ .started .readHeader) : Between x' := by
  refine ⟨hops.trans h.idle, ?_⟩
  rw [htimeline]
  intro hmem
  rcases List.mem_cons.mp hmem with heq | hmem
  · exact hn heq.symm
  · exact h.unread hmem

/-- `begin_deadline` -/
theorem Timed.armed (h : Timed x) (hb : Between x) :
    Timed x.armed ∧ Between x.armed ∧ ∃ rest, x.armed.timeline
      = .started (.wait x.armed.deadlineGeneration) :: rest := by
  have hbumped : Between x.finishDeadline := hb.later rfl rfl (by simp)
  exact ⟨h.finishDeadline.addWait rfl hbumped, hbumped.later rfl rfl (by simp), _, rfl⟩

/-- A stage is started behind its deadline. -/
theorem Timed.addStage (h : Timed x) {op : ExchangeOp} (hop : op.early = true ∨ op = .readHeader)
    (htop : ∃ g rest, x.timeline = .started (.wait g) :: rest) (hb : Between x) :
    Timed (x.addOp op) where
  inOrder := by
    refine ⟨h.inOrder, fun g hg => ?_, fun _ => htop⟩
    subst hg
    rcases hop with hop | hop <;> cases hop
  generation := h.generation.trans (bumps_cons (by simp)).symm
  waits g hg := by
    rcases List.mem_cons.mp hg with rfl | hg
    · exact List.mem_cons_self ..
    · exact List.mem_cons_of_mem _ (h.waits g hg)
  single := by
    show (op :: x.ops).countP ExchangeOp.early ≤ 1
    rw [List.countP_cons, hb.idle]
    split <;> simp
  unread := by
    intro hpos hmem
    rcases List.mem_cons.mp hmem with heq | hmem
    · cases heq
      have hzero : (ExchangeOp.readHeader :: x.ops).countP ExchangeOp.early = 0 :=
        (List.countP_cons_of_neg (by simp [ExchangeOp.early])).trans hb.idle
      have hpos' : 0 < (ExchangeOp.readHeader :: x.ops).countP ExchangeOp.early := hpos
      omega
    · exact hb.unread hmem

/-- The next stage runs under a deadline of its own. -/
theorem Timed.nextStage (h : Timed x) (hs : x.observed = true → x.completed = true)
    (hb : Between x) {op : ExchangeOp} (hop : op.early = true ∨ op = .readHeader) :
    Guarded begun (x.armed.addOp op) := by
  obtain ⟨harmed, hbetween, rest, htop⟩ := h.armed hb
  exact
    { harmed.addStage hop ⟨_, rest, htop⟩ hbetween with
      settled := hs
      covered := fun _ => Or.inr (List.mem_cons_of_mem _ (List.mem_cons_self ..)) }

/-- Reading the body, in one piece or block by block, goes on under the same deadline. -/
theorem Guarded.addRead (h : Guarded begun x) {op : ExchangeOp}
    (hop : op = .readBody ∨ op = .readBlock) : Guarded begun (x.addOp op) where
  inOrder := by
    refine ⟨h.inOrder, fun g hg => ?_, fun hstage => ?_⟩
    · subst hg
      rcases hop with hop | hop <;> cases hop
    · rcases hop with rfl | rfl <;> rcases hstage with hstage | hstage <;> cases hstage
  generation := h.generation.trans (bumps_cons (by simp)).symm
  waits g hg := by
    rcases List.mem_cons.mp hg with rfl | hg
    · exact List.mem_cons_self ..
    · exact List.mem_cons_of_mem _ (h.waits g hg)
  single := by
    rcases hop with rfl | rfl <;> exact h.single
  unread hpos hmem := by
    have hpos' : 0 < x.ops.countP ExchangeOp.early := by
      rcases hop with rfl | rfl <;> exact hpos
    rcases List.mem_cons.mp hmem with heq | hmem
    · cases heq
      rcases hop with hop | hop <;> cases hop
    · exact h.unread hpos' hmem
  settled := h.settled
  covered hbegun := (h.covered hbegun).imp_right (List.mem_cons_of_mem _)

/-- An exchange that ends needs no deadline. -/
theorem Timed.claim (h : Timed x) : Guarded begun x.claim :=
  Timed.guarded (x := x.claim) { h with } rfl

theorem Guarded.cancel (h : Guarded begun x) : Guarded begun x.cancel := by
  unfold Exchange.cancel
  split
  · exact h
  · have ht : Timed ({ x.claim with onComplete := false, onAbort := false } : Exchange) :=
      { h.toTimed with }
    refine ht.cancelOperations.guarded ?_
    unfold cancelOperations closeUpstream
    split <;> rfl

/-! ### Completions -/

section

variable {c : Completion}

/-- What a completion changes, as far as the deadlines go. -/
theorem receive_deadline (c : Completion) (x : Exchange) :
    (c.receive x).ops = x.ops.erase c.op ∧ (c.receive x).timeline = x.timeline
      ∧ (c.receive x).deadlineGeneration = x.deadlineGeneration
      ∧ (c.receive x).observed = x.observed ∧ (c.receive x).completed = x.completed := by
  unfold Completion.receive Completion.note
  split
  all_goals
    unfold Report.apply
    split <;> exact ⟨rfl, rfl, rfl, rfl, rfl⟩

theorem Timed.receive (h : Timed x) (c : Completion) : Timed (c.receive x) := by
  obtain ⟨hops, htimeline, hgeneration, -, -⟩ := receive_deadline c x
  have hcount : (x.ops.erase c.op).countP ExchangeOp.early ≤ x.ops.countP ExchangeOp.early :=
    (List.erase_sublist ..).countP_le
  refine ⟨?_, ?_, ?_, ?_, ?_⟩
  · rw [htimeline]
    exact h.inOrder
  · rw [hgeneration, htimeline]
    exact h.generation
  · rw [hops, htimeline]
    exact fun g hg => h.waits g (List.mem_of_mem_erase hg)
  · rw [hops]
    exact Nat.le_trans hcount h.single
  · rw [hops, htimeline]
    exact fun hpos => h.unread (Nat.lt_of_lt_of_le hpos hcount)

/-- The deadline goes on unless it was its wait that has completed. -/
theorem Guarded.receive (h : Guarded begun x)
    (hop : begun → c.op = .wait x.deadlineGeneration → x.completed = true) :
    Guarded begun (c.receive x) := by
  obtain ⟨hops, htimeline, hgeneration, hobserved, hcompleted⟩ := receive_deadline c x
  refine { h.toTimed.receive c with settled := ?_, covered := ?_ }
  · rw [hobserved, hcompleted]
    exact h.settled
  · rw [hops, hgeneration, hcompleted]
    intro hbegun
    rcases h.covered hbegun with hdone | hwait
    · exact Or.inl hdone
    · by_cases hthis : c.op = .wait x.deadlineGeneration
      · exact Or.inl (hop hbegun hthis)
      · exact Or.inr ((List.mem_erase_of_ne (Ne.symm hthis)).mpr hwait)

/-- A stage has ended: the next one may begin. -/
theorem Timed.between (h : Timed x) (hop : c.op ∈ x.ops) (hearly : c.op.early = true) :
    Between (c.receive x) := by
  obtain ⟨hops, htimeline, -⟩ := receive_deadline c x
  have hpos : 0 < x.ops.countP ExchangeOp.early := List.countP_pos_iff.mpr ⟨_, hop, hearly⟩
  refine ⟨?_, ?_⟩
  · have hsingle := h.single
    rw [hops, List.countP_erase, if_pos ⟨hop, hearly⟩]
    omega
  · rw [htimeline]
    exact h.unread hpos

end

end Exchange

end ApiGate
