import ApiGate.Exchange

/-!
# Rules for the exchange

What a handler of an exchange can do, stated once for every owner. Until the
exchange ends, its handlers touch nothing but the exchange itself, the pool
and the body budget (`Same`). A handler either leaves the exchange `Live`, or
delivers a piece of a stream, or ends it: then the callback finds the claim
taken, the connection disposed of and no way left to a second callback
(`Ended`).

`Outcomes` collects what the owner has to answer for: one field for each way a
handler can come out. Given that, the rules below prove any postcondition of
`dispatch` and of a `StreamResume`. The exception paths need no field of their
own: they all lead to `abandon`, which calls `abort`.

What an exchange has done is in its journal. `Kept` says which notes may stand on
which; the notes of a stream are made where the owner is called, so that the rules
show them to the owner.
-/

namespace ApiGate

open EventLoop Act

/-! ## The journal -/

namespace ExchangeNote

/-- A note that the owner sees being made. -/
def flows : ExchangeNote → Bool
  | .relay _ | .finish _ _ => true
  | .requestWritten | .put _ _ | .aborted | .cancelled => false

/-- The connection is handed over. -/
def isPut : ExchangeNote → Bool
  | .put _ _ => true
  | .requestWritten | .aborted | .cancelled | .finish _ _ | .relay _ => false

/-- From here on the exchange is coming to its end. -/
def settles : ExchangeNote → Bool
  | .put _ _ | .aborted | .cancelled | .finish _ _ => true
  | .requestWritten | .relay _ => false

end ExchangeNote

/-- The response has ended and leaves the connection usable. -/
structure ParserState.Reusable (p : ParserState) : Prop where
  isDone : p.isDone = true
  framed : p.needEof = false
  keepAlive : p.response.keepAlive = true
  final : 200 ≤ p.response.status
  noUpgrade : p.response.fields.has "upgrade".toList = false
  noUpgradeToken : (connectionTokens p.response.fields).contains "upgrade".toList = false
  drained : p.bufferSize = 0

/-- Nothing has come to an end yet. -/
def Unsettled (journal : List ExchangeNote) : Prop := ∀ n ∈ journal, n.settles = false

/-- Which note may stand on the earlier ones. -/
def ExchangeNote.Follows : ExchangeNote → List ExchangeNote → Prop
  | .requestWritten, earlier | .relay _, earlier => Unsettled earlier
  | .put parser clean, earlier =>
      Unsettled earlier ∧ parser.Reusable ∧ clean = true ∧ .requestWritten ∈ earlier
        ∧ ((∃ n, .relay n ∈ earlier) → ∃ rest, earlier = .relay (.taken none) :: rest)
  | .aborted, earlier =>
      (∀ f d, .finish f d ∉ earlier)
        ∧ ((∃ p c, .put p c ∈ earlier) → ∀ n, .relay n ∉ earlier)
  | .cancelled, earlier =>
      (∀ f d, .finish f d ∉ earlier)
        ∧ ((∃ p c, .put p c ∈ earlier) → ∃ rest, earlier = .aborted :: rest)
  | .finish failure downstreamFailed, earlier =>
      (∀ f d, .finish f d ∉ earlier)
        ∧ ((failure = none ∧ downstreamFailed = false ∧ .cancelled ∉ earlier)
          ∨ (¬(failure = none ∧ downstreamFailed = false) ∧ .cancelled ∈ earlier
            ∧ ∀ p c, .put p c ∉ earlier))

/-- A journal in order. -/
def Kept : List ExchangeNote → Prop
  | [] => True
  | n :: earlier => Kept earlier ∧ n.Follows earlier

theorem Kept.suffix {later earlier : List ExchangeNote} (h : Kept (later ++ earlier)) :
    Kept earlier := by
  induction later with
  | nil => exact h
  | cons n later ih => exact ih h.1

theorem Kept.follows {later earlier : List ExchangeNote} {n : ExchangeNote}
    (h : Kept (later ++ n :: earlier)) : n.Follows earlier := h.suffix.2

/-- Once something has come to an end, nothing is noted that only opens or puts. -/
theorem Kept.not_after_settled {later earlier : List ExchangeNote} {n m : ExchangeNote}
    (h : Kept (later ++ n :: earlier)) (hn : n.settles = true)
    (hm : ∀ journal, m.Follows journal → Unsettled journal) : m ∉ later := by
  intro hmem
  obtain ⟨front, rest, rfl⟩ := List.append_of_mem hmem
  rw [List.append_assoc] at h
  have hopen : Unsettled (rest ++ n :: earlier) := hm _ h.follows
  have hsettles := hopen n (by simp)
  rw [hn] at hsettles
  cases hsettles

/-- Once something has come to an end, no part of a stream moves. -/
theorem Kept.after_settled {later earlier : List ExchangeNote} {n : ExchangeNote}
    (h : Kept (later ++ n :: earlier)) (hn : n.settles = true) (m : Relay.Note Char ErrorCode) :
    .relay m ∉ later :=
  h.not_after_settled hn fun _ hfollows => hfollows

/-- Once something has come to an end, the connection is not put. -/
theorem Kept.unput_after_settled {later earlier : List ExchangeNote} {n : ExchangeNote}
    (h : Kept (later ++ n :: earlier)) (hn : n.settles = true) (p : ParserState) (c : Bool) :
    .put p c ∉ later :=
  h.not_after_settled hn fun _ hfollows => hfollows.1

/-- A stream that ended well was not cancelled, and was told no other end. -/
theorem Kept.finished {journal : List ExchangeNote} (h : Kept journal)
    (hfinish : .finish none false ∈ journal) :
    .cancelled ∉ journal ∧ ∀ f d, .finish f d ∈ journal → f = none ∧ d = false := by
  obtain ⟨later, earlier, rfl⟩ := List.append_of_mem hfinish
  have hearlier := h.follows
  have hlater : ∀ m ∈ later, m ≠ .cancelled ∧ ∀ f d, m ≠ .finish f d := by
    intro m hmem
    obtain ⟨front, rest, rfl⟩ := List.append_of_mem hmem
    rw [List.append_assoc] at h
    have hfollows := h.follows
    constructor
    · rintro rfl
      exact hfollows.1 none false (by simp)
    · rintro f d rfl
      exact hfollows.1 none false (by simp)
  obtain ⟨hfirst, ⟨-, -, huncancelled⟩ | ⟨hfailed, -⟩⟩ := hearlier
  · refine ⟨fun hmem => ?_, fun f d hmem => ?_⟩
    · simp only [List.mem_append, List.mem_cons, reduceCtorEq, false_or] at hmem
      rcases hmem with hmem | hmem
      · exact (hlater _ hmem).1 rfl
      · exact huncancelled hmem
    · rcases List.mem_append.mp hmem with hmem | hmem
      · exact absurd rfl ((hlater _ hmem).2 f d)
      · rcases List.mem_cons.mp hmem with heq | hmem
        · cases heq
          exact ⟨rfl, rfl⟩
        · exact absurd hmem (hfirst f d)
  · exact absurd ⟨rfl, rfl⟩ hfailed

namespace Exchange

variable {E : Type}

/-! ## Predicates of one exchange -/

/-- The operations of an exchange that is not streaming yet, deadlines apart. -/
def preStream : ExchangeOp → Bool
  | .resolve | .connect | .handshake | .write | .readHeader | .readBody => true
  | .readBlock | .wait _ => false

/-- The operations that read the response. -/
def reads : ExchangeOp → Bool
  | .readHeader | .readBody | .readBlock => true
  | .resolve | .connect | .handshake | .write | .wait _ => false

/-- How many blocks are being read. -/
def blocks (x : Exchange) : Nat := x.ops.count .readBlock

def stages (x : Exchange) : Nat := x.ops.countP preStream

/-- Every put is in the journal, and the connection was neither put twice nor put and
closed. -/
def LeaseOk (x : Exchange) : Prop :=
  x.journal.countP ExchangeNote.isPut = x.puts
    ∧ ((x.lease ≠ .pooled ∧ x.puts = 0) ∨ (x.lease = .pooled ∧ x.puts = 1))

/-- The claim is free and the callbacks are in place. -/
structure Unclaimed (x : Exchange) : Prop where
  completed : x.completed = false
  onComplete : x.onComplete = true
  onAbort : x.onAbort = true
  finish : x.finish = true
  lease : LeaseOk x
  kept : Kept x.journal
  unfinished : ∀ f d, .finish f d ∉ x.journal

/-- Its connection was not put. -/
structure Open (x : Exchange) : Prop extends Unclaimed x where
  unput : ∀ p c, .put p c ∉ x.journal

/-- An exchange that waits for its next completion: one stage at a time, and none
once it streams. -/
structure Live (x : Exchange) : Prop extends Open x where
  observed : x.observed = false
  held : x.lease = .held
  oneStage : x.stages + x.streamStarted.toNat ≤ 1
  noBlock : x.streamStarted = false → x.blocks = 0
  unsettled : Unsettled x.journal
  silent : x.streamStarted = false → ∀ n, .relay n ∉ x.journal
  written : (∃ op ∈ x.ops, reads op = true) ∨ x.streamStarted = true →
    .requestWritten ∈ x.journal
  accepted : x.streamStarted = true → 200 ≤ x.parser.response.status
    ∧ x.parser.response.fields.has "upgrade".toList = false

/-- The exchange is over. -/
structure Ended (x : Exchange) : Prop where
  completed : x.completed = true
  observed : x.observed = true
  onComplete : x.onComplete = false
  disposed : x.lease ≠ .held
  lease : LeaseOk x
  kept : Kept x.journal
  verdict : ∀ n, .relay n ∈ x.journal → .cancelled ∈ x.journal ∨ .finish none false ∈ x.journal

/-- What identifies an exchange, and that the notes the owner would see are not made. -/
structure Kin (x x' : Exchange) : Prop where
  selected : x'.selected = x.selected
  downstream : x'.downstreamRequest = x.downstreamRequest
  upstream : x'.upstreamRequest = x.upstreamRequest
  stream : x.streamStarted = true → x'.streamStarted = true
  blocks : x'.blocks ≤ x.blocks
  journal : ∃ later, x'.journal = later ++ x.journal ∧ ∀ n ∈ later, n.flows = false

/-- An update of other fields. -/
theorem Kin.of_eq {x x' : Exchange} (hselected : x'.selected = x.selected)
    (hdownstream : x'.downstreamRequest = x.downstreamRequest)
    (hupstream : x'.upstreamRequest = x.upstreamRequest)
    (hstream : x.streamStarted = true → x'.streamStarted = true) (hops : x'.ops = x.ops)
    (hjournal : x'.journal = x.journal) : Kin x x' :=
  ⟨hselected, hdownstream, hupstream, hstream,
    Nat.le_of_eq (congrArg (List.count ExchangeOp.readBlock) hops), [], hjournal,
    fun n hn => by cases hn⟩

theorem Kin.refl (x : Exchange) : Kin x x := .of_eq rfl rfl rfl id rfl rfl

theorem Kin.trans {x y z : Exchange} (h : Kin x y) (h' : Kin y z) : Kin x z := by
  obtain ⟨later, hlater, hnotes⟩ := h.journal
  obtain ⟨later', hlater', hnotes'⟩ := h'.journal
  refine ⟨h'.selected.trans h.selected, h'.downstream.trans h.downstream,
    h'.upstream.trans h.upstream, h'.stream ∘ h.stream, Nat.le_trans h'.blocks h.blocks,
    later' ++ later, ?_, fun n hn => ?_⟩
  · rw [hlater', hlater, List.append_assoc]
  · rcases List.mem_append.mp hn with hn | hn
    · exact hnotes' n hn
    · exact hnotes n hn

/-- A note that the owner does not see. -/
theorem Kin.record {n : ExchangeNote} (hn : n.flows = false) (x : Exchange) : Kin x (x.record n) :=
  ⟨rfl, rfl, rfl, id, Nat.le_refl _, [n], rfl, fun m hm => by
    rw [List.mem_singleton.mp hm]
    exact hn⟩

/-- Only exchange `k`, the pool and the budget changed. -/
structure Same (k : Nat) (w w' : World E) : Prop where
  env : w'.env = w.env
  next : w'.nextExchange = w.nextExchange
  others : ∀ j, j ≠ k → w'.exs j = w.exs j
  kin : Kin (w.exs k) (w'.exs k)
  admission : w'.shared.admission = w.shared.admission
  metrics : w'.shared.metrics = w.shared.metrics
  checks : w'.shared.checks = w.shared.checks
  now : w'.shared.now = w.shared.now

variable {k : Nat} {w w' w'' : World E}

theorem Same.refl (k : Nat) (w : World E) : Same k w w :=
  ⟨rfl, rfl, fun _ _ => rfl, Kin.refl _, rfl, rfl, rfl, rfl⟩

theorem Same.trans (h : Same k w w') (h' : Same k w' w'') : Same k w w'' :=
  ⟨h'.env.trans h.env, h'.next.trans h.next,
    fun j hj => (h'.others j hj).trans (h.others j hj), h.kin.trans h'.kin,
    h'.admission.trans h.admission, h'.metrics.trans h.metrics, h'.checks.trans h.checks,
    h'.now.trans h.now⟩

/-- An update of exchange `k` alone. -/
theorem Same.setEx (h : Same k w w') {f : Exchange → Exchange}
    (hf : Kin (w'.exs k) (f (w'.exs k))) : Same k w (w'.setEx k f) where
  env := h.env
  next := h.next
  others j hj := by rw [World.setEx_ne hj, h.others j hj]
  kin := by
    rw [World.setEx_same]
    exact h.kin.trans hf
  admission := h.admission
  metrics := h.metrics
  checks := h.checks
  now := h.now

/-- An update of exchange `k` that leaves who it is for. -/
theorem Same.set (h : Same k w w') {f : Exchange → Exchange}
    (hf : ∀ x, Kin x (f x)) : Same k w (w'.setEx k f) := h.setEx (hf _)

theorem kin_finishDeadline (x : Exchange) : Kin x x.finishDeadline :=
  .of_eq rfl rfl rfl id rfl rfl

theorem kin_recordFailure (stage : ProxyFailureStage) (x : Exchange) :
    Kin x (x.recordFailure stage) := .of_eq rfl rfl rfl id rfl rfl

theorem kin_expire (generation : Nat) (x : Exchange) : Kin x (x.expire generation) := by
  unfold expire
  split
  · exact Kin.refl x
  · exact .of_eq rfl rfl rfl id rfl rfl

theorem kin_closeUpstream (x : Exchange) : Kin x x.closeUpstream := by
  unfold closeUpstream
  split <;> exact .of_eq rfl rfl rfl id rfl rfl

theorem kin_cancelOperations (x : Exchange) : Kin x x.cancelOperations := by
  refine Kin.trans (Kin.record (n := .cancelled) rfl x) ?_
  exact Kin.trans (y := { x.record .cancelled with observed := true })
    (.of_eq rfl rfl rfl id rfl rfl) (kin_closeUpstream _)

/-! ### How the updates act on the predicates -/

theorem closeUpstream_lease (x : Exchange) :
    x.closeUpstream.lease ≠ .held ∧ (LeaseOk x → LeaseOk x.closeUpstream) := by
  unfold closeUpstream
  split
  · rename_i hheld
    refine ⟨by simp, fun h => ?_⟩
    rcases h with ⟨hnoted, ⟨-, hp⟩ | ⟨hpool, -⟩⟩
    · exact ⟨hnoted, Or.inl ⟨by simp, hp⟩⟩
    · simp [hheld] at hpool
  · rename_i hheld
    exact ⟨hheld, id⟩

theorem LeaseOk.record {x : Exchange} (h : LeaseOk x) {n : ExchangeNote} (hn : n.isPut = false) :
    LeaseOk (x.record n) := by
  refine ⟨?_, h.2⟩
  show (n :: x.journal).countP ExchangeNote.isPut = x.puts
  rw [List.countP_cons_of_neg (by simp [hn])]
  exact h.1

/-- `cancel_operations` only sets a flag and disposes of the connection. -/
theorem cancelOperations_eq (x : Exchange) : ∃ lease,
    x.cancelOperations = { x.record .cancelled with observed := true, lease } ∧ lease ≠ .held := by
  unfold cancelOperations closeUpstream
  split
  · exact ⟨.closed, rfl, by simp⟩
  · rename_i h
    exact ⟨x.lease, rfl, h⟩

theorem Unclaimed.unfinished_record {x : Exchange} (h : Unclaimed x) {n : ExchangeNote}
    (hfinish : ∀ f d, n ≠ .finish f d) (f : Option ProxyFailure) (d : Bool) :
    .finish f d ∉ (x.record n).journal := by
  intro hmem
  rcases List.mem_cons.mp hmem with heq | hmem
  · exact hfinish f d heq.symm
  · exact h.unfinished f d hmem

/-- The claim is free whatever is noted, as long as the journal stays in order. -/
theorem Unclaimed.record {x : Exchange} (h : Unclaimed x) {n : ExchangeNote}
    (hn : n.Follows x.journal) (hput : n.isPut = false) (hfinish : ∀ f d, n ≠ .finish f d) :
    Unclaimed (x.record n) :=
  { h with
    lease := h.lease.record hput
    kept := ⟨h.kept, hn⟩
    unfinished := h.unfinished_record hfinish }

theorem Unclaimed.cancelOperations {x : Exchange} (h : Unclaimed x)
    (hput : (∃ p c, .put p c ∈ x.journal) → ∃ rest, x.journal = .aborted :: rest) :
    Unclaimed x.cancelOperations := by
  have hlease : LeaseOk x.cancelOperations := (closeUpstream_lease _).2 (h.lease.record rfl)
  have hrecord : Unclaimed (x.record .cancelled) :=
    h.record ⟨h.unfinished, hput⟩ rfl fun f d hne => by cases hne
  obtain ⟨lease, heq, -⟩ := cancelOperations_eq x
  rw [heq] at hlease ⊢
  exact { hrecord with lease := hlease }

theorem Open.cancelOperations {x : Exchange} (h : Open x) : Open x.cancelOperations := by
  have hunclaimed := h.toUnclaimed.cancelOperations fun ⟨p, c, hput⟩ => absurd hput (h.unput p c)
  obtain ⟨lease, heq, -⟩ := cancelOperations_eq x
  rw [heq] at hunclaimed ⊢
  exact
    { hunclaimed with
      unput := by
        intro p c hmem
        rcases List.mem_cons.mp hmem with hne | hmem
        · cases hne
        · exact h.unput p c hmem }

theorem cancelOperations_disposed (x : Exchange) : x.cancelOperations.lease ≠ .held :=
  (closeUpstream_lease _).1

theorem cancelOperations_cancelled (x : Exchange) : .cancelled ∈ x.cancelOperations.journal := by
  obtain ⟨lease, heq, -⟩ := cancelOperations_eq x
  rw [heq]
  exact List.mem_cons_self ..

/-! ## Ending an exchange -/

variable {F : Site → Prop} {cb : EndCallbacks E} {scb : StreamCallbacks E} {lib : Library}
  {Q : World E → Prop} {R : World E → Prop}

/-- The last statement of both completion actions. -/
def dropAbort (x : Exchange) : Exchange := { x with onAbort := false }

theorem wp_notifyAbort (hab : (w.exs k).onAbort = true)
    (h : wp F (cb.abort k) (fun _ => Q) (fun _ => False)
      (w.setEx k fun x => { x with onComplete := false, onAbort := false })) :
    wp F (notifyAbort cb k) (fun _ => Q) R w := by
  unfold notifyAbort
  simp only [wp_modify_bind, wp_get_bind]
  rw [if_pos (by simpa using hab)]
  simp only [wp_modify_bind, World.setEx_setEx]
  exact wp_tryCatch (wp_mono h (fun _ _ hq => hq) (fun _ hf => hf.elim))

/-- An exception in a handler ends the exchange, unless it is over already. -/
theorem wp_abandon (hu : Unclaimed (w.exs k))
    (hspent : (∃ p c, .put p c ∈ (w.exs k).journal) → ∀ n, .relay n ∉ (w.exs k).journal)
    (h : ∀ w', Same k w w' → Ended (w'.exs k) →
      wp F (cb.abort k) (fun _ => Q) (fun _ => False) w') :
    wp F (abandon cb k) (fun _ => Q) R w := by
  have hclaimed : Kept ((w.exs k).claim.record .aborted).journal :=
    ⟨hu.kept, hu.unfinished, hspent⟩
  have hcancelled : Kept ((w.exs k).claim.record .aborted |>.record .cancelled).journal := by
    refine ⟨hclaimed, fun f d hmem => ?_, fun _ => ⟨_, rfl⟩⟩
    rcases List.mem_cons.mp hmem with hne | hmem
    · cases hne
    · exact hu.unfinished f d hmem
  unfold abandon
  simp only [wp_get_bind]
  rw [if_neg (by simp [hu.completed])]
  simp only [wp_modify_bind]
  have hlease : LeaseOk ((w.exs k).claim.record .aborted).cancelOperations :=
    (closeUpstream_lease _).2 (LeaseOk.record (hu.lease.record rfl) rfl)
  have hkin : Kin (w.exs k) ((w.exs k).claim.record .aborted).cancelOperations := by
    refine Kin.trans (y := (w.exs k).claim) (.of_eq rfl rfl rfl id rfl rfl) ?_
    exact (Kin.record rfl _).trans (kin_cancelOperations _)
  obtain ⟨lease, heq, hdisp⟩ := cancelOperations_eq ((w.exs k).claim.record .aborted)
  rw [heq] at hlease hkin
  have habort : ((w.setEx k fun x => (x.claim.record .aborted).cancelOperations).exs k).onAbort
      = true := by
    rw [World.setEx_same, heq]
    exact hu.onAbort
  refine wp_notifyAbort habort (h _ ?_ ?_)
  · simp only [World.setEx_setEx]
    refine (Same.refl k w).setEx ?_
    rw [heq]
    exact hkin.trans (.of_eq rfl rfl rfl id rfl rfl)
  · simp only [World.setEx_setEx, World.setEx_same, heq]
    exact ⟨rfl, rfl, rfl, hdisp, hlease, hcancelled, fun _ _ => Or.inl (List.mem_cons_self ..)⟩

/-- What remains to be done after an exception. -/
def Rescued (F : Site → Prop) (cb : EndCallbacks E) (k : Nat) (Q : World E → Prop)
    (w : World E) : Prop :=
  wp F (abandon cb k) (fun _ => Q) (fun _ => False) w

theorem wp_runHandler {body : GateAct E Unit} (h : wp F body (fun _ => Q) (Rescued F cb k Q) w) :
    wp F (runHandler cb k body) (fun _ => Q) (fun _ => False) w :=
  wp_tryCatch h

theorem wp_complete {result : ProxyResult} (hu : Unclaimed (w.exs k))
    (hd : (w.exs k).lease ≠ .held)
    (hverdict : ∀ n, .relay n ∈ (w.exs k).journal → .cancelled ∈ (w.exs k).journal)
    (h : ∀ w', Same k w w' → Ended (w'.exs k) →
      wp F (cb.complete k result) (fun _ w'' => Q (w''.setEx k dropAbort)) (fun _ => False) w') :
    wp F (complete cb k result) (fun _ => Q) R w := by
  unfold complete
  simp only [wp_get_bind]
  rw [if_neg (by simp [hu.completed])]
  simp only [wp_modify_bind]
  refine wp_tryCatch ?_
  simp only [wp_modify_bind, wp_get_bind, World.setEx_setEx]
  rw [if_pos (by simp [hu.onComplete])]
  simp only [wp_modify_bind, World.setEx_setEx]
  refine wp_bind (wp_mono (h _ ((Same.refl k w).set fun x => .of_eq rfl rfl rfl id rfl rfl) ?_) ?_
    (fun _ hf => hf.elim))
  · rw [World.setEx_same]
    exact ⟨rfl, rfl, rfl, hd, hu.lease, hu.kept, fun n hn => Or.inl (hverdict n hn)⟩
  · intro _ w'' hq
    exact wp_modify.mpr hq

/-- The owner is told with the claim taken; it finds that this was noted. -/
theorem wp_completeStream {failure : Option ProxyFailure} {downstreamFailed : Bool}
    (hu : Unclaimed (w.exs k)) (hd : (w.exs k).lease ≠ .held)
    (hnote : (ExchangeNote.finish failure downstreamFailed).Follows (w.exs k).journal)
    (h : ∀ w', Same k w w' → Ended ((w'.exs k).record (.finish failure downstreamFailed)) →
      wp F (cb.finish k failure downstreamFailed) (fun _ w'' => Q (w''.setEx k dropAbort))
        (fun _ => False) (w'.setEx k (record (.finish failure downstreamFailed)))) :
    wp F (completeStream cb k failure downstreamFailed) (fun _ => Q) R w := by
  have hverdict : .cancelled ∈ (ExchangeNote.finish failure downstreamFailed :: (w.exs k).journal)
      ∨ .finish none false
        ∈ (ExchangeNote.finish failure downstreamFailed :: (w.exs k).journal) := by
    obtain ⟨-, ⟨rfl, rfl, -⟩ | ⟨-, hcancelled, -⟩⟩ := hnote
    · exact Or.inr (List.mem_cons_self ..)
    · exact Or.inl (List.mem_cons_of_mem _ hcancelled)
  unfold completeStream
  simp only [wp_get_bind]
  rw [if_neg (by simp [hu.completed])]
  simp only [wp_modify_bind]
  refine wp_tryCatch ?_
  simp only [wp_modify_bind, wp_get_bind, World.setEx_setEx]
  rw [if_pos (by simp [hu.finish])]
  refine wp_bind (wp_modify.mpr (wp_bind ?_))
  refine wp_mono (h _ ((Same.refl k w).set fun x => .of_eq rfl rfl rfl id rfl rfl) ?_) ?_
    (fun _ hf => hf.elim)
  · rw [World.setEx_same]
    exact ⟨rfl, rfl, rfl, hd, hu.lease.record rfl, ⟨hu.kept, hnote⟩, fun _ _ => hverdict⟩
  · intro _ w'' hq
    exact wp_modify.mpr hq

/-! ## What the owner answers for -/

end Exchange

/-- A response made from an upstream one has its reason and its status, or 0 for
a status that is not registered. -/
def HttpResponse.From (lib : Library) (r up : HttpResponse) : Prop :=
  r.status = lib.intToStatus up.status ∧ r.reason = up.reason

def ProxyResult.Faithful (lib : Library) (r : ProxyResult) : Prop :=
  ∀ up, r.upstream = some up → r.response.From lib up

namespace Exchange

variable {E : Type} {F : Site → Prop} {cb : EndCallbacks E} {scb : StreamCallbacks E}
  {lib : Library} {k : Nat} {w w' w'' w₁ : World E} {Q R : World E → Prop}
  {reading success : Prop}

/-- The exchange goes on, from `w` to `w₁`. -/
structure Going (k : Nat) (w w₁ : World E) : Prop where
  same : Same k w w₁
  live : Live (w₁.exs k)
  stream : (w₁.exs k).streamStarted = (w.exs k).streamStarted

/-- The ways in which an exchange that streams can end from `w` on. `success` is what
must hold when it ends without a failure. -/
structure Ends (F : Site → Prop) (cb : EndCallbacks E) (k : Nat) (w : World E) (success : Prop)
    (Q : World E → Prop) : Prop where
  abort : ∀ w', Same k w w' → Ended (w'.exs k) →
    wp F (cb.abort k) (fun _ => Q) (fun _ => False) w'
  finish : (w.exs k).streamStarted = true → ∀ w' failure downstreamFailed, Same k w w' →
    Ended ((w'.exs k).record (.finish failure downstreamFailed)) →
    (failure = none → downstreamFailed = false → success) →
    wp F (cb.finish k failure downstreamFailed) (fun _ w'' => Q (w''.setEx k dropAbort))
      (fun _ => False) (w'.setEx k (record (.finish failure downstreamFailed)))

/-- The ways in which a handler of exchange `k` that starts in `w` can come out. A block read
that has delivered, which is when `reading` holds, is followed by the next one or by a block
for the owner. -/
structure Outcomes (F : Site → Prop) (cb : EndCallbacks E) (scb : StreamCallbacks E)
    (lib : Library) (k : Nat) (w : World E) (reading success : Prop)
    (Q : World E → Prop) : Prop extends Ends F cb k w success Q where
  quiet : ¬reading → ∀ w', Going k w w' → Q w'
  next : reading → (w.exs k).streamStarted = true → ∀ w', Going k w w' →
    (∃ earlier, (w.exs k).journal = .relay (.read [] false) :: earlier) →
    Q (w'.setEx k (addOp .readBlock))
  complete : (w.exs k).streamStarted = false → ∀ w' r, Same k w w' → Ended (w'.exs k) →
    r.Faithful lib →
    wp F (cb.complete k r) (fun _ w'' => Q (w''.setEx k dropAbort)) (fun _ => False) w'
  header : (w.exs k).streamStarted = false → ∀ w' head up final, Same k w w' →
    Live (w'.exs k) → (w'.exs k).streamStarted = true → head.From lib up →
    wp F (scb.header k head up final) (fun _ => Q) (Rescued F cb k Q)
      (w'.setEx k (record (.relay (.opened final))))
  body : reading → (w.exs k).streamStarted = true → ∀ w' block final, Same k w w' →
    Live (w'.exs k) → (w'.exs k).streamStarted = true →
    ¬(block = [] ∧ final = false) →
    (∃ earlier, (w.exs k).journal = .relay (.read block final) :: earlier) →
    wp F (scb.body k block final) (fun _ => Q) (Rescued F cb k Q)
      (w'.setEx k (record (.relay (.passed block final))))

/-- Wherever a handler throws while the claim is free, `abort` is called. -/
theorem Ends.rescued (o : Ends F cb k w success Q) (hs : Same k w w₁)
    (ho : Open (w₁.exs k)) : Rescued F cb k Q w₁ :=
  wp_abandon ho.toUnclaimed (fun ⟨p, c, hput⟩ => absurd hput (ho.unput p c))
    fun w' hs' he => o.abort w' (hs.trans hs') he

/-- The same when the connection was put, which only an exchange does that does not stream. -/
theorem Ends.rescued_silent (o : Ends F cb k w success Q) (hs : Same k w w₁)
    (hu : Unclaimed (w₁.exs k)) (hsilent : ∀ n, .relay n ∉ (w₁.exs k).journal) :
    Rescued F cb k Q w₁ :=
  wp_abandon hu (fun _ => hsilent) fun w' hs' he => o.abort w' (hs.trans hs') he

/-! ## Steps inside a handler -/

/-- A deadline is armed. -/
def armed (x : Exchange) : Exchange :=
  x.finishDeadline.addOp (.wait x.finishDeadline.deadlineGeneration)

theorem wp_beginDeadline :
    wp F (beginDeadline k) (fun _ w' => w' = w.setEx k armed)
      (fun w' => w' = w.setEx k finishDeadline) w := by
  unfold beginDeadline
  simp only [wp_modify_bind]
  refine wp_mayThrow_bind ?_ fun _ => rfl
  refine wp_modify.mpr ?_
  rw [World.setEx_setEx]
  rfl

theorem wp_initiate {site : Site} {op : ExchangeOp} :
    wp F (initiate site op k) (fun _ w' => w' = w.setEx k (addOp op)) (fun w' => w' = w) w := by
  unfold initiate
  refine wp_mayThrow_bind ?_ fun _ => rfl
  exact wp_modify.mpr rfl

/-- A stage begins with `begin_deadline`, which may get no further than its first half. -/
theorem wp_nextStage {site : Site} {op : ExchangeOp} :
    wp F (do beginDeadline k; initiate site op k)
      (fun _ w' => w' = w.setEx k fun x => x.armed.addOp op)
      (fun w' => w' = w.setEx k finishDeadline ∨ w' = w.setEx k armed) w := by
  refine wp_bind (wp_mono wp_beginDeadline ?_ fun _ h => Or.inl h)
  rintro _ w₁ rfl
  refine wp_mono wp_initiate ?_ fun _ h => Or.inr h
  rintro _ w₂ rfl
  rw [World.setEx_setEx]

theorem kin_addOp {op : ExchangeOp} (hop : op ≠ .readBlock) (x : Exchange) :
    Kin x (x.addOp op) :=
  ⟨rfl, rfl, rfl, id, Nat.le_of_eq (List.count_cons_of_ne hop), [], rfl, fun n hn => by cases hn⟩

theorem kin_armed (x : Exchange) : Kin x x.armed :=
  (kin_finishDeadline x).trans (kin_addOp (by simp) _)

theorem blocks_armed (x : Exchange) : x.armed.blocks = x.blocks := by
  simp [blocks, armed, addOp, finishDeadline]

theorem Live.finishDeadline {x : Exchange} (h : Live x) : Live x.finishDeadline := { h with }

theorem Live.expire {x : Exchange} (h : Live x) (generation : Nat) : Live (x.expire generation) := by
  unfold Exchange.expire
  split
  · exact h
  · exact { h with }

theorem Live.armed {x : Exchange} (h : Live x) : Live x.armed :=
  { h with
    oneStage := h.oneStage
    noBlock := fun hs => (blocks_armed x).trans (h.noBlock hs)
    written := by
      intro hread
      refine h.written (hread.imp_left ?_)
      rintro ⟨op, hmem, hop⟩
      rcases List.mem_cons.mp hmem with rfl | hmem
      · cases hop
      · exact ⟨op, hmem, hop⟩ }

/-- A note that does not settle anything. -/
theorem Live.record {x : Exchange} (h : Live x) {n : ExchangeNote} (hn : n.settles = false)
    (hrelay : ∀ m, n = .relay m → x.streamStarted = true) : Live (x.record n) where
  toUnclaimed := by
    refine h.toUnclaimed.record ?_ ?_ ?_
    · cases n with
      | requestWritten => exact h.unsettled
      | relay => exact h.unsettled
      | _ => cases hn
    · cases n with
      | put => cases hn
      | _ => rfl
    · rintro f d rfl
      cases hn
  unput := by
    intro p c hmem
    rcases List.mem_cons.mp hmem with rfl | hmem
    · cases hn
    · exact h.unput p c hmem
  observed := h.observed
  held := h.held
  oneStage := h.oneStage
  noBlock := h.noBlock
  unsettled := by
    intro m hmem
    rcases List.mem_cons.mp hmem with rfl | hmem
    · exact hn
    · exact h.unsettled m hmem
  silent := by
    intro hs m hmem
    rcases List.mem_cons.mp hmem with heq | hmem
    · have hstream := hrelay m heq.symm
      rw [show x.streamStarted = false from hs] at hstream
      cases hstream
    · exact h.silent hs m hmem
  written := fun hread => List.mem_cons_of_mem _ (h.written hread)
  accepted := h.accepted

theorem Live.relay {x : Exchange} (h : Live x) (hs : x.streamStarted = true)
    (m : Relay.Note Char ErrorCode) : Live (x.record (.relay m)) :=
  h.record rfl fun _ _ => hs

theorem Live.addStage {x : Exchange} (h : Live x) {op : ExchangeOp} (hop : preStream op = true)
    (hz : x.stages = 0) (hs : x.streamStarted = false)
    (hwritten : reads op = true → .requestWritten ∈ x.journal) : Live (x.addOp op) :=
  { h with
    oneStage := by
      show (op :: x.ops).countP preStream + x.streamStarted.toNat ≤ 1
      rw [List.countP_cons_of_pos hop, hs]
      have : x.ops.countP preStream = 0 := hz
      simp [this]
    noBlock := fun _ => by
      have hne : op ≠ .readBlock := by
        rintro rfl
        cases hop
      show (op :: x.ops).count .readBlock = 0
      rw [List.count_cons_of_ne hne]
      exact h.noBlock hs
    written := by
      rintro (⟨op', hmem, hop'⟩ | hstream)
      · rcases List.mem_cons.mp hmem with rfl | hmem
        · exact hwritten hop'
        · exact h.written (Or.inl ⟨op', hmem, hop'⟩)
      · exact h.written (Or.inr hstream) }

theorem Going.refl (hl : Live (w.exs k)) : Going k w w := ⟨Same.refl k w, hl, rfl⟩

theorem Going.armed (h : Going k w w₁) : Going k w (w₁.setEx k armed) where
  same := h.same.set kin_armed
  live := by
    rw [World.setEx_same]
    exact h.live.armed
  stream := by
    rw [World.setEx_same]
    exact h.stream

theorem Going.finishDeadline (h : Going k w w₁) : Going k w (w₁.setEx k finishDeadline) where
  same := h.same.set kin_finishDeadline
  live := by
    rw [World.setEx_same]
    exact h.live.finishDeadline
  stream := by
    rw [World.setEx_same]
    exact h.stream

theorem Going.expire (h : Going k w w₁) (generation : Nat) :
    Going k w (w₁.setEx k (expire generation)) where
  same := h.same.set (kin_expire generation)
  live := by
    rw [World.setEx_same]
    exact h.live.expire generation
  stream := by
    rw [World.setEx_same]
    refine Eq.trans ?_ h.stream
    unfold Exchange.expire
    split <;> rfl

theorem Going.requestWritten (h : Going k w w₁) :
    Going k w (w₁.setEx k (record .requestWritten)) where
  same := h.same.set (Kin.record rfl)
  live := by
    rw [World.setEx_same]
    exact h.live.record rfl fun m hm => by cases hm
  stream := by
    rw [World.setEx_same]
    exact h.stream

/-- The next stage is started, with or without its own deadline. -/
theorem Going.addStage (h : Going k w w₁) {op : ExchangeOp} (hop : preStream op = true)
    (hz : (w₁.exs k).stages = 0) (hs : (w.exs k).streamStarted = false)
    (hwritten : reads op = true → .requestWritten ∈ (w₁.exs k).journal) :
    Going k w (w₁.setEx k (addOp op)) where
  same := by
    refine h.same.set (kin_addOp ?_)
    rintro rfl
    cases hop
  live := by
    rw [World.setEx_same]
    exact h.live.addStage hop hz (h.stream.trans hs) hwritten
  stream := by
    rw [World.setEx_same]
    exact h.stream

/-- Most handlers end by arming a deadline and starting the next stage. -/
theorem Outcomes.wp_nextStage (o : Outcomes F cb scb lib k w reading success Q)
    (hquiet : ¬reading) (h : Going k w w₁) {site : Site} {op : ExchangeOp}
    (hop : preStream op = true) (hz : (w₁.exs k).stages = 0)
    (hs : (w.exs k).streamStarted = false)
    (hwritten : reads op = true → .requestWritten ∈ (w₁.exs k).journal) :
    wp F (do beginDeadline k; initiate site op k) (fun _ => Q) (Rescued F cb k Q) w₁ := by
  refine wp_bind (wp_mono wp_beginDeadline ?_ ?_)
  · rintro _ w₂ rfl
    refine wp_mono wp_initiate ?_ ?_
    · rintro _ w₃ rfl
      refine o.quiet hquiet _ (h.armed.addStage hop ?_ hs ?_)
      · rw [World.setEx_same]
        exact hz
      · rw [World.setEx_same]
        exact hwritten
    · rintro w₃ rfl
      exact o.rescued h.armed.same h.armed.live.toOpen
  · rintro w₂ rfl
    exact o.rescued h.finishDeadline.same h.finishDeadline.live.toOpen

/-! ## The ways to end -/

theorem faithful_of_none {r : ProxyResult} (h : r.upstream = none) : r.Faithful lib := by
  intro up hup
  simp [h] at hup

/-- The note of a failure, once the operations are cancelled. -/
theorem Open.finish_follows {x : Exchange} (h : Open x) {failure : Option ProxyFailure}
    {downstreamFailed : Bool} (hfailed : ¬(failure = none ∧ downstreamFailed = false)) :
    (ExchangeNote.finish failure downstreamFailed).Follows x.cancelOperations.journal :=
  ⟨h.cancelOperations.unfinished,
    Or.inr ⟨hfailed, cancelOperations_cancelled x, h.cancelOperations.unput⟩⟩

theorem Outcomes.wp_fail (o : Outcomes F cb scb lib k w reading success Q) (hs : Same k w w₁)
    (ho : Open (w₁.exs k)) (hobs : (w₁.exs k).observed = false)
    (hst : (w₁.exs k).streamStarted = (w.exs k).streamStarted) (stage : ProxyFailureStage)
    (error : Error) :
    wp F (fail cb k stage error) (fun _ => Q) (Rescued F cb k Q) w₁ := by
  have ho₁ : Open ((w₁.exs k).recordFailure stage).finishDeadline := { ho with }
  have ho' := ho₁.cancelOperations
  have hd := cancelOperations_disposed ((w₁.exs k).recordFailure stage).finishDeadline
  have hs' : Same k w
      (w₁.setEx k fun x => (x.recordFailure stage).finishDeadline.cancelOperations) :=
    hs.set fun x => (kin_recordFailure stage x).trans
      ((kin_finishDeadline _).trans (kin_cancelOperations _))
  unfold fail
  simp only [wp_get_bind]
  rw [if_neg (by simp [hobs])]
  simp only [wp_modify_bind]
  split
  · rename_i hstream
    refine wp_completeStream ?_ ?_ ?_ ?_
    · rw [World.setEx_same]
      exact ho'.toUnclaimed
    · rw [World.setEx_same]
      exact hd
    · rw [World.setEx_same]
      exact ho₁.finish_follows (by simp)
    · intro w' hs'' he
      exact o.finish (hst ▸ hstream) w' _ _ (hs'.trans hs'') he (fun hf => by cases hf)
  · rename_i hstream
    have hstarted : (w₁.exs k).streamStarted = false := by simpa using hstream
    refine wp_mayThrow_bind ?_ fun _ => o.rescued hs' ?_
    · refine wp_complete ?_ ?_ ?_ ?_
      · rw [World.setEx_same]
        exact ho'.toUnclaimed
      · rw [World.setEx_same]
        exact hd
      · rw [World.setEx_same]
        exact fun _ _ => cancelOperations_cancelled _
      · intro w' hs'' he
        exact o.complete (hst.symm.trans hstarted) w' _ (hs'.trans hs'') he (faithful_of_none rfl)
    · rw [World.setEx_same]
      exact ho'

theorem Going.wp_fail (h : Going k w w₁) (o : Outcomes F cb scb lib k w reading success Q)
    (stage : ProxyFailureStage) (error : Error) :
    wp F (fail cb k stage error) (fun _ => Q) (Rescued F cb k Q) w₁ :=
  o.wp_fail h.same h.live.toOpen h.live.observed h.stream stage error

theorem Going.wp_rejectBufferBudget (h : Going k w w₁)
    (o : Outcomes F cb scb lib k w reading success Q) (hs : (w.exs k).streamStarted = false)
    (bytes : UInt64) :
    wp F (rejectBufferBudget cb k bytes) (fun _ => Q) (Rescued F cb k Q) w₁ := by
  have ho : Open (w₁.exs k).cancelOperations := h.live.toOpen.cancelOperations
  have hs' : Same k w (w₁.setEx k cancelOperations) := h.same.set kin_cancelOperations
  unfold rejectBufferBudget
  simp only [wp_modify_bind]
  refine wp_mayThrow_bind ?_ fun _ => o.rescued hs' (by rwa [World.setEx_same])
  simp only [wp_get_bind]
  refine wp_complete ?_ ?_ ?_ ?_
  · rw [World.setEx_same]
    exact ho.toUnclaimed
  · rw [World.setEx_same]
    exact cancelOperations_disposed _
  · rw [World.setEx_same]
    exact fun _ _ => cancelOperations_cancelled _
  · intro w' hs'' he
    exact o.complete hs w' _ (hs'.trans hs'') he (faithful_of_none rfl)

/-! ### Letting go of the connection -/

/-- What is left when the connection was put, or closed. -/
structure Released (x x' : Exchange) : Prop where
  unclaimed : Unclaimed x'
  disposed : x'.lease ≠ .held
  journal : x'.journal = x.journal ∨ ∃ p, x'.journal = .put p true :: x.journal

theorem Released.uncancelled {x x' : Exchange} (h : Released x x') (hx : Live x) :
    .cancelled ∉ x'.journal := by
  have hnot : .cancelled ∉ x.journal := fun hmem => by cases hx.unsettled _ hmem
  rcases h.journal with heq | ⟨p, heq⟩
  · rwa [heq]
  · rw [heq]
    intro hmem
    rcases List.mem_cons.mp hmem with hne | hmem
    · cases hne
    · exact hnot hmem

theorem Released.silent {x x' : Exchange} (h : Released x x') (hx : Live x)
    (hs : x.streamStarted = false) (n : Relay.Note Char ErrorCode) : .relay n ∉ x'.journal := by
  rcases h.journal with heq | ⟨p, heq⟩
  · rw [heq]
    exact hx.silent hs n
  · rw [heq]
    intro hmem
    rcases List.mem_cons.mp hmem with hne | hmem
    · cases hne
    · exact hx.silent hs n hmem

/-- When the connection may be put. -/
def MayPut (x : Exchange) : Prop :=
  x.parser.Reusable ∧ .requestWritten ∈ x.journal
    ∧ ((∃ n, .relay n ∈ x.journal) → ∃ rest, x.journal = .relay (.taken none) :: rest)

/-- A finished exchange takes the deadline off and lets go of its connection. -/
theorem wp_release_bind {reusable clean : Bool} {f : Unit → GateAct E Unit} (hl : Live (w.exs k))
    (hput : reusable = true → clean = true ∧ MayPut (w.exs k))
    (h : ∀ w', Same k w w' → Released (w.exs k) (w'.exs k) → wp F (f ()) (fun _ => Q) R w') :
    wp F (modify (World.setEx k Exchange.finishDeadline) >>= fun _ =>
      modify (World.setEx k (recordPut reusable clean)) >>= fun _ =>
      releaseUpstream k reusable >>= f) (fun _ => Q) R w := by
  have hputs : (w.exs k).puts = 0 := by
    obtain ⟨-, ⟨-, hp⟩ | ⟨hpool, -⟩⟩ := hl.lease
    · exact hp
    · rw [hl.held] at hpool
      cases hpool
  have hkin : ∀ x, Kin x (x.finishDeadline.recordPut reusable clean) := by
    intro x
    refine (kin_finishDeadline x).trans ?_
    unfold recordPut
    split
    · exact Kin.record rfl _
    · exact Kin.refl _
  have hs : Same k w (w.setEx k fun x => x.finishDeadline.recordPut reusable clean) :=
    (Same.refl k w).set hkin
  have hrelease : wp F (releaseUpstream k reusable)
      (fun _ w' => Same k w w' ∧ Released (w.exs k) (w'.exs k)) R
      (w.setEx k fun x => x.finishDeadline.recordPut reusable clean) := by
    unfold releaseUpstream
    split
    · rename_i hreusable
      subst hreusable
      obtain ⟨rfl, hparser, hwritten, hstream⟩ := hput rfl
      have hunfinished := hl.toUnclaimed.unfinished_record (n := .put (w.exs k).parser true)
        fun f d hne => by cases hne
      have hnoted : ((w.exs k).record (.put (w.exs k).parser true)).journal.countP
          ExchangeNote.isPut = (w.exs k).puts + 1 := by
        rw [← hl.lease.1]
        exact List.countP_cons_of_pos rfl
      simp only [wp_get_bind]
      refine wp_ask_bind (wp_ask_bind ?_ fun _ => ?_) fun _ => wp_ask_bind ?_ fun _ => ?_
      all_goals
        refine wp_modify.mpr ⟨?_, ?_⟩
        · refine Same.setEx ?_ (.of_eq rfl rfl rfl id rfl rfl)
          exact hs.trans ⟨rfl, rfl, fun _ _ => rfl, Kin.refl _, rfl, rfl, rfl, rfl⟩
        · simp only [World.setEx_same, World.setShared]
          refine ⟨?_, by simp, Or.inr ⟨_, rfl⟩⟩
          exact
            { hl.toUnclaimed with
              lease := ⟨hnoted, Or.inr ⟨rfl, congrArg (· + 1) hputs⟩⟩
              kept := ⟨hl.kept, hl.unsettled, hparser, rfl, hwritten, hstream⟩
              unfinished := hunfinished }
    · rename_i hclosed
      refine wp_modify.mpr ⟨hs.set kin_closeUpstream, ?_⟩
      obtain rfl : reusable = false := by simpa using hclosed
      have heq : ((w.exs k).finishDeadline.recordPut false clean).closeUpstream
          = { (w.exs k).finishDeadline with lease := .closed } := if_pos hl.held
      simp only [World.setEx_same, heq]
      exact ⟨{ hl.toUnclaimed with lease := ⟨hl.lease.1, Or.inl ⟨by simp, hputs⟩⟩ }, by simp, Or.inl rfl⟩
  simp only [wp_modify_bind, World.setEx_setEx]
  refine wp_bind (wp_mono hrelease ?_ fun _ hr => hr)
  rintro _ w' ⟨hs', hr⟩
  exact h w' hs' hr

/-- The whole body was taken: the stream ends well. -/
theorem Going.wp_finishStream (h : Going k w w₁) (o : Ends F cb k w success Q)
    (hs : (w.exs k).streamStarted = true)
    (htaken : ∃ rest, (w₁.exs k).journal = .relay (.taken none) :: rest) (hsuccess : success) :
    wp F (finishStream cb k) (fun _ => Q) (Rescued F cb k Q) w₁ := by
  have hs₁ : (w₁.exs k).streamStarted = true := h.stream.trans hs
  have hput : ∀ clean, ((w₁.exs k).pooled && (w₁.exs k).parser.isDone
      && !(w₁.exs k).parser.needEof && (w₁.exs k).parser.response.keepAlive
      && decide ((w₁.exs k).parser.bufferSize = 0)
      && !(connectionTokens (w₁.exs k).parser.response.fields).contains "upgrade".toList
      && clean) = true → clean = true ∧ MayPut (w₁.exs k) := by
    intro clean hreusable
    simp only [Bool.and_eq_true, Bool.not_eq_true', decide_eq_true_eq] at hreusable
    obtain ⟨⟨⟨⟨⟨⟨-, hdone⟩, hframed⟩, hkeep⟩, hdrained⟩, htoken⟩, hclean⟩ := hreusable
    obtain ⟨hstatus, hupgrade⟩ := h.live.accepted hs₁
    exact ⟨hclean, ⟨hdone, hframed, hkeep, hstatus, hupgrade, htoken, hdrained⟩,
      h.live.written (Or.inr hs₁), fun _ => htaken⟩
  have hend : ∀ w₂, Same k w₁ w₂ → Released (w₁.exs k) (w₂.exs k) →
      wp F (completeStream cb k none false) (fun _ => Q) (Rescued F cb k Q) w₂ := by
    intro w₂ hs₂ hr
    refine wp_completeStream hr.unclaimed hr.disposed
      ⟨hr.unclaimed.unfinished, Or.inl ⟨rfl, rfl, hr.uncancelled h.live⟩⟩ ?_
    intro w' hs' he
    exact o.finish hs w' _ _ (h.same.trans (hs₂.trans hs')) he fun _ _ => hsuccess
  unfold finishStream
  refine wp_mayThrow_bind ?_ fun _ => o.rescued h.same h.live.toOpen
  simp only [wp_get_bind]
  exact wp_ask_bind (wp_release_bind h.live (hput _) hend) fun _ =>
    wp_release_bind h.live (hput _) hend

/-- The response is handed over, unless there is none or building it throws. -/
theorem wp_finishResponse (hl : Live (w.exs k)) (hs : (w.exs k).streamStarted = false)
    (hwritten : .requestWritten ∈ (w.exs k).journal)
    (hthrow : ∀ w', Same k w w' → Unclaimed (w'.exs k) →
      (∀ n, .relay n ∉ (w'.exs k).journal) → ¬F .build → R w')
    (hnone : ∀ e, makeDownstreamResponse lib (w.exs k).downstreamRequest
        (w.exs k).parser.response = .error e →
      ∀ w', Same k w w' → Unclaimed (w'.exs k) → (∀ n, .relay n ∉ (w'.exs k).journal) → R w')
    (hsome : ∀ response bodyPermit, makeDownstreamResponse lib (w.exs k).downstreamRequest
        (w.exs k).parser.response = .ok response →
      ∀ w', Same k w w' → Ended (w'.exs k) →
        wp F (cb.complete k { response, bodyPermit, upstream := some (w.exs k).parser.response })
          (fun _ w'' => Q (w''.setEx k dropAbort)) (fun _ => False) w') :
    wp F (finishResponse cb lib k) (fun _ => Q) R w := by
  have hsilent := hl.silent hs
  have hput : ∀ clean, ((w.exs k).pooled && (w.exs k).parser.isDone
      && !(w.exs k).parser.needEof && (w.exs k).parser.response.keepAlive
      && decide ((w.exs k).parser.response.status ≥ 200)
      && !(w.exs k).parser.response.fields.has "upgrade".toList
      && !(connectionTokens (w.exs k).parser.response.fields).contains "upgrade".toList
      && decide ((w.exs k).parser.bufferSize = 0) && clean) = true →
      clean = true ∧ MayPut (w.exs k) := by
    intro clean hreusable
    simp only [Bool.and_eq_true, Bool.not_eq_true', decide_eq_true_eq] at hreusable
    obtain ⟨⟨⟨⟨⟨⟨⟨⟨-, hdone⟩, hframed⟩, hkeep⟩, hstatus⟩, hupgrade⟩, htoken⟩, hdrained⟩, hclean⟩ :=
      hreusable
    refine ⟨hclean, ⟨hdone, hframed, hkeep, hstatus, hupgrade, htoken, hdrained⟩, hwritten, ?_⟩
    rintro ⟨n, hn⟩
    exact absurd hn (hsilent n)
  unfold finishResponse
  refine wp_mayThrow_bind ?_ (hthrow w (Same.refl k w) hl.toUnclaimed hsilent)
  simp only [wp_get_bind]
  refine wp_ask_bind ?_ fun _ => ?_
  all_goals
    refine wp_release_bind hl (hput _) ?_
    intro w₂ hs₂ hr
    refine wp_mayThrow_bind ?_ (hthrow w₂ hs₂ hr.unclaimed (hr.silent hl hs))
    cases hresp : makeDownstreamResponse lib (w.exs k).downstreamRequest
        (w.exs k).parser.response with
    | error e => exact wp_throw.mpr (hnone e hresp w₂ hs₂ hr.unclaimed (hr.silent hl hs))
    | ok response =>
        have hs₂' : Same k w (w₂.setEx k fun x => { x with responseBodyPermit := {} }) :=
          hs₂.set fun x => .of_eq rfl rfl rfl id rfl rfl
        simp only [wp_modify_bind]
        refine wp_complete ?_ ?_ ?_ ?_
        · rw [World.setEx_same]
          exact { hr.unclaimed with }
        · rw [World.setEx_same]
          exact hr.disposed
        · rw [World.setEx_same]
          exact fun n hn => absurd hn (hr.silent hl hs n)
        · exact fun w₃ hs₃ he => hsome response _ hresp w₃ (hs₂'.trans hs₃) he

theorem Going.wp_finishResponse (h : Going k w w₁)
    (o : Outcomes F cb scb lib k w reading success Q) (hs : (w.exs k).streamStarted = false)
    (hwritten : .requestWritten ∈ (w₁.exs k).journal) :
    wp F (finishResponse cb lib k) (fun _ => Q) (Rescued F cb k Q) w₁ := by
  refine Exchange.wp_finishResponse h.live (h.stream.trans hs) hwritten ?_ ?_ ?_
  · exact fun w' hs' hu hsilent _ => o.rescued_silent (h.same.trans hs') hu hsilent
  · exact fun _ _ w' hs' hu hsilent => o.rescued_silent (h.same.trans hs') hu hsilent
  · intro response bodyPermit hresp w' hs' he
    refine o.complete hs w' _ (h.same.trans hs') he ?_
    rintro up hup
    cases hup
    exact makeDownstreamResponse_head hresp

/-! ## Streaming -/

theorem streamHead_from (request : HttpRequest) (parser : ParserState) :
    (streamHead lib request parser).From lib parser.response := by
  unfold streamHead
  dsimp only
  split
  · split
    · exact ⟨rfl, rfl⟩
    · split <;> exact ⟨rfl, rfl⟩
  · split <;> exact ⟨rfl, rfl⟩

/-- The stream starts where the last stage has just completed. -/
theorem Live.startStream {x : Exchange} (h : Live x) (hz : x.stages = 0)
    (hwritten : .requestWritten ∈ x.journal)
    (haccepted : 200 ≤ x.parser.response.status
      ∧ x.parser.response.fields.has "upgrade".toList = false) :
    Live { x with streamStarted := true } :=
  { h with
    oneStage := by
      show x.stages + 1 ≤ 1
      omega
    noBlock := fun hs => by cases hs
    silent := fun hs => by cases hs
    written := fun _ => hwritten
    accepted := fun _ => haccepted }

theorem Going.wp_sendStreamHead (h : Going k w w₁)
    (o : Outcomes F cb scb lib k w reading success Q) (hs : (w.exs k).streamStarted = false)
    (hz : (w₁.exs k).stages = 0) (hwritten : .requestWritten ∈ (w₁.exs k).journal)
    (haccepted : 200 ≤ (w₁.exs k).parser.response.status
      ∧ (w₁.exs k).parser.response.fields.has "upgrade".toList = false) :
    wp F (sendStreamHead lib scb k) (fun _ => Q) (Rescued F cb k Q) w₁ := by
  unfold sendStreamHead
  refine wp_mayThrow_bind ?_ fun _ => o.rescued h.same h.live.toOpen
  simp only [wp_get_bind, wp_modify_bind]
  have hs' : Same k w (w₁.setEx k fun x => { x with streamStarted := true }) :=
    h.same.set fun x => .of_eq rfl rfl rfl (fun _ => rfl) rfl rfl
  have hl' : Live ((w₁.setEx k fun x => { x with streamStarted := true }).exs k) := by
    rw [World.setEx_same]
    exact h.live.startStream hz hwritten haccepted
  refine wp_mayThrow_bind ?_ fun _ => o.rescued hs' hl'.toOpen
  simp only [wp_modify_bind]
  refine o.header hs _ _ _ _ hs' hl' ?_ (streamHead_from _ _)
  rw [World.setEx_same]

/-- A permit for the body was taken from the budget. -/
theorem Going.takePermit (h : Going k w w₁) (f : Exchange → Exchange)
    (budget : BufferBudgetControl)
    (hf : ∀ x, Kin x (f x) ∧ (Live x → Live (f x)) ∧ (f x).streamStarted = x.streamStarted) :
    Going k w (World.setEx k f (w₁.setShared fun s => { s with budget })) where
  same := by
    have hshared : Same k w₁ (w₁.setShared fun s => { s with budget }) :=
      ⟨rfl, rfl, fun _ _ => rfl, Kin.refl _, rfl, rfl, rfl, rfl⟩
    exact (h.same.trans hshared).setEx (hf _).1
  live := by
    rw [World.setEx_same]
    exact (hf _).2.1 h.live
  stream := by
    rw [World.setEx_same, (hf _).2.2]
    exact h.stream

theorem Going.wp_startStream (h : Going k w w₁)
    (o : Outcomes F cb scb lib k w reading success Q) (hs : (w.exs k).streamStarted = false)
    (hz : (w₁.exs k).stages = 0) (hwritten : .requestWritten ∈ (w₁.exs k).journal) :
    wp F (startStream cb lib scb k) (fun _ => Q) (Rescued F cb k Q) w₁ := by
  unfold startStream
  simp only [wp_get_bind]
  split
  · exact h.wp_fail o _ _
  · rename_i haccepted
    simp only [Bool.or_eq_true, decide_eq_true_eq, not_or, Nat.not_lt, Bool.not_eq_true]
      at haccepted
    split
    · exact h.wp_fail o _ _
    · refine wp_mayThrow_bind ?_ fun _ => o.rescued h.same h.live.toOpen
      split
      · split
        · exact h.wp_rejectBufferBudget o hs 1
        · split
          · exact h.wp_rejectBufferBudget o hs 1
          · rename_i permit budget _
            simp only [wp_modify_bind]
            have h' := h.takePermit (fun x => { x with streamPermit := permit }) budget
              fun x => ⟨.of_eq rfl rfl rfl id rfl rfl, fun hx => { hx with }, rfl⟩
            refine wp_mayThrow_bind ?_ fun _ => o.rescued h'.same h'.live.toOpen
            refine h'.wp_sendStreamHead o hs ?_ ?_ ?_
            · rw [World.setEx_same]
              exact hz
            · rw [World.setEx_same]
              exact hwritten
            · rw [World.setEx_same]
              exact haccepted
      · exact h.wp_sendStreamHead o hs hz hwritten haccepted

theorem Live.addBlock {x : Exchange} (h : Live x) (hs : x.streamStarted = true) :
    Live (x.addOp .readBlock) :=
  { h with
    oneStage := h.oneStage
    noBlock := fun hf => by simp [addOp, hs] at hf
    written := fun _ => h.written (Or.inr hs) }

/-- The next block is read. -/
theorem Going.wp_readStreamBlock (h : Going k w w₁) (o : Ends F cb k w success Q)
    (hnext : Q (w₁.setEx k (addOp .readBlock))) :
    wp F (readStreamBlock k) (fun _ => Q) (Rescued F cb k Q) w₁ := by
  refine wp_mono wp_initiate ?_ ?_
  · rintro _ w₂ rfl
    exact hnext
  · rintro w₂ rfl
    exact o.rescued h.same h.live.toOpen

/-! ## Completions -/

theorem stages_finishDeadline (hz : (w₁.exs k).stages = 0) :
    ((w₁.setEx k finishDeadline).exs k).stages = 0 := by
  rw [World.setEx_same]
  exact hz

section Completions

variable (o : Outcomes F cb scb lib k w reading success Q) (hquiet : ¬reading)
  (h : Going k w w₁) (hs : (w.exs k).streamStarted = false) (hz : (w₁.exs k).stages = 0)

/-- A block that was read was noted, at the top of the journal. -/
theorem wp_onReadBlock {error : Error} {block : Text}
    (o : Outcomes F cb scb lib k w reading success Q) (hl : Live (w.exs k))
    (hs : (w.exs k).streamStarted = true)
    (hdelivered : error = none ∨ error = some .needBuffer → reading
      ∧ ∃ earlier, (w.exs k).journal
        = .relay (.read block (w.exs k).parser.isDone) :: earlier) :
    wp F (onReadBlock cb scb k error block) (fun _ => Q) (Rescued F cb k Q) w := by
  unfold onReadBlock
  simp only [wp_get_bind]
  rw [if_neg (by simp [hl.observed])]
  split
  · exact (Going.refl hl).wp_fail o _ _
  · rename_i herror
    have hgood : error = none ∨ error = some .needBuffer := by
      cases error with
      | none => exact Or.inl rfl
      | some e => exact Or.inr (by simpa using herror)
    obtain ⟨hread, hjournal⟩ := hdelivered hgood
    split
    · rename_i hempty
      simp only [Bool.and_eq_true, List.isEmpty_iff, Bool.not_eq_true'] at hempty
      rw [hempty.1, hempty.2] at hjournal
      exact (Going.refl hl).wp_readStreamBlock o.toEnds (o.next hread hs w (.refl hl) hjournal)
    · rename_i hmore
      refine wp_mayThrow_bind ?_ fun _ => o.rescued (Same.refl k w) hl.toOpen
      simp only [wp_modify_bind]
      refine o.body hread hs w _ _ (Same.refl k w) hl hs ?_ hjournal
      rintro ⟨rfl, hdone⟩
      exact hmore (by simp [hdone])

include o hquiet h

theorem wp_onDeadline (generation : Nat) (error : Error) :
    wp F (onDeadline cb k generation error) (fun _ => Q) (Rescued F cb k Q) w₁ := by
  unfold onDeadline
  simp only [wp_get_bind]
  split
  · simp only [wp_modify_bind]
    exact (h.expire generation).wp_fail o _ _
  · exact wp_pure.mpr (o.quiet hquiet w₁ h)

include hs hz

theorem wp_onResolve (error : Error) :
    wp F (onResolve cb k error) (fun _ => Q) (Rescued F cb k Q) w₁ := by
  unfold onResolve
  simp only [wp_get_bind]
  rw [if_neg (by simp [h.live.observed])]
  simp only [wp_modify_bind]
  split
  · exact h.finishDeadline.wp_fail o _ _
  · exact o.wp_nextStage hquiet h.finishDeadline rfl (stages_finishDeadline hz) hs
      fun hread => by cases hread

theorem wp_onConnect (error : Error) :
    wp F (onConnect cb k error) (fun _ => Q) (Rescued F cb k Q) w₁ := by
  unfold onConnect writeRequest
  simp only [wp_get_bind]
  rw [if_neg (by simp [h.live.observed])]
  simp only [wp_modify_bind]
  split
  · exact h.finishDeadline.wp_fail o _ _
  · split
    · refine wp_ask_bind ?_ fun _ => ?_
      · exact o.wp_nextStage hquiet h.finishDeadline rfl (stages_finishDeadline hz) hs
          fun hread => by cases hread
      · exact h.finishDeadline.wp_fail o _ _
    · exact o.wp_nextStage hquiet h.finishDeadline rfl (stages_finishDeadline hz) hs
        fun hread => by cases hread

theorem wp_onHandshake (error : Error) :
    wp F (onHandshake cb k error) (fun _ => Q) (Rescued F cb k Q) w₁ := by
  unfold onHandshake writeRequest
  simp only [wp_get_bind]
  rw [if_neg (by simp [h.live.observed])]
  simp only [wp_modify_bind]
  split
  · exact h.finishDeadline.wp_fail o _ _
  · exact o.wp_nextStage hquiet h.finishDeadline rfl (stages_finishDeadline hz) hs
      fun hread => by cases hread

theorem wp_onWrite (error : Error) :
    wp F (onWrite cb k error) (fun _ => Q) (Rescued F cb k Q) w₁ := by
  unfold onWrite
  simp only [wp_get_bind]
  rw [if_neg (by simp [h.live.observed])]
  simp only [wp_modify_bind]
  split
  · exact h.finishDeadline.wp_fail o _ _
  · refine o.wp_nextStage hquiet h.finishDeadline.requestWritten rfl ?_ hs fun _ => ?_
    · rw [World.setEx_same]
      exact stages_finishDeadline hz
    · rw [World.setEx_same]
      exact List.mem_cons_self ..

theorem wp_onReadHeader (hwritten : .requestWritten ∈ (w₁.exs k).journal) (error : Error) :
    wp F (onReadHeader cb lib scb k error) (fun _ => Q) (Rescued F cb k Q) w₁ := by
  have hwritten' : .requestWritten ∈ ((w₁.setEx k Exchange.finishDeadline).exs k).journal := by
    rw [World.setEx_same]
    exact hwritten
  unfold onReadHeader
  simp only [wp_get_bind]
  rw [if_neg (by simp [h.live.observed])]
  split
  · simp only [wp_modify_bind]
    exact h.finishDeadline.wp_fail o _ _
  · split
    · exact h.wp_startStream o hs hz hwritten
    · split
      · simp only [wp_modify_bind]
        exact h.finishDeadline.wp_fail o _ _
      · cases (planBodyReservation (w₁.exs k).parser.contentLength (w₁.exs k).parser.isDone
            maxUpstreamBodyBytes).kind with
        | tooLarge =>
            simp only [wp_modify_bind]
            exact h.finishDeadline.wp_fail o _ _
        | none =>
            simp only [wp_modify_bind]
            exact h.finishDeadline.wp_finishResponse o hs hwritten'
        | reserve =>
            dsimp only
            split
            · simp only [wp_modify_bind]
              exact h.finishDeadline.wp_rejectBufferBudget o hs _
            · rename_i permit budget _
              simp only [wp_modify_bind]
              have h' := h.takePermit (fun x => { x with responseBodyPermit := permit }) budget
                fun x => ⟨.of_eq rfl rfl rfl id rfl rfl, fun hx => { hx with }, rfl⟩
              refine wp_mono wp_initiate ?_ ?_
              · rintro _ w₂ rfl
                refine o.quiet hquiet _ (h'.addStage rfl ?_ hs fun _ => ?_)
                · rw [World.setEx_same]
                  exact hz
                · rw [World.setEx_same]
                  exact hwritten
              · rintro w₂ rfl
                exact o.rescued h'.same h'.live.toOpen

omit hz hquiet in
theorem wp_onReadBody (hwritten : .requestWritten ∈ (w₁.exs k).journal) (error : Error) :
    wp F (onReadBody cb lib k error) (fun _ => Q) (Rescued F cb k Q) w₁ := by
  unfold onReadBody
  simp only [wp_get_bind]
  rw [if_neg (by simp [h.live.observed])]
  simp only [wp_modify_bind]
  split
  · exact h.finishDeadline.wp_fail o _ _
  · split
    · exact h.finishDeadline.wp_fail o _ _
    · rename_i permit budget _
      simp only [wp_modify_bind]
      have h' := h.finishDeadline.takePermit (fun x => { x with responseBodyPermit := permit })
        budget fun x => ⟨.of_eq rfl rfl rfl id rfl rfl, fun hx => { hx with }, rfl⟩
      refine h'.wp_finishResponse o hs ?_
      rw [World.setEx_same]
      show .requestWritten ∈ ((w₁.setEx k Exchange.finishDeadline).exs k).journal
      rw [World.setEx_same]
      exact hwritten

end Completions

/-! ## Whole events -/

/-- What a completed operation leaves behind is in the parser. -/
theorem apply_eq (op : ExchangeOp) (report : Report) (x : Exchange) :
    ∃ parser, report.apply op x = { x with parser } := by
  unfold Report.apply
  split <;> exact ⟨_, rfl⟩

theorem receive_ops (c : Completion) (x : Exchange) : (c.receive x).ops = x.ops.erase c.op := by
  obtain ⟨parser, heq⟩ := apply_eq c.op c.report { x with ops := x.ops.erase c.op }
  unfold Completion.receive Completion.note
  rw [heq]
  split <;> rfl

theorem receive_streamStarted (c : Completion) (x : Exchange) :
    (c.receive x).streamStarted = x.streamStarted := by
  obtain ⟨parser, heq⟩ := apply_eq c.op c.report { x with ops := x.ops.erase c.op }
  unfold Completion.receive Completion.note
  rw [heq]
  split <;> rfl

/-- Who the exchange is for stays. -/
theorem receive_requests (c : Completion) (x : Exchange) :
    (c.receive x).selected = x.selected ∧ (c.receive x).downstreamRequest = x.downstreamRequest
      ∧ (c.receive x).upstreamRequest = x.upstreamRequest := by
  obtain ⟨parser, heq⟩ := apply_eq c.op c.report { x with ops := x.ops.erase c.op }
  unfold Completion.receive Completion.note
  rw [heq]
  split <;> exact ⟨rfl, rfl, rfl⟩

/-- A block read that an exchange looks at is noted. -/
theorem receive_delivered {c : Completion} (hc : c.delivers = true) {x : Exchange}
    (hx : x.observed = false) :
    (c.receive x).journal
      = .relay (.read c.block (c.receive x).parser.isDone) :: x.journal := by
  obtain ⟨parser, heq⟩ := apply_eq c.op c.report { x with ops := x.ops.erase c.op }
  have hreceive : c.receive x = { x with parser, ops := x.ops.erase c.op }.record
      (.relay (.read c.block parser.isDone)) := by
    unfold Completion.receive Completion.note
    rw [heq]
    exact if_pos (by simp [hc, hx])
  rw [hreceive]
  rfl

theorem receive_undelivered {c : Completion} (hc : c.delivers = false) (x : Exchange) :
    (c.receive x).journal = x.journal := by
  obtain ⟨parser, heq⟩ := apply_eq c.op c.report { x with ops := x.ops.erase c.op }
  unfold Completion.receive Completion.note
  rw [heq, hc]
  rfl

/-- A completed stage was the only one, and the exchange is not streaming. -/
theorem Live.stage_completed {x : Exchange} (h : Live x) {op : ExchangeOp} (hop : op ∈ x.ops)
    (hp : preStream op = true) :
    x.streamStarted = false ∧ (x.ops.erase op).countP preStream = 0 := by
  have hpos : 0 < x.ops.countP preStream := List.countP_pos_iff.mpr ⟨op, hop, hp⟩
  have hone : x.ops.countP preStream + x.streamStarted.toNat ≤ 1 := h.oneStage
  have herase : (x.ops.erase op).countP preStream = x.ops.countP preStream - 1 := by
    rw [List.countP_erase]
    simp [hop, hp]
  refine ⟨?_, by omega⟩
  cases hs : x.streamStarted with
  | false => rfl
  | true =>
      rw [hs] at hone
      simp only [Bool.toNat_true] at hone
      omega

/-- Blocks are read for a stream only. -/
theorem Live.streaming {x : Exchange} (h : Live x) (hop : .readBlock ∈ x.ops) :
    x.streamStarted = true := by
  have hpos : 0 < x.blocks := List.count_pos_iff.mpr hop
  cases hs : x.streamStarted with
  | true => rfl
  | false => exact absurd (h.noBlock hs) (by omega)

/-- Only the head of a response has its status and its fields. -/
theorem Live.apply {x : Exchange} (h : Live x) {op : ExchangeOp} (hop : op ∈ x.ops)
    (report : Report) : Live (report.apply op { x with ops := x.ops.erase op }) := by
  have hstage : (x.ops.erase op).countP preStream ≤ x.ops.countP preStream :=
    (List.erase_sublist ..).countP_le
  have hblock : (x.ops.erase op).count .readBlock ≤ x.ops.count .readBlock :=
    (List.erase_sublist ..).count_le _
  have hx : Live { x with ops := x.ops.erase op } :=
    { h with
      oneStage := Nat.le_trans (Nat.add_le_add_right hstage _) h.oneStage
      noBlock := fun hs => Nat.le_zero.mp (Nat.le_trans hblock (Nat.le_of_eq (h.noBlock hs)))
      written := fun hread => h.written
        (hread.imp_left fun ⟨op', hmem, hop'⟩ => ⟨op', List.mem_of_mem_erase hmem, hop'⟩) }
  unfold Report.apply
  split
  · have hs := (h.stage_completed hop rfl).1
    exact
      { hx with
        accepted := fun hstream => by
          rw [show x.streamStarted = true from hstream] at hs
          cases hs }
  · exact { hx with }
  · exact { hx with }
  · exact hx

/-- The state in which the handler of a completion starts. -/
theorem Live.completion {x : Exchange} (h : Live x) {c : Completion} (hop : c.op ∈ x.ops) :
    Live (c.receive x) := by
  have hx := h.apply hop c.report
  unfold Completion.receive Completion.note
  split
  · rename_i hnote
    simp only [Completion.delivers, Bool.and_eq_true, decide_eq_true_eq] at hnote
    obtain ⟨parser, heq⟩ := apply_eq c.op c.report { x with ops := x.ops.erase c.op }
    refine hx.relay ?_ _
    rw [heq]
    exact h.streaming (hnote.1.1 ▸ hop)
  · exact hx

/-- The rule for a completed operation. A stream never ends well here: that
takes the `StreamResume` of its last write. -/
theorem wp_dispatch (hl : Live (w.exs k)) (c : Completion) (hidle : Q w)
    (o : c.op ∈ (w.exs k).ops →
      Outcomes F cb scb lib k (w.setEx k c.receive) (c.delivers = true) False Q) :
    wp F (dispatch cb lib scb k c) (fun _ => Q) (fun _ => False) w := by
  unfold dispatch
  simp only [wp_get_bind]
  split
  · rename_i hop
    simp only [wp_modify_bind]
    refine wp_runHandler ?_
    have hl' : Live ((w.setEx k c.receive).exs k) := by
      rw [World.setEx_same]
      exact hl.completion hop
    have h := Going.refl hl'
    have hstage : preStream c.op = true →
        ((w.setEx k c.receive).exs k).streamStarted = false
          ∧ ((w.setEx k c.receive).exs k).stages = 0 := by
      intro hp
      obtain ⟨hs, hcount⟩ := hl.stage_completed hop hp
      rw [World.setEx_same, receive_streamStarted, stages, receive_ops]
      exact ⟨hs, hcount⟩
    have hwritten : reads c.op = true →
        .requestWritten ∈ ((w.setEx k c.receive).exs k).journal := by
      intro hread
      have hmem := hl.written (Or.inl ⟨c.op, hop, hread⟩)
      rw [World.setEx_same]
      cases hdelivers : c.delivers with
      | true =>
          rw [receive_delivered hdelivers hl.observed]
          exact List.mem_cons_of_mem _ hmem
      | false =>
          rw [receive_undelivered hdelivers]
          exact hmem
    have hquiet : c.op ≠ .readBlock → ¬c.delivers = true := by
      intro hne hdelivers
      simp [Completion.delivers, hne] at hdelivers
    have o := o hop
    unfold handler
    cases hc : c.op with
    | resolve =>
        rw [hc] at hstage hquiet
        exact wp_onResolve o (hquiet (by simp)) h (hstage rfl).1 (hstage rfl).2 c.error
    | connect =>
        rw [hc] at hstage hquiet
        exact wp_onConnect o (hquiet (by simp)) h (hstage rfl).1 (hstage rfl).2 c.error
    | handshake =>
        rw [hc] at hstage hquiet
        exact wp_onHandshake o (hquiet (by simp)) h (hstage rfl).1 (hstage rfl).2 c.error
    | write =>
        rw [hc] at hstage hquiet
        exact wp_onWrite o (hquiet (by simp)) h (hstage rfl).1 (hstage rfl).2 c.error
    | readHeader =>
        rw [hc] at hstage hquiet hwritten
        exact wp_onReadHeader o (hquiet (by simp)) h (hstage rfl).1 (hstage rfl).2
          (hwritten rfl) c.error
    | readBody =>
        rw [hc] at hstage hwritten
        exact wp_onReadBody o h (hstage rfl).1 (hwritten rfl) c.error
    | readBlock =>
        have hs : ((w.setEx k c.receive).exs k).streamStarted = true := by
          rw [World.setEx_same, receive_streamStarted]
          exact hl.streaming (hc ▸ hop)
        refine wp_onReadBlock o hl' hs fun hgood => ?_
        have hdelivers : c.delivers = true := by
          simpa [Completion.delivers, hc] using hgood
        refine ⟨hdelivers, (w.exs k).journal, ?_⟩
        rw [World.setEx_same]
        exact receive_delivered hdelivers hl.observed
    | wait generation =>
        rw [hc] at hquiet
        exact wp_onDeadline o (hquiet (by simp)) h generation c.error
  · exact wp_pure.mpr hidle

/-- The world in which a `StreamResume` acts. -/
def resumed (k : Nat) (error : Error) (w : World E) : World E :=
  w.setEx k (record (.relay (.taken error)))

/-- The call of a `StreamResume` after the last write, or after a failed one: the
stream ends. -/
theorem wp_resumeStream_last {final : Bool} {error : Error} (hl : Live (w.exs k))
    (hs : (w.exs k).streamStarted = true) (hlast : final = true ∨ error.isSome = true)
    (o : Ends F cb k (resumed k error w) (final = true ∧ error = none) Q) :
    wp F (resumeStream cb k final error) (fun _ => Q) (fun _ => False) w := by
  have hl' : Live ((resumed k error w).exs k) := by
    rw [resumed, World.setEx_same]
    exact hl.relay hs _
  have hs' : ((resumed k error w).exs k).streamStarted = true := by
    rw [resumed, World.setEx_same]
    exact hs
  refine wp_runHandler ?_
  simp only [wp_get_bind]
  rw [if_neg (by simp [hl.observed])]
  simp only [wp_modify_bind]
  split
  · have hcancel : Same k (resumed k error w) ((resumed k error w).setEx k cancelOperations) :=
      (Same.refl k _).set kin_cancelOperations
    simp only [wp_modify_bind]
    refine wp_completeStream (w := (resumed k error w).setEx k cancelOperations) ?_ ?_ ?_ ?_
    · rw [World.setEx_same]
      exact hl'.toOpen.cancelOperations.toUnclaimed
    · rw [World.setEx_same]
      exact cancelOperations_disposed _
    · rw [World.setEx_same]
      exact hl'.toOpen.finish_follows (by simp)
    · intro w' hs'' he
      exact o.finish hs' w' _ _ (hcancel.trans hs'') he (fun _ hf => by cases hf)
  · rename_i herror
    have hnone : error = none := by simpa using herror
    have hfinal : final = true := hlast.resolve_right herror
    rw [if_pos hfinal]
    refine (Going.refl hl').wp_finishStream o hs' ⟨(w.exs k).journal, ?_⟩ ⟨hfinal, hnone⟩
    rw [resumed, World.setEx_same, hnone]
    rfl

/-- The rule for the call of a `StreamResume`. -/
theorem wp_resumeStream {final : Bool} {error : Error} (hl : Live (w.exs k))
    (hs : (w.exs k).streamStarted = true)
    (o : Ends F cb k (resumed k error w) (final = true ∧ error = none) Q)
    (hnext : final = false → error = none →
      Q ((resumed k error w).setEx k (addOp .readBlock))) :
    wp F (resumeStream cb k final error) (fun _ => Q) (fun _ => False) w := by
  by_cases hlast : final = true ∨ error.isSome = true
  · exact wp_resumeStream_last hl hs hlast o
  · have hl' : Live ((resumed k error w).exs k) := by
      rw [resumed, World.setEx_same]
      exact hl.relay hs _
    have hnotfinal : ¬final = true := fun hf => hlast (Or.inl hf)
    have hnoerror : ¬error.isSome = true := fun he => hlast (Or.inr he)
    refine wp_runHandler ?_
    simp only [wp_get_bind]
    rw [if_neg (by simp [hl.observed])]
    simp only [wp_modify_bind]
    rw [if_neg hnoerror, if_neg hnotfinal]
    exact (Going.refl hl').wp_readStreamBlock o (hnext (by simpa using hnotfinal)
      (by simpa using hnoerror))

/-! ## Exchanges that are over -/

theorem Open.cancel {x : Exchange} (h : Open x) : Ended x.cancel ∧ Kin x x.cancel := by
  have hlease : LeaseOk x.cancel := by
    unfold Exchange.cancel
    rw [if_neg (by simp [h.completed])]
    exact (closeUpstream_lease _).2 (h.lease.record rfl)
  unfold Exchange.cancel at hlease ⊢
  rw [if_neg (by simp [h.completed])] at hlease ⊢
  obtain ⟨lease, heq, hd⟩ := cancelOperations_eq
    { x.claim with onComplete := false, onAbort := false }
  rw [heq] at hlease ⊢
  refine ⟨⟨rfl, rfl, rfl, hd, hlease, ⟨h.kept, h.unfinished, ?_⟩,
    fun _ _ => Or.inl (List.mem_cons_self ..)⟩, ?_⟩
  · rintro ⟨p, c, hput⟩
    exact absurd hput (h.unput p c)
  · exact (Kin.record (n := .cancelled) rfl x).trans (.of_eq rfl rfl rfl id rfl rfl)

theorem Ended.cancel {x : Exchange} (h : Ended x) : x.cancel = x := by
  unfold Exchange.cancel
  rw [if_pos h.completed]

/-- What a late read has left is of no interest. -/
theorem Ended.receive_eq {x : Exchange} (h : Ended x) (c : Completion) :
    ∃ parser, c.receive x = { x with parser, ops := x.ops.erase c.op } := by
  obtain ⟨parser, heq⟩ := apply_eq c.op c.report { x with ops := x.ops.erase c.op }
  refine ⟨parser, ?_⟩
  unfold Completion.receive
  rw [heq]
  exact if_neg (by simp [h.observed])

theorem Ended.completion {x : Exchange} (h : Ended x) (c : Completion) :
    Ended (c.receive x) := by
  obtain ⟨parser, heq⟩ := h.receive_eq c
  rw [heq]
  exact { h with }

theorem Ended.kin_receive {x : Exchange} (h : Ended x) (c : Completion) : Kin x (c.receive x) := by
  obtain ⟨parser, heq⟩ := h.receive_eq c
  rw [heq]
  exact ⟨rfl, rfl, rfl, id, (List.erase_sublist ..).count_le _, [], rfl, fun n hn => by cases hn⟩

theorem Ended.dropAbort {x : Exchange} (h : Ended x) : Ended x.dropAbort := { h with }

/-- A late completion finds `completion_observed_` set and does nothing. -/
theorem wp_dispatch_ended (he : Ended (w.exs k)) (c : Completion) :
    wp F (dispatch cb lib scb k c) (fun _ w' => w' = w ∨ w' = w.setEx k c.receive)
      (fun _ => False) w := by
  unfold dispatch
  simp only [wp_get_bind]
  split
  · simp only [wp_modify_bind]
    refine wp_tryCatch ?_
    have hobs := (he.completion c).observed
    have hdone : wp F (pure ()) (fun _ w' => w' = w ∨ w' = w.setEx k c.receive)
        (fun w' => wp F (abandon cb k) (fun _ w'' => w'' = w ∨ w'' = w.setEx k c.receive)
          (fun _ => False) w') (w.setEx k c.receive) := wp_pure.mpr (Or.inr rfl)
    unfold handler
    cases c.op with
    | wait generation =>
        have hexpire : (w.setEx k c.receive).setEx k (expire generation)
            = w.setEx k c.receive := by
          rw [World.setEx_setEx]
          simp only [World.setEx, expire, hobs, if_true]
        unfold onDeadline fail
        simp only [wp_get_bind, World.setEx_same]
        split
        · simp only [wp_modify_bind, hexpire, wp_get_bind, World.setEx_same]
          rw [if_pos hobs]
          exact hdone
        · exact hdone
    | _ =>
        simp only [onResolve, onConnect, onHandshake, onWrite, onReadHeader, onReadBody,
          onReadBlock, wp_get_bind, World.setEx_same]
        rw [if_pos hobs]
        exact hdone
  · exact wp_pure.mpr (Or.inl rfl)

theorem wp_resumeStream_ended (he : Ended (w.exs k)) (final : Bool) (error : Error) :
    wp F (resumeStream cb k final error) (fun _ w' => w' = w) (fun _ => False) w := by
  refine wp_tryCatch ?_
  simp only [wp_get_bind]
  rw [if_pos he.observed]
  exact wp_pure.mpr rfl

/-! ## Starting -/

theorem live_make (selected : SelectedUpstream) (request : HttpRequest) (pooled : Bool)
    (connection : UpstreamConnection) (reused : Bool) (cell : Option Nat) :
    Live (make selected request pooled connection reused cell) where
  completed := rfl
  onComplete := rfl
  onAbort := rfl
  finish := rfl
  lease := ⟨rfl, Or.inl ⟨by simp [make], rfl⟩⟩
  kept := trivial
  unfinished _ _ := List.not_mem_nil
  unput _ _ := List.not_mem_nil
  observed := rfl
  held := rfl
  oneStage := Nat.zero_le 1
  noBlock _ := rfl
  unsettled _ hn := by cases hn
  silent _ _ := List.not_mem_nil
  written := by
    rintro (⟨op, hop, -⟩ | hs)
    · cases hop
    · cases hs
  accepted hs := by cases hs

theorem wp_start (hl : Live (w.exs k)) (hs : (w.exs k).streamStarted = false)
    (hz : (w.exs k).stages = 0) :
    wp F (start k) (fun _ w' => Going k w w') (fun w' => Going k w w') w := by
  have h : Going k w w := .refl hl
  have hnext : ∀ {site : Site} {op : ExchangeOp}, preStream op = true → reads op = false →
      wp F (do beginDeadline k; initiate site op k) (fun _ w' => Going k w w')
        (fun w' => Going k w w') w := by
    intro site op hop hread
    refine wp_bind (wp_mono wp_beginDeadline ?_ ?_)
    · rintro _ w₂ rfl
      refine wp_mono wp_initiate ?_ ?_
      · rintro _ w₃ rfl
        refine h.armed.addStage hop ?_ hs ?_
        · rw [World.setEx_same]
          exact hz
        · rw [hread]
          intro hf
          cases hf
      · rintro w₃ rfl
        exact h.armed
    · rintro w₂ rfl
      exact h.finishDeadline
  unfold start writeRequest
  simp only [wp_get_bind]
  split
  · exact hnext rfl rfl
  · exact hnext rfl rfl

/-- `start` on an exchange that was cancelled before. -/
theorem wp_start_ended (he : Ended (w.exs k)) :
    wp F (start k) (fun _ w' => Same k w w' ∧ Ended (w'.exs k))
      (fun w' => Same k w w' ∧ Ended (w'.exs k)) w := by
  have hset : ∀ f : Exchange → Exchange, (∀ x, Kin x (f x)) → (∀ x, Ended x → Ended (f x)) →
      Same k w (w.setEx k f) ∧ Ended ((w.setEx k f).exs k) := by
    intro f hkin hended
    refine ⟨(Same.refl k w).set hkin, ?_⟩
    rw [World.setEx_same]
    exact hended _ he
  have hnext : ∀ {site : Site} {op : ExchangeOp}, op ≠ .readBlock →
      wp F (do beginDeadline k; initiate site op k) (fun _ w' => Same k w w' ∧ Ended (w'.exs k))
        (fun w' => Same k w w' ∧ Ended (w'.exs k)) w := by
    intro site op hop
    refine wp_bind (wp_mono wp_beginDeadline ?_ ?_)
    · rintro _ w₂ rfl
      refine wp_mono wp_initiate ?_ ?_
      · rintro _ w₃ rfl
        rw [World.setEx_setEx]
        exact hset _ (fun x => (kin_armed x).trans (kin_addOp hop _)) fun x hx => { hx with }
      · rintro w₃ rfl
        exact hset _ kin_armed fun x hx => { hx with }
    · rintro w₂ rfl
      exact hset _ kin_finishDeadline fun x hx => { hx with }
  unfold start writeRequest
  simp only [wp_get_bind]
  split
  · exact hnext (by simp)
  · exact hnext (by simp)

end Exchange

end ApiGate
