import ApiGate.ExchangeRules

/-!
# The journal of a stream

The notes of a stream, taken out of the journal of its exchange, are those of a
relay: the upstream is the source, and the owner, who writes to the client, is the
receiver. `Relayed` says that they are in order and which operations the state of the
relay leaves room for. Each step of an exchange that moves a stream keeps it.
-/

namespace ApiGate

open EventLoop Act

/-- The part of a journal that is about the stream. -/
def streamNotes (journal : List ExchangeNote) : List (Relay.Note Char ErrorCode) :=
  journal.filterMap fun
    | .relay n => some n
    | _ => none

/-- How many blocks may be being read. -/
def readers : Relay.State Char → Nat
  | .reading => 1
  | _ => 0

/-- How many writes of the owner may be under way. -/
def writers : Relay.State Char → Nat
  | .sending _ => 1
  | _ => 0

theorem streamNotes_append {later earlier : List ExchangeNote} (h : ∀ n ∈ later, n.flows = false) :
    streamNotes (later ++ earlier) = streamNotes earlier := by
  unfold streamNotes
  rw [List.filterMap_append]
  refine (congrArg (· ++ _) (List.filterMap_eq_nil_iff.mpr fun n hn => ?_)).trans
    (List.nil_append _)
  cases n with
  | relay => cases h _ hn
  | _ => rfl

theorem streamNotes_eq_nil {journal : List ExchangeNote} (h : ∀ n, .relay n ∉ journal) :
    streamNotes journal = [] := by
  unfold streamNotes
  refine List.filterMap_eq_nil_iff.mpr fun n hn => ?_
  cases n with
  | relay m => exact absurd hn (h m)
  | _ => rfl

theorem mem_streamNotes {journal : List ExchangeNote} {n : Relay.Note Char ErrorCode} :
    n ∈ streamNotes journal ↔ .relay n ∈ journal := by
  unfold streamNotes
  rw [List.mem_filterMap]
  constructor
  · rintro ⟨m, hm, heq⟩
    cases m with
    | relay m =>
        cases heq
        exact hm
    | _ => cases heq
  · exact fun hn => ⟨.relay n, hn, rfl⟩

namespace Exchange

def relay (x : Exchange) : Relay.State Char := Relay.state (streamNotes x.journal)

structure Relayed (x : Exchange) (writes : Nat) : Prop where
  legal : x.relay ≠ .wrong
  reads : x.blocks ≤ readers x.relay
  writes : writes ≤ writers x.relay
  success : .finish none false ∈ x.journal → x.relay = .delivered

variable {x x' : Exchange} {writes writes' : Nat}

theorem Relayed.fewer (h : Relayed x writes) (hle : writes' ≤ writes) : Relayed x writes' :=
  { h with writes := Nat.le_trans hle h.writes }

/-- A read and a write are never under way at the same time. -/
theorem Relayed.one (h : Relayed x writes) : x.blocks + writes ≤ 1 := by
  have hreads := h.reads
  have hwrites := h.writes
  generalize x.relay = s at hreads hwrites
  cases s <;> simp only [readers, writers] at hreads hwrites <;> omega

theorem relay_of_silent (h : ∀ n, .relay n ∉ x.journal) : x.relay = .closed := by
  unfold relay
  rw [streamNotes_eq_nil h]
  rfl

theorem relayed_make (selected : SelectedUpstream) (request : HttpRequest) (pooled : Bool)
    (connection : UpstreamConnection) (reused : Bool) (cell : Option Nat) :
    Relayed (make selected request pooled connection reused cell) 0 where
  legal := by
    intro h
    cases h
  reads := Nat.zero_le _
  writes := Nat.zero_le _
  success h := by cases h

theorem Kin.relay_eq (h : Kin x x') : x'.relay = x.relay := by
  obtain ⟨later, heq, hlater⟩ := h.journal
  unfold relay
  rw [heq, streamNotes_append hlater]

theorem Relayed.kin (h : Relayed x writes) (hk : Kin x x') : Relayed x' writes where
  legal := by
    rw [hk.relay_eq]
    exact h.legal
  reads := by
    rw [hk.relay_eq]
    exact Nat.le_trans hk.blocks h.reads
  writes := by
    rw [hk.relay_eq]
    exact h.writes
  success := by
    intro hmem
    obtain ⟨later, heq, hlater⟩ := hk.journal
    rw [hk.relay_eq]
    rw [heq] at hmem
    rcases List.mem_append.mp hmem with hmem | hmem
    · cases hlater _ hmem
    · exact h.success hmem

/-! ## Steps of the relay -/

theorem relay_record (n : Relay.Note Char ErrorCode) :
    (x.record (.relay n)).relay = x.relay.next n := rfl

/-- A note that takes the relay to `s`, which has room for what is under way then. -/
theorem relayed_note (hopen : Unsettled x.journal)
    {n : Relay.Note Char ErrorCode} {s : Relay.State Char} (hs : x.relay.next n = s)
    (hlegal : s ≠ .wrong) (hreads : x.blocks ≤ readers s) (hwrites : writes ≤ writers s) :
    Relayed (x.record (.relay n)) writes where
  legal := by
    rw [relay_record, hs]
    exact hlegal
  reads := by
    rw [relay_record, hs]
    exact hreads
  writes := by
    rw [relay_record, hs]
    exact hwrites
  success := by
    intro hmem
    rcases List.mem_cons.mp hmem with hmem | hmem
    · cases hmem
    · cases hopen _ hmem

section Steps

variable (h : Relayed x writes) (hopen : Unsettled x.journal)

include h hopen

/-- The head goes to the owner, who may start to write it. -/
theorem Relayed.opened (hs : x.relay = .closed) (final : Bool) :
    Relayed (x.record (.relay (.opened final))) 1 := by
  have hreads := h.reads
  rw [hs] at hreads
  refine relayed_note hopen (s := .sending final) ?_ (by simp) hreads (Nat.le_refl 1)
  rw [hs]
  rfl

/-- So does a block. -/
theorem Relayed.passed {block : Text} {final : Bool} (hs : x.relay = .holding block final) :
    Relayed (x.record (.relay (.passed block final))) 1 := by
  have hreads := h.reads
  rw [hs] at hreads
  refine relayed_note hopen (s := .sending final) ?_ (by simp) hreads (Nat.le_refl 1)
  rw [hs]
  exact if_pos ⟨rfl, rfl⟩

/-- The write is over. -/
theorem Relayed.taken {final : Bool} (hs : x.relay = .sending final) (error : Error) :
    Relayed (x.record (.relay (.taken error))) 0 := by
  have hreads := h.reads
  rw [hs] at hreads
  have hblocks : x.blocks = 0 := Nat.le_zero.mp hreads
  refine relayed_note hopen rfl ?_ ?_ (Nat.zero_le _)
  · rw [hs]
    cases error <;> cases final <;> simp [Relay.State.next]
  · rw [hblocks]
    exact Nat.zero_le _

end Steps

theorem Relayed.addBlock (h : Relayed x writes) (hs : x.relay = .reading) (hblocks : x.blocks = 0) :
    Relayed (x.addOp .readBlock) writes where
  legal := h.legal
  reads := by
    show (ExchangeOp.readBlock :: x.ops).count .readBlock ≤ readers x.relay
    have hzero : x.ops.count .readBlock = 0 := hblocks
    rw [List.count_cons_self, hzero, hs]
    exact Nat.le_refl 1
  writes := h.writes
  success := h.success

/-- The stream is over; it ended well only if everything was delivered. -/
theorem Relayed.finish (h : Relayed x writes) {failure : Option ProxyFailure}
    {downstreamFailed : Bool}
    (hgood : failure = none → downstreamFailed = false → x.relay = .delivered) :
    Relayed (x.record (.finish failure downstreamFailed)) writes where
  legal := h.legal
  reads := h.reads
  writes := h.writes
  success := by
    intro hmem
    rcases List.mem_cons.mp hmem with heq | hmem
    · cases heq
      exact hgood rfl rfl
    · exact h.success hmem

/-! ## Completed reads -/

variable {c : Completion}

theorem receive_blocks (hop : c.op = .readBlock) (x : Exchange) :
    (c.receive x).blocks = x.blocks - 1 := by
  unfold blocks
  rw [receive_ops, hop, List.count_erase_self]

/-- A block is only read when the relay waits for one. -/
theorem Relayed.reading (h : Relayed x writes) (hop : .readBlock ∈ x.ops) :
    x.relay = .reading ∧ x.blocks = 1 := by
  have hpos : 0 < x.blocks := List.count_pos_iff.mpr hop
  have hreads := h.reads
  generalize x.relay = s at hreads
  cases s <;> simp only [readers] at hreads
  case reading => exact ⟨rfl, by omega⟩
  all_goals omega

/-- The block that was read is noted; if it is of use, the relay holds it. -/
theorem receive_relay (hs : x.relay = .reading) (hx : x.observed = false)
    (hc : c.delivers = true) {block : Text} {final : Bool} {earlier : List ExchangeNote}
    (hjournal : (c.receive x).journal = .relay (.read block final) :: earlier) :
    (c.receive x).relay
      = if block = [] ∧ final = false then .reading else .holding block final := by
  obtain ⟨-, rfl⟩ := List.cons.inj (hjournal.symm.trans (receive_delivered hc hx))
  unfold relay at hs ⊢
  rw [hjournal]
  show (Relay.state (streamNotes x.journal)).next (.read block final) = _
  rw [hs]
  rfl

theorem relay_of_undelivered (hc : c.delivers = false) (x : Exchange) :
    (c.receive x).relay = x.relay := by
  unfold relay
  rw [receive_undelivered hc]

theorem Relayed.receive (h : Relayed x writes) (hl : Live x) (hop : c.op ∈ x.ops) :
    Relayed (c.receive x) writes := by
  have hblocks : (c.receive x).blocks ≤ x.blocks := by
    unfold blocks
    rw [receive_ops]
    exact (List.erase_sublist ..).count_le _
  cases hc : c.delivers with
  | false =>
      have hjournal := receive_undelivered hc x
      have hrelay := relay_of_undelivered hc x
      refine ⟨?_, ?_, ?_, ?_⟩
      · rw [hrelay]
        exact h.legal
      · rw [hrelay]
        exact Nat.le_trans hblocks h.reads
      · rw [hrelay]
        exact h.writes
      · rw [hrelay, hjournal]
        exact h.success
  | true =>
      have hread : c.op = .readBlock := by
        simp only [Completion.delivers, Bool.and_eq_true, decide_eq_true_eq] at hc
        exact hc.1
      obtain ⟨hs, hone⟩ := h.reading (hread ▸ hop)
      have hwrites := h.writes
      rw [hs] at hwrites
      have hzero : (c.receive x).blocks = 0 := by
        rw [receive_blocks hread, hone]
      have hrelay := receive_relay hs hl.observed hc (receive_delivered hc hl.observed)
      refine ⟨?_, ?_, Nat.le_trans hwrites (Nat.zero_le _), ?_⟩
      · rw [hrelay]
        split <;> simp
      · rw [hzero]
        exact Nat.zero_le _
      · intro hmem
        rw [receive_delivered hc hl.observed] at hmem
        rcases List.mem_cons.mp hmem with hmem | hmem
        · cases hmem
        · cases hl.unsettled _ hmem

end Exchange

end ApiGate
