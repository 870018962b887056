import ApiGate.StreamDelivery

/-!
# Connections are reused safely

An exchange hands its connection to the pool once at most, and only at the end of a
response that leaves the connection as a new one would be. This is read off the
journal of the exchange: what stands under the note of the put is what was done
before it, and what stands on it came after.
-/

namespace ApiGate

open EventLoop Act Exchange

/-- The operations were cancelled, and not by an exception: the exchange ended by a
timeout, its owner, the upstream, a limit, the budget or a block that did not reach the
client. -/
def CutShort (journal : List ExchangeNote) : Prop :=
  ∃ later earlier, journal = later ++ .cancelled :: earlier ∧ ∀ rest, earlier ≠ .aborted :: rest

section Journal

variable {later earlier journal : List ExchangeNote} {parser : ParserState} {clean : Bool}

/-- What may still happen once the connection was put. -/
theorem Kept.after_put (h : Kept (later ++ .put parser clean :: earlier)) {n : ExchangeNote}
    (hn : n ∈ later) : n = .aborted ∨ n = .cancelled ∨ n = .finish none false := by
  have hsettles : (ExchangeNote.put parser clean).settles = true := rfl
  cases n with
  | aborted => exact Or.inl rfl
  | cancelled => exact Or.inr (Or.inl rfl)
  | requestWritten => exact absurd hn (h.not_after_settled hsettles fun _ hfollows => hfollows)
  | relay m => exact absurd hn (h.after_settled hsettles m)
  | put p c => exact absurd hn (h.unput_after_settled hsettles p c)
  | finish f d =>
      obtain ⟨front, rest, rfl⟩ := List.append_of_mem hn
      rw [List.append_assoc] at h
      obtain ⟨-, ⟨rfl, rfl, -⟩ | ⟨-, -, hunput⟩⟩ := h.follows
      · exact Or.inr (Or.inr rfl)
      · exact absurd (by simp) (hunput parser clean)

/-- An exception after the put is one of a response that is not streamed. -/
theorem Kept.aborted_after_put (h : Kept (later ++ .put parser clean :: earlier))
    (haborted : .aborted ∈ later) (m : Relay.Note Char ErrorCode) : .relay m ∉ earlier := by
  obtain ⟨front, rest, rfl⟩ := List.append_of_mem haborted
  rw [List.append_assoc] at h
  obtain ⟨-, hspent⟩ := h.follows
  intro hm
  exact hspent ⟨parser, clean, by simp⟩ m (by simp [hm])

theorem Kept.unput_of_cutShort (h : Kept journal) (hcut : CutShort journal) (p : ParserState)
    (c : Bool) : .put p c ∉ journal := by
  obtain ⟨later, earlier, rfl, hexception⟩ := hcut
  intro hmem
  rcases List.mem_append.mp hmem with hmem | hmem
  · exact h.unput_after_settled rfl p c hmem
  · rcases List.mem_cons.mp hmem with hne | hmem
    · cases hne
    · obtain ⟨-, hput⟩ := h.follows
      obtain ⟨rest, heq⟩ := hput ⟨p, c, hmem⟩
      exact hexception rest heq

/-- A stream that was told of a failure has not put its connection. -/
theorem Kept.unput_of_failed (h : Kept journal) {f : Option ProxyFailure} {d : Bool}
    (hfinish : .finish f d ∈ journal) (hfailed : ¬(f = none ∧ d = false)) (p : ParserState)
    (c : Bool) : .put p c ∉ journal := by
  obtain ⟨later, earlier, rfl⟩ := List.append_of_mem hfinish
  intro hmem
  rcases List.mem_append.mp hmem with hmem | hmem
  · exact h.unput_after_settled rfl p c hmem
  · rcases List.mem_cons.mp hmem with hne | hmem
    · cases hne
    · obtain ⟨-, ⟨hnone, hfalse, -⟩ | ⟨-, -, hunput⟩⟩ := h.follows
      · exact hfailed ⟨hnone, hfalse⟩
      · exact hunput p c hmem

/-- Neither has one of which the client did not take a block. -/
theorem Kept.unput_of_refused (h : Kept journal)
    (hlegal : Relay.state (streamNotes journal) ≠ .wrong) {e : ErrorCode}
    (hrefused : .relay (.taken (some e)) ∈ journal) (p : ParserState) (c : Bool) :
    .put p c ∉ journal := by
  intro hmem
  obtain ⟨later, earlier, rfl⟩ := List.append_of_mem hmem
  rcases List.mem_append.mp hrefused with hlater | hearlier
  · exact h.after_settled rfl _ hlater
  · rcases List.mem_cons.mp hearlier with hne | hearlier
    · cases hne
    · obtain ⟨-, -, -, -, hstream⟩ := h.follows
      obtain ⟨rest, rfl⟩ := hstream ⟨_, hearlier⟩
      rcases List.mem_cons.mp hearlier with hne | hrest
      · cases hne
      · -- the block taken last would come after the refusal
        obtain ⟨front, back, rfl⟩ := List.append_of_mem hrest
        rw [← List.cons_append, ← List.cons_append, ← List.append_assoc, streamNotes_split]
          at hlegal
        have hlast : .taken none
            ∈ streamNotes (later ++ .put p c :: .relay (.taken none) :: front) :=
          mem_streamNotes.mpr (by simp)
        rw [Relay.after_refused hlegal] at hlast
        cases hlast

end Journal

/-- An exchange puts its connection only after its request was written, at the end of a
reusable response whose blocks the client has all taken, with a clean socket and before
it comes to any other end. After that only an exception can still end it in another way
than by success, while the response is built that is not streamed. The connection is not
put if the exchange ends otherwise. What was put was put once, and not closed. -/
structure ReusesSafely (x : Exchange) : Prop where
  put : ∀ later parser clean earlier, x.journal = later ++ .put parser clean :: earlier →
    parser.Reusable ∧ clean = true ∧ .requestWritten ∈ earlier ∧ Unsettled earlier
      ∧ ((∃ n, .relay n ∈ earlier) → ∃ rest, earlier = .relay (.taken none) :: rest)
  afterPut : ∀ later parser clean earlier, x.journal = later ++ .put parser clean :: earlier →
    (∀ n ∈ later, n = .aborted ∨ n = .cancelled ∨ n = .finish none false)
      ∧ (.aborted ∈ later → ∀ n, .relay n ∉ earlier)
  cutShort : CutShort x.journal → ∀ p c, .put p c ∉ x.journal
  failed : ∀ f d, .finish f d ∈ x.journal → ¬(f = none ∧ d = false) → ∀ p c, .put p c ∉ x.journal
  refused : ∀ e, .relay (.taken (some e)) ∈ x.journal → ∀ p c, .put p c ∉ x.journal
  puts : x.journal.countP ExchangeNote.isPut = x.puts
  lease : (x.lease ≠ .pooled ∧ x.puts = 0) ∨ (x.lease = .pooled ∧ x.puts = 1)

theorem reusesSafely {x : Exchange} {writes : Nat} (h : Relayed x writes) (hkept : Kept x.journal)
    (hlease : LeaseOk x) : ReusesSafely x where
  put := by
    intro later parser clean earlier hsplit
    rw [hsplit] at hkept
    obtain ⟨hopen, hparser, hclean, hwritten, hstream⟩ := hkept.follows
    exact ⟨hparser, hclean, hwritten, hopen, hstream⟩
  afterPut := by
    intro later parser clean earlier hsplit
    rw [hsplit] at hkept
    exact ⟨fun n hn => hkept.after_put hn, hkept.aborted_after_put⟩
  cutShort := hkept.unput_of_cutShort
  failed _ _ := hkept.unput_of_failed
  refused _ := hkept.unput_of_refused h.legal
  puts := hlease.1
  lease := hlease.2

theorem Session.Steady.leaseOk {c : Context} {F : Site → Prop} {w : World Session} {j : Nat}
    (h : Steady c F w) (hj : j < w.nextExchange) : LeaseOk (w.exs j) := by
  rcases h with hidle | hrest
  · rw [hidle.next] at hj
    exact absurd hj (Nat.not_lt_zero j)
  · rcases hrest.exchanges j hj with hended | ⟨-, hopen⟩
    · exact hended.lease
    · exact hopen.lease

namespace Gateway

/-- In every run, whatever the exchanges of all sessions do with the one pool. -/
theorem connections_reused_safely (g : Setup) (rateLimits : RouteRateLimits) (inputs : List Input)
    {i k : Nat} (hk : k < ((after g rateLimits inputs).locals i).nextExchange) :
    ReusesSafely (((after g rateLimits inputs).locals i).exs k) := by
  obtain ⟨live, h⟩ := after_safe_all g rateLimits inputs
  obtain ⟨hkept, -⟩ := (h.steady i).verdict hk
  exact reusesSafely ((h.steady i).relayed hk) hkept ((h.steady i).leaseOk hk)

/-- One upstream, whose connections are kept. -/
def oneKept : Setup := { oneProxy with config := { oneProxy.config with upstreamKeepAlive := true } }

/-- Every socket is clean. What throws is `build`, from the second time on. -/
def cleanSocket (buildFails : Bool) (input : Input) : Input :=
  { input with oracle := fun n site =>
      match site with
      | .clean _ => true
      | .build => buildFails && decide (0 < n)
      | _ => false }

/-- An answer that leaves the connection usable. -/
def keptAnswer (buildFails : Bool) : Gateway :=
  after oneKept []
    ((answered { status := 200, reason := "OK".toList }).map (cleanSocket buildFails))

theorem connections_reused_safely_ok :
    (((keptAnswer false).locals 0).exs 0).puts = 1
      ∧ ReusesSafely (((keptAnswer false).locals 0).exs 0) := by
  refine ⟨by decide +kernel, ?_⟩
  exact connections_reused_safely oneKept [] _ (by decide +kernel)

/-- An exchange that ends by an exception, after it has put its connection. -/
theorem put_then_aborted :
    .aborted ∈ (((keptAnswer true).locals 0).exs 0).journal
      ∧ (((keptAnswer true).locals 0).exs 0).puts = 1
      ∧ (keptAnswer true).shared.pool.idleCount = 1 := by
  decide +kernel

end Gateway

end ApiGate
