import ApiGate.GatewaySafety

/-!
# A stream delivers the body

Between its events every exchange of every session is over or waits, and its journal
is in order. So what the relay of a stream delivers is what the exchange delivers to
the client: a part of the upstream's body from its beginning on, all of it with the
final block, and success is reported for that alone.
-/

namespace ApiGate

open EventLoop Act Exchange

/-- A timeout, a cancellation or an error. An exception is cancelled too. -/
def ExchangeNote.fails : ExchangeNote → Bool
  | .cancelled | .relay (.taken (some _)) => true
  | .finish failure downstreamFailed => failure.isSome || downstreamFailed
  | .requestWritten | .put _ _ | .aborted | .relay _ => false

theorem streamNotes_split {later earlier : List ExchangeNote} {n : Relay.Note Char ErrorCode} :
    streamNotes (later ++ .relay n :: earlier)
      = streamNotes later ++ n :: streamNotes earlier := by
  unfold streamNotes
  rw [List.filterMap_append]
  rfl

namespace Session

variable {c : Context} {F : Site → Prop} {w : World Session} {j : Nat}

theorem Steady.relayed (h : Steady c F w) (hj : j < w.nextExchange) :
    Relayed (w.exs j) (w.env.ops.countP (SessionOp.uses j)) := by
  rcases h with hidle | hrest
  · rw [hidle.next] at hj
    exact absurd hj (Nat.not_lt_zero j)
  · exact hrest.relayed j hj

/-- An exchange that waits has not delivered everything; one that is over has noted how
its stream ended. -/
theorem Steady.verdict (h : Steady c F w) (hj : j < w.nextExchange) :
    Kept (w.exs j).journal
      ∧ ((w.exs j).relay = .delivered →
        .cancelled ∈ (w.exs j).journal ∨ .finish none false ∈ (w.exs j).journal) := by
  rcases h with hidle | hrest
  · rw [hidle.next] at hj
    exact absurd hj (Nat.not_lt_zero j)
  · rcases hrest.exchanges j hj with hended | ⟨hown, hopen⟩
    · refine ⟨hended.kept, fun hdelivered => ?_⟩
      obtain ⟨older, hnotes, -⟩ := Relay.top_of_delivered hdelivered
      refine hended.verdict (.taken none) (mem_streamNotes.mp ?_)
      rw [hnotes]
      exact List.mem_cons_self ..
    · refine ⟨hopen.kept, fun hdelivered => ?_⟩
      have hne : w.env.proxyExchange ≠ none := by simp [hown]
      cases hrest.mode with
      | gone hf => exact absurd (hrest.unowned hf).1 hne
      | proxying k _ hx _ _ _ hl hs =>
          rw [hown] at hx
          cases hx
          rw [relay_of_silent (hl.silent hs)] at hdelivered
          cases hdelivered
      | streaming k _ hx _ _ _ _ hw =>
          rw [hown] at hx
          cases hx
          rcases hw with ⟨-, hrelay⟩ | ⟨final, -, hrelay⟩
          all_goals
            rw [hrelay] at hdelivered
            cases hdelivered
      | handshaking _ hn | reading _ _ hn | writing _ _ hn | closing _ hn | stuck _ _ hn =>
          exact absurd hn hne

end Session

/-- A stream that was opened for blocks reports success just when it has delivered. -/
theorem finished_iff {x : Exchange} {writes : Nat} (h : Relayed x writes) (hkept : Kept x.journal)
    (hverdict : x.relay = .delivered → .cancelled ∈ x.journal ∨ .finish none false ∈ x.journal)
    (hopened : .relay (.opened false) ∈ x.journal) :
    .finish none false ∈ x.journal
      ↔ (∃ block, .relay (.passed block true) ∈ x.journal)
        ∧ Relay.AllTaken (streamNotes x.journal) ∧ ∀ n ∈ x.journal, n.fails = false := by
  have hdelivered := Relay.delivered_iff h.legal (mem_streamNotes.mpr hopened)
  constructor
  · intro hfinish
    obtain ⟨⟨block, hblock⟩, htaken⟩ := hdelivered.mp (h.success hfinish)
    refine ⟨⟨block, mem_streamNotes.mp hblock⟩, htaken, fun n hn => ?_⟩
    obtain ⟨huncancelled, hends⟩ := hkept.finished hfinish
    cases n with
    | cancelled => exact absurd hn huncancelled
    | finish f d =>
        obtain ⟨rfl, rfl⟩ := hends f d hn
        rfl
    | relay m =>
        cases m with
        | taken error =>
            cases error with
            | none => rfl
            | some e =>
                -- a refusal is the last note, and leaves the relay failed
                obtain ⟨newer, older, hsplit⟩ := List.append_of_mem (mem_streamNotes.mpr hn)
                have hlegal := h.legal
                unfold Exchange.relay at hlegal
                rw [hsplit] at hlegal htaken
                obtain rfl := Relay.after_refused hlegal
                obtain ⟨older', hnotes, -⟩ := Relay.top_of_delivered (h.success hfinish)
                rw [hsplit] at hnotes
                cases hnotes
        | opened | read | passed => rfl
    | requestWritten | put | aborted => rfl
  · rintro ⟨⟨block, hblock⟩, htaken, hfails⟩
    rcases hverdict (hdelivered.mpr ⟨⟨block, mem_streamNotes.mpr hblock⟩, htaken⟩) with
      hcancelled | hfinish
    · cases hfails _ hcancelled
    · exact hfinish

/-- After a failure, or any other end, no block is passed. -/
theorem after_stopped {x : Exchange} {writes : Nat} (h : Relayed x writes) (hkept : Kept x.journal)
    {later earlier : List ExchangeNote} {n : ExchangeNote}
    (hsplit : x.journal = later ++ n :: earlier) (hn : n.settles = true ∨ n.fails = true)
    (m : Relay.Note Char ErrorCode) : .relay m ∉ later := by
  have hlegal := h.legal
  unfold Exchange.relay at hlegal
  rw [hsplit] at hlegal hkept
  cases n with
  | relay t =>
      cases t with
      | taken error =>
          cases error with
          | none => simp [ExchangeNote.settles, ExchangeNote.fails] at hn
          | some e =>
              rw [streamNotes_split] at hlegal
              intro hmem
              have hmem' := mem_streamNotes.mpr hmem
              rw [Relay.after_refused hlegal] at hmem'
              cases hmem'
      | opened | read | passed => simp [ExchangeNote.settles, ExchangeNote.fails] at hn
  | requestWritten => simp [ExchangeNote.settles, ExchangeNote.fails] at hn
  | put | aborted | cancelled | finish => exact hkept.after_settled rfl m

/-- What an exchange has made of the `body` that comes in its block reads, while `writes`
writes to the client are under way: it passes on a prefix of it; a block read and a write
are never under way together; the final block is passed once, after it nothing, and with
it all of the body was passed; success is reported just when the final block was passed
and every write went well, without any failure; and after a failure nothing is passed. -/
structure Delivers (body : Text) (writes : Nat) (x : Exchange) : Prop where
  passed_prefix : Relay.passedText (streamNotes x.journal) <+: body
  one : x.blocks + writes ≤ 1
  final : ∀ later block earlier,
    streamNotes x.journal = later ++ .passed block true :: earlier →
      (∀ b final, .passed b final ∉ later) ∧ (∀ b, .passed b true ∉ earlier)
        ∧ Relay.passedText (.passed block true :: earlier) = body
  success : .finish none false ∈ x.journal
    ↔ (∃ block, .relay (.passed block true) ∈ x.journal)
      ∧ Relay.AllTaken (streamNotes x.journal) ∧ ∀ n ∈ x.journal, n.fails = false
  stopped : ∀ later n earlier, x.journal = later ++ n :: earlier →
    n.settles = true ∨ n.fails = true → ∀ b final, .relay (.passed b final) ∉ later

theorem delivers_of_relayed {x : Exchange} {writes : Nat} {body : Text} (h : Relayed x writes)
    (hkept : Kept x.journal)
    (hverdict : x.relay = .delivered → .cancelled ∈ x.journal ∨ .finish none false ∈ x.journal)
    (hopened : .relay (.opened false) ∈ x.journal)
    (hbody : Relay.Reads body (streamNotes x.journal)) : Delivers body writes x where
  passed_prefix := Relay.passed_prefix h.legal hbody
  one := h.one
  final := by
    intro later block earlier hsplit
    have hlegal : Relay.state (streamNotes x.journal) ≠ .wrong := h.legal
    rw [hsplit] at hlegal hbody
    obtain ⟨hafter, hbefore⟩ := Relay.after_last hlegal
    refine ⟨hafter, hbefore, Relay.passed_whole (Relay.state_of_append hlegal) ?_⟩
    have hlast : Relay.Reads body ([.passed block true] ++ earlier) := hbody.of_append
    exact hlast.of_append
  success := finished_iff h hkept hverdict hopened
  stopped := by
    intro later n earlier hsplit hn b final
    exact after_stopped h hkept hsplit hn _

namespace Gateway

/-- In every run, every exchange `k` of every session `i` whose response is streamed and
not complete with its head delivers the body that comes in its block reads, whatever
these are and however the writes to the client end. -/
theorem stream_delivers_body (g : Setup) (rateLimits : RouteRateLimits) (inputs : List Input)
    {i k : Nat} (hk : k < ((after g rateLimits inputs).locals i).nextExchange) {body : Text}
    (hopened : .relay (.opened false) ∈ (((after g rateLimits inputs).locals i).exs k).journal)
    (hbody : Relay.Reads body
      (streamNotes (((after g rateLimits inputs).locals i).exs k).journal)) :
    Delivers body (((after g rateLimits inputs).session i).ops.countP (Session.SessionOp.uses k))
      (((after g rateLimits inputs).locals i).exs k) := by
  obtain ⟨live, h⟩ := after_safe_all g rateLimits inputs
  have hrelayed : Relayed (((after g rateLimits inputs).locals i).exs k)
      (((after g rateLimits inputs).session i).ops.countP (Session.SessionOp.uses k)) :=
    (h.steady i).relayed hk
  obtain ⟨hkept, hverdict⟩ := (h.steady i).verdict hk
  exact delivers_of_relayed hrelayed hkept hverdict hopened hbody

/-- One route, whose responses are streamed. -/
def oneStream : Setup :=
  { oneProxy with
    config :=
      { routes :=
          [{ routePrefix := "/".toList
             upstreams := [{ host := "backend".toList, port := 8080 }]
             streamResponse := true }]
        maxConcurrentProxies := 1 } }

/-- A block read ends with `error` and leaves `leftover` of the block free. -/
def readBlock (error : Error) (bytes : Text) (leftover : Nat) (isDone : Bool) : Input :=
  { event := .session 0 (.exchange 0
      { op := .readBlock, error, report := .block isDone 0, bytes, leftover }) }

def wroteStream (op : SessionOp) : Input := { event := .session 0 (.completion { op }) }

/-- A body of three bytes arrives in three reads, of which the second is empty. -/
def streamed : List Input :=
  [accepted 0, requested 0, progressed .resolve .nothing, progressed .connect .nothing,
   progressed .write .nothing,
   progressed .readHeader (.header { response := { status := 200 }, contentLength := some 3 }),
   wroteStream (.streamHeader 0 false), readBlock (some .needBuffer) ['a', 'b'] 0 false,
   wroteStream (.streamBody 0 false), readBlock none ['a', 'b'] 2 false,
   readBlock none ['c', 'b'] 1 true, wroteStream (.streamBody 0 true)]

theorem stream_delivers_body_three :
    .finish none false ∈ (((after oneStream [none] streamed).locals 0).exs 0).journal
      ∧ Delivers ['a', 'b', 'c']
        (((after oneStream [none] streamed).session 0).ops.countP (Session.SessionOp.uses 0))
        (((after oneStream [none] streamed).locals 0).exs 0) := by
  have hnotes : streamNotes (((after oneStream [none] streamed).locals 0).exs 0).journal
      = [.taken none, .passed ['c'] true, .read ['c'] true, .read [] false, .taken none,
         .passed ['a', 'b'] false, .read ['a', 'b'] false, .taken none, .opened false] := by
    decide +kernel
  have hreads : Relay.Reads ['a', 'b', 'c']
      (streamNotes (((after oneStream [none] streamed).locals 0).exs 0).journal) := by
    rw [hnotes]
    simp [Relay.Reads, Relay.readText]
  have hexists : 0 < ((after oneStream [none] streamed).locals 0).nextExchange := by
    decide +kernel
  have hopened : .relay (.opened false)
      ∈ (((after oneStream [none] streamed).locals 0).exs 0).journal := by
    decide +kernel
  refine ⟨by decide +kernel, ?_⟩
  exact stream_delivers_body oneStream [none] streamed hexists hopened hreads

end Gateway

end ApiGate
