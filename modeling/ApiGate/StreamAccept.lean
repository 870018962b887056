import ApiGate.ExchangeRules

/-!
# Which response heads are accepted

`on_read_header` and `start_stream` check the head of an upstream response
separately. Here both run on the same head, and their verdicts are compared:
the stage of the failure that the owner is told, or none. A head is what
Beast's parser delivers, complete exactly when no body can follow, and refused
with `body_limit` when the announced body is too large.
-/

namespace ApiGate

open EventLoop Act

/-- The head of an upstream response; `response` has no body yet. -/
structure Head where
  response : HttpResponse
  contentLength : Option UInt64 := none
  needEof : Bool := false
  bufferSize : Nat := 0
  deriving DecidableEq, Repr

namespace Head

/-- The parser is done at the header. -/
def isDone (h : Head) : Bool :=
  h.response.status / 100 = 1 || h.response.status = 204 || h.response.status = 304
    || h.contentLength = some 0

def tooLong (h : Head) : Bool := h.contentLength.any fun n => n > Exchange.maxUpstreamBodyBytes

def parser (h : Head) : ParserState :=
  { response := { h.response with body := [] }
    contentLength := h.contentLength
    isDone := h.isDone
    needEof := h.needEof
    bufferSize := h.bufferSize }

/-- The parser's `body_limit` counts only for a body that is to be read. -/
def error (h : Head) : Error := if !h.isDone && h.tooLong then some .bodyLimit else none

def upgrades (h : Head) : Bool := h.response.fields.has "upgrade".toList

/-- The completion of the header read. -/
def completion (h : Head) : Exchange.Completion :=
  { op := .readHeader, error := h.error, report := .header h.parser }

end Head

namespace Exchange

/-! ## The verdict -/

abbrev Verdict := Option ProxyFailureStage

/-- An owner that keeps the stage of the failure it was told. -/
def judge : EndCallbacks Verdict :=
  { complete := fun _ r => modify fun w => { w with env := r.failure.map ProxyFailure.stage }
    abort := fun _ => pure ()
    finish := fun _ failure _ =>
      modify fun w => { w with env := failure.map ProxyFailure.stage } }

def accept : StreamCallbacks Verdict :=
  { header := fun _ _ _ _ => pure ()
    body := fun _ _ _ => pure () }

def withStream (stream : Bool) (x : Exchange) : Exchange :=
  { x with selected := { x.selected with streamResponse := stream } }

/-- What the owner of `x` is told when the head arrives. -/
def verdict (lib : Library) (shared : Shared) (x : Exchange) (stream : Bool) (o : Oracle Site)
    (head : Head) : Verdict :=
  (exec (dispatch judge lib accept 0 head.completion) o
    { shared, exs := fun _ => x.withStream stream, env := none }).env

/-- The places where the handler may throw. -/
def throwing : Site → Prop
  | .clean _ | .poolTimer => False
  | _ => True

variable {lib : Library} {k : Nat} {w : World Verdict} {R : World Verdict → Prop}

theorem wp_fail_stage (hl : Live (w.exs k)) (hs : (w.exs k).streamStarted = false)
    (stage : ProxyFailureStage) (error : Error) :
    wp throwing (fail judge k stage error) (fun _ w' => w'.env = some stage) R w := by
  have ho₁ : Open ((w.exs k).recordFailure stage).finishDeadline := { hl.toOpen with }
  have ho : Open ((w.exs k).recordFailure stage).finishDeadline.cancelOperations :=
    ho₁.cancelOperations
  unfold fail
  simp only [wp_get_bind]
  rw [if_neg (by simp [hl.observed])]
  simp only [wp_modify_bind]
  rw [if_neg (by simp [hs])]
  refine wp_mayThrow_bind ?_ fun hF => (hF trivial).elim
  refine wp_complete ?_ ?_ ?_ fun w' _ _ => wp_modify.mpr rfl
  · rw [World.setEx_same]
    exact ho.toUnclaimed
  · rw [World.setEx_same]
    exact cancelOperations_disposed _
  · rw [World.setEx_same]
    exact fun _ _ => cancelOperations_cancelled _

theorem wp_rejectBufferBudget_none (hl : Live (w.exs k)) (bytes : UInt64) :
    wp throwing (rejectBufferBudget judge k bytes) (fun _ w' => w'.env = none) R w := by
  unfold rejectBufferBudget
  simp only [wp_modify_bind]
  refine wp_mayThrow_bind ?_ fun hF => (hF trivial).elim
  simp only [wp_get_bind]
  refine wp_complete ?_ ?_ ?_ fun w' _ _ => wp_modify.mpr rfl
  · rw [World.setEx_same]
    exact hl.toOpen.cancelOperations.toUnclaimed
  · rw [World.setEx_same]
    exact cancelOperations_disposed _
  · rw [World.setEx_same]
    exact fun _ _ => cancelOperations_cancelled _

/-- A response without a body can always be rebuilt. -/
theorem makeDownstreamResponse_empty (lib : Library) (request : HttpRequest) {up : HttpResponse}
    (hbody : up.body = []) : ∃ response, makeDownstreamResponse lib request up = .ok response := by
  unfold makeDownstreamResponse HttpResponse.preparePayload
  dsimp only
  rw [if_neg (by simp [hbody])]
  exact ⟨_, rfl⟩

theorem wp_finishResponse_none (hl : Live (w.exs k)) (hs : (w.exs k).streamStarted = false)
    (hwritten : .requestWritten ∈ (w.exs k).journal)
    (hbody : (w.exs k).parser.response.body = []) :
    wp throwing (finishResponse judge lib k) (fun _ w' => w'.env = none) R w := by
  obtain ⟨response, hresp⟩ := makeDownstreamResponse_empty lib (w.exs k).downstreamRequest hbody
  refine wp_finishResponse hl hs hwritten ?_ ?_ ?_
  · exact fun _ _ _ _ hF => (hF trivial).elim
  · intro e hfails
    rw [hresp] at hfails
    cases hfails
  · exact fun _ _ _ w' _ _ => wp_modify.mpr rfl

/-! ## Both paths -/

/-- The checks of `on_read_header` without streaming, as a function of the head. -/
def bufferedVerdict (head : Head) : Verdict :=
  if head.error.isSome then some .responseTooLarge
  else if head.response.status < 200 then some .invalidResponse
  else if !head.isDone && head.tooLong then some .responseTooLarge
  else none

/-- The checks of `start_stream`. -/
def streamedVerdict (head : Head) : Verdict :=
  if head.error.isSome then some .responseTooLarge
  else if head.response.status < 200 || head.upgrades then some .invalidResponse
  else if head.tooLong then some .responseTooLarge
  else none

theorem error_stage {head : Head} (h : head.error.isSome = true) :
    readStage head.error = .responseTooLarge := by
  unfold Head.error at h ⊢
  split at h
  · rename_i hlong
    rw [if_pos hlong]
    rfl
  · cases h

section Paths

variable {head : Head} (hl : Live (w.exs k)) (hs : (w.exs k).streamStarted = false)
  (hwritten : .requestWritten ∈ (w.exs k).journal) (hparser : (w.exs k).parser = head.parser) (henv : w.env = none)

include hl hs hparser henv

theorem wp_startStream_verdict (herror : head.error.isSome = false) :
    wp throwing (startStream judge lib accept k) (fun _ w' => w'.env = streamedVerdict head) R w := by
  have hsend : ∀ w' : World Verdict, w'.env = none →
      wp throwing (sendStreamHead lib accept k) (fun _ w'' => w''.env = none) R w' := by
    intro w' henv'
    unfold sendStreamHead
    refine wp_mayThrow_bind ?_ fun hF => (hF trivial).elim
    simp only [wp_get_bind, wp_modify_bind]
    refine wp_mayThrow_bind ?_ fun hF => (hF trivial).elim
    simp only [wp_modify_bind]
    exact wp_pure.mpr henv'
  unfold startStream
  simp only [wp_get_bind, hparser]
  split
  · rename_i hbad
    change (decide (head.response.status < 200) || head.upgrades) = true at hbad
    have hv : streamedVerdict head = some .invalidResponse := by
      rw [streamedVerdict, if_neg (by simp [herror]), if_pos hbad]
    rw [hv]
    exact wp_fail_stage hl hs _ _
  · rename_i hgood
    change ¬(decide (head.response.status < 200) || head.upgrades) = true at hgood
    split
    · rename_i hlong
      change head.tooLong = true at hlong
      have hv : streamedVerdict head = some .responseTooLarge := by
        rw [streamedVerdict, if_neg (by simp [herror]), if_neg hgood, if_pos hlong]
      rw [hv]
      exact wp_fail_stage hl hs _ _
    · rename_i hshort
      change ¬head.tooLong = true at hshort
      have hv : streamedVerdict head = none := by
        rw [streamedVerdict, if_neg (by simp [herror]), if_neg hgood, if_neg hshort]
      rw [hv]
      refine wp_mayThrow_bind ?_ fun hF => (hF trivial).elim
      -- with or without a block, the head is sent or the budget refuses
      split
      · split
        · exact wp_rejectBufferBudget_none hl 1
        · split
          · exact wp_rejectBufferBudget_none hl 1
          · simp only [wp_modify_bind]
            exact wp_mayThrow_bind (hsend _ henv) fun hF => (hF trivial).elim
      · exact hsend w henv

theorem wp_onReadHeader_streamed (hstream : (w.exs k).selected.streamResponse = true) :
    wp throwing (onReadHeader judge lib accept k head.error)
      (fun _ w' => w'.env = streamedVerdict head) R w := by
  unfold onReadHeader
  simp only [wp_get_bind]
  rw [if_neg (by simp [hl.observed])]
  split
  · rename_i herror
    have hl' : Live ((w.setEx k Exchange.finishDeadline).exs k) := by
      rw [World.setEx_same]
      exact hl.finishDeadline
    simp only [wp_modify_bind]
    rw [error_stage herror, streamedVerdict, if_pos herror]
    exact wp_fail_stage hl' (by rwa [World.setEx_same]) _ _
  · rename_i herror
    exact wp_startStream_verdict hl hs hparser henv (by simpa using herror)

include hwritten in
theorem wp_onReadHeader_buffered (hstream : (w.exs k).selected.streamResponse = false) :
    wp throwing (onReadHeader judge lib accept k head.error)
      (fun _ w' => w'.env = bufferedVerdict head) R w := by
  have hl' : Live ((w.setEx k Exchange.finishDeadline).exs k) := by
    rw [World.setEx_same]
    exact hl.finishDeadline
  have hs' : ((w.setEx k Exchange.finishDeadline).exs k).streamStarted = false := by
    rwa [World.setEx_same]
  have hwritten' : .requestWritten ∈ ((w.setEx k Exchange.finishDeadline).exs k).journal := by
    rw [World.setEx_same]
    exact hwritten
  unfold onReadHeader
  simp only [wp_get_bind, hparser]
  rw [if_neg (by simp [hl.observed])]
  split
  · rename_i herror
    simp only [wp_modify_bind]
    rw [error_stage herror, bufferedVerdict, if_pos herror]
    exact wp_fail_stage hl' hs' _ _
  · rename_i herror
    rw [if_neg (by simp [hstream])]
    split
    · rename_i hlow
      change head.response.status < 200 at hlow
      have hv : bufferedVerdict head = some .invalidResponse := by
        rw [bufferedVerdict, if_neg herror, if_pos hlow]
      simp only [wp_modify_bind, hv]
      exact wp_fail_stage hl' hs' _ _
    · rename_i hfinal
      change ¬head.response.status < 200 at hfinal
      have hv : bufferedVerdict head
          = if !head.isDone && head.tooLong then some .responseTooLarge else none := by
        rw [bufferedVerdict, if_neg herror, if_neg hfinal]
      rw [hv]
      unfold planBodyReservation
      cases hdone : head.parser.isDone with
      | true =>
          have hdone' : head.isDone = true := hdone
          simp only [if_true, wp_modify_bind, hdone', Bool.not_true, Bool.false_and,
            Bool.false_eq_true, if_false]
          refine wp_finishResponse_none hl' hs' hwritten' ?_
          rw [World.setEx_same]
          show (w.exs k).parser.response.body = []
          rw [hparser]
          rfl
      | false =>
          have hdone' : head.isDone = false := hdone
          cases hlong : head.tooLong with
          | true =>
              have hlong' : (head.parser.contentLength.any fun n => n > maxUpstreamBodyBytes) = true :=
                hlong
              simp only [hlong', hdone', Bool.false_eq_true, if_false, if_true, wp_modify_bind,
                Bool.not_false, Bool.and_self]
              exact wp_fail_stage hl' hs' _ _
          | false =>
              have hlong' : (head.parser.contentLength.any fun n => n > maxUpstreamBodyBytes) = false :=
                hlong
              simp only [hlong', Bool.false_eq_true, if_false, Bool.and_false]
              split
              · simp only [wp_modify_bind]
                exact wp_rejectBufferBudget_none hl' _
              · simp only [wp_modify_bind]
                refine wp_mayThrow_bind ?_ fun hF => (hF trivial).elim
                exact wp_modify.mpr henv

end Paths

theorem live_withStream {x : Exchange} (h : Live x) (stream : Bool) : Live (x.withStream stream) :=
  { h with }

/-- The verdict of an exchange that waits for the head is the function of the head
alone. -/
theorem verdict_eq (lib : Library) (shared : Shared) {x : Exchange} (hl : Live x)
    (hop : .readHeader ∈ x.ops) {o : Oracle Site} (ho : Admissible throwing o) (stream : Bool)
    (head : Head) :
    verdict lib shared x stream o head
      = if stream then streamedVerdict head else bufferedVerdict head := by
  unfold verdict
  refine exec_of_wp (P := fun w' : World Verdict => w'.env = _) ho ?_
  unfold dispatch
  simp only [wp_get_bind]
  rw [if_pos (show head.completion.op ∈ (x.withStream stream).ops from hop)]
  simp only [wp_modify_bind]
  obtain ⟨hs, -⟩ := hl.stage_completed hop rfl
  have hl' : Live (head.completion.receive (x.withStream stream)) :=
    (live_withStream hl stream).completion hop
  have hwritten : .requestWritten ∈ (head.completion.receive (x.withStream stream)).journal := by
    rw [receive_undelivered rfl]
    exact hl.written (Or.inl ⟨_, hop, rfl⟩)
  refine wp_tryCatch ?_
  cases stream with
  | true =>
      refine wp_onReadHeader_streamed ?_ ?_ ?_ rfl ?_
      all_goals rw [World.setEx_same]
      · exact hl'
      · rw [receive_streamStarted]
        exact hs
      · rfl
      · rfl
  | false =>
      refine wp_onReadHeader_buffered ?_ ?_ ?_ ?_ rfl ?_
      all_goals rw [World.setEx_same]
      · exact hl'
      · rw [receive_streamStarted]
        exact hs
      · exact hwritten
      · rfl
      · rfl

/-- A streamed exchange fails on a head exactly when a buffered one does, with the
same stage, except that a final response with an Upgrade field is refused only
when it is streamed. Heads that are complete and yet announce more than the body
limit are left out. -/
theorem stream_accepts_as_buffered (lib : Library) (shared : Shared) {x : Exchange}
    (hl : Live x) (hop : .readHeader ∈ x.ops) {o o' : Oracle Site} (ho : Admissible throwing o)
    (ho' : Admissible throwing o') {head : Head}
    (hlength : head.isDone = true → ∀ n, head.contentLength = some n → n ≤ maxUpstreamBodyBytes) :
    verdict lib shared x true o head
      = (verdict lib shared x false o' head).or
          (if 200 ≤ head.response.status ∧ head.upgrades = true then some .invalidResponse
           else none) := by
  have hshort : head.isDone = true → head.tooLong = false := by
    intro hdone
    unfold Head.tooLong
    cases hc : head.contentLength with
    | none => rfl
    | some n => simpa using hlength hdone n hc
  rw [verdict_eq lib shared hl hop ho, verdict_eq lib shared hl hop ho', if_pos rfl,
    if_neg (by simp)]
  unfold streamedVerdict bufferedVerdict
  by_cases herror : head.error.isSome = true
  · rw [if_pos herror, if_pos herror]
    rfl
  · rw [if_neg herror, if_neg herror]
    by_cases hlow : head.response.status < 200
    · rw [if_pos hlow, if_pos (by simp [hlow])]
      rfl
    · have hlong : (!head.isDone && head.tooLong) = false := by
        unfold Head.error at herror
        cases hlong : !head.isDone && head.tooLong with
        | false => rfl
        | true => exact absurd (by rw [if_pos hlong]; rfl) herror
      have htoo : head.tooLong = false := by
        cases hdone : head.isDone with
        | true => exact hshort hdone
        | false => simpa [hdone] using hlong
      cases hup : head.upgrades with
      | true => simp [hlow, hlong, Nat.le_of_not_lt hlow]
      | false => simp [hlow, htoo]

/-- An exchange that waits for the response head. -/
def waiting : Exchange := { ops := [.readHeader], journal := [.requestWritten] }

theorem live_waiting : Live waiting where
  completed := rfl
  onComplete := rfl
  onAbort := rfl
  finish := rfl
  lease := ⟨rfl, Or.inl ⟨by decide, rfl⟩⟩
  kept := ⟨trivial, fun n hn => by cases hn⟩
  unfinished _ _ := by simp [waiting]
  unput _ _ := by simp [waiting]
  observed := rfl
  held := rfl
  oneStage := by decide
  noBlock _ := rfl
  unsettled n hn := by
    rw [List.mem_singleton.mp hn]
    rfl
  silent _ _ := by simp [waiting]
  written _ := List.mem_singleton_self _
  accepted hs := by cases hs

/-- Nothing shared but a body budget of 2 MiB. -/
def roomy : Shared :=
  { admission := { rateLimits := [], proxies := ⟨1, 0⟩, nextUpstream := [], health := [] }
    budget := { maxBytes := 2097152 } }

theorem stream_accepts_as_buffered_304 :
    ∃ head : Head, head.isDone = true ∧ head.contentLength = some 1000
      ∧ verdict ⟨id, id⟩ roomy waiting true (fun _ _ => false) head = none
      ∧ verdict ⟨id, id⟩ roomy waiting true (fun _ _ => false) head
        = (verdict ⟨id, id⟩ roomy waiting false (fun _ _ => false) head).or none := by
  refine ⟨{ response := { status := 304 }, contentLength := some 1000 }, rfl, rfl, by decide, ?_⟩
  refine stream_accepts_as_buffered ⟨id, id⟩ roomy live_waiting (by decide)
    (fun _ _ _ => rfl) (fun _ _ _ => rfl) ?_
  rintro - n hn
  cases hn
  decide

/-- A 200 with an Upgrade field passes `on_read_header` only when it is buffered. -/
theorem stream_refuses_upgrade :
    ¬ ∀ (lib : Library) (shared : Shared) (x : Exchange) (o : Oracle Site) (head : Head),
      Live x → .readHeader ∈ x.ops → Admissible throwing o →
      shared.budget.currentBytes.toNat + maxUpstreamBodyBytes.toNat
        ≤ shared.budget.maxBytes.toNat →
      verdict lib shared x true o head = verdict lib shared x false o head := by
  intro h
  have := h ⟨id, id⟩ roomy waiting (fun _ _ => false)
    { response :=
        { status := 200, fields := [⟨"Upgrade".toList, "websocket".toList⟩] }
      contentLength := some 2 }
    live_waiting (by decide) (fun _ _ _ => rfl) (by decide)
  revert this
  decide

end Exchange

end ApiGate
