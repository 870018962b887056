import ApiGate.GatewayMoves

/-!
# What is counted for a request

The log of a session falls into requests, one for each reset of the observation
(`requests`). `Books` is what the notes of one request promise: each kind of
counter once, the response in the bucket of the head that went out, nothing for
a scrape. The flags of the observation know what the current request has
counted already (`Ledger`), and every move keeps this.
-/

namespace ApiGate

/-! ## The requests of a log -/

namespace Note

/-- The latest request comes first, and so does the latest note of each. -/
def requests : List Note → List (List Note)
  | [] => [[]]
  | note :: log =>
      if note = .reset then [] :: requests log
      else (note :: (requests log).headD []) :: (requests log).tail

/-- The request that is being served. -/
def current (log : List Note) : List Note := (requests log).headD []

theorem current_reset (log : List Note) : current (.reset :: log) = [] := by
  simp [current, requests]

/-- Adding notes to the current request leaves the earlier ones. -/
theorem requests_append {notes : List Note} (h : .reset ∉ notes) (log : List Note) :
    requests (notes ++ log) = (notes ++ current log) :: (requests log).tail := by
  induction notes with
  | nil =>
      show requests log = current log :: (requests log).tail
      unfold current
      cases log with
      | nil => rfl
      | cons note log =>
          unfold requests
          split <;> rfl
  | cons note notes ih =>
      have hnote : note ≠ .reset := fun heq => h (heq ▸ List.mem_cons_self ..)
      show requests (note :: (notes ++ log)) = _
      rw [requests, if_neg hnote, ih fun hmem => h (List.mem_cons_of_mem _ hmem)]
      rfl

theorem mem_requests_append {notes log part : List Note} (h : .reset ∉ notes)
    (hpart : part ∈ requests (notes ++ log)) :
    part = notes ++ current log ∨ part ∈ requests log := by
  rw [requests_append h log] at hpart
  rcases List.mem_cons.mp hpart with heq | hmem
  · exact Or.inl heq
  · exact Or.inr (List.mem_of_mem_tail hmem)

theorem current_append {notes : List Note} (h : .reset ∉ notes) (log : List Note) :
    current (notes ++ log) = notes ++ current log := by
  rw [current, requests_append h log]
  rfl

theorem mem_requests_reset {log part : List Note} (h : part ∈ requests (.reset :: log)) :
    part = [] ∨ part ∈ requests log := by
  simpa [requests] using h

theorem current_mem (log : List Note) : current log ∈ requests log := by
  unfold current
  cases log with
  | nil => exact List.mem_singleton.mpr rfl
  | cons note log =>
      unfold requests
      split <;> exact List.mem_cons_self ..

/-! ## The notes of one request -/

def isResponse : Note → Bool
  | .counted (.response _) => true
  | _ => false

def isRejection : Note → Bool
  | .counted (.rejection _) => true
  | _ => false

def isFailure : Note → Bool
  | .counted (.failure _) => true
  | _ => false

/-- The request asks for the metrics. -/
def Scrapes (part : List Note) : Prop :=
  ∃ target, .header target ∈ part ∧ requestPath target = "/metrics".toList

def HasResponse (part : List Note) : Prop := ∃ index, .counted (.response index) ∈ part

def HasHead (part : List Note) : Prop := ∃ response, .head response ∈ part

/-- What the notes of a request promise. The list is latest first. -/
structure Books (part : List Note) : Prop where
  responses : part.countP isResponse ≤ 1
  rejections : part.countP isRejection ≤ 1
  failures : part.countP isFailure ≤ 1
  processings : part.count (.counted .processing) ≤ 1
  bucket : ∀ index response, .counted (.response index) ∈ part → .head response ∈ part →
    index = Metrics.responseIndex response.status
  processed : ∀ later earlier, part = later ++ .counted .processing :: earlier →
    (∃ index rest, earlier = .counted (.response index) :: rest) ∧ .dispatch ∈ earlier
  streams : ∀ later stage earlier, part = later ++ .streamFailed stage :: earlier →
    (∃ rest, later = rest ++ [.counted (.failure stage)]) ∧ ¬HasResponse later
  scrapes : ∀ later target earlier, part = later ++ .header target :: earlier →
    requestPath target = "/metrics".toList → ∀ counter, .counted counter ∉ later

/-- A response is counted exactly with a head for a request that is no scrape. -/
def Answered (part : List Note) : Prop :=
  HasResponse part ↔ HasHead part ∧ ¬Scrapes part

theorem books_nil : Books [] := by
  constructor <;> simp

theorem answered_nil : Note.Answered [] := by
  simp [Note.Answered, HasResponse, HasHead]

variable {part : List Note} {note : Note}

theorem countP_eq_zero_of {p : Note → Bool} (h : ∀ note ∈ part, p note = false) :
    part.countP p = 0 := by
  rw [List.countP_eq_zero]
  intro note hmem
  simp [h note hmem]

theorem isResponse_of_not (h : ¬HasResponse part) : ∀ note ∈ part, isResponse note = false := by
  intro note hmem
  cases note with
  | counted counter =>
      cases counter with
      | response index => exact absurd ⟨index, hmem⟩ h
      | _ => rfl
  | _ => rfl

theorem isRejection_of_not (h : ∀ reason, .counted (.rejection reason) ∉ part) :
    ∀ note ∈ part, isRejection note = false := by
  intro note hmem
  cases note with
  | counted counter =>
      cases counter with
      | rejection reason => exact absurd hmem (h reason)
      | _ => rfl
  | _ => rfl

theorem isFailure_of_not (h : ∀ stage, .counted (.failure stage) ∉ part) :
    ∀ note ∈ part, isFailure note = false := by
  intro note hmem
  cases note with
  | counted counter =>
      cases counter with
      | failure stage => exact absurd hmem (h stage)
      | _ => rfl
  | _ => rfl

/-- What a note needs of those before it. -/
structure Fits (part : List Note) (note : Note) : Prop where
  response : ∀ index, note = .counted (.response index) →
    ¬HasResponse part ∧ ¬HasHead part ∧ ∀ stage, .streamFailed stage ∉ part
  rejection : ∀ reason, note = .counted (.rejection reason) →
    ∀ reason', .counted (.rejection reason') ∉ part
  failure : ∀ stage, note = .counted (.failure stage) →
    ∀ stage', .counted (.failure stage') ∉ part
  processing : note = .counted .processing →
    .counted .processing ∉ part ∧ (∃ index rest, part = .counted (.response index) :: rest)
      ∧ .dispatch ∈ part
  head : ∀ response, note = .head response → ∀ index, .counted (.response index) ∈ part →
    index = Metrics.responseIndex response.status
  stream : ∀ stage, note ≠ .streamFailed stage
  scrape : ∀ counter, note = .counted counter → ¬Scrapes part

theorem fits_of_quiet (hcounted : ∀ counter, note ≠ .counted counter)
    (hhead : ∀ response, note ≠ .head response) (hstream : ∀ stage, note ≠ .streamFailed stage) :
    Fits part note where
  response _ heq := absurd heq (hcounted _)
  rejection _ heq := absurd heq (hcounted _)
  failure _ heq := absurd heq (hcounted _)
  processing heq := absurd heq (hcounted _)
  head response heq := absurd heq (hhead response)
  stream := hstream
  scrape _ heq := absurd heq (hcounted _)

theorem Books.cons (h : Books part) (hfits : Fits part note) : Books (note :: part) where
  responses := by
    rw [List.countP_cons]
    split
    · rename_i hnote
      cases note with
      | counted counter =>
          cases counter with
          | response index =>
              rw [countP_eq_zero_of (isResponse_of_not (hfits.response index rfl).1)]
          | _ => cases hnote
      | _ => cases hnote
    · exact h.responses
  rejections := by
    rw [List.countP_cons]
    split
    · rename_i hnote
      cases note with
      | counted counter =>
          cases counter with
          | rejection reason =>
              rw [countP_eq_zero_of (isRejection_of_not (hfits.rejection reason rfl))]
          | _ => cases hnote
      | _ => cases hnote
    · exact h.rejections
  failures := by
    rw [List.countP_cons]
    split
    · rename_i hnote
      cases note with
      | counted counter =>
          cases counter with
          | failure stage =>
              rw [countP_eq_zero_of (isFailure_of_not (hfits.failure stage rfl))]
          | _ => cases hnote
      | _ => cases hnote
    · exact h.failures
  processings := by
    by_cases hnote : note = .counted .processing
    · rw [hnote, List.count_cons_self, List.count_eq_zero.mpr (hfits.processing hnote).1]
    · rw [List.count_cons_of_ne hnote]
      exact h.processings
  bucket := by
    intro index response hcount hhead
    rcases List.mem_cons.mp hcount with heq | hcount
    · have hnone := (hfits.response index heq.symm).2.1
      rcases List.mem_cons.mp hhead with heq' | hhead
      · rw [← heq] at heq'
        cases heq'
      · exact absurd ⟨response, hhead⟩ hnone
    · rcases List.mem_cons.mp hhead with heq | hhead
      · exact hfits.head response heq.symm index hcount
      · exact h.bucket index response hcount hhead
  processed := by
    intro later earlier hsplit
    cases later with
    | nil =>
        obtain ⟨hnote, rfl⟩ := List.cons.inj hsplit
        exact (hfits.processing hnote).2
    | cons first later => exact h.processed later earlier (List.cons.inj hsplit).2
  streams := by
    intro later stage earlier hsplit
    cases later with
    | nil => exact absurd (List.cons.inj hsplit).1 (hfits.stream stage)
    | cons first later =>
        obtain ⟨rfl, hrest⟩ := List.cons.inj hsplit
        obtain ⟨⟨rest, hlater⟩, hno⟩ := h.streams later stage earlier hrest
        refine ⟨⟨note :: rest, by rw [hlater]; rfl⟩, ?_⟩
        rintro ⟨index, hmem⟩
        rcases List.mem_cons.mp hmem with heq | hmem
        · refine (hfits.response index heq.symm).2.2 stage ?_
          rw [hrest]
          simp
        · exact hno ⟨index, hmem⟩
  scrapes := by
    intro later target earlier hsplit htarget counter hmem
    cases later with
    | nil => cases hmem
    | cons first later =>
        obtain ⟨rfl, hrest⟩ := List.cons.inj hsplit
        rcases List.mem_cons.mp hmem with heq | hmem
        · refine hfits.scrape counter heq.symm ⟨target, ?_, htarget⟩
          rw [hrest]
          simp
        · exact h.scrapes later target earlier hrest htarget counter hmem

/-- The two notes of a stream that fails. -/
theorem Books.failStream (h : Books part) (hfail : ∀ stage, .counted (.failure stage) ∉ part)
    (hscrape : ¬Scrapes part) (stage : ProxyFailureStage) :
    Books (.counted (.failure stage) :: .streamFailed stage :: part) where
  responses := by simpa [isResponse] using h.responses
  rejections := by simpa [isRejection] using h.rejections
  failures := by
    have hzero : part.countP isFailure = 0 := countP_eq_zero_of (isFailure_of_not hfail)
    rw [List.countP_cons_of_pos rfl, List.countP_cons_of_neg (by simp [isFailure]), hzero]
  processings := by simpa using h.processings
  bucket := by
    intro index response hcount hhead
    exact h.bucket index response (by simpa using hcount) (by simpa using hhead)
  processed := by
    intro later earlier hsplit
    match later with
    | [] => cases hsplit
    | [_] => cases hsplit
    | _ :: _ :: later =>
        exact h.processed later earlier (List.cons.inj (List.cons.inj hsplit).2).2
  streams := by
    intro later stage' earlier hsplit
    match later with
    | [] => cases hsplit
    | [_] =>
        cases hsplit
        exact ⟨⟨[], rfl⟩, by simp [HasResponse]⟩
    | _ :: _ :: later =>
        cases hsplit
        obtain ⟨⟨rest, rfl⟩, hno⟩ := h.streams later stage' earlier rfl
        exact ⟨⟨_ :: _ :: rest, rfl⟩, by simpa [HasResponse] using hno⟩
  scrapes := by
    intro later target earlier hsplit htarget
    refine absurd ⟨target, ?_, htarget⟩ hscrape
    have hmem : .header target ∈ .counted (.failure stage) :: .streamFailed stage :: part := by
      rw [hsplit]
      simp
    simpa using hmem

theorem hasResponse_cons :
    HasResponse (note :: part) ↔ (∃ index, note = .counted (.response index)) ∨ HasResponse part := by
  simp only [HasResponse, List.mem_cons, exists_or]
  exact or_congr_left ⟨fun ⟨i, h⟩ => ⟨i, h.symm⟩, fun ⟨i, h⟩ => ⟨i, h.symm⟩⟩

theorem hasHead_cons :
    HasHead (note :: part) ↔ (∃ response, note = .head response) ∨ HasHead part := by
  simp only [HasHead, List.mem_cons, exists_or]
  exact or_congr_left ⟨fun ⟨i, h⟩ => ⟨i, h.symm⟩, fun ⟨i, h⟩ => ⟨i, h.symm⟩⟩

theorem scrapes_cons : Scrapes (note :: part) ↔
    (∃ target, note = .header target ∧ requestPath target = "/metrics".toList)
      ∨ Scrapes part := by
  simp only [Scrapes, List.mem_cons, or_and_right, exists_or]
  exact or_congr_left ⟨fun ⟨t, h, ht⟩ => ⟨t, h.symm, ht⟩, fun ⟨t, h, ht⟩ => ⟨t, h.symm, ht⟩⟩

/-- A note that is no header, no head and no response. -/
structure Aside (note : Note) : Prop where
  header : ∀ target, note ≠ .header target
  head : ∀ response, note ≠ .head response
  response : ∀ index, note ≠ .counted (.response index)

theorem Aside.scrapes (h : Aside note) : Scrapes (note :: part) ↔ Scrapes part := by
  rw [scrapes_cons]
  exact or_iff_right fun ⟨target, heq, _⟩ => h.header target heq

theorem Aside.hasResponse (h : Aside note) : HasResponse (note :: part) ↔ HasResponse part := by
  rw [hasResponse_cons]
  exact or_iff_right fun ⟨index, heq⟩ => h.response index heq

theorem Aside.hasHead (h : Aside note) : HasHead (note :: part) ↔ HasHead part := by
  rw [hasHead_cons]
  exact or_iff_right fun ⟨response, heq⟩ => h.head response heq

theorem Aside.answered (h : Aside note) :
    Note.Answered (note :: part) ↔ Note.Answered part := by
  unfold Note.Answered
  rw [h.scrapes, h.hasResponse, h.hasHead]

end Note

/-! ## The flags of the observation -/

/-- The flags know what the current request has counted. -/
structure RequestObservation.Tells (o : RequestObservation) (part : List Note) :
    Prop where
  books : Note.Books part
  fresh : part = [] → o = {}
  excluded : o.excluded = true ↔ Note.Scrapes part
  unanswered : o.completed = false → ¬Note.HasResponse part ∧ ¬Note.HasHead part
  unprocessed : o.completed = false → .counted .processing ∉ part
  unstreamed : o.completed = false → ∀ stage, .streamFailed stage ∉ part
  unrejected : o.rejected = false → ∀ reason, .counted (.rejection reason) ∉ part
  unfailed : o.failed = false → ∀ stage, .counted (.failure stage) ∉ part
  dispatched : o.started.isSome = true → .dispatch ∈ part

namespace RequestObservation

open Note

variable {o : RequestObservation} {part : List Note} {m : Metrics}

theorem tells_nil : Tells {} [] := by
  refine ⟨books_nil, fun _ => rfl, ?_, ?_, ?_, ?_, ?_, ?_, ?_⟩
  all_goals simp [Scrapes, HasResponse, HasHead]

theorem Tells.unscraped (h : Tells o part) (hex : o.excluded = false) : ¬Scrapes part := by
  rw [← h.excluded, hex]
  simp

/-- One note more, with the flags that go with it. -/
theorem Tells.cons {o' : RequestObservation} {note : Note} (h : Tells o part)
    (hfits : Fits part note) (hex : o'.excluded = o.excluded)
    (hheader : ∀ target, note ≠ .header target)
    (hcompleted : o'.completed = false → o.completed = false
      ∧ (∀ index, note ≠ .counted (.response index)) ∧ (∀ response, note ≠ .head response)
      ∧ note ≠ .counted .processing)
    (hrejected : o'.rejected = false → o.rejected = false
      ∧ ∀ reason, note ≠ .counted (.rejection reason))
    (hfailed : o'.failed = false → o.failed = false
      ∧ ∀ stage, note ≠ .counted (.failure stage))
    (hstarted : o'.started.isSome = true → o.started.isSome = true ∨ note = .dispatch) :
    Tells o' (note :: part) where
  books := h.books.cons hfits
  fresh hnil := by cases hnil
  excluded := by
    rw [hex, scrapes_cons, h.excluded]
    exact (or_iff_right fun ⟨target, heq, _⟩ => hheader target heq).symm
  unanswered ho := by
    obtain ⟨ho, hresponse, hhead, -⟩ := hcompleted ho
    rw [hasResponse_cons, hasHead_cons]
    exact ⟨fun hor => hor.elim (fun ⟨index, heq⟩ => hresponse index heq) (h.unanswered ho).1,
      fun hor => hor.elim (fun ⟨response, heq⟩ => hhead response heq) (h.unanswered ho).2⟩
  unprocessed ho := by
    obtain ⟨ho, -, -, hnote⟩ := hcompleted ho
    exact fun hmem => (List.mem_cons.mp hmem).elim (fun heq => hnote heq.symm) (h.unprocessed ho)
  unstreamed ho stage hmem := by
    rcases List.mem_cons.mp hmem with heq | hmem
    · exact hfits.stream stage heq.symm
    · exact h.unstreamed (hcompleted ho).1 stage hmem
  unrejected ho reason hmem := by
    rcases List.mem_cons.mp hmem with heq | hmem
    · exact (hrejected ho).2 reason heq.symm
    · exact h.unrejected (hrejected ho).1 reason hmem
  unfailed ho stage hmem := by
    rcases List.mem_cons.mp hmem with heq | hmem
    · exact (hfailed ho).2 stage heq.symm
    · exact h.unfailed (hfailed ho).1 stage hmem
  dispatched ho := by
    rcases hstarted ho with ho | heq
    · exact List.mem_cons_of_mem _ (h.dispatched ho)
    · exact heq ▸ List.mem_cons_self ..

/-- The request has begun and is no scrape: it is counted. -/
theorem Tells.response (h : Tells o part) (hc : o.completed = false) (hex : o.excluded = false)
    (index : Nat) (status : Option Nat) :
    Tells { o with completed := true, status } (.counted (.response index) :: part) := by
  refine h.cons ?_ rfl (by simp) (fun ho => by cases ho) (fun ho => ⟨ho, by simp⟩)
    (fun ho => ⟨ho, by simp⟩) Or.inl
  exact {
    response := fun _ _ => ⟨(h.unanswered hc).1, (h.unanswered hc).2, h.unstreamed hc⟩
    rejection := by simp
    failure := by simp
    processing := by simp
    head := by simp
    stream := by simp
    scrape := fun _ _ => h.unscraped hex }

theorem Tells.processing {index : Nat} {rest : List Note} (h : Tells o part)
    (hpart : part = .counted (.response index) :: rest) (hnone : .counted .processing ∉ rest)
    (hc : o.completed = true) (hex : o.excluded = false) (hs : o.started.isSome = true) :
    Tells o (.counted .processing :: part) := by
  refine h.cons ?_ rfl (by simp) (fun ho => by rw [hc] at ho; cases ho) (fun ho => ⟨ho, by simp⟩)
    (fun ho => ⟨ho, by simp⟩) Or.inl
  exact {
    response := by simp
    rejection := by simp
    failure := by simp
    processing := fun _ => ⟨by simpa [hpart] using hnone, ⟨index, rest, hpart⟩, h.dispatched hs⟩
    head := by simp
    stream := by simp
    scrape := fun _ _ => h.unscraped hex }

theorem Tells.head {response : HttpResponse} (h : Tells o part) (hc : o.completed = true)
    (hbucket : ∀ index, .counted (.response index) ∈ part →
      index = Metrics.responseIndex response.status) :
    Tells o (.head response :: part) := by
  refine h.cons ?_ rfl (by simp) (fun ho => by rw [hc] at ho; cases ho) (fun ho => ⟨ho, by simp⟩)
    (fun ho => ⟨ho, by simp⟩) Or.inl
  exact {
    response := by simp
    rejection := by simp
    failure := by simp
    processing := by simp
    head := fun r heq index hmem => by
      cases heq
      exact hbucket index hmem
    stream := by simp
    scrape := by simp }

/-- What `finish` counts. -/
theorem finishCounts_cases (hc : o.completed = false) (status : Nat) (now : TimePoint) :
    (o.excluded = true ∧ o.finishCounts (some m) status now = [])
      ∨ (o.excluded = false
        ∧ o.finishCounts (some m) status now = [.response (Metrics.responseIndex status)])
      ∨ (o.excluded = false ∧ o.started.isSome = true ∧ o.finishCounts (some m) status now
        = [.response (Metrics.responseIndex status), .processing]) := by
  unfold finishCounts
  cases hex : o.excluded with
  | true => exact Or.inl ⟨rfl, by simp⟩
  | false =>
      cases hs : o.started with
      | none => exact Or.inr (Or.inl ⟨rfl, by simp [hc]⟩)
      | some start =>
          by_cases hle : start ≤ now
          · exact Or.inr (Or.inr ⟨rfl, rfl, by simp [hc, hle]⟩)
          · exact Or.inr (Or.inl ⟨rfl, by simp [hc, hle]⟩)

theorem Tells.finish (h : Tells o part) (hc : o.completed = false) (status : Nat)
    (now : TimePoint) :
    Tells { o with completed := true, status := some status }
      (Session.counted (o.finishCounts (some m) status now) ++ part) := by
  rcases finishCounts_cases (m := m) hc status now with
    ⟨hex, hcounts⟩ | ⟨hex, hcounts⟩ | ⟨hex, hs, hcounts⟩
  · rw [hcounts]
    obtain ⟨target, hmem, htarget⟩ := h.excluded.mp hex
    exact { h with
      fresh := fun hnil => by
        rw [show part = [] from hnil] at hmem
        cases hmem
      unanswered := fun ho => by cases ho
      unprocessed := fun ho => by cases ho
      unstreamed := fun ho => by cases ho }
  · rw [hcounts]
    exact h.response hc hex _ _
  · rw [hcounts]
    exact (h.response hc hex _ _).processing rfl (h.unprocessed hc) rfl hex hs

/-- Only the bucket of `status` is counted. -/
theorem Tells.finish_bucket (h : Tells o part) (hc : o.completed = false) {status : Nat}
    {now : TimePoint} {index : Nat}
    (hmem : .counted (.response index)
      ∈ Session.counted (o.finishCounts (some m) status now) ++ part) :
    index = Metrics.responseIndex status := by
  rcases List.mem_append.mp hmem with hmem | hmem
  · rcases finishCounts_cases (m := m) hc status now with
      ⟨-, hcounts⟩ | ⟨-, hcounts⟩ | ⟨-, -, hcounts⟩
    · rw [hcounts] at hmem
      cases hmem
    · rw [hcounts] at hmem
      simpa [Session.counted] using hmem
    · rw [hcounts] at hmem
      simpa [Session.counted] using hmem
  · exact absurd ⟨index, hmem⟩ (h.unanswered hc).1

/-- The response is counted with the head unless the request is a scrape. -/
theorem Tells.finish_answered (h : Tells o part) (hc : o.completed = false) (status : Nat)
    (now : TimePoint) (response : HttpResponse) :
    Note.Answered (.head response
      :: (Session.counted (o.finishCounts (some m) status now) ++ part)) := by
  have hscrapes : Scrapes (.head response
      :: (Session.counted (o.finishCounts (some m) status now) ++ part)) ↔ o.excluded = true := by
    rw [h.excluded]
    simp [Scrapes, Session.counted]
  unfold Note.Answered
  rw [hscrapes]
  have hhead : HasHead (.head response
      :: (Session.counted (o.finishCounts (some m) status now) ++ part)) :=
    ⟨response, List.mem_cons_self ..⟩
  simp only [hhead, true_and]
  rcases finishCounts_cases (m := m) hc status now with
    ⟨hex, hcounts⟩ | ⟨hex, hcounts⟩ | ⟨hex, -, hcounts⟩
  · rw [hcounts, hex, hasResponse_cons]
    simp only [not_true_eq_false, iff_false]
    rintro (⟨index, heq⟩ | hresponse)
    · cases heq
    · exact (h.unanswered hc).1 hresponse
  all_goals
    rw [hcounts, hex]
    exact iff_of_true ⟨Metrics.responseIndex status, by simp [Session.counted]⟩ (by simp)

/-- `reject` of an observation that is not complete. -/
theorem Tells.reject (h : Tells o part) (hc : o.completed = false) (reason : RejectionReason) :
    Tells (o.reject (some m) reason).1
      (Session.counted ((ObservationCall.reject reason).counts o (some m)) ++ part) := by
  cases hex : o.excluded with
  | true => simpa [RequestObservation.reject, ObservationCall.counts, hex, Session.counted] using h
  | false =>
      cases hr : o.rejected with
      | true =>
          simpa [RequestObservation.reject, ObservationCall.counts, hex, hr, Session.counted] using h
      | false =>
          have hcons : Tells { o with rejected := true } (.counted (.rejection reason) :: part) := by
            refine h.cons ?_ rfl (by simp) (fun ho => ⟨ho, by simp, by simp, by simp⟩)
              (fun ho => by cases ho) (fun ho => ⟨ho, by simp⟩) Or.inl
            exact {
              response := by simp
              rejection := fun _ _ => h.unrejected hr
              failure := by simp
              processing := by simp
              head := by simp
              stream := by simp
              scrape := fun _ _ => h.unscraped hex }
          simpa [RequestObservation.reject, ObservationCall.counts, hex, hr, hc, Session.counted]
            using hcons

/-- `fail` of one. -/
theorem Tells.fail (h : Tells o part) (hc : o.completed = false) (stage : ProxyFailureStage) :
    Tells (o.fail (some m) stage).1
      (Session.counted ((ObservationCall.fail stage).counts o (some m)) ++ part) := by
  cases hex : o.excluded with
  | true =>
      simpa [RequestObservation.fail, failStream, ObservationCall.counts, hex, hc, Session.counted]
        using h
  | false =>
      cases hr : o.failed with
      | true =>
          simpa [RequestObservation.fail, failStream, ObservationCall.counts, hex, hr, hc,
            Session.counted] using h
      | false =>
          have hcons : Tells { o with failed := true } (.counted (.failure stage) :: part) := by
            refine h.cons ?_ rfl (by simp) (fun ho => ⟨ho, by simp, by simp, by simp⟩)
              (fun ho => ⟨ho, by simp⟩) (fun ho => by cases ho) Or.inl
            exact {
              response := by simp
              rejection := by simp
              failure := fun _ _ => h.unfailed hr
              processing := by simp
              head := by simp
              stream := by simp
              scrape := fun _ _ => h.unscraped hex }
          simpa [RequestObservation.fail, failStream, ObservationCall.counts, hex, hr, hc,
            Session.counted] using hcons

/-- `fail_stream` of an observation that is complete. -/
theorem Tells.failStream (h : Tells o part) (hc : o.completed = true) (hex : o.excluded = false)
    (hf : o.failed = false) (stage : ProxyFailureStage) :
    Tells { o with failed := true }
      (.counted (.failure stage) :: .streamFailed stage :: part) := by
  have hscrapes : Scrapes (.counted (.failure stage) :: .streamFailed stage :: part)
      ↔ Scrapes part := by simp [Scrapes]
  have hopen : ¬o.completed = false := by simp [hc]
  exact {
    books := h.books.failStream (h.unfailed hf) (h.unscraped hex) stage
    fresh := fun hnil => by cases hnil
    excluded := h.excluded.trans hscrapes.symm
    unanswered := fun ho => absurd ho hopen
    unprocessed := fun ho => absurd ho hopen
    unstreamed := fun ho => absurd ho hopen
    unrejected := fun ho reason hmem => h.unrejected ho reason (by simpa using hmem)
    unfailed := fun ho => by cases ho
    dispatched := fun ho => List.mem_cons_of_mem _ (List.mem_cons_of_mem _ (h.dispatched ho)) }

/-- A note that counts nothing. -/
theorem Tells.note {o' : RequestObservation} {note : Note} (h : Tells o part)
    (hnote : Aside note) (hcounted : ∀ counter, note ≠ .counted counter)
    (hstream : ∀ stage, note ≠ .streamFailed stage) (hex : o'.excluded = o.excluded)
    (hc : o'.completed = o.completed) (hr : o'.rejected = o.rejected) (hf : o'.failed = o.failed)
    (hs : o'.started.isSome = true → o.started.isSome = true ∨ note = .dispatch) :
    Tells o' (note :: part) := by
  refine h.cons ?_ hex hnote.header (fun ho => ⟨hc ▸ ho, hnote.response, hnote.head, hcounted _⟩)
    (fun ho => ⟨hr ▸ ho, fun _ => hcounted _⟩) (fun ho => ⟨hf ▸ ho, fun _ => hcounted _⟩) hs
  exact fits_of_quiet hcounted hnote.head hstream

/-- The header of a request has been read. -/
theorem tells_header {g : Setup} (h : g.config.metricsEnabled = true) (target : Text) :
    Tells (exclude {} (isMetricsTarget g.config target)) [.header target, .readHeader] where
  books := by
    have hread : Books [.readHeader] :=
      (books_nil).cons (fits_of_quiet (by simp) (by simp) (by simp))
    exact hread.cons (fits_of_quiet (by simp) (by simp) (by simp))
  fresh hnil := by cases hnil
  excluded := by
    have hpath : isMetricsTarget g.config target = true ↔ requestPath target = "/metrics".toList := by
      rw [isMetricsTarget, h, Bool.true_and, decide_eq_true_iff]
    show isMetricsTarget g.config target = true ↔ _
    rw [hpath, scrapes_cons]
    refine ⟨fun hp => Or.inl ⟨target, rfl, hp⟩, ?_⟩
    rintro (⟨target', heq, hp⟩ | ⟨target', hmem, -⟩)
    · cases heq
      exact hp
    · cases List.mem_singleton.mp hmem
  unanswered _ := by simp [HasResponse, HasHead]
  unprocessed _ := by simp
  unstreamed _ := by simp
  unrejected _ := by simp
  unfailed _ := by simp
  dispatched ho := by cases ho

end RequestObservation

/-! ## The ledger of a session -/

namespace Outline

open Note

/-- The notes of every request and the flags of the current one. -/
structure Ledger (lossy : Prop) (f : Outline) : Prop where
  enabled : ∃ m, f.metrics = some m
  books : ∀ part ∈ requests f.log, Books part
  answered : lossy ∨ ∀ part ∈ requests f.log, Note.Answered part
  tells : f.observation.Tells (current f.log)
  awaiting : 0 < f.headers → f.headers = 1 ∧ current f.log = [.readHeader] ∧ f.observation = {}
  busy : f.busy = true → f.observation.excluded = false ∧ f.observation.failed = false
  writing : f.phase = .writing → f.observation.completed = true

variable {g : Setup} {lenient lossy : Prop} {f f' : Outline}

/-- Notes are added to the current request. -/
theorem Ledger.more (h : Ledger lossy f) (notes : List Note) (hreset : .reset ∉ notes)
    (hlog : f'.log = notes ++ f.log) (hmetrics : ∃ m, f'.metrics = some m)
    (htells : f'.observation.Tells (notes ++ current f.log))
    (hanswered : lossy ∨ (Note.Answered (current f.log) →
      Note.Answered (notes ++ current f.log)))
    (hawaiting : 0 < f'.headers → f'.headers = 1 ∧ notes ++ current f.log = [.readHeader]
      ∧ f'.observation = {})
    (hbusy : f'.busy = true → f'.observation.excluded = false ∧ f'.observation.failed = false)
    (hwriting : f'.phase = .writing → f'.observation.completed = true) : Ledger lossy f' where
  enabled := hmetrics
  books part hpart := by
    rw [hlog] at hpart
    rcases mem_requests_append hreset hpart with rfl | hpart
    · exact htells.books
    · exact h.books part hpart
  answered := by
    refine h.answered.elim Or.inl fun hall => hanswered.imp_right fun hnew part hpart => ?_
    rw [hlog] at hpart
    rcases mem_requests_append hreset hpart with rfl | hpart
    · exact hnew (hall _ (current_mem f.log))
    · exact hall part hpart
  tells := by
    rw [hlog, current_append hreset]
    exact htells
  awaiting := by
    rw [hlog, current_append hreset]
    exact hawaiting
  busy := hbusy
  writing := hwriting

/-- Nothing is noted. -/
theorem Ledger.same (h : Ledger lossy f) (hlog : f'.log = f.log)
    (hobservation : f'.observation = f.observation) (hmetrics : f'.metrics = f.metrics)
    (hheaders : f'.headers ≤ f.headers)
    (hbusy : f'.busy = true → f.busy = true
      ∨ f.observation.excluded = false ∧ f.observation.failed = false)
    (hwriting : f'.phase = .writing → f.phase = .writing) : Ledger lossy f' := by
  refine h.more [] (by simp) hlog (hmetrics ▸ h.enabled) (hobservation ▸ h.tells) (Or.inr id)
    (fun hpos => ?_) (fun hb => ?_) fun hw => hobservation ▸ h.writing (hwriting hw)
  · obtain ⟨hone, hcurrent, hfresh⟩ := h.awaiting (by omega)
    exact ⟨by omega, hcurrent, hobservation.trans hfresh⟩
  · rw [hobservation]
    exact (hbusy hb).elim h.busy id

theorem reset_not_counted (counters : List Counter) : .reset ∉ Session.counted counters := by
  simp [Session.counted]

theorem aside_counted {counters : List Counter} (h : ∀ index, .response index ∉ counters) :
    ∀ note ∈ Session.counted counters, Aside note := by
  intro note hmem
  obtain ⟨counter, hcounter, rfl⟩ : ∃ counter ∈ counters, .counted counter = note := by
    simpa [Session.counted] using hmem
  exact ⟨by simp, by simp, fun index heq => h index (by cases heq; exact hcounter)⟩

theorem answered_append {notes : List Note} (h : ∀ note ∈ notes, Aside note) (part : List Note) :
    Note.Answered (notes ++ part) ↔ Note.Answered part := by
  induction notes with
  | nil => rfl
  | cons note notes ih =>
      rw [List.cons_append, (h note (List.mem_cons_self ..)).answered]
      exact ih fun n hn => h n (List.mem_cons_of_mem _ hn)

theorem Ledger.reset (h : Ledger lossy f) (hlog : f'.log = .reset :: f.log)
    (hobservation : f'.observation = {}) (hmetrics : f'.metrics = f.metrics)
    (hheaders : f'.headers = 0) (hbusy : f'.busy = false) (hphase : f'.phase ≠ .writing) :
    Ledger lossy f' where
  enabled := hmetrics ▸ h.enabled
  books part hpart := by
    rw [hlog] at hpart
    rcases mem_requests_reset hpart with rfl | hpart
    · exact books_nil
    · exact h.books part hpart
  answered := by
    refine h.answered.imp_right fun hall part hpart => ?_
    rw [hlog] at hpart
    rcases mem_requests_reset hpart with rfl | hpart
    · exact answered_nil
    · exact hall part hpart
  tells := by
    rw [hlog, hobservation, current_reset]
    exact RequestObservation.tells_nil
  awaiting hpos := by omega
  busy hb := by
    rw [hbusy] at hb
    cases hb
  writing hw := absurd hw hphase

/-- `observation_.reject` and `fail` -/
theorem Ledger.call (h : Ledger lossy f) (hp : f.Pending) {c : ObservationCall}
    (htells : ∀ m, (c.apply f.observation (some m)).1.Tells
      (Session.counted (c.counts f.observation (some m)) ++ current f.log))
    (hcounts : ∀ m index, .response index ∉ c.counts f.observation (some m))
    (hbusy : f.busy = true → (c.apply f.observation f.metrics).1.excluded = false
      ∧ (c.apply f.observation f.metrics).1.failed = false) : Ledger lossy (f.call c) := by
  obtain ⟨m, hm⟩ := h.enabled
  refine h.more (Session.counted (c.counts f.observation f.metrics)) (reset_not_counted _) rfl
    ?_ ?_ ?_ (fun hpos => ?_) hbusy fun hw => ?_
  · show ∃ m', (c.apply f.observation f.metrics).2 = some m'
    rw [hm]
    exact ⟨_, RequestObservation.call_metrics f.observation m c⟩
  · show (c.apply f.observation f.metrics).1.Tells _
    rw [hm]
    exact htells m
  · rw [hm]
    exact Or.inr (answered_append (aside_counted (hcounts m)) _).mpr
  · have hzero : f.headers = 0 := hp.noHeader
    rw [show (f.call c).headers = f.headers from rfl] at hpos
    omega
  · have hopen := hp.unanswered
    rw [h.writing hw] at hopen
    cases hopen

/-- `observation_.finish`, with or without a head after it -/
theorem Ledger.finish (h : Ledger lossy f) (hp : f.Pending) (status : Nat) (now : TimePoint)
    (heads : List Note) (hlog : f'.log = heads ++ (f.finish status now).log)
    (hobservation : f'.observation = (f.finish status now).observation)
    (hmetrics : f'.metrics = (f.finish status now).metrics) (hheaders : f'.headers = f.headers)
    (hbusy : f'.busy = true → f.busy = true)
    (hheads : (lossy ∧ heads = [])
      ∨ ∃ response : HttpResponse, response.status = status ∧ heads = [.head response]) :
    Ledger lossy f' := by
  obtain ⟨m, hm⟩ := h.enabled
  have hc := hp.unanswered
  have htells := h.tells.finish (m := m) hc status now
  have hfinish : f'.observation
      = { f.observation with completed := true, status := some status } :=
    hobservation.trans (RequestObservation.finish_observation hc f.metrics status now)
  have hlog' : f'.log = (heads ++ Session.counted
      (f.observation.finishCounts (some m) status now)) ++ f.log := by
    rw [hlog, List.append_assoc, ← hm]
    rfl
  refine h.more _ ?_ hlog' ?_ ?_ ?_ (fun hpos => ?_) (fun hb => ?_) fun _ => ?_
  · rcases hheads with ⟨-, rfl⟩ | ⟨response, -, rfl⟩
    · exact reset_not_counted _
    · simpa using reset_not_counted _
  · rw [hmetrics]
    show ∃ m', (f.observation.finish f.metrics status now).2.2 = some m'
    rw [hm]
    exact ⟨_, RequestObservation.finish_metrics f.observation m status now⟩
  · rw [hfinish]
    rcases hheads with ⟨-, rfl⟩ | ⟨response, rfl, rfl⟩
    · exact htells
    · exact htells.head rfl fun index hmem => h.tells.finish_bucket hc hmem
  · rcases hheads with ⟨hlossy, -⟩ | ⟨response, -, rfl⟩
    · exact Or.inl hlossy
    · exact Or.inr fun _ => h.tells.finish_answered hc status now response
  · rw [hheaders, hp.noHeader] at hpos
    cases hpos
  · rw [hfinish]
    exact h.busy (hbusy hb)
  · rw [hfinish]

theorem Ledger.move (h : Ledger lossy f) (henabled : g.config.metricsEnabled = true)
    (hmove : Move g lenient lossy f f') :
    Ledger lossy f' := by
  cases hmove with
  | settle hfewer => exact h.same rfl rfl rfl hfewer Or.inl id
  | own _ hincluded hunfailed =>
      exact h.same rfl rfl rfl le_rfl (fun _ => Or.inr ⟨hincluded, hunfailed⟩) id
  | disown => exact h.same rfl rfl rfl le_rfl (fun hb => by cases hb) id
  | handshake | shut | proxy => exact h.same rfl rfl rfl le_rfl Or.inl fun hw => by cases hw
  | drainClosing | close =>
      exact h.same rfl rfl rfl le_rfl (fun hb => by cases hb) fun hw => by cases hw
  | reset _ _ _ hn _ hidle => exact h.reset rfl rfl rfl hn hidle (by simp)
  | readHeader _ _ hreset hn =>
      have hnil : current f.log = [] := by rw [hreset, current_reset]
      have hfresh := h.tells.fresh hnil
      refine h.more [.readHeader] (by simp) rfl h.enabled ?_
        (Or.inr (Aside.answered ⟨by simp, by simp, by simp⟩).mpr)
        (fun _ => ⟨rfl, by rw [hnil]; rfl, hfresh⟩) h.busy h.writing
      exact h.tells.note ⟨by simp, by simp, by simp⟩ (by simp) (by simp) rfl rfl rfl rfl Or.inl
  | header target hpos hidle =>
      obtain ⟨hone, hcurrent, hfresh⟩ := h.awaiting hpos
      refine h.more [.header target] (by simp) rfl h.enabled ?_ (Or.inr fun _ => ?_)
        (fun hlt => ?_) (fun hb => ?_) fun hw => ?_
      · rw [hcurrent]
        show RequestObservation.Tells (f.observation.exclude _) _
        rw [hfresh]
        exact RequestObservation.tells_header henabled target
      · rw [hcurrent]
        simp [Note.Answered, HasResponse, HasHead]
      · have hlt' : 0 < f.headers - 1 := hlt
        omega
      · rw [show f.busy = true from hb] at hidle
        cases hidle
      · exact h.writing hw
  | dispatch now hp hreading =>
      refine h.more [.dispatch] (by simp) rfl h.enabled ?_
        (Or.inr (Aside.answered ⟨by simp, by simp, by simp⟩).mpr) (fun hpos => ?_) (fun hb => ?_)
        fun hw => ?_
      · exact h.tells.note ⟨by simp, by simp, by simp⟩ (by simp) (by simp)
          (RequestObservation.begin_excluded _ _) (RequestObservation.begin_completed _ _)
          (RequestObservation.begin_rejected _ _) (RequestObservation.begin_failed _ _)
          fun _ => Or.inr rfl
      · have hzero : 0 < f.headers := hpos
        rw [hp.noHeader] at hzero
        cases hzero
      · show (f.observation.begin now).excluded = false ∧ (f.observation.begin now).failed = false
        rw [RequestObservation.begin_excluded, RequestObservation.begin_failed]
        exact h.busy hb
      · exact (RequestObservation.begin_completed _ _).trans (h.writing hw)
  | reject hp reason =>
      refine h.call hp (fun m => h.tells.reject hp.unanswered reason) (fun m index => ?_)
        fun hb => ?_
      · unfold ObservationCall.counts
        dsimp only
        split
        · simp
        · split <;> simp
      · show (f.observation.reject f.metrics reason).1.excluded = false
          ∧ (f.observation.reject f.metrics reason).1.failed = false
        rw [RequestObservation.reject_excluded, RequestObservation.reject_failed]
        exact h.busy hb
  | fail hp _ hidle stage =>
      refine h.call hp (fun m => h.tells.fail hp.unanswered stage) (fun m index => ?_) fun hb => ?_
      · unfold ObservationCall.counts
        dsimp only
        split
        · simp
        · split <;> simp
      · rw [hb] at hidle
        cases hidle
  | failStream _ _ hn _ hphase hbusy stage =>
      obtain ⟨hex, hf⟩ := h.busy hbusy
      obtain ⟨m, hm⟩ := h.enabled
      have hcounts : (ObservationCall.failStream stage).counts f.observation f.metrics
          = [.failure stage] := by simp [ObservationCall.counts, hex, hf, hm]
      have hobservation : (f.observation.failStream f.metrics stage).1
          = { f.observation with failed := true } := by
        simp [RequestObservation.failStream, hex, hf, hm]
      refine h.more [.counted (.failure stage), .streamFailed stage] (by simp) ?_ ?_ ?_
        (Or.inr ?_) (fun hpos => ?_) (fun hb => by cases hb) fun _ => ?_
      · show Session.counted ((ObservationCall.failStream stage).counts f.observation f.metrics)
          ++ _ = _
        rw [hcounts]
        rfl
      · show ∃ m', (f.observation.failStream f.metrics stage).2 = some m'
        simp [RequestObservation.failStream, hex, hf, hm]
      · show RequestObservation.Tells (f.observation.failStream f.metrics stage).1 _
        rw [hobservation]
        exact h.tells.failStream (h.writing hphase) hex hf stage
      · refine (answered_append ?_ (current f.log)).mpr
        intro note hmem
        rcases List.mem_cons.mp hmem with rfl | hmem
        · exact ⟨by simp, by simp, by simp⟩
        · rw [List.mem_singleton.mp hmem]
          exact ⟨by simp, by simp, by simp⟩
      · have hzero : 0 < f.headers := hpos
        rw [hn] at hzero
        cases hzero
      · show (f.observation.failStream f.metrics stage).1.completed = true
        rw [RequestObservation.failStream_completed]
        exact h.writing hphase
  | @answer response now hp hidle =>
      exact h.finish hp response.status now [.head response] rfl rfl rfl rfl id
        (Or.inr ⟨response, rfl, rfl⟩)
  | @stream response now close hp =>
      exact h.finish hp response.status now [.head response] rfl rfl rfl rfl id
        (Or.inr ⟨response, rfl, rfl⟩)
  | lose hlossy status now hp =>
      exact h.finish hp status now [] rfl rfl rfl rfl id (Or.inl ⟨hlossy, rfl⟩)
  | _ => exact h.same rfl rfl rfl le_rfl Or.inl id

/-- Another session has moved. -/
theorem Ledger.share (h : Ledger lossy f) (hmetrics : ∃ m, f'.metrics = some m) :
    Ledger lossy (share f' f) :=
  { h with enabled := hmetrics }

theorem Ledger.tick (h : Ledger lossy f) (now : TimePoint) : Ledger lossy (f.tick now) :=
  { h with }

end Outline

end ApiGate
