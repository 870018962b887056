import ApiGate.ResponseRewrite
import ApiGate.StreamAccept

/-!
# One response, two heads

A response whose length is known can go downstream on two paths: `start_stream`
frames the head itself, `make_downstream_response` leaves it to
`prepare_payload`. The heads agree but for 204 and 304 (`heads_agree_iff`):
`start_stream` gives these no length, and `prepare_payload` announces the length
of the empty body.
-/

namespace ApiGate

/-- What Beast's `int_to_status` promises: a code is known, or reads as 0. -/
structure Library.Registers (lib : Library) : Prop where
  known : ∀ status, lib.intToStatus status = status ∨ lib.intToStatus status = 0
  noContent : lib.intToStatus 204 = 204
  notModified : lib.intToStatus 304 = 304

namespace Library.Registers

variable {lib : Library} (hlib : lib.Registers)

include hlib

theorem mayCarryBody {status : Nat} (h : MayCarryBody status) :
    MayCarryBody (lib.intToStatus status) := by
  rcases hlib.known status with heq | heq
  · rwa [heq]
  · rw [heq]
    exact ⟨by decide, by decide, by decide⟩

theorem eq_noContent {status : Nat} : lib.intToStatus status = 204 ↔ status = 204 := by
  constructor
  · intro h
    rcases hlib.known status with heq | heq
    · exact heq.symm.trans h
    · rw [heq] at h
      cases h
  · rintro rfl
    exact hlib.noContent

theorem eq_notModified {status : Nat} : lib.intToStatus status = 304 ↔ status = 304 := by
  constructor
  · intro h
    rcases hlib.known status with heq | heq
    · exact heq.symm.trans h
    · rw [heq] at h
      cases h
  · rintro rfl
    exact hlib.notModified

end Library.Registers

/-! ## The head has no length of its own -/

theorem Fields.mem_setKeepAlive_name {fs : Fields} {version : Nat} {keep : Bool} {f : Field}
    (h : f ∈ fs.setKeepAlive version keep) : f ∈ fs ∨ f.name = "Connection".toList := by
  unfold Fields.setKeepAlive at h
  dsimp only at h
  split at h
  · exact Or.inl (List.mem_of_mem_filter h)
  · rcases Fields.mem_set h with rfl | h
    · exact Or.inr rfl
    · exact Or.inl h

theorem makeDownstreamHeader_length (lib : Library) (request : HttpRequest) (up : HttpResponse) :
    (makeDownstreamHeader lib request up).fields.has "content-length".toList = false := by
  rw [Fields.has_eq_false]
  intro f hf
  rcases Fields.mem_setKeepAlive_name hf with hf | hname
  · rcases Fields.mem_set hf with rfl | hf
    · show lowercase "Server".toList ≠ "content-length".toList
      decide
    · have hdrop := (mem_copyFields hf).2
      intro hname
      rw [dropsDownstream, Field.named, Field.named, hname] at hdrop
      simp at hdrop
  · rw [hname]
    decide

theorem Fields.mem_clearChunked {fs : Fields} {f : Field} (hf : f ∈ fs)
    (hname : lowercase f.name ≠ "transfer-encoding".toList) : f ∈ fs.clearChunked := by
  have herase : f ∈ fs.erase "transfer-encoding".toList :=
    List.mem_filter.mpr ⟨hf, by rw [Field.named, decide_eq_false hname]; rfl⟩
  have hlower : lowercase "Transfer-Encoding".toList = "transfer-encoding".toList := by decide
  unfold Fields.clearChunked
  split
  · dsimp only
    split
    · exact herase
    · rw [Fields.set, hlower]
      exact List.mem_append_left _ herase
  · exact hf

theorem Fields.has_setContentLength (fs : Fields) (n : Nat) :
    (fs.setContentLength n).has "content-length".toList = true := by
  rw [Fields.has_eq_true]
  refine ⟨contentLengthField n, Fields.mem_clearChunked ?_ ?_, ?_⟩
  · exact List.mem_append_right _ (List.mem_singleton_self _)
  · show lowercase "Content-Length".toList ≠ "transfer-encoding".toList
    decide
  · show lowercase "Content-Length".toList = "content-length".toList
    decide

/-! ## The two heads -/

/-- The body that follows a head, if its length is known there. -/
def Head.Delivers (head : Head) (body : Text) : Prop :=
  if head.isDone then body = []
  else ∃ length, head.contentLength = some length ∧ body.length = length.toNat

/-- The response of the buffered path begins with the head of the streamed one. -/
def HeadsAgree (lib : Library) (request : HttpRequest) (head : Head) (body : Text) : Prop :=
  ∃ response, makeDownstreamResponse lib request { head.response with body } = .ok response
    ∧ { response with body := [] } = Exchange.streamHead lib request head.parser

section StreamHead

variable {lib : Library} {request : HttpRequest} {head : Head}

/-- The head downstream before its framing. -/
def unframedHead (lib : Library) (request : HttpRequest) (head : Head) : HttpResponse :=
  makeDownstreamHeader lib request head.response

/-- The head with a length. -/
def measuredHead (lib : Library) (request : HttpRequest) (head : Head) (n : Nat) : HttpResponse :=
  { unframedHead lib request head with
    fields := (unframedHead lib request head).fields.setContentLength n }

theorem streamHead_known (hmore : head.isDone = false) {length : UInt64}
    (hlength : head.contentLength = some length) :
    Exchange.streamHead lib request head.parser = measuredHead lib request head length.toNat := by
  have hdone : head.parser.isDone = false := hmore
  have hparser : head.parser.contentLength = some length := hlength
  unfold Exchange.streamHead
  dsimp only
  rw [hdone, hparser]
  rfl

theorem streamHead_done (hdone : head.isDone = true) (hnoContent : head.response.result lib ≠ 204)
    (hnotModified : head.response.result lib ≠ 304) :
    Exchange.streamHead lib request head.parser = measuredHead lib request head 0 := by
  have hparser : head.parser.isDone = true := hdone
  unfold Exchange.streamHead
  dsimp only
  rw [hparser, if_neg (by simp)]
  refine if_pos ?_
  rw [Bool.and_eq_true, decide_eq_true_iff, decide_eq_true_iff]
  exact ⟨hnoContent, hnotModified⟩

theorem streamHead_bodyless (hdone : head.isDone = true)
    (h : head.response.result lib = 204 ∨ head.response.result lib = 304) :
    Exchange.streamHead lib request head.parser = unframedHead lib request head := by
  have hparser : head.parser.isDone = true := hdone
  unfold Exchange.streamHead
  dsimp only
  rw [hparser, if_neg (by simp)]
  refine if_neg ?_
  rw [Bool.and_eq_true, decide_eq_true_iff, decide_eq_true_iff]
  rintro ⟨hnoContent, hnotModified⟩
  rcases h with h | h
  · exact hnoContent h
  · exact hnotModified h

/-- The buffered path measures the body it has. -/
theorem headsAgree_measured {body : Text}
    (h : MayCarryBody ((unframedHead lib request head).result lib) ∨ body = []) :
    HeadsAgree lib request head body ↔
      measuredHead lib request head body.length = Exchange.streamHead lib request head.parser := by
  have hresponse := makeDownstreamResponse_eq lib request { head.response with body } h
  unfold HeadsAgree
  rw [hresponse]
  constructor
  · rintro ⟨response, hok, heq⟩
    obtain rfl := Except.ok.inj hok
    exact heq
  · intro heq
    exact ⟨_, rfl, heq⟩

theorem measuredHead_ne (n : Nat) :
    measuredHead lib request head n ≠ unframedHead lib request head := by
  intro heq
  have hfields := congrArg HttpResponse.fields heq
  have hlength := Fields.has_setContentLength (unframedHead lib request head).fields n
  rw [show (unframedHead lib request head).fields.setContentLength n
      = (unframedHead lib request head).fields from hfields] at hlength
  rw [unframedHead, makeDownstreamHeader_length] at hlength
  cases hlength

end StreamHead

theorem Head.isDone_eq_false {head : Head} (h : head.isDone = false) :
    MayCarryBody head.response.status := by
  unfold Head.isDone at h
  rw [Bool.or_eq_false_iff, Bool.or_eq_false_iff, Bool.or_eq_false_iff, decide_eq_false_iff_not,
    decide_eq_false_iff_not, decide_eq_false_iff_not] at h
  obtain ⟨⟨⟨hinformational, hnoContent⟩, hnotModified⟩, -⟩ := h
  exact ⟨hinformational, hnoContent, hnotModified⟩

/-- For every request and every response whose length is known at its head, complete or not:
both paths send the same head unless the status is 204 or 304. -/
theorem heads_agree_iff (lib : Library) (request : HttpRequest) (head : Head) (body : Text)
    (hlib : lib.Registers) (hbody : head.Delivers body) :
    HeadsAgree lib request head body ↔
      head.response.status ≠ 204 ∧ head.response.status ≠ 304 := by
  unfold Head.Delivers at hbody
  by_cases hdone : head.isDone = true
  · rw [if_pos hdone] at hbody
    rw [headsAgree_measured (Or.inr hbody), hbody]
    by_cases hless : head.response.status = 204 ∨ head.response.status = 304
    · have hresult : head.response.result lib = 204 ∨ head.response.result lib = 304 :=
        hless.imp hlib.eq_noContent.mpr hlib.eq_notModified.mpr
      rw [streamHead_bodyless hdone hresult]
      refine iff_of_false (measuredHead_ne _) ?_
      rintro ⟨hnoContent, hnotModified⟩
      rcases hless with h | h
      · exact hnoContent h
      · exact hnotModified h
    · obtain ⟨hnoContent, hnotModified⟩ := not_or.mp hless
      rw [streamHead_done hdone (fun h => hnoContent (hlib.eq_noContent.mp h))
        (fun h => hnotModified (hlib.eq_notModified.mp h))]
      exact iff_of_true rfl ⟨hnoContent, hnotModified⟩
  · have hmore : head.isDone = false := Bool.not_eq_true _ ▸ hdone
    have hmay := head.isDone_eq_false hmore
    rw [if_neg hdone] at hbody
    obtain ⟨length, hlength, hsize⟩ := hbody
    rw [headsAgree_measured (Or.inl (hlib.mayCarryBody (hlib.mayCarryBody hmay))), hsize,
      streamHead_known hmore hlength]
    exact iff_of_true rfl hmay.2

theorem everyStatus_registers : everyStatus.Registers :=
  ⟨fun _ => Or.inl rfl, rfl, rfl⟩

def createdHead : Head where
  response := { status := 201, reason := "Created".toList }
  contentLength := some 4

theorem heads_agree_iff_created :
    HeadsAgree everyStatus queryRequest createdHead "body".toList ↔
      createdHead.response.status ≠ 204 ∧ createdHead.response.status ≠ 304 :=
  heads_agree_iff everyStatus queryRequest createdHead "body".toList everyStatus_registers
    ⟨4, rfl, by decide⟩

def noContentHead : Head where
  response := { status := 204, reason := "No Content".toList }

/-- Both paths accept a 204; only one of them gives it a length. -/
theorem heads_disagree_noContent :
    Exchange.streamedVerdict noContentHead = none ∧ Exchange.bufferedVerdict noContentHead = none
      ∧ (Exchange.streamHead everyStatus queryRequest noContentHead.parser).fields = [serverField]
      ∧ (framedResponse everyStatus queryRequest noContentHead.response).fields
        = [serverField, contentLengthField 0]
      ∧ ¬HeadsAgree everyStatus queryRequest noContentHead [] := by
  refine ⟨by decide, by decide, by decide +kernel, by decide +kernel, ?_⟩
  rw [headsAgree_measured (Or.inr rfl), streamHead_bodyless (by decide) (Or.inl rfl)]
  exact measuredHead_ne 0

end ApiGate
