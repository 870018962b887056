import ApiGate.RequestRewrite

/-!
# The response that goes downstream

`make_downstream_header` and `make_downstream_response` in terms of the upstream
response: its fields pass a filter by name, Server and at most one Connection
field come behind them, and a response that may carry a body gets its
Content-Length last. Version and keep-alive are those of the request.
-/

namespace ApiGate

/-! ## The fields -/

/-- The names that no client gets from upstream. -/
def responseNames : List Text :=
  hopByHopNames ++ ["server".toList, "content-length".toList]

/-- The field is not passed back. -/
def DroppedDownstream (fields : Fields) (name : Text) : Prop :=
  lowercase name ∈ responseNames ∨ Nominated fields name

theorem dropsDownstream_iff {fields : Fields} {f : Field} :
    dropsDownstream (connectionTokens fields) f = true ↔ DroppedDownstream fields f.name := by
  unfold dropsDownstream DroppedDownstream responseNames
  simp only [Bool.or_eq_true, isHopByHop_iff, Field.named, decide_eq_true_eq, List.mem_append,
    List.mem_cons, List.not_mem_nil, or_false]
  constructor
  · rintro (((hhop | hnominated) | hserver) | hlength)
    · exact Or.inl (Or.inl hhop)
    · exact Or.inr hnominated
    · exact Or.inl (Or.inr (Or.inl hserver))
    · exact Or.inl (Or.inr (Or.inr hlength))
  · rintro ((hhop | hserver | hlength) | hnominated)
    · exact Or.inl (Or.inl (Or.inl hhop))
    · exact Or.inl (Or.inr hserver)
    · exact Or.inr hlength
    · exact Or.inl (Or.inl (Or.inr hnominated))

theorem dropsDownstream_congr (tokens : List Text) {f g : Field}
    (h : lowercase f.name = lowercase g.name) :
    dropsDownstream tokens f = dropsDownstream tokens g := by
  unfold dropsDownstream Field.named
  rw [isHopByHop_congr tokens h, h]

/-- The fields from upstream that are passed back. -/
def keptDownstream (fields : Fields) : Fields :=
  fields.filter fun f => !dropsDownstream (connectionTokens fields) f

theorem mem_keptDownstream {fields : Fields} {f : Field} :
    f ∈ keptDownstream fields ↔ f ∈ fields ∧ ¬DroppedDownstream fields f.name := by
  unfold keptDownstream
  rw [List.mem_filter, Bool.not_eq_true', ← Bool.not_eq_true, dropsDownstream_iff]

theorem keptDownstream_absent {fields : Fields} {name : Text} (h : name ∈ responseNames) :
    (keptDownstream fields).has name = false := by
  rw [Fields.has_eq_false]
  intro f hf heq
  exact (mem_keptDownstream.mp hf).2 (Or.inl (heq ▸ h))

def serverField : Field := ⟨"Server".toList, "ApiGate".toList⟩

theorem lowercase_serverField : lowercase serverField.name = "server".toList := by decide

theorem makeDownstreamHeader_fields (lib : Library) (request : HttpRequest) {up : HttpResponse}
    (hgrouped : up.fields.Grouped) :
    (makeDownstreamHeader lib request up).fields
      = keptDownstream up.fields ++ [serverField]
        ++ connectionField request.version request.keepAlive := by
  have hcopy : copyFields (dropsDownstream (connectionTokens up.fields)) up.fields
      = keptDownstream up.fields :=
    copyFields_eq_filter hgrouped fun f g h => dropsDownstream_congr _ h
  have hserver : (keptDownstream up.fields).set "Server".toList "ApiGate".toList
      = keptDownstream up.fields ++ [serverField] := by
    refine Fields.set_of_absent ?_
    rw [show lowercase "Server".toList = "server".toList from lowercase_serverField]
    exact keptDownstream_absent (by decide)
  have hconnection : Fields.has (keptDownstream up.fields ++ [serverField]) "connection".toList
      = false := by
    rw [Fields.has_append, keptDownstream_absent (by decide), Fields.has_singleton,
      lowercase_serverField]
    decide
  unfold makeDownstreamHeader
  dsimp only
  rw [hcopy, hserver, setKeepAlive_absent hconnection]

/-- The names of framing occur nowhere in the head. -/
theorem makeDownstreamHeader_unframed (lib : Library) (request : HttpRequest) {up : HttpResponse}
    (hgrouped : up.fields.Grouped) {name : Text} (hname : name ∈ responseNames)
    (hserver : name ≠ "server".toList) (hconnection : name ≠ "connection".toList) :
    (makeDownstreamHeader lib request up).fields.has name = false := by
  rw [makeDownstreamHeader_fields lib request hgrouped, Fields.has_append, Fields.has_append,
    keptDownstream_absent hname, Fields.has_singleton, lowercase_serverField,
    decide_eq_false (Ne.symm hserver), has_connectionField hconnection]
  rfl

/-! ## The rewrite -/

/-- What the response downstream has of the one from upstream; `framing` is what stands
behind the fields of every response. -/
structure RewritesResponse (request : HttpRequest) (up : HttpResponse) (framing : Fields)
    (response : HttpResponse) : Prop where
  version : response.version = request.version
  keepAlive : response.keepAlive = request.keepAlive
  /-- the fields that are passed back, in their order, and the new ones -/
  fields : ∃ keep : Field → Bool,
    (∀ f, keep f = true ↔ ¬DroppedDownstream up.fields f.name)
      ∧ response.fields = up.fields.filter keep ++ [serverField]
        ++ connectionField request.version request.keepAlive ++ framing
  server : response.fields.equalRange "server".toList = [serverField]
  connection : response.fields.equalRange "connection".toList
    = connectionField request.version request.keepAlive
  length : response.fields.equalRange "content-length".toList = framing
  coding : response.fields.equalRange "transfer-encoding".toList = []

/-- Behind the fields of the head stands a Content-Length, or nothing. -/
theorem rewritesResponse_of_fields {request : HttpRequest} {up response : HttpResponse}
    {framing : Fields} (hversion : response.version = request.version)
    (hframing : ∀ name, framing.equalRange name
      = if name = "content-length".toList then framing else [])
    (hfields : response.fields = keptDownstream up.fields ++ [serverField]
      ++ connectionField request.version request.keepAlive ++ framing) :
    RewritesResponse request up framing response := by
  have hrange : ∀ name ∈ responseNames, response.fields.equalRange name
      = (if name = "server".toList then [serverField] else [])
        ++ (if name = "connection".toList then connectionField request.version request.keepAlive
          else [])
        ++ (if name = "content-length".toList then framing else []) := by
    intro name hname
    rw [hfields, equalRange_append, equalRange_append, equalRange_append,
      equalRange_absent (keptDownstream_absent hname), List.nil_append,
      equalRange_singleton lowercase_serverField, equalRange_connectionField, hframing]
  have hconnection : response.fields.equalRange "connection".toList
      = connectionField request.version request.keepAlive := by
    rw [hrange _ (by decide), if_neg (by decide), if_pos rfl, if_neg (by decide), List.append_nil]
    rfl
  refine ⟨hversion, ?_, ⟨_, fun f => ?_, hfields⟩, ?_, hconnection, ?_, ?_⟩
  · unfold HttpResponse.keepAlive
    rw [hversion]
    exact keepAlive_of_equalRange hconnection
  · rw [Bool.not_eq_true', ← Bool.not_eq_true, dropsDownstream_iff]
  · rw [hrange _ (by decide), if_pos rfl, if_neg (by decide), if_neg (by decide)]
    rfl
  · rw [hrange _ (by decide), if_neg (by decide), if_neg (by decide), if_pos rfl]
    rfl
  · rw [hrange _ (by decide), if_neg (by decide), if_neg (by decide), if_neg (by decide)]
    rfl

/-- Not 1xx, 204 or 304. -/
def MayCarryBody (status : Nat) : Prop := status / 100 ≠ 1 ∧ status ≠ 204 ∧ status ≠ 304

theorem bodyless_eq_false {lib : Library} {r : HttpResponse} :
    r.bodyless lib = false ↔ MayCarryBody (r.result lib) := by
  unfold HttpResponse.bodyless MayCarryBody
  rw [Bool.or_eq_false_iff, Bool.or_eq_false_iff, decide_eq_false_iff_not,
    decide_eq_false_iff_not, decide_eq_false_iff_not]
  constructor
  · rintro ⟨⟨hnoContent, hnotModified⟩, hinformational⟩
    exact ⟨hinformational, hnoContent, hnotModified⟩
  · rintro ⟨hinformational, hnoContent, hnotModified⟩
    exact ⟨⟨hnoContent, hnotModified⟩, hinformational⟩

/-- The head with the body of the upstream response and its length. -/
def framedResponse (lib : Library) (request : HttpRequest) (up : HttpResponse) : HttpResponse :=
  let head := makeDownstreamHeader lib request up
  { head with body := up.body, fields := head.fields.setContentLength up.body.length }

theorem makeDownstreamResponse_eq (lib : Library) (request : HttpRequest) (up : HttpResponse)
    (h : MayCarryBody ((makeDownstreamHeader lib request up).result lib) ∨ up.body = []) :
    makeDownstreamResponse lib request up = .ok (framedResponse lib request up) := by
  unfold makeDownstreamResponse HttpResponse.preparePayload
  refine if_neg ?_
  rw [Bool.and_eq_true]
  rintro ⟨hless, hne⟩
  rcases h with hbody | hnil
  · have hmay : (makeDownstreamHeader lib request up).bodyless lib = false :=
      bodyless_eq_false.mpr hbody
    exact Bool.false_ne_true (hmay.symm.trans hless)
  · change (!up.body.isEmpty) = true at hne
    rw [hnil] at hne
    cases hne

def contentLengthField (n : Nat) : Field := ⟨"Content-Length".toList, decimal n⟩

theorem equalRange_contentLengthField (n : Nat) (name : Text) :
    Fields.equalRange [contentLengthField n] name
      = if name = "content-length".toList then [contentLengthField n] else [] :=
  equalRange_singleton (show lowercase "Content-Length".toList = "content-length".toList by decide)
    name

/-- The head, whatever status and fields the upstream response has, and the response when its
status may carry a body. -/
theorem response_filtered (lib : Library) (request : HttpRequest) (up : HttpResponse)
    (hgrouped : up.fields.Grouped) :
    RewritesResponse request up [] (makeDownstreamHeader lib request up)
      ∧ (MayCarryBody ((makeDownstreamHeader lib request up).result lib) →
        ∃ response, makeDownstreamResponse lib request up = .ok response
          ∧ response.body = up.body
          ∧ RewritesResponse request up [contentLengthField up.body.length] response) := by
  have hfields := makeDownstreamHeader_fields lib request hgrouped
  have hframed : (framedResponse lib request up).fields
      = (makeDownstreamHeader lib request up).fields ++ [contentLengthField up.body.length] :=
    setContentLength_absent
      (makeDownstreamHeader_unframed lib request hgrouped (by decide) (by decide) (by decide))
      (makeDownstreamHeader_unframed lib request hgrouped (by decide) (by decide) (by decide)) _
  constructor
  · refine rewritesResponse_of_fields rfl (fun name => (ite_self []).symm) ?_
    rw [hfields, List.append_nil]
  · intro hbody
    refine ⟨_, makeDownstreamResponse_eq lib request up (Or.inl hbody), rfl, ?_⟩
    refine rewritesResponse_of_fields rfl (equalRange_contentLengthField _) ?_
    rw [hframed, hfields]

/-- The upstream nominates a field in other letters and closes its connection. -/
def noisyResponse : HttpResponse where
  status := 201
  reason := "Created".toList
  fields := Fields.stored
    [⟨"Server".toList, "private".toList⟩,
     ⟨"Set-Cookie".toList, "a".toList⟩,
     ⟨"CONNECTION".toList, "X-Remove, close".toList⟩,
     ⟨"x-remove".toList, "hop".toList⟩,
     ⟨"Set-Cookie".toList, "b".toList⟩,
     ⟨"Content-Length".toList, "99".toList⟩]
  body := "body".toList

/-- A table in which every code is registered. -/
def everyStatus : Library where
  intToStatus := id
  sha256 := id

theorem response_filtered_noisy :
    (framedResponse everyStatus queryRequest noisyResponse).fields
        = [⟨"Set-Cookie".toList, "a".toList⟩, ⟨"Set-Cookie".toList, "b".toList⟩, serverField,
           contentLengthField 4]
      ∧ RewritesResponse queryRequest noisyResponse []
        (makeDownstreamHeader everyStatus queryRequest noisyResponse)
      ∧ ∃ response, makeDownstreamResponse everyStatus queryRequest noisyResponse = .ok response
        ∧ response.body = noisyResponse.body
        ∧ RewritesResponse queryRequest noisyResponse [contentLengthField 4] response :=
  have hgrouped : noisyResponse.fields.Grouped := Fields.stored_grouped _
  ⟨by decide +kernel,
    (response_filtered everyStatus queryRequest noisyResponse hgrouped).1,
    (response_filtered everyStatus queryRequest noisyResponse hgrouped).2
      ⟨by decide, by decide, by decide⟩⟩

end ApiGate
