import ApiGate.GatewayMoves
import ApiGate.GatewaySafety

/-!
# The bound on the requests of a connection

Every branch that answers a request looks at `requests_served_` before it hands
the response over, except the one that answers for an exchange that could not
be started. In a run where that does not happen to the last request of a
connection the bound holds; where it does, the connection goes on.
-/

namespace ApiGate

open EventLoop Act

/-! ## Notes of other kinds -/

theorem Session.counted_not_dispatch (counters : List Counter) :
    (Session.counted counters).count .dispatch = 0 := by
  rw [List.count_eq_zero]
  intro hmem
  simp [Session.counted] at hmem

namespace Outline

variable {g : Setup} {lossy : Prop} {f f' : Outline}

theorem finish_dispatches (status : Nat) (now : TimePoint) (f : Outline) :
    (f.finish status now).log.count .dispatch = f.log.count .dispatch := by
  unfold finish
  rw [List.count_append, Session.counted_not_dispatch, Nat.zero_add]

theorem call_dispatches (c : ObservationCall) (f : Outline) :
    (f.call c).log.count .dispatch = f.log.count .dispatch := by
  unfold call
  rw [List.count_append, Session.counted_not_dispatch, Nat.zero_add]

/-! ## The bound -/

/-- Each head after the last dispatch that is allowed closes the connection. -/
def HeadsClose (log : List Note) : Prop :=
  ∀ later response earlier, log = later ++ .head response :: earlier →
    earlier.count .dispatch = maxRequestsPerConnection → response.keepAlive = false

/-- `served` counts the requests that were dispatched. -/
structure Bounded (f : Outline) : Prop where
  served : f.log.count .dispatch = f.served
  bound : f.served ≤ maxRequestsPerConnection
  heads : HeadsClose f.log

theorem HeadsClose.cons {log : List Note} (h : HeadsClose log) {note : Note}
    (hnote : ∀ response, note = .head response →
      log.count .dispatch = maxRequestsPerConnection → response.keepAlive = false) :
    HeadsClose (note :: log) := by
  intro later response earlier hsplit hcount
  cases later with
  | nil =>
      obtain ⟨rfl, rfl⟩ := List.cons.inj hsplit
      exact hnote response rfl hcount
  | cons first later =>
      obtain ⟨-, rfl⟩ := List.cons.inj hsplit
      exact h later response earlier rfl hcount

/-- Nothing but heads matters. -/
theorem HeadsClose.counted {log : List Note} (h : HeadsClose log) (counters : List Counter) :
    HeadsClose (Session.counted counters ++ log) := by
  have hall : ∀ notes : List Note, (∀ note ∈ notes, ∀ response, note ≠ .head response) →
      HeadsClose (notes ++ log) := by
    intro notes hnotes
    induction notes with
    | nil => exact h
    | cons note notes ih =>
        refine (ih fun n hn => hnotes n (List.mem_cons_of_mem _ hn)).cons ?_
        intro response heq
        exact absurd heq (hnotes note (List.mem_cons_self ..) response)
  refine hall _ fun note hnote response heq => ?_
  simp [Session.counted, heq] at hnote

theorem Bounded.finish (h : Bounded f) (status : Nat) (now : TimePoint) :
    Bounded (f.finish status now) :=
  ⟨(finish_dispatches status now f).trans h.served, h.bound, h.heads.counted _⟩

theorem Bounded.call (h : Bounded f) (c : ObservationCall) : Bounded (f.call c) :=
  ⟨(call_dispatches c f).trans h.served, h.bound, h.heads.counted _⟩

/-- A note that is neither a dispatch nor a head. -/
theorem Bounded.note (h : Bounded f) {note : Note} (hd : note ≠ .dispatch)
    (hh : ∀ response, note ≠ .head response) (hlog : f'.log = note :: f.log)
    (hserved : f'.served = f.served) : Bounded f' where
  served := by
    rw [hlog, List.count_cons_of_ne hd, hserved]
    exact h.served
  bound := by
    rw [hserved]
    exact h.bound
  heads := by
    rw [hlog]
    exact h.heads.cons fun response heq => absurd heq (hh response)

/-- A polite head. -/
theorem Bounded.head (h : Bounded f) {response : HttpResponse}
    (hcap : f.served < maxRequestsPerConnection ∨ response.keepAlive = false)
    (hlog : f'.log = .head response :: f.log) (hserved : f'.served = f.served) :
    Bounded f' where
  served := by
    rw [hlog, List.count_cons_of_ne (by simp), hserved]
    exact h.served
  bound := by
    rw [hserved]
    exact h.bound
  heads := by
    rw [hlog]
    refine h.heads.cons fun r heq hcount => ?_
    cases heq
    rw [h.served] at hcount
    rcases hcap with hlt | hclose
    · omega
    · exact hclose

theorem Polite.cap_strict {response : HttpResponse} (h : Polite False f response) :
    f.served < maxRequestsPerConnection ∨ response.keepAlive = false :=
  h.cap.resolve_left id

theorem Bounded.move (h : Bounded f) (hmove : Move g False lossy f f') : Bounded f' := by
  cases hmove with
  | reset | readHeader | header => exact h.note (by simp) (by simp) rfl rfl
  | dispatch now hp hreading =>
      refine ⟨?_, ?_, h.heads.cons fun response heq => by cases heq⟩
      · rw [List.count_cons_self, h.served]
      · exact hreading.spare.resolve_left id
  | reject hp reason => exact h.call _
  | fail hp _ _ stage => exact h.call _
  | failStream _ _ _ _ _ _ stage =>
      have hnoted : Bounded { f with busy := false, log := .streamFailed stage :: f.log } :=
        h.note (show Note.streamFailed stage ≠ .dispatch by simp) (by simp) rfl rfl
      exact hnoted.call _
  | answer now hp hidle hpolite =>
      exact (h.finish _ now).head hpolite.cap_strict rfl rfl
  | stream now close hp hpolite hcap =>
      exact (h.finish _ now).head hpolite.cap_strict rfl rfl
  | lose _ status now hp =>
      exact ⟨(h.finish status now).served, h.bound, (h.finish status now).heads⟩
  | _ => exact ⟨h.served, h.bound, h.heads⟩

end Outline

namespace Gateway

/-- In every run in which the last request of a connection, when it would keep the
connection and is proxied, gets its exchange started: `process_request` is executed at
most 100 times for a connection, and every head for the hundredth request closes it. -/
theorem requests_bounded (g : Setup) (rateLimits : RouteRateLimits) (inputs : List Input)
    (hstarts : ∀ before input rest, inputs = before ++ input :: rest →
      LastStarts g (after g rateLimits before) input) (i : Nat) :
    let log := ((after g rateLimits inputs).session i).log
    log.count .dispatch ≤ maxRequestsPerConnection ∧ Outline.HeadsClose log := by
  have hheeds : RunHeeds g False (fun _ => True) (launch g rateLimits) inputs :=
    fun before input rest hsplit =>
      ⟨Or.inr (hstarts before input rest hsplit), fun _ _ _ => Or.inl trivial⟩
  have hbounded : ∀ i, Outline.Bounded ((after g rateLimits inputs).outline i) := by
    refine after_turns (P := fun gw => ∀ i, Outline.Bounded (gw.outline i)) hheeds
      (fun i => ⟨rfl, Nat.zero_le _, ?_⟩) ?_
    · intro later response earlier hsplit
      cases later <;> cases hsplit
    · intro input gw gw' i _ htame hturn h j
      by_cases hji : j = i
      · rw [hji]
        exact hturn.moves.keeps (fun hmove _ hf => hf.move hmove) ((htame i).tick _)
          ⟨(h i).served, (h i).bound, (h i).heads⟩
      · rw [hturn.others j hji]
        exact ⟨(h j).served, (h j).bound, (h j).heads⟩
  intro log
  exact ⟨(hbounded i).served ▸ (hbounded i).bound, (hbounded i).heads⟩

/-- A GET for `target` arrives at session 0. -/
def arrives (target : String) : Input :=
  { event := .session 0 (.completion
      { op := .readHeader
        parser := { request := { method := .get, target := target.toList }, isDone := true } }) }

/-- The response after which the connection stays was written. -/
def written : Input := { event := .session 0 (.completion { op := .write false }) }

/-- A connection and `n` requests that the gateway answers itself. -/
def visited : Nat → List Input
  | 0 => [accepted 0]
  | n + 1 => visited n ++ [arrives "/healthz", written]

theorem oneProxy_route {request : HttpRequest} {route : SelectedRoute}
    (h : selectHttpRoute oneProxy.config request = some route) :
    route = { upstreams := [{ host := "backend".toList, port := 8080 }] } := by
  unfold selectHttpRoute at h
  split at h
  · cases h
  · split at h
    · cases h
    · split at h
      · cases h
      · exact (Option.some.inj h).symm

/-- One upstream without TLS or a limit cannot fail to be admitted. -/
theorem oneProxy_lastStarts (gw : Gateway) {input : Input}
    (h : ∀ n site, input.oracle n site = false) : LastStarts oneProxy gw input := by
  intro i x route _ _ hroute _ _ _
  rw [oneProxy_route hroute]
  refine ⟨fun n site _ => h n site, fun e => ?_, fun r u hok hu hscheme => ?_⟩
  · unfold RouteProxyAdmission.tryAcquire RouteProxyAdmission.checkRate
    dsimp only
    split
    · simp
    · split
      · simp
      · simp [RouteProxyAdmission.choose]
  · obtain ⟨v, hv, rfl⟩ := RouteProxyAdmission.tryAcquire_upstream hok hu
    rw [List.mem_singleton.mp hv] at hscheme
    cases hscheme

theorem visited_quiet (n : Nat) : ∀ input ∈ visited n, ∀ m site, input.oracle m site = false := by
  induction n with
  | zero => simp [visited, accepted]
  | succ n ih =>
      intro input hmem
      rcases List.mem_append.mp hmem with hmem | hmem
      · exact ih input hmem
      · simp only [List.mem_cons, List.not_mem_nil, or_false] at hmem
        rcases hmem with rfl | rfl <;> exact fun _ _ => rfl

/-- The hundredth request is proxied. -/
theorem requests_bounded_hundred :
    let log := ((after oneProxy [] (visited 99 ++ [arrives "/"])).session 0).log
    log.count .dispatch ≤ maxRequestsPerConnection ∧ Outline.HeadsClose log := by
  refine requests_bounded oneProxy [] (visited 99 ++ [arrives "/"]) ?_ 0
  intro before input rest hsplit
  refine oneProxy_lastStarts _ ?_
  have hmem : input ∈ visited 99 ++ [arrives "/"] := by simp [hsplit]
  rcases List.mem_append.mp hmem with hmem | hmem
  · exact visited_quiet 99 input hmem
  · rw [List.mem_singleton.mp hmem]
    exact fun _ _ => rfl

/-- The exchange for the hundredth request cannot be made: the 502 for it keeps the
connection, and a request more is dispatched. -/
theorem hundred_and_first_dispatched :
    ¬ ∀ (g : Setup) (rateLimits : RouteRateLimits) (inputs : List Input) (i : Nat),
      let log := ((after g rateLimits inputs).session i).log
      log.count .dispatch ≤ maxRequestsPerConnection ∧ Outline.HeadsClose log := by
  intro h
  have hcount : ((after oneProxy [] (visited 99
      ++ [{ arrives "/" with oracle := fun _ site => site = .exchangeMake }, written,
          arrives "/healthz"])).session 0).log.count .dispatch = 101 := by decide +kernel
  have hbound := (h oneProxy [] (visited 99
    ++ [{ arrives "/" with oracle := fun _ site => site = .exchangeMake }, written,
        arrives "/healthz"]) 0).1
  rw [hcount] at hbound
  exact absurd hbound (by decide)

end Gateway

end ApiGate
