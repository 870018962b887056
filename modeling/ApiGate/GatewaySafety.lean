import ApiGate.Gateway

/-!
# What every run of the gateway keeps

The results about sessions, read off the invariant of `Gateway`: the permits
are accounted for, each request gets at most one response head and the
heads come in order, no session is left without a way on, what a client is
told of the upstream's status, and that a request which fails the API-key gate
of its route reaches nothing.
-/

namespace ApiGate

open EventLoop Act Exchange

/-! ## Traces -/

def Mark.isHead : Mark → Bool
  | .head .. => true
  | .readRequest | .lastWrite .. => false

theorem Orderly.suffix {lib : Library} {later earlier : List Mark}
    (h : Orderly lib (later ++ earlier)) : Orderly lib earlier := by
  induction later with
  | nil => exact h
  | cons m later ih => exact ih h.1

/-- Between two requests there is at most one head. -/
theorem Orderly.countP_head {lib : Library} {part earlier : List Mark}
    (h : Orderly lib (part ++ earlier)) (hno : .readRequest ∉ part) :
    part.countP Mark.isHead ≤ 1 := by
  induction part with
  | nil => exact Nat.zero_le 1
  | cons m part ih =>
      obtain ⟨horderly, hfollows, -⟩ := h
      rw [List.mem_cons, not_or] at hno
      have hrest := ih horderly hno.2
      cases m with
      | readRequest => exact absurd rfl hno.1
      | lastWrite error closeAfterWrite draining =>
          rwa [List.countP_cons_of_neg (by simp [Mark.isHead])]
      | head up response recorded =>
          -- a head comes right after the request it answers
          obtain ⟨rest, hrest⟩ := hfollows
          clear ih
          cases part with
          | nil => exact Nat.le_refl 1
          | cons m' part =>
              have hm : m' = .readRequest := (List.cons.inj hrest).1
              exact absurd (by simp [hm]) hno.2

/-- A request that is not the first one of its connection comes right after the
last write of the previous response. -/
theorem Orderly.before_request {lib : Library} {earlier : List Mark}
    (h : Orderly lib (.readRequest :: earlier)) (hne : earlier ≠ []) :
    ∃ up response recorded rest, earlier
      = .lastWrite none false false :: .head up response recorded :: .readRequest :: rest := by
  obtain ⟨horderly, hfollows, -⟩ := h
  obtain ⟨rest, rfl⟩ := hfollows.resolve_left hne
  obtain ⟨horderly', ⟨up, response, recorded, rest', rfl⟩, -⟩ := horderly
  obtain ⟨-, ⟨rest'', rfl⟩, -⟩ := horderly'
  exact ⟨up, response, recorded, rest'', rfl⟩

namespace Session

variable {c : Context} {F : Site → Prop} {w : World Session}

theorem Steady.orderly (h : Steady c F w) : Orderly c.setup.lib w.env.trace := by
  rcases h with hidle | hrest
  · rw [hidle.env]
    trivial
  · exact hrest.orderly

theorem Steady.permit (h : Steady c F w) : w.env.proxyPermit = w.env.proxyExchange.isSome := by
  rcases h with hidle | hrest
  · rw [hidle.env]
    rfl
  · exact hrest.permit

theorem Steady.finished_permit (h : Steady c F w)
    (hf : w.env.started = true → w.env.finished = true) : w.env.proxyPermit = false := by
  rcases h with hidle | hrest
  · rw [hidle.env]
  · exact (hrest.unowned (hf hrest.started)).2

theorem Steady.admitted (h : Steady c F w) {j : Nat} (hj : j < w.nextExchange) :
    Admitted c.setup (w.exs j) := by
  rcases h with hidle | hrest
  · rw [hidle.next] at hj
    exact absurd hj (Nat.not_lt_zero j)
  · exact hrest.admitted j hj

theorem Steady.touch (h : Steady c F w) : c.touched ∨ (w.shared.admission = c.admission
    ∧ w.shared.pool = c.pool ∧ w.nextExchange = c.exchanges) := by
  rcases h with hidle | hrest
  · exact hidle.touch
  · exact hrest.touch

/-- The session is finished, or something under way will call it back, or it owns
an exchange that is not over. -/
def Progress (w : World Session) : Prop :=
  (w.env.finished = true ∧ w.env.closes = 1) ∨ w.env.ops ≠ []
    ∨ ∃ k, w.env.proxyExchange = some k ∧ (w.exs k).completed = false

theorem Rest.progress (h : Rest c F w) (hF : F .rejectionWrite) : Progress w := by
  cases h.mode with
  | gone hf =>
      refine Or.inl ⟨hf, ?_⟩
      rw [h.closes, hf]
      rfl
  | proxying k _ hx _ _ _ hl => exact Or.inr (Or.inr ⟨k, hx, hl.completed⟩)
  | streaming k _ hx _ _ hl => exact Or.inr (Or.inr ⟨k, hx, hl.completed⟩)
  | stuck hlost => exact absurd hF hlost
  | handshaking _ _ _ hops | reading _ _ _ _ hops | writing _ _ _ _ hops | closing _ _ _ hops =>
      refine Or.inr (Or.inl ?_)
      rw [hops]
      exact List.cons_ne_nil _ _

end Session

namespace Gateway

variable (g : Setup) (rateLimits : RouteRateLimits) (inputs : List Input)

/-! ## Permits -/

/-- In every run the active proxies are the sessions that own a permit, which are
those that own an exchange; they are never more than allowed, and none once every
accepted session is finished. -/
theorem permit_accounting (g : Setup) (rateLimits : RouteRateLimits) (inputs : List Input) :
    let gw := after g rateLimits inputs
    (∃ owners : Finset Nat, (∀ i, i ∈ owners ↔ (gw.session i).proxyPermit = true)
        ∧ gw.shared.admission.proxies.activeProxies = owners.card)
      ∧ (∀ i, (gw.session i).proxyPermit = true ↔ (gw.session i).proxyExchange.isSome = true)
      ∧ gw.shared.admission.proxies.activeProxies ≤ g.config.maxConcurrentProxies
      ∧ ((∀ i, (gw.session i).started = true → (gw.session i).finished = true) →
          gw.shared.admission.proxies.activeProxies = 0) := by
  intro gw
  obtain ⟨live, h⟩ := after_safe_all g rateLimits inputs
  have howners : ∀ i, i ∈ live.filter (fun i => (gw.session i).proxyPermit = true)
      ↔ (gw.session i).proxyPermit = true := by
    intro i
    rw [Finset.mem_filter]
    refine ⟨And.right, fun hp => ⟨?_, hp⟩⟩
    by_contra hi
    have hno := h.outside i hi
    rw [show (after g rateLimits inputs).session i = gw.session i from rfl, hp] at hno
    cases hno
  have hcard : gw.shared.admission.proxies.activeProxies
      = (live.filter (fun i => (gw.session i).proxyPermit = true)).card := by
    rw [Finset.card_filter, h.ledger]
    refine Finset.sum_congr rfl fun i _ => ?_
    show ((gw.session i).proxyPermit).toNat = _
    cases (gw.session i).proxyPermit <;> rfl
  refine ⟨⟨_, howners, hcard⟩, fun i => ?_, ?_, fun hfinished => ?_⟩
  · rw [show (gw.session i).proxyPermit = (gw.session i).proxyExchange.isSome from
      (h.steady i).permit]
  · exact h.capacity ▸ h.room
  · rw [hcard, Finset.card_eq_zero, Finset.eq_empty_iff_forall_notMem]
    intro i hi
    have hp := (howners i).mp hi
    rw [show (gw.session i).proxyPermit = false from
      (h.steady i).finished_permit (hfinished i)] at hp
    cases hp

/-! ## Heads -/

/-- On every connection, in every run: between two executions of `read_request` at
most one response head is handed to the transport, and a `read_request` after the
first comes right after the last write of the one response before it, which went
well and asked neither to close nor to drain. -/
theorem one_head_per_request (i : Nat) :
    (∀ later part earlier,
        ((after g rateLimits inputs).session i).trace = later ++ (part ++ earlier) →
        .readRequest ∉ part → part.countP Mark.isHead ≤ 1)
      ∧ ∀ later earlier,
        ((after g rateLimits inputs).session i).trace = later ++ .readRequest :: earlier →
        earlier ≠ [] → ∃ up response recorded rest, earlier
          = .lastWrite none false false :: .head up response recorded :: .readRequest :: rest := by
  obtain ⟨live, h⟩ := after_safe_all g rateLimits inputs
  have horderly := (h.steady i).orderly
  refine ⟨fun later part earlier hsplit hno => ?_, fun later earlier hsplit hne => ?_⟩
  · have hall : Orderly g.lib (later ++ (part ++ earlier)) := hsplit ▸ horderly
    exact hall.suffix.countP_head hno
  · have hall : Orderly g.lib (later ++ .readRequest :: earlier) := hsplit ▸ horderly
    exact hall.suffix.before_request hne

/-! ## The status -/

/-- For every response that was made from an upstream one and handed to the client:
its status, its reason and the status that was recorded are the upstream's exactly
if Beast registers that status. -/
theorem status_kept_iff {i : Nat} {upstream response : HttpResponse} {recorded : Option Nat}
    (hhead : .head (some upstream) response recorded
      ∈ ((after g rateLimits inputs).session i).trace) :
    (response.status = upstream.status ∧ response.reason = upstream.reason
        ∧ recorded = some upstream.status)
      ↔ g.lib.intToStatus upstream.status = upstream.status := by
  obtain ⟨live, h⟩ := after_safe_all g rateLimits inputs
  have horderly : Orderly g.lib ((after g rateLimits inputs).session i).trace :=
    (h.steady i).orderly
  obtain ⟨later, earlier, hsplit⟩ := List.append_of_mem hhead
  rw [hsplit] at horderly
  obtain ⟨-, -, hrecorded, hfrom⟩ := horderly.suffix
  obtain ⟨hstatus, hreason⟩ := hfrom upstream rfl
  rw [hrecorded, hstatus]
  exact ⟨And.left, fun heq => ⟨heq, hreason, by rw [heq]⟩⟩

/-- The codes in Beast's table. -/
def registeredStatuses : List Nat :=
  [100, 101, 102, 103, 200, 201, 202, 203, 204, 205, 206, 207, 208, 226, 300, 301, 302, 303, 304,
   305, 307, 308, 400, 401, 402, 403, 404, 405, 406, 407, 408, 409, 410, 411, 412, 413, 414, 415,
   416, 417, 421, 422, 423, 424, 425, 426, 428, 429, 431, 444, 451, 499, 500, 501, 502, 503, 504,
   505, 506, 507, 508, 510, 511, 599]

/-- One upstream without TLS, and one exchange at a time. -/
def oneProxy : Setup :=
  { config :=
      { upstream := some { host := "backend".toList, port := 8080 }
        maxConcurrentProxies := 1 }
    lib :=
      { intToStatus := fun n => if n ∈ registeredStatuses then n else 0
        sha256 := id }
    render := fun _ => [] }

def accepted (i : Nat) : Input := { event := .session i .start }

/-- A GET without a body arrives. -/
def requested (i : Nat) : Input :=
  { event := .session i (.completion
      { op := .readHeader
        parser := { request := { method := .get, target := "/".toList }, isDone := true } }) }

def progressed (op : ExchangeOp) (report : Exchange.Report) : Input :=
  { event := .session 0 (.exchange 0 { op, report }) }

/-- Session 0 gets the answer `response`, which has no body. -/
def answered (response : HttpResponse) : List Input :=
  [accepted 0, requested 0, progressed .resolve .nothing, progressed .connect .nothing,
   progressed .write .nothing,
   progressed .readHeader (.header { response, contentLength := some 0, isDone := true })]

theorem status_kept_ok : ∃ response,
    .head (some { status := 200, reason := "OK".toList }) response (some 200)
        ∈ ((after oneProxy [] (answered { status := 200, reason := "OK".toList })).session 0).trace
      ∧ response.status = 200 ∧ response.reason = "OK".toList := by
  have hhead : .head (some { status := 200, reason := "OK".toList })
      { status := 200, reason := "OK".toList,
        fields := [⟨"Server".toList, "ApiGate".toList⟩, ⟨"Content-Length".toList, "0".toList⟩] }
      (some 200)
      ∈ ((after oneProxy [] (answered { status := 200, reason := "OK".toList })).session 0).trace := by
    decide
  obtain ⟨hstatus, hreason, -⟩ := (status_kept_iff oneProxy [] _ hhead).mpr (by decide)
  exact ⟨_, hhead, hstatus, hreason⟩

/-- A 299 reaches the client, and the metrics, as status 0. -/
theorem unregistered_status_lost :
    ¬ ∀ (g : Setup) (rateLimits : RouteRateLimits) (inputs : List Input) (i : Nat)
      (upstream response : HttpResponse) (recorded : Option Nat),
      200 ≤ upstream.status →
      .head (some upstream) response recorded ∈ ((after g rateLimits inputs).session i).trace →
      response.status = upstream.status ∧ response.reason = upstream.reason
        ∧ recorded = some upstream.status := by
  intro h
  have hhead := h oneProxy []
    (answered { status := 299, reason := "Miscellaneous Persistent Warning".toList }) 0
    { status := 299, reason := "Miscellaneous Persistent Warning".toList }
    { status := 0, reason := "Miscellaneous Persistent Warning".toList,
      fields := [⟨"Server".toList, "ApiGate".toList⟩, ⟨"Content-Length".toList, "0".toList⟩] }
    (some 0) (by decide) (by decide)
  exact absurd hhead.1 (by decide)

/-! ## Progress -/

/-- In every run in which `write_response` does not throw for the answer to a
request that `start_proxy_request` rejects, no session is ever stuck. -/
theorem no_stuck_session
    (hinputs : ∀ input ∈ inputs, ∀ n, input.oracle n .rejectionWrite = false) {i : Nat}
    (hstarted : ((after g rateLimits inputs).session i).started = true) :
    Session.Progress ((after g rateLimits inputs).view i) := by
  have hadmissible : ∀ input ∈ inputs, Admissible (· = Site.rejectionWrite) input.oracle := by
    rintro input hinput n site rfl
    exact hinputs input hinput n
  obtain ⟨live, h⟩ := after_safe g _ rateLimits inputs hadmissible
  rcases h.steady i with hidle | hrest
  · have henv : (after g rateLimits inputs).session i = {} := hidle.env
    rw [henv] at hstarted
    cases hstarted
  · exact hrest.progress rfl

/-- A request arrives whose exchange cannot be constructed. -/
def unmade : List Input :=
  [accepted 0, { requested 0 with oracle := fun _ site => site = .exchangeMake }]

theorem no_stuck_session_unmade :
    ((after oneProxy [] unmade).session 0).ops = [.write false]
      ∧ Session.Progress ((after oneProxy [] unmade).view 0) :=
  ⟨by decide,
    no_stuck_session oneProxy [] unmade (by simp [unmade, accepted, requested]) (by decide)⟩

/-- Two sessions and one permit: when the 503 for the second one cannot be written,
the `catch` of `start_proxy_request` writes nothing either, and the session stays
open with nothing under way. -/
theorem rejected_session_stuck :
    ¬ ∀ (g : Setup) (rateLimits : RouteRateLimits) (inputs : List Input) (i : Nat),
      ((after g rateLimits inputs).session i).started = true →
      Session.Progress ((after g rateLimits inputs).view i) := by
  intro h
  have hprogress := h oneProxy []
    [accepted 0, accepted 1, requested 0,
     { requested 1 with oracle := fun _ site => site = .rejectionWrite }] 1 (by decide)
  rcases hprogress with ⟨hfinished, -⟩ | hops | ⟨k, hk, -⟩
  · exact absurd hfinished (by decide)
  · exact hops (by decide)
  · have hnone : ((after oneProxy [] [accepted 0, accepted 1, requested 0,
        { requested 1 with oracle := fun _ site => site = .rejectionWrite }]).view 1).env.proxyExchange
        = none := by decide
    rw [hnone] at hk
    cases hk

/-! ## The API-key gate -/

end Gateway

/-- A session that owns a permit does not wait for a request. -/
theorem Session.Steady.no_read {c : Session.Context} {F : Site → Prop} {w : World Session}
    (h : Session.Steady c F w) (hp : w.env.proxyPermit = true) {op : SessionOp}
    (hread : op = .readHeader ∨ op = .readBody) : op ∉ w.env.ops := by
  intro hmem
  have hsome := h.permit ▸ hp
  rcases h with hidle | hrest
  · rw [hidle.env] at hp
    cases hp
  · cases hrest.mode with
    | gone hf =>
        rw [(hrest.unowned hf).2] at hp
        cases hp
    | proxying k _ _ _ hops =>
        rw [hops] at hmem
        cases hmem
    | streaming k _ _ _ _ _ _ hw =>
        rcases hw with ⟨hops, -⟩ | ⟨final, hops | hops, -⟩
        · rw [hops] at hmem
          cases hmem
        all_goals
          rw [hops, List.mem_singleton] at hmem
          rcases hread with rfl | rfl <;> cases hmem
    | handshaking _ hn | reading _ _ hn | writing _ _ hn | closing _ hn | stuck _ _ hn =>
        rw [hn] at hsome
        cases hsome

namespace Gateway

/-- What the gate protects is as it was: the buckets, the round-robin positions, the
permit count and the health of the admission state, the pool, and the number of
exchanges of session `i`. -/
def Untouched (gw gw' : Gateway) (i : Nat) : Prop :=
  gw'.shared.admission = gw.shared.admission ∧ gw'.shared.pool = gw.shared.pool
    ∧ (gw'.locals i).nextExchange = (gw.locals i).nextExchange

variable {g : Setup} {F : Site → Prop} {live : Finset Nat} {gw : Gateway}

theorem untouched_or_touches (h : Inv g F live gw) (i : Nat) (event : Session.Event)
    (now : TimePoint) {o : Oracle Site} (ho : Admissible F o) :
    Session.Touches g (gw.view i) event
      ∨ Untouched gw (step g ⟨.session i event, now, o⟩ gw) i := by
  obtain ⟨w, hstep, hw⟩ := step_session h i event now ho
  rcases hw.touch with ht | ⟨hadm, hpool, hnext⟩
  · exact Or.inl ht
  · refine Or.inr ?_
    rw [hstep]
    refine ⟨hadm, hpool, ?_⟩
    simp only [put, Function.update_self]
    exact hnext

/-- An operation that is not outstanding cannot complete. -/
theorem untouched_of_not_mem (gw : Gateway) (i : Nat) (x : Session.Completion)
    (hmem : x.op ∉ (gw.session i).ops) (now : TimePoint) (o : Oracle Site) :
    Untouched gw (step g ⟨.session i (.completion x), now, o⟩ gw) i := by
  have hignored : wp (fun _ => False) (Session.handle g (.completion x))
      (fun _ w => w = (gw.tick now).view i) (fun _ => False) ((gw.tick now).view i) := by
    unfold Session.handle
    simp only [wp_get_bind]
    rw [if_neg (by simp [show x.op ∉ ((gw.tick now).view i).env.ops from hmem])]
    exact wp_pure.mpr rfl
  refine exec_of_wp (P := fun gw' => Untouched gw gw' i) (admissible_none o) ?_
  refine wp_zoom (wp_mono hignored ?_ fun _ hf => hf.elim)
  rintro _ w rfl
  refine ⟨rfl, rfl, ?_⟩
  simp [put, view, tick]

/-- In every run: an exchange exists only for a request that itself selects its
route and, where the route has API keys, authenticates, and what is sent upstream
then carries no Authorization field; a request that fails authentication leaves
the admission state and the pool alone and starts nothing; and so does all that
a session without an exchange does until its next request was read. -/
theorem api_key_gate (g : Setup) (rateLimits : RouteRateLimits) (inputs : List Input) :
    let gw := after g rateLimits inputs
    (∀ i k, k < (gw.locals i).nextExchange → ∃ route,
        selectHttpRoute g.config ((gw.locals i).exs k).downstreamRequest = some route
          ∧ ∀ auth, route.auth = some auth →
            authenticateApiKey g.lib auth ((gw.locals i).exs k).downstreamRequest = true
              ∧ ((gw.locals i).exs k).upstreamRequest.fields.has "authorization".toList = false)
      ∧ (∀ i (x : Session.Completion) now o route auth,
          x.op = .readHeader ∨ x.op = .readBody →
          selectHttpRoute g.config x.parser.request = some route → route.auth = some auth →
          authenticateApiKey g.lib auth x.parser.request = false →
          Untouched gw (step g ⟨.session i (.completion x), now, o⟩ gw) i)
      ∧ ∀ i event now o, (gw.session i).proxyExchange = none →
          (∀ x, event = .completion x → x.op ≠ .readHeader ∧ x.op ≠ .readBody) →
          Untouched gw (step g ⟨.session i event, now, o⟩ gw) i := by
  intro gw
  obtain ⟨live, h⟩ := after_safe_all g rateLimits inputs
  refine ⟨fun i k hk => ?_, fun i x now o route auth hread hroute hauth hfails => ?_,
    fun i event now o hnone hevent => ?_⟩
  · obtain ⟨route, upstream, keepAlive, hselect, hok, hselected, hrequest⟩ :=
      (h.steady i).admitted hk
    refine ⟨route, hselect, fun auth hauth => ⟨?_, ?_⟩⟩
    · unfold Session.authorized at hok
      rw [hauth] at hok
      exact hok
    · have hstrip : ((gw.locals i).exs k).selected.stripAuthorization = true := by
        rw [show ((gw.locals i).exs k).selected = _ from hselected]
        simp [RouteProxyAdmission.selectedUpstream, hauth]
      rw [show ((gw.locals i).exs k).upstreamRequest = _ from hrequest]
      exact makeUpstreamRequest_unauthorized hstrip _ _
  · rcases untouched_or_touches h i (.completion x) now (admissible_none o) with htouch | hsame
    · rcases htouch with hp | ⟨x', hx, -, route', hroute', hok⟩
      · exact untouched_of_not_mem gw i x ((h.steady i).no_read hp hread) now o
      · cases hx
        rw [hroute] at hroute'
        cases hroute'
        simp [Session.authorized, hauth, hfails] at hok
    · exact hsame
  · rcases untouched_or_touches h i event now (admissible_none o) with htouch | hsame
    · rcases htouch with hp | ⟨x, hx, hread, -⟩
      · have hpermit : (gw.session i).proxyPermit = (gw.session i).proxyExchange.isSome :=
          (h.steady i).permit
        rw [hnone, show (gw.session i).proxyPermit = true from hp] at hpermit
        cases hpermit
      · obtain ⟨hheader, hbody⟩ := hevent x hx
        rcases hread with hread | hread
        · exact absurd hread hheader
        · exact absurd hread hbody
    · exact hsame

end Gateway

end ApiGate
