import ApiGate.GatewayMoves
import ApiGate.RateLimitExact

/-!
# The rate limits of the routes are independent

A bucket is touched by the admission checks of its own route only: in every run
it is the bucket it began as, after the checks that requests for its route got,
and their decisions are the decisions of that bucket alone (`Accounted`). What
remains is the reading of the clock at the start, which a bucket forgets when
it is first asked.
-/

namespace ApiGate

open EventLoop Act

/-! ## A fresh bucket -/

namespace TokenBucket

/-- A bucket that has just been filled. -/
def Fresh (b : TokenBucket) : Prop := b.units = b.capacity

theorem make_fresh {config : RateLimitConfig} {now : TimePoint} {b : TokenBucket}
    (h : make config now = .ok b) :
    b = ⟨config, config.burst.toUInt64 * unitsPerToken, config.burst.toUInt64 * unitsPerToken,
      now⟩ := by
  unfold make at h
  dsimp only at h
  split at h
  · cases h
  · cases h
    rfl

/-- Nothing is missing, so a refill only moves the clock. -/
theorem refill_fresh {b : TokenBucket} (hb : b.Fresh) {now : TimePoint} (h : b.lastRefill ≤ now) :
    b.refill now = { b with lastRefill := now } := by
  by_cases hearly : now ≤ b.lastRefill
  · rw [refill_early hearly, Int64.le_antisymm hearly h]
  · have hmissing : b.capacity - b.units = 0 := by
      rw [hb]
      exact UInt64.sub_self _
    have hunits : { b with lastRefill := now, units := b.capacity }
        = { b with lastRefill := now } := by rw [← hb]
    have hwait : ceilDivide 0 b.config.requestsPerSecond.toUInt64 = 0 := by
      simp [ceilDivide]
    by_cases hlong : now.toUInt64 - b.lastRefill.toUInt64 ≥ b.config.burst.toUInt64 * unitsPerToken
    · rw [refill_long hearly hlong, hunits]
    · rw [refill_full hearly hlong, hunits]
      rw [hmissing, hwait]
      exact UInt64.zero_le

theorem decisions_fresh {b : TokenBucket} (hb : b.Fresh) {start : TimePoint}
    {times : List TimePoint} (hfirst : ∀ now ∈ times, b.lastRefill ≤ now ∧ start ≤ now) :
    decisions b times = decisions { b with lastRefill := start } times := by
  cases times with
  | nil => rfl
  | cons now rest =>
      obtain ⟨hb', hstart⟩ := hfirst now (List.mem_cons_self ..)
      have hrefill : b.refill now = refill { b with lastRefill := start } now := by
        rw [refill_fresh hb hb', refill_fresh (b := { b with lastRefill := start }) hb hstart]
      simp only [decisions, tryAcquire, hrefill]

theorem after_concat (b : TokenBucket) (times : List TimePoint) (now : TimePoint) :
    b.after (times ++ [now]) = ((b.after times).tryAcquire now).2 := by
  unfold after
  rw [List.foldl_append]
  rfl

theorem decisions_concat (b : TokenBucket) (times : List TimePoint) (now : TimePoint) :
    b.decisions (times ++ [now]) = b.decisions times ++ [((b.after times).tryAcquire now).1] := by
  induction times generalizing b with
  | nil => rfl
  | cons first rest ih =>
      show _ :: (b.tryAcquire first).2.decisions (rest ++ [now]) = _
      rw [ih]
      rfl

end TokenBucket

/-! ## One route's slot -/

namespace RouteRateLimits

/-- What a slot is after checks at these times. -/
def slotAfter (slot : Option (Option TokenBucket)) (times : List TimePoint) :
    Option (Option TokenBucket) :=
  slot.map fun bucket => bucket.map fun b => b.after times

/-- And what they were told. A route without a slot gets an exception, one without
a limit is always allowed. -/
def slotDecisions (times : List TimePoint) :
    Option (Option TokenBucket) → List (Except Unit RateLimitDecision)
  | none => times.map fun _ => .error ()
  | some none => times.map fun _ => .ok {}
  | some (some b) => (b.decisions times).map .ok

theorem slotAfter_nil (slot : Option (Option TokenBucket)) : slotAfter slot [] = slot := by
  rcases slot with _ | _ | b <;> rfl

theorem slotDecisions_nil (slot : Option (Option TokenBucket)) : slotDecisions [] slot = [] := by
  rcases slot with _ | _ | b <;> rfl

theorem tryAcquire_self {limits : RouteRateLimits} {r : Nat} {slot : Option (Option TokenBucket)}
    {times : List TimePoint} (h : limits[r]? = slotAfter slot times) (now : TimePoint) :
    (limits.tryAcquire r now).2[r]? = slotAfter slot (times ++ [now])
      ∧ slotDecisions (times ++ [now]) slot
        = slotDecisions times slot ++ [(limits.tryAcquire r now).1] := by
  unfold tryAcquire
  rcases slot with _ | _ | b
  · rw [h]
    exact ⟨h, by simp [slotDecisions, slotAfter]⟩
  · rw [h]
    exact ⟨h, by simp [slotDecisions, slotAfter]⟩
  · have hr : r < limits.length := by
      have hsome : limits[r]? = some (some (b.after times)) := h
      exact (List.getElem?_eq_some_iff.mp hsome).1
    rw [h]
    constructor
    · simp [slotAfter, hr, TokenBucket.after_concat]
    · simp [slotDecisions, slotAfter, TokenBucket.decisions_concat]

theorem tryAcquire_other {limits : RouteRateLimits} {r j : Nat} (h : j ≠ r) (now : TimePoint) :
    (limits.tryAcquire r now).2[j]? = limits[j]? := by
  unfold tryAcquire
  split
  · rfl
  · rfl
  · exact List.getElem?_set_ne h.symm

theorem make_cons {start : TimePoint} {route : RouteConfig} {routes : List RouteConfig}
    {limits : RouteRateLimits} (h : make start (route :: routes) = .ok limits) :
    ∃ bucket others,
      (route.rateLimit = none ∧ bucket = none
        ∨ ∃ config b, route.rateLimit = some config ∧ TokenBucket.make config start = .ok b
          ∧ bucket = some b)
      ∧ make start routes = .ok others ∧ limits = bucket :: others := by
  unfold make at h
  cases hlimit : route.rateLimit with
  | none =>
      rw [hlimit] at h
      cases hothers : make start routes with
      | error e =>
          rw [hothers] at h
          cases h
      | ok others =>
          rw [hothers] at h
          cases h
          exact ⟨none, others, Or.inl ⟨rfl, rfl⟩, rfl, rfl⟩
  | some config =>
      rw [hlimit] at h
      dsimp only at h
      cases hmake : TokenBucket.make config start with
      | error e =>
          rw [hmake] at h
          cases h
      | ok b =>
          rw [hmake] at h
          cases hothers : make start routes with
          | error e =>
              rw [hothers] at h
              cases h
          | ok others =>
              rw [hothers] at h
              cases h
              exact ⟨some b, others, Or.inr ⟨config, b, rfl, hmake, rfl⟩, rfl, rfl⟩

/-- The clock at the start does not matter, as long as it has not gone back since. -/
theorem slotDecisions_make {start₁ start₂ : TimePoint} {routes : List RouteConfig}
    {limits₁ limits₂ : RouteRateLimits} (h₁ : make start₁ routes = .ok limits₁)
    (h₂ : make start₂ routes = .ok limits₂) (j : Nat) {times : List TimePoint}
    (hclock : ∀ now ∈ times, start₁ ≤ now ∧ start₂ ≤ now) :
    slotDecisions times limits₁[j]? = slotDecisions times limits₂[j]? := by
  induction routes generalizing limits₁ limits₂ j with
  | nil =>
      cases h₁
      cases h₂
      rfl
  | cons route routes ih =>
      obtain ⟨bucket₁, others₁, hb₁, ho₁, rfl⟩ := make_cons h₁
      obtain ⟨bucket₂, others₂, hb₂, ho₂, rfl⟩ := make_cons h₂
      cases j with
      | zero =>
          rcases hb₁ with ⟨hnone, rfl⟩ | ⟨config, b₁, hsome, hmake₁, rfl⟩
          · rcases hb₂ with ⟨-, rfl⟩ | ⟨config, b₂, hsome, -⟩
            · rfl
            · rw [hnone] at hsome
              cases hsome
          · rcases hb₂ with ⟨hnone, -⟩ | ⟨config', b₂, hsome', hmake₂, rfl⟩
            · rw [hnone] at hsome
              cases hsome
            · rw [hsome] at hsome'
              cases hsome'
              rw [TokenBucket.make_fresh hmake₁, TokenBucket.make_fresh hmake₂]
              exact congrArg (List.map Except.ok) (TokenBucket.decisions_fresh
                (b := ⟨config, _, _, start₁⟩) rfl hclock)
      | succ j => exact ih ho₁ ho₂ j

end RouteRateLimits

/-! ## Runs -/

/-- A request that authenticates and asks for the rate limit of route `j`. -/
def eligible (g : Setup) (j : Nat) (request : HttpRequest) : Bool :=
  (selectHttpRoute g.config request).any fun route =>
    route.routeIndex = some j && Session.authorized g route request

/-- The admission checks of such requests, in their order. -/
def routeChecks (g : Setup) (j : Nat) (checks : List RateCheck) : List RateCheck :=
  (checks.filter fun c => eligible g j c.request).reverse

/-- The buckets are what the checks of their routes have made of them, and these
checks were decided by their bucket alone. -/
structure Accounted (g : Setup) (initial : RouteRateLimits) (j : Nat) (f : Outline) : Prop where
  slot : f.limits[j]? = RouteRateLimits.slotAfter initial[j]?
    ((routeChecks g j f.checks).map RateCheck.now)
  decisions : (routeChecks g j f.checks).map RateCheck.decision
    = RouteRateLimits.slotDecisions ((routeChecks g j f.checks).map RateCheck.now) initial[j]?

section Accounts

variable {g : Setup} {initial : RouteRateLimits} {f f' : Outline} {j : Nat}

theorem Accounted.same (h : Accounted g initial j f) (hlimits : f'.limits = f.limits)
    (hchecks : f'.checks = f.checks) : Accounted g initial j f' := by
  refine ⟨?_, ?_⟩
  · rw [hlimits, hchecks]
    exact h.slot
  · rw [hchecks]
    exact h.decisions

theorem routeChecks_cons_of_eligible {c : RateCheck} (h : eligible g j c.request = true)
    (checks : List RateCheck) : routeChecks g j (c :: checks) = routeChecks g j checks ++ [c] := by
  simp [routeChecks, h]

theorem routeChecks_cons_of_not {c : RateCheck} (h : eligible g j c.request = false)
    (checks : List RateCheck) : routeChecks g j (c :: checks) = routeChecks g j checks := by
  simp [routeChecks, h]

theorem eligible_eq {request : HttpRequest} {route : SelectedRoute}
    (hselected : selectHttpRoute g.config request = some route)
    (hauthorized : Session.authorized g route request = true) :
    eligible g j request = decide (route.routeIndex = some j) := by
  simp [eligible, hselected, hauthorized]

/-- A check touches the bucket of the route that its request selects, and no other. -/
theorem Accounted.check (h : Accounted g initial j f) {request : HttpRequest}
    {route : SelectedRoute} (hselected : selectHttpRoute g.config request = some route)
    (hauthorized : Session.authorized g route request = true) :
    Accounted g initial j (f.check request route) := by
  have heligible := eligible_eq (j := j) hselected hauthorized
  by_cases hj : route.routeIndex = some j
  · obtain ⟨hslot, hdecisions⟩ := RouteRateLimits.tryAcquire_self h.slot f.now
    have hchecks : routeChecks g j (f.check request route).checks
        = routeChecks g j f.checks ++ [⟨request, route, f.now, (f.limits.tryAcquire j f.now).1⟩] := by
      unfold Outline.check
      rw [hj]
      exact routeChecks_cons_of_eligible (by rw [heligible]; exact decide_eq_true hj) _
    have hlimits : (f.check request route).limits = (f.limits.tryAcquire j f.now).2 := by
      unfold Outline.check
      rw [hj]
      rfl
    refine ⟨?_, ?_⟩
    · rw [hlimits, hchecks, List.map_append]
      exact hslot
    · rw [hchecks, List.map_append, List.map_append, h.decisions]
      exact hdecisions.symm
  · have hchecks : routeChecks g j (f.check request route).checks
        = routeChecks g j f.checks :=
      routeChecks_cons_of_not (by rw [heligible]; exact decide_eq_false hj) _
    have hlimits : (f.check request route).limits[j]? = f.limits[j]? := by
      show (f.limits.check route.routeIndex f.now).2[j]? = _
      cases hr : route.routeIndex with
      | none => rfl
      | some r =>
          refine RouteRateLimits.tryAcquire_other ?_ f.now
          rintro rfl
          exact hj hr
    refine ⟨?_, ?_⟩
    · rw [hlimits, hchecks]
      exact h.slot
    · rw [hchecks]
      exact h.decisions

theorem Accounted.move {lenient lossy : Prop} (h : Accounted g initial j f)
    (hmove : Outline.Move g lenient lossy f f') : Accounted g initial j f' := by
  cases hmove with
  | check hselected hauthorized => exact (h.check hselected hauthorized).same rfl rfl
  | _ => exact h.same rfl rfl

/-- Within a turn that is not before `start`, no check is. -/
def Timely (start : TimePoint) (f : Outline) : Prop :=
  start ≤ f.now ∧ ∀ c ∈ f.checks, start ≤ c.now

theorem Timely.move {lenient lossy : Prop} {start : TimePoint} (h : Timely start f)
    (hmove : Outline.Move g lenient lossy f f') : Timely start f' := by
  cases hmove with
  | check =>
      refine ⟨h.1, fun c hc => ?_⟩
      rcases List.mem_cons.mp hc with rfl | hc
      · exact h.1
      · exact h.2 c hc
  | _ => exact h

end Accounts

namespace Gateway

theorem after_accounted (g : Setup) (initial : RouteRateLimits) (inputs : List Input) (j : Nat) :
    Accounted g initial j ((after g initial inputs).outline 0) := by
  -- every session sees the same buckets and checks
  have hall : ∀ i, Accounted g initial j ((after g initial inputs).outline i) := by
    refine after_turns (P := fun gw => ∀ i, Accounted g initial j (gw.outline i))
      (fun _ _ _ _ => heeds_all g _ _) (fun i => ⟨?_, ?_⟩) ?_
    · exact (RouteRateLimits.slotAfter_nil _).symm
    · exact (RouteRateLimits.slotDecisions_nil _).symm
    · intro input gw gw' i _ htame hturn h _
      have hstart : Accounted g initial j ((gw.outline i).tick input.now) := (h i).same rfl rfl
      have hi : Accounted g initial j (gw'.outline i) :=
        hturn.moves.keeps (fun hmove _ hf => hf.move hmove) ((htame i).tick _) hstart
      exact hi.same rfl rfl
  exact hall 0

theorem after_timely (g : Setup) (initial : RouteRateLimits) {start : TimePoint}
    {inputs : List Input} (hclock : ∀ input ∈ inputs, start ≤ input.now) :
    ∀ c ∈ (after g initial inputs).shared.checks, start ≤ c.now := by
  refine after_turns (P := fun gw => ∀ c ∈ gw.shared.checks, start ≤ c.now)
    (fun _ _ _ _ => heeds_all g _ _) (fun c hc => by cases hc) ?_
  intro input gw gw' i hmem htame hturn h
  have hstart : Timely start ((gw.outline i).tick input.now) := ⟨hclock input hmem, h⟩
  have hi : Timely start (gw'.outline i) :=
    hturn.moves.keeps (fun hmove _ hf => hf.move hmove) ((htame i).tick _) hstart
  exact hi.2

/-- The admission checks that requests for route `j` got in this run. -/
def checksOf (g : Setup) (j : Nat) (gw : Gateway) : List RateCheck :=
  routeChecks g j gw.shared.checks

theorem mem_checksOf {g : Setup} {j : Nat} {gw : Gateway} {c : RateCheck}
    (h : c ∈ checksOf g j gw) : c ∈ gw.shared.checks :=
  (List.mem_filter.mp (List.mem_reverse.mp h)).1

/-- Two runs of one configuration, each with buckets made when it starts: if the
requests that authenticate and are selected to route `j` are checked at the same
times, they get the same decisions, whatever else happens in the runs. The clock is
a steady one, so no handler reads a time before the start. -/
theorem rate_limit_isolation (g : Setup) (j : Nat) {start₁ start₂ : TimePoint}
    {limits₁ limits₂ : RouteRateLimits} {inputs₁ inputs₂ : List Input}
    (hmake₁ : RouteRateLimits.make start₁ g.config.routes = .ok limits₁)
    (hmake₂ : RouteRateLimits.make start₂ g.config.routes = .ok limits₂)
    (hsteady₁ : ∀ input ∈ inputs₁, start₁ ≤ input.now)
    (hsteady₂ : ∀ input ∈ inputs₂, start₂ ≤ input.now)
    (htimes : (checksOf g j (after g limits₁ inputs₁)).map RateCheck.now
      = (checksOf g j (after g limits₂ inputs₂)).map RateCheck.now) :
    (checksOf g j (after g limits₁ inputs₁)).map RateCheck.decision
      = (checksOf g j (after g limits₂ inputs₂)).map RateCheck.decision := by
  have h₁ := (after_accounted g limits₁ inputs₁ j).decisions
  have h₂ := (after_accounted g limits₂ inputs₂ j).decisions
  have hclock : ∀ now ∈ (checksOf g j (after g limits₁ inputs₁)).map RateCheck.now,
      start₁ ≤ now ∧ start₂ ≤ now := by
    intro now hnow
    have hnow₂ := hnow
    rw [htimes] at hnow₂
    obtain ⟨c, hc, rfl⟩ := List.mem_map.mp hnow
    obtain ⟨c₂, hc₂, heq⟩ := List.mem_map.mp hnow₂
    refine ⟨after_timely g limits₁ hsteady₁ c (mem_checksOf hc), ?_⟩
    rw [← heq]
    exact after_timely g limits₂ hsteady₂ c₂ (mem_checksOf hc₂)
  calc (checksOf g j (after g limits₁ inputs₁)).map RateCheck.decision
      = RouteRateLimits.slotDecisions
          ((checksOf g j (after g limits₁ inputs₁)).map RateCheck.now) limits₁[j]? := h₁
    _ = RouteRateLimits.slotDecisions
          ((checksOf g j (after g limits₁ inputs₁)).map RateCheck.now) limits₂[j]? :=
        RouteRateLimits.slotDecisions_make hmake₁ hmake₂ j hclock
    _ = RouteRateLimits.slotDecisions
          ((checksOf g j (after g limits₂ inputs₂)).map RateCheck.now) limits₂[j]? := by
        rw [htimes]
    _ = (checksOf g j (after g limits₂ inputs₂)).map RateCheck.decision := h₂.symm

/-- Two routes; the first takes one request a second. -/
def twoRoutes : Setup :=
  { config :=
      { routes :=
          [{ routePrefix := "/a".toList
             upstreams := [{ host := "a".toList, port := 80 }]
             rateLimit := some { requestsPerSecond := 1, burst := 1 } },
           { routePrefix := "/b".toList
             upstreams := [{ host := "b".toList, port := 80 }]
             rateLimit := some { requestsPerSecond := 1, burst := 1 } }] }
    lib := { intToStatus := id, sha256 := id }
    render := fun _ => [] }

/-- A connection is made and a GET for `target` arrives on it. -/
def visit (i : Nat) (target : String) (now : TimePoint) : List Input :=
  [{ event := .session i .start, now },
   { event := .session i (.completion
       { op := .readHeader
         parser := { request := { method := .get, target := target.toList }, isDone := true } })
     now }]

/-- The second run started later and has traffic on the other route. -/
theorem rate_limit_isolation_two_visits :
    (checksOf twoRoutes 0 (after twoRoutes
        [some ⟨⟨1, 1⟩, 1000000000, 1000000000, 0⟩, some ⟨⟨1, 1⟩, 1000000000, 1000000000, 0⟩]
        (visit 0 "/a" 5 ++ visit 1 "/a" 7))).map RateCheck.decision
      = (checksOf twoRoutes 0 (after twoRoutes
        [some ⟨⟨1, 1⟩, 1000000000, 1000000000, 3⟩, some ⟨⟨1, 1⟩, 1000000000, 1000000000, 3⟩]
        (visit 0 "/b" 4 ++ visit 1 "/a" 5 ++ visit 2 "/b" 6 ++ visit 3 "/a" 7))).map
          RateCheck.decision :=
  rate_limit_isolation twoRoutes 0 rfl rfl (by decide) (by decide) (by decide)

end Gateway

end ApiGate
