import ApiGate.Estate
import ApiGate.RateIsolation

/-!
# The rate of a route in any window of time

The checks of a run stand in the order of the clock (`Estate.Clocked`), and a bucket that
decides requests in that order admits no more of them within a window than its burst and its
rate over the window. So a route that has a limit keeps to it in every run, however the
requests of its sessions fall between those of other routes.
-/

namespace ApiGate

open EventLoop Act

/-- A check that was made within the window and let its request through. -/
def RateCheck.allowedWithin (first last : TimePoint) (c : RateCheck) : Bool :=
  decide (first ≤ c.now) && decide (c.now ≤ last) &&
    match c.decision with
    | .ok d => d.allowed
    | .error _ => false

/-! ## The order of the checks -/

namespace Estate

/-- The checks, latest first, were made at the times of inputs and in their order. -/
structure Clocked (times : List TimePoint) (e : Estate) : Prop where
  sorted : e.checks.Pairwise fun later earlier => earlier.now ≤ later.now
  read : ∀ c ∈ e.checks, c.now ∈ times

theorem Clocked.same {times : List TimePoint} {e e' : Estate} (h : Clocked times e)
    (hchecks : e'.checks = e.checks) : Clocked times e' where
  sorted := by
    rw [hchecks]
    exact h.sorted
  read := by
    rw [hchecks]
    exact h.read

/-- In the turn of an input that no earlier one comes after. -/
def Turn (times : List TimePoint) (now : TimePoint) (e : Estate) : Prop :=
  e.now = now ∧ Clocked (times ++ [now]) e

theorem Turn.move {g : Setup} {times : List TimePoint} {now : TimePoint}
    (hlast : ∀ t ∈ times, t ≤ now) {i : Nat} {e : Estate} {c : Custody} (h : Turn times now e)
    (hmove : Custody.Move g (e.focus i) c) : Turn times now (e.put i c) := by
  obtain ⟨hnow, hclocked⟩ := h
  cases hmove with
  | check request route found =>
      refine ⟨hnow, ?_, ?_⟩
      · refine List.pairwise_cons.mpr ⟨fun earlier hearlier => ?_, hclocked.sorted⟩
        show earlier.now ≤ e.now
        rw [hnow]
        rcases List.mem_append.mp (hclocked.read earlier hearlier) with hold | hsame
        · exact hlast _ hold
        · rw [List.mem_singleton.mp hsame]
          exact Int64.le_refl _
      · intro d hd
        rcases List.mem_cons.mp hd with rfl | hold
        · show e.now ∈ _
          rw [hnow]
          exact List.mem_append_right _ (List.mem_singleton_self _)
        · exact hclocked.read d hold
  | _ => exact ⟨hnow, hclocked.same rfl⟩

theorem Clocked.step {g : Setup} {times : List TimePoint} {now : TimePoint} {e e' : Estate}
    {event : Gateway.Event} (h : Clocked times e) (hlast : ∀ t ∈ times, t ≤ now)
    (hstep : Estate.Step g (e.tick now) event e') : Clocked (times ++ [now]) e' := by
  have hstart : Turn times now (e.tick now) :=
    ⟨rfl, h.sorted, fun c hc => List.mem_append_left _ (h.read c hc)⟩
  have hturn : Turn times now e' := by
    cases hstep with
    | session moves => exact moves_keep (fun hk hmove => hk.move hlast hmove) hstart moves
    | probe _ _ _ => exact ⟨rfl, hstart.2.same rfl⟩
    | cleanup _ _ => exact ⟨rfl, hstart.2.same rfl⟩
    | stopPool => exact ⟨rfl, hstart.2.same rfl⟩
  exact hturn.2

end Estate

/-! ## A window of a bucket -/

namespace TokenBucket

/-- These checks are all that this bucket was asked, in the order of the clock. -/
structure Decides (b : TokenBucket) (checks : List RateCheck) : Prop where
  sorted : (checks.map RateCheck.now).Pairwise (· ≤ ·)
  decisions : checks.map RateCheck.decision
    = (b.decisions (checks.map RateCheck.now)).map Except.ok

theorem Decides.tail {b : TokenBucket} {c : RateCheck} {rest : List RateCheck}
    (h : Decides b (c :: rest)) : Decides (b.tryAcquire c.now).2 rest where
  sorted := (List.pairwise_cons.mp h.sorted).2
  decisions := (List.cons.inj h.decisions).2

theorem Decides.later {b : TokenBucket} {c : RateCheck} {rest : List RateCheck}
    (h : Decides b (c :: rest)) : ∀ d ∈ rest, c.now ≤ d.now := by
  intro d hd
  exact (List.pairwise_cons.mp h.sorted).1 _ (List.mem_map_of_mem hd)

theorem Decides.take {b : TokenBucket} {checks : List RateCheck} (h : Decides b checks) (n : Nat) :
    Decides b (checks.take n) where
  sorted := by
    rw [List.map_take]
    exact h.sorted.sublist (List.take_sublist ..)
  decisions := by
    rw [List.map_take, List.map_take, h.decisions, ← List.map_take, decisions_take]

/-- Checks that are all within the window. -/
theorem Decides.countP_allowed {b : TokenBucket} {checks : List RateCheck} (h : Decides b checks)
    {first last : TimePoint} (hwithin : ∀ c ∈ checks, first ≤ c.now ∧ c.now ≤ last) :
    checks.countP (RateCheck.allowedWithin first last)
      = (b.decisions (checks.map RateCheck.now)).countP RateLimitDecision.allowed := by
  induction checks generalizing b with
  | nil => rfl
  | cons c rest ih =>
      obtain ⟨hfirst, hlast⟩ := hwithin c (List.mem_cons_self ..)
      have hhead : c.decision = .ok (b.tryAcquire c.now).1 := (List.cons.inj h.decisions).1
      have hsame : c.allowedWithin first last = (b.tryAcquire c.now).1.allowed := by
        simp [RateCheck.allowedWithin, hhead, hfirst, hlast]
      have htail := ih h.tail fun d hd => hwithin d (List.mem_cons_of_mem _ hd)
      rw [List.countP_cons, htail, hsame, List.map_cons, TokenBucket.decisions, List.countP_cons]

/-- Of checks in the order of the clock, those until `last` come first. -/
theorem countP_takeWhile {checks : List RateCheck}
    (hsorted : (checks.map RateCheck.now).Pairwise (· ≤ ·)) (first last : TimePoint) :
    checks.countP (RateCheck.allowedWithin first last)
      = (checks.takeWhile fun c => c.now ≤ last).countP (RateCheck.allowedWithin first last) := by
  induction checks with
  | nil => rfl
  | cons c rest ih =>
      obtain ⟨hlater, hrest⟩ := List.pairwise_cons.mp hsorted
      by_cases hlast : c.now ≤ last
      · rw [List.takeWhile_cons_of_pos (p := fun d : RateCheck => decide (d.now ≤ last))
          (decide_eq_true hlast), List.countP_cons, List.countP_cons, ih hrest]
      · have hnone : ∀ d ∈ c :: rest, ¬d.allowedWithin first last = true := by
          intro d hd hallowed
          have hd' : d.now ≤ last := by
            simp only [RateCheck.allowedWithin, Bool.and_eq_true, decide_eq_true_eq] at hallowed
            exact hallowed.1.2
          rcases List.mem_cons.mp hd with rfl | hd
          · exact hlast hd'
          · exact hlast (Int64.le_trans (hlater _ (List.mem_map_of_mem hd)) hd')
        rw [List.takeWhile_cons_of_neg (by simpa using hlast), List.countP_nil]
        exact List.countP_eq_zero.mpr hnone

theorem Decides.countP_le {b : TokenBucket} (hb : b.Sound) {checks : List RateCheck}
    (h : Decides b checks) (first last : TimePoint) :
    checks.countP (RateCheck.allowedWithin first last)
      ≤ b.config.burst.toNat
        + b.config.requestsPerSecond.toNat * (last.toInt - first.toInt).toNat / 1000000000 := by
  induction checks generalizing b with
  | nil => exact Nat.zero_le _
  | cons c rest ih =>
      by_cases hfirst : first ≤ c.now
      · -- from here on the checks are within the window until `last`
        have hstop := countP_takeWhile h.sorted first last
        have hfront := List.prefix_iff_eq_take.mp <|
          List.takeWhile_prefix (l := c :: rest) fun d => d.now ≤ last
        have hdecides := h.take ((c :: rest).takeWhile fun d => d.now ≤ last).length
        rw [← hfront] at hdecides
        have hwithin : ∀ d ∈ (c :: rest).takeWhile fun d => d.now ≤ last,
            first ≤ d.now ∧ d.now ≤ last := by
          intro d hd
          have hlast : d.now ≤ last := by simpa using List.mem_takeWhile_imp hd
          refine ⟨?_, hlast⟩
          rcases List.mem_cons.mp ((List.takeWhile_sublist _).subset hd) with rfl | hd
          · exact hfirst
          · exact Int64.le_trans hfirst (h.later d hd)
        rw [hstop, hdecides.countP_allowed hwithin]
        by_cases hlast : c.now ≤ last
        · rw [List.takeWhile_cons_of_pos (p := fun d : RateCheck => decide (d.now ≤ last))
            (decide_eq_true hlast), List.map_cons]
          have hrest : ∀ u ∈ (rest.takeWhile fun d => decide (d.now ≤ last)).map RateCheck.now,
              u ≤ last := by
            intro u hu
            obtain ⟨d, hd, rfl⟩ := List.mem_map.mp hu
            simpa using List.mem_takeWhile_imp hd
          have hbound := count_allowed_le hb hlast hrest
          have hspan : (last.toInt - c.now.toInt).toNat ≤ (last.toInt - first.toInt).toNat := by
            have := Int64.le_iff_toInt_le.mp hfirst
            omega
          exact hbound.trans (Nat.add_le_add_left (Nat.div_le_div_right
            (Nat.mul_le_mul_left _ hspan)) _)
        · rw [List.takeWhile_cons_of_neg (by simpa using hlast)]
          exact Nat.zero_le _
      · -- a check before the window
        have hhead : c.allowedWithin first last = false := by
          simp [RateCheck.allowedWithin, hfirst]
        obtain ⟨hconfig, -, -⟩ := b.tryAcquire_frame c.now
        have hrest := ih (tryAcquire_sound hb c.now) h.tail
        rw [hconfig] at hrest
        rw [List.countP_cons, hhead]
        exact hrest

theorem make_admitted {config : RateLimitConfig} {now : TimePoint} {b : TokenBucket}
    (h : make config now = .ok b) : Admitted config := by
  unfold make at h
  dsimp only at h
  split at h
  · cases h
  · rename_i hrange
    simp only [Bool.or_eq_true, decide_eq_true_eq, not_or] at hrange
    obtain ⟨⟨⟨hrate, hrate'⟩, hburst⟩, hburst'⟩ := hrange
    have hpositive : ∀ n : UInt32, n ≠ 0 → 1 ≤ n.toNat := by
      intro n hn
      have hne : n.toNat ≠ 0 := fun h0 => hn (UInt32.toNat_inj.mp h0)
      omega
    have hbounded : ∀ n : UInt32, ¬n > 1000000 → n.toNat ≤ 1000000 := by
      intro n hn
      exact UInt32.le_iff_toNat_le.mp (UInt32.not_lt.mp hn)
    exact ⟨hpositive _ hrate, hbounded _ hrate', hpositive _ hburst, hbounded _ hburst'⟩

end TokenBucket

/-- The bucket of a route. -/
theorem RouteRateLimits.make_slot {start : TimePoint} {routes : List RouteConfig}
    {limits : RouteRateLimits} (h : make start routes = .ok limits) {j : Nat} {route : RouteConfig}
    (hroute : routes[j]? = some route) {limit : RateLimitConfig}
    (hlimit : route.rateLimit = some limit) :
    ∃ b, limits[j]? = some (some b) ∧ b.Sound ∧ b.config = limit := by
  induction routes generalizing limits j with
  | nil => cases hroute
  | cons entry routes ih =>
      obtain ⟨bucket, others, hbucket, hothers, rfl⟩ := make_cons h
      cases j with
      | zero =>
          cases hroute
          rcases hbucket with ⟨hnone, -⟩ | ⟨config, b, hsome, hmake, rfl⟩
          · rw [hlimit] at hnone
            cases hnone
          · rw [hlimit] at hsome
            cases hsome
            refine ⟨b, rfl, ?_, ?_⟩
            · rw [TokenBucket.make_fresh hmake]
              exact TokenBucket.make_sound (TokenBucket.make_admitted hmake) start
            · rw [TokenBucket.make_fresh hmake]
      | succ j => exact ih hothers hroute

namespace Gateway

theorem after_clocked (g : Setup) (rateLimits : RouteRateLimits) {inputs : List Input}
    (hclock : (inputs.map Input.now).Pairwise (· ≤ ·)) :
    Estate.Clocked (inputs.map Input.now) (after g rateLimits inputs).estate := by
  have hrun : (inputs.map Input.now).Pairwise (· ≤ ·) →
      Estate.Clocked (inputs.map Input.now) (after g rateLimits inputs).estate := by
    refine after_estate (P := fun inputs e => (inputs.map Input.now).Pairwise (· ≤ ·) →
      Estate.Clocked (inputs.map Input.now) e) (fun _ => ?_) (fun {inputs input} he hstep => ?_)
      inputs
    · exact ⟨List.Pairwise.nil, fun c hc => by cases hc⟩
    · rw [List.map_append]
      intro hsorted
      obtain ⟨hbefore, -, hlast⟩ := List.pairwise_append.mp hsorted
      exact (he hbefore).step (fun t ht => hlast t ht _ (List.mem_singleton_self _)) hstep
  exact hrun hclock

/-- A route with a limit: in every run with a steady clock, the requests for it that are let
through within a window of time are at most its burst and what its rate gives in the window. -/
theorem rate_window_bound (g : Setup) (start : TimePoint) {limits : RouteRateLimits}
    (hmake : RouteRateLimits.make start g.config.routes = .ok limits) {inputs : List Input}
    (hclock : (inputs.map Input.now).Pairwise (· ≤ ·)) {j : Nat} {route : RouteConfig}
    (hroute : g.config.routes[j]? = some route) (limit : RateLimitConfig)
    (hlimit : route.rateLimit = some limit) (first last : TimePoint) :
    (checksOf g j (after g limits inputs)).countP (RateCheck.allowedWithin first last)
      ≤ limit.burst.toNat
        + limit.requestsPerSecond.toNat * (last.toInt - first.toInt).toNat / 1000000000 := by
  obtain ⟨b, hslot, hsound, rfl⟩ := RouteRateLimits.make_slot hmake hroute hlimit
  have hdecisions := (after_accounted g limits inputs j).decisions
  rw [hslot] at hdecisions
  refine TokenBucket.Decides.countP_le hsound ⟨?_, hdecisions⟩ first last
  rw [List.pairwise_map]
  unfold routeChecks
  rw [List.pairwise_reverse]
  exact (after_clocked g limits hclock).sorted.filter _

/-- Three visits within two thirds of a second, at one request a second: one gets through. -/
theorem rate_window_bound_three_visits :
    (checksOf twoRoutes 0 (after twoRoutes
        [some ⟨⟨1, 1⟩, 1000000000, 1000000000, 0⟩, some ⟨⟨1, 1⟩, 1000000000, 1000000000, 0⟩]
        (visit 0 "/a" 5 ++ visit 1 "/b" 300000000 ++ visit 2 "/a" 600000000))).countP
          (RateCheck.allowedWithin 0 600000000) ≤ 1 :=
  rate_window_bound twoRoutes 0 rfl (by decide) (by rfl : _ = some twoRoutes.config.routes[0])
    ⟨1, 1⟩ rfl 0 600000000

end Gateway

end ApiGate
