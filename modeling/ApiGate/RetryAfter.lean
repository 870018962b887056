import ApiGate.RateLimitExact

/-!
# Retry-After, and attempts that are denied

A refill at some moment and another one later are the later one alone
(`refill_refill`), so an attempt that is denied leaves nothing behind that a
later one could notice. The seconds it reports are what the exact wait for a
token is rounded up to (`retryAfter_le_iff`).
-/

namespace ApiGate

namespace TokenBucket

/-! ## Refills in a row -/

section Refills

variable {b : TokenBucket} {t now : TimePoint}

theorem elapsed_refill (hle : t ≤ now) :
    b.elapsed now = b.elapsed t + (b.refill t).elapsed now := by
  obtain ⟨-, -, hlast⟩ := b.refill_frame t
  have htimes := Int64.le_iff_toInt_le.mp hle
  unfold elapsed
  omega

/-- What was cut off at the capacity stays cut off. -/
theorem refillUnits_refill (hb : b.Sound) (hle : t ≤ now) :
    (b.refill t).refillUnits now = b.refillUnits now := by
  obtain ⟨hconfig, hcapacity, -⟩ := b.refill_frame t
  have hunits : (b.refill t).units.toNat
      = min b.capacity.toNat (b.units.toNat + b.elapsed t * b.config.requestsPerSecond.toNat) :=
    refill_units hb t
  unfold refillUnits
  rw [hconfig, hcapacity, hunits, elapsed_refill (b := b) hle, Nat.add_mul]
  omega

theorem eq_of_toNat {b' : TokenBucket} (hconfig : b'.config = b.config)
    (hcapacity : b'.capacity = b.capacity) (hunits : b'.units.toNat = b.units.toNat)
    (hlast : b'.lastRefill.toInt = b.lastRefill.toInt) : b' = b := by
  obtain ⟨config, capacity, units, last⟩ := b
  obtain ⟨config', capacity', units', last'⟩ := b'
  obtain rfl : config' = config := hconfig
  obtain rfl : capacity' = capacity := hcapacity
  obtain rfl : units' = units := UInt64.toNat_inj.mp hunits
  obtain rfl : last' = last := Int64.toInt_inj.mp hlast
  rfl

theorem refill_refill (hb : b.Sound) (hle : t ≤ now) : (b.refill t).refill now = b.refill now := by
  have hsound := refill_sound hb t
  have htimes := Int64.le_iff_toInt_le.mp hle
  obtain ⟨hconfig, hcapacity, hlast⟩ := b.refill_frame t
  obtain ⟨hconfig', hcapacity', hlast'⟩ := b.refill_frame now
  obtain ⟨hconfig'', hcapacity'', hlast''⟩ := (b.refill t).refill_frame now
  apply eq_of_toNat
  · rw [hconfig'', hconfig, hconfig']
  · rw [hcapacity'', hcapacity, hcapacity']
  · rw [refill_units hsound, refill_units hb, refillUnits_refill hb hle]
  · rw [hlast'', hlast, hlast']
    omega

theorem tryAcquire_of_refill {b' : TokenBucket} (h : b'.refill now = b.refill now) :
    b'.tryAcquire now = b.tryAcquire now := by
  rw [tryAcquire, h, tryAcquire]

/-- An attempt that is denied is a refill. -/
theorem tryAcquire_denied (h : (b.tryAcquire now).1.allowed = false) :
    (b.tryAcquire now).2 = b.refill now := by
  by_cases hunits : (b.refill now).units ≥ unitsPerToken
  · rw [tryAcquire, if_pos hunits] at h
    cases h
  · rw [tryAcquire, if_neg hunits]

theorem decisions_refill (hb : b.Sound) {times : List TimePoint} (h : ∀ now ∈ times, t ≤ now) :
    (b.refill t).decisions times = b.decisions times := by
  cases times with
  | nil => rfl
  | cons now rest =>
      have hsame := tryAcquire_of_refill (refill_refill hb (h now (List.mem_cons_self ..)))
      rw [decisions, decisions, hsame]

end Refills

/-! ## One attempt that is denied -/

section Denied

variable {b : TokenBucket} {now : TimePoint}

/-- The two divisions together round the exact wait up. -/
theorem toNat_retryAfter (hb : b.Sound) (h : b.refillUnits now < 1000000000) :
    (b.tryAcquire now).1.retryAfterSeconds.toNat
      = ((1000000000 - b.refillUnits now) ⌈/⌉ b.config.requestsPerSecond.toNat)
        ⌈/⌉ 1000000000 := by
  have hsound := refill_sound hb now
  have hunits := refill_units hb now
  have hle : (b.refill now).units.toNat ≤ unitsPerToken.toNat := by
    rw [toNat_unitsPerToken]
    omega
  have hshort : ¬ (b.refill now).units ≥ unitsPerToken := by
    rw [units_ge_iff]
    omega
  have hseconds := toNat_retryAfter_le hsound hle
  have hpos : 0 < unitsPerToken.toNat := by decide
  rw [tryAcquire, if_neg hshort]
  dsimp only
  rw [UInt64.toNat_toUInt32, Nat.mod_eq_of_lt (lt_of_le_of_lt hseconds (by decide)), ceilDivide,
    Rate.toNat_ceilDiv _ _ hpos, ceilDivide, Rate.toNat_ceilDiv _ _ (rate_pos hsound),
    UInt64.toNat_sub_of_le _ _ (UInt64.le_iff_toNat_le.mpr hle), UInt32.toNat_toUInt64,
    (b.refill_frame now).1, hunits, toNat_unitsPerToken]

/-- The exact wait that is left after an attempt that is denied. -/
theorem wait_denied (hb : b.Sound) (h : (b.tryAcquire now).1.allowed = false) :
    (b.tryAcquire now).2.ideal.wait (idealRate b.config)
      = ((1000000000 - b.refillUnits now : ℕ) : ℚ)
        / (1000000000 * b.config.requestsPerSecond.toNat) := by
  rcases tryAcquire_cases hb now with ⟨-, hallowed, -⟩ | ⟨hlt, -, hunits⟩
  · rw [hallowed] at h
    cases h
  · have hrate : (b.config.requestsPerSecond.toNat : ℚ) ≠ 0 :=
      Nat.cast_ne_zero.mpr (Nat.one_le_iff_ne_zero.mp hb.admitted.1)
    unfold Rate.Bucket.wait ideal idealRate
    dsimp only
    rw [hunits, Nat.cast_sub hlt.le]
    push_cast
    field_simp

theorem retryAfter_le_iff (hb : b.Sound) (h : (b.tryAcquire now).1.allowed = false) (k : ℕ) :
    (b.tryAcquire now).1.retryAfterSeconds.toNat ≤ k
      ↔ (b.tryAcquire now).2.ideal.wait (idealRate b.config) ≤ k := by
  rcases tryAcquire_cases hb now with ⟨-, hallowed, -⟩ | ⟨hlt, -, -⟩
  · rw [hallowed] at h
    cases h
  · have hrate : 0 < b.config.requestsPerSecond.toNat := hb.admitted.1
    have hpos : (0 : ℚ) < 1000000000 * b.config.requestsPerSecond.toNat := by positivity
    rw [wait_denied hb h, toNat_retryAfter hb hlt, ceilDiv_le_iff_le_mul (by decide),
      ceilDiv_le_iff_le_mul hrate, div_le_iff₀ hpos]
    have hcast : ((1000000000 - b.refillUnits now : ℕ) : ℚ)
          ≤ k * (1000000000 * b.config.requestsPerSecond.toNat)
        ↔ 1000000000 - b.refillUnits now
          ≤ k * (1000000000 * b.config.requestsPerSecond.toNat) := by exact_mod_cast Iff.rfl
    rw [hcast, show b.config.requestsPerSecond.toNat * (1000000000 * k)
      = k * (1000000000 * b.config.requestsPerSecond.toNat) by ring]

theorem wait_pos (hb : b.Sound) (h : (b.tryAcquire now).1.allowed = false) :
    0 < (b.tryAcquire now).2.ideal.wait (idealRate b.config) := by
  rcases tryAcquire_cases hb now with ⟨-, hallowed, -⟩ | ⟨hlt, -, -⟩
  · rw [hallowed] at h
    cases h
  · have hrate : 0 < b.config.requestsPerSecond.toNat := hb.admitted.1
    have hshort : 0 < 1000000000 - b.refillUnits now := by omega
    rw [wait_denied hb h]
    positivity

theorem allowed_iff_wait_le (hb : b.Sound) (h : b.lastRefill ≤ now) :
    (b.tryAcquire now).1.allowed = true
      ↔ b.ideal.wait (idealRate b.config) ≤ seconds now - seconds b.lastRefill := by
  have hrate : 0 < idealRate b.config := Nat.cast_pos.mpr hb.admitted.1
  have hburst : 1 ≤ idealBurst b.config := Nat.one_le_cast.mpr hb.admitted.2.2.1
  have hiff := Rate.Bucket.attempt_iff_wait_le hrate hburst (b := b.ideal) (seconds_le h)
  rw [ideal_tryAcquire hb now] at hiff
  exact hiff

end Denied

/-! ## Sequences with attempts that are denied -/

theorem decisions_getElem? (b : TokenBucket) (times : List TimePoint) (n : Nat) :
    (b.decisions times)[n]?
      = times[n]?.map fun now => ((b.after (times.take n)).tryAcquire now).1 := by
  induction times generalizing b n with
  | nil => simp [decisions]
  | cons now rest ih =>
      cases n with
      | zero => rfl
      | succ n => simpa [decisions, after] using ih (b.tryAcquire now).2 n

theorem after_append (b : TokenBucket) (times rest : List TimePoint) :
    b.after (times ++ rest) = (b.after times).after rest := List.foldl_append ..

theorem after_lastRefill_le {t : TimePoint} (times : List TimePoint) :
    ∀ {b : TokenBucket}, b.lastRefill ≤ t → (∀ u ∈ times, u ≤ t) → (b.after times).lastRefill ≤ t := by
  induction times with
  | nil => intro b hb _; exact hb
  | cons now rest ih =>
      intro b hb htimes
      have hlast := (b.tryAcquire_frame now).2.2
      have hnow := Int64.le_iff_toInt_le.mp (htimes now (List.mem_cons_self ..))
      have hold := Int64.le_iff_toInt_le.mp hb
      have hnext : (b.tryAcquire now).2.lastRefill ≤ t := Int64.le_iff_toInt_le.mpr (by omega)
      exact ih hnext fun u hu => htimes u (List.mem_cons_of_mem _ hu)

/-- Attempts that are all denied leave a refill behind. -/
theorem after_denied {now : TimePoint} (times : List TimePoint) :
    ∀ {b : TokenBucket}, b.Sound → (∀ t ∈ times, t ≤ now) →
      (∀ d ∈ b.decisions times, d.allowed = false) →
      (b.after times).refill now = b.refill now := by
  induction times with
  | nil => intro b _ _ _; rfl
  | cons t rest ih =>
      intro b hb htimes hdenied
      rw [decisions, List.forall_mem_cons] at hdenied
      obtain ⟨hfirst, hrest⟩ := hdenied
      have hafter := ih (tryAcquire_sound hb t) (fun u hu => htimes u (List.mem_cons_of_mem _ hu)) hrest
      refine hafter.trans ?_
      rw [tryAcquire_denied hfirst]
      exact refill_refill hb (htimes t (List.mem_cons_self ..))

/-- Attempts of which some are marked as put in between the others. -/
abbrev Marked := List (TimePoint × Bool)

/-- The decisions on the attempts that are not marked. -/
def unmarkedDecisions (b : TokenBucket) (attempts : Marked) : List RateLimitDecision :=
  (((b.decisions (attempts.map Prod.fst)).zip attempts).filter fun p => !p.2.2).map Prod.fst

/-- The attempts without those that are marked. -/
def unmarked (attempts : Marked) : List TimePoint := (attempts.filter fun p => !p.2).map Prod.fst

/-- Every marked attempt is denied. -/
def MarkedDenied (b : TokenBucket) (attempts : Marked) : Prop :=
  ∀ p ∈ (b.decisions (attempts.map Prod.fst)).zip attempts, p.2.2 = true → p.1.allowed = false

theorem mem_unmarked {attempts : Marked} {t : TimePoint} (h : t ∈ unmarked attempts) :
    t ∈ attempts.map Prod.fst := by
  obtain ⟨p, hp, rfl⟩ := List.mem_map.mp h
  exact List.mem_map_of_mem (List.mem_of_mem_filter hp)

theorem unmarkedDecisions_eq (attempts : Marked) :
    ∀ {b : TokenBucket}, b.Sound → (attempts.map Prod.fst).Pairwise (· ≤ ·) →
      MarkedDenied b attempts → unmarkedDecisions b attempts = b.decisions (unmarked attempts) := by
  induction attempts with
  | nil => intro b _ _ _; rfl
  | cons p rest ih =>
      obtain ⟨now, mark⟩ := p
      intro b hb hsorted hdenied
      rw [List.map_cons, List.pairwise_cons] at hsorted
      obtain ⟨hfirst, hsorted⟩ := hsorted
      unfold MarkedDenied at hdenied
      rw [List.map_cons, decisions, List.zip_cons_cons, List.forall_mem_cons] at hdenied
      obtain ⟨hhead, hdenied⟩ := hdenied
      have hrest := ih (tryAcquire_sound hb now) hsorted hdenied
      cases mark with
      | false =>
          have hcons : unmarkedDecisions b ((now, false) :: rest)
              = (b.tryAcquire now).1 :: unmarkedDecisions (b.tryAcquire now).2 rest := rfl
          have hkept : unmarked ((now, false) :: rest) = now :: unmarked rest := rfl
          rw [hcons, hkept, hrest, decisions]
      | true =>
          have hskip : unmarkedDecisions b ((now, true) :: rest)
              = unmarkedDecisions (b.tryAcquire now).2 rest := rfl
          have hkept : unmarked ((now, true) :: rest) = unmarked rest := rfl
          rw [hskip, hkept, hrest, tryAcquire_denied (hhead rfl)]
          exact decisions_refill hb fun t ht => hfirst t (mem_unmarked ht)

/-- Neither the attempt `m` nor one between it and the attempt `n` is admitted. -/
def DeniedFrom (b : TokenBucket) (times : List TimePoint) (m n : Nat) : Prop :=
  ∀ k d, m ≤ k → k < n → (b.decisions times)[k]? = some d → d.allowed = false

section Sorted

variable {b : TokenBucket} {times : List TimePoint} {n : Nat} {now : TimePoint}

theorem le_of_mem_take (hsorted : times.Pairwise (· ≤ ·)) (hn : times[n]? = some now) :
    ∀ t ∈ times.take n, t ≤ now := by
  intro t ht
  obtain ⟨i, hi, rfl⟩ := List.getElem_of_mem ht
  obtain ⟨hlen, rfl⟩ := List.getElem?_eq_some_iff.mp hn
  rw [List.length_take] at hi
  rw [List.getElem_take]
  exact List.pairwise_iff_getElem.mp hsorted i n (by omega) hlen (by omega)

theorem after_take_succ (hn : times[n]? = some now) :
    b.after (times.take (n + 1)) = ((b.after (times.take n)).tryAcquire now).2 := by
  rw [List.take_add_one, hn, after_append]
  rfl

theorem lastRefill_take_succ (hlast : ∀ t ∈ times, b.lastRefill ≤ t)
    (hsorted : times.Pairwise (· ≤ ·)) (hn : times[n]? = some now) :
    (b.after (times.take (n + 1))).lastRefill = now := by
  have hbefore : (b.after (times.take n)).lastRefill ≤ now :=
    after_lastRefill_le _ (hlast now (List.mem_of_getElem? hn)) (le_of_mem_take hsorted hn)
  have hle := Int64.le_iff_toInt_le.mp hbefore
  rw [after_take_succ hn]
  apply Int64.toInt_inj.mp
  rw [((b.after (times.take n)).tryAcquire_frame now).2.2]
  omega

/-- As long as none is admitted, the last attempt of the stretch is as the one after its first. -/
theorem refill_take_denied (hb : b.Sound) (hsorted : times.Pairwise (· ≤ ·)) {m : Nat} (hmn : m < n)
    (hn : times[n]? = some now) (h : DeniedFrom b times m n) :
    (b.after (times.take n)).refill now = (b.after (times.take (m + 1))).refill now := by
  have hsplit : times.take n = times.take (m + 1) ++ (times.take n).drop (m + 1) := by
    conv_lhs => rw [← List.take_append_drop (m + 1) (times.take n)]
    rw [List.take_take, Nat.min_eq_left hmn]
  have hdenied : ∀ d ∈ (b.after (times.take (m + 1))).decisions ((times.take n).drop (m + 1)),
      d.allowed = false := by
    intro d hd
    have hdrop := decisions_drop b (times.take n) (m + 1)
    rw [List.take_take, Nat.min_eq_left hmn, ← decisions_take] at hdrop
    rw [← hdrop] at hd
    obtain ⟨i, hi⟩ := List.mem_iff_getElem?.mp hd
    rw [List.getElem?_drop, List.getElem?_take] at hi
    split at hi
    · rename_i hlt
      exact h (m + 1 + i) d (by omega) hlt hi
    · cases hi
  rw [hsplit, after_append]
  refine after_denied _ (after_sound _ hb) ?_ hdenied
  intro t ht
  exact le_of_mem_take hsorted hn t (List.mem_of_mem_drop ht)

/-- The first attempt behind a stretch of denied ones is admitted exactly when the wait is over
that the first of them was left with. -/
theorem allowed_iff_waited (hb : b.Sound) (hlast : ∀ t ∈ times, b.lastRefill ≤ t)
    (hsorted : times.Pairwise (· ≤ ·)) {m : Nat} (hmn : m < n) {t : TimePoint}
    (hm : times[m]? = some t) (hn : times[n]? = some now) (h : DeniedFrom b times m n) :
    ((b.after (times.take n)).tryAcquire now).1.allowed = true
      ↔ (b.after (times.take (m + 1))).ideal.wait (idealRate b.config)
        ≤ seconds now - seconds t := by
  have hsound := after_sound (times.take (m + 1)) hb
  have hclock := lastRefill_take_succ hlast hsorted hm
  have hle : t ≤ now := by
    obtain ⟨hlen, rfl⟩ := List.getElem?_eq_some_iff.mp hm
    obtain ⟨hlen', rfl⟩ := List.getElem?_eq_some_iff.mp hn
    exact List.pairwise_iff_getElem.mp hsorted m n hlen hlen' hmn
  have hbefore : (b.after (times.take (m + 1))).lastRefill ≤ now := by
    rw [hclock]
    exact hle
  have hiff := allowed_iff_wait_le hsound hbefore
  rw [tryAcquire_of_refill (refill_take_denied hb hsorted hmn hn h), hiff, hclock,
    (after_frame _ b).1]

end Sorted

theorem exists_make {config : RateLimitConfig} (h : Admitted config) (start : TimePoint) :
    ∃ b, make config start = .ok b ∧ b.Sound ∧ b.config = config ∧ b.lastRefill = start :=
  ⟨_, make_eq h start, make_sound h start, rfl, rfl⟩

/-- A denied attempt reports the least number of seconds that cover the exact wait it is left with,
one at least; the next attempt that is not denied is one after this wait, and any attempt as many
seconds later is admitted; and attempts that are denied change the answer to no other one. -/
theorem retry_after_sound (config : RateLimitConfig) (h : Admitted config) (start : TimePoint)
    (times : List TimePoint) (hsorted : (start :: times).Pairwise (· ≤ ·)) :
    ∃ b, make config start = .ok b
      ∧ (∀ n d, (b.decisions times)[n]? = some d → d.allowed = false →
          1 ≤ d.retryAfterSeconds.toNat
            ∧ IsLeast {k : ℕ | (b.after (times.take (n + 1))).ideal.wait (idealRate config) ≤ k}
              d.retryAfterSeconds.toNat)
      ∧ (∀ m n t t' d d', m < n → times[m]? = some t → times[n]? = some t' →
          (b.decisions times)[m]? = some d → (b.decisions times)[n]? = some d' →
          DeniedFrom b times m n →
          (d'.allowed = true ↔ (b.after (times.take (m + 1))).ideal.wait (idealRate config)
            ≤ seconds t' - seconds t)
          ∧ (t.toInt + d.retryAfterSeconds.toNat * 1000000000 ≤ t'.toInt → d'.allowed = true))
      ∧ (∀ attempts : Marked, (attempts.map Prod.fst).Pairwise (· ≤ ·) → MarkedDenied b attempts →
          unmarked attempts = times → unmarkedDecisions b attempts = b.decisions times) := by
  obtain ⟨b, hmake, hsound, rfl, rfl⟩ := exists_make h start
  rw [List.pairwise_cons] at hsorted
  obtain ⟨hstart, hsorted⟩ := hsorted
  refine ⟨b, hmake, ?_, ?_, ?_⟩
  · intro n d hd hdenied
    rw [decisions_getElem?, Option.map_eq_some_iff] at hd
    obtain ⟨now, hn, rfl⟩ := hd
    have hbefore := after_sound (times.take n) hsound
    have hle := retryAfter_le_iff hbefore hdenied
    have hpos := wait_pos hbefore hdenied
    rw [(after_frame _ _).1] at hle hpos
    rw [after_take_succ hn]
    refine ⟨?_, (hle _).mp le_rfl, fun k hk => (hle k).mpr hk⟩
    by_contra hzero
    have hnone := (hle 0).mp (by omega)
    rw [Nat.cast_zero] at hnone
    exact absurd hpos (not_lt.mpr hnone)
  · intro m n t t' d d' hmn hm hn hd hd' hdenied
    have hfirst : d.allowed = false := hdenied m d le_rfl hmn hd
    rw [decisions_getElem?, hm, Option.map_some, Option.some.injEq] at hd
    rw [decisions_getElem?, hn, Option.map_some, Option.some.injEq] at hd'
    subst hd hd'
    have hiff := allowed_iff_waited hsound hstart hsorted hmn hm hn hdenied
    refine ⟨hiff, fun hlater => hiff.mpr ?_⟩
    have hbefore := after_sound (times.take m) hsound
    have hwait := (retryAfter_le_iff hbefore hfirst _).mp le_rfl
    rw [(after_frame _ _).1] at hwait
    have hspan : (((b.after (times.take m)).tryAcquire t).1.retryAfterSeconds.toNat : ℚ)
        ≤ seconds t' - seconds t := by
      unfold seconds
      rw [← sub_div, le_div_iff₀ (by norm_num), le_sub_iff_add_le']
      exact_mod_cast hlater
    rw [after_take_succ hm]
    exact hwait.trans hspan
  · rintro attempts hattempts hdenied rfl
    exact unmarkedDecisions_eq attempts hsound hattempts hdenied

/-- At two a second the wait after the one token is half a second, reported as a whole one. -/
theorem retry_after_sound_two_per_second :
    ∃ b, make ⟨2, 1⟩ 0 = .ok b
      ∧ (b.decisions [0, 0, 1000000000])[1]? = some ⟨false, 1⟩
      ∧ ∃ d, (b.decisions [0, 0, 1000000000])[2]? = some d ∧ d.allowed = true := by
  have hadmitted : Admitted ⟨2, 1⟩ := ⟨by decide, by decide, by decide, by decide⟩
  obtain ⟨b, hmake, -, hlater, -⟩ := retry_after_sound ⟨2, 1⟩ hadmitted 0 [0, 0, 1000000000]
    (by decide)
  have hb : b = ⟨⟨2, 1⟩, 1000000000, 1000000000, 0⟩ := by
    cases hmake
    rfl
  subst hb
  refine ⟨_, hmake, by decide, _, rfl, (hlater 1 2 0 1000000000 _ _ (by decide) rfl rfl rfl rfl ?_).2
    (by decide)⟩
  intro k d hk hk' hd
  obtain rfl : k = 1 := by omega
  cases hd
  decide
end TokenBucket

end ApiGate
