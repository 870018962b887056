import Mathlib.Data.Rat.Floor
import Mathlib.Tactic.FieldSimp
import Mathlib.Tactic.Ring
import ApiGate.Rate.Bucket
import ApiGate.Rate.Checked
import ApiGate.RateLimit

/-!
# The token bucket against the exact one

`TokenBucket` works in whole billionths of a token and takes two shortcuts
before it multiplies. Read as a rational number of tokens, its content is that
of the ideal bucket of `Rate.Bucket` at every moment (`ideal_tryAcquire`), so
the decisions are the same; and with every operation checked for wrapping the
computation has the same result (`tryAcquireChecked_eq`).
-/

namespace ApiGate

namespace TokenBucket

/-! ## The same code with checked arithmetic

Only the difference of the two clock readings is allowed to wrap. -/

def makeChecked (config : RateLimitConfig) (now : TimePoint) : Option (Except Unit TokenBucket) := do
  let capacity ← Rate.checkedMul config.burst.toUInt64 unitsPerToken
  if config.requestsPerSecond = 0 || config.requestsPerSecond > 1000000
      || config.burst = 0 || config.burst > 1000000 then some (.error ())
  else some (.ok { config, capacity, units := capacity, lastRefill := now })

def refillChecked (b : TokenBucket) (now : TimePoint) : Option TokenBucket :=
  if now ≤ b.lastRefill then some b
  else do
    let ticks := now.toUInt64 - b.lastRefill.toUInt64
    let b := { b with lastRefill := now }
    let seconds ← Rate.checkedMul b.config.burst.toUInt64 unitsPerToken
    if ticks ≥ seconds then some { b with units := b.capacity }
    else do
      let rate := b.config.requestsPerSecond.toUInt64
      let missing ← Rate.checkedSub b.capacity b.units
      let wait ← Rate.checkedCeilDiv missing rate
      if ticks ≥ wait then some { b with units := b.capacity }
      else do
        let gained ← Rate.checkedMul ticks rate
        let units ← Rate.checkedAdd b.units gained
        some { b with units }

def tryAcquireChecked (b : TokenBucket) (now : TimePoint) :
    Option (RateLimitDecision × TokenBucket) := do
  let b ← b.refillChecked now
  if b.units ≥ unitsPerToken then do
    let units ← Rate.checkedSub b.units unitsPerToken
    some ({}, { b with units })
  else do
    let short ← Rate.checkedSub unitsPerToken b.units
    let wait ← Rate.checkedCeilDiv short b.config.requestsPerSecond.toUInt64
    let seconds ← Rate.checkedCeilDiv wait unitsPerToken
    let seconds ← Rate.checkedNarrow seconds
    some (⟨false, seconds⟩, b)

/-! ## Sequences of attempts -/

def after (b : TokenBucket) (times : List TimePoint) : TokenBucket :=
  times.foldl (fun b now => (b.tryAcquire now).2) b

def decisions : TokenBucket → List TimePoint → List RateLimitDecision
  | _, [] => []
  | b, now :: rest => (b.tryAcquire now).1 :: decisions (b.tryAcquire now).2 rest

theorem decisions_drop (b : TokenBucket) (times : List TimePoint) (n : Nat) :
    (b.decisions times).drop n = (b.after (times.take n)).decisions (times.drop n) := by
  induction times generalizing b n with
  | nil => simp [decisions]
  | cons now rest ih =>
      cases n with
      | zero => rfl
      | succ n => exact ih (b.tryAcquire now).2 n

theorem decisions_take (b : TokenBucket) (times : List TimePoint) (n : Nat) :
    (b.decisions times).take n = b.decisions (times.take n) := by
  induction times generalizing b n with
  | nil => simp [decisions]
  | cons now rest ih =>
      cases n with
      | zero => rfl
      | succ n => simp only [decisions, List.take_succ_cons, ih]

/-! ## The values a bucket can have -/

/-- The limits of a rate limit that the constructor admits. -/
def Admitted (config : RateLimitConfig) : Prop :=
  1 ≤ config.requestsPerSecond.toNat ∧ config.requestsPerSecond.toNat ≤ 1000000
    ∧ 1 ≤ config.burst.toNat ∧ config.burst.toNat ≤ 1000000

structure Sound (b : TokenBucket) : Prop where
  admitted : Admitted b.config
  capacity_eq : b.capacity.toNat = b.config.burst.toNat * 1000000000
  units_le : b.units.toNat ≤ b.capacity.toNat

theorem toNat_unitsPerToken : unitsPerToken.toNat = 1000000000 := rfl

theorem burst_fits {config : RateLimitConfig} (h : Admitted config) :
    config.burst.toUInt64.toNat * unitsPerToken.toNat < 2 ^ 64 := by
  obtain ⟨-, -, -, hburst⟩ := h
  rw [UInt32.toNat_toUInt64, toNat_unitsPerToken]
  omega

theorem toNat_capacity {config : RateLimitConfig} (h : Admitted config) :
    (config.burst.toUInt64 * unitsPerToken).toNat = config.burst.toNat * 1000000000 := by
  rw [UInt64.toNat_mul, Nat.mod_eq_of_lt (burst_fits h), UInt32.toNat_toUInt64,
    toNat_unitsPerToken]

theorem not_out_of_range {config : RateLimitConfig} (h : Admitted config) :
    (config.requestsPerSecond = 0 || config.requestsPerSecond > 1000000
      || config.burst = 0 || config.burst > 1000000) = false := by
  obtain ⟨hrate, hrate', hburst, hburst'⟩ := h
  have hzero : ∀ n : UInt32, 1 ≤ n.toNat → n ≠ 0 := by
    rintro n hn rfl
    exact absurd hn (by decide)
  have hbig : ∀ n : UInt32, n.toNat ≤ 1000000 → ¬ n > 1000000 := by
    intro n hn hgt
    have := UInt32.lt_iff_toNat_lt.mp hgt
    rw [show (1000000 : UInt32).toNat = 1000000 from rfl] at this
    omega
  simp [hzero _ hrate, hzero _ hburst, hbig _ hrate', hbig _ hburst']

/-- A bucket begins full. -/
theorem make_eq {config : RateLimitConfig} (h : Admitted config) (now : TimePoint) :
    make config now = .ok ⟨config, config.burst.toUInt64 * unitsPerToken,
      config.burst.toUInt64 * unitsPerToken, now⟩ := by
  rw [make, not_out_of_range h]
  rfl

theorem makeChecked_eq {config : RateLimitConfig} (h : Admitted config) (now : TimePoint) :
    makeChecked config now = some (make config now) := by
  rw [make_eq h, makeChecked, not_out_of_range h, Rate.checkedMul_eq (burst_fits h)]
  rfl

/-! ## One refill -/

/-- The nanoseconds by which the clock is ahead of the last refill. -/
def elapsed (b : TokenBucket) (now : TimePoint) : Nat := (now.toInt - b.lastRefill.toInt).toNat

/-- What a refill makes of the content, in natural numbers. -/
def refillUnits (b : TokenBucket) (now : TimePoint) : Nat :=
  min b.capacity.toNat (b.units.toNat + b.elapsed now * b.config.requestsPerSecond.toNat)

theorem refill_early {b : TokenBucket} {now : TimePoint} (h : now ≤ b.lastRefill) :
    b.refill now = b := if_pos h

section Refill

variable {b : TokenBucket} {now : TimePoint}

theorem elapsed_early (h : now ≤ b.lastRefill) : b.elapsed now = 0 := by
  have hle := Int64.le_iff_toInt_le.mp h
  unfold elapsed
  omega

/-- The wrapped difference of the two readings is the time that has passed. -/
theorem toNat_ticks (h : ¬ now ≤ b.lastRefill) :
    (now.toUInt64 - b.lastRefill.toUInt64).toNat = b.elapsed now := by
  have hle : b.lastRefill ≤ now := Int64.le_of_lt (Int64.not_le.mp h)
  have hdiff := Rate.toNat_toUInt64_sub hle
  unfold elapsed
  omega

theorem toNat_missing (hb : b.Sound) :
    (b.capacity - b.units).toNat = b.capacity.toNat - b.units.toNat :=
  UInt64.toNat_sub_of_le _ _ (UInt64.le_iff_toNat_le.mpr hb.units_le)

theorem rate_pos (hb : b.Sound) : 0 < b.config.requestsPerSecond.toUInt64.toNat := by
  rw [UInt32.toNat_toUInt64]
  exact hb.admitted.1

/-- The second shortcut is taken exactly when the time is worth what is missing. -/
theorem ceilDivide_le_ticks (hb : b.Sound) (h : ¬ now ≤ b.lastRefill) :
    now.toUInt64 - b.lastRefill.toUInt64
        ≥ ceilDivide (b.capacity - b.units) b.config.requestsPerSecond.toUInt64
      ↔ b.capacity.toNat ≤ b.units.toNat + b.elapsed now * b.config.requestsPerSecond.toNat := by
  have hceil := ceilDiv_le_iff_le_mul (rate_pos hb) (b := (b.capacity - b.units).toNat)
    (c := b.elapsed now)
  rw [ge_iff_le, UInt64.le_iff_toNat_le, toNat_ticks h, ceilDivide,
    Rate.toNat_ceilDiv _ _ (rate_pos hb), hceil, toNat_missing hb, UInt32.toNat_toUInt64,
    Nat.mul_comm, Nat.sub_le_iff_le_add, Nat.add_comm]

/-- The first shortcut is sound: at any rate, as many seconds as the burst fill the bucket. -/
theorem capacity_le_of_ticks (hb : b.Sound) (h : ¬ now ≤ b.lastRefill)
    (hlong : now.toUInt64 - b.lastRefill.toUInt64 ≥ b.config.burst.toUInt64 * unitsPerToken) :
    b.capacity.toNat ≤ b.units.toNat + b.elapsed now * b.config.requestsPerSecond.toNat := by
  rw [ge_iff_le, UInt64.le_iff_toNat_le, toNat_ticks h, toNat_capacity hb.admitted,
    ← hb.capacity_eq] at hlong
  have hrate := Nat.le_mul_of_pos_right (b.elapsed now) hb.admitted.1
  omega

/-- Without a shortcut the product is less than what is missing. -/
theorem toNat_gained (h : ¬ now ≤ b.lastRefill)
    (hshort : b.units.toNat + b.elapsed now * b.config.requestsPerSecond.toNat
      < b.capacity.toNat) :
    (now.toUInt64 - b.lastRefill.toUInt64).toNat * b.config.requestsPerSecond.toUInt64.toNat
        = b.elapsed now * b.config.requestsPerSecond.toNat
      ∧ ((now.toUInt64 - b.lastRefill.toUInt64) * b.config.requestsPerSecond.toUInt64).toNat
        = b.elapsed now * b.config.requestsPerSecond.toNat := by
  have hcap := b.capacity.toNat_lt
  have hprod : (now.toUInt64 - b.lastRefill.toUInt64).toNat
      * b.config.requestsPerSecond.toUInt64.toNat
        = b.elapsed now * b.config.requestsPerSecond.toNat := by
    rw [toNat_ticks h, UInt32.toNat_toUInt64]
  refine ⟨hprod, ?_⟩
  rw [UInt64.toNat_mul, hprod, Nat.mod_eq_of_lt (by omega)]

theorem refill_long (h : ¬ now ≤ b.lastRefill)
    (hlong : now.toUInt64 - b.lastRefill.toUInt64 ≥ b.config.burst.toUInt64 * unitsPerToken) :
    b.refill now = { b with lastRefill := now, units := b.capacity } := by
  simp only [refill, h, hlong, if_true, if_false]

theorem refill_full (h : ¬ now ≤ b.lastRefill)
    (hlong : ¬ now.toUInt64 - b.lastRefill.toUInt64 ≥ b.config.burst.toUInt64 * unitsPerToken)
    (hfull : now.toUInt64 - b.lastRefill.toUInt64
      ≥ ceilDivide (b.capacity - b.units) b.config.requestsPerSecond.toUInt64) :
    b.refill now = { b with lastRefill := now, units := b.capacity } := by
  simp only [refill, h, hlong, hfull, if_true, if_false]

theorem refill_short (h : ¬ now ≤ b.lastRefill)
    (hlong : ¬ now.toUInt64 - b.lastRefill.toUInt64 ≥ b.config.burst.toUInt64 * unitsPerToken)
    (hfull : ¬ now.toUInt64 - b.lastRefill.toUInt64
      ≥ ceilDivide (b.capacity - b.units) b.config.requestsPerSecond.toUInt64) :
    b.refill now = { b with
      lastRefill := now
      units := b.units + (now.toUInt64 - b.lastRefill.toUInt64)
        * b.config.requestsPerSecond.toUInt64 } := by
  simp only [refill, h, hlong, hfull, if_false]

/-- Every way through a refill, with the exact reason for taking it. -/
theorem refill_cases (hb : b.Sound) (now : TimePoint) :
    (now ≤ b.lastRefill ∧ b.refill now = b)
      ∨ (¬ now ≤ b.lastRefill
          ∧ b.capacity.toNat
              ≤ b.units.toNat + b.elapsed now * b.config.requestsPerSecond.toNat
          ∧ b.refill now = { b with lastRefill := now, units := b.capacity })
      ∨ (¬ now ≤ b.lastRefill
          ∧ b.units.toNat + b.elapsed now * b.config.requestsPerSecond.toNat < b.capacity.toNat
          ∧ b.refill now = { b with
              lastRefill := now
              units := b.units + (now.toUInt64 - b.lastRefill.toUInt64)
                * b.config.requestsPerSecond.toUInt64 }) := by
  by_cases h : now ≤ b.lastRefill
  · exact .inl ⟨h, refill_early h⟩
  · by_cases hlong : now.toUInt64 - b.lastRefill.toUInt64
        ≥ b.config.burst.toUInt64 * unitsPerToken
    · exact .inr (.inl ⟨h, capacity_le_of_ticks hb h hlong, refill_long h hlong⟩)
    · by_cases hfull : now.toUInt64 - b.lastRefill.toUInt64
          ≥ ceilDivide (b.capacity - b.units) b.config.requestsPerSecond.toUInt64
      · exact .inr (.inl ⟨h, (ceilDivide_le_ticks hb h).mp hfull, refill_full h hlong hfull⟩)
      · exact .inr (.inr ⟨h, Nat.lt_of_not_le fun hge =>
          hfull ((ceilDivide_le_ticks hb h).mpr hge), refill_short h hlong hfull⟩)

/-- A refill adds what the time is worth, up to the capacity. -/
theorem refill_units (hb : b.Sound) (now : TimePoint) :
    (b.refill now).units.toNat = b.refillUnits now := by
  have hle := hb.units_le
  have hcap := b.capacity.toNat_lt
  unfold refillUnits
  rcases refill_cases hb now with ⟨hearly, heq⟩ | ⟨-, hfull, heq⟩ | ⟨hlate, hshort, heq⟩
  · rw [heq, elapsed_early hearly]
    omega
  · rw [heq]
    dsimp only
    omega
  · rw [heq]
    dsimp only
    rw [UInt64.toNat_add, (toNat_gained hlate hshort).2]
    omega

theorem refill_frame (now : TimePoint) :
    (b.refill now).config = b.config ∧ (b.refill now).capacity = b.capacity
      ∧ (b.refill now).lastRefill.toInt = max b.lastRefill.toInt now.toInt := by
  by_cases h : now ≤ b.lastRefill
  · have hle := Int64.le_iff_toInt_le.mp h
    rw [refill_early h]
    exact ⟨rfl, rfl, by omega⟩
  · have hlt := Int64.lt_iff_toInt_lt.mp (Int64.not_le.mp h)
    simp only [refill, h, if_false]
    split
    · exact ⟨rfl, rfl, by dsimp only; omega⟩
    · split
      · exact ⟨rfl, rfl, by dsimp only; omega⟩
      · exact ⟨rfl, rfl, by dsimp only; omega⟩

theorem refill_sound (hb : b.Sound) (now : TimePoint) : (b.refill now).Sound := by
  obtain ⟨hconfig, hcapacity, -⟩ := b.refill_frame now
  refine ⟨?_, ?_, ?_⟩
  · rw [hconfig]
    exact hb.admitted
  · rw [hconfig, hcapacity]
    exact hb.capacity_eq
  · rw [refill_units hb, hcapacity]
    exact Nat.min_le_left _ _

/-- The checked refill step by step, for any values the checked operations may have. -/
theorem refillChecked_steps (h : ¬ now ≤ b.lastRefill) {seconds missing wait : UInt64}
    (hseconds : Rate.checkedMul b.config.burst.toUInt64 unitsPerToken = some seconds)
    (hmissing : Rate.checkedSub b.capacity b.units = some missing)
    (hwait : Rate.checkedCeilDiv missing b.config.requestsPerSecond.toUInt64 = some wait) :
    b.refillChecked now =
      if now.toUInt64 - b.lastRefill.toUInt64 ≥ seconds then
        some { b with lastRefill := now, units := b.capacity }
      else if now.toUInt64 - b.lastRefill.toUInt64 ≥ wait then
        some { b with lastRefill := now, units := b.capacity }
      else
        (Rate.checkedMul (now.toUInt64 - b.lastRefill.toUInt64)
          b.config.requestsPerSecond.toUInt64).bind fun gained =>
        (Rate.checkedAdd b.units gained).bind fun units =>
        some { b with lastRefill := now, units } := by
  simp only [refillChecked, h, if_false, hseconds, hmissing, hwait, Option.bind_eq_bind,
    Option.bind_some]

theorem refillChecked_eq (hb : b.Sound) (now : TimePoint) :
    b.refillChecked now = some (b.refill now) := by
  have hcap := b.capacity.toNat_lt
  by_cases h : now ≤ b.lastRefill
  · rw [refill_early h, refillChecked, if_pos h]
  · have hwait : Rate.checkedCeilDiv (b.capacity - b.units) b.config.requestsPerSecond.toUInt64
        = some (ceilDivide (b.capacity - b.units) b.config.requestsPerSecond.toUInt64) :=
      Rate.checkedCeilDiv_eq _ _ (rate_pos hb)
    rw [refillChecked_steps h (Rate.checkedMul_eq (burst_fits hb.admitted))
      (Rate.checkedSub_eq hb.units_le) hwait]
    by_cases hlong : now.toUInt64 - b.lastRefill.toUInt64
        ≥ b.config.burst.toUInt64 * unitsPerToken
    · rw [if_pos hlong, refill_long h hlong]
    · rw [if_neg hlong]
      by_cases hfull : now.toUInt64 - b.lastRefill.toUInt64
          ≥ ceilDivide (b.capacity - b.units) b.config.requestsPerSecond.toUInt64
      · rw [if_pos hfull, refill_full h hlong hfull]
      · have hshort := Nat.lt_of_not_le fun hge => hfull ((ceilDivide_le_ticks hb h).mpr hge)
        obtain ⟨hprod, hgained⟩ := toNat_gained h hshort
        have hmul : (now.toUInt64 - b.lastRefill.toUInt64).toNat
            * b.config.requestsPerSecond.toUInt64.toNat < 2 ^ 64 := by
          rw [hprod]
          omega
        have hadd : b.units.toNat + ((now.toUInt64 - b.lastRefill.toUInt64)
            * b.config.requestsPerSecond.toUInt64).toNat < 2 ^ 64 := by
          rw [hgained]
          omega
        rw [if_neg hfull, Rate.checkedMul_eq hmul, Option.bind_some, Rate.checkedAdd_eq hadd,
          Option.bind_some, refill_short h hlong hfull]

end Refill

/-! ## One attempt -/

section Attempt

variable {b : TokenBucket}

theorem units_ge_iff (b : TokenBucket) : b.units ≥ unitsPerToken ↔ 1000000000 ≤ b.units.toNat := by
  rw [ge_iff_le, UInt64.le_iff_toNat_le, toNat_unitsPerToken]

/-- An attempt takes one token of what the refill leaves, if there is one. -/
theorem tryAcquire_cases (hb : b.Sound) (now : TimePoint) :
    (1000000000 ≤ b.refillUnits now
      ∧ (b.tryAcquire now).1.allowed = true
      ∧ (b.tryAcquire now).2.units.toNat = b.refillUnits now - 1000000000)
    ∨ (b.refillUnits now < 1000000000
      ∧ (b.tryAcquire now).1.allowed = false
      ∧ (b.tryAcquire now).2.units.toNat = b.refillUnits now) := by
  have hunits := refill_units hb now
  by_cases h : (b.refill now).units ≥ unitsPerToken
  · have hge := (units_ge_iff _).mp h
    left
    simp only [tryAcquire, h, if_true]
    rw [UInt64.toNat_sub_of_le _ _ h, toNat_unitsPerToken]
    exact ⟨by omega, trivial, by omega⟩
  · have hlt : ¬ 1000000000 ≤ (b.refill now).units.toNat := fun hge => h ((units_ge_iff _).mpr hge)
    right
    simp only [tryAcquire, h, if_false]
    exact ⟨by omega, trivial, by omega⟩

theorem tryAcquire_frame (now : TimePoint) :
    (b.tryAcquire now).2.config = b.config ∧ (b.tryAcquire now).2.capacity = b.capacity
      ∧ (b.tryAcquire now).2.lastRefill.toInt = max b.lastRefill.toInt now.toInt := by
  have hframe := b.refill_frame now
  unfold tryAcquire
  dsimp only
  split
  · exact hframe
  · exact hframe

theorem tryAcquire_sound (hb : b.Sound) (now : TimePoint) : (b.tryAcquire now).2.Sound := by
  obtain ⟨hconfig, hcapacity, -⟩ := b.tryAcquire_frame now
  have hle : b.refillUnits now ≤ b.capacity.toNat := Nat.min_le_left _ _
  refine ⟨?_, ?_, ?_⟩
  · rw [hconfig]
    exact hb.admitted
  · rw [hconfig, hcapacity]
    exact hb.capacity_eq
  · rw [hcapacity]
    rcases tryAcquire_cases hb now with ⟨-, -, hunits⟩ | ⟨-, -, hunits⟩
    · omega
    · omega

/-- The wait for one token is at most a second at any rate. -/
theorem toNat_wait_le (hb : b.Sound) :
    (ceilDivide (unitsPerToken - b.units) b.config.requestsPerSecond.toUInt64).toNat
      ≤ (unitsPerToken - b.units).toNat := by
  rw [ceilDivide, Rate.toNat_ceilDiv _ _ (rate_pos hb), ceilDiv_le_iff_le_mul (rate_pos hb)]
  exact Nat.le_mul_of_pos_left _ (rate_pos hb)

theorem toNat_retryAfter_le (hb : b.Sound) (h : b.units.toNat ≤ unitsPerToken.toNat) :
    (ceilDivide (ceilDivide (unitsPerToken - b.units) b.config.requestsPerSecond.toUInt64)
      unitsPerToken).toNat ≤ 1 := by
  have hwait := toNat_wait_le hb
  rw [UInt64.toNat_sub_of_le _ _ (UInt64.le_iff_toNat_le.mpr h)] at hwait
  have hpos : 0 < unitsPerToken.toNat := by decide
  rw [ceilDivide, Rate.toNat_ceilDiv _ _ hpos, ceilDiv_le_iff_le_mul hpos]
  omega

theorem tryAcquireChecked_eq (hb : b.Sound) (now : TimePoint) :
    b.tryAcquireChecked now = some (b.tryAcquire now) := by
  have hsound := refill_sound hb now
  rw [tryAcquireChecked, refillChecked_eq hb now, Option.bind_eq_bind, Option.bind_some, tryAcquire]
  generalize b.refill now = b at hsound
  by_cases h : b.units ≥ unitsPerToken
  · rw [if_pos h, if_pos h, Rate.checkedSub_eq (UInt64.le_iff_toNat_le.mp h)]
    rfl
  · have hle : b.units.toNat ≤ unitsPerToken.toNat :=
      Nat.le_of_lt (Nat.lt_of_not_le fun hge => h (UInt64.le_iff_toNat_le.mpr hge))
    have hwait := Rate.checkedCeilDiv_eq (unitsPerToken - b.units) _ (rate_pos hsound)
    have hseconds := Rate.checkedCeilDiv_eq
      (ceilDivide (unitsPerToken - b.units) b.config.requestsPerSecond.toUInt64) unitsPerToken
      (by decide)
    have hnarrow := Rate.checkedNarrow_eq
      (lt_of_le_of_lt (toNat_retryAfter_le hsound hle) (by decide))
    rw [if_neg h, if_neg h, Rate.checkedSub_eq hle, Option.bind_eq_bind, Option.bind_some, hwait,
      Option.bind_some, ← ceilDivide, hseconds, Option.bind_some, ← ceilDivide, hnarrow]
    rfl

/-! ## The ideal bucket -/

/-- A reading of the clock in seconds. -/
def seconds (t : TimePoint) : ℚ := (t.toInt : ℚ) / 1000000000

/-- The content in tokens. -/
def ideal (b : TokenBucket) : Rate.Bucket ℚ :=
  ⟨(b.units.toNat : ℚ) / 1000000000, seconds b.lastRefill⟩

def idealRate (config : RateLimitConfig) : ℚ := config.requestsPerSecond.toNat

def idealBurst (config : RateLimitConfig) : ℚ := config.burst.toNat

theorem max_elapsed (now : TimePoint) :
    max 0 (seconds now - seconds b.lastRefill) = (b.elapsed now : ℚ) / 1000000000 := by
  unfold seconds elapsed
  rcases le_total now.toInt b.lastRefill.toInt with h | h
  · rw [Int.toNat_of_nonpos (by omega), max_eq_left]
    · simp
    · rw [← sub_div]
      exact div_nonpos_of_nonpos_of_nonneg (by exact_mod_cast sub_nonpos.mpr h) (by norm_num)
  · have hcast : (((now.toInt - b.lastRefill.toInt).toNat : Int) : ℚ)
        = ((now.toInt - b.lastRefill.toInt : Int) : ℚ) := by
      rw [Int.toNat_of_nonneg (by omega)]
    rw [max_eq_right]
    · rw [← sub_div]
      push_cast at hcast
      rw [hcast]
    · rw [← sub_div]
      exact div_nonneg (by exact_mod_cast sub_nonneg.mpr h) (by norm_num)

theorem ideal_gain (hb : b.Sound) (now : TimePoint) :
    b.ideal.gain (idealRate b.config) (idealBurst b.config) (seconds now)
      = ⟨(b.refillUnits now : ℚ) / 1000000000, max (seconds b.lastRefill) (seconds now)⟩ := by
  have hcap : (b.capacity.toNat : ℚ) = b.config.burst.toNat * 1000000000 := by
    exact_mod_cast hb.capacity_eq
  have hunits : (b.refillUnits now : ℚ) = min (b.capacity.toNat : ℚ)
      (b.units.toNat + b.elapsed now * b.config.requestsPerSecond.toNat) := by
    unfold refillUnits
    push_cast
    rfl
  unfold Rate.Bucket.gain
  simp only [ideal, max_elapsed, hunits, idealRate, idealBurst]
  rw [← min_div_div_right (by norm_num), hcap]
  congr 2
  · field_simp
  · ring

/-- One attempt on the code's bucket is one attempt on the ideal one. -/
theorem ideal_tryAcquire (hb : b.Sound) (now : TimePoint) :
    b.ideal.attempt (idealRate b.config) (idealBurst b.config) (seconds now)
      = ((b.tryAcquire now).1.allowed, (b.tryAcquire now).2.ideal) := by
  obtain ⟨-, -, hlast⟩ := b.tryAcquire_frame now
  have hclock : seconds (b.tryAcquire now).2.lastRefill
      = max (seconds b.lastRefill) (seconds now) := by
    unfold seconds
    rw [hlast, max_div_div_right (by norm_num), Int.cast_max]
  have hone : 1 ≤ (b.refillUnits now : ℚ) / 1000000000 ↔ 1000000000 ≤ b.refillUnits now := by
    rw [le_div_iff₀ (by norm_num), one_mul]
    exact_mod_cast Iff.rfl
  unfold Rate.Bucket.attempt
  rw [ideal_gain hb]
  dsimp only
  rcases tryAcquire_cases hb now with ⟨hge, hallowed, hunits⟩ | ⟨hlt, hallowed, hunits⟩
  · rw [if_pos (hone.mpr hge), hallowed, ideal, hunits, hclock, Nat.cast_sub hge, sub_div]
    norm_num
  · rw [if_neg fun h => absurd (hone.mp h) (by omega), hallowed, ideal, hunits, hclock]

end Attempt

/-! ## Every sequence of attempts -/

theorem after_sound (times : List TimePoint) :
    ∀ {b : TokenBucket}, b.Sound → (b.after times).Sound := by
  induction times with
  | nil => intro b hb; exact hb
  | cons now rest ih =>
      intro b hb
      exact ih (tryAcquire_sound hb now)

theorem after_frame (times : List TimePoint) : ∀ b : TokenBucket,
    (b.after times).config = b.config ∧ (b.after times).capacity = b.capacity := by
  induction times with
  | nil => intro b; exact ⟨rfl, rfl⟩
  | cons now rest ih =>
      intro b
      obtain ⟨hconfig, hcapacity, -⟩ := b.tryAcquire_frame now
      obtain ⟨hconfig', hcapacity'⟩ := ih (b.tryAcquire now).2
      exact ⟨hconfig'.trans hconfig, hcapacity'.trans hcapacity⟩

theorem after_units_le {b : TokenBucket} (hb : b.Sound) (times : List TimePoint)
    (now : TimePoint) :
    (b.after times).units ≤ b.capacity ∧ ((b.after times).refill now).units ≤ b.capacity := by
  have hafter := after_sound times hb
  obtain ⟨-, hcapacity⟩ := after_frame times b
  obtain ⟨-, hcapacity', -⟩ := (b.after times).refill_frame now
  refine ⟨?_, ?_⟩
  · rw [← hcapacity]
    exact UInt64.le_iff_toNat_le.mpr hafter.units_le
  · rw [← hcapacity, ← hcapacity']
    exact UInt64.le_iff_toNat_le.mpr (refill_sound hafter now).units_le

/-- The decisions are those of the ideal bucket. -/
theorem ideal_decisions (times : List TimePoint) :
    ∀ {b : TokenBucket}, b.Sound →
      (b.decisions times).map RateLimitDecision.allowed
        = b.ideal.decisions (idealRate b.config) (idealBurst b.config) (times.map seconds) := by
  induction times with
  | nil => intro b _; rfl
  | cons now rest ih =>
      intro b hb
      obtain ⟨hconfig, -, -⟩ := b.tryAcquire_frame now
      rw [decisions, List.map_cons, List.map_cons, Rate.Bucket.decisions, ideal_tryAcquire hb now,
        ih (tryAcquire_sound hb now), hconfig]

theorem seconds_le {s t : TimePoint} (h : s ≤ t) : seconds s ≤ seconds t := by
  have hle : (s.toInt : ℚ) ≤ t.toInt := by exact_mod_cast Int64.le_iff_toInt_le.mp h
  exact div_le_div_of_nonneg_right hle (by norm_num)

theorem count_allowed_eq (b : TokenBucket) (times : List TimePoint) :
    (b.decisions times).countP RateLimitDecision.allowed
      = ((b.decisions times).map RateLimitDecision.allowed).count true := by
  rw [List.count, List.countP_map]
  congr 1
  funext d
  simp

/-- Attempts that begin at `now` and are over by `t`. -/
theorem count_allowed_le {b : TokenBucket} (hb : b.Sound) {now t : TimePoint}
    {rest : List TimePoint} (hfirst : now ≤ t) (hrest : ∀ u ∈ rest, u ≤ t) :
    (b.decisions (now :: rest)).countP RateLimitDecision.allowed
      ≤ b.config.burst.toNat
        + b.config.requestsPerSecond.toNat * (t.toInt - now.toInt).toNat / 1000000000 := by
  have hbound : ((b.ideal.decisions (idealRate b.config) (idealBurst b.config)
      ((now :: rest).map seconds)).count true : ℚ)
        ≤ idealBurst b.config + idealRate b.config * (seconds t - seconds now) :=
    Rate.Bucket.count_decisions_le (Nat.cast_nonneg _) (Nat.cast_nonneg _)
      (div_nonneg (Nat.cast_nonneg _) (by norm_num)) (seconds_le hfirst)
      (by simpa using fun u hu => seconds_le (hrest u hu))
  rw [← ideal_decisions _ hb, ← count_allowed_eq] at hbound
  generalize (b.decisions (now :: rest)).countP RateLimitDecision.allowed = count at hbound ⊢
  have hspan : seconds t - seconds now = ((t.toInt - now.toInt).toNat : ℚ) / 1000000000 := by
    have hle := Int64.le_iff_toInt_le.mp hfirst
    have hcast : (((t.toInt - now.toInt).toNat : Int) : ℚ) = ((t.toInt - now.toInt : Int) : ℚ) := by
      rw [Int.toNat_of_nonneg (by omega)]
    unfold seconds
    push_cast at hcast
    rw [← sub_div, hcast]
  have hscaled : count * 1000000000 ≤ b.config.burst.toNat * 1000000000
      + b.config.requestsPerSecond.toNat * (t.toInt - now.toInt).toNat := by
    rw [hspan, idealBurst, idealRate, ← mul_div_assoc, ← sub_le_iff_le_add',
      le_div_iff₀ (by norm_num)] at hbound
    have : (count : ℚ) * 1000000000 ≤ b.config.burst.toNat * 1000000000
        + b.config.requestsPerSecond.toNat * (t.toInt - now.toInt).toNat := by linarith
    exact_mod_cast this
  omega

/-- A bucket that the constructor makes. -/
theorem make_sound {config : RateLimitConfig} (h : Admitted config) (now : TimePoint) :
    (TokenBucket.mk config (config.burst.toUInt64 * unitsPerToken)
      (config.burst.toUInt64 * unitsPerToken) now).Sound :=
  ⟨h, toNat_capacity h, le_rfl⟩

theorem make_ideal {config : RateLimitConfig} (h : Admitted config) (now : TimePoint) :
    (TokenBucket.mk config (config.burst.toUInt64 * unitsPerToken)
      (config.burst.toUInt64 * unitsPerToken) now).ideal
      = Rate.Bucket.full (idealBurst config) (seconds now) := by
  unfold ideal Rate.Bucket.full idealBurst
  rw [toNat_capacity h]
  congr 1
  push_cast
  field_simp

/-- Every stretch of attempts of a sorted sequence. -/
theorem count_window_le {b : TokenBucket} (hb : b.Sound) {times : List TimePoint}
    (hsorted : times.Pairwise (· ≤ ·)) {i j : Nat} (hij : i ≤ j) (hj : j < times.length) :
    (((b.decisions times).drop i).take (j + 1 - i)).countP RateLimitDecision.allowed
      ≤ b.config.burst.toNat + b.config.requestsPerSecond.toNat
        * (times[j].toInt - times[i].toInt).toNat / 1000000000 := by
  have hi : i < times.length := Nat.lt_of_le_of_lt hij hj
  have hdrop : (times.drop i).take (j + 1 - i)
      = times[i] :: (times.drop (i + 1)).take (j - i) := by
    rw [List.drop_eq_getElem_cons hi, show j + 1 - i = (j - i) + 1 by omega, List.take_succ_cons]
  have hle : ∀ k, i ≤ k → k ≤ j → (hk : k < times.length) → times[k] ≤ times[j] := by
    intro k _ hkj hk
    rcases Nat.lt_or_eq_of_le hkj with hlt | rfl
    · exact List.pairwise_iff_getElem.mp hsorted k j hk hj hlt
    · exact Int64.le_refl _
  rw [decisions_drop, decisions_take, hdrop, ← (after_frame (times.take i) b).1]
  refine count_allowed_le (after_sound _ hb) (hle i le_rfl hij hi) ?_
  intro u hu
  obtain ⟨k, hk, rfl⟩ := List.getElem_of_mem hu
  rw [List.getElem_take, List.getElem_drop]
  rw [List.length_take, List.length_drop] at hk
  exact hle (i + 1 + k) (by omega) (by omega) (by omega)

/-- The bucket of an admitted limit decides as the ideal bucket does at every attempt, its content
stays within its capacity, no operation wraps but the difference of the clock readings, a stretch
of attempts in order of time is admitted no more often than the burst and the rate allow, and an
early reading of the clock changes nothing. -/
theorem refines_exact_bucket (config : RateLimitConfig) (h : Admitted config) (start : TimePoint)
    (times : List TimePoint) (hsorted : times.Pairwise (· ≤ ·)) :
    ∃ b, make config start = .ok b ∧ makeChecked config start = some (.ok b)
      ∧ (b.decisions times).map RateLimitDecision.allowed
        = (Rate.Bucket.full (idealBurst config) (seconds start)).decisions (idealRate config)
          (idealBurst config) (times.map seconds)
      ∧ (∀ n now, (b.after (times.take n)).units ≤ b.capacity
          ∧ ((b.after (times.take n)).refill now).units ≤ b.capacity)
      ∧ (∀ n now, (b.after (times.take n)).tryAcquireChecked now
          = some ((b.after (times.take n)).tryAcquire now))
      ∧ (∀ i j, (hij : i ≤ j) → (hj : j < times.length) →
          (((b.decisions times).drop i).take (j + 1 - i)).countP RateLimitDecision.allowed
            ≤ config.burst.toNat + config.requestsPerSecond.toNat
              * (times[j].toInt - times[i].toInt).toNat / 1000000000)
      ∧ (∀ n now, now ≤ (b.after (times.take n)).lastRefill →
          (b.after (times.take n)).refill now = b.after (times.take n)) := by
  have hmake := make_eq h start
  have hsound := make_sound h start
  refine ⟨_, hmake, ?_, ?_, ?_, ?_, ?_, ?_⟩
  · rw [makeChecked_eq h, hmake]
  · rw [ideal_decisions times hsound, make_ideal h]
  · intro n now
    exact after_units_le hsound (times.take n) now
  · intro n now
    exact tryAcquireChecked_eq (after_sound _ hsound) now
  · intro i j hij hj
    exact count_window_le hsound hsorted hij hj
  · intro n now hle
    exact refill_early hle

theorem refines_exact_bucket_two_per_second :
    ∃ b, make ⟨2, 1⟩ 0 = .ok b
      ∧ (((b.decisions [0, 0, 500000000]).drop 1).take 2).countP RateLimitDecision.allowed ≤ 2 := by
  have hadmitted : Admitted ⟨2, 1⟩ := ⟨by decide, by decide, by decide, by decide⟩
  obtain ⟨b, hmake, -, -, -, -, hwindow, -⟩ := refines_exact_bucket ⟨2, 1⟩ hadmitted 0
    [0, 0, 500000000] (by decide)
  exact ⟨b, hmake, (hwindow 1 2 (by decide) (by decide)).trans (by decide)⟩

end TokenBucket

end ApiGate
