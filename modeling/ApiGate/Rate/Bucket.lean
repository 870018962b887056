import Mathlib.Algebra.Order.Field.Basic
import Mathlib.Algebra.Order.Group.MinMax
import Mathlib.Tactic.Linarith

/-!
# The ideal token bucket

A bucket that holds at most `capacity` tokens and gains `rate` of them in each
unit of time, continuously and exactly, over any linearly ordered field. An
attempt first gains what the time since the last one is worth and then takes one
token if there is one.

What is proved is the law of such a bucket: tokens taken never exceed tokens
there were plus tokens gained (`taken_add_level_le`), so that any stretch of
attempts admits at most `capacity` plus `rate` times the length of the stretch
(`count_decisions_le`); and an attempt is admitted exactly when the wait for a
token is over (`attempt_iff_wait_le`).
-/

namespace Rate

/-- The tokens in the bucket at the time `last`. -/
@[ext] structure Bucket (K : Type*) where
  level : K
  last : K

namespace Bucket

section Defs

variable {K : Type*} [Field K] [LinearOrder K]

/-- A bucket that is full at the time `now`. -/
def full (capacity now : K) : Bucket K := ⟨capacity, now⟩

/-- A time before `last` gains nothing and moves nothing. -/
def gain (rate capacity : K) (b : Bucket K) (now : K) : Bucket K :=
  ⟨min capacity (b.level + rate * max 0 (now - b.last)), max b.last now⟩

def attempt (rate capacity : K) (b : Bucket K) (now : K) : Bool × Bucket K :=
  let b := b.gain rate capacity now
  if 1 ≤ b.level then (true, { b with level := b.level - 1 }) else (false, b)

/-- How long after `last` there is a token. -/
def wait (rate : K) (b : Bucket K) : K := (1 - b.level) / rate

def after (rate capacity : K) (b : Bucket K) (times : List K) : Bucket K :=
  times.foldl (fun b now => (b.attempt rate capacity now).2) b

def decisions (rate capacity : K) : Bucket K → List K → List Bool
  | _, [] => []
  | b, now :: rest =>
      (b.attempt rate capacity now).1 :: decisions rate capacity (b.attempt rate capacity now).2 rest

end Defs

section Law

variable {K : Type*} [Field K] [LinearOrder K]

/-- The tokens taken by one attempt. -/
def taken (d : Bool) : K := if d then 1 else 0

theorem attempt_level_eq (rate capacity : K) (b : Bucket K) (now : K) :
    taken (b.attempt rate capacity now).1 + (b.attempt rate capacity now).2.level
      = (b.gain rate capacity now).level := by
  unfold attempt taken
  by_cases h : 1 ≤ (b.gain rate capacity now).level
  · simp [h]
  · simp [h]

theorem attempt_last (rate capacity : K) (b : Bucket K) (now : K) :
    (b.attempt rate capacity now).2.last = max b.last now := by
  dsimp only [attempt]
  split
  · rfl
  · rfl

theorem decisions_count (rate capacity : K) (b : Bucket K) (now : K) (rest : List K) :
    ((b.decisions rate capacity (now :: rest)).count true : K)
      = taken (b.attempt rate capacity now).1
        + (((b.attempt rate capacity now).2.decisions rate capacity rest).count true : K) := by
  unfold taken
  rw [decisions, List.count_cons]
  cases (b.attempt rate capacity now).1
  · simp
  · simp [add_comm]

/-- The clock of the bucket is never ahead of both its start and the last attempt. -/
theorem after_last_le (rate capacity : K) (times : List K) (t : K) (h : ∀ now ∈ times, now ≤ t) :
    ∀ b : Bucket K, (b.after rate capacity times).last ≤ max b.last t := by
  induction times with
  | nil => intro b; exact le_max_left _ _
  | cons now rest ih =>
      intro b
      have hrest := ih (fun u hu => h u (List.mem_cons_of_mem _ hu))
        (b.attempt rate capacity now).2
      rw [attempt_last] at hrest
      refine hrest.trans (max_le (max_le (le_max_left _ _) ?_) (le_max_right _ _))
      exact (h now (List.mem_cons_self ..)).trans (le_max_right _ _)

variable [IsStrictOrderedRing K] {rate capacity : K}

theorem attempt_iff_wait_le (hrate : 0 < rate) (hcap : 1 ≤ capacity) {b : Bucket K} {now : K}
    (h : b.last ≤ now) :
    (b.attempt rate capacity now).1 = true ↔ b.wait rate ≤ now - b.last := by
  have hmax : max 0 (now - b.last) = now - b.last := max_eq_right (sub_nonneg.mpr h)
  have hlevel : 1 ≤ (b.gain rate capacity now).level ↔ b.wait rate ≤ now - b.last := by
    unfold gain wait
    rw [hmax, le_min_iff, and_iff_right hcap, div_le_iff₀ hrate, sub_le_iff_le_add', mul_comm]
  rw [← hlevel]
  unfold attempt
  dsimp only
  split
  · rename_i hone
    exact iff_of_true rfl hone
  · rename_i hone
    exact iff_of_false Bool.false_ne_true hone

theorem attempt_level_nonneg (hrate : 0 ≤ rate) (hcap : 0 ≤ capacity) {b : Bucket K}
    (h : 0 ≤ b.level) (now : K) : 0 ≤ (b.attempt rate capacity now).2.level := by
  have hgain : 0 ≤ rate * max 0 (now - b.last) := mul_nonneg hrate (le_max_left _ _)
  unfold attempt
  by_cases hone : 1 ≤ (b.gain rate capacity now).level
  · simp only [hone, if_true]
    linarith
  · simp only [hone, if_false]
    exact le_min hcap (add_nonneg h hgain)

theorem after_level_nonneg (hrate : 0 ≤ rate) (hcap : 0 ≤ capacity) (times : List K) :
    ∀ {b : Bucket K}, 0 ≤ b.level → 0 ≤ (b.after rate capacity times).level := by
  induction times with
  | nil => intro b h; exact h
  | cons now rest ih =>
      intro b h
      exact ih (attempt_level_nonneg hrate hcap h now)

/-- What the clock moved by is what the bucket can have gained. -/
theorem gain_level_le (rate capacity : K) (b : Bucket K) (now : K) :
    (b.gain rate capacity now).level ≤ b.level + rate * (max b.last now - b.last) := by
  have hmax : max b.last now - b.last = max 0 (now - b.last) := by
    rw [← max_sub_sub_right, sub_self]
  rw [hmax]
  exact min_le_right _ _

/-- Tokens are taken out of what was there and what was gained. -/
theorem taken_add_level_le (rate capacity : K) (times : List K) : ∀ b : Bucket K,
    ((b.decisions rate capacity times).count true : K) + (b.after rate capacity times).level
      ≤ b.level + rate * ((b.after rate capacity times).last - b.last) := by
  induction times with
  | nil => intro b; simp [decisions, after]
  | cons now rest ih =>
      intro b
      have hrest := ih (b.attempt rate capacity now).2
      have hlevel := attempt_level_eq rate capacity b now
      have hgain := gain_level_le rate capacity b now
      have hafter : b.after rate capacity (now :: rest)
          = (b.attempt rate capacity now).2.after rate capacity rest := rfl
      rw [attempt_last] at hrest
      rw [decisions_count, hafter]
      linarith

/-- Attempts that begin at `now` and are over by `t` are admitted at most `capacity` times, and
`rate` times for each unit of time between. -/
theorem count_decisions_le (hrate : 0 ≤ rate) (hcap : 0 ≤ capacity) {b : Bucket K}
    (hlevel : 0 ≤ b.level) {now t : K} {rest : List K} (hfirst : now ≤ t)
    (hrest : ∀ u ∈ rest, u ≤ t) :
    ((b.decisions rate capacity (now :: rest)).count true : K) ≤ capacity + rate * (t - now) := by
  have hsum := taken_add_level_le rate capacity rest (b.attempt rate capacity now).2
  have hone := attempt_level_eq rate capacity b now
  have hfull : (b.gain rate capacity now).level ≤ capacity := min_le_left _ _
  have hend := after_level_nonneg hrate hcap rest (attempt_level_nonneg hrate hcap hlevel now)
  have hlast := after_last_le rate capacity rest t hrest (b.attempt rate capacity now).2
  rw [attempt_last] at hsum hlast
  have hspan : max (max b.last now) t - max b.last now ≤ t - now := by
    rcases le_total (max b.last now) t with h | h
    · rw [max_eq_right h]
      exact sub_le_sub_left (le_max_right _ _) t
    · rw [max_eq_left h, sub_self]
      exact sub_nonneg.mpr hfirst
  have hgain : rate * (((b.attempt rate capacity now).2.after rate capacity rest).last
      - max b.last now) ≤ rate * (t - now) :=
    mul_le_mul_of_nonneg_left ((sub_le_sub_right hlast _).trans hspan) hrate
  rw [decisions_count]
  linarith

end Law

end Bucket

end Rate
