import Mathlib.Algebra.Order.Floor.Div

/-!
# Machine arithmetic that notices wrapping

The operations on 64-bit numbers, with no result where the exact result does
not fit. A computation written with them and the same computation written with
the plain operations agree exactly when nothing wraps.
-/

namespace Rate

def checkedAdd (a b : UInt64) : Option UInt64 :=
  if a.toNat + b.toNat < 2 ^ 64 then some (a + b) else none

def checkedSub (a b : UInt64) : Option UInt64 :=
  if b.toNat ≤ a.toNat then some (a - b) else none

def checkedMul (a b : UInt64) : Option UInt64 :=
  if a.toNat * b.toNat < 2 ^ 64 then some (a * b) else none

/-- The quotient rounded up; the divisor must not be zero. -/
def checkedCeilDiv (a b : UInt64) : Option UInt64 :=
  if b = 0 then none else checkedAdd (a / b) (if a % b ≠ 0 then 1 else 0)

def checkedNarrow (a : UInt64) : Option UInt32 :=
  if a.toNat < 2 ^ 32 then some a.toUInt32 else none

theorem checkedAdd_eq {a b : UInt64} (h : a.toNat + b.toNat < 2 ^ 64) :
    checkedAdd a b = some (a + b) := if_pos h

theorem checkedSub_eq {a b : UInt64} (h : b.toNat ≤ a.toNat) :
    checkedSub a b = some (a - b) := if_pos h

theorem checkedMul_eq {a b : UInt64} (h : a.toNat * b.toNat < 2 ^ 64) :
    checkedMul a b = some (a * b) := if_pos h

theorem checkedNarrow_eq {a : UInt64} (h : a.toNat < 2 ^ 32) :
    checkedNarrow a = some a.toUInt32 := if_pos h

theorem mod_eq_zero_iff (a b : UInt64) : a % b = 0 ↔ a.toNat % b.toNat = 0 := by
  rw [← UInt64.toNat_inj, UInt64.toNat_mod, UInt64.toNat_zero]

/-- The one that is added for a remainder always fits: a remainder means that the divisor is at
least two. -/
theorem ceilDiv_fits (a b : UInt64) (hb : 0 < b.toNat) :
    (a / b).toNat + (if a % b ≠ 0 then (1 : UInt64) else 0).toNat < 2 ^ 64 := by
  have ha := a.toNat_lt
  rw [UInt64.toNat_div]
  by_cases h : a % b = 0
  · have hle := Nat.div_le_self a.toNat b.toNat
    simp only [h, ne_eq, not_true_eq_false, if_false, UInt64.toNat_zero]
    omega
  · have hrem : a.toNat % b.toNat ≠ 0 := fun hz => h ((mod_eq_zero_iff a b).mpr hz)
    have htwo : 2 ≤ b.toNat := by
      by_contra hlt
      have hone : b.toNat = 1 := by omega
      exact hrem (by rw [hone, Nat.mod_one])
    have hhalf : a.toNat / b.toNat ≤ a.toNat / 2 := Nat.div_le_div_left htwo (by decide)
    simp only [h, ne_eq, not_false_eq_true, if_true, UInt64.toNat_one]
    omega

theorem checkedCeilDiv_eq (a b : UInt64) (hb : 0 < b.toNat) :
    checkedCeilDiv a b = some (a / b + if a % b ≠ 0 then 1 else 0) := by
  have hne : b ≠ 0 := by
    rintro rfl
    exact absurd hb (by decide)
  rw [checkedCeilDiv, if_neg hne, checkedAdd_eq (ceilDiv_fits a b hb)]

theorem toNat_ceilDiv (a b : UInt64) (hb : 0 < b.toNat) :
    (a / b + if a % b ≠ 0 then 1 else 0).toNat = a.toNat ⌈/⌉ b.toNat := by
  have hfits := ceilDiv_fits a b hb
  have hsplit := Nat.div_add_mod a.toNat b.toNat
  have hmod := Nat.mod_lt a.toNat hb
  rw [UInt64.toNat_add, Nat.mod_eq_of_lt hfits, UInt64.toNat_div, Nat.ceilDiv_eq_add_pred_div]
  by_cases h : a % b = 0
  · have hrem := (mod_eq_zero_iff a b).mp h
    simp only [h, ne_eq, not_true_eq_false, if_false, UInt64.toNat_zero]
    symm
    apply Nat.div_eq_of_lt_le
    · rw [Nat.add_zero, Nat.mul_comm]
      omega
    · rw [Nat.add_zero, Nat.succ_mul, Nat.mul_comm]
      omega
  · have hrem : a.toNat % b.toNat ≠ 0 := fun hz => h ((mod_eq_zero_iff a b).mpr hz)
    simp only [h, ne_eq, not_false_eq_true, if_true, UInt64.toNat_one]
    symm
    apply Nat.div_eq_of_lt_le
    · rw [Nat.add_mul, Nat.mul_comm]
      omega
    · rw [Nat.succ_mul, Nat.add_mul, Nat.mul_comm]
      omega

/-- The difference of two clock readings, taken without sign. -/
theorem toNat_toUInt64_sub {a b : Int64} (h : a ≤ b) :
    ((b.toUInt64 - a.toUInt64).toNat : Int) = b.toInt - a.toInt := by
  have ha := a.le_toInt
  have ha' := a.toInt_lt
  have hb := b.le_toInt
  have hb' := b.toInt_lt
  have hle : a.toInt ≤ b.toInt := Int64.le_iff_toInt_le.mp h
  have ea : a.toInt = (a.toUInt64.toNat : Int).bmod (2 ^ 64) := BitVec.toInt_eq_toNat_bmod _
  have eb : b.toInt = (b.toUInt64.toNat : Int).bmod (2 ^ 64) := BitVec.toInt_eq_toNat_bmod _
  have la := a.toUInt64.toNat_lt
  have lb := b.toUInt64.toNat_lt
  rw [UInt64.toNat_sub]
  rw [Int.bmod_def] at ea eb
  split at ea <;> split at eb <;> omega

/-- A time and a span of time, as far as the clock goes. -/
theorem toInt_saturating {span : Int64} (h : 0 ≤ span.toInt) (now : Int64) :
    (if now > Int64.maxValue - span then Int64.maxValue else now + span).toInt
      = min (2 ^ 63 - 1) (now.toInt + span.toInt) := by
  have hlow := Int64.le_toInt now
  have hhigh := Int64.toInt_lt now
  have hspan := Int64.toInt_lt span
  have hmax : Int64.maxValue.toInt = 2 ^ 63 - 1 := by decide
  have hsub : (Int64.maxValue - span).toInt = 2 ^ 63 - 1 - span.toInt := by
    rw [Int64.toInt_sub, hmax, Int.bmod_eq_of_le (by omega) (by omega)]
  split
  · rename_i hgt
    have hlt := Int64.lt_iff_toInt_lt.mp hgt
    rw [hsub] at hlt
    rw [hmax]
    omega
  · rename_i hle
    have hle' := Int64.le_iff_toInt_le.mp (Int64.not_lt.mp hle)
    rw [hsub] at hle'
    rw [Int64.toInt_add, Int.bmod_eq_of_le (by omega) (by omega)]
    omega

end Rate
