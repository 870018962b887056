import ApiGate.Gateway

/-!
# Who holds the body budget

The permits of a running gateway lie in four kinds of places: with a session for the
response it writes, with an exchange for the body it reads and for its stream, and in
the cells that sessions and exchanges share. `Covered` says that all of them together,
and what a handler carries from one place to another, stay within the counter of the
budget; so giving a permit back or shrinking it always finds its bytes there.
-/

namespace ApiGate

open EventLoop Act

/-! ## A budget that covers its permits -/

section

variable {Place : Type} {c : BufferBudgetControl} {carried : Nat}
  {permit : Place → BufferBudgetPermit}

structure Covered (carried : Nat) (c : BufferBudgetControl) (permit : Place → BufferBudgetPermit) :
    Prop where
  room : c.currentBytes ≤ c.maxBytes
  within : Within BufferBudgetPermit.held c.currentBytes.toNat carried permit

theorem Covered.mono (h : Covered carried c permit) {carried' : Nat} (hle : carried' ≤ carried) :
    Covered carried' c permit :=
  ⟨h.room, h.within.mono (Nat.add_le_add_right hle _)⟩

/-- A permit is put where another one was, which is carried on. -/
theorem Covered.swap [DecidableEq Place] {p : BufferBudgetPermit}
    (h : Covered (carried + p.held) c permit) (place : Place) :
    Covered (carried + (permit place).held) c (Function.update permit place p) :=
  ⟨h.room, h.within.swap place p⟩

/-- The same where the other one is empty or forgotten. -/
theorem Covered.store [DecidableEq Place] {p : BufferBudgetPermit}
    (h : Covered (carried + p.held) c permit) (place : Place) :
    Covered carried c (Function.update permit place p) :=
  (h.swap place).mono (Nat.le_add_right ..)

theorem Covered.tryAcquire (h : Covered carried c permit) {bytes : UInt64}
    {p : BufferBudgetPermit} {c' : BufferBudgetControl}
    (hacquired : c.tryAcquire bytes = (some p, c')) :
    p = ⟨true, bytes⟩ ∧ Covered (carried + p.held) c' permit := by
  unfold BufferBudgetControl.tryAcquire at hacquired
  split at hacquired
  · cases hacquired
  · rename_i hfits
    cases hacquired
    have hroom := UInt64.le_iff_toNat_le.mp h.room
    have hfree := UInt64.toNat_sub_of_le _ _ h.room
    rw [UInt64.not_lt, UInt64.le_iff_toNat_le, hfree] at hfits
    have hsum : (c.currentBytes + bytes).toNat = c.currentBytes.toNat + bytes.toNat :=
      BudgetStore.toNat_add_of_fits (m := c.maxBytes) (by omega)
    refine ⟨rfl, ?_, h.within.mono ?_⟩
    · show c.currentBytes + bytes ≤ c.maxBytes
      rw [UInt64.le_iff_toNat_le, hsum]
      omega
    · show carried + bytes.toNat + c.currentBytes.toNat ≤ carried + (c.currentBytes + bytes).toNat
      omega

theorem Covered.bytes_le {p : BufferBudgetPermit} (h : Covered (carried + p.held) c permit)
    (hp : p.control = true) : p.bytes ≤ c.currentBytes := by
  have hle := h.within.carried_le
  rw [BufferBudgetPermit.held_of_owns hp] at hle
  rw [UInt64.le_iff_toNat_le]
  omega

theorem Covered.release {p : BufferBudgetPermit} (h : Covered (carried + p.held) c permit) :
    Covered carried (p.release c).2 permit := by
  unfold BufferBudgetPermit.release
  cases hp : p.control with
  | false => exact h.mono (Nat.le_add_right ..)
  | true =>
      have hle := h.bytes_le hp
      have hsub := UInt64.toNat_sub_of_le _ _ hle
      have hroom := UInt64.le_iff_toNat_le.mp h.room
      have hbytes := UInt64.le_iff_toNat_le.mp hle
      rw [if_neg (by simp), if_pos hle]
      refine ⟨?_, h.within.mono ?_⟩
      · show c.currentBytes - p.bytes ≤ c.maxBytes
        rw [UInt64.le_iff_toNat_le, hsub]
        omega
      · rw [BufferBudgetPermit.held_of_owns hp]
        show carried + c.currentBytes.toNat
          ≤ carried + p.bytes.toNat + (c.currentBytes - p.bytes).toNat
        omega

/-- A reservation shrinks to anything that is not more. -/
theorem Covered.shrinkTo {p : BufferBudgetPermit} (h : Covered (carried + p.held) c permit)
    (hp : p.control = true) {bytes : UInt64} (hle : bytes ≤ p.bytes) :
    ∃ c', p.shrinkTo bytes c = (true, ⟨true, bytes⟩, c')
      ∧ Covered (carried + (⟨true, bytes⟩ : BufferBudgetPermit).held) c' permit := by
  have hbytes := UInt64.le_iff_toNat_le.mp (h.bytes_le hp)
  have hshrunk := UInt64.le_iff_toNat_le.mp hle
  have hroom := UInt64.le_iff_toNat_le.mp h.room
  have hreleased := UInt64.toNat_sub_of_le _ _ hle
  have hless : p.bytes - bytes ≤ c.currentBytes := by
    rw [UInt64.le_iff_toNat_le, hreleased]
    omega
  have hrest := UInt64.toNat_sub_of_le _ _ hless
  refine ⟨{ c with currentBytes := c.currentBytes - (p.bytes - bytes) }, ?_, ?_, ?_⟩
  · unfold BufferBudgetPermit.shrinkTo
    rw [if_neg (by simpa [hp] using hle), if_neg (UInt64.not_lt.mpr hless)]
    rw [← hp]
  · show c.currentBytes - (p.bytes - bytes) ≤ c.maxBytes
    rw [UInt64.le_iff_toNat_le, hrest]
    omega
  · refine h.within.mono ?_
    rw [BufferBudgetPermit.held_of_owns hp]
    show carried + bytes.toNat + c.currentBytes.toNat
      ≤ carried + p.bytes.toNat + (c.currentBytes - (p.bytes - bytes)).toNat
    omega

/-- A shrink that goes well gives back what it frees. -/
theorem Covered.shrunk {p p' : BufferBudgetPermit} (h : Covered (carried + p.held) c permit)
    {bytes : UInt64} {c' : BufferBudgetControl} (hshrunk : p.shrinkTo bytes c = (true, p', c')) :
    Covered (carried + p'.held) c' permit := by
  have hvalid : p.control = true ∧ bytes ≤ p.bytes := by
    unfold BufferBudgetPermit.shrinkTo at hshrunk
    split at hshrunk
    · cases hshrunk
    · rename_i hvalid
      simpa [not_or] using hvalid
  obtain ⟨c'', heq, hcovered⟩ := h.shrinkTo hvalid.1 hvalid.2
  rw [heq] at hshrunk
  cases hshrunk
  exact hcovered

/-- The same for a permit that stays where it is. -/
theorem Covered.shrinkAt [DecidableEq Place] (h : Covered carried c permit) (place : Place)
    {p' : BufferBudgetPermit} {bytes : UInt64} {c' : BufferBudgetControl}
    (hshrunk : (permit place).shrinkTo bytes c = (true, p', c')) :
    Covered carried c' (Function.update permit place p') := by
  have htaken : Covered (carried + (permit place).held) c (Function.update permit place {}) :=
    h.swap (p := {}) place
  have hstored := (htaken.shrunk hshrunk).store place
  rwa [Function.update_idem] at hstored

end

end ApiGate
