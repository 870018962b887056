import ApiGate.EventLoop.Run
import ApiGate.EventLoop.Tally

/-!
# The body-byte budget

`BufferBudgetControl` is the block that a `BufferBudgetState` and all its
permits share: the limit and the bytes now reserved, both 64-bit. A
`BufferBudgetPermit` is a move-only value that either owns a reservation
(`control`) or is empty; destroying or overwriting it gives its bytes back.

`BudgetStore` is the program around one budget: permit objects at addresses,
which code acquires, moves, shrinks, releases and destroys in any order. The
result of the file is that the block's counter is at every moment the sum of
the reservations that live permits own, so that none of the 64-bit
subtractions wraps and the guard in `release` against a reservation larger
than the counter is never needed.
-/

namespace ApiGate

open Finset EventLoop

/-! ## Planning a reservation -/

inductive BodyReservationKind where
  | none
  | reserve
  | tooLarge
  deriving DecidableEq, Repr

structure BodyReservationPlan where
  kind : BodyReservationKind := .none
  bytes : UInt64 := 0
  deriving DecidableEq, Repr

def planBodyReservation (contentLength : Option UInt64) (messageComplete : Bool)
    (bodyLimit : UInt64) : BodyReservationPlan :=
  if messageComplete then {}
  else if (contentLength.any fun n => n > bodyLimit) then ⟨.tooLarge, 0⟩
  else ⟨.reserve, contentLength.getD bodyLimit⟩

/-! ## The shared block and the permits -/

structure BufferBudgetControl where
  maxBytes : UInt64
  currentBytes : UInt64 := 0
  deriving DecidableEq, Repr

/-- `control` says whether the permit's pointer to the shared block is set. -/
structure BufferBudgetPermit where
  control : Bool := false
  bytes : UInt64 := 0
  deriving DecidableEq, Repr

namespace BufferBudgetPermit

def ownsReservation (p : BufferBudgetPermit) : Bool := p.control

def reservedBytes (p : BufferBudgetPermit) : UInt64 := p.bytes

/-- What a move leaves in its source. -/
def moved : BufferBudgetPermit := {}

def release (p : BufferBudgetPermit) (c : BufferBudgetControl) :
    BufferBudgetPermit × BufferBudgetControl :=
  if !p.control then (p, c)
  else if p.bytes ≤ c.currentBytes then
    ({}, { c with currentBytes := c.currentBytes - p.bytes })
  else ({}, c)

def shrinkTo (p : BufferBudgetPermit) (bytes : UInt64) (c : BufferBudgetControl) :
    Bool × BufferBudgetPermit × BufferBudgetControl :=
  if !p.control || bytes > p.bytes then (false, p, c)
  else if p.bytes - bytes > c.currentBytes then (false, p, c)
  else (true, { p with bytes := bytes },
    { c with currentBytes := c.currentBytes - (p.bytes - bytes) })

/-- The bytes a permit holds of its budget. -/
def held (p : BufferBudgetPermit) : Nat := if p.ownsReservation then p.bytes.toNat else 0

@[simp] theorem held_empty : held {} = 0 := rfl

theorem held_of_owns {p : BufferBudgetPermit} (h : p.control = true) :
    p.held = p.bytes.toNat := by
  simp [held, ownsReservation, h]

end BufferBudgetPermit

def BufferBudgetControl.tryAcquire (c : BufferBudgetControl) (bytes : UInt64) :
    Option BufferBudgetPermit × BufferBudgetControl :=
  if bytes > c.maxBytes - c.currentBytes then (none, c)
  else (some ⟨true, bytes⟩, { c with currentBytes := c.currentBytes + bytes })

/-! ## One budget and the permits obtained from it -/

/-- The permit objects of a program, by address: `live` holds the addresses at
which one exists. `stateAlive` is false once the `BufferBudgetState` itself is
destroyed; the shared block outlives it as long as a permit points to it. -/
structure BudgetStore where
  control : BufferBudgetControl
  stateAlive : Bool := true
  live : Finset Nat := ∅
  permit : Nat → BufferBudgetPermit := fun _ => {}

namespace BudgetStore

/-- `std::move` construction and assignment name the target first. -/
inductive Op where
  | construct (i : Nat)
  | tryAcquire (i : Nat) (bytes : UInt64)
  | moveConstruct (i src : Nat)
  | moveAssign (i src : Nat)
  | shrinkTo (i : Nat) (bytes : UInt64)
  | release (i : Nat)
  | destroy (i : Nat)
  | destroyState
  deriving DecidableEq, Repr

/-- One operation. An operation on an object that does not exist, or that
builds one where one exists, is not one a program can perform. -/
def step : Op → BudgetStore → BudgetStore
  | .construct i, s =>
      if i ∈ s.live then s
      else { s with live := insert i s.live, permit := Function.update s.permit i {} }
  | .tryAcquire i bytes, s =>
      if !s.stateAlive || i ∈ s.live then s
      else
        match s.control.tryAcquire bytes with
        | (some p, c) =>
            { s with control := c, live := insert i s.live,
                     permit := Function.update s.permit i p }
        | (none, c) => { s with control := c }
  | .moveConstruct i src, s =>
      if i ∈ s.live ∨ src ∉ s.live then s
      else { s with live := insert i s.live,
                    permit := Function.update (Function.update s.permit i (s.permit src))
                      src .moved }
  | .moveAssign i src, s =>
      if i ∉ s.live ∨ src ∉ s.live then s
      else if i = src then s
      else { s with control := ((s.permit i).release s.control).2,
                    permit := Function.update (Function.update s.permit i (s.permit src))
                      src .moved }
  | .shrinkTo i bytes, s =>
      if i ∉ s.live then s
      else { s with control := ((s.permit i).shrinkTo bytes s.control).2.2,
                    permit := Function.update s.permit i
                      ((s.permit i).shrinkTo bytes s.control).2.1 }
  | .release i, s =>
      if i ∉ s.live then s
      else { s with control := ((s.permit i).release s.control).2,
                    permit := Function.update s.permit i ((s.permit i).release s.control).1 }
  | .destroy i, s =>
      if i ∉ s.live then s
      else { s with control := ((s.permit i).release s.control).2, live := s.live.erase i }
  | .destroyState, s => { s with stateAlive := false }

/-- A fresh budget, before any permit exists. -/
def init (maxBytes : UInt64) : BudgetStore := { control := { maxBytes } }

/-- The sum of the reservations that live permits own. -/
def reserved (s : BudgetStore) : Nat :=
  ∑ i ∈ s.live with (s.permit i).ownsReservation, (s.permit i).reservedBytes.toNat

theorem reserved_eq (s : BudgetStore) :
    s.reserved = ∑ i ∈ s.live, (s.permit i).held := by
  unfold reserved
  rw [Finset.sum_filter]
  rfl

/-! ## The conservation invariant -/

/-- The counter is the sum of the owned reservations, within the limit. -/
structure Conserved (maxBytes : UInt64) (s : BudgetStore) : Prop where
  limit : s.control.maxBytes = maxBytes
  total : s.control.currentBytes.toNat = s.reserved
  bounded : s.control.currentBytes.toNat ≤ maxBytes.toNat

theorem conserved_mk {m : UInt64} {c : BufferBudgetControl} {alive : Bool} {live : Finset Nat}
    {permit : Nat → BufferBudgetPermit} (hmax : c.maxBytes = m)
    (htotal : c.currentBytes.toNat = ∑ j ∈ live, (permit j).held)
    (hbound : c.currentBytes.toNat ≤ m.toNat) : Conserved m ⟨c, alive, live, permit⟩ :=
  ⟨hmax, by rw [reserved_eq]; exact htotal, hbound⟩

/-- What a live permit holds is part of the total. -/
theorem held_le_reserved {s : BudgetStore} {i : Nat} (hi : i ∈ s.live) :
    (s.permit i).held ≤ s.reserved := by
  rw [reserved_eq]
  exact weight_le_tally BufferBudgetPermit.held s.permit hi

/-- The guard of `release` is met by every live permit. -/
theorem Conserved.guard {s : BudgetStore} {m : UInt64} (h : s.Conserved m) {i : Nat}
    (hi : i ∈ s.live) (hown : (s.permit i).control = true) :
    (s.permit i).bytes ≤ s.control.currentBytes := by
  rw [UInt64.le_iff_toNat_le, h.total, ← BufferBudgetPermit.held_of_owns hown]
  exact held_le_reserved hi

/-- A release gives back exactly what the permit holds, and empties it. -/
theorem Conserved.release {s : BudgetStore} {m : UInt64} (h : s.Conserved m) {i : Nat}
    (hi : i ∈ s.live) :
    ((s.permit i).release s.control).1.held = 0
      ∧ ((s.permit i).release s.control).2.maxBytes = m
      ∧ ((s.permit i).release s.control).2.currentBytes.toNat + (s.permit i).held
        = s.control.currentBytes.toNat := by
  unfold BufferBudgetPermit.release
  cases hown : (s.permit i).control with
  | false => simp [hown, BufferBudgetPermit.held, BufferBudgetPermit.ownsReservation, h.limit]
  | true =>
      have hle := h.guard hi hown
      simp only [Bool.not_true, Bool.false_eq_true, if_false, if_pos hle,
        BufferBudgetPermit.held_empty, h.limit, true_and,
        BufferBudgetPermit.held_of_owns hown, UInt64.toNat_sub_of_le _ _ hle]
      rw [UInt64.le_iff_toNat_le] at hle
      omega

/-- A shrink that succeeds gives back the difference; one that fails nothing. -/
theorem Conserved.shrinkTo {s : BudgetStore} {m : UInt64} (h : s.Conserved m) {i : Nat}
    (hi : i ∈ s.live) (bytes : UInt64) :
    ((s.permit i).shrinkTo bytes s.control).2.2.maxBytes = m
      ∧ ((s.permit i).shrinkTo bytes s.control).2.2.currentBytes.toNat
        ≤ s.control.currentBytes.toNat
      ∧ ((s.permit i).shrinkTo bytes s.control).2.2.currentBytes.toNat + (s.permit i).held
        = s.control.currentBytes.toNat
          + ((s.permit i).shrinkTo bytes s.control).2.1.held := by
  unfold BufferBudgetPermit.shrinkTo
  by_cases hguard : !(s.permit i).control || bytes > (s.permit i).bytes
  · simp [hguard, h.limit]
  · have hguard' := hguard
    simp only [Bool.or_eq_true, Bool.not_eq_eq_eq_not, Bool.not_true, decide_eq_true_eq,
      not_or, Bool.not_eq_false, UInt64.not_lt] at hguard'
    obtain ⟨hown, hle⟩ := hguard'
    have hguard2 := h.guard hi hown
    have hrel : (s.permit i).bytes - bytes ≤ s.control.currentBytes := by
      rw [UInt64.le_iff_toNat_le] at *
      rw [UInt64.toNat_sub_of_le _ _ (UInt64.le_iff_toNat_le.mpr hle)]
      omega
    rw [if_neg hguard, if_neg (UInt64.not_lt.mpr hrel)]
    simp only [BufferBudgetPermit.held_of_owns hown, h.limit, true_and]
    rw [BufferBudgetPermit.held_of_owns (by exact hown), UInt64.toNat_sub_of_le _ _ hrel,
      UInt64.toNat_sub_of_le _ _ hle]
    rw [UInt64.le_iff_toNat_le] at hle hguard2
    simp only
    omega

/-- What `tryAcquire` compares is the exact room that is left. -/
theorem Conserved.room {s : BudgetStore} {m : UInt64} (h : s.Conserved m) {bytes : UInt64}
    (hfit : ¬bytes > s.control.maxBytes - s.control.currentBytes) :
    s.control.currentBytes.toNat + bytes.toNat ≤ m.toNat := by
  have hb := h.bounded
  rw [h.limit] at hfit
  have hfit' := UInt64.le_iff_toNat_le.mp (UInt64.not_lt.mp hfit)
  rw [UInt64.toNat_sub_of_le _ _ (UInt64.le_iff_toNat_le.mpr hb)] at hfit'
  omega

/-- A sum that stays within a 64-bit limit does not wrap. -/
theorem toNat_add_of_fits {a b m : UInt64} (h : a.toNat + b.toNat ≤ m.toNat) :
    (a + b).toNat = a.toNat + b.toNat := by
  have hm := m.toNat_lt
  rw [UInt64.toNat_add, Nat.mod_eq_of_lt (by omega)]

/-! ## Every operation conserves -/

theorem step_conserved {m : UInt64} (op : Op) (s : BudgetStore) (h : s.Conserved m) :
    (step op s).Conserved m := by
  have htotal := h.total
  rw [reserved_eq] at htotal
  have hbound := h.bounded
  cases op with
  | construct i =>
      simp only [step]
      split
      · exact h
      · rename_i hi
        refine conserved_mk h.limit ?_ hbound
        rw [tally_insert BufferBudgetPermit.held s.permit hi]
        simpa using htotal
  | tryAcquire i bytes =>
      simp only [step]
      split
      · exact h
      · rename_i hi
        simp only [Bool.not_eq_eq_eq_not, Bool.not_true, Bool.or_eq_true,
          decide_eq_true_eq, not_or] at hi
        by_cases hfit : bytes > s.control.maxBytes - s.control.currentBytes
        · simpa [BufferBudgetControl.tryAcquire, hfit] using h
        · have hroom : s.control.currentBytes.toNat + bytes.toNat ≤ m.toNat := h.room hfit
          have hsum := toNat_add_of_fits hroom
          simp only [BufferBudgetControl.tryAcquire, if_neg hfit]
          refine conserved_mk h.limit ?_ (hsum.trans_le hroom)
          rw [tally_insert BufferBudgetPermit.held s.permit hi.2, ← htotal, hsum]
          rfl
  | moveConstruct i src =>
      simp only [step]
      split
      · exact h
      · rename_i hi
        simp only [not_or, not_not] at hi
        have hne : src ≠ i := fun heq => hi.1 (heq ▸ hi.2)
        have hsrc := tally_update BufferBudgetPermit.held
          (Function.update s.permit i (s.permit src)) (mem_insert_of_mem (b := i) hi.2) .moved
        have hins := tally_insert BufferBudgetPermit.held s.permit hi.1 (s.permit src)
        rw [Function.update_of_ne hne] at hsrc
        refine conserved_mk h.limit ?_ hbound
        simp only [BufferBudgetPermit.moved, BufferBudgetPermit.held_empty] at hsrc ⊢
        omega
  | moveAssign i src =>
      simp only [step]
      split
      · exact h
      · rename_i hi
        simp only [not_or, not_not] at hi
        split
        · exact h
        · rename_i hne
          -- the target's reservation goes back before the source's moves in
          obtain ⟨-, hmax, hgive⟩ := h.release hi.1
          have hsrc := tally_update BufferBudgetPermit.held
            (Function.update s.permit i (s.permit src)) hi.2 .moved
          have hdst := tally_update BufferBudgetPermit.held s.permit hi.1 (s.permit src)
          rw [Function.update_of_ne (Ne.symm hne)] at hsrc
          refine conserved_mk hmax ?_ (by omega)
          simp only [BufferBudgetPermit.moved, BufferBudgetPermit.held_empty] at hsrc ⊢
          omega
  | shrinkTo i bytes =>
      simp only [step]
      split
      · exact h
      · rename_i hi
        rw [not_not] at hi
        obtain ⟨hmax, hle, hgive⟩ := h.shrinkTo hi bytes
        have hupd := tally_update BufferBudgetPermit.held s.permit hi
          ((s.permit i).shrinkTo bytes s.control).2.1
        exact conserved_mk hmax (by omega) (hle.trans hbound)
  | release i =>
      simp only [step]
      split
      · exact h
      · rename_i hi
        rw [not_not] at hi
        obtain ⟨hzero, hmax, hgive⟩ := h.release hi
        have hupd := tally_update BufferBudgetPermit.held s.permit hi
          ((s.permit i).release s.control).1
        exact conserved_mk hmax (by omega) (by omega)
  | destroy i =>
      simp only [step]
      split
      · exact h
      · rename_i hi
        rw [not_not] at hi
        obtain ⟨-, hmax, hgive⟩ := h.release hi
        have herase := Finset.add_sum_erase s.live (fun j => (s.permit j).held) hi
        exact conserved_mk hmax (by omega) (by omega)
  | destroyState => exact ⟨h.limit, h.total, h.bounded⟩

theorem run_conserved (m : UInt64) (ops : List Op) : (run step (init m) ops).Conserved m :=
  run_invariant_all (Conserved m) (fun op s => step_conserved op s)
    (show Conserved m (init m) from ⟨rfl, rfl, Nat.zero_le _⟩) ops

/-! ## What the counter's arithmetic does -/

theorem Conserved.tryAcquire_isSome {s : BudgetStore} {m : UInt64} (h : s.Conserved m)
    (bytes : UInt64) :
    (s.control.tryAcquire bytes).1.isSome ↔ s.reserved + bytes.toNat ≤ m.toNat := by
  have hb := h.bounded
  have hsub := UInt64.toNat_sub_of_le _ _ (UInt64.le_iff_toNat_le.mpr hb)
  unfold BufferBudgetControl.tryAcquire
  rw [← h.total, h.limit]
  by_cases hfit : bytes > m - s.control.currentBytes
  · have hfit' : (m - s.control.currentBytes).toNat < bytes.toNat :=
      UInt64.lt_iff_toNat_lt.mp hfit
    rw [if_pos hfit]
    simp only [Option.isSome_none, Bool.false_eq_true, false_iff]
    omega
  · have hfit' := UInt64.le_iff_toNat_le.mp (UInt64.not_lt.mp hfit)
    rw [if_neg hfit]
    simp only [Option.isSome_some, true_iff]
    omega

theorem step_tryAcquire_none {s : BudgetStore} {bytes : UInt64}
    (h : (s.control.tryAcquire bytes).1 = none) (i : Nat) :
    step (.tryAcquire i bytes) s = s := by
  simp only [step]
  split
  · rfl
  · revert h
    unfold BufferBudgetControl.tryAcquire
    split <;> simp

theorem step_shrinkTo_false {s : BudgetStore} {i : Nat} {bytes : UInt64}
    (h : ((s.permit i).shrinkTo bytes s.control).1 = false) :
    step (.shrinkTo i bytes) s = s := by
  have hsame : (s.permit i).shrinkTo bytes s.control = (false, s.permit i, s.control) := by
    revert h
    unfold BufferBudgetPermit.shrinkTo
    split
    · exact fun _ => rfl
    · split
      · exact fun _ => rfl
      · simp
  simp only [step, hsame, Function.update_eq_self]
  split <;> rfl

/-- **Body-budget conservation.** After any sequence of operations on one budget
and its permits the counter is the sum of the reservations that live permits
own, within the limit; `try_acquire` succeeds exactly when the sum and the new
reservation fit; a failed `try_acquire` or `shrink_to` changes nothing; and
every 64-bit sum and difference the next operation can compute is exact, with
the guard of `release` met by every owner. -/
theorem budget_conservation (m : UInt64) (ops : List Op) :
    let s := run step (init m) ops
    s.control.currentBytes.toNat = s.reserved
      ∧ s.control.maxBytes = m ∧ s.reserved ≤ m.toNat
      ∧ (∀ n, (s.control.tryAcquire n).1.isSome ↔ s.reserved + n.toNat ≤ m.toNat)
      ∧ (∀ i n, (s.control.tryAcquire n).1 = none → step (.tryAcquire i n) s = s)
      ∧ (∀ i n, ((s.permit i).shrinkTo n s.control).1 = false → step (.shrinkTo i n) s = s)
      ∧ (s.control.maxBytes - s.control.currentBytes).toNat = m.toNat - s.reserved
      ∧ (∀ n p c, s.control.tryAcquire n = (some p, c) →
          c.currentBytes.toNat = s.control.currentBytes.toNat + n.toNat)
      ∧ (∀ i ∈ s.live, (s.permit i).ownsReservation →
          (s.permit i).bytes ≤ s.control.currentBytes
            ∧ (s.control.currentBytes - (s.permit i).bytes).toNat
              = s.control.currentBytes.toNat - (s.permit i).bytes.toNat
            ∧ ∀ n ≤ (s.permit i).bytes,
                ((s.permit i).bytes - n).toNat = (s.permit i).bytes.toNat - n.toNat
                  ∧ (s.permit i).bytes - n ≤ s.control.currentBytes
                  ∧ (s.control.currentBytes - ((s.permit i).bytes - n)).toNat
                    = s.control.currentBytes.toNat - ((s.permit i).bytes.toNat - n.toNat)) := by
  intro s
  have h : s.Conserved m := run_conserved m ops
  have hb := h.bounded
  refine ⟨h.total, h.limit, h.total ▸ hb, h.tryAcquire_isSome,
    fun i n hn => step_tryAcquire_none hn i, fun i n hn => step_shrinkTo_false hn, ?_, ?_, ?_⟩
  · rw [h.limit, UInt64.toNat_sub_of_le _ _ (UInt64.le_iff_toNat_le.mpr hb), h.total]
  · intro n p c hacq
    unfold BufferBudgetControl.tryAcquire at hacq
    split at hacq
    · simp at hacq
    · rename_i hfit
      obtain ⟨-, rfl⟩ := Prod.mk.injEq .. |>.mp hacq
      exact toNat_add_of_fits (h.room hfit)
  · intro i hi hown
    have hguard := h.guard hi hown
    refine ⟨hguard, UInt64.toNat_sub_of_le _ _ hguard, fun n hn => ?_⟩
    have hsub := UInt64.toNat_sub_of_le _ _ hn
    have hle : (s.permit i).bytes - n ≤ s.control.currentBytes := by
      rw [UInt64.le_iff_toNat_le, hsub]
      exact (Nat.sub_le _ _).trans (UInt64.le_iff_toNat_le.mp hguard)
    exact ⟨hsub, hle, by rw [UInt64.toNat_sub_of_le _ _ hle, hsub]⟩

-- moving onto an owner gives its bytes back first, and a second release gives nothing
example :
    (run step (init 10) [.tryAcquire 0 6, .tryAcquire 1 4, .moveAssign 0 1, .release 1,
      .release 0, .release 0, .tryAcquire 2 11]).control.currentBytes = 0 := by decide

end BudgetStore

end ApiGate
