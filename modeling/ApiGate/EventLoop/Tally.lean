import Mathlib.Algebra.BigOperators.Group.Finset.Piecewise
import Mathlib.Algebra.Order.BigOperators.Group.Finset

/-!
# Tallies over the holders of a resource

A resource handed out in shares is accounted for by the sum of the shares over
the holders. `Holder → Share` is a plain function, the holders that exist are
a finite set, and `weight` reads the amount off a share. The lemmas say how
the sum moves when one holder's share is replaced, when a holder appears, and
that no holder has more than the whole. Where it does not matter who the holders are,
`Within` bounds every such sum by a total.
-/

namespace EventLoop

open Finset

variable {Holder Share : Type} [DecidableEq Holder]

/-- Replacing the share of one existing holder. -/
theorem tally_update {live : Finset Holder} (weight : Share → Nat) (share : Holder → Share)
    {i : Holder} (hi : i ∈ live) (p : Share) :
    (∑ j ∈ live, weight (Function.update share i p j)) + weight (share i)
      = (∑ j ∈ live, weight (share j)) + weight p := by
  have hrest : ∑ j ∈ live.erase i, weight (Function.update share i p j)
      = ∑ j ∈ live.erase i, weight (share j) :=
    Finset.sum_congr rfl fun j hj => by
      rw [Function.update_of_ne (Finset.ne_of_mem_erase hj)]
  rw [← Finset.add_sum_erase live (fun j => weight (Function.update share i p j)) hi,
    ← Finset.add_sum_erase live (fun j => weight (share j)) hi, hrest, Function.update_self]
  omega

/-- A new holder appears with share `p`. -/
theorem tally_insert {live : Finset Holder} (weight : Share → Nat) (share : Holder → Share)
    {i : Holder} (hi : i ∉ live) (p : Share) :
    (∑ j ∈ insert i live, weight (Function.update share i p j))
      = (∑ j ∈ live, weight (share j)) + weight p := by
  have hrest : ∑ j ∈ live, weight (Function.update share i p j)
      = ∑ j ∈ live, weight (share j) :=
    Finset.sum_congr rfl fun j hj => by
      rw [Function.update_of_ne (ne_of_mem_of_not_mem hj hi)]
  rw [Finset.sum_insert hi, hrest, Function.update_self, Nat.add_comm]

omit [DecidableEq Holder] in
/-- No holder has more than the whole. -/
theorem weight_le_tally {live : Finset Holder} (weight : Share → Nat)
    (share : Holder → Share) {i : Holder} (hi : i ∈ live) :
    weight (share i) ≤ ∑ j ∈ live, weight (share j) :=
  Finset.single_le_sum (f := fun j => weight (share j)) (fun _ _ => Nat.zero_le _) hi

/-! ## Staying within a total -/

/-- No holders have more than the total, of which `carried` is on its way between them. -/
def Within (weight : Share → Nat) (total carried : Nat) (share : Holder → Share) : Prop :=
  ∀ live : Finset Holder, carried + ∑ j ∈ live, weight (share j) ≤ total

variable {weight : Share → Nat} {total carried : Nat} {share : Holder → Share}

omit [DecidableEq Holder] in
theorem Within.carried_le (h : Within weight total carried share) : carried ≤ total :=
  Nat.le_trans (Nat.le_add_right ..) (h ∅)

omit [DecidableEq Holder] in
theorem Within.mono {carried' total' : Nat} (h : Within weight total carried share)
    (hle : carried' + total ≤ carried + total') : Within weight total' carried' share := by
  intro live
  have hlive := h live
  omega

/-- What is carried takes the place of a share, and that share is carried on. -/
theorem Within.swap (i : Holder) (p : Share) (h : Within weight total (carried + weight p) share) :
    Within weight total (carried + weight (share i)) (Function.update share i p) := by
  intro live
  by_cases hi : i ∈ live
  · have hlive := h live
    have hsum := tally_update weight share hi p
    omega
  · have hinsert := h (insert i live)
    rw [Finset.sum_insert hi] at hinsert
    have hrest : ∑ j ∈ live, weight (Function.update share i p j) = ∑ j ∈ live, weight (share j) :=
      Finset.sum_congr rfl fun j hj => by
        rw [Function.update_of_ne (ne_of_mem_of_not_mem hj hi)]
    omega

end EventLoop
