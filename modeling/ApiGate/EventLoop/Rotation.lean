import Mathlib.Data.List.Rotate
import Mathlib.Data.List.Count

/-!
# Turns in a ring

Round robin in its own terms: the candidates stand in a ring, a turn goes to
the first one that is ready, and the ring goes on behind it. Who is ready may
differ from turn to turn. A candidate that is ready in as many turns as the
ring has places gets one of them (`mem_picks`); while the ready ones stay the
same, as many turns as there are of them go once to each (`picks_constant`).
-/

namespace EventLoop

variable {α : Type}

/-- The first ready one gets the turn, and the ring goes on behind it. -/
inductive Turns : List (α → Bool) → List α → List α → List α → Prop where
  | nil (ring : List α) : Turns [] ring [] ring
  | cons {ready : α → Bool} {rest : List (α → Bool)} {before after picks ring : List α} {a : α}
      (passed : ∀ b ∈ before, ready b = false) (chosen : ready a = true)
      (turns : Turns rest (after ++ before ++ [a]) picks ring) :
      Turns (ready :: rest) (before ++ a :: after) (a :: picks) ring

variable {readies first second : List (α → Bool)} {ring ring' ring'' picks picks' : List α}

/-- With `before` still in front of `s`, it is its turn after as many turns. -/
theorem Turns.mem_of_lt (h : Turns readies ring picks ring') {s : α} {before after : List α}
    (hring : ring = before ++ s :: after) (hready : ∀ ready ∈ readies, ready s = true)
    (hlt : before.length < readies.length) : s ∈ picks := by
  induction h generalizing before after with
  | nil => exact absurd hlt (Nat.not_lt_zero _)
  | @cons ready rest passed' after' picks ring a hpassed hchosen _ ih =>
      have hs : ready s = true := hready ready (List.mem_cons_self ..)
      rcases List.append_eq_append_iff.mp hring with ⟨mid, hbefore, hafter⟩ | ⟨mid, hbefore, hafter⟩
      · -- the one who gets the turn stands before `s`, or is `s`
        cases mid with
        | nil =>
            obtain ⟨rfl, -⟩ := List.cons.inj hafter
            exact List.mem_cons_self ..
        | cons x mid =>
            obtain ⟨rfl, htail⟩ := List.cons.inj hafter
            have hnext : after' ++ passed' ++ [a] = mid ++ s :: (after ++ passed' ++ [a]) := by
              rw [show after' = mid ++ s :: after from htail]
              simp
            refine List.mem_cons_of_mem _
              (ih hnext (fun r hr => hready r (List.mem_cons_of_mem _ hr)) ?_)
            rw [hbefore] at hlt
            simp only [List.length_append, List.length_cons] at hlt
            omega
      · -- `s` would have been passed over
        cases mid with
        | nil =>
            obtain ⟨rfl, -⟩ := List.cons.inj hafter
            exact List.mem_cons_self ..
        | cons x mid =>
            obtain ⟨rfl, -⟩ := List.cons.inj hafter
            have hskipped := hpassed s (by simp [hbefore])
            rw [hs] at hskipped
            cases hskipped

theorem Turns.mem_picks (h : Turns readies ring picks ring') {s : α} (hs : s ∈ ring)
    (hready : ∀ ready ∈ readies, ready s = true) (hlen : ring.length ≤ readies.length) :
    s ∈ picks := by
  obtain ⟨before, after, rfl⟩ := List.append_of_mem hs
  refine h.mem_of_lt rfl hready ?_
  simp only [List.length_append, List.length_cons] at hlen
  omega

/-- With the same ones ready all the time the turns go round among them. -/
theorem Turns.picks_take (h : Turns readies ring picks ring') {ready : α → Bool}
    (hsame : ∀ r ∈ readies, ∀ a ∈ ring, r a = ready a)
    (hlen : readies.length ≤ (ring.filter ready).length) :
    picks = (ring.filter ready).take readies.length := by
  induction h with
  | nil => rfl
  | @cons r rest before after picks _ a hpassed hchosen _ ih =>
      have hr : ∀ x ∈ before ++ a :: after, r x = ready x := hsame r (List.mem_cons_self ..)
      have hnone : before.filter ready = [] := by
        rw [List.filter_eq_nil_iff]
        intro b hb
        rw [← hr b (by simp [hb]), hpassed b hb]
        simp
      have ha : ready a = true := by
        rw [← hr a (by simp)]
        exact hchosen
      have hfilter : (before ++ a :: after).filter ready = a :: after.filter ready := by
        rw [List.filter_append, hnone, List.filter_cons_of_pos ha]
        rfl
      have hnext : (after ++ before ++ [a]).filter ready = after.filter ready ++ [a] := by
        rw [List.filter_append, List.filter_append, hnone, List.filter_cons_of_pos ha]
        simp
      rw [hfilter, List.length_cons, List.length_cons] at hlen
      have hrest := ih
        (fun r' hr' x hx => hsame r' (List.mem_cons_of_mem _ hr') x (by
          simp only [List.mem_append, List.mem_cons] at hx ⊢
          tauto))
        (by
          rw [hnext, List.length_append]
          omega)
      rw [hrest, hnext, hfilter, List.length_cons, List.take_succ_cons,
        List.take_append_of_le_length (by omega)]

theorem Turns.picks_constant (h : Turns readies ring picks ring') {ready : α → Bool}
    (hsame : ∀ r ∈ readies, ∀ a ∈ ring, r a = ready a)
    (hlen : readies.length = (ring.filter ready).length) : picks = ring.filter ready := by
  rw [h.picks_take hsame (Nat.le_of_eq hlen), hlen, List.take_length]

/-! ## Numbered places -/

/-- The places below `n`, from `position` on. -/
def ringFrom (n position : Nat) : List Nat := (List.range n).rotate position

theorem length_ringFrom (n position : Nat) : (ringFrom n position).length = n := by
  simp [ringFrom]

theorem mem_ringFrom {n position s : Nat} : s ∈ ringFrom n position ↔ s < n := by
  simp [ringFrom]

theorem ringFrom_perm (n position : Nat) : (ringFrom n position).Perm (List.range n) :=
  List.rotate_perm _ _

theorem getElem?_ringFrom {n j : Nat} (position : Nat) (h : j < n) :
    (ringFrom n position)[j]? = some ((position + j) % n) := by
  unfold ringFrom
  rw [List.getElem?_rotate (by simpa using h)]
  have hlt : (position + j) % n < n := Nat.mod_lt _ (by omega)
  rw [List.length_range, Nat.add_comm j, List.getElem?_range hlt]

/-- The turn goes to the place `j` further on. -/
theorem Turns.ringFrom_cons {n position j : Nat} {ready : Nat → Bool}
    {readies : List (Nat → Bool)} {picks ring : List Nat} (hj : j < n)
    (hpassed : ∀ k, k < j → ready ((position + k) % n) = false)
    (hchosen : ready ((position + j) % n) = true)
    (h : Turns readies (ringFrom n (((position + j) % n + 1) % n)) picks ring) :
    Turns (ready :: readies) (ringFrom n position) ((position + j) % n :: picks) ring := by
  have hlen := length_ringFrom n position
  have hget : (ringFrom n position).get ⟨j, by omega⟩ = (position + j) % n := by
    have hj' := getElem?_ringFrom position hj
    rw [List.getElem?_eq_getElem (by omega)] at hj'
    exact Option.some.inj hj'
  have hsplit : ringFrom n position = (ringFrom n position).take j
      ++ (position + j) % n :: (ringFrom n position).drop (j + 1) := by
    rw [← hget, List.get_eq_getElem, List.getElem_cons_drop, List.take_append_drop]
  -- behind the chosen place the ring is the one from its successor on
  have hnext : (ringFrom n position).drop (j + 1) ++ (ringFrom n position).take j
      ++ [(position + j) % n] = ringFrom n (((position + j) % n + 1) % n) := by
    have htake : (ringFrom n position).take j ++ [(position + j) % n]
        = (ringFrom n position).take (j + 1) := by
      rw [← hget, List.get_eq_getElem, List.take_append_getElem]
    rw [List.append_assoc, htake, ← List.rotate_eq_drop_append_take (by omega)]
    unfold ringFrom
    have hmod : ((position + j) % n + 1) % n = (position + (j + 1)) % n := by
      rw [Nat.mod_add_mod, Nat.add_assoc]
    have hrotate := List.rotate_mod (List.range n) (position + (j + 1))
    rw [List.length_range] at hrotate
    rw [List.rotate_rotate, hmod, hrotate]
  rw [hsplit]
  refine Turns.cons (fun b hb => ?_) hchosen (by rw [hnext]; exact h)
  obtain ⟨k, hk, rfl⟩ := List.mem_take_iff_getElem.mp hb
  have hkj : k < j := by omega
  have hbk := getElem?_ringFrom position (Nat.lt_trans hkj hj)
  rw [List.getElem?_eq_getElem (by omega)] at hbk
  rw [Option.some.inj hbk]
  exact hpassed k hkj

end EventLoop
