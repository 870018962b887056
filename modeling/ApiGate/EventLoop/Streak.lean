import Mathlib.Data.List.Infix

/-!
# Streaks and hysteresis

How long a history has ended in the same entry, and the switch that such
streaks turn: `Tripped` holds once the history has ended in enough entries of
one kind, until it ends in enough of another. `tripped_snoc` says how one entry
more turns the switch, which is all that a program with counters has to match.
-/

namespace EventLoop

variable {α : Type}

/-- The history ends in at least `n` times `a`. -/
def EndsIn (n : Nat) (a : α) (history : List α) : Prop := List.replicate n a <:+ history

/-- Some prefix ends in `down` times `d`, and no later one in `up` times `u`. -/
def Tripped (d u : α) (down up : Nat) (history : List α) : Prop :=
  ∃ p, p <+: history ∧ EndsIn down d p
    ∧ ∀ q, q <+: history → p.length < q.length → ¬EndsIn up u q

variable {d u a : α} {down up : Nat} {history : List α}

theorem not_tripped_nil (h : 1 ≤ down) : ¬Tripped d u down up [] := by
  rintro ⟨p, hp, hend, -⟩
  obtain rfl := List.prefix_nil.mp hp
  have hlen := hend.length_le
  simp only [List.length_replicate, List.length_nil] at hlen
  omega

/-- One entry more either completes a streak, or leaves the switch as it was. -/
theorem tripped_snoc : Tripped d u down up (history ++ [a]) ↔
    EndsIn down d (history ++ [a])
      ∨ (Tripped d u down up history ∧ ¬EndsIn up u (history ++ [a])) := by
  constructor
  · rintro ⟨p, hp, hend, hlater⟩
    rcases List.prefix_concat_iff.mp hp with rfl | hp
    · exact Or.inl hend
    · refine Or.inr ⟨⟨p, hp, hend, fun q hq => hlater q (hq.trans (List.prefix_append ..))⟩, ?_⟩
      refine hlater _ (List.prefix_refl _) ?_
      have hlen := hp.length_le
      simp only [List.length_append, List.length_singleton]
      omega
  · rintro (hend | ⟨⟨p, hp, hend, hlater⟩, hnot⟩)
    · refine ⟨_, List.prefix_refl _, hend, fun q hq hlt => ?_⟩
      have hlen := hq.length_le
      omega
    · refine ⟨p, hp.trans (List.prefix_append ..), hend, fun q hq hlt => ?_⟩
      rcases List.prefix_concat_iff.mp hq with rfl | hq
      · exact hnot
      · exact hlater q hq hlt

section Counting

variable [DecidableEq α]

/-- How many times in a row the history ends in `a`. -/
def streak (a : α) (history : List α) : Nat := (history.reverse.takeWhile (· = a)).length

theorem streak_snoc_self (a : α) (history : List α) :
    streak a (history ++ [a]) = streak a history + 1 := by
  simp [streak]

theorem streak_snoc_of_ne {b : α} (h : b ≠ a) (history : List α) :
    streak a (history ++ [b]) = 0 := by
  simp [streak, h]

theorem replicate_prefix_iff (n : Nat) (a : α) (l : List α) :
    List.replicate n a <+: l ↔ n ≤ (l.takeWhile (· = a)).length := by
  induction l generalizing n with
  | nil =>
      cases n with
      | zero => simp
      | succ n => simp [List.replicate_succ]
  | cons b l ih =>
      cases n with
      | zero => simp
      | succ n =>
          rw [List.replicate_succ, List.cons_prefix_cons, ih]
          by_cases hb : b = a
          · simp [hb]
          · simp [hb, Ne.symm hb]

theorem endsIn_iff (n : Nat) (a : α) (history : List α) :
    EndsIn n a history ↔ n ≤ streak a history := by
  unfold EndsIn streak
  rw [← replicate_prefix_iff, ← List.reverse_prefix, List.reverse_replicate]

end Counting

end EventLoop
