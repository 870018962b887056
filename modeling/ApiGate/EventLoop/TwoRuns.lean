import ApiGate.EventLoop.Feed

/-!
# Two runs compared

A computation that may refuse is run twice, on two inputs that differ in something
that should not be seen. `Alike Loud R x y` says that the two runs cannot be told
apart: they end in results that `R` relates, or in the same refusal, or one of them
ends in a refusal that is `Loud`, which are the refusals that may depend on the
hidden part. The relation is kept by sequencing and by feeding a checker.
-/

namespace EventLoop

variable {κ α β γ δ ε : Type} {Loud : κ → Prop} {R : α → β → Prop} {T : γ → δ → Prop}

inductive Alike (Loud : κ → Prop) (R : α → β → Prop) : Except κ α → Except κ β → Prop where
  | ok {a : α} {b : β} : R a b → Alike Loud R (.ok a) (.ok b)
  | refused (k : κ) : Alike Loud R (.error k) (.error k)
  | left {k : κ} {y : Except κ β} : Loud k → Alike Loud R (.error k) y
  | right {k : κ} {x : Except κ α} : Loud k → Alike Loud R x (.error k)

namespace Alike

/-- What does not read the hidden part is the same in both runs. -/
theorem of_eq {x y : Except κ α} (h : x = y) : Alike Loud Eq x y := by
  subst h
  cases x with
  | ok a => exact .ok rfl
  | error k => exact .refused k

theorem bind {x : Except κ α} {y : Except κ β} {f : α → Except κ γ} {g : β → Except κ δ}
    (h : Alike Loud R x y) (hnext : ∀ a b, R a b → Alike Loud T (f a) (g b)) :
    Alike Loud T (x >>= f) (y >>= g) := by
  cases h with
  | ok hab => exact hnext _ _ hab
  | refused k => exact .refused k
  | left hk => exact .left hk
  | right hk => exact .right hk

/-- The second half of two computations that begin in the same way. -/
theorem same_then {x y : Except κ α} {f : α → Except κ γ} {g : α → Except κ δ} (h : x = y)
    (hnext : ∀ a, Alike Loud T (f a) (g a)) : Alike Loud T (x >>= f) (y >>= g) := by
  refine (of_eq h).bind ?_
  rintro a _ rfl
  exact hnext a

theorem mono {R' : α → β → Prop} {x : Except κ α} {y : Except κ β} (h : Alike Loud R x y)
    (hR : ∀ a b, R a b → R' a b) : Alike Loud R' x y := by
  cases h with
  | ok hab => exact .ok (hR _ _ hab)
  | refused k => exact .refused k
  | left hk => exact .left hk
  | right hk => exact .right hk

/-- What both runs decide in the same way. -/
theorem ite {p q : Prop} [Decidable p] [Decidable q] {x x' : Except κ α} {y y' : Except κ β}
    (hpq : p ↔ q) (h : Alike Loud R x y) (h' : Alike Loud R x' y') :
    Alike Loud R (if p then x else x') (if q then y else y') := by
  by_cases hp : p
  · rw [if_pos hp, if_pos (hpq.mp hp)]
    exact h
  · rw [if_neg hp, if_neg fun hq => hp (hpq.mpr hq)]
    exact h'

/-- Two checkers that make alike steps from states that `R` relates. -/
theorem feed {step : α → ε → Except κ α} {step' : β → ε → Except κ β}
    (hstep : ∀ a b, R a b → ∀ e, Alike Loud R (step a e) (step' b e)) (events : List ε) {a : α}
    {b : β} (h : R a b) : Alike Loud R (feed step a events) (EventLoop.feed step' b events) := by
  induction events generalizing a b with
  | nil => exact .ok h
  | cons e rest ih =>
      rw [feed_cons, feed_cons]
      exact (hstep a b h e).bind fun _ _ hnext => ih hnext

end Alike

end EventLoop
