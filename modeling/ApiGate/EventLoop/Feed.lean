import Mathlib.Data.List.Forall2

/-!
# Checkers that are fed with events

A checker reads a stream of events with a step function that may refuse, and
keeps a state between them. `Checks step s events P Q` says what it decides
about a piece of the stream from the state `s`: it gets through exactly when
`P` holds, and then `Q` holds of the state it is left in. Pieces are put
together with `Checks.append`, whose second half may use what the first one
leaves.
-/

namespace EventLoop

variable {ε σ κ : Type}

/-- The state after the events, or the first refusal. -/
def feed (step : σ → ε → Except κ σ) (s : σ) (events : List ε) : Except κ σ :=
  events.foldlM step s

theorem feed_cons (step : σ → ε → Except κ σ) (s : σ) (e : ε) (rest : List ε) :
    feed step s (e :: rest) = (step s e).bind fun t => feed step t rest := rfl

theorem feed_append_ok {step : σ → ε → Except κ σ} {s t : σ} {a b : List ε} :
    feed step s (a ++ b) = .ok t ↔ ∃ m, feed step s a = .ok m ∧ feed step m b = .ok t := by
  unfold feed
  rw [List.foldlM_append]
  cases h : a.foldlM step s with
  | error k => simp [bind, Except.bind]
  | ok m => simp [bind, Except.bind]

/-- Both halves of a computation that may refuse get through. -/
theorem bind_eq_ok {α β : Type} {x : Except κ α} {f : α → Except κ β} {b : β} :
    x >>= f = .ok b ↔ ∃ a, x = .ok a ∧ f a = .ok b := by
  cases x with
  | error k => simp [bind, Except.bind]
  | ok a => simp [bind, Except.bind]

/-- All elements get through, one result for each. -/
theorem mapM_eq_ok {α β : Type} {f : α → Except κ β} {xs : List α} {ys : List β}
    (h : xs.mapM f = .ok ys) : List.Forall₂ (fun x y => f x = .ok y) xs ys := by
  induction xs generalizing ys with
  | nil =>
      cases h
      exact .nil
  | cons x rest ih =>
      rw [List.mapM_cons] at h
      obtain ⟨y, hx, h⟩ := bind_eq_ok.mp h
      obtain ⟨others, hrest, h⟩ := bind_eq_ok.mp h
      cases h
      exact .cons hx (ih hrest)

theorem mapM_of_forall₂ {α β : Type} {f : α → Except κ β} {xs : List α} {ys : List β}
    (h : List.Forall₂ (fun x y => f x = .ok y) xs ys) : xs.mapM f = .ok ys := by
  induction h with
  | nil => rfl
  | cons hx _ ih =>
      rw [List.mapM_cons, hx, ih]
      rfl

theorem exists_of_mem_mapM {α β : Type} {f : α → Except κ β} {xs : List α} {ys : List β}
    (h : xs.mapM f = .ok ys) {y : β} (hy : y ∈ ys) : ∃ x ∈ xs, f x = .ok y := by
  have hall := mapM_eq_ok h
  obtain ⟨i, hi, rfl⟩ := List.getElem_of_mem hy
  have hi' : i < xs.length := hall.length_eq ▸ hi
  exact ⟨xs[i], List.getElem_mem hi', hall.get hi' hi⟩

structure Checks (step : σ → ε → Except κ σ) (s : σ) (events : List ε) (P : Prop)
    (Q : σ → Prop) : Prop where
  sound : ∀ t, feed step s events = .ok t → P ∧ Q t
  complete : P → ∃ t, feed step s events = .ok t

namespace Checks

variable {step : σ → ε → Except κ σ} {s t : σ} {e : ε} {a b events : List ε} {P R : Prop}
  {Q T : σ → Prop}

theorem nil (h : Q s) : Checks step s [] True Q where
  sound t ht := by
    cases ht
    exact ⟨trivial, h⟩
  complete _ := ⟨s, rfl⟩

/-- The first event is accepted. -/
theorem cons (h : step s e = .ok t) (hrest : Checks step t events P Q) :
    Checks step s (e :: events) P Q where
  sound u hu := by
    rw [feed_cons, h] at hu
    exact hrest.sound u hu
  complete hP := by
    obtain ⟨u, hu⟩ := hrest.complete hP
    exact ⟨u, by rw [feed_cons, h]; exact hu⟩

/-- The first event is refused. -/
theorem refuse {k : κ} (h : step s e = .error k) : Checks step s (e :: events) False Q where
  sound u hu := by
    rw [feed_cons, h] at hu
    cases hu
  complete hP := hP.elim

/-- The second half may use that the first one got through. -/
theorem append (ha : Checks step s a P Q) (hb : ∀ m, P → Q m → Checks step m b R T) :
    Checks step s (a ++ b) (P ∧ R) T where
  sound u hu := by
    obtain ⟨m, hm, hrest⟩ := feed_append_ok.mp hu
    obtain ⟨hP, hQ⟩ := ha.sound m hm
    obtain ⟨hR, hT⟩ := (hb m hP hQ).sound u hrest
    exact ⟨⟨hP, hR⟩, hT⟩
  complete := by
    rintro ⟨hP, hR⟩
    obtain ⟨m, hm⟩ := ha.complete hP
    obtain ⟨u, hu⟩ := (hb m hP (ha.sound m hm).2).complete hR
    exact ⟨u, feed_append_ok.mpr ⟨m, hm, hu⟩⟩

theorem congr (h : Checks step s events P Q) (hP : P ↔ R) (hQ : ∀ u, Q u → T u) :
    Checks step s events R T where
  sound u hu := by
    obtain ⟨hold, hq⟩ := h.sound u hu
    exact ⟨hP.mp hold, hQ u hq⟩
  complete hnew := h.complete (hP.mpr hnew)

end Checks

end EventLoop
