import Mathlib.Data.List.Basic

/-!
# Runs of an event loop

A run is the list of events the loop dispatched, each executed to completion
before the next. `run_invariant` is the induction every safety result of a
development uses: what the initial state has and one event keeps, every run
keeps. Its `R` argument restricts the events of the run (`fun _ => True` for
a result about all runs).
-/

namespace EventLoop

variable {ε σ : Type}

/-- The state after the events of a run, in order. -/
def run (step : ε → σ → σ) (s : σ) (events : List ε) : σ :=
  events.foldl (fun s e => step e s) s

theorem run_append {step : ε → σ → σ} {s : σ} (first second : List ε) :
    run step (run step s first) second = run step s (first ++ second) := by
  unfold run
  rw [List.foldl_append]

theorem run_invariant {step : ε → σ → σ} (Inv : σ → Prop) {R : ε → Prop}
    (hstep : ∀ e s, R e → Inv s → Inv (step e s)) {s : σ} (hs : Inv s) :
    ∀ events : List ε, (∀ e ∈ events, R e) → Inv (run step s events) := by
  intro events
  induction events generalizing s with
  | nil => exact fun _ => hs
  | cons e rest ih =>
      intro hok
      exact ih (hstep e s (hok e (List.mem_cons_self ..)) hs)
        (fun e' he' => hok e' (List.mem_cons_of_mem _ he'))

/-- The form where each event may be restricted by the state it finds. -/
theorem run_invariant_along {step : ε → σ → σ} (Inv : σ → Prop) {G : σ → ε → Prop}
    (hstep : ∀ e s, G s e → Inv s → Inv (step e s)) {s : σ} (hs : Inv s) :
    ∀ events : List ε,
      (∀ before e rest, events = before ++ e :: rest → G (run step s before) e) →
      Inv (run step s events) := by
  intro events
  induction events generalizing s with
  | nil => exact fun _ => hs
  | cons e rest ih =>
      intro hok
      refine ih (hstep e s (hok [] e rest rfl) hs) fun before e' rest' hsplit => ?_
      exact hok (e :: before) e' rest' (by rw [hsplit]; rfl)

/-- The form without a restriction on the events. -/
theorem run_invariant_all {step : ε → σ → σ} (Inv : σ → Prop)
    (hstep : ∀ e s, Inv s → Inv (step e s)) {s : σ} (hs : Inv s) (events : List ε) :
    Inv (run step s events) :=
  run_invariant Inv (R := fun _ => True) (fun e s _ => hstep e s) hs events
    (fun _ _ => trivial)

end EventLoop
