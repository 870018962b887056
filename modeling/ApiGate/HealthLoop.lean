import ApiGate.AdmissionTrace
import ApiGate.ProbeTrail

/-!
# Health checks and sessions over one health state

The manager of the probes is constructed over the health state of the admission state, so a
result that it records is there for the next request of any session. A `Watched` is the
manager and the gateway; what the manager makes of the health state the gateway has at once,
and a session only reads it.
-/

namespace ApiGate

open EventLoop Act

/-- The health state that an admission asks is this one. -/
def Gateway.withHealth (health : UpstreamHealthState) (gw : Gateway) : Gateway :=
  { gw with shared := { gw.shared with admission := { gw.shared.admission with health } } }

/-- `health_checks_` of the server, and its sessions. -/
structure Watched where
  checks : HealthChecks
  gateway : Gateway

namespace Watched

/-- A handler of the health checks, or one of a session or the pool. -/
inductive Event where
  | check (event : HealthChecks.Event)
  | own (input : Gateway.Input)

/-- The server's constructor. -/
def launch (g : Setup) (rateLimits : RouteRateLimits) (now : TimePoint) : Except Unit Watched := do
  let checks ← HealthChecks.make g.config now
  pure ⟨checks, (Gateway.launch g rateLimits).withHealth checks.state⟩

/-- `none` is a call that has not returned. Reports come from the manager and nowhere else. -/
def handle (g : Setup) (x : Watched) : Event → Option Watched
  | .check event =>
      (x.checks.handle event).map fun checks => ⟨checks, x.gateway.withHealth checks.state⟩
  | .own input =>
      if (Gateway.report input).isSome then some x
      else some { x with gateway := Gateway.step g input x.gateway }

def after (g : Setup) (x : Watched) (events : List Event) : Option Watched :=
  events.foldlM (handle g) x

/-- What the health checks were given in a run. -/
def checkEvents (events : List Event) : List HealthChecks.Event :=
  events.filterMap fun event =>
    match event with
    | .check event => some event
    | .own _ => none

/-- The results that were recorded, in order. -/
def results (x : Watched) : List HealthResult := x.checks.records.reverse.map ProbeRecord.result

/-- Of the one event that makes exchange `k` of session `i`: the exchange was chosen by the
results recorded before it, and each of them is what the probe of its slot had heard. -/
def ChosenByAnswers (g : Setup) (start : Watched) (events : List Event) (i k : Nat)
    (request : HttpRequest) (selected : SelectedUpstream) : Prop :=
  ∃ before event rest y z, events = before ++ event :: rest
    ∧ after g start before = some y ∧ handle g y event = some z
    ∧ Gateway.Makes y.gateway z.gateway i k
    ∧ Chosen g y.results request selected
    ∧ ∀ r ∈ y.checks.records, HealthChecks.Faithful g.config y.checks
      (HealthChecks.trail r.probe start.checks (checkEvents before)) r

/-! ## Runs -/

section Runs

variable {g : Setup} {rateLimits : RouteRateLimits} {now : TimePoint} {start x x' : Watched}
  {events : List Event}

/-- The manager runs as it does alone, and the gateway has its health state. -/
structure Runs (g : Setup) (start : Watched) (events : List Event) (x : Watched) : Prop where
  reached : after g start events = some x
  checks : start.checks.after (checkEvents events) = some x.checks
  safe : Gateway.Safe g (fun _ => False) x.gateway
  informed : Estate.Informed g (ChosenByAnswers g start events) x.results x.gateway.estate

theorem after_concat (start : Watched) (events : List Event) (event : Event) :
    after g start (events ++ [event]) = (after g start events).bind fun x => handle g x event := by
  unfold after
  rw [List.foldlM_append]
  cases events.foldlM (handle g) start with
  | none => rfl
  | some x => simp

theorem checks_after_concat (s : HealthChecks) (events : List HealthChecks.Event)
    (event : HealthChecks.Event) :
    s.after (events ++ [event]) = (s.after events).bind fun t => t.handle event := by
  unfold HealthChecks.after
  rw [List.foldlM_append]
  cases events.foldlM HealthChecks.handle s with
  | none => rfl
  | some t => simp

theorem ChosenByAnswers.snoc {i k : Nat} {request : HttpRequest} {selected : SelectedUpstream}
    (h : ChosenByAnswers g start events i k request selected) (event : Event) :
    ChosenByAnswers g start (events ++ [event]) i k request selected := by
  obtain ⟨before, first, rest, y, z, rfl, hmoment⟩ := h
  exact ⟨before, first, rest ++ [event], y, z, by simp, hmoment⟩

theorem launch_eq (h : launch g rateLimits now = .ok start) :
    HealthChecks.make g.config now = .ok start.checks
      ∧ start.gateway = (Gateway.launch g rateLimits).withHealth start.checks.state := by
  unfold launch at h
  cases hmake : HealthChecks.make g.config now with
  | error e =>
      rw [hmake] at h
      cases h
  | ok checks =>
      rw [hmake] at h
      cases h
      exact ⟨rfl, rfl⟩

theorem safe_withHealth {gw : Gateway} (h : Gateway.Safe g (fun _ => False) gw)
    (health : UpstreamHealthState) : Gateway.Safe g (fun _ => False) (gw.withHealth health) := by
  obtain ⟨live, hinv⟩ := h
  exact ⟨live, hinv.reshare rfl⟩

theorem runs_launch (h : launch g rateLimits now = .ok start) : Runs g start [] start := by
  obtain ⟨hmake, hgateway⟩ := launch_eq h
  refine ⟨rfl, rfl, ?_, ?_, ?_⟩
  · rw [hgateway]
    exact safe_withHealth (Gateway.launch_safe g _ rateLimits) _
  · rw [hgateway]
    have hstart : start.checks.after [] = some start.checks := rfl
    exact HealthChecks.state_after hmake hstart
  · intro i k hk
    rw [hgateway] at hk
    exact absurd hk (Nat.not_lt_zero _)

/-- What is made now is chosen by what is recorded now. -/
theorem Runs.chosen (hmake : HealthChecks.make g.config now = .ok start.checks)
    (h : Runs g start events x) {event : Event} (hx' : Watched.handle g x event = some x')
    {i k : Nat} (hmakes : Gateway.Makes x.gateway x'.gateway i k) {request : HttpRequest}
    {selected : SelectedUpstream} (hchosen : Chosen g x.results request selected) :
    ChosenByAnswers g start (events ++ [event]) i k request selected :=
  ⟨events, event, [], x, x', rfl, h.reached, hx', hmakes, hchosen,
    HealthChecks.faithful_after hmake h.checks⟩

theorem Runs.handle (hmake : HealthChecks.make g.config now = .ok start.checks)
    (h : Runs g start events x) {event : Event} (hx' : Watched.handle g x event = some x') :
    Runs g start (events ++ [event]) x' := by
  have hreached : after g start (events ++ [event]) = some x' := by
    rw [after_concat, h.reached]
    exact hx'
  cases event with
  | check event =>
      obtain ⟨checks, hchecks, rfl⟩ := Option.map_eq_some_iff.mp hx'
      have hafter : start.checks.after (checkEvents (events ++ [.check event])) = some checks := by
        unfold checkEvents
        rw [List.filterMap_append]
        show start.checks.after (checkEvents events ++ [event]) = some checks
        rw [checks_after_concat, h.checks]
        exact hchecks
      refine ⟨hreached, hafter, safe_withHealth h.safe _, ?_, fun i k hk => ?_⟩
      · exact HealthChecks.state_after hmake hafter
      · exact (h.informed.chosen i k hk).snoc _
  | own input =>
      have hsame : checkEvents (events ++ [.own input]) = checkEvents events := by
        simp [checkEvents]
      have hown := hx'
      simp only [Watched.handle] at hown
      split at hown
      · cases hown
        refine ⟨hreached, by rw [hsame]; exact h.checks, h.safe, ?_⟩
        exact h.informed.imp fun _ _ _ _ hchosen => hchosen.snoc _
      · rename_i hsilent
        cases hown
        have hlater := h.informed.imp (Q := ChosenByAnswers g start (events ++ [.own input]))
          fun _ _ _ _ hchosen => hchosen.snoc _
        have hstep := hlater.after_step (h.safe.estate_step input)
          fun _ _ _ _ hnew hk hchosen => h.chosen hmake hx' ⟨hnew, hk⟩ hchosen
        rw [Option.not_isSome_iff_eq_none.mp hsilent, Option.toList_none, List.append_nil] at hstep
        exact ⟨hreached, by rw [hsame]; exact h.checks,
          Gateway.step_safe h.safe input (admissible_none _), hstep⟩

theorem runs_after (hlaunch : launch g rateLimits now = .ok start)
    (hrun : after g start events = some x) : Runs g start events x := by
  obtain ⟨hmake, -⟩ := launch_eq hlaunch
  induction events using List.reverseRecOn generalizing x with
  | nil =>
      cases hrun
      exact runs_launch hlaunch
  | append_singleton events event ih =>
      rw [after_concat] at hrun
      obtain ⟨y, hy, hlast⟩ := Option.bind_eq_some_iff.mp hrun
      exact (ih hy).handle hmake hlast

end Runs

/-- From the answers of the upstreams to the requests of the clients: in every run of the health
checks and the sessions together, both see one health state, and every exchange was made for a
slot that was not down by the results recorded before the step that made it, each of which
says whether the probe of its slot had been answered. -/
theorem health_loop (g : Setup) (rateLimits : RouteRateLimits) (now : TimePoint)
    {start x : Watched} (events : List Event) (hlaunch : launch g rateLimits now = .ok start)
    (hrun : after g start events = some x) :
    x.gateway.shared.admission.health = x.checks.state
      ∧ ∀ i k, k < (x.gateway.locals i).nextExchange →
        ChosenByAnswers g start events i k ((x.gateway.locals i).exs k).downstreamRequest
          ((x.gateway.locals i).exs k).selected := by
  obtain ⟨hmake, -⟩ := launch_eq hlaunch
  have h := runs_after hlaunch hrun
  refine ⟨?_, fun i k hk => h.informed.chosen i k hk⟩
  rw [HealthChecks.state_after hmake h.checks]
  exact h.informed.health

/-- One probe of the first slot fails, and then a request comes. -/
def failedProbe : List Event :=
  [.check .start, .check (.posted ⟨[⟨0, false, .running⟩, ⟨0, false, .running⟩,
      ⟨0, false, .running⟩], false⟩),
    .check (.probe 0 (.deadline none) ⟨[⟨1, false, .running⟩], false⟩)]
    ++ (Gateway.visit 0 "/a" 0).map .own

theorem health_loop_failed_probe : ∃ start x, launch Gateway.twoSlots [none] 0 = .ok start
    ∧ after Gateway.twoSlots start failedProbe = some x
    ∧ ((x.gateway.locals 0).exs 0).selected.upstream.port = 2
    ∧ ChosenByAnswers Gateway.twoSlots start failedProbe 0 0
      ((x.gateway.locals 0).exs 0).downstreamRequest ((x.gateway.locals 0).exs 0).selected := by
  refine ⟨_, _, rfl, rfl, by decide +kernel, ?_⟩
  exact (health_loop Gateway.twoSlots [none] 0 failedProbe rfl rfl).2 0 0 (by decide +kernel)

end Watched

end ApiGate
