import ApiGate.HealthChecksSafety

/-!
# What the probes of a run are made for

The manager takes its targets and the trust for them from the configuration, and
nothing that happens to it afterwards changes either (`watches_after`). So what is
true of the targets of a configuration is true of every probe of a run.
-/

namespace ApiGate

namespace HealthChecks

/-! ## Targets of a configuration -/

theorem mem_targetsFrom {route : Nat} {routes : List RouteConfig} {target : ProbeTarget}
    (h : target ∈ targetsFrom route routes) :
    ∃ entry ∈ routes, entry.healthCheck = some target.health ∧ target.backend ∈ entry.upstreams := by
  induction routes generalizing route with
  | nil => cases h
  | cons entry rest ih =>
      have hrest : target ∈ targetsFrom (route + 1) rest →
          ∃ e ∈ entry :: rest, e.healthCheck = some target.health ∧ target.backend ∈ e.upstreams := by
        intro hmem
        obtain ⟨e, he, hfound⟩ := ih hmem
        exact ⟨e, List.mem_cons_of_mem _ he, hfound⟩
      rw [targetsFrom] at h
      split at h
      · exact hrest h
      · rename_i settings hsettings
        rcases List.mem_append.mp h with hmem | hmem
        · obtain ⟨i, hi, rfl⟩ := List.mem_mapIdx.mp hmem
          exact ⟨entry, List.mem_cons_self .., hsettings, List.getElem_mem hi⟩
        · exact hrest hmem

/-! ## Targets of a run -/

/-- The manager probes these targets, and this is the trust that their probes get. -/
structure Watches (targets : List ProbeTarget) (context : TlsContext) (s : HealthChecks) : Prop where
  targets : s.targets = targets
  context : s.context = context

section Operations

variable {targets : List ProbeTarget} {context : TlsContext} {s s' : HealthChecks}

theorem Watches.stop (h : Watches targets context s) : Watches targets context s.stop := by
  by_cases hs : s.stopped = true
  · rw [HealthChecks.stop, if_pos hs]
    exact h
  · obtain ⟨n, heq⟩ := stop_eq (s := s) (by simpa using hs)
    rw [heq]
    exact ⟨h.targets, h.context⟩

theorem Watches.failed (h : Watches targets context s) : Watches targets context s.failed := by
  by_cases hs : s.stopped = true
  · rw [HealthChecks.failed, if_pos hs]
    exact h
  · rw [failed_eq (by simpa using hs)]
    exact ⟨h.stop.targets, h.stop.context⟩

theorem Watches.setProbe (h : Watches targets context s) (id : Nat) (p : Probe) :
    Watches targets context (s.setProbe id p) := ⟨h.targets, h.context⟩

theorem Watches.recordResult (h : Watches targets context s) (id index : Nat) (success : Bool) :
    Watches targets context (s.recordResult id index success).1 := by
  unfold HealthChecks.recordResult
  split
  · exact h
  · dsimp only
    split
    · exact ⟨h.targets, h.context⟩
    · split
      · exact ⟨h.targets, h.context⟩
      · exact ⟨h.targets, h.context⟩

theorem Watches.finish {again : HealthChecks → Option HealthChecks}
    (hagain : ∀ s s', Watches targets context s → again s = some s' → Watches targets context s')
    (h : Watches targets context s) {id : Nat} {p : Probe} {success : Bool}
    (hs' : finish again s id p success = some s') : Watches targets context s' := by
  unfold HealthChecks.finish at hs'
  split at hs'
  · cases hs'
    exact h
  · have hrecord := (h.setProbe id { p with done := true }).recordResult id p.slot success
    unfold completed at hs'
    split at hs'
    · cases hs'
      exact ⟨h.targets, h.context⟩
    · dsimp only at hs'
      split at hs'
      · exact hagain _ _ hrecord hs'
      · cases hs'
        exact hrecord.failed

theorem Watches.startProbe (h : Watches targets context s) {id : Nat} {p : Probe}
    {started : ProbeStarted} (hs' : s.startProbe id p started = some s') :
    Watches targets context s' := by
  have hsome : ∀ t t', Watches targets context t → some t = some t' → Watches targets context t' := by
    intro t t' ht heq
    cases heq
    exact ht
  cases started with
  | running =>
      cases hs'
      exact h.setProbe _ _
  | deadlineThrows => exact h.finish hsome hs'
  | resolveThrows => exact (h.setProbe _ _).finish hsome hs'

theorem Watches.makeProbe (h : Watches targets context s) {index : Nat} {turn : PumpTurn} {id : Nat}
    {p : Probe} (hmake : s.makeProbe index turn = .ok (id, p, s')) :
    Watches targets context s' := by
  obtain ⟨-, -, -, rfl⟩ := makeProbe_cases hmake
  exact ⟨h.targets, h.context⟩

theorem Watches.pumpLoop (turns : List PumpTurn) : ∀ {s : HealthChecks}, Watches targets context s →
    ∀ {s' : HealthChecks} {ok : Bool}, HealthChecks.pumpLoop turns s = some (s', ok) →
      Watches targets context s' := by
  induction turns with
  | nil =>
      intro s h s' ok heq
      cases heq
  | cons turn rest ih =>
      intro s h s' ok heq
      rw [HealthChecks.pumpLoop] at heq
      have hdue : Watches targets context { s with schedule := (s.schedule.takeDue turn.now).2 } :=
        ⟨h.targets, h.context⟩
      split at heq
      · cases heq
        exact hdue
      · split at heq
        · cases heq
          exact hdue
        · rename_i id p made hmake
          obtain ⟨started, hstarted, hrest⟩ := Option.bind_eq_some_iff.mp heq
          exact ih ((hdue.makeProbe hmake).startProbe hstarted) hrest

theorem Watches.armTimer (h : Watches targets context s) (due : TimePoint) :
    Watches targets context (s.armTimer due) := by
  obtain ⟨n, harm⟩ := armTimer_eq (s := s) due
  rw [harm]
  exact ⟨h.targets, h.context⟩

theorem Watches.pump (h : Watches targets context s) {input : PumpInput}
    (hs' : HealthChecks.pump input s = some s') : Watches targets context s' := by
  by_cases hearly : s.stopped = true ∨ s.pumping = true
  · rw [pump_early input hearly] at hs'
    cases hs'
    exact h
  · simp only [not_or, Bool.not_eq_true] at hearly
    obtain ⟨t, ok, hloop, hend⟩ := pump_cases hearly.1 hearly.2 hs'
    have hbegin : Watches targets context { s with pumping := true } := ⟨h.targets, h.context⟩
    have ht := hbegin.pumpLoop input.turns hloop
    rcases hend with ⟨-, rfl⟩ | ⟨-, -, rfl⟩ | ⟨-, due, -, rfl | rfl⟩
    · exact ⟨ht.failed.targets, ht.failed.context⟩
    · exact ⟨ht.targets, ht.context⟩
    · exact ⟨ht.failed.targets, ht.failed.context⟩
    · exact ⟨(ht.armTimer due).targets, (ht.armTimer due).context⟩

theorem Watches.onProbe (h : Watches targets context s) {input : PumpInput} {id : Nat}
    {event : ProbeEvent} (hs' : s.onProbe input id event = some s') :
    Watches targets context s' := by
  unfold HealthChecks.onProbe at hs'
  split at hs'
  · cases hs'
    exact h
  · split at hs'
    · cases hs'
      exact h
    · dsimp only at hs'
      split at hs'
      · cases hs'
        exact h.setProbe _ _
      · split at hs'
        · cases hs'
          exact h.setProbe _ _
        · cases hs'
          exact (h.setProbe _ _).setProbe _ _
        · exact (h.setProbe _ _).finish (fun _ _ ht => ht.pump) hs'

theorem Watches.onTimer (h : Watches targets context s) {input : PumpInput} {error : Error}
    (hs' : s.onTimer input error = some s') : Watches targets context s' := by
  cases error with
  | none => exact h.pump hs'
  | some error =>
      simp only [HealthChecks.onTimer] at hs'
      cases hs'
      split
      · exact h.failed
      · exact h

theorem Watches.handle (h : Watches targets context s) {event : Event}
    (hs' : s.handle event = some s') : Watches targets context s' := by
  cases event with
  | start =>
      cases hs'
      unfold HealthChecks.start
      split
      · exact h
      · exact ⟨h.targets, h.context⟩
  | stop =>
      cases hs'
      exact h.stop
  | posted input =>
      simp only [HealthChecks.handle] at hs'
      split at hs'
      · have hread : Watches targets context { s with posted := false } := ⟨h.targets, h.context⟩
        exact hread.pump hs'
      · cases hs'
        exact h
  | timer error input =>
      simp only [HealthChecks.handle] at hs'
      split at hs'
      · have hread : Watches targets context { s with timer := none } := ⟨h.targets, h.context⟩
        exact hread.onTimer hs'
      · cases hs'
        exact h
  | staleTimer error input =>
      simp only [HealthChecks.handle] at hs'
      split at hs'
      · have hread : Watches targets context { s with staleWaits := s.staleWaits - 1 } :=
          ⟨h.targets, h.context⟩
        exact hread.onTimer hs'
      · cases hs'
        exact h
  | probe id event input => exact h.onProbe hs'

end Operations

theorem watches_after {config : AppConfig} {now : TimePoint} {s₀ s : HealthChecks}
    {events : List Event} (hmake : make config now = .ok s₀) (hrun : s₀.after events = some s) :
    Watches (targetsFrom 0 config.routes) config.upstreamTlsContext s := by
  refine after_induction (fun t event t' ht ht' => ht.handle ht') ?_ events hrun
  obtain ⟨-, rfl⟩ := make_eq hmake
  exact ⟨rfl, rfl⟩

end HealthChecks

end ApiGate
