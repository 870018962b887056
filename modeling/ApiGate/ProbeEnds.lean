import ApiGate.ProbeTrail

/-!
# Probes end

A probe that is not done waits for exactly one operation, the next of its course, so
that five completions of operations are the most that it lives through. Once the
manager is stopped all probes are done, and what is still outstanding completes at
most once: `work` counts it, and no handler starts anything (`WoundDown`).
-/

namespace ApiGate

/-! ## What a probe waits for -/

namespace Probe

theorem length_before (tls : Bool) (op : ProbeOp) : (before tls op).length ≤ 4 := by
  cases op <;> cases tls <;> decide

/-- The operations that are outstanding. -/
def pending (p : Probe) : Nat := p.deadline.toNat + p.op.isSome.toNat

theorem pending_consume {p : Probe} {event : ProbeEvent} (h : p.expects event = true) :
    (p.consume event).pending + 1 = p.pending := by
  unfold expects at h
  unfold pending consume
  cases hreports : reports event with
  | none =>
      rw [hreports] at h
      dsimp only at h ⊢
      rw [h]
      simp [Nat.add_comm]
  | some op =>
      rw [hreports] at h
      have hop : p.op = some op := by simpa using h
      rw [hop]
      simp

end Probe

namespace HealthChecks

variable {s s' : HealthChecks} {id : Nat} {p : Probe}

/-! ## The work that is left -/

/-- One for each operation, wait and posted call that is outstanding. -/
def work (s : HealthChecks) : Nat :=
  s.posted.toNat + s.timer.isSome.toNat + s.staleWaits + (s.objects.map Probe.pending).sum

/-- The event is the completion of something that is outstanding. -/
def due (s : HealthChecks) : Event → Bool
  | .start => false
  | .stop => false
  | .posted _ => s.posted
  | .timer _ _ => s.timer.isSome
  | .staleTimer _ _ => decide (0 < s.staleWaits)
  | .probe id event _ =>
      match s.objects[id]? with
      | some p => p.expects event
      | none => false

/-- How many of the events of a run are completions. -/
def completions : HealthChecks → List Event → Nat
  | _, [] => 0
  | s, event :: rest =>
      (s.due event).toNat +
        match s.handle event with
        | some s' => completions s' rest
        | none => 0

/-- From `s` to `s'` nothing is started and `n` things complete. -/
structure WoundDown (s : HealthChecks) (n : Nat) (s' : HealthChecks) : Prop extends Silent s s' where
  state : s'.state = s.state
  probes : s'.objects.length = s.objects.length
  ended : ∀ p ∈ s'.objects, p.done = true
  work : s'.work + n = s.work

theorem WoundDown.refl (h : s.stopped = true) (hended : ∀ p ∈ s.objects, p.done = true) :
    WoundDown s 0 s :=
  { Silent.refl h with state := rfl, probes := rfl, ended := hended, work := rfl }

theorem WoundDown.trans {m n : Nat} {s₁ s₂ s₃ : HealthChecks} (h : WoundDown s₁ m s₂)
    (h' : WoundDown s₂ n s₃) : WoundDown s₁ (m + n) s₃ where
  toSilent := h.toSilent.trans h'.toSilent
  state := h'.state.trans h.state
  probes := h'.probes.trans h.probes
  ended := h'.ended
  work := by
    have hfirst := h.work
    have hlast := h'.work
    omega

theorem sum_map_set {α : Type} {f : α → Nat} {l : List α} {i : Nat} {a b : α}
    (h : l[i]? = some a) : ((l.set i b).map f).sum + f a = (l.map f).sum + f b := by
  induction l generalizing i with
  | nil => cases h
  | cons x rest ih =>
      cases i with
      | zero =>
          have hx : x = a := by simpa using h
          subst hx
          simp only [List.set_cons_zero, List.map_cons, List.sum_cons]
          omega
      | succ i =>
          have hrest := ih (i := i) (by simpa using h)
          simp only [List.set_cons_succ, List.map_cons, List.sum_cons]
          omega

/-! ## Steps of a stopped manager -/

theorem onTimer_stopped (h : s.stopped = true) (input : PumpInput) (error : Error) :
    s.onTimer input error = some s := by
  cases error with
  | none => exact pump_early input (.inl h)
  | some error => simp only [onTimer, failed, h, if_true, ite_self]

/-- What is left of a probe that is done is only waited for. -/
theorem onProbe_wound (h : s.stopped = true) (hended : ∀ p ∈ s.objects, p.done = true)
    {input : PumpInput} {event : ProbeEvent} (hs' : s.onProbe input id event = some s') :
    WoundDown s (s.due (.probe id event input)).toNat s' := by
  unfold onProbe at hs'
  cases hid : s.objects[id]? with
  | none =>
      rw [hid] at hs'
      cases hs'
      simp only [due, hid]
      exact .refl h hended
  | some p =>
      rw [hid] at hs'
      dsimp only at hs'
      cases hexpects : p.expects event with
      | false =>
          rw [hexpects] at hs'
          cases hs'
          simp only [due, hid, hexpects]
          exact .refl h hended
      | true =>
          have hdone := hended p (List.mem_of_getElem? hid)
          obtain ⟨-, -, hsame⟩ := consume_frame (p := p) event
          rw [hexpects, hsame, hdone] at hs'
          cases hs'
          have hsum := sum_map_set (f := Probe.pending) (b := p.consume event) hid
          have hpending := Probe.pending_consume hexpects
          refine ⟨⟨h, rfl, rfl, rfl⟩, rfl, by simp [setProbe], ?_, ?_⟩
          · intro q hq
            rcases List.mem_or_eq_of_mem_set hq with hold | rfl
            · exact hended q hold
            · exact hsame.trans hdone
          · simp only [work, setProbe, due, hid, hexpects, Bool.toNat_true]
            omega

theorem handle_wound (h : s.stopped = true) (hended : ∀ p ∈ s.objects, p.done = true)
    {event : Event} (hs' : s.handle event = some s') : WoundDown s (s.due event).toNat s' := by
  cases event with
  | start =>
      cases hs'
      have hsame : s.start = s := by
        unfold start
        rw [if_pos (by simp [h])]
      rw [hsame]
      exact .refl h hended
  | stop =>
      cases hs'
      have hsame : s.stop = s := by
        unfold stop
        rw [if_pos h]
      rw [hsame]
      exact .refl h hended
  | posted input =>
      simp only [handle] at hs'
      cases hposted : s.posted with
      | false =>
          rw [hposted] at hs'
          cases hs'
          simp only [due, hposted]
          exact .refl h hended
      | true =>
          rw [hposted, if_pos rfl, pump_early (s := { s with posted := false }) input (.inl h)] at hs'
          cases hs'
          refine ⟨⟨h, rfl, rfl, rfl⟩, rfl, rfl, hended, ?_⟩
          simp only [work, due, hposted, Bool.toNat_true, Bool.toNat_false]
          omega
  | timer error input =>
      simp only [handle] at hs'
      cases htimer : s.timer.isSome with
      | false =>
          rw [htimer] at hs'
          cases hs'
          simp only [due, htimer]
          exact .refl h hended
      | true =>
          rw [htimer, if_pos rfl, onTimer_stopped (s := { s with timer := none }) h] at hs'
          cases hs'
          refine ⟨⟨h, rfl, rfl, rfl⟩, rfl, rfl, hended, ?_⟩
          simp only [work, due, htimer, Option.isSome_none, Bool.toNat_true, Bool.toNat_false]
          omega
  | staleTimer error input =>
      simp only [handle] at hs'
      by_cases hwaits : 0 < s.staleWaits
      · rw [if_pos hwaits, onTimer_stopped (s := { s with staleWaits := s.staleWaits - 1 }) h] at hs'
        cases hs'
        refine ⟨⟨h, rfl, rfl, rfl⟩, rfl, rfl, hended, ?_⟩
        simp only [work, due, hwaits, decide_true, Bool.toNat_true]
        omega
      · rw [if_neg hwaits] at hs'
        cases hs'
        simp only [due, hwaits, decide_false]
        exact .refl h hended
  | probe id event input => exact onProbe_wound h hended hs'

theorem after_wound (h : s.stopped = true) (hended : ∀ p ∈ s.objects, p.done = true)
    (events : List Event) (hs' : s.after events = some s') :
    WoundDown s (completions s events) s' := by
  induction events generalizing s with
  | nil =>
      cases hs'
      exact .refl h hended
  | cons event rest ih =>
      obtain ⟨t, ht, hrest⟩ := Option.bind_eq_some_iff.mp hs'
      have hstep := handle_wound h hended ht
      have hlater := hstep.trans (ih hstep.stopped hstep.ended hrest)
      rw [completions, ht]
      exact hlater

/-! ## Runs -/

/-- A stopped manager has no probe that is not done. -/
theorem Inv.ended (h : Inv s) (hstopped : s.stopped = true) : ∀ p ∈ s.objects, p.done = true := by
  intro p hp
  obtain ⟨id, hid⟩ := List.mem_iff_getElem?.mp hp
  by_contra hrunning
  have hheld := h.owned.live id p hid (by simpa using hrunning)
  have hnone := h.quiet hstopped _ (List.mem_of_getElem? hheld)
  cases hnone

/-- The completions of operations in a trail. -/
def stages (heard : List ProbeEvent) : List ProbeOp := heard.filterMap Probe.reports

theorem trail_append (id : Nat) (events more : List Event) {s t : HealthChecks}
    (h : s.after events = some t) : trail id s (events ++ more) = trail id s events ++ trail id t more := by
  induction events generalizing s with
  | nil =>
      cases h
      rfl
  | cons event rest ih =>
      obtain ⟨u, hu, hrest⟩ := Option.bind_eq_some_iff.mp h
      rw [List.cons_append, trail, trail, hu]
      dsimp only
      rw [ih hrest, List.append_assoc]

theorem trail_singleton (id : Nat) (event : Event) (s : HealthChecks) :
    trail id s [event] = (s.hears id event).toList := by
  unfold trail
  cases s.handle event with
  | none => exact List.append_nil _
  | some s' => exact List.append_nil _

/-- A probe hears nothing once it is done. -/
theorem running_of_hears {event : Event} {heard : ProbeEvent} (h : s.hears id event = some heard) :
    ∃ p, s.objects[id]? = some p ∧ p.done = false := by
  cases event with
  | probe other event input =>
      simp only [hears] at h
      split at h
      · split at h
        · rename_i p hp
          split at h
          · rename_i hcond
            rw [Bool.and_eq_true, Bool.not_eq_true'] at hcond
            exact ⟨p, hp, hcond.2⟩
          · cases h
        · cases h
      · cases h
  | _ => cases h

theorem after_append {s₀ : HealthChecks} {events more : List Event} :
    s₀.after (events ++ more) = (s₀.after events).bind fun s => s.after more := by
  unfold after
  rw [List.foldlM_append]
  rfl

/-- A probe that waits for an operation has heard of at most four before. -/
theorem stages_le {config : AppConfig} {now : TimePoint} {s₀ : HealthChecks}
    (hmake : make config now = .ok s₀) (events : List Event) {s : HealthChecks}
    (hrun : s₀.after events = some s) : (stages (trail id s₀ events)).length ≤ 5 := by
  induction events using List.reverseRecOn generalizing s with
  | nil => exact Nat.zero_le _
  | append_singleton events event ih =>
      rw [after_append] at hrun
      obtain ⟨t, ht, -⟩ := Option.bind_eq_some_iff.mp hrun
      rw [trail_append id events [event] ht, trail_singleton]
      unfold stages at ih ⊢
      rw [List.filterMap_append, List.length_append]
      cases hheard : t.hears id event with
      | none => exact ih ht
      | some heard =>
          obtain ⟨p, hid, hrunning⟩ := running_of_hears hheard
          obtain ⟨op, -, hcourse⟩ :=
            ((trailed_make hmake).after events ht).live id p hid hrunning (by simp)
          have hbefore := Probe.length_before p.tls op
          have hstages := hcourse.stages
          rw [List.nil_append] at hstages
          rw [hstages]
          have hone := List.length_filterMap_le Probe.reports (some heard).toList
          simp only [Option.toList_some, List.length_singleton] at hone ⊢
          omega

/-- A running probe is never stuck and a probe lives through at most five operations; after the
manager is stopped all probes are done, and what is outstanding completes at most once without
starting, recording or reporting anything, so that the event loop runs out of its work. -/
theorem probes_end (config : AppConfig) (now : TimePoint) {s₀ s : HealthChecks}
    (events : List Event) (hmake : make config now = .ok s₀) (hrun : s₀.after events = some s) :
    (∀ (id : Nat) (p : Probe), s.objects[id]? = some p → p.done = false →
        ∃ op, p.op = some op ∧ stages (trail id s₀ events) = Probe.before p.tls op)
      ∧ (∀ id, (stages (trail id s₀ events)).length ≤ 5)
      ∧ (s.stopped = true → ∀ more s', s.after more = some s' →
        WoundDown s (completions s more) s' ∧ completions s more ≤ s.work) := by
  have htrailed := (trailed_make hmake).after events hrun
  obtain ⟨hinv, -⟩ := inv_after hmake events hrun
  refine ⟨?_, fun id => stages_le hmake events hrun, ?_⟩
  · intro id p hid hrunning
    obtain ⟨op, hop, hcourse⟩ := htrailed.live id p hid hrunning (by simp)
    exact ⟨op, hop, hcourse.stages⟩
  · intro hstopped more s' hmore
    have hwound := after_wound hstopped (hinv.ended hstopped) more hmore
    have hwork := hwound.work
    exact ⟨hwound, by omega⟩

/-- A probe is under way when the manager is stopped. -/
def stoppedRun : List Event :=
  [.start, .posted ⟨[⟨0, false, .running⟩, ⟨1, false, .running⟩], false⟩, .stop]

def lateCompletions : List Event :=
  [.probe 0 (.resolved (some .operationAborted) false) ⟨[], false⟩,
    .probe 0 (.deadline (some .operationAborted)) ⟨[], false⟩]

theorem probes_end_stopped : ∃ s₀ s s', make oneSlot 0 = .ok s₀ ∧ s₀.after stoppedRun = some s
    ∧ s.after lateCompletions = some s' ∧ s.work = 2 ∧ s'.work = 0
    ∧ WoundDown s (completions s lateCompletions) s' := by
  refine ⟨_, _, _, rfl, rfl, rfl, rfl, rfl, ?_⟩
  exact ((probes_end oneSlot 0 stoppedRun rfl rfl).2.2 rfl lateCompletions _ rfl).1

end HealthChecks

end ApiGate
