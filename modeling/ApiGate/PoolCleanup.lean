import ApiGate.Rate.Checked
import ApiGate.UpstreamPoolSafety

/-!
# Idle connections are always cleaned up

There is one timer, set to the earliest deadline there was when it was armed.
Deadlines only get later with the clock, so a connection that joins while a wait
is outstanding expires no earlier than the wait does, and `Scheduled` holds
between any two handlers: a running pool that has an entry has one wait. The only
ways round `arm_cleanup` are an entry that is taken and a handler that stops the
pool.
-/

namespace ApiGate

/-! ## Runs -/

/-- The pool and the last reading of the clock. -/
structure CleanupUse where
  pool : UpstreamPool := {}
  clock : TimePoint

namespace CleanupUse

/-- `fails` says that setting or starting the timer throws; `wait` is the place of a wait among
those that are outstanding. -/
inductive Call where
  | put (clean fails : Bool) (connection : UpstreamConnection) (now : TimePoint)
  | take (clean : Nat → Bool) (backend : UpstreamConfig) (context : TlsContext) (now : TimePoint)
  | completed (wait : Nat) (error : Error) (fails : Bool) (now : TimePoint)
  | stop (now : TimePoint)

namespace Call

def now : Call → TimePoint
  | .put _ _ _ now => now
  | .take _ _ _ now => now
  | .completed _ _ _ now => now
  | .stop now => now

/-- The same call with a timer that cannot be armed, or that can. -/
def arming (fails : Bool) : Call → Call
  | .put clean _ connection now => .put clean fails connection now
  | .take clean backend context now => .take clean backend context now
  | .completed wait error _ now => .completed wait error fails now
  | .stop now => .stop now

end Call

def pooled (p : UpstreamPool) : Call → UpstreamPool
  | .put clean fails connection now => p.put clean fails connection now
  | .take clean backend context now => (p.take clean backend context now).2
  | .completed wait error fails now =>
      match p.waits[wait]? with
      | none => p
      | some _ => UpstreamPool.onCleanup { p with waits := p.waits.eraseIdx wait } error fails now
  | .stop _ => p.stop

def step (c : Call) (s : CleanupUse) : CleanupUse := ⟨pooled s.pool c, c.now⟩

def after (s : CleanupUse) (calls : List Call) : CleanupUse := EventLoop.run step s calls

/-- The clock never goes back, and a wait is only aborted when it has been cancelled: by `stop`, or
because the timer has been set again for a newer one. -/
def Allows (s : CleanupUse) (c : Call) : Prop :=
  s.clock ≤ c.now
    ∧ ∀ wait fails now, c = .completed wait (some .operationAborted) fails now →
      s.pool.stopped = true ∨ 0 < wait

def Timely (s : CleanupUse) (calls : List Call) : Prop :=
  ∀ before c rest, calls = before ++ c :: rest → (s.after before).Allows c

end CleanupUse

/-! ## The deadlines -/

namespace UpstreamPool

theorem saturatingDeadline_toInt (now : TimePoint) :
    (saturatingDeadline now).toInt = min (2 ^ 63 - 1) (now.toInt + 30000000000) :=
  Rate.toInt_saturating (by decide : 0 ≤ idleTimeout.toInt) now

theorem saturatingDeadline_mono {t now : TimePoint} (h : t ≤ now) :
    saturatingDeadline t ≤ saturatingDeadline now := by
  have hle := Int64.le_iff_toInt_le.mp h
  rw [Int64.le_iff_toInt_le, saturatingDeadline_toInt, saturatingDeadline_toInt]
  omega

theorem earliestDeadline_none {idle : List (Option IdleConnection)}
    (h : earliestDeadline idle = none) : ∀ slot, some slot ∉ idle := by
  induction idle with
  | nil => exact fun _ => List.not_mem_nil
  | cons entry rest ih =>
      cases entry with
      | none =>
          intro slot hmem
          rcases List.mem_cons.mp hmem with heq | hrest
          · cases heq
          · exact ih h slot hrest
      | some first =>
          rw [earliestDeadline] at h
          split at h <;> cases h

/-- The earliest deadline is that of an entry, and no entry has an earlier one. -/
theorem earliestDeadline_some {idle : List (Option IdleConnection)} {deadline : TimePoint}
    (h : earliestDeadline idle = some deadline) :
    (∃ slot, some slot ∈ idle ∧ slot.deadline = deadline)
      ∧ ∀ slot, some slot ∈ idle → deadline ≤ slot.deadline := by
  induction idle generalizing deadline with
  | nil => cases h
  | cons entry rest ih =>
      cases entry with
      | none =>
          obtain ⟨⟨slot, hmem, hslot⟩, hall⟩ := ih h
          refine ⟨⟨slot, List.mem_cons_of_mem _ hmem, hslot⟩, fun other hother => ?_⟩
          rcases List.mem_cons.mp hother with heq | hrest
          · cases heq
          · exact hall other hrest
      | some first =>
          rw [earliestDeadline] at h
          cases hrest : earliestDeadline rest with
          | none =>
              rw [hrest] at h
              cases h
              refine ⟨⟨first, List.mem_cons_self .., rfl⟩, fun other hother => ?_⟩
              rcases List.mem_cons.mp hother with heq | hmem
              · cases heq
                exact Int64.le_refl _
              · exact absurd hmem (earliestDeadline_none hrest other)
          | some later =>
              rw [hrest] at h
              obtain ⟨⟨slot, hmem, hslot⟩, hall⟩ := ih hrest
              dsimp only at h
              split at h
              · rename_i hlt
                cases h
                refine ⟨⟨slot, List.mem_cons_of_mem _ hmem, hslot⟩, fun other hother => ?_⟩
                rcases List.mem_cons.mp hother with heq | hmem'
                · cases heq
                  exact Int64.le_of_lt hlt
                · exact hall other hmem'
              · rename_i hge
                cases h
                refine ⟨⟨first, List.mem_cons_self .., rfl⟩, fun other hother => ?_⟩
                rcases List.mem_cons.mp hother with heq | hmem'
                · cases heq
                  exact Int64.le_refl _
                · exact Int64.le_trans (Int64.not_lt.mp hge) (hall other hmem')

/-! ## The invariant -/

/-- The wait that is outstanding, if there is one, is early enough for every entry there is and
for every one that may still join. -/
structure Ready (clock : TimePoint) (p : UpstreamPool) : Prop where
  deadline_le : ∀ slot, some slot ∈ p.idle → slot.deadline ≤ saturatingDeadline clock
  pending : p.timerPending = true → ∃ w, p.waits = [w] ∧ w ≤ saturatingDeadline clock
    ∧ ∀ slot, some slot ∈ p.idle → w ≤ slot.deadline
  quiet : p.timerPending = false → p.waits = []

/-- What holds between two handlers: without a wait there is no entry. -/
structure Scheduled (clock : TimePoint) (p : UpstreamPool) : Prop where
  halted : p.Halted
  ready : p.stopped = false → Ready clock p
  empty : p.stopped = false → p.timerPending = false → p.Empty

section Steps

variable {p p' : UpstreamPool} {clock now : TimePoint}

theorem Ready.later (h : Ready clock p) (hle : clock ≤ now) : Ready now p := by
  have hmono := saturatingDeadline_mono hle
  refine ⟨fun slot hslot => Int64.le_trans (h.deadline_le slot hslot) hmono, fun hpending => ?_,
    h.quiet⟩
  obtain ⟨w, hw, hle', hall⟩ := h.pending hpending
  exact ⟨w, hw, Int64.le_trans hle' hmono, hall⟩

/-- Entries that go leave the wait too early at most. -/
theorem Ready.of_moves (h : Ready clock p) (hmoves : Moves none p p')
    (hwaits : p'.waits = p.waits) (hpending : p'.timerPending = p.timerPending) :
    Ready clock p' := by
  have hold : ∀ slot, some slot ∈ p'.idle → some slot ∈ p.idle := by
    intro slot hslot
    have hmem := hmoves.entries slot hslot
    simpa using hmem
  refine ⟨fun slot hslot => h.deadline_le slot (hold slot hslot), ?_, ?_⟩
  · rw [hpending, hwaits]
    intro htrue
    obtain ⟨w, hw, hle, hall⟩ := h.pending htrue
    exact ⟨w, hw, hle, fun slot hslot => hall slot (hold slot hslot)⟩
  · rw [hpending, hwaits]
    exact h.quiet

/-- A connection that joins expires no earlier than the wait. -/
theorem Ready.fill (h : Ready now p) {connection : UpstreamConnection}
    {idle : List (Option IdleConnection)}
    (hfill : fillFirst ⟨connection, saturatingDeadline now⟩ p.idle = some idle) :
    Ready now { p with idle } := by
  obtain ⟨-, -, hentries⟩ := fillFirst_spec hfill
  refine ⟨fun slot hslot => ?_, fun hpending => ?_, h.quiet⟩
  · rcases hentries slot hslot with rfl | hold
    · exact Int64.le_refl _
    · exact h.deadline_le slot hold
  · obtain ⟨w, hw, hle, hall⟩ := h.pending hpending
    refine ⟨w, hw, hle, fun slot hslot => ?_⟩
    rcases hentries slot hslot with rfl | hold
    · exact hle
    · exact hall slot hold

theorem scheduled_of_stopped (h : p.stopped = true) (hempty : p.Empty) : Scheduled clock p :=
  ⟨fun _ => hempty, fun hrunning => absurd (h.symm.trans hrunning) (by decide),
    fun hrunning => absurd (h.symm.trans hrunning) (by decide)⟩

theorem stop_empty (h : p.stopped = false) : p.stop.stopped = true ∧ p.stop.Empty := by
  have hhalted := stop_halted (halted_of_running (Bool.eq_false_iff.mp h))
  exact ⟨stop_stopped p, hhalted (stop_stopped p)⟩

theorem stop_scheduled (h : Scheduled clock p) (now : TimePoint) : Scheduled now p.stop :=
  scheduled_of_stopped (stop_stopped p) (stop_halted h.halted (stop_stopped p))

/-- Arming the timer of a running pool. -/
theorem armCleanup_scheduled (hrunning : p.stopped = false) (h : Ready clock p) (fails : Bool) :
    ((p.armCleanup fails).1 = .ok () ∧ Scheduled clock (p.armCleanup fails).2)
      ∨ (fails = true ∧ (p.armCleanup fails).1 = .error ()
        ∧ (p.armCleanup fails).2.stopped = false) := by
  have hhalted : p.Halted := halted_of_running (Bool.eq_false_iff.mp hrunning)
  unfold armCleanup
  split
  · rename_i hguard
    left
    refine ⟨rfl, hhalted, fun _ => h, fun _ hquiet => ?_⟩
    have hpending : p.timerPending = true := by simpa [hrunning] using hguard
    exact absurd (hpending.symm.trans hquiet) (by decide)
  · rename_i hguard
    have hquiet : p.timerPending = false := by simpa [hrunning] using hguard
    split
    · rename_i hnone
      exact .inl ⟨rfl, hhalted, fun _ => h, fun _ _ => earliestDeadline_none hnone⟩
    · rename_i deadline hsome
      obtain ⟨⟨slot, hmem, hslot⟩, hall⟩ := earliestDeadline_some hsome
      cases fails with
      | true => exact .inr ⟨rfl, rfl, hrunning⟩
      | false =>
          left
          refine ⟨rfl, fun hstopped => absurd (hrunning.symm.trans hstopped) (by decide),
            fun _ => ⟨h.deadline_le, fun _ => ⟨deadline, ?_, ?_, hall⟩, ?_⟩, ?_⟩
          · show deadline :: p.waits = [deadline]
            rw [h.quiet hquiet]
          · rw [← hslot]
            exact h.deadline_le slot hmem
          · intro hpending
            cases hpending
          · intro _ hpending
            cases hpending

theorem Scheduled.later (h : Scheduled clock p) (hle : clock ≤ now) : Scheduled now p :=
  ⟨h.halted, fun hrunning => (h.ready hrunning).later hle, h.empty⟩

theorem put_scheduled (h : Scheduled clock p) (hle : clock ≤ now) (clean fails : Bool)
    (connection : UpstreamConnection) : Scheduled now (p.put clean fails connection now) := by
  unfold put
  split
  · exact h.later hle
  · rename_i hguard
    rw [Bool.or_eq_true, not_or, Bool.not_eq_true] at hguard
    have hrunning : p.stopped = false := hguard.1
    have hready : Ready now (p.expire now) :=
      ((h.ready hrunning).later hle).of_moves (expire_moves p now) rfl rfl
    dsimp only
    split
    · refine ⟨halted_of_running (Bool.eq_false_iff.mp hrunning), fun _ => hready, fun _ hquiet => ?_⟩
      exact (expire_moves p now).empty (h.empty hrunning hquiet)
    · rename_i idle hfill
      have harm := armCleanup_scheduled (p := { p.expire now with idle }) hrunning
        (hready.fill hfill) fails
      split
      · rename_i heq
        rw [heq] at harm
        rcases harm with ⟨-, hscheduled⟩ | ⟨-, herror, -⟩
        · exact hscheduled
        · cases herror
      · rename_i heq
        rw [heq] at harm
        rcases harm with ⟨hok, -⟩ | ⟨-, -, hstill⟩
        · cases hok
        · exact scheduled_of_stopped (stop_stopped _) (stop_empty hstill).2

/-- The handler of a wait of the timer, which has completed with or without an error. -/
theorem onCleanup_scheduled (h : Scheduled clock p) (hle : clock ≤ now) {wait : Nat} {w : TimePoint}
    (hwait : p.waits[wait]? = some w) (error : Error) (fails : Bool)
    (haborted : error = some .operationAborted → p.stopped = true ∨ 0 < wait) :
    Scheduled now (onCleanup { p with waits := p.waits.eraseIdx wait } error fails now) := by
  by_cases hrunning : p.stopped = true
  · have hsame := onCleanup_stopped (p := { p with waits := p.waits.eraseIdx wait }) hrunning error
      fails now
    rw [hsame]
    exact scheduled_of_stopped hrunning (h.halted hrunning)
  · have hrunning' : p.stopped = false := Bool.eq_false_iff.mpr hrunning
    have hready := h.ready hrunning'
    -- the wait that completes is the one there was
    have hpending : p.timerPending = true := by
      by_contra hquiet
      rw [hready.quiet (Bool.eq_false_iff.mpr hquiet)] at hwait
      cases hwait
    obtain ⟨w', hwaits, -, -⟩ := hready.pending hpending
    have hzero : wait = 0 := by
      rw [hwaits] at hwait
      have hlt := (List.getElem?_eq_some_iff.mp hwait).1
      rw [List.length_singleton] at hlt
      omega
    subst hzero
    have hnone : ({ p with timerPending := false, waits := p.waits.eraseIdx 0 } : UpstreamPool).waits
        = [] := by
      show p.waits.eraseIdx 0 = []
      rw [hwaits]
      rfl
    have hfree : Ready now { p with timerPending := false, waits := p.waits.eraseIdx 0 } :=
      ⟨(hready.later hle).deadline_le, fun htrue => absurd htrue Bool.false_ne_true, fun _ => hnone⟩
    unfold onCleanup
    rw [if_neg hrunning]
    dsimp only
    split
    · split
      · exact scheduled_of_stopped (stop_stopped _)
          (stop_empty (p := { p with timerPending := false, waits := p.waits.eraseIdx 0 }) hrunning').2
      · rename_i herror
        rcases haborted (Classical.not_not.mp herror) with hstopped | hlt
        · exact absurd hstopped hrunning
        · exact absurd hlt (Nat.lt_irrefl 0)
    · have harm := armCleanup_scheduled
        (p := UpstreamPool.expire { p with timerPending := false, waits := p.waits.eraseIdx 0 } now)
        hrunning' (hfree.of_moves (expire_moves _ now) rfl rfl) fails
      split
      · rename_i heq
        rw [heq] at harm
        rcases harm with ⟨-, hscheduled⟩ | ⟨-, herror, -⟩
        · exact hscheduled
        · cases herror
      · rename_i heq
        rw [heq] at harm
        rcases harm with ⟨hok, -⟩ | ⟨-, -, hstill⟩
        · cases hok
        · exact scheduled_of_stopped (stop_stopped _) (stop_empty hstill).2

theorem take_scheduled (h : Scheduled clock p) (hle : clock ≤ now) (clean : Nat → Bool)
    (backend : UpstreamConfig) (context : TlsContext) :
    Scheduled now (p.take clean backend context now).2 := by
  have hmoves := take_moves p clean backend context now
  have hstopped := take_keeps_stopped p clean backend context now
  have hframe : (p.take clean backend context now).2.waits = p.waits
      ∧ (p.take clean backend context now).2.timerPending = p.timerPending := by
    unfold take
    split
    · exact ⟨rfl, rfl⟩
    · exact ⟨rfl, rfl⟩
  refine ⟨?_, ?_, ?_⟩
  · rw [Halted, hstopped]
    exact fun htrue => hmoves.empty (h.halted htrue)
  · rw [hstopped]
    exact fun hrunning => ((h.ready hrunning).later hle).of_moves hmoves hframe.1 hframe.2
  · rw [hstopped, hframe.2]
    exact fun hrunning hquiet => hmoves.empty (h.empty hrunning hquiet)

/-! ## A timer that cannot be armed -/

/-- Arming that throws differs from arming that does not only where there is something to arm,
and then the pool still runs. -/
theorem armCleanup_fails (hrunning : p.stopped = false) :
    p.armCleanup true = p.armCleanup false
      ∨ ((p.armCleanup true).1 = .error () ∧ (p.armCleanup true).2.stopped = false) := by
  unfold armCleanup
  split
  · exact .inl rfl
  · split
    · exact .inl rfl
    · exact .inr ⟨rfl, hrunning⟩

theorem put_fails (clean : Bool) (connection : UpstreamConnection) (now : TimePoint) :
    p.put clean true connection now = p.put clean false connection now
      ∨ ((p.put clean true connection now).stopped = true
        ∧ (p.put clean true connection now).Empty) := by
  unfold put
  split
  · exact .inl rfl
  · rename_i hguard
    rw [Bool.or_eq_true, not_or, Bool.not_eq_true] at hguard
    dsimp only
    split
    · exact .inl rfl
    · rename_i idle _
      rcases armCleanup_fails (p := { p.expire now with idle }) hguard.1 with
        hsame | ⟨herror, hstill⟩
      · rw [hsame]
        exact .inl rfl
      · right
        split
        · rename_i heq
          rw [heq] at herror
          cases herror
        · rename_i heq
          rw [heq] at hstill
          exact stop_empty hstill

theorem onCleanup_fails (error : Error) (now : TimePoint) :
    p.onCleanup error true now = p.onCleanup error false now
      ∨ ((p.onCleanup error true now).stopped = true ∧ (p.onCleanup error true now).Empty) := by
  unfold onCleanup
  split
  · exact .inl rfl
  · rename_i hguard
    have hrunning : p.stopped = false := Bool.eq_false_iff.mpr hguard
    dsimp only
    split
    · exact .inl rfl
    · obtain hsame | ⟨herror, hstill⟩ := armCleanup_fails
        (p := UpstreamPool.expire { p with timerPending := false } now) hrunning
      · rw [hsame]
        exact .inl rfl
      · right
        split
        · rename_i heq
          rw [heq] at herror
          cases herror
        · rename_i heq
          rw [heq] at hstill
          exact stop_empty hstill

end Steps

end UpstreamPool

/-! ## Every run -/

namespace CleanupUse

open UpstreamPool

theorem step_scheduled (c : Call) (s : CleanupUse) (hc : s.Allows c)
    (h : Scheduled s.clock s.pool) : Scheduled (step c s).clock (step c s).pool := by
  obtain ⟨hle, haborted⟩ := hc
  cases c with
  | put clean fails connection now => exact put_scheduled h hle clean fails connection
  | take clean backend context now => exact take_scheduled h hle clean backend context
  | completed wait error fails now =>
      show Scheduled now (pooled s.pool (.completed wait error fails now))
      rw [pooled]
      split
      · exact h.later hle
      · rename_i w hwait
        refine onCleanup_scheduled h hle hwait error fails ?_
        rintro rfl
        exact haborted wait fails now rfl
  | stop now => exact stop_scheduled h now

theorem after_scheduled {s : CleanupUse} (h : Scheduled s.clock s.pool) {calls : List Call}
    (htimely : s.Timely calls) : Scheduled (s.after calls).clock (s.after calls).pool :=
  EventLoop.run_invariant_along (fun s => Scheduled s.clock s.pool) step_scheduled h calls htimely

theorem step_stopped (c : Call) (s : CleanupUse)
    (h : s.pool.stopped = true ∧ s.pool.Empty) :
    (step c s).pool.stopped = true ∧ (step c s).pool.Empty := by
  show (pooled s.pool c).stopped = true ∧ (pooled s.pool c).Empty
  obtain ⟨hstopped, hempty⟩ := h
  cases c with
  | put clean fails connection now =>
      rw [pooled, put_stopped hstopped]
      exact ⟨hstopped, hempty⟩
  | take clean backend context now =>
      rw [pooled, take_stopped hstopped]
      exact ⟨hstopped, hempty⟩
  | completed wait error fails now =>
      rw [pooled]
      split
      · exact ⟨hstopped, hempty⟩
      · have hsame := onCleanup_stopped (p := { s.pool with waits := s.pool.waits.eraseIdx wait })
          hstopped error fails now
        rw [hsame]
        exact ⟨hstopped, hempty⟩
  | stop now => exact ⟨stop_stopped _, (stop_moves s.pool).empty hempty⟩

theorem after_stopped {s : CleanupUse} (h : s.pool.stopped = true ∧ s.pool.Empty)
    (calls : List Call) : (s.after calls).pool.stopped = true ∧ (s.after calls).pool.Empty :=
  EventLoop.run_invariant_all (fun s : CleanupUse => s.pool.stopped = true ∧ s.pool.Empty)
    step_stopped h calls

theorem pooled_fails (p : UpstreamPool) (c : Call) :
    pooled p (c.arming true) = pooled p (c.arming false)
      ∨ ((pooled p (c.arming true)).stopped = true ∧ (pooled p (c.arming true)).Empty) := by
  cases c with
  | put clean fails connection now => exact put_fails clean connection now
  | take clean backend context now => exact .inl rfl
  | completed wait error fails now =>
      simp only [Call.arming, pooled]
      split
      · exact .inl rfl
      · exact onCleanup_fails error now
  | stop now => exact .inl rfl

/-- A running pool with an entry has one wait outstanding, due no later than any entry; and a call
during which the timer cannot be armed either does not need it or leaves the pool stopped and empty
for good. -/
theorem cleanup_scheduled (start : TimePoint) (calls : List Call)
    (htimely : Timely { clock := start } calls) :
    ((after { clock := start } calls).pool.stopped = false →
        (∃ slot, some slot ∈ (after { clock := start } calls).pool.idle) →
        ∃ w, (after { clock := start } calls).pool.waits = [w]
          ∧ ∀ slot, some slot ∈ (after { clock := start } calls).pool.idle → w ≤ slot.deadline)
      ∧ ∀ c : Call,
        step (c.arming true) (after { clock := start } calls)
            = step (c.arming false) (after { clock := start } calls)
          ∨ ∀ more, ((step (c.arming true) (after { clock := start } calls)).after more).pool.stopped
              = true
            ∧ ((step (c.arming true) (after { clock := start } calls)).after more).pool.Empty := by
  have hstart : Scheduled start ({} : UpstreamPool) := by
    have hempty : ({} : UpstreamPool).Empty := by
      intro slot hmem
      cases (List.mem_replicate.mp hmem).2
    refine ⟨fun _ => hempty, fun _ => ⟨fun slot hslot => absurd hslot (hempty slot), ?_, fun _ => rfl⟩,
      fun _ _ => hempty⟩
    intro hpending
    cases hpending
  have h := after_scheduled (s := { clock := start }) hstart htimely
  refine ⟨?_, fun c => ?_⟩
  · rintro hrunning ⟨slot, hslot⟩
    have hready := h.ready hrunning
    cases hpending : (after { clock := start } calls).pool.timerPending with
    | false => exact absurd hslot (h.empty hrunning hpending slot)
    | true =>
        obtain ⟨w, hw, -, hall⟩ := hready.pending hpending
        exact ⟨w, hw, hall⟩
  · rcases pooled_fails (after { clock := start } calls).pool c with hsame | hstopped
    · left
      have hnow : (c.arming true).now = (c.arming false).now := by cases c <;> rfl
      unfold step
      rw [hsame, hnow]
    · exact .inr fun more => after_stopped hstopped more

theorem timely_nil (s : CleanupUse) : Timely s [] := by
  intro before c rest hsplit
  exact absurd hsplit.symm (by simp)

theorem Timely.cons {s : CleanupUse} {c : Call} {calls : List Call} (hc : s.Allows c)
    (h : Timely (step c s) calls) : Timely s (c :: calls) := by
  intro before c' rest hsplit
  cases before with
  | nil =>
      obtain ⟨rfl, -⟩ := List.cons.inj hsplit
      exact hc
  | cons first before =>
      obtain ⟨rfl, hrest⟩ := List.cons.inj hsplit
      exact h before c' rest hrest

theorem allows_unaborted {s : CleanupUse} {c : Call} (hclock : s.clock ≤ c.now)
    (h : ∀ wait fails now, c ≠ .completed wait (some .operationAborted) fails now) : s.Allows c :=
  ⟨hclock, fun wait fails now heq => absurd heq (h wait fails now)⟩

/-- Two connections are put. When the wait for the first one ends, the timer is set again for the
second one. -/
def twoPuts : List Call :=
  [.put true false ⟨0, ⟨[], 80, 3000, .http⟩, none⟩ 0,
    .put true false ⟨1, ⟨[], 80, 3000, .http⟩, none⟩ 5,
    .completed 0 none false 30000000001]

theorem cleanup_scheduled_again :
    (after { clock := 0 } twoPuts).pool.idleCount = 1
      ∧ ∃ w, (after { clock := 0 } twoPuts).pool.waits = [w]
        ∧ ∀ slot, some slot ∈ (after { clock := 0 } twoPuts).pool.idle → w ≤ slot.deadline := by
  have htimely : Timely { clock := 0 } twoPuts := by
    refine .cons (allows_unaborted (by decide) ?_) (.cons (allows_unaborted (by decide) ?_)
      (.cons (allows_unaborted (by decide) ?_) (timely_nil _)))
    all_goals
      intro wait fails now heq
      cases heq
  obtain ⟨hwait, -⟩ := cleanup_scheduled 0 twoPuts htimely
  refine ⟨by decide, hwait rfl ⟨⟨⟨1, ⟨[], 80, 3000, .http⟩, none⟩, 30000000005⟩, by decide⟩⟩

end CleanupUse

end ApiGate
