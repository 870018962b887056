import Mathlib.Algebra.Group.Int.Defs
import Mathlib.Data.List.Chain
import Mathlib.Data.List.Nodup
import ApiGate.HealthChecks
import ApiGate.Rate.Checked

/-!
# Health checks are never lost or doubled

The bookkeeping of the manager is spread over the schedule, the slots' probes
and the probes themselves; `Inv` says that they agree. Between the moment the
schedule hands out a slot and the moment its probe is there they do not, and if
making the probe throws, `Stoppable` is all that is left; but that is enough for
`stop` to restore the rest (`Stoppable.stop`).
-/

namespace ApiGate

/-! ## The schedule -/

namespace ProbeSchedule

/-- Everything that `take_due` can do. -/
theorem takeDueFrom_cases (now : TimePoint) (visits : Nat) (s : ProbeSchedule) :
    (∃ c, takeDueFrom now visits s = (none, { s with cursor := c }))
      ∨ ∃ c index slot, s.slots[index]? = some slot ∧ slot.inFlight = false ∧ slot.due ≤ now
        ∧ takeDueFrom now visits s = (some index,
          { s with
            cursor := c
            slots := s.slots.set index
              { slot with inFlight := true, due := dueAfter slot.interval now }
            active := s.active + 1 }) := by
  induction visits generalizing s with
  | zero => exact .inl ⟨s.cursor, rfl⟩
  | succ visits ih =>
      have hlater := ih { s with cursor := if s.cursor + 1 = s.slots.length then 0 else s.cursor + 1 }
      rw [takeDueFrom]
      dsimp only
      split
      · rename_i slot hslot
        split
        · rename_i hdue
          have hdue' : slot.inFlight = false ∧ slot.due ≤ now := by simpa using hdue
          exact .inr ⟨_, s.cursor, slot, hslot, hdue'.1, hdue'.2, rfl⟩
        · exact hlater
      · exact hlater

theorem takeDue_cases (s : ProbeSchedule) (now : TimePoint) :
    (∃ c, s.takeDue now = (none, { s with cursor := c }))
      ∨ ∃ c index slot, s.stopped = false ∧ s.active ≠ 4 ∧ s.slots[index]? = some slot
        ∧ slot.inFlight = false ∧ slot.due ≤ now
        ∧ s.takeDue now = (some index,
          { s with
            cursor := c
            slots := s.slots.set index
              { slot with inFlight := true, due := dueAfter slot.interval now }
            active := s.active + 1 }) := by
  unfold takeDue
  split
  · exact .inl ⟨s.cursor, rfl⟩
  · rename_i hguard
    simp only [Bool.or_eq_true, decide_eq_true_eq, not_or, Bool.not_eq_true] at hguard
    rcases takeDueFrom_cases now s.slots.length s with h | ⟨c, index, slot, hslot⟩
    · exact .inl h
    · exact .inr ⟨c, index, slot, hguard.1, hguard.2, hslot⟩

theorem complete_cases (s : ProbeSchedule) (index : Nat) :
    (s.slots[index]? = none ∧ s.complete index = .error ())
      ∨ (∃ slot, s.slots[index]? = some slot ∧ slot.inFlight = false ∧ s.complete index = .ok s)
      ∨ ∃ slot, s.slots[index]? = some slot ∧ slot.inFlight = true
        ∧ s.complete index = .ok { s with
            slots := s.slots.set index { slot with inFlight := false }, active := s.active - 1 } := by
  unfold complete
  cases hslot : s.slots[index]? with
  | none => exact .inl ⟨rfl, rfl⟩
  | some slot =>
      cases hflight : slot.inFlight with
      | false => exact .inr (.inl ⟨slot, rfl, hflight, by simp [hflight]⟩)
      | true => exact .inr (.inr ⟨slot, rfl, hflight, by simp [hflight]⟩)

theorem earliestDue_none {slots : List ProbeSlot} (h : earliestDue slots = none) :
    ∀ slot ∈ slots, slot.inFlight = true := by
  induction slots with
  | nil => simp
  | cons first rest ih =>
      rw [earliestDue] at h
      cases hrest : earliestDue rest with
      | none =>
          rw [hrest] at h
          rw [List.forall_mem_cons]
          refine ⟨?_, ih hrest⟩
          by_contra hidle
          simp [hidle] at h
      | some other =>
          rw [hrest] at h
          dsimp only at h
          split at h <;> cases h

theorem earliestDue_some {slots : List ProbeSlot} {due : TimePoint}
    (h : earliestDue slots = some due) :
    ∀ slot ∈ slots, slot.inFlight = false → due ≤ slot.due := by
  induction slots generalizing due with
  | nil => simp
  | cons first rest ih =>
      rw [earliestDue] at h
      rw [List.forall_mem_cons]
      cases hrest : earliestDue rest with
      | none =>
          rw [hrest] at h
          have hall := earliestDue_none hrest
          refine ⟨?_, fun slot hslot hidle => absurd (hall slot hslot) (by simp [hidle])⟩
          intro hidle
          simp only [hidle] at h
          cases h
          exact Int64.le_refl _
      | some other =>
          rw [hrest] at h
          dsimp only at h
          have hnext := ih hrest
          split at h
          · rename_i hcond
            cases h
            refine ⟨fun hidle => ?_, hnext⟩
            have hlt : due < first.due := by simpa [hidle] using hcond
            exact Int64.le_of_lt hlt
          · rename_i hcond
            cases h
            refine ⟨fun _ => Int64.le_refl _, fun slot hslot hidle => ?_⟩
            have hge : ¬ other < first.due := fun hlt => hcond (by simp [hlt])
            exact Int64.le_trans (Int64.not_lt.mp hge) (hnext slot hslot hidle)

/-- The next start is due after the interval, as far as the clock goes. -/
theorem dueAfter_toInt {interval : Int64} (h : 0 ≤ interval.toInt) (now : TimePoint) :
    (dueAfter interval now).toInt = min (2 ^ 63 - 1) (now.toInt + interval.toInt) :=
  Rate.toInt_saturating h now

end ProbeSchedule

/-! ## The invariant -/

namespace HealthChecks

/-- The times at which the slot's probes were started, newest first. -/
def startTimes (starts : List ProbeStart) (slot : Nat) : List TimePoint :=
  (starts.filter fun start => start.slot = slot).map ProbeStart.time

/-- Two starts are the interval apart, or the clock has reached its end. -/
def Spaced (interval : Int64) (later earlier : TimePoint) : Prop :=
  earlier.toInt + interval.toInt ≤ later.toInt ∨ later = Int64.maxValue

/-- The slots belong to the targets, and no slot is due before its last start and its interval. -/
structure Timed (targets : List ProbeTarget) (slots : List ProbeSlot) (probes : List (Option Nat))
    (starts : List ProbeStart) : Prop where
  slots_length : slots.length = targets.length
  probes_length : probes.length = targets.length
  interval : ∀ (i : Nat) (slot : ProbeSlot), slots[i]? = some slot →
    0 ≤ slot.interval.toInt ∧ slot.interval.toInt ≤ 60000000000
      ∧ ∃ target : ProbeTarget, targets[i]? = some target
        ∧ slot.interval = ProbeSchedule.nanoseconds target.health.intervalMs
  spaced : ∀ (i : Nat) (slot : ProbeSlot), slots[i]? = some slot →
    (startTimes starts i).IsChain (Spaced slot.interval)
      ∧ ∀ t ∈ (startTimes starts i).head?, ProbeSchedule.dueAfter slot.interval t ≤ slot.due

/-- The slots in flight are those with a probe. -/
structure Booked (schedule : ProbeSchedule) (probes : List (Option Nat)) : Prop where
  flight : schedule.slots.map ProbeSlot.inFlight = probes.map Option.isSome
  active : schedule.active = schedule.slots.countP ProbeSlot.inFlight
  bound : schedule.active ≤ 4

/-- The probes that are not done are those that a slot holds, each in its own. -/
structure Owned (probes : List (Option Nat)) (objects : List Probe) (starts : List ProbeStart) :
    Prop where
  held : ∀ (i id : Nat), probes[i]? = some (some id) →
    ∃ p : Probe, objects[id]? = some p ∧ p.done = false ∧ p.slot = i
  live : ∀ (id : Nat) (p : Probe), objects[id]? = some p → p.done = false →
    probes[p.slot]? = some (some id)
  begun : ∀ (id : Nat) (p : Probe), objects[id]? = some p →
    ∃ start ∈ starts, start.probe = id ∧ start.slot = p.slot
  ids : starts.map ProbeStart.probe = (List.range objects.length).reverse

/-- A probe has at most one record, for its own target, and is done then. -/
structure Logged (targets : List ProbeTarget) (objects : List Probe) (records : List ProbeRecord) :
    Prop where
  recorded : ∀ r ∈ records, ∃ (p : Probe) (target : ProbeTarget), objects[r.probe]? = some p
    ∧ p.done = true ∧ targets[p.slot]? = some target ∧ r.route = target.route
    ∧ r.upstream = target.upstream
  once : (records.map ProbeRecord.probe).Nodup

/-- What holds even when a slot has been handed out in vain. -/
structure Stoppable (s : HealthChecks) : Prop where
  timed : Timed s.targets s.schedule.slots s.probes s.starts
  owned : Owned s.probes s.objects s.starts
  logged : Logged s.targets s.objects s.records

structure Inv (s : HealthChecks) : Prop extends Stoppable s where
  booked : Booked s.schedule s.probes
  halted : s.schedule.stopped = s.stopped
  quiet : s.stopped = true → ∀ e ∈ s.probes, e = none

/-- What an entry of a list is after another may have been replaced. -/
theorem getElem?_set_cases {α : Type} {l : List α} {i j : Nat} {a b : α}
    (h : (l.set i a)[j]? = some b) : (j = i ∧ b = a) ∨ (j ≠ i ∧ l[j]? = some b) := by
  by_cases hij : i = j
  · subst hij
    obtain ⟨hlt, hget⟩ := List.getElem?_eq_some_iff.mp h
    rw [List.getElem_set_self] at hget
    exact .inl ⟨rfl, hget.symm⟩
  · rw [List.getElem?_set_ne hij] at h
    exact .inr ⟨fun heq => hij heq.symm, h⟩

/-! ### Timing -/

theorem startTimes_cons (start : ProbeStart) (starts : List ProbeStart) (i : Nat) :
    startTimes (start :: starts) i
      = if start.slot = i then start.time :: startTimes starts i else startTimes starts i := by
  unfold startTimes
  by_cases h : start.slot = i
  · simp [h]
  · simp [h]

section Timed

variable {targets : List ProbeTarget} {slots : List ProbeSlot} {probes probes' : List (Option Nat)}
  {starts : List ProbeStart} {index : Nat} {slot : ProbeSlot}

theorem Timed.of_length (h : Timed targets slots probes starts)
    (hlength : probes'.length = probes.length) : Timed targets slots probes' starts :=
  { h with probes_length := hlength.trans h.probes_length }

/-- A slot is replaced by one with the same interval that is due no earlier. -/
theorem Timed.set (h : Timed targets slots probes starts) (hslot : slots[index]? = some slot)
    {slot' : ProbeSlot} (hinterval : slot'.interval = slot.interval)
    (hdue : slot.due ≤ slot'.due) : Timed targets (slots.set index slot') probes starts := by
  refine ⟨by rw [List.length_set]; exact h.slots_length, h.probes_length, ?_, ?_⟩
  · intro i other hi
    rcases getElem?_set_cases hi with ⟨rfl, rfl⟩ | ⟨-, hi⟩
    · rw [hinterval]
      exact h.interval i slot hslot
    · exact h.interval i other hi
  · intro i other hi
    rcases getElem?_set_cases hi with ⟨rfl, rfl⟩ | ⟨-, hi⟩
    · obtain ⟨hchain, hlast⟩ := h.spaced i slot hslot
      rw [hinterval]
      exact ⟨hchain, fun t ht => Int64.le_trans (hlast t ht) hdue⟩
    · exact h.spaced i other hi

/-- The time at which a slot is handed out comes after its last start and its interval. -/
theorem Timed.spaced_at (h : Timed targets slots probes starts) (hslot : slots[index]? = some slot)
    {now : TimePoint} (hdue : slot.due ≤ now) :
    ∀ t ∈ (startTimes starts index).head?, Spaced slot.interval now t := by
  intro t ht
  obtain ⟨hlow, -, -⟩ := h.interval index slot hslot
  have hlast := Int64.le_iff_toInt_le.mp
    (Int64.le_trans ((h.spaced index slot hslot).2 t ht) hdue)
  rw [ProbeSchedule.dueAfter_toInt hlow] at hlast
  have hnow := Int64.toInt_lt now
  by_cases hend : t.toInt + slot.interval.toInt ≤ now.toInt
  · exact .inl hend
  · right
    have hmax : Int64.maxValue.toInt = 2 ^ 63 - 1 := by decide
    rw [← Int64.toInt_inj, hmax]
    omega

theorem Timed.due_le (h : Timed targets slots probes starts) (hslot : slots[index]? = some slot)
    {now : TimePoint} (hdue : slot.due ≤ now) :
    slot.due ≤ ProbeSchedule.dueAfter slot.interval now := by
  obtain ⟨hlow, -, -⟩ := h.interval index slot hslot
  have hle := Int64.le_iff_toInt_le.mp hdue
  have hnow := Int64.toInt_lt now
  rw [Int64.le_iff_toInt_le, ProbeSchedule.dueAfter_toInt hlow]
  omega

/-- The slot is handed out; its probe may yet fail. -/
theorem Timed.hand (h : Timed targets slots probes starts) (hslot : slots[index]? = some slot)
    {now : TimePoint} (hdue : slot.due ≤ now) :
    Timed targets (slots.set index
      { slot with inFlight := true, due := ProbeSchedule.dueAfter slot.interval now })
      probes starts :=
  h.set hslot rfl (h.due_le hslot hdue)

/-- The slot is handed out and its probe started. -/
theorem Timed.begin (h : Timed targets slots probes starts) (hslot : slots[index]? = some slot)
    {now : TimePoint} (hdue : slot.due ≤ now) (id : Nat) :
    Timed targets (slots.set index
      { slot with inFlight := true, due := ProbeSchedule.dueAfter slot.interval now })
      probes (⟨index, now, id⟩ :: starts) := by
  have hhand := h.hand hslot hdue
  refine { hhand with spaced := ?_ }
  intro i other hi
  obtain ⟨hchain, hlast⟩ := hhand.spaced i other hi
  rw [startTimes_cons]
  dsimp only
  split
  · rename_i heq
    subst heq
    rw [List.getElem?_set_self (List.getElem?_eq_some_iff.mp hslot).1] at hi
    cases hi
    refine ⟨?_, ?_⟩
    · rw [List.isChain_cons]
      exact ⟨h.spaced_at hslot hdue, hchain⟩
    · intro t ht
      cases ht
      exact Int64.le_refl _
  · exact ⟨hchain, hlast⟩

theorem Timed.stop (h : Timed targets slots probes starts) :
    Timed targets (slots.map fun slot => { slot with inFlight := false })
      (probes.map fun _ => none) starts := by
  refine ⟨by rw [List.length_map]; exact h.slots_length,
    by rw [List.length_map]; exact h.probes_length, ?_, ?_⟩
  · intro i other hi
    rw [List.getElem?_map, Option.map_eq_some_iff] at hi
    obtain ⟨slot, hslot, rfl⟩ := hi
    exact h.interval i slot hslot
  · intro i other hi
    rw [List.getElem?_map, Option.map_eq_some_iff] at hi
    obtain ⟨slot, hslot, rfl⟩ := hi
    exact h.spaced i slot hslot

end Timed

/-! ### Slots and probes -/

section Booked

variable {schedule : ProbeSchedule} {probes : List (Option Nat)} {index : Nat} {slot : ProbeSlot}

theorem Booked.count (h : Booked schedule probes) :
    probes.countP Option.isSome = schedule.slots.countP ProbeSlot.inFlight := by
  have hmap := congrArg (List.countP id) h.flight
  rw [List.countP_map, List.countP_map] at hmap
  exact hmap.symm

theorem Booked.begin (h : Booked schedule probes) (hslot : schedule.slots[index]? = some slot)
    (hidle : slot.inFlight = false) (hroom : schedule.active ≠ 4) (id c : Nat) (due : TimePoint) :
    Booked { schedule with
      cursor := c
      slots := schedule.slots.set index { slot with inFlight := true, due }
      active := schedule.active + 1 } (probes.set index (some id)) := by
  obtain ⟨hlt, hget⟩ := List.getElem?_eq_some_iff.mp hslot
  refine ⟨?_, ?_, ?_⟩
  · simp only [List.map_set, Option.isSome_some, h.flight]
  · simp only [List.countP_set hlt, hget, hidle, if_true]
    rw [h.active]
    simp
  · have := h.bound
    dsimp only
    omega

theorem Booked.complete (h : Booked schedule probes) (hslot : schedule.slots[index]? = some slot)
    (hflight : slot.inFlight = true) :
    Booked { schedule with
      slots := schedule.slots.set index { slot with inFlight := false }
      active := schedule.active - 1 } (probes.set index none) := by
  obtain ⟨hlt, hget⟩ := List.getElem?_eq_some_iff.mp hslot
  refine ⟨?_, ?_, ?_⟩
  · simp only [List.map_set, Option.isSome_none, h.flight]
  · simp only [List.countP_set hlt, hget, hflight, if_true]
    rw [h.active]
    simp
  · have := h.bound
    dsimp only
    omega

theorem booked_stop (schedule : ProbeSchedule) (hlength : schedule.slots.length = probes.length) :
    Booked schedule.stop (probes.map fun _ => none) := by
  refine ⟨?_, ?_, Nat.zero_le _⟩
  · simp only [ProbeSchedule.stop, List.map_map]
    apply List.ext_getElem
    · simpa using hlength
    · intro i _ _
      simp
  · simp only [ProbeSchedule.stop, List.countP_map]
    symm
    rw [List.countP_eq_zero]
    simp

end Booked

section Owned

variable {probes : List (Option Nat)} {objects : List Probe} {starts : List ProbeStart}

/-- A probe changes without being done. -/
theorem Owned.set (h : Owned probes objects starts) {id : Nat} {p p' : Probe}
    (hid : objects[id]? = some p) (hdone : p'.done = p.done) (hslot : p'.slot = p.slot) :
    Owned probes (objects.set id p') starts := by
  have hlt := (List.getElem?_eq_some_iff.mp hid).1
  refine ⟨?_, ?_, ?_, by rw [List.length_set]; exact h.ids⟩
  · intro i other hi
    obtain ⟨q, hq, hqdone, hqslot⟩ := h.held i other hi
    by_cases heq : id = other
    · subst heq
      rw [hid] at hq
      cases hq
      exact ⟨p', List.getElem?_set_self hlt, hdone.trans hqdone, hslot.trans hqslot⟩
    · exact ⟨q, by rw [List.getElem?_set_ne heq]; exact hq, hqdone, hqslot⟩
  · intro other q hq hqdone
    rcases getElem?_set_cases hq with ⟨rfl, rfl⟩ | ⟨-, hq⟩
    · rw [hslot]
      exact h.live other p hid (hdone.symm.trans hqdone)
    · exact h.live other q hq hqdone
  · intro other q hq
    rcases getElem?_set_cases hq with ⟨rfl, rfl⟩ | ⟨-, hq⟩
    · rw [hslot]
      exact h.begun other p hid
    · exact h.begun other q hq

/-- The probe of a slot is done and the slot lets it go. -/
theorem Owned.finish (h : Owned probes objects starts) {id : Nat} {p : Probe}
    (hid : objects[id]? = some p) (hdone : p.done = false) :
    Owned (probes.set p.slot none) (objects.set id { p with done := true }) starts := by
  have hown := h.live id p hid hdone
  refine ⟨?_, ?_, ?_, by rw [List.length_set]; exact h.ids⟩
  · intro i other hi
    rcases getElem?_set_cases hi with ⟨-, hnone⟩ | ⟨hne, hi⟩
    · cases hnone
    · obtain ⟨q, hq, hqdone, hqslot⟩ := h.held i other hi
      have hother : id ≠ other := by
        rintro rfl
        rw [hid] at hq
        cases hq
        exact hne hqslot.symm
      exact ⟨q, by rw [List.getElem?_set_ne hother]; exact hq, hqdone, hqslot⟩
  · intro other q hq hqdone
    rcases getElem?_set_cases hq with ⟨-, rfl⟩ | ⟨hne, hq⟩
    · cases hqdone
    · have hslot := h.live other q hq hqdone
      have hdiffer : p.slot ≠ q.slot := by
        intro heq
        rw [← heq, hown] at hslot
        cases hslot
        exact hne rfl
      rw [List.getElem?_set_ne hdiffer]
      exact hslot
  · intro other q hq
    rcases getElem?_set_cases hq with ⟨rfl, rfl⟩ | ⟨-, hq⟩
    · exact h.begun other p hid
    · exact h.begun other q hq

theorem Owned.begin (h : Owned probes objects starts) {slot : Nat} {p : Probe}
    (hfree : probes[slot]? = some none) (hp : p.slot = slot) (hdone : p.done = false)
    (now : TimePoint) :
    Owned (probes.set slot (some objects.length)) (objects ++ [p])
      (⟨slot, now, objects.length⟩ :: starts) := by
  have hlt := (List.getElem?_eq_some_iff.mp hfree).1
  have hsplit : ∀ (id : Nat) (q : Probe), (objects ++ [p])[id]? = some q →
      objects[id]? = some q ∨ (id = objects.length ∧ q = p) := by
    intro id q hq
    rw [List.getElem?_append] at hq
    split at hq
    · exact .inl hq
    · rename_i hge
      right
      cases hsub : id - objects.length with
      | zero =>
          rw [hsub] at hq
          cases hq
          exact ⟨by omega, rfl⟩
      | succ n =>
          rw [hsub] at hq
          cases hq
  refine ⟨?_, ?_, ?_, ?_⟩
  · intro i id hi
    rcases getElem?_set_cases hi with ⟨rfl, hid⟩ | ⟨-, hi⟩
    · cases hid
      exact ⟨p, by simp, hdone, hp⟩
    · obtain ⟨q, hq, hqdone, hqslot⟩ := h.held i id hi
      exact ⟨q, by rw [List.getElem?_append_left (List.getElem?_eq_some_iff.mp hq).1]; exact hq,
        hqdone, hqslot⟩
  · intro id q hq hqdone
    rcases hsplit id q hq with hold | ⟨rfl, rfl⟩
    · have hslot := h.live id q hold hqdone
      have hne : slot ≠ q.slot := by
        rintro rfl
        rw [hfree] at hslot
        cases hslot
      rw [List.getElem?_set_ne hne]
      exact hslot
    · rw [hp]
      exact List.getElem?_set_self hlt
  · intro id q hq
    rcases hsplit id q hq with hold | ⟨rfl, rfl⟩
    · obtain ⟨start, hmem, hstart⟩ := h.begun id q hold
      exact ⟨start, List.mem_cons_of_mem _ hmem, hstart⟩
    · exact ⟨_, List.mem_cons_self .., rfl, hp.symm⟩
  · rw [List.map_cons, h.ids, List.length_append, List.length_singleton, List.range_succ,
      List.reverse_append]
    rfl

/-- Every probe that a slot held is cancelled, so none is left that is not done. -/
theorem Owned.stop (h : Owned probes objects starts) :
    Owned (probes.map fun _ => none)
      (objects.mapIdx fun id p => if some id ∈ probes then p.cancel else p) starts := by
  have hcancel : ∀ p : Probe, p.cancel.slot = p.slot ∧ p.cancel.done = true := by
    intro p
    unfold Probe.cancel
    split
    · exact ⟨rfl, by assumption⟩
    · exact ⟨rfl, rfl⟩
  refine ⟨?_, ?_, ?_, by rw [List.length_mapIdx]; exact h.ids⟩
  · intro i id hi
    rw [List.getElem?_map, Option.map_eq_some_iff] at hi
    obtain ⟨-, -, hnone⟩ := hi
    cases hnone
  · intro id q hq hqdone
    rw [List.getElem?_mapIdx, Option.map_eq_some_iff] at hq
    obtain ⟨p, hp, rfl⟩ := hq
    exfalso
    split at hqdone
    · rw [(hcancel p).2] at hqdone
      cases hqdone
    · rename_i hnot
      exact hnot (List.mem_of_getElem? (h.live id p hp hqdone))
  · intro id q hq
    rw [List.getElem?_mapIdx, Option.map_eq_some_iff] at hq
    obtain ⟨p, hp, rfl⟩ := hq
    split
    · rw [(hcancel p).1]
      exact h.begun id p hp
    · exact h.begun id p hp

end Owned

section Logged

variable {targets : List ProbeTarget} {objects : List Probe} {records : List ProbeRecord}

/-- Probes may change, but not their slot, and what is done stays done. -/
theorem Logged.of_objects (h : Logged targets objects records) {objects' : List Probe}
    (hkeep : ∀ (id : Nat) (p : Probe), objects[id]? = some p → p.done = true →
      ∃ p' : Probe, objects'[id]? = some p' ∧ p'.done = true ∧ p'.slot = p.slot) :
    Logged targets objects' records := by
  refine ⟨?_, h.once⟩
  intro r hr
  obtain ⟨p, target, hp, hdone, htarget, hroute, hupstream⟩ := h.recorded r hr
  obtain ⟨p', hp', hdone', hslot⟩ := hkeep r.probe p hp hdone
  exact ⟨p', target, hp', hdone', by rw [hslot]; exact htarget, hroute, hupstream⟩

theorem Logged.set (h : Logged targets objects records) {id : Nat} {p p' : Probe}
    (hid : objects[id]? = some p) (hslot : p'.slot = p.slot)
    (hdone : p.done = true → p'.done = true) : Logged targets (objects.set id p') records := by
  refine h.of_objects fun other q hq hqdone => ?_
  by_cases heq : id = other
  · subst heq
    rw [hid] at hq
    cases hq
    exact ⟨p', List.getElem?_set_self (List.getElem?_eq_some_iff.mp hid).1, hdone hqdone, hslot⟩
  · exact ⟨q, by rw [List.getElem?_set_ne heq]; exact hq, hqdone, rfl⟩

theorem Logged.append (h : Logged targets objects records) (p : Probe) :
    Logged targets (objects ++ [p]) records :=
  h.of_objects fun id q hq hqdone =>
    ⟨q, by rw [List.getElem?_append_left (List.getElem?_eq_some_iff.mp hq).1]; exact hq, hqdone, rfl⟩

theorem Logged.stop (h : Logged targets objects records) (probes : List (Option Nat)) :
    Logged targets (objects.mapIdx fun id p => if some id ∈ probes then p.cancel else p)
      records := by
  refine h.of_objects fun id p hp hdone => ?_
  refine ⟨p, ?_, hdone, rfl⟩
  rw [List.getElem?_mapIdx, hp]
  simp [Probe.cancel, hdone]

/-- The record of a probe that has just been done. -/
theorem Logged.record (h : Logged targets objects records) {id : Nat} {p : Probe}
    {target : ProbeTarget} (hid : objects[id]? = some p) (hdone : p.done = true)
    (hnew : ∀ r ∈ records, r.probe ≠ id) (htarget : targets[p.slot]? = some target)
    (success : Bool) :
    Logged targets objects (⟨id, target.route, target.upstream, success⟩ :: records) := by
  refine ⟨?_, ?_⟩
  · rw [List.forall_mem_cons]
    exact ⟨⟨p, target, hid, hdone, htarget, rfl, rfl⟩, h.recorded⟩
  · rw [List.map_cons, List.nodup_cons]
    refine ⟨?_, h.once⟩
    intro hmem
    obtain ⟨r, hr, heq⟩ := List.mem_map.mp hmem
    exact hnew r hr heq

end Logged

/-! ## The operations of the manager -/

section Operations

variable {s : HealthChecks}

theorem stop_eq (h : s.stopped = false) : ∃ n, s.stop =
    { s with
      stopped := true
      schedule := s.schedule.stop
      timer := none
      staleWaits := n
      objects := s.objects.mapIdx fun id p => if some id ∈ s.probes then p.cancel else p
      probes := s.probes.map fun _ => none } := by
  unfold stop cancelTimer cancelHeld
  rw [if_neg (by simp [h])]
  cases htimer : s.timer with
  | none => exact ⟨s.staleWaits, by simp⟩
  | some due => exact ⟨s.staleWaits + 1, by simp⟩

theorem stop_stopped : s.stop.stopped = true := by
  by_cases h : s.stopped = true
  · simp [stop, h]
  · obtain ⟨n, heq⟩ := stop_eq (s := s) (by simpa using h)
    rw [heq]

theorem armTimer_eq (due : TimePoint) :
    ∃ n, s.armTimer due = { s with timer := some due, staleWaits := n } := by
  unfold armTimer cancelTimer
  cases htimer : s.timer with
  | none => exact ⟨s.staleWaits, rfl⟩
  | some old => exact ⟨s.staleWaits + 1, rfl⟩

theorem Stoppable.stop (h : Stoppable s) (hrunning : s.stopped = false) : Inv s.stop := by
  obtain ⟨n, heq⟩ := stop_eq hrunning
  rw [heq]
  exact {
    timed := h.timed.stop
    owned := h.owned.stop
    logged := h.logged.stop s.probes
    booked := booked_stop s.schedule (h.timed.slots_length.trans h.timed.probes_length.symm)
    halted := rfl
    quiet := fun _ e he => by
      obtain ⟨-, -, rfl⟩ := List.mem_map.mp he
      rfl }

theorem Inv.stop (h : Inv s) : Inv s.stop := by
  by_cases hs : s.stopped = true
  · rw [HealthChecks.stop, if_pos hs]
    exact h
  · exact h.toStoppable.stop (by simpa using hs)

theorem failed_eq (h : s.stopped = false) :
    s.failed = { s.stop with failures := s.failures + 1 } := by
  simp [failed, h]

theorem Stoppable.failed (h : Stoppable s) (hrunning : s.stopped = false) : Inv s.failed := by
  have hstop := h.stop hrunning
  rw [failed_eq hrunning]
  exact { hstop with }

theorem Inv.failed (h : Inv s) : Inv s.failed := by
  by_cases hs : s.stopped = true
  · rw [HealthChecks.failed, if_pos hs]
    exact h
  · exact h.toStoppable.failed (by simpa using hs)

/-- A probe changes while it waits. -/
theorem Inv.setProbe (h : Inv s) {id : Nat} {p p' : Probe} (hid : s.objects[id]? = some p)
    (hdone : p'.done = p.done) (hslot : p'.slot = p.slot) : Inv (s.setProbe id p') :=
  { h with
    owned := h.owned.set hid hdone hslot
    logged := h.logged.set hid hslot fun hd => hdone.trans hd }

/-- A slot in flight is completed. -/
theorem Booked.completes {schedule : ProbeSchedule} {probes : List (Option Nat)}
    (h : Booked schedule probes) {index id : Nat} (hheld : probes[index]? = some (some id)) :
    ∃ slot, schedule.slots[index]? = some slot ∧ slot.inFlight = true
      ∧ schedule.complete index = .ok { schedule with
        slots := schedule.slots.set index { slot with inFlight := false }
        active := schedule.active - 1 } := by
  have hflag := congrArg (fun l => l[index]?) h.flight
  simp only [List.getElem?_map, hheld, Option.map_some, Option.isSome_some,
    Option.map_eq_some_iff] at hflag
  obtain ⟨slot, hslot, hflight⟩ := hflag
  rcases schedule.complete_cases index with
    ⟨hnone, -⟩ | ⟨other, hother, hidle, -⟩ | ⟨other, hother, -, heq⟩
  · rw [hslot] at hnone
    cases hnone
  · rw [hslot] at hother
    cases hother
    rw [hflight] at hidle
    cases hidle
  · rw [hslot] at hother
    cases hother
    exact ⟨slot, hslot, hflight, heq⟩

/-- A probe that is done has its slot completed and its result recorded, or the record fails. -/
theorem Inv.recordResult (h : Inv s) {id : Nat} {p : Probe} (hid : s.objects[id]? = some p)
    (hdone : p.done = false) (success : Bool) :
    Inv ((s.setProbe id { p with done := true }).recordResult id p.slot success).1 := by
  have hheld := h.owned.live id p hid hdone
  obtain ⟨slot, hslot, hflight, hcomplete⟩ := h.booked.completes hheld
  have htargets : p.slot < s.targets.length := by
    rw [← h.timed.probes_length]
    exact (List.getElem?_eq_some_iff.mp hheld).1
  have hlt := (List.getElem?_eq_some_iff.mp hid).1
  have htimed : Timed s.targets
      (s.schedule.slots.set p.slot { slot with inFlight := false }) s.probes s.starts :=
    h.timed.set hslot rfl (Int64.le_refl _)
  have hlet : Inv { s with
      schedule := { s.schedule with
        slots := s.schedule.slots.set p.slot { slot with inFlight := false }
        active := s.schedule.active - 1 }
      probes := s.probes.set p.slot none
      objects := s.objects.set id { p with done := true } } := {
    timed := htimed.of_length (List.length_set ..)
    owned := h.owned.finish hid hdone
    logged := h.logged.set hid rfl fun _ => rfl
    booked := h.booked.complete hslot hflight
    halted := h.halted
    quiet := fun hs e he => by
      rcases List.mem_or_eq_of_mem_set he with hold | rfl
      · exact h.quiet hs e hold
      · rfl }
  have hnew : ∀ r ∈ s.records, r.probe ≠ id := by
    rintro r hr rfl
    obtain ⟨q, -, hq, hqdone, -⟩ := h.logged.recorded r hr
    rw [hid] at hq
    cases hq
    rw [hdone] at hqdone
    cases hqdone
  unfold HealthChecks.recordResult HealthChecks.setProbe
  simp only [hcomplete, List.getElem?_eq_getElem htargets]
  split
  · exact hlet
  · refine { hlet with logged := ?_ }
    exact hlet.logged.record (List.getElem?_set_self hlt) rfl hnew
      (List.getElem?_eq_getElem htargets) success

/-- `again`, called with the bookkeeping in order, leaves it in order. -/
def Keeps (again : HealthChecks → Option HealthChecks) : Prop :=
  ∀ s s', Inv s → again s = some s' → Inv s'

theorem Inv.finish {again : HealthChecks → Option HealthChecks} (hagain : Keeps again) (h : Inv s)
    {id : Nat} {p : Probe} (hid : s.objects[id]? = some p) {success : Bool} {s' : HealthChecks}
    (hs' : finish again s id p success = some s') : Inv s' := by
  unfold HealthChecks.finish at hs'
  split at hs'
  · cases hs'
    exact h
  · rename_i hdone
    have hdone' : p.done = false := by simpa using hdone
    have hrecord := h.recordResult hid hdone' success
    unfold completed at hs'
    split at hs'
    · -- a stopped manager has no probe that is not done
      rename_i hstopped
      have hheld := List.mem_of_getElem? (h.owned.live id p hid hdone')
      exact absurd (h.quiet hstopped _ hheld) (by simp)
    · dsimp only at hs'
      split at hs'
      · exact hagain _ _ hrecord hs'
      · cases hs'
        exact hrecord.failed

theorem keeps_some : Keeps some := by
  intro s s' h heq
  cases heq
  exact h

theorem Inv.startProbe (h : Inv s) {id : Nat} {p : Probe} (hid : s.objects[id]? = some p)
    {started : ProbeStarted} {s' : HealthChecks} (hs' : s.startProbe id p started = some s') :
    Inv s' := by
  cases started with
  | running =>
      cases hs'
      exact h.setProbe hid rfl rfl
  | deadlineThrows => exact h.finish keeps_some hid hs'
  | resolveThrows =>
      have hlt := (List.getElem?_eq_some_iff.mp hid).1
      have hwait : Inv (s.setProbe id { p with deadline := true }) := h.setProbe hid rfl rfl
      exact hwait.finish keeps_some (List.getElem?_set_self hlt) hs'

theorem Booked.free {schedule : ProbeSchedule} {probes : List (Option Nat)}
    (h : Booked schedule probes) {index : Nat} {slot : ProbeSlot}
    (hslot : schedule.slots[index]? = some slot) (hidle : slot.inFlight = false) :
    probes[index]? = some none := by
  have hflag := congrArg (fun l => l[index]?) h.flight
  simp only [List.getElem?_map, hslot, Option.map_some, hidle] at hflag
  obtain ⟨entry, hentry, hnone⟩ := Option.map_eq_some_iff.mp hflag.symm
  rw [hentry, Option.isSome_eq_false_iff.mp hnone |> Option.isNone_iff_eq_none.mp]

theorem probe_make {index : Nat} {target : ProbeTarget} {context : TlsContext} {p : Probe}
    (h : Probe.make index target context = .ok p) : p.slot = index ∧ p.done = false := by
  unfold Probe.make at h
  split at h
  · split at h
    · cases h
    · cases h
      exact ⟨rfl, rfl⟩
  · cases h
    exact ⟨rfl, rfl⟩

/-- Everything that making a probe can do. -/
theorem makeProbe_cases {turn : PumpTurn} {index id : Nat} {p : Probe} {s' : HealthChecks}
    (h : s.makeProbe index turn = .ok (id, p, s')) :
    p.slot = index ∧ p.done = false ∧ id = s.objects.length
      ∧ s' = { s with
          objects := s.objects ++ [p]
          probes := s.probes.set index (some s.objects.length)
          starts := ⟨index, turn.now, s.objects.length⟩ :: s.starts } := by
  unfold HealthChecks.makeProbe at h
  split at h
  · cases h
  · split at h
    · cases h
    · rename_i target _ _
      cases hmake : Probe.make index target s.context with
      | error e =>
          rw [hmake] at h
          cases h
      | ok q =>
          rw [hmake] at h
          cases h
          exact ⟨(probe_make hmake).1, (probe_make hmake).2, rfl, rfl⟩

/-- A slot is handed out and its probe made. -/
theorem Inv.makeProbe (h : Inv s) {turn : PumpTurn} {c index : Nat} {slot : ProbeSlot}
    (hrunning : s.stopped = false) (hroom : s.schedule.active ≠ 4)
    (hslot : s.schedule.slots[index]? = some slot) (hidle : slot.inFlight = false)
    (hdue : slot.due ≤ turn.now) {id : Nat} {p : Probe} {s' : HealthChecks}
    (hmake : HealthChecks.makeProbe { s with
      schedule := { s.schedule with
        cursor := c
        slots := s.schedule.slots.set index
          { slot with inFlight := true, due := ProbeSchedule.dueAfter slot.interval turn.now }
        active := s.schedule.active + 1 } } index turn = .ok (id, p, s')) :
    Inv s' ∧ s'.objects[id]? = some p := by
  obtain ⟨hp, hdone, rfl, rfl⟩ := makeProbe_cases hmake
  refine ⟨?_, by simp⟩
  exact {
    timed := (h.timed.begin hslot hdue _).of_length (List.length_set ..)
    owned := h.owned.begin (h.booked.free hslot hidle) hp hdone turn.now
    logged := h.logged.append p
    booked := h.booked.begin hslot hidle hroom _ c _
    halted := h.halted
    quiet := fun hs => absurd hs (by simp [hrunning]) }

/-- The loop of `pump`: either the bookkeeping is in order, or it threw while the manager was
running. -/
theorem Inv.pumpLoop (turns : List PumpTurn) : ∀ {s : HealthChecks}, Inv s →
    ∀ {s' : HealthChecks} {ok : Bool}, HealthChecks.pumpLoop turns s = some (s', ok) →
      (ok = true ∧ Inv s') ∨ (ok = false ∧ Stoppable s' ∧ s'.stopped = false) := by
  induction turns with
  | nil =>
      intro s h s' ok heq
      cases heq
  | cons turn rest ih =>
      intro s h s' ok heq
      rw [HealthChecks.pumpLoop] at heq
      rcases s.schedule.takeDue_cases turn.now with
        ⟨c, htake⟩ | ⟨c, index, slot, hrunning, hroom, hslot, hidle, hdue, htake⟩
      · simp only [htake] at heq
        cases heq
        exact .inl ⟨rfl, { h with booked := { h.booked with } }⟩
      · simp only [htake] at heq
        have hrunning' : s.stopped = false := h.halted.symm.trans hrunning
        split at heq
        · cases heq
          exact .inr ⟨rfl, ⟨h.timed.hand hslot hdue, h.owned, h.logged⟩, hrunning'⟩
        · rename_i id p made hmake
          obtain ⟨hinv, hid⟩ := h.makeProbe hrunning' hroom hslot hidle hdue hmake
          obtain ⟨started, hstarted, hrest⟩ := Option.bind_eq_some_iff.mp heq
          exact ih (hinv.startProbe hid hstarted) hrest

/-- After a call of `pump` that was not inside another one: the timer is set for the slot that is
due first, unless nothing more can be started. -/
def Armed (s : HealthChecks) : Prop :=
  s.schedule.active = 4 ∨ (∀ slot ∈ s.schedule.slots, slot.inFlight = true)
    ∨ ∃ due, s.timer = some due
      ∧ ∀ slot ∈ s.schedule.slots, slot.inFlight = false → due ≤ slot.due

theorem nextDue_cases (schedule : ProbeSchedule) :
    (schedule.nextDue = none ∧ (schedule.stopped = true ∨ schedule.active = 4
        ∨ ∀ slot ∈ schedule.slots, slot.inFlight = true))
      ∨ ∃ due, schedule.nextDue = some due
        ∧ ∀ slot ∈ schedule.slots, slot.inFlight = false → due ≤ slot.due := by
  unfold ProbeSchedule.nextDue
  split
  · rename_i hguard
    simp only [Bool.or_eq_true, decide_eq_true_eq] at hguard
    exact .inl ⟨rfl, hguard.imp id .inl⟩
  · cases hearly : ProbeSchedule.earliestDue schedule.slots with
    | none => exact .inl ⟨rfl, .inr (.inr (ProbeSchedule.earliestDue_none hearly))⟩
    | some due => exact .inr ⟨due, rfl, ProbeSchedule.earliestDue_some hearly⟩

theorem pump_early (input : PumpInput) (h : s.stopped = true ∨ s.pumping = true) :
    pump input s = some s := by
  unfold pump
  rw [if_pos (by simpa using h)]

/-- The ways in which a call of `pump` that does its work can end. -/
theorem pump_cases {input : PumpInput} {s' : HealthChecks} (hrunning : s.stopped = false)
    (hidle : s.pumping = false) (h : pump input s = some s') :
    ∃ t ok, HealthChecks.pumpLoop input.turns { s with pumping := true } = some (t, ok)
      ∧ ((ok = false ∧ s' = { t.failed with pumping := false, pumps := t.failed.pumps + 1 })
        ∨ (ok = true ∧ t.schedule.nextDue = none ∧ s' = { t with pumping := false, pumps := t.pumps + 1 })
        ∨ (ok = true ∧ ∃ due, t.schedule.nextDue = some due
          ∧ (s' = { t.failed with pumping := false, pumps := t.failed.pumps + 1 }
            ∨ s' = { t.armTimer due with
              pumping := false, pumps := (t.armTimer due).pumps + 1 }))) := by
  unfold pump at h
  rw [if_neg (by simp [hrunning, hidle])] at h
  obtain ⟨⟨t, ok⟩, hloop, hrest⟩ := Option.bind_eq_some_iff.mp h
  refine ⟨t, ok, hloop, ?_⟩
  cases ok with
  | false =>
      cases hrest
      exact .inl ⟨rfl, rfl⟩
  | true =>
      right
      dsimp only [Bool.not_true] at hrest
      cases hdue : t.schedule.nextDue with
      | none =>
          rw [hdue] at hrest
          cases hrest
          exact .inl ⟨rfl, rfl, rfl⟩
      | some due =>
          rw [hdue] at hrest
          refine .inr ⟨rfl, due, rfl, ?_⟩
          cases hfails : input.armFails with
          | true =>
              rw [hfails] at hrest
              cases hrest
              exact .inl rfl
          | false =>
              rw [hfails] at hrest
              cases hrest
              exact .inr rfl

theorem Inv.pump (input : PumpInput) : Keeps (HealthChecks.pump input) := by
  intro s s' h heq
  by_cases hearly : s.stopped = true ∨ s.pumping = true
  · rw [pump_early input hearly] at heq
    cases heq
    exact h
  · simp only [not_or, Bool.not_eq_true] at hearly
    obtain ⟨t, ok, hloop, hend⟩ := pump_cases hearly.1 hearly.2 heq
    have hbegin : Inv { s with pumping := true } := { h with }
    rcases hbegin.pumpLoop input.turns hloop with ⟨rfl, ht⟩ | ⟨rfl, ht, hrunning⟩
    · rcases hend with ⟨hfalse, -⟩ | ⟨-, -, rfl⟩ | ⟨-, due, -, rfl | rfl⟩
      · cases hfalse
      · exact { ht with }
      · exact { ht.failed with }
      · obtain ⟨n, harm⟩ := armTimer_eq (s := t) due
        rw [harm]
        exact { ht with }
    · rcases hend with ⟨-, rfl⟩ | ⟨htrue, -⟩ | ⟨htrue, -⟩
      · exact { ht.failed hrunning with }
      · cases htrue
      · cases htrue

theorem failed_stopped : s.failed.stopped = true := by
  by_cases h : s.stopped = true
  · rw [failed, if_pos h]
    exact h
  · rw [failed_eq (by simpa using h)]
    exact stop_stopped

/-- Either no `pump` did its work, or the manager is stopped, or the timer is set. -/
def Pumped (s s' : HealthChecks) : Prop := s'.pumps = s.pumps ∨ s'.stopped = true ∨ Armed s'

theorem Inv.pumped (h : Inv s) {input : PumpInput} {s' : HealthChecks}
    (heq : HealthChecks.pump input s = some s') : Pumped s s' := by
  by_cases hearly : s.stopped = true ∨ s.pumping = true
  · rw [pump_early input hearly] at heq
    cases heq
    exact .inl rfl
  · simp only [not_or, Bool.not_eq_true] at hearly
    obtain ⟨t, ok, hloop, hend⟩ := pump_cases hearly.1 hearly.2 heq
    right
    have hbegin : Inv { s with pumping := true } := { h with }
    rcases hend with ⟨-, rfl⟩ | ⟨rfl, hnone, rfl⟩ | ⟨-, due, hdue, rfl | rfl⟩
    · exact .inl failed_stopped
    · rcases hbegin.pumpLoop input.turns hloop with ⟨-, ht⟩ | ⟨hfalse, -⟩
      · rcases nextDue_cases t.schedule with ⟨-, hreason⟩ | ⟨due, hdue, -⟩
        · rcases hreason with hstopped | hfull | hall
          · exact .inl (ht.halted.symm.trans hstopped)
          · exact .inr (.inl hfull)
          · exact .inr (.inr (.inl hall))
        · rw [hnone] at hdue
          cases hdue
      · cases hfalse
    · exact .inl failed_stopped
    · rcases nextDue_cases t.schedule with ⟨hnone, -⟩ | ⟨due', hdue', hearliest⟩
      · rw [hdue] at hnone
        cases hnone
      · rw [hdue] at hdue'
        cases hdue'
        obtain ⟨n, harm⟩ := armTimer_eq (s := t) due
        rw [harm]
        exact .inr (.inr (.inr ⟨due, rfl, hearliest⟩))

theorem recordResult_frame (id index : Nat) (success : Bool) :
    (s.recordResult id index success).1.pumps = s.pumps
      ∧ (s.recordResult id index success).1.pumping = s.pumping := by
  unfold HealthChecks.recordResult
  split
  · exact ⟨rfl, rfl⟩
  · dsimp only
    split
    · exact ⟨rfl, rfl⟩
    · split
      · exact ⟨rfl, rfl⟩
      · exact ⟨rfl, rfl⟩

theorem Inv.finish_pumped (h : Inv s) {id : Nat} {p : Probe} (hid : s.objects[id]? = some p)
    {input : PumpInput} {success : Bool} {s' : HealthChecks}
    (hs' : HealthChecks.finish (HealthChecks.pump input) s id p success = some s') :
    Pumped s s' := by
  unfold HealthChecks.finish at hs'
  split at hs'
  · cases hs'
    exact .inl rfl
  · rename_i hdone
    have hrecord := h.recordResult hid (by simpa using hdone) success
    unfold completed at hs'
    split at hs'
    · cases hs'
      exact .inl rfl
    · dsimp only at hs'
      split at hs'
      · have hpumped := hrecord.pumped hs'
        unfold Pumped at hpumped
        rw [(recordResult_frame ..).1] at hpumped
        exact hpumped
      · cases hs'
        exact .inr (.inl failed_stopped)

/-- A handler of a probe, with what it leaves. -/
theorem Inv.onProbe (h : Inv s) {input : PumpInput} {id : Nat} {event : ProbeEvent}
    {s' : HealthChecks} (hs' : s.onProbe input id event = some s') : Inv s' ∧ Pumped s s' := by
  unfold HealthChecks.onProbe at hs'
  cases hid : s.objects[id]? with
  | none =>
      rw [hid] at hs'
      cases hs'
      exact ⟨h, .inl rfl⟩
  | some p =>
      rw [hid] at hs'
      dsimp only at hs'
      have hconsume : (p.consume event).done = p.done ∧ (p.consume event).slot = p.slot := by
        unfold Probe.consume
        split
        · exact ⟨rfl, rfl⟩
        · exact ⟨rfl, rfl⟩
      have hseen : Inv (s.setProbe id (p.consume event)) := h.setProbe hid hconsume.1 hconsume.2
      have hid' : (s.setProbe id (p.consume event)).objects[id]? = some (p.consume event) :=
        List.getElem?_set_self (List.getElem?_eq_some_iff.mp hid).1
      split at hs'
      · cases hs'
        exact ⟨h, .inl rfl⟩
      · split at hs'
        · cases hs'
          exact ⟨hseen, .inl rfl⟩
        · split at hs'
          · cases hs'
            exact ⟨hseen, .inl rfl⟩
          · cases hs'
            exact ⟨hseen.setProbe hid' rfl rfl, .inl rfl⟩
          · exact ⟨hseen.finish (Inv.pump input) hid' hs', hseen.finish_pumped hid' hs'⟩

theorem Inv.onTimer (h : Inv s) {input : PumpInput} {error : Error} {s' : HealthChecks}
    (hs' : s.onTimer input error = some s') : Inv s' ∧ Pumped s s' := by
  cases error with
  | none => exact ⟨Inv.pump input s s' h hs', h.pumped hs'⟩
  | some error =>
      simp only [HealthChecks.onTimer] at hs'
      cases hs'
      split
      · exact ⟨h.failed, .inr (.inl failed_stopped)⟩
      · exact ⟨h, .inl rfl⟩

theorem Inv.handle (h : Inv s) {event : Event} {s' : HealthChecks}
    (hs' : s.handle event = some s') : Inv s' ∧ Pumped s s' := by
  cases event with
  | start =>
      cases hs'
      unfold HealthChecks.start
      split
      · exact ⟨h, .inl rfl⟩
      · exact ⟨{ h with }, .inl rfl⟩
  | stop =>
      cases hs'
      exact ⟨h.stop, .inr (.inl stop_stopped)⟩
  | posted input =>
      simp only [HealthChecks.handle] at hs'
      split at hs'
      · have hp : Inv { s with posted := false } := { h with }
        exact ⟨Inv.pump input _ s' hp hs', hp.pumped hs'⟩
      · cases hs'
        exact ⟨h, .inl rfl⟩
  | timer error input =>
      simp only [HealthChecks.handle] at hs'
      split at hs'
      · have ht : Inv { s with timer := none } := { h with }
        exact ht.onTimer hs'
      · cases hs'
        exact ⟨h, .inl rfl⟩
  | staleTimer error input =>
      simp only [HealthChecks.handle] at hs'
      split at hs'
      · have ht : Inv { s with staleWaits := s.staleWaits - 1 } := { h with }
        exact ht.onTimer hs'
      · cases hs'
        exact ⟨h, .inl rfl⟩
  | probe id event input => exact h.onProbe hs'

/-! ### The flag is down when no `pump` is running -/

theorem failed_pumping : s.failed.pumping = s.pumping := by
  by_cases h : s.stopped = true
  · rw [failed, if_pos h]
  · obtain ⟨n, heq⟩ := stop_eq (s := s) (by simpa using h)
    rw [failed_eq (by simpa using h), heq]

theorem pump_pumping (h : s.pumping = false) {input : PumpInput} {s' : HealthChecks}
    (hs' : HealthChecks.pump input s = some s') : s'.pumping = false := by
  by_cases hstopped : s.stopped = true
  · rw [pump_early input (.inl hstopped)] at hs'
    cases hs'
    exact h
  · obtain ⟨t, ok, -, hend⟩ := pump_cases (by simpa using hstopped) h hs'
    rcases hend with ⟨-, rfl⟩ | ⟨-, -, rfl⟩ | ⟨-, due, -, rfl | rfl⟩
    · rfl
    · rfl
    · rfl
    · rfl

theorem onTimer_pumping (h : s.pumping = false) {input : PumpInput} {error : Error}
    {s' : HealthChecks} (hs' : s.onTimer input error = some s') : s'.pumping = false := by
  cases error with
  | none => exact pump_pumping h hs'
  | some error =>
      simp only [HealthChecks.onTimer] at hs'
      cases hs'
      split
      · exact failed_pumping.trans h
      · exact h

theorem finish_pumping (h : s.pumping = false) {input : PumpInput} {id : Nat} {p : Probe}
    {success : Bool} {s' : HealthChecks}
    (hs' : HealthChecks.finish (HealthChecks.pump input) s id p success = some s') :
    s'.pumping = false := by
  unfold HealthChecks.finish completed at hs'
  split at hs'
  · cases hs'
    exact h
  · split at hs'
    · cases hs'
      exact h
    · have hrecord := (recordResult_frame (s := s.setProbe id { p with done := true }) id p.slot
        success).2.trans h
      dsimp only at hs'
      split at hs'
      · exact pump_pumping hrecord hs'
      · cases hs'
        exact failed_pumping.trans hrecord

theorem onProbe_pumping (h : s.pumping = false) {input : PumpInput} {id : Nat} {event : ProbeEvent}
    {s' : HealthChecks} (hs' : s.onProbe input id event = some s') : s'.pumping = false := by
  unfold HealthChecks.onProbe at hs'
  split at hs'
  · cases hs'
    exact h
  · dsimp only at hs'
    split at hs'
    · cases hs'
      exact h
    · split at hs'
      · cases hs'
        exact h
      · split at hs'
        · cases hs'
          exact h
        · cases hs'
          exact h
        · exact finish_pumping (s := s.setProbe id _) h hs'

theorem handle_pumping (h : s.pumping = false) {event : Event} {s' : HealthChecks}
    (hs' : s.handle event = some s') : s'.pumping = false := by
  cases event with
  | start =>
      cases hs'
      unfold HealthChecks.start
      split
      · exact h
      · exact h
  | stop =>
      cases hs'
      by_cases hstopped : s.stopped = true
      · rw [HealthChecks.stop, if_pos hstopped]
        exact h
      · obtain ⟨n, heq⟩ := stop_eq (s := s) (by simpa using hstopped)
        rw [heq]
        exact h
  | posted input =>
      simp only [HealthChecks.handle] at hs'
      split at hs'
      · exact pump_pumping (s := { s with posted := false }) h hs'
      · cases hs'
        exact h
  | timer error input =>
      simp only [HealthChecks.handle] at hs'
      split at hs'
      · exact onTimer_pumping (s := { s with timer := none }) h hs'
      · cases hs'
        exact h
  | staleTimer error input =>
      simp only [HealthChecks.handle] at hs'
      split at hs'
      · exact onTimer_pumping (s := { s with staleWaits := s.staleWaits - 1 }) h hs'
      · cases hs'
        exact h
  | probe id event input => exact onProbe_pumping h hs'

/-! ### A stopped manager is silent -/

structure Silent (s s' : HealthChecks) : Prop where
  stopped : s'.stopped = true
  starts : s'.starts = s.starts
  records : s'.records = s.records
  failures : s'.failures = s.failures

theorem Silent.refl (h : s.stopped = true) : Silent s s := ⟨h, rfl, rfl, rfl⟩

theorem Silent.trans {s₁ s₂ s₃ : HealthChecks} (h : Silent s₁ s₂) (h' : Silent s₂ s₃) :
    Silent s₁ s₃ :=
  ⟨h'.stopped, h'.starts.trans h.starts, h'.records.trans h.records,
    h'.failures.trans h.failures⟩

theorem stop_silent : Silent s s.stop := by
  by_cases h : s.stopped = true
  · rw [stop, if_pos h]
    exact .refl h
  · obtain ⟨n, heq⟩ := stop_eq (s := s) (by simpa using h)
    rw [heq]
    exact ⟨rfl, rfl, rfl, rfl⟩

theorem onTimer_silent (h : s.stopped = true) {input : PumpInput} {error : Error}
    {s' : HealthChecks} (hs' : s.onTimer input error = some s') : Silent s s' := by
  cases error with
  | none =>
      simp only [HealthChecks.onTimer, pump_early input (.inl h)] at hs'
      cases hs'
      exact .refl h
  | some error =>
      simp only [HealthChecks.onTimer, failed, h, if_true, ite_self] at hs'
      cases hs'
      exact .refl h

theorem finish_silent (h : s.stopped = true) {again : HealthChecks → Option HealthChecks} {id : Nat}
    {p : Probe} {success : Bool} {s' : HealthChecks}
    (hs' : HealthChecks.finish again s id p success = some s') : Silent s s' := by
  unfold HealthChecks.finish completed at hs'
  split at hs'
  · cases hs'
    exact .refl h
  · split at hs'
    · cases hs'
      exact ⟨h, rfl, rfl, rfl⟩
    · rename_i hrunning
      exact absurd h hrunning

theorem onProbe_silent (h : s.stopped = true) {input : PumpInput} {id : Nat} {event : ProbeEvent}
    {s' : HealthChecks} (hs' : s.onProbe input id event = some s') : Silent s s' := by
  unfold HealthChecks.onProbe at hs'
  split at hs'
  · cases hs'
    exact .refl h
  · dsimp only at hs'
    split at hs'
    · cases hs'
      exact .refl h
    · split at hs'
      · cases hs'
        exact ⟨h, rfl, rfl, rfl⟩
      · split at hs'
        · cases hs'
          exact ⟨h, rfl, rfl, rfl⟩
        · cases hs'
          exact ⟨h, rfl, rfl, rfl⟩
        · have hsilent := finish_silent (s := s.setProbe id _) h hs'
          exact ⟨hsilent.stopped, hsilent.starts, hsilent.records, hsilent.failures⟩

theorem handle_silent (h : s.stopped = true) {event : Event} {s' : HealthChecks}
    (hs' : s.handle event = some s') : Silent s s' := by
  cases event with
  | start =>
      cases hs'
      simp only [HealthChecks.start, h, Bool.or_true, Bool.true_or, if_true]
      exact .refl h
  | stop =>
      cases hs'
      exact stop_silent
  | posted input =>
      simp only [HealthChecks.handle] at hs'
      split at hs'
      · rw [pump_early (s := { s with posted := false }) input (.inl h)] at hs'
        cases hs'
        exact ⟨h, rfl, rfl, rfl⟩
      · cases hs'
        exact .refl h
  | timer error input =>
      simp only [HealthChecks.handle] at hs'
      split at hs'
      · have hsilent := onTimer_silent (s := { s with timer := none }) h hs'
        exact ⟨hsilent.stopped, hsilent.starts, hsilent.records, hsilent.failures⟩
      · cases hs'
        exact .refl h
  | staleTimer error input =>
      simp only [HealthChecks.handle] at hs'
      split at hs'
      · have hsilent := onTimer_silent (s := { s with staleWaits := s.staleWaits - 1 }) h hs'
        exact ⟨hsilent.stopped, hsilent.starts, hsilent.records, hsilent.failures⟩
      · cases hs'
        exact .refl h
  | probe id event input => exact onProbe_silent h hs'

end Operations

/-! ## Runs -/

/-- What one event keeps, a run keeps. -/
theorem after_induction {P : HealthChecks → Prop}
    (hstep : ∀ s event s', P s → s.handle event = some s' → P s') {s s' : HealthChecks}
    (hs : P s) (events : List Event) (h : s.after events = some s') : P s' := by
  induction events generalizing s with
  | nil =>
      cases h
      exact hs
  | cons event rest ih =>
      obtain ⟨t, ht, hrest⟩ := Option.bind_eq_some_iff.mp h
      exact ih (hstep s event t hs ht) hrest

theorem nanoseconds_toInt {intervalMs : Nat} (h : intervalMs ≤ 60000) :
    (ProbeSchedule.nanoseconds intervalMs).toInt = intervalMs * 1000000 := by
  unfold ProbeSchedule.nanoseconds
  rw [Int64.toInt_ofNat_of_lt (by omega)]
  omega

theorem make_eq {config : AppConfig} {now : TimePoint} {s : HealthChecks}
    (h : make config now = .ok s) :
    (∀ target ∈ targetsFrom 0 config.routes,
      100 ≤ target.health.intervalMs ∧ target.health.intervalMs ≤ 60000)
      ∧ s = {
        targets := targetsFrom 0 config.routes
        context := config.upstreamTlsContext
        state := UpstreamHealthState.make config.routes
        schedule := { slots := (targetsFrom 0 config.routes).map fun target =>
          { interval := ProbeSchedule.nanoseconds target.health.intervalMs, due := now } }
        probes := List.replicate (targetsFrom 0 config.routes).length none } := by
  unfold make ProbeSchedule.make at h
  dsimp only at h
  split at h
  · cases h
  · rename_i hrange
    cases h
    refine ⟨?_, by simp [List.map_map, Function.comp_def]⟩
    intro target hmem
    simp only [List.any_map, List.any_eq_true, not_exists, not_and] at hrange
    have hone := hrange target hmem
    simp at hone
    omega

theorem inv_make {config : AppConfig} {now : TimePoint} {s : HealthChecks}
    (h : make config now = .ok s) : Inv s := by
  obtain ⟨hrange, rfl⟩ := make_eq h
  have hslot : ∀ (i : Nat) (slot : ProbeSlot),
      ((targetsFrom 0 config.routes).map fun target =>
        ({ interval := ProbeSchedule.nanoseconds target.health.intervalMs, due := now } :
          ProbeSlot))[i]? = some slot →
      ∃ target, (targetsFrom 0 config.routes)[i]? = some target
        ∧ slot = { interval := ProbeSchedule.nanoseconds target.health.intervalMs, due := now } := by
    intro i slot hi
    rw [List.getElem?_map, Option.map_eq_some_iff] at hi
    obtain ⟨target, htarget, rfl⟩ := hi
    exact ⟨target, htarget, rfl⟩
  refine ⟨⟨⟨List.length_map _, List.length_replicate, ?_, ?_⟩, ⟨?_, ?_, ?_, rfl⟩, ⟨?_, ?_⟩⟩,
    ⟨?_, ?_, ?_⟩, rfl, ?_⟩
  · intro i slot hi
    obtain ⟨target, htarget, rfl⟩ := hslot i slot hi
    have hms := hrange target (List.mem_of_getElem? htarget)
    have hns := nanoseconds_toInt hms.2
    refine ⟨?_, ?_, target, htarget, rfl⟩
    · dsimp only
      omega
    · dsimp only
      omega
  · intro i slot _
    exact ⟨List.IsChain.nil, fun t ht => by cases ht⟩
  · intro i id hi
    rw [List.getElem?_replicate] at hi
    split at hi <;> cases hi
  · intro id p hp
    cases hp
  · intro id p hp
    cases hp
  · intro r hr
    cases hr
  · exact List.nodup_nil
  · simp [List.map_map, Function.comp_def, List.map_replicate]
  · simp [List.countP_map, Function.comp_def]
  · exact Nat.zero_le _
  · intro hs
    cases hs

theorem inv_after {config : AppConfig} {now : TimePoint} {s₀ s : HealthChecks}
    (hmake : make config now = .ok s₀) (events : List Event) (h : s₀.after events = some s) :
    Inv s ∧ s.pumping = false := by
  refine after_induction (P := fun s => Inv s ∧ s.pumping = false) ?_ ⟨inv_make hmake, ?_⟩ events h
  · rintro s event s' ⟨hinv, hidle⟩ hs'
    exact ⟨(hinv.handle hs').1, handle_pumping hidle hs'⟩
  · obtain ⟨-, rfl⟩ := make_eq hmake
    rfl

theorem silent_after {s s' : HealthChecks} (h : s.stopped = true) (more : List Event)
    (hs' : s.after more = some s') : Silent s s' :=
  after_induction (P := Silent s) (fun _ _ _ hsilent hstep =>
    hsilent.trans (handle_silent hsilent.stopped hstep)) (.refl h) more hs'

/-- In every run: at most four probes are in flight, each in its own slot, and all the counts
agree; the starts of a slot are its interval apart; a probe has at most one record, for its own
target; after `stop` nothing is started, recorded or reported; and when a `pump` has done its work
and the manager still runs, the timer is set in time. -/
theorem probes_scheduled (config : AppConfig) (now : TimePoint) (s₀ s : HealthChecks)
    (events : List Event) (hmake : make config now = .ok s₀) (hrun : s₀.after events = some s) :
    (s.schedule.active ≤ 4 ∧ s.schedule.slots.countP ProbeSlot.inFlight = s.schedule.active
        ∧ s.probes.countP Option.isSome = s.schedule.active)
      ∧ (∀ (id : Nat) (p : Probe), s.objects[id]? = some p → p.done = false →
        s.probes[p.slot]? = some (some id))
      ∧ (∀ (i : Nat) (slot : ProbeSlot), s.schedule.slots[i]? = some slot →
        ∃ target : ProbeTarget, s.targets[i]? = some target
          ∧ slot.interval = ProbeSchedule.nanoseconds target.health.intervalMs
          ∧ (startTimes s.starts i).IsChain (Spaced slot.interval))
      ∧ ((s.starts.map ProbeStart.probe).Nodup ∧ (s.records.map ProbeRecord.probe).Nodup
        ∧ ∀ r ∈ s.records, ∃ start ∈ s.starts, start.probe = r.probe
          ∧ ∃ target : ProbeTarget, s.targets[start.slot]? = some target
            ∧ r.route = target.route ∧ r.upstream = target.upstream)
      ∧ (∀ more s', s.stop.after more = some s' →
        s'.starts = s.starts ∧ s'.records = s.records ∧ s'.failures = s.failures)
      ∧ s.pumping = false
      ∧ (∀ event s', s.handle event = some s' → s'.pumps ≠ s.pumps → s'.stopped = false →
        Armed s') := by
  obtain ⟨hinv, hidle⟩ := inv_after hmake events hrun
  refine ⟨⟨hinv.booked.bound, hinv.booked.active.symm,
    hinv.booked.count.trans hinv.booked.active.symm⟩, hinv.owned.live, ?_, ⟨?_, hinv.logged.once, ?_⟩,
    ?_, hidle, ?_⟩
  · intro i slot hslot
    obtain ⟨-, -, target, htarget, hinterval⟩ := hinv.timed.interval i slot hslot
    exact ⟨target, htarget, hinterval, (hinv.timed.spaced i slot hslot).1⟩
  · rw [hinv.owned.ids]
    exact List.nodup_reverse.mpr List.nodup_range
  · intro r hr
    obtain ⟨p, target, hp, -, htarget, hroute, hupstream⟩ := hinv.logged.recorded r hr
    obtain ⟨start, hmem, hprobe, hslot⟩ := hinv.owned.begun r.probe p hp
    exact ⟨start, hmem, hprobe, target, by rw [hslot]; exact htarget, hroute, hupstream⟩
  · intro more s' hs'
    have hsilent := stop_silent.trans (silent_after stop_stopped more hs')
    exact ⟨hsilent.starts, hsilent.records, hsilent.failures⟩
  · intro event s' hs' hpumps hrunning
    rcases (hinv.handle hs').2 with hsame | hstopped | harmed
    · exact absurd hsame hpumps
    · rw [hrunning] at hstopped
      cases hstopped
    · exact harmed

/-- A route with one upstream, probed twice; the second probe is over before its start returns. -/
def oneSlot : AppConfig :=
  { routes := [{ routePrefix := ['/'], upstreams := [{ host := ['a'], port := 80 }],
                 healthCheck := some { path := ['/'] } }] }

def oneSlotRun : List Event :=
  [.start, .posted ⟨[⟨0, false, .running⟩, ⟨1, false, .running⟩], false⟩,
    .probe 0 (.deadline none) ⟨[⟨2, false, .running⟩], false⟩,
    .timer none ⟨[⟨5000000000, false, .resolveThrows⟩, ⟨5000000000, false, .running⟩], false⟩]

theorem probes_scheduled_one_slot : ∃ s₀ s, make oneSlot 0 = .ok s₀
    ∧ s₀.after oneSlotRun = some s ∧ s.records.length = 2 ∧ s.schedule.active ≤ 4 := by
  refine ⟨_, _, rfl, rfl, rfl, ?_⟩
  exact (probes_scheduled oneSlot 0 _ _ oneSlotRun rfl rfl).1.1

end HealthChecks

end ApiGate
