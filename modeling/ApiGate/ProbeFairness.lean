import ApiGate.EventLoop.Rotation
import ApiGate.EventLoop.Run
import ApiGate.HealthChecksSafety

/-!
# The schedule of the probes is fair

`take_due` goes round the slots from the cursor on and stops behind the first
one that is due. In terms of `EventLoop.Turns` every slot it returns has had its
turn in the ring from the cursor, so a slot that stays due is passed over by
fewer turns than there are slots (`length_taken_lt`). A round that finds nothing
ends where it began.
-/

namespace ApiGate

open EventLoop (Turns ringFrom)

namespace ProbeSchedule

/-! ## Runs -/

inductive ScheduleCall where
  | takeDue (now : TimePoint)
  | complete (slot : Nat)
  | stop
  deriving DecidableEq, Repr

/-- One call, and the slot it returns. A `complete` that throws has changed nothing. -/
def call (s : ProbeSchedule) : ScheduleCall → Option Nat × ProbeSchedule
  | .takeDue now => s.takeDue now
  | .complete slot =>
      match s.complete slot with
      | .ok s' => (none, s')
      | .error _ => (none, s)
  | .stop => (none, s.stop)

def after (s : ProbeSchedule) (calls : List ScheduleCall) : ProbeSchedule :=
  EventLoop.run (fun c s => (s.call c).2) s calls

/-- The slots returned in a run, in order. -/
def taken : ProbeSchedule → List ScheduleCall → List Nat
  | _, [] => []
  | s, c :: rest => (s.call c).1.toList ++ taken (s.call c).2 rest

/-- The slot may be probed at this moment. -/
def ready (s : ProbeSchedule) (now : TimePoint) (i : Nat) : Bool :=
  match s.slots[i]? with
  | some slot => !slot.inFlight && slot.due ≤ now
  | none => false

/-- What holds of a schedule of `n` slots in every state. -/
structure Cycles (n : Nat) (s : ProbeSchedule) : Prop where
  length_eq : s.slots.length = n
  cursor_lt : s.cursor < n
  active_eq : s.active = s.slots.countP ProbeSlot.inFlight
  active_le : s.active ≤ 4

/-! ## One round -/

section Round

variable {s : ProbeSchedule} {n : Nat} {now : TimePoint}

theorem ready_iff {i : Nat} : s.ready now i = true
    ↔ ∃ slot, s.slots[i]? = some slot ∧ slot.inFlight = false ∧ slot.due ≤ now := by
  unfold ready
  cases hslot : s.slots[i]? with
  | none => simp
  | some slot => simp

/-- The state after a slot has been handed out. -/
def takeAt (s : ProbeSchedule) (now : TimePoint) (index : Nat) (slot : ProbeSlot) : ProbeSchedule :=
  { s with
    cursor := (index + 1) % s.slots.length
    slots := s.slots.set index
      { slot with inFlight := true, due := dueAfter slot.interval now }
    active := s.active + 1 }

theorem succ_cursor {c : Nat} (h : c < n) : (if c + 1 = n then 0 else c + 1) = (c + 1) % n := by
  split
  · rename_i heq
    rw [heq, Nat.mod_self]
  · exact (Nat.mod_eq_of_lt (by omega)).symm

/-- A scan finds the first slot from the cursor on that is ready, or passes over every place. -/
theorem takeDueFrom_scan (now : TimePoint) (hcursor : s.cursor < s.slots.length) (visits : Nat) :
    ((∀ k, k < visits → s.ready now ((s.cursor + k) % s.slots.length) = false)
        ∧ takeDueFrom now visits s
          = (none, { s with cursor := (s.cursor + visits) % s.slots.length }))
      ∨ ∃ j slot, j < visits
        ∧ (∀ k, k < j → s.ready now ((s.cursor + k) % s.slots.length) = false)
        ∧ s.slots[(s.cursor + j) % s.slots.length]? = some slot
        ∧ slot.inFlight = false ∧ slot.due ≤ now
        ∧ takeDueFrom now visits s = (some ((s.cursor + j) % s.slots.length),
          s.takeAt now ((s.cursor + j) % s.slots.length) slot) := by
  induction visits generalizing s with
  | zero =>
      refine .inl ⟨fun k hk => absurd hk (Nat.not_lt_zero k), ?_⟩
      rw [Nat.add_zero, Nat.mod_eq_of_lt hcursor]
      rfl
  | succ visits ih =>
      have hnow : s.cursor % s.slots.length = s.cursor := Nat.mod_eq_of_lt hcursor
      have hget : s.slots[s.cursor]? = some s.slots[s.cursor] := List.getElem?_eq_getElem hcursor
      by_cases hready : s.ready now s.cursor = true
      · obtain ⟨slot, hslot, hidle, hdue⟩ := ready_iff.mp hready
        right
        refine ⟨0, slot, Nat.succ_pos _, fun k hk => absurd hk (Nat.not_lt_zero k), ?_⟩
        rw [Nat.add_zero, hnow]
        refine ⟨hslot, hidle, hdue, ?_⟩
        rw [takeDueFrom, succ_cursor hcursor]
        simp only [hslot, hidle, hdue, Bool.not_false, decide_true, Bool.and_self, if_true]
        rfl
      · -- the visit goes on to the next place, with the same slots
        have hstep : takeDueFrom now (visits + 1) s
            = takeDueFrom now visits { s with cursor := (s.cursor + 1) % s.slots.length } := by
          have hskip : (!s.slots[s.cursor].inFlight && decide (s.slots[s.cursor].due ≤ now))
              = false := by
            unfold ready at hready
            rw [hget] at hready
            exact Bool.not_eq_true _ ▸ hready
          rw [takeDueFrom, succ_cursor hcursor]
          simp only [hget, hskip, Bool.false_eq_true, if_false]
        have hshift : ∀ k, ((s.cursor + 1) % s.slots.length + k) % s.slots.length
            = (s.cursor + (k + 1)) % s.slots.length := by
          intro k
          rw [Nat.mod_add_mod, Nat.add_assoc, Nat.add_comm 1]
        have hfirst : ∀ j, (∀ k, k < j →
              s.ready now (((s.cursor + 1) % s.slots.length + k) % s.slots.length) = false) →
            ∀ k, k < j + 1 → s.ready now ((s.cursor + k) % s.slots.length) = false := by
          intro j hbefore k hk
          cases k with
          | zero =>
              rw [Nat.add_zero, hnow]
              exact Bool.not_eq_true _ ▸ hready
          | succ k =>
              rw [← hshift]
              exact hbefore k (Nat.lt_of_succ_lt_succ hk)
        have hnext : (s.cursor + 1) % s.slots.length < s.slots.length :=
          Nat.mod_lt _ (Nat.zero_lt_of_lt hcursor)
        rw [hstep]
        rcases ih (s := { s with cursor := (s.cursor + 1) % s.slots.length }) hnext with
          ⟨hnone, heq⟩ | ⟨j, slot, hj, hbefore, hslot, hidle, hdue, heq⟩
        · left
          refine ⟨hfirst visits hnone, ?_⟩
          rw [heq, hshift]
        · right
          dsimp only at hslot heq
          rw [hshift] at hslot heq
          exact ⟨j + 1, slot, Nat.succ_lt_succ hj, hfirst j hbefore, hslot, hidle, hdue, heq⟩

/-- Everything `take_due` can do: nothing at all, because it may not or because no slot is ready, or
handing out the first slot from the cursor on that is. -/
theorem takeDue_scan (h : s.Cycles n) (now : TimePoint) :
    (s.takeDue now = (none, s) ∧ (s.stopped = true ∨ s.active = 4
        ∨ ∀ i, s.ready now i = false))
      ∨ (s.stopped = false ∧ s.active ≠ 4 ∧ ∃ j slot, j < n
        ∧ (∀ k, k < j → s.ready now ((s.cursor + k) % n) = false)
        ∧ s.slots[(s.cursor + j) % n]? = some slot ∧ slot.inFlight = false ∧ slot.due ≤ now
        ∧ s.takeDue now = (some ((s.cursor + j) % n), s.takeAt now ((s.cursor + j) % n) slot)) := by
  have hcursor := h.cursor_lt
  obtain rfl := h.length_eq
  unfold takeDue
  split
  · rename_i hguard
    rw [Bool.or_eq_true, decide_eq_true_eq] at hguard
    rcases hguard with hstopped | hactive
    · exact .inl ⟨rfl, .inl hstopped⟩
    · exact .inl ⟨rfl, .inr (.inl hactive)⟩
  · rename_i hguard
    rw [Bool.or_eq_true, decide_eq_true_eq, not_or, Bool.not_eq_true] at hguard
    rcases takeDueFrom_scan now hcursor s.slots.length with ⟨hnone, heq⟩ | ⟨j, slot, hj, hfound⟩
    · left
      rw [heq, Nat.add_mod_right, Nat.mod_eq_of_lt hcursor]
      refine ⟨rfl, .inr (.inr fun i => ?_)⟩
      by_cases hi : i < s.slots.length
      · -- the place `i` is reached in the round
        have hreach := hnone ((i + (s.slots.length - s.cursor)) % s.slots.length)
          (Nat.mod_lt _ (Nat.zero_lt_of_lt hcursor))
        rw [Nat.add_mod_mod, show s.cursor + (i + (s.slots.length - s.cursor))
          = i + s.slots.length by omega, Nat.add_mod_right, Nat.mod_eq_of_lt hi] at hreach
        exact hreach
      · unfold ready
        rw [List.getElem?_eq_none (Nat.not_lt.mp hi)]
    · exact .inr ⟨hguard.1, hguard.2, j, slot, hj, hfound⟩

end Round

/-! ## What every call keeps -/

section Calls

variable {s : ProbeSchedule} {n : Nat}

theorem Cycles.takeAt (h : s.Cycles n) {index : Nat} {slot : ProbeSlot}
    (hslot : s.slots[index]? = some slot) (hidle : slot.inFlight = false) (hactive : s.active ≠ 4)
    (now : TimePoint) : (s.takeAt now index slot).Cycles n := by
  obtain ⟨hlt, hget⟩ := List.getElem?_eq_some_iff.mp hslot
  obtain ⟨rfl, hcursor, hcount, hle⟩ := h
  refine ⟨List.length_set, Nat.mod_lt _ (Nat.zero_lt_of_lt hlt), ?_, ?_⟩
  · show s.active + 1 = (s.slots.set index _).countP ProbeSlot.inFlight
    rw [List.countP_set hlt, hget, hidle, hcount]
    simp
  · show s.active + 1 ≤ 4
    omega

theorem Cycles.complete (h : s.Cycles n) {index : Nat} {slot : ProbeSlot}
    (hslot : s.slots[index]? = some slot) (hflight : slot.inFlight = true) :
    ({ s with slots := s.slots.set index { slot with inFlight := false },
              active := s.active - 1 } : ProbeSchedule).Cycles n := by
  obtain ⟨hlt, hget⟩ := List.getElem?_eq_some_iff.mp hslot
  obtain ⟨rfl, hcursor, hcount, hle⟩ := h
  refine ⟨List.length_set, hcursor, ?_, ?_⟩
  · show s.active - 1 = (s.slots.set index _).countP ProbeSlot.inFlight
    rw [List.countP_set hlt, hget, hflight, hcount]
    simp
  · show s.active - 1 ≤ 4
    omega

theorem Cycles.stop (h : s.Cycles n) : s.stop.Cycles n := by
  obtain ⟨rfl, hcursor, -, -⟩ := h
  refine ⟨List.length_map _, hcursor, ?_, Nat.zero_le _⟩
  show 0 = (s.slots.map fun slot : ProbeSlot => { slot with inFlight := false }).countP
    ProbeSlot.inFlight
  rw [List.countP_map]
  exact (List.countP_eq_zero.mpr fun _ _ => Bool.false_ne_true).symm

/-- What a call that returns no slot leaves alone: the cursor, and the slots that are idle. -/
structure Quiet (s s' : ProbeSchedule) : Prop where
  cursor_eq : s'.cursor = s.cursor
  idle : ∀ (i : Nat) (slot : ProbeSlot), s.slots[i]? = some slot → slot.inFlight = false →
    s'.slots[i]? = some slot

theorem call_cases (h : s.Cycles n) (c : ScheduleCall) :
    ((s.call c).1 = none ∧ Quiet s (s.call c).2)
      ∨ ∃ now j slot, c = .takeDue now ∧ j < n ∧ s.stopped = false ∧ s.active ≠ 4
        ∧ (∀ k, k < j → s.ready now ((s.cursor + k) % n) = false)
        ∧ s.slots[(s.cursor + j) % n]? = some slot ∧ slot.inFlight = false ∧ slot.due ≤ now
        ∧ s.call c = (some ((s.cursor + j) % n), s.takeAt now ((s.cursor + j) % n) slot) := by
  have hquiet : Quiet s s := ⟨rfl, fun _ _ hslot _ => hslot⟩
  cases c with
  | takeDue now =>
      rcases takeDue_scan h now with
        ⟨heq, -⟩ | ⟨hrunning, hactive, j, slot, hj, hbefore, hslot, hidle, hdue, heq⟩
      · left
        rw [call, heq]
        exact ⟨rfl, hquiet⟩
      · exact .inr ⟨now, j, slot, rfl, hj, hrunning, hactive, hbefore, hslot, hidle, hdue, heq⟩
  | complete index =>
      left
      rcases complete_cases s index with ⟨-, heq⟩ | ⟨slot, -, -, heq⟩ | ⟨slot, hslot, hflight, heq⟩
      · rw [call, heq]
        exact ⟨rfl, hquiet⟩
      · rw [call, heq]
        exact ⟨rfl, hquiet⟩
      · rw [call, heq]
        refine ⟨rfl, rfl, fun i other hother hidle => ?_⟩
        have hne : index ≠ i := by
          rintro rfl
          rw [hslot] at hother
          cases hother
          rw [hflight] at hidle
          cases hidle
        exact (List.getElem?_set_ne hne).trans hother
  | stop =>
      refine .inl ⟨rfl, rfl, fun i slot hslot hidle => ?_⟩
      show (s.slots.map _)[i]? = some slot
      rw [List.getElem?_map, hslot, Option.map_some, ← hidle]

theorem Cycles.call (h : s.Cycles n) (c : ScheduleCall) : (s.call c).2.Cycles n := by
  cases c with
  | takeDue now =>
      rcases takeDue_scan h now with ⟨heq, -⟩ | ⟨-, hactive, j, slot, -, -, hslot, hidle, -, heq⟩
      · rw [ProbeSchedule.call, heq]
        exact h
      · rw [ProbeSchedule.call, heq]
        exact h.takeAt hslot hidle hactive now
  | complete index =>
      rcases complete_cases s index with ⟨-, heq⟩ | ⟨slot, -, -, heq⟩ | ⟨slot, hslot, hflight, heq⟩
      · rw [ProbeSchedule.call, heq]
        exact h
      · rw [ProbeSchedule.call, heq]
        exact h
      · rw [ProbeSchedule.call, heq]
        exact h.complete hslot hflight
  | stop => exact h.stop

theorem Cycles.after (h : s.Cycles n) (calls : List ScheduleCall) : (s.after calls).Cycles n :=
  EventLoop.run_invariant_all (Cycles n) (fun c _ hs => hs.call c) h calls

/-! ## Turns -/

/-- The slots returned have their turns in the ring from the cursor, and one that is idle and due
is ready in each of these turns. -/
theorem taken_turns (calls : List ScheduleCall) : ∀ {s : ProbeSchedule}, s.Cycles n →
    ∀ {i : Nat} {slot : ProbeSlot} {t : TimePoint}, s.slots[i]? = some slot →
      slot.inFlight = false → slot.due ≤ t → (∀ now, .takeDue now ∈ calls → t ≤ now) →
      i ∉ s.taken calls →
      ∃ readies ring, Turns readies (ringFrom n s.cursor) (s.taken calls) ring
        ∧ readies.length = (s.taken calls).length ∧ ∀ ready ∈ readies, ready i = true := by
  induction calls with
  | nil =>
      intro s _ i slot t _ _ _ _ _
      exact ⟨[], _, Turns.nil _, rfl, List.forall_mem_nil _⟩
  | cons c rest ih =>
      intro s h i slot t hslot hidle hdue hlater hnot
      have hrest : ∀ now, .takeDue now ∈ rest → t ≤ now :=
        fun now hnow => hlater now (List.mem_cons_of_mem _ hnow)
      have hnext := h.call c
      rw [taken, List.mem_append, not_or] at hnot
      rcases call_cases h c with
        ⟨hnone, hquiet⟩ | ⟨now, j, other, rfl, hj, -, -, hbefore, hother, hfree, hother_due, heq⟩
      · have hturns := ih hnext (hquiet.idle i slot hslot hidle) hidle hdue hrest hnot.2
        rw [hquiet.cursor_eq] at hturns
        rw [taken, hnone]
        exact hturns
      · rw [heq] at hnot hnext
        have hne : (s.cursor + j) % n ≠ i := by
          rintro rfl
          exact hnot.1 (List.mem_singleton_self _)
        have hstays : (s.takeAt now ((s.cursor + j) % n) other).slots[i]? = some slot :=
          (List.getElem?_set_ne hne).trans hslot
        obtain ⟨readies, ring, hturns, hlength, hready⟩ :=
          ih hnext hstays hidle hdue hrest hnot.2
        have hcursor : (s.takeAt now ((s.cursor + j) % n) other).cursor
            = ((s.cursor + j) % n + 1) % n := by
          show ((s.cursor + j) % n + 1) % s.slots.length = _
          rw [h.length_eq]
        rw [hcursor] at hturns
        refine ⟨s.ready now :: readies, ring, ?_, ?_, ?_⟩
        · rw [taken, heq]
          exact hturns.ringFrom_cons hj hbefore (ready_iff.mpr ⟨other, hother, hfree, hother_due⟩)
        · rw [taken, heq, List.length_cons, hlength]
          rfl
        · rw [List.forall_mem_cons]
          refine ⟨ready_iff.mpr ⟨slot, hslot, hidle, ?_⟩, hready⟩
          exact Int64.le_trans hdue (hlater now (List.mem_cons_self ..))

/-- While a slot waits that is idle and due, fewer others are returned than there are slots. -/
theorem length_taken_lt (h : s.Cycles n) {i : Nat} {slot : ProbeSlot} {t : TimePoint}
    (hslot : s.slots[i]? = some slot) (hidle : slot.inFlight = false) (hdue : slot.due ≤ t)
    {calls : List ScheduleCall} (hlater : ∀ now, .takeDue now ∈ calls → t ≤ now)
    (hnot : i ∉ s.taken calls) : (s.taken calls).length < n := by
  obtain ⟨readies, ring, hturns, hlength, hready⟩ :=
    taken_turns calls h hslot hidle hdue hlater hnot
  have hi : i < n := by
    rw [← h.length_eq]
    exact (List.getElem?_eq_some_iff.mp hslot).1
  by_contra hlt
  refine hnot (hturns.mem_picks (EventLoop.mem_ringFrom.mpr hi) hready ?_)
  rw [EventLoop.length_ringFrom]
  omega

theorem takeDue_isSome_iff (h : s.Cycles n) (now : TimePoint) :
    (s.takeDue now).1.isSome
      ↔ s.stopped = false ∧ s.slots.countP ProbeSlot.inFlight < 4
        ∧ ∃ i : Nat, ∃ slot : ProbeSlot, s.slots[i]? = some slot ∧ slot.inFlight = false
          ∧ slot.due ≤ now := by
  have hle := h.active_le
  rw [← h.active_eq]
  rcases takeDue_scan h now with
    ⟨heq, hnone⟩ | ⟨hrunning, hactive, j, slot, -, -, hslot, hidle, hdue, heq⟩
  · rw [heq]
    refine iff_of_false Bool.false_ne_true ?_
    rintro ⟨hrunning, hfew, i, hi⟩
    rcases hnone with hstopped | hactive | hnone
    · rw [hrunning] at hstopped
      cases hstopped
    · omega
    · have hready := ready_iff.mpr hi
      rw [hnone i] at hready
      cases hready
  · rw [heq]
    exact iff_of_true rfl ⟨hrunning, by omega, _, slot, hslot, hidle, hdue⟩

end Calls

/-! ## From the constructor on -/

theorem cycles_make {intervals : List Nat} {start : TimePoint} {s₀ : ProbeSchedule}
    (hmake : make intervals start = .ok s₀) (hsome : 1 ≤ intervals.length) :
    s₀.Cycles intervals.length := by
  unfold make at hmake
  split at hmake
  · cases hmake
  · cases hmake
    refine ⟨List.length_map _, hsome, ?_, Nat.zero_le _⟩
    dsimp only
    rw [List.countP_map]
    exact (List.countP_eq_zero.mpr fun _ _ => Bool.false_ne_true).symm

/-- In every state that is reached the cursor names a slot; `take_due` returns one exactly when it
may and some idle slot is due, and changes nothing when it does not; and while a slot is idle and
due, no more than all the others are returned before it. -/
theorem probes_fair (intervals : List Nat) (start : TimePoint) (s₀ : ProbeSchedule)
    (hmake : make intervals start = .ok s₀) (hsome : 1 ≤ intervals.length)
    (past : List ScheduleCall) :
    (s₀.after past).cursor < intervals.length
      ∧ (∀ now, ((s₀.after past).takeDue now).1.isSome
          ↔ (s₀.after past).stopped = false
            ∧ (s₀.after past).slots.countP ProbeSlot.inFlight < 4
            ∧ ∃ i : Nat, ∃ slot : ProbeSlot, (s₀.after past).slots[i]? = some slot
              ∧ slot.inFlight = false ∧ slot.due ≤ now)
      ∧ (∀ now, ((s₀.after past).takeDue now).1 = none →
          ((s₀.after past).takeDue now).2 = s₀.after past)
      ∧ (∀ (i : Nat) (slot : ProbeSlot) (t : TimePoint),
          (s₀.after past).slots[i]? = some slot → slot.inFlight = false → slot.due ≤ t →
          ∀ calls : List ScheduleCall, (∀ now, .takeDue now ∈ calls → t ≤ now) →
          i ∉ (s₀.after past).taken calls →
          ((s₀.after past).taken calls).length ≤ intervals.length - 1) := by
  have h := (cycles_make hmake hsome).after past
  refine ⟨h.cursor_lt, fun now => takeDue_isSome_iff h now, fun now hnone => ?_, ?_⟩
  · rcases takeDue_scan h now with ⟨heq, -⟩ | ⟨-, -, j, slot, -, -, -, -, -, heq⟩
    · rw [heq]
    · rw [heq] at hnone
      cases hnone
  · intro i slot t hslot hidle hdue calls hlater hnot
    have hlt := length_taken_lt h hslot hidle hdue hlater hnot
    omega

/-- Two slots that are due: the other one first, once. -/
theorem probes_fair_two :
    ∃ s₀, make [100, 100] 0 = .ok s₀
      ∧ (s₀.taken [.takeDue 0, .complete 0, .takeDue 1]).length = 2
      ∧ (s₀.taken [.takeDue 0, .complete 0]).length ≤ 1 := by
  obtain ⟨-, -, -, hfair⟩ := probes_fair [100, 100] 0 _ rfl (by decide) []
  refine ⟨_, rfl, by decide, ?_⟩
  refine hfair 1 ⟨nanoseconds 100, 0, false⟩ 0 rfl rfl (by decide) _ ?_ (by decide)
  intro now hnow
  obtain rfl : now = 0 := by simpa using hnow
  decide

end ProbeSchedule

end ApiGate
