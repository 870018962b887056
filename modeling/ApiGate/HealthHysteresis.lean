import ApiGate.EventLoop.Run
import ApiGate.EventLoop.Streak
import ApiGate.Health

/-!
# What a slot's results say about its availability

The counters of a slot are the streaks of its own results, cut off at the
thresholds, and its flag is the switch that these streaks turn
(`HealthSlot.Tracks`). A result is recorded in the slot it names and in no
other, so every history of results splits into one for each slot.
-/

namespace ApiGate

open EventLoop

/-- The slot is taken out of the rotation: enough failures in a row, and since then
never enough successes in a row. -/
abbrev HealthCheckConfig.Down (settings : HealthCheckConfig) (results : List Bool) : Prop :=
  Tripped false true settings.unhealthyThreshold settings.healthyThreshold results

namespace HealthSlot

variable {settings : HealthCheckConfig} {results : List Bool} {slot : HealthSlot}

/-- What the fields of a slot know of its results. -/
structure Tracks (settings : HealthCheckConfig) (results : List Bool) (slot : HealthSlot) :
    Prop where
  healthy : slot.healthy = false ↔ settings.Down results
  failures : slot.failures = min (streak false results) settings.unhealthyThreshold
  successes : slot.successes = min (streak true results) settings.healthyThreshold

theorem tracks_nil (hu : 1 ≤ settings.unhealthyThreshold) : Tracks settings [] {} where
  healthy := iff_of_false (by simp) (not_tripped_nil hu)
  failures := by simp [streak]
  successes := by simp [streak]

theorem down_success (hu : 1 ≤ settings.unhealthyThreshold) (results : List Bool) :
    settings.Down (results ++ [true]) ↔
    settings.Down results ∧ streak true results + 1 < settings.healthyThreshold := by
  rw [HealthCheckConfig.Down, tripped_snoc, endsIn_iff, endsIn_iff,
    streak_snoc_of_ne (by simp), streak_snoc_self, Nat.not_le]
  exact or_iff_right (by omega)

theorem down_failure (hh : 1 ≤ settings.healthyThreshold) (results : List Bool) :
    settings.Down (results ++ [false]) ↔
    settings.unhealthyThreshold ≤ streak false results + 1 ∨ settings.Down results := by
  rw [HealthCheckConfig.Down, tripped_snoc, endsIn_iff, endsIn_iff,
    streak_snoc_self, streak_snoc_of_ne (by simp)]
  exact or_congr_right (and_iff_left (by omega))

theorem Tracks.success (h : Tracks settings results slot)
    (hu : 1 ≤ settings.unhealthyThreshold) :
    Tracks settings (results ++ [true]) (slot.record settings true).2
      ∧ ((slot.record settings true).1 = .healthy
        ↔ settings.Down results ∧ ¬settings.Down (results ++ [true]))
      ∧ (slot.record settings true).1 ≠ .unhealthy := by
  have hsuccesses : min (slot.successes + 1) settings.healthyThreshold
      = min (streak true (results ++ [true])) settings.healthyThreshold := by
    rw [h.successes, streak_snoc_self]
    omega
  have hfailures : min (streak false (results ++ [true])) settings.unhealthyThreshold = 0 := by
    rw [streak_snoc_of_ne (by simp)]
    omega
  -- the threshold is reached exactly when the streak is long enough
  have hreached : min (slot.successes + 1) settings.healthyThreshold = settings.healthyThreshold
      ↔ ¬streak true results + 1 < settings.healthyThreshold := by
    rw [h.successes]
    omega
  have hdown := down_success hu results
  unfold record
  rw [if_pos rfl]
  dsimp only
  cases hhealthy : slot.healthy with
  | true =>
      have hup : ¬settings.Down results := fun hd => by
        rw [h.healthy.mpr hd] at hhealthy
        cases hhealthy
      refine ⟨⟨?_, hfailures.symm, hsuccesses⟩, ?_, by simp⟩
      · exact iff_of_false (by simp) fun hd => hup (hdown.mp hd).1
      · exact iff_of_false (by simp) fun hd => hup hd.1
  | false =>
      have hd := h.healthy.mp hhealthy
      by_cases hlt : streak true results + 1 < settings.healthyThreshold
      · have hbelow := fun heq => hreached.mp heq hlt
        rw [if_neg (by simpa using hbelow)]
        refine ⟨⟨?_, hfailures.symm, hsuccesses⟩, ?_, by simp⟩
        · exact iff_of_true rfl (hdown.mpr ⟨hd, hlt⟩)
        · exact iff_of_false (by simp) fun hflip => hflip.2 (hdown.mpr ⟨hd, hlt⟩)
      · rw [if_pos (by simpa using hreached.mpr hlt)]
        have hup : ¬settings.Down (results ++ [true]) := fun hd' => hlt (hdown.mp hd').2
        exact ⟨⟨iff_of_false (by simp) hup, hfailures.symm, hsuccesses⟩,
          iff_of_true rfl ⟨hd, hup⟩, by simp⟩

theorem Tracks.failure (h : Tracks settings results slot)
    (hh : 1 ≤ settings.healthyThreshold) :
    Tracks settings (results ++ [false]) (slot.record settings false).2
      ∧ ((slot.record settings false).1 = .unhealthy
        ↔ ¬settings.Down results ∧ settings.Down (results ++ [false]))
      ∧ (slot.record settings false).1 ≠ .healthy := by
  have hfailures : min (slot.failures + 1) settings.unhealthyThreshold
      = min (streak false (results ++ [false])) settings.unhealthyThreshold := by
    rw [h.failures, streak_snoc_self]
    omega
  have hsuccesses : min (streak true (results ++ [false])) settings.healthyThreshold = 0 := by
    rw [streak_snoc_of_ne (by simp)]
    omega
  have hreached : min (slot.failures + 1) settings.unhealthyThreshold
      = settings.unhealthyThreshold
      ↔ settings.unhealthyThreshold ≤ streak false results + 1 := by
    rw [h.failures]
    omega
  have hdown := down_failure hh results
  unfold record
  rw [if_neg (by simp)]
  dsimp only
  cases hhealthy : slot.healthy with
  | false =>
      have hd := h.healthy.mp hhealthy
      refine ⟨⟨?_, hfailures, hsuccesses.symm⟩, ?_, by simp⟩
      · exact iff_of_true rfl (hdown.mpr (Or.inr hd))
      · exact iff_of_false (by simp) fun hflip => hflip.1 hd
  | true =>
      have hup : ¬settings.Down results := fun hd => by
        rw [h.healthy.mpr hd] at hhealthy
        cases hhealthy
      by_cases hlong : settings.unhealthyThreshold ≤ streak false results + 1
      · rw [if_pos (by simpa using hreached.mpr hlong)]
        have hd := hdown.mpr (Or.inl hlong)
        exact ⟨⟨iff_of_true rfl hd, hfailures, hsuccesses.symm⟩, iff_of_true rfl ⟨hup, hd⟩,
          by simp⟩
      · rw [if_neg (by simpa using fun heq => hlong (hreached.mp heq))]
        have hstill : ¬settings.Down (results ++ [false]) :=
          fun hd => (hdown.mp hd).elim hlong hup
        refine ⟨⟨?_, hfailures, hsuccesses.symm⟩, ?_, by simp⟩
        · exact iff_of_false (by simp) hstill
        · exact iff_of_false (by simp) fun hflip => hstill hflip.2

end HealthSlot

/-! ## Histories -/

/-- A call of `record`. -/
structure HealthResult where
  route : Nat
  upstream : Nat
  success : Bool
  deriving DecidableEq, Repr

namespace UpstreamHealthState

variable {h : UpstreamHealthState} {r s : Nat}

def recordAll (h : UpstreamHealthState) (history : List HealthResult) : UpstreamHealthState :=
  run (fun x h => (record h x.route x.upstream x.success).2) h history

/-- The results of one slot, in order. -/
def results (r s : Nat) (history : List HealthResult) : List Bool :=
  (history.filter fun x => x.route = r && x.upstream = s).map HealthResult.success

/-- A slot with the settings of its route. -/
def lookup (h : UpstreamHealthState) (r s : Nat) : Option (Option HealthCheckConfig × HealthSlot) :=
  h[r]?.bind fun route => route.slots[s]?.map fun slot => (route.config, slot)

theorem available_eq (h : UpstreamHealthState) (r s : Nat) :
    h.available r s = (h.lookup r s).map fun x => x.2.healthy := by
  unfold available lookup
  cases h[r]? with
  | none => rfl
  | some route =>
      cases hslot : route.slots[s]? with
      | none => simp [hslot]
      | some slot => simp [hslot]

theorem lookup_make (routes : List RouteConfig) (r s : Nat) :
    (make routes).lookup r s = routes[r]?.bind fun route =>
      if s < route.upstreams.length then some (route.healthCheck, {}) else none := by
  unfold lookup make
  rw [List.getElem?_map]
  cases routes[r]? with
  | none => rfl
  | some route =>
      simp only [Option.map_some, Option.bind_some, List.getElem?_replicate]
      split <;> rfl

/-- What a result does to the slot it is about. -/
def update (success : Bool) : Option HealthCheckConfig × HealthSlot →
    Option HealthCheckConfig × HealthSlot
  | (none, slot) => (none, slot)
  | (some settings, slot) => (some settings, (slot.record settings success).2)

/-- The call finds no slot with settings. -/
theorem record_of_none (success : Bool)
    (hnone : ∀ settings slot, h.lookup r s ≠ some (some settings, slot)) :
    h.record r s success = (.unchanged, h) := by
  unfold record
  cases hr : h[r]? with
  | none => rfl
  | some route =>
      cases hc : route.config with
      | none => simp only [hc]
      | some settings =>
          cases hs : route.slots[s]? with
          | none => simp only [hc, hs]
          | some slot => exact absurd (by simp [lookup, hr, hc, hs]) (hnone settings slot)

/-- The call finds one. -/
theorem record_of_some {settings : HealthCheckConfig} {slot : HealthSlot} (success : Bool)
    (hsome : h.lookup r s = some (some settings, slot)) :
    ∃ route, h[r]? = some route ∧ route.config = some settings ∧ route.slots[s]? = some slot
      ∧ h.record r s success = ((slot.record settings success).1, List.set h r
          { route with slots := List.set route.slots s (slot.record settings success).2 }) := by
  unfold lookup at hsome
  obtain ⟨route, hr, hslot⟩ := Option.bind_eq_some_iff.mp hsome
  obtain ⟨slot', hs, heq⟩ := Option.map_eq_some_iff.mp hslot
  obtain ⟨hc, rfl⟩ := Prod.mk.inj heq
  refine ⟨route, hr, hc, hs, ?_⟩
  unfold record
  simp only [hr, hc, hs]

/-- And to every slot. -/
theorem lookup_record (h : UpstreamHealthState) (r s : Nat) (success : Bool) (r' s' : Nat) :
    (h.record r s success).2.lookup r' s'
      = if r = r' ∧ s = s' then (h.lookup r' s').map (update success) else h.lookup r' s' := by
  by_cases hsome : ∃ settings slot, h.lookup r s = some (some settings, slot)
  · obtain ⟨settings, slot, hsome⟩ := hsome
    obtain ⟨route, hr, hc, hs, hrecord⟩ := record_of_some success hsome
    have hrlt : r < h.length := (List.getElem?_eq_some_iff.mp hr).1
    have hslt : s < route.slots.length := (List.getElem?_eq_some_iff.mp hs).1
    rw [hrecord]
    unfold lookup
    by_cases hrr : r = r'
    · subst hrr
      rw [List.getElem?_set_self hrlt]
      by_cases hss : s = s'
      · subst hss
        rw [if_pos ⟨rfl, rfl⟩, hr]
        simp [List.getElem?_set_self hslt, hs, hc, update]
      · rw [if_neg fun hand => hss hand.2, hr]
        simp [List.getElem?_set_ne hss]
    · rw [if_neg fun hand => hrr hand.1, List.getElem?_set_ne hrr]
  · rw [record_of_none success fun settings slot heq => hsome ⟨settings, slot, heq⟩]
    split
    · rename_i hsame
      obtain ⟨rfl, rfl⟩ := hsame
      cases hl : h.lookup r s with
      | none => rfl
      | some x =>
          obtain ⟨_ | settings, slot⟩ := x
          · rfl
          · exact absurd ⟨settings, slot, hl⟩ hsome
    · rfl

/-- The slot after a history of its own results. -/
def slotAfter : Option HealthCheckConfig → List Bool → HealthSlot
  | none, _ => {}
  | some settings, results => results.foldl (fun slot x => (slot.record settings x).2) {}

theorem update_slotAfter (config : Option HealthCheckConfig) (results : List Bool)
    (success : Bool) : update success (config, slotAfter config results)
      = (config, slotAfter config (results ++ [success])) := by
  cases config with
  | none => rfl
  | some settings => simp [update, slotAfter, List.foldl_append]

theorem results_snoc (r s : Nat) (history : List HealthResult) (x : HealthResult) :
    results r s (history ++ [x]) = if x.route = r ∧ x.upstream = s
      then results r s history ++ [x.success] else results r s history := by
  unfold results
  by_cases hx : x.route = r ∧ x.upstream = s
  · rw [if_pos hx]
    simp [List.filter_append, hx.1, hx.2]
  · rw [if_neg hx]
    simp [List.filter_append, hx]

/-- A slot knows its own results and no others. -/
theorem lookup_recordAll (routes : List RouteConfig) (r s : Nat) (history : List HealthResult) :
    (recordAll (make routes) history).lookup r s = routes[r]?.bind fun route =>
      if s < route.upstreams.length then
        some (route.healthCheck, slotAfter route.healthCheck (results r s history))
      else none := by
  induction history using List.reverseRecOn with
  | nil =>
      have hnil : ∀ config, slotAfter config [] = {} := by
        intro config
        cases config <;> rfl
      exact (lookup_make routes r s).trans (by simp [results, hnil])
  | append_singleton history x ih =>
      have hlast : recordAll (make routes) (history ++ [x])
          = ((recordAll (make routes) history).record x.route x.upstream x.success).2 := by
        unfold recordAll
        rw [← run_append]
        rfl
      rw [hlast, lookup_record, ih, results_snoc]
      split
      · cases routes[r]? with
        | none => rfl
        | some route =>
            simp only [Option.bind_some]
            split
            · rw [Option.map_some, update_slotAfter]
            · rfl
      · rfl

theorem slotAfter_tracks {settings : HealthCheckConfig} (hu : 1 ≤ settings.unhealthyThreshold)
    (hh : 1 ≤ settings.healthyThreshold) (results : List Bool) :
    HealthSlot.Tracks settings results (slotAfter (some settings) results) := by
  induction results using List.reverseRecOn with
  | nil => exact HealthSlot.tracks_nil hu
  | append_singleton results x ih =>
      have hlast : slotAfter (some settings) (results ++ [x])
          = ((slotAfter (some settings) results).record settings x).2 := by
        simp [slotAfter, List.foldl_append]
      rw [hlast]
      cases x with
      | true => exact (ih.success hu).1
      | false => exact (ih.failure hh).1

/-- What a slot whose results are `own` answers. -/
structure Follows (settings : HealthCheckConfig) (own : List Bool) (h : UpstreamHealthState)
    (r s : Nat) : Prop where
  unavailable : h.available r s = some false ↔ settings.Down own
  available : h.available r s = some true ↔ ¬settings.Down own
  unhealthy : ∀ success, (h.record r s success).1 = .unhealthy
    ↔ ¬settings.Down own ∧ settings.Down (own ++ [success])
  healthy : ∀ success, (h.record r s success).1 = .healthy
    ↔ settings.Down own ∧ ¬settings.Down (own ++ [success])

theorem follows_of_lookup {settings : HealthCheckConfig} {own : List Bool}
    (hu : 1 ≤ settings.unhealthyThreshold) (hh : 1 ≤ settings.healthyThreshold)
    (hlookup : h.lookup r s = some (some settings, slotAfter (some settings) own)) :
    Follows settings own h r s := by
  have htracks := slotAfter_tracks hu hh own
  have hrecord : ∀ success, (h.record r s success).1
      = ((slotAfter (some settings) own).record settings success).1 := by
    intro success
    obtain ⟨route, -, -, -, heq⟩ := record_of_some success hlookup
    rw [heq]
  have hsuccess := htracks.success hu
  have hfailure := htracks.failure hh
  refine ⟨?_, ?_, fun success => ?_, fun success => ?_⟩
  · rw [available_eq, hlookup]
    simpa using htracks.healthy
  · rw [available_eq, hlookup, ← htracks.healthy]
    simp
  · rw [hrecord]
    cases success with
    | false => exact hfailure.2.1
    | true =>
        refine iff_of_false hsuccess.2.2 fun hflip => hflip.1 ?_
        exact ((HealthSlot.down_success hu own).mp hflip.2).1
  · rw [hrecord]
    cases success with
    | true => exact hsuccess.2.1
    | false =>
        refine iff_of_false hfailure.2.2 fun hflip => hflip.2 ?_
        exact (HealthSlot.down_failure hh own).mpr (Or.inr hflip.1)

/-- After every history of results a slot is unavailable exactly when its own results
have tripped it, and `record` reports exactly the changes of this; a slot without a
health check is available whatever is recorded. Nothing but the slot's own results
counts. -/
theorem available_iff_last_streak (routes : List RouteConfig) (history : List HealthResult)
    (r s : Nat) (route : RouteConfig) (hroute : routes[r]? = some route)
    (hslot : s < route.upstreams.length) :
    let h := recordAll (make routes) history
    (∀ settings, route.healthCheck = some settings → 1 ≤ settings.unhealthyThreshold →
        1 ≤ settings.healthyThreshold → Follows settings (results r s history) h r s)
      ∧ (route.healthCheck = none → h.available r s = some true
        ∧ ∀ success, (h.record r s success).1 = .unchanged)
      ∧ ∀ history', results r s history' = results r s history →
        (recordAll (make routes) history').available r s = h.available r s := by
  have hlookup : ∀ history, (recordAll (make routes) history).lookup r s
      = some (route.healthCheck, slotAfter route.healthCheck (results r s history)) := by
    intro history
    rw [lookup_recordAll, hroute, Option.bind_some, if_pos hslot]
  intro h
  refine ⟨fun settings hcheck hu hh => ?_, fun hcheck => ⟨?_, fun success => ?_⟩,
    fun history' heq => ?_⟩
  · refine follows_of_lookup hu hh ?_
    rw [hlookup history, hcheck]
  · rw [available_eq, hlookup history, hcheck]
    rfl
  · have hnone : ∀ settings slot, h.lookup r s ≠ some (some settings, slot) := by
      intro settings slot hsome
      rw [hlookup history, hcheck] at hsome
      cases hsome
    rw [record_of_none success hnone]
  · rw [available_eq, available_eq, hlookup history', hlookup history, heq]

/-- Two slots with one address: three failures, a success and a failure for the first. -/
theorem available_iff_last_streak_two_slots :
    let routes : List RouteConfig :=
      [{ routePrefix := "/a".toList,
         upstreams := [⟨"same".toList, 1, 3000, .http⟩, ⟨"same".toList, 1, 3000, .http⟩],
         healthCheck := some { path := "/health".toList } }]
    let history : List HealthResult :=
      [⟨0, 0, false⟩, ⟨0, 1, true⟩, ⟨0, 0, false⟩, ⟨0, 0, false⟩, ⟨0, 0, true⟩, ⟨0, 0, false⟩]
    (recordAll (make routes) history).available 0 0 = some false
      ∧ (recordAll (make routes) history).available 0 1 = some true
      ∧ Follows { path := "/health".toList } (results 0 0 history)
        (recordAll (make routes) history) 0 0 := by
  intro routes history
  refine ⟨by decide, by decide, ?_⟩
  exact (available_iff_last_streak routes history 0 0 _ rfl (by decide)).1 _ rfl (by decide)
    (by decide)

end UpstreamHealthState

end ApiGate
