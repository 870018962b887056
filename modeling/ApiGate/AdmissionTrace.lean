import ApiGate.ConnectionOwners
import ApiGate.HealthHysteresis
import ApiGate.RoundRobin
import ApiGate.AdmissionGuards

/-!
# Admissions in a run of the gateway

What the sessions and the probes do to the admission state is a sequence of the calls of
`AdmissionUse`: one for each check that was made and one for each report, and permits that
are dropped in between. So the turns of a route go round its slots in every run. And an
exchange is made only for a slot that was available when it was admitted, which depends on
nothing but the reports on this slot.
-/

namespace ApiGate

open EventLoop Act

/-! ## Calls -/

namespace AdmissionUse

/-- What an admission was asked for. -/
def Call.asked : Call → Option (SelectedRoute × TimePoint)
  | .acquire route now => some (route, now)
  | .drop | .record _ _ _ => none

/-- What a probe has reported. -/
def Call.reported : Call → Option HealthResult
  | .record route upstream success => some ⟨route, upstream, success⟩
  | .acquire _ _ | .drop => none

/-- What a request asks of the admission state, or a probe reports to it. -/
inductive Occurrence where
  | checked (route : SelectedRoute) (now : TimePoint)
  | reported (result : HealthResult)

def Call.occurrence : Call → Option Occurrence
  | .acquire route now => some (.checked route now)
  | .record route upstream success => some (.reported ⟨route, upstream, success⟩)
  | .drop => none

/-- Without a report among the calls, what occurs is what was asked. -/
theorem occurrence_of_quiet {calls : List Call} (h : calls.filterMap Call.reported = []) :
    calls.filterMap Call.occurrence
      = (calls.filterMap Call.asked).map fun p => .checked p.1 p.2 := by
  induction calls with
  | nil => rfl
  | cons call rest ih =>
      cases call with
      | acquire route now =>
          have hrest := ih h
          simp only [List.filterMap_cons, Call.occurrence, Call.asked, List.map_cons, hrest]
      | drop => exact ih h
      | record route upstream success => cases h

end AdmissionUse

namespace Estate

/-- The admission state with one held result for each active proxy. -/
def admissionUse (e : Estate) : AdmissionUse :=
  { admission := e.admission, held := e.admission.proxies.activeProxies }

/-- From `start` to `e` the calls are `calls`: the checks `made` and the reports `reports`, in
order. -/
structure Asked (g : Setup) (start : Estate) (reports : List HealthResult) (e : Estate)
    (calls : List AdmissionUse.Call) (made : List RateCheck) : Prop where
  run : run AdmissionUse.step start.admissionUse calls = e.admissionUse
  table : ∀ call ∈ calls, call.FromTable g.config.routes
  checks : e.checks = made ++ start.checks
  asked : calls.filterMap AdmissionUse.Call.asked = made.reverse.map fun c => (c.route, c.now)
  reported : calls.filterMap AdmissionUse.Call.reported = reports

variable {g : Setup} {e e' start : Estate} {reports : List HealthResult} {i : Nat} {c : Custody}
  {calls : List AdmissionUse.Call} {made : List RateCheck}

/-- A call ends in a state with its permits accounted for, so its admission is all there is
to it. -/
theorem admissionUse_step {call : AdmissionUse.Call}
    (h : (AdmissionUse.step call e.admissionUse).admission = e'.admission) :
    AdmissionUse.step call e.admissionUse = e'.admissionUse := by
  have haccounted : (AdmissionUse.step call e.admissionUse).Accounted :=
    AdmissionUse.Accounted.step (u := e.admissionUse) rfl call
  unfold AdmissionUse.Accounted at haccounted
  unfold admissionUse at haccounted h ⊢
  rw [← h, haccounted]

/-- One call. -/
theorem asked_call (call : AdmissionUse.Call) (htable : call.FromTable g.config.routes)
    (hstep : (AdmissionUse.step call e.admissionUse).admission = e'.admission)
    (new : Option RateCheck) (hchecks : e'.checks = new.toList ++ e.checks)
    (hasked : call.asked = new.map fun c => (c.route, c.now)) :
    Asked g e call.reported.toList e' [call] new.toList where
  run := admissionUse_step hstep
  table c hc := by
    rw [List.mem_singleton.mp hc]
    exact htable
  checks := hchecks
  asked := by
    have hone : [call].filterMap AdmissionUse.Call.asked = call.asked.toList := by
      cases call <;> rfl
    rw [hone, hasked]
    cases new <;> rfl
  reported := by
    cases call <;> rfl

/-- Nothing is asked. -/
theorem asked_same (hadmission : e'.admission = e.admission) (hchecks : e'.checks = e.checks) :
    Asked g e [] e' [] [] where
  run := by
    unfold admissionUse
    rw [hadmission]
    rfl
  table _ hc := absurd hc List.not_mem_nil
  checks := hchecks
  asked := rfl
  reported := rfl

theorem Asked.trans {reports' : List HealthResult} {calls' : List AdmissionUse.Call}
    {made' : List RateCheck} (h : Asked g start reports e calls made)
    (h' : Asked g e reports' e' calls' made') :
    Asked g start (reports ++ reports') e' (calls ++ calls') (made' ++ made) where
  run := by rw [← run_append, h.run, h'.run]
  table c hc := by
    rcases List.mem_append.mp hc with hfirst | hlast
    · exact h.table c hfirst
    · exact h'.table c hlast
  checks := by rw [h'.checks, h.checks, List.append_assoc]
  asked := by
    rw [List.filterMap_append, h.asked, h'.asked, List.reverse_append, List.map_append]
  reported := by rw [List.filterMap_append, h.reported, h'.reported]

theorem fromTable_selected {request : HttpRequest} {route : SelectedRoute}
    (h : selectHttpRoute g.config request = some route) :
    AdmissionUse.FromTable g.config.routes route := by
  rcases selectHttpRoute_source h with ⟨upstream, -, rfl⟩ | ⟨r, entry, hentry, rfl⟩
  · exact Or.inl rfl
  · exact Or.inr ⟨r, entry, hentry, rfl, rfl⟩

/-- A permit is given back; if there is none to give, nothing happens. -/
theorem drop_admission (e : Estate) :
    (AdmissionUse.step .drop e.admissionUse).admission
      = { e.admission with proxies := e.admission.proxies.release } := by
  show (AdmissionUse.dropResult e.admissionUse).admission = _
  unfold AdmissionUse.dropResult
  split
  · rename_i hnone
    have hzero : e.admission.proxies.activeProxies = 0 := hnone
    simp [admissionUse, ProxyAdmissionState.release, hzero]
  · rfl

theorem Asked.move (h : ∃ calls made, Asked g start [] e calls made)
    (hmove : Custody.Move g (e.focus i) c) :
    ∃ calls made, Asked g start [] (e.put i c) calls made := by
  obtain ⟨calls, made, hasked⟩ := h
  cases hmove with
  | close k => exact ⟨_, _, hasked.trans (asked_same rfl rfl)⟩
  | put k clean fails known held => exact ⟨_, _, hasked.trans (asked_same rfl rfl)⟩
  | miss clean backend nothing => exact ⟨_, _, hasked.trans (asked_same rfl rfl)⟩
  | make clean request selected granted secured => exact ⟨_, _, hasked.trans (asked_same rfl rfl)⟩
  | check request route found =>
      refine ⟨_, _, hasked.trans (asked_call (.acquire route e.now) (fromTable_selected found) ?_
        (some ⟨request, route, e.now, (e.admission.checkRate route e.now).1⟩) ?_ rfl)⟩
      all_goals rfl
  | release =>
      refine ⟨_, _, hasked.trans (asked_call .drop trivial ?_ none ?_ rfl)⟩
      · exact drop_admission e
      · rfl

end Estate

namespace Gateway

/-- What the probes have reported, in order. -/
def report (input : Input) : Option HealthResult :=
  match input.event with
  | .probe route upstream success => some ⟨route, upstream, success⟩
  | .session _ _ | .cleanup _ _ | .stopPool => none

end Gateway

namespace Estate

variable {g : Setup} {e e' start : Estate}

/-- What one step asks, and what it reports. -/
theorem asked_step {input : Gateway.Input} (hstep : Step g (e.tick input.now) input.event e') :
    ∃ calls made, Asked g e (Gateway.report input).toList e' calls made
      ∧ calls.filterMap AdmissionUse.Call.occurrence
        = (made.reverse.map fun c => .checked c.route c.now)
          ++ (Gateway.report input).toList.map .reported := by
  have htick : Asked g e [] (e.tick input.now) [] [] := asked_same rfl rfl
  obtain ⟨event, now, o⟩ := input
  cases hstep with
  | session moves =>
      obtain ⟨calls, made, hasked⟩ := moves_keep (fun he hmove => Asked.move he hmove)
        ⟨[], [], htick⟩ moves
      refine ⟨calls, made, hasked, ?_⟩
      rw [AdmissionUse.occurrence_of_quiet hasked.reported, hasked.asked, List.map_map]
      exact (List.append_nil _).symm
  | probe route upstream success =>
      exact ⟨_, _, htick.trans
        (asked_call (.record route upstream success) trivial rfl none rfl rfl), rfl⟩
  | cleanup error fails => exact ⟨_, _, htick.trans (asked_same rfl rfl), rfl⟩
  | stopPool => exact ⟨_, _, htick.trans (asked_same rfl rfl), rfl⟩

end Estate

namespace Gateway

variable {g : Setup} {gw : Gateway}

/-- What one step asks of the admission state and what it reports to it. -/
def occurs (g : Setup) (input : Input) (gw : Gateway) : List AdmissionUse.Occurrence :=
  let checks := (step g input gw).shared.checks
  ((checks.take (checks.length - gw.shared.checks.length)).reverse.map fun c =>
      .checked c.route c.now)
    ++ (report input).toList.map .reported

/-- All that a run asks and reports, in the one order of its steps. -/
def occurrences (g : Setup) : Gateway → List Input → List AdmissionUse.Occurrence
  | _, [] => []
  | gw, input :: rest => occurs g input gw ++ occurrences g (step g input gw) rest

theorem occurrences_concat (inputs : List Input) (input : Input) :
    occurrences g gw (inputs ++ [input])
      = occurrences g gw inputs ++ occurs g input (run (step g) gw inputs) := by
  induction inputs generalizing gw with
  | nil => exact List.append_nil _
  | cons first rest ih =>
      rw [List.cons_append, occurrences, occurrences, ih, List.append_assoc]
      rfl

/-- The calls of a run from any state. -/
theorem Safe.asked (h : Safe g (fun _ => False) gw) (inputs : List Input) :
    ∃ calls made, Estate.Asked g gw.estate (inputs.filterMap report)
        (run (step g) gw inputs).estate calls made
      ∧ calls.filterMap AdmissionUse.Call.occurrence = occurrences g gw inputs := by
  refine (h.run_estate (P := fun inputs e => ∃ calls made,
    Estate.Asked g gw.estate (inputs.filterMap report) e calls made
      ∧ calls.filterMap AdmissionUse.Call.occurrence = occurrences g gw inputs)
    ⟨[], [], Estate.asked_same rfl rfl, rfl⟩ (fun {inputs input} he hstep => ?_) inputs).2
  obtain ⟨calls, made, hasked, hcalls⟩ := he
  obtain ⟨calls', made', hasked', hcalls'⟩ := Estate.asked_step hstep
  have hnew : occurs g input (run (step g) gw inputs)
      = calls'.filterMap AdmissionUse.Call.occurrence := by
    have hchecks : (step g input (run (step g) gw inputs)).shared.checks
        = made' ++ (run (step g) gw inputs).shared.checks := by
      have hlast := hasked'.checks
      rw [← run_append] at hlast
      exact hlast
    unfold occurs
    dsimp only
    rw [hchecks, hcalls', List.length_append, Nat.add_sub_cancel, List.take_left]
  have hreport : [input].filterMap report = (report input).toList := by
    cases hinput : report input <;> simp [hinput]
  refine ⟨calls ++ calls', made' ++ made, ?_, ?_⟩
  · rw [List.filterMap_append, hreport]
    exact hasked.trans hasked'
  · rw [List.filterMap_append, hcalls, occurrences_concat, hnew]

/-- The turns that `calls` take on route `r`, of size `n`, go round its slots. -/
def GoesRound (r n : Nat) (u : AdmissionUse) (calls : List AdmissionUse.Call) : Prop :=
  ∃ position ring, u.admission.nextUpstream[r]? = some position ∧ position < n
    ∧ Turns ((AdmissionUse.turnsOf r u calls).map Prod.fst) (ringFrom n position)
      ((AdmissionUse.turnsOf r u calls).map Prod.snd) ring

/-- From any state that a run has reached, a further run asks the admission state exactly for
what its requests and its reports say, in the one order in which they come, and the turns of
every route go round its slots. -/
theorem admissions_simulated (g : Setup) (rateLimits : RouteRateLimits)
    (before inputs : List Input) :
    ∃ (calls : List AdmissionUse.Call) (made : List RateCheck),
      Estate.Asked g (after g rateLimits before).estate (inputs.filterMap report)
          (after g rateLimits (before ++ inputs)).estate calls made
        ∧ calls.filterMap AdmissionUse.Call.occurrence
          = occurrences g (after g rateLimits before) inputs
        ∧ ∀ r config, g.config.routes[r]? = some config → 0 < config.upstreams.length →
          GoesRound r config.upstreams.length (after g rateLimits before).estate.admissionUse
            calls := by
  have hsafe := after_safe_all g rateLimits before
  obtain ⟨earlier, made₀, hearlier, -⟩ := (launch_safe g _ rateLimits).asked before
  obtain ⟨calls, made, hasked, hcalls⟩ := hsafe.asked inputs
  refine ⟨calls, made, ?_, hcalls, fun r config hroute hsize => ?_⟩
  · unfold after at hasked ⊢
    rw [← run_append]
    exact hasked
  · have hplaced : AdmissionUse.Placed r config.upstreams.length
        (after g rateLimits before).estate.admissionUse := by
      unfold after
      rw [← hearlier.run]
      refine run_invariant (R := fun call => call.FromTable g.config.routes)
        (AdmissionUse.Placed r config.upstreams.length) (fun call u hcall hu => ?_) ?_ earlier
        hearlier.table
      · exact hu.step hroute hsize hcall
      · refine ⟨0, ?_, hsize⟩
        show (List.replicate g.config.routes.length 0)[r]? = some 0
        rw [List.getElem?_replicate]
        exact if_pos (List.getElem?_eq_some_iff.mp hroute).1
    obtain ⟨position, hposition, hlt⟩ := hplaced
    obtain ⟨ring, hturns⟩ := AdmissionUse.turnsOf_turns hroute hsize hasked.table hposition hlt
    exact ⟨position, ring, hposition, hlt, hturns⟩

end Gateway

/-! ## Slots that are up -/

/-- By the results in `history` the slot has not been taken out of the rotation. -/
def Up (routes : List RouteConfig) (history : List HealthResult) (r slot : Nat) : Prop :=
  ∀ entry settings, routes[r]? = some entry → entry.healthCheck = some settings →
    1 ≤ settings.unhealthyThreshold → 1 ≤ settings.healthyThreshold →
    ¬settings.Down (UpstreamHealthState.results r slot history)

/-- The exchange is for the one upstream of the configuration, or for a slot of the route that
its request belongs to which was up. -/
structure Chosen (g : Setup) (history : List HealthResult) (request : HttpRequest)
    (selected : SelectedUpstream) : Prop where
  chosen : ∃ route upstream, selectHttpRoute g.config request = some route
    ∧ Session.authorized g route request = true
    ∧ selected = RouteProxyAdmission.selectedUpstream route upstream
    ∧ ((route.routeIndex = none ∧ g.config.upstream = some upstream)
      ∨ ∃ r slot entry, route.routeIndex = some r ∧ g.config.routes[r]? = some entry
        ∧ entry.upstreams[slot]? = some upstream ∧ Up g.config.routes history r slot)

theorem up_of_available {routes : List RouteConfig} {history : List HealthResult} {r slot : Nat}
    (h : UpstreamHealthState.available
      (UpstreamHealthState.recordAll (UpstreamHealthState.make routes) history) r slot = some true) :
    Up routes history r slot := by
  intro entry settings hroute hcheck hunhealthy hhealthy
  have hlookup := UpstreamHealthState.lookup_recordAll routes r slot history
  rw [hroute, Option.bind_some] at hlookup
  rw [UpstreamHealthState.available_eq, hlookup] at h
  split at h
  · rw [if_pos ‹_›, hcheck] at hlookup
    refine (UpstreamHealthState.follows_of_lookup hunhealthy hhealthy hlookup).available.mp ?_
    rw [UpstreamHealthState.available_eq, hlookup]
    rw [hcheck] at h
    exact h
  · cases h

/-- What an admission grants while the slots are as `history` has left them. -/
theorem Custody.Granted.chosen {g : Setup} {request : HttpRequest} {selected : SelectedUpstream}
    {c : Custody} (h : c.Granted g request selected) {history : List HealthResult}
    (hhealth : c.admission.health
      = UpstreamHealthState.recordAll (UpstreamHealthState.make g.config.routes) history) :
    Chosen g history request selected := by
  obtain ⟨route, r, admission, hselect, hauth, hok, hup, hsame⟩ := h
  obtain ⟨o, ho⟩ := RouteProxyAdmission.tryAcquire_ends admission route c.now
  have hselected : ∃ u positions,
      ((route.routeIndex = none ∧ route.upstreams[0]? = some u ∧ positions = admission.nextUpstream)
        ∨ ∃ r slot, route.routeIndex = some r ∧ route.upstreams[slot]? = some u
          ∧ RouteProxyAdmission.Advances admission route r slot positions)
      ∧ selected = RouteProxyAdmission.selectedUpstream route u := by
    cases o with
    | admitted =>
        obtain ⟨_, u, positions, -, -, hturn, heq⟩ := ho
        rw [heq] at hok
        cases hok
        exact ⟨u, positions, hturn, (Option.some.inj hup).symm⟩
    | rateDenied =>
        obtain ⟨d, _, -, -, heq⟩ := ho
        rw [heq] at hok
        cases hok
        cases hup
    | capacityDenied =>
        obtain ⟨_, -, -, heq⟩ := ho
        rw [heq] at hok
        cases hok
        cases hup
    | noHealthyUpstream =>
        obtain ⟨_, _, -, -, -, -, heq⟩ := ho
        rw [heq] at hok
        cases hok
        cases hup
    | thrown =>
        obtain ⟨e, _, -, heq⟩ := ho
        rw [heq] at hok
        cases hok
  obtain ⟨u, positions, hturn, rfl⟩ := hselected
  refine ⟨route, u, hselect, hauth, rfl, ?_⟩
  rcases selectHttpRoute_source hselect with ⟨upstream, hlegacy, rfl⟩ | ⟨r', entry, hentry, rfl⟩
  · rcases hturn with ⟨hindex, hfirst, -⟩ | ⟨r', slot, hindex, -⟩
    · refine Or.inl ⟨hindex, ?_⟩
      rw [hlegacy]
      exact hfirst
    · cases hindex
  · rcases hturn with ⟨hindex, -⟩ | ⟨r'', slot, hindex, hslot, hadvances⟩
    · cases hindex
    · obtain rfl : r' = r'' := Option.some.inj hindex
      obtain ⟨position, -, -, hfirst⟩ := hadvances.turn
      refine Or.inr ⟨r', slot, entry, rfl, hentry, hslot, up_of_available ?_⟩
      have hfree := hfirst.free
      rw [hsame, hhealth] at hfree
      exact hfree

namespace Estate

variable {g : Setup} {e e' : Estate} {P : Nat → Nat → HttpRequest → SelectedUpstream → Prop}
  {history : List HealthResult}

/-- The slots are as the reports in `history` have left them, and of exchange `k` of session `i`
`P i k` holds. -/
structure Informed (g : Setup) (P : Nat → Nat → HttpRequest → SelectedUpstream → Prop)
    (history : List HealthResult) (e : Estate) : Prop where
  health : e.admission.health
    = UpstreamHealthState.recordAll (UpstreamHealthState.make g.config.routes) history
  chosen : ∀ i k, k < e.nextExchange i → P i k (e.holder i k).request (e.holder i k).selected

theorem Informed.imp {Q : Nat → Nat → HttpRequest → SelectedUpstream → Prop}
    (h : Informed g P history e)
    (hpq : ∀ i k request selected, P i k request selected → Q i k request selected) :
    Informed g Q history e where
  health := h.health
  chosen i k hk := hpq i k _ _ (h.chosen i k hk)

/-- A holder changes, but not what it is for. -/
theorem Informed.update {i k : Nat} {c : Custody} (h : Informed g P history e) {x : Holder}
    (hhealth : c.admission.health = e.admission.health)
    (hholder : c.holder = Function.update (e.holder i) k x)
    (hx : k < c.nextExchange → P i k x.request x.selected)
    (hexchanges : ∀ l, l < c.nextExchange → l = k ∨ l < e.nextExchange i) :
    Informed g P history (e.put i c) where
  health := hhealth.trans h.health
  chosen j l hl := by
    rw [holder_put_update i k x c e hholder]
    by_cases hjl : (j, l) = (i, k)
    · rw [if_pos hjl]
      cases hjl
      rw [put_nextExchange_same] at hl
      exact hx hl
    · rw [if_neg hjl]
      by_cases hji : j = i
      · subst hji
        rw [put_nextExchange_same] at hl
        rcases hexchanges l hl with rfl | hlt
        · exact absurd rfl hjl
        · exact h.chosen j l hlt
      · rw [put_nextExchange_ne hji] at hl
        exact h.chosen j l hl

theorem close_purpose (x : Holder) :
    x.close.request = x.request ∧ x.close.selected = x.selected := by
  unfold Holder.close
  split <;> exact ⟨rfl, rfl⟩

/-- No move takes an exchange away. -/
theorem nextExchange_move {i : Nat} {c : Custody} (hmove : Custody.Move g (e.focus i) c)
    (j : Nat) : e.nextExchange j ≤ (e.put i c).nextExchange j := by
  have hsame : e.nextExchange i ≤ c.nextExchange := by
    cases hmove with
    | make clean request selected granted secured => exact Nat.le_succ _
    | _ => exact Nat.le_refl _
  by_cases hji : j = i
  · subst hji
    rw [put_nextExchange_same]
    exact hsame
  · rw [put_nextExchange_ne hji]

/-- Nothing happens to the holders. -/
theorem Informed.keep {i : Nat} {c : Custody} (h : Informed g P history e)
    (hhealth : c.admission.health = e.admission.health) (hholder : c.holder = e.holder i)
    (hnext : c.nextExchange = e.nextExchange i) : Informed g P history (e.put i c) where
  health := hhealth.trans h.health
  chosen j l hl := by
    by_cases hji : j = i
    · subst hji
      rw [put_nextExchange_same, hnext] at hl
      rw [holder_put, if_pos rfl, hholder]
      exact h.chosen j l hl
    · rw [put_nextExchange_ne hji] at hl
      rw [holder_put, if_neg hji]
      exact h.chosen j l hl

/-- A session makes an exchange by what was reported so far. -/
theorem Informed.move {i : Nat} {c : Custody} (h : Informed g P history e)
    (hmade : ∀ request selected, Chosen g history request selected →
      P i (e.nextExchange i) request selected)
    (hmove : Custody.Move g (e.focus i) c) : Informed g P history (e.put i c) := by
  cases hmove with
  | close k =>
      refine h.update rfl rfl (fun hk => ?_) fun l hl => Or.inr hl
      obtain ⟨hrequest, hselected⟩ := close_purpose (e.holder i k)
      show P i k (e.holder i k).close.request (e.holder i k).close.selected
      rw [hrequest, hselected]
      exact h.chosen i k hk
  | put k clean fails known held =>
      refine h.update (x := { e.holder i k with lease := .pooled }) rfl rfl (fun hk => ?_)
        fun l hl => Or.inr hl
      exact h.chosen i k hk
  | miss clean backend nothing =>
      rw [put_pool]
      exact ⟨h.health, h.chosen⟩
  | make clean request selected granted secured =>
      refine h.update rfl rfl (fun _ => ?_) fun l hl => ?_
      · exact hmade request selected (granted.chosen h.health)
      · have hlt : l < e.nextExchange i + 1 := hl
        have heq : (e.focus i).nextExchange = e.nextExchange i := rfl
        omega
  | check request route found =>
      have hframe := RouteProxyAdmission.tryAcquire_frame e.admission route e.now
      exact h.keep hframe.health rfl rfl
  | release => exact h.keep rfl rfl rfl

/-- A step makes its exchanges by what was reported before it. -/
theorem Informed.after_step {input : Gateway.Input} (h : Informed g P history e)
    (hstep : Step g (e.tick input.now) input.event e')
    (hmade : ∀ j k request selected, e.nextExchange j ≤ k → k < e'.nextExchange j →
      Chosen g history request selected → P j k request selected) :
    Informed g P (history ++ (Gateway.report input).toList) e' := by
  have hlater : Informed g P history (e.tick input.now) := ⟨h.health, h.chosen⟩
  obtain ⟨event, now, o⟩ := input
  cases hstep with
  | @session i _ c moves =>
      -- an exchange is one of before, or was made in this step
      have hkept := moves_keep (P := fun f =>
          Informed g (fun j k request selected => P j k request selected
            ∨ e.nextExchange j ≤ k ∧ Chosen g history request selected) history f
          ∧ ∀ j, e.nextExchange j ≤ f.nextExchange j)
        (fun hf hmove => ⟨hf.1.move (fun _ _ hchosen => Or.inr ⟨hf.2 _, hchosen⟩) hmove,
          fun j => (hf.2 j).trans (nextExchange_move hmove j)⟩)
        ⟨hlater.imp fun _ _ _ _ hold => Or.inl hold, fun _ => Nat.le_refl _⟩ moves
      obtain ⟨hinformed, -⟩ := hkept
      rw [show (Gateway.report ⟨.session i _, now, o⟩).toList = [] from rfl, List.append_nil]
      refine ⟨hinformed.health, fun j k hk => ?_⟩
      rcases hinformed.chosen j k hk with hold | ⟨hnew, hchosen⟩
      · exact hold
      · exact hmade j k _ _ hnew hk hchosen
  | probe route upstream success =>
      refine ⟨?_, hlater.chosen⟩
      show (e.admission.health.record route upstream success).2 = _
      rw [h.health]
      unfold UpstreamHealthState.recordAll
      rw [← run_append]
      rfl
  | cleanup error fails =>
      have hsame : Informed g P history { e.tick now with
          pool := (e.tick now).pool.onCleanup error fails (e.tick now).now } :=
        ⟨hlater.health, hlater.chosen⟩
      simpa [Gateway.report] using hsame
  | stopPool =>
      have hsame : Informed g P history { e.tick now with pool := (e.tick now).pool.stop } :=
        ⟨hlater.health, hlater.chosen⟩
      simpa [Gateway.report] using hsame

end Estate

namespace Gateway

theorem launch_informed (g : Setup) (rateLimits : RouteRateLimits)
    (P : Nat → Nat → HttpRequest → SelectedUpstream → Prop) :
    Estate.Informed g P [] (launch g rateLimits).estate :=
  ⟨rfl, fun _ _ hk => absurd hk (Nat.not_lt_zero _)⟩

/-- Exchange `k` of session `i` is made on the way from `gw` to `gw'`. -/
def Makes (gw gw' : Gateway) (i k : Nat) : Prop :=
  (gw.locals i).nextExchange ≤ k ∧ k < (gw'.locals i).nextExchange

/-- Of the one input that makes exchange `k` of session `i`: by all the reports before it the
exchange is for the one upstream of the configuration or for a slot that is up. -/
def MadeByReports (g : Setup) (rateLimits : RouteRateLimits) (inputs : List Input) (i k : Nat)
    (request : HttpRequest) (selected : SelectedUpstream) : Prop :=
  ∃ before input rest, inputs = before ++ input :: rest
    ∧ Makes (after g rateLimits before) (after g rateLimits (before ++ [input])) i k
    ∧ Chosen g (before.filterMap report) request selected

/-- Every exchange of every run was made for the one upstream of the configuration, or for a
slot of its request's route that was up by all the reports before the step that made it. -/
theorem requests_follow_health (g : Setup) (rateLimits : RouteRateLimits) (inputs : List Input)
    {i k : Nat} (hk : k < ((after g rateLimits inputs).locals i).nextExchange) :
    MadeByReports g rateLimits inputs i k
      (((after g rateLimits inputs).locals i).exs k).downstreamRequest
      (((after g rateLimits inputs).locals i).exs k).selected := by
  have hinformed : Estate.Informed g (MadeByReports g rateLimits inputs) (inputs.filterMap report)
      (after g rateLimits inputs).estate := by
    refine after_estate (P := fun inputs =>
      Estate.Informed g (MadeByReports g rateLimits inputs) (inputs.filterMap report))
      (launch_informed g rateLimits _) (fun {inputs input} h hstep => ?_) inputs
    have hlater := h.imp (Q := MadeByReports g rateLimits (inputs ++ [input])) (by
      rintro i k request selected ⟨before, first, rest, rfl, hmakes, hchosen⟩
      exact ⟨before, first, rest ++ [input], by simp, hmakes, hchosen⟩)
    rw [List.filterMap_append, show [input].filterMap report = (report input).toList from by
      cases hreport : report input <;> simp [hreport]]
    exact hlater.after_step hstep fun j k request selected hnew hk hchosen =>
      ⟨inputs, input, [], rfl, ⟨hnew, hk⟩, hchosen⟩
  exact hinformed.chosen i k hk

/-- Two slots, of which one failure is enough. -/
def twoSlots : Setup :=
  { config :=
      { routes :=
          [{ routePrefix := "/a".toList
             upstreams := [{ host := "a".toList, port := 1 }, { host := "a".toList, port := 2 }]
             healthCheck := some { path := "/health".toList, unhealthyThreshold := 1 } }] }
    lib := { intToStatus := id, sha256 := id }
    render := fun _ => [] }

/-- The first slot fails its probe, and a request comes. -/
def firstDown : List Input := { event := .probe 0 0 false } :: visit 0 "/a" 0

theorem requests_follow_health_first_down :
    (((after twoSlots [none] firstDown).locals 0).exs 0).selected.upstream.port = 2
      ∧ MadeByReports twoSlots [none] firstDown 0 0
          (((after twoSlots [none] firstDown).locals 0).exs 0).downstreamRequest
          (((after twoSlots [none] firstDown).locals 0).exs 0).selected :=
  ⟨by decide +kernel, requests_follow_health twoSlots [none] firstDown (by decide +kernel)⟩

end Gateway

end ApiGate
