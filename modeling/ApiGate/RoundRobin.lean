import ApiGate.EventLoop.Rotation
import ApiGate.AdmissionOutcomes

/-!
# Turns of the slots of a route

The slots of a route stand in a ring that begins at its stored position, and an
admission is a turn in this ring (`Advances.turns`). Calls for other routes,
results of probes and refusals leave the position alone, so the admissions of a
route, picked out of any run, are turns one after the other (`turnsOf_turns`);
what the ring promises holds for them.
-/

namespace ApiGate

open EventLoop

namespace AdmissionUse

variable {routes : List RouteConfig} {r : Nat} {config : RouteConfig} {u : AdmissionUse}

/-- The route of a call is one of the table, or the upstream that needs no table. -/
def FromTable (routes : List RouteConfig) (route : SelectedRoute) : Prop :=
  route.routeIndex = none ∨ ∃ r config, routes[r]? = some config ∧ route.routeIndex = some r
    ∧ route.upstreams = config.upstreams

def Call.FromTable (routes : List RouteConfig) : Call → Prop
  | .acquire route _ => AdmissionUse.FromTable routes route
  | _ => True

theorem FromTable.upstreams {route : SelectedRoute} (h : FromTable routes route)
    (hroute : routes[r]? = some config) (hindex : route.routeIndex = some r) :
    route.upstreams = config.upstreams := by
  rcases h with hnone | ⟨r', config', hconfig, hr', hupstreams⟩
  · rw [hindex] at hnone
    cases hnone
  · obtain rfl : r = r' := Option.some.inj (hindex.symm.trans hr')
    rw [hroute] at hconfig
    cases hconfig
    exact hupstreams

/-! ## The position -/

/-- The stored position of a route is one of its slots. -/
def Placed (r size : Nat) (u : AdmissionUse) : Prop :=
  ∃ position, u.admission.nextUpstream[r]? = some position ∧ position < size

/-- A call either admits on the route, and the position moves behind the slot that got
the turn, or it leaves the position alone. -/
theorem acquire_position (route : SelectedRoute) (now : TimePoint) (u : AdmissionUse) (r : Nat) :
    (route.routeIndex = some r ∧ granted (u.admission.tryAcquire route now).1 = true
        ∧ ∃ slot, RouteProxyAdmission.Advances u.admission route r slot
          (step (.acquire route now) u).admission.nextUpstream)
      ∨ ((route.routeIndex = some r → granted (u.admission.tryAcquire route now).1 = false)
        ∧ (step (.acquire route now) u).admission.nextUpstream[r]?
          = u.admission.nextUpstream[r]?) := by
  have hstep : (step (.acquire route now) u).admission = (u.admission.tryAcquire route now).2 := rfl
  rw [hstep]
  obtain ⟨o, ho⟩ := RouteProxyAdmission.tryAcquire_ends u.admission route now
  cases o with
  | rateDenied =>
      obtain ⟨d, limits', -, -, heq⟩ := ho
      rw [heq]
      exact Or.inr ⟨fun _ => rfl, rfl⟩
  | capacityDenied =>
      obtain ⟨limits', -, -, heq⟩ := ho
      rw [heq]
      exact Or.inr ⟨fun _ => rfl, rfl⟩
  | noHealthyUpstream =>
      obtain ⟨limits', r', -, -, -, -, heq⟩ := ho
      rw [heq]
      exact Or.inr ⟨fun _ => rfl, rfl⟩
  | thrown =>
      obtain ⟨e, limits', -, heq⟩ := ho
      rw [heq]
      exact Or.inr ⟨fun _ => rfl, rfl⟩
  | admitted =>
      obtain ⟨limits', v, positions, -, -, hturn, heq⟩ := ho
      rw [heq]
      rcases hturn with ⟨hnone, -, rfl⟩ | ⟨r', slot, hr', -, hadvances⟩
      · refine Or.inr ⟨fun hr => ?_, rfl⟩
        rw [hnone] at hr
        cases hr
      · by_cases hrr : r' = r
        · subst hrr
          exact Or.inl ⟨hr', rfl, slot, hadvances⟩
        · refine Or.inr ⟨fun hr => absurd (Option.some.inj (hr'.symm.trans hr)) hrr, ?_⟩
          show positions[r]? = _
          rw [hadvances.positions]
          exact List.getElem?_set_ne hrr

theorem advances_position {a : RouteProxyAdmission} {route : SelectedRoute} {slot : Nat}
    {positions : List Nat} (h : RouteProxyAdmission.Advances a route r slot positions) :
    positions[r]? = some ((slot + 1) % route.upstreams.length) := by
  obtain ⟨position, hposition, -⟩ := h.turn
  rw [h.positions]
  exact List.getElem?_set_self (List.getElem?_eq_some_iff.mp hposition).1

/-- Calls that do not acquire do not move any position. -/
theorem step_position (call : Call) (hcall : ∀ route now, call ≠ .acquire route now)
    (u : AdmissionUse) : (step call u).admission.nextUpstream = u.admission.nextUpstream := by
  cases call with
  | acquire route now => exact absurd rfl (hcall route now)
  | drop =>
      show u.dropResult.admission.nextUpstream = _
      unfold dropResult
      split <;> rfl
  | record => rfl

theorem Placed.step (hroute : routes[r]? = some config) (hsize : 0 < config.upstreams.length)
    {call : Call} (hcall : call.FromTable routes) (h : Placed r config.upstreams.length u) :
    Placed r config.upstreams.length (step call u) := by
  cases call with
  | acquire route now =>
      rcases acquire_position route now u r with ⟨hindex, -, slot, hadvances⟩ | ⟨-, hsame⟩
      · have hupstreams := FromTable.upstreams hcall hroute hindex
        have hposition := advances_position hadvances
        rw [hupstreams] at hposition
        exact ⟨_, hposition, Nat.mod_lt _ hsize⟩
      · obtain ⟨position, hposition, hlt⟩ := h
        exact ⟨position, hsame.trans hposition, hlt⟩
  | drop | record =>
      obtain ⟨position, hposition, hlt⟩ := h
      refine ⟨position, ?_, hlt⟩
      rw [step_position _ (by simp) u]
      exact hposition

/-! ## The turns of a run -/

/-- Who may be chosen on route `r`. -/
def ready (r : Nat) (u : AdmissionUse) (slot : Nat) : Bool :=
  u.admission.health.available r slot = some true

/-- The `index` of `try_acquire` when the search is over. -/
def chosenSlot (a : RouteProxyAdmission) (route : SelectedRoute) (r : Nat) : Option Nat :=
  match a.nextUpstream[r]? with
  | none => none
  | some position =>
      match RouteProxyAdmission.firstAvailable (a.health.available r) route.upstreams.length
          route.upstreams.length position with
      | .ok slot => slot
      | .error _ => none

/-- An admission on route `r`, as a turn: who was ready, and who was chosen. -/
def turnOf (r : Nat) (u : AdmissionUse) : Call → Option ((Nat → Bool) × Nat)
  | .acquire route now =>
      if route.routeIndex = some r && granted (u.admission.tryAcquire route now).1 then
        (chosenSlot u.admission route r).map fun slot => (ready r u, slot)
      else none
  | _ => none

/-- The admissions on route `r` in a run from `u`. -/
def turnsOf (r : Nat) : AdmissionUse → List Call → List ((Nat → Bool) × Nat)
  | _, [] => []
  | u, call :: rest => (turnOf r u call).toList ++ turnsOf r (step call u) rest

/-- The search stops at the first available slot. -/
theorem firstAvailable_of_first {available : Nat → Option Bool} {size index j left : Nat}
    (h : index < size) (hj : j < left) (htrue : available ((index + j) % size) = some true)
    (hbefore : ∀ k, k < j → available ((index + k) % size) = some false) :
    RouteProxyAdmission.firstAvailable available size left index
      = .ok (some ((index + j) % size)) := by
  induction left generalizing index j with
  | zero => exact absurd hj (Nat.not_lt_zero j)
  | succ left ih =>
      have hzero : (index + 0) % size = index := Nat.mod_eq_of_lt h
      unfold RouteProxyAdmission.firstAvailable
      cases j with
      | zero =>
          rw [hzero] at htrue ⊢
          simp only [htrue]
      | succ j =>
          have hskip := hbefore 0 (Nat.succ_pos j)
          rw [hzero] at hskip
          have hnext : ∀ k, ((index + 1) % size + k) % size = (index + (k + 1)) % size := by
            intro k
            rw [Nat.mod_add_mod]
            congr 1
            omega
          simp only [hskip]
          rw [RouteProxyAdmission.succ_mod h, ← hnext j]
          refine ih (Nat.mod_lt _ (by omega)) (by omega) ?_ fun k hk => ?_
          · rw [hnext]
            exact htrue
          · rw [hnext]
            exact hbefore (k + 1) (by omega)

theorem chosenSlot_of_advances {a : RouteProxyAdmission} {route : SelectedRoute} {slot : Nat}
    {positions : List Nat} (h : RouteProxyAdmission.Advances a route r slot positions) :
    chosenSlot a route r = some slot := by
  obtain ⟨position, hposition, hlt, hfirst⟩ := h.turn
  obtain ⟨j, hj, rfl, hbefore⟩ := hfirst.first
  unfold chosenSlot
  rw [hposition]
  dsimp only
  rw [firstAvailable_of_first hlt hj hfirst.free hbefore]

/-- The admissions of a route are turns of its ring, one after the other. -/
theorem turnsOf_turns (hroute : routes[r]? = some config) (hsize : 0 < config.upstreams.length)
    {calls : List Call} (hcalls : ∀ call ∈ calls, call.FromTable routes) {position : Nat}
    (hposition : u.admission.nextUpstream[r]? = some position)
    (hlt : position < config.upstreams.length) :
    ∃ ring, Turns ((turnsOf r u calls).map Prod.fst)
      (ringFrom config.upstreams.length position) ((turnsOf r u calls).map Prod.snd) ring := by
  induction calls generalizing u position with
  | nil => exact ⟨_, Turns.nil _⟩
  | cons call rest ih =>
      have hrest : ∀ call ∈ rest, call.FromTable routes :=
        fun c hc => hcalls c (List.mem_cons_of_mem _ hc)
      -- a call that is no turn leaves the ring as it is
      have hquiet : turnOf r u call = none →
          (step call u).admission.nextUpstream[r]? = u.admission.nextUpstream[r]? →
          ∃ ring, Turns ((turnsOf r u (call :: rest)).map Prod.fst)
            (ringFrom config.upstreams.length position)
            ((turnsOf r u (call :: rest)).map Prod.snd) ring := by
        intro hturn hsame
        rw [turnsOf, hturn]
        exact ih hrest (hsame.trans hposition) hlt
      cases call with
      | drop => exact hquiet rfl (by rw [step_position _ (by simp) u])
      | record => exact hquiet rfl rfl
      | acquire route now =>
          rcases acquire_position route now u r with
            ⟨hindex, hgranted, slot, hadvances⟩ | ⟨hnot, hsame⟩
          · have hturn : turnOf r u (.acquire route now) = some (ready r u, slot) := by
              unfold turnOf
              simp [hindex, hgranted, chosenSlot_of_advances hadvances]
            have hupstreams := FromTable.upstreams (hcalls _ (List.mem_cons_self ..)) hroute hindex
            have hafter := advances_position hadvances
            obtain ⟨position', hposition', -, hfirst⟩ := hadvances.turn
            obtain rfl : position = position' :=
              Option.some.inj (hposition.symm.trans hposition')
            rw [hupstreams] at hafter hfirst
            obtain ⟨ring, hring⟩ := ih hrest hafter (Nat.mod_lt _ hsize)
            obtain ⟨j, hj, rfl, hbefore⟩ := hfirst.first
            refine ⟨ring, ?_⟩
            rw [turnsOf, hturn]
            refine Turns.ringFrom_cons hj (fun k hk => ?_) ?_ hring
            · simp [ready, hbefore k hk]
            · simp [ready, hfirst.free]
          · refine hquiet ?_ hsame
            refine if_neg ?_
            simp only [Bool.and_eq_true, decide_eq_true_eq, not_and, Bool.not_eq_true]
            exact hnot

/-! ## Fairness -/

variable {maxProxies : Nat} {start : TimePoint} {a₀ : RouteProxyAdmission}

theorem make_placed (hmake : RouteProxyAdmission.make routes maxProxies start = .ok a₀)
    (hroute : routes[r]? = some config) (hsize : 0 < config.upstreams.length) :
    Placed r config.upstreams.length { admission := a₀ } := by
  refine ⟨0, ?_, hsize⟩
  show a₀.nextUpstream[r]? = some 0
  rw [(make_admission hmake).2.1, List.getElem?_replicate]
  exact if_pos (List.getElem?_eq_some_iff.mp hroute).1

/-- Every member of a ring stands there once. -/
theorem count_ring (n position : Nat) (ready : Nat → Bool) {s : Nat} (hs : s < n) :
    ((ringFrom n position).filter ready).count s = if ready s then 1 else 0 := by
  have hone : (ringFrom n position).count s = 1 := by
    rw [(ringFrom_perm n position).count_eq]
    exact List.count_eq_one_of_mem List.nodup_range (List.mem_range.mpr hs)
  split
  · rename_i hready
    rw [List.count_filter hready, hone]
  · rename_i hready
    rw [List.count_eq_zero]
    intro hmem
    exact hready (List.mem_filter.mp hmem).2

/-- An admission goes to the first available slot from the position on, and the position
moves to the one behind it. -/
structure TakesTurn (r n : Nat) (u : AdmissionUse) (route : SelectedRoute) (now : TimePoint)
    (position slot : Nat) : Prop where
  stored : u.admission.nextUpstream[r]? = some position
  first : RouteProxyAdmission.FirstFrom (u.admission.health.available r) n position slot
  chosen : chosenSlot u.admission route r = some slot
  answer : ∃ upstream, route.upstreams[slot]? = some upstream
    ∧ (u.admission.tryAcquire route now).1 = .ok
      { permit := true
        upstream := some (RouteProxyAdmission.selectedUpstream route upstream) }
  next : (u.admission.tryAcquire route now).2.nextUpstream[r]? = some ((slot + 1) % n)

theorem takesTurn_of_granted {route : SelectedRoute} {now : TimePoint}
    (hindex : route.routeIndex = some r)
    (hgranted : granted (u.admission.tryAcquire route now).1 = true) :
    ∃ position slot, TakesTurn r route.upstreams.length u route now position slot := by
  obtain ⟨o, ho⟩ := RouteProxyAdmission.tryAcquire_ends u.admission route now
  cases o with
  | admitted =>
      obtain ⟨limits', upstream, positions, -, -, ⟨hnone, -⟩ | ⟨r', slot, hr', hup, hadvances⟩,
        heq⟩ := ho
      · rw [hindex] at hnone
        cases hnone
      · obtain rfl : r = r' := Option.some.inj (hindex.symm.trans hr')
        obtain ⟨position, hposition, -, hfirst⟩ := hadvances.turn
        refine ⟨position, slot, hposition, hfirst, chosenSlot_of_advances hadvances,
          ⟨upstream, hup, by rw [heq]⟩, ?_⟩
        rw [heq]
        exact advances_position hadvances
  | rateDenied =>
      obtain ⟨d, limits', -, -, heq⟩ := ho
      rw [heq] at hgranted
      cases hgranted
  | capacityDenied =>
      obtain ⟨limits', -, -, heq⟩ := ho
      rw [heq] at hgranted
      cases hgranted
  | noHealthyUpstream =>
      obtain ⟨limits', r', -, -, -, -, heq⟩ := ho
      rw [heq] at hgranted
      cases hgranted
  | thrown =>
      obtain ⟨e, limits', -, heq⟩ := ho
      rw [heq] at hgranted
      cases hgranted

/-- What the slots of route `r`, of size `n`, may count on in a run of `calls` from `u`. -/
structure Fair (r n : Nat) (u : AdmissionUse) (calls : List Call) : Prop where
  /-- the position is one of the slots -/
  placed : Placed r n u
  /-- the next admission -/
  next : ∀ route now, route.routeIndex = some r → route.upstreams.length = n →
    granted (u.admission.tryAcquire route now).1 = true →
    ∃ position slot, TakesTurn r n u route now position slot
  /-- in `n` admissions a slot that is available in all of them has a turn -/
  turn : ∀ s, s < n → n ≤ (turnsOf r u calls).length →
    (∀ turn ∈ turnsOf r u calls, turn.1 s = true) → s ∈ (turnsOf r u calls).map Prod.snd
  /-- while the same slots are available, as many admissions as there are of them go to
  each once -/
  once : ∀ ready : Nat → Bool,
    (∀ turn ∈ turnsOf r u calls, ∀ s, s < n → turn.1 s = ready s) →
    (turnsOf r u calls).length = ((List.range n).filter ready).length →
    ∀ s, s < n → ((turnsOf r u calls).map Prod.snd).count s = if ready s then 1 else 0

/-- In every run, and from every state of it on. -/
theorem round_robin_fair (hmake : RouteProxyAdmission.make routes maxProxies start = .ok a₀)
    (hroute : routes[r]? = some config) (hsize : 0 < config.upstreams.length)
    (before calls : List Call) (hbefore : ∀ call ∈ before, call.FromTable routes)
    (hcalls : ∀ call ∈ calls, call.FromTable routes) :
    Fair r config.upstreams.length (run step { admission := a₀ } before) calls := by
  have hplaced : Placed r config.upstreams.length (run step { admission := a₀ } before) := by
    refine run_invariant (R := fun call => call.FromTable routes) (Placed r config.upstreams.length)
      ?_ (make_placed hmake hroute hsize) before hbefore
    intro call u hcall h
    exact h.step hroute hsize hcall
  obtain ⟨position, hposition, hlt⟩ := hplaced
  obtain ⟨ring, hturns⟩ := turnsOf_turns hroute hsize hcalls hposition hlt
  refine ⟨⟨position, hposition, hlt⟩, ?_, ?_, ?_⟩
  · intro route now hindex hn hgranted
    rw [← hn]
    exact takesTurn_of_granted hindex hgranted
  · intro s hs hlen hready
    refine hturns.mem_picks (mem_ringFrom.mpr hs) ?_ ?_
    · intro ready hmem
      obtain ⟨turn, hturn, rfl⟩ := List.mem_map.mp hmem
      exact hready turn hturn
    · rw [length_ringFrom, List.length_map]
      exact hlen
  · intro ready hsame hlen s hs
    have hfilter : ((ringFrom config.upstreams.length position).filter ready).length
        = ((List.range config.upstreams.length).filter ready).length :=
      ((ringFrom_perm _ position).filter ready).length_eq
    have hagree : ∀ ready' ∈ (turnsOf r (run step { admission := a₀ } before) calls).map Prod.fst,
        ∀ a ∈ ringFrom config.upstreams.length position, ready' a = ready a := by
      intro ready' hmem a ha
      obtain ⟨turn, hturn, rfl⟩ := List.mem_map.mp hmem
      exact hsame turn hturn a (mem_ringFrom.mp ha)
    rw [hturns.picks_constant hagree (by rw [List.length_map, hlen, hfilter])]
    exact count_ring _ position ready hs

/-- One slot of three goes down and comes back between the admissions. -/
def threeSlots : RouteConfig where
  routePrefix := "/a".toList
  upstreams := [⟨"a".toList, 1, 3000, .http⟩, ⟨"a".toList, 2, 3000, .http⟩,
    ⟨"a".toList, 3, 3000, .http⟩]
  healthCheck := some { path := "/health".toList, unhealthyThreshold := 1, healthyThreshold := 1 }

def threeSelected : SelectedRoute where
  upstreams := threeSlots.upstreams
  routePrefix := threeSlots.routePrefix
  routeIndex := some 0

def threeStart : RouteProxyAdmission where
  rateLimits := [none]
  proxies := { maxProxies := 8 }
  nextUpstream := [0]
  health := UpstreamHealthState.make [threeSlots]

def threeCalls : List Call :=
  [.record 0 1 false, .acquire threeSelected 0, .record 0 1 true, .acquire threeSelected 1,
   .record 0 0 false, .acquire threeSelected 2]

theorem round_robin_fair_three :
    (turnsOf 0 { admission := threeStart } threeCalls).map Prod.snd = [0, 1, 2]
      ∧ Fair 0 3 { admission := threeStart } threeCalls := by
  have hmake : RouteProxyAdmission.make [threeSlots] 8 0 = .ok threeStart := by decide +kernel
  have hcalls : ∀ call ∈ threeCalls, call.FromTable [threeSlots] := by
    intro call hmem
    simp only [threeCalls, List.mem_cons, List.not_mem_nil, or_false] at hmem
    rcases hmem with rfl | rfl | rfl | rfl | rfl | rfl
    all_goals first | trivial | exact Or.inr ⟨0, threeSlots, rfl, rfl, rfl⟩
  refine ⟨by decide +kernel, ?_⟩
  exact round_robin_fair hmake (r := 0) rfl (by decide) [] threeCalls (by simp) hcalls

end AdmissionUse

end ApiGate
