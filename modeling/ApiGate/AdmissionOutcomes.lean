import ApiGate.EventLoop.Run
import ApiGate.Admission

/-!
# The outcomes of an admission

`try_acquire` takes a token, a permit and a turn, in this order, and may stop
or throw between them. `Ends` says for each way it can end what has become of
the three; a call ends in exactly one of them (`ends_unique`). `AdmissionUse` is
the admission with the results that are still held, under calls in any order.
-/

namespace ApiGate

open EventLoop

namespace RouteProxyAdmission

variable {a a' : RouteProxyAdmission} {route : SelectedRoute} {now : TimePoint}

/-! ## The search -/

theorem succ_mod {size index : Nat} (h : index < size) :
    (if index + 1 = size then 0 else index + 1) = (index + 1) % size := by
  split
  · rename_i heq
    rw [heq, Nat.mod_self]
  · rw [Nat.mod_eq_of_lt (by omega)]

/-- The slots are visited in cyclic order, up to the first that is available. -/
theorem firstAvailable_spec (available : Nat → Option Bool) {size : Nat} (left : Nat)
    {index : Nat} (h : index < size) :
    match firstAvailable available size left index with
    | .ok none => ∀ j, j < left → available ((index + j) % size) = some false
    | .ok (some slot) => ∃ j, j < left ∧ slot = (index + j) % size
        ∧ available slot = some true
        ∧ ∀ k, k < j → available ((index + k) % size) = some false
    | .error _ => ∃ j, j < left ∧ available ((index + j) % size) = none := by
  induction left generalizing index with
  | zero => exact fun j hj => absurd hj (Nat.not_lt_zero j)
  | succ left ih =>
      have hzero : (index + 0) % size = index := Nat.mod_eq_of_lt h
      unfold firstAvailable
      cases hcur : available index with
      | none => exact ⟨0, Nat.succ_pos left, by rw [hzero]; exact hcur⟩
      | some free =>
          cases free with
          | true =>
              exact ⟨0, Nat.succ_pos left, hzero.symm, hcur,
                fun k hk => absurd hk (Nat.not_lt_zero k)⟩
          | false =>
              dsimp only
              rw [succ_mod h]
              have hnext : ∀ j, ((index + 1) % size + j) % size = (index + (j + 1)) % size := by
                intro j
                rw [Nat.mod_add_mod]
                congr 1
                omega
              -- the slot at `index` was passed over, the others are the rest of the search
              have hpassed : ∀ (m : Nat), (∀ k, k < m →
                  available (((index + 1) % size + k) % size) = some false) →
                  ∀ k, k < m + 1 → available ((index + k) % size) = some false := by
                intro m hm k hk
                cases k with
                | zero => rw [hzero]; exact hcur
                | succ k => rw [← hnext]; exact hm k (by omega)
              have hrest := ih (Nat.mod_lt (index + 1) (by omega))
              split <;> rename_i hresult <;> rw [hresult] at hrest
              · exact hpassed left hrest
              · obtain ⟨j, hj, hslot, htrue, hbefore⟩ := hrest
                exact ⟨j + 1, by omega, by rw [hslot, hnext], htrue, hpassed j hbefore⟩
              · obtain ⟨j, hj, hnone⟩ := hrest
                exact ⟨j + 1, by omega, by rw [← hnext]; exact hnone⟩

/-- The first available slot in cyclic order from `position`. -/
structure FirstFrom (available : Nat → Option Bool) (size position slot : Nat) : Prop where
  free : available slot = some true
  first : ∃ j, j < size ∧ slot = (position + j) % size
    ∧ ∀ k, k < j → available ((position + k) % size) = some false

theorem FirstFrom.lt {available : Nat → Option Bool} {size position slot : Nat}
    (h : FirstFrom available size position slot) : slot < size := by
  obtain ⟨j, hj, rfl, -⟩ := h.first
  exact Nat.mod_lt _ (by omega)

/-- Every slot was visited. -/
theorem all_of_cyclic {p : Nat → Prop} {size index : Nat} (h : index < size)
    (hall : ∀ j, j < size → p ((index + j) % size)) : ∀ s, s < size → p s := by
  intro s hs
  by_cases hle : index ≤ s
  · have hp := hall (s - index) (by omega)
    rwa [Nat.add_sub_cancel' hle, Nat.mod_eq_of_lt hs] at hp
  · have hp := hall (size + s - index) (by omega)
    rwa [show index + (size + s - index) = s + size by omega, Nat.add_mod_right,
      Nat.mod_eq_of_lt hs] at hp

/-! ## The choice of a slot -/

/-- The turn of route `r` goes to `slot`, and the position moves behind it. -/
structure Advances (a : RouteProxyAdmission) (route : SelectedRoute) (r slot : Nat)
    (positions : List Nat) : Prop where
  turn : ∃ position, a.nextUpstream[r]? = some position ∧ position < route.upstreams.length
    ∧ FirstFrom (a.health.available r) route.upstreams.length position slot
  positions : positions = a.nextUpstream.set r ((slot + 1) % route.upstreams.length)

/-- What `choose` can do. -/
theorem choose_cases (a : RouteProxyAdmission) (route : SelectedRoute) :
    (∃ e, a.choose route = .error e)
    ∨ (∃ r, route.routeIndex = some r ∧ a.choose route = .ok (none, a.nextUpstream)
        ∧ ∀ s, s < route.upstreams.length → a.health.available r s = some false)
    ∨ (∃ u, route.routeIndex = none ∧ route.upstreams[0]? = some u
        ∧ a.choose route = .ok (some (selectedUpstream route u), a.nextUpstream))
    ∨ (∃ r slot u positions, route.routeIndex = some r ∧ route.upstreams[slot]? = some u
        ∧ Advances a route r slot positions
        ∧ a.choose route = .ok (some (selectedUpstream route u), positions)) := by
  unfold choose
  split
  · exact Or.inl ⟨(), rfl⟩
  · rename_i hsize
    have hpos : 0 < route.upstreams.length := by
      simp only [Bool.or_eq_true, not_or, List.isEmpty_iff] at hsize
      exact List.length_pos_iff.mpr hsize.1
    cases hindex : route.routeIndex with
    | none =>
        refine Or.inr (Or.inr (Or.inl ⟨route.upstreams.get ⟨0, hpos⟩, rfl, ?_, ?_⟩))
        · exact List.getElem?_eq_getElem hpos
        · simp [List.getElem?_eq_getElem hpos]
    | some r =>
        cases hnext : a.nextUpstream[r]? with
        | none => exact Or.inl ⟨(), by simp [hnext, bind, Except.bind]⟩
        | some position =>
            by_cases hbad : position ≥ route.upstreams.length
            · exact Or.inl ⟨(), by simp [hnext, bind, Except.bind, hbad]⟩
            · have hlt : position < route.upstreams.length := Nat.not_le.mp hbad
              have hspec := firstAvailable_spec (a.health.available r) route.upstreams.length hlt
              cases hfirst : firstAvailable (a.health.available r) route.upstreams.length
                  route.upstreams.length position with
              | error e => exact Or.inl ⟨e, by simp [hnext, bind, Except.bind, hbad, hfirst]⟩
              | ok found =>
                  rw [hfirst] at hspec
                  cases found with
                  | none =>
                      refine Or.inr (Or.inl ⟨r, rfl, ?_, all_of_cyclic hlt hspec⟩)
                      simp [hnext, bind, Except.bind, hbad, hfirst]
                  | some slot =>
                      obtain ⟨j, hj, hslot, htrue, hbefore⟩ := hspec
                      have hslotlt : slot < route.upstreams.length :=
                        hslot ▸ Nat.mod_lt _ hpos
                      have hsucc : (if slot = route.upstreams.length - 1 then 0 else slot + 1)
                          = (slot + 1) % route.upstreams.length := by
                        rw [← succ_mod hslotlt]
                        split <;> split <;> omega
                      refine Or.inr (Or.inr (Or.inr ⟨r, slot, route.upstreams.get ⟨slot, hslotlt⟩,
                        _, rfl, List.getElem?_eq_getElem hslotlt, ⟨⟨position, hnext, hlt, htrue, j,
                          hj, hslot, hbefore⟩, rfl⟩, ?_⟩))
                      simp [hnext, bind, Except.bind, hbad, hfirst, hsucc,
                        List.getElem?_eq_getElem hslotlt]

/-! ## The token -/

/-- A request passes the limit of its route: one token goes if there is a limit. -/
def Spends (limits : RouteRateLimits) (index : Option Nat) (now : TimePoint)
    (limits' : RouteRateLimits) : Prop :=
  (limits' = limits ∧ ∀ r, index = some r → limits[r]? = some none)
    ∨ ∃ r b, index = some r ∧ limits[r]? = some (some b) ∧ unitsPerToken ≤ (b.refill now).units
      ∧ limits' = List.set limits r
        (some { b.refill now with units := (b.refill now).units - unitsPerToken })

/-- It does not: there is less than a token. -/
def Lacks (limits : RouteRateLimits) (index : Option Nat) (now : TimePoint)
    (limits' : RouteRateLimits) : Prop :=
  ∃ r b, index = some r ∧ limits[r]? = some (some b) ∧ (b.refill now).units < unitsPerToken
    ∧ limits' = List.set limits r (some (b.refill now))

theorem check_cases (limits : RouteRateLimits) (index : Option Nat) (now : TimePoint) :
    (∃ e, limits.check index now = (.error e, limits))
    ∨ (∃ d limits', limits.check index now = (.ok d, limits') ∧ d.allowed = false
        ∧ Lacks limits index now limits')
    ∨ (∃ limits', limits.check index now = (.ok {}, limits') ∧ Spends limits index now limits') := by
  cases index with
  | none => exact Or.inr (Or.inr ⟨limits, rfl, Or.inl ⟨rfl, fun r hr => by cases hr⟩⟩)
  | some r =>
      have hcheck : limits.check (some r) now = limits.tryAcquire r now := rfl
      rw [hcheck]
      unfold RouteRateLimits.tryAcquire
      split
      · exact Or.inl ⟨(), rfl⟩
      · rename_i hr
        refine Or.inr (Or.inr ⟨limits, rfl, Or.inl ⟨rfl, fun j hj => ?_⟩⟩)
        cases hj
        exact hr
      · rename_i b hr
        by_cases hunits : (b.refill now).units ≥ unitsPerToken
        · have hbucket : b.tryAcquire now
              = ({}, { b.refill now with units := (b.refill now).units - unitsPerToken }) := by
            unfold TokenBucket.tryAcquire
            simp only [if_pos hunits]
          rw [hbucket]
          exact Or.inr (Or.inr ⟨_, rfl, Or.inr ⟨r, b, rfl, hr, hunits, rfl⟩⟩)
        · have hbucket : ∃ retry, b.tryAcquire now = (⟨false, retry⟩, b.refill now) := by
            unfold TokenBucket.tryAcquire
            simp only [if_neg hunits]
            exact ⟨_, rfl⟩
          obtain ⟨retry, hbucket⟩ := hbucket
          rw [hbucket]
          exact Or.inr (Or.inl ⟨_, _, rfl, rfl, r, b, rfl, hr, UInt64.not_le.mp hunits, rfl⟩)

/-! ## The outcomes -/

inductive Outcome where
  | rateDenied
  | capacityDenied
  | noHealthyUpstream
  | admitted
  | thrown
  deriving DecidableEq, Repr

/-- There is room for one more exchange. -/
def Room (a : RouteProxyAdmission) : Prop := a.proxies.activeProxies < a.proxies.maxProxies

/-- How a call ends: its answer, and all that it has changed. -/
def Ends (a : RouteProxyAdmission) (route : SelectedRoute) (now : TimePoint) : Outcome → Prop
  | .rateDenied => ∃ d limits', d.allowed = false
      ∧ Lacks a.rateLimits route.routeIndex now limits'
      ∧ a.tryAcquire route now = (.ok { rateLimit := d }, { a with rateLimits := limits' })
  | .capacityDenied => ∃ limits', Spends a.rateLimits route.routeIndex now limits' ∧ ¬a.Room
      ∧ a.tryAcquire route now = (.ok {}, { a with rateLimits := limits' })
  | .noHealthyUpstream => ∃ limits' r, Spends a.rateLimits route.routeIndex now limits' ∧ a.Room
      ∧ route.routeIndex = some r
      ∧ (∀ s, s < route.upstreams.length → a.health.available r s = some false)
      ∧ a.tryAcquire route now
        = (.ok { noHealthyUpstream := true }, { a with rateLimits := limits' })
  | .admitted => ∃ limits' u positions, Spends a.rateLimits route.routeIndex now limits' ∧ a.Room
      ∧ ((route.routeIndex = none ∧ route.upstreams[0]? = some u ∧ positions = a.nextUpstream)
        ∨ ∃ r slot, route.routeIndex = some r ∧ route.upstreams[slot]? = some u
          ∧ Advances a route r slot positions)
      ∧ a.tryAcquire route now
        = (.ok { permit := true, upstream := some (selectedUpstream route u) },
          { a with
            rateLimits := limits'
            proxies := { a.proxies with activeProxies := a.proxies.activeProxies + 1 }
            nextUpstream := positions })
  | .thrown => ∃ e limits', (limits' = a.rateLimits
        ∨ Spends a.rateLimits route.routeIndex now limits')
      ∧ a.tryAcquire route now = (.error e, { a with rateLimits := limits' })

/-- An answer belongs to one outcome. -/
def outcomeOf : Except Unit RouteProxyAdmissionResult → Outcome
  | .error _ => .thrown
  | .ok r =>
      if !r.rateLimit.allowed then .rateDenied
      else if r.permit then .admitted
      else if r.noHealthyUpstream then .noHealthyUpstream
      else .capacityDenied

theorem Ends.outcomeOf_eq {o : Outcome} (h : a.Ends route now o) :
    outcomeOf (a.tryAcquire route now).1 = o := by
  cases o with
  | rateDenied =>
      obtain ⟨d, limits', hd, -, heq⟩ := h
      rw [heq]
      simp [outcomeOf, hd]
  | capacityDenied =>
      obtain ⟨limits', -, -, heq⟩ := h
      rw [heq]
      rfl
  | noHealthyUpstream =>
      obtain ⟨limits', r, -, -, -, -, heq⟩ := h
      rw [heq]
      rfl
  | admitted =>
      obtain ⟨limits', u, positions, -, -, -, heq⟩ := h
      rw [heq]
      rfl
  | thrown =>
      obtain ⟨e, limits', -, heq⟩ := h
      rw [heq]
      rfl

theorem tryAcquire_ends (a : RouteProxyAdmission) (route : SelectedRoute) (now : TimePoint) :
    ∃ o, a.Ends route now o := by
  rcases check_cases a.rateLimits route.routeIndex now with
    ⟨e, hcheck⟩ | ⟨d, limits', hcheck, hd, hlacks⟩ | ⟨limits', hcheck, hspends⟩
  · refine ⟨.thrown, e, a.rateLimits, Or.inl rfl, ?_⟩
    unfold tryAcquire
    rw [checkRate_eq, hcheck]
  · refine ⟨.rateDenied, d, limits', hd, hlacks, ?_⟩
    unfold tryAcquire
    rw [checkRate_eq, hcheck]
    simp [hd]
  · by_cases hroom : a.Room
    · have hpermit : a.proxies.tryAcquire
          = (true, { a.proxies with activeProxies := a.proxies.activeProxies + 1 }) := by
        unfold ProxyAdmissionState.tryAcquire
        rw [if_neg (Nat.not_le.mpr hroom)]
      -- the choice does not look at the buckets
      have hchoose : ({ a with rateLimits := limits' } : RouteProxyAdmission).choose route
          = a.choose route := rfl
      rcases choose_cases a route with
        ⟨e, heq⟩ | ⟨r, hr, heq, hall⟩ | ⟨u, hr, hu, heq⟩
        | ⟨r, slot, u, positions, hr, hu, hadvances, heq⟩
      · refine ⟨.thrown, e, limits', Or.inr hspends, ?_⟩
        unfold tryAcquire
        rw [checkRate_eq, hcheck]
        simp only [hpermit, hchoose, heq]
        rfl
      · refine ⟨.noHealthyUpstream, limits', r, hspends, hroom, hr, hall, ?_⟩
        unfold tryAcquire
        rw [checkRate_eq, hcheck]
        simp only [hpermit, hchoose, heq]
        rfl
      · refine ⟨.admitted, limits', u, _, hspends, hroom, Or.inl ⟨hr, hu, rfl⟩, ?_⟩
        unfold tryAcquire
        rw [checkRate_eq, hcheck]
        simp only [hpermit, hchoose, heq]
        rfl
      · refine ⟨.admitted, limits', u, positions, hspends, hroom,
          Or.inr ⟨r, slot, hr, hu, hadvances⟩, ?_⟩
        unfold tryAcquire
        rw [checkRate_eq, hcheck]
        simp only [hpermit, hchoose, heq]
        rfl
    · refine ⟨.capacityDenied, limits', hspends, hroom, ?_⟩
      have hfull : a.proxies.tryAcquire.1 = false := by
        unfold ProxyAdmissionState.tryAcquire
        rw [if_pos (Nat.not_lt.mp hroom)]
      unfold tryAcquire
      rw [checkRate_eq, hcheck]
      simp [hfull]

theorem ends_unique (a : RouteProxyAdmission) (route : SelectedRoute) (now : TimePoint) :
    ∃! o, a.Ends route now o := by
  obtain ⟨o, ho⟩ := tryAcquire_ends a route now
  exact ⟨o, ho, fun o' ho' => ho'.outcomeOf_eq.symm.trans ho.outcomeOf_eq⟩

/-! ## What follows from it -/

theorem Spends.other {limits limits' : RouteRateLimits} {index : Option Nat}
    (h : Spends limits index now limits') {j : Nat} (hj : index ≠ some j) :
    limits'[j]? = limits[j]? := by
  rcases h with ⟨rfl, -⟩ | ⟨r, b, hr, -, -, rfl⟩
  · rfl
  · exact List.getElem?_set_ne fun heq => hj (by rw [hr, heq])

/-- The rest of the admission: the health, the capacity, and the other routes. -/
structure Frame (a a' : RouteProxyAdmission) (route : SelectedRoute) : Prop where
  health : a'.health = a.health
  capacity : a'.proxies.maxProxies = a.proxies.maxProxies
  buckets : ∀ j, route.routeIndex ≠ some j → a'.rateLimits[j]? = a.rateLimits[j]?
  positions : ∀ j, route.routeIndex ≠ some j → a'.nextUpstream[j]? = a.nextUpstream[j]?

theorem tryAcquire_frame (a : RouteProxyAdmission) (route : SelectedRoute) (now : TimePoint) :
    Frame a (a.tryAcquire route now).2 route := by
  obtain ⟨o, ho⟩ := tryAcquire_ends a route now
  cases o with
  | rateDenied =>
      obtain ⟨d, limits', -, ⟨r, b, hr, -, -, rfl⟩, heq⟩ := ho
      rw [heq]
      exact ⟨rfl, rfl, fun j hj => List.getElem?_set_ne fun h => hj (by rw [hr, h]), fun _ _ => rfl⟩
  | capacityDenied =>
      obtain ⟨limits', hspends, -, heq⟩ := ho
      rw [heq]
      exact ⟨rfl, rfl, fun j hj => hspends.other hj, fun _ _ => rfl⟩
  | noHealthyUpstream =>
      obtain ⟨limits', r, hspends, -, -, -, heq⟩ := ho
      rw [heq]
      exact ⟨rfl, rfl, fun j hj => hspends.other hj, fun _ _ => rfl⟩
  | admitted =>
      obtain ⟨limits', u, positions, hspends, -, hturn, heq⟩ := ho
      rw [heq]
      refine ⟨rfl, rfl, fun j hj => hspends.other hj, fun j hj => ?_⟩
      rcases hturn with ⟨-, -, rfl⟩ | ⟨r, slot, hr, -, hadvances⟩
      · rfl
      · show positions[j]? = _
        rw [hadvances.positions]
        exact List.getElem?_set_ne fun h => hj (by rw [hr, h])
  | thrown =>
      obtain ⟨e, limits', hlimits, heq⟩ := ho
      rw [heq]
      refine ⟨rfl, rfl, fun j hj => ?_, fun _ _ => rfl⟩
      rcases hlimits with rfl | hspends
      · rfl
      · exact hspends.other hj

/-- The request has its token and there is room. -/
structure Passes (a : RouteProxyAdmission) (route : SelectedRoute) (now : TimePoint) : Prop where
  rate : ∃ limits', Spends a.rateLimits route.routeIndex now limits'
  room : a.Room

theorem Spends.not_lacks {limits l l' : RouteRateLimits} {index : Option Nat}
    (h : Spends limits index now l) : ¬Lacks limits index now l' := by
  rintro ⟨r, b, hr, hb, hlt, -⟩
  rcases h with ⟨-, hnone⟩ | ⟨r', b', hr', hb', hle, -⟩
  · rw [hnone r hr] at hb
    cases hb
  · obtain rfl : r = r' := Option.some.inj (hr.symm.trans hr')
    rw [hb] at hb'
    cases hb'
    exact UInt64.not_lt.mpr hle hlt

/-- Once rate and capacity are passed, and if nothing throws, there is no upstream
exactly when no slot of the indexed route is available. -/
theorem noHealthyUpstream_iff (hpasses : a.Passes route now) (hthrown : ¬a.Ends route now .thrown) :
    a.Ends route now .noHealthyUpstream ↔ ∃ r, route.routeIndex = some r
      ∧ ∀ s, s < route.upstreams.length → a.health.available r s = some false := by
  obtain ⟨⟨limits', hspends⟩, hroom⟩ := hpasses
  constructor
  · rintro ⟨-, r, -, -, hr, hall, -⟩
    exact ⟨r, hr, hall⟩
  · rintro ⟨r, hr, hall⟩
    obtain ⟨o, ho⟩ := tryAcquire_ends a route now
    cases o with
    | noHealthyUpstream => exact ho
    | thrown => exact absurd ho hthrown
    | rateDenied =>
        obtain ⟨d, l, -, hlacks, -⟩ := ho
        exact absurd hlacks hspends.not_lacks
    | capacityDenied =>
        obtain ⟨l, -, hfull, -⟩ := ho
        exact absurd hroom hfull
    | admitted =>
        obtain ⟨l, u, positions, -, -, ⟨hnone, -⟩ | ⟨r', slot, hr', -, hadvances⟩, -⟩ := ho
        · rw [hr] at hnone
          cases hnone
        · obtain rfl : r = r' := Option.some.inj (hr.symm.trans hr')
          obtain ⟨position, -, -, hfirst⟩ := hadvances.turn
          have hfree := hfirst.free
          rw [hall slot hfirst.lt] at hfree
          cases hfree

end RouteProxyAdmission

/-! ## Calls in any order -/

/-- An admission, and how many admitted results are still held. -/
structure AdmissionUse where
  admission : RouteProxyAdmission
  held : Nat := 0
  deriving DecidableEq, Repr

namespace AdmissionUse

inductive Call where
  | acquire (route : SelectedRoute) (now : TimePoint)
  /-- an admitted result goes out of scope -/
  | drop
  /-- a probe reports -/
  | record (route upstream : Nat) (success : Bool)
  deriving DecidableEq, Repr

def granted : Except Unit RouteProxyAdmissionResult → Bool
  | .ok r => r.permit
  | .error _ => false

/-- Its permit is released. -/
def dropResult (u : AdmissionUse) : AdmissionUse :=
  if u.held = 0 then u
  else
    { admission := { u.admission with proxies := u.admission.proxies.release }
      held := u.held - 1 }

def step : Call → AdmissionUse → AdmissionUse
  | .acquire route now, u =>
      { admission := (u.admission.tryAcquire route now).2
        held := if granted (u.admission.tryAcquire route now).1 then u.held + 1 else u.held }
  | .drop, u => u.dropResult
  | .record route upstream success, u =>
      { u with admission :=
          { u.admission with health := (u.admission.health.record route upstream success).2 } }

/-- Every held result has its permit. -/
def Accounted (u : AdmissionUse) : Prop := u.admission.proxies.activeProxies = u.held

theorem Accounted.drop {u : AdmissionUse} (h : Accounted u) (hheld : 0 < u.held) :
    dropResult u = { admission := { u.admission with proxies := { u.admission.proxies with
        activeProxies := u.admission.proxies.activeProxies - 1 } }, held := u.held - 1 } := by
  have hpos : u.admission.proxies.activeProxies > 0 := by
    rw [h]
    exact hheld
  unfold dropResult
  rw [if_neg (by omega)]
  simp only [ProxyAdmissionState.release, hpos, if_true]

theorem Accounted.step {u : AdmissionUse} (h : Accounted u) (call : Call) :
    Accounted (step call u) := by
  cases call with
  | acquire route now =>
      show (u.admission.tryAcquire route now).2.proxies.activeProxies
        = if granted (u.admission.tryAcquire route now).1 then u.held + 1 else u.held
      rcases RouteProxyAdmission.tryAcquire_cases u.admission route now with
        ⟨⟨e, herr⟩, hsame⟩ | ⟨r, hok, hpermit, -, hsame⟩
        | ⟨r, v, hok, hpermit, -, -, -, -, -, hmore⟩
      · rw [hsame, herr]
        exact h
      · rw [hsame, hok, granted, hpermit]
        exact h
      · rw [hmore, hok, granted, hpermit]
        exact congrArg (· + 1) h
  | drop =>
      show Accounted u.dropResult
      by_cases hheld : 0 < u.held
      · rw [h.drop hheld]
        exact congrArg (· - 1) h
      · unfold dropResult
        rw [if_pos (by omega)]
        exact h
  | record route upstream success => exact h

theorem make_admission {routes : List RouteConfig} {maxProxies : Nat} {start : TimePoint}
    {a : RouteProxyAdmission} (h : RouteProxyAdmission.make routes maxProxies start = .ok a) :
    a.proxies = { maxProxies } ∧ a.nextUpstream = List.replicate routes.length 0
      ∧ a.health = UpstreamHealthState.make routes := by
  unfold RouteProxyAdmission.make at h
  cases hlimits : RouteRateLimits.make start routes with
  | error e =>
      rw [hlimits] at h
      cases h
  | ok limits =>
      rw [hlimits] at h
      cases h
      exact ⟨rfl, rfl, rfl⟩

variable {routes : List RouteConfig} {maxProxies : Nat} {start : TimePoint}
  {a₀ : RouteProxyAdmission}

/-- In every state that calls in any order can reach, a call ends in exactly one of its
outcomes and touches no other route; and a result that is dropped gives its permit back
and does nothing else. -/
theorem admission_atomic (hmake : RouteProxyAdmission.make routes maxProxies start = .ok a₀)
    (calls : List Call) (route : SelectedRoute) (now : TimePoint) :
    let u := run step { admission := a₀ } calls
    (∃! o, u.admission.Ends route now o)
      ∧ RouteProxyAdmission.Frame u.admission (u.admission.tryAcquire route now).2 route
      ∧ (u.admission.Passes route now → ¬u.admission.Ends route now .thrown →
        (u.admission.Ends route now .noHealthyUpstream ↔ ∃ r, route.routeIndex = some r
          ∧ ∀ s, s < route.upstreams.length → u.admission.health.available r s = some false))
      ∧ (0 < u.held → 0 < u.admission.proxies.activeProxies
        ∧ step .drop u = { admission := { u.admission with proxies := { u.admission.proxies with
            activeProxies := u.admission.proxies.activeProxies - 1 } }, held := u.held - 1 }) := by
  intro u
  have haccounted : Accounted u := by
    refine run_invariant_all Accounted (fun call s hs => hs.step call) ?_ calls
    show a₀.proxies.activeProxies = 0
    rw [(make_admission hmake).1]
  refine ⟨RouteProxyAdmission.ends_unique u.admission route now,
    RouteProxyAdmission.tryAcquire_frame u.admission route now,
    RouteProxyAdmission.noHealthyUpstream_iff, fun hheld => ⟨?_, haccounted.drop hheld⟩⟩
  rw [haccounted]
  exact hheld

/-- A route with a limit and two slots, of which the first is down. -/
def limitedRoute : RouteConfig where
  routePrefix := "/a".toList
  upstreams := [⟨"same".toList, 1, 3000, .http⟩, ⟨"same".toList, 2, 3000, .http⟩]
  rateLimit := some ⟨1, 2⟩
  healthCheck := some { path := "/health".toList, unhealthyThreshold := 1 }

def limitedSelected : SelectedRoute where
  upstreams := limitedRoute.upstreams
  routePrefix := limitedRoute.routePrefix
  routeIndex := some 0

/-- Just made, with room for two. -/
def limitedStart : RouteProxyAdmission where
  rateLimits := [some ⟨⟨1, 2⟩, 2000000000, 2000000000, 0⟩]
  proxies := { maxProxies := 2 }
  nextUpstream := [0]
  health := UpstreamHealthState.make [limitedRoute]

def limitedCalls : List Call :=
  [.record 0 0 false, .acquire limitedSelected 0, .acquire limitedSelected 0, .drop]

/-- Two requests are admitted, to the second slot both, and one of them is dropped; the
next has no token. -/
theorem admission_atomic_limited :
    (run step { admission := limitedStart } limitedCalls).held = 1
      ∧ RouteProxyAdmission.outcomeOf ((run step { admission := limitedStart }
          limitedCalls).admission.tryAcquire limitedSelected 0).1 = .rateDenied
      ∧ ∃! o, (run step { admission := limitedStart } limitedCalls).admission.Ends
          limitedSelected 0 o := by
  have hmake : RouteProxyAdmission.make [limitedRoute] 2 0 = .ok limitedStart := by
    decide +kernel
  refine ⟨by decide +kernel, by decide +kernel, ?_⟩
  exact (admission_atomic hmake limitedCalls limitedSelected 0).1

end AdmissionUse

end ApiGate
