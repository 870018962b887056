import ApiGate.Config

/-!
# Upstream health

`UpstreamHealthState`: for each slot of each route whether it may be selected,
with the streaks of failures and successes that the thresholds are compared
with. Slots of a route without a health check never change.
-/

namespace ApiGate

inductive HealthTransition where
  | unchanged
  | unhealthy
  | healthy
  deriving DecidableEq, Repr

structure HealthSlot where
  healthy : Bool := true
  failures : Nat := 0
  successes : Nat := 0
  deriving DecidableEq, Repr

namespace HealthSlot

def record (settings : HealthCheckConfig) (success : Bool) (slot : HealthSlot) :
    HealthTransition × HealthSlot :=
  if success then
    let successes := min (slot.successes + 1) settings.healthyThreshold
    let slot := { slot with failures := 0, successes }
    if !slot.healthy && successes = settings.healthyThreshold then
      (.healthy, { slot with healthy := true })
    else (.unchanged, slot)
  else
    let failures := min (slot.failures + 1) settings.unhealthyThreshold
    let slot := { slot with successes := 0, failures }
    if slot.healthy && failures = settings.unhealthyThreshold then
      (.unhealthy, { slot with healthy := false })
    else (.unchanged, slot)

end HealthSlot

structure HealthRoute where
  config : Option HealthCheckConfig
  slots : List HealthSlot
  deriving DecidableEq, Repr

abbrev UpstreamHealthState := List HealthRoute

namespace UpstreamHealthState

def make (routes : List RouteConfig) : UpstreamHealthState :=
  routes.map fun route =>
    { config := route.healthCheck, slots := List.replicate route.upstreams.length {} }

/-- `none` where the source throws `out_of_range`. -/
def available (h : UpstreamHealthState) (route upstream : Nat) : Option Bool := do
  let r ← h[route]?
  let slot ← r.slots[upstream]?
  pure slot.healthy

/-- A route or slot that does not exist is not one a probe reports on. -/
def record (h : UpstreamHealthState) (route upstream : Nat) (success : Bool) :
    HealthTransition × UpstreamHealthState :=
  match h[route]? with
  | none => (.unchanged, h)
  | some r =>
      match r.config, r.slots[upstream]? with
      | some settings, some slot =>
          ((slot.record settings success).1,
            List.set h route
              { r with slots := List.set r.slots upstream (slot.record settings success).2 })
      | _, _ => (.unchanged, h)

/-! ## The slots that there are -/

/-- How many slots each route has. -/
def sizes (h : UpstreamHealthState) : List Nat := h.map fun route => route.slots.length

theorem sizes_make (routes : List RouteConfig) :
    sizes (make routes) = routes.map fun route => route.upstreams.length := by
  simp [sizes, make, Function.comp_def]

theorem sizes_record (h : UpstreamHealthState) (route upstream : Nat) (success : Bool) :
    sizes (h.record route upstream success).2 = sizes h := by
  unfold record
  split
  · rfl
  · rename_i r hr
    split
    · -- the slot is replaced by one slot
      obtain ⟨hlt, rfl⟩ := List.getElem?_eq_some_iff.mp hr
      have hlt' : route < (sizes h).length := by simpa [sizes] using hlt
      have hsize : (sizes h)[route] = h[route].slots.length := List.getElem_map _
      unfold sizes at *
      rw [List.map_set, List.length_set, ← hsize]
      exact List.set_getElem_self hlt'
    · rfl

theorem available_of_sizes {h : UpstreamHealthState} {route upstream size : Nat}
    (hsize : h.sizes[route]? = some size) (hlt : upstream < size) :
    ∃ available, h.available route upstream = some available := by
  unfold sizes at hsize
  rw [List.getElem?_map, Option.map_eq_some_iff] at hsize
  obtain ⟨r, hr, rfl⟩ := hsize
  unfold available
  rw [hr, Option.bind_eq_bind, Option.bind_some, List.getElem?_eq_getElem hlt]
  exact ⟨_, rfl⟩

end UpstreamHealthState

end ApiGate
