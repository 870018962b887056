import Mathlib.Data.List.Nodup
import ApiGate.RoutesCallback

/-!
# What the parse callback lets through

The callback only knows the depth and what it remembers of the keys it has
seen. Level by level, from the inside out, it decides exactly the shape that the
document has there (`checks_document`): a container in a wrong place is refused
at its first event, so nothing below it matters.
-/

namespace ApiGate

namespace RoutesCallback

open Json (events elementEvents memberEvents)
open EventLoop (Checks)

/-! ## The shape, level by level -/

/-- The names are new and different from each other. -/
def Fresh (seen : List Text) (members : List (Text × Json)) : Prop :=
  (members.map Prod.fst).Nodup ∧ ∀ m ∈ members, m.1 ∉ seen

/-- An element of an `upstreams` array. -/
def UpstreamEntry : Json → Prop
  | .object members => (members.map Prod.fst).Nodup ∧ ∀ m ∈ members, m.2.isScalar = true
  | .array _ => False
  | _ => True

/-- A field of the object that is the value of the route field `route`. -/
def SectionValue (route name : Text) : Json → Prop
  | .array elements => (route = authFieldKey ∧ name = apiKeyEnvsKey)
      ∧ (∀ e ∈ elements, isReference e = true) ∧ elements.length ≤ 4
  | .object _ => False
  | _ => True

def IsSection (name : Text) : Prop :=
  name = rateLimitKey ∨ name = healthCheckKey ∨ name = authFieldKey

def AuthField (name : Text) : Prop := name = apiKeyEnvKey ∨ name = apiKeyEnvsKey

/-- The field `name` of a route. -/
def RouteValue (name : Text) : Json → Prop
  | .array elements => name = upstreamsKey ∧ elements.countP Json.isObject ≤ 16
      ∧ ∀ e ∈ elements, UpstreamEntry e
  | .object members => IsSection name ∧ (members.map Prod.fst).Nodup
      ∧ (name = authFieldKey → ∀ m ∈ members, AuthField m.1)
      ∧ ∀ m ∈ members, SectionValue name m.1 m.2
  | _ => True

def RouteEntry : Json → Prop
  | .object members => (members.map Prod.fst).Nodup ∧ ∀ m ∈ members, RouteValue m.1 m.2
  | .array _ => False
  | _ => True

def Document : Json → Prop
  | .array elements => elements.countP Json.isObject ≤ 32 ∧ ∀ e ∈ elements, RouteEntry e
  | .object _ => False
  | _ => True

theorem Fresh.cons_iff {seen : List Text} {m : Text × Json} {rest : List (Text × Json)} :
    Fresh seen (m :: rest) ↔ m.1 ∉ seen ∧ Fresh (m.1 :: seen) rest := by
  unfold Fresh
  simp only [List.map_cons, List.nodup_cons, List.mem_cons, forall_eq_or_imp, not_or]
  constructor
  · rintro ⟨⟨hnew, hrest⟩, hm, hseen⟩
    refine ⟨hm, hrest, fun n hn => ⟨?_, hseen n hn⟩⟩
    intro heq
    exact hnew (heq ▸ List.mem_map_of_mem hn)
  · rintro ⟨hm, hrest, hseen⟩
    refine ⟨⟨?_, hrest⟩, hm, fun n hn => (hseen n hn).2⟩
    intro hmem
    obtain ⟨n, hn, heq⟩ := List.mem_map.mp hmem
    exact (hseen n hn).1 heq

theorem fresh_nil {members : List (Text × Json)} :
    Fresh [] members ↔ (members.map Prod.fst).Nodup := by
  simp [Fresh]

theorem upstreamEntry_scalar {v : Json} (h : v.isScalar = true) : UpstreamEntry v := by
  cases v with
  | array elements => cases h
  | object members => cases h
  | _ => trivial

theorem sectionValue_scalar {v : Json} (h : v.isScalar = true) (route name : Text) :
    SectionValue route name v := by
  cases v with
  | array elements => cases h
  | object members => cases h
  | _ => trivial

theorem routeValue_scalar {v : Json} (h : v.isScalar = true) (name : Text) : RouteValue name v := by
  cases v with
  | array elements => cases h
  | object members => cases h
  | _ => trivial

theorem routeEntry_scalar {v : Json} (h : v.isScalar = true) : RouteEntry v := by
  cases v with
  | array elements => cases h
  | object members => cases h
  | _ => trivial

theorem document_scalar {v : Json} (h : v.isScalar = true) : Document v := by
  cases v with
  | array elements => cases h
  | object members => cases h
  | _ => trivial

/-! ## Containers in a wrong place, values that nobody looks at -/

theorem refuse_array {s : State} {depth : Nat} (h : depth ≠ 0)
    (hup : ¬ (depth = 2 ∧ s.routeKey = upstreamsKey))
    (henvs : ¬ (depth = 3 ∧ s.routeKey = authFieldKey ∧ s.authKey = apiKeyEnvsKey))
    (elements : List Json) {Q : State → Prop} :
    Checks callback s (events depth (.array elements)) False Q := by
  have hstart : callback s (.arrayStart depth)
      = .error "APIGATE_ROUTES contains an invalid nested array" := by
    simp [callback, onArrayStart, h, hup, henvs, and_assoc]
  rw [events]
  exact Checks.refuse hstart

theorem refuse_object {s : State} {depth : Nat} (hroute : depth ≠ 1)
    (hsection : ¬ (depth = 2 ∧ IsSection s.routeKey))
    (hup : ¬ (depth = 3 ∧ s.inUpstreams = true ∧ s.routeKey = upstreamsKey))
    (members : List (Text × Json)) {Q : State → Prop} :
    Checks callback s (events depth (.object members)) False Q := by
  have hstart : callback s (.objectStart depth)
      = .error "APIGATE_ROUTES contains an invalid nested object" := by
    unfold IsSection at hsection
    simp [callback, onObjectStart, hroute, hsection, hup, and_assoc, or_assoc]
  rw [events]
  exact Checks.refuse hstart

theorem pass_scalar {s : State} {depth : Nat} {v : Json} (hv : v.isScalar = true)
    (h : onValue s depth v = .ok s) : Checks callback s (events depth v) True (fun t => t = s) := by
  rw [Json.events_scalar hv]
  exact Checks.cons h (Checks.nil rfl)

theorem onValue_outside {s : State} (h : s.inKeyEnvs = false) (depth : Nat) (v : Json) :
    onValue s depth v = .ok s := by
  simp [onValue, h]

/-! ## The values of `api_key_envs` -/

theorem onValue_reference {s : State} (hin : s.inKeyEnvs = true) (v : Json) :
    onValue s 4 v =
      if isReference v = true ∧ s.referenceCount + 1 ≤ 4 then
        .ok { s with referenceCount := s.referenceCount + 1 }
      else .error "APIGATE_ROUTES auth requires 1-4 nonempty key references" := by
  simp only [onValue, hin, decide_true, Bool.and_self, if_true]
  by_cases hr : isReference v = true
  · by_cases hle : s.referenceCount + 1 ≤ 4
    · simp [hr, hle, Nat.not_lt.mpr hle]
    · simp [hr, hle, Nat.lt_of_not_le hle]
  · simp [hr]

theorem checks_reference {s : State} (hin : s.inKeyEnvs = true) (v : Json) :
    Checks callback s (events 4 v) (isReference v = true ∧ s.referenceCount + 1 ≤ 4)
      (fun t => t = { s with referenceCount := s.referenceCount + 1 }) := by
  rcases v.container_or_scalar with ⟨elements, rfl⟩ | ⟨members, rfl⟩ | hv
  · exact (refuse_array (by decide) (by simp) (by simp) elements).congr (by simp [isReference])
      (fun _ h => h)
  · exact (refuse_object (by decide) (by simp) (by simp) members).congr (by simp [isReference])
      (fun _ h => h)
  · rw [Json.events_scalar hv]
    by_cases hok : isReference v = true ∧ s.referenceCount + 1 ≤ 4
    · have hvalue : callback s (.value 4 v)
          = .ok { s with referenceCount := s.referenceCount + 1 } :=
        (onValue_reference hin v).trans (if_pos hok)
      exact (Checks.cons hvalue (Checks.nil (Q := fun t => t = _) rfl)).congr
        (iff_of_true trivial hok) (fun _ h => h)
    · have hvalue : callback s (.value 4 v) = .error _ := (onValue_reference hin v).trans (if_neg hok)
      exact (Checks.refuse hvalue).congr (iff_of_false id hok) (fun _ h => h)

theorem checks_references {s : State} (hin : s.inKeyEnvs = true) (elements : List Json)
    (hle : s.referenceCount ≤ 4) :
    Checks callback s (elementEvents 4 elements)
      ((∀ e ∈ elements, isReference e = true) ∧ s.referenceCount + elements.length ≤ 4)
      (fun t => ∃ n, t = { s with referenceCount := n }) := by
  induction elements generalizing s with
  | nil =>
      rw [elementEvents]
      exact (Checks.nil ⟨s.referenceCount, rfl⟩).congr (by simp [hle]) (fun _ h => h)
  | cons v rest ih =>
      rw [elementEvents]
      have hrest : ∀ m, isReference v = true ∧ s.referenceCount + 1 ≤ 4 →
          m = { s with referenceCount := s.referenceCount + 1 } →
          Checks callback m (elementEvents 4 rest)
            ((∀ e ∈ rest, isReference e = true) ∧ s.referenceCount + 1 + rest.length ≤ 4)
            (fun t => ∃ n, t = { s with referenceCount := n }) := by
        rintro m ⟨-, hroom⟩ rfl
        exact ih (s := { s with referenceCount := s.referenceCount + 1 }) hin hroom
      refine ((checks_reference hin v).append hrest).congr ?_ (fun _ h => h)
      rw [List.forall_mem_cons, List.length_cons]
      constructor
      · rintro ⟨⟨hv, -⟩, hall, hcount⟩
        exact ⟨⟨hv, hall⟩, by omega⟩
      · rintro ⟨⟨hv, hall⟩, hcount⟩
        exact ⟨⟨hv, by omega⟩, hall, by omega⟩

/-! ## The objects of a route -/

/-- Neither inside an `upstreams` array nor inside an `api_key_envs` array. -/
def Outside (s : State) : Prop := s.inUpstreams = false ∧ s.inKeyEnvs = false

theorem checks_sectionValue {s : State} (hs : Outside s) (v : Json) :
    Checks callback s (events 3 v) (SectionValue s.routeKey s.authKey v)
      (fun t => ∃ n, t = { s with referenceCount := n }) := by
  obtain ⟨hup, henvs⟩ := hs
  rcases v.container_or_scalar with ⟨elements, rfl⟩ | ⟨members, rfl⟩ | hv
  · by_cases hplace : s.routeKey = authFieldKey ∧ s.authKey = apiKeyEnvsKey
    · have hstart : callback s (.arrayStart 3)
          = .ok { s with referenceCount := 0, inKeyEnvs := true } := by
        simp [callback, onArrayStart, hplace]
      have hbody := checks_references (s := { s with referenceCount := 0, inKeyEnvs := true }) rfl
        elements (Nat.zero_le _)
      rw [events]
      refine (Checks.cons hstart (hbody.append (R := True)
        (T := fun t => ∃ n, t = { s with referenceCount := n }) ?_)).congr ?_ (fun _ h => h)
      · rintro m - ⟨n, rfl⟩
        refine Checks.cons rfl (Checks.nil ⟨n, ?_⟩)
        simp [onArrayEnd, ← henvs]
      · simp [SectionValue, hplace]
    · exact (refuse_array (by decide) (by simp) (by simpa using hplace) elements).congr
        (by simp [SectionValue, hplace]) (fun _ h => h)
  · exact (refuse_object (by decide) (by simp) (by simp [hup]) members).congr
      (by simp [SectionValue]) (fun _ h => h)
  · exact (pass_scalar hv (onValue_outside henvs 3 v)).congr
      (iff_of_true trivial (sectionValue_scalar hv _ _)) (fun t ht => ⟨s.referenceCount, ht⟩)

/-- The field of the current object that the callback remembers. -/
def authKeyAfter (s : State) (name : Text) : Text :=
  if s.routeKey = authFieldKey then name else s.authKey

theorem sectionValue_authKeyAfter (s : State) (name : Text) (v : Json) :
    SectionValue s.routeKey (authKeyAfter s name) v ↔ SectionValue s.routeKey name v := by
  cases v with
  | array elements =>
      by_cases h : s.routeKey = authFieldKey
      · simp [SectionValue, authKeyAfter, h]
      · simp [SectionValue, h]
  | object members => exact Iff.rfl
  | _ => exact Iff.rfl

theorem checkAuthKey_section {s : State} {name : Text}
    (hfield : s.routeKey = authFieldKey → AuthField name) :
    checkAuthKey s 3 name = .ok { s with authKey := authKeyAfter s name } := by
  unfold checkAuthKey authKeyAfter
  by_cases h : s.routeKey = authFieldKey
  · have hknown : ¬ (name ≠ apiKeyEnvKey ∧ name ≠ apiKeyEnvsKey) := by
      rintro ⟨henv, henvs⟩
      exact (hfield h).elim henv henvs
    simp [h, hknown]
  · simp [h]

theorem onKey_section {s : State} {name : Text}
    (hfield : s.routeKey = authFieldKey → AuthField name) :
    callback s (.key 3 name)
      = if name ∈ s.keys1 then .error "APIGATE_ROUTES contains a duplicate object field"
        else .ok { s with keys1 := name :: s.keys1, authKey := authKeyAfter s name } := by
  simp only [callback, onKey, checkAuthKey_section hfield, bind, Except.bind, insertKey]
  by_cases h : name ∈ s.keys1
  · simp [h]
  · simp [h, pure, Except.pure]

theorem onKey_section_refused {s : State} {name : Text} (h : s.routeKey = authFieldKey)
    (hfield : ¬ AuthField name) :
    callback s (.key 3 name) = .error "APIGATE_ROUTES auth contains an unknown field" := by
  have hunknown : name ≠ apiKeyEnvKey ∧ name ≠ apiKeyEnvsKey := not_or.mp hfield
  simp [callback, onKey, checkAuthKey, h, hunknown, bind, Except.bind]

theorem checks_sectionMembers {s : State} (hs : Outside s) (members : List (Text × Json)) :
    Checks callback s (memberEvents 3 members)
      (Fresh s.keys1 members ∧ (s.routeKey = authFieldKey → ∀ m ∈ members, AuthField m.1)
        ∧ ∀ m ∈ members, SectionValue s.routeKey m.1 m.2)
      (fun t => ∃ ks a n, t = { s with keys1 := ks, authKey := a, referenceCount := n }) := by
  induction members generalizing s with
  | nil =>
      rw [memberEvents]
      exact (Checks.nil ⟨s.keys1, s.authKey, s.referenceCount, rfl⟩).congr (by simp [Fresh])
        (fun _ h => h)
  | cons m rest ih =>
      obtain ⟨name, v⟩ := m
      rw [memberEvents, Fresh.cons_iff]
      simp only [List.forall_mem_cons]
      by_cases hfield : s.routeKey = authFieldKey → AuthField name
      · by_cases hnew : name ∈ s.keys1
        · exact (Checks.refuse ((onKey_section hfield).trans (if_pos hnew))).congr
            (iff_of_false id fun h => h.1.1 hnew) (fun _ h => h)
        · have hvalue := checks_sectionValue
            (s := { s with keys1 := name :: s.keys1, authKey := authKeyAfter s name }) hs v
          refine (Checks.cons ((onKey_section hfield).trans (if_neg hnew))
            (hvalue.append (R := Fresh (name :: s.keys1) rest
              ∧ (s.routeKey = authFieldKey → ∀ m ∈ rest, AuthField m.1)
              ∧ ∀ m ∈ rest, SectionValue s.routeKey m.1 m.2)
            (T := fun t => ∃ ks a n,
              t = { s with keys1 := ks, authKey := a, referenceCount := n }) ?_)).congr ?_
            (fun _ h => h)
          · rintro m - ⟨n, rfl⟩
            exact ih hs
          · have hsame := sectionValue_authKeyAfter s name v
            constructor
            · rintro ⟨hv, hfresh, hauth, hall⟩
              exact ⟨⟨hnew, hfresh⟩, fun h => ⟨hfield h, hauth h⟩, hsame.mp hv, hall⟩
            · rintro ⟨⟨-, hfresh⟩, hauth, hv, hall⟩
              exact ⟨hsame.mpr hv, hfresh, fun h => (hauth h).2, hall⟩
      · obtain ⟨hroute, hunknown⟩ := Classical.not_imp.mp hfield
        exact (Checks.refuse (onKey_section_refused hroute hunknown)).congr
          (iff_of_false id fun h => hunknown (h.2.1 hroute).1) (fun _ h => h)

/-! ## The entries of `upstreams` -/

theorem onKey_upstream (s : State) (name : Text) :
    callback s (.key 4 name)
      = if name ∈ s.keys2 then .error "APIGATE_ROUTES contains a duplicate object field"
        else .ok { s with keys2 := name :: s.keys2 } := by
  by_cases h : name ∈ s.keys2
  · simp [callback, onKey, checkAuthKey, insertKey, bind, Except.bind, h]
  · simp [callback, onKey, checkAuthKey, insertKey, bind, Except.bind, pure, Except.pure, h]

theorem checks_upstreamValue {s : State} (hs : s.inKeyEnvs = false) (v : Json) :
    Checks callback s (events 4 v) (v.isScalar = true) (fun t => t = s) := by
  rcases v.container_or_scalar with ⟨elements, rfl⟩ | ⟨members, rfl⟩ | hv
  · exact (refuse_array (by decide) (by simp) (by simp) elements).congr
      (iff_of_false id (by simp [Json.isScalar, Json.isArray, Json.isObject])) (fun _ h => h)
  · exact (refuse_object (by decide) (by simp) (by simp) members).congr
      (iff_of_false id (by simp [Json.isScalar, Json.isArray, Json.isObject])) (fun _ h => h)
  · exact (pass_scalar hv (onValue_outside hs 4 v)).congr (iff_of_true trivial hv) (fun _ h => h)

theorem checks_upstreamMembers {s : State} (hs : s.inKeyEnvs = false)
    (members : List (Text × Json)) :
    Checks callback s (memberEvents 4 members)
      (Fresh s.keys2 members ∧ ∀ m ∈ members, m.2.isScalar = true)
      (fun t => ∃ ks, t = { s with keys2 := ks }) := by
  induction members generalizing s with
  | nil =>
      rw [memberEvents]
      exact (Checks.nil ⟨s.keys2, rfl⟩).congr (by simp [Fresh]) (fun _ h => h)
  | cons m rest ih =>
      obtain ⟨name, v⟩ := m
      rw [memberEvents, Fresh.cons_iff, List.forall_mem_cons]
      by_cases hnew : name ∈ s.keys2
      · exact (Checks.refuse ((onKey_upstream s name).trans (if_pos hnew))).congr
          (iff_of_false id fun h => h.1.1 hnew) (fun _ h => h)
      · refine (Checks.cons ((onKey_upstream s name).trans (if_neg hnew))
          ((checks_upstreamValue (s := { s with keys2 := name :: s.keys2 }) hs v).append
            (R := Fresh (name :: s.keys2) rest ∧ ∀ m ∈ rest, m.2.isScalar = true)
            (T := fun t => ∃ ks, t = { s with keys2 := ks }) ?_)).congr ?_ (fun _ h => h)
        · rintro m - rfl
          exact ih hs
        · constructor
          · rintro ⟨hv, hfresh, hall⟩
            exact ⟨⟨hnew, hfresh⟩, hv, hall⟩
          · rintro ⟨⟨-, hfresh⟩, hv, hall⟩
            exact ⟨hv, hfresh, hall⟩

/-- Inside an `upstreams` array. -/
def InUpstreams (s : State) : Prop :=
  s.inUpstreams = true ∧ s.inKeyEnvs = false ∧ s.routeKey = upstreamsKey

theorem isObject_scalar {v : Json} (h : v.isScalar = true) : v.isObject = false := by
  cases v with
  | object members => cases h
  | _ => rfl

theorem checks_upstream {s : State} (hs : InUpstreams s) (hle : s.upstreamCount ≤ 16) (v : Json) :
    Checks callback s (events 3 v) (s.upstreamCount + v.isObject.toNat ≤ 16 ∧ UpstreamEntry v)
      (fun t => ∃ ks, t = { s with
        upstreamCount := s.upstreamCount + v.isObject.toNat, keys2 := ks }) := by
  obtain ⟨hup, henvs, hroute⟩ := hs
  rcases v.container_or_scalar with ⟨elements, rfl⟩ | ⟨members, rfl⟩ | hv
  · have hauth : s.routeKey ≠ authFieldKey := by
      rw [hroute]
      decide
    exact (refuse_array (by decide) (by simp) (by simp [hauth]) elements).congr
      (iff_of_false id fun h => h.2) (fun _ h => h)
  · by_cases hroom : s.upstreamCount + 1 ≤ 16
    · have hstart : callback s (.objectStart 3)
          = .ok { s with upstreamCount := s.upstreamCount + 1, keys2 := [] } := by
        simp [callback, onObjectStart, hup, hroute, Nat.not_lt.mpr hroom]
      have hbody := checks_upstreamMembers
        (s := { s with upstreamCount := s.upstreamCount + 1, keys2 := [] }) henvs members
      rw [events]
      refine (Checks.cons hstart (hbody.append (R := True) (T := fun t => ∃ ks,
        t = { s with upstreamCount := s.upstreamCount + 1, keys2 := ks }) ?_)).congr ?_
        (fun _ h => h)
      · rintro m - ⟨ks, rfl⟩
        exact Checks.cons rfl (Checks.nil ⟨ks, rfl⟩)
      · simp only [fresh_nil, and_true]
        exact ⟨fun h => ⟨hroom, h⟩, fun h => h.2⟩
    · have hstart : callback s (.objectStart 3)
          = .error "APIGATE_ROUTES upstreams must contain at most 16 entries" := by
        simp [callback, onObjectStart, hup, hroute, Nat.lt_of_not_le hroom]
      rw [events]
      exact (Checks.refuse hstart).congr (iff_of_false id fun h => hroom h.1) (fun _ h => h)
  · rw [isObject_scalar hv]
    exact (pass_scalar hv (onValue_outside henvs 3 v)).congr
      (iff_of_true trivial ⟨hle, upstreamEntry_scalar hv⟩) (fun t ht => ⟨s.keys2, ht⟩)

theorem countP_isObject_cons (v : Json) (rest : List Json) :
    (v :: rest).countP Json.isObject = v.isObject.toNat + rest.countP Json.isObject := by
  rw [List.countP_cons]
  cases v.isObject
  · simp
  · simp [Nat.add_comm]

theorem checks_upstreams {s : State} (hs : InUpstreams s) (hle : s.upstreamCount ≤ 16)
    (elements : List Json) :
    Checks callback s (elementEvents 3 elements)
      (s.upstreamCount + elements.countP Json.isObject ≤ 16 ∧ ∀ e ∈ elements, UpstreamEntry e)
      (fun t => ∃ n ks, t = { s with upstreamCount := n, keys2 := ks }) := by
  induction elements generalizing s with
  | nil =>
      rw [elementEvents]
      exact (Checks.nil ⟨s.upstreamCount, s.keys2, rfl⟩).congr (by simp [hle]) (fun _ h => h)
  | cons v rest ih =>
      rw [elementEvents, List.forall_mem_cons, countP_isObject_cons]
      refine ((checks_upstream hs hle v).append (R := s.upstreamCount + v.isObject.toNat
          + rest.countP Json.isObject ≤ 16 ∧ ∀ e ∈ rest, UpstreamEntry e)
        (T := fun t => ∃ n ks, t = { s with upstreamCount := n, keys2 := ks }) ?_).congr ?_
        (fun _ h => h)
      · rintro m ⟨hroom, -⟩ ⟨ks, rfl⟩
        exact ih hs hroom
      · constructor
        · rintro ⟨⟨-, hv⟩, hcount, hall⟩
          exact ⟨by omega, hv, hall⟩
        · rintro ⟨hcount, hv, hall⟩
          exact ⟨⟨by omega, hv⟩, by omega, hall⟩

/-! ## A route -/

/-- What one field of a route leaves of the state. -/
def KeepsRoute (s t : State) : Prop :=
  t.keys0 = s.keys0 ∧ t.objectCount = s.objectCount ∧ Outside t

theorem onArrayStart_upstreams {s : State} (h : s.routeKey = upstreamsKey) :
    callback s (.arrayStart 2) = .ok { s with upstreamCount := 0, inUpstreams := true } := by
  simp [callback, onArrayStart, h]

theorem onObjectStart_section {s : State} (h : IsSection s.routeKey) :
    callback s (.objectStart 2) = .ok { s with keys1 := [], authKey := [] } := by
  unfold IsSection at h
  simp [callback, onObjectStart, h, or_assoc]

theorem checks_routeValue {s : State} (hs : Outside s) (v : Json) :
    Checks callback s (events 2 v) (RouteValue s.routeKey v) (KeepsRoute s) := by
  obtain ⟨hup, henvs⟩ := hs
  rcases v.container_or_scalar with ⟨elements, rfl⟩ | ⟨members, rfl⟩ | hv
  · by_cases hroute : s.routeKey = upstreamsKey
    · have hbody := checks_upstreams (s := { s with upstreamCount := 0, inUpstreams := true })
        ⟨rfl, henvs, hroute⟩ (Nat.zero_le _) elements
      rw [events]
      refine (Checks.cons (onArrayStart_upstreams hroute)
        (hbody.append (R := True) (T := KeepsRoute s) ?_)).congr ?_ (fun _ h => h)
      · rintro m - ⟨n, ks, rfl⟩
        exact Checks.cons rfl (Checks.nil ⟨rfl, rfl, rfl, henvs⟩)
      · simp [RouteValue, hroute]
    · exact (refuse_array (by decide) (by simpa using hroute) (by simp) elements).congr
        (iff_of_false id fun h => hroute h.1) (fun _ h => h)
  · by_cases hsection : IsSection s.routeKey
    · have hbody := checks_sectionMembers (s := { s with keys1 := [], authKey := [] })
        ⟨hup, henvs⟩ members
      rw [events]
      refine (Checks.cons (onObjectStart_section hsection)
        (hbody.append (R := True) (T := KeepsRoute s) ?_)).congr ?_ (fun _ h => h)
      · rintro m - ⟨ks, a, n, rfl⟩
        exact Checks.cons rfl (Checks.nil ⟨rfl, rfl, hup, henvs⟩)
      · simp only [fresh_nil, and_true]
        exact ⟨fun h => ⟨hsection, h⟩, fun h => h.2⟩
    · exact (refuse_object (by decide) (by simpa using hsection) (by simp) members).congr
        (iff_of_false id fun h => hsection h.1) (fun _ h => h)
  · exact (pass_scalar hv (onValue_outside henvs 2 v)).congr
      (iff_of_true trivial (routeValue_scalar hv _)) (by
        rintro t rfl
        exact ⟨rfl, rfl, hup, henvs⟩)

theorem onKey_route (s : State) (name : Text) :
    callback s (.key 2 name)
      = if name ∈ s.keys0 then .error "APIGATE_ROUTES contains a duplicate object field"
        else .ok { s with keys0 := name :: s.keys0, routeKey := name } := by
  by_cases h : name ∈ s.keys0
  · simp [callback, onKey, checkAuthKey, insertKey, bind, Except.bind, h]
  · simp [callback, onKey, checkAuthKey, insertKey, bind, Except.bind, pure, Except.pure, h]

theorem checks_routeMembers {s : State} (hs : Outside s) (members : List (Text × Json)) :
    Checks callback s (memberEvents 2 members)
      (Fresh s.keys0 members ∧ ∀ m ∈ members, RouteValue m.1 m.2)
      (fun t => t.objectCount = s.objectCount ∧ Outside t) := by
  induction members generalizing s with
  | nil =>
      rw [memberEvents]
      exact (Checks.nil ⟨rfl, hs⟩).congr (by simp [Fresh]) (fun _ h => h)
  | cons m rest ih =>
      obtain ⟨name, v⟩ := m
      rw [memberEvents, Fresh.cons_iff, List.forall_mem_cons]
      by_cases hnew : name ∈ s.keys0
      · exact (Checks.refuse ((onKey_route s name).trans (if_pos hnew))).congr
          (iff_of_false id fun h => h.1.1 hnew) (fun _ h => h)
      · have hvalue := checks_routeValue
          (s := { s with keys0 := name :: s.keys0, routeKey := name }) hs v
        refine (Checks.cons ((onKey_route s name).trans (if_neg hnew)) (hvalue.append
          (R := Fresh (name :: s.keys0) rest ∧ ∀ m ∈ rest, RouteValue m.1 m.2)
          (T := fun t => t.objectCount = s.objectCount ∧ Outside t) ?_)).congr ?_ (fun _ h => h)
        · rintro m - ⟨hkeys, hcount, hm⟩
          have hrest := ih hm
          rw [hkeys, hcount] at hrest
          exact hrest
        · constructor
          · rintro ⟨hv, hfresh, hall⟩
            exact ⟨⟨hnew, hfresh⟩, hv, hall⟩
          · rintro ⟨⟨-, hfresh⟩, hv, hall⟩
            exact ⟨hv, hfresh, hall⟩

/-! ## The document -/

theorem checks_route {s : State} (hs : Outside s) (hle : s.objectCount ≤ 32) (v : Json) :
    Checks callback s (events 1 v) (s.objectCount + v.isObject.toNat ≤ 32 ∧ RouteEntry v)
      (fun t => t.objectCount = s.objectCount + v.isObject.toNat ∧ Outside t) := by
  rcases v.container_or_scalar with ⟨elements, rfl⟩ | ⟨members, rfl⟩ | hv
  · exact (refuse_array (by decide) (by simp) (by simp) elements).congr
      (iff_of_false id fun h => h.2) (fun _ h => h)
  · by_cases hroom : s.objectCount + 1 ≤ 32
    · have hstart : callback s (.objectStart 1)
          = .ok { s with objectCount := s.objectCount + 1, keys0 := [] } := by
        simp [callback, onObjectStart, Nat.not_lt.mpr hroom]
      have hbody := checks_routeMembers
        (s := { s with objectCount := s.objectCount + 1, keys0 := [] }) hs members
      rw [events]
      refine (Checks.cons hstart (hbody.append (R := True)
        (T := fun t => t.objectCount = s.objectCount + 1 ∧ Outside t) ?_)).congr ?_
        (fun _ h => h)
      · intro m _ hm
        exact Checks.cons rfl (Checks.nil hm)
      · simp only [fresh_nil, and_true]
        exact ⟨fun h => ⟨hroom, h⟩, fun h => h.2⟩
    · have hstart : callback s (.objectStart 1)
          = .error "APIGATE_ROUTES must contain at most 32 route objects" := by
        simp [callback, onObjectStart, Nat.lt_of_not_le hroom]
      rw [events]
      exact (Checks.refuse hstart).congr (iff_of_false id fun h => hroom h.1) (fun _ h => h)
  · rw [isObject_scalar hv]
    refine (pass_scalar hv (onValue_outside hs.2 1 v)).congr
      (iff_of_true trivial ⟨hle, routeEntry_scalar hv⟩) ?_
    rintro t rfl
    exact ⟨rfl, hs⟩

theorem checks_routes {s : State} (hs : Outside s) (hle : s.objectCount ≤ 32)
    (elements : List Json) :
    Checks callback s (elementEvents 1 elements)
      (s.objectCount + elements.countP Json.isObject ≤ 32 ∧ ∀ e ∈ elements, RouteEntry e)
      (fun _ => True) := by
  induction elements generalizing s with
  | nil =>
      rw [elementEvents]
      exact (Checks.nil trivial).congr (by simp [hle]) (fun _ h => h)
  | cons v rest ih =>
      rw [elementEvents, List.forall_mem_cons, countP_isObject_cons]
      refine ((checks_route hs hle v).append (R := s.objectCount + v.isObject.toNat
          + rest.countP Json.isObject ≤ 32 ∧ ∀ e ∈ rest, RouteEntry e)
        (T := fun _ => True) ?_).congr ?_ (fun _ h => h)
      · rintro m ⟨hroom, -⟩ ⟨hcount, hm⟩
        have hrest := ih hm (hcount ▸ hroom)
        rw [hcount] at hrest
        exact hrest
      · constructor
        · rintro ⟨⟨-, hv⟩, hcount, hall⟩
          exact ⟨by omega, hv, hall⟩
        · rintro ⟨hcount, hv, hall⟩
          exact ⟨⟨by omega, hv⟩, by omega, hall⟩

theorem checks_document (doc : Json) :
    Checks callback {} (events 0 doc) (Document doc) (fun _ => True) := by
  rcases doc.container_or_scalar with ⟨elements, rfl⟩ | ⟨members, rfl⟩ | hv
  · have hbody := checks_routes (s := {}) ⟨rfl, rfl⟩ (Nat.zero_le _) elements
    rw [events]
    refine (Checks.cons rfl (hbody.append (R := True) (T := fun _ => True) ?_)).congr ?_
      (fun _ h => h)
    · intro m _ _
      exact Checks.cons rfl (Checks.nil trivial)
    · simp [Document]
  · exact (refuse_object (by decide) (by simp) (by simp) members).congr
      (iff_of_false id id) (fun _ h => h)
  · exact (pass_scalar hv rfl).congr (iff_of_true trivial (document_scalar hv))
      (fun _ _ => trivial)

theorem passes_iff (doc : Json) : Passes doc ↔ Document doc := by
  constructor
  · rintro ⟨s, hs⟩
    exact ((checks_document doc).sound s hs).1
  · intro h
    exact (checks_document doc).complete h

/-! ## The shape of a whole document

The same, said of all the values of a document by the steps that lead to them. -/

open Json (Step nodes)

/-- A route in the document, one of three fields of a route, or an entry of `upstreams`. -/
def ObjectPlace (path : List Step) : Prop :=
  path = [.element] ∨ (∃ name, IsSection name ∧ path = [.element, .member name])
    ∨ path = [.element, .member upstreamsKey, .element]

/-- The document, the field `upstreams` of a route, or `api_key_envs` of its field `auth`. -/
def ArrayPlace (path : List Step) : Prop :=
  path = [] ∨ path = [.element, .member upstreamsKey]
    ∨ path = [.element, .member authFieldKey, .member apiKeyEnvsKey]

structure RoutesShape (doc : Json) : Prop where
  distinct : ∀ path members, (path, .object members) ∈ nodes [] doc →
    (members.map Prod.fst).Nodup
  objects : ∀ path members, (path, .object members) ∈ nodes [] doc → ObjectPlace path
  arrays : ∀ path elements, (path, .array elements) ∈ nodes [] doc → ArrayPlace path
  routes : ∀ elements, ([], .array elements) ∈ nodes [] doc →
    elements.countP Json.isObject ≤ 32
  upstreams : ∀ elements, ([.element, .member upstreamsKey], .array elements) ∈ nodes [] doc →
    elements.countP Json.isObject ≤ 16
  references : ∀ elements,
    ([.element, .member authFieldKey, .member apiKeyEnvsKey], .array elements) ∈ nodes [] doc →
      elements.length ≤ 4 ∧ ∀ e ∈ elements, isReference e = true

/-- The members of every `auth` object are known ones. -/
def AuthFieldsKnown (doc : Json) : Prop :=
  ∀ members, ([.element, .member authFieldKey], .object members) ∈ nodes [] doc →
    ∀ m ∈ members, AuthField m.1

/-- The demands on one value. -/
def NodeOk (path : List Step) : Json → Prop
  | .object members => (members.map Prod.fst).Nodup ∧ ObjectPlace path
      ∧ (path = [.element, .member authFieldKey] → ∀ m ∈ members, AuthField m.1)
  | .array elements => ArrayPlace path
      ∧ (path = [] → elements.countP Json.isObject ≤ 32)
      ∧ (path = [.element, .member upstreamsKey] → elements.countP Json.isObject ≤ 16)
      ∧ (path = [.element, .member authFieldKey, .member apiKeyEnvsKey] →
        elements.length ≤ 4 ∧ ∀ e ∈ elements, isReference e = true)
  | _ => True

def NodesOk (path : List Step) (v : Json) : Prop := ∀ n ∈ nodes path v, NodeOk n.1 n.2

theorem nodesOk_array {path : List Step} {elements : List Json} :
    NodesOk path (.array elements)
      ↔ NodeOk path (.array elements) ∧ ∀ e ∈ elements, NodesOk (path ++ [.element]) e := by
  unfold NodesOk
  constructor
  · intro h
    refine ⟨h _ (Json.mem_nodes_array.mpr (.inl rfl)), fun e he n hn => ?_⟩
    exact h n (Json.mem_nodes_array.mpr (.inr ⟨e, he, hn⟩))
  · rintro ⟨hself, hrest⟩ n hn
    rcases Json.mem_nodes_array.mp hn with rfl | ⟨e, he, hmem⟩
    · exact hself
    · exact hrest e he n hmem

theorem nodesOk_object {path : List Step} {members : List (Text × Json)} :
    NodesOk path (.object members) ↔ NodeOk path (.object members)
      ∧ ∀ m ∈ members, NodesOk (path ++ [.member m.1]) m.2 := by
  unfold NodesOk
  constructor
  · intro h
    refine ⟨h _ (Json.mem_nodes_object.mpr (.inl rfl)), fun m hm n hn => ?_⟩
    exact h n (Json.mem_nodes_object.mpr (.inr ⟨m, hm, hn⟩))
  · rintro ⟨hself, hrest⟩ n hn
    rcases Json.mem_nodes_object.mp hn with rfl | ⟨m, hm, hmem⟩
    · exact hself
    · exact hrest m hm n hmem

theorem nodesOk_scalar {v : Json} (h : v.isScalar = true) (path : List Step) : NodesOk path v := by
  intro n hn
  rw [Json.nodes_scalar h, List.mem_singleton] at hn
  subst hn
  cases v with
  | array elements => cases h
  | object members => cases h
  | _ => trivial

/-- Where there is room for no container. -/
theorem nodesOk_nowhere {path : List Step} (ho : ¬ ObjectPlace path) (ha : ¬ ArrayPlace path)
    (v : Json) : NodesOk path v ↔ v.isScalar = true := by
  rcases v.container_or_scalar with ⟨elements, rfl⟩ | ⟨members, rfl⟩ | hv
  · refine iff_of_false (fun h => ha (nodesOk_array.mp h).1.1) ?_
    simp [Json.isScalar, Json.isArray]
  · refine iff_of_false (fun h => ho (nodesOk_object.mp h).1.2.1) ?_
    simp [Json.isScalar, Json.isObject]
  · exact iff_of_true (nodesOk_scalar hv path) hv

theorem isScalar_of_isReference {v : Json} (h : isReference v = true) : v.isScalar = true := by
  cases v with
  | string s => rfl
  | _ => cases h

theorem nodesOk_upstreamEntry (v : Json) :
    NodesOk [.element, .member upstreamsKey, .element] v ↔ UpstreamEntry v := by
  rcases v.container_or_scalar with ⟨elements, rfl⟩ | ⟨members, rfl⟩ | hv
  · refine iff_of_false (fun h => ?_) id
    have := (nodesOk_array.mp h).1.1
    simp [ArrayPlace] at this
  · rw [nodesOk_object]
    have hinner : ∀ m : Text × Json,
        NodesOk ([.element, .member upstreamsKey, .element] ++ [.member m.1]) m.2
          ↔ m.2.isScalar = true :=
      fun m => nodesOk_nowhere (by simp [ObjectPlace]) (by simp [ArrayPlace]) m.2
    simp only [hinner, UpstreamEntry, NodeOk]
    simp [ObjectPlace]
  · exact iff_of_true (nodesOk_scalar hv _) (upstreamEntry_scalar hv)

theorem nodesOk_sectionValue (route name : Text) (v : Json) :
    NodesOk [.element, .member route, .member name] v ↔ SectionValue route name v := by
  rcases v.container_or_scalar with ⟨elements, rfl⟩ | ⟨members, rfl⟩ | hv
  · rw [nodesOk_array]
    have hinner : ∀ e, NodesOk ([.element, .member route, .member name] ++ [.element]) e
        ↔ e.isScalar = true :=
      fun e => nodesOk_nowhere (by simp [ObjectPlace]) (by simp [ArrayPlace]) e
    simp only [hinner, SectionValue, NodeOk]
    constructor
    · rintro ⟨⟨hplace, -, -, hrefs⟩, -⟩
      have hkeys : route = authFieldKey ∧ name = apiKeyEnvsKey := by
        simpa [ArrayPlace] using hplace
      obtain ⟨rfl, rfl⟩ := hkeys
      obtain ⟨hlength, hall⟩ := hrefs rfl
      exact ⟨⟨rfl, rfl⟩, hall, hlength⟩
    · rintro ⟨⟨rfl, rfl⟩, hall, hlength⟩
      refine ⟨⟨.inr (.inr rfl), by simp, by simp, fun _ => ⟨hlength, hall⟩⟩, ?_⟩
      exact fun e he => isScalar_of_isReference (hall e he)
  · refine iff_of_false (fun h => ?_) id
    have := (nodesOk_object.mp h).1.2.1
    simp [ObjectPlace] at this
  · exact iff_of_true (nodesOk_scalar hv _) (sectionValue_scalar hv _ _)

theorem nodesOk_routeValue (name : Text) (v : Json) :
    NodesOk [.element, .member name] v ↔ RouteValue name v := by
  rcases v.container_or_scalar with ⟨elements, rfl⟩ | ⟨members, rfl⟩ | hv
  · rw [nodesOk_array]
    have hplace : ArrayPlace [.element, .member name] ↔ name = upstreamsKey := by
      simp [ArrayPlace]
    simp only [RouteValue, NodeOk, hplace]
    constructor
    · rintro ⟨⟨rfl, -, hcount, -⟩, hall⟩
      exact ⟨rfl, hcount rfl, fun e he => (nodesOk_upstreamEntry e).mp (hall e he)⟩
    · rintro ⟨rfl, hcount, hall⟩
      refine ⟨⟨rfl, by simp, fun _ => hcount, by simp⟩, ?_⟩
      exact fun e he => (nodesOk_upstreamEntry e).mpr (hall e he)
  · rw [nodesOk_object]
    have hplace : ObjectPlace [.element, .member name] ↔ IsSection name := by
      simp [ObjectPlace]
    have hinner : ∀ m : Text × Json, NodesOk ([.element, .member name] ++ [.member m.1]) m.2
        ↔ SectionValue name m.1 m.2 :=
      fun m => nodesOk_sectionValue name m.1 m.2
    simp only [RouteValue, NodeOk, hplace, hinner, List.cons.injEq, Step.member.injEq, and_true,
      true_and]
    constructor
    · rintro ⟨⟨hdistinct, hsection, hauth⟩, hall⟩
      exact ⟨hsection, hdistinct, hauth, hall⟩
    · rintro ⟨hsection, hdistinct, hauth, hall⟩
      exact ⟨⟨hdistinct, hsection, hauth⟩, hall⟩
  · exact iff_of_true (nodesOk_scalar hv _) (routeValue_scalar hv _)

theorem nodesOk_routeEntry (v : Json) : NodesOk [.element] v ↔ RouteEntry v := by
  rcases v.container_or_scalar with ⟨elements, rfl⟩ | ⟨members, rfl⟩ | hv
  · refine iff_of_false (fun h => ?_) id
    have := (nodesOk_array.mp h).1.1
    simp [ArrayPlace] at this
  · rw [nodesOk_object]
    have hinner : ∀ m : Text × Json, NodesOk ([.element] ++ [.member m.1]) m.2
        ↔ RouteValue m.1 m.2 :=
      fun m => nodesOk_routeValue m.1 m.2
    simp only [RouteEntry, NodeOk, hinner]
    simp [ObjectPlace]
  · exact iff_of_true (nodesOk_scalar hv _) (routeEntry_scalar hv)

theorem nodesOk_document (doc : Json) : NodesOk [] doc ↔ Document doc := by
  rcases doc.container_or_scalar with ⟨elements, rfl⟩ | ⟨members, rfl⟩ | hv
  · rw [nodesOk_array]
    have hinner : ∀ e, NodesOk ([] ++ [.element]) e ↔ RouteEntry e := nodesOk_routeEntry
    simp only [Document, NodeOk, hinner]
    simp [ArrayPlace]
  · refine iff_of_false (fun h => ?_) id
    have := (nodesOk_object.mp h).1.2.1
    simp [ObjectPlace] at this
  · exact iff_of_true (nodesOk_scalar hv _) (document_scalar hv)

theorem nodesOk_iff_shape (doc : Json) : NodesOk [] doc ↔ RoutesShape doc ∧ AuthFieldsKnown doc := by
  constructor
  · intro h
    refine ⟨⟨?_, ?_, ?_, ?_, ?_, ?_⟩, ?_⟩
    · exact fun path members hn => (h _ hn).1
    · exact fun path members hn => (h _ hn).2.1
    · exact fun path elements hn => (h _ hn).1
    · exact fun elements hn => (h _ hn).2.1 rfl
    · exact fun elements hn => (h _ hn).2.2.1 rfl
    · exact fun elements hn => (h _ hn).2.2.2 rfl
    · exact fun members hn => (h _ hn).2.2 rfl
  · rintro ⟨hshape, hauth⟩ ⟨path, v⟩ hn
    cases v with
    | object members =>
        refine ⟨hshape.distinct path members hn, hshape.objects path members hn, ?_⟩
        rintro rfl
        exact hauth members hn
    | array elements =>
        refine ⟨hshape.arrays path elements hn, ?_, ?_, ?_⟩
        · rintro rfl
          exact hshape.routes elements hn
        · rintro rfl
          exact hshape.upstreams elements hn
        · rintro rfl
          exact hshape.references elements hn
    | _ => trivial

/-- A document that the callback lets through has the shape of a route document; and one of that
shape is let through if its `auth` objects have only known members. -/
theorem callback_decides_shape (doc : Json) :
    (Passes doc → RoutesShape doc ∧ ∀ members, doc ≠ .object members)
      ∧ (RoutesShape doc → AuthFieldsKnown doc → Passes doc) := by
  refine ⟨fun hpass => ?_, fun hshape hauth => ?_⟩
  · have hdoc := (passes_iff doc).mp hpass
    refine ⟨((nodesOk_iff_shape doc).mp ((nodesOk_document doc).mpr hdoc)).1, ?_⟩
    rintro members rfl
    exact hdoc
  · exact (passes_iff doc).mpr
      ((nodesOk_document doc).mp ((nodesOk_iff_shape doc).mpr ⟨hshape, hauth⟩))

end RoutesCallback

end ApiGate
