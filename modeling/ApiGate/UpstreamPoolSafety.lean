import Mathlib.Data.List.Perm.Basic
import Mathlib.Data.List.Perm.Subperm
import ApiGate.EventLoop.Run
import ApiGate.UpstreamPool

/-!
# Any use of the pool

The pool together with everybody who holds a connection. A connection is held
through a `unique_ptr`, so it is moved into `put` and out of `take`; whoever
holds it may also destroy it. The calls come in any order and at any times, the
cleanup timer fires when it likes, and a socket may become unclean or clean
again at any moment.

All of a connection's places are counted together (`places`): no step adds a
place for a connection that exists (`step_places`), which is the exclusivity of
leases. The log remembers the calls of `put` and the successful calls of `take`.
-/

namespace ApiGate

/-- What the log remembers. -/
inductive PoolCall where
  | put (connection : UpstreamConnection) (now : TimePoint)
  | took (id : Nat)
  deriving DecidableEq

/-- `leases` are the connections held outside the pool, one for each holder; the log has
the newest call first. -/
structure PoolUse where
  pool : UpstreamPool := {}
  leases : List UpstreamConnection := []
  nextConnection : Nat := 0
  log : List PoolCall := []

namespace PoolUse

/-- `holder` is the position of a lease; where there is none, the pointer is null. The argument
`clean` is what the sockets answer during the call, `fails` that the cleanup timer cannot be set. -/
inductive Op where
  | connect (backend : UpstreamConfig) (context : TlsContext)
  | put (holder : Nat) (clean fails : Bool) (now : TimePoint)
  | take (clean : Nat → Bool) (backend : UpstreamConfig) (context : TlsContext) (now : TimePoint)
  | expire (now : TimePoint)
  | stop
  | cleanup (error : Error) (fails : Bool) (now : TimePoint)
  | destroy (holder : Nat)

def step (s : PoolUse) : Op → PoolUse
  | .connect backend context =>
      if backend.scheme = .https && context.isNone then s
      else
        { s with
          leases := ⟨s.nextConnection, backend, context⟩ :: s.leases
          nextConnection := s.nextConnection + 1 }
  | .put holder clean fails now =>
      match s.leases[holder]? with
      | none => s
      | some connection =>
          { s with
            pool := s.pool.put clean fails connection now
            leases := s.leases.eraseIdx holder
            log := .put connection now :: s.log }
  | .take clean backend context now =>
      match s.pool.take clean backend context now with
      | (none, pool) => { s with pool }
      | (some connection, pool) =>
          { s with
            pool
            leases := connection :: s.leases
            log := .took connection.id :: s.log }
  | .expire now => { s with pool := s.pool.expire now }
  | .stop => { s with pool := s.pool.stop }
  | .cleanup error fails now => { s with pool := s.pool.onCleanup error fails now }
  | .destroy holder => { s with leases := s.leases.eraseIdx holder }

def after (s : PoolUse) (ops : List Op) : PoolUse := EventLoop.run (fun op s => s.step op) s ops

end PoolUse

/-! ## The entries -/

namespace UpstreamPool

/-- The connections of the entries, by identity. -/
def idleIds (idle : List (Option IdleConnection)) : List Nat :=
  idle.filterMap fun entry => entry.map (·.connection.id)

@[simp] theorem idleIds_nil : idleIds [] = [] := rfl

@[simp] theorem idleIds_none (idle : List (Option IdleConnection)) :
    idleIds (none :: idle) = idleIds idle := rfl

@[simp] theorem idleIds_some (slot : IdleConnection) (idle : List (Option IdleConnection)) :
    idleIds (some slot :: idle) = slot.connection.id :: idleIds idle := rfl

theorem mem_idleIds {idle : List (Option IdleConnection)} {slot : IdleConnection}
    (h : some slot ∈ idle) : slot.connection.id ∈ idleIds idle :=
  List.mem_filterMap.mpr ⟨some slot, h, rfl⟩

theorem idleIds_cleared (idle : List (Option IdleConnection)) :
    idleIds (idle.map fun _ => none) = [] := by
  induction idle with
  | nil => rfl
  | cons entry rest ih => simpa using ih

theorem idleIds_expired (now : TimePoint) (idle : List (Option IdleConnection)) :
    List.Sublist (idleIds (idle.map (expireEntry now))) (idleIds idle) := by
  induction idle with
  | nil => exact List.Sublist.refl _
  | cons entry rest ih =>
      cases entry with
      | none => exact ih
      | some slot =>
          by_cases h : slot.deadline ≤ now
          · simpa [expireEntry, h] using ih.cons _
          · simpa [expireEntry, h] using ih

theorem mem_expired {now : TimePoint} {idle : List (Option IdleConnection)}
    {slot : IdleConnection} :
    some slot ∈ idle.map (expireEntry now) ↔ some slot ∈ idle ∧ ¬ slot.deadline ≤ now := by
  rw [List.mem_map]
  constructor
  · rintro ⟨entry, hmem, heq⟩
    cases entry with
    | none => cases heq
    | some other =>
        simp only [expireEntry] at heq
        split at heq
        · cases heq
        · rename_i hlive
          cases heq
          exact ⟨hmem, hlive⟩
  · rintro ⟨hmem, hlive⟩
    exact ⟨some slot, hmem, by simp [expireEntry, hlive]⟩

/-! ### The search of `take` -/

section TakeFrom

variable {clean : Nat → Bool} {backend : UpstreamConfig} {context : TlsContext}

theorem takeFrom_length (idle : List (Option IdleConnection)) :
    (takeFrom clean backend context idle).2.length = idle.length := by
  induction idle with
  | nil => rfl
  | cons entry rest ih =>
      cases entry with
      | none => simpa [takeFrom] using ih
      | some slot =>
          simp only [takeFrom]
          split
          · split
            · rfl
            · simpa using ih
          · simpa using ih

/-- What is handed out and what stays are different entries. -/
theorem takeFrom_ids (idle : List (Option IdleConnection)) :
    List.Subperm ((takeFrom clean backend context idle).1.toList.map UpstreamConnection.id
      ++ idleIds (takeFrom clean backend context idle).2) (idleIds idle) := by
  induction idle with
  | nil => exact List.Subperm.refl _
  | cons entry rest ih =>
      cases entry with
      | none => exact ih
      | some slot =>
          simp only [takeFrom, idleIds_some]
          split
          · split
            · exact List.Subperm.refl _
            · exact ih.trans (List.sublist_cons_self _ _).subperm
          · exact List.perm_middle.subperm.trans ((List.subperm_cons _).mpr ih)

theorem takeFrom_kept {idle : List (Option IdleConnection)} {slot : IdleConnection}
    (h : some slot ∈ (takeFrom clean backend context idle).2) : some slot ∈ idle := by
  induction idle with
  | nil => exact h
  | cons entry rest ih =>
      cases entry with
      | none => simpa using ih (by simpa [takeFrom] using h)
      | some other =>
          simp only [takeFrom] at h
          split at h
          · split at h
            · simp only [List.mem_cons, reduceCtorEq, false_or] at h
              exact List.mem_cons_of_mem _ h
            · simp only [List.mem_cons, reduceCtorEq, false_or] at h
              exact List.mem_cons_of_mem _ (ih h)
          · rcases List.mem_cons.mp h with heq | hrest
            · exact heq ▸ List.mem_cons_self ..
            · exact List.mem_cons_of_mem _ (ih hrest)

theorem takeFrom_sound {idle : List (Option IdleConnection)} {connection : UpstreamConnection}
    (h : (takeFrom clean backend context idle).1 = some connection) :
    ∃ slot, some slot ∈ idle ∧ slot.connection = connection
      ∧ connection.matches backend context = true ∧ clean connection.id = true := by
  induction idle with
  | nil => cases h
  | cons entry rest ih =>
      have hlater : (takeFrom clean backend context rest).1 = some connection →
          ∃ slot, some slot ∈ entry :: rest ∧ slot.connection = connection
            ∧ connection.matches backend context = true ∧ clean connection.id = true := by
        intro hrest
        obtain ⟨slot, hmem, hslot⟩ := ih hrest
        exact ⟨slot, List.mem_cons_of_mem _ hmem, hslot⟩
      cases entry with
      | none => exact hlater h
      | some slot =>
          simp only [takeFrom] at h
          split at h
          · rename_i hmatches
            split at h
            · rename_i hclean
              cases h
              exact ⟨slot, List.mem_cons_self .., rfl, hmatches, hclean⟩
            · exact hlater h
          · exact hlater h

theorem takeFrom_complete {idle : List (Option IdleConnection)} {slot : IdleConnection}
    (hmem : some slot ∈ idle) (hmatches : slot.connection.matches backend context = true)
    (hclean : clean slot.connection.id = true) :
    (takeFrom clean backend context idle).1.isSome = true := by
  induction idle with
  | nil => cases hmem
  | cons entry rest ih =>
      cases entry with
      | none => exact ih (by simpa using hmem)
      | some other =>
          simp only [takeFrom]
          rcases List.mem_cons.mp hmem with heq | hrest
          · cases heq
            simp [hmatches, hclean]
          · split
            · split
              · rfl
              · exact ih hrest
            · exact ih hrest

end TakeFrom

/-! ### The free entry of `put` -/

theorem fillFirst_spec {slot : IdleConnection} {idle idle' : List (Option IdleConnection)}
    (h : fillFirst slot idle = some idle') :
    idle'.length = idle.length
      ∧ List.Perm (idleIds idle') (slot.connection.id :: idleIds idle)
      ∧ ∀ other, some other ∈ idle' → other = slot ∨ some other ∈ idle := by
  induction idle generalizing idle' with
  | nil => cases h
  | cons entry rest ih =>
      cases entry with
      | none =>
          cases h
          refine ⟨rfl, List.Perm.refl _, ?_⟩
          intro other hmem
          rcases List.mem_cons.mp hmem with heq | hrest
          · exact .inl (Option.some.inj heq)
          · exact .inr (List.mem_cons_of_mem _ hrest)
      | some first =>
          simp only [fillFirst, Option.map_eq_some_iff] at h
          obtain ⟨rest', hrest, rfl⟩ := h
          obtain ⟨hlength, hids, hentries⟩ := ih hrest
          refine ⟨by simp [hlength], ?_, ?_⟩
          · exact (hids.cons _).trans (List.Perm.swap _ _ _)
          · intro other hmem
            rcases List.mem_cons.mp hmem with heq | hmem'
            · exact .inr (heq ▸ List.mem_cons_self ..)
            · exact (hentries other hmem').imp id (List.mem_cons_of_mem _)

/-! ## The operations

`Moves added p p'`: the entries of `p'` are entries of `p`, each at most once, and perhaps the
added one. -/

structure Moves (added : Option IdleConnection) (p p' : UpstreamPool) : Prop where
  length : p'.idle.length = p.idle.length
  ids : List.Subperm (idleIds p'.idle) (idleIds (added :: p.idle))
  entries : ∀ slot, some slot ∈ p'.idle → some slot ∈ added :: p.idle

namespace Moves

variable {added : Option IdleConnection} {p p' p'' : UpstreamPool}

theorem refl (p : UpstreamPool) : Moves none p p :=
  ⟨rfl, List.Subperm.refl _, fun _ h => List.mem_cons_of_mem _ h⟩

theorem widen (h : Moves none p p') : Moves added p p' where
  length := h.length
  ids := by
    refine h.ids.trans ?_
    cases added with
    | none => exact List.Subperm.refl _
    | some slot => exact List.Subperm.cons_self
  entries slot hmem := by
    have hold := h.entries slot hmem
    simp only [List.mem_cons, reduceCtorEq, false_or] at hold
    exact List.mem_cons_of_mem _ hold

theorem idsMono {a b : List (Option IdleConnection)}
    (h : List.Subperm (idleIds a) (idleIds b)) :
    List.Subperm (idleIds (added :: a)) (idleIds (added :: b)) := by
  cases added with
  | none => exact h
  | some slot => exact (List.subperm_cons _).mpr h

theorem after (h : Moves none p p') (h' : Moves added p' p'') : Moves added p p'' where
  length := h'.length.trans h.length
  ids := h'.ids.trans (idsMono h.ids)
  entries slot hmem := by
    rcases List.mem_cons.mp (h'.entries slot hmem) with heq | hold
    · exact heq ▸ List.mem_cons_self ..
    · have hold' := h.entries slot hold
      simp only [List.mem_cons, reduceCtorEq, false_or] at hold'
      exact List.mem_cons_of_mem _ hold'

theorem before (h : Moves added p p') (h' : Moves none p' p'') : Moves added p p'' where
  length := h'.length.trans h.length
  ids := h'.ids.trans h.ids
  entries slot hmem := by
    have hold := h'.entries slot hmem
    simp only [List.mem_cons, reduceCtorEq, false_or] at hold
    exact h.entries slot hold

end Moves

theorem expire_moves (p : UpstreamPool) (now : TimePoint) : Moves none p (p.expire now) where
  length := List.length_map _
  ids := (idleIds_expired now p.idle).subperm
  entries _ hmem := List.mem_cons_of_mem _ (mem_expired.mp hmem).1

theorem stop_moves (p : UpstreamPool) : Moves none p p.stop := by
  unfold stop
  split
  · exact .refl p
  · refine ⟨List.length_map _, ?_, ?_⟩
    · rw [show idleIds (p.idle.map fun _ => none) = [] from idleIds_cleared p.idle]
      exact List.nil_subperm
    · intro slot hmem
      simp at hmem

/-- Arming the timer does not touch the entries, whether it throws or not. -/
theorem armCleanup_frame (p : UpstreamPool) (fails : Bool) :
    (p.armCleanup fails).2.idle = p.idle ∧ (p.armCleanup fails).2.stopped = p.stopped := by
  unfold armCleanup
  split
  · exact ⟨rfl, rfl⟩
  · split
    · exact ⟨rfl, rfl⟩
    · split
      · exact ⟨rfl, rfl⟩
      · exact ⟨rfl, rfl⟩

theorem Moves.of_idle_eq {p p' : UpstreamPool} (h : p'.idle = p.idle) : Moves none p p' where
  length := by rw [h]
  ids := by
    rw [h]
    exact List.Subperm.refl _
  entries _ hmem := List.mem_cons_of_mem _ (h ▸ hmem)

theorem onCleanup_moves (p : UpstreamPool) (error : Error) (fails : Bool) (now : TimePoint) :
    Moves none p (p.onCleanup error fails now) := by
  unfold onCleanup
  split
  · exact .refl p
  · have hcleared : Moves none p { p with timerPending := false } := .of_idle_eq rfl
    dsimp only
    split
    · split
      · exact hcleared.after (stop_moves _)
      · exact hcleared
    · have harm : Moves none p
          (armCleanup (UpstreamPool.expire { p with timerPending := false } now) fails).2 :=
        (hcleared.after (expire_moves _ now)).after (.of_idle_eq (armCleanup_frame _ fails).1)
      split
      · rename_i heq
        rw [heq] at harm
        exact harm
      · rename_i heq
        rw [heq] at harm
        exact harm.after (stop_moves _)

theorem put_moves (p : UpstreamPool) (clean fails : Bool) (connection : UpstreamConnection)
    (now : TimePoint) :
    Moves (some ⟨connection, saturatingDeadline now⟩) p (p.put clean fails connection now) := by
  unfold put
  split
  · exact (Moves.refl p).widen
  · dsimp only
    split
    · exact (expire_moves p now).widen
    · rename_i idle hfill
      obtain ⟨hlength, hids, hentries⟩ := fillFirst_spec hfill
      have hadded : Moves (some ⟨connection, saturatingDeadline now⟩) (p.expire now)
          { p.expire now with idle } :=
        ⟨hlength, hids.subperm, fun slot hmem => by
          rcases hentries slot hmem with heq | hold
          · exact heq ▸ List.mem_cons_self ..
          · exact List.mem_cons_of_mem _ hold⟩
      have harm := ((expire_moves p now).after hadded).before
        (.of_idle_eq (armCleanup_frame { p.expire now with idle } fails).1)
      split
      · rename_i heq
        rw [heq] at harm
        exact harm
      · rename_i heq
        rw [heq] at harm
        exact harm.before (stop_moves _)

section Take

variable (p : UpstreamPool) (clean : Nat → Bool) (backend : UpstreamConfig) (context : TlsContext)
  (now : TimePoint)

theorem take_moves : Moves none p (p.take clean backend context now).2 := by
  unfold take
  split
  · exact .refl p
  · refine (expire_moves p now).after ⟨?_, ?_, ?_⟩
    · exact takeFrom_length _
    · exact (List.sublist_append_right _ _).subperm.trans (takeFrom_ids _)
    · intro slot hmem
      exact List.mem_cons_of_mem _ (takeFrom_kept hmem)

/-- The connection that is handed out leaves the entries. -/
theorem take_ids : List.Subperm ((p.take clean backend context now).1.toList.map UpstreamConnection.id
      ++ idleIds (p.take clean backend context now).2.idle) (idleIds p.idle) := by
  unfold take
  split
  · exact List.Subperm.refl _
  · exact (takeFrom_ids _).trans (idleIds_expired now p.idle).subperm

/-- An entry that `take` may hand out. -/
def Usable (slot : IdleConnection) : Prop :=
  some slot ∈ p.idle
    ∧ (slot.connection.backend.host = backend.host ∧ slot.connection.backend.port = backend.port
      ∧ slot.connection.backend.scheme = backend.scheme ∧ slot.connection.context = context)
    ∧ now < slot.deadline ∧ clean slot.connection.id = true

theorem matches_iff (connection : UpstreamConnection) :
    connection.matches backend context = true
      ↔ connection.backend.host = backend.host ∧ connection.backend.port = backend.port
        ∧ connection.backend.scheme = backend.scheme ∧ connection.context = context := by
  simp [UpstreamConnection.matches, and_assoc]

theorem take_sound {connection : UpstreamConnection}
    (h : (p.take clean backend context now).1 = some connection) :
    ∃ slot, p.Usable clean backend context now slot ∧ slot.connection = connection := by
  unfold take at h
  split at h
  · cases h
  · obtain ⟨slot, hmem, rfl, hmatches, hclean⟩ := takeFrom_sound h
    obtain ⟨hold, hlive⟩ := mem_expired.mp hmem
    exact ⟨slot, ⟨hold, (matches_iff backend context _).mp hmatches, Int64.not_le.mp hlive, hclean⟩,
      rfl⟩

theorem take_complete (hstopped : p.stopped = false) {slot : IdleConnection}
    (h : p.Usable clean backend context now slot) :
    (p.take clean backend context now).1.isSome = true := by
  obtain ⟨hmem, hmatches, hlive, hclean⟩ := h
  unfold take
  rw [hstopped]
  exact takeFrom_complete (mem_expired.mpr ⟨hmem, Int64.not_le.mpr hlive⟩)
    ((matches_iff backend context _).mpr hmatches) hclean

end Take

/-! ### A stopped pool -/

/-- The pool has no entry. -/
def Empty (p : UpstreamPool) : Prop := ∀ slot, some slot ∉ p.idle

theorem Moves.empty {p p' : UpstreamPool} (h : Moves none p p') (hp : p.Empty) : p'.Empty := by
  intro slot hmem
  have hold := h.entries slot hmem
  simp only [List.mem_cons, reduceCtorEq, false_or] at hold
  exact hp slot hold

/-- A stopped pool has no entry. -/
def Halted (p : UpstreamPool) : Prop := p.stopped = true → p.Empty

theorem halted_of_running {p : UpstreamPool} (h : ¬ p.stopped = true) : p.Halted :=
  fun hstopped => absurd hstopped h

theorem stop_stopped (p : UpstreamPool) : p.stop.stopped = true := by
  unfold stop
  split
  · assumption
  · rfl

theorem stop_halted {p : UpstreamPool} (h : p.Halted) : p.stop.Halted := by
  intro _
  unfold stop
  split
  · rename_i hstopped
    exact h hstopped
  · intro slot hmem
    simp at hmem

theorem expire_halted {p : UpstreamPool} (h : p.Halted) (now : TimePoint) :
    (p.expire now).Halted :=
  fun hstopped => (expire_moves p now).empty (h hstopped)

/-- The timer is armed while the pool runs; if that throws, the pool is stopped. -/
theorem armed_halted {p : UpstreamPool} (h : ¬ p.stopped = true) (fails : Bool) :
    ((p.armCleanup fails).2).Halted ∧ ((p.armCleanup fails).2.stop).Halted := by
  have hrunning : ¬ (p.armCleanup fails).2.stopped = true := by
    rw [(armCleanup_frame p fails).2]
    exact h
  exact ⟨halted_of_running hrunning, stop_halted (halted_of_running hrunning)⟩

theorem put_stopped {p : UpstreamPool} (h : p.stopped = true) (clean fails : Bool)
    (connection : UpstreamConnection) (now : TimePoint) :
    p.put clean fails connection now = p := by
  simp [put, h]

theorem put_halted {p : UpstreamPool} (h : p.Halted) (clean fails : Bool)
    (connection : UpstreamConnection) (now : TimePoint) :
    (p.put clean fails connection now).Halted := by
  unfold put
  split
  · exact h
  · rename_i hguard
    have hrunning : ¬ p.stopped = true := fun hstopped => hguard (by simp [hstopped])
    dsimp only
    split
    · exact expire_halted h now
    · rename_i idle _
      have harm := armed_halted (p := { p.expire now with idle }) hrunning fails
      split
      · rename_i heq
        rw [heq] at harm
        exact harm.1
      · rename_i heq
        rw [heq] at harm
        exact harm.2

theorem take_stopped {p : UpstreamPool} (h : p.stopped = true) (clean : Nat → Bool)
    (backend : UpstreamConfig) (context : TlsContext) (now : TimePoint) :
    p.take clean backend context now = (none, p) := by
  simp [take, h]

theorem take_keeps_stopped (p : UpstreamPool) (clean : Nat → Bool) (backend : UpstreamConfig)
    (context : TlsContext) (now : TimePoint) :
    (p.take clean backend context now).2.stopped = p.stopped := by
  unfold take
  split
  · rfl
  · rfl

theorem onCleanup_stopped {p : UpstreamPool} (h : p.stopped = true) (error : Error)
    (fails : Bool) (now : TimePoint) : p.onCleanup error fails now = p := by
  simp [onCleanup, h]

theorem onCleanup_halted {p : UpstreamPool} (h : p.Halted) (error : Error) (fails : Bool)
    (now : TimePoint) : (p.onCleanup error fails now).Halted := by
  unfold onCleanup
  split
  · exact h
  · rename_i hrunning
    dsimp only
    split
    · split
      · exact stop_halted (halted_of_running hrunning)
      · exact halted_of_running hrunning
    · have harm := armed_halted
        (p := UpstreamPool.expire { p with timerPending := false } now) hrunning fails
      split
      · rename_i heq
        rw [heq] at harm
        exact harm.1
      · rename_i heq
        rw [heq] at harm
        exact harm.2

end UpstreamPool

/-! ## Runs -/

namespace PoolUse

open UpstreamPool

/-- Everywhere a connection is: idle or held. -/
def places (s : PoolUse) : List Nat := idleIds s.pool.idle ++ s.leases.map UpstreamConnection.id

/-- The connection was put at such a time that its entry expires at `deadline`, and `take` has not
handed it out since. -/
def Stored (log : List PoolCall) (slot : IdleConnection) : Prop :=
  ∃ later earlier now, log = later ++ .put slot.connection now :: earlier
    ∧ PoolCall.took slot.connection.id ∉ later ∧ slot.deadline = saturatingDeadline now

structure Inv (s : PoolUse) : Prop where
  length : s.pool.idle.length = 32
  nodup : s.places.Nodup
  known : ∀ id ∈ s.places, id < s.nextConnection
  stored : ∀ slot, some slot ∈ s.pool.idle → Stored s.log slot
  halted : s.pool.Halted

theorem Stored.cons {log : List PoolCall} {slot : IdleConnection} (h : Stored log slot)
    {call : PoolCall} (hcall : call ≠ .took slot.connection.id) : Stored (call :: log) slot := by
  obtain ⟨later, earlier, now, rfl, hlater, hdeadline⟩ := h
  refine ⟨call :: later, earlier, now, rfl, ?_, hdeadline⟩
  rw [List.mem_cons]
  rintro (heq | hmem)
  · exact hcall heq.symm
  · exact hlater hmem

theorem nodup_of_subperm {a b : List Nat} (h : List.Subperm a b) (hb : b.Nodup) : a.Nodup := by
  obtain ⟨l, hperm, hsub⟩ := h
  exact hperm.nodup_iff.mp (hsub.nodup hb)

/-- A step that gives no connection a new place. -/
theorem Inv.of_places {s s' : PoolUse} (h : s.Inv) (hlength : s'.pool.idle.length = 32)
    (hplaces : List.Subperm s'.places s.places) (hnext : s.nextConnection ≤ s'.nextConnection)
    (hstored : ∀ slot, some slot ∈ s'.pool.idle → Stored s'.log slot) (hhalted : s'.pool.Halted) :
    s'.Inv where
  length := hlength
  nodup := nodup_of_subperm hplaces h.nodup
  known id hid := Nat.lt_of_lt_of_le (h.known id (hplaces.subset hid)) hnext
  stored := hstored
  halted := hhalted

/-- A step that only drops entries of the pool. -/
theorem Inv.of_moves {s : PoolUse} (h : s.Inv) {pool : UpstreamPool}
    (hmoves : Moves none s.pool pool) (hhalted : pool.Halted) : Inv { s with pool } := by
  refine h.of_places (hmoves.length.trans h.length) ?_ (Nat.le_refl _) ?_ hhalted
  · exact (List.subperm_append_right _).mpr hmoves.ids
  · intro slot hmem
    have hold := hmoves.entries slot hmem
    simp only [List.mem_cons, reduceCtorEq, false_or] at hold
    exact h.stored slot hold

theorem Inv.connect {s : PoolUse} (h : s.Inv) (backend : UpstreamConfig) (context : TlsContext) :
    Inv (s.step (.connect backend context)) := by
  simp only [step]
  split
  · exact h
  · have hfresh : s.nextConnection ∉ s.places :=
      fun hmem => absurd (h.known _ hmem) (Nat.lt_irrefl _)
    have hperm : List.Perm
        (idleIds s.pool.idle ++ s.nextConnection :: s.leases.map UpstreamConnection.id)
        (s.nextConnection :: s.places) := List.perm_middle
    refine ⟨h.length, ?_, ?_, h.stored, h.halted⟩
    · exact hperm.nodup_iff.mpr (List.nodup_cons.mpr ⟨hfresh, h.nodup⟩)
    · intro id hid
      rcases List.mem_cons.mp (hperm.mem_iff.mp hid) with rfl | hold
      · exact Nat.lt_succ_self _
      · exact Nat.lt_succ_of_lt (h.known id hold)

/-- The holder's place becomes the entry's. -/
theorem put_places {s : PoolUse} {ids : List Nat} {holder : Nat} {connection : UpstreamConnection}
    (hids : List.Subperm ids (connection.id :: idleIds s.pool.idle))
    (hlease : s.leases[holder]? = some connection) :
    List.Subperm (ids ++ (s.leases.eraseIdx holder).map UpstreamConnection.id) s.places := by
  obtain ⟨hlt, rfl⟩ := List.getElem?_eq_some_iff.mp hlease
  have hleases := (List.getElem_cons_eraseIdx_perm hlt).map UpstreamConnection.id
  refine ((List.subperm_append_right _).mpr hids).trans ?_
  exact (List.perm_middle.symm.trans (hleases.append_left _)).subperm

theorem Inv.put {s : PoolUse} (h : s.Inv) (holder : Nat) (clean fails : Bool) (now : TimePoint) :
    Inv (s.step (.put holder clean fails now)) := by
  simp only [step]
  split
  · exact h
  · rename_i connection hlease
    have hmoves := put_moves s.pool clean fails connection now
    refine h.of_places (hmoves.length.trans h.length) ?_ (Nat.le_refl _) ?_ (put_halted h.halted _ _ _ _)
    · exact put_places hmoves.ids hlease
    · intro slot hmem
      rcases List.mem_cons.mp (hmoves.entries slot hmem) with heq | hold
      · cases heq
        exact ⟨[], s.log, now, rfl, List.not_mem_nil, rfl⟩
      · exact (h.stored slot hold).cons (by simp)

theorem Inv.take {s : PoolUse} (h : s.Inv) (clean : Nat → Bool) (backend : UpstreamConfig)
    (context : TlsContext) (now : TimePoint) :
    Inv (s.step (.take clean backend context now)) := by
  have hmoves := take_moves s.pool clean backend context now
  have hids := take_ids s.pool clean backend context now
  have hhalted : (s.pool.take clean backend context now).2.Halted := by
    intro hstopped
    rw [take_keeps_stopped] at hstopped
    exact hmoves.empty (h.halted hstopped)
  simp only [step]
  split
  · rename_i heq
    rw [heq] at hmoves hhalted
    exact h.of_moves hmoves hhalted
  · rename_i connection pool heq
    rw [heq] at hmoves hhalted hids
    have hplaces : List.Subperm
        (idleIds pool.idle ++ connection.id :: s.leases.map UpstreamConnection.id) s.places :=
      List.perm_middle.subperm.trans ((List.subperm_append_right _).mpr hids)
    refine h.of_places (hmoves.length.trans h.length) hplaces (Nat.le_refl _) ?_ hhalted
    intro slot hmem
    have hold := hmoves.entries slot hmem
    simp only [List.mem_cons, reduceCtorEq, false_or] at hold
    refine (h.stored slot hold).cons ?_
    -- the connection handed out is not among the entries that stay
    intro htook
    have hsame : connection.id = slot.connection.id := PoolCall.took.inj htook
    have hnodup := List.perm_middle.nodup_iff.mp (nodup_of_subperm hplaces h.nodup)
    exact (List.nodup_cons.mp hnodup).1
      (List.mem_append_left _ (hsame ▸ mem_idleIds hmem))

theorem Inv.destroy {s : PoolUse} (h : s.Inv) (holder : Nat) : Inv (s.step (.destroy holder)) := by
  refine h.of_places h.length ?_ (Nat.le_refl _) h.stored h.halted
  exact (((List.eraseIdx_sublist s.leases holder).map _).append_left _).subperm

theorem Inv.step {s : PoolUse} (h : s.Inv) (op : Op) : Inv (s.step op) := by
  cases op with
  | connect backend context => exact h.connect backend context
  | put holder clean fails now => exact h.put holder clean fails now
  | take clean backend context now => exact h.take clean backend context now
  | expire now => exact h.of_moves (expire_moves _ now) (expire_halted h.halted now)
  | stop => exact h.of_moves (stop_moves _) (stop_halted h.halted)
  | cleanup error fails now =>
      exact h.of_moves (onCleanup_moves _ error fails now) (onCleanup_halted h.halted _ _ _)
  | destroy holder => exact h.destroy holder

theorem inv_init : Inv {} where
  length := rfl
  nodup := List.nodup_nil
  known := by
    intro id hid
    simp [places, idleIds] at hid
  stored := by
    intro slot hmem
    simp at hmem
  halted hstopped := by cases hstopped

theorem inv_after (ops : List Op) : Inv (after {} ops) :=
  EventLoop.run_invariant_all Inv (fun op _ h => h.step op) inv_init ops

/-- What the pool is once stopped. -/
theorem stopped_after {s : PoolUse} (h : s.pool.stopped = true) (ops : List Op) :
    (s.after ops).pool.stopped = true := by
  refine EventLoop.run_invariant_all (fun s : PoolUse => s.pool.stopped = true) ?_ h ops
  intro op s hs
  cases op with
  | connect backend context =>
      simp only [PoolUse.step]
      split <;> exact hs
  | put holder clean fails now =>
      simp only [PoolUse.step]
      split
      · exact hs
      · simpa [put_stopped hs] using hs
  | take clean backend context now => simpa [PoolUse.step, take_stopped hs] using hs
  | expire now => exact hs
  | stop => exact stop_stopped s.pool
  | cleanup error fails now => simpa [PoolUse.step, onCleanup_stopped hs] using hs
  | destroy holder => exact hs

theorem idleCount_le (p : UpstreamPool) : p.idleCount ≤ p.idle.length := List.countP_le_length

/-- Once stopped, whatever happens. -/
theorem stopped_forever {s : PoolUse} (hs : s.Inv) (h : s.pool.stopped = true) (more : List Op) :
    (s.after more).pool.Empty
      ∧ (∀ clean backend context now,
        (s.after more).pool.take clean backend context now = (none, (s.after more).pool))
      ∧ (∀ clean fails connection now,
        (s.after more).pool.put clean fails connection now = (s.after more).pool) := by
  have hstopped := stopped_after h more
  have hinv : (s.after more).Inv :=
    EventLoop.run_invariant_all Inv (fun op _ h => h.step op) hs more
  exact ⟨hinv.halted hstopped, fun _ _ _ _ => take_stopped hstopped _ _ _ _,
    fun _ _ _ _ => put_stopped hstopped _ _ _ _⟩

/-- After any sequence of calls: at most 32 entries; nothing is in two places; `take` hands out
only what was put, not taken since, fits, has not expired and is clean, and it does so if there is
such an entry; and a stopped pool stays empty. -/
theorem idle_pool_invariant (ops : List Op) :
    (after {} ops).pool.idleCount ≤ 32
      ∧ (after {} ops).places.Nodup
      ∧ (∀ clean backend context now connection,
        ((after {} ops).pool.take clean backend context now).1 = some connection →
          ∃ slot, (after {} ops).pool.Usable clean backend context now slot
            ∧ slot.connection = connection ∧ Stored (after {} ops).log slot)
      ∧ (∀ clean backend context now slot, (after {} ops).pool.stopped = false →
        (after {} ops).pool.Usable clean backend context now slot →
          ((after {} ops).pool.take clean backend context now).1.isSome = true)
      ∧ ((after {} ops).step .stop).pool.stopped = true
      ∧ ((after {} ops).pool.stopped = true → ∀ more,
        ((after {} ops).after more).pool.Empty
          ∧ (∀ clean backend context now,
            ((after {} ops).after more).pool.take clean backend context now
              = (none, ((after {} ops).after more).pool))
          ∧ (∀ clean fails connection now,
            ((after {} ops).after more).pool.put clean fails connection now
              = ((after {} ops).after more).pool)) := by
  have hinv := inv_after ops
  refine ⟨?_, hinv.nodup, ?_, ?_, stop_stopped _, stopped_forever hinv⟩
  · have hle := idleCount_le (after {} ops).pool
    rw [hinv.length] at hle
    exact hle
  · intro clean backend context now connection htake
    obtain ⟨slot, husable, hslot⟩ := take_sound _ _ _ _ _ htake
    exact ⟨slot, husable, hslot, hinv.stored slot husable.1⟩
  · intro clean backend context now slot hrunning husable
    exact take_complete _ _ _ _ _ hrunning husable

end PoolUse

end ApiGate
