import ApiGate.Estate
import ApiGate.UpstreamPoolSafety

/-!
# Every connection has one owner

The sessions use the pool in one of the ways of `PoolUse`: `Leased` ties a state of the
gateway to a use whose leases are the connections of the exchanges that have not put
theirs. So what holds of every use of the pool holds of the gateway. What the pool cannot
know is where the connections lead; that is carried along the same steps (`Bound`).
-/

namespace ApiGate

open EventLoop Act UpstreamPool

namespace Estate

/-- The exchange has not put its connection: it still uses it, or has closed it and counts
as its owner for good. -/
def Owns (e : Estate) (p : Nat × Nat) : Prop :=
  p.2 < e.nextExchange p.1 ∧ (e.holder p.1 p.2).lease ≠ .pooled

def connection (e : Estate) (p : Nat × Nat) : UpstreamConnection := (e.holder p.1 p.2).connection

/-- The state is that of a use of the pool with these owners, each of one lease. -/
structure Leased (use : PoolUse) (owners : List (Nat × Nat)) (e : Estate) : Prop where
  pool : use.pool = e.pool
  next : use.nextConnection = e.nextConnection
  nodup : owners.Nodup
  mem : ∀ p, p ∈ owners ↔ e.Owns p
  leases : use.leases = owners.map e.connection

/-- Such a use and such owners, after some calls on an empty pool. -/
def PoolUsed (e : Estate) : Prop :=
  ∃ ops owners, Leased (PoolUse.after {} ops) owners e

variable {g : Setup} {e : Estate} {use : PoolUse} {owners : List (Nat × Nat)} {i k : Nat}
  {c : Custody}

/-! ## One move -/

/-- Nothing changes but what nobody looks at here. -/
theorem Leased.same (h : Leased use owners e) {e' : Estate} (hpool : e'.pool = e.pool)
    (hnext : e'.nextConnection = e.nextConnection) (hexchanges : e'.nextExchange = e.nextExchange)
    (hlease : ∀ i k, (e'.holder i k).lease = .pooled ↔ (e.holder i k).lease = .pooled)
    (hconnection : ∀ i k, (e'.holder i k).connection = (e.holder i k).connection) :
    Leased use owners e' where
  pool := h.pool.trans hpool.symm
  next := h.next.trans hnext.symm
  nodup := h.nodup
  mem p := by
    rw [h.mem]
    unfold Owns
    rw [hexchanges, ne_eq, ne_eq, hlease]
  leases := by
    rw [h.leases]
    exact List.map_congr_left fun p _ => (hconnection p.1 p.2).symm

/-- A call that hands nothing out and takes nothing in. -/
theorem Leased.call (h : Leased use owners e) (op : PoolUse.Op) {pool : UpstreamPool}
    (hop : use.step op = { use with pool }) : Leased (use.step op) owners { e with pool } := by
  rw [hop]
  exact { h with pool := rfl }

theorem holder_put (i : Nat) (c : Custody) (e : Estate) (j l : Nat) :
    (e.put i c).holder j l = if j = i then c.holder l else e.holder j l := by
  by_cases hji : j = i
  · subst hji
    rw [put_holder_same, if_pos rfl]
  · rw [put_holder_ne hji, if_neg hji]

/-- Exchange `k` of session `i` looks different. -/
theorem holder_put_update (i k : Nat) (x : Holder) (c : Custody) (e : Estate)
    (hc : c.holder = Function.update (e.holder i) k x) (j l : Nat) :
    (e.put i c).holder j l = if (j, l) = (i, k) then x else e.holder j l := by
  rw [holder_put, hc]
  by_cases hji : j = i
  · subst hji
    by_cases hlk : l = k
    · subst hlk
      simp
    · simp [hlk]
  · simp [hji]

theorem close_pooled (x : Holder) : x.close.lease = .pooled ↔ x.lease = .pooled := by
  unfold Holder.close
  split
  · rename_i hheld
    simp [hheld]
  · exact Iff.rfl

theorem close_connection (x : Holder) : x.close.connection = x.connection := by
  unfold Holder.close
  split <;> rfl

theorem Leased.close (h : Leased use owners e) (i k : Nat) :
    Leased use owners (e.put i { e.focus i with
      holder := Function.update (e.holder i) k (e.holder i k).close }) := by
  have hholder := holder_put_update i k (e.holder i k).close { e.focus i with
    holder := Function.update (e.holder i) k (e.holder i k).close } e rfl
  refine h.same rfl rfl (by simp [put, focus]) (fun j l => ?_) fun j l => ?_
  · rw [hholder]
    split
    · rename_i heq
      cases heq
      exact close_pooled _
    · exact Iff.rfl
  · rw [hholder]
    split
    · rename_i heq
      cases heq
      exact close_connection _
    · rfl

/-- The owner hands its lease over. -/
theorem Leased.put (h : Leased use owners e) (clean fails : Bool) (hk : k < e.nextExchange i)
    (hheld : (e.holder i k).lease = .held) :
    ∃ holder, Leased (use.step (.put holder clean fails e.now)) (owners.erase (i, k))
      (e.put i { e.focus i with
        holder := Function.update (e.holder i) k { e.holder i k with lease := .pooled }
        pool := e.pool.put clean fails (e.holder i k).connection e.now }) := by
  have howns : (i, k) ∈ owners := (h.mem (i, k)).mpr ⟨hk, by rw [hheld]; simp⟩
  have hlt := List.idxOf_lt_length_of_mem howns
  have hlease : use.leases[owners.idxOf (i, k)]? = some (e.holder i k).connection := by
    rw [h.leases, List.getElem?_map, List.getElem?_eq_getElem hlt, List.getElem_idxOf hlt]
    rfl
  have hstep : use.step (.put (owners.idxOf (i, k)) clean fails e.now)
      = { use with
          pool := use.pool.put clean fails (e.holder i k).connection e.now
          leases := use.leases.eraseIdx (owners.idxOf (i, k))
          log := .put (e.holder i k).connection e.now :: use.log } := by
    simp only [PoolUse.step, hlease]
  have hholder := holder_put_update i k { e.holder i k with lease := .pooled } { e.focus i with
    holder := Function.update (e.holder i) k { e.holder i k with lease := .pooled }
    pool := e.pool.put clean fails (e.holder i k).connection e.now } e rfl
  refine ⟨owners.idxOf (i, k), ?_⟩
  rw [hstep]
  refine ⟨congrArg (fun p => p.put clean fails (e.holder i k).connection e.now) h.pool, h.next,
    h.nodup.erase _, fun p => ?_, ?_⟩
  · rw [h.nodup.mem_erase_iff, h.mem]
    unfold Owns
    rw [hholder]
    have hnext : (e.put i { e.focus i with
        holder := Function.update (e.holder i) k { e.holder i k with lease := .pooled }
        pool := e.pool.put clean fails (e.holder i k).connection e.now }).nextExchange
          = e.nextExchange := by simp [Estate.put, focus]
    rw [hnext]
    by_cases hp : p = (i, k)
    · subst hp
      simp
    · simp [hp]
  · have herase : owners.erase (i, k) = owners.eraseIdx (owners.idxOf (i, k)) :=
      List.erase_eq_eraseIdx_of_idxOf rfl
    rw [h.leases, herase, List.eraseIdx_map]
    refine List.map_congr_left fun p hp => ?_
    rw [← herase, h.nodup.mem_erase_iff] at hp
    show _ = ((e.put i _).holder p.1 p.2).connection
    rw [hholder, if_neg hp.1]
    rfl

/-- A new exchange, with its connection in the first place. -/
theorem Leased.make (h : Leased use owners e) (i : Nat) (x : Holder) (hheld : x.lease = .held)
    {pool : UpstreamPool} {n : Nat} {log : List PoolCall} :
    Leased { pool, leases := x.connection :: use.leases, nextConnection := n, log }
      ((i, e.nextExchange i) :: owners)
      (e.put i { e.focus i with
        pool, nextConnection := n, nextExchange := e.nextExchange i + 1
        holder := Function.update (e.holder i) (e.nextExchange i) x }) := by
  have hholder := holder_put_update i (e.nextExchange i) x { e.focus i with
    pool, nextConnection := n, nextExchange := e.nextExchange i + 1
    holder := Function.update (e.holder i) (e.nextExchange i) x } e rfl
  have hnew : ∀ p ∈ owners, p ≠ (i, e.nextExchange i) := by
    rintro p hp rfl
    exact absurd ((h.mem _).mp hp).1 (Nat.lt_irrefl _)
  refine ⟨rfl, rfl, List.nodup_cons.mpr ⟨fun hmem => hnew _ hmem rfl, h.nodup⟩, fun p => ?_, ?_⟩
  · rw [List.mem_cons, h.mem]
    unfold Owns
    rw [hholder]
    by_cases hp : p = (i, e.nextExchange i)
    · subst hp
      simp [hheld]
    · obtain ⟨j, l⟩ := p
      by_cases hji : j = i
      · subst hji
        have hl : l ≠ e.nextExchange j := fun heq => hp (by rw [heq])
        have hlt : l < e.nextExchange j ↔ l < e.nextExchange j + 1 := by omega
        simp [hl, hlt]
      · simp [hji, put_nextExchange_ne hji]
  · rw [List.map_cons, h.leases]
    refine congrArg₂ _ ?_ (List.map_congr_left fun p hp => ?_)
    · show x.connection = ((e.put i _).holder i (e.nextExchange i)).connection
      rw [hholder, if_pos rfl]
    · show _ = ((e.put i _).holder p.1 p.2).connection
      rw [hholder, if_neg (hnew p hp)]
      rfl

/-! ## Steps -/

theorem PoolUsed.step (ops : List PoolUse.Op) (op : PoolUse.Op) (owners' : List (Nat × Nat))
    {e' : Estate} (h : Leased ((PoolUse.after {} ops).step op) owners' e') : e'.PoolUsed := by
  refine ⟨ops ++ [op], owners', ?_⟩
  unfold PoolUse.after at h ⊢
  rw [← run_append]
  exact h

/-- An exchange that finds nothing in the pool. -/
theorem PoolUsed.missed (h : e.PoolUsed) {clean : Nat → Bool} {backend : UpstreamConfig}
    (hnone : ((e.focus i).taken g clean backend).1 = none) :
    PoolUsed { e with pool := ((e.focus i).taken g clean backend).2 } := by
  obtain ⟨ops, owners, hleased⟩ := h
  unfold Custody.taken at hnone ⊢
  split at hnone
  · rename_i hpool
    rw [if_pos hpool]
    refine .step ops (.take clean backend g.config.upstreamTlsContext e.now) owners
      (hleased.call _ ?_)
    have hpool : (e.focus i).pool = (PoolUse.after {} ops).pool := hleased.pool.symm
    rw [hpool] at hnone ⊢
    have hnow : (e.focus i).now = e.now := rfl
    rw [hnow] at hnone ⊢
    simp only [PoolUse.step]
    split
    · rename_i heq
      rw [heq]
    · rename_i heq
      rw [heq] at hnone
      cases hnone
  · rename_i hpool
    rw [if_neg hpool]
    exact ⟨ops, owners, hleased⟩

/-- An exchange that gets its connection from the pool. -/
theorem Leased.took (h : Leased use owners e) {clean : Nat → Bool} {backend : UpstreamConfig}
    {connection : UpstreamConnection}
    (hsome : ((e.focus i).taken g clean backend).1 = some connection) :
    use.step (.take clean backend g.config.upstreamTlsContext e.now)
      = { use with
          pool := ((e.focus i).taken g clean backend).2
          leases := connection :: use.leases
          log := .took connection.id :: use.log } := by
  unfold Custody.taken at hsome ⊢
  split at hsome
  · rename_i hpool
    rw [if_pos hpool]
    have hpool : (e.focus i).pool = use.pool := h.pool.symm
    rw [hpool] at hsome ⊢
    have hnow : (e.focus i).now = e.now := rfl
    rw [hnow] at hsome ⊢
    simp only [PoolUse.step]
    split
    · rename_i heq
      rw [heq] at hsome
      cases hsome
    · rename_i heq
      rw [heq] at hsome ⊢
      cases hsome
      rfl
  · cases hsome

theorem put_pool (i : Nat) (pool : UpstreamPool) (e : Estate) :
    e.put i { e.focus i with pool } = { e with pool } := by
  simp [put, focus]

/-- The exchanges stay as they are. -/
theorem Leased.same_focus (h : Leased use owners e) (i : Nat) {c : Custody}
    (hpool : c.pool = e.pool) (hnext : c.nextConnection = e.nextConnection)
    (hexchanges : c.nextExchange = e.nextExchange i) (hholder : c.holder = e.holder i) :
    Leased use owners (e.put i c) := by
  have hsame : (e.put i c).holder = e.holder := by
    unfold Estate.put
    rw [hholder, Function.update_eq_self]
  refine h.same hpool hnext ?_ (fun j l => by rw [hsame]) fun j l => by rw [hsame]
  unfold Estate.put
  rw [hexchanges, Function.update_eq_self]

theorem PoolUsed.move (h : e.PoolUsed) (hmove : Custody.Move g (e.focus i) c) :
    (e.put i c).PoolUsed := by
  cases hmove with
  | close k =>
      obtain ⟨ops, owners, hleased⟩ := h
      exact ⟨ops, owners, hleased.close i k⟩
  | put k clean fails known held =>
      obtain ⟨ops, owners, hleased⟩ := h
      obtain ⟨holder, hput⟩ := hleased.put clean fails known held
      exact .step ops _ _ hput
  | miss clean backend nothing =>
      rw [put_pool]
      exact h.missed nothing
  | make clean request selected granted secured =>
      cases htaken : ((e.focus i).taken g clean selected.upstream).1 with
      | none =>
          obtain ⟨ops, owners, hleased⟩ := h.missed htaken
          refine .step ops (.connect selected.upstream g.config.upstreamTlsContext)
            ((i, e.nextExchange i) :: owners) ?_
          have hsecured : ¬(decide (selected.upstream.scheme = .https)
              && g.config.upstreamTlsContext.isNone) = true := by
            have hcontext := secured htaken
            intro hrefused
            rw [Bool.and_eq_true, decide_eq_true_eq, Option.isNone_iff_eq_none] at hrefused
            exact hcontext hrefused.1 hrefused.2
          simp only [PoolUse.step]
          rw [if_neg hsecured, hleased.next, hleased.pool]
          exact hleased.make i ⟨.held, ⟨e.nextConnection, selected.upstream,
            g.config.upstreamTlsContext⟩, selected, request, false⟩ rfl
      | some connection =>
          obtain ⟨ops, owners, hleased⟩ := h
          refine .step ops (.take clean selected.upstream g.config.upstreamTlsContext e.now)
            ((i, e.nextExchange i) :: owners) ?_
          rw [hleased.took htaken, hleased.next]
          exact hleased.make i ⟨.held, connection, selected, request, true⟩ rfl
  | check request route found =>
      obtain ⟨ops, owners, hleased⟩ := h
      exact ⟨ops, owners, hleased.same_focus i rfl rfl rfl rfl⟩
  | release =>
      obtain ⟨ops, owners, hleased⟩ := h
      exact ⟨ops, owners, hleased.same_focus i rfl rfl rfl rfl⟩

theorem PoolUsed.tick (h : e.PoolUsed) (now : TimePoint) : (e.tick now).PoolUsed := by
  obtain ⟨ops, owners, hleased⟩ := h
  exact ⟨ops, owners, { hleased with }⟩

theorem PoolUsed.after_step (h : e.PoolUsed) {event : Gateway.Event} {e' : Estate}
    (hstep : Step g e event e') : e'.PoolUsed := by
  cases hstep with
  | session moves => exact moves_keep (fun he hmove => PoolUsed.move he hmove) h moves
  | probe route upstream success =>
      obtain ⟨ops, owners, hleased⟩ := h
      exact ⟨ops, owners, { hleased with }⟩
  | cleanup error fails =>
      obtain ⟨ops, owners, hleased⟩ := h
      refine .step ops (.cleanup error fails e.now) owners (hleased.call _ ?_)
      rw [← hleased.pool]
      rfl
  | stopPool =>
      obtain ⟨ops, owners, hleased⟩ := h
      refine .step ops .stop owners (hleased.call _ ?_)
      rw [← hleased.pool]
      rfl

/-! ## Where the connections lead -/

/-- A connection to an HTTPS upstream has a TLS context. -/
def Secured (connection : UpstreamConnection) : Prop :=
  connection.backend.scheme = .https → connection.context ≠ none

/-- The connection leads to the upstream that the exchange is for, as it is configured. -/
structure Leads (g : Setup) (x : Holder) : Prop where
  fits : x.connection.matches x.selected.upstream g.config.upstreamTlsContext = true
  secured : Secured x.connection

structure Bound (g : Setup) (e : Estate) : Prop where
  holders : ∀ i k, k < e.nextExchange i → Leads g (e.holder i k)
  idle : ∀ slot, some slot ∈ e.pool.idle → Secured slot.connection

/-- The pool has nothing new. -/
theorem Bound.set_pool (h : Bound g e) {pool : UpstreamPool}
    (hmoves : UpstreamPool.Moves none e.pool pool) : Bound g { e with pool } where
  holders := h.holders
  idle slot hmem := by
    have hold := hmoves.entries slot hmem
    simp only [List.mem_cons, reduceCtorEq, false_or] at hold
    exact h.idle slot hold

theorem taken_moves (c : Custody) (clean : Nat → Bool) (backend : UpstreamConfig) :
    UpstreamPool.Moves none c.pool (c.taken g clean backend).2 := by
  unfold Custody.taken
  split
  · exact take_moves _ _ _ _ _
  · exact .refl _

/-- What the pool hands out fits what was asked for, and was an entry. -/
theorem taken_fits {clean : Nat → Bool} {backend : UpstreamConfig}
    {connection : UpstreamConnection} (h : (c.taken g clean backend).1 = some connection) :
    connection.matches backend g.config.upstreamTlsContext = true
      ∧ ∃ slot, some slot ∈ c.pool.idle ∧ slot.connection = connection := by
  unfold Custody.taken at h
  split at h
  · obtain ⟨slot, husable, rfl⟩ := take_sound _ _ _ _ _ h
    exact ⟨(matches_iff _ _ _).mpr husable.2.1, slot, husable.1, rfl⟩
  · cases h

theorem matches_self (id : Nat) (backend : UpstreamConfig) (context : TlsContext) :
    UpstreamConnection.matches ⟨id, backend, context⟩ backend context = true := by
  simp [UpstreamConnection.matches]

theorem Leads.close {x : Holder} (h : Leads g x) : Leads g x.close := by
  unfold Holder.close
  split
  · exact ⟨h.fits, h.secured⟩
  · exact h

/-- One holder of session `i` changes. -/
theorem Bound.update (h : Bound g e) {x : Holder} (hx : Leads g x) {c : Custody}
    (hholder : c.holder = Function.update (e.holder i) k x)
    (hexchanges : ∀ l, l < c.nextExchange → l = k ∨ l < e.nextExchange i)
    (hidle : ∀ slot, some slot ∈ c.pool.idle → Secured slot.connection) :
    Bound g (e.put i c) where
  holders j l hl := by
    rw [holder_put_update i k x c e hholder]
    by_cases hjl : (j, l) = (i, k)
    · rw [if_pos hjl]
      exact hx
    · rw [if_neg hjl]
      by_cases hji : j = i
      · subst hji
        rw [put_nextExchange_same] at hl
        rcases hexchanges l hl with rfl | hlt
        · exact absurd rfl hjl
        · exact h.holders j l hlt
      · rw [put_nextExchange_ne hji] at hl
        exact h.holders j l hl
  idle := hidle

theorem Bound.move (h : Bound g e) (hmove : Custody.Move g (e.focus i) c) :
    Bound g (e.put i c) := by
  cases hmove with
  | close k =>
      by_cases hk : k < e.nextExchange i
      · exact h.update (h.holders i k hk).close rfl (fun l hl => Or.inr hl) h.idle
      · -- there is no such exchange
        refine ⟨fun j l hl => ?_, h.idle⟩
        rw [holder_put_update i k _ _ e rfl]
        have hl' : l < e.nextExchange j := by simpa [put, focus] using hl
        split
        · rename_i heq
          cases heq
          exact absurd hl' hk
        · exact h.holders j l hl'
  | put k clean fails known held =>
      have hleads : Leads g (e.holder i k) := h.holders i k known
      refine h.update (x := { e.holder i k with lease := .pooled }) ⟨hleads.fits, hleads.secured⟩ rfl
        (fun l hl => Or.inr hl) fun slot hmem => ?_
      have hold := (put_moves e.pool clean fails (e.holder i k).connection e.now).entries slot hmem
      rcases List.mem_cons.mp hold with heq | hold
      · cases heq
        exact hleads.secured
      · exact h.idle slot hold
  | miss clean backend nothing =>
      rw [put_pool]
      exact h.set_pool (taken_moves (e.focus i) clean backend)
  | make clean request selected granted secured =>
      have hidle := (h.set_pool (taken_moves (g := g) (e.focus i) clean selected.upstream)).idle
      refine h.update ?_ rfl (fun l hl => ?_) hidle
      · cases htaken : ((e.focus i).taken g clean selected.upstream).1 with
        | none => exact ⟨matches_self _ _ _, secured htaken⟩
        | some connection =>
            obtain ⟨hfits, slot, hmem, rfl⟩ := taken_fits htaken
            exact ⟨hfits, h.idle slot hmem⟩
      · have hlt : l < e.nextExchange i + 1 := hl
        have heq : (e.focus i).nextExchange = e.nextExchange i := rfl
        omega
  | check request route found | release =>
      refine ⟨fun j l hl => ?_, h.idle⟩
      rw [holder_put]
      have hl' : l < e.nextExchange j := by simpa [put, focus] using hl
      split
      · rename_i hji
        subst hji
        exact h.holders j l hl'
      · exact h.holders j l hl'

theorem Bound.tick (h : Bound g e) (now : TimePoint) : Bound g (e.tick now) :=
  ⟨h.holders, h.idle⟩

theorem Bound.after_step (h : Bound g e) {event : Gateway.Event} {e' : Estate}
    (hstep : Step g e event e') : Bound g e' := by
  cases hstep with
  | session moves => exact moves_keep (fun he hmove => Bound.move he hmove) h moves
  | probe route upstream success => exact { h with }
  | cleanup error fails => exact h.set_pool (onCleanup_moves _ _ _ _)
  | stopPool => exact h.set_pool (stop_moves _)

end Estate

/-! ## Every run -/

namespace Gateway

/-- Exchange `k` of session `i` has not put its connection: an exchange that closed its
connection, which is never put, counts as its owner for good. -/
def Owns (gw : Gateway) (i k : Nat) : Prop :=
  k < (gw.locals i).nextExchange ∧ ((gw.locals i).exs k).lease ≠ .pooled

theorem after_poolUsed (g : Setup) (rateLimits : RouteRateLimits) (inputs : List Input) :
    (after g rateLimits inputs).estate.PoolUsed := by
  refine after_estate (P := fun _ => Estate.PoolUsed) ?_ (fun h hstep => ?_) inputs
  · refine ⟨[], [], rfl, rfl, List.nodup_nil, fun p => ?_, rfl⟩
    exact ⟨fun hmem => absurd hmem List.not_mem_nil, fun howns => absurd howns.1 (Nat.not_lt_zero _)⟩
  · exact Estate.PoolUsed.after_step (h.tick _) hstep

theorem after_bound (g : Setup) (rateLimits : RouteRateLimits) (inputs : List Input) :
    Estate.Bound g (after g rateLimits inputs).estate := by
  refine after_estate (P := fun _ => Estate.Bound g) ?_ (fun h hstep => ?_) inputs
  · refine ⟨fun i k hk => absurd hk (Nat.not_lt_zero _), fun slot hmem => ?_⟩
    cases (List.mem_replicate.mp hmem).2
  · exact Estate.Bound.after_step (h.tick _) hstep

/-- The pool is used as `PoolUse` allows, by owners of one connection each: in every run of
the gateway it is what some calls on an empty pool leave, and the connections leased from
it are those of the exchanges that have not put theirs. -/
theorem pool_use_simulated (g : Setup) (rateLimits : RouteRateLimits) (inputs : List Input) :
    ∃ (ops : List PoolUse.Op) (owners : List (Nat × Nat)),
      (PoolUse.after {} ops).pool = (after g rateLimits inputs).shared.pool
        ∧ (PoolUse.after {} ops).nextConnection = (after g rateLimits inputs).shared.nextConnection
        ∧ owners.Nodup
        ∧ (∀ i k, (i, k) ∈ owners ↔ (after g rateLimits inputs).Owns i k)
        ∧ (PoolUse.after {} ops).leases = owners.map fun p =>
          (((after g rateLimits inputs).locals p.1).exs p.2).connection := by
  obtain ⟨ops, owners, hleased⟩ := after_poolUsed g rateLimits inputs
  exact ⟨ops, owners, hleased.pool, hleased.next, hleased.nodup, fun i k => hleased.mem (i, k),
    hleased.leases⟩

/-- A connection has one owner at most, for good the last one if it was closed; a connection
that is idle has none; and every exchange talks to the upstream it was admitted for, over a
connection made under the configured TLS context. -/
structure OneOwner (g : Setup) (gw : Gateway) : Prop where
  owner : ∀ i k j l, gw.Owns i k → gw.Owns j l →
    ((gw.locals i).exs k).connection.id = ((gw.locals j).exs l).connection.id → i = j ∧ k = l
  idle : ∀ i k, gw.Owns i k →
    ((gw.locals i).exs k).connection.id ∉ idleIds gw.shared.pool.idle
  once : (idleIds gw.shared.pool.idle).Nodup
  room : gw.shared.pool.idleCount ≤ 32
  leads : ∀ i k, k < (gw.locals i).nextExchange →
    ((gw.locals i).exs k).connection.matches ((gw.locals i).exs k).selected.upstream
      g.config.upstreamTlsContext = true
  secured : ∀ i k, k < (gw.locals i).nextExchange →
    ((gw.locals i).exs k).selected.upstream.scheme = .https → g.config.upstreamTlsContext ≠ none

theorem connections_one_owner (g : Setup) (rateLimits : RouteRateLimits) (inputs : List Input) :
    OneOwner g (after g rateLimits inputs) := by
  obtain ⟨ops, owners, hleased⟩ := after_poolUsed g rateLimits inputs
  have hbound := after_bound g rateLimits inputs
  have hinv := PoolUse.inv_after ops
  have hplaces := hinv.nodup
  unfold PoolUse.places at hplaces
  rw [hleased.pool, hleased.leases, List.map_map] at hplaces
  obtain ⟨hidle, hleases, hapart⟩ := List.nodup_append.mp hplaces
  have hleads : ∀ i k, k < ((after g rateLimits inputs).locals i).nextExchange →
      Estate.Leads g (((after g rateLimits inputs).locals i).exs k).holder := hbound.holders
  refine ⟨fun i k j l hi hj heq => ?_, fun i k hi hmem => ?_, hidle, ?_,
    fun i k hk => (hleads i k hk).fits, fun i k hk hhttps => ?_⟩
  · have hp := (hleased.mem (i, k)).mpr hi
    have hq := (hleased.mem (j, l)).mpr hj
    have hsame := List.inj_on_of_nodup_map hleases hp hq heq
    exact ⟨congrArg Prod.fst hsame, congrArg Prod.snd hsame⟩
  · have hp := (hleased.mem (i, k)).mpr hi
    exact hapart _ hmem _ (List.mem_map_of_mem hp) rfl
  · have hle := PoolUse.idleCount_le (after g rateLimits inputs).shared.pool
    have hlength : (after g rateLimits inputs).shared.pool.idle.length = 32 := by
      rw [← hinv.length, hleased.pool]
      rfl
    rw [hlength] at hle
    exact hle
  · obtain ⟨hfits, hsecured⟩ := hleads i k hk
    obtain ⟨-, -, hscheme, hcontext⟩ := (matches_iff _ _ _).mp hfits
    rw [← hcontext]
    exact hsecured (hscheme.trans hhttps)

end Gateway

end ApiGate
