import ApiGate.ServerHandlers

/-!
# Back-pressure and shutdown of the server

The two results about whole runs of the server. A run is any list of events,
each with its own oracle: it decides where the handlers throw and which
sessions finish inside the server's own calls.
-/

namespace ApiGate

open EventLoop

namespace Server

variable {m : Nat} {s : ServerState}

/-! ## Accepting -/

/-- The listener never admits more than `m` sessions, and a running server that
has room for one more is waiting for it, or for a retry. -/
theorem accept_backpressure (m : Nat) (o : Oracle ServerSite) (s₀ : ServerState)
    (hlaunch : launch m o = some s₀) (events : List (ServerEvent × Oracle ServerSite)) :
    let s := run step s₀ events
    s.sessions.Nodup
    ∧ s.acceptCapacity.activeConnections = s.sessions.length
    ∧ s.drainState.activeSessions = s.sessions.length
    ∧ s.acceptCapacity.activeConnections + s.acceptCapacity.acceptPending.toNat ≤ m
    ∧ s.acceptCapacity.activeConnections + s.acceptOps ≤ m
    ∧ s.acceptOps + s.retryWaits ≤ 1
    ∧ (s.phase = .running → s.acceptOps = 1 ∨ s.retryWaits = 1
        ∨ s.acceptCapacity.activeConnections = m) := by
  intro s
  have h : Rest m s := run_rest hlaunch events
  have hroom := h.core.room
  have hactive := h.core.active
  have hacc := h.core.acceptOp
  have hretry := h.core.retryOp
  have hexcl := h.core.exclusive
  refine ⟨h.core.nodup, hactive, h.core.drainActive, ?_, ?_, ?_, h.awake⟩
  · omega
  · omega
  · omega

/-- Nothing throws, and no session finishes by itself. -/
def smooth : Oracle ServerSite := fun _ _ => false

/-- A server with room for one session, after its launch. -/
def launched : ServerState := (launch 1 smooth).get rfl

theorem accept_backpressure_full :
    launch 1 smooth = some launched
    ∧ (run step launched [(.accept none 0, smooth)]).phase = .running
    ∧ ((run step launched [(.accept none 0, smooth)]).acceptOps = 1
      ∨ (run step launched [(.accept none 0, smooth)]).retryWaits = 1
      ∨ (run step launched [(.accept none 0, smooth)]).acceptCapacity.activeConnections = 1) := by
  have hrun : (run step launched [(.accept none 0, smooth)]).phase = .running := by decide
  have h := accept_backpressure 1 smooth launched rfl [(.accept none 0, smooth)]
  exact ⟨rfl, hrun, h.2.2.2.2.2.2 hrun⟩

/-! ## Shutting down -/

/-- A report of a completed drain, taken out of the notes at its place. -/
theorem Reported.of_mem {later earlier : List ServerNote} {p : ServerDrainPhase} {n : Nat}
    (h : Reported (later ++ .drainComplete p n :: earlier)) :
    p = .completed ∧ n = 0 ∧ .drainBegun ∈ earlier ∧ .stopped ∉ earlier
      ∧ .runtimeFailure ∉ earlier := by
  induction later with
  | nil => exact h.1
  | cons note rest ih =>
      cases note with
      | drainComplete p' n' => exact ih h.2
      | _ => exact ih h

theorem Rest.exit_iff (h : Rest m s) :
    s.exitFailure = true ↔ .runtimeFailure ∈ s.notes ∨ .signalWaitFailed ∈ s.notes := by
  refine ⟨h.core.journal.exit, ?_⟩
  rintro (hn | hn)
  · exact h.closed hn
  · exact h.core.journal.exitSignal hn

/-- A drain that nobody stopped and that has no session left was reported. -/
theorem Rest.drain_reported (h : Rest m s) (hbegun : .drainBegun ∈ s.notes)
    (hstopped : .stopped ∉ s.notes) (hnil : s.sessions = []) :
    ∃ p n, .drainComplete p n ∈ s.notes := by
  have hrun := h.core.journal.begun hbegun
  have hcompleted : s.phase = .completed := (h.core.idle hnil).resolve_left hrun
  have hclaimed := h.settled hcompleted (h.core.journal.enabled.mpr ⟨hbegun, hstopped⟩)
  have hcount := h.core.journal.callback
  rw [hclaimed] at hcount
  have hpos : 0 < s.notes.countP ServerNote.isDrainComplete := by
    rw [hcount]
    exact Nat.one_pos
  obtain ⟨note, hmem, hnote⟩ := List.countP_pos_iff.mp hpos
  cases note with
  | drainComplete p n => exact ⟨p, n, hmem⟩
  | _ => cases hnote

/-- Shutdown: the drain callback runs at most once, at the right moment, and is
not forgotten; a drain is forced at most once; the exit code tells failures. -/
theorem shutdown_once (m : Nat) (o : Oracle ServerSite) (s₀ : ServerState)
    (hlaunch : launch m o = some s₀) (events : List (ServerEvent × Oracle ServerSite)) :
    let s := run step s₀ events
    s.notes.countP ServerNote.isDrainComplete ≤ 1
    ∧ (∀ later earlier p n, s.notes = later ++ .drainComplete p n :: earlier →
        p = .completed ∧ n = 0 ∧ .drainBegun ∈ earlier ∧ .stopped ∉ earlier
          ∧ .runtimeFailure ∉ earlier)
    ∧ (.drainBegun ∈ s.notes → .stopped ∉ s.notes → .runtimeFailure ∉ s.notes →
        s.sessions = [] → ∃ p n, .drainComplete p n ∈ s.notes)
    ∧ s.notes.count .forcedBySignal + s.notes.count .forcedByTimeout ≤ 1
    ∧ (s.exitFailure = true ↔ .runtimeFailure ∈ s.notes ∨ .signalWaitFailed ∈ s.notes)
    ∧ s.outOfFuel = false := by
  intro s
  have h : Rest m s := run_rest hlaunch events
  refine ⟨?_, ?_, ?_, h.core.journal.forcedOnce, h.exit_iff, h.core.fuel⟩
  · rw [h.core.journal.callback]
    exact Bool.toNat_le _
  · intro later earlier p n hnotes
    have hrep := h.core.journal.reported
    rw [hnotes] at hrep
    exact hrep.of_mem
  · intro hbegun hstopped _ hnil
    exact h.drain_reported hbegun hstopped hnil

theorem shutdown_once_drained :
    launch 1 smooth = some launched
    ∧ ∃ p n, .drainComplete p n ∈ (run step launched
        [(.accept none 0, smooth), (.signal none, smooth), (.sessionFinish 0, smooth)]).notes := by
  have h := shutdown_once 1 smooth launched rfl
    [(.accept none 0, smooth), (.signal none, smooth), (.sessionFinish 0, smooth)]
  exact ⟨rfl, h.2.2.1 (by decide) (by decide) (by decide) (by decide)⟩

end Server

end ApiGate
