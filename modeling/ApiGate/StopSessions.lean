import ApiGate.ServerSafety
import ApiGate.SessionMoves

/-!
# Stopping all sessions

The loop of `stop_all_sessions` has no counter. It ends because `stop()` of a
session that has not finished calls `remove_session` before it returns, and
because no session that has finished is in the set. The first half is about the
session, whatever phase it is in, and the second is an invariant of the server
at every moment at which a session can call it. `loopHeads` has one entry for
each time the loop looked at the set, so the result about it is one about every
turn of every call in a run.
-/

namespace ApiGate

open EventLoop

namespace Session

/-- In any phase, `stop()` calls `on_close_` exactly once if the session has not
finished, and otherwise does nothing. -/
theorem stop_closes (w : World Session) :
    (stop w).env.finished = true ∧ (stop w).env.closes = w.env.closes + (!w.env.finished).toNat := by
  cases hf : w.env.finished with
  | true =>
      unfold stop
      rw [if_pos hf]
      exact ⟨hf, rfl⟩
  | false =>
      rw [stop_of_unfinished hf]
      exact ⟨rfl, rfl⟩

end Session

/-- When every call is over, the last head is one that found no session. -/
theorem LoopsDone.vacant {heads : List LoopHead} (h : LoopsDone heads) {last : LoopHead}
    (hlast : last ∈ heads.head?) :
    last.sessions = [] ∧ last.activeConnections = 0 ∧ last.activeSessions = 0 := by
  have hnil : last.sessions = [] := h.ended last hlast
  have hsound := h.sound last (List.mem_of_mem_head? hlast)
  refine ⟨hnil, ?_, ?_⟩
  · rw [hsound.activeConnections, hnil]
    rfl
  · rw [hsound.activeSessions, hnil]
    rfl

namespace Server

variable {m : Nat} {s : ServerState}

/-- A drained server has no session, and counts none. -/
theorem Core.vacant (h : Core m s) (hp : s.phase = .completed) :
    s.sessions = [] ∧ s.acceptCapacity.activeConnections = 0
      ∧ s.drainState.activeSessions = 0 := by
  have hnil : s.sessions = [] := h.drained hp
  refine ⟨hnil, ?_, h.active_eq_zero.mpr hnil⟩
  rw [h.active, hnil]
  rfl

/-- In every run, each turn of the loop of `stop_all_sessions` takes the session that
it stopped out of the set and changes nothing else in it, and the loop ends with
the set empty. Once `stop()` was called or a drain was forced, by a second signal
or by the drain timer, there is no session between the handlers. -/
theorem stop_all_sessions_empties (m : Nat) (o : Oracle ServerSite) (s₀ : ServerState)
    (hlaunch : launch m o = some s₀) (events : List (ServerEvent × Oracle ServerSite)) :
    let s := run step s₀ events
    (∀ w : World Session, (Session.stop w).env.finished = true
      ∧ (Session.stop w).env.closes = w.env.closes + (!w.env.finished).toNat)
    ∧ (∀ i ∈ s.sessions, s.sessionFinished i = false)
    ∧ (∀ head ∈ s.loopHeads, head.Sound)
    ∧ LoopTurns s.loopHeads
    ∧ (∀ last ∈ s.loopHeads.head?,
        last.sessions = [] ∧ last.activeConnections = 0 ∧ last.activeSessions = 0)
    ∧ (s.loopHeads ≠ [] ∨ StopNoted s.notes →
        s.sessions = [] ∧ s.acceptCapacity.activeConnections = 0
          ∧ s.drainState.activeSessions = 0)
    ∧ s.outOfFuel = false := by
  intro s
  have h : Rest m s := run_rest hlaunch events
  refine ⟨Session.stop_closes, fun i hi => (h.core.live i hi).2, h.loops.sound, h.loops.turns,
    fun _ hlast => h.loops.vacant hlast, ?_, h.core.fuel⟩
  rintro (hentered | hnoted)
  · exact h.core.vacant (h.entered hentered)
  · exact h.core.vacant (h.noted hnoted)

/-- A second signal, with one session in the set. -/
theorem stop_all_sessions_empties_forced :
    launch 1 smooth = some launched
    ∧ (run step launched [(.accept none 0, smooth), (.signal none, smooth),
        (.signal none, smooth)]).loopHeads.map LoopHead.sessions = [[], [0]]
    ∧ (run step launched [(.accept none 0, smooth), (.signal none, smooth),
        (.signal none, smooth)]).sessions = [] := by
  have h := stop_all_sessions_empties 1 smooth launched rfl
    [(.accept none 0, smooth), (.signal none, smooth), (.signal none, smooth)]
  have hheads : (run step launched [(.accept none 0, smooth), (.signal none, smooth),
      (.signal none, smooth)]).loopHeads.map LoopHead.sessions = [[], [0]] := by decide
  refine ⟨rfl, hheads, (h.2.2.2.2.2.1 (Or.inl fun hnil => ?_)).1⟩
  rw [hnil] at hheads
  cases hheads

end Server

end ApiGate
