import Mathlib.Data.List.Chain
import Mathlib.Data.List.Nodup
import ApiGate.Server

/-!
# The server's invariant

`Core` collects what holds at every moment at which a session or the
application can call back into the server, so also in the middle of
`on_accept` or of a drain. Five more facts hold only between handlers:
`Tidy` (the pending flags of the back-pressure state stand for operations that
are really outstanding), `Awake` (a running server that could accept has an
accept or a retry under way), `Settled` (a completed drain has been reported),
`Closed` (a runtime failure has reached the exit code) and `LoopsDone` (every
call of `stop_all_sessions` so far has emptied the set).

The specifications follow the call graph upwards. `stop()` is specified twice:
`QuietStop` says that a nested call, made when the server is already stopping
or drained, only leaves its mark; `FullStop` says what the outer call does. The
nested calls of the outer one are all quiet, which is why two levels suffice.
-/

namespace ApiGate

open EventLoop Act ServerState

/-! ## The loop of `stop_all_sessions` -/

/-- No member of the set has finished, and both counters give its size. -/
structure LoopHead.Sound (h : LoopHead) : Prop where
  unfinished : ∀ i ∈ h.sessions, h.finished i = false
  activeConnections : h.activeConnections = h.sessions.length
  activeSessions : h.activeSessions = h.sessions.length

/-- A turn of the loop: the first session of the set finishes and leaves it. No
other session finishes, leaves or joins. -/
def LoopHead.Turn (h h' : LoopHead) : Prop :=
  ∃ i rest, h.sessions = i :: rest ∧ h'.sessions = rest
    ∧ h'.finished = Function.update h.finished i true ∧ h'.created = h.created

/-- Heads of the loop, latest first. After one whose set is empty the loop is over
and the next is that of another call; after any other comes the one its turn leads to. -/
def LoopTurns : List LoopHead → Prop :=
  List.IsChain fun later earlier => earlier.sessions ≠ [] → earlier.Turn later

/-- Every call of the loop ran to its end. -/
structure LoopsDone (heads : List LoopHead) : Prop where
  sound : ∀ h ∈ heads, h.Sound
  turns : LoopTurns heads
  ended : ∀ h ∈ heads.head?, h.sessions = []

namespace Server

/-- The places where the server may throw; none is excluded. -/
abbrev anywhere : ServerSite → Prop := fun _ => False

def ServerNote.isDrainComplete : ServerNote → Bool
  | .drainComplete _ _ => true
  | _ => false

/-- Every report of a completed drain was made in the phase `completed` with no
session left, after a drain began and before any stop or runtime failure. The
list is latest first. -/
def Reported : List ServerNote → Prop
  | [] => True
  | .drainComplete p n :: earlier =>
      (p = .completed ∧ n = 0 ∧ .drainBegun ∈ earlier ∧ .stopped ∉ earlier
        ∧ .runtimeFailure ∉ earlier) ∧ Reported earlier
  | _ :: earlier => Reported earlier

/-- The notes of a server in the phase `phase`, against the four flags that are
set beside them: `e` for `drain_completion_enabled_`, `c` for the claimed runtime
failure, `k` for `drain_callback_claimed_` and `x` for a failing exit code. -/
structure Journal (phase : ServerDrainPhase) (e c k x : Bool) (notes : List ServerNote) :
    Prop where
  failed : .runtimeFailure ∈ notes → .stopped ∈ notes
  stopped : .stopped ∈ notes → phase ≠ .running
  begun : .drainBegun ∈ notes → phase ≠ .running
  enabled : e = true ↔ .drainBegun ∈ notes ∧ .stopped ∉ notes
  claimed : c = true ↔ .runtimeFailure ∈ notes
  callback : notes.countP ServerNote.isDrainComplete = k.toNat
  reported : Reported notes
  forced : .forcedBySignal ∈ notes ∨ .forcedByTimeout ∈ notes →
    phase = .forceStopping ∨ phase = .completed
  forcedOnce : notes.count .forcedBySignal + notes.count .forcedByTimeout ≤ 1
  exit : x = true → .runtimeFailure ∈ notes ∨ .signalWaitFailed ∈ notes
  exitSignal : .signalWaitFailed ∈ notes → x = true

structure Core (m : Nat) (s : ServerState) : Prop where
  nodup : s.sessions.Nodup
  live : ∀ i ∈ s.sessions, i < s.nextSession ∧ s.sessionFinished i = false
  fresh : ∀ i, s.nextSession ≤ i → s.sessionFinished i = false
  active : s.acceptCapacity.activeConnections = s.sessions.length
  drainActive : s.drainState.activeSessions = s.sessions.length
  limit : s.acceptCapacity.maxConnections = m
  room : s.sessions.length + s.acceptCapacity.acceptPending.toNat ≤ m
  acceptOp : s.acceptOps ≤ s.acceptCapacity.acceptPending.toNat
  retryOp : s.retryWaits ≤ s.acceptCapacity.retryPending.toNat
  exclusive : s.acceptCapacity.acceptPending.toNat + s.acceptCapacity.retryPending.toNat ≤ 1
  idle : s.sessions = [] → s.drainState.phase = .running ∨ s.drainState.phase = .completed
  drained : s.drainState.phase = .completed → s.sessions = []
  journal : Journal s.drainState.phase s.drainCompletionEnabled s.runtimeFailureClaimed
    s.drainCallbackClaimed s.exitFailure s.notes
  fuel : s.outOfFuel = false

/-- While the server runs, a pending flag stands for an outstanding operation. -/
def Tidy (s : ServerState) : Prop :=
  s.phase = .running → s.acceptCapacity.stopped = false
    ∧ s.acceptOps = s.acceptCapacity.acceptPending.toNat
    ∧ s.retryWaits = s.acceptCapacity.retryPending.toNat

/-- A running server below its limit is about to accept. -/
def Awake (m : Nat) (s : ServerState) : Prop :=
  s.phase = .running →
    s.acceptOps = 1 ∨ s.retryWaits = 1 ∨ s.acceptCapacity.activeConnections = m

def Settled (s : ServerState) : Prop :=
  s.phase = .completed → s.drainCompletionEnabled = true → s.drainCallbackClaimed = true

def Closed (s : ServerState) : Prop := .runtimeFailure ∈ s.notes → s.exitFailure = true

/-! ## From one moment to a later one -/

/-- From `s` to `s'` nothing was forgotten, the server did not start to run
again, and a new runtime failure has reached the exit code. -/
structure Progress (s s' : ServerState) : Prop where
  notes : s.notes ⊆ s'.notes
  halted : s.phase ≠ .running → s'.phase ≠ .running
  next : s.nextSession ≤ s'.nextSession
  exit : s.exitFailure = true → s'.exitFailure = true
  failure : .runtimeFailure ∈ s'.notes → .runtimeFailure ∈ s.notes ∨ s'.exitFailure = true

theorem Progress.trans {s t u : ServerState} (h : Progress s t) (h' : Progress t u) :
    Progress s u where
  notes := List.Subset.trans h.notes h'.notes
  halted := h'.halted ∘ h.halted
  next := Nat.le_trans h.next h'.next
  exit := h'.exit ∘ h.exit
  failure hu := by
    rcases h'.failure hu with ht | he
    · exact (h.failure ht).imp id h'.exit
    · exact Or.inr he

/-- The server is at the head of the loop, in a first turn or a later one. -/
structure LoopOpen (s : ServerState) : Prop where
  sound : ∀ h ∈ s.loopHeads, h.Sound
  turns : LoopTurns (s.loopHead :: s.loopHeads)

theorem LoopsDone.enter {s : ServerState} (h : LoopsDone s.loopHeads) : LoopOpen s where
  sound := h.sound
  turns := by
    have hturns := h.turns
    have hended := h.ended
    unfold LoopTurns at hturns ⊢
    rcases hheads : s.loopHeads with _ | ⟨last, earlier⟩
    · exact List.isChain_singleton _
    · rw [hheads] at hturns hended
      exact hturns.cons_cons fun hne => absurd (hended last rfl) hne

/-- `stop()` was called, or a drain was forced. -/
def StopNoted (notes : List ServerNote) : Prop :=
  .stopped ∈ notes ∨ .forcedBySignal ∈ notes ∨ .forcedByTimeout ∈ notes

/-- From `s` to `s'` every call of the loop ran to its end, and the phase
`forceStopping` with it. A completed drain stays completed. -/
structure Looped (s s' : ServerState) : Prop where
  done : LoopsDone s.loopHeads → LoopsDone s'.loopHeads
  entered : s'.loopHeads = s.loopHeads ∨ s'.phase = .completed
  noted : StopNoted s'.notes → StopNoted s.notes ∨ s'.phase = .completed
  completed : s.phase = .completed → s'.phase = .completed
  calm : s.phase ≠ .forceStopping → s'.phase ≠ .forceStopping

theorem Looped.trans {s t u : ServerState} (h : Looped s t) (h' : Looped t u) : Looped s u where
  done := h'.done ∘ h.done
  entered := by
    rcases h'.entered with heq' | hcompleted
    · exact h.entered.imp heq'.trans h'.completed
    · exact Or.inr hcompleted
  noted hu := by
    rcases h'.noted hu with ht | hcompleted
    · exact (h.noted ht).imp id h'.completed
    · exact Or.inr hcompleted
  completed := h'.completed ∘ h.completed
  calm := h'.calm ∘ h.calm

structure Since (s s' : ServerState) : Prop extends Progress s s', Looped s s'

/-- An update that leaves the heads of the loop, and notes no call of it. -/
theorem Looped.of_eq {s s' : ServerState} (hh : s'.loopHeads = s.loopHeads)
    (hn : StopNoted s'.notes → StopNoted s.notes)
    (hcompleted : s.phase = .completed → s'.phase = .completed)
    (hcalm : s.phase ≠ .forceStopping → s'.phase ≠ .forceStopping) : Looped s s' where
  done := by rw [hh]; exact id
  entered := Or.inl hh
  noted := Or.inl ∘ hn
  completed := hcompleted
  calm := hcalm

/-- Where the drain is completed in the end, all that is left to show is that the loop
was not left halfway. -/
theorem Progress.ended {s s' : ServerState} (h : Progress s s') (hp : s'.phase = .completed)
    (hdone : LoopsDone s.loopHeads → LoopsDone s'.loopHeads) : Since s s' where
  toProgress := h
  done := hdone
  entered := Or.inr hp
  noted _ := Or.inr hp
  completed _ := hp
  calm _ := by simp [hp]

/-- An update that leaves the notes, the phase, the session ids, the exit code and the
heads of the loop. -/
theorem Since.of_eq {s s' : ServerState} (hn : s'.notes = s.notes) (hp : s'.phase = s.phase)
    (hi : s'.nextSession = s.nextSession) (hx : s'.exitFailure = s.exitFailure)
    (hh : s'.loopHeads = s.loopHeads) : Since s s' where
  notes := hn ▸ List.Subset.refl _
  halted := by rw [hp]; exact id
  next := Nat.le_of_eq hi.symm
  exit := by rw [hx]; exact id
  failure := by rw [hn]; exact Or.inl
  toLooped := Looped.of_eq hh (by rw [hn]; exact id) (by rw [hp]; exact id) (by rw [hp]; exact id)

theorem Since.refl (s : ServerState) : Since s s := Since.of_eq rfl rfl rfl rfl rfl

theorem Since.trans {s t u : ServerState} (h : Since s t) (h' : Since t u) : Since s u :=
  ⟨h.toProgress.trans h'.toProgress, h.toLooped.trans h'.toLooped⟩

theorem Closed.since {s s' : ServerState} (h : Closed s) (hs : Since s s') : Closed s' := by
  intro hn
  rcases hs.failure hn with hn' | he
  · exact hs.exit (h hn')
  · exact he

/-- What a call into the server, made at a moment of `Core`, gives back. -/
structure Kept (m : Nat) (s s' : ServerState) : Prop where
  core : Core m s'
  tidy : Tidy s'
  settled : Settled s'
  awake : Awake m s → Awake m s'
  since : Since s s'

theorem Kept.refl {m : Nat} {s : ServerState} (hc : Core m s) (ht : Tidy s) (hs : Settled s) :
    Kept m s s := ⟨hc, ht, hs, id, Since.refl s⟩

theorem Kept.trans {m : Nat} {s t u : ServerState} (h : Kept m s t) (h' : Kept m t u) :
    Kept m s u := ⟨h'.core, h'.tidy, h'.settled, h'.awake ∘ h.awake, h.since.trans h'.since⟩

/-- What `stop()`, `fail_runtime` and `fail_signal_wait` give back. -/
structure Stopped (m : Nat) (s s' : ServerState) : Prop where
  core : Core m s'
  noted : .stopped ∈ s'.notes
  since : Since s s'

theorem Stopped.halted {m : Nat} {s s' : ServerState} (h : Stopped m s s') :
    s'.phase ≠ .running := h.core.journal.stopped h.noted

/-- A stopped server has no wake-up to lose and no drain to report. -/
theorem Stopped.kept {m : Nat} {s s' : ServerState} (h : Stopped m s s') : Kept m s s' := by
  refine ⟨h.core, fun hr => absurd hr h.halted, fun _ he => ?_, fun _ hr => absurd hr h.halted,
    h.since⟩
  exact absurd h.noted (h.core.journal.enabled.mp he).2

/-- What holds between handlers. -/
structure Rest (m : Nat) (s : ServerState) : Prop where
  core : Core m s
  tidy : Tidy s
  awake : Awake m s
  settled : Settled s
  closed : Closed s
  loops : LoopsDone s.loopHeads
  entered : s.loopHeads ≠ [] → s.phase = .completed
  noted : StopNoted s.notes → s.phase = .completed
  calm : s.phase ≠ .forceStopping

theorem Rest.kept {m : Nat} {s s' : ServerState} (h : Rest m s) (hk : Kept m s s') :
    Rest m s' where
  core := hk.core
  tidy := hk.tidy
  awake := hk.awake h.awake
  settled := hk.settled
  closed := h.closed.since hk.since
  loops := hk.since.done h.loops
  entered hne := by
    rcases hk.since.entered with heq | hcompleted
    · exact hk.since.completed (h.entered (heq ▸ hne))
    · exact hcompleted
  noted hn := by
    rcases hk.since.noted hn with hn' | hcompleted
    · exact hk.since.completed (h.noted hn')
    · exact hcompleted
  calm := hk.since.calm h.calm

/-! ## What each note does to the journal -/

section Journal

variable {p p' : ServerDrainPhase} {e c k x : Bool} {n : List ServerNote}

/-- `stop()`, in a phase that stays. -/
theorem Journal.stop (h : Journal p e c k x n) (hp : p' = .forceStopping ∨ p' = .completed) :
    Journal p' false c k x (.stopped :: n) where
  failed := by simp
  stopped _ := by rcases hp with rfl | rfl <;> simp
  begun _ := by rcases hp with rfl | rfl <;> simp
  enabled := by simp
  claimed := by simpa using h.claimed
  callback := by simpa [ServerNote.isDrainComplete] using h.callback
  reported := h.reported
  forced _ := hp
  forcedOnce := by simpa using h.forcedOnce
  exit := by simpa using h.exit
  exitSignal := by simpa using h.exitSignal

/-- A runtime failure is noted before the server stops: in between, the phase may
still be `running`. -/
theorem Journal.fail (h : Journal p e c k x n) (hp : p' = .forceStopping ∨ p' = .completed) :
    Journal p' false true k x (.stopped :: .runtimeFailure :: n) :=
  { h.stop hp with
    failed := by simp
    stopped := fun _ => (h.stop hp).stopped (List.mem_cons_self ..)
    begun := fun _ => (h.stop hp).stopped (List.mem_cons_self ..)
    enabled := by simp
    claimed := by simp
    callback := by simpa [ServerNote.isDrainComplete] using h.callback
    reported := h.reported
    forced := fun _ => hp
    forcedOnce := by simpa using h.forcedOnce
    exit := by simp
    exitSignal := by simpa using h.exitSignal }

theorem Journal.signalFailure (h : Journal p e c k x n) :
    Journal p e c k true (.signalWaitFailed :: n) where
  failed := by simpa using h.failed
  stopped := by simpa using h.stopped
  begun := by simpa using h.begun
  enabled := by simpa using h.enabled
  claimed := by simpa using h.claimed
  callback := by simpa [ServerNote.isDrainComplete] using h.callback
  reported := h.reported
  forced := by simpa using h.forced
  forcedOnce := by simpa using h.forcedOnce
  exit := by simp
  exitSignal := by simp

/-- The exit code is set once a runtime failure is on record. -/
theorem Journal.exitCode (h : Journal p e c k x n) (hn : .runtimeFailure ∈ n) :
    Journal p e c k true n :=
  { h with exit := fun _ => Or.inl hn, exitSignal := fun _ => rfl }

/-- `on_drain_complete_` is called. -/
theorem Journal.complete (h : Journal .completed true c false x n) :
    Journal .completed true c true x (.drainComplete .completed 0 :: n) where
  failed := by simpa using h.failed
  stopped := by simp
  begun := by simp
  enabled := by simpa using h.enabled
  claimed := by simpa using h.claimed
  callback := by
    have hk : n.countP ServerNote.isDrainComplete = 0 := h.callback
    rw [List.countP_cons_of_pos rfl, hk]
    rfl
  reported := by
    have hn := h.enabled.mp rfl
    exact ⟨⟨rfl, rfl, hn.1, hn.2, fun hf => hn.2 (h.failed hf)⟩, h.reported⟩
  forced := by simp
  forcedOnce := by simpa using h.forcedOnce
  exit := by simpa using h.exit
  exitSignal := by simpa using h.exitSignal

/-- A drain begins: before it, nothing was stopped, forced or failed. -/
theorem Journal.begin (h : Journal .running e c k x n) (hp : p' = .draining ∨ p' = .completed) :
    Journal p' true c k x (.drainBegun :: n) := by
  have hrun : p' ≠ .running := by rcases hp with rfl | rfl <;> simp
  have hstopped : .stopped ∉ n := fun hn => h.stopped hn rfl
  have hforced : ¬(.forcedBySignal ∈ n ∨ .forcedByTimeout ∈ n) := by
    intro hn
    rcases h.forced hn with hp | hp <;> cases hp
  exact {
    failed := by simpa using h.failed
    stopped := fun _ => hrun
    begun := fun _ => hrun
    enabled := by simpa using hstopped
    claimed := by simpa using h.claimed
    callback := by simpa [ServerNote.isDrainComplete] using h.callback
    reported := h.reported
    forced := by simpa using fun hn => absurd hn hforced
    forcedOnce := by simpa using h.forcedOnce
    exit := by simpa using h.exit
    exitSignal := by simpa using h.exitSignal }

/-- A drain is forced: no earlier one was, as the phase is still `draining`. -/
theorem Journal.force (h : Journal .draining e c k x n) {why : ServerNote}
    (hw : why = .forcedBySignal ∨ why = .forcedByTimeout) :
    Journal .forceStopping e c k x (why :: n) := by
  have hforced : ¬(.forcedBySignal ∈ n ∨ .forcedByTimeout ∈ n) := by
    intro hn
    rcases h.forced hn with hp | hp <;> cases hp
  have hsignal : n.count .forcedBySignal = 0 :=
    List.count_eq_zero.mpr fun hn => hforced (Or.inl hn)
  have htimeout : n.count .forcedByTimeout = 0 :=
    List.count_eq_zero.mpr fun hn => hforced (Or.inr hn)
  rcases hw with rfl | rfl
  all_goals
    exact {
      failed := by simpa using h.failed
      stopped := by simp
      begun := by simp
      enabled := by simpa using h.enabled
      claimed := by simpa using h.claimed
      callback := by simpa [ServerNote.isDrainComplete] using h.callback
      reported := h.reported
      forced := by simp
      forcedOnce := by simp [hsignal, htimeout]
      exit := by simpa using h.exit
      exitSignal := by simpa using h.exitSignal }

/-- The last session of a server that is draining or stopping is gone. -/
theorem Journal.drained (h : Journal p e c k x n) : Journal .completed e c k x n :=
  { h with stopped := by simp, begun := by simp, forced := by simp }

end Journal

/-! ## The updates of the handlers -/

variable {m : Nat} {s : ServerState}

/-- The first two statements of `stop()`. -/
def stopEntry (s : ServerState) : ServerState :=
  { note .stopped { s with drainCompletionEnabled := false } with
    drainState := s.drainState.beginForceStop.2 }

/-- What `fail_runtime` records before it stops the server. -/
def claimFailure (s : ServerState) : ServerState :=
  note .runtimeFailure { s with runtimeFailureClaimed := true }

/-- What `fail_signal_wait` records before it stops the server. -/
def recordSignalFailure (s : ServerState) : ServerState :=
  note .signalWaitFailed
    { s with shutdownSignal := s.shutdownSignal.markCompleted, exitFailure := true }

theorem beginForceStop_phase (d : DrainState) :
    d.beginForceStop.2.phase = .forceStopping ∨ d.beginForceStop.2.phase = .completed := by
  unfold DrainState.beginForceStop DrainState.transitionTo
  split
  · assumption
  · split <;> simp

theorem beginForceStop_activeSessions (d : DrainState) :
    d.beginForceStop.2.activeSessions = d.activeSessions := by
  unfold DrainState.beginForceStop DrainState.transitionTo
  split
  · rfl
  · split <;> rfl

theorem Core.active_eq_zero (h : Core m s) : s.drainState.activeSessions = 0 ↔ s.sessions = [] := by
  rw [h.drainActive, List.length_eq_zero_iff]

/-- `begin_force_stop` completes exactly a server without sessions. -/
theorem Core.beginForceStop_completed (h : Core m s) :
    s.drainState.beginForceStop.2.phase = .completed ↔ s.sessions = [] := by
  unfold DrainState.beginForceStop DrainState.transitionTo
  split
  · rename_i hp
    refine ⟨h.drained, fun hs => ?_⟩
    rcases hp with hp | hp
    · rcases h.idle hs with hi | hi <;> simp [hp] at hi
    · exact hp
  · split
    · rename_i hz
      simpa using h.active_eq_zero.mp hz
    · rename_i hz
      simpa using fun hs => hz (h.active_eq_zero.mpr hs)

theorem Core.stopEntry (h : Core m s) : Core m (stopEntry s) :=
  { h with
    drainActive := (beginForceStop_activeSessions _).trans h.drainActive
    idle := fun hs => Or.inr (h.beginForceStop_completed.mpr hs)
    drained := h.beginForceStop_completed.mp
    journal := h.journal.stop (beginForceStop_phase _) }

theorem Core.stopEntry_claimFailure (h : Core m s) : Core m (Server.stopEntry (claimFailure s)) :=
  { h.stopEntry with journal := h.journal.fail (beginForceStop_phase _) }

theorem Core.recordSignalFailure (h : Core m s) : Core m (recordSignalFailure s) :=
  { h with journal := h.journal.signalFailure }

theorem Core.stopAccepting (h : Core m s) : Core m (stopAccepting s) := { h with }

/-- A session has finished and left the set. -/
def dropSession (i : Nat) (s : ServerState) : ServerState :=
  { finish i s with
    sessions := s.sessions.erase i
    acceptCapacity := s.acceptCapacity.sessionFinished
    drainState := s.drainState.sessionFinished.2 }

/-- `session_finished()` completes a drain exactly when the last session goes. -/
theorem Core.sessionFinished (h : Core m s) {i : Nat} (hi : i ∈ s.sessions) :
    s.drainState.sessionFinished =
      if s.sessions.erase i = [] ∧ s.drainState.phase ≠ .running then
        (true, { phase := .completed, activeSessions := (s.sessions.erase i).length })
      else (false, { s.drainState with activeSessions := (s.sessions.erase i).length }) := by
  have hlen : (s.sessions.erase i).length = s.sessions.length - 1 := List.length_erase_of_mem hi
  have hpos : 0 < s.sessions.length := List.length_pos_of_mem hi
  have hp : s.drainState.phase ≠ .completed := fun hp => by simp [h.drained hp] at hi
  have hnil : s.sessions.erase i = [] ↔ s.sessions.length - 1 = 0 := by
    rw [← List.length_eq_zero_iff, hlen]
  unfold DrainState.sessionFinished
  rw [h.drainActive, if_neg (by omega), hlen]
  simp only [hnil]
  cases hph : s.drainState.phase with
  | completed => exact absurd hph hp
  | running => simp
  | draining => simp
  | forceStopping => simp

theorem Core.dropSession (h : Core m s) {i : Nat} (hi : i ∈ s.sessions) :
    Core m (dropSession i s) := by
  have hlen : (s.sessions.erase i).length = s.sessions.length - 1 := List.length_erase_of_mem hi
  have hpos : 0 < s.sessions.length := List.length_pos_of_mem hi
  have hcap : s.acceptCapacity.sessionFinished =
      { s.acceptCapacity with activeConnections := (s.sessions.erase i).length } := by
    unfold AcceptCapacityState.sessionFinished
    rw [if_pos (by rw [h.active]; omega), h.active, hlen]
  have hroom := h.room
  have hdrain := h.sessionFinished hi
  refine
    { nodup := h.nodup.erase i
      live := ?_
      fresh := ?_
      active := by simp [Server.dropSession, hcap]
      drainActive := by simp only [Server.dropSession, hdrain]; split <;> rfl
      limit := by simpa [Server.dropSession, hcap] using h.limit
      room := by simp only [Server.dropSession, hcap]; omega
      acceptOp := by simpa [Server.dropSession, finish, hcap] using h.acceptOp
      retryOp := by simpa [Server.dropSession, finish, hcap] using h.retryOp
      exclusive := by simpa [Server.dropSession, hcap] using h.exclusive
      idle := ?_
      drained := ?_
      journal := ?_
      fuel := h.fuel }
  · intro j hj
    have hne : j ≠ i := fun hji => h.nodup.not_mem_erase (hji ▸ hj)
    simpa [Server.dropSession, finish, hne] using h.live j (List.mem_of_mem_erase hj)
  · intro j hj
    have hne : j ≠ i := fun hji => absurd (h.live i hi).1 (by rw [← hji]; exact Nat.not_lt.mpr hj)
    simpa [Server.dropSession, finish, hne] using h.fresh j hj
  · intro hs
    simp only [Server.dropSession] at hs ⊢
    rw [hdrain]
    by_cases hp : s.drainState.phase = .running <;> simp [hs, hp]
  · intro hp
    simp only [Server.dropSession] at hp ⊢
    rw [hdrain] at hp
    split at hp
    · rename_i hs
      exact hs.1
    · exact absurd (h.drained hp) (List.ne_nil_of_mem hi)
  · show Journal s.drainState.sessionFinished.2.phase _ _ _ _ _
    rw [hdrain]
    split
    · exact h.journal.drained
    · exact h.journal

end Server

end ApiGate
