import ApiGate.EventLoop.Keeps
import ApiGate.ServerDrain

/-!
# After the drain is reported

The application knows that the shutdown is complete as soon as the end of the drain is
reported (`Marked`, which every handler keeps). From then on a handler of the server
starts nothing: an accept, a wait for a retry, for the drain or for a signal that is
still outstanding completes and is gone.
-/

namespace ApiGate

open EventLoop Act ServerState

namespace Server

/-! ## The report reaches the application -/

/-- Once the drain is reported, it is complete and the application knows. `past` says that
it is complete anyway. -/
structure Marked (past : Prop) (s : ServerState) : Prop where
  phase : past → s.phase = .completed
  claimed : s.drainCallbackClaimed = true →
    s.shutdownSignal.completed = true ∧ s.phase = .completed

variable {past : Prop} {m : Nat} {s s' : ServerState}

/-- A step that keeps a completed drain, and claims nothing. -/
theorem Marked.step (h : Marked past s) (hphase : s.phase = .completed → s'.phase = .completed)
    (hclaimed : s'.drainCallbackClaimed = s.drainCallbackClaimed)
    (htold : s.shutdownSignal.completed = true → s'.shutdownSignal.completed = true) :
    Marked past s' where
  phase ho := hphase (h.phase ho)
  claimed hc := by
    obtain ⟨htold', hphase'⟩ := h.claimed (hclaimed ▸ hc)
    exact ⟨htold htold', hphase hphase'⟩

/-- What the handlers do to a completed drain. -/
theorem completed_stays {d : DrainState} (h : d.phase = .completed) :
    d.sessionStarted = d ∧ d.sessionFinished.2.phase = .completed ∧ d.beginDrain.2 = d
      ∧ d.beginForceStop.2 = d := by
  refine ⟨if_neg (by simp [h]), ?_, ?_, ?_⟩
  · unfold DrainState.sessionFinished
    split
    · exact h
    · split
      · rfl
      · exact h
  · rw [DrainState.beginDrain, if_pos (by simp [h])]
  · rw [DrainState.beginForceStop, if_pos (Or.inr h)]

/-- The results that say so really complete the drain. -/
theorem phase_of_last {d : DrainState} (h : d.sessionFinished.1 = true) :
    d.sessionFinished.2.phase = .completed := by
  unfold DrainState.sessionFinished at h ⊢
  by_cases hnone : d.activeSessions = 0
  · simp [hnone] at h
  · rw [if_neg hnone] at h ⊢
    by_cases hlast : d.activeSessions - 1 = 0 ∧ (d.phase = .draining ∨ d.phase = .forceStopping)
    · rw [if_pos hlast]
    · simp [hlast] at h

theorem phase_of_transition {d : DrainState} {phase : ServerDrainPhase}
    (h : (d.transitionTo phase).1 = .completed) : (d.transitionTo phase).2.phase = .completed := by
  unfold DrainState.transitionTo at h ⊢
  by_cases hnone : d.activeSessions = 0
  · rw [if_pos hnone]
  · simp [hnone] at h

theorem phase_of_beginDrain {d : DrainState} (h : d.beginDrain.1 = .completed) :
    d.beginDrain.2.phase = .completed := by
  unfold DrainState.beginDrain at h ⊢
  by_cases hrunning : d.phase ≠ .running
  · simp [hrunning] at h
  · rw [if_neg hrunning] at h ⊢
    exact phase_of_transition h

theorem phase_of_beginForceStop {d : DrainState} (h : d.beginForceStop.1 = .completed) :
    d.beginForceStop.2.phase = .completed := by
  unfold DrainState.beginForceStop at h ⊢
  by_cases hforced : d.phase = .forceStopping ∨ d.phase = .completed
  · simp [hforced] at h
  · rw [if_neg hforced] at h ⊢
    exact phase_of_transition h

theorem marked_driveAccept : Keeps (Marked past) driveAccept := by
  unfold driveAccept
  refine Keeps.get_bind fun s _ => Keeps.ite (Keeps.pure _) ?_
  refine Keeps.update_bind (fun _ h => { h with }) ?_
  split
  · exact Keeps.pure _
  · exact Keeps.pure _
  all_goals exact Keeps.mayThrow_bind (Keeps.update fun _ h => { h with })

section Reentrant

variable {rec : ServerAct Unit}

theorem marked_failRuntime (hrec : Keeps (Marked past) rec) :
    Keeps (Marked past) (failRuntime rec) := by
  unfold failRuntime onRuntimeFailure
  refine Keeps.get_bind fun s _ => Keeps.ite (Keeps.pure _) ?_
  refine Keeps.update_bind (fun _ h => { h with }) (Keeps.bind hrec fun _ => ?_)
  exact Keeps.update fun _ h => h.step id rfl fun _ => rfl

theorem marked_failSignalWait (hrec : Keeps (Marked past) rec) :
    Keeps (Marked past) (failSignalWait rec) := by
  unfold failSignalWait
  refine Keeps.update_bind (fun _ h => h.step id rfl fun _ => rfl) (Keeps.bind hrec fun _ => ?_)
  exact Keeps.update fun _ h => { h with }

/-- The callback is claimed, and the application called before anything else. -/
theorem marked_finishDrain (hrec : Keeps (Marked past) rec) {F : ServerSite → Prop}
    (h : Marked past s) (hp : s.phase = .completed) :
    wp F (finishDrain rec) (fun _ => Marked past) (Marked past) s := by
  unfold finishDrain onDrainComplete
  simp only [wp_get_bind]
  split
  · exact wp_pure.mpr h
  · simp only [wp_modify_bind]
    refine wp_tryCatch (wp_modify_bind.mpr ?_)
    have hcancel : Keeps (Marked past)
        (tryCatch (mayThrow .signalCancel) fun _ => failSignalWait rec) :=
      Keeps.tryCatch (Keeps.mayThrow _) (marked_failSignalWait hrec)
    refine wp_mono (hcancel.wp ⟨fun _ => hp, fun _ => ⟨rfl, hp⟩⟩) (fun _ _ hs => hs) fun s' hs => ?_
    exact (marked_failRuntime hrec).wp hs

theorem marked_removeSession (hrec : Keeps (Marked past) rec) (i : Nat) :
    Keeps (Marked past) (removeSession rec i) := by
  intro F s h
  unfold removeSession
  simp only [wp_get_bind]
  split
  · have hstays : s.phase = .completed → s.drainState.sessionFinished.2.phase = .completed :=
      fun hp => (completed_stays hp).2.1
    simp only [wp_modify_bind]
    split
    · rename_i hlast
      split
      · exact marked_finishDrain hrec (h.step hstays rfl id) (phase_of_last hlast)
      · exact wp_pure.mpr (h.step hstays rfl id)
    · refine Keeps.wp (Keeps.tryCatch marked_driveAccept (marked_failRuntime hrec)) ?_
      exact h.step hstays rfl id
  · exact wp_pure.mpr h

theorem marked_sessionStop (hrec : Keeps (Marked past) rec) (i : Nat) :
    Keeps (Marked past) (sessionStop rec i) := by
  unfold sessionStop
  refine Keeps.get_bind fun s _ => Keeps.ite (Keeps.pure _) ?_
  exact Keeps.update_bind (fun _ h => { h with }) (marked_removeSession hrec i)

theorem marked_sessionBeginDrain (hrec : Keeps (Marked past) rec) (i : Nat) :
    Keeps (Marked past) (sessionBeginDrain rec i) := by
  unfold sessionBeginDrain
  refine Keeps.get_bind fun s _ => Keeps.ite (Keeps.pure _) ?_
  refine Keeps.update_bind (fun _ h => { h with }) (Keeps.ask_bind fun b => ?_)
  exact Keeps.ite (marked_sessionStop hrec i) (Keeps.pure _)

theorem marked_stopAllSessions (hrec : Keeps (Marked past) rec) (fuel : Nat) :
    Keeps (Marked past) (stopAllSessions rec fuel) := by
  induction fuel with
  | zero => exact Keeps.update fun _ h => { h with }
  | succ fuel ih =>
      unfold stopAllSessions
      refine Keeps.update_bind (fun _ h => { h with }) (Keeps.get_bind fun s _ => ?_)
      split
      · exact Keeps.pure _
      · exact Keeps.bind (marked_sessionStop hrec _) fun _ => ih

theorem marked_stopBody (hrec : Keeps (Marked past) rec) : Keeps (Marked past) (stopBody rec) := by
  unfold stopBody
  refine Keeps.update_bind (fun _ h => { h with }) (Keeps.get_bind fun s _ => ?_)
  refine Keeps.update_bind (fun s h => h.step (fun hp => ?_) rfl id) (Keeps.ite (Keeps.pure _) ?_)
  · exact (congrArg DrainState.phase (completed_stays hp).2.2.2).trans hp
  · exact Keeps.update_bind (fun _ h => { h with }) (marked_stopAllSessions hrec _)

end Reentrant

theorem marked_stopAt (depth : Nat) : Keeps (Marked past) (stopAt depth) := by
  induction depth with
  | zero => exact Keeps.update fun _ h => { h with }
  | succ depth ih => exact marked_stopBody ih

theorem marked_stop : Keeps (Marked past) stop := marked_stopAt 2

theorem marked_beginDrain : Keeps (Marked past) beginDrain := by
  have hsessions : ∀ sessions, Keeps (Marked past) (beginDrainSessions sessions) := by
    intro sessions
    induction sessions with
    | nil => exact Keeps.pure _
    | cons i rest ih => exact Keeps.bind (marked_sessionBeginDrain marked_stop i) fun _ => ih
  unfold beginDrain
  refine Keeps.tryCatch (fun F s h => ?_) (marked_failRuntime marked_stop)
  unfold beginDrainImpl
  simp only [wp_get_bind]
  split
  · exact wp_pure.mpr h
  · have hstays : s.phase = .completed → s.drainState.beginDrain.2.phase = .completed :=
      fun hp => (congrArg DrainState.phase (completed_stays hp).2.2.1).trans hp
    simp only [wp_modify_bind]
    split
    · rename_i hlast
      exact marked_finishDrain marked_stop (h.step hstays rfl id) (phase_of_beginDrain hlast)
    · refine Keeps.wp (Keeps.mayThrow_bind (Keeps.bind (hsessions _) fun _ => ?_))
        (h.step hstays rfl id)
      refine Keeps.get_bind fun s' _ => Keeps.ite (Keeps.pure _) ?_
      exact Keeps.mayThrow_bind (Keeps.update fun _ h => { h with })

theorem Marked.widen (h : Marked True s) : Marked past s := ⟨fun _ => h.phase trivial, h.claimed⟩

theorem marked_forceStop (why : ServerNote) : Keeps (Marked past) (forceStop why) := by
  intro F s h
  unfold forceStop
  simp only [wp_get_bind]
  split
  · exact wp_pure.mpr h
  · have hstays : s.phase = .completed → s.drainState.beginForceStop.2.phase = .completed :=
      fun hp => (congrArg DrainState.phase (completed_stays hp).2.2.2).trans hp
    simp only [wp_modify_bind]
    split
    · rename_i hlast
      -- the drain is complete all through the loop
      have hforced : Marked past (stopAccepting (note why { s with
          drainState := s.drainState.beginForceStop.2, drainForced := true })) :=
        h.step hstays rfl id
      have hloop : Keeps (Marked True) (stopAllSessions stop s.sessions.length) :=
        marked_stopAllSessions marked_stop _
      refine wp_bind (wp_mono (hloop.wp
        ⟨fun _ => phase_of_beginForceStop hlast, hforced.claimed⟩) (fun _ s' hs => ?_)
        fun _ hs => hs.widen)
      exact marked_finishDrain marked_stop hs.widen (hs.phase trivial)
    · exact Keeps.wp (Keeps.bind (marked_stopAllSessions marked_stop _) fun _ => Keeps.pure _)
        (h.step hstays rfl id)

theorem marked_onDrainTimer (error : Error) : Keeps (Marked past) (onDrainTimer error) := by
  unfold onDrainTimer forceStopAfterTimeout
  refine Keeps.get_bind fun s _ => ?_
  split
  · exact Keeps.pure _
  · exact marked_forceStop _
  · exact marked_failRuntime marked_stop

theorem marked_onAccept (error : Error) (position : Nat) :
    Keeps (Marked past) (onAccept error position) := by
  unfold onAccept sessionStart
  refine Keeps.update_bind (fun _ h => { h with }) (Keeps.get_bind fun s _ => ?_)
  refine Keeps.ite (Keeps.pure _) (Keeps.ite ?_ ?_)
  · refine Keeps.mayThrow_bind (Keeps.update_bind (fun _ h => { h with }) ?_)
    exact Keeps.mayThrow_bind (Keeps.update fun _ h => { h with })
  · refine Keeps.mayThrow_bind (Keeps.update_bind (fun s h => h.step (fun hp => ?_) rfl id) ?_)
    · exact (congrArg DrainState.phase (completed_stays hp).1).trans hp
    refine Keeps.bind (Keeps.mayThrow_bind (Keeps.ask_bind fun b => ?_)) fun _ => marked_driveAccept
    exact Keeps.ite (marked_sessionStop marked_stop _) (Keeps.pure _)

theorem marked_onAcceptRetryTimer (error : Error) : Keeps (Marked past) (onAcceptRetryTimer error) := by
  unfold onAcceptRetryTimer
  refine Keeps.update_bind (fun _ h => { h with }) (Keeps.get_bind fun s _ => ?_)
  split
  · exact Keeps.tryCatch marked_driveAccept (marked_failRuntime marked_stop)
  · exact Keeps.pure _
  · exact marked_failRuntime marked_stop

theorem marked_armSignalWait : Keeps (Marked past) armSignalWait := by
  unfold armSignalWait
  refine Keeps.tryCatch (Keeps.mayThrow_bind ?_) ?_
  · exact Keeps.update_bind (fun _ h => { h with }) (Keeps.pure _)
  · exact Keeps.bind (marked_failSignalWait marked_stop) fun _ => Keeps.pure _

/-- A completion is never taken back. -/
theorem onWaitCompletion_completed {s : ShutdownSignalState} (error : Error)
    (h : s.completed = true) : s.onWaitCompletion error = (.ignored, s)
      ∨ s.onWaitCompletion error = (.fatal, s) := by
  cases error with
  | none => exact Or.inl (if_pos (by simp [h]))
  | some code =>
      by_cases hcode : code = .operationAborted
      · exact Or.inl (if_pos (by simp [h, hcode]))
      · exact Or.inr (if_neg (by simp [hcode]))

theorem marked_onSignal (error : Error) : Keeps (Marked past) (onSignal error) := by
  intro F s h
  have hmarked : Marked past
      { s with shutdownSignal := (s.shutdownSignal.onWaitCompletion error).2 } := by
    refine h.step id rfl fun htold => ?_
    rcases onWaitCompletion_completed error htold with heq | heq
    all_goals
      rw [heq]
      exact htold
  unfold onSignal forceStopDrain
  simp only [wp_get_bind, wp_modify_bind]
  split
  · refine Keeps.wp (Keeps.bind marked_armSignalWait fun b => ?_) hmarked
    exact Keeps.ite marked_beginDrain (Keeps.pure _)
  · refine Keeps.wp (Keeps.get_bind fun s _ => ?_) hmarked
    exact Keeps.ite (Keeps.pure _) (marked_forceStop _)
  · exact (Keeps.pure _).wp hmarked
  · exact (marked_failSignalWait marked_stop).wp hmarked

theorem marked_handle (e : ServerEvent) : Keeps (Marked past) (handle e) := by
  cases e with
  | accept error position =>
      refine Keeps.get_bind fun s _ => Keeps.ite (Keeps.pure _) ?_
      refine Keeps.update_bind (fun _ h => { h with }) ?_
      exact Keeps.tryCatch (marked_onAccept error position) (marked_failRuntime marked_stop)
  | acceptRetry error =>
      refine Keeps.get_bind fun s _ => Keeps.ite (Keeps.pure _) ?_
      exact Keeps.update_bind (fun _ h => { h with }) (marked_onAcceptRetryTimer error)
  | sessionFinish i =>
      refine Keeps.get_bind fun s _ => Keeps.ite (marked_sessionStop marked_stop i) (Keeps.pure _)
  | drainTimer error =>
      refine Keeps.get_bind fun s _ => Keeps.ite (Keeps.pure _) ?_
      exact Keeps.update_bind (fun _ h => { h with }) (marked_onDrainTimer error)
  | signal error =>
      refine Keeps.get_bind fun s _ => Keeps.ite (Keeps.pure _) ?_
      exact Keeps.update_bind (fun _ h => { h with }) (marked_onSignal error)
  | healthFailure =>
      refine Keeps.get_bind fun s _ => Keeps.ite (Keeps.pure _) ?_
      exact Keeps.update_bind (fun _ h => { h with }) (marked_failRuntime marked_stop)
  | stop => exact marked_stop

theorem step_marked (h : Marked past s) (e : ServerEvent × Oracle ServerSite) :
    Marked past (step e s) := (marked_handle e.1).exec e.2 h

theorem launch_marked {o : Oracle ServerSite} (h : launch m o = some s) : Marked False s := by
  have hstart : Keeps (Marked False) (do start; let _ ← armSignalWait; pure () : ServerAct Unit) := by
    unfold start
    refine Keeps.bind (Keeps.mayThrow_bind ?_) fun _ =>
      Keeps.bind marked_armSignalWait fun _ => Keeps.pure _
    refine Keeps.update_bind (fun _ h => { h with }) ?_
    exact Keeps.bind marked_driveAccept fun _ => Keeps.mayThrow _
  have hrun := hstart.exec (s := { acceptCapacity := { maxConnections := m } }) o
    ⟨False.elim, fun hclaimed => by cases hclaimed⟩
  unfold launch at h
  unfold exec at hrun
  revert h hrun
  rcases (do start; let _ ← armSignalWait; pure () : ServerAct Unit) o
      { acceptCapacity := { maxConnections := m } } with ⟨_ | _, o', s'⟩
  · intro h
    cases h
  · rintro ⟨⟩ hrun
    exact hrun

/-! ## What is left to the server -/

/-- The operations that are outstanding. -/
def work (s : ServerState) : Nat := s.acceptOps + s.retryWaits + s.drainWaits + s.signalWaits

/-- The event is the completion of an operation that is outstanding. -/
def ServerEvent.due (s : ServerState) : ServerEvent → Bool
  | .accept _ _ => s.acceptOps ≠ 0
  | .acceptRetry _ => s.retryWaits ≠ 0
  | .drainTimer _ => s.drainWaits ≠ 0
  | .signal _ => s.signalWaits ≠ 0
  | .sessionFinish _ | .healthFailure | .stop => false

/-- No session is left, and the application knows. -/
structure Done (s : ServerState) : Prop where
  phase : s.phase = .completed
  told : s.shutdownSignal.completed = true

/-- No session is accepted from `s` to `s'`, and no operation started. -/
structure Spent (s s' : ServerState) : Prop where
  sessions : s'.nextSession = s.nextSession
  accepts : s'.acceptsStarted = s.acceptsStarted
  acceptOps : s'.acceptOps ≤ s.acceptOps
  retryWaits : s'.retryWaits ≤ s.retryWaits
  drainWaits : s'.drainWaits ≤ s.drainWaits
  signalWaits : s'.signalWaits ≤ s.signalWaits

/-- `s'` has what is left of `s` when `n` operations have completed. -/
structure Pays (n : Nat) (s s' : ServerState) : Prop extends Spent s s' where
  work : work s' + n = work s

theorem Spent.trans {s'' : ServerState} (h : Spent s s') (h' : Spent s' s'') : Spent s s'' where
  sessions := h'.sessions.trans h.sessions
  accepts := h'.accepts.trans h.accepts
  acceptOps := Nat.le_trans h'.acceptOps h.acceptOps
  retryWaits := Nat.le_trans h'.retryWaits h.retryWaits
  drainWaits := Nat.le_trans h'.drainWaits h.drainWaits
  signalWaits := Nat.le_trans h'.signalWaits h.signalWaits

theorem Pays.refl (s : ServerState) : Pays 0 s s :=
  ⟨⟨rfl, rfl, Nat.le_refl _, Nat.le_refl _, Nat.le_refl _, Nat.le_refl _⟩, rfl⟩

theorem Pays.trans {n n' : Nat} {s'' : ServerState} (h : Pays n s s') (h' : Pays n' s' s'') :
    Pays (n + n') s s'' := by
  refine ⟨h.toSpent.trans h'.toSpent, ?_⟩
  have hfirst := h.work
  have hsecond := h'.work
  omega

theorem Done.of_reported (hrest : Rest m s) (hmarked : Marked past s)
    (hreported : ∃ p k, .drainComplete p k ∈ s.notes) : Done s := by
  obtain ⟨p, k, hmem⟩ := hreported
  have hcount : 0 < s.notes.countP ServerNote.isDrainComplete :=
    List.countP_pos_iff.mpr ⟨_, hmem, rfl⟩
  rw [hrest.core.journal.callback] at hcount
  have hclaimed : s.drainCallbackClaimed = true := by
    by_contra hfree
    rw [Bool.not_eq_true] at hfree
    rw [hfree] at hcount
    exact Nat.lt_irrefl 0 hcount
  obtain ⟨htold, hphase⟩ := hmarked.claimed hclaimed
  exact ⟨hphase, htold⟩

theorem Done.halted (h : Done s) : s.phase ≠ .running := by
  rw [h.phase]
  simp

theorem beginForceStop_completed {d : DrainState} (h : d.phase = .completed) :
    d.beginForceStop = (.unchanged, d) := if_pos (Or.inr h)

/-- Calls that find the server drained change nothing but notes and the exit code. -/
theorem wp_stop_done (h : Done s) :
    wp anywhere stop (fun _ s' => Done s' ∧ Pays 0 s s') (fun _ => False) s := by
  refine wp_mono (stop_quiet s (Or.inr h.phase)) ?_ fun _ hf => hf
  rintro _ s' rfl
  have hforce : s.drainState.beginForceStop = _ := beginForceStop_completed h.phase
  exact ⟨⟨congrArg (fun r => r.2.phase) hforce |>.trans h.phase, h.told⟩, { Pays.refl s with }⟩

theorem wp_failRuntime_done (h : Done s) :
    wp anywhere (failRuntime stop) (fun _ s' => Done s' ∧ Pays 0 s s') (fun _ => False) s := by
  unfold failRuntime onRuntimeFailure
  simp only [wp_get_bind]
  split
  · exact wp_pure.mpr ⟨h, .refl s⟩
  · simp only [wp_modify_bind]
    have hclaimed : Done (note .runtimeFailure { s with runtimeFailureClaimed := true }) := { h with }
    refine wp_bind (wp_mono (wp_stop_done hclaimed) ?_ fun _ hf => hf)
    rintro _ s' ⟨hdone, hpays⟩
    exact wp_modify.mpr ⟨⟨hdone.phase, rfl⟩, { hpays with }⟩

theorem wp_failSignalWait_done (h : Done s) :
    wp anywhere (failSignalWait stop) (fun _ s' => Done s' ∧ Pays 0 s s') (fun _ => False) s := by
  unfold failSignalWait
  simp only [wp_modify_bind]
  have hrecorded : Done (note .signalWaitFailed
      { s with shutdownSignal := s.shutdownSignal.markCompleted, exitFailure := true }) :=
    ⟨h.phase, rfl⟩
  refine wp_bind (wp_mono (wp_stop_done hrecorded) ?_ fun _ hf => hf)
  rintro _ s' ⟨hdone, hpays⟩
  exact wp_modify.mpr ⟨{ hdone with }, { hpays with }⟩

/-- A handler that finds the server drained starts nothing. -/
def Rests (a : ServerAct Unit) : Prop :=
  ∀ s, Done s → wp anywhere a (fun _ s' => Done s' ∧ Pays 0 s s') (fun _ => False) s

theorem onAccept_rests (error : Error) (position : Nat) : Rests (onAccept error position) := by
  intro s h
  unfold onAccept
  simp only [wp_modify_bind, wp_get_bind]
  split
  · exact wp_pure.mpr ⟨{ h with }, { Pays.refl s with }⟩
  · rename_i hrunning
    exact absurd h.halted hrunning

theorem onAcceptRetryTimer_rests (error : Error) : Rests (onAcceptRetryTimer error) := by
  intro s h
  unfold onAcceptRetryTimer
  simp only [wp_modify_bind, wp_get_bind]
  have hretried : Done { s with acceptCapacity := s.acceptCapacity.retryCompleted } := { h with }
  rw [show classifyAcceptRetryCompletion error _ = .stopped from
    if_pos (decide_eq_true hretried.halted)]
  exact wp_pure.mpr ⟨hretried, { Pays.refl s with }⟩

theorem onDrainTimer_rests (error : Error) : Rests (onDrainTimer error) := by
  intro s h
  have hclass : classifyDrainTimerCompletion error s.phase = .ignored := by
    rw [h.phase]
    rfl
  unfold onDrainTimer
  simp only [wp_get_bind, hclass]
  exact wp_pure.mpr ⟨h, .refl s⟩

theorem onSignal_rests (error : Error) : Rests (onSignal error) := by
  intro s h
  unfold onSignal
  simp only [wp_get_bind, wp_modify_bind]
  rcases onWaitCompletion_completed error h.told with heq | heq
  · rw [heq]
    exact wp_pure.mpr ⟨h, .refl s⟩
  · rw [heq]
    exact wp_failSignalWait_done h

/-- The server has one operation less, and its handler starts nothing. -/
theorem Rests.wp {a : ServerAct Unit} (ha : Rests a) {n : Nat} (hdone : Done s')
    (hpays : Pays n s s') :
    wp anywhere a (fun _ s'' => Done s'' ∧ Pays n s s'') (fun _ => False) s' :=
  wp_mono (ha s' hdone) (fun _ _ h => ⟨h.1, hpays.trans h.2⟩) fun _ hf => hf

/-- An event that finds the server drained. -/
theorem wp_handle_done (h : Done s) (hc : Core m s) (ht : Tracked s) (e : ServerEvent) :
    wp anywhere (handle e) (fun _ s' => Done s' ∧ Pays (e.due s).toNat s s') (fun _ => False)
      s := by
  have hpure : wp anywhere (pure () : ServerAct Unit) (fun _ s' => Done s' ∧ Pays 0 s s')
      (fun _ => False) s := wp_pure.mpr ⟨h, .refl s⟩
  unfold handle
  cases e with
  | accept error position =>
      simp only [wp_get_bind, ServerEvent.due]
      split
      · rename_i hnone
        simp only [hnone, ne_eq, not_true_eq_false, decide_false]
        exact hpure
      · rename_i hops
        simp only [ne_eq, hops, not_false_eq_true, decide_true, wp_modify_bind]
        refine wp_tryCatch (wp_mono ((onAccept_rests error position).wp { h with } { Pays.refl s with
          acceptOps := Nat.sub_le ..
          work := ?_ }) (fun _ _ hs => hs) fun _ hf => hf.elim)
        simp only [Server.work, Bool.toNat_true]
        omega
  | acceptRetry error =>
      simp only [wp_get_bind, ServerEvent.due]
      split
      · rename_i hnone
        simp only [hnone, ne_eq, not_true_eq_false, decide_false]
        exact hpure
      · rename_i hops
        simp only [ne_eq, hops, not_false_eq_true, decide_true, wp_modify_bind]
        refine (onAcceptRetryTimer_rests error).wp { h with } { Pays.refl s with
          retryWaits := Nat.sub_le ..
          work := ?_ }
        simp only [Server.work, Bool.toNat_true]
        omega
  | sessionFinish i =>
      simp only [wp_get_bind, ServerEvent.due]
      split
      · rename_i hi
        have hfinished : s.sessionFinished i = true := by
          by_contra hopen
          have hmem := ht i hi (by simpa using hopen)
          rw [hc.drained h.phase] at hmem
          cases hmem
        simp only [sessionStop, wp_get_bind, hfinished, if_true]
        exact hpure
      · exact hpure
  | drainTimer error =>
      simp only [wp_get_bind, ServerEvent.due]
      split
      · rename_i hnone
        simp only [hnone, ne_eq, not_true_eq_false, decide_false]
        exact hpure
      · rename_i hops
        simp only [ne_eq, hops, not_false_eq_true, decide_true, wp_modify_bind]
        refine (onDrainTimer_rests error).wp { h with } { Pays.refl s with
          drainWaits := Nat.sub_le ..
          work := ?_ }
        simp only [Server.work, Bool.toNat_true]
        omega
  | signal error =>
      simp only [wp_get_bind, ServerEvent.due]
      split
      · rename_i hnone
        simp only [hnone, ne_eq, not_true_eq_false, decide_false]
        exact hpure
      · rename_i hops
        simp only [ne_eq, hops, not_false_eq_true, decide_true, wp_modify_bind]
        refine (onSignal_rests error).wp { h with } { Pays.refl s with
          signalWaits := Nat.sub_le ..
          work := ?_ }
        simp only [Server.work, Bool.toNat_true]
        omega
  | healthFailure =>
      simp only [wp_get_bind, ServerEvent.due]
      split
      · exact hpure
      · simp only [wp_modify_bind]
        have hrests : Rests (failRuntime stop) := fun _ => wp_failRuntime_done
        exact hrests.wp { h with } { Pays.refl s with }
  | stop => exact wp_stop_done h

theorem step_done (h : Done s) (hc : Core m s) (ht : Tracked s)
    (e : ServerEvent × Oracle ServerSite) :
    Done (step e s) ∧ Pays (e.1.due s).toNat s (step e s) :=
  exec_of_wp (admissible_none e.2)
    (wp_mono (wp_handle_done h hc ht e.1) (fun _ _ hs => hs) fun _ hf => hf.elim)

end Server

end ApiGate
