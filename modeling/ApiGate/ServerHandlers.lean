import ApiGate.ServerInvariant

/-!
# The server's handlers keep the invariant

One specification for each function of the server, along the call graph from
`drive_accept` up to the handlers of the event loop. The nested `stop()` is an
argument of the functions below it, and its specification is a hypothesis of
theirs: `QuietStop` where the server has stopped running, `FullStop` where it
may still be.
-/

namespace ApiGate

open EventLoop Act ServerState

namespace Server

variable {m : Nat} {s : ServerState} {rec : ServerAct Unit}

/-- A call of `stop()` that finds the server stopping or drained. -/
def QuietStop (rec : ServerAct Unit) : Prop :=
  ∀ s : ServerState, s.phase = .forceStopping ∨ s.phase = .completed →
    wp anywhere rec (fun _ s' => s' = stopEntry s) (fun _ => False) s

/-- A call of `stop()` that is not nested in the loop of another. -/
def FullStop (m : Nat) (rec : ServerAct Unit) : Prop :=
  ∀ s : ServerState, s.phase ≠ .forceStopping → Core m (stopEntry s) →
    wp anywhere rec (fun _ s' => Core m s' ∧ .stopped ∈ s'.notes ∧ Since s s')
      (fun _ => False) s

/-! ## Accepting -/

theorem driveAccept_spec (hc : Core m s) (ht : Tidy s) (hs : Settled s) :
    wp anywhere driveAccept (fun _ s' => Kept m s s' ∧ Awake m s')
      (fun s' => Core m s' ∧ Since s s') s := by
  unfold driveAccept
  simp only [wp_get_bind]
  split
  · rename_i hp
    exact wp_pure.mpr ⟨Kept.refl hc ht hs, fun hr => absurd hr hp⟩
  · rename_i hp
    have hrun : s.phase = .running := by simpa using hp
    obtain ⟨hstopped, hops, hwaits⟩ := ht hrun
    simp only [wp_modify_bind]
    rcases s.acceptCapacity.nextAction_cases with
      ⟨a, b, ha, hna, hbusy⟩ | ⟨a, ha, hna, hacc, hretry, hroom⟩
    · -- nothing is started: something is pending already, or the server is full
      have hc' : Core m { s with acceptCapacity := { s.acceptCapacity with paused := b } } :=
        { hc with }
      have hk : Kept m s { s with acceptCapacity := { s.acceptCapacity with paused := b } } :=
        ⟨hc', ht, hs, id, Since.of_eq rfl rfl rfl rfl rfl⟩
      have hw : Awake m { s with acceptCapacity := { s.acceptCapacity with paused := b } } := by
        intro _
        have hactive := hc.active
        have hlimit := hc.limit
        have hfull := hc.room
        show s.acceptOps = 1 ∨ s.retryWaits = 1 ∨ s.acceptCapacity.activeConnections = m
        rcases hbusy with h | h | h | h
        · simp [hstopped] at h
        · simp [hops, h]
        · simp [hwaits, h]
        · omega
      rcases ha with rfl | rfl <;> simpa [hna] using ⟨hk, hw⟩
    · -- the accept is marked pending before it is initiated
      have hroom' : s.sessions.length + 1 ≤ m := by
        rw [← hc.active, ← hc.limit]
        omega
      have hc0 : Core m { s with acceptCapacity :=
          { s.acceptCapacity with acceptPending := true, paused := false } } :=
        { hc with
          room := hroom'
          acceptOp := Nat.le_trans hc.acceptOp (by simp [hacc])
          exclusive := by simp [hretry] }
      have hc' : Core m { s with
          acceptCapacity := { s.acceptCapacity with acceptPending := true, paused := false },
          acceptOps := s.acceptOps + 1, acceptsStarted := s.acceptsStarted + 1 } :=
        { hc0 with acceptOp := by simp [hops, hacc] }
      have hk : Kept m s { s with
          acceptCapacity := { s.acceptCapacity with acceptPending := true, paused := false },
          acceptOps := s.acceptOps + 1, acceptsStarted := s.acceptsStarted + 1 } :=
        ⟨hc', fun _ => ⟨hstopped, by simp [hops, hacc], hwaits⟩, hs,
          fun _ _ => Or.inl (by simp [hops, hacc]), Since.of_eq rfl rfl rfl rfl rfl⟩
      have hw : s.acceptOps + 1 = 1 := by simp [hops, hacc]
      rcases ha with rfl | rfl
      all_goals
        simp only [hna]
        refine wp_mayThrow_bind ?_ fun _ => ⟨hc0, Since.of_eq rfl rfl rfl rfl rfl⟩
        exact wp_modify.mpr ⟨hk, fun _ => Or.inl hw⟩

/-! ## Stopping and completing a drain -/

theorem Progress.stopEntry (s : ServerState) : Progress s (stopEntry s) where
  notes := List.subset_cons_self ..
  halted _ := by
    rcases beginForceStop_phase s.drainState with hp | hp <;>
      simp [Server.stopEntry, ServerState.phase, hp]
  next := Nat.le_refl _
  exit := id
  failure hn := by simpa [Server.stopEntry, note] using Or.inl hn

theorem beginForceStop_unchanged {d : DrainState}
    (h : d.phase = .forceStopping ∨ d.phase = .completed) : d.beginForceStop = (.unchanged, d) := by
  unfold DrainState.beginForceStop
  exact if_pos h

theorem unchanged_phase {d : DrainState} (h : d.beginForceStop.1 = .unchanged) :
    d.phase = .forceStopping ∨ d.phase = .completed := by
  by_contra hp
  unfold DrainState.beginForceStop DrainState.transitionTo at h
  rw [if_neg hp] at h
  split at h <;> cases h

/-- `stop()` of a server that is drained. -/
theorem Since.stopEntry_completed (hp : s.phase = .completed) : Since s (stopEntry s) := by
  refine (Progress.stopEntry s).ended ?_ id
  show s.drainState.beginForceStop.2.phase = .completed
  rw [beginForceStop_unchanged (Or.inr hp)]
  exact hp

theorem Since.recordSignalFailure (s : ServerState) : Since s (recordSignalFailure s) where
  notes := List.subset_cons_self ..
  halted := id
  next := Nat.le_refl _
  exit _ := rfl
  failure _ := Or.inr rfl
  toLooped := Looped.of_eq rfl (by simp [StopNoted, Server.recordSignalFailure, note]) id id

/-- The sessions are as they were, and the loop was not entered. -/
structure Unmoved (s s' : ServerState) : Prop where
  sessions : s'.sessions = s.sessions
  finished : s'.sessionFinished = s.sessionFinished
  created : s'.nextSession = s.nextSession
  loopHeads : s'.loopHeads = s.loopHeads

theorem Unmoved.refl (s : ServerState) : Unmoved s s := ⟨rfl, rfl, rfl, rfl⟩

/-- `fail_signal_wait` of a server that is drained. -/
theorem failSignalWait_quiet (hq : QuietStop rec) (hc : Core m s) (hp : s.phase = .completed) :
    wp anywhere (failSignalWait rec)
      (fun _ s' => Core m s' ∧ .stopped ∈ s'.notes ∧ Since s s' ∧ Unmoved s s')
      (fun _ => False) s := by
  unfold failSignalWait
  simp only [wp_modify_bind]
  refine wp_bind (wp_mono (hq (Server.recordSignalFailure s) (Or.inr hp)) ?_ (fun _ h => h))
  rintro _ s' rfl
  have hc' : Core m (Server.stopEntry (Server.recordSignalFailure s)) :=
    hc.recordSignalFailure.stopEntry
  have hs : Since s (Server.stopEntry (Server.recordSignalFailure s)) :=
    (Since.recordSignalFailure s).trans (Since.stopEntry_completed hp)
  refine wp_modify.mpr ⟨{ hc' with }, List.mem_cons_self .., ?_, rfl, rfl, rfl, rfl⟩
  exact hs.trans (Since.of_eq rfl rfl rfl rfl rfl)

theorem finishDrain_spec (hq : QuietStop rec) (hc : Core m s) (hp : s.phase = .completed) :
    wp anywhere (finishDrain rec)
      (fun _ s' => Core m s' ∧ Settled s' ∧ Since s s' ∧ Unmoved s s')
      (fun _ => False) s := by
  unfold finishDrain
  simp only [wp_get_bind]
  split
  · rename_i hdone
    refine wp_pure.mpr ⟨hc, fun _ he => ?_, Since.refl s, Unmoved.refl s⟩
    simpa [he] using hdone
  · rename_i hfirst
    simp only [Bool.or_eq_true, Bool.not_eq_true', not_or, Bool.not_eq_true,
      Bool.not_eq_false] at hfirst
    obtain ⟨hclaim, he⟩ := hfirst
    have hphase : s.drainState.phase = .completed := hp
    have hactive : s.drainState.activeSessions = 0 := hc.active_eq_zero.mpr (hc.drained hphase)
    have hc' : Core m (note (.drainComplete s.phase s.drainState.activeSessions)
        { s with drainCallbackClaimed := true,
                 shutdownSignal := s.shutdownSignal.markCompleted }) :=
      { hc with
        journal := by
          have hj := hc.journal
          rw [hphase, he, hclaim] at hj
          simpa [note, hp, hphase, hactive, he] using hj.complete }
    have hs : Since s (note (.drainComplete s.phase s.drainState.activeSessions)
        { s with drainCallbackClaimed := true,
                 shutdownSignal := s.shutdownSignal.markCompleted }) :=
      { notes := List.subset_cons_self ..
        halted := id
        next := Nat.le_refl _
        exit := id
        failure := fun hn => Or.inl (by simpa [note] using hn)
        toLooped := Looped.of_eq rfl (by simp [StopNoted, note]) id id }
    simp only [wp_modify_bind]
    refine wp_tryCatch (wp_bind ?_)
    refine wp_modify.mpr ?_
    refine wp_tryCatch (wp_mayThrow ⟨hc', fun _ _ => rfl, hs, rfl, rfl, rfl, rfl⟩ fun _ => ?_)
    refine wp_mono (failSignalWait_quiet hq hc' hp) ?_ (fun _ h => h.elim)
    rintro _ s' ⟨hcore, hstop, hsince, hun⟩
    refine ⟨hcore, fun _ he' => ?_, hs.trans hsince, { hun with }⟩
    exact absurd hstop (hcore.journal.enabled.mp he').2

theorem failRuntime_spec (hf : FullStop m rec) (hc : Core m s) (hcalm : s.phase ≠ .forceStopping) :
    wp anywhere (failRuntime rec) (fun _ s' => Stopped m s s') (fun _ => False) s := by
  unfold failRuntime onRuntimeFailure
  simp only [wp_get_bind]
  split
  · rename_i hclaimed
    have hfailed := hc.journal.claimed.mp hclaimed
    exact wp_pure.mpr ⟨hc, hc.journal.failed hfailed, Since.refl s⟩
  · simp only [wp_modify_bind]
    have hentry := hc.stopEntry_claimFailure
    refine wp_bind (wp_mono (hf (claimFailure s) hcalm hentry) ?_ (fun _ h => h))
    rintro _ s' ⟨hcore, hstopped, hsince⟩
    have hnotes : .runtimeFailure :: s.notes ⊆ s'.notes := hsince.notes
    have hfailed : .runtimeFailure ∈ s'.notes := hnotes (List.mem_cons_self ..)
    have hnoted : StopNoted s'.notes → StopNoted s.notes ∨ s'.phase = .completed := by
      simpa [StopNoted, claimFailure, note] using hsince.noted
    refine wp_modify.mpr ⟨{ hcore with journal := hcore.journal.exitCode hfailed }, hstopped, ?_⟩
    exact {
      notes := List.Subset.trans (List.subset_cons_self ..) hnotes
      halted := hsince.halted
      next := hsince.next
      exit := fun _ => rfl
      failure := fun _ => Or.inr rfl
      done := hsince.done
      entered := hsince.entered
      noted := hnoted
      completed := hsince.completed
      calm := hsince.calm }

/-! ## A session leaves -/

/-- `remove_session` of a session that is in the set. -/
theorem wp_removeSession {i : Nat} (hi : i ∈ s.sessions) {Q : Unit → ServerState → Prop}
    {E : ServerState → Prop}
    (h : wp anywhere
      (if s.drainState.sessionFinished.1 then
        if s.drainCompletionEnabled then finishDrain rec else pure ()
      else tryCatch driveAccept fun _ => failRuntime rec) Q E (dropSession i s)) :
    wp anywhere (removeSession rec i) Q E (finish i s) := by
  unfold removeSession
  simp only [wp_get_bind]
  rw [if_pos (show i ∈ (finish i s).sessions from hi)]
  exact h

theorem removeSession_halted (hq : QuietStop rec) (hc : Core m s) {i : Nat}
    (hi : i ∈ s.sessions) (hp : s.phase ≠ .running) :
    wp anywhere (removeSession rec i)
      (fun _ s' => Core m s' ∧ Settled s' ∧ Since s s' ∧ Unmoved (dropSession i s) s')
      (fun _ => False) (finish i s) := by
  have hdrop := hc.dropSession hi
  have hfin := hc.sessionFinished hi
  have hp' : s.drainState.phase ≠ .running := hp
  refine wp_removeSession hi ?_
  by_cases hlast : s.sessions.erase i = []
  · -- the last session completes the drain
    have hcompleted : (Server.dropSession i s).phase = .completed := by
      simp [Server.dropSession, ServerState.phase, hfin, hlast, hp']
    have hsince : Since s (Server.dropSession i s) :=
      { notes := List.Subset.refl _
        halted := fun _ => by simp [hcompleted]
        next := Nat.le_refl _
        exit := id
        failure := Or.inl
        toLooped := Looped.of_eq rfl id (fun _ => hcompleted) fun _ => by simp [hcompleted] }
    rw [if_pos (by simp [hfin, hlast, hp'])]
    split
    · refine wp_mono (finishDrain_spec hq hdrop hcompleted) ?_ (fun _ h => h)
      rintro _ s' ⟨hcore, hsettled, hs, hun⟩
      exact ⟨hcore, hsettled, hsince.trans hs, hun⟩
    · rename_i hdisabled
      exact wp_pure.mpr ⟨hdrop, fun _ he => absurd he hdisabled, hsince, Unmoved.refl _⟩
  · have hphase : (Server.dropSession i s).phase = s.phase := by
      simp [Server.dropSession, ServerState.phase, hfin, hlast]
    have hsettled : Settled (Server.dropSession i s) := fun hcompleted _ =>
      absurd (hdrop.drained hcompleted) hlast
    rw [if_neg (by simp [hfin, hlast])]
    refine wp_tryCatch ?_
    unfold driveAccept
    simp only [wp_get_bind]
    rw [if_pos (by rw [hphase]; exact hp)]
    refine wp_pure.mpr ⟨hdrop, hsettled, ?_, Unmoved.refl _⟩
    exact Since.of_eq rfl hphase rfl rfl rfl

theorem removeSession_running (hf : FullStop m rec) (hc : Core m s) (ht : Tidy s) {i : Nat}
    (hi : i ∈ s.sessions) (hp : s.phase = .running) :
    wp anywhere (removeSession rec i) (fun _ s' => Kept m s s' ∧ Awake m s') (fun _ => False)
      (finish i s) := by
  have hdrop := hc.dropSession hi
  have hp' : s.drainState.phase = .running := hp
  have hfin : s.drainState.sessionFinished =
      (false, { s.drainState with activeSessions := (s.sessions.erase i).length }) := by
    rw [hc.sessionFinished hi, if_neg (by simp [hp'])]
  have hphase : (Server.dropSession i s).phase = .running := by
    simp [Server.dropSession, ServerState.phase, hfin, hp']
  have hsince : Since s (Server.dropSession i s) :=
    Since.of_eq rfl (hphase.trans hp.symm) rfl rfl rfl
  have htidy : Tidy (Server.dropSession i s) := by
    intro _
    have hflags := ht hp
    simp only [Server.dropSession, AcceptCapacityState.sessionFinished, finish]
    split <;> exact hflags
  refine wp_removeSession hi ?_
  rw [if_neg (by simp [hfin])]
  refine wp_tryCatch (wp_mono (driveAccept_spec hdrop htidy ?_) ?_ ?_)
  · intro hcompleted
    simp [hphase] at hcompleted
  · rintro _ s' ⟨hkept, hawake⟩
    exact ⟨⟨hkept.core, hkept.tidy, hkept.settled, fun _ => hawake,
      hsince.trans hkept.since⟩, hawake⟩
  · rintro s' ⟨hcore, hs⟩
    have hcalm : s'.phase ≠ .forceStopping := hs.calm (by simp [hphase])
    refine wp_mono (failRuntime_spec hf hcore hcalm) ?_ (fun _ h => h)
    intro _ s'' hstop
    have hstop' : Stopped m s s'' :=
      { hstop with since := hsince.trans (hs.trans hstop.since) }
    exact ⟨hstop'.kept, fun hr => absurd hr hstop.halted⟩

theorem Kept.of_halted {s' : ServerState} (hp : s.phase ≠ .running) (hc : Core m s')
    (hs : Settled s') (hsince : Since s s') : Kept m s s' := by
  have hp' := hsince.halted hp
  exact ⟨hc, fun h => absurd h hp', hs, fun _ h => absurd h hp', hsince⟩

/-- A session may finish, or be stopped, at any moment at which `Core` holds. -/
theorem sessionStop_spec (hq : QuietStop rec) (hf : FullStop m rec) (hc : Core m s) (ht : Tidy s)
    (hs : Settled s) {i : Nat} (hi : i < s.nextSession) :
    wp anywhere (sessionStop rec i) (fun _ s' => Kept m s s') (fun _ => False) s := by
  unfold sessionStop
  simp only [wp_get_bind]
  split
  · exact wp_pure.mpr (Kept.refl hc ht hs)
  · simp only [wp_modify_bind]
    by_cases hmem : i ∈ s.sessions
    · by_cases hp : s.phase = .running
      · refine wp_mono (removeSession_running hf hc ht hmem hp) ?_ (fun _ h => h)
        rintro _ s' ⟨hkept, -⟩
        exact hkept
      · refine wp_mono (removeSession_halted hq hc hmem hp) ?_ (fun _ h => h)
        rintro _ s' ⟨hcore, hsettled, hsince, -⟩
        exact Kept.of_halted hp hcore hsettled hsince
    · unfold removeSession
      simp only [wp_get_bind]
      rw [if_neg (show i ∉ (finish i s).sessions from hmem)]
      have hlive : ∀ j, j ≠ i → (finish i s).sessionFinished j = s.sessionFinished j := by
        intro j hj
        simp [finish, hj]
      refine wp_pure.mpr ⟨{ hc with live := ?_, fresh := ?_ }, ht, hs, id,
        Since.of_eq rfl rfl rfl rfl rfl⟩
      · intro j hj
        have hne : j ≠ i := fun hji => hmem (hji ▸ hj)
        rw [hlive j hne]
        exact hc.live j hj
      · intro j hj
        have hne : j ≠ i := by
          rintro rfl
          exact absurd hi (Nat.not_lt.mpr hj)
        rw [hlive j hne]
        exact hc.fresh j hj

/-! ## Stopping the server -/

theorem Core.sound (hc : Core m s) : s.loopHead.Sound where
  unfinished i hi := (hc.live i hi).2
  activeConnections := hc.active
  activeSessions := hc.drainActive

/-- The loop ends where its condition finds the set empty. -/
theorem LoopOpen.exit (h : LoopOpen s) (hc : Core m s) (hnil : s.sessions = []) :
    LoopsDone (s.loopHead :: s.loopHeads) where
  sound := List.forall_mem_cons.mpr ⟨hc.sound, h.sound⟩
  turns := h.turns
  ended head hhead := by
    obtain rfl : s.loopHead = head := by simpa using hhead
    exact hnil

/-- `stop()` of the first session ends in the next evaluation of the condition. -/
theorem LoopOpen.turn {s' : ServerState} {i : Nat} {rest : List Nat} (h : LoopOpen s)
    (hc : Core m s) (hsess : s.sessions = i :: rest)
    (hun : Unmoved (dropSession i (atLoopHead s)) s') : LoopOpen s' where
  sound := by
    rw [hun.loopHeads]
    exact List.forall_mem_cons.mpr ⟨hc.sound, h.sound⟩
  turns := by
    rw [hun.loopHeads]
    refine List.IsChain.cons_cons (fun _ => ⟨i, rest, hsess, ?_, hun.finished, hun.created⟩) h.turns
    show s'.sessions = rest
    rw [hun.sessions]
    show s.sessions.erase i = rest
    rw [hsess, List.erase_cons_head]

/-- The loop removes one session in each turn, so as many turns as there are
sessions empty the set. -/
theorem stopAllSessions_turns (hq : QuietStop rec) (fuel : Nat) : ∀ {s : ServerState}, Core m s →
    Settled s → s.phase ≠ .running → s.sessions.length ≤ fuel →
    wp anywhere (stopAllSessions rec fuel)
      (fun _ s' => Core m s' ∧ Settled s' ∧ Progress s s' ∧ s'.sessions = []
        ∧ (LoopOpen s → LoopsDone s'.loopHeads)) (fun _ => False) s := by
  induction fuel with
  | zero =>
      intro s hc hs hp hlen
      have hnil : s.sessions = [] := List.length_eq_zero_iff.mp (Nat.le_zero.mp hlen)
      have hprogress : Progress s
          (atLoopHead { s with outOfFuel := s.outOfFuel || !s.sessions.isEmpty }) :=
        { Since.refl s with }
      refine wp_modify.mpr
        ⟨{ hc with fuel := ?_ }, hs, hprogress, hnil, fun hopen => hopen.exit hc hnil⟩
      simp [atLoopHead, hc.fuel, hnil]
  | succ fuel ih =>
      intro s hc hs hp hlen
      have hc' : Core m (atLoopHead s) := { hc with }
      have hprogress : Progress s (atLoopHead s) := { Since.refl s with }
      unfold stopAllSessions
      simp only [wp_modify_bind, wp_get_bind]
      cases hsess : (atLoopHead s).sessions with
      | nil =>
          exact wp_pure.mpr ⟨hc', hs, hprogress, hsess, fun hopen => hopen.exit hc hsess⟩
      | cons i rest =>
          have hi : i ∈ (atLoopHead s).sessions := by simp [hsess]
          refine wp_bind ?_
          unfold sessionStop
          simp only [wp_get_bind, (hc'.live i hi).2, Bool.false_eq_true, if_false, wp_modify_bind]
          refine wp_mono (removeSession_halted hq hc' hi hp) ?_ (fun _ h => h)
          rintro _ s₁ ⟨hc₁, hs₁, hsince, hun⟩
          have hlen₁ : s₁.sessions.length ≤ fuel := by
            rw [hun.sessions]
            show ((atLoopHead s).sessions.erase i).length ≤ fuel
            rw [List.length_erase_of_mem hi]
            exact Nat.sub_le_of_le_add hlen
          refine wp_mono (ih hc₁ hs₁ (hsince.halted hp) hlen₁) ?_ (fun _ h => h)
          rintro _ s' ⟨hc', hs', hprogress', hnil, hdone⟩
          exact ⟨hc', hs', hprogress.trans (hsince.toProgress.trans hprogress'), hnil,
            fun hopen => hdone (hopen.turn hc hsess hun)⟩

theorem stopAllSessions_spec (hq : QuietStop rec) (fuel : Nat) (hc : Core m s) (hs : Settled s)
    (hp : s.phase ≠ .running) (hlen : s.sessions.length ≤ fuel) :
    wp anywhere (stopAllSessions rec fuel)
      (fun _ s' => Core m s' ∧ Settled s' ∧ Since s s' ∧ s'.phase = .completed)
      (fun _ => False) s := by
  refine wp_mono (stopAllSessions_turns hq fuel hc hs hp hlen) ?_ (fun _ h => h)
  rintro _ s' ⟨hc', hs', hprogress, hnil, hdone⟩
  have hcompleted : s'.phase = .completed := (hc'.idle hnil).resolve_left (hprogress.halted hp)
  exact ⟨hc', hs', hprogress.ended hcompleted (hdone ∘ LoopsDone.enter), hcompleted⟩

theorem stopBody_quiet (rec : ServerAct Unit) : QuietStop (stopBody rec) := by
  intro s hp
  unfold stopBody
  simp only [wp_modify_bind, wp_get_bind]
  rw [if_pos (by simp [note, beginForceStop_unchanged hp])]
  exact wp_pure.mpr rfl

theorem stopBody_full (hq : QuietStop rec) : FullStop m (stopBody rec) := by
  intro s hcalm hc
  have hp : (Server.stopEntry s).phase ≠ .running := hc.journal.stopped (List.mem_cons_self ..)
  have hsettled : Settled (Server.stopEntry s) := fun _ he => by simp [Server.stopEntry, note] at he
  have hprogress : Progress s (ServerState.stopAccepting (Server.stopEntry s)) :=
    { Progress.stopEntry s with }
  unfold stopBody
  simp only [wp_modify_bind, wp_get_bind]
  split
  · rename_i hunchanged
    have hcompleted : s.phase = .completed := (unchanged_phase hunchanged).resolve_left hcalm
    exact wp_pure.mpr ⟨hc, List.mem_cons_self .., Since.stopEntry_completed hcompleted⟩
  · refine wp_mono (stopAllSessions_spec (s := ServerState.stopAccepting (Server.stopEntry s))
      hq _ hc.stopAccepting hsettled hp (Nat.le_refl _)) ?_ (fun _ h => h)
    rintro _ s' ⟨hc', -, hsince, hcompleted⟩
    exact ⟨hc', hsince.notes (List.mem_cons_self ..),
      (hprogress.trans hsince.toProgress).ended hcompleted hsince.done⟩

theorem stop_quiet : QuietStop stop := stopBody_quiet _

theorem stop_full : FullStop m stop := stopBody_full (stopBody_quiet _)

theorem stop_spec (hc : Core m s) (hcalm : s.phase ≠ .forceStopping) :
    wp anywhere stop (fun _ s' => Stopped m s s') (fun _ => False) s :=
  wp_mono (stop_full s hcalm hc.stopEntry) (fun _ _ h => ⟨h.1, h.2.1, h.2.2⟩) (fun _ h => h)

theorem failSignalWait_spec (hc : Core m s) (hcalm : s.phase ≠ .forceStopping) :
    wp anywhere (failSignalWait stop) (fun _ s' => Stopped m s s') (fun _ => False) s := by
  unfold failSignalWait
  simp only [wp_modify_bind]
  refine wp_bind (wp_mono (stop_spec (s := Server.recordSignalFailure s) hc.recordSignalFailure
    hcalm) ?_ (fun _ h => h))
  intro _ s' hstop
  have hsince := (Since.recordSignalFailure s).trans hstop.since
  exact wp_modify.mpr ⟨{ hstop.core with }, hstop.noted,
    hsince.trans (Since.of_eq rfl rfl rfl rfl rfl)⟩

/-! ## Draining -/

theorem sessionBeginDrain_spec (hc : Core m s) (hp : s.phase ≠ .running) (hs : Settled s) {i : Nat}
    (hi : i < s.nextSession) :
    wp anywhere (sessionBeginDrain stop i) (fun _ s' => Kept m s s') (fun _ => False) s := by
  have ht : Tidy s := fun hr => absurd hr hp
  unfold sessionBeginDrain
  simp only [wp_get_bind]
  split
  · exact wp_pure.mpr (Kept.refl hc ht hs)
  · simp only [wp_modify_bind]
    have hk : Kept m s { s with sessionDraining := Function.update s.sessionDraining i true } :=
      ⟨{ hc with }, ht, hs, id, Since.of_eq rfl rfl rfl rfl rfl⟩
    refine wp_ask_bind ?_ fun _ => ?_
    · exact wp_pure.mpr hk
    · refine wp_mono (sessionStop_spec stop_quiet stop_full hk.core hk.tidy hk.settled hi) ?_
        (fun _ h => h)
      intro _ s' hk'
      exact hk.trans hk'

theorem beginDrainSessions_spec (l : List Nat) : ∀ {s : ServerState}, Core m s →
    s.phase ≠ .running → Settled s → (∀ i ∈ l, i < s.nextSession) →
    wp anywhere (beginDrainSessions l) (fun _ s' => Kept m s s') (fun _ => False) s := by
  induction l with
  | nil =>
      intro s hc hp hs _
      exact wp_pure.mpr (Kept.refl hc (fun hr => absurd hr hp) hs)
  | cons i rest ih =>
      intro s hc hp hs hl
      refine wp_bind (wp_mono (sessionBeginDrain_spec hc hp hs (hl i (by simp))) ?_ (fun _ h => h))
      intro _ s' hk
      have hl' : ∀ j ∈ rest, j < s'.nextSession := by
        intro j hj
        exact Nat.lt_of_lt_of_le (hl j (by simp [hj])) hk.since.next
      refine wp_mono (ih hk.core (hk.since.halted hp) hk.settled hl') ?_ (fun _ h => h)
      intro _ s'' hk'
      exact hk.trans hk'

/-- A drain that begins: the state after the first statements of
`begin_drain_impl`. -/
def drainEntry (s : ServerState) : ServerState :=
  ServerState.stopAccepting <| note .drainBegun
    { s with drainState := s.drainState.beginDrain.2, drainCompletionEnabled := true }

theorem beginDrain_running {d : DrainState} (h : d.beginDrain.1 ≠ .unchanged) :
    d.phase = .running ∧ d.beginDrain = d.transitionTo .draining := by
  unfold DrainState.beginDrain at h ⊢
  split
  · rename_i hp
    simp [hp] at h
  · rename_i hp
    exact ⟨by simpa using hp, rfl⟩

theorem drainEntry_phase (h : s.drainState.beginDrain.1 ≠ .unchanged) :
    (drainEntry s).phase = .draining ∨ (drainEntry s).phase = .completed := by
  show s.drainState.beginDrain.2.phase = .draining ∨ s.drainState.beginDrain.2.phase = .completed
  rw [(beginDrain_running h).2, DrainState.transitionTo]
  split <;> simp

theorem Core.drainEntry (hc : Core m s) (h : s.drainState.beginDrain.1 ≠ .unchanged) :
    Core m (drainEntry s) := by
  obtain ⟨hp, hd⟩ := beginDrain_running h
  have hphase := drainEntry_phase h
  have hj := hc.journal
  rw [hp] at hj
  exact
    { hc with
      drainActive := by
        show s.drainState.beginDrain.2.activeSessions = s.sessions.length
        rw [hd, DrainState.transitionTo]
        split <;> exact hc.drainActive
      idle := by
        intro hnil
        show s.drainState.beginDrain.2.phase = .running ∨ s.drainState.beginDrain.2.phase = .completed
        rw [hd, DrainState.transitionTo, if_pos (hc.active_eq_zero.mpr hnil)]
        exact Or.inr rfl
      drained := by
        show s.drainState.beginDrain.2.phase = .completed → s.sessions = []
        rw [hd, DrainState.transitionTo]
        split
        · rename_i hz
          exact fun _ => hc.active_eq_zero.mp hz
        · intro hcompleted
          cases hcompleted
      journal := hj.begin hphase }

theorem Since.drainEntry (h : s.drainState.beginDrain.1 ≠ .unchanged) (hc : Core m s) :
    Since s (drainEntry s) where
  notes := List.subset_cons_self ..
  halted _ := (hc.drainEntry h).journal.begun (List.mem_cons_self ..)
  next := Nat.le_refl _
  exit := id
  failure hn := Or.inl (by simpa [Server.drainEntry, ServerState.stopAccepting, note] using hn)
  toLooped := by
    have hp := (drainEntry_phase h)
    refine Looped.of_eq rfl (by simp [StopNoted, Server.drainEntry, ServerState.stopAccepting, note])
      (fun hcompleted => ?_) fun _ => ?_
    · rw [show s.phase = .running from (beginDrain_running h).1] at hcompleted
      cases hcompleted
    · rcases hp with hp | hp <;> simp [hp]

theorem beginDrainImpl_spec (h : Rest m s) :
    wp anywhere beginDrainImpl (fun _ s' => Kept m s s')
      (fun s' => Core m s' ∧ Since s s') s := by
  unfold beginDrainImpl
  simp only [wp_get_bind]
  split
  · exact wp_pure.mpr (Kept.refl h.core h.tidy h.settled)
  · rename_i hstart
    have hc := h.core.drainEntry hstart
    have hsince := Since.drainEntry hstart h.core
    have hp : (Server.drainEntry s).phase ≠ .running := hc.journal.begun (List.mem_cons_self ..)
    have hd := (beginDrain_running hstart).2
    simp only [wp_modify_bind]
    split
    · rename_i hcompleted
      have hphase : (Server.drainEntry s).phase = .completed := by
        show s.drainState.beginDrain.2.phase = .completed
        rw [hd, DrainState.transitionTo] at hcompleted ⊢
        split at hcompleted
        · rename_i hz
          rw [if_pos hz]
        · cases hcompleted
      refine wp_mono (finishDrain_spec stop_quiet hc hphase) ?_ (fun _ h => h.elim)
      rintro _ s' ⟨hc', hs', hsince', -⟩
      have hp' := hsince'.halted hp
      exact ⟨hc', fun hr => absurd hr hp', hs', fun _ hr => absurd hr hp', hsince.trans hsince'⟩
    · rename_i hstarted
      have hphase : (Server.drainEntry s).phase ≠ .completed := by
        show s.drainState.beginDrain.2.phase ≠ .completed
        rw [hd, DrainState.transitionTo] at hstarted ⊢
        split at hstarted
        · exact absurd rfl hstarted
        · rename_i hz
          rw [if_neg hz]
          simp
      have hs : Settled (Server.drainEntry s) := fun hcompleted _ => absurd hcompleted hphase
      have hl : ∀ i ∈ s.sessions, i < (Server.drainEntry s).nextSession :=
        fun i hi => (h.core.live i hi).1
      refine wp_mayThrow_bind ?_ fun _ => ⟨hc, hsince⟩
      refine wp_bind (wp_mono (beginDrainSessions_spec s.sessions hc hp hs hl) ?_
        (fun _ h => h.elim))
      intro _ s' hk
      have hp' := hk.since.halted hp
      have hk' : Kept m s s' := ⟨hk.core, hk.tidy, hk.settled, fun _ hr => absurd hr hp',
        hsince.trans hk.since⟩
      simp only [wp_get_bind]
      split
      · exact wp_pure.mpr hk'
      · refine wp_mayThrow_bind ?_ fun _ => ⟨hk'.core, hk'.since⟩
        exact wp_modify.mpr ⟨{ hk'.core with }, hk'.tidy, hk'.settled, hk'.awake,
          hk'.since.trans (Since.of_eq rfl rfl rfl rfl rfl)⟩

/-- A handler that falls back on `fail_runtime` when it throws. -/
theorem kept_or_failRuntime {a : ServerAct Unit} {t : ServerState}
    (hcalm : s.phase ≠ .forceStopping)
    (h : wp anywhere a (fun _ s' => Kept m s s') (fun s' => Core m s' ∧ Since s s') t) :
    wp anywhere (tryCatch a fun _ => failRuntime stop) (fun _ s' => Kept m s s')
      (fun _ => False) t := by
  refine wp_tryCatch (wp_mono h (fun _ _ hk => hk) ?_)
  rintro s' ⟨hc, hsince⟩
  refine wp_mono (failRuntime_spec stop_full hc (hsince.calm hcalm)) ?_ (fun _ h => h)
  intro _ s'' hstop
  have hstop' : Stopped m s s'' := { hstop with since := hsince.trans hstop.since }
  exact hstop'.kept

theorem failRuntime_kept (hc : Core m s) (hcalm : s.phase ≠ .forceStopping) :
    wp anywhere (failRuntime stop) (fun _ s' => Kept m s s') (fun _ => False) s :=
  wp_mono (failRuntime_spec stop_full hc hcalm) (fun _ _ hstop => hstop.kept) (fun _ h => h)

/-- The second signal or the drain timer forces a drain that is under way. -/
theorem forceStop_spec (hc : Core m s) (hp : s.phase = .draining) {why : ServerNote}
    (hw : why = .forcedBySignal ∨ why = .forcedByTimeout) :
    wp anywhere (forceStop why) (fun _ s' => Kept m s s') (fun _ => False) s := by
  have hphase : s.drainState.phase = .draining := hp
  have hsome : s.sessions ≠ [] := by
    intro hnil
    rcases hc.idle hnil with hi | hi <;> simp [hphase] at hi
  have hforce : s.drainState.beginForceStop =
      (.started, { s.drainState with phase := .forceStopping }) := by
    simp [DrainState.beginForceStop, DrainState.transitionTo, hphase, hc.active_eq_zero, hsome]
  have hc' : Core m (ServerState.stopAccepting <| note why
      { s with drainState := { s.drainState with phase := .forceStopping },
               drainForced := true }) := by
    have hj := hc.journal
    rw [hphase] at hj
    exact
      { hc with
        idle := fun hnil => absurd hnil hsome
        drained := fun hcompleted => by cases hcompleted
        journal := hj.force hw }
  have hprogress : Progress s (ServerState.stopAccepting <| note why
      { s with drainState := { s.drainState with phase := .forceStopping },
               drainForced := true }) := by
    refine
      { notes := List.subset_cons_self ..
        halted := fun _ hr => (by cases hr)
        next := Nat.le_refl _
        exit := id
        failure := fun hn => Or.inl ?_ }
    rcases hw with rfl | rfl <;> simpa [ServerState.stopAccepting, note] using hn
  unfold forceStop
  simp only [wp_get_bind, hforce, reduceCtorEq, if_false, wp_modify_bind]
  refine wp_bind (wp_mono (stopAllSessions_spec stop_quiet s.sessions.length hc' ?_ ?_ ?_) ?_
    (fun _ h => h))
  · intro hcompleted
    cases hcompleted
  · intro hr
    cases hr
  · exact Nat.le_refl _
  · rintro _ s' ⟨hcore, hsettled, hsince, hcompleted⟩
    have hsince' : Since s s' := (hprogress.trans hsince.toProgress).ended hcompleted hsince.done
    exact wp_pure.mpr (Kept.of_halted (by simp [hp]) hcore hsettled hsince')

theorem onDrainTimer_spec (h : Rest m s) (error : Error) :
    wp anywhere (onDrainTimer error) (fun _ s' => Kept m s s') (fun _ => False) s := by
  unfold onDrainTimer
  simp only [wp_get_bind]
  cases hd : classifyDrainTimerCompletion error s.phase with
  | ignored => exact wp_pure.mpr (Kept.refl h.core h.tidy h.settled)
  | timedOut =>
      have hp : s.phase = .draining := by
        unfold classifyDrainTimerCompletion at hd
        by_contra hne
        simp [hne] at hd
      exact forceStop_spec h.core hp (Or.inr rfl)
  | fatal => exact failRuntime_kept h.core h.calm

/-! ## Accept completions -/

theorem mem_insertAt {position i j : Nat} {l : List Nat} :
    j ∈ insertAt position i l ↔ j = i ∨ j ∈ l := by
  rw [insertAt, List.mem_append, List.mem_cons, or_left_comm, ← List.mem_append,
    List.take_append_drop]

theorem nodup_insertAt {position i : Nat} {l : List Nat} (hl : l.Nodup) (hi : i ∉ l) :
    (insertAt position i l).Nodup := by
  rw [insertAt, List.nodup_middle, List.take_append_drop]
  exact List.nodup_cons.mpr ⟨hi, hl⟩

theorem length_insertAt (position i : Nat) (l : List Nat) :
    (insertAt position i l).length = l.length + 1 := by
  rw [insertAt, List.length_append, List.length_cons, ← Nat.add_assoc, ← List.length_append,
    List.take_append_drop]

/-- A new session has joined the set. -/
def joinSession (position : Nat) (s : ServerState) : ServerState :=
  { s with sessions := insertAt position s.nextSession s.sessions,
           nextSession := s.nextSession + 1,
           acceptCapacity := s.acceptCapacity.sessionStarted,
           drainState := s.drainState.sessionStarted }

/-- The accept completed and its flag is off. -/
def acceptDone (s : ServerState) : ServerState :=
  { s with acceptOps := s.acceptOps - 1, acceptCapacity := s.acceptCapacity.acceptCompleted }

/-- The new session takes the place that the pending accept kept for it. -/
theorem Core.joinSession (hc : Core m s) (hp : s.phase = .running) (position : Nat)
    (hroom : s.sessions.length + 1 ≤ m) (hacc : s.acceptCapacity.acceptPending = false) :
    Core m (joinSession position s) := by
  have hnew : s.nextSession ∉ s.sessions := fun hi => absurd (hc.live _ hi).1 (Nat.lt_irrefl _)
  have hphase : s.drainState.phase = .running := hp
  have hd : s.drainState.sessionStarted =
      { s.drainState with activeSessions := s.drainState.activeSessions + 1 } := by
    simp [DrainState.sessionStarted, hphase]
  rw [Server.joinSession, hd]
  refine
    { hc with
      nodup := nodup_insertAt hc.nodup hnew
      live := ?_
      fresh := fun i hi => hc.fresh i (Nat.le_of_succ_le hi)
      active := ?_
      drainActive := ?_
      room := ?_
      idle := fun _ => Or.inl hphase
      drained := ?_ }
  · intro i hi
    rcases mem_insertAt.mp hi with rfl | hi'
    · exact ⟨Nat.lt_succ_self _, hc.fresh _ (Nat.le_refl _)⟩
    · exact ⟨Nat.lt_succ_of_lt (hc.live i hi').1, (hc.live i hi').2⟩
  · show s.acceptCapacity.activeConnections + 1 = (insertAt position s.nextSession s.sessions).length
    rw [length_insertAt, hc.active]
  · show s.drainState.activeSessions + 1 = (insertAt position s.nextSession s.sessions).length
    rw [length_insertAt, hc.drainActive]
  · show (insertAt position s.nextSession s.sessions).length
      + s.acceptCapacity.acceptPending.toNat ≤ m
    simpa [length_insertAt, hacc] using hroom
  · show s.drainState.phase = .completed → _
    rw [hphase]
    intro h
    cases h

theorem sessionStart_spec (hc : Core m s) (ht : Tidy s) (hs : Settled s) {i : Nat}
    (hi : i < s.nextSession) :
    wp anywhere (sessionStart i) (fun _ s' => Kept m s s') (fun s' => s' = s) s := by
  unfold sessionStart
  refine wp_mayThrow_bind (wp_ask_bind ?_ fun _ => ?_) fun _ => rfl
  · exact wp_pure.mpr (Kept.refl hc ht hs)
  · exact wp_mono (sessionStop_spec stop_quiet stop_full hc ht hs hi) (fun _ _ h => h)
      (fun _ h => h.elim)

/-- While an accept is outstanding it is the only one, its flag is on, no retry is
scheduled, and there is room for the session it may bring. -/
theorem Core.accepting (h : Core m s) (hops : s.acceptOps ≠ 0) :
    s.acceptOps = 1 ∧ s.acceptCapacity.retryPending = false ∧ s.sessions.length + 1 ≤ m := by
  have hone := h.acceptOp
  have hexcl := h.exclusive
  have hroom := h.room
  cases hacc : s.acceptCapacity.acceptPending with
  | false =>
      simp only [hacc, Bool.toNat_false, Nat.le_zero_eq] at hone
      exact absurd hone hops
  | true =>
      rw [hacc] at hone hexcl hroom
      refine ⟨Nat.le_antisymm hone (Nat.one_le_iff_ne_zero.mpr hops), ?_, hroom⟩
      cases hr : s.acceptCapacity.retryPending with
      | false => rfl
      | true => simp [hr] at hexcl

/-- The pending flag goes off; the accept itself is already gone. -/
theorem Core.acceptDone (h : Core m s) (hops : s.acceptOps ≠ 0) : Core m (acceptDone s) := by
  obtain ⟨hone, hretry, hroom⟩ := h.accepting hops
  exact
    { h with
      room := by
        show s.sessions.length + 0 ≤ m
        omega
      acceptOp := by
        show s.acceptOps - 1 ≤ 0
        omega
      exclusive := by
        show 0 + s.acceptCapacity.retryPending.toNat ≤ 1
        simp [hretry] }

/-- `on_accept`, from the moment the accept has completed. -/
theorem onAccept_spec (h : Rest m s) (hops : s.acceptOps ≠ 0) (error : Error) (position : Nat) :
    wp anywhere (onAccept error position) (fun _ s' => Kept m s s')
      (fun s' => Core m s' ∧ Since s s') { s with acceptOps := s.acceptOps - 1 } := by
  obtain ⟨hone, hretry, hroom⟩ := h.core.accepting hops
  have hc := h.core.acceptDone hops
  unfold onAccept
  simp only [wp_modify_bind, wp_get_bind]
  have hsince : Since s (acceptDone s) :=
    Since.of_eq rfl rfl rfl rfl rfl
  split
  · rename_i hp
    exact wp_pure.mpr ⟨hc, fun hr => absurd hr hp, h.settled, fun _ hr => absurd hr hp, hsince⟩
  · rename_i hp
    have hrun : s.phase = .running := Decidable.of_not_not hp
    obtain ⟨hstopped, -, hwaits⟩ := h.tidy hrun
    have hwaits' : s.retryWaits = 0 := by simpa [hretry] using hwaits
    split
    · -- a failed accept schedules a retry
      refine wp_mayThrow_bind ?_ fun _ => ⟨hc, hsince⟩
      simp only [wp_modify_bind]
      have hc' : Core m { s with
          acceptOps := s.acceptOps - 1
          acceptCapacity := s.acceptCapacity.acceptCompleted.retryScheduled } :=
        { hc with
          retryOp := by
            show s.retryWaits ≤ 1
            omega
          exclusive := Nat.le_refl 1 }
      refine wp_mayThrow_bind ?_ fun _ => ⟨hc', Since.of_eq rfl rfl rfl rfl rfl⟩
      refine wp_modify.mpr ⟨{ hc' with retryOp := ?_ }, fun _ => ⟨hstopped, ?_, ?_⟩, h.settled,
        fun _ _ => Or.inr (Or.inl ?_), Since.of_eq rfl rfl rfl rfl rfl⟩
      · show s.retryWaits + 1 ≤ 1
        omega
      · show s.acceptOps - 1 = 0
        omega
      · show s.retryWaits + 1 = 1
        omega
      · show s.retryWaits + 1 = 1
        omega
    · refine wp_mayThrow_bind ?_ fun _ => ⟨hc, hsince⟩
      simp only [wp_modify_bind]
      have hj := hc.joinSession hrun position hroom rfl
      have hphase : (Server.joinSession position (acceptDone s)).phase = .running := by
        show s.drainState.sessionStarted.phase = .running
        unfold DrainState.sessionStarted
        split <;> exact hrun
      have hjoin : Since s (Server.joinSession position (acceptDone s)) :=
        { notes := List.Subset.refl _
          halted := fun hp => absurd hrun hp
          next := Nat.le_succ _
          exit := id
          failure := Or.inl
          toLooped := Looped.of_eq rfl id (by simp [hrun]) (by simp [hphase]) }
      -- the session may finish inside `start()`, which then already drives the next accept
      refine wp_bind (wp_mono (sessionStart_spec hj ?_ ?_ (Nat.lt_succ_self _)) ?_ ?_)
      · refine fun _ => ⟨hstopped, ?_, hwaits⟩
        show s.acceptOps - 1 = 0
        omega
      · intro hcompleted
        simp [hphase] at hcompleted
      · intro _ s' hk
        have hs := hjoin.trans hk.since
        refine wp_mono (driveAccept_spec hk.core hk.tidy hk.settled) ?_ ?_
        · rintro _ s'' ⟨hk', hawake⟩
          exact ⟨hk'.core, hk'.tidy, hk'.settled, fun _ => hawake, hs.trans hk'.since⟩
        · rintro s'' ⟨hc'', hs''⟩
          exact ⟨hc'', hs.trans hs''⟩
      · rintro s' rfl
        exact ⟨hj, hjoin⟩

theorem onAcceptRetryTimer_spec (h : Rest m s) (hwaits : s.retryWaits ≠ 0) (error : Error) :
    wp anywhere (onAcceptRetryTimer error) (fun _ s' => Kept m s s') (fun _ => False)
      { s with retryWaits := s.retryWaits - 1 } := by
  have hle := h.core.retryOp
  have hone : s.retryWaits = 1 := by
    have := Bool.toNat_le s.acceptCapacity.retryPending
    omega
  have hretry : s.acceptCapacity.retryPending = true := by
    cases hr : s.acceptCapacity.retryPending with
    | true => rfl
    | false => simp [hr, hone] at hle
  have hc : Core m { s with retryWaits := s.retryWaits - 1,
                            acceptCapacity := s.acceptCapacity.retryCompleted } :=
    { h.core with
      retryOp := by
        show s.retryWaits - 1 ≤ 0
        omega
      exclusive := by
        have hexcl := h.core.exclusive
        rw [hretry] at hexcl
        show s.acceptCapacity.acceptPending.toNat + 0 ≤ 1
        exact Nat.le_of_succ_le hexcl }
  have ht : Tidy { s with retryWaits := s.retryWaits - 1,
                          acceptCapacity := s.acceptCapacity.retryCompleted } := by
    intro hrun
    obtain ⟨hstopped, hops, -⟩ := h.tidy hrun
    refine ⟨hstopped, hops, ?_⟩
    show s.retryWaits - 1 = 0
    omega
  have hsince : Since s { s with retryWaits := s.retryWaits - 1,
                                 acceptCapacity := s.acceptCapacity.retryCompleted } :=
    Since.of_eq rfl rfl rfl rfl rfl
  unfold onAcceptRetryTimer
  simp only [wp_modify_bind, wp_get_bind]
  cases hd : classifyAcceptRetryCompletion error _ with
  | retry =>
      refine kept_or_failRuntime h.calm (wp_mono (driveAccept_spec hc ht h.settled) ?_ ?_)
      · rintro _ s' ⟨hk, hawake⟩
        exact ⟨hk.core, hk.tidy, hk.settled, fun _ => hawake, hsince.trans hk.since⟩
      · rintro s' ⟨hc', hs'⟩
        exact ⟨hc', hsince.trans hs'⟩
  | stopped =>
      have hp : s.phase ≠ .running := by
        unfold classifyAcceptRetryCompletion at hd
        split at hd
        · rename_i hp
          exact of_decide_eq_true hp
        · split at hd <;> cases hd
      exact wp_pure.mpr (Kept.of_halted hp hc h.settled hsince)
  | fatal =>
      refine wp_mono (failRuntime_spec stop_full hc h.calm) ?_ (fun _ h => h)
      intro _ s' hstop
      have hstop' : Stopped m s s' := { hstop with since := hsince.trans hstop.since }
      exact hstop'.kept

/-! ## Signals -/

/-- A handler that gives back what it found leaves the server at rest. -/
theorem Rest.wp {a : ServerAct Unit} {t : ServerState} (h : Rest m s)
    (hk : wp anywhere a (fun _ s' => Kept m s s') (fun _ => False) t) :
    wp anywhere a (fun _ s' => Rest m s') (fun _ => False) t :=
  wp_mono hk (fun _ _ hk' => h.kept hk') (fun _ h => h)

theorem failSignalWait_rest (h : Rest m s) :
    wp anywhere (failSignalWait stop) (fun _ s' => Rest m s') (fun _ => False) s :=
  h.wp (wp_mono (failSignalWait_spec h.core h.calm) (fun _ _ hstop => hstop.kept) (fun _ h => h))

theorem armSignalWait_rest (h : Rest m s) :
    wp anywhere armSignalWait (fun _ s' => Rest m s') (fun _ => False) s := by
  unfold armSignalWait
  refine wp_tryCatch (wp_mayThrow_bind ?_ fun _ => ?_)
  · simp only [wp_modify_bind]
    exact wp_pure.mpr { h with core := { h.core with } }
  · refine wp_bind (wp_mono (failSignalWait_rest h) ?_ (fun _ h => h))
    intro _ s' h'
    exact wp_pure.mpr h'

theorem onSignal_rest (h : Rest m s) (error : Error) :
    wp anywhere (onSignal error) (fun _ s' => Rest m s') (fun _ => False) s := by
  have h' : Rest m { s with shutdownSignal := (s.shutdownSignal.onWaitCompletion error).2 } :=
    { h with core := { h.core with } }
  unfold onSignal
  simp only [wp_get_bind, wp_modify_bind]
  cases (s.shutdownSignal.onWaitCompletion error).1 with
  | beginDrain =>
      refine wp_bind (wp_mono (armSignalWait_rest h') ?_ (fun _ h => h))
      intro armed s' hr
      cases armed with
      | true => exact hr.wp (kept_or_failRuntime hr.calm (beginDrainImpl_spec hr))
      | false => exact wp_pure.mpr hr
  | forceStop =>
      show wp anywhere forceStopDrain _ _ _
      unfold forceStopDrain
      simp only [wp_get_bind]
      split
      · exact wp_pure.mpr h'
      · rename_i hp
        exact h'.wp (forceStop_spec h'.core (Decidable.of_not_not hp) (Or.inl rfl))
  | ignored => exact wp_pure.mpr h'
  | fatal => exact failSignalWait_rest h'

/-! ## The event loop -/

theorem handle_rest (h : Rest m s) (e : ServerEvent) :
    wp anywhere (handle e) (fun _ s' => Rest m s') (fun _ => False) s := by
  have hidle : Kept m s s := Kept.refl h.core h.tidy h.settled
  cases e with
  | accept error position =>
      simp only [handle, wp_get_bind]
      split
      · exact wp_pure.mpr h
      · rename_i hops
        exact h.wp (kept_or_failRuntime h.calm (onAccept_spec h hops error position))
  | acceptRetry error =>
      simp only [handle, wp_get_bind]
      split
      · exact wp_pure.mpr h
      · rename_i hwaits
        exact h.wp (onAcceptRetryTimer_spec h hwaits error)
  | sessionFinish i =>
      simp only [handle, wp_get_bind]
      split
      · rename_i hi
        exact h.wp (sessionStop_spec stop_quiet stop_full h.core h.tidy h.settled hi)
      · exact wp_pure.mpr h
  | drainTimer error =>
      simp only [handle, wp_get_bind]
      split
      · exact wp_pure.mpr h
      · have h' : Rest m { s with drainWaits := s.drainWaits - 1 } :=
          { h with core := { h.core with } }
        exact h'.wp (onDrainTimer_spec h' error)
  | signal error =>
      simp only [handle, wp_get_bind]
      split
      · exact wp_pure.mpr h
      · have h' : Rest m { s with signalWaits := s.signalWaits - 1 } :=
          { h with core := { h.core with } }
        exact onSignal_rest h' error
  | healthFailure =>
      simp only [handle, wp_get_bind]
      split
      · exact wp_pure.mpr h
      · have h' : Rest m { s with healthChecksStopped := true } :=
          { h with core := { h.core with } }
        exact h'.wp (failRuntime_kept h'.core h'.calm)
  | stop => exact h.wp (wp_mono (stop_spec h.core h.calm) (fun _ _ hstop => hstop.kept) (fun _ h => h))

theorem step_rest (h : Rest m s) (e : ServerEvent × Oracle ServerSite) : Rest m (step e s) :=
  exec_of_wp (admissible_none e.2) (wp_mono (handle_rest h e.1) (fun _ _ h' => h') (fun _ h => h.elim))

/-- The state in which the server is constructed. -/
theorem core_init (m : Nat) : Core m { acceptCapacity := { maxConnections := m } } where
  nodup := List.nodup_nil
  live := by simp
  fresh := by simp
  active := rfl
  drainActive := rfl
  limit := rfl
  room := Nat.zero_le m
  acceptOp := Nat.le_refl 0
  retryOp := Nat.le_refl 0
  exclusive := Nat.zero_le 1
  idle _ := Or.inl rfl
  drained h := by cases h
  journal := by constructor <;> simp [Reported]
  fuel := rfl

/-- `start()` gives a server at rest, or throws. -/
theorem start_rest (m : Nat) : wp anywhere start (fun _ s' => Rest m s') (fun _ => True)
    { acceptCapacity := { maxConnections := m } } := by
  have hc := core_init m
  unfold start
  refine wp_mayThrow_bind ?_ fun _ => trivial
  simp only [wp_modify_bind]
  refine wp_bind (wp_mono (driveAccept_spec (m := m) { hc with } ?_ ?_) ?_ (fun _ _ => trivial))
  · exact fun _ => ⟨rfl, rfl, rfl⟩
  · intro h
    cases h
  · rintro _ s' ⟨hk, hawake⟩
    refine wp_mayThrow ⟨hk.core, hk.tidy, hawake, hk.settled, fun hn => ?_,
      hk.since.done ⟨by simp, List.isChain_nil, by simp⟩, hk.since.entered.resolve_left,
      fun hn => ?_, hk.since.calm (by simp [ServerState.phase])⟩ fun _ => trivial
    · rcases hk.since.failure hn with hn' | he
      · simp at hn'
      · exact he
    · exact (hk.since.noted hn).resolve_left (by simp [StopNoted])

theorem launch_rest {o : Oracle ServerSite} (h : launch m o = some s) : Rest m s := by
  have hstart : wp anywhere (do start; let _ ← armSignalWait; pure () : ServerAct Unit)
      (fun _ s' => Rest m s') (fun _ => True) { acceptCapacity := { maxConnections := m } } := by
    refine wp_bind (wp_mono (start_rest m) ?_ (fun _ h => h))
    intro _ s' hr
    refine wp_bind (wp_mono (armSignalWait_rest hr) ?_ (fun _ h => h.elim))
    intro _ s'' hr'
    exact wp_pure.mpr hr'
  have hrun := hstart o (admissible_none o)
  unfold launch at h
  revert h hrun
  rcases (do start; let _ ← armSignalWait; pure () : ServerAct Unit) o
      { acceptCapacity := { maxConnections := m } } with ⟨_ | _, o', s'⟩
  · intro h
    cases h
  · rintro ⟨⟩ hrun
    exact hrun.2

/-- The run lemma: every state between two handlers is at rest. -/
theorem run_rest {o : Oracle ServerSite} (h : launch m o = some s)
    (events : List (ServerEvent × Oracle ServerSite)) : Rest m (run step s events) :=
  run_invariant_all (Rest m) (fun e _ hr => step_rest hr e) (launch_rest h) events

end Server

end ApiGate
