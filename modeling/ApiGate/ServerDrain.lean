import ApiGate.ServerHandlers

/-!
# What a drain leaves of the server

`Onward` is what every handler does to the sessions of the server, whatever it
throws: nothing that finished or drains goes back, no session is lost from the
set before it has finished, and a server that does not run any more neither
accepts nor creates a session. The second part is what `begin_drain` achieves:
when it returns, every session drains or has finished.
-/

namespace ApiGate

open EventLoop Act ServerState

namespace Server

variable {m : Nat} {s s' s'' : ServerState} {rec : ServerAct Unit} {α β : Type}

/-- A session that has not finished is in the set. -/
def Tracked (s : ServerState) : Prop :=
  ∀ i, i < s.nextSession → s.sessionFinished i = false → i ∈ s.sessions

structure Onward (s s' : ServerState) : Prop where
  halted : s.phase ≠ .running → s'.phase ≠ .running ∧ s'.nextSession = s.nextSession
    ∧ s'.acceptsStarted = s.acceptsStarted
  next : s.nextSession ≤ s'.nextSession
  finished : ∀ i, s.sessionFinished i = true → s'.sessionFinished i = true
  draining : ∀ i, s.sessionDraining i = true → s'.sessionDraining i = true
  tracked : Tracked s → Tracked s'

theorem Onward.refl (s : ServerState) : Onward s s :=
  ⟨fun h => ⟨h, rfl, rfl⟩, Nat.le_refl _, fun _ => id, fun _ => id, id⟩

theorem Onward.trans (h : Onward s s') (h' : Onward s' s'') : Onward s s'' where
  halted hp := by
    obtain ⟨hp', hnext, haccepts⟩ := h.halted hp
    obtain ⟨hp'', hnext', haccepts'⟩ := h'.halted hp'
    exact ⟨hp'', hnext'.trans hnext, haccepts'.trans haccepts⟩
  next := Nat.le_trans h.next h'.next
  finished i := h'.finished i ∘ h.finished i
  draining i := h'.draining i ∘ h.draining i
  tracked := h'.tracked ∘ h.tracked

/-- An update of what `Onward` does not speak of, except for the phase, which may
leave `running`. -/
theorem Onward.of_eq (hp : s.phase ≠ .running → s'.phase ≠ .running)
    (hsessions : s'.sessions = s.sessions) (hnext : s'.nextSession = s.nextSession)
    (haccepts : s'.acceptsStarted = s.acceptsStarted)
    (hfinished : s'.sessionFinished = s.sessionFinished)
    (hdraining : s'.sessionDraining = s.sessionDraining) : Onward s s' where
  halted h := ⟨hp h, hnext, haccepts⟩
  next := Nat.le_of_eq hnext.symm
  finished i := by rw [hfinished]; exact id
  draining i := by rw [hdraining]; exact id
  tracked h i hi hf := by
    rw [hsessions]
    exact h i (hnext ▸ hi) (hfinished ▸ hf)

/-- From `s` on, the server has stopped running without having accepted anything. -/
structure Halts (s s' : ServerState) : Prop where
  phase : s'.phase ≠ .running
  next : s'.nextSession = s.nextSession
  accepts : s'.acceptsStarted = s.acceptsStarted

theorem Halts.onward (h : Halts s s') (h' : Onward s' s'') : Halts s s'' := by
  obtain ⟨hp, hnext, haccepts⟩ := h'.halted h.phase
  exact ⟨hp, hnext.trans h.next, haccepts.trans h.accepts⟩

/-! ## Every handler goes onward -/

def Follows (a : ServerAct α) (s : ServerState) : Prop :=
  wp anywhere a (fun _ => Onward s) (Onward s) s

theorem Follows.from {a : ServerAct α} (h : Follows a s') (hs : Onward s s') :
    wp anywhere a (fun _ => Onward s) (Onward s) s' :=
  wp_mono h (fun _ _ h' => hs.trans h') fun _ h' => hs.trans h'

theorem Follows.bind {a : ServerAct α} {f : α → ServerAct β} (ha : Follows a s)
    (hf : ∀ x s', Onward s s' → Follows (f x) s') : Follows (a >>= f) s :=
  wp_bind (wp_mono ha (fun x s' hs => (hf x s' hs).from hs) fun _ hs => hs)

theorem Follows.get {f : ServerState → ServerAct α} (h : Follows (f s) s) :
    Follows (get >>= f) s := wp_get_bind.mpr h

theorem follows_modify {u : ServerState → ServerState} (h : Onward s (u s)) :
    Follows (modify u) s := wp_modify.mpr h

theorem Follows.modify {u : ServerState → ServerState} {f : Unit → ServerAct α}
    (h : Onward s (u s)) (hf : Follows (f ()) (u s)) : Follows (modify u >>= f) s :=
  wp_modify_bind.mpr (hf.from h)

theorem follows_pure (x : α) (s : ServerState) : Follows (pure x) s :=
  wp_pure.mpr (Onward.refl s)

theorem Follows.mayThrow {site : ServerSite} {f : Unit → ServerAct α} (hf : Follows (f ()) s) :
    Follows (mayThrow site >>= f) s := wp_mayThrow_bind hf fun _ => Onward.refl s

theorem Follows.catch {a : ServerAct α} {b : Unit → ServerAct α} (ha : Follows a s)
    (hb : ∀ s', Onward s s' → Follows (b ()) s') : Follows (tryCatch a b) s :=
  wp_tryCatch (wp_mono ha (fun _ _ hs => hs) fun s' hs => (hb s' hs).from hs)

theorem follows_driveAccept (s : ServerState) : Follows driveAccept s := by
  unfold driveAccept
  refine Follows.get ?_
  split
  · exact follows_pure _ _
  · rename_i hrun
    have hcapacity : Onward s { s with acceptCapacity := s.acceptCapacity.nextAction.2 } :=
      Onward.of_eq id rfl rfl rfl rfl rfl
    refine Follows.modify hcapacity ?_
    have hstart : Follows (do
        mayThrow .acceptInit
        modify fun s => { s with acceptOps := s.acceptOps + 1,
                                 acceptsStarted := s.acceptsStarted + 1 } : ServerAct Unit)
        { s with acceptCapacity := s.acceptCapacity.nextAction.2 } := by
      refine Follows.mayThrow (follows_modify ?_)
      exact ⟨fun hp => absurd hp hrun, Nat.le_refl _, fun _ => id, fun _ => id, id⟩
    split
    · exact follows_pure _ _
    · exact follows_pure _ _
    · exact hstart
    · exact hstart

theorem sessionFinished_phase {d : DrainState} (h : d.phase ≠ .running) :
    d.sessionFinished.2.phase ≠ .running := by
  unfold DrainState.sessionFinished
  split
  · exact h
  · split
    · simp
    · exact h

theorem onward_finish (i : Nat) (s : ServerState) : Onward s (finish i s) := by
  have hother : ∀ j, s.sessionFinished j = true → (finish i s).sessionFinished j = true := by
    intro j hj
    by_cases hji : j = i
    · simp [finish, hji]
    · simpa [finish, hji] using hj
  refine ⟨fun hp => ⟨hp, rfl, rfl⟩, Nat.le_refl _, hother, fun _ => id, fun ht j hj hf => ?_⟩
  refine ht j hj ?_
  by_contra htrue
  rw [hother j (by simpa using htrue)] at hf
  cases hf

section Reentrant

variable (hrec : ∀ s, Follows rec s)

include hrec

theorem follows_failRuntime (s : ServerState) : Follows (failRuntime rec) s := by
  unfold failRuntime onRuntimeFailure
  refine Follows.get ?_
  split
  · exact follows_pure _ _
  · refine Follows.modify (Onward.of_eq id rfl rfl rfl rfl rfl) ?_
    exact (hrec _).bind fun _ _ _ => follows_modify (Onward.of_eq id rfl rfl rfl rfl rfl)

theorem follows_failSignalWait (s : ServerState) : Follows (failSignalWait rec) s := by
  unfold failSignalWait
  refine Follows.modify (Onward.of_eq id rfl rfl rfl rfl rfl) ?_
  exact (hrec _).bind fun _ _ _ => follows_modify (Onward.of_eq id rfl rfl rfl rfl rfl)

theorem follows_finishDrain (s : ServerState) : Follows (finishDrain rec) s := by
  unfold finishDrain onDrainComplete
  refine Follows.get ?_
  split
  · exact follows_pure _ _
  · refine Follows.modify (Onward.of_eq id rfl rfl rfl rfl rfl) ?_
    refine Follows.catch ?_ fun s' _ => follows_failRuntime hrec s'
    refine Follows.modify (Onward.of_eq id rfl rfl rfl rfl rfl) ?_
    refine Follows.catch ?_ fun s' _ => follows_failSignalWait hrec s'
    exact wp_mayThrow (Onward.refl _) fun _ => Onward.refl _

/-- Only a session that has finished leaves the set. -/
theorem follows_removeSession {i : Nat} (hi : s.sessionFinished i = true) :
    Follows (removeSession rec i) s := by
  unfold removeSession
  refine Follows.get ?_
  split
  · have hleave : Onward s { s with
        sessions := s.sessions.erase i
        acceptCapacity := s.acceptCapacity.sessionFinished
        drainState := s.drainState.sessionFinished.2 } := by
      refine ⟨fun hp => ⟨sessionFinished_phase hp, rfl, rfl⟩, Nat.le_refl _, fun _ => id,
        fun _ => id, fun ht j hj hf => ?_⟩
      have hne : j ≠ i := by
        rintro rfl
        rw [show s.sessionFinished j = false from hf] at hi
        cases hi
      exact (List.mem_erase_of_ne hne).mpr (ht j hj hf)
    refine Follows.modify hleave ?_
    split
    · split
      · exact follows_finishDrain hrec _
      · exact follows_pure _ _
    · exact Follows.catch (follows_driveAccept _) fun s' _ => follows_failRuntime hrec s'
  · exact follows_pure _ _

theorem follows_sessionStop (i : Nat) (s : ServerState) : Follows (sessionStop rec i) s := by
  unfold sessionStop
  refine Follows.get ?_
  split
  · exact follows_pure _ _
  · refine Follows.modify (onward_finish i s) (follows_removeSession hrec ?_)
    simp [finish]

theorem follows_sessionBeginDrain (i : Nat) (s : ServerState) :
    Follows (sessionBeginDrain rec i) s := by
  unfold sessionBeginDrain
  refine Follows.get ?_
  split
  · exact follows_pure _ _
  · refine Follows.modify ?_ ?_
    · refine ⟨fun hp => ⟨hp, rfl, rfl⟩, Nat.le_refl _, fun _ => id, fun j hj => ?_, id⟩
      by_cases hji : j = i
      · simp [hji]
      · simpa [hji] using hj
    · exact wp_ask_bind (follows_pure _ _) fun _ => follows_sessionStop hrec i _

theorem follows_stopAllSessions (fuel : Nat) :
    ∀ s, Follows (stopAllSessions rec fuel) s := by
  induction fuel with
  | zero => exact fun s => follows_modify (Onward.of_eq id rfl rfl rfl rfl rfl)
  | succ fuel ih =>
      intro s
      unfold stopAllSessions
      refine Follows.modify (Onward.of_eq id rfl rfl rfl rfl rfl) (Follows.get ?_)
      split
      · exact follows_pure _ _
      · exact (follows_sessionStop hrec _ _).bind fun _ s' _ => ih s'

theorem follows_stopBody (s : ServerState) : Follows (stopBody rec) s := by
  unfold stopBody
  refine Follows.modify (Onward.of_eq id rfl rfl rfl rfl rfl) (Follows.get ?_)
  refine Follows.modify (Onward.of_eq (fun _ => ?_) rfl rfl rfl rfl rfl) ?_
  · rcases beginForceStop_phase s.drainState with hp | hp <;>
      simp [ServerState.phase, note, hp]
  · split
    · exact follows_pure _ _
    · refine Follows.modify (Onward.of_eq id rfl rfl rfl rfl rfl) ?_
      exact follows_stopAllSessions hrec _ _

end Reentrant

theorem follows_stopAt (depth : Nat) : ∀ s, Follows (stopAt depth) s := by
  induction depth with
  | zero => exact fun s => follows_modify (Onward.of_eq id rfl rfl rfl rfl rfl)
  | succ depth ih => exact follows_stopBody ih

theorem follows_stop (s : ServerState) : Follows stop s := follows_stopAt 2 s

theorem follows_beginDrainSessions (l : List Nat) :
    ∀ s, Follows (beginDrainSessions l) s := by
  induction l with
  | nil => exact fun s => follows_pure _ s
  | cons i rest ih =>
      exact fun s => (follows_sessionBeginDrain follows_stop i s).bind fun _ s' _ => ih s'

theorem transitionTo_phase (d : DrainState) {phase : ServerDrainPhase} (h : phase ≠ .running) :
    (d.transitionTo phase).2.phase ≠ .running := by
  unfold DrainState.transitionTo
  split
  · simp
  · exact h

theorem onward_drainEntry (h : s.drainState.beginDrain.1 ≠ .unchanged) :
    Onward s (drainEntry s) := by
  refine Onward.of_eq (fun _ => ?_) rfl rfl rfl rfl rfl
  show s.drainState.beginDrain.2.phase ≠ .running
  rw [(beginDrain_running h).2]
  exact transitionTo_phase _ (by simp)

theorem follows_beginDrainImpl (s : ServerState) : Follows beginDrainImpl s := by
  unfold beginDrainImpl
  refine Follows.get ?_
  split
  · exact follows_pure _ _
  · rename_i hstart
    refine Follows.modify (onward_drainEntry hstart) ?_
    split
    · exact follows_finishDrain follows_stop _
    · refine Follows.mayThrow ((follows_beginDrainSessions _ _).bind fun _ s' _ => Follows.get ?_)
      split
      · exact follows_pure _ _
      · exact Follows.mayThrow (follows_modify (Onward.of_eq id rfl rfl rfl rfl rfl))

theorem follows_beginDrain (s : ServerState) : Follows beginDrain s :=
  Follows.catch (follows_beginDrainImpl s) fun s' _ => follows_failRuntime follows_stop s'

theorem follows_forceStop (why : ServerNote) (s : ServerState) : Follows (forceStop why) s := by
  unfold forceStop
  refine Follows.get ?_
  split
  · exact follows_pure _ _
  · refine Follows.modify (Onward.of_eq (fun _ => ?_) rfl rfl rfl rfl rfl) ?_
    · rcases beginForceStop_phase s.drainState with hp | hp <;>
        simp [ServerState.phase, ServerState.stopAccepting, note, hp]
    · refine (follows_stopAllSessions follows_stop _ _).bind fun _ s' _ => ?_
      split
      · exact follows_finishDrain follows_stop s'
      · exact follows_pure _ _

theorem onward_joinSession (hrun : s.phase = .running) (position : Nat) :
    Onward s (joinSession position s) := by
  refine ⟨fun hp => absurd hrun hp, Nat.le_succ _, fun _ => id, fun _ => id, fun ht i hi hf => ?_⟩
  refine mem_insertAt.mpr ?_
  rcases Nat.lt_succ_iff_lt_or_eq.mp hi with hlt | heq
  · exact Or.inr (ht i hlt hf)
  · exact Or.inl heq

theorem follows_onAccept (error : Error) (position : Nat) (s : ServerState) :
    Follows (onAccept error position) s := by
  unfold onAccept sessionStart
  refine Follows.modify (Onward.of_eq id rfl rfl rfl rfl rfl) (Follows.get ?_)
  split
  · exact follows_pure _ _
  · rename_i hp
    split
    · refine Follows.mayThrow (Follows.modify (Onward.of_eq id rfl rfl rfl rfl rfl) ?_)
      exact Follows.mayThrow (follows_modify (Onward.of_eq id rfl rfl rfl rfl rfl))
    · refine Follows.mayThrow (Follows.modify
        (onward_joinSession (Decidable.of_not_not hp) position) ?_)
      refine Follows.bind ?_ fun _ s' _ => follows_driveAccept s'
      exact Follows.mayThrow (wp_ask_bind (follows_pure _ _) fun _ =>
        follows_sessionStop follows_stop _ _)

theorem follows_armSignalWait (s : ServerState) : Follows armSignalWait s := by
  unfold armSignalWait
  refine Follows.catch (Follows.mayThrow (Follows.modify ?_ (follows_pure _ _))) fun s' _ => ?_
  · exact Onward.of_eq id rfl rfl rfl rfl rfl
  · exact (follows_failSignalWait follows_stop s').bind fun _ _ _ => follows_pure _ _

theorem follows_onSignal (error : Error) (s : ServerState) : Follows (onSignal error) s := by
  unfold onSignal
  refine Follows.get (Follows.modify (Onward.of_eq id rfl rfl rfl rfl rfl) ?_)
  split
  · refine (follows_armSignalWait _).bind fun armed s' _ => ?_
    cases armed with
    | true => exact follows_beginDrain s'
    | false => exact follows_pure _ _
  · refine Follows.get ?_
    split
    · exact follows_pure _ _
    · exact follows_forceStop _ _
  · exact follows_pure _ _
  · exact follows_failSignalWait follows_stop _

theorem follows_handle (e : ServerEvent) (s : ServerState) : Follows (handle e) s := by
  cases e with
  | accept error position =>
      refine Follows.get ?_
      split
      · exact follows_pure _ _
      · refine Follows.modify (Onward.of_eq id rfl rfl rfl rfl rfl) ?_
        exact Follows.catch (follows_onAccept error position _) fun s' _ =>
          follows_failRuntime follows_stop s'
  | acceptRetry error =>
      refine Follows.get ?_
      split
      · exact follows_pure _ _
      · refine Follows.modify (Onward.of_eq id rfl rfl rfl rfl rfl) ?_
        unfold onAcceptRetryTimer
        refine Follows.modify (Onward.of_eq id rfl rfl rfl rfl rfl) (Follows.get ?_)
        split
        · exact Follows.catch (follows_driveAccept _) fun s' _ =>
            follows_failRuntime follows_stop s'
        · exact follows_pure _ _
        · exact follows_failRuntime follows_stop _
  | sessionFinish i =>
      refine Follows.get ?_
      split
      · exact follows_sessionStop follows_stop i s
      · exact follows_pure _ _
  | drainTimer error =>
      refine Follows.get ?_
      split
      · exact follows_pure _ _
      · refine Follows.modify (Onward.of_eq id rfl rfl rfl rfl rfl) ?_
        unfold onDrainTimer
        refine Follows.get ?_
        split
        · exact follows_pure _ _
        · exact follows_forceStop _ _
        · exact follows_failRuntime follows_stop _
  | signal error =>
      refine Follows.get ?_
      split
      · exact follows_pure _ _
      · exact Follows.modify (Onward.of_eq id rfl rfl rfl rfl rfl) (follows_onSignal error _)
  | healthFailure =>
      refine Follows.get ?_
      split
      · exact follows_pure _ _
      · exact Follows.modify (Onward.of_eq id rfl rfl rfl rfl rfl) (follows_failRuntime follows_stop _)
  | stop => exact follows_stop s

theorem step_onward (e : ServerEvent × Oracle ServerSite) (s : ServerState) :
    Onward s (step e s) :=
  exec_of_wp (admissible_none e.2) (follows_handle e.1 s)

/-! ## What `begin_drain` achieves -/

/-- Every session was told to drain, or has finished. -/
def Told (s : ServerState) : Prop :=
  ∀ i, i < s.nextSession → s.sessionDraining i = true ∨ s.sessionFinished i = true

theorem Told.onward (h : Told s) (hp : s.phase ≠ .running) (hs : Onward s s') : Told s' := by
  intro i hi
  rw [(hs.halted hp).2.1] at hi
  exact (h i hi).imp (hs.draining i) (hs.finished i)

/-- The server has stopped running, and its sessions know. -/
def Winds (s s' : ServerState) : Prop := Told s' ∧ Halts s s'

theorem Winds.onward (h : Winds s s') (h' : Onward s' s'') : Winds s s'' :=
  ⟨h.1.onward h.2.phase h', h.2.onward h'⟩

theorem Tracked.told (h : Tracked s) (hnil : s.sessions = []) : Told s := by
  intro i hi
  right
  by_contra hf
  have hmem := h i hi (by simpa using hf)
  rw [hnil] at hmem
  cases hmem

theorem sessionBeginDrain_told (i : Nat) (s : ServerState) :
    wp anywhere (sessionBeginDrain stop i)
      (fun _ s' => s'.sessionDraining i = true ∨ s'.sessionFinished i = true)
      (fun _ => True) s := by
  unfold sessionBeginDrain
  simp only [wp_get_bind]
  split
  · rename_i htold
    exact wp_pure.mpr (by simpa using htold)
  · simp only [wp_modify_bind]
    have hdraining : (Function.update s.sessionDraining i true) i = true := Function.update_self ..
    refine wp_ask_bind (wp_pure.mpr (Or.inl hdraining)) fun _ => ?_
    refine wp_mono (follows_sessionStop follows_stop i _) (fun _ s' hs => ?_) fun _ _ => trivial
    exact Or.inl (hs.draining i hdraining)

theorem beginDrainSessions_told (l : List Nat) : ∀ s, wp anywhere (beginDrainSessions l)
    (fun _ s' => Onward s s'
      ∧ ∀ i ∈ l, s'.sessionDraining i = true ∨ s'.sessionFinished i = true)
    (fun _ => True) s := by
  induction l with
  | nil => exact fun s => wp_pure.mpr ⟨Onward.refl s, by simp⟩
  | cons i rest ih =>
      intro s
      refine wp_bind (wp_mono (wp_and (follows_sessionBeginDrain follows_stop i s)
        (sessionBeginDrain_told i s)) ?_ fun _ _ => trivial)
      rintro _ s' ⟨hs, htold⟩
      refine wp_mono (ih s') ?_ fun _ h => h
      rintro _ s'' ⟨hs', hrest⟩
      refine ⟨hs.trans hs', fun j hj => ?_⟩
      rcases List.mem_cons.mp hj with rfl | hj
      · exact htold.imp (hs'.draining j) (hs'.finished j)
      · exact hrest j hj

/-- A stop that is not nested in another one leaves no session. -/
theorem stop_empties (hc : Core m (stopEntry s))
    (hp : s.drainState.phase = .running ∨ s.drainState.phase = .draining) :
    wp anywhere stop (fun _ s' => s'.sessions = []) (fun _ => False) s := by
  have hnew : s.drainState.beginForceStop.1 ≠ .unchanged := by
    intro hunchanged
    rcases hp with hp | hp <;> simpa [hp] using unchanged_phase hunchanged
  have hhalted : (Server.stopEntry s).phase ≠ .running :=
    hc.journal.stopped (List.mem_cons_self ..)
  have hsettled : Settled (Server.stopEntry s) := fun _ he => by simp [Server.stopEntry, note] at he
  unfold stop stopAt stopBody
  simp only [wp_modify_bind, wp_get_bind]
  rw [if_neg (by simpa [note] using hnew)]
  refine wp_mono (stopAllSessions_spec (s := ServerState.stopAccepting (Server.stopEntry s))
    (stopBody_quiet _) _ hc.stopAccepting hsettled hhalted (Nat.le_refl _)) ?_ fun _ h => h
  rintro _ s' ⟨hc', -, -, hcompleted⟩
  exact hc'.drained hcompleted

theorem stop_winds (ht : Tracked s) (hc : Core m (stopEntry s))
    (hp : s.drainState.phase = .running ∨ s.drainState.phase = .draining) :
    wp anywhere stop (fun _ s' => Winds s s') (fun _ => False) s := by
  have hhalts : Halts s (Server.stopEntry s) :=
    ⟨hc.journal.stopped (List.mem_cons_self ..), rfl, rfl⟩
  have hrest : wp anywhere stop (fun _ s' => Halts s s') (fun _ => True) s := by
    unfold stop stopAt stopBody
    simp only [wp_modify_bind, wp_get_bind]
    split
    · exact wp_pure.mpr hhalts
    · refine wp_mono (follows_stopAllSessions (follows_stopAt 1) _
        (ServerState.stopAccepting (Server.stopEntry s))) (fun _ s' hs => ?_) fun _ _ => trivial
      have haccepting : Onward (Server.stopEntry s)
          (ServerState.stopAccepting (Server.stopEntry s)) := Onward.of_eq id rfl rfl rfl rfl rfl
      exact hhalts.onward (haccepting.trans hs)
  refine wp_mono (wp_and (wp_and (stop_empties hc hp) (follows_stop s)) hrest) ?_
    fun _ h => h.1.1
  rintro _ s' ⟨⟨hnil, hs⟩, hhalts'⟩
  exact ⟨(hs.tracked ht).told hnil, hhalts'⟩

theorem failSignalWait_winds (ht : Tracked s) (hc : Core m s) (hp : s.phase = .running) :
    wp anywhere (failSignalWait stop) (fun _ s' => Winds s s') (fun _ => False) s := by
  unfold failSignalWait
  simp only [wp_modify_bind]
  refine wp_bind (wp_mono (stop_winds (s := Server.recordSignalFailure s) ht
    hc.recordSignalFailure.stopEntry (Or.inl hp)) ?_ fun _ h => h)
  rintro _ s' ⟨htold, hhalts⟩
  exact wp_modify.mpr ⟨htold, { hhalts with }⟩

/-- The session set could not be copied: everything is stopped instead. -/
theorem failRuntime_winds (ht : Tracked s) (hc : Core m s) (hp : s.phase = .draining)
    (hclaimed : s.runtimeFailureClaimed = false) :
    wp anywhere (failRuntime stop) (fun _ s' => Winds s s') (fun _ => False) s := by
  unfold failRuntime onRuntimeFailure
  simp only [wp_get_bind]
  rw [if_neg (by simp [hclaimed])]
  simp only [wp_modify_bind]
  refine wp_bind (wp_mono (stop_winds (s := claimFailure s) ht hc.stopEntry_claimFailure
    (Or.inr hp)) ?_ fun _ h => h)
  rintro _ s' ⟨htold, hhalts⟩
  exact wp_modify.mpr ⟨htold, { hhalts with }⟩

theorem beginDrainImpl_winds (h : Rest m s) (ht : Tracked s) (hp : s.phase = .running) :
    wp anywhere beginDrainImpl (fun _ s' => Winds s s')
      (fun s' => Winds s s' ∨ (s' = drainEntry s ∧ (drainEntry s).phase = .draining)) s := by
  have hphase : s.drainState.phase = .running := hp
  have hstart : s.drainState.beginDrain.1 ≠ .unchanged := by
    unfold DrainState.beginDrain DrainState.transitionTo
    rw [hphase, if_neg (by simp)]
    split <;> simp
  have hentry := onward_drainEntry hstart
  have hhalts : Halts s (drainEntry s) :=
    ⟨(h.core.drainEntry hstart).journal.begun (List.mem_cons_self ..), rfl, rfl⟩
  unfold beginDrainImpl
  simp only [wp_get_bind]
  rw [if_neg hstart]
  simp only [wp_modify_bind]
  by_cases hz : s.drainState.activeSessions = 0
  · -- there was no session
    have hnil : s.sessions = [] := h.core.active_eq_zero.mp hz
    have hwinds : Winds s (drainEntry s) := ⟨(hentry.tracked ht).told hnil, hhalts⟩
    rw [if_pos (by simp [(beginDrain_running hstart).2, DrainState.transitionTo, hz])]
    exact wp_mono (follows_finishDrain follows_stop (drainEntry s))
      (fun _ s' hs => hwinds.onward hs) fun s' hs => Or.inl (hwinds.onward hs)
  · rw [if_neg (by simp [(beginDrain_running hstart).2, DrainState.transitionTo, hz])]
    refine wp_mayThrow_bind ?_ fun _ => Or.inr ⟨rfl, ?_⟩
    · refine wp_bind (wp_mono (wp_and (beginDrainSessions_told s.sessions (drainEntry s))
        (beginDrainSessions_spec s.sessions (h.core.drainEntry hstart) hhalts.phase ?_ ?_)) ?_
        fun _ hf => hf.2.elim)
      · intro hcompleted _
        exact absurd ((h.core.drainEntry hstart).drained hcompleted)
          fun hnil => hz (h.core.active_eq_zero.mpr hnil)
      · exact fun i hi => (h.core.live i hi).1
      · rintro _ s' ⟨⟨hs, hall⟩, -⟩
        -- a session that is not in the copy had finished before
        have htold : Told s' := by
          intro i hi
          rw [(hs.halted hhalts.phase).2.1] at hi
          by_cases hf : s.sessionFinished i = true
          · exact Or.inr (hs.finished i hf)
          · exact hall i (ht i hi (by simpa using hf))
        have hwinds : Winds s s' := ⟨htold, hhalts.onward hs⟩
        simp only [wp_get_bind]
        split
        · exact wp_pure.mpr hwinds
        · refine wp_mayThrow_bind (wp_modify.mpr ?_) fun _ => Or.inl hwinds
          exact ⟨htold, { hwinds.2 with }⟩
    · show s.drainState.beginDrain.2.phase = .draining
      rw [(beginDrain_running hstart).2, DrainState.transitionTo, if_neg hz]

/-- When `begin_drain` returns, every session drains or has finished. -/
theorem beginDrain_winds (h : Rest m s) (ht : Tracked s) (hp : s.phase = .running) :
    wp anywhere beginDrain (fun _ s' => Winds s s') (fun _ => False) s := by
  have hphase : s.drainState.phase = .running := hp
  have hunclaimed : s.runtimeFailureClaimed = false := by
    by_contra hclaimed
    have hfailed := h.core.journal.claimed.mp (by simpa using hclaimed)
    exact h.core.journal.stopped (h.core.journal.failed hfailed) hphase
  refine wp_tryCatch (wp_mono (wp_and (beginDrainImpl_winds h ht hp) (beginDrainImpl_spec h))
    (fun _ _ hwinds => hwinds.1) ?_)
  rintro s' ⟨hwinds | ⟨rfl, hdraining⟩, hc, hsince⟩
  · refine wp_mono (wp_and (follows_failRuntime follows_stop s') (failRuntime_kept hc (hsince.calm h.calm)))
      (fun _ s'' hs => hwinds.onward hs.1) fun _ hf => hf.2
  · refine wp_mono (failRuntime_winds (s := drainEntry s) ht hc hdraining hunclaimed) ?_
      fun _ hf => hf
    exact fun _ s'' hwinds => ⟨hwinds.1, { hwinds.2 with }⟩

theorem armSignalWait_winds (h : Rest m s) (ht : Tracked s) (hp : s.phase = .running) :
    wp anywhere armSignalWait
      (fun armed s' => (armed = true ∧ s' = { s with signalWaits := s.signalWaits + 1 })
        ∨ (armed = false ∧ Winds s s')) (fun _ => False) s := by
  unfold armSignalWait
  refine wp_tryCatch (wp_mayThrow_bind ?_ fun _ => ?_)
  · simp only [wp_modify_bind]
    exact wp_pure.mpr (Or.inl ⟨rfl, rfl⟩)
  · refine wp_bind (wp_mono (failSignalWait_winds ht h.core hp) (fun _ s' hwinds => ?_)
      fun _ hf => hf)
    exact wp_pure.mpr (Or.inr ⟨rfl, hwinds⟩)

/-- A signal that finds the server running does nothing, or stops it from running, with
every session told. -/
theorem signal_winds (h : Rest m s) (ht : Tracked s) (hp : s.phase = .running) (error : Error) :
    wp anywhere (handle (.signal error)) (fun _ s' => s'.notes = s.notes ∨ Winds s s')
      (fun _ => False) s := by
  simp only [handle, wp_get_bind]
  split
  · exact wp_pure.mpr (Or.inl rfl)
  · unfold onSignal
    simp only [wp_get_bind, wp_modify_bind]
    have h' : Rest m { s with
        signalWaits := s.signalWaits - 1
        shutdownSignal := (s.shutdownSignal.onWaitCompletion error).2 } :=
      { h with core := { h.core with } }
    split
    · refine wp_bind (wp_mono (armSignalWait_winds h' ht hp) ?_ fun _ hf => hf)
      rintro armed s' (⟨rfl, rfl⟩ | ⟨rfl, hwinds⟩)
      · have hrest : Rest m { s with
            signalWaits := s.signalWaits - 1 + 1
            shutdownSignal := (s.shutdownSignal.onWaitCompletion error).2 } :=
          { h with core := { h.core with } }
        refine wp_mono (beginDrain_winds hrest ht hp) ?_ fun _ hf => hf
        exact fun _ _ hwinds => Or.inr ⟨hwinds.1, { hwinds.2 with }⟩
      · exact wp_pure.mpr (Or.inr ⟨hwinds.1, { hwinds.2 with }⟩)
    · show wp anywhere forceStopDrain _ _ _
      have hnot : s.drainState.phase ≠ .draining := by
        rw [show s.drainState.phase = .running from hp]
        simp
      unfold forceStopDrain
      simp only [wp_get_bind]
      split
      · exact wp_pure.mpr (Or.inl rfl)
      · rename_i hdraining
        exact absurd hnot hdraining
    · exact wp_pure.mpr (Or.inl rfl)
    · refine wp_mono (failSignalWait_winds ht h'.core hp) ?_ fun _ hf => hf
      exact fun _ _ hwinds => Or.inr ⟨hwinds.1, { hwinds.2 with }⟩

/-! ## Launching -/

/-- The server has had no session yet. -/
structure Unborn (s : ServerState) : Prop where
  next : s.nextSession = 0
  sessions : s.sessions = []
  draining : ∀ i, s.sessionDraining i = false

theorem driveAccept_unborn (h : Unborn s) :
    wp anywhere driveAccept (fun _ => Unborn) (fun _ => True) s := by
  unfold driveAccept
  simp only [wp_get_bind]
  split
  · exact wp_pure.mpr h
  · simp only [wp_modify_bind]
    split
    · exact wp_pure.mpr { h with }
    · exact wp_pure.mpr { h with }
    all_goals exact wp_mayThrow_bind (wp_modify.mpr { h with }) fun _ => trivial

theorem stop_unborn (h : Unborn s) : wp anywhere stop (fun _ => Unborn) (fun _ => True) s := by
  unfold stop stopAt stopBody
  simp only [wp_modify_bind, wp_get_bind]
  split
  · exact wp_pure.mpr { h with }
  · have hnone : (note .stopped { s with drainCompletionEnabled := false }).sessions.length = 0 := by
      simp [note, h.sessions]
    rw [hnone]
    exact wp_modify.mpr { h with }

theorem launch_unborn {o : Oracle ServerSite} (h : launch m o = some s) :
    Tracked s ∧ Unborn s := by
  have hstart : wp anywhere (do start; let _ ← armSignalWait; pure () : ServerAct Unit)
      (fun _ => Unborn) (fun _ => True) { acceptCapacity := { maxConnections := m } } := by
    have hempty : Unborn { acceptCapacity := { maxConnections := m }, acceptorOpen := true,
                           started := true } := ⟨rfl, rfl, fun _ => rfl⟩
    unfold start armSignalWait failSignalWait
    refine wp_bind (wp_mayThrow_bind ?_ fun _ => trivial)
    simp only [wp_modify_bind]
    refine wp_bind (wp_mono (driveAccept_unborn hempty) (fun _ s₁ h₁ => ?_) fun _ h => h)
    refine wp_mayThrow (wp_bind (wp_tryCatch (wp_mayThrow_bind ?_ fun _ => ?_))) fun _ => trivial
    · simp only [wp_modify_bind]
      exact wp_pure.mpr (wp_pure.mpr { h₁ with })
    · refine wp_bind (wp_modify_bind.mpr (wp_bind (wp_mono (stop_unborn ?_) (fun _ s₂ h₂ => ?_)
        fun _ h => h)))
      · exact { h₁ with }
      · exact wp_modify.mpr (wp_pure.mpr (wp_pure.mpr { h₂ with }))
  have hrun := hstart o (admissible_none o)
  unfold launch at h
  revert h hrun
  rcases (do start; let _ ← armSignalWait; pure () : ServerAct Unit) o
      { acceptCapacity := { maxConnections := m } } with ⟨_ | _, o', s'⟩
  · intro h
    cases h
  · rintro ⟨⟩ hrun
    refine ⟨fun i hi => ?_, hrun.2⟩
    rw [hrun.2.next] at hi
    exact absurd hi (Nat.not_lt_zero i)

end Server

end ApiGate
