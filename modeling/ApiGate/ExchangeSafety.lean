import ApiGate.ExchangeRules
import ApiGate.EventLoop.Run

/-!
# An exchange ends exactly once

One exchange with an owner of whom nothing is known but the interface. The
owner is a `Driver`: it logs every callback that reaches it, together with
what the exchange has done with its connection by then, and answers a callback
with a script, any list of calls of `cancel()` and of the `StreamResume`s it
was handed, after which a stream callback may also throw. `depth` bounds how
deep callbacks nest that are provoked by the calls of a script; it is arbitrary.
-/

namespace ApiGate

open EventLoop Act Exchange

namespace Driver

inductive Call where
  | cancel
  | resume (final : Bool) (error : Error)
  deriving DecidableEq, Repr

structure Script where
  calls : List Call := []
  /-- only looked at by the stream callbacks -/
  throws : Bool := false
  deriving DecidableEq, Repr

inductive What where
  | complete
  | finish
  | abort
  | header
  | body
  /-- a `cancel()` that won the claim -/
  | cancelled
  deriving DecidableEq, Repr

/-- The callbacks of which at most one may come, and `cancel`. -/
def What.ends : What → Bool
  | .complete | .finish | .abort | .cancelled => true
  | .header | .body => false

def What.terminal : What → Bool
  | .complete | .finish | .abort => true
  | .header | .body | .cancelled => false

structure Entry where
  what : What
  lease : Lease
  puts : Nat
  deriving DecidableEq, Repr

end Driver

open Driver

/-- `log` is latest first; `scripts` are the answers to the coming callbacks,
`resumes` the closures that were handed out. -/
structure Driver where
  log : List Entry := []
  scripts : List Script := []
  resumes : List Bool := []
  started : Bool := false

namespace Driver

def note (what : What) (w : World Driver) : World Driver :=
  { w with env := { w.env with
      log := ⟨what, (w.exs 0).lease, (w.exs 0).puts⟩ :: w.env.log } }

/-- `HttpProxyExchange::cancel()` -/
def cancelExchange (w : World Driver) : World Driver :=
  if (w.exs 0).completed then w.setEx 0 Exchange.cancel
  else note .cancelled (w.setEx 0 Exchange.cancel)

/-- A closure can be called once it was handed out, also more than once. -/
def call (cb : EndCallbacks Driver) : Call → GateAct Driver Unit
  | .cancel => modify cancelExchange
  | .resume final error => do
      let w ← get
      if final ∈ w.env.resumes then resumeStream cb 0 final error else pure ()

def runCalls (cb : EndCallbacks Driver) : List Call → GateAct Driver Unit
  | [] => pure ()
  | c :: rest => do
      call cb c
      runCalls cb rest

/-- The next script; the result says whether it throws at its end. -/
def runScript (cb : EndCallbacks Driver) : GateAct Driver Bool := do
  let w ← get
  match w.env.scripts with
  | [] => pure false
  | script :: rest =>
      modify fun w => { w with env := { w.env with scripts := rest } }
      runCalls cb script.calls
      pure script.throws

/-- A terminal callback never throws. -/
def answer (cb : EndCallbacks Driver) (what : What) : GateAct Driver Unit := do
  modify (note what)
  let _ ← runScript cb
  pure ()

def endCallbacks : Nat → EndCallbacks Driver
  | 0 =>
      { complete := fun _ _ => modify (note .complete)
        abort := fun _ => modify (note .abort)
        finish := fun _ _ _ => modify (note .finish) }
  | depth + 1 =>
      { complete := fun _ _ => answer (endCallbacks depth) .complete
        abort := fun _ => answer (endCallbacks depth) .abort
        finish := fun _ _ _ => answer (endCallbacks depth) .finish }

def deliver (cb : EndCallbacks Driver) (what : What) (final : Bool) : GateAct Driver Unit := do
  modify (note what)
  modify fun w => { w with env := { w.env with resumes := final :: w.env.resumes } }
  if ← runScript cb then throw () else pure ()

def streamCallbacks (cb : EndCallbacks Driver) : StreamCallbacks Driver :=
  { header := fun _ _ _ final => deliver cb .header final
    body := fun _ _ final => deliver cb .body final }

/-! ## Runs -/

inductive Event where
  | start
  | completion (c : Completion)
  | call (c : Call)
  deriving DecidableEq, Repr

/-- `start()` is called once; its exceptions go to the owner. -/
def handle (lib : Library) (depth : Nat) : Event → GateAct Driver Unit
  | .start => do
      let w ← get
      if w.env.started then pure ()
      else
        modify fun w => { w with env := { w.env with started := true } }
        try Exchange.start 0
        catch _ => pure ()
  | .completion c =>
      dispatch (endCallbacks depth) lib (streamCallbacks (endCallbacks depth)) 0 c
  | .call c => call (endCallbacks depth) c

structure Input where
  event : Event
  scripts : List Script := []
  oracle : Oracle Site := fun _ _ => false

def step (lib : Library) (depth : Nat) (input : Input) (w : World Driver) : World Driver :=
  exec (handle lib depth input.event) input.oracle
    { w with env := { w.env with scripts := input.scripts } }

/-! ## What the log says -/

/-- The connection was closed, or put into the pool once. -/
def Disposed (lease : Lease) (puts : Nat) : Prop :=
  (lease = .closed ∧ puts = 0) ∨ (lease = .pooled ∧ puts = 1)

/-- Nothing has ended yet. -/
def Running (log : List Entry) : Prop := ∀ e ∈ log, e.what.ends = false

/-- An entry is made only while nothing has ended; one that ends the exchange
finds its connection disposed of; `complete` finds no header. -/
def WellLogged : List Entry → Prop
  | [] => True
  | e :: earlier =>
      WellLogged earlier ∧ Running earlier
        ∧ (e.what = .complete → ∀ e' ∈ earlier, e'.what ≠ .header)
        ∧ (e.what.ends = true → Disposed e.lease e.puts)

theorem What.terminal_ends {what : What} (h : what.terminal = true) : what.ends = true := by
  cases what <;> first | rfl | cases h

theorem Running.countP_terminal {log : List Entry} (h : Running log) :
    log.countP (fun e => e.what.terminal) = 0 := by
  refine List.countP_eq_zero.mpr fun e he ht => ?_
  have hends := What.terminal_ends ht
  rw [h e he] at hends
  cases hends

theorem WellLogged.countP_terminal {log : List Entry} (h : WellLogged log) :
    log.countP (fun e => e.what.terminal) ≤ 1 := by
  cases log with
  | nil => exact Nat.zero_le 1
  | cons e earlier =>
      obtain ⟨-, hrun, -, -⟩ := h
      rw [List.countP_cons, hrun.countP_terminal]
      split <;> omega

/-- Every entry was made in a well-kept log. -/
theorem WellLogged.suffix {later earlier : List Entry} (h : WellLogged (later ++ earlier)) :
    WellLogged earlier := by
  induction later with
  | nil => exact h
  | cons e later ih => exact ih h.1

/-- Nothing comes after an ending. -/
theorem WellLogged.last {later earlier : List Entry} {e : Entry}
    (h : WellLogged (later ++ e :: earlier)) (hends : e.what.ends = true) : later = [] := by
  cases later with
  | nil => rfl
  | cons e' later =>
      obtain ⟨-, hrun, -, -⟩ := h
      have hno := hrun e (by simp)
      rw [hends] at hno
      cases hno

theorem WellLogged.disposed {log : List Entry} (h : WellLogged log) {e : Entry} (he : e ∈ log)
    (hends : e.what.ends = true) : Disposed e.lease e.puts := by
  obtain ⟨later, earlier, rfl⟩ := List.append_of_mem he
  obtain ⟨-, -, -, hdisp⟩ := h.suffix
  exact hdisp hends

/-! ## The invariant -/

theorem disposed_of_ended {x : Exchange} (h : Ended x) : Disposed x.lease x.puts := by
  rcases h.lease with ⟨-, ⟨hpool, hputs⟩ | ⟨hpool, hputs⟩⟩
  · have hheld := h.disposed
    cases hlease : x.lease with
    | held => exact absurd hlease hheld
    | pooled => exact absurd hlease hpool
    | closed => exact Or.inl ⟨rfl, hputs⟩
  · exact Or.inr ⟨hpool, hputs⟩

/-- The owner holds a `StreamResume`, or has seen the header, only of an exchange
that streams. -/
def Streams (w : World Driver) : Prop :=
  w.env.resumes ≠ [] ∨ (∃ e ∈ w.env.log, e.what = .header) → (w.exs 0).streamStarted = true

/-- `start()` has not been called. -/
structure Idle (w : World Driver) : Prop where
  live : Live (w.exs 0)
  log : w.env.log = []
  resumes : w.env.resumes = []
  ops : (w.exs 0).ops = []
  stream : (w.exs 0).streamStarted = false

structure Going (w : World Driver) : Prop where
  logged : WellLogged w.env.log
  live : Live (w.exs 0)
  running : Running w.env.log
  streams : Streams w
  started : w.env.started = true

structure Over (w : World Driver) : Prop where
  logged : WellLogged w.env.log
  ended : Ended (w.exs 0)
  noted : ∃ e ∈ w.env.log, e.what.ends = true

/-- What holds inside a handler, between the calls of a script. -/
def Safe (w : World Driver) : Prop := Driver.Going w ∨ Over w

variable {F : Site → Prop} {w w' : World Driver} {cb : EndCallbacks Driver}
  {scb : StreamCallbacks Driver} {lib : Library}

/-- The exchange ends, and the driver learns of it. -/
theorem over_note {what : What} (hl : WellLogged w.env.log) (hr : Running w.env.log)
    (he : Ended (w.exs 0)) (hends : what.ends = true)
    (hc : what = .complete → ∀ e ∈ w.env.log, e.what ≠ .header) : Over (note what w) where
  logged := ⟨hl, hr, hc, fun _ => disposed_of_ended he⟩
  ended := he
  noted := ⟨_, List.mem_cons_self .., hends⟩

/-- Once it is over, the exchange is out of reach of every call. -/
theorem wp_call_over (h : Over w) (c : Call) :
    wp F (call cb c) (fun _ => Over) (fun _ => False) w := by
  cases c with
  | cancel =>
      refine wp_modify.mpr ?_
      unfold cancelExchange
      rw [if_pos h.ended.completed]
      refine ⟨h.logged, ?_, h.noted⟩
      rw [World.setEx_same, h.ended.cancel]
      exact h.ended
  | resume final error =>
      unfold call
      simp only [wp_get_bind]
      split
      · refine wp_mono (wp_resumeStream_ended h.ended final error) ?_ (fun _ hf => hf)
        rintro _ w' rfl
        exact h
      · exact wp_pure.mpr h

/-- A script keeps what each of its calls keeps. -/
theorem wp_runCalls {P : World Driver → Prop}
    (hcall : ∀ c w, P w → wp F (call cb c) (fun _ => P) (fun _ => False) w)
    (calls : List Call) (h : P w) : wp F (runCalls cb calls) (fun _ => P) (fun _ => False) w := by
  induction calls generalizing w with
  | nil => exact wp_pure.mpr h
  | cons c rest ih =>
      unfold runCalls
      exact wp_bind (wp_mono (hcall c w h) (fun _ _ h' => ih h') (fun _ hf => hf))

theorem wp_runScript {P : World Driver → Prop}
    (hcall : ∀ c w, P w → wp F (call cb c) (fun _ => P) (fun _ => False) w)
    (htake : ∀ w scripts, P w → P { w with env := { w.env with scripts } }) (h : P w) :
    wp F (runScript cb) (fun _ => P) (fun _ => False) w := by
  unfold runScript
  simp only [wp_get_bind]
  split
  · exact wp_pure.mpr h
  · rename_i script rest _
    simp only [wp_modify_bind]
    refine wp_bind (wp_mono (wp_runCalls hcall script.calls (htake w rest h)) ?_ (fun _ hf => hf))
    intro _ w' h'
    exact wp_pure.mpr h'

theorem Over.scripts (h : Over w) (scripts : List Script) :
    Over { w with env := { w.env with scripts } } := ⟨h.logged, h.ended, h.noted⟩

theorem wp_answer {what : What} (h : Over (note what w)) :
    wp F (answer cb what) (fun _ => Over) (fun _ => False) w := by
  unfold answer
  simp only [wp_modify_bind]
  refine wp_bind (wp_mono (wp_runScript (fun c w h => wp_call_over h c)
    (fun w scripts h => h.scripts scripts) h) ?_ (fun _ hf => hf))
  intro _ w' h'
  exact wp_pure.mpr h'

/-- The three callbacks that end an exchange, at every depth. -/
theorem wp_endCallbacks (depth : Nat) :
    (∀ k r w, Over (note .complete w) →
      wp F ((endCallbacks depth).complete k r) (fun _ => Over) (fun _ => False) w)
    ∧ (∀ k w, Over (note .abort w) →
      wp F ((endCallbacks depth).abort k) (fun _ => Over) (fun _ => False) w)
    ∧ (∀ k failure downstreamFailed w, Over (note .finish w) →
      wp F ((endCallbacks depth).finish k failure downstreamFailed) (fun _ => Over)
        (fun _ => False) w) := by
  cases depth with
  | zero =>
      exact ⟨fun _ _ _ h => wp_modify.mpr h, fun _ _ h => wp_modify.mpr h,
        fun _ _ _ _ h => wp_modify.mpr h⟩
  | succ depth =>
      exact ⟨fun _ _ _ h => wp_answer h, fun _ _ h => wp_answer h, fun _ _ _ _ h => wp_answer h⟩

theorem Over.same (h : Over w) (hs : Same 0 w w') (he : Ended (w'.exs 0)) : Over w' :=
  ⟨hs.env ▸ h.logged, he, hs.env ▸ h.noted⟩

theorem Over.dropAbort (h : Over w) : Over (w.setEx 0 dropAbort) where
  logged := h.logged
  ended := by
    rw [World.setEx_same]
    exact h.ended.dropAbort
  noted := h.noted

/-- Until the exchange ends, the driver's own state does not move. -/
theorem Going.same (h : Driver.Going w) (hs : Same 0 w w') (hl : Live (w'.exs 0)) :
    Driver.Going w' where
  logged := hs.env ▸ h.logged
  live := hl
  running := hs.env ▸ h.running
  streams := by
    intro hseen
    rw [hs.env] at hseen
    exact hs.kin.stream (h.streams hseen)
  started := hs.env ▸ h.started

/-- The exchange is updated, and goes on. -/
theorem Going.set (h : Driver.Going w) {f : Exchange → Exchange} (hl : Live (f (w.exs 0)))
    (hs : (f (w.exs 0)).streamStarted = (w.exs 0).streamStarted) :
    Driver.Going (w.setEx 0 f) where
  logged := h.logged
  live := by
    rw [World.setEx_same]
    exact hl
  running := h.running
  streams := by
    intro hseen
    rw [World.setEx_same, hs]
    exact h.streams hseen
  started := h.started

theorem Going.ends (h : Driver.Going w) (w' : World Driver)
    (henv : w'.env = w.env) (he : Ended (w'.exs 0))
    (what : What) (hends : what.ends = true)
    (hc : what = .complete → (w.exs 0).streamStarted = false) : Over (note what w') := by
  refine over_note (henv ▸ h.logged) (henv ▸ h.running) he hends ?_
  intro hwhat e hmem hheader
  rw [henv] at hmem
  have hstarted := h.streams (Or.inr ⟨e, hmem, hheader⟩)
  rw [hc hwhat] at hstarted
  cases hstarted

/-- An exception after which the exchange is as the driver knows it. -/
theorem Safe.rescued (h : Safe w) (depth : Nat) :
    Rescued F (endCallbacks depth) 0 Safe w := by
  obtain ⟨-, habort, -⟩ := wp_endCallbacks (F := F) depth
  rcases h with hgo | hover
  · refine wp_abandon hgo.live.toUnclaimed ?_ fun w' hs he => ?_
    · rintro ⟨p, c, hput⟩
      exact absurd hput (hgo.live.unput p c)
    · exact wp_mono (habort 0 w' (hgo.ends w' hs.env he .abort rfl (fun h => by cases h)))
        (fun _ _ h => Or.inr h) (fun _ hf => hf)
  · unfold Rescued abandon
    simp only [wp_get_bind]
    rw [if_pos hover.ended.completed]
    exact wp_pure.mpr (Or.inr hover)

/-- The driver answers for every outcome of a handler, once its stream callbacks
do. -/
theorem ends (h : Driver.Going w) (depth : Nat) {success : Prop} :
    Ends F (endCallbacks depth) 0 w success Safe := by
  obtain ⟨-, habort, hfinish⟩ := wp_endCallbacks (F := F) depth
  exact
    { abort := fun w' hsame he =>
        wp_mono (habort 0 w' (h.ends w' hsame.env he .abort rfl (fun h => by cases h)))
          (fun _ _ h' => Or.inr h') (fun _ hf => hf)
      finish := fun _ w' failure downstreamFailed hsame he _ => by
        have hended : Ended
            ((w'.setEx 0 (record (.finish failure downstreamFailed))).exs 0) := by
          rw [World.setEx_same]
          exact he
        have hover := h.ends (w'.setEx 0 (record (.finish failure downstreamFailed)))
          hsame.env hended .finish rfl (fun h => by cases h)
        exact wp_mono (hfinish 0 failure downstreamFailed _ hover)
          (fun _ _ h' => Or.inr h'.dropAbort) (fun _ hf => hf) }

theorem outcomes (h : Driver.Going w) (depth : Nat) {reading success : Prop}
    (hheader : ∀ w' head up final, Driver.Going w' → (w'.exs 0).streamStarted = true →
      wp F (scb.header 0 head up final) (fun _ => Safe) (Rescued F (endCallbacks depth) 0 Safe) w')
    (hbody : ∀ w' block final, Driver.Going w' → (w'.exs 0).streamStarted = true →
      wp F (scb.body 0 block final) (fun _ => Safe) (Rescued F (endCallbacks depth) 0 Safe) w') :
    Outcomes F (endCallbacks depth) scb lib 0 w reading success Safe := by
  obtain ⟨hcomplete, -, -⟩ := wp_endCallbacks (F := F) depth
  have hnoted : ∀ (w' : World Driver) (n : Relay.Note Char ErrorCode), Same 0 w w' →
      Live (w'.exs 0) → (w'.exs 0).streamStarted = true →
      Driver.Going (w'.setEx 0 (record (.relay n)))
        ∧ ((w'.setEx 0 (record (.relay n))).exs 0).streamStarted = true := by
    intro w' n hsame hl hs
    rw [World.setEx_same]
    exact ⟨(h.same hsame hl).set (hl.relay hs n) rfl, hs⟩
  exact
    { ends h depth with
      quiet := fun _ w' hg => Or.inl (h.same hg.same hg.live)
      next := fun _ hs w' hg _ => by
        have hs' : (w'.exs 0).streamStarted = true := hg.stream.trans hs
        exact Or.inl ((h.same hg.same hg.live).set (hg.live.addBlock hs') rfl)
      complete := fun hs w' r hsame he _ =>
        wp_mono (hcomplete 0 r w' (h.ends w' hsame.env he .complete rfl (fun _ => hs)))
          (fun _ _ h' => Or.inr h'.dropAbort) (fun _ hf => hf)
      header := fun _ w' head up final hsame hl hs _ => by
        obtain ⟨hgo, hs'⟩ := hnoted w' (.opened final) hsame hl hs
        exact hheader _ head up final hgo hs'
      body := fun _ _ w' block final hsame hl hs _ _ => by
        obtain ⟨hgo, hs'⟩ := hnoted w' (.passed block final) hsame hl hs
        exact hbody _ block final hgo hs' }

theorem Going.cancelled (h : Driver.Going w) : Over (cancelExchange w) := by
  unfold cancelExchange
  rw [if_neg (by simp [h.live.completed])]
  obtain ⟨hended, hkin⟩ := h.live.toOpen.cancel
  refine h.ends (w.setEx 0 Exchange.cancel) rfl ?_ .cancelled rfl (fun h => by cases h)
  rw [World.setEx_same]
  exact hended

theorem wp_call_safe (depth : Nat) (c : Call) (h : Safe w) :
    wp F (call (endCallbacks depth) c) (fun _ => Safe) (fun _ => False) w := by
  rcases h with hgo | hover
  · cases c with
    | cancel => exact wp_modify.mpr (Or.inr hgo.cancelled)
    | resume final error =>
        unfold call
        simp only [wp_get_bind]
        split
        · rename_i hmem
          have hs : (w.exs 0).streamStarted = true :=
            hgo.streams (Or.inl (List.ne_nil_of_mem hmem))
          have hlive := hgo.live.relay hs (.taken error)
          have hresumed : Driver.Going (resumed 0 error w) := hgo.set hlive rfl
          refine wp_resumeStream hgo.live hs (ends hresumed depth) fun _ _ => Or.inl ?_
          exact hresumed.set (hresumed.live.addBlock (by rwa [resumed, World.setEx_same])) rfl
        · exact wp_pure.mpr (Or.inl hgo)
  · exact wp_mono (wp_call_over hover c) (fun _ _ h => Or.inr h) (fun _ hf => hf)

theorem Safe.scripts (h : Safe w) (scripts : List Script) :
    Safe { w with env := { w.env with scripts } } := by
  rcases h with hgo | hover
  · exact Or.inl ⟨hgo.logged, hgo.live, hgo.running, hgo.streams, hgo.started⟩
  · exact Or.inr (hover.scripts scripts)

/-- A piece of the stream reaches the driver. -/
theorem wp_deliver (depth : Nat) (h : Driver.Going w) (hs : (w.exs 0).streamStarted = true)
    {what : What} (hends : what.ends = false) (final : Bool) :
    wp F (deliver (endCallbacks depth) what final) (fun _ => Safe)
      (Rescued F (endCallbacks depth) 0 Safe) w := by
  unfold deliver
  simp only [wp_modify_bind]
  have hgo : Driver.Going { note what w with
      env := { (note what w).env with resumes := final :: w.env.resumes } } :=
    { logged := by
        refine ⟨h.logged, h.running, ?_, ?_⟩
        · rintro rfl
          cases hends
        · intro hends'
          rw [hends] at hends'
          cases hends'
      live := h.live
      running := by
        intro e he
        rcases List.mem_cons.mp he with rfl | he
        · exact hends
        · exact h.running e he
      streams := fun _ => hs
      started := h.started }
  refine wp_bind (wp_mono (wp_runScript (fun c w h => wp_call_safe depth c h)
    (fun w scripts h => h.scripts scripts) (Or.inl hgo)) ?_ (fun _ hf => hf.elim))
  intro throws w' hsafe
  cases throws with
  | true => exact wp_throw.mpr (hsafe.rescued depth)
  | false => exact wp_pure.mpr hsafe

/-! ## Events -/

theorem wp_completion (depth : Nat) (h : Safe w) (c : Completion) :
    wp F (dispatch (endCallbacks depth) lib (streamCallbacks (endCallbacks depth)) 0 c)
      (fun _ => Safe) (fun _ => False) w := by
  rcases h with hgo | hover
  · refine wp_dispatch hgo.live c (Or.inl hgo) fun hop => ?_
    have hreceived := hgo.set (hgo.live.completion hop) (receive_streamStarted c _)
    refine outcomes hreceived depth ?_ ?_
    · exact fun w' head up final hgo' hs => wp_deliver depth hgo' hs rfl final
    · exact fun w' block final hgo' hs => wp_deliver depth hgo' hs rfl final
  · refine wp_mono (wp_dispatch_ended hover.ended c) ?_ (fun _ hf => hf)
    rintro _ w' (rfl | rfl)
    · exact Or.inr hover
    · refine Or.inr (hover.same ((Same.refl 0 w).setEx (hover.ended.kin_receive c)) ?_)
      rw [World.setEx_same]
      exact hover.ended.completion c

/-- What holds between handlers. -/
def Steady (w : World Driver) : Prop := Idle w ∨ Safe w

theorem wp_start_idle (h : Idle w) :
    wp F (Exchange.start 0) (fun _ => Safe) Safe
      { w with env := { w.env with started := true } } := by
  have hgo : Driver.Going { w with env := { w.env with started := true } } :=
    { logged := by simp [h.log, WellLogged]
      live := h.live
      running := by simp [h.log, Running]
      streams := by simp [Streams, h.log, h.resumes]
      started := rfl }
  have hz : (w.exs 0).stages = 0 := by simp [stages, h.ops]
  refine wp_mono (wp_start h.live h.stream hz) ?_ ?_
  · exact fun _ _ hg => Or.inl (hgo.same hg.same hg.live)
  · exact fun _ hg => Or.inl (hgo.same hg.same hg.live)

theorem wp_start_over (h : Over w) :
    wp F (Exchange.start 0) (fun _ => Safe) Safe w := by
  refine wp_mono (wp_start_ended h.ended) ?_ ?_
  · exact fun _ _ hw => Or.inr (h.same hw.1 hw.2)
  · exact fun _ hw => Or.inr (h.same hw.1 hw.2)

theorem handle_steady (depth : Nat) (h : Steady w) (event : Event) :
    wp F (handle lib depth event) (fun _ => Steady) Steady w := by
  cases event with
  | start =>
      unfold handle
      simp only [wp_get_bind]
      split
      · exact wp_pure.mpr h
      · rename_i hstarted
        simp only [wp_modify_bind]
        refine wp_tryCatch (wp_mono (Q := fun _ => Safe) (E := Safe) ?_ ?_ ?_)
        · rcases h with hidle | hgo | hover
          · exact wp_start_idle hidle
          · exact absurd hgo.started hstarted
          · exact wp_start_over ⟨hover.logged, hover.ended, hover.noted⟩
        · exact fun _ _ hsafe => Or.inr hsafe
        · exact fun _ hsafe => wp_pure.mpr (Or.inr hsafe)
  | completion c =>
      rcases h with hidle | hsafe
      · unfold handle dispatch
        simp only [wp_get_bind]
        rw [if_neg (by simp [hidle.ops])]
        exact wp_pure.mpr (Or.inl hidle)
      · exact wp_mono (wp_completion depth hsafe c) (fun _ _ h' => Or.inr h') (fun _ hf => hf.elim)
  | call c =>
      rcases h with hidle | hsafe
      · cases c with
        | cancel =>
            refine wp_modify.mpr (Or.inr (Or.inr ?_))
            obtain ⟨hended, -⟩ := hidle.live.toOpen.cancel
            unfold cancelExchange
            rw [if_neg (by simp [hidle.live.completed])]
            refine over_note ?_ ?_ ?_ rfl (fun h => by cases h)
            · simp [hidle.log, WellLogged]
            · simp [hidle.log, Running]
            · rwa [World.setEx_same]
        | resume final error =>
            unfold handle call
            simp only [wp_get_bind]
            rw [if_neg (by simp [hidle.resumes])]
            exact wp_pure.mpr (Or.inl hidle)
      · exact wp_mono (wp_call_safe depth c hsafe) (fun _ _ h' => Or.inr h')
          (fun _ hf => hf.elim)

theorem step_steady (depth : Nat) (input : Input) (h : Steady w) :
    Steady (step lib depth input w) := by
  refine exec_of_wp (admissible_none input.oracle) (handle_steady depth ?_ input.event)
  rcases h with hidle | hsafe
  · exact Or.inl ⟨hidle.live, hidle.log, hidle.resumes, hidle.ops, hidle.stream⟩
  · exact Or.inr (hsafe.scripts input.scripts)

/-- A new exchange, not started yet. -/
def launch (shared : Shared) (selected : SelectedUpstream) (request : HttpRequest)
    (pooled : Bool) (connection : UpstreamConnection) (reused : Bool) (cell : Option Nat) :
    World Driver :=
  { shared, exs := fun _ => Exchange.make selected request pooled connection reused cell,
    env := {} }

theorem Steady.logged (h : Steady w) : WellLogged w.env.log := by
  rcases h with hidle | hgo | hover
  · simp [hidle.log, WellLogged]
  · exact hgo.logged
  · exact hover.logged

theorem Steady.ended_iff (h : Steady w) :
    (w.exs 0).completed = true ↔ ∃ e ∈ w.env.log, e.what.ends = true := by
  rcases h with hidle | hgo | hover
  · simp [hidle.log, hidle.live.completed]
  · rw [hgo.live.completed]
    refine ⟨fun h => (by cases h), ?_⟩
    rintro ⟨e, he, hends⟩
    rw [hgo.running e he] at hends
    cases hends
  · exact ⟨fun _ => hover.noted, fun _ => hover.ended.completed⟩

theorem Steady.disposed (h : Steady w) (hc : (w.exs 0).completed = true) :
    Disposed (w.exs 0).lease (w.exs 0).puts := by
  rcases h with hidle | hgo | hover
  · rw [hidle.live.completed] at hc
    cases hc
  · rw [hgo.live.completed] at hc
    cases hc
  · exact disposed_of_ended hover.ended

/-- In every run of an exchange, whatever its owner does in the callbacks: at most
one of `on_complete_`, `finish` and `on_abort_` is called; no callback comes after
one of these or after a `cancel` that won the claim; `on_complete_` does not come
after a header; and from its end on the connection is in the pool, put there once,
or closed. -/
theorem terminates_once (lib : Library) (shared : Shared) (selected : SelectedUpstream)
    (request : HttpRequest) (pooled : Bool) (connection : UpstreamConnection) (reused : Bool)
    (cell : Option Nat) (depth : Nat) (inputs : List Input) :
    let w := run (step lib depth)
      (launch shared selected request pooled connection reused cell) inputs
    w.env.log.countP (fun e => e.what.terminal) ≤ 1
      ∧ (∀ later e earlier, w.env.log = later ++ e :: earlier → e.what.ends = true → later = [])
      ∧ (∀ later e earlier, w.env.log = later ++ e :: earlier → e.what = .complete →
          ∀ e' ∈ earlier, e'.what ≠ .header)
      ∧ (∀ e ∈ w.env.log, e.what.ends = true → Disposed e.lease e.puts)
      ∧ ((w.exs 0).completed = true ↔ ∃ e ∈ w.env.log, e.what.ends = true)
      ∧ ((w.exs 0).completed = true → Disposed (w.exs 0).lease (w.exs 0).puts) := by
  intro w
  have h : Steady w := by
    refine run_invariant_all Steady (fun input w => step_steady depth input) (Or.inl ?_) inputs
    exact ⟨live_make .., rfl, rfl, rfl, rfl⟩
  refine ⟨h.logged.countP_terminal, ?_, ?_, fun e he => h.logged.disposed he, h.ended_iff,
    h.disposed⟩
  · intro later e earlier heq
    exact (heq ▸ h.logged).last
  · intro later e earlier heq hcomplete
    obtain ⟨-, -, hheader, -⟩ := (heq ▸ h.logged).suffix
    exact hheader hcomplete

end Driver

end ApiGate
