import ApiGate.ServerSafety
import ApiGate.System

/-!
# A drain takes no new work

From the moment at which `begin_drain` takes effect the server accepts nothing,
a session that waits for a request is closed, and one that answers a request
finishes its answer: it notes no dispatch and no header read any more, and the
heads it still hands over close the connection.
-/

namespace ApiGate

open EventLoop Act

/-! ## A session that winds up -/

/-- What a session that was told to drain, or has finished, may still do. -/
def Note.Late : Note → Prop
  | .dispatch | .readHeader => False
  | .head response => response.keepAlive = false
  | .reset | .header _ | .counted _ | .streamFailed _ => True

theorem Session.counted_late (counters : List Counter) :
    ∀ note ∈ Session.counted counters, note.Late := by
  intro note hmem
  simp only [Session.counted, List.mem_reverse, List.mem_map] at hmem
  obtain ⟨counter, -, rfl⟩ := hmem
  exact trivial

namespace Outline

variable {g : Setup} {lenient lossy : Prop} {base : List Note} {f f' : Outline}

structure Winding (base : List Note) (f : Outline) : Prop where
  told : f.draining = true ∨ f.finished = true
  since : ∃ notes, f.log = notes ++ base ∧ ∀ note ∈ notes, note.Late

/-- More notes of the kind that is allowed. -/
theorem Winding.more (h : Winding base f) (notes : List Note) (hnotes : ∀ note ∈ notes, note.Late)
    (hlog : f'.log = notes ++ f.log) (hdraining : f.draining = true → f'.draining = true)
    (hfinished : f.finished = true → f'.finished = true) : Winding base f' := by
  obtain ⟨earlier, heq, hearlier⟩ := h.since
  refine ⟨h.told.imp hdraining hfinished, notes ++ earlier, ?_, fun note hmem => ?_⟩
  · rw [hlog, heq, List.append_assoc]
  · rcases List.mem_append.mp hmem with hmem | hmem
    · exact hnotes note hmem
    · exact hearlier note hmem

theorem Winding.same (h : Winding base f) (hlog : f'.log = f.log)
    (hdraining : f.draining = true → f'.draining = true)
    (hfinished : f.finished = true → f'.finished = true) : Winding base f' :=
  h.more [] (by simp) hlog hdraining hfinished

theorem Winding.busy (h : Winding base f) (hf : f.finished = false) : f.draining = true := by
  rcases h.told with hd | hfin
  · exact hd
  · rw [hf] at hfin
    cases hfin

/-- A head of a session that still answers. -/
theorem Winding.head (h : Winding base f) {response : HttpResponse} (hp : f.Pending)
    (hpolite : Polite lenient f response) {counters : List Counter}
    (hlog : f'.log = .head response :: (Session.counted counters ++ f.log))
    (hdraining : f'.draining = f.draining) (hfinished : f'.finished = f.finished) :
    Winding base f' := by
  refine h.more (.head response :: Session.counted counters) (fun note hmem => ?_) hlog
    (fun hd => hdraining.trans hd) fun hfin => hfinished.trans hfin
  rcases List.mem_cons.mp hmem with rfl | hmem
  · exact hpolite.drain (h.busy hp.unfinished)
  · exact Session.counted_late counters note hmem

theorem Winding.move (h : Winding base f) (hmove : Move g lenient lossy f f') :
    Winding base f' := by
  cases hmove with
  | reset hf _ hquiet =>
      rw [h.busy hf] at hquiet
      cases hquiet
  | readHeader hf hreading =>
      have hquiet := hreading.quiet
      rw [h.busy hf] at hquiet
      cases hquiet
  | dispatch now hp hreading =>
      have hquiet := hreading.quiet
      rw [h.busy hp.unfinished] at hquiet
      cases hquiet
  | header target => exact h.more [.header target] (by simp [Note.Late]) rfl id id
  | reject hp reason => exact h.more _ (Session.counted_late _) rfl id id
  | fail hp _ _ stage => exact h.more _ (Session.counted_late _) rfl id id
  | failStream _ _ _ _ _ _ stage =>
      have hnoted : Winding base { f with busy := false, log := .streamFailed stage :: f.log } :=
        h.more [.streamFailed stage] (by simp [Note.Late]) rfl id id
      exact hnoted.more _ (Session.counted_late _) rfl id id
  | answer now hp hidle hpolite => exact h.head hp hpolite rfl rfl rfl
  | stream now close hp hpolite => exact h.head hp hpolite rfl rfl rfl
  | lose _ status now => exact h.more _ (Session.counted_late _) rfl id id
  | drain => exact h.same rfl (fun _ => rfl) id
  | drainClosing => exact h.same rfl (fun _ => rfl) fun _ => rfl
  | close => exact h.same rfl id fun _ => rfl
  | _ => exact h.same rfl id id

/-- A session that drains has no request to wait for. -/
def Parted (f : Outline) : Prop :=
  f.draining = true → f.finished = false → f.phase ≠ .reading ∧ f.phase ≠ .handshaking

theorem Parted.move (h : Parted f) (hmove : Move g lenient lossy f f') : Parted f' := by
  cases hmove with
  | handshake hquiet | reset _ _ hquiet =>
      intro hd _
      rw [show f.draining = true from hd] at hquiet
      cases hquiet
  | drain _ hreading hhandshaking => exact fun _ _ => ⟨hreading, hhandshaking⟩
  | drainClosing | close =>
      intro _ hf
      cases hf
  | shut | proxy | answer | stream => exact fun _ _ => ⟨by simp, by simp⟩
  | lose _ _ _ _ hphase =>
      intro _ _
      rcases hphase with ⟨rfl, -⟩ | ⟨rfl, -⟩
      · exact ⟨by simp, by simp⟩
      · exact ⟨by simp, by simp⟩
  | _ => exact h

end Outline

/-! ## The calls of the server -/

/-- The session waits for a request, or for the connection to be made, and nobody has
told it to drain. -/
def Session.Waiting (s : Session) : Prop :=
  s.draining = false ∧ (s.phase = .handshaking ∨ s.phase = .reading)

namespace Gateway

variable {g : Setup} {gw : Gateway} {i : Nat}

/-- What a call may do to a session that was started: it leaves no note, and a session
that waits either goes on waiting or is finished. -/
structure Called (s s' : Session) : Prop where
  started : s'.started = true
  log : s'.log = s.log
  waiting : s.finished = true ∨ s.Waiting → s'.finished = true ∨ s'.Waiting

theorem Called.refl {s : Session} (h : s.started = true) : Called s s := ⟨h, rfl, id⟩

theorem Called.trans {s s' s'' : Session} (h : Called s s') (h' : Called s' s'') : Called s s'' :=
  ⟨h'.started, h'.log.trans h.log, h'.waiting ∘ h.waiting⟩

theorem called_stop {w : World Session} (h : w.env.started = true) :
    Called w.env (Session.stop w).env := by
  cases hf : w.env.finished with
  | true =>
      unfold Session.stop
      rw [if_pos hf]
      exact Called.refl h
  | false =>
      rw [Session.stop_of_unfinished hf]
      exact ⟨h, rfl, fun _ => Or.inl rfl⟩

theorem called_beginDrain {w : World Session} (h : w.env.started = true) :
    Called w.env (Session.beginDrain w).env := by
  unfold Session.beginDrain
  split
  · exact Called.refl h
  · dsimp only
    rename_i hnew
    simp only [Bool.or_eq_true, not_or, Bool.not_eq_true] at hnew
    split
    · rw [Session.stop_of_unfinished (w := Session.set (fun s => { s with draining := true }) w)
        hnew.2]
      exact ⟨h, rfl, fun _ => Or.inl rfl⟩
    all_goals
      rename_i hclass
      have hclass : classifySessionDrain w.env.phase = _ := hclass
      refine ⟨h, rfl, fun hwaits => ?_⟩
      rcases hwaits with hf | ⟨-, hp | hp⟩
      · rw [hnew.2] at hf
        cases hf
      · rw [hp] at hclass
        cases hclass
      · rw [hp] at hclass
        cases hclass

/-- An event of another session. -/
theorem session_step_ne {j : Nat} (hji : j ≠ i) (event : Session.Event) (now : TimePoint)
    (o : Oracle Site) : (step g ⟨.session i event, now, o⟩ gw).session j = gw.session j := by
  have hput : ∀ w, (((gw.tick now).put i w).session j) = gw.session j := by
    intro w
    simp [Gateway.session, put, tick, Function.update_of_ne hji]
  exact hput _

theorem session_step_call (input : Input) (hcall : input.event.isCall = true)
    (hstarted : (gw.session i).started = true) :
    Called (gw.session i) ((step g input gw).session i) := by
  obtain ⟨event, now, o⟩ := input
  cases event with
  | session j event =>
      by_cases hij : i = j
      · subst hij
        have hs : ((gw.tick now).view i).env.started = true := hstarted
        have hhandle : wp (fun _ => False) (Session.handle g event)
            (fun _ w => Called (gw.session i) w.env) (fun w => Called (gw.session i) w.env)
            ((gw.tick now).view i) := by
          unfold Session.handle
          cases event with
          | start =>
              simp only [wp_get_bind, hs, if_true]
              exact wp_pure.mpr (Called.refl hs)
          | drain =>
              simp only [wp_get_bind, hs, if_true]
              exact wp_modify.mpr (called_beginDrain hs)
          | stop =>
              simp only [wp_get_bind, hs, if_true]
              exact wp_modify.mpr (called_stop hs)
          | completion | exchange | destroyExchange | destroy => cases hcall
        have hself : ∀ w : World Session, ((gw.tick now).put i w).session i = w.env := by
          intro w
          simp [Gateway.session, put]
        refine exec_of_wp (P := fun gw' : Gateway => Called (gw.session i) (gw'.session i))
          (admissible_none o) (wp_zoom (wp_mono hhandle (fun _ w hw => ?_) fun w hw => ?_))
        · rw [hself]
          exact hw
        · rw [hself]
          exact hw
      · rw [session_step_ne hij]
        exact Called.refl hstarted
  | stopPool => exact Called.refl hstarted
  | probe | cleanup => cases hcall

theorem session_run_calls {calls : List Input} (hcalls : ∀ input ∈ calls, input.event.isCall = true)
    (hstarted : (gw.session i).started = true) :
    Called (gw.session i) ((run (step g) gw calls).session i) := by
  refine run_invariant (fun gw' : Gateway => Called (gw.session i) (gw'.session i)) ?_
    (Called.refl hstarted) calls hcalls
  intro input gw' hcall h
  exact h.trans (session_step_call input hcall h.started)

end Gateway

/-! ## Runs -/

/-- A session that was told to drain: it has finished, or it is on its way out, or it is
still at the answer it owes; and then something is under way that is not a read. -/
def Session.WindsUp (w : World Session) : Prop :=
  w.env.finished = true
    ∨ ((w.env.phase = .proxying ∨ w.env.phase = .writing ∨ w.env.phase = .closing)
      ∧ .readHeader ∉ w.env.ops
      ∧ (w.env.ops ≠ [] ∨ ∃ k, w.env.proxyExchange = some k ∧ (w.exs k).completed = false))

/-- A session at rest that neither reads nor shakes hands. -/
theorem Session.Rest.windsUp {c : Session.Context} {F : Site → Prop} {w : World Session}
    (h : Session.Rest c F w) (hF : F .rejectionWrite)
    (hparted : w.env.finished = false → w.env.phase ≠ .reading ∧ w.env.phase ≠ .handshaking) :
    Session.WindsUp w := by
  cases h.mode with
  | gone hf => exact Or.inl hf
  | handshaking hf _ hp => exact absurd hp (hparted hf).2
  | reading _ hf _ hp => exact absurd hp (hparted hf).1
  | proxying k _ hx hp hops _ hl =>
      refine Or.inr ⟨Or.inl hp, ?_, Or.inr ⟨k, hx, hl.completed⟩⟩
      rw [hops]
      exact List.not_mem_nil
  | streaming k _ hx hp _ hl _ hw =>
      refine Or.inr ⟨Or.inr (Or.inl hp), ?_, Or.inr ⟨k, hx, hl.completed⟩⟩
      rcases hw with ⟨hops, -⟩ | ⟨final, hops | hops, -⟩
      all_goals
        rw [hops]
        simp
  | writing _ _ _ hp hops =>
      refine Or.inr ⟨Or.inr (Or.inl hp), ?_, Or.inl ?_⟩
      · rw [hops]
        simp
      · rw [hops]
        exact List.cons_ne_nil _ _
  | closing _ _ hp hops =>
      refine Or.inr ⟨Or.inr (Or.inr hp), ?_, Or.inl ?_⟩
      · rw [hops]
        simp
      · rw [hops]
        exact List.cons_ne_nil _ _
  | stuck hlost => exact absurd hF hlost

namespace System

variable {g : Setup} {R : Gateway.Input → Prop} {a b c : System} {m : Nat}

/-- The drain that takes `a` to `b`, seen from a later state `c`: no session and no accept
is new, the sessions that waited for a request are finished, and what the sessions have
done since is late work. -/
structure Halted (a b c : System) : Prop where
  sessions : c.server.nextSession = a.server.nextSession
  accepts : c.server.acceptsStarted = a.server.acceptsStarted
  waiting : ∀ i, (a.gateway.session i).started = true →
    (a.gateway.session i).phase = .handshaking ∨ (a.gateway.session i).phase = .reading →
    (b.gateway.session i).finished = true
  notes : ∀ i, ∃ notes, (c.gateway.session i).log = notes ++ (a.gateway.session i).log
    ∧ ∀ note ∈ notes, note.Late

/-- And every session is on its way out. -/
structure Drains (a b c : System) : Prop extends Halted a b c where
  remaining : ∀ i, (c.gateway.session i).started = true → Session.WindsUp (c.gateway.view i)

/-- The state of the sessions at any moment of a run. -/
theorem Run.ready {rateLimits : RouteRateLimits} {s₀ : ServerState}
    (h : Run g R (launch g rateLimits s₀) a) :
    Gateway.Ready g True a.gateway ∧ ∀ i, (a.gateway.outline i).Parted := by
  obtain ⟨inputs, heq, -⟩ := h.gateway
  rw [heq]
  refine (Gateway.launch_ready g rateLimits).run (P := fun gw => ∀ i, (gw.outline i).Parted)
    (fun _ _ _ _ => Gateway.heeds_all g _ _) (fun i hd => by cases hd) ?_
  intro input gw gw' i _ htame hturn hparted j
  by_cases hji : j = i
  · rw [hji]
    exact hturn.moves.keeps (fun hmove _ hf => Outline.Parted.move hf hmove) ((htame i).tick _)
      (hparted i)
  · rw [hturn.others j hji]
    exact hparted j

/-- A session that winds up goes on winding up. -/
theorem Run.winding (h : Run g R b c) (hready : Gateway.Ready g True b.gateway) {base : List Note}
    {i : Nat} (hw : (b.gateway.outline i).Winding base) : (c.gateway.outline i).Winding base := by
  obtain ⟨inputs, heq, -⟩ := h.gateway
  rw [heq]
  refine (hready.run (P := fun gw => (gw.outline i).Winding base)
    (fun _ _ _ _ => Gateway.heeds_all g _ _) hw ?_).2
  intro input gw gw' j _ htame hturn hw
  by_cases hij : i = j
  · rw [hij] at hw ⊢
    exact hturn.moves.keeps (fun hmove _ hf => hf.move hmove) ((htame j).tick _)
      (hw.same rfl id id)
  · rw [hturn.others i hij]
    exact hw.same rfl id id

theorem launch_agrees {rateLimits : RouteRateLimits} {o : Oracle ServerSite} {s₀ : ServerState}
    (h : Server.launch m o = some s₀) : Agrees (launch g rateLimits s₀) := by
  obtain ⟨-, hunborn⟩ := Server.launch_unborn h
  refine ⟨fun i => ?_, fun i => (hunborn.draining i).symm, fun i => ?_⟩
  · rw [show (launch g rateLimits s₀).server.nextSession = 0 from hunborn.next]
    rfl
  · refine ((Server.launch_rest h).core.fresh i ?_).symm
    rw [hunborn.next]
    exact Nat.zero_le i

theorem BeginsDrain.toStep (h : BeginsDrain g R a b) : Step g R a b := by
  obtain ⟨error, o, calls, hcalls, hallowed, rfl⟩ := h.step
  exact .server (.signal error, o) calls hcalls hallowed h.agrees

/-- The server's side of a drain. -/
theorem BeginsDrain.winds (h : BeginsDrain g R a b) (hrest : Server.Rest m a.server)
    (htracked : Server.Tracked a.server) : Server.Winds a.server b.server := by
  obtain ⟨error, o, calls, -, -, rfl⟩ := h.step
  have hsignal : (a.serve g (.signal error, o) calls).server.notes = a.server.notes
      ∨ Server.Winds a.server (a.serve g (.signal error, o) calls).server :=
    exec_of_wp (P := fun s' => s'.notes = a.server.notes ∨ Server.Winds a.server s')
      (admissible_none o) (wp_mono (Server.signal_winds hrest htracked h.running error)
        (fun _ _ hw => hw) fun _ hf => hf.elim)
  rcases hsignal with hnotes | hwinds
  · have hbegun := h.begun
    rw [hnotes] at hbegun
    exact absurd h.running (hrest.core.journal.begun hbegun)
  · exact hwinds

/-- The sessions' side: each that was started is told, and none has done anything. -/
theorem BeginsDrain.called (h : BeginsDrain g R a b) {i : Nat}
    (hstarted : (a.gateway.session i).started = true) :
    Gateway.Called (a.gateway.session i) (b.gateway.session i) := by
  obtain ⟨error, o, calls, hcalls, -, rfl⟩ := h.step
  exact Gateway.session_run_calls hcalls hstarted

/-- Every session that the server knows was told. -/
theorem Agrees.told (h : Agrees b) (htold : Server.Told b.server) {i : Nat}
    (hstarted : (b.gateway.session i).started = true) :
    (b.gateway.session i).draining = true ∨ (b.gateway.session i).finished = true := by
  rw [h.started i, decide_eq_true_eq] at hstarted
  rw [h.draining i, h.finished i]
  exact htold i hstarted

/-- A session that was never started has done nothing. -/
theorem log_of_unstarted (h : Gateway.Ready g True a.gateway) {i : Nat}
    (hnew : (a.gateway.session i).started = false) : (a.gateway.session i).log = [] := by
  obtain ⟨live, hinv⟩ := h.safe
  rcases hinv.steady i with hidle | hrest
  · rw [show a.gateway.session i = {} from hidle.env]
  · rw [show (a.gateway.session i).started = true from hrest.started] at hnew
    cases hnew

section Launched

variable {rateLimits : RouteRateLimits} {o : Oracle ServerSite} {s₀ : ServerState}

/-- Whatever throws, wherever. -/
theorem drain_halts (hlaunch : Server.launch m o = some s₀)
    (hbefore : Run g R (launch g rateLimits s₀) a) (hdrain : BeginsDrain g R a b)
    (hafter : Run g R b c) : Halted a b c := by
  obtain ⟨hrest, honward⟩ := hbefore.server (Server.launch_rest hlaunch)
  have htracked := honward.tracked (Server.launch_unborn hlaunch).1
  obtain ⟨hready, hparted⟩ := hbefore.ready
  have hagrees := hbefore.agrees (launch_agrees hlaunch)
  obtain ⟨htold, hhalts⟩ := hdrain.winds hrest htracked
  have huntil : Run g R (launch g rateLimits s₀) b := hbefore.tail hdrain.toStep
  have hall : Run g R (launch g rateLimits s₀) c := huntil.trans hafter
  have hrest_b := (huntil.server (Server.launch_rest hlaunch)).1
  have hready_b := huntil.ready.1
  have hready_c := hall.ready.1
  have hagrees_c := hafter.agrees hdrain.agrees
  obtain ⟨-, hnext, haccepts⟩ := (hafter.server hrest_b).2.halted hhalts.phase
  have hsessions : c.server.nextSession = a.server.nextSession := hnext.trans hhalts.next
  refine ⟨hsessions, haccepts.trans hhalts.accepts, fun i hstarted hphase => ?_, fun i => ?_⟩
  · have hcalled := hdrain.called hstarted
    -- it did not drain before, so it waits no longer
    have hwaits : (a.gateway.session i).finished = true ∨ (a.gateway.session i).Waiting := by
      by_contra hno
      rw [not_or, Bool.not_eq_true] at hno
      have hdraining : (a.gateway.session i).draining = true := by
        by_contra hquiet
        exact hno.2 ⟨by simpa using hquiet, hphase⟩
      obtain ⟨hreading, hhandshaking⟩ := hparted i hdraining hno.1
      rcases hphase with hp | hp
      · exact hhandshaking hp
      · exact hreading hp
    rcases hcalled.waiting hwaits with hf | hwaiting
    · exact hf
    · rcases hdrain.agrees.told htold hcalled.started with hd | hf
      · rw [hwaiting.1] at hd
        cases hd
      · exact hf
  · cases hstarted : (a.gateway.session i).started with
    | true =>
        have hcalled := hdrain.called hstarted
        have hwinding : (b.gateway.outline i).Winding (a.gateway.session i).log :=
          ⟨hdrain.agrees.told htold hcalled.started, [], hcalled.log, by simp⟩
        exact (hafter.winding hready_b hwinding).since
    | false =>
        have hnew : (c.gateway.session i).started = false := by
          rw [hagrees_c.started i, hsessions, ← hagrees.started i]
          exact hstarted
        refine ⟨[], ?_, by simp⟩
        rw [log_of_unstarted hready_c hnew, log_of_unstarted hready hstarted]
        rfl

/-- In every run in which `write_response` does not throw for the answer to a request that
`start_proxy_request` rejects: from the moment at which `begin_drain` takes effect, no
accept is started and no session created, the sessions that shake hands or read are
finished when it returns, no session dispatches a request or reads a header again, every
head closes its connection, and every session is finished or on its way out. -/
theorem drain_takes_no_work (hlaunch : Server.launch m o = some s₀)
    (hquiet : ∀ input, R input → ∀ n, input.oracle n .rejectionWrite = false)
    (hbefore : Run g R (launch g rateLimits s₀) a) (hdrain : BeginsDrain g R a b)
    (hafter : Run g R b c) : Drains a b c := by
  have hhalted := drain_halts hlaunch hbefore hdrain hafter
  refine { hhalted with remaining := fun i hstarted => ?_ }
  have huntil : Run g R (launch g rateLimits s₀) b := hbefore.tail hdrain.toStep
  have hall : Run g R (launch g rateLimits s₀) c := huntil.trans hafter
  obtain ⟨hrest, honward⟩ := hbefore.server (Server.launch_rest hlaunch)
  obtain ⟨htold, hhalts⟩ := hdrain.winds hrest
    (honward.tracked (Server.launch_unborn hlaunch).1)
  have hrest_b := (huntil.server (Server.launch_rest hlaunch)).1
  have htold_c := htold.onward hhalts.phase (hafter.server hrest_b).2
  have htold_i := (hafter.agrees hdrain.agrees).told htold_c hstarted
  have hparted := hall.ready.2 i
  obtain ⟨inputs, heq, hallowed⟩ := hall.gateway
  have hadmissible : ∀ input ∈ inputs, Admissible (· = Site.rejectionWrite) input.oracle := by
    rintro input hinput n site rfl
    exact hquiet input (hallowed input hinput) n
  have hsafe : Gateway.Safe g (· = Site.rejectionWrite) c.gateway := by
    rw [heq]
    exact Gateway.after_safe g _ rateLimits inputs hadmissible
  obtain ⟨live, hinv⟩ := hsafe
  rcases hinv.steady i with hidle | hsteady
  · rw [show c.gateway.session i = {} from hidle.env] at hstarted
    cases hstarted
  · refine hsteady.windsUp rfl fun hf => hparted ?_ hf
    rcases htold_i with hd | hfin
    · exact hd
    · rw [show (c.gateway.session i).finished = false from hf] at hfin
      cases hfin

end Launched

/-! ## Two drains -/

/-- A route whose only upstream is down after one failed check. -/
def oneChecked : Setup :=
  { config :=
      { routes :=
          [{ routePrefix := "/".toList
             upstreams := [{ host := "a".toList, port := 80 }]
             healthCheck := some { path := "/".toList, unhealthyThreshold := 1 } }] }
    lib := { intToStatus := id, sha256 := id }
    render := fun _ => [] }

/-- One connection, that waits for its first request. -/
def connected : System :=
  (launch oneChecked [none] Server.launched).serve oneChecked (.accept none 0, Server.smooth)
    [Gateway.accepted 0]

/-- At most session 0 exists, and the server knows it. -/
theorem agrees_of_one {x : System}
    (hzero : (x.gateway.session 0).started = decide (0 < x.server.nextSession)
      ∧ (x.gateway.session 0).draining = x.server.sessionDraining 0
      ∧ (x.gateway.session 0).finished = x.server.sessionFinished 0)
    (hnext : x.server.nextSession ≤ 1)
    (hothers : ∀ n, x.gateway.session (n + 1) = {} ∧ x.server.sessionDraining (n + 1) = false
      ∧ x.server.sessionFinished (n + 1) = false) : Agrees x where
  started i := by
    cases i with
    | zero => exact hzero.1
    | succ n =>
        rw [(hothers n).1, decide_eq_false (by omega)]
  draining i := by
    cases i with
    | zero => exact hzero.2.1
    | succ n => rw [(hothers n).1, (hothers n).2.1]
  finished i := by
    cases i with
    | zero => exact hzero.2.2
    | succ n => rw [(hothers n).1, (hothers n).2.2]

theorem connected_run {R : Gateway.Input → Prop} (h : R (Gateway.accepted 0)) :
    Run oneChecked R (launch oneChecked [none] Server.launched) connected := by
  refine Relation.ReflTransGen.single (.server (.accept none 0, Server.smooth)
    [Gateway.accepted 0] (by simp [Gateway.accepted, Gateway.Event.isCall]) (by simpa using h) ?_)
  exact agrees_of_one (by decide) (by decide) fun _ => ⟨rfl, rfl, rfl⟩

/-- The connection reads, so `begin_drain` closes it. -/
def drainedReading : System :=
  connected.serve oneChecked (.signal none, fun _ site => site = .drainCloses)
    [{ event := .session 0 .drain }]

/-- The read that the closed connection had under way completes. -/
def lateRead : Gateway.Input :=
  { event := .session 0 (.completion { op := .readHeader, error := some .operationAborted }) }

def unread : System :=
  ⟨drainedReading.server, Gateway.step oneChecked lateRead drainedReading.gateway⟩

theorem drain_takes_no_work_reading : Drains connected drainedReading unread := by
  have hquiet : ∀ n, (Gateway.accepted 0).oracle n .rejectionWrite = false := fun _ => rfl
  have hlate : Run oneChecked (fun input => ∀ n, input.oracle n .rejectionWrite = false)
      drainedReading unread := by
    refine Relation.ReflTransGen.single (.own lateRead rfl (fun _ => rfl) ?_)
    exact agrees_of_one (by decide) (by decide) fun _ => ⟨rfl, rfl, rfl⟩
  refine drain_takes_no_work (R := fun input => ∀ n, input.oracle n .rejectionWrite = false)
    (o := Server.smooth) (m := 1) rfl (fun _ h => h) (connected_run hquiet) ?_ hlate
  refine ⟨by decide, ⟨none, fun _ site => site = .drainCloses, [{ event := .session 0 .drain }],
    ?_, ?_, rfl⟩, ?_, by decide⟩
  · simp [Gateway.Event.isCall]
  · simp
  · exact agrees_of_one (by decide) (by decide) fun _ => ⟨rfl, rfl, rfl⟩

/-- The upstream is down. -/
def unhealthy : System :=
  ⟨connected.server, Gateway.step oneChecked { event := .probe 0 0 false } connected.gateway⟩

/-- The 503 for the first request cannot be written. -/
def lostAnswer : Gateway.Input :=
  { Gateway.requested 0 with oracle := fun _ site => site = .rejectionWrite }

def stranded : System :=
  ⟨unhealthy.server, Gateway.step oneChecked lostAnswer unhealthy.gateway⟩

def drainedStranded : System :=
  stranded.serve oneChecked (.signal none, Server.smooth) [{ event := .session 0 .drain }]

/-- The session drains but has nothing under way, so it is not on its way out. -/
theorem stranded_session_remains :
    ¬ ∀ (g : Setup) (R : Gateway.Input → Prop) (m : Nat) (o : Oracle ServerSite)
      (s₀ : ServerState) (rateLimits : RouteRateLimits) (a b c : System),
      Server.launch m o = some s₀ → Run g R (launch g rateLimits s₀) a → BeginsDrain g R a b →
      Run g R b c → Drains a b c := by
  intro h
  have hunhealthy : Step oneChecked (fun _ => True) connected unhealthy :=
    .own { event := .probe 0 0 false } rfl trivial
      (agrees_of_one (x := unhealthy) (by decide) (by decide) fun _ => ⟨rfl, rfl, rfl⟩)
  have hstranded : Step oneChecked (fun _ => True) unhealthy stranded :=
    .own lostAnswer rfl trivial
      (agrees_of_one (x := stranded) (by decide) (by decide) fun _ => ⟨rfl, rfl, rfl⟩)
  have hdrain : BeginsDrain oneChecked (fun _ => True) stranded drainedStranded := by
    refine ⟨by decide, ⟨none, Server.smooth, [{ event := .session 0 .drain }], ?_, ?_, rfl⟩, ?_,
      by decide⟩
    · simp [Gateway.Event.isCall]
    · simp
    · exact agrees_of_one (by decide) (by decide) fun _ => ⟨rfl, rfl, rfl⟩
  have hremaining := (h oneChecked (fun _ => True) 1 Server.smooth Server.launched [none] stranded
    drainedStranded drainedStranded rfl (((connected_run trivial).tail hunhealthy).tail hstranded)
    hdrain .refl).remaining 0 (by decide)
  rcases hremaining with hfinished | ⟨-, -, hops | ⟨k, hk, -⟩⟩
  · exact absurd hfinished (by decide)
  · exact hops (by decide)
  · have hnone : (drainedStranded.gateway.view 0).env.proxyExchange = none := by decide
    rw [hnone] at hk
    cases hk

end System

end ApiGate
