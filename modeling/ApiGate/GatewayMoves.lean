import ApiGate.RequestMoves

/-!
# A run as a sequence of moves

A step of the gateway is a turn of one session: its outline moves, and of the
outlines of the others only the shared part follows (`step_turn`). So what the
moves keep, every run keeps; `after_turns` is that induction. `Heeds` is what a
result may ask of the steps of a run: nothing when `lenient` and all of `lossy` hold.
-/

namespace ApiGate

open EventLoop Act

namespace Outline

variable {g : Setup} {lenient lossy : Prop} {f f' : Outline}

/-- The shared part is that of `f'`. -/
def share (f' f : Outline) : Outline :=
  { f with limits := f'.limits, positions := f'.positions, sizes := f'.sizes,
           checks := f'.checks, metrics := f'.metrics, now := f'.now }

theorem Tame.share (h : Tame g lenient f) (f' : Outline) : Tame g lenient (share f' f) where
  read hu hpos := { h.read hu hpos with }
  handshaking := h.handshaking
  reuse := h.reuse
  stream := h.stream

/-- What a handler finds that is called at `now`. -/
def tick (now : TimePoint) (f : Outline) : Outline := { f with now }

theorem Tame.tick (h : Tame g lenient f) (now : TimePoint) : Tame g lenient (f.tick now) where
  read hu hpos := { h.read hu hpos with }
  handshaking := h.handshaking
  reuse := h.reuse
  stream := h.stream

/-- The induction over a sequence of moves. -/
theorem Moves.keeps {P : Outline → Prop}
    (hmove : ∀ {f f'}, Move g lenient lossy f f' → Tame g lenient f → P f → P f')
    (h : Moves g lenient lossy f f') (htame : Tame g lenient f) (hf : P f) : P f' := by
  have hboth : Tame g lenient f' ∧ P f' := by
    induction h with
    | refl => exact ⟨htame, hf⟩
    | tail _ hstep ih => exact ⟨hstep.tame ih.1, hmove hstep ih.1 ih.2⟩
  exact hboth.2

end Outline

namespace Gateway

variable {g : Setup} {lenient : Prop} {lossy : Nat → Prop} {gw gw' : Gateway} {i j : Nat}

/-- Nothing of the `try` block of `start_proxy_request` throws before a response for
the request is under way. -/
structure StartsQuietly (g : Setup) (gw : Gateway) (route : SelectedRoute) (now : TimePoint)
    (o : Oracle Site) : Prop where
  sites : ∀ n site, Session.StartSite site → o n site = false
  admission : ∀ e, (gw.shared.admission.tryAcquire route now).1 ≠ .error e
  trust : ∀ r u, (gw.shared.admission.tryAcquire route now).1 = .ok r → r.upstream = some u →
    u.upstream.scheme = .https → g.config.upstreamTlsContext ≠ none

/-- When the step is the arrival of the last request a connection may have, and that
request would keep the connection and is proxied, then its exchange starts. -/
def LastStarts (g : Setup) (gw : Gateway) (input : Input) : Prop :=
  ∀ i x route, input.event = .session i (.completion x) → x.op = .readHeader ∨ x.op = .readBody →
    selectHttpRoute g.config x.parser.request = some route →
    Session.authorized g route x.parser.request = true → x.parser.request.keepAlive = true →
    maxRequestsPerConnection ≤ (gw.session i).requestsServed + 1 →
    StartsQuietly g gw route input.now input.oracle

/-- The writes of heads do not throw. -/
def WritesBegin (input : Input) : Prop :=
  ∀ n site, site = .writeInit ∨ site = .rejectionWrite ∨ site = .streamHeadInit →
    input.oracle n site = false

/-- `lossy` are the sessions whose writes may throw. -/
structure Heeds (g : Setup) (lenient : Prop) (lossy : Nat → Prop) (gw : Gateway)
    (input : Input) : Prop where
  starts : lenient ∨ LastStarts g gw input
  writes : ∀ i event, input.event = .session i event → lossy i ∨ WritesBegin input

/-- No condition. -/
theorem heeds_all (g : Setup) (gw : Gateway) (input : Input) :
    Heeds g True (fun _ => True) gw input :=
  ⟨Or.inl trivial, fun _ _ _ => Or.inl trivial⟩

/-! ## Turns -/

/-- What a session sees of its step. -/
abbrev outline (gw : Gateway) (i : Nat) : Outline := Session.outline (gw.view i)

/-- Session `i` moves at the time `now`, and the others find the shared state that it
leaves. -/
structure Turn (g : Setup) (lenient : Prop) (lossy : Nat → Prop) (now : TimePoint) (i : Nat)
    (gw gw' : Gateway) : Prop where
  moves : Outline.Moves g lenient (lossy i) ((gw.outline i).tick now) (gw'.outline i)
  others : ∀ j, j ≠ i → gw'.outline j = (gw'.outline i).share (gw.outline j)

/-- The walk of a step: the places that its oracle leaves alone do not throw. -/
def walk (gw : Gateway) (i : Nat) {input : Input} (h : Heeds g lenient lossy gw input)
    {event : Session.Event} (hevent : input.event = .session i event) : Session.Walk where
  context := (gw.tick input.now).context g i True
  sites := fun site => ∀ n, input.oracle n site = false
  lenient := lenient
  lossy := lossy i
  origin := (gw.outline i).tick input.now
  losses := by
    intro site hsite hthrows
    rcases h.writes i event hevent with hlossy | hwrites
    · exact hlossy
    · exact absurd (fun n => hwrites n site hsite) hthrows

theorem walk_excused {input : Input} (h : Heeds g lenient lossy gw input)
    {event : Session.Event} (hevent : input.event = .session i event) :
    (gw.walk i h hevent).Excused ((gw.tick input.now).view i) event := by
  rintro x rfl hread route hroute hauth
  -- without an excuse nothing throws
  have hquiet : ¬(lenient ∨ (gw.session i).requestsServed + 1 < maxRequestsPerConnection
      ∨ x.parser.request.keepAlive = false) →
      StartsQuietly g gw route input.now input.oracle := by
    intro hno
    simp only [not_or, Nat.not_lt, Bool.not_eq_false] at hno
    rcases h.starts with hlenient | hlast
    · exact absurd hlenient hno.1
    · exact hlast i x route hevent hread hroute hauth hno.2.2 hno.2.1
  refine ⟨fun site hsite hthrows => ?_, fun e he => ?_,
    fun r u hok hu hscheme hnone => ?_⟩
  · by_contra hno
    exact hthrows fun n => (hquiet hno).sites n site hsite
  · by_contra hno
    exact (hquiet hno).admission e he
  · by_contra hno
    exact (hquiet hno).trust r u hok hu hscheme hnone

theorem Safe.turn (h : Safe g (fun _ => False) gw)
    (htame : ∀ i, Outline.Tame g lenient (gw.outline i)) {input : Input}
    (hheeds : Heeds g lenient lossy gw input) :
    ∃ i, Turn g lenient lossy input.now i gw (step g input gw) := by
  obtain ⟨live, hinv⟩ := h
  cases hevent : input.event with
  | session i event =>
      have hsteady : Session.Steady (gw.walk i hheeds hevent).context (fun _ => False)
          ((gw.tick input.now).view i) := (hinv.tick input.now).focus i fun _ => trivial
      have hwp := Session.does_handle (t := gw.walk i hheeds hevent) hsteady ((htame i).tick _) trivial
        Relation.ReflTransGen.refl event (walk_excused hheeds hevent)
      have hstep : ∃ w, step g input gw = (gw.tick input.now).put i w
          ∧ Outline.Moves g lenient (lossy i) ((gw.outline i).tick input.now)
            (Session.outline w) := by
        unfold step
        rw [hevent]
        refine exec_of_wp (P := fun gw' => ∃ w, gw' = (gw.tick input.now).put i w
          ∧ Outline.Moves g lenient (lossy i) ((gw.outline i).tick input.now) (Session.outline w))
          (F := fun site => ∀ n, input.oracle n site = false) (fun n site hsite => hsite n) ?_
        exact wp_zoom (wp_mono hwp (fun _ w hw => ⟨w, rfl, hw⟩) fun _ hf => hf.elim)
      obtain ⟨w, hw, hmoves⟩ := hstep
      rw [hw]
      refine ⟨i, ?_, fun j hji => ?_⟩
      · rw [Gateway.outline, Gateway.outline, view_put_same]
        exact hmoves
      · rw [Gateway.outline, Gateway.outline, view_put_ne hji, view_put_same]
        rfl
  | probe route upstream success =>
      -- the slots stay as many
      have hsame : ∀ j, (step g input gw).outline j = (gw.outline j).tick input.now := by
        intro j
        unfold step
        rw [hevent]
        exact congrArg (fun sizes => { (gw.outline j).tick input.now with sizes })
          (UpstreamHealthState.sizes_record gw.shared.admission.health route upstream success)
      refine ⟨0, ?_, fun j _ => ?_⟩
      · rw [hsame]
      · rw [hsame, hsame]
        rfl
  | cleanup error fails =>
      unfold step
      rw [hevent]
      exact ⟨0, .refl, fun _ _ => rfl⟩
  | stopPool =>
      unfold step
      rw [hevent]
      exact ⟨0, .refl, fun _ _ => rfl⟩

theorem Turn.tame {now : TimePoint} (h : Turn g lenient lossy now i gw gw')
    (htame : ∀ i, Outline.Tame g lenient (gw.outline i)) (j : Nat) :
    Outline.Tame g lenient (gw'.outline j) := by
  by_cases hji : j = i
  · rw [hji]
    exact h.moves.tame ((htame i).tick now)
  · rw [h.others j hji]
    exact (htame j).share _

/-! ## Runs -/

/-- Every step of a run from `gw` heeds. -/
def RunHeeds (g : Setup) (lenient : Prop) (lossy : Nat → Prop) (gw : Gateway)
    (inputs : List Input) : Prop :=
  ∀ before input rest, inputs = before ++ input :: rest →
    Heeds g lenient lossy (run (step g) gw before) input

theorem launch_tame (g : Setup) (rateLimits : RouteRateLimits) (i : Nat) :
    Outline.Tame g lenient ((launch g rateLimits).outline i) where
  read _ hpos := absurd hpos (Nat.lt_irrefl 0)
  handshaking _ := rfl
  reuse _ hreuse := by cases hreuse
  stream _ _ hbusy := by cases hbusy

/-- What a run can start from. -/
structure Ready (g : Setup) (lenient : Prop) (gw : Gateway) : Prop where
  safe : Safe g (fun _ => False) gw
  tame : ∀ i, Outline.Tame g lenient (gw.outline i)

theorem launch_ready (g : Setup) (rateLimits : RouteRateLimits) :
    Ready g lenient (launch g rateLimits) :=
  ⟨launch_safe g _ rateLimits, launch_tame g rateLimits⟩

/-- What a turn keeps, every run keeps. -/
theorem Ready.run {P : Gateway → Prop} {inputs : List Input} (h : Ready g lenient gw)
    (hinputs : RunHeeds g lenient lossy gw inputs) (hgw : P gw)
    (hturn : ∀ {input : Input} {gw gw' : Gateway} {i : Nat}, input ∈ inputs →
      (∀ i, Outline.Tame g lenient (gw.outline i)) →
      Turn g lenient lossy input.now i gw gw' → P gw → P gw') :
    Ready g lenient (run (step g) gw inputs) ∧ P (run (step g) gw inputs) := by
  refine run_invariant_along (G := fun gw input => input ∈ inputs
    ∧ Heeds g lenient lossy gw input) (fun gw => Ready g lenient gw ∧ P gw) ?_ ⟨h, hgw⟩ inputs ?_
  · rintro input gw ⟨hmem, hheeds⟩ ⟨hready, hp⟩
    obtain ⟨i, hi⟩ := hready.safe.turn hready.tame hheeds
    exact ⟨⟨step_safe hready.safe input (admissible_none _), hi.tame hready.tame⟩,
      hturn hmem hready.tame hi hp⟩
  · intro before input rest hsplit
    exact ⟨by simp [hsplit], hinputs before input rest hsplit⟩

/-- The form for the runs from the start. -/
theorem after_turns {P : Gateway → Prop} {rateLimits : RouteRateLimits} {inputs : List Input}
    (hinputs : RunHeeds g lenient lossy (launch g rateLimits) inputs)
    (hlaunch : P (launch g rateLimits))
    (hturn : ∀ {input : Input} {gw gw' : Gateway} {i : Nat}, input ∈ inputs →
      (∀ i, Outline.Tame g lenient (gw.outline i)) →
      Turn g lenient lossy input.now i gw gw' → P gw → P gw') :
    P (after g rateLimits inputs) :=
  ((launch_ready g rateLimits).run hinputs hlaunch hturn).2

end Gateway

end ApiGate
