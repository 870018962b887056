import ApiGate.CustodyMoves

/-!
# The connections of all sessions

`Estate` is the custody of every session over the one pool and the one admission state. A
step of the gateway moves the custody of one session, or calls the pool or the admission
state for somebody else (`Estate.Step`), and every run is a sequence of such steps.
-/

namespace ApiGate

open EventLoop Act

structure Estate where
  pool : UpstreamPool
  admission : RouteProxyAdmission
  checks : List RateCheck
  now : TimePoint
  nextConnection : Nat
  nextExchange : Nat → Nat
  holder : Nat → Nat → Holder

namespace Estate

/-- The custody of session `i`. -/
def focus (i : Nat) (e : Estate) : Custody where
  pool := e.pool
  admission := e.admission
  checks := e.checks
  now := e.now
  nextConnection := e.nextConnection
  nextExchange := e.nextExchange i
  holder := e.holder i

def put (i : Nat) (c : Custody) (e : Estate) : Estate where
  pool := c.pool
  admission := c.admission
  checks := c.checks
  now := c.now
  nextConnection := c.nextConnection
  nextExchange := Function.update e.nextExchange i c.nextExchange
  holder := Function.update e.holder i c.holder

def tick (now : TimePoint) (e : Estate) : Estate := { e with now }

@[simp] theorem focus_put (i : Nat) (c : Custody) (e : Estate) : (e.put i c).focus i = c := by
  simp [focus, put]

@[simp] theorem put_focus (i : Nat) (e : Estate) : e.put i (e.focus i) = e := by
  simp [focus, put]

@[simp] theorem put_put (i : Nat) (c c' : Custody) (e : Estate) :
    (e.put i c).put i c' = e.put i c' := by
  simp [put]

@[simp] theorem put_nextExchange_same (i : Nat) (c : Custody) (e : Estate) :
    (e.put i c).nextExchange i = c.nextExchange := Function.update_self ..

@[simp] theorem put_holder_same (i : Nat) (c : Custody) (e : Estate) :
    (e.put i c).holder i = c.holder := Function.update_self ..

theorem put_nextExchange_ne {i j : Nat} (h : j ≠ i) (c : Custody) (e : Estate) :
    (e.put i c).nextExchange j = e.nextExchange j := Function.update_of_ne h ..

theorem put_holder_ne {i j : Nat} (h : j ≠ i) (c : Custody) (e : Estate) :
    (e.put i c).holder j = e.holder j := Function.update_of_ne h ..

/-- What a step does, at the time of its input. -/
inductive Step (g : Setup) (e : Estate) : Gateway.Event → Estate → Prop where
  | session {i : Nat} {event : Session.Event} {c : Custody}
      (moves : Custody.Moves g (e.focus i) c) : Step g e (.session i event) (e.put i c)
  | probe (route upstream : Nat) (success : Bool) :
      Step g e (.probe route upstream success) { e with admission := { e.admission with
        health := (e.admission.health.record route upstream success).2 } }
  | cleanup (error : Error) (fails : Bool) :
      Step g e (.cleanup error fails) { e with pool := e.pool.onCleanup error fails e.now }
  | stopPool : Step g e .stopPool { e with pool := e.pool.stop }

/-- A property that the moves of every session keep, the steps of a session keep. -/
theorem moves_keep {g : Setup} {P : Estate → Prop} {i : Nat}
    (hmove : ∀ {e : Estate} {c : Custody}, P e → Custody.Move g (e.focus i) c → P (e.put i c))
    {e : Estate} {c : Custody} (he : P e) (h : Custody.Moves g (e.focus i) c) : P (e.put i c) := by
  induction h with
  | refl =>
      rw [put_focus]
      exact he
  | @tail c₁ c₂ _ hlast ih =>
      have hnext : Custody.Move g ((e.put i c₁).focus i) c₂ := by
        rw [focus_put]
        exact hlast
      have hkept := hmove ih hnext
      rw [put_put] at hkept
      exact hkept

end Estate

namespace Gateway

variable {g : Setup} {gw : Gateway}

def estate (gw : Gateway) : Estate where
  pool := gw.shared.pool
  admission := gw.shared.admission
  checks := gw.shared.checks
  now := gw.shared.now
  nextConnection := gw.shared.nextConnection
  nextExchange i := (gw.locals i).nextExchange
  holder i k := ((gw.locals i).exs k).holder

theorem estate_put (i : Nat) (w : World Session) (gw : Gateway) :
    (gw.put i w).estate = gw.estate.put i (Session.custody w) := by
  have hnext : (gw.put i w).estate.nextExchange
      = Function.update gw.estate.nextExchange i w.nextExchange := by
    funext j
    by_cases hji : j = i
    · subst hji
      simp [estate, put]
    · simp [estate, put, hji]
  have hholder : (gw.put i w).estate.holder
      = Function.update gw.estate.holder i (Session.custody w).holder := by
    funext j
    by_cases hji : j = i
    · subst hji
      simp [estate, put, Session.custody]
    · simp [estate, put, hji]
  unfold Estate.put
  rw [show (Session.custody w).nextExchange = w.nextExchange from rfl, ← hnext, ← hholder]
  rfl

/-- What any step does. -/
theorem Safe.estate_step (h : Safe g (fun _ => False) gw) (input : Input) :
    Estate.Step g (gw.estate.tick input.now) input.event (step g input gw).estate := by
  obtain ⟨live, hinv⟩ := h
  obtain ⟨event, now, o⟩ := input
  cases event with
  | session i event =>
      have hsteady : Session.Steady ((gw.tick now).context g i True) (fun _ => False)
          ((gw.tick now).view i) := (hinv.tick now).focus i fun _ => trivial
      have hstart : Session.Reached g (Session.custody ((gw.tick now).view i))
          ((gw.tick now).view i) := Relation.ReflTransGen.refl
      have hwp : wp (fun _ => False) (Session.handle g event) _ _ ((gw.tick now).view i) :=
        Session.reached_handle hstart hsteady event
      have hstep : ∃ w, step g ⟨.session i event, now, o⟩ gw = (gw.tick now).put i w
          ∧ Session.Reached g (Session.custody ((gw.tick now).view i)) w := by
        refine exec_of_wp (P := fun gw' => ∃ w, gw' = (gw.tick now).put i w
          ∧ Session.Reached g (Session.custody ((gw.tick now).view i)) w) (admissible_none o) ?_
        exact wp_zoom (wp_mono hwp (fun _ w hw => ⟨w, rfl, hw⟩) fun w hw => ⟨w, rfl, hw⟩)
      obtain ⟨w, hw, hreached⟩ := hstep
      rw [hw, estate_put]
      exact .session hreached
  | probe route upstream success => exact .probe route upstream success
  | cleanup error fails => exact .cleanup error fails
  | stopPool => exact .stopPool

/-- The induction over a run: `P` may look at what has happened. -/
theorem Safe.run_estate (h : Safe g (fun _ => False) gw) {P : List Input → Estate → Prop}
    (hstart : P [] gw.estate)
    (hstep : ∀ {inputs : List Input} {input : Input}, P inputs (run (step g) gw inputs).estate →
      Estate.Step g ((run (step g) gw inputs).estate.tick input.now) input.event
        (run (step g) gw (inputs ++ [input])).estate →
      P (inputs ++ [input]) (run (step g) gw (inputs ++ [input])).estate)
    (inputs : List Input) :
    Safe g (fun _ => False) (run (step g) gw inputs) ∧ P inputs (run (step g) gw inputs).estate := by
  induction inputs using List.reverseRecOn with
  | nil => exact ⟨h, hstart⟩
  | append_singleton inputs input ih =>
      have hlast : run (step g) gw (inputs ++ [input]) = step g input (run (step g) gw inputs) := by
        unfold run
        rw [List.foldl_append]
        rfl
      have hmove := ih.1.estate_step input
      rw [← hlast] at hmove
      refine ⟨?_, hstep ih.2 hmove⟩
      rw [hlast]
      exact step_safe ih.1 input (admissible_none _)

/-- The form for the runs from the start. -/
theorem after_estate {rateLimits : RouteRateLimits} {P : List Input → Estate → Prop}
    (hlaunch : P [] (launch g rateLimits).estate)
    (hstep : ∀ {inputs : List Input} {input : Input}, P inputs (after g rateLimits inputs).estate →
      Estate.Step g ((after g rateLimits inputs).estate.tick input.now) input.event
        (after g rateLimits (inputs ++ [input])).estate →
      P (inputs ++ [input]) (after g rateLimits (inputs ++ [input])).estate)
    (inputs : List Input) : P inputs (after g rateLimits inputs).estate :=
  ((launch_safe g _ rateLimits).run_estate hlaunch hstep inputs).2

end Gateway

end ApiGate
