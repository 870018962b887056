import ApiGate.GatewayMoves
import ApiGate.GatewaySafety
import ApiGate.ServerDrain

/-!
# The server and its sessions together

`Server` sees of a session only that it exists, whether it drains and whether it
has finished, and leaves to its oracle what a session does when it is called.
`Gateway` has the sessions as they are, and takes the calls of the server as
events. A `System` is a state of both in which they agree; a step of it is a
handler of the server together with the calls it makes, or a handler of a
session, together with what the server does when the session finishes in it.
-/

namespace ApiGate

open EventLoop Act

/-- Calls that the server makes into a session or the pool. -/
def Gateway.Event.isCall : Gateway.Event → Bool
  | .session _ .start | .session _ .drain | .session _ .stop | .stopPool => true
  | _ => false

structure System where
  server : ServerState
  gateway : Gateway

namespace System

/-- What the server knows of the sessions is so. -/
structure Agrees (x : System) : Prop where
  started : ∀ i, (x.gateway.session i).started = decide (i < x.server.nextSession)
  draining : ∀ i, (x.gateway.session i).draining = x.server.sessionDraining i
  finished : ∀ i, (x.gateway.session i).finished = x.server.sessionFinished i

/-- The server handles `e` and makes these calls. -/
def serve (g : Setup) (e : Server.ServerEvent × Oracle ServerSite) (calls : List Gateway.Input)
    (x : System) : System :=
  { server := Server.step e x.server
    gateway := run (Gateway.step g) x.gateway calls }

/-- `R` restricts what the handlers of the sessions may do. -/
inductive Step (g : Setup) (R : Gateway.Input → Prop) : System → System → Prop where
  | server {x : System} (e : Server.ServerEvent × Oracle ServerSite)
      (calls : List Gateway.Input) (called : ∀ input ∈ calls, input.event.isCall = true)
      (allowed : ∀ input ∈ calls, R input) (agrees : Agrees (x.serve g e calls)) :
      Step g R x (x.serve g e calls)
  /-- a handler of a session, a health check or the pool, which the server does not see -/
  | own {x : System} (input : Gateway.Input) (uncalled : input.event.isCall = false)
      (allowed : R input) (agrees : Agrees ⟨x.server, Gateway.step g input x.gateway⟩) :
      Step g R x ⟨x.server, Gateway.step g input x.gateway⟩
  /-- a session finishes in a handler of its own, and calls `remove_session` -/
  | finish {x : System} (i : Nat) (event : Session.Event) (input : Gateway.Input)
      (owner : input.event = .session i event) (uncalled : input.event.isCall = false)
      (o : Oracle ServerSite) (calls : List Gateway.Input)
      (called : ∀ input ∈ calls, input.event.isCall = true)
      (allowed : ∀ input' ∈ input :: calls, R input')
      (agrees : Agrees (serve g (.sessionFinish i, o) calls
        ⟨x.server, Gateway.step g input x.gateway⟩)) :
      Step g R x (serve g (.sessionFinish i, o) calls ⟨x.server, Gateway.step g input x.gateway⟩)

/-- Any number of steps. -/
abbrev Run (g : Setup) (R : Gateway.Input → Prop) : System → System → Prop :=
  Relation.ReflTransGen (Step g R)

/-- The moment at which `begin_drain` takes effect: a signal finds the server running,
and after its handler a drain has begun. -/
structure BeginsDrain (g : Setup) (R : Gateway.Input → Prop) (a b : System) : Prop where
  running : a.server.phase = .running
  step : ∃ error o calls, (∀ input ∈ calls, input.event.isCall = true) ∧ (∀ input ∈ calls, R input)
    ∧ b = a.serve g (.signal error, o) calls
  agrees : Agrees b
  begun : .drainBegun ∈ b.server.notes

/-- The server after its launch, with no session yet. -/
def launch (g : Setup) (rateLimits : RouteRateLimits) (s : ServerState) : System :=
  ⟨s, Gateway.launch g rateLimits⟩

/-! ## A run of the system is a run of both -/

variable {g : Setup} {R : Gateway.Input → Prop} {x y : System} {m : Nat}

theorem Step.parts (h : Step g R x y) :
    (∃ inputs, y.gateway = run (Gateway.step g) x.gateway inputs ∧ ∀ input ∈ inputs, R input)
      ∧ (y.server = x.server ∨ ∃ e, y.server = Server.step e x.server) := by
  cases h with
  | server e calls _ hallowed => exact ⟨⟨calls, rfl, hallowed⟩, Or.inr ⟨e, rfl⟩⟩
  | own input _ hallowed =>
      refine ⟨⟨[input], rfl, fun input' hmem => ?_⟩, Or.inl rfl⟩
      rw [List.mem_singleton.mp hmem]
      exact hallowed
  | finish i event input _ _ o calls _ hallowed =>
      exact ⟨⟨input :: calls, rfl, hallowed⟩, Or.inr ⟨_, rfl⟩⟩

theorem Run.gateway (h : Run g R x y) :
    ∃ inputs, y.gateway = run (Gateway.step g) x.gateway inputs ∧ ∀ input ∈ inputs, R input := by
  induction h with
  | refl => exact ⟨[], rfl, by simp⟩
  | tail _ hstep ih =>
      obtain ⟨before, hbefore, hallowed⟩ := ih
      obtain ⟨⟨after, hafter, hallowed'⟩, -⟩ := hstep.parts
      refine ⟨before ++ after, ?_, fun input hmem => ?_⟩
      · rw [hafter, hbefore, run_append]
      · rcases List.mem_append.mp hmem with hmem | hmem
        · exact hallowed input hmem
        · exact hallowed' input hmem

/-- What the server's handlers keep. -/
theorem Run.server (h : Run g R x y) (hrest : Server.Rest m x.server) :
    Server.Rest m y.server ∧ Server.Onward x.server y.server := by
  induction h with
  | refl => exact ⟨hrest, Server.Onward.refl _⟩
  | tail _ hstep ih =>
      obtain ⟨-, hsame | ⟨e, he⟩⟩ := hstep.parts
      · rw [hsame]
        exact ih
      · rw [he]
        exact ⟨Server.step_rest ih.1 e, ih.2.trans (Server.step_onward e _)⟩

theorem Run.agrees (h : Run g R x y) (hx : Agrees x) : Agrees y := by
  induction h with
  | refl => exact hx
  | tail _ hstep ih =>
      cases hstep with
      | server e calls _ _ hagrees => exact hagrees
      | own input _ _ hagrees => exact hagrees
      | finish i event input _ _ o calls _ _ hagrees => exact hagrees

end System

end ApiGate
