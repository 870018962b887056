import ApiGate.HealthChecksSafety
import ApiGate.HealthHysteresis
import ApiGate.ProbeTargets

/-!
# What a recorded result of a probe stands for

The trail of a probe is what it has heard while it was not done. A probe that is not done has
passed every operation before the one it waits for (`Probe.Course`), and the one result that
is recorded for it says whether the trail is that of an upstream which answered with a status
of success (`Probe.Answered`). The health state is made by these results and nothing else.
-/

namespace ApiGate

/-! ## The course of a probe -/

namespace Probe

/-- The operations of a probe before `op`, in their order. -/
def before (tls : Bool) : ProbeOp → List ProbeOp
  | .resolve => []
  | .connect => [.resolve]
  | .handshake => [.resolve, .connect]
  | .write => [.resolve, .connect] ++ if tls then [.handshake] else []
  | .readHeader => [.resolve, .connect] ++ (if tls then [.handshake] else []) ++ [.write]

/-- An event after which the probe may still succeed. -/
def Passed (tls : Bool) : ProbeEvent → Prop
  | .deadline error => error = some .operationAborted
  | .resolved error fails => error = none ∧ fails = false
  | .connected error identity fails => error = none ∧ fails = false ∧ (tls = true → identity = true)
  | .handshaken error fails => error = none ∧ fails = false
  | .written error fails => error = none ∧ fails = false
  | .headerRead error status => error = none ∧ 200 ≤ status ∧ status ≤ 299

/-- The probe waits for `op`, after it has heard of all operations before. -/
structure Course (tls : Bool) (heard : List ProbeEvent) (op : ProbeOp) : Prop where
  stages : heard.filterMap reports = before tls op
  passed : ∀ e ∈ heard, Passed tls e
  secure : op = .handshake → tls = true

/-- Each operation came to its end without an error, in order, over TLS a handshake for the
identity of the upstream among them, the deadline did not pass, and the status is one of
success. -/
def Answered (tls : Bool) (heard : List ProbeEvent) : Prop :=
  heard.filterMap reports = before tls .readHeader ++ [.readHeader] ∧ ∀ e ∈ heard, Passed tls e

theorem course_start (tls : Bool) : Course tls [] .resolve :=
  ⟨rfl, (fun _ he => nomatch he), fun h => nomatch h⟩

theorem not_answered_nil (tls : Bool) : ¬Answered tls [] := by
  rintro ⟨hstages, -⟩
  simp at hstages

theorem not_answered {tls : Bool} {heard : List ProbeEvent} {event : ProbeEvent}
    (h : ¬Passed tls event) : ¬Answered tls (heard ++ [event]) := by
  rintro ⟨-, hpassed⟩
  exact h (hpassed event (List.mem_append_right _ (List.mem_singleton_self _)))

/-- The operation came to its end. -/
theorem Course.next {tls : Bool} {heard : List ProbeEvent} {op next : ProbeOp} {event : ProbeEvent}
    (h : Course tls heard op) (hpassed : Passed tls event) (hreports : reports event = some op)
    (hbefore : before tls next = before tls op ++ [op]) (hsecure : next = .handshake → tls = true) :
    Course tls (heard ++ [event]) next where
  stages := by
    rw [List.filterMap_append, h.stages, hbefore]
    simp [hreports]
  passed e he := by
    rcases List.mem_append.mp he with hold | hlast
    · exact h.passed e hold
    · rw [List.mem_singleton.mp hlast]
      exact hpassed
  secure := hsecure

/-- The deadline was cancelled. -/
theorem Course.wait {tls : Bool} {heard : List ProbeEvent} {op : ProbeOp}
    (h : Course tls heard op) :
    Course tls (heard ++ [.deadline (some .operationAborted)]) op where
  stages := by
    rw [List.filterMap_append, h.stages]
    simp [reports]
  passed e he := by
    rcases List.mem_append.mp he with hold | hlast
    · exact h.passed e hold
    · rw [List.mem_singleton.mp hlast]
      rfl
  secure := h.secure

/-- What a handler can come to, with what the probe has heard then. -/
def Advances (p : Probe) (heard : List ProbeEvent) (op : ProbeOp) (event : ProbeEvent) :
    ProbeStep → Prop
  | .wait => reports event = none ∧ Course p.tls (heard ++ [event]) op
  | .next next => Course p.tls (heard ++ [event]) next
  | .finish success _ => success = true ↔ Answered p.tls (heard ++ [event])

theorem advances_startNext {p : Probe} {heard : List ProbeEvent} {op next : ProbeOp}
    {event : ProbeEvent} {fails : Bool} (h : fails = false → Course p.tls (heard ++ [event]) next)
    (hfails : fails = true → ¬Passed p.tls event) :
    Advances p heard op event (startNext fails next) := by
  cases fails with
  | false => exact h rfl
  | true => exact iff_of_false (by simp) (not_answered (hfails rfl))

theorem advances_failed {p : Probe} {heard : List ProbeEvent} {op : ProbeOp} {event : ProbeEvent}
    {reason : String} (h : ¬Passed p.tls event) :
    Advances p heard op event (.finish false reason) :=
  iff_of_false (by simp) (not_answered h)

theorem advances_react {p : Probe} {heard : List ProbeEvent} {op : ProbeOp} {event : ProbeEvent}
    (h : Course p.tls heard op) (hop : p.op = some op) (hexpects : p.expects event = true) :
    Advances p heard op event (p.react event) := by
  have hsame : ∀ stage, reports event = some stage → op = stage := by
    intro stage hstage
    unfold expects at hexpects
    rw [hstage, hop] at hexpects
    simpa using hexpects
  cases event with
  | deadline error =>
      rcases error with _ | error
      · exact advances_failed (by simp [Passed])
      · by_cases haborted : error = .operationAborted
        · subst haborted
          exact ⟨rfl, h.wait⟩
        · have hreact : p.react (.deadline (some error)) = .finish false "timer" := by
            simp [react, haborted]
          rw [hreact]
          exact advances_failed (by simp [Passed, haborted])
  | resolved error fails =>
      obtain rfl := hsame .resolve rfl
      rcases error with _ | error
      · refine advances_startNext (fun hfails => ?_) (fun hfails => ?_)
        · exact h.next ⟨rfl, hfails⟩ rfl rfl (by simp)
        · simp [Passed, hfails]
      · exact advances_failed (by simp [Passed])
  | connected error identity fails =>
      obtain rfl := hsame .connect rfl
      rcases error with _ | error
      · cases htls : p.tls with
        | false =>
            have hreact : p.react (.connected none identity fails) = startNext fails .write := by
              simp [react, htls]
            rw [hreact]
            refine advances_startNext (fun hfails => ?_) (fun hfails => ?_)
            · exact h.next ⟨rfl, hfails, by simp [htls]⟩ rfl (by simp [before, htls]) (by simp)
            · simp [Passed, hfails]
        | true =>
            cases hidentity : identity with
            | false =>
                have hreact : p.react (.connected none false fails) = .finish false "handshake" := by
                  simp [react, htls]
                rw [hreact]
                exact advances_failed (by simp [Passed, htls])
            | true =>
                have hreact : p.react (.connected none true fails) = startNext fails .handshake := by
                  simp [react, htls]
                rw [hreact]
                refine advances_startNext (fun hfails => ?_) (fun hfails => ?_)
                · exact h.next ⟨rfl, hfails, fun _ => rfl⟩ rfl rfl (fun _ => htls)
                · simp [Passed, hfails]
      · exact advances_failed (by simp [Passed])
  | handshaken error fails =>
      obtain rfl := hsame .handshake rfl
      have htls := h.secure rfl
      rcases error with _ | error
      · refine advances_startNext (fun hfails => ?_) (fun hfails => ?_)
        · exact h.next ⟨rfl, hfails⟩ rfl (by simp [before, htls]) (by simp)
        · simp [Passed, hfails]
      · exact advances_failed (by simp [Passed])
  | written error fails =>
      obtain rfl := hsame .write rfl
      rcases error with _ | error
      · refine advances_startNext (fun hfails => ?_) (fun hfails => ?_)
        · exact h.next ⟨rfl, hfails⟩ rfl rfl (by simp)
        · simp [Passed, hfails]
      · exact advances_failed (by simp [Passed])
  | headerRead error status =>
      obtain rfl := hsame .readHeader rfl
      rcases error with _ | error
      · by_cases hstatus : 200 ≤ status ∧ status ≤ 299
        · have hanswered : Answered p.tls (heard ++ [.headerRead none status]) := by
            refine ⟨?_, fun e he => ?_⟩
            · rw [List.filterMap_append, h.stages]
              rfl
            · rcases List.mem_append.mp he with hold | hlast
              · exact h.passed e hold
              · rw [List.mem_singleton.mp hlast]
                exact ⟨rfl, hstatus⟩
          exact iff_of_true (by simpa using hstatus) hanswered
        · refine iff_of_false (by simpa using hstatus) (not_answered ?_)
          rintro ⟨-, hpassed⟩
          exact hstatus hpassed
      · exact advances_failed (by simp [Passed])

end Probe

/-! ## Trails -/

/-- The result that a record puts into the health state. -/
def ProbeRecord.result (r : ProbeRecord) : HealthResult := ⟨r.route, r.upstream, r.success⟩

namespace UpstreamHealthState

theorem recordAll_concat (h : UpstreamHealthState) (history : List HealthResult)
    (x : HealthResult) :
    recordAll h (history ++ [x]) = ((recordAll h history).record x.route x.upstream x.success).2 := by
  unfold recordAll EventLoop.run
  rw [List.foldl_append]
  rfl

end UpstreamHealthState

namespace HealthChecks

/-- What a probe that is not done hears in one handler. -/
def hears (s : HealthChecks) (id : Nat) : Event → Option ProbeEvent
  | .probe other event _ =>
      if other = id then
        match s.objects[id]? with
        | some p => if p.expects event && !p.done then some event else none
        | none => none
      else none
  | _ => none

/-- The trail of a probe over a run. -/
def trail (id : Nat) : HealthChecks → List Event → List ProbeEvent
  | _, [] => []
  | s, event :: rest =>
      (s.hears id event).toList ++
        match s.handle event with
        | some s' => trail id s' rest
        | none => []

/-- The probes of a manager and their trails; `skip` is one that is in the middle of a handler. -/
structure Trailed (routes : List RouteConfig) (heard : Nat → List ProbeEvent) (skip : Option Nat)
    (s : HealthChecks) : Prop where
  unborn : ∀ id, s.objects.length ≤ id → heard id = []
  live : ∀ (id : Nat) (p : Probe), s.objects[id]? = some p → p.done = false → skip ≠ some id →
    ∃ op, p.op = some op ∧ Probe.Course p.tls (heard id) op
  targets : ∀ (id : Nat) (p : Probe), s.objects[id]? = some p →
    ∃ target, s.targets[p.slot]? = some target
      ∧ p.tls = decide (target.backend.scheme = .https)
  verdicts : ∀ r ∈ s.records, ∃ p : Probe, s.objects[r.probe]? = some p ∧ p.done = true
    ∧ (r.success = true ↔ Probe.Answered p.tls (heard r.probe))
  state : s.state = UpstreamHealthState.recordAll (UpstreamHealthState.make routes)
    (s.records.reverse.map ProbeRecord.result)

section Trails

variable {routes : List RouteConfig} {heard : Nat → List ProbeEvent} {skip : Option Nat}
  {s s' : HealthChecks} {id : Nat} {p : Probe}

theorem Trailed.same (h : Trailed routes heard skip s) (hobjects : s'.objects = s.objects)
    (htargets : s'.targets = s.targets) (hrecords : s'.records = s.records)
    (hstate : s'.state = s.state) : Trailed routes heard skip s' := by
  obtain ⟨hunborn, hlive, htls, hverdicts, hmade⟩ := h
  refine ⟨?_, ?_, ?_, ?_, ?_⟩
  · rw [hobjects]
    exact hunborn
  · rw [hobjects]
    exact hlive
  · rw [hobjects, htargets]
    exact htls
  · rw [hobjects, hrecords]
    exact hverdicts
  · rw [hrecords, hstate]
    exact hmade

theorem Trailed.weaken (h : Trailed routes heard none s) : Trailed routes heard skip s where
  unborn := h.unborn
  live id p hid hdone _ := h.live id p hid hdone (by simp)
  targets := h.targets
  verdicts := h.verdicts
  state := h.state

/-- The probe in the middle of a handler is changed. -/
theorem Trailed.set (h : Trailed routes heard (some id) s) (hid : s.objects[id]? = some p)
    {p' : Probe} (hslot : p'.slot = p.slot) (htls : p'.tls = p.tls)
    (hdone : p.done = true → p'.done = true)
    (hlive : skip ≠ some id → p'.done = false →
      ∃ op, p'.op = some op ∧ Probe.Course p'.tls (heard id) op) :
    Trailed routes heard skip (s.setProbe id p') := by
  have hlt := (List.getElem?_eq_some_iff.mp hid).1
  refine ⟨?_, ?_, ?_, ?_, h.state⟩
  · intro other hother
    refine h.unborn other ?_
    simpa [setProbe] using hother
  · intro other q hq hqdone hskip
    rcases getElem?_set_cases hq with ⟨rfl, rfl⟩ | ⟨hne, hq⟩
    · exact hlive hskip hqdone
    · exact h.live other q hq hqdone fun heq => hne (Option.some.inj heq).symm
  · intro other q hq
    rcases getElem?_set_cases hq with ⟨rfl, rfl⟩ | ⟨-, hq⟩
    · rw [hslot, htls]
      exact h.targets other p hid
    · exact h.targets other q hq
  · intro r hr
    obtain ⟨q, hq, hqdone, hverdict⟩ := h.verdicts r hr
    by_cases heq : id = r.probe
    · subst heq
      rw [hid] at hq
      cases hq
      refine ⟨p', List.getElem?_set_self hlt, hdone hqdone, ?_⟩
      rw [htls]
      exact hverdict
    · exact ⟨q, by rw [setProbe, List.getElem?_set_ne heq]; exact hq, hqdone, hverdict⟩

/-- A result is recorded for a probe that is done. -/
theorem Trailed.recordResult (h : Trailed routes heard none s) (hid : s.objects[id]? = some p)
    (hdone : p.done = true) {success : Bool}
    (hverdict : success = true ↔ Probe.Answered p.tls (heard id)) :
    Trailed routes heard none (s.recordResult id p.slot success).1 := by
  unfold HealthChecks.recordResult
  split
  · exact h
  · dsimp only
    split
    · exact h.same rfl rfl rfl rfl
    · split
      · exact h.same rfl rfl rfl rfl
      · refine ⟨h.unborn, h.live, h.targets, ?_, ?_⟩
        · intro r hr
          rcases List.mem_cons.mp hr with rfl | hold
          · exact ⟨p, hid, hdone, hverdict⟩
          · exact h.verdicts r hold
        · dsimp only
          rw [List.reverse_cons, List.map_append, List.map_singleton,
            UpstreamHealthState.recordAll_concat, ← h.state]
          rfl

theorem Trailed.stop (h : Trailed routes heard none s) : Trailed routes heard none s.stop := by
  by_cases hstopped : s.stopped = true
  · rw [HealthChecks.stop, if_pos hstopped]
    exact h
  · obtain ⟨n, heq⟩ := stop_eq (Bool.not_eq_true _ ▸ hstopped)
    have hcancel : ∀ q : Probe, q.cancel.tls = q.tls ∧ q.cancel.slot = q.slot
        ∧ q.cancel.done = true := by
      intro q
      unfold Probe.cancel
      split
      · exact ⟨rfl, rfl, by assumption⟩
      · exact ⟨rfl, rfl, rfl⟩
    have hkept : ∀ (id : Nat) (q : Probe), s.stop.objects[id]? = some q →
        ∃ p : Probe, s.objects[id]? = some p ∧ q.tls = p.tls ∧ q.slot = p.slot
          ∧ (q.done = false → q = p ∧ p.done = false) := by
      intro id q hq
      rw [heq, List.getElem?_mapIdx, Option.map_eq_some_iff] at hq
      obtain ⟨p, hp, rfl⟩ := hq
      split
      · exact ⟨p, hp, (hcancel p).1, (hcancel p).2.1, fun hd => by
          rw [(hcancel p).2.2] at hd
          cases hd⟩
      · exact ⟨p, hp, rfl, rfl, fun hd => ⟨rfl, hd⟩⟩
    refine ⟨?_, ?_, ?_, ?_, ?_⟩
    · intro id hid
      refine h.unborn id ?_
      rw [heq, List.length_mapIdx] at hid
      exact hid
    · intro id q hq hqdone hskip
      obtain ⟨p, hp, -, -, hsame⟩ := hkept id q hq
      obtain ⟨rfl, hpdone⟩ := hsame hqdone
      exact h.live id q hp hpdone hskip
    · intro id q hq
      obtain ⟨p, hp, htls, hslot, -⟩ := hkept id q hq
      rw [htls, hslot, heq]
      exact h.targets id p hp
    · intro r hr
      have hold : r ∈ s.records := by
        rw [heq] at hr
        exact hr
      obtain ⟨p, hp, hpdone, hverdict⟩ := h.verdicts r hold
      refine ⟨p, ?_, hpdone, hverdict⟩
      rw [heq, List.getElem?_mapIdx, hp]
      simp [Probe.cancel, hpdone]
    · rw [heq]
      exact h.state

theorem Trailed.failed (h : Trailed routes heard none s) : Trailed routes heard none s.failed := by
  unfold HealthChecks.failed
  split
  · exact h
  · exact h.stop.same rfl rfl rfl rfl

/-- `again` keeps the trails. -/
def KeepsTrails (routes : List RouteConfig) (heard : Nat → List ProbeEvent)
    (again : HealthChecks → Option HealthChecks) : Prop :=
  ∀ s s', Trailed routes heard none s → again s = some s' → Trailed routes heard none s'

theorem Trailed.finish {again : HealthChecks → Option HealthChecks}
    (hagain : KeepsTrails routes heard again) (h : Trailed routes heard (some id) s)
    (hid : s.objects[id]? = some p) (hrunning : p.done = false) {success : Bool}
    (hverdict : success = true ↔ Probe.Answered p.tls (heard id))
    (hs' : HealthChecks.finish again s id p success = some s') : Trailed routes heard none s' := by
  have hlt := (List.getElem?_eq_some_iff.mp hid).1
  have hover : Trailed routes heard none (s.setProbe id { p with done := true }) :=
    h.set hid rfl rfl (fun _ => rfl) (fun _ hd => nomatch hd)
  have hrecord := hover.recordResult (List.getElem?_set_self hlt) rfl hverdict
  unfold HealthChecks.finish at hs'
  rw [if_neg (by simp [hrunning])] at hs'
  unfold completed at hs'
  split at hs'
  · cases hs'
    exact hover
  · dsimp only at hs'
    split at hs'
    · exact hagain _ _ hrecord hs'
    · cases hs'
      exact hrecord.failed

theorem keepsTrails_some : KeepsTrails routes heard some := by
  intro s s' h heq
  cases heq
  exact h

/-- A probe that has been made has heard nothing yet. -/
theorem Trailed.makeProbe (h : Trailed routes heard none s) {turn : PumpTurn} {index : Nat}
    (hmake : s.makeProbe index turn = .ok (id, p, s')) :
    Trailed routes heard (some id) s' ∧ s'.objects[id]? = some p ∧ p.done = false
      ∧ heard id = [] := by
  obtain ⟨hslot, hdone, rfl, rfl⟩ := makeProbe_cases hmake
  have hborn := h.unborn s.objects.length (Nat.le_refl _)
  have hsplit : ∀ (other : Nat) (q : Probe), (s.objects ++ [p])[other]? = some q →
      s.objects[other]? = some q ∨ (other = s.objects.length ∧ q = p) := by
    intro other q hq
    rcases Nat.lt_trichotomy other s.objects.length with hlt | rfl | hgt
    · rw [List.getElem?_append_left hlt] at hq
      exact .inl hq
    · rw [List.getElem?_concat_length] at hq
      exact .inr ⟨rfl, (Option.some.inj hq).symm⟩
    · rw [List.getElem?_eq_none (by simp; omega)] at hq
      cases hq
  refine ⟨⟨?_, ?_, ?_, ?_, h.state⟩, by simp, hdone, hborn⟩
  · intro other hother
    refine h.unborn other ?_
    simp only [List.length_append, List.length_singleton] at hother
    omega
  · intro other q hq hqdone hskip
    rcases hsplit other q hq with hold | ⟨rfl, -⟩
    · exact h.live other q hold hqdone (by simp)
    · exact absurd rfl hskip
  · intro other q hq
    rcases hsplit other q hq with hold | ⟨-, rfl⟩
    · exact h.targets other q hold
    · rw [hslot]
      unfold HealthChecks.makeProbe at hmake
      split at hmake
      · cases hmake
      · rename_i target htarget
        refine ⟨target, htarget, ?_⟩
        split at hmake
        · cases hmake
        · unfold Probe.make at hmake
          by_cases hhttps : target.backend.scheme = .https
          · rw [if_pos hhttps] at hmake
            split at hmake
            · cases hmake
            · cases hmake
              simp [hhttps]
          · rw [if_neg hhttps] at hmake
            cases hmake
            simp [hhttps]
  · intro r hr
    obtain ⟨q, hq, hqdone, hverdict⟩ := h.verdicts r hr
    exact ⟨q, by rw [List.getElem?_append_left (List.getElem?_eq_some_iff.mp hq).1]; exact hq,
      hqdone, hverdict⟩

theorem Trailed.startProbe (h : Trailed routes heard (some id) s) (hid : s.objects[id]? = some p)
    (hdone : p.done = false) (hheard : heard id = []) {started : ProbeStarted}
    (hs' : s.startProbe id p started = some s') : Trailed routes heard none s' := by
  have hfailed : false = true ↔ Probe.Answered p.tls (heard id) := by
    rw [hheard]
    exact iff_of_false (by simp) (Probe.not_answered_nil _)
  cases started with
  | running =>
      cases hs'
      refine h.set hid rfl rfl (fun hd => hd) (fun _ _ => ⟨.resolve, rfl, ?_⟩)
      rw [hheard]
      exact Probe.course_start _
  | deadlineThrows => exact h.finish keepsTrails_some hid hdone hfailed hs'
  | resolveThrows =>
      have hlt := (List.getElem?_eq_some_iff.mp hid).1
      have hwait : Trailed routes heard (some id) (s.setProbe id { p with deadline := true }) :=
        h.set hid rfl rfl (fun hd => hd) (fun hne => absurd rfl hne)
      exact hwait.finish keepsTrails_some (List.getElem?_set_self hlt) hdone hfailed hs'

theorem Trailed.pumpLoop (turns : List PumpTurn) : ∀ {s : HealthChecks},
    Trailed routes heard none s → ∀ {s' : HealthChecks} {ok : Bool},
      HealthChecks.pumpLoop turns s = some (s', ok) → Trailed routes heard none s' := by
  induction turns with
  | nil =>
      intro s h s' ok heq
      cases heq
  | cons turn rest ih =>
      intro s h s' ok heq
      rw [HealthChecks.pumpLoop] at heq
      have hdue : Trailed routes heard none { s with schedule := (s.schedule.takeDue turn.now).2 } :=
        h.same rfl rfl rfl rfl
      split at heq
      · cases heq
        exact hdue
      · split at heq
        · cases heq
          exact hdue
        · rename_i id p made hmake
          obtain ⟨hmade, hid, hdone, hheard⟩ := hdue.makeProbe hmake
          obtain ⟨started, hstarted, hrest⟩ := Option.bind_eq_some_iff.mp heq
          exact ih (hmade.startProbe hid hdone hheard hstarted) hrest

theorem Trailed.pump (input : PumpInput) :
    KeepsTrails routes heard (HealthChecks.pump input) := by
  intro s s' h heq
  by_cases hearly : s.stopped = true ∨ s.pumping = true
  · rw [pump_early input hearly] at heq
    cases heq
    exact h
  · simp only [not_or, Bool.not_eq_true] at hearly
    obtain ⟨t, ok, hloop, hend⟩ := pump_cases hearly.1 hearly.2 heq
    have hbegin : Trailed routes heard none { s with pumping := true } := h.same rfl rfl rfl rfl
    have ht := hbegin.pumpLoop input.turns hloop
    rcases hend with ⟨-, rfl⟩ | ⟨-, -, rfl⟩ | ⟨-, due, -, rfl | rfl⟩
    · exact ht.failed.same rfl rfl rfl rfl
    · exact ht.same rfl rfl rfl rfl
    · exact ht.failed.same rfl rfl rfl rfl
    · obtain ⟨n, harm⟩ := armTimer_eq (s := t) due
      rw [harm]
      exact ht.same rfl rfl rfl rfl

/-! ### Handlers -/

/-- The trails after one more event. -/
def hearing (s : HealthChecks) (heard : Nat → List ProbeEvent) (event : Event) (id : Nat) :
    List ProbeEvent := heard id ++ (s.hears id event).toList

theorem hearing_eq {event : Event} (h : ∀ id, s.hears id event = none) :
    s.hearing heard event = heard := by
  funext id
  simp [hearing, h id]

/-- A probe that is not done hears an event it waits for, and no other probe does. -/
theorem Trailed.hear (h : Trailed routes heard none s) (hid : s.objects[id]? = some p)
    (hrunning : p.done = false) {event : ProbeEvent} (hexpects : p.expects event = true)
    (input : PumpInput) :
    Trailed routes (s.hearing heard (.probe id event input)) (some id) s
      ∧ s.hearing heard (.probe id event input) id = heard id ++ [event] := by
  have hown : s.hearing heard (.probe id event input) id = heard id ++ [event] := by
    simp [hearing, hears, hid, hexpects, hrunning]
  have hother : ∀ other, other ≠ id → s.hearing heard (.probe id event input) other = heard other := by
    intro other hne
    have hnot : s.hears other (.probe id event input) = none := if_neg hne.symm
    simp [hearing, hnot]
  have hlt := (List.getElem?_eq_some_iff.mp hid).1
  refine ⟨⟨?_, ?_, h.targets, ?_, h.state⟩, hown⟩
  · intro other hge
    rw [hother other (by omega)]
    exact h.unborn other hge
  · intro other q hq hqdone hskip
    have hne : other ≠ id := fun heq => hskip (by rw [heq])
    rw [hother other hne]
    exact h.live other q hq hqdone (by simp)
  · intro r hr
    obtain ⟨q, hq, hqdone, hverdict⟩ := h.verdicts r hr
    refine ⟨q, hq, hqdone, ?_⟩
    have hne : r.probe ≠ id := by
      rintro rfl
      rw [hid] at hq
      cases hq
      rw [hrunning] at hqdone
      cases hqdone
    rw [hother _ hne]
    exact hverdict

theorem consume_frame (event : ProbeEvent) :
    (p.consume event).tls = p.tls ∧ (p.consume event).slot = p.slot
      ∧ (p.consume event).done = p.done := by
  unfold Probe.consume
  split
  · exact ⟨rfl, rfl, rfl⟩
  · exact ⟨rfl, rfl, rfl⟩

theorem react_consume (event : ProbeEvent) : (p.consume event).react event = p.react event := by
  obtain ⟨htls, -, -⟩ := consume_frame (p := p) event
  cases event with
  | deadline error => cases error <;> rfl
  | resolved error fails => cases error <;> rfl
  | connected error identity fails =>
      cases error with
      | none =>
          unfold Probe.react
          rw [htls]
      | some error => rfl
  | handshaken error fails => cases error <;> rfl
  | written error fails => cases error <;> rfl
  | headerRead error status => cases error <;> rfl

theorem Trailed.onProbe (h : Trailed routes heard none s) {input : PumpInput} {event : ProbeEvent}
    (hs' : s.onProbe input id event = some s') :
    Trailed routes (s.hearing heard (.probe id event input)) none s' := by
  unfold HealthChecks.onProbe at hs'
  cases hid : s.objects[id]? with
  | none =>
      rw [hid] at hs'
      cases hs'
      rw [hearing_eq]
      · exact h
      · intro other
        simp only [hears]
        split
        · rename_i heq
          rw [← heq, hid]
        · rfl
  | some p =>
      rw [hid] at hs'
      dsimp only at hs'
      obtain ⟨htls, hslot, hdone⟩ := consume_frame (p := p) event
      have hlt := (List.getElem?_eq_some_iff.mp hid).1
      have hdeaf : p.expects event = false ∨ p.done = true →
          s.hearing heard (.probe id event input) = heard := by
        intro hcase
        refine hearing_eq fun other => ?_
        simp only [hears]
        split
        · rename_i heq
          rw [← heq, hid]
          rcases hcase with hcase | hcase <;> simp [hcase]
        · rfl
      split at hs'
      · rename_i hunexpected
        cases hs'
        rw [hdeaf (.inl (by simpa using hunexpected))]
        exact h
      · rename_i hexpected
        have hexpects : p.expects event = true := by simpa using hexpected
        rw [hdone] at hs'
        split at hs'
        · rename_i hover
          cases hs'
          rw [hdeaf (.inr hover)]
          refine h.weaken.set hid hslot htls (fun _ => hdone.trans hover) (fun _ hd => ?_)
          rw [hdone, hover] at hd
          cases hd
        · rename_i hnot
          have hrunning : p.done = false := by simpa using hnot
          obtain ⟨op, hop, hcourse⟩ := h.live id p hid hrunning (by simp)
          obtain ⟨hbusy, hown⟩ := h.hear hid hrunning hexpects input
          have hadvance := Probe.advances_react hcourse hop hexpects
          rw [react_consume] at hs'
          split at hs'
          · rename_i hwait
            rw [hwait] at hadvance
            obtain ⟨hdeadline, hkept⟩ := hadvance
            cases hs'
            refine hbusy.set hid hslot htls (fun hd => hdone.trans hd) (fun _ _ => ⟨op, ?_, ?_⟩)
            · unfold Probe.consume
              rw [hdeadline]
              exact hop
            · rw [hown, htls]
              exact hkept
          · rename_i next hnext
            rw [hnext] at hadvance
            cases hs'
            have hset : Trailed routes (s.hearing heard (.probe id event input)) (some id)
                (s.setProbe id (p.consume event)) :=
              hbusy.set hid hslot htls (fun hd => hdone.trans hd) (fun hne => absurd rfl hne)
            refine hset.set (List.getElem?_set_self hlt) rfl rfl (fun hd => hdone.symm.trans hd)
              (fun _ _ => ⟨next, rfl, ?_⟩)
            rw [hown]
            show Probe.Course (p.consume event).tls _ next
            rw [htls]
            exact hadvance
          · rename_i success reason hfinish
            rw [hfinish] at hadvance
            have hset : Trailed routes (s.hearing heard (.probe id event input)) (some id)
                (s.setProbe id (p.consume event)) :=
              hbusy.set hid hslot htls (fun hd => hdone.trans hd) (fun hne => absurd rfl hne)
            refine hset.finish (Trailed.pump input) (List.getElem?_set_self hlt)
              (hdone.trans hrunning) ?_ hs'
            rw [hown, htls]
            exact hadvance

theorem Trailed.onTimer (h : Trailed routes heard none s) {input : PumpInput} {error : Error}
    (hs' : s.onTimer input error = some s') : Trailed routes heard none s' := by
  cases error with
  | none => exact Trailed.pump input s s' h hs'
  | some error =>
      simp only [HealthChecks.onTimer] at hs'
      cases hs'
      split
      · exact h.failed
      · exact h

theorem Trailed.handle (h : Trailed routes heard none s) {event : Event}
    (hs' : s.handle event = some s') : Trailed routes (s.hearing heard event) none s' := by
  cases event with
  | probe id event input => exact h.onProbe hs'
  | start =>
      rw [hearing_eq fun _ => rfl]
      cases hs'
      unfold HealthChecks.start
      split
      · exact h
      · exact h.same rfl rfl rfl rfl
  | stop =>
      rw [hearing_eq fun _ => rfl]
      cases hs'
      exact h.stop
  | posted input =>
      rw [hearing_eq fun _ => rfl]
      simp only [HealthChecks.handle] at hs'
      split at hs'
      · have hp : Trailed routes heard none { s with posted := false } := h.same rfl rfl rfl rfl
        exact Trailed.pump input _ s' hp hs'
      · cases hs'
        exact h
  | timer error input =>
      rw [hearing_eq fun _ => rfl]
      simp only [HealthChecks.handle] at hs'
      split at hs'
      · have ht : Trailed routes heard none { s with timer := none } := h.same rfl rfl rfl rfl
        exact ht.onTimer hs'
      · cases hs'
        exact h
  | staleTimer error input =>
      rw [hearing_eq fun _ => rfl]
      simp only [HealthChecks.handle] at hs'
      split at hs'
      · have ht : Trailed routes heard none { s with staleWaits := s.staleWaits - 1 } :=
          h.same rfl rfl rfl rfl
        exact ht.onTimer hs'
      · cases hs'
        exact h

/-- Over a run the trails grow by what the run says. -/
theorem Trailed.after (events : List Event) : ∀ {s s' : HealthChecks}
    {heard : Nat → List ProbeEvent}, Trailed routes heard none s → s.after events = some s' →
      Trailed routes (fun id => heard id ++ trail id s events) none s' := by
  induction events with
  | nil =>
      intro s s' heard h hs'
      cases hs'
      simpa [trail] using h
  | cons event rest ih =>
      intro s s' heard h hs'
      obtain ⟨t, ht, hrest⟩ := Option.bind_eq_some_iff.mp hs'
      have hstep := ih (h.handle ht) hrest
      have heq : (fun id => s.hearing heard event id ++ trail id t rest)
          = fun id => heard id ++ trail id s (event :: rest) := by
        funext id
        rw [trail, ht, hearing, List.append_assoc]
      rw [heq] at hstep
      exact hstep

end Trails

theorem trailed_make {config : AppConfig} {now : TimePoint} {s : HealthChecks}
    (h : make config now = .ok s) : Trailed config.routes (fun _ => []) none s := by
  obtain ⟨-, rfl⟩ := make_eq h
  refine ⟨fun _ _ => rfl, ?_, ?_, ?_, rfl⟩
  · intro id p hp
    cases hp
  · intro id p hp
    cases hp
  · intro r hr
    cases hr

theorem targetsFrom_place {route : Nat} {routes : List RouteConfig} {target : ProbeTarget}
    (h : target ∈ targetsFrom route routes) :
    ∃ n entry, target.route = route + n ∧ routes[n]? = some entry
      ∧ entry.healthCheck = some target.health
      ∧ entry.upstreams[target.upstream]? = some target.backend := by
  induction routes generalizing route with
  | nil => cases h
  | cons entry rest ih =>
      have hrest : target ∈ targetsFrom (route + 1) rest →
          ∃ n entry', target.route = route + n ∧ (entry :: rest)[n]? = some entry'
            ∧ entry'.healthCheck = some target.health
            ∧ entry'.upstreams[target.upstream]? = some target.backend := by
        intro hmem
        obtain ⟨n, entry', hroute, hentry, hhealth, hbackend⟩ := ih hmem
        exact ⟨n + 1, entry', by omega, hentry, hhealth, hbackend⟩
      unfold targetsFrom at h
      split at h
      · exact hrest h
      · rename_i settings hcheck
        rcases List.mem_append.mp h with hown | hmem
        · obtain ⟨n, hn, rfl⟩ := List.mem_mapIdx.mp hown
          exact ⟨0, entry, rfl, rfl, hcheck, List.getElem?_eq_getElem hn⟩
        · exact hrest hmem

/-- The probe was started for the slot that its result is recorded for, which has this upstream. -/
def StartedFor (s : HealthChecks) (r : ProbeRecord) (upstream : UpstreamConfig) : Prop :=
  ∃ start ∈ s.starts, start.probe = r.probe
    ∧ ∃ target, s.targets[start.slot]? = some target ∧ target.route = r.route
      ∧ target.upstream = r.upstream ∧ target.backend = upstream

/-- The result of a probe of the slot that it is recorded for, as the trail of the probe says. -/
def Faithful (config : AppConfig) (s : HealthChecks) (heard : List ProbeEvent) (r : ProbeRecord) :
    Prop :=
  ∃ entry settings upstream, config.routes[r.route]? = some entry
    ∧ entry.healthCheck = some settings ∧ entry.upstreams[r.upstream]? = some upstream
    ∧ StartedFor s r upstream
    ∧ (r.success = true ↔ Probe.Answered (decide (upstream.scheme = .https)) heard)

theorem faithful_after {config : AppConfig} {now : TimePoint} {s₀ s : HealthChecks}
    {events : List Event} (hmake : make config now = .ok s₀) (hrun : s₀.after events = some s) :
    ∀ r ∈ s.records, Faithful config s (trail r.probe s₀ events) r := by
  have htrailed := (trailed_make hmake).after events hrun
  obtain ⟨hinv, -⟩ := inv_after hmake events hrun
  intro r hr
  obtain ⟨p, hp, -, hverdict⟩ := htrailed.verdicts r hr
  obtain ⟨target, htarget, htls⟩ := htrailed.targets r.probe p hp
  obtain ⟨q, target', hq, -, htarget', hroute, hupstream⟩ := hinv.logged.recorded r hr
  rw [hp] at hq
  cases hq
  rw [htarget] at htarget'
  cases htarget'
  obtain ⟨start, hstart, hprobe, hslot⟩ := hinv.owned.begun r.probe p hp
  have hmem := List.mem_of_getElem? htarget
  rw [(watches_after hmake hrun).targets] at hmem
  obtain ⟨n, entry, hn, hentry, hhealth, hbackend⟩ := targetsFrom_place hmem
  refine ⟨entry, target.health, target.backend, ?_, hhealth, ?_, ?_, ?_⟩
  · rw [hroute, hn, Nat.zero_add]
    exact hentry
  · rw [hupstream]
    exact hbackend
  · refine ⟨start, hstart, hprobe, target, ?_, hroute.symm, hupstream.symm, rfl⟩
    rw [hslot]
    exact htarget
  · rw [htls] at hverdict
    simpa using hverdict

theorem state_after {config : AppConfig} {now : TimePoint} {s₀ s : HealthChecks}
    {events : List Event} (hmake : make config now = .ok s₀) (hrun : s₀.after events = some s) :
    s.state = UpstreamHealthState.recordAll (UpstreamHealthState.make config.routes)
      (s.records.reverse.map ProbeRecord.result) :=
  ((trailed_make hmake).after events hrun).state

/-- In every run of the health checks the health state is made by the recorded results and
nothing else, and a result is recorded as a success exactly when the probe that was started for
its slot, over TLS if its upstream is an HTTPS one, was answered in time with a status of
success. -/
theorem records_answered (config : AppConfig) (now : TimePoint) {s₀ s : HealthChecks}
    (events : List Event) (hmake : make config now = .ok s₀) (hrun : s₀.after events = some s) :
    s.state = UpstreamHealthState.recordAll (UpstreamHealthState.make config.routes)
        (s.records.reverse.map ProbeRecord.result)
      ∧ ∀ r ∈ s.records, Faithful config s (trail r.probe s₀ events) r :=
  ⟨state_after hmake hrun, faithful_after hmake hrun⟩

/-- A probe that is answered with 204; the wait of its deadline is cancelled too late to matter. -/
def answeredRun : List Event :=
  [.start, .posted ⟨[⟨0, false, .running⟩, ⟨1, false, .running⟩], false⟩,
    .probe 0 (.resolved none false) ⟨[], false⟩, .probe 0 (.connected none false false) ⟨[], false⟩,
    .probe 0 (.written none false) ⟨[], false⟩,
    .probe 0 (.headerRead none 204) ⟨[⟨2, false, .running⟩], false⟩,
    .probe 0 (.deadline (some .operationAborted)) ⟨[], false⟩]

theorem records_answered_no_content : ∃ s₀ s, make oneSlot 0 = .ok s₀
    ∧ s₀.after answeredRun = some s ∧ s.records = [⟨0, 0, 0, true⟩]
    ∧ ∀ r ∈ s.records, Faithful oneSlot s (trail r.probe s₀ answeredRun) r := by
  refine ⟨_, _, rfl, rfl, rfl, ?_⟩
  exact (records_answered oneSlot 0 answeredRun rfl rfl).2

end HealthChecks

end ApiGate
