import ApiGate.EventLoop.Tally
import ApiGate.RequestLedger
import ApiGate.Drain
import ApiGate.RequestBound

/-!
# The counters over whole runs

The ledger of a session is kept by its moves, so every request of every run has
its books in order. The counters that the sessions share hold what all logs
together have counted, up to the top of a 64-bit number; a session that was
stopped counts nothing more.
-/

namespace ApiGate

open EventLoop Act

namespace Outline

variable {g : Setup} {lenient lossy : Prop} {f f' f'' : Outline}

/-! ## What a move counts -/

/-- The counters that were incremented are those that were noted. -/
def Tallied (f f' : Outline) : Prop :=
  ∃ counters : List Counter, f'.metrics = f.metrics.map (fun m => counters.foldl Metrics.increment m)
    ∧ ∀ counter, f'.log.count (.counted counter)
      = f.log.count (.counted counter) + counters.count counter

theorem count_counted (counters : List Counter) (counter : Counter) :
    (Session.counted counters).count (.counted counter) = counters.count counter := by
  unfold Session.counted
  rw [List.count_reverse]
  exact List.count_map_of_injective counters Note.counted (fun _ _ h => Note.counted.inj h) counter

theorem Tallied.same (hmetrics : f'.metrics = f.metrics)
    (hlog : ∀ counter, f'.log.count (.counted counter) = f.log.count (.counted counter)) :
    Tallied f f' := by
  refine ⟨[], ?_, hlog⟩
  rw [hmetrics]
  simp

theorem Tallied.trans (h : Tallied f f') (h' : Tallied f' f'') : Tallied f f'' := by
  obtain ⟨counters, hmetrics, hlog⟩ := h
  obtain ⟨counters', hmetrics', hlog'⟩ := h'
  refine ⟨counters ++ counters', ?_, fun counter => ?_⟩
  · rw [hmetrics', hmetrics, Option.map_map]
    simp only [List.foldl_append]
    rfl
  · rw [hlog', hlog, List.count_append, Nat.add_assoc]

/-- A move that counts `counters` and notes besides what counts nothing. -/
theorem Tallied.counted (counters : List Counter) (quiet : List Note)
    (hmetrics : f'.metrics = f.metrics.map fun m => counters.foldl Metrics.increment m)
    (hlog : f'.log.Perm (quiet ++ (Session.counted counters ++ f.log)))
    (hquiet : ∀ counter, .counted counter ∉ quiet) : Tallied f f' := by
  refine ⟨counters, hmetrics, fun counter => ?_⟩
  rw [hlog.count_eq, List.count_append, List.count_append, count_counted,
    List.count_eq_zero.mpr (hquiet counter)]
  omega

theorem finish_metrics (status : Nat) (now : TimePoint) (f : Outline) :
    (f.finish status now).metrics = f.metrics.map fun m =>
      (f.observation.finishCounts f.metrics status now).foldl Metrics.increment m := by
  show (f.observation.finish f.metrics status now).2.2 = _
  cases hm : f.metrics with
  | none =>
      unfold RequestObservation.finish
      split <;> rfl
  | some m => exact RequestObservation.finish_metrics f.observation m status now

theorem call_metrics (c : ObservationCall) (f : Outline) :
    (f.call c).metrics = f.metrics.map fun m =>
      (c.counts f.observation f.metrics).foldl Metrics.increment m := by
  show (c.apply f.observation f.metrics).2 = _
  cases hm : f.metrics with
  | none =>
      cases c with
      | reject | failStream => rfl
      | fail stage =>
          show (f.observation.fail none stage).2 = none
          unfold RequestObservation.fail
          split <;> rfl
  | some m => exact RequestObservation.call_metrics f.observation m c

theorem Move.tallied (h : Move g lenient lossy f f') : Tallied f f' := by
  cases h with
  | reset | readHeader | header | dispatch => exact Tallied.same rfl fun counter => by simp
  | reject _ reason =>
      exact Tallied.counted _ [] (call_metrics (.reject reason) f) (List.Perm.refl _) (by simp)
  | fail _ _ _ stage =>
      exact Tallied.counted _ [] (call_metrics (.fail stage) f) (List.Perm.refl _) (by simp)
  | failStream _ _ _ _ _ _ stage =>
      exact Tallied.counted _ [.streamFailed stage] (call_metrics (.failStream stage) f)
        List.perm_middle (by simp)
  | @answer response now =>
      exact Tallied.counted _ [.head response] (finish_metrics response.status now f)
        (List.Perm.refl _) (by simp)
  | @stream response now =>
      exact Tallied.counted _ [.head response] (finish_metrics response.status now f)
        (List.Perm.refl _) (by simp)
  | lose _ status now =>
      exact Tallied.counted _ [] (finish_metrics status now f) (List.Perm.refl _) (by simp)
  | _ => exact Tallied.same rfl fun _ => rfl

theorem Moves.tallied (h : Moves g lenient lossy f f') : Tallied f f' := by
  induction h with
  | refl => exact Tallied.same rfl fun _ => rfl
  | tail _ hmove ih => exact ih.trans hmove.tallied

/-! ## After a stop -/

/-- The session is over, and nothing was counted since the log was `base`. -/
structure Mute (base : List Note) (f : Outline) : Prop where
  finished : f.finished = true
  log : ∃ notes, f.log = notes ++ base ∧ ∀ counter, .counted counter ∉ notes

variable {base : List Note}

theorem Mute.alive (h : Mute base f) (hf : f.finished = false) : False := by
  rw [h.finished] at hf
  cases hf

theorem Mute.note (h : Mute base f) {note : Note} (hnote : ∀ counter, note ≠ .counted counter)
    (hfinished : f'.finished = f.finished) (hlog : f'.log = note :: f.log) : Mute base f' := by
  obtain ⟨notes, hnotes, hquiet⟩ := h.log
  refine ⟨hfinished.trans h.finished, note :: notes, by rw [hlog, hnotes]; rfl, ?_⟩
  intro counter hmem
  rcases List.mem_cons.mp hmem with heq | hmem
  · exact hnote counter heq.symm
  · exact hquiet counter hmem

theorem Mute.move (h : Mute base f) (hmove : Move g lenient lossy f f') : Mute base f' := by
  cases hmove with
  | shut hf | reset hf | readHeader hf | failStream hf => exact (h.alive hf).elim
  | dispatch _ hp | proxy hp | reject hp | fail hp | answer _ hp | stream _ _ hp | lose _ _ _ hp =>
      exact (h.alive hp.unfinished).elim
  | header target => exact h.note (by simp) rfl rfl
  | drainClosing | close => exact ⟨rfl, h.log⟩
  | _ => exact ⟨h.finished, h.log⟩

end Outline

namespace Gateway

variable {g : Setup} {rateLimits : RouteRateLimits} {gw gw' : Gateway} {i : Nat}

/-! ## The counters of the process -/

/-- The counters hold what the logs have counted, up to the top. -/
def Totals (gw : Gateway) : Prop :=
  ∃ (m : Metrics) (live : Finset Nat), gw.shared.metrics = some m
    ∧ (∀ i, i ∉ live → (gw.session i).log = [])
    ∧ ∀ counter, (m.value counter).toNat
      = min (2 ^ 64 - 1) (∑ i ∈ live, (gw.session i).log.count (.counted counter))

theorem launch_totals (h : g.config.metricsEnabled = true) : Totals (launch g rateLimits) := by
  refine ⟨{}, ∅, if_pos h, fun _ _ => rfl, fun counter => ?_⟩
  cases counter <;> rfl

/-- The shared metrics are those that every session sees. -/
theorem Turn.tallied {lenient : Prop} {lossy : Nat → Prop} {now : TimePoint}
    (h : Turn g lenient lossy now i gw gw') : Outline.Tallied (gw.outline i) (gw'.outline i) :=
  h.moves.tallied

theorem Turn.totals {lenient : Prop} {lossy : Nat → Prop} {now : TimePoint}
    (h : Turn g lenient lossy now i gw gw') (htotals : Totals gw) : Totals gw' := by
  obtain ⟨m, live, hm, hempty, hvalue⟩ := htotals
  obtain ⟨counters, hmetrics, hlog⟩ := h.tallied
  have hlogs : ∀ j, (gw'.session j).log
      = Function.update (fun j => (gw.session j).log) i (gw'.session i).log j := by
    intro j
    by_cases hji : j = i
    · rw [hji, Function.update_self]
    · rw [Function.update_of_ne hji]
      exact congrArg Outline.log (h.others j hji)
  refine ⟨counters.foldl Metrics.increment m, insert i live, ?_, fun j hj => ?_, fun counter => ?_⟩
  · refine hmetrics.trans ?_
    rw [show (gw.outline i).metrics = some m from hm]
    rfl
  · rw [Finset.mem_insert, not_or] at hj
    rw [hlogs, Function.update_of_ne hj.1]
    exact hempty j hj.2
  · have hsum := tally_update (List.count (.counted counter))
      (fun j => (gw.session j).log) (Finset.mem_insert_self i live) (gw'.session i).log
    have hlive : ∑ j ∈ insert i live, (gw.session j).log.count (.counted counter)
        = ∑ j ∈ live, (gw.session j).log.count (.counted counter) :=
      Finset.sum_insert_of_eq_zero_if_notMem fun hi => by rw [hempty i hi]; rfl
    have hnew : (gw'.session i).log.count (.counted counter)
        = (gw.session i).log.count (.counted counter) + counters.count counter := hlog counter
    have hafter : ∑ j ∈ insert i live, (gw'.session j).log.count (.counted counter)
        = ∑ j ∈ live, (gw.session j).log.count (.counted counter) + counters.count counter := by
      rw [Finset.sum_congr rfl fun j _ => congrArg (List.count (.counted counter)) (hlogs j)]
      rw [hlive, hnew] at hsum
      omega
    rw [Metrics.value_increments, hvalue counter, hafter]
    omega

/-- No counter is below what it was. -/
def Grown (m : Metrics) (gw : Gateway) : Prop :=
  ∃ m', gw.shared.metrics = some m' ∧ ∀ counter, m.value counter ≤ m'.value counter

theorem Turn.grown {lenient : Prop} {lossy : Nat → Prop} {now : TimePoint} {m : Metrics}
    (h : Turn g lenient lossy now i gw gw') (hgrown : Grown m gw) : Grown m gw' := by
  obtain ⟨m', hm', hle⟩ := hgrown
  obtain ⟨counters, hmetrics, -⟩ := h.tallied
  refine ⟨counters.foldl Metrics.increment m', ?_, fun counter => ?_⟩
  · refine hmetrics.trans ?_
    rw [show (gw.outline i).metrics = some m' from hm']
    rfl
  · have hlt := (m'.value counter).toNat_lt
    have hmono : m'.value counter ≤ (counters.foldl Metrics.increment m').value counter := by
      rw [UInt64.le_iff_toNat_le, Metrics.value_increments]
      omega
    exact UInt64.le_trans (hle counter) hmono

/-! ## A session that is stopped -/

theorem session_step_stop (now : TimePoint) (o : Oracle Site)
    (hstarted : (gw.session i).started = true) :
    let s := (step g ⟨.session i .stop, now, o⟩ gw).session i
    s.finished = true ∧ s.log = (gw.session i).log := by
  have hs : ((gw.tick now).view i).env.started = true := hstarted
  have hstop : (Session.stop ((gw.tick now).view i)).env.finished = true
      ∧ (Session.stop ((gw.tick now).view i)).env.log = (gw.session i).log := by
    cases hf : ((gw.tick now).view i).env.finished with
    | true =>
        unfold Session.stop
        rw [if_pos hf]
        exact ⟨hf, rfl⟩
    | false =>
        rw [Session.stop_of_unfinished hf]
        exact ⟨rfl, rfl⟩
  have hhandle : wp (fun _ => False) (Session.handle g .stop)
      (fun _ w => w.env.finished = true ∧ w.env.log = (gw.session i).log) (fun _ => False)
      ((gw.tick now).view i) := by
    unfold Session.handle
    simp only [wp_get_bind, hs, if_true]
    exact wp_modify.mpr hstop
  refine exec_of_wp (P := fun gw' : Gateway => (gw'.session i).finished = true
    ∧ (gw'.session i).log = (gw.session i).log) (admissible_none o)
    (wp_zoom (wp_mono hhandle (fun _ w hw => ?_) fun _ hf => hf.elim))
  have hself : ((gw.tick now).put i w).session i = w.env := by simp [Gateway.session, put]
  rw [hself]
  exact hw

/-! ## Every run -/

/-- What the counters owe to the requests of session `i`, in the run of `inputs`. -/
structure CountsOnce (g : Setup) (rateLimits : RouteRateLimits) (inputs : List Input) (i : Nat) :
    Prop where
  /-- every request has its books in order -/
  books : ∀ part ∈ Note.requests ((after g rateLimits inputs).session i).log, Note.Books part
  /-- no write of a head throws: responses are counted exactly with heads -/
  answered : (∀ input ∈ inputs, ∀ event, input.event = .session i event → WritesBegin input) →
    ∀ part ∈ Note.requests ((after g rateLimits inputs).session i).log, Note.Answered part
  /-- after a stop nothing is counted -/
  stopped : ∀ before input rest, inputs = before ++ input :: rest →
    input.event = .session i .stop → ((after g rateLimits before).session i).started = true →
    ∃ notes, ((after g rateLimits inputs).session i).log
        = notes ++ ((after g rateLimits before).session i).log
      ∧ ∀ counter, .counted counter ∉ notes
  /-- the counters hold what was counted, up to the top -/
  totals : Totals (after g rateLimits inputs)
  /-- and none ever decreases -/
  grown : ∀ before rest m, inputs = before ++ rest →
    (after g rateLimits before).shared.metrics = some m → Grown m (after g rateLimits inputs)

theorem launch_ledger (h : g.config.metricsEnabled = true) (lossy : Prop) (i : Nat) :
    Outline.Ledger lossy ((launch g rateLimits).outline i) where
  enabled := ⟨{}, if_pos h⟩
  books part hpart := by
    rw [show part = [] from List.mem_singleton.mp hpart]
    exact Note.books_nil
  answered := by
    refine Or.inr fun part hpart => ?_
    rw [show part = [] from List.mem_singleton.mp hpart]
    exact Note.answered_nil
  tells := RequestObservation.tells_nil
  awaiting hpos := absurd hpos (Nat.lt_irrefl 0)
  busy hb := by cases hb
  writing hw := by cases hw

/-- In every run the ledger of every session is kept; `lossy` are the sessions whose
writes may throw. -/
theorem ledger_kept (henabled : g.config.metricsEnabled = true) (rateLimits : RouteRateLimits)
    (lossy : Nat → Prop) {inputs : List Input} (hwrites : ∀ input ∈ inputs, ∀ i event,
      input.event = .session i event → lossy i ∨ WritesBegin input) (i : Nat) :
    Outline.Ledger (lossy i) ((after g rateLimits inputs).outline i) := by
  have hheeds : RunHeeds g True lossy (launch g rateLimits) inputs := by
    intro before input rest hsplit
    exact ⟨Or.inl trivial, hwrites input (by simp [hsplit])⟩
  refine after_turns (P := fun gw => ∀ i, Outline.Ledger (lossy i) (gw.outline i)) hheeds
    (fun i => launch_ledger henabled (lossy i) i) ?_ i
  intro input gw gw' i _ htame hturn h j
  have hi : Outline.Ledger (lossy i) (gw'.outline i) :=
    hturn.moves.keeps (fun hmove _ hf => hf.move henabled hmove) ((htame i).tick _) ((h i).tick _)
  by_cases hji : j = i
  · rw [hji]
    exact hi
  · rw [hturn.others j hji]
    exact (h j).share hi.enabled

/-- What a turn keeps is kept from any state of a run on. -/
theorem after_append_turns {P : Gateway → Prop} {before rest : List Input}
    (hbefore : P (after g rateLimits before))
    (hturn : ∀ {input : Input} {gw gw' : Gateway} {i : Nat},
      (∀ i, Outline.Tame g True (gw.outline i)) →
      Turn g True (fun _ => True) input.now i gw gw' → P gw → P gw') :
    P (after g rateLimits (before ++ rest)) := by
  have hready : Ready g True (after g rateLimits before) :=
    ((launch_ready g rateLimits).run (P := fun _ => True)
      (fun _ _ _ _ => heeds_all g _ _) trivial fun _ _ _ _ => trivial).1
  rw [after, ← run_append]
  exact (hready.run (fun _ _ _ _ => heeds_all g _ _) hbefore fun _ => hturn).2

theorem stopped_mute {before rest : List Input} {now : TimePoint} {o : Oracle Site}
    (hstarted : ((after g rateLimits before).session i).started = true) :
    Outline.Mute ((after g rateLimits before).session i).log
      ((after g rateLimits (before ++ ⟨.session i .stop, now, o⟩ :: rest)).outline i) := by
  obtain ⟨hfinished, hlog⟩ := session_step_stop (g := g) now o hstarted
  have hsplit : before ++ (⟨.session i .stop, now, o⟩ : Input) :: rest
      = (before ++ [⟨.session i .stop, now, o⟩]) ++ rest := by simp
  have hlast : after g rateLimits (before ++ [⟨.session i .stop, now, o⟩])
      = step g ⟨.session i .stop, now, o⟩ (after g rateLimits before) := by
    rw [after, ← run_append]
    rfl
  rw [hsplit]
  refine after_append_turns (P := fun gw => Outline.Mute ((after g rateLimits before).session i).log
    (gw.outline i)) ?_ ?_
  · rw [hlast]
    exact ⟨hfinished, [], hlog, by simp⟩
  · intro input gw gw' j htame hturn h
    by_cases hij : i = j
    · subst hij
      exact hturn.moves.keeps (fun hmove _ hf => hf.move hmove) ((htame i).tick _)
        ⟨h.finished, h.log⟩
    · rw [hturn.others i hij]
      exact ⟨h.finished, h.log⟩

/-- Every run with metrics counts each request once. -/
theorem metrics_counted_once (henabled : g.config.metricsEnabled = true)
    (rateLimits : RouteRateLimits) (inputs : List Input) (i : Nat) :
    CountsOnce g rateLimits inputs i where
  books :=
    (ledger_kept henabled rateLimits (fun _ => True) (fun _ _ _ _ _ => Or.inl trivial) i).books
  answered := by
    intro hwrites
    have hothers : ∀ input ∈ inputs, ∀ j event, input.event = .session j event →
        j ≠ i ∨ WritesBegin input := by
      intro input hmem j event hevent
      by_cases hji : j = i
      · subst hji
        exact Or.inr (hwrites input hmem event hevent)
      · exact Or.inl hji
    have hledger := ledger_kept henabled rateLimits (fun j => j ≠ i) hothers i
    exact hledger.answered.resolve_left fun hne => hne rfl
  stopped := by
    rintro before ⟨event, now, o⟩ rest rfl rfl hstarted
    exact (stopped_mute hstarted).log
  totals := by
    have htotals : Totals (after g rateLimits ([] ++ inputs)) :=
      after_append_turns (launch_totals henabled) fun _ hturn => hturn.totals
    exact htotals
  grown := by
    rintro before rest m rfl hm
    exact after_append_turns ⟨m, hm, fun _ => UInt64.le_refl _⟩ fun _ hturn => hturn.grown

def oneCounted : Setup :=
  { oneProxy with config := { oneProxy.config with metricsEnabled := true } }

/-- Of a request and a scrape on one connection the first is counted. -/
theorem metrics_counted_once_scrape :
    let inputs := [accepted 0, arrives "/healthz", written, arrives "/metrics?all"]
    ((after oneCounted [] inputs).session 0).log.countP Note.isResponse = 1
      ∧ CountsOnce oneCounted [] inputs 0 := by
  refine ⟨by decide +kernel, ?_⟩
  exact metrics_counted_once rfl [] _ 0

end Gateway

end ApiGate
