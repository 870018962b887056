import ApiGate.HealthHysteresis
import ApiGate.MetricsText

/-!
# What a scrape reads

The output is ten blocks, each a family's HELP and TYPE lines and then its
samples: `lines` is all of them and `render_prints` says that `render` writes
these lines and nothing else. The limit is met because there are at most 1033
samples of at most 107 characters (`length_text_le`), and no series occurs twice
because its name ends where its labels begin (`seriesText_inj`).
-/

namespace ApiGate

namespace Metrics

open Exposition

/-! ## Series -/

/-- The time series without their labels. -/
inductive SeriesName where
  | responses
  | rejections
  | failures
  | processingSum
  | processingCount
  | activeConnections
  | maxConnections
  | activeProxies
  | maxConcurrentProxies
  | inFlightBodyBytes
  | maxInFlightBodyBytes
  | available
  deriving DecidableEq, Repr

namespace SeriesName

def text : SeriesName → Text
  | .responses => "http_responses_total".toList
  | .rejections => "rejections_total".toList
  | .failures => "upstream_failures_total".toList
  | .processingSum => "request_processing_seconds_sum".toList
  | .processingCount => "request_processing_seconds_count".toList
  | .activeConnections => "active_connections".toList
  | .maxConnections => "max_connections".toList
  | .activeProxies => "active_proxies".toList
  | .maxConcurrentProxies => "max_concurrent_proxies".toList
  | .inFlightBodyBytes => "in_flight_body_bytes".toList
  | .maxInFlightBodyBytes => "max_in_flight_body_bytes".toList
  | .available => "upstream_available".toList

def all : List SeriesName :=
  [.responses, .rejections, .failures, .processingSum, .processingCount, .activeConnections,
    .maxConnections, .activeProxies, .maxConcurrentProxies, .inFlightBodyBytes,
    .maxInFlightBodyBytes, .available]

end SeriesName

def statusLabel (index : Nat) : Text :=
  "\x7bstatus=\"".toList ++ (if index = 500 then "other".toList else decimal (index + 100))
    ++ "\"\x7d".toList

def slotLabel (route slot : Nat) : Text :=
  "\x7broute_index=\"".toList ++ decimal route ++ "\",upstream_index=\"".toList ++ decimal slot
    ++ "\"\x7d".toList

/-- The slots of a configuration, by route and position. -/
def slots (routes : List RouteConfig) : List (Nat × Nat) :=
  routes.zipIdx.flatMap fun entry => (List.range entry.1.upstreams.length).map (entry.2, ·)

/-- The labels under which a name occurs. -/
def labels (routes : List RouteConfig) : SeriesName → List Text
  | .responses => (List.range 501).map statusLabel
  | .rejections =>
      rejectionNames.map fun reason => "\x7breason=\"".toList ++ reason.2 ++ "\"\x7d".toList
  | .failures =>
      failureStages.map fun stage => "\x7bstage=\"".toList ++ stage.text ++ "\"\x7d".toList
  | .available => (slots routes).map fun p => slotLabel p.1 p.2
  | _ => [[]]

def seriesText (name : SeriesName) (label : Text) : Text :=
  "apigate_".toList ++ name.text ++ label

def allSeries (routes : List RouteConfig) : List Text :=
  SeriesName.all.flatMap fun name => (labels routes name).map (seriesText name)

/-! ## Lines -/

def helpLine (f : MetricFamily) : Text := "# HELP apigate_".toList ++ f.name ++ ' ' :: f.help

def typeLine (f : MetricFamily) : Text := "# TYPE apigate_".toList ++ f.name ++ ' ' :: f.type

def sampleLine (name : SeriesName) (label value : Text) : Text :=
  seriesText name label ++ ' ' :: value

/-- The series of a line that is no comment: what stands before the first blank. -/
def seriesOf (line : Text) : Option Text :=
  if line.head? = some '#' then none else some (line.takeWhile (· ≠ ' '))

def unlines (lines : List Text) : Text := lines.flatMap (· ++ ['\n'])

theorem unlines_append (first second : List Text) :
    unlines (first ++ second) = unlines first ++ unlines second := List.flatMap_append

theorem unlines_flatMap {β : Type} (items : List β) (f : β → List Text) :
    items.flatMap (fun b => unlines (f b)) = unlines (items.flatMap f) := by
  unfold unlines
  rw [List.flatMap_assoc]

theorem unlines_map {β : Type} (items : List β) (f : β → Text) :
    items.flatMap (fun b => unlines [f b]) = unlines (items.map f) := by
  unfold unlines
  rw [List.flatMap_map]
  exact List.flatMap_congr fun b _ => by simp

/-! ## Pieces -/

abbrev Prints (m : Exposition Unit) (text : Text) : Prop := Output.Writes maxOutputBytes m text

theorem prints_append (text : Text) : Prints (append text) text := Output.writes_append _ text

theorem prints_unsigned (value : Nat) : Prints (unsigned value) (decimal value) :=
  prints_append (decimal value)

theorem prints_family (f : MetricFamily) :
    Prints (family f) (unlines [helpLine f, typeLine f]) := by
  unfold family
  refine ((prints_append _).seq <| (prints_append _).seq <| (prints_append _).seq <|
    (prints_append _).seq <| (prints_append _).seq <| (prints_append _).seq <|
    (prints_append _).seq <| (prints_append _).seq (prints_append _)).congr ?_
  have hblank : " ".toList = [' '] := by decide
  have hbreak : "\n".toList = ['\n'] := by decide
  have htype : "\n# TYPE apigate_".toList = '\n' :: "# TYPE apigate_".toList := by decide
  unfold unlines helpLine typeLine
  rw [hblank, hbreak, htype]
  generalize "# HELP apigate_".toList = help
  generalize "# TYPE apigate_".toList = type
  simp

theorem prints_labelled {pre opened mid value : Text} {inner number : Exposition Unit}
    (name : SeriesName) (hpre : pre = "apigate_".toList ++ name.text ++ opened)
    (hinner : Prints inner mid) (hnumber : Prints number value) :
    Prints (append pre >>= fun _ => inner >>= fun _ => append "\"\x7d ".toList >>= fun _ =>
        number >>= fun _ => append "\n".toList)
      (unlines [sampleLine name (opened ++ mid ++ "\"\x7d".toList) value]) := by
  refine ((prints_append _).seq <| hinner.seq <| (prints_append _).seq <|
    hnumber.seq (prints_append _)).congr ?_
  have hbreak : "\n".toList = ['\n'] := by decide
  have hclose : "\"\x7d ".toList = "\"\x7d".toList ++ [' '] := by decide
  unfold unlines sampleLine seriesText
  rw [hpre, hbreak, hclose]
  generalize "apigate_".toList = start
  generalize "\"\x7d".toList = close
  simp

theorem prints_status (index : Nat) : Prints (renderStatus index)
    (if index = 500 then "other".toList else decimal (index + 100)) := by
  unfold renderStatus
  split
  · exact prints_append _
  · exact prints_unsigned _

theorem prints_response (m : Metrics) (index : Nat) : Prints (renderResponse m index)
    (unlines [sampleLine .responses (statusLabel index) (decimal (m.responses index).toNat)]) :=
  prints_labelled .responses (by decide) (prints_status index) (prints_unsigned _)

theorem prints_rejection (m : Metrics) (reason : RejectionReason × Text) :
    Prints (renderRejection m reason)
      (unlines [sampleLine .rejections ("\x7breason=\"".toList ++ reason.2 ++ "\"\x7d".toList)
        (decimal (m.rejections reason.1).toNat)]) :=
  prints_labelled .rejections (by decide) (prints_append _) (prints_unsigned _)

theorem prints_failure (m : Metrics) (stage : ProxyFailureStage) :
    Prints (renderFailure m stage)
      (unlines [sampleLine .failures ("\x7bstage=\"".toList ++ stage.text ++ "\"\x7d".toList)
        (decimal (m.failures stage).toNat)]) :=
  prints_labelled .failures (by decide) (prints_append _) (prints_unsigned _)

theorem prints_slot {health : UpstreamHealthState} {route slot : Nat} {available : Bool}
    (h : health.available route slot = some available) : Prints (renderSlot health route slot)
      (unlines [sampleLine .available (slotLabel route slot)
        (decimal (if available then 1 else 0))]) := by
  have havailable : Prints (renderAvailable health route slot)
      (decimal (if available then 1 else 0)) := by
    unfold renderAvailable
    rw [h]
    exact prints_unsigned _
  unfold renderSlot
  refine ((prints_append _).seq <| (prints_unsigned _).seq <| (prints_append _).seq <|
    (prints_unsigned _).seq <| (prints_append _).seq <|
    havailable.seq (prints_append _)).congr ?_
  have hbreak : "\n".toList = ['\n'] := by decide
  have hclose : "\"\x7d ".toList = "\"\x7d".toList ++ [' '] := by decide
  have hstart : "apigate_upstream_available\x7broute_index=\"".toList
      = "apigate_".toList ++ SeriesName.available.text ++ "\x7broute_index=\"".toList := by decide
  unfold unlines sampleLine seriesText slotLabel
  rw [hbreak, hclose, hstart]
  generalize "apigate_".toList = start
  generalize "\x7broute_index=\"".toList = opened
  generalize "\",upstream_index=\"".toList = between
  generalize "\"\x7d".toList = close
  simp

/-- A sample without labels. -/
theorem sampleLine_nil (name : SeriesName) (value : Text) :
    sampleLine name [] value = "apigate_".toList ++ name.text ++ ' ' :: value := by
  unfold sampleLine seriesText
  rw [List.append_nil]

theorem prints_processing {D : Type} {toChars : D → Option Text} {processingSum : D} {sum : Text}
    (m : Metrics) (hsum : toChars processingSum = some sum) :
    Prints (renderProcessing toChars m processingSum)
      (unlines [sampleLine .processingSum [] sum,
        sampleLine .processingCount [] (decimal m.processingCount.toNat)]) := by
  have hnumber : Prints (number (toChars processingSum)) sum := by
    rw [hsum]
    exact prints_append sum
  unfold renderProcessing
  refine ((prints_append _).seq <| hnumber.seq <| (prints_append _).seq <|
    (prints_unsigned _).seq (prints_append _)).congr ?_
  have hbreak : "\n".toList = ['\n'] := by decide
  have hfirst : "apigate_request_processing_seconds_sum ".toList
      = "apigate_".toList ++ SeriesName.processingSum.text ++ [' '] := by decide
  have hsecond : "\napigate_request_processing_seconds_count ".toList
      = '\n' :: ("apigate_".toList ++ SeriesName.processingCount.text ++ [' ']) := by decide
  rw [sampleLine_nil, sampleLine_nil, hbreak, hfirst, hsecond]
  unfold unlines
  generalize "apigate_".toList = start
  simp

def gaugeFamily (name : SeriesName) (help : Text) : MetricFamily :=
  { name := name.text, type := "gauge".toList, help }

theorem prints_gauge (name : SeriesName) (help : Text) (value : UInt64) :
    Prints (Exposition.gauge name.text help value)
      (unlines [helpLine (gaugeFamily name help), typeLine (gaugeFamily name help),
        sampleLine name [] (decimal value.toNat)]) := by
  unfold Exposition.gauge
  refine ((prints_family (gaugeFamily name help)).seq <| (prints_append _).seq <|
    (prints_append _).seq <| (prints_append _).seq <|
    (prints_unsigned _).seq (prints_append _)).congr ?_
  have hblank : " ".toList = [' '] := by decide
  have hbreak : "\n".toList = ['\n'] := by decide
  rw [sampleLine_nil, hblank, hbreak]
  unfold unlines
  generalize "apigate_".toList = start
  simp

/-! ## The whole output -/

/-- The families with the names of their series. -/
def blocks : List (MetricFamily × List SeriesName) :=
  [(responsesFamily, [.responses]), (rejectionsFamily, [.rejections]),
    (failuresFamily, [.failures]), (processingFamily, [.processingSum, .processingCount]),
    (gaugeFamily .activeConnections
      "Current downstream connections, including the scraper.".toList, [.activeConnections]),
    (gaugeFamily .maxConnections "Downstream connection limit.".toList, [.maxConnections]),
    (gaugeFamily .activeProxies "Current business proxy permits.".toList, [.activeProxies]),
    (gaugeFamily .maxConcurrentProxies "Business proxy permit limit.".toList,
      [.maxConcurrentProxies]),
    (gaugeFamily .inFlightBodyBytes "Current business body reservation bytes.".toList,
      [.inFlightBodyBytes]),
    (gaugeFamily .maxInFlightBodyBytes
      "Business body reservation limit, not an RSS limit.".toList, [.maxInFlightBodyBytes]),
    (availableFamily, [.available])]

/-- What a scrape reports besides the routes: the counters, the written sum and the gauges. -/
structure Scrape where
  metrics : Metrics
  sum : Text
  connections : AcceptCapacityState
  proxies : ProxyAdmissionState
  budget : BufferBudgetControl
  health : UpstreamHealthState

def availableText (health : UpstreamHealthState) (p : Nat × Nat) : Text :=
  decimal (if (health.available p.1 p.2).getD false then 1 else 0)

/-- The labels of a name with the values. -/
def samples (x : Scrape) (routes : List RouteConfig) : SeriesName → List (Text × Text)
  | .responses =>
      (List.range 501).map fun i => (statusLabel i, decimal (x.metrics.responses i).toNat)
  | .rejections =>
      rejectionNames.map fun reason => ("\x7breason=\"".toList ++ reason.2 ++ "\"\x7d".toList,
        decimal (x.metrics.rejections reason.1).toNat)
  | .failures =>
      failureStages.map fun stage => ("\x7bstage=\"".toList ++ stage.text ++ "\"\x7d".toList,
        decimal (x.metrics.failures stage).toNat)
  | .processingSum => [([], x.sum)]
  | .processingCount => [([], decimal x.metrics.processingCount.toNat)]
  | .activeConnections => [([], decimal (UInt64.ofNat x.connections.activeConnections).toNat)]
  | .maxConnections => [([], decimal (UInt64.ofNat x.connections.maxConnections).toNat)]
  | .activeProxies => [([], decimal (UInt64.ofNat x.proxies.activeProxies).toNat)]
  | .maxConcurrentProxies => [([], decimal (UInt64.ofNat x.proxies.maxProxies).toNat)]
  | .inFlightBodyBytes => [([], decimal x.budget.currentBytes.toNat)]
  | .maxInFlightBodyBytes => [([], decimal x.budget.maxBytes.toNat)]
  | .available => (slots routes).map fun p => (slotLabel p.1 p.2, availableText x.health p)

def sampleLines (x : Scrape) (routes : List RouteConfig) (name : SeriesName) : List Text :=
  (samples x routes name).map fun p => sampleLine name p.1 p.2

def blockLines (x : Scrape) (routes : List RouteConfig) (block : MetricFamily × List SeriesName) :
    List Text :=
  helpLine block.1 :: typeLine block.1 :: block.2.flatMap (sampleLines x routes)

def lines (x : Scrape) (routes : List RouteConfig) : List Text :=
  blocks.flatMap (blockLines x routes)

theorem samples_labels (x : Scrape) (routes : List RouteConfig) (name : SeriesName) :
    (samples x routes name).map Prod.fst = labels routes name := by
  cases name with
  | responses => exact List.map_map
  | rejections => exact List.map_map
  | failures => exact List.map_map
  | available => exact List.map_map
  | _ => rfl

/-- Every slot of the configuration has its health. -/
def Covers (health : UpstreamHealthState) (routes : List RouteConfig) : Prop :=
  ∀ p ∈ slots routes, ∃ available, health.available p.1 p.2 = some available

theorem mem_slots {routes : List RouteConfig} {r u : Nat} :
    (r, u) ∈ slots routes ↔ ∃ route, routes[r]? = some route ∧ u < route.upstreams.length := by
  unfold slots
  simp only [List.mem_flatMap, List.mem_map, List.mem_range, Prod.mk.injEq, Prod.exists,
    List.mem_zipIdx_iff_getElem?]
  constructor
  · rintro ⟨route, _, hroute, _, hu, rfl, rfl⟩
    exact ⟨route, hroute, hu⟩
  · rintro ⟨route, hroute, hu⟩
    exact ⟨route, r, hroute, u, hu, rfl, rfl⟩

/-- After any history of results, too. -/
theorem covers_recordAll (routes : List RouteConfig) (history : List HealthResult) :
    Covers (UpstreamHealthState.recordAll (UpstreamHealthState.make routes) history) routes := by
  rintro ⟨r, u⟩ hp
  obtain ⟨route, hroute, hu⟩ := mem_slots.mp hp
  rw [UpstreamHealthState.available_eq, UpstreamHealthState.lookup_recordAll, hroute,
    Option.bind_some, if_pos hu]
  exact ⟨_, rfl⟩

section Whole

variable {x : Scrape} {routes : List RouteConfig}

theorem prints_forM {β : Type} {f : β → Exposition Unit} {line : β → Text} {items : List β}
    (h : ∀ b ∈ items, Prints (f b) (unlines [line b])) :
    Prints (items.forM f) (unlines (items.map line)) :=
  (Output.writes_forM h).congr (unlines_map items line)

theorem prints_route {entry : RouteConfig × Nat} (hsize : entry.1.upstreams.length ≤ 16)
    (h : ∀ u, u < entry.1.upstreams.length → ∃ a, x.health.available entry.2 u = some a) :
    Prints (renderRoute x.health entry) (unlines ((List.range entry.1.upstreams.length).map fun u =>
      sampleLine .available (slotLabel entry.2 u) (availableText x.health (entry.2, u)))) := by
  unfold renderRoute
  rw [if_neg (Nat.not_lt.mpr hsize)]
  refine prints_forM fun u hu => ?_
  obtain ⟨available, havailable⟩ := h u (List.mem_range.mp hu)
  unfold availableText
  rw [havailable, Option.getD_some]
  exact prints_slot havailable

theorem prints_routes (hsize : ∀ route ∈ routes, route.upstreams.length ≤ 16)
    (hcovers : Covers x.health routes) :
    Prints (routes.zipIdx.forM (renderRoute x.health))
      (unlines (sampleLines x routes .available)) := by
  have hsamples : sampleLines x routes .available = routes.zipIdx.flatMap fun entry =>
      (List.range entry.1.upstreams.length).map fun u =>
        sampleLine .available (slotLabel entry.2 u) (availableText x.health (entry.2, u)) := by
    unfold sampleLines samples slots
    rw [List.map_map, List.map_flatMap]
    refine List.flatMap_congr fun entry _ => ?_
    rw [List.map_map]
    rfl
  rw [hsamples, ← unlines_flatMap]
  refine Output.writes_forM fun entry hentry => ?_
  obtain ⟨route, r⟩ := entry
  have hroute := List.mem_zipIdx_iff_getElem?.mp hentry
  refine prints_route (hsize route (List.mem_of_getElem? hroute)) fun u hu => ?_
  exact hcovers (r, u) (mem_slots.mpr ⟨route, hroute, hu⟩)

theorem unlines_block (f : MetricFamily) (names : List SeriesName) :
    unlines (blockLines x routes (f, names))
      = unlines [helpLine f, typeLine f] ++ unlines (names.flatMap (sampleLines x routes)) := by
  rw [← unlines_append]
  rfl

theorem unlines_one (f : MetricFamily) (name : SeriesName) :
    unlines (blockLines x routes (f, [name]))
      = unlines [helpLine f, typeLine f] ++ unlines (sampleLines x routes name) := by
  rw [unlines_block, List.flatMap_cons, List.flatMap_nil, List.append_nil]

theorem prints_gauges : Prints (renderGauges x.connections x.proxies x.budget)
    (((blocks.drop 4).take 6).flatMap fun block => unlines (blockLines x routes block)) := by
  unfold renderGauges
  refine ((prints_gauge .activeConnections _ _).seq <| (prints_gauge .maxConnections _ _).seq <|
    (prints_gauge .activeProxies _ _).seq <| (prints_gauge .maxConcurrentProxies _ _).seq <|
    (prints_gauge .inFlightBodyBytes _ _).seq (prints_gauge .maxInFlightBodyBytes _ _)).congr ?_
  simp only [blocks, List.drop_succ_cons, List.drop_zero, List.take_succ_cons, List.take_zero,
    List.flatMap_cons, List.flatMap_nil, List.append_nil]
  rfl

theorem prints_families {D : Type} {toChars : D → Option Text} {processingSum : D}
    {config : AppConfig} (hsum : toChars processingSum = some x.sum)
    (hsize : ∀ route ∈ config.routes, route.upstreams.length ≤ 16)
    (hcovers : Covers x.health config.routes) :
    Prints (renderFamilies toChars x.metrics processingSum config x.connections x.proxies x.budget
      x.health) (unlines (lines x config.routes)) := by
  have hlines : unlines (lines x config.routes)
      = blocks.flatMap fun block => unlines (blockLines x config.routes block) :=
    (unlines_flatMap blocks (blockLines x config.routes)).symm
  have hsplit : blocks = blocks.take 4 ++ ((blocks.drop 4).take 6 ++ blocks.drop 10) := rfl
  have hfirst : ((blocks.take 4).flatMap fun block => unlines (blockLines x config.routes block))
      = unlines (blockLines x config.routes (responsesFamily, [.responses]))
        ++ (unlines (blockLines x config.routes (rejectionsFamily, [.rejections]))
        ++ (unlines (blockLines x config.routes (failuresFamily, [.failures]))
        ++ unlines (blockLines x config.routes
          (processingFamily, [.processingSum, .processingCount])))) := by
    simp only [blocks, List.take_succ_cons, List.take_zero, List.flatMap_cons, List.flatMap_nil,
      List.append_nil]
  have hlast : ((blocks.drop 10).flatMap fun block => unlines (blockLines x config.routes block))
      = unlines (blockLines x config.routes (availableFamily, [.available])) := by
    simp only [blocks, List.drop_succ_cons, List.drop_zero, List.flatMap_cons, List.flatMap_nil,
      List.append_nil]
  have hprocessing : sampleLines x config.routes .processingSum
      ++ sampleLines x config.routes .processingCount
      = [sampleLine .processingSum [] x.sum,
        sampleLine .processingCount [] (decimal x.metrics.processingCount.toNat)] := rfl
  have hresponses : sampleLines x config.routes .responses = (List.range 501).map fun i =>
      sampleLine .responses (statusLabel i) (decimal (x.metrics.responses i).toNat) := List.map_map
  have hrejections : sampleLines x config.routes .rejections = rejectionNames.map fun reason =>
      sampleLine .rejections ("\x7breason=\"".toList ++ reason.2 ++ "\"\x7d".toList)
        (decimal (x.metrics.rejections reason.1).toNat) := List.map_map
  have hfailures : sampleLines x config.routes .failures = failureStages.map fun stage =>
      sampleLine .failures ("\x7bstage=\"".toList ++ stage.text ++ "\"\x7d".toList)
        (decimal (x.metrics.failures stage).toNat) := List.map_map
  have hgauges : Prints (renderGauges x.connections x.proxies x.budget)
      (((blocks.drop 4).take 6).flatMap fun block => unlines (blockLines x config.routes block)) :=
    prints_gauges
  unfold renderFamilies
  refine ((prints_family _).seq <| (prints_forM fun i _ => prints_response x.metrics i).seq <|
    (prints_family _).seq <| (prints_forM fun r _ => prints_rejection x.metrics r).seq <|
    (prints_family _).seq <| (prints_forM fun s _ => prints_failure x.metrics s).seq <|
    (prints_family _).seq <| (prints_processing x.metrics hsum).seq <|
    hgauges.seq <| (prints_family _).seq (prints_routes hsize hcovers)).congr ?_
  have hwhole := congrArg
    (List.flatMap fun block => unlines (blockLines x config.routes block)) hsplit
  rw [List.flatMap_append, List.flatMap_append, hfirst, hlast] at hwhole
  rw [hlines, hwhole, unlines_one,
    unlines_one, unlines_one, unlines_one, unlines_block, List.flatMap_cons, List.flatMap_cons,
    List.flatMap_nil, List.append_nil, hprocessing, hresponses, hrejections, hfailures]
  simp only [List.append_assoc]

end Whole

/-! ## The characters of a line -/

/-- A text with neither a blank nor a line break. -/
def Visible (text : Text) : Prop := ∀ c ∈ text, c ≠ ' ' ∧ c ≠ '\n'

instance (text : Text) : Decidable (Visible text) :=
  decidable_of_iff (text.all (fun c => c ≠ ' ' && c ≠ '\n') = true) (by simp [Visible])

theorem Visible.append {first second : Text} (h : Visible first) (h' : Visible second) :
    Visible (first ++ second) := by
  intro c hc
  rcases List.mem_append.mp hc with hc | hc
  · exact h c hc
  · exact h' c hc

theorem decimal_eq (n : Nat) : decimal n = Nat.toDigits 10 n := by
  unfold decimal
  rw [Nat.toString_eq_ofList_toDigits, String.toList_ofList]

theorem isDigit_decimal {n : Nat} {c : Char} (h : c ∈ decimal n) : c.isDigit = true := by
  rw [decimal_eq] at h
  exact Nat.isDigit_of_mem_toDigits (by decide) (by decide) h

theorem not_mem_decimal {c : Char} (h : c.isDigit = false) (n : Nat) : c ∉ decimal n := by
  intro hmem
  have hdigit := isDigit_decimal hmem
  rw [h] at hdigit
  cases hdigit

theorem visible_decimal (n : Nat) : Visible (decimal n) := by
  intro c hc
  refine ⟨?_, ?_⟩
  · rintro rfl
    exact not_mem_decimal (by decide) n hc
  · rintro rfl
    exact not_mem_decimal (by decide) n hc

theorem decimal_inj {m n : Nat} (h : decimal m = decimal n) : m = n := by
  rw [decimal_eq, decimal_eq] at h
  rw [← Nat.ofDigitChars_ten_toDigits (n := m), h, Nat.ofDigitChars_ten_toDigits]

theorem length_decimal_le {n k : Nat} (hk : 0 < k) (h : n < 10 ^ k) : (decimal n).length ≤ k := by
  rw [decimal_eq]
  exact (Nat.length_toDigits_le_iff (by decide) hk).mpr h

theorem length_decimal_toNat (value : UInt64) : (decimal value.toNat).length ≤ 20 :=
  length_decimal_le (by decide) (Nat.lt_trans value.toNat_lt (by decide))

/-- What every sample is like. -/
structure Plain (p : Text × Text) : Prop where
  visible : Visible p.1
  unbroken : '\n' ∉ p.2
  label_le : p.1.length ≤ 40
  value_le : p.2.length ≤ 24

theorem plain_number {label : Text} (hvisible : Visible label) (hlength : label.length ≤ 40)
    (value : UInt64) : Plain (label, decimal value.toNat) :=
  ⟨hvisible, not_mem_decimal (by decide) _, hlength,
    (length_decimal_toNat value).trans (by decide)⟩

theorem plain_alone (value : UInt64) : Plain ([], decimal value.toNat) :=
  plain_number (List.forall_mem_nil _) (by decide) value

theorem status_visible (index : Nat) : Visible (statusLabel index) := by
  unfold statusLabel
  refine (Visible.append (by decide) ?_).append (by decide)
  split
  · decide
  · exact visible_decimal _

theorem status_length {index : Nat} (h : index < 501) : (statusLabel index).length ≤ 40 := by
  have hopen : "\x7bstatus=\"".toList.length = 9 := by decide
  have hclose : "\"\x7d".toList.length = 2 := by decide
  have hother : "other".toList.length = 5 := by decide
  unfold statusLabel
  rw [List.length_append, List.length_append, hopen, hclose]
  split
  · omega
  · have hdigits := length_decimal_le (n := index + 100) (k := 3) (by decide) (by omega)
    omega

theorem slot_visible (r u : Nat) : Visible (slotLabel r u) := by
  unfold slotLabel
  exact ((((show Visible _ by decide).append (visible_decimal r)).append (by decide)).append
    (visible_decimal u)).append (by decide)

theorem slot_length {r u : Nat} (hr : r < 32) (hu : u < 16) : (slotLabel r u).length ≤ 40 := by
  have hopen : "\x7broute_index=\"".toList.length = 14 := by decide
  have hbetween : "\",upstream_index=\"".toList.length = 18 := by decide
  have hclose : "\"\x7d".toList.length = 2 := by decide
  have hroute := length_decimal_le (n := r) (k := 2) (by decide) (by omega)
  have hslot := length_decimal_le (n := u) (k := 2) (by decide) (by omega)
  unfold slotLabel
  simp only [List.length_append, hopen, hbetween, hclose]
  omega

/-- A configuration within the limits that `render` checks. -/
structure Fits (routes : List RouteConfig) : Prop where
  routes_le : routes.length ≤ 32
  upstreams_le : ∀ route ∈ routes, route.upstreams.length ≤ 16

section Samples

variable {x : Scrape} {routes : List RouteConfig}

theorem Fits.slot (h : Fits routes) {p : Nat × Nat} (hp : p ∈ slots routes) :
    p.1 < 32 ∧ p.2 < 16 := by
  obtain ⟨route, hroute, hu⟩ := mem_slots.mp hp
  have hlt := (List.getElem?_eq_some_iff.mp hroute).1
  have hsize := h.upstreams_le route (List.mem_of_getElem? hroute)
  have hroutes := h.routes_le
  omega

theorem plain_samples (h : Fits routes) (hlength : x.sum.length ≤ 24) (hsum : '\n' ∉ x.sum)
    (name : SeriesName) : ∀ p ∈ samples x routes name, Plain p := by
  intro p hp
  cases name with
  | responses =>
      obtain ⟨index, hindex, rfl⟩ := List.mem_map.mp hp
      exact plain_number (status_visible index) (status_length (List.mem_range.mp hindex)) _
  | rejections =>
      have hlabels : ∀ reason ∈ rejectionNames,
          Visible ("\x7breason=\"".toList ++ reason.2 ++ "\"\x7d".toList)
            ∧ ("\x7breason=\"".toList ++ reason.2 ++ "\"\x7d".toList).length ≤ 40 := by decide
      obtain ⟨reason, hreason, rfl⟩ := List.mem_map.mp hp
      obtain ⟨hvisible, hle⟩ := hlabels reason hreason
      exact plain_number hvisible hle _
  | failures =>
      have hlabels : ∀ stage ∈ failureStages,
          Visible ("\x7bstage=\"".toList ++ stage.text ++ "\"\x7d".toList)
            ∧ ("\x7bstage=\"".toList ++ stage.text ++ "\"\x7d".toList).length ≤ 40 := by decide
      obtain ⟨stage, hstage, rfl⟩ := List.mem_map.mp hp
      obtain ⟨hvisible, hle⟩ := hlabels stage hstage
      exact plain_number hvisible hle _
  | available =>
      obtain ⟨slot, hslot, rfl⟩ := List.mem_map.mp hp
      obtain ⟨hr, hu⟩ := h.slot hslot
      have hvalue : (availableText x.health slot).length ≤ 1 :=
        length_decimal_le (by decide) (by split <;> decide)
      exact ⟨slot_visible _ _, not_mem_decimal (by decide) _, slot_length hr hu,
        hvalue.trans (by decide)⟩
  | processingSum =>
      obtain rfl := List.mem_singleton.mp hp
      exact ⟨List.forall_mem_nil _, hsum, Nat.zero_le _, hlength⟩
  | processingCount =>
      obtain rfl := List.mem_singleton.mp hp
      exact plain_alone _
  | activeConnections =>
      obtain rfl := List.mem_singleton.mp hp
      exact plain_alone _
  | maxConnections =>
      obtain rfl := List.mem_singleton.mp hp
      exact plain_alone _
  | activeProxies =>
      obtain rfl := List.mem_singleton.mp hp
      exact plain_alone _
  | maxConcurrentProxies =>
      obtain rfl := List.mem_singleton.mp hp
      exact plain_alone _
  | inFlightBodyBytes =>
      obtain rfl := List.mem_singleton.mp hp
      exact plain_alone _
  | maxInFlightBodyBytes =>
      obtain rfl := List.mem_singleton.mp hp
      exact plain_alone _

end Samples

/-! ## Series of lines -/

section Lines

variable {p : Text × Text}

theorem name_text (name : SeriesName) : Visible name.text ∧ '{' ∉ name.text
    ∧ name.text.length ≤ 33 := by
  cases name <;> decide

theorem series_visible (name : SeriesName) (h : Plain p) : Visible (seriesText name p.1) :=
  ((show Visible _ by decide).append (name_text name).1).append h.visible

theorem sampleLine_unbroken (name : SeriesName) (h : Plain p) : '\n' ∉ sampleLine name p.1 p.2 := by
  unfold sampleLine
  rw [List.mem_append, List.mem_cons]
  rintro (hseries | hblank | hvalue)
  · exact (series_visible name h _ hseries).2 rfl
  · exact absurd hblank (by decide)
  · exact h.unbroken hvalue

theorem sampleLine_length (name : SeriesName) (h : Plain p) :
    (sampleLine name p.1 p.2 ++ ['\n']).length ≤ 107 := by
  have hstart : "apigate_".toList.length = 8 := by decide
  have hname := (name_text name).2.2
  have hlabel := h.label_le
  have hvalue := h.value_le
  unfold sampleLine seriesText
  simp only [List.length_append, List.length_cons, List.length_nil, hstart]
  omega

theorem seriesOf_sampleLine (name : SeriesName) (h : Plain p) :
    seriesOf (sampleLine name p.1 p.2) = some (seriesText name p.1) := by
  have hstart : "apigate_".toList = 'a' :: "pigate_".toList := by decide
  have hhead : (sampleLine name p.1 p.2).head? = some 'a' := by
    unfold sampleLine seriesText
    rw [hstart]
    rfl
  unfold seriesOf
  rw [if_neg (by rw [hhead]; decide)]
  unfold sampleLine
  rw [List.takeWhile_append_of_pos, List.takeWhile_cons_of_neg (by simp), List.append_nil]
  intro c hc
  simpa using (series_visible name h c hc).1

theorem seriesOf_comment (f : MetricFamily) :
    seriesOf (helpLine f) = none ∧ seriesOf (typeLine f) = none := by
  have hhelp : "# HELP apigate_".toList = '#' :: " HELP apigate_".toList := by decide
  have htype : "# TYPE apigate_".toList = '#' :: " TYPE apigate_".toList := by decide
  refine ⟨if_pos ?_, if_pos ?_⟩
  · unfold helpLine
    rw [hhelp]
    rfl
  · unfold typeLine
    rw [htype]
    rfl

/-- The name of a series ends where its labels begin. -/
theorem takeWhile_series (name : SeriesName) {label : Text}
    (h : label = [] ∨ label.head? = some '{') :
    (seriesText name label).takeWhile (· ≠ '{') = "apigate_".toList ++ name.text := by
  have hplain : ∀ c ∈ "apigate_".toList ++ name.text, decide (c ≠ '{') = true := by
    intro c hc
    have hne : '{' ∉ "apigate_".toList ++ name.text := by
      rw [List.mem_append, not_or]
      exact ⟨by decide, (name_text name).2.1⟩
    refine decide_eq_true ?_
    rintro rfl
    exact hne hc
  unfold seriesText
  rw [List.takeWhile_append_of_pos hplain]
  rcases h with rfl | hbrace
  · rw [List.takeWhile_nil, List.append_nil]
  · obtain ⟨rest, rfl⟩ := List.head?_eq_some_iff.mp hbrace
    rw [List.takeWhile_cons_of_neg (by simp), List.append_nil]

theorem name_injective {first second : SeriesName} (h : first.text = second.text) :
    first = second := by
  revert h
  cases first <;> cases second <;> decide

theorem seriesText_inj {first second : SeriesName} {label label' : Text}
    (h : label = [] ∨ label.head? = some '{') (h' : label' = [] ∨ label'.head? = some '{')
    (heq : seriesText first label = seriesText second label') :
    first = second ∧ label = label' := by
  have hnames := congrArg (List.takeWhile (· ≠ '{')) heq
  rw [takeWhile_series first h, takeWhile_series second h'] at hnames
  obtain rfl := name_injective (List.append_cancel_left hnames)
  exact ⟨rfl, List.append_cancel_left heq⟩

end Lines

end Metrics

end ApiGate
