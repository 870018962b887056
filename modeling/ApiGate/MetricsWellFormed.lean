import ApiGate.MetricsRender

/-!
# The output of a scrape is bounded and well formed

`lines` is what `render` writes. Here it is read: no line is broken, the lines
that are no comments name every series once (`series_nodup`), each behind the two
lines of its own family (`lines_ordered`), and all of them together stay below
the limit, so that the check in `append` never refuses.
-/

namespace ApiGate

namespace Metrics

section

variable {x : Scrape} {routes : List RouteConfig}

/-! ## The series -/

theorem filterMap_samples (hplain : ∀ name, ∀ p ∈ samples x routes name, Plain p)
    (name : SeriesName) : (sampleLines x routes name).filterMap seriesOf
      = (labels routes name).map (seriesText name) := by
  unfold sampleLines
  rw [← samples_labels x, List.filterMap_map, List.map_map, ← List.filterMap_eq_map]
  refine List.filterMap_congr fun p hp => ?_
  exact seriesOf_sampleLine name (hplain name p hp)

theorem blocks_names : blocks.flatMap Prod.snd = SeriesName.all := rfl

theorem filterMap_lines (hplain : ∀ name, ∀ p ∈ samples x routes name, Plain p) :
    (lines x routes).filterMap seriesOf = allSeries routes := by
  have hblock : ∀ block : MetricFamily × List SeriesName,
      (blockLines x routes block).filterMap seriesOf
        = block.2.flatMap fun name => (labels routes name).map (seriesText name) := by
    intro block
    obtain ⟨hhelp, htype⟩ := seriesOf_comment block.1
    unfold blockLines
    rw [List.filterMap_cons_none hhelp, List.filterMap_cons_none htype, List.filterMap_flatMap]
    exact List.flatMap_congr fun name _ => filterMap_samples hplain name
  unfold lines allSeries
  rw [List.filterMap_flatMap, ← blocks_names, List.flatMap_assoc]
  exact List.flatMap_congr fun block _ => hblock block

theorem head?_brace {opened rest : Text} (h : opened.head? = some '{') :
    (opened ++ rest).head? = some '{' := by
  rw [List.head?_append, h, Option.some_or]

theorem labels_braced (name : SeriesName) :
    ∀ label ∈ labels routes name, label = [] ∨ label.head? = some '{' := by
  have hbrace : ∀ opened ∈ ["\x7bstatus=\"".toList, "\x7breason=\"".toList, "\x7bstage=\"".toList,
      "\x7broute_index=\"".toList], opened.head? = some '{' := by decide
  intro label hlabel
  cases name with
  | responses =>
      obtain ⟨index, -, rfl⟩ := List.mem_map.mp hlabel
      unfold statusLabel
      rw [List.append_assoc]
      exact .inr (head?_brace (hbrace _ (by simp)))
  | rejections =>
      obtain ⟨reason, -, rfl⟩ := List.mem_map.mp hlabel
      rw [List.append_assoc]
      exact .inr (head?_brace (hbrace _ (by simp)))
  | failures =>
      obtain ⟨stage, -, rfl⟩ := List.mem_map.mp hlabel
      rw [List.append_assoc]
      exact .inr (head?_brace (hbrace _ (by simp)))
  | available =>
      obtain ⟨slot, -, rfl⟩ := List.mem_map.mp hlabel
      unfold slotLabel
      rw [List.append_assoc, List.append_assoc, List.append_assoc]
      exact .inr (head?_brace (hbrace _ (by simp)))
  | _ => exact .inl (List.mem_singleton.mp hlabel)

theorem statusLabel_inj {i j : Nat} (h : statusLabel i = statusLabel j) : i = j := by
  unfold statusLabel at h
  rw [List.append_assoc, List.append_assoc] at h
  have hstatus := List.append_cancel_right (List.append_cancel_left h)
  -- no number is spelled with an `o`
  have hother : ∀ n, "other".toList ≠ decimal n := by
    intro n heq
    have hmem : 'o' ∈ decimal n := by
      rw [← heq]
      decide
    exact not_mem_decimal (by decide) n hmem
  split at hstatus
  · split at hstatus
    · omega
    · exact absurd hstatus (hother _)
  · split at hstatus
    · exact absurd hstatus.symm (hother _)
    · have hnumber := decimal_inj hstatus
      omega

theorem takeWhile_before {c : Char} {text rest : Text} (h : c ∉ text) :
    (text ++ c :: rest).takeWhile (· ≠ c) = text := by
  rw [List.takeWhile_append_of_pos, List.takeWhile_cons_of_neg (by simp), List.append_nil]
  intro d hd
  refine decide_eq_true ?_
  rintro rfl
  exact h hd

/-- A text up to a character that is not in it. -/
theorem eq_of_append_cons {c : Char} {text text' rest rest' : Text} (h : c ∉ text) (h' : c ∉ text')
    (heq : text ++ c :: rest = text' ++ c :: rest') : text = text' ∧ rest = rest' := by
  have hfirst := congrArg (List.takeWhile (· ≠ c)) heq
  rw [takeWhile_before h, takeWhile_before h'] at hfirst
  subst hfirst
  exact ⟨rfl, (List.cons.inj (List.append_cancel_left heq)).2⟩

theorem slotLabel_inj {r u r' u' : Nat} (h : slotLabel r u = slotLabel r' u') :
    r = r' ∧ u = u' := by
  have hbetween : "\",upstream_index=\"".toList = '"' :: ",upstream_index=\"".toList := by decide
  have hclose : "\"\x7d".toList = ['"', '}'] := by decide
  have hquote : ∀ n, '"' ∉ decimal n := not_mem_decimal (by decide)
  unfold slotLabel at h
  rw [hbetween, hclose, List.append_assoc, List.append_assoc, List.append_assoc, List.append_assoc,
    List.append_assoc, List.append_assoc] at h
  have hrest := List.append_cancel_left h
  generalize ",upstream_index=\"".toList = between at hrest
  rw [List.cons_append, List.cons_append] at hrest
  obtain ⟨hroute, htail⟩ := eq_of_append_cons (hquote r) (hquote r') hrest
  obtain ⟨hslot, -⟩ := eq_of_append_cons (hquote u) (hquote u') (List.append_cancel_left htail)
  exact ⟨decimal_inj hroute, decimal_inj hslot⟩

theorem slots_nodup (routes : List RouteConfig) : (slots routes).Nodup := by
  have hdistinct : routes.zipIdx.Pairwise fun first second => first.2 ≠ second.2 := by
    have hnodup : (routes.zipIdx.map Prod.snd).Nodup := by
      rw [List.zipIdx_map_snd]
      exact List.nodup_range'
    exact List.pairwise_map.mp hnodup
  unfold slots
  rw [List.nodup_flatMap]
  refine ⟨fun entry _ => List.nodup_range.map fun u u' h => (Prod.mk.inj h).2, ?_⟩
  refine hdistinct.imp fun hne => ?_
  intro p hp hp'
  obtain ⟨u, -, rfl⟩ := List.mem_map.mp hp
  obtain ⟨u', -, heq⟩ := List.mem_map.mp hp'
  exact hne (Prod.mk.inj heq).1.symm

theorem labels_nodup (name : SeriesName) : (labels routes name).Nodup := by
  cases name with
  | responses => exact List.nodup_range.map fun i j h => statusLabel_inj h
  | rejections => exact (by decide : (rejectionNames.map fun reason =>
      "\x7breason=\"".toList ++ reason.2 ++ "\"\x7d".toList).Nodup)
  | failures => exact (by decide : (failureStages.map fun stage =>
      "\x7bstage=\"".toList ++ stage.text ++ "\"\x7d".toList).Nodup)
  | available =>
      refine (slots_nodup routes).map fun p q h => ?_
      obtain ⟨hroute, hslot⟩ := slotLabel_inj h
      exact Prod.ext hroute hslot
  | _ => exact List.nodup_singleton _

theorem series_nodup (routes : List RouteConfig) : (allSeries routes).Nodup := by
  unfold allSeries
  rw [List.nodup_flatMap]
  refine ⟨fun name _ => ?_, ?_⟩
  · refine (labels_nodup name).map_on fun label hlabel label' hlabel' heq => ?_
    exact (seriesText_inj (labels_braced name label hlabel)
      (labels_braced name label' hlabel') heq).2
  · have hnames : SeriesName.all.Nodup := by decide
    refine hnames.imp fun hne => ?_
    intro text htext htext'
    obtain ⟨label, hlabel, rfl⟩ := List.mem_map.mp htext
    obtain ⟨label', hlabel', heq⟩ := List.mem_map.mp htext'
    exact hne (seriesText_inj (labels_braced _ label' hlabel') (labels_braced _ label hlabel)
      heq).1.symm

/-! ## The slots -/

def slotSeries (r u : Nat) : Text := seriesText .available (slotLabel r u)

theorem slotSeries_mem_iff (r u : Nat) : slotSeries r u ∈ allSeries routes
    ↔ ∃ route, routes[r]? = some route ∧ u < route.upstreams.length := by
  have hslot : slotLabel r u = [] ∨ (slotLabel r u).head? = some '{' := by
    unfold slotLabel
    rw [List.append_assoc, List.append_assoc, List.append_assoc]
    exact .inr (head?_brace (by decide))
  rw [← mem_slots]
  unfold allSeries slotSeries
  rw [List.mem_flatMap]
  constructor
  · rintro ⟨name, -, hmem⟩
    obtain ⟨label, hlabel, heq⟩ := List.mem_map.mp hmem
    obtain ⟨rfl, rfl⟩ := seriesText_inj (labels_braced name label hlabel) hslot heq
    obtain ⟨p, hp, hsame⟩ := List.mem_map.mp hlabel
    obtain ⟨rfl, rfl⟩ := slotLabel_inj hsame
    exact hp
  · intro hmem
    exact ⟨.available, by decide, List.mem_map_of_mem (List.mem_map.mpr ⟨(r, u), hmem, rfl⟩)⟩

/-- The name of a series, without its labels. -/
def nameOf (series : Text) : Text := series.takeWhile (· ≠ '{')

theorem slotSeries_of_name {series : Text} (h : series ∈ allSeries routes)
    (hname : nameOf series = "apigate_upstream_available".toList) :
    ∃ r u, series = slotSeries r u := by
  obtain ⟨name, -, hmem⟩ := List.mem_flatMap.mp h
  obtain ⟨label, hlabel, rfl⟩ := List.mem_map.mp hmem
  unfold nameOf at hname
  rw [takeWhile_series name (labels_braced name label hlabel),
    show "apigate_upstream_available".toList = "apigate_".toList ++ SeriesName.available.text
      by decide] at hname
  obtain rfl := name_injective (List.append_cancel_left hname)
  obtain ⟨p, -, rfl⟩ := List.mem_map.mp hlabel
  exact ⟨p.1, p.2, rfl⟩

/-! ## The order of the lines -/

/-- The family of a series has its name, or the series is the sum or the count of a summary. -/
def Belongs (f : MetricFamily) (series : Text) : Prop :=
  nameOf series = "apigate_".toList ++ f.name
    ∨ f.type = "summary".toList ∧ (nameOf series = "apigate_".toList ++ f.name ++ "_sum".toList
      ∨ nameOf series = "apigate_".toList ++ f.name ++ "_count".toList)

theorem flatMap_split {β : Type} {f : β → List Text} {items : List β} {before after : List Text}
    {line : Text} (h : items.flatMap f = before ++ line :: after) :
    ∃ b ∈ items, ∃ front back, f b = front ++ line :: back ∧ ∀ l ∈ front, l ∈ before := by
  induction items generalizing before with
  | nil => simp at h
  | cons b rest ih =>
      rw [List.flatMap_cons] at h
      rcases List.append_eq_append_iff.mp h with ⟨mid, hbefore, hrest⟩ | ⟨mid, hblock, hrest⟩
      · obtain ⟨b', hb', front, back, heq, hfront⟩ := ih hrest
        refine ⟨b', List.mem_cons_of_mem _ hb', front, back, heq, fun l hl => ?_⟩
        rw [hbefore]
        exact List.mem_append_right _ (hfront l hl)
      · cases mid with
        | nil =>
            have hlater : rest.flatMap f = [] ++ line :: after := hrest.symm
            obtain ⟨b', hb', front, back, heq, hfront⟩ := ih hlater
            refine ⟨b', List.mem_cons_of_mem _ hb', front, back, heq, fun l hl => ?_⟩
            exact absurd (hfront l hl) List.not_mem_nil
        | cons first mid =>
            obtain ⟨rfl, -⟩ := List.cons.inj hrest
            exact ⟨b, List.mem_cons_self .., before, mid, hblock, fun l hl => hl⟩

theorem blocks_belong : ∀ block ∈ blocks, ∀ name ∈ block.2,
    name.text = block.1.name
      ∨ block.1.type = "summary".toList ∧ (name.text = block.1.name ++ "_sum".toList
        ∨ name.text = block.1.name ++ "_count".toList) := by decide

theorem belongs_of_mem {block : MetricFamily × List SeriesName} (hblock : block ∈ blocks)
    {name : SeriesName} (hname : name ∈ block.2) {label : Text}
    (hlabel : label ∈ labels routes name) :
    Belongs block.1 (seriesText name label) := by
  have htake : nameOf (seriesText name label) = "apigate_".toList ++ name.text :=
    takeWhile_series name (labels_braced name label hlabel)
  unfold Belongs
  rw [htake, List.append_assoc, List.append_assoc]
  rcases blocks_belong block hblock name hname with hsame | ⟨htype, hsum | hcount⟩
  · exact .inl (by rw [hsame])
  · exact .inr ⟨htype, .inl (by rw [hsum])⟩
  · exact .inr ⟨htype, .inr (by rw [hcount])⟩

theorem lines_ordered (hplain : ∀ name, ∀ p ∈ samples x routes name, Plain p)
    {before after : List Text} {line series : Text} (h : lines x routes = before ++ line :: after)
    (hseries : seriesOf line = some series) :
    ∃ f ∈ blocks.map Prod.fst, Belongs f series ∧ helpLine f ∈ before ∧ typeLine f ∈ before := by
  obtain ⟨block, hblock, front, back, heq, hfront⟩ := flatMap_split h
  obtain ⟨hhelp, htype⟩ := seriesOf_comment block.1
  refine ⟨block.1, List.mem_map_of_mem hblock, ?_⟩
  unfold blockLines at heq
  -- the line is neither of the first two of its block
  cases front with
  | nil =>
      obtain ⟨rfl, -⟩ := List.cons.inj heq
      rw [hhelp] at hseries
      cases hseries
  | cons first front =>
      obtain ⟨rfl, htail⟩ := List.cons.inj heq
      cases front with
      | nil =>
          obtain ⟨rfl, -⟩ := List.cons.inj htail
          rw [htype] at hseries
          cases hseries
      | cons second front =>
          obtain ⟨rfl, hsamples⟩ := List.cons.inj htail
          have hmem : line ∈ block.2.flatMap (sampleLines x routes) := by
            rw [hsamples]
            exact List.mem_append_right _ (List.mem_cons_self ..)
          obtain ⟨name, hname, hline⟩ := List.mem_flatMap.mp hmem
          obtain ⟨p, hp, rfl⟩ := List.mem_map.mp hline
          rw [seriesOf_sampleLine name (hplain name p hp)] at hseries
          cases hseries
          have hlabel : p.1 ∈ labels routes name := by
            rw [← samples_labels x]
            exact List.mem_map_of_mem hp
          exact ⟨belongs_of_mem hblock hname hlabel, hfront _ (by simp), hfront _ (by simp)⟩

/-! ## The limit -/

theorem name_bounds : ∀ f ∈ blocks.map Prod.fst, ('\n' ∉ f.name ∧ f.name.length ≤ 33)
    ∧ '\n' ∉ f.type ∧ f.type.length ≤ 7 := by decide +kernel

theorem help_bounds : ∀ f ∈ blocks.map Prod.fst, '\n' ∉ f.help ∧ f.help.length ≤ 350 := by
  decide +kernel

theorem comments_unbroken {f : MetricFamily} (h : f ∈ blocks.map Prod.fst) :
    '\n' ∉ helpLine f ∧ '\n' ∉ typeLine f := by
  obtain ⟨⟨hname, -⟩, htype, -⟩ := name_bounds f h
  obtain ⟨hhelp, -⟩ := help_bounds f h
  have hstarts : '\n' ∉ "# HELP apigate_".toList ∧ '\n' ∉ "# TYPE apigate_".toList := by decide
  unfold helpLine typeLine
  simp only [List.mem_append, List.mem_cons, not_or]
  exact ⟨⟨⟨hstarts.1, hname⟩, by decide, hhelp⟩, ⟨hstarts.2, hname⟩, by decide, htype⟩

theorem length_comments {f : MetricFamily} (h : f ∈ blocks.map Prod.fst) :
    (unlines [helpLine f, typeLine f]).length ≤ 460 := by
  obtain ⟨⟨-, hname⟩, -, htype⟩ := name_bounds f h
  obtain ⟨-, hhelp⟩ := help_bounds f h
  have hstarts : "# HELP apigate_".toList.length = 15 ∧ "# TYPE apigate_".toList.length = 15 := by
    decide
  unfold unlines helpLine typeLine
  simp only [List.flatMap_cons, List.flatMap_nil, List.length_append, List.length_cons,
    List.length_nil, hstarts]
  omega

theorem lines_unbroken (hplain : ∀ name, ∀ p ∈ samples x routes name, Plain p) :
    ∀ line ∈ lines x routes, '\n' ∉ line := by
  intro line hline
  obtain ⟨block, hblock, hmem⟩ := List.mem_flatMap.mp hline
  obtain ⟨hhelp, htype⟩ := comments_unbroken (List.mem_map_of_mem hblock)
  rcases List.mem_cons.mp hmem with rfl | hmem
  · exact hhelp
  · rcases List.mem_cons.mp hmem with rfl | hmem
    · exact htype
    · obtain ⟨name, -, hsample⟩ := List.mem_flatMap.mp hmem
      obtain ⟨p, hp, rfl⟩ := List.mem_map.mp hsample
      exact sampleLine_unbroken name (hplain name p hp)

/-- A whole whose parts take `k` each and `w` for each of their items. -/
theorem length_flatMap_le {α β γ : Type} {items : List α} {f : α → List β} {g : α → List γ}
    {k w : Nat} (h : ∀ a ∈ items, (f a).length ≤ k + (g a).length * w) :
    (items.flatMap f).length ≤ items.length * k + (items.flatMap g).length * w := by
  induction items with
  | nil => exact Nat.zero_le _
  | cons a rest ih =>
      rw [List.forall_mem_cons] at h
      obtain ⟨hfirst, hrest⟩ := h
      have hih := ih hrest
      rw [List.flatMap_cons, List.flatMap_cons, List.length_append, List.length_append,
        List.length_cons, Nat.succ_mul, Nat.add_mul]
      omega

theorem length_unlines_le {texts : List Text} {bound : Nat}
    (h : ∀ line ∈ texts, (line ++ ['\n']).length ≤ bound) :
    (unlines texts).length ≤ texts.length * bound := by
  have hparts : ∀ line ∈ texts, (line ++ ['\n']).length ≤ bound + [()].length * 0 := by
    simpa using h
  simpa [unlines] using length_flatMap_le hparts

theorem length_slots_le (h : Fits routes) : (slots routes).length ≤ 512 := by
  have hroutes := h.routes_le
  have hparts : ∀ entry ∈ routes.zipIdx,
      ((List.range entry.1.upstreams.length).map (entry.2, ·)).length ≤ 16 + [()].length * 0 := by
    intro entry hentry
    rw [List.length_map, List.length_range]
    exact h.upstreams_le _ (List.mem_of_getElem? (List.mem_zipIdx_iff_getElem?.mp hentry))
  have hwhole := length_flatMap_le hparts
  rw [List.length_zipIdx] at hwhole
  unfold slots
  omega

theorem length_allSeries_le (h : Fits routes) : (allSeries routes).length ≤ 1033 := by
  have hslots := length_slots_le h
  have hsplit : allSeries routes = SeriesName.all.flatMap fun name =>
      (labels routes name).map (seriesText name) := rfl
  rw [hsplit, List.length_flatMap]
  simp only [SeriesName.all, List.map_cons, List.map_nil, List.length_map, List.sum_cons,
    List.sum_nil, labels, List.length_range, List.length_cons, List.length_nil]
  have hrejections : rejectionNames.length = 4 := rfl
  have hfailures : failureStages.length = 8 := rfl
  omega

theorem length_text_le (h : Fits routes) (hplain : ∀ name, ∀ p ∈ samples x routes name, Plain p) :
    (unlines (lines x routes)).length ≤ maxOutputBytes := by
  have hseries := length_allSeries_le h
  have hsamples : (blocks.flatMap fun block => block.2.flatMap (sampleLines x routes)).length
      = (allSeries routes).length := by
    have hnames : (blocks.flatMap fun block => block.2.flatMap (sampleLines x routes))
        = SeriesName.all.flatMap (sampleLines x routes) := by
      rw [← blocks_names, List.flatMap_assoc]
    unfold allSeries
    rw [hnames, List.length_flatMap, List.length_flatMap]
    refine congrArg List.sum (List.map_congr_left fun name _ => ?_)
    unfold sampleLines
    rw [List.length_map, List.length_map, ← samples_labels x, List.length_map]
  have hblock : ∀ block ∈ blocks, (unlines (blockLines x routes block)).length
      ≤ 460 + (block.2.flatMap (sampleLines x routes)).length * 107 := by
    intro block hblock
    rw [show block = (block.1, block.2) from rfl, unlines_block, List.length_append]
    refine Nat.add_le_add (length_comments (List.mem_map_of_mem hblock))
      (length_unlines_le fun line hline => ?_)
    obtain ⟨name, -, hmem⟩ := List.mem_flatMap.mp hline
    obtain ⟨p, hp, rfl⟩ := List.mem_map.mp hmem
    exact sampleLine_length name (hplain name p hp)
  have hwhole := length_flatMap_le hblock
  rw [hsamples, unlines_flatMap, show blocks.length = 11 from rfl] at hwhole
  unfold lines maxOutputBytes
  omega

end

/-! ## Every scrape -/

/-- A number of the type `D` is written in at most 24 characters, on one line. -/
def WritesNumbers {D : Type} (toChars : D → Option Text) : Prop :=
  ∀ d, ∃ text, toChars d = some text ∧ text.length ≤ 24 ∧ '\n' ∉ text

/-- A text of whole lines, in which the time series of a configuration stand once each, behind
the comments of their families. -/
structure WellFormed (routes : List RouteConfig) (text : Text) (lines : List Text) : Prop where
  length_le : text.length ≤ 131072
  text_eq : text = lines.flatMap (· ++ ['\n'])
  unbroken : ∀ line ∈ lines, '\n' ∉ line
  series_eq : lines.filterMap seriesOf = allSeries routes
  nodup : (lines.filterMap seriesOf).Nodup
  ordered : ∀ before line after series, lines = before ++ line :: after →
    seriesOf line = some series →
    ∃ f ∈ blocks.map Prod.fst, Belongs f series ∧ helpLine f ∈ before ∧ typeLine f ∈ before
  slot_iff : ∀ r u, slotSeries r u ∈ lines.filterMap seriesOf
    ↔ ∃ route, routes[r]? = some route ∧ u < route.upstreams.length
  slot_only : ∀ series ∈ lines.filterMap seriesOf,
    nameOf series = "apigate_upstream_available".toList → ∃ r u, series = slotSeries r u

theorem wellFormed_lines {x : Scrape} {routes : List RouteConfig} (h : Fits routes)
    (hlength : x.sum.length ≤ 24) (hsum : '\n' ∉ x.sum) :
    WellFormed routes (unlines (lines x routes)) (lines x routes) := by
  have hplain := plain_samples h hlength hsum
  have hseries := filterMap_lines hplain
  refine ⟨length_text_le h hplain, rfl, lines_unbroken hplain, hseries, ?_, ?_, ?_, ?_⟩
  · rw [hseries]
    exact series_nodup routes
  · intro before line after series hsplit hline
    exact lines_ordered hplain hsplit hline
  · intro r u
    rw [hseries]
    exact slotSeries_mem_iff r u
  · intro series hmem hname
    rw [hseries] at hmem
    exact slotSeries_of_name hmem hname

/-- For every configuration within the limits, all values of the counters and gauges and every
history of the health checks, the metrics are rendered, bounded and well formed. -/
theorem render_bounded {D : Type} (toChars : D → Option Text) (hchars : WritesNumbers toChars)
    (m : Metrics) (processingSum : D) (config : AppConfig) (hroutes : config.routes.length ≤ 32)
    (hupstreams : ∀ route ∈ config.routes, route.upstreams.length ≤ 16)
    (connections : AcceptCapacityState) (proxies : ProxyAdmissionState)
    (budget : BufferBudgetControl) (history : List HealthResult) :
    ∃ text lines, m.render toChars processingSum config connections proxies budget
        (UpstreamHealthState.recordAll (UpstreamHealthState.make config.routes) history) = .ok text
      ∧ WellFormed config.routes text lines := by
  obtain ⟨sum, hsum, hlength, hbreak⟩ := hchars processingSum
  have hfits : Fits config.routes := ⟨hroutes, hupstreams⟩
  let x : Scrape := { metrics := m, sum, connections, proxies, budget,
                      health := UpstreamHealthState.recordAll
                        (UpstreamHealthState.make config.routes) history }
  have hwell : WellFormed config.routes (unlines (lines x config.routes)) (lines x config.routes) :=
    wellFormed_lines hfits hlength hbreak
  have hprints : Prints (renderFamilies toChars m processingSum config connections proxies budget
      x.health) (unlines (lines x config.routes)) :=
    prints_families (x := x) hsum hupstreams (covers_recordAll config.routes history)
  refine ⟨_, _, ?_, hwell⟩
  unfold render
  rw [if_neg (Nat.not_lt.mpr hroutes), hprints.run hwell.length_le]
  rfl

/-- The sum is zero, which is written as one digit; one route with one slot. -/
theorem render_bounded_one_slot :
    ∃ text lines, ({} : Metrics).render (fun _ : Unit => some ['0']) ()
        { routes := [{ routePrefix := ['/'], upstreams := [⟨['a'], 80, 3000, .http⟩] }] }
        { maxConnections := 256 } { maxProxies := 32 } { maxBytes := 67108864 }
        (UpstreamHealthState.recordAll (UpstreamHealthState.make
          [{ routePrefix := ['/'], upstreams := [⟨['a'], 80, 3000, .http⟩] }]) []) = .ok text
      ∧ WellFormed [{ routePrefix := ['/'], upstreams := [⟨['a'], 80, 3000, .http⟩] }] text
          lines := by
  have hchars : WritesNumbers fun _ : Unit => some ['0'] :=
    fun _ => ⟨['0'], rfl, by decide, by decide⟩
  exact render_bounded _ hchars {} ()
    { routes := [{ routePrefix := ['/'], upstreams := [⟨['a'], 80, 3000, .http⟩] }] } (by decide)
    (by decide) { maxConnections := 256 } { maxProxies := 32 } { maxBytes := 67108864 } []

end Metrics

end ApiGate
