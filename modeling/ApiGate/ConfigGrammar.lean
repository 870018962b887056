import ApiGate.ConfigText

/-!
# Hostnames and prefixes against their grammars

Two scanners of `config.cpp`, each against a description that cuts the text at its
separator and looks at the pieces one by one. The scanner of hostnames keeps three
scalars about the label it is in (`scanOf`); the loop over the segments of a prefix
keeps a position, and the segments that are left are those of the text behind it.
-/

namespace ApiGate

namespace ConfigText

/-! ## Hostnames -/

def LabelCharacter (c : Char) : Prop :=
  ('a' ≤ c ∧ c ≤ 'z') ∨ ('A' ≤ c ∧ c ≤ 'Z') ∨ ('0' ≤ c ∧ c ≤ '9') ∨ c = '-'

/-- Letters, digits and hyphens, at most 63 of them, and no hyphen at either end. -/
structure LdhLabel (label : Text) : Prop where
  nonempty : label ≠ []
  short : label.length ≤ 63
  characters : ∀ c ∈ label, LabelCharacter c
  first : label.head? ≠ some '-'
  last : label.getLast? ≠ some '-'

def IsHostname (value : Text) : Prop :=
  value.length ≤ 253 ∧ ∀ label ∈ value.splitOn '.', LdhLabel label

/-- What the scanner knows of the part of a label that it has seen; `before` is the
character in front of the label. -/
def scanOf (before : Char) (label : Text) : LabelScan where
  labelLength := label.length
  labelStartsWithHyphen := decide (label.head? = some '-')
  previous := label.getLast?.getD before

theorem labelCharacter_iff {c : Char} : (isAlnum c || c = '-') = true ↔ LabelCharacter c := by
  simp [isAlnum, LabelCharacter, or_assoc]

theorem not_labelCharacter_dot : ¬LabelCharacter '.' := by
  unfold LabelCharacter
  decide

theorem scanCharacter_in_label {before c : Char} {label : Text} (hdot : c ≠ '.') :
    scanCharacter (scanOf before label) c
      = if isAlnum c || c = '-' then .ok (scanOf before (label ++ [c])) else .error hostnameError := by
  unfold scanCharacter
  rw [if_neg hdot]
  cases label with
  | nil => simp [scanOf]
  | cons first rest =>
      rw [show scanOf before (first :: rest ++ [c])
        = { scanOf before (first :: rest) with labelLength := rest.length + 2, previous := c } by
          simp [scanOf, List.getLast?_cons]]
      rfl

theorem scanCharacter_dot {before : Char} {label : Text} :
    scanCharacter (scanOf before label) '.'
      = if (scanOf before label).rejects then .error hostnameError else .ok (scanOf '.' []) := by
  unfold scanCharacter
  rw [if_pos rfl]
  rfl

theorem rejects_eq_false_iff {s : LabelScan} : s.rejects = false
    ↔ s.labelLength ≠ 0 ∧ s.labelLength ≤ 63 ∧ s.labelStartsWithHyphen = false
      ∧ s.previous ≠ '-' := by
  simp [LabelScan.rejects, and_assoc]

/-- At the end of a label the scalars decide. -/
theorem rejects_scanOf {b : Char} {label : Text} (h : ∀ c ∈ label, LabelCharacter c) :
    (scanOf b label).rejects = false ↔ LdhLabel label := by
  rw [rejects_eq_false_iff]
  simp only [scanOf, decide_eq_false_iff_not]
  constructor
  · rintro ⟨hne, hshort, hfirst, hlast⟩
    refine ⟨fun hnil => hne (by simp [hnil]), hshort, h, hfirst, fun heq => hlast ?_⟩
    rw [heq, Option.getD_some]
  · rintro ⟨hne, hshort, -, hfirst, hlast⟩
    refine ⟨fun hzero => hne (List.length_eq_zero_iff.mp hzero), hshort, hfirst, fun heq => ?_⟩
    have hget : label.getLast? = some (label.getLast hne) := List.getLast?_eq_some_getLast hne
    rw [hget, Option.getD_some] at heq
    exact hlast (hget.trans (congrArg some heq))

/-- A character that does not cut stays in the piece that has begun. -/
theorem mem_piece {label : Text} (hlabel : '.' ∉ label) {c : Char} (hc : c ∈ label) (rest : Text) :
    ∃ piece ∈ (label ++ rest).splitOn '.', c ∈ piece := by
  by_cases hdot : '.' ∈ rest
  · obtain ⟨more, after, rfl, hmore⟩ := List.eq_append_cons_of_mem hdot
    have hfirst : '.' ∉ label ++ more := by
      rw [List.mem_append]
      exact not_or.mpr ⟨hlabel, hmore⟩
    rw [← List.append_assoc, List.splitOn_append_cons_self_of_not_mem hfirst]
    exact ⟨label ++ more, List.mem_cons_self .., List.mem_append_left _ hc⟩
  · have hwhole : '.' ∉ label ++ rest := by
      rw [List.mem_append]
      exact not_or.mpr ⟨hlabel, hdot⟩
    rw [List.splitOn_eq_singleton hwhole]
    exact ⟨label ++ rest, List.mem_singleton_self _, List.mem_append_left _ hc⟩

/-- The scanner inside a label, and the check behind the loop. -/
theorem scan_iff {label : Text} (hlabel : ∀ c ∈ label, LabelCharacter c) (before : Char)
    (rest : Text) :
    (∃ s, EventLoop.feed scanCharacter (scanOf before label) rest = .ok s ∧ s.rejects = false)
      ↔ ∀ piece ∈ (label ++ rest).splitOn '.', LdhLabel piece := by
  have hdotless : '.' ∉ label := fun hmem => not_labelCharacter_dot (hlabel '.' hmem)
  induction rest generalizing label before with
  | nil =>
      rw [List.append_nil, List.splitOn_eq_singleton hdotless]
      simp only [List.mem_singleton, forall_eq]
      rw [← rejects_scanOf (b := before) hlabel]
      constructor
      · rintro ⟨s, hs, hrejects⟩
        cases hs
        exact hrejects
      · exact fun hrejects => ⟨_, rfl, hrejects⟩
  | cons c rest ih =>
      rw [EventLoop.feed_cons]
      by_cases hdot : c = '.'
      · subst hdot
        rw [List.splitOn_append_cons_self_of_not_mem hdotless, List.forall_mem_cons,
          ← rejects_scanOf (b := before) hlabel, scanCharacter_dot]
        have hnone : ∀ c ∈ ([] : Text), LabelCharacter c := List.forall_mem_nil _
        have hrest := ih hnone '.' List.not_mem_nil
        cases (scanOf before label).rejects with
        | true => simp [Except.bind]
        | false => simpa [Except.bind] using hrest
      · have hgrown : '.' ∉ label ++ [c] := by
          rw [List.mem_append, List.mem_singleton]
          exact not_or.mpr ⟨hdotless, fun heq => hdot heq.symm⟩
        rw [scanCharacter_in_label hdot, show label ++ c :: rest = label ++ [c] ++ rest by simp]
        split
        · rename_i hchar
          have hcharacters : ∀ d ∈ label ++ [c], LabelCharacter d := by
            intro d hd
            rcases List.mem_append.mp hd with hd | hd
            · exact hlabel d hd
            · rw [List.mem_singleton.mp hd]
              exact labelCharacter_iff.mp hchar
          exact ih hcharacters before hgrown
        · rename_i hchar
          -- a piece with this character is no label
          refine iff_of_false (by simp [Except.bind]) fun hall => hchar ?_
          obtain ⟨piece, hpiece, hmem⟩ := mem_piece hgrown (by simp : c ∈ label ++ [c]) rest
          exact labelCharacter_iff.mpr ((hall piece hpiece).characters c hmem)

/-- At a dot at either end there is an empty piece. -/
theorem not_isHostname_of_dot {value : Text}
    (h : value.head? = some '.' ∨ value.getLast? = some '.') : ¬IsHostname value := by
  rintro ⟨-, hall⟩
  suffices hpiece : [] ∈ value.splitOn '.' from (hall [] hpiece).nonempty rfl
  rcases h with hfirst | hlast
  · obtain ⟨rest, rfl⟩ := List.head?_eq_some_iff.mp hfirst
    rw [List.splitOn_cons_eq_if_modifyHead, if_pos (by simp)]
    exact List.mem_cons_self ..
  · obtain ⟨rest, rfl⟩ := List.getLast?_eq_some_iff.mp hlast
    rw [List.splitOn_append_cons_self, List.splitOn_nil]
    exact List.mem_append_right _ (List.mem_singleton_self _)

theorem validateDnsHostname_iff (value : Text) :
    validateDnsHostname value = .ok () ↔ IsHostname value := by
  have hnone : ∀ c ∈ ([] : Text), LabelCharacter c := List.forall_mem_nil _
  have hscan := scan_iff hnone (Char.ofNat 0) value
  rw [List.nil_append] at hscan
  unfold validateDnsHostname
  by_cases hends : value.head? = some '.' ∨ value.getLast? = some '.'
  · rw [if_pos (by simpa [or_assoc] using Or.inr hends)]
    exact iff_of_false (by simp) (not_isHostname_of_dot hends)
  · by_cases hlong : value.length ≤ 253
    · rw [if_neg (by simpa [maxHostnameLength, hlong] using hends), EventLoop.bind_eq_ok]
      unfold IsHostname
      rw [← hscan, and_iff_right hlong]
      refine exists_congr fun s => and_congr_right fun _ => ?_
      cases s.rejects <;> simp
    · have htoolong : value.length > maxHostnameLength := Nat.lt_of_not_le hlong
      rw [if_pos (by simp [htoolong])]
      exact iff_of_false (by simp) fun h => hlong h.1

/-! ## Prefixes -/

def SegmentCharacter (c : Char) : Prop :=
  ('a' ≤ c ∧ c ≤ 'z') ∨ ('A' ≤ c ∧ c ≤ 'Z') ∨ ('0' ≤ c ∧ c ≤ '9') ∨ c = '-' ∨ c = '.' ∨ c = '_'
    ∨ c = '~'

structure Segment (segment : Text) : Prop where
  nonempty : segment ≠ []
  characters : ∀ c ∈ segment, SegmentCharacter c
  notDot : segment ≠ ['.']
  notDots : segment ≠ ['.', '.']

/-- `/`, or segments that each have a `/` in front. -/
def IsPrefix (text : Text) : Prop :=
  text = ['/'] ∨ ∃ segments, segments ≠ [] ∧ (∀ segment ∈ segments, Segment segment)
    ∧ text = segments.flatMap fun segment => '/' :: segment

theorem isSegment_iff {segment : Text} : isSegment segment = true ↔ Segment segment := by
  have hchar : ∀ c, isSegmentCharacter c = true ↔ SegmentCharacter c := by
    intro c
    simp [isSegmentCharacter, SegmentCharacter, or_assoc]
  unfold isSegment
  simp only [Bool.not_eq_true', Bool.or_eq_false_iff, Bool.not_eq_false', List.all_eq_true, hchar,
    decide_eq_false_iff_not, List.isEmpty_eq_false_iff]
  constructor
  · rintro ⟨⟨⟨hne, hdot⟩, hdots⟩, hall⟩
    exact ⟨hne, hall, hdot, hdots⟩
  · rintro ⟨hne, hall, hdot, hdots⟩
    exact ⟨⟨⟨hne, hdot⟩, hdots⟩, hall⟩

/-- Up to the separator that was found there is none. -/
theorem findFrom_eq_some {text : Text} {c : Char} {start stop : Nat}
    (h : findFrom text c start = some stop) :
    c ∉ substr text start (some (stop - start))
      ∧ text.drop start = substr text start (some (stop - start)) ++ c :: text.drop (stop + 1) := by
  obtain ⟨n, hn, rfl⟩ := Option.map_eq_some_iff.mp h
  obtain ⟨hlt, hfound, hbefore⟩ := List.findIdx?_eq_some_iff_getElem.mp hn
  simp only [decide_eq_true_eq] at hfound hbefore
  rw [Nat.add_sub_cancel, substr]
  constructor
  · intro hmem
    obtain ⟨j, hj, heq⟩ := List.mem_iff_getElem.mp hmem
    rw [List.getElem_take] at heq
    rw [List.length_take] at hj
    exact hbefore j (Nat.lt_of_lt_of_le hj (Nat.min_le_left ..)) heq
  · rw [show n + start + 1 = start + (n + 1) by omega, ← List.drop_drop, ← hfound,
      ← List.drop_eq_getElem_cons hlt, List.take_append_drop]

theorem findFrom_lt {text : Text} {c : Char} {start stop : Nat}
    (h : findFrom text c start = some stop) : stop + 1 ≤ text.length := by
  obtain ⟨n, hn, rfl⟩ := Option.map_eq_some_iff.mp h
  obtain ⟨hlt, -, -⟩ := List.findIdx?_eq_some_iff_getElem.mp hn
  rw [List.length_drop] at hlt
  omega

theorem findFrom_eq_none {text : Text} {c : Char} {start : Nat}
    (h : findFrom text c start = none) : c ∉ text.drop start := by
  have hnone := Option.map_eq_none_iff.mp h
  rw [List.findIdx?_eq_none_iff] at hnone
  intro hmem
  simpa using hnone c hmem

/-- From a position on, the loop looks at the segments that are left. -/
theorem checkSegments_iff {routePrefix : Text} {start : Nat} (h : start ≤ routePrefix.length) :
    checkSegments routePrefix start = .ok ()
      ↔ ∀ segment ∈ (routePrefix.drop start).splitOn '/', Segment segment := by
  fun_induction checkSegments routePrefix start with
  | case1 start _ hfind hsegment =>
      rw [List.splitOn_eq_singleton (findFrom_eq_none hfind), List.forall_mem_singleton]
      exact iff_of_true rfl (isSegment_iff.mp hsegment)
  | case2 start _ hfind hsegment =>
      rw [List.splitOn_eq_singleton (findFrom_eq_none hfind), List.forall_mem_singleton]
      exact iff_of_false (by simp) fun hs => hsegment (isSegment_iff.mpr hs)
  | case3 start _ stop hfind hsegment ih =>
      obtain ⟨hnot, hsplit⟩ := findFrom_eq_some hfind
      rw [hsplit, List.splitOn_append_cons_self_of_not_mem hnot, List.forall_mem_cons,
        and_iff_right (isSegment_iff.mp hsegment)]
      exact ih (findFrom_lt hfind)
  | case4 start _ stop hfind hsegment =>
      obtain ⟨hnot, hsplit⟩ := findFrom_eq_some hfind
      rw [hsplit, List.splitOn_append_cons_self_of_not_mem hnot, List.forall_mem_cons]
      exact iff_of_false (by simp) fun hs => hsegment (isSegment_iff.mpr hs.1)
  | case5 start hnot => exact absurd h hnot

theorem Segment.no_separator {segment : Text} (h : Segment segment) : '/' ∉ segment := by
  intro hmem
  have hbad := h.characters '/' hmem
  revert hbad
  unfold SegmentCharacter
  decide

/-- Segments one after the other, each behind a `/`. -/
theorem flatMap_segments {segments : List Text} (h : segments ≠ []) :
    (segments.flatMap fun segment => '/' :: segment) = '/' :: ['/'].intercalate segments := by
  induction segments with
  | nil => exact absurd rfl h
  | cons segment rest ih =>
      cases rest with
      | nil => simp
      | cons next rest =>
          rw [List.flatMap_cons, ih (by simp), List.intercalate_cons_cons]
          simp

/-- Cut at its separators, such a text has nothing in front of the first one. -/
theorem splitOn_segments {segments : List Text} (h : segments ≠ [])
    (hall : ∀ segment ∈ segments, Segment segment) :
    (segments.flatMap fun segment => '/' :: segment).splitOn '/' = [] :: segments := by
  have hjoin : (segments.flatMap fun segment => '/' :: segment)
      = ['/'].intercalate ([] :: segments) := by
    rw [flatMap_segments h, List.intercalate_cons_of_ne_nil h]
    rfl
  rw [hjoin, List.splitOn_intercalate '/' ?_ (by simp)]
  intro piece hpiece
  rcases List.mem_cons.mp hpiece with rfl | hpiece
  · simp
  · exact (hall piece hpiece).no_separator

theorem isPrefix_cons_iff {body : Text} (h : body ≠ []) :
    IsPrefix ('/' :: body) ↔ ∀ segment ∈ body.splitOn '/', Segment segment := by
  constructor
  · rintro (hroot | ⟨segments, hne, hall, heq⟩)
    · exact absurd (List.cons.inj hroot).2 h
    · have hsplit := congrArg (List.splitOn '/') heq
      rw [splitOn_segments hne hall, List.splitOn_cons_eq_if_modifyHead, if_pos (by simp)] at hsplit
      rw [(List.cons.inj hsplit).2]
      exact hall
  · intro hall
    refine Or.inr ⟨body.splitOn '/', List.splitOn_ne_nil _ _, hall, ?_⟩
    rw [flatMap_segments (List.splitOn_ne_nil _ _), List.intercalate_splitOn]

theorem validateRoutePrefix_iff (text : Text) :
    validateRoutePrefix text = .ok () ↔ IsPrefix text := by
  unfold validateRoutePrefix
  rw [show "/".toList = ['/'] from rfl]
  by_cases hslash : text.head? = some '/'
  · obtain ⟨body, rfl⟩ := List.head?_eq_some_iff.mp hslash
    rw [if_neg (by simp)]
    by_cases hbody : body = []
    · rw [hbody, if_pos rfl]
      exact iff_of_true rfl (Or.inl rfl)
    · rw [if_neg (fun heq => hbody (List.cons.inj heq).2), checkSegments_iff (by simp),
        isPrefix_cons_iff hbody]
      rfl
  · rw [if_pos (by simp [hslash])]
    refine iff_of_false (by simp) ?_
    rintro (rfl | ⟨segments, hne, -, rfl⟩)
    · exact hslash rfl
    · rw [flatMap_segments hne] at hslash
      exact hslash rfl

/-- A piece between two separators, or behind the last one, is a segment. -/
theorem IsPrefix.no_empty {before after : Text} (h : IsPrefix (before ++ '/' :: after))
    (hroot : before ++ '/' :: after ≠ ['/']) : [] ∉ after.splitOn '/' := by
  intro hmem
  rcases h with heq | ⟨segments, hne, hall, heq⟩
  · exact hroot heq
  · have hsplit := congrArg (List.splitOn '/') heq
    rw [splitOn_segments hne hall, List.splitOn_append_cons_self] at hsplit
    obtain ⟨first, rest, hfirst⟩ := List.exists_cons_of_ne_nil (List.splitOn_ne_nil '/' before)
    rw [hfirst] at hsplit
    have hsegments : rest ++ after.splitOn '/' = segments := (List.cons.inj hsplit).2
    exact (hall [] (hsegments ▸ List.mem_append_right _ hmem)).nonempty rfl

/-- `validate_route_prefix` accepts just the prefixes. So none but `/` has a `/` at its end,
or two of them together. -/
theorem route_prefix_grammar (text : Text) :
    (validateRoutePrefix text = .ok () ↔ IsPrefix text)
      ∧ (validateRoutePrefix text = .ok () → text ≠ ['/'] →
        text.getLast? ≠ some '/' ∧ ¬['/', '/'] <:+: text) := by
  refine ⟨validateRoutePrefix_iff text, fun haccepted hroot => ⟨fun hlast => ?_, ?_⟩⟩
  · obtain ⟨before, rfl⟩ := List.getLast?_eq_some_iff.mp hlast
    have hprefix := (validateRoutePrefix_iff _).mp haccepted
    exact hprefix.no_empty hroot (by simp)
  · rintro ⟨before, after, heq⟩
    have htext : text = before ++ '/' :: '/' :: after := by
      rw [← heq]
      simp
    rw [htext] at haccepted hroot
    have hprefix := (validateRoutePrefix_iff _).mp haccepted
    refine hprefix.no_empty hroot ?_
    rw [List.splitOn_cons_eq_if_modifyHead, if_pos (by simp)]
    exact List.mem_cons_self ..

end ConfigText

end ApiGate
