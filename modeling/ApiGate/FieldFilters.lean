import Mathlib.Data.List.Induction
import ApiGate.Rewrite

/-!
# What the field filters keep

Which names a Connection field nominates is said here by position in its value
(`IsElement`), against the splitting loop of the code. Beast keeps fields of one
name next to each other (`Grouped`); then inserting the fields of a message that
pass a filter by name gives them back in their order (`copyFields_eq_filter`),
and a setter whose name the filter has dropped appends.
-/

namespace ApiGate

/-! ## Elements between commas -/

/-- `element` stands between two commas, or an end of the value. -/
def IsElement (element value : Text) : Prop :=
  ∃ before after, value = before ++ element ++ after ∧ ',' ∉ element
    ∧ (before = [] ∨ ∃ b, before = b ++ [','])
    ∧ (after = [] ∨ ∃ a, after = ',' :: a)

/-- The text before the first comma. -/
def upToComma (value : Text) : Text := value.takeWhile (· ≠ ',')

theorem upToComma_append {element after : Text} (h : ',' ∉ element)
    (hafter : after = [] ∨ ∃ a, after = ',' :: a) : upToComma (element ++ after) = element := by
  have hall : ∀ c ∈ element, decide (c ≠ ',') = true := by
    intro c hc
    exact decide_eq_true fun heq => h (heq ▸ hc)
  unfold upToComma
  rw [List.takeWhile_append_of_pos hall]
  rcases hafter with rfl | ⟨a, rfl⟩
  · simp
  · simp

theorem upToComma_split (value : Text) : ',' ∉ upToComma value
    ∧ ∃ after, value = upToComma value ++ after ∧ (after = [] ∨ ∃ a, after = ',' :: a) := by
  induction value with
  | nil => exact ⟨by simp [upToComma], [], rfl, Or.inl rfl⟩
  | cons c rest ih =>
      by_cases hc : c = ','
      · subst hc
        exact ⟨by simp [upToComma], ',' :: rest, by simp [upToComma], Or.inr ⟨rest, rfl⟩⟩
      · have hcons : upToComma (c :: rest) = c :: upToComma rest := by simp [upToComma, hc]
        obtain ⟨hnot, after, heq, hafter⟩ := ih
        rw [hcons]
        refine ⟨fun hmem => ?_, after, ?_, hafter⟩
        · rcases List.mem_cons.mp hmem with h | h
          · exact hc h.symm
          · exact hnot h
        · rw [List.cons_append, ← heq]

theorem splitComma_eq (value : Text) : ∃ others, splitComma value = upToComma value :: others
    ∧ ∀ t, t ∈ others ↔ ∃ b a, value = b ++ ',' :: (t ++ a) ∧ ',' ∉ t
      ∧ (a = [] ∨ ∃ a', a = ',' :: a') := by
  induction value with
  | nil => exact ⟨[], rfl, by simp⟩
  | cons c rest ih =>
      obtain ⟨others, hsplit, hothers⟩ := ih
      by_cases hc : c = ','
      · subst hc
        refine ⟨splitComma rest, by simp [splitComma, upToComma], fun t => ?_⟩
        rw [hsplit, List.mem_cons, hothers]
        constructor
        · rintro (rfl | ⟨b, a, rfl, ht, ha⟩)
          · obtain ⟨hnot, after, heq, hafter⟩ := upToComma_split rest
            exact ⟨[], after, by rw [← heq]; rfl, hnot, hafter⟩
          · exact ⟨',' :: b, a, rfl, ht, ha⟩
        · rintro ⟨b, a, heq, ht, ha⟩
          cases b with
          | nil =>
              obtain ⟨-, rfl⟩ := List.cons.inj heq
              exact Or.inl (upToComma_append ht ha).symm
          | cons d b =>
              obtain ⟨-, rfl⟩ := List.cons.inj heq
              exact Or.inr ⟨b, a, rfl, ht, ha⟩
      · refine ⟨others, by simp [splitComma, hsplit, upToComma, hc], fun t => ?_⟩
        rw [hothers]
        constructor
        · rintro ⟨b, a, rfl, ht, ha⟩
          exact ⟨c :: b, a, rfl, ht, ha⟩
        · rintro ⟨b, a, heq, ht, ha⟩
          cases b with
          | nil => exact absurd (List.cons.inj heq).1 hc
          | cons d b =>
              obtain ⟨-, rfl⟩ := List.cons.inj heq
              exact ⟨b, a, rfl, ht, ha⟩

/-- The pieces of the loop are the elements. -/
theorem mem_splitComma {t value : Text} : t ∈ splitComma value ↔ IsElement t value := by
  obtain ⟨others, hsplit, hothers⟩ := splitComma_eq value
  rw [hsplit, List.mem_cons, hothers]
  constructor
  · rintro (rfl | ⟨b, a, rfl, ht, ha⟩)
    · obtain ⟨hnot, after, heq, hafter⟩ := upToComma_split value
      exact ⟨[], after, heq, hnot, Or.inl rfl, hafter⟩
    · exact ⟨b ++ [','], a, by simp, ht, Or.inr ⟨b, rfl⟩, ha⟩
  · rintro ⟨before, a, rfl, ht, rfl | ⟨b, rfl⟩, ha⟩
    · exact Or.inl (upToComma_append ht ha).symm
    · exact Or.inr ⟨b, a, by simp, ht, ha⟩

/-- A Connection field lists `name`. -/
def Nominated (fields : Fields) (name : Text) : Prop :=
  name ≠ [] ∧ ∃ f ∈ fields, lowercase f.name = "connection".toList
    ∧ ∃ element, IsElement element f.value ∧ lowercase (trim element) = lowercase name

theorem lowercase_eq_nil {value : Text} : lowercase value = [] ↔ value = [] := by
  unfold lowercase
  exact List.map_eq_nil_iff

/-- The set of tokens holds the nominated names. -/
theorem mem_connectionTokens {fields : Fields} {name : Text} :
    lowercase name ∈ connectionTokens fields ↔ Nominated fields name := by
  unfold connectionTokens Nominated Fields.equalRange
  rw [List.mem_flatMap]
  constructor
  · rintro ⟨f, hf, htoken⟩
    obtain ⟨hmem, hconnection⟩ := List.mem_filter.mp hf
    obtain ⟨hmap, hne⟩ := List.mem_filter.mp htoken
    obtain ⟨element, helement, heq⟩ := List.mem_map.mp hmap
    refine ⟨fun hnil => ?_, f, hmem, of_decide_eq_true hconnection, element,
      mem_splitComma.mp helement, heq⟩
    rw [hnil] at hne
    cases hne
  · rintro ⟨hne, f, hmem, hconnection, element, helement, heq⟩
    refine ⟨f, List.mem_filter.mpr ⟨hmem, decide_eq_true hconnection⟩,
      List.mem_filter.mpr ⟨List.mem_map.mpr ⟨element, mem_splitComma.mpr helement, heq⟩, ?_⟩⟩
    cases hlower : lowercase name with
    | nil => exact absurd (lowercase_eq_nil.mp hlower) hne
    | cons => rfl

/-! ## Field lists -/

namespace Fields

/-- Fields of one name stand next to each other. -/
def Grouped (fs : Fields) : Prop :=
  ∀ before f mid g after, fs = before ++ f :: (mid ++ g :: after) →
    lowercase f.name = lowercase g.name → ∀ x ∈ mid, lowercase x.name = lowercase f.name

variable {fs : Fields}

theorem Grouped.of_append {rest : Fields} (h : Grouped (fs ++ rest)) : Grouped fs := by
  intro before f mid g after heq
  exact h before f mid g (after ++ rest) (by rw [heq]; simp)

theorem has_eq_true {name : Text} : fs.has name = true ↔ ∃ f ∈ fs, lowercase f.name = name := by
  simp [has, Field.named]

theorem has_eq_false {name : Text} : fs.has name = false ↔ ∀ f ∈ fs, lowercase f.name ≠ name := by
  simp [has, Field.named]

theorem Grouped.nil : Grouped [] := by
  intro before f mid g after heq
  simp at heq

/-- A field may come in front of its group, or of a list without its name. -/
theorem Grouped.cons {f : Field} (h : fs.Grouped) (hf : fs.has (lowercase f.name) = false
    ∨ ∃ g, fs.head? = some g ∧ lowercase g.name = lowercase f.name) : Grouped (f :: fs) := by
  intro before a mid b after heq hname
  cases before with
  | cons c before =>
      obtain ⟨-, rfl⟩ := List.cons.inj heq
      exact h before a mid b after rfl hname
  | nil =>
      obtain ⟨rfl, rfl⟩ := List.cons.inj heq
      rcases hf with habsent | ⟨g, hhead, hg⟩
      · exact absurd hname.symm (has_eq_false.mp habsent b (by simp))
      · cases mid with
        | nil => simp
        | cons x mid =>
            obtain rfl := Option.some.inj hhead
            intro y hy
            rcases List.mem_cons.mp hy with rfl | hy
            · exact hg
            · exact (h [] x mid b after rfl (hg.trans hname) y hy).trans hg

/-- In front of a field of its name stands one of the same name, or none does. -/
theorem Grouped.last {f : Field} (h : Grouped (fs ++ [f])) :
    fs.has (lowercase f.name) = false
      ∨ ∃ g, fs.getLast? = some g ∧ lowercase g.name = lowercase f.name := by
  by_cases hhas : fs.has (lowercase f.name) = true
  · obtain ⟨g, hmem, hname⟩ := has_eq_true.mp hhas
    obtain ⟨before, mid, rfl⟩ := List.append_of_mem hmem
    have hmid := h before g mid f [] (by simp) hname
    refine Or.inr ?_
    cases hlast : mid.getLast? with
    | none =>
        obtain rfl := List.getLast?_eq_none_iff.mp hlast
        exact ⟨g, by simp, hname⟩
    | some x =>
        refine ⟨x, ?_, (hmid x (List.mem_of_getLast? hlast)).trans hname⟩
        rw [List.getLast?_append, List.getLast?_cons, hlast]
        rfl
  · exact Or.inl (Bool.not_eq_true _ ▸ hhas)

theorem insertAfterLast_eq {f : Field} (h : fs.has (lowercase f.name) = false
    ∨ ∃ g, fs.getLast? = some g ∧ lowercase g.name = lowercase f.name) :
    insertAfterLast f fs = fs ++ [f] := by
  induction fs with
  | nil => rfl
  | cons g rest ih =>
      unfold insertAfterLast
      rcases h with hnone | ⟨x, hlast, hname⟩
      · have hg : g.named (lowercase f.name) = false := by
          rw [Field.named, decide_eq_false_iff_not]
          exact has_eq_false.mp hnone g (List.mem_cons_self ..)
        have hrest : has rest (lowercase f.name) = false :=
          has_eq_false.mpr fun y hy => has_eq_false.mp hnone y (List.mem_cons_of_mem _ hy)
        rw [if_neg (by simp [hg]), ih (Or.inl hrest)]
        rfl
      · cases rest with
        | nil =>
            obtain rfl : g = x := Option.some.inj hlast
            rw [if_pos (by simp [Field.named, hname, has])]
            rfl
        | cons y rest =>
            rw [List.getLast?_cons_cons] at hlast
            have hhas : has (y :: rest) (lowercase f.name) = true :=
              has_eq_true.mpr ⟨x, List.mem_of_getLast? hlast, hname⟩
            rw [if_neg (by simp [hhas]), ih (Or.inr ⟨x, hlast, hname⟩)]
            rfl

/-- A setter of a field that is not there appends it. -/
theorem set_of_absent {name value : Text} (h : fs.has (lowercase name) = false) :
    fs.set name value = fs ++ [⟨name, value⟩] := by
  unfold set erase
  rw [List.filter_eq_self.mpr]
  intro f hf
  rw [Bool.not_eq_true', Field.named, decide_eq_false_iff_not]
  exact has_eq_false.mp h f hf

theorem erase_of_absent {name : Text} (h : fs.has name = false) : fs.erase name = fs := by
  unfold erase
  rw [List.filter_eq_self]
  intro f hf
  rw [Bool.not_eq_true', Field.named, decide_eq_false_iff_not]
  exact has_eq_false.mp h f hf

theorem value_of_absent {name : Text} (h : fs.has name = false) : fs.value name = [] := by
  unfold value
  have hfind : fs.find? (Field.named name) = none := by
    rw [List.find?_eq_none]
    intro f hf
    rw [Field.named, decide_eq_true_iff]
    exact has_eq_false.mp h f hf
  rw [hfind]

theorem has_append {rest : Fields} {name : Text} :
    (fs ++ rest).has name = (fs.has name || rest.has name) := by
  unfold has
  exact List.any_append

theorem has_singleton (f : Field) (name : Text) :
    has [f] name = decide (lowercase f.name = name) := by
  simp [has, Field.named]

end Fields

/-! ### The lists that `insert` builds -/

namespace Fields

variable {fs : Fields}

theorem grouped_cons {f : Field} : Grouped (f :: fs) ↔ fs.Grouped
    ∧ (fs.has (lowercase f.name) = false
      ∨ ∃ g, fs.head? = some g ∧ lowercase g.name = lowercase f.name) := by
  refine ⟨fun h => ⟨?_, ?_⟩, fun h => h.1.cons h.2⟩
  · intro before a mid b after heq
    exact h (f :: before) a mid b after (by rw [heq]; rfl)
  · by_cases hhas : fs.has (lowercase f.name) = true
    · obtain ⟨b, hmem, hname⟩ := has_eq_true.mp hhas
      obtain ⟨mid, after, rfl⟩ := List.append_of_mem hmem
      have hmid := h [] f mid b after rfl hname.symm
      refine Or.inr ?_
      cases mid with
      | nil => exact ⟨b, rfl, hname⟩
      | cons x mid => exact ⟨x, rfl, hmid x (List.mem_cons_self ..)⟩
    · exact Or.inl (Bool.not_eq_true _ ▸ hhas)

theorem Grouped.insertAfterLast (h : fs.Grouped) (f : Field) :
    Grouped (Fields.insertAfterLast f fs) := by
  induction fs with
  | nil => exact .cons .nil (Or.inl rfl)
  | cons g rest ih =>
      obtain ⟨hrest, hg⟩ := grouped_cons.mp h
      unfold Fields.insertAfterLast
      split
      · rename_i hlast
        rw [Bool.and_eq_true, Field.named, decide_eq_true_iff, Bool.not_eq_true'] at hlast
        exact .cons (.cons hrest (Or.inl hlast.2)) (Or.inr ⟨f, rfl, hlast.1.symm⟩)
      · rename_i hmore
        refine .cons (ih hrest) ?_
        rcases hg with habsent | ⟨x, hhead, hname⟩
        · -- `f` has another name, since nothing behind `g` has its name
          refine Or.inl (has_eq_false.mpr fun y hy heq => ?_)
          have hinsert : y ∈ insert rest f.name f.value := hy
          rcases mem_insert hinsert with rfl | hy
          · apply hmore
            rw [Bool.and_eq_true, Field.named, decide_eq_true_iff, Bool.not_eq_true']
            exact ⟨heq.symm, heq ▸ habsent⟩
          · exact has_eq_false.mp habsent y hy heq
        · obtain ⟨rest', rfl⟩ : ∃ rest', rest = x :: rest' :=
            ⟨rest.tail, List.eq_cons_of_mem_head? hhead⟩
          refine Or.inr ⟨x, ?_, hname⟩
          unfold Fields.insertAfterLast
          split <;> rfl

/-- What a parser stores of the lines it reads. -/
def stored (lines : List Field) : Fields := copyFields (fun _ => false) lines

/-- Whatever the lines, their names end up in groups. -/
theorem stored_grouped (lines : List Field) : (stored lines).Grouped := by
  unfold stored copyFields
  suffices h : ∀ fs : Fields, fs.Grouped → (lines.foldl (fun kept f =>
      if (fun _ => false) f then kept else kept.insert f.name f.value) fs).Grouped from
    h [] .nil
  induction lines with
  | nil => exact fun fs h => h
  | cons f lines ih =>
      intro fs h
      exact ih _ (h.insertAfterLast _)

end Fields

/-- A filter that looks at names only, over grouped fields: what it keeps comes out in
order. -/
theorem copyFields_eq_filter {drop : Field → Bool} {source : Fields} (h : source.Grouped)
    (hdrop : ∀ f g : Field, lowercase f.name = lowercase g.name → drop f = drop g) :
    copyFields drop source = source.filter fun f => !drop f := by
  induction source using List.reverseRecOn with
  | nil => rfl
  | append_singleton source f ih =>
      have hcopy : copyFields drop (source ++ [f])
          = if drop f then copyFields drop source
            else (copyFields drop source).insert f.name f.value := by
        unfold copyFields
        rw [List.foldl_append]
        rfl
      rw [hcopy, ih h.of_append, List.filter_append]
      cases hf : drop f with
      | true => simp [hf]
      | false =>
          have hlast : Fields.has (source.filter fun g => !drop g) (lowercase f.name) = false
              ∨ ∃ g, (source.filter fun g => !drop g).getLast? = some g
                ∧ lowercase g.name = lowercase f.name := by
            rcases h.last with hnone | ⟨g, hg, hname⟩
            · exact Or.inl (Fields.has_eq_false.mpr fun g hg =>
                Fields.has_eq_false.mp hnone g (List.mem_of_mem_filter hg))
            · refine Or.inr ⟨g, ?_, hname⟩
              obtain ⟨front, rfl⟩ := List.getLast?_eq_some_iff.mp hg
              rw [List.filter_append, List.filter_cons_of_pos (by rw [hdrop g f hname, hf]; rfl)]
              simp
          rw [if_neg (by simp), Fields.insert, Fields.insertAfterLast_eq hlast,
            List.filter_cons_of_pos (by simp [hf])]
          rfl

/-- A list is in groups just when it is what a parser stores. -/
theorem Fields.grouped_iff_stored {fs : Fields} : fs.Grouped ↔ ∃ lines, fs = stored lines := by
  constructor
  · intro h
    refine ⟨fs, ?_⟩
    unfold stored
    rw [copyFields_eq_filter h fun _ _ _ => rfl]
    simp
  · rintro ⟨lines, rfl⟩
    exact stored_grouped lines

/-! ## Hop-by-hop names -/

theorem isHopByHop_iff {name : Text} {fields : Fields} :
    isHopByHop name (connectionTokens fields) = true ↔
      lowercase name ∈ hopByHopNames ∨ Nominated fields name := by
  rw [isHopByHop, Bool.or_eq_true, List.contains_iff_mem, List.contains_iff_mem,
    mem_connectionTokens]

theorem isHopByHop_congr {name name' : Text} (tokens : List Text)
    (h : lowercase name = lowercase name') : isHopByHop name tokens = isHopByHop name' tokens := by
  unfold isHopByHop
  rw [h]

/-! ## The setters of a message without the field -/

/-- What `keep_alive(bool)` adds to a message without a Connection field: only what is not
the default of the version. -/
def connectionField (version : Nat) (keepAlive : Bool) : Fields :=
  if decide (version < 11) = keepAlive then
    [⟨"Connection".toList, if version < 11 then "keep-alive".toList else "close".toList⟩]
  else []

theorem keepAliveValue_nil (version : Nat) (keepAlive : Bool) :
    Fields.keepAliveValue version [] keepAlive
      = if decide (version < 11) = keepAlive then
          if version < 11 then "keep-alive".toList else "close".toList
        else [] := rfl

theorem setKeepAlive_absent {fs : Fields} (h : fs.has "connection".toList = false)
    (version : Nat) (keepAlive : Bool) :
    fs.setKeepAlive version keepAlive = fs ++ connectionField version keepAlive := by
  have hset : fs.has (lowercase "Connection".toList) = false := by
    rw [show lowercase "Connection".toList = "connection".toList by decide]
    exact h
  unfold Fields.setKeepAlive connectionField
  rw [Fields.value_of_absent h, keepAliveValue_nil]
  by_cases hwrite : decide (version < 11) = keepAlive
  · rw [if_pos hwrite, if_pos hwrite]
    by_cases hold : version < 11
    · rw [if_pos hold]
      exact (if_neg (by decide)).trans (Fields.set_of_absent hset)
    · rw [if_neg hold]
      exact (if_neg (by decide)).trans (Fields.set_of_absent hset)
  · rw [if_neg hwrite, if_neg hwrite, List.append_nil]
    exact (if_pos rfl).trans (Fields.erase_of_absent h)

theorem setContentLength_absent {fs : Fields} (hlength : fs.has "content-length".toList = false)
    (hcoding : fs.has "transfer-encoding".toList = false) (n : Nat) :
    fs.setContentLength n = fs ++ [⟨"Content-Length".toList, decimal n⟩] := by
  have hlower : lowercase "Content-Length".toList = "content-length".toList := by decide
  unfold Fields.setContentLength Fields.clearChunked
  rw [Fields.set_of_absent (by rw [hlower]; exact hlength)]
  have hstill : Fields.has (fs ++ [⟨"Content-Length".toList, decimal n⟩])
      "transfer-encoding".toList = false := by
    rw [Fields.has_append, hcoding, Fields.has_singleton, hlower]
    decide
  rw [if_neg (by rw [hstill]; simp)]

theorem equalRange_absent {fs : Fields} {name : Text} (h : fs.has name = false) :
    fs.equalRange name = [] := by
  unfold Fields.equalRange
  rw [List.filter_eq_nil_iff]
  intro f hf
  rw [Field.named, decide_eq_true_iff]
  exact Fields.has_eq_false.mp h f hf

theorem equalRange_append (fs rest : Fields) (name : Text) :
    (fs ++ rest).equalRange name = fs.equalRange name ++ rest.equalRange name := by
  unfold Fields.equalRange
  exact List.filter_append ..

theorem equalRange_singleton {f : Field} {lower : Text} (h : lowercase f.name = lower)
    (name : Text) : Fields.equalRange [f] name = if name = lower then [f] else [] := by
  subst h
  unfold Fields.equalRange
  by_cases hname : name = lowercase f.name
  · have hnamed : f.named name = true := decide_eq_true hname.symm
    rw [if_pos hname, List.filter_cons_of_pos hnamed, List.filter_nil]
  · have hnamed : ¬f.named name = true := by
      rw [Field.named, decide_eq_true_iff]
      exact Ne.symm hname
    rw [if_neg hname, List.filter_cons_of_neg hnamed, List.filter_nil]

theorem equalRange_connectionField (version : Nat) (keepAlive : Bool) (name : Text) :
    (connectionField version keepAlive).equalRange name
      = if name = "connection".toList then connectionField version keepAlive else [] := by
  unfold connectionField
  split
  · exact equalRange_singleton
      (show lowercase "Connection".toList = "connection".toList by decide) name
  · exact (ite_self []).symm

theorem has_connectionField {version : Nat} {keepAlive : Bool} {name : Text}
    (h : name ≠ "connection".toList) : (connectionField version keepAlive).has name = false := by
  rw [Fields.has_eq_false]
  intro f hf heq
  have hmem : f ∈ (connectionField version keepAlive).equalRange name :=
    List.mem_filter.mpr ⟨hf, decide_eq_true heq⟩
  rw [equalRange_connectionField, if_neg h] at hmem
  cases hmem

theorem Fields.value_eq (fs : Fields) (name : Text) :
    fs.value name = match (fs.equalRange name).head? with
      | some f => f.value
      | none => [] := by
  unfold Fields.value Fields.equalRange
  exact congrArg (fun first : Option Field => match first with
    | some f => f.value
    | none => []) (List.head?_filter ..).symm

theorem keepAlive_connectionField (version : Nat) (keepAlive : Bool) :
    (connectionField version keepAlive).keepAlive version = keepAlive := by
  have hfirst : ∀ value, Fields.value [⟨"Connection".toList, value⟩] "connection".toList = value := by
    intro value
    have hnamed : lowercase "Connection".toList = "connection".toList := by decide
    rw [Fields.value_eq, equalRange_singleton hnamed, if_pos rfl]
    rfl
  unfold Fields.keepAlive connectionField
  by_cases hold : version < 11
  · rw [if_pos hold]
    cases keepAlive with
    | true =>
        rw [if_pos (by simp [hold]), hfirst, if_pos hold]
        decide
    | false =>
        rw [if_neg (by simp [hold])]
        decide
  · rw [if_neg hold]
    cases keepAlive with
    | true =>
        rw [if_neg (by simp [hold])]
        decide
    | false =>
        rw [if_pos (by simp [hold]), hfirst, if_neg hold]
        decide

/-- Only the Connection fields decide. -/
theorem keepAlive_of_equalRange {fs : Fields} {version : Nat} {keepAlive : Bool}
    (h : fs.equalRange "connection".toList = connectionField version keepAlive) :
    fs.keepAlive version = keepAlive := by
  have hvalue : fs.value "connection".toList
      = (connectionField version keepAlive).value "connection".toList := by
    rw [Fields.value_eq, Fields.value_eq, h, equalRange_connectionField, if_pos rfl]
  have hsame := keepAlive_connectionField version keepAlive
  unfold Fields.keepAlive at hsame ⊢
  rw [hvalue]
  exact hsame

end ApiGate
