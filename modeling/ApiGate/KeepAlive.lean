import Mathlib.Data.List.DropRight
import ApiGate.Handler

/-!
# Closing a connection

`keep_alive(false)` edits the Connection field as a list of tokens. It takes
effect whatever the field held before: the token list that is written back
reads as the tokens it was made from.
-/

namespace ApiGate

/-! ## Token lists -/

/-- What stands between two commas, without the blanks around it. -/
structure IsToken (t : Text) : Prop where
  nonempty : t ≠ []
  comma : ',' ∉ t
  trimmed : trim t = t

theorem splitComma_cons {c : Char} (hc : c ≠ ',') {v first : Text} {others : List Text}
    (h : splitComma v = first :: others) : splitComma (c :: v) = (c :: first) :: others := by
  rw [splitComma, if_neg hc, h]

theorem exists_splitComma (v : Text) : ∃ first others, splitComma v = first :: others := by
  induction v with
  | nil => exact ⟨[], [], rfl⟩
  | cons c v ih =>
      obtain ⟨first, others, h⟩ := ih
      by_cases hc : c = ','
      · exact ⟨[], splitComma v, by rw [splitComma, if_pos hc]⟩
      · exact ⟨c :: first, others, splitComma_cons hc h⟩

theorem not_mem_splitComma {v t : Text} (h : t ∈ splitComma v) : ',' ∉ t := by
  induction v generalizing t with
  | nil => simp_all [splitComma]
  | cons c v ih =>
      by_cases hc : c = ','
      · rw [splitComma, if_pos hc] at h
        rcases List.mem_cons.mp h with rfl | h
        · exact List.not_mem_nil
        · exact ih h
      · obtain ⟨first, others, hv⟩ := exists_splitComma v
        rw [splitComma_cons hc hv] at h
        rw [hv] at ih
        rcases List.mem_cons.mp h with rfl | h
        · intro hmem
          rcases List.mem_cons.mp hmem with heq | hmem
          · exact hc heq.symm
          · exact ih (List.mem_cons_self ..) hmem
        · exact ih (List.mem_cons_of_mem _ h)

theorem splitComma_of_not_mem {t : Text} (h : ',' ∉ t) : splitComma t = [t] := by
  induction t with
  | nil => rfl
  | cons c t ih =>
      have hc : c ≠ ',' := fun heq => h (heq ▸ List.mem_cons_self ..)
      exact splitComma_cons hc (ih fun hmem => h (List.mem_cons_of_mem _ hmem))

theorem splitComma_append {t : Text} (h : ',' ∉ t) (v : Text) :
    splitComma (t ++ ',' :: v) = t :: splitComma v := by
  induction t with
  | nil => rw [List.nil_append, splitComma, if_pos rfl]
  | cons c t ih =>
      have hc : c ≠ ',' := fun heq => h (heq ▸ List.mem_cons_self ..)
      exact splitComma_cons hc (ih fun hmem => h (List.mem_cons_of_mem _ hmem))

theorem trim_eq (v : Text) : trim v = List.rdropWhile isBlank (v.dropWhile isBlank) := rfl

theorem mem_of_mem_trim {v : Text} {c : Char} (h : c ∈ trim v) : c ∈ v := by
  rw [trim_eq] at h
  exact (List.dropWhile_sublist _).subset ((List.rdropWhile_prefix _ _).subset h)

theorem trim_trim (v : Text) : trim (trim v) = trim v := by
  have hfront : (trim v).dropWhile isBlank = trim v := by
    rw [List.dropWhile_eq_self_iff]
    intro hpos
    -- the first character of what is left is that of `v.dropWhile`
    have hprefix : trim v <+: v.dropWhile isBlank := List.rdropWhile_prefix _ _
    obtain ⟨rest, hrest⟩ := hprefix
    have hself := List.dropWhile_eq_self_iff.mp (List.dropWhile_idempotent (p := isBlank) v)
    have hpos' : 0 < (v.dropWhile isBlank).length := by
      rw [← hrest, List.length_append]
      omega
    have hhead := hself hpos'
    simp only [← hrest] at hhead
    simpa [List.getElem_append_left hpos] using hhead
  rw [trim_eq (trim v), hfront, trim_eq, List.rdropWhile_idempotent]

theorem isToken_of_mem {v t : Text} (h : t ∈ tokenList v) : IsToken t := by
  unfold tokenList at h
  obtain ⟨hmem, hne⟩ := List.mem_filter.mp h
  obtain ⟨s, hs, rfl⟩ := List.mem_map.mp hmem
  exact
    { nonempty := by simpa using hne
      comma := fun hc => not_mem_splitComma hs (mem_of_mem_trim hc)
      trimmed := trim_trim s }

theorem tokenList_token {t : Text} (h : IsToken t) : tokenList t = [t] := by
  unfold tokenList
  rw [splitComma_of_not_mem h.comma, List.map_singleton, h.trimmed]
  exact List.filter_cons_of_pos (by simpa using h.nonempty)

theorem tokenList_append {t : Text} (h : IsToken t) (v : Text) :
    tokenList (t ++ ", ".toList ++ v) = t :: tokenList v := by
  obtain ⟨first, others, hv⟩ := exists_splitComma v
  have hsplit : splitComma (t ++ ", ".toList ++ v) = t :: (' ' :: first) :: others := by
    have hlist : t ++ ", ".toList ++ v = t ++ ',' :: ' ' :: v := by simp
    rw [hlist, splitComma_append h.comma, splitComma_cons (by decide) hv]
  have hblank : trim (' ' :: first) = trim first := rfl
  unfold tokenList
  rw [hsplit, hv, List.map_cons, List.map_cons, List.map_cons, h.trimmed, hblank]
  exact List.filter_cons_of_pos (by simpa using h.nonempty)

theorem joinTokens_cons {t : Text} {rest : List Text} (h : rest ≠ []) :
    joinTokens (t :: rest) = t ++ ", ".toList ++ joinTokens rest := by
  cases rest with
  | nil => exact absurd rfl h
  | cons s rest => rfl

/-- A list of tokens is read back as it was written. -/
theorem tokenList_joinTokens {ts : List Text} (h : ∀ t ∈ ts, IsToken t) :
    tokenList (joinTokens ts) = ts := by
  induction ts with
  | nil => rfl
  | cons t rest ih =>
      have ht := h t (List.mem_cons_self ..)
      cases rest with
      | nil => exact tokenList_token ht
      | cons s rest =>
          have hrest := ih fun t ht => h t (List.mem_cons_of_mem _ ht)
          rw [joinTokens_cons (List.cons_ne_nil _ _), tokenList_append ht, hrest]

/-- And so is one to which more was added. -/
theorem tokenList_joinTokens_append {ts : List Text} (h : ∀ t ∈ ts, IsToken t) (hne : ts ≠ [])
    (v : Text) : tokenList (joinTokens ts ++ ", ".toList ++ v) = ts ++ tokenList v := by
  induction ts with
  | nil => exact absurd rfl hne
  | cons t rest ih =>
      have ht := h t (List.mem_cons_self ..)
      cases rest with
      | nil => exact tokenList_append ht v
      | cons s rest =>
          have hrest := ih (fun t ht => h t (List.mem_cons_of_mem _ ht)) (List.cons_ne_nil _ _)
          rw [joinTokens_cons (List.cons_ne_nil _ _), List.append_assoc, List.append_assoc,
            tokenList_append ht, ← List.append_assoc, hrest]
          rfl

theorem tokenList_filterTokens (v : Text) (drop : Text → Bool) :
    tokenList (filterTokens v drop) = (tokenList v).filter fun t => !drop (lowercase t) :=
  tokenList_joinTokens fun _ ht => isToken_of_mem (List.mem_filter.mp ht).1

/-! ## Fields -/

namespace Fields

theorem value_erase (fs : Fields) (name : Text) : (fs.erase name).value name = [] := by
  have hnone : (fs.erase name).find? (Field.named name) = none := by
    rw [List.find?_eq_none]
    intro f hf
    simpa using (List.mem_filter.mp hf).2
  unfold value
  rw [hnone]

/-- A field of another name is found as before. -/
theorem value_erase_ne {fs : Fields} {name other : Text} (h : name ≠ other) :
    (fs.erase other).value name = fs.value name := by
  have hfind : (fs.erase other).find? (Field.named name) = fs.find? (Field.named name) := by
    unfold erase
    rw [List.find?_filter]
    congr 1
    funext f
    by_cases hf : lowercase f.name = name
    · simp [Field.named, hf, h]
    · simp [Field.named, hf]
  unfold value
  rw [hfind]

theorem find?_set (fs : Fields) (field v name : Text) :
    (fs.set field v).find? (Field.named name)
      = ((fs.erase (lowercase field)).find? (Field.named name)).or
          (if lowercase field = name then some ⟨field, v⟩ else none) := by
  unfold set
  rw [List.find?_append]
  by_cases hname : lowercase field = name
  · simp [Field.named, hname]
  · simp [Field.named, hname]

theorem value_set {fs : Fields} {field v name : Text} (h : lowercase field = name) :
    (fs.set field v).value name = v := by
  have hnone : (fs.erase (lowercase field)).find? (Field.named name) = none := by
    rw [List.find?_eq_none]
    intro f hf
    simpa [h] using (List.mem_filter.mp hf).2
  unfold value
  rw [find?_set, hnone, if_pos h]
  rfl

theorem value_set_ne {fs : Fields} {field v name : Text} (h : lowercase field ≠ name) :
    (fs.set field v).value name = fs.value name := by
  have hfind : (fs.set field v).find? (Field.named name)
      = (fs.erase (lowercase field)).find? (Field.named name) := by
    rw [find?_set, if_neg h, Option.or_none]
  have herase : (fs.erase (lowercase field)).value name = fs.value name :=
    value_erase_ne (Ne.symm h)
  rw [← herase]
  unfold value
  rw [hfind]

/-- The token that asks for the other thing is gone, and the one that asks to
close is there where it is needed. -/
theorem keepAlive_setKeepAlive (version : Nat) (fs : Fields) :
    (fs.setKeepAlive version false).keepAlive version = false := by
  have hconn : lowercase "Connection".toList = "connection".toList := by decide
  have hvalue : (fs.setKeepAlive version false).value "connection".toList
      = keepAliveValue version (fs.value "connection".toList) false := by
    unfold setKeepAlive
    dsimp only
    split
    · rename_i hempty
      rw [value_erase, List.isEmpty_iff.mp hempty]
    · exact value_set hconn
  unfold keepAlive
  rw [hvalue]
  unfold keepAliveValue
  by_cases hold : version < 11
  · simp only [hold, decide_true, Bool.true_eq_false, if_false, if_true]
    simp only [tokenExists, tokenList_filterTokens, List.any_eq_false, List.mem_filter]
    rintro t ⟨-, ht⟩ heq
    rw [of_decide_eq_true heq] at ht
    simp at ht
  · simp only [hold, decide_false, if_true, if_false, Bool.not_eq_false']
    split
    · decide
    · split
      · rename_i hexists
        simp only [tokenExists, List.any_eq_true] at hexists ⊢
        obtain ⟨t, ht, heq⟩ := hexists
        refine ⟨t, ?_, heq⟩
        rw [tokenList_filterTokens, List.mem_filter]
        refine ⟨ht, ?_⟩
        rw [of_decide_eq_true heq]
        decide
      · rename_i hne _
        have hkept : ∀ t ∈ (tokenList (fs.value "connection".toList)).filter
            (fun t => !decide (lowercase t = "keep-alive".toList)), IsToken t :=
          fun t ht => isToken_of_mem (List.mem_filter.mp ht).1
        have hsome : (tokenList (fs.value "connection".toList)).filter
            (fun t => !decide (lowercase t = "keep-alive".toList)) ≠ [] := by
          intro hnil
          apply hne
          unfold filterTokens
          rw [hnil]
          rfl
        unfold tokenExists filterTokens
        rw [tokenList_joinTokens_append hkept hsome, List.any_append]
        have hclose : ((tokenList "close".toList).any fun t => lowercase t = "close".toList) = true := by
          decide
        rw [hclose, Bool.or_true]

end Fields

/-! ## Responses -/

namespace HttpResponse

@[simp] theorem keepAlive_setKeepAlive (r : HttpResponse) :
    (r.setKeepAlive false).keepAlive = false := Fields.keepAlive_setKeepAlive r.version r.fields

/-- A response that asks to close is followed by the end of the connection. -/
theorem needEof_of_keepAlive {r : HttpResponse} (lib : Library) (h : r.keepAlive = false) :
    r.needEof lib = true := by
  unfold needEof
  rw [h]
  split <;> rfl

end HttpResponse

/-- `prepare_payload` leaves the Connection field alone. -/
theorem keepAlive_withPayload (r : HttpResponse) : (withPayload r).keepAlive = r.keepAlive := by
  have hvalue : (withPayload r).fields.value "connection".toList
      = r.fields.value "connection".toList := by
    unfold withPayload Fields.setContentLength Fields.clearChunked
    dsimp only
    have hlength : (r.fields.set "Content-Length".toList (decimal r.body.length)).value
        "connection".toList = r.fields.value "connection".toList :=
      Fields.value_set_ne (by decide)
    repeat' split
    · exact (Fields.value_erase_ne (by decide)).trans hlength
    · exact (Fields.value_set_ne (by decide)).trans hlength
    · exact hlength
  unfold HttpResponse.keepAlive Fields.keepAlive
  rw [hvalue]
  rfl

theorem keepAlive_makeBareResponse (version status : Nat) (contentType : String) (body : Text) :
    (makeBareResponse version status contentType false body).keepAlive = false :=
  Fields.keepAlive_setKeepAlive version _

end ApiGate
