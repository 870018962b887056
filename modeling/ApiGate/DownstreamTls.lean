import Mathlib.Data.List.Basic
import Mathlib.Data.Nat.Notation

/-!
# The choice of a protocol

`select_http11` looks for `http/1.1` in the list of protocols that a client offers:
names one after the other, each behind a byte with its length. The list is untrusted, so
what matters is that nothing is read behind its end (a read there has no result) and that
the loop answers for the entries, not for bytes that only look like one.
-/

namespace ApiGate

namespace DownstreamTls

/-- What the callback returns. `ok` has the values of `*output`, as a position in the
input, and `*output_length`. -/
inductive Selection where
  | ok (output : UInt32) (outputLength : UInt8)
  | alertFatal
  deriving DecidableEq, Repr

/-- `http/1.1` -/
def http11 : List UInt8 := [104, 116, 116, 112, 47, 49, 46, 49]

/-- `input[index]` -/
def byteAt (input : List UInt8) (inputLength index : UInt32) : Option UInt8 :=
  if index < inputLength then input[index.toNat]? else none

/-- The eight bytes that `memcmp` looks at. -/
def eightAt (input : List UInt8) (inputLength offset : UInt32) : Option (List UInt8) :=
  if offset.toNat + 8 ≤ inputLength.toNat && offset.toNat + 8 ≤ input.length then
    some ((input.drop offset.toNat).take 8)
  else none

/-- An entry of `length` bytes at `offset` is the one that is looked for. -/
def isHttp11 (input : List UInt8) (inputLength offset : UInt32) (length : UInt8) : Option Bool :=
  if length = 8 then (eightAt input inputLength offset).map fun name => decide (name = http11)
  else some false

theorem toNat_succ {inputLength offset : UInt32} (h : offset < inputLength) :
    (offset + 1).toNat = offset.toNat + 1 := by
  have hlt : offset.toNat < inputLength.toNat := UInt32.lt_iff_toNat_lt.mp h
  have hbound := inputLength.toNat_lt
  rw [UInt32.toNat_add, UInt32.toNat_one]
  omega

theorem succ_le {inputLength offset : UInt32} (h : offset < inputLength) :
    offset + 1 ≤ inputLength := by
  rw [UInt32.le_iff_toNat_le, toNat_succ h]
  exact UInt32.lt_iff_toNat_lt.mp h

/-- The position behind an entry that fits. -/
theorem toNat_next {inputLength offset : UInt32} {length : UInt8} (h : offset < inputLength)
    (hfits : ¬length.toUInt32 > inputLength - (offset + 1)) :
    (offset + 1).toNat = offset.toNat + 1
      ∧ (offset + 1 + length.toUInt32).toNat = offset.toNat + 1 + length.toNat
      ∧ offset.toNat + 1 + length.toNat ≤ inputLength.toNat := by
  have hlt : offset.toNat < inputLength.toNat := UInt32.lt_iff_toNat_lt.mp h
  have hbound := inputLength.toNat_lt
  have hone := toNat_succ h
  have hspan : length.toNat ≤ inputLength.toNat - (offset.toNat + 1) := by
    rw [gt_iff_lt, UInt32.lt_iff_toNat_lt, UInt32.toNat_sub_of_le _ _ (succ_le h), hone]
      at hfits
    simpa using hfits
  refine ⟨hone, ?_, by omega⟩
  rw [UInt32.toNat_add, hone, UInt8.toNat_toUInt32]
  omega

/-- The loop; `none` is a read outside the input. -/
def selectFrom (input : List UInt8) (inputLength offset : UInt32) : Option Selection :=
  if _h : offset < inputLength then
    match byteAt input inputLength offset with
    | none => none
    | some length =>
        if _hfits : length = 0 ∨ length.toUInt32 > inputLength - (offset + 1) then some .alertFatal
        else
          match isHttp11 input inputLength (offset + 1) length with
          | none => none
          | some true => some (.ok (offset + 1) length)
          | some false => selectFrom input inputLength (offset + 1 + length.toUInt32)
  else some .alertFatal
termination_by inputLength.toNat - offset.toNat
decreasing_by
  have hlt : offset.toNat < inputLength.toNat := UInt32.lt_iff_toNat_lt.mp _h
  obtain ⟨-, hnext, -⟩ := toNat_next _h (not_or.mp _hfits).2
  omega

def selectHttp11 (input : List UInt8) (inputLength : UInt32) : Option Selection :=
  selectFrom input inputLength 0

/-! ## Protocol lists -/

def ValidName (name : List UInt8) : Prop := name ≠ [] ∧ name.length ≤ 255

/-- The list of these protocols, as a client writes it. -/
def encode (names : List (List UInt8)) : List UInt8 :=
  names.flatMap fun name => UInt8.ofNat name.length :: name

theorem encode_cons (name : List UInt8) (names : List (List UInt8)) :
    encode (name :: names) = UInt8.ofNat name.length :: (name ++ encode names) := by
  simp [encode]

theorem encode_append (first second : List (List UInt8)) :
    encode (first ++ second) = encode first ++ encode second := by
  simp [encode]

theorem validName_http11 : ValidName http11 := ⟨by decide, by decide⟩

theorem toNat_length {name : List UInt8} (h : ValidName name) :
    (UInt8.ofNat name.length).toNat = name.length := by
  rw [UInt8.toNat_ofNat']
  exact Nat.mod_eq_of_lt (Nat.lt_succ_of_le h.2)

/-- The first entry is read back. -/
theorem encode_cons_inj {name bytes rest : List UInt8} {names : List (List UInt8)} {length : UInt8}
    {tail : List UInt8} (hname : ValidName name)
    (hlength : bytes.length = length.toNat)
    (h : length :: (bytes ++ rest) = encode (name :: names) ++ tail) :
    name = bytes ∧ rest = encode names ++ tail := by
  rw [encode_cons, List.cons_append, List.append_assoc] at h
  obtain ⟨rfl, hrest⟩ := List.cons.inj h
  rw [toNat_length hname] at hlength
  obtain ⟨rfl, htail⟩ := List.append_inj hrest hlength
  exact ⟨rfl, htail⟩

/-! ## The loop against the list -/

variable {input : List UInt8} {inputLength offset : UInt32} {length : UInt8}

/-- What the callback was given. -/
def offered (input : List UInt8) (inputLength : UInt32) : List UInt8 :=
  input.take inputLength.toNat

theorem length_offered (h : inputLength.toNat ≤ input.length) :
    (offered input inputLength).length = inputLength.toNat := by
  rw [offered, List.length_take]
  exact Nat.min_eq_left h

/-- `http/1.1` stands behind entries that are all in order, and different from it. -/
def OffersHttp11 (bytes : List UInt8) (names : List (List UInt8)) : Prop :=
  (∀ name ∈ names, ValidName name) ∧ ∃ rest, bytes = encode (names ++ [http11]) ++ rest

/-- The bytes from a position on. -/
abbrev left (input : List UInt8) (inputLength offset : UInt32) : List UInt8 :=
  (offered input inputLength).drop offset.toNat

theorem length_left (hin : inputLength.toNat ≤ input.length) :
    (left input inputLength offset).length = inputLength.toNat - offset.toNat := by
  rw [List.length_drop, length_offered hin]

theorem byteAt_eq (hin : inputLength.toNat ≤ input.length) (h : offset < inputLength) :
    ∃ first, byteAt input inputLength offset = some first
      ∧ left input inputLength offset = first :: left input inputLength (offset + 1) := by
  have hlt : offset.toNat < inputLength.toNat := UInt32.lt_iff_toNat_lt.mp h
  have hlt' : offset.toNat < (offered input inputLength).length := by
    rw [length_offered hin]
    exact hlt
  refine ⟨(offered input inputLength)[offset.toNat], ?_, ?_⟩
  · rw [byteAt, if_pos h, List.getElem?_eq_getElem (Nat.lt_of_lt_of_le hlt hin)]
    simp [offered]
  · rw [left, left, toNat_succ h]
    exact List.drop_eq_getElem_cons hlt'

theorem eightAt_eq (hin : inputLength.toNat ≤ input.length)
    (h : offset.toNat + 8 ≤ inputLength.toNat) :
    eightAt input inputLength offset = some ((left input inputLength offset).take 8) := by
  have hle : offset.toNat + 8 ≤ input.length := Nat.le_trans h hin
  have htake : (left input inputLength offset).take 8 = (input.drop offset.toNat).take 8 := by
    rw [left, offered, List.drop_take, List.take_take, Nat.min_eq_left (by omega)]
  rw [eightAt, if_pos (by simp [h, hle]), htake]

/-- The entry is compared as a whole. -/
theorem isHttp11_eq (hin : inputLength.toNat ≤ input.length)
    (h : offset.toNat + length.toNat ≤ inputLength.toNat) :
    isHttp11 input inputLength offset length
      = some (decide ((left input inputLength offset).take length.toNat = http11)) := by
  unfold isHttp11
  split
  · rename_i height
    subst height
    rw [eightAt_eq hin h]
    rfl
  · rename_i hne
    have hlength : ((left input inputLength offset).take length.toNat).length = length.toNat := by
      rw [List.length_take, length_left hin]
      omega
    have hdiffer : (left input inputLength offset).take length.toNat ≠ http11 := by
      intro heq
      rw [heq] at hlength
      exact hne (UInt8.toNat_inj.mp hlength.symm)
    simp [hdiffer]

theorem OffersHttp11.head {bytes : List UInt8} {names : List (List UInt8)}
    (h : OffersHttp11 bytes names) : ∃ name rest, ValidName name
      ∧ bytes = UInt8.ofNat name.length :: (name ++ rest) := by
  obtain ⟨hnames, rest, rfl⟩ := h
  cases names with
  | nil => exact ⟨http11, rest, validName_http11, by simp [encode]⟩
  | cons name more =>
      refine ⟨name, encode (more ++ [http11]) ++ rest, hnames name (List.mem_cons_self ..), ?_⟩
      rw [List.cons_append, encode_cons, List.cons_append, List.append_assoc]

/-- From a position on, the loop finds the first `http/1.1` among the entries, or there
is none before the first entry that is malformed. -/
theorem selectFrom_cases (hin : inputLength.toNat ≤ input.length) (offset : UInt32) :
    (∃ names output, OffersHttp11 (left input inputLength offset) names
        ∧ http11 ∉ names ∧ output.toNat = offset.toNat + (encode names).length + 1
        ∧ selectFrom input inputLength offset = some (.ok output 8))
      ∨ (selectFrom input inputLength offset = some .alertFatal
        ∧ ∀ names, ¬OffersHttp11 (left input inputLength offset) names) := by
  fun_induction selectFrom input inputLength offset with
  | case1 offset h hbyte =>
      obtain ⟨first, heq, -⟩ := byteAt_eq hin h
      rw [heq] at hbyte
      cases hbyte
  | case2 offset h length hbyte hfits =>
      obtain ⟨first, heq, hleft⟩ := byteAt_eq hin h
      obtain rfl : first = length := Option.some.inj (heq.symm.trans hbyte)
      refine Or.inr ⟨rfl, fun names hoffers => ?_⟩
      obtain ⟨name, rest, hname, hbytes⟩ := hoffers.head
      obtain ⟨hfirst, hrest⟩ := List.cons.inj (hleft.symm.trans hbytes)
      have hlength : first.toNat = name.length := by
        rw [hfirst, toNat_length hname]
      rcases hfits with hzero | hlong
      · rw [hzero] at hlength
        exact hname.1 (List.length_eq_zero_iff.mp hlength.symm)
      · have hlt : offset.toNat < inputLength.toNat := UInt32.lt_iff_toNat_lt.mp h
        have hone : (offset + 1).toNat = offset.toNat + 1 := toNat_succ h
        rw [gt_iff_lt, UInt32.lt_iff_toNat_lt, UInt8.toNat_toUInt32,
          UInt32.toNat_sub_of_le _ _ (succ_le h), hone, hlength] at hlong
        have hcount := congrArg List.length hrest
        rw [length_left hin, hone, List.length_append] at hcount
        omega
  | case3 offset h length hbyte hfits hread =>
      obtain ⟨hone, hnext, hle⟩ := toNat_next h (not_or.mp hfits).2
      rw [isHttp11_eq hin (by rw [hone]; exact hle)] at hread
      cases hread
  | case4 offset h length hbyte hfits hread =>
      obtain ⟨hone, hnext, hle⟩ := toNat_next h (not_or.mp hfits).2
      rw [isHttp11_eq hin (by rw [hone]; exact hle), Option.some.injEq, decide_eq_true_eq] at hread
      obtain ⟨first, heq, hleft⟩ := byteAt_eq hin h
      obtain rfl : first = length := Option.some.inj (heq.symm.trans hbyte)
      have height : first = 8 := by
        have hcount := congrArg List.length hread
        rw [List.length_take, length_left hin, hone] at hcount
        refine UInt8.toNat_inj.mp (Eq.trans ?_ hcount)
        omega
      subst height
      refine Or.inl ⟨[], offset + 1, ⟨by simp, ?_⟩, by simp, by simpa [encode] using hone, rfl⟩
      refine ⟨(left input inputLength (offset + 1)).drop 8, ?_⟩
      rw [hleft]
      show _ = (8 : UInt8) :: (http11 ++ _)
      have hread' : (left input inputLength (offset + 1)).take 8 = http11 := hread
      rw [← hread', List.take_append_drop]
  | case5 offset h length hbyte hfits hread ih =>
      obtain ⟨hone, hnext, hle⟩ := toNat_next h (not_or.mp hfits).2
      rw [isHttp11_eq hin (by rw [hone]; exact hle), Option.some.injEq,
        decide_eq_false_iff_not] at hread
      obtain ⟨first, heq, hleft⟩ := byteAt_eq hin h
      obtain rfl : first = length := Option.some.inj (heq.symm.trans hbyte)
      generalize hname : (left input inputLength (offset + 1)).take first.toNat = name at hread
      have hcount : name.length = first.toNat := by
        rw [← hname, List.length_take, length_left hin, hone]
        omega
      -- the entry, and what comes behind it
      have hsplit : left input inputLength (offset + 1)
          = name ++ left input inputLength (offset + 1 + first.toUInt32) := by
        rw [← hname, left, left, hnext, ← hone, ← List.drop_drop, List.take_append_drop]
      have hvalid : ValidName name := by
        refine ⟨fun hnil => ?_, ?_⟩
        · rw [hnil] at hcount
          exact (not_or.mp hfits).1 (UInt8.toNat_inj.mp hcount.symm)
        · have := first.toNat_lt
          omega
      have hfirst : UInt8.ofNat name.length = first := by
        rw [hcount, UInt8.ofNat_toNat]
      rcases ih with ⟨names, output, ⟨hnames, rest, hbytes⟩, hnew, houtput, hselect⟩ | ⟨hselect, hnone⟩
      · refine Or.inl ⟨name :: names, output, ⟨?_, rest, ?_⟩, ?_, ?_, hselect⟩
        · rintro n hn
          rcases List.mem_cons.mp hn with rfl | hn
          · exact hvalid
          · exact hnames n hn
        · rw [hleft, hsplit, hbytes, List.cons_append, encode_cons, hfirst, List.cons_append,
            List.append_assoc]
        · rintro hmem
          rcases List.mem_cons.mp hmem with heq | hmem
          · exact hread heq.symm
          · exact hnew hmem
        · rw [houtput, hnext, encode_cons, List.length_cons, List.length_append, hcount]
          omega
      · refine Or.inr ⟨hselect, fun names hoffers => ?_⟩
        obtain ⟨hnames, rest, hbytes⟩ := hoffers
        rw [hleft, hsplit] at hbytes
        cases names with
        | nil => exact hread (encode_cons_inj validName_http11 hcount hbytes).1.symm
        | cons n names =>
            obtain ⟨-, hrest⟩ := encode_cons_inj (hnames n (List.mem_cons_self ..)) hcount hbytes
            exact hnone names ⟨fun m hm => hnames m (List.mem_cons_of_mem _ hm), rest, hrest⟩
  | case6 offset h =>
      refine Or.inr ⟨rfl, fun names hoffers => ?_⟩
      obtain ⟨name, rest, -, hbytes⟩ := hoffers.head
      have hcount := congrArg List.length hbytes
      rw [length_left hin, List.length_cons] at hcount
      have hle : inputLength.toNat ≤ offset.toNat := by
        rw [UInt32.lt_iff_toNat_lt] at h
        omega
      omega

/-! ## The callback -/

/-- What a callback owes to an offer of `bytes`. A result is there, so nothing was read
outside the input. -/
structure Selects (bytes : List UInt8) (selection : Option Selection) : Prop where
  inBounds : selection ≠ none
  /-- on any bytes: what is chosen is an entry, and all entries before it are in order -/
  found : ∀ output length, selection = some (.ok output length) → length = 8
    ∧ (bytes.drop output.toNat).take 8 = http11
    ∧ ∃ names, OffersHttp11 bytes names ∧ output.toNat = (encode names).length + 1
  /-- on a list of protocols: it is chosen just when it is one of them -/
  listed : ∀ names, (∀ name ∈ names, ValidName name) → bytes = encode names →
    ((∃ output length, selection = some (.ok output length)) ↔ http11 ∈ names)
      ∧ (http11 ∉ names → selection = some .alertFatal)

/-- An offer of names that are all valid has `http/1.1` only where it is a name. -/
theorem mem_of_offers {names offer : List (List UInt8)} (hvalid : ∀ name ∈ names, ValidName name)
    (h : OffersHttp11 (encode names) offer) : http11 ∈ names := by
  obtain ⟨hoffer, rest, heq⟩ := h
  induction offer generalizing names with
  | nil =>
      cases names with
      | nil => simp [encode] at heq
      | cons name names =>
          rw [encode_cons] at heq
          have hname := hvalid name (List.mem_cons_self ..)
          obtain ⟨hfirst, -⟩ :=
            encode_cons_inj validName_http11 (toNat_length hname).symm heq
          rw [hfirst]
          exact List.mem_cons_self ..
  | cons first offer ih =>
      cases names with
      | nil => simp [encode] at heq
      | cons name names =>
          rw [encode_cons] at heq
          have hname := hvalid name (List.mem_cons_self ..)
          obtain ⟨-, hrest⟩ := encode_cons_inj (hoffer first (List.mem_cons_self ..))
            (toNat_length hname).symm heq
          exact List.mem_cons_of_mem _ (ih (fun n hn => hvalid n (List.mem_cons_of_mem _ hn))
            (fun n hn => hoffer n (List.mem_cons_of_mem _ hn)) hrest)

theorem offers_of_mem {names : List (List UInt8)} (hvalid : ∀ name ∈ names, ValidName name)
    (h : http11 ∈ names) : ∃ offer, OffersHttp11 (encode names) offer := by
  obtain ⟨before, after, rfl⟩ := List.append_of_mem h
  refine ⟨before, fun n hn => hvalid n (List.mem_append_left _ hn), encode after, ?_⟩
  rw [← encode_append, List.append_assoc, List.singleton_append]

/-- For every input of at least `inputLength` bytes. -/
theorem selectHttp11_selects (input : List UInt8) (inputLength : UInt32)
    (hin : inputLength.toNat ≤ input.length) :
    Selects (offered input inputLength) (selectHttp11 input inputLength) := by
  have hcases := selectFrom_cases hin 0
  have hleft : left input inputLength 0 = offered input inputLength := rfl
  rw [hleft] at hcases
  unfold selectHttp11
  rcases hcases with ⟨names, output, hoffers, -, houtput, hselect⟩ | ⟨hselect, hnone⟩
  · have houtput' : output.toNat = (encode names).length + 1 := by
      rw [houtput, UInt32.toNat_zero, Nat.zero_add]
    rw [hselect]
    refine ⟨by simp, ?_, fun names' hvalid heq => ?_⟩
    · rintro _ _ heq
      cases heq
      refine ⟨rfl, ?_, names, hoffers, houtput'⟩
      obtain ⟨-, rest, hbytes⟩ := hoffers
      rw [hbytes, houtput', encode_append, List.append_assoc, ← List.drop_drop, List.drop_left]
      rfl
    · have hmem : http11 ∈ names' := mem_of_offers hvalid (heq ▸ hoffers)
      exact ⟨⟨fun _ => hmem, fun _ => ⟨output, 8, rfl⟩⟩, fun hnot => absurd hmem hnot⟩
  · rw [hselect]
    refine ⟨by simp, by simp, fun names' hvalid heq => ?_⟩
    have hnot : http11 ∉ names' := by
      intro hmem
      obtain ⟨offer, hoffer⟩ := offers_of_mem hvalid hmem
      exact hnone offer (heq ▸ hoffer)
    exact ⟨by simp [hnot], fun _ => rfl⟩

/-- An offer of `h2` and `http/1.1`. -/
theorem selectHttp11_selects_two :
    Selects (offered [2, 104, 50, 8, 104, 116, 116, 112, 47, 49, 46, 49] 12)
      (selectHttp11 [2, 104, 50, 8, 104, 116, 116, 112, 47, 49, 46, 49] 12) :=
  selectHttp11_selects _ _ (by decide)

end DownstreamTls

end ApiGate
