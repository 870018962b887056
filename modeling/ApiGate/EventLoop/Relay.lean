import Mathlib.Data.List.Infix

/-!
# Relays

A relay reads a source in chunks and passes each chunk on to a receiver before it
reads the next. What it has done is a list of notes, latest first; `state` follows
the notes and says what the relay waits for, or that they are out of order. From
that alone: what was passed on is what was read (`readText_eq`), the last chunk is
passed at most once and nothing after it (`after_last`), and the relay has delivered
everything just when the receiver has taken all that was sent (`delivered_iff`).
-/

namespace EventLoop.Relay

variable {α ε : Type}

inductive Note (α ε : Type) where
  /-- the receiver is told to expect chunks, or, at `last`, that there are none -/
  | opened (last : Bool)
  /-- the source has delivered a chunk, and it is exhausted at `last` -/
  | read (chunk : List α) (last : Bool)
  | passed (chunk : List α) (last : Bool)
  /-- the receiver is done with what it was sent -/
  | taken (error : Option ε)
  deriving DecidableEq, Repr

inductive State (α : Type) where
  | closed
  | reading
  | holding (chunk : List α) (last : Bool)
  | sending (last : Bool)
  | delivered
  | failed
  | wrong
  deriving DecidableEq, Repr

/-- What is sent to the receiver. -/
def Note.sends : Note α ε → Bool
  | .opened _ | .passed _ _ => true
  | .read _ _ | .taken _ => false

section Follow

variable [DecidableEq α]

/-- An empty chunk that is not the last one is not passed on. -/
def State.next : State α → Note α ε → State α
  | .closed, .opened last => .sending last
  | .sending last, .taken none => if last then .delivered else .reading
  | .sending _, .taken (some _) => .failed
  | .reading, .read chunk last => if chunk = [] ∧ last = false then .reading else .holding chunk last
  | .holding chunk last, .passed chunk' last' =>
      if chunk' = chunk ∧ last' = last then .sending last else .wrong
  | _, _ => .wrong

def state : List (Note α ε) → State α
  | [] => .closed
  | n :: earlier => (state earlier).next n

end Follow

/-! ## The chunks -/

def readText : List (Note α ε) → List α
  | [] => []
  | .read chunk _ :: earlier => readText earlier ++ chunk
  | _ :: earlier => readText earlier

def passedText : List (Note α ε) → List α
  | [] => []
  | .passed chunk _ :: earlier => passedText earlier ++ chunk
  | _ :: earlier => passedText earlier

/-- What was read and not passed on. -/
def State.held : State α → List α
  | .holding chunk _ => chunk
  | _ => []

variable [DecidableEq α] {notes newer older : List (Note α ε)} {n : Note α ε} {last : Bool}
  {chunk : List α}

theorem state_of_cons (h : state (n :: older) ≠ .wrong) : state older ≠ .wrong := by
  intro hw
  apply h
  show (state older).next n = .wrong
  rw [hw]
  rfl

theorem state_of_append (h : state (newer ++ older) ≠ .wrong) : state older ≠ .wrong := by
  induction newer with
  | nil => exact h
  | cons n newer ih => exact ih (state_of_cons h)

/-- The steps of a relay that are in order. -/
inductive Step : State α → Note α ε → State α → Prop
  | opened (last : Bool) : Step .closed (.opened last) (.sending last)
  | more : Step (.sending false) (.taken none) .reading
  | done : Step (.sending true) (.taken none) .delivered
  | refused (last : Bool) (e : ε) : Step (.sending last) (.taken (some e)) .failed
  | empty : Step .reading (.read [] false) .reading
  | read (chunk : List α) (last : Bool) : Step .reading (.read chunk last) (.holding chunk last)
  | passed (chunk : List α) (last : Bool) :
      Step (.holding chunk last) (.passed chunk last) (.sending last)

theorem step_of_next {s : State α} (h : s.next n ≠ .wrong) : Step s n (s.next n) := by
  unfold State.next at h ⊢
  split at h
  · exact .opened _
  · rename_i last
    cases last with
    | false => exact .more
    | true => exact .done
  · exact .refused _ _
  · rename_i chunk last
    by_cases hempty : chunk = [] ∧ last = false
    · obtain ⟨rfl, rfl⟩ := hempty
      exact .empty
    · rw [if_neg hempty]
      exact .read chunk last
  · split at h
    · rename_i hsame
      obtain ⟨rfl, rfl⟩ := hsame
      rw [if_pos ⟨rfl, rfl⟩]
      exact .passed _ _
    · exact absurd rfl h
  · exact absurd rfl h

theorem step_of_state {s : State α} (h : state (n :: older) = s) (hs : s ≠ .wrong) :
    Step (state older) n s := by
  subst h
  exact step_of_next hs

/-- Nothing is lost and nothing is invented. -/
theorem readText_eq (h : state notes ≠ .wrong) :
    readText notes = passedText notes ++ (state notes).held := by
  induction notes with
  | nil => rfl
  | cons n earlier ih =>
      have hearlier := ih (state_of_cons h)
      have hstep := step_of_state rfl h
      generalize state earlier = s at hearlier hstep
      generalize state (n :: earlier) = s' at hstep
      cases hstep with
      | opened | more | done | refused => exact hearlier
      | empty =>
          show readText earlier ++ [] = _
          rw [List.append_nil]
          exact hearlier
      | read chunk last =>
          show readText earlier ++ chunk = passedText earlier ++ chunk
          rw [hearlier]
          exact congrArg (· ++ chunk) (List.append_nil _)
      | passed chunk last =>
          show readText earlier = passedText earlier ++ chunk ++ []
          rw [List.append_nil]
          exact hearlier

/-! ## What a state says of the latest notes -/

theorem top_of_holding (h : state notes = .holding chunk last) :
    ∃ older, notes = .read chunk last :: older := by
  cases notes with
  | nil => cases h
  | cons n earlier =>
      have hstep := step_of_state h (by simp)
      generalize state earlier = s at hstep
      cases hstep with
      | read => exact ⟨earlier, rfl⟩

theorem top_of_sending (h : state notes = .sending last) :
    ∃ n older, notes = n :: older ∧ (n = .opened last ∨ ∃ chunk, n = .passed chunk last) := by
  cases notes with
  | nil => cases h
  | cons n earlier =>
      have hstep := step_of_state h (by simp)
      generalize state earlier = s at hstep
      cases hstep with
      | opened => exact ⟨_, _, rfl, Or.inl rfl⟩
      | passed chunk => exact ⟨_, _, rfl, Or.inr ⟨chunk, rfl⟩⟩

theorem top_of_delivered (h : state notes = .delivered) :
    ∃ older, notes = .taken none :: older ∧ state older = .sending true := by
  cases notes with
  | nil => cases h
  | cons n earlier =>
      have hstep := step_of_state h (by simp)
      generalize hs : state earlier = s at hstep
      cases hstep with
      | done => exact ⟨earlier, rfl, hs⟩

theorem state_of_passed (h : state (.passed chunk last :: older) ≠ .wrong) :
    state older = .holding chunk last := by
  have hstep := step_of_state rfl h
  generalize state older = s at hstep
  generalize state (.passed chunk last :: older) = s' at hstep
  cases hstep
  rfl

/-- In the end there is no step. -/
theorem next_delivered (n : Note α ε) : (State.delivered : State α).next n = .wrong := by
  cases n <;> rfl

theorem next_failed (n : Note α ε) : (State.failed : State α).next n = .wrong := by
  cases n <;> rfl

/-- Behind the last thing that is sent comes at most the answer. -/
theorem after_sent (h : state (newer ++ n :: older) ≠ .wrong)
    (hn : state (n :: older) = .sending true) :
    newer = [] ∨ ∃ error, newer = [.taken error] := by
  rcases List.eq_nil_or_concat' newer with rfl | ⟨front, m, rfl⟩
  · exact Or.inl rfl
  · rw [List.append_assoc] at h
    have hm : state (m :: n :: older) ≠ .wrong := state_of_append h
    have hend : (∃ error, m = .taken error)
        ∧ ∀ m' : Note α ε, (state (m :: n :: older)).next m' = .wrong := by
      have hstep := step_of_state rfl hm
      rw [hn] at hstep
      generalize state (m :: n :: older) = s' at hstep
      cases hstep with
      | done => exact ⟨⟨none, rfl⟩, next_delivered⟩
      | refused _ e => exact ⟨⟨some e, rfl⟩, next_failed⟩
    obtain ⟨⟨error, rfl⟩, hwrong⟩ := hend
    rcases List.eq_nil_or_concat' front with rfl | ⟨front', m', rfl⟩
    · exact Or.inr ⟨error, rfl⟩
    · rw [List.append_assoc] at h
      exact absurd (hwrong m') (state_of_append h)

/-- Nothing comes after a refusal. -/
theorem after_refused {e : ε} (h : state (newer ++ .taken (some e) :: older) ≠ .wrong) :
    newer = [] := by
  rcases List.eq_nil_or_concat' newer with rfl | ⟨front, m, rfl⟩
  · rfl
  · rw [List.append_assoc] at h
    have hm : state (m :: .taken (some e) :: older) ≠ .wrong := state_of_append h
    have hstep := step_of_state rfl (state_of_cons hm)
    have hfailed : state (.taken (some e) :: older) = .failed := by
      generalize state older = s at hstep
      generalize state (.taken (some e) :: older) = s' at hstep
      cases hstep
      rfl
    have hnext : state (m :: .taken (some e) :: older) = .wrong := by
      rw [state, hfailed]
      exact next_failed m
    exact absurd hnext hm

/-- The last chunk is passed once, and no chunk after it. -/
theorem after_last (h : state (newer ++ .passed chunk true :: older) ≠ .wrong) :
    (∀ c l, .passed c l ∉ newer) ∧ ∀ c, .passed c true ∉ older := by
  have hsent : ∀ {newer older : List (Note α ε)} {chunk : List α},
      state (newer ++ .passed chunk true :: older) ≠ .wrong →
      newer = [] ∨ ∃ error, newer = [.taken error] := by
    intro newer older chunk h
    refine after_sent h ?_
    have hstate := state_of_passed (state_of_append h)
    rw [state, hstate]
    exact if_pos ⟨rfl, rfl⟩
  constructor
  · intro c l hmem
    rcases hsent h with rfl | ⟨error, rfl⟩
    · cases hmem
    · simp at hmem
  · intro c hmem
    obtain ⟨front, rest, rfl⟩ := List.append_of_mem hmem
    rw [← List.cons_append, ← List.append_assoc] at h
    rcases hsent h with hnil | ⟨error, hone⟩
    · simp at hnil
    · have hmem' : Note.passed chunk true ∈ [Note.taken error] := by
        rw [← hone]
        simp
      simp at hmem'

/-! ## Delivery -/

/-- Everything that was sent was taken, before anything else happened. -/
def AllTaken (notes : List (Note α ε)) : Prop :=
  ∀ newer n older, notes = newer ++ n :: older → n.sends = true →
    ∃ newer', newer = newer' ++ [.taken none]

omit [DecidableEq α] in
theorem AllTaken.nil : AllTaken ([] : List (Note α ε)) := by
  intro newer n older heq
  simp at heq

omit [DecidableEq α] in
theorem AllTaken.cons (h : AllTaken notes) (hn : n.sends = false) : AllTaken (n :: notes) := by
  intro newer m older heq hm
  cases newer with
  | nil =>
      obtain ⟨rfl, -⟩ := List.cons.inj heq
      rw [hn] at hm
      cases hm
  | cons x newer =>
      obtain ⟨rfl, rfl⟩ := List.cons.inj heq
      obtain ⟨newer', rfl⟩ := h newer m older rfl hm
      exact ⟨_ :: newer', rfl⟩

omit [DecidableEq α] in
theorem AllTaken.answered (h : AllTaken older) : AllTaken (.taken none :: n :: older) := by
  intro newer m rest heq hm
  cases newer with
  | nil =>
      obtain ⟨rfl, -⟩ := List.cons.inj heq
      cases hm
  | cons x newer =>
      obtain ⟨rfl, -⟩ := List.cons.inj heq
      cases newer with
      | nil => exact ⟨[], rfl⟩
      | cons y newer =>
          obtain ⟨rfl, rfl⟩ := List.cons.inj (List.cons.inj heq).2
          obtain ⟨newer', rfl⟩ := h newer m rest rfl hm
          exact ⟨.taken none :: _ :: newer', rfl⟩

/-- The answer to the note on top, while something is sent, is the only one missing. -/
theorem allTaken_of_state (h : state notes ≠ .wrong) (hf : state notes ≠ .failed) :
    ((∀ last, state notes ≠ .sending last) → AllTaken notes)
      ∧ (∀ last n older, state notes = .sending last → notes = n :: older → AllTaken older) := by
  induction notes with
  | nil => exact ⟨fun _ => .nil, fun last n older hs => by cases hs⟩
  | cons m earlier ih =>
      have hstep := step_of_state rfl h
      have hearlier := ih (state_of_cons h)
      generalize state earlier = s at hstep hearlier
      generalize state (m :: earlier) = s' at hstep hf
      cases hstep with
      | opened =>
          refine ⟨fun hne => absurd rfl (hne _), fun last n older _ heq => ?_⟩
          obtain ⟨-, rfl⟩ := List.cons.inj heq
          exact (hearlier (by simp)).1 (by simp)
      | passed =>
          refine ⟨fun hne => absurd rfl (hne _), fun last n older _ heq => ?_⟩
          obtain ⟨-, rfl⟩ := List.cons.inj heq
          exact (hearlier (by simp)).1 (by simp)
      | refused => exact absurd rfl hf
      | empty => exact ⟨fun _ => ((hearlier (by simp)).1 (by simp)).cons rfl, by simp⟩
      | read => exact ⟨fun _ => ((hearlier (by simp)).1 (by simp)).cons rfl, by simp⟩
      | more =>
          refine ⟨fun _ => ?_, by simp⟩
          cases earlier with
          | nil => exact AllTaken.nil.cons rfl
          | cons n older => exact ((hearlier (by simp)).2 _ n older rfl rfl).answered
      | done =>
          refine ⟨fun _ => ?_, by simp⟩
          cases earlier with
          | nil => exact AllTaken.nil.cons rfl
          | cons n older => exact ((hearlier (by simp)).2 _ n older rfl rfl).answered

/-- A relay that was opened for chunks has delivered just when the last one was passed and
everything was taken. -/
theorem delivered_iff (h : state notes ≠ .wrong) (hopen : .opened false ∈ notes) :
    state notes = .delivered ↔ (∃ chunk, .passed chunk true ∈ notes) ∧ AllTaken notes := by
  constructor
  · intro hs
    refine ⟨?_, (allTaken_of_state h (by simp [hs])).1 (by simp [hs])⟩
    obtain ⟨older, rfl, hsending⟩ := top_of_delivered hs
    obtain ⟨n, rest, rfl, rfl | ⟨chunk, rfl⟩⟩ := top_of_sending hsending
    · -- it was opened once, and not for chunks
      have hstep := step_of_state hsending (by simp)
      have hrest : rest = [] := by
        cases rest with
        | nil => rfl
        | cons m rest =>
            generalize hs' : state (m :: rest) = s at hstep
            cases hstep
            have hne : state (m :: rest) ≠ .wrong := by simp [hs']
            have hstep' := step_of_state hs' (by simp)
            generalize state rest = s at hstep'
            cases hstep'
      subst hrest
      simp at hopen
    · exact ⟨chunk, by simp⟩
  · rintro ⟨⟨chunk, hmem⟩, htaken⟩
    obtain ⟨newer, older, rfl⟩ := List.append_of_mem hmem
    have hholding := state_of_passed (state_of_append h)
    have hsending : state (.passed chunk true :: older) = .sending true := by
      rw [state, hholding]
      exact if_pos ⟨rfl, rfl⟩
    obtain ⟨newer', hnewer⟩ := htaken newer _ older rfl rfl
    have hone : newer = [.taken none] := by
      rcases after_sent h hsending with rfl | ⟨error, rfl⟩
      · simp at hnewer
      · cases newer' with
        | nil => exact hnewer
        | cons => simp at hnewer
    subst hone
    show (state (.passed chunk true :: older)).next (.taken none) = .delivered
    rw [hsending]
    rfl

/-! ## The source -/

/-- The chunks are read off `whole`, and the last one ends it. -/
def Reads (whole : List α) : List (Note α ε) → Prop
  | [] => True
  | .read chunk last :: earlier =>
      Reads whole earlier ∧ readText earlier ++ chunk <+: whole
        ∧ (last = true → readText earlier ++ chunk = whole)
  | .opened _ :: earlier | .passed _ _ :: earlier | .taken _ :: earlier => Reads whole earlier

omit [DecidableEq α] in
theorem Reads.tail {whole : List α} (h : Reads whole (n :: notes)) : Reads whole notes := by
  cases n with
  | read => exact h.1
  | opened | passed | taken => exact h

omit [DecidableEq α] in
theorem Reads.of_append {whole : List α} (h : Reads whole (newer ++ older)) :
    Reads whole older := by
  induction newer with
  | nil => exact h
  | cons n newer ih => exact ih h.tail

omit [DecidableEq α] in
theorem Reads.readText_prefix {whole : List α} (h : Reads whole notes) :
    readText notes <+: whole := by
  induction notes with
  | nil => exact List.nil_prefix
  | cons n earlier ih =>
      cases n with
      | read => exact h.2.1
      | opened | passed | taken => exact ih h

/-- What was passed on is a prefix. -/
theorem passed_prefix {whole : List α} (h : state notes ≠ .wrong) (hreads : Reads whole notes) :
    passedText notes <+: whole := by
  have hprefix := hreads.readText_prefix
  rw [readText_eq h] at hprefix
  exact (List.prefix_append ..).trans hprefix

/-- With the last chunk it is the whole. -/
theorem passed_whole {whole : List α} (h : state (.passed chunk true :: older) ≠ .wrong)
    (hreads : Reads whole older) : passedText (.passed chunk true :: older) = whole := by
  have hholding := state_of_passed h
  obtain ⟨rest, rfl⟩ := top_of_holding hholding
  have hread := readText_eq (show state (.read chunk true :: rest) ≠ .wrong by simp [hholding])
  rw [hholding] at hread
  exact hread.symm.trans (hreads.2.2 rfl)

end EventLoop.Relay
