import Mathlib.Data.List.Basic

/-!
# Writing with a limit

A writer appends pieces to an output that must not grow longer than `limit`; a
piece that does not fit is an error. `Writes m text` says that `m` appends
exactly `text` wherever there is room for it, so that a program made of pieces
is described by the concatenation of what the pieces write, and the limit is
looked at once, for the whole. `Throws P m` says what the errors of `m` are like.
-/

namespace Output

variable {α β ε : Type} {limit : Nat}

abbrev Bounded (α ε : Type) := StateT (List α) (Except ε)

def append (limit : Nat) (full : ε) (text : List α) : Bounded α ε Unit := fun out =>
  if text.length > limit - out.length then .error full else .ok ((), out ++ text)

def Writes (limit : Nat) (m : Bounded α ε Unit) (text : List α) : Prop :=
  ∀ out : List α, out.length + text.length ≤ limit → m out = .ok ((), out ++ text)

theorem writes_append (full : ε) (text : List α) : Writes limit (append limit full text) text := by
  intro out hroom
  exact if_neg (by omega)

theorem writes_pure : Writes limit (pure () : Bounded α ε Unit) [] := by
  intro out _
  rw [List.append_nil]
  rfl

theorem Writes.seq {m n : Bounded α ε Unit} {text rest : List α} (hm : Writes limit m text)
    (hn : Writes limit n rest) : Writes limit (m >>= fun _ => n) (text ++ rest) := by
  intro out hroom
  rw [List.length_append] at hroom
  have hfirst := hm out (by omega)
  have hrest := hn (out ++ text) (by rw [List.length_append]; omega)
  show (m out >>= fun p => n p.2) = _
  rw [hfirst]
  exact hrest.trans (by rw [List.append_assoc])

theorem Writes.congr {m : Bounded α ε Unit} {text text' : List α} (h : Writes limit m text)
    (heq : text = text') : Writes limit m text' := heq ▸ h

/-- A loop writes what its turns write. -/
theorem writes_forM {f : β → Bounded α ε Unit} {text : β → List α} {items : List β}
    (h : ∀ b ∈ items, Writes limit (f b) (text b)) :
    Writes limit (items.forM f) (items.flatMap text) := by
  induction items with
  | nil => exact writes_pure
  | cons b rest ih =>
      rw [List.forall_mem_cons] at h
      exact h.1.seq (ih h.2)

/-- From an empty output there is room for everything within the limit. -/
theorem Writes.run {m : Bounded α ε Unit} {text : List α} (h : Writes limit m text)
    (hroom : text.length ≤ limit) : m [] = .ok ((), text) :=
  h [] (by simpa using hroom)

/-! ## Errors -/

variable {P : ε → Prop}

/-- Every error of `m` satisfies `P`. -/
def Throws (P : ε → Prop) (m : Bounded α ε Unit) : Prop :=
  ∀ (out : List α) (e : ε), m out = .error e → P e

theorem throws_append {full : ε} (h : P full) (text : List α) : Throws P (append limit full text) := by
  intro out e he
  unfold append at he
  split at he
  · cases he
    exact h
  · cases he

theorem throws_throw {e : ε} (h : P e) : Throws P (throw e : Bounded α ε Unit) := by
  intro out e' he
  cases he
  exact h

theorem throws_pure : Throws P (pure () : Bounded α ε Unit) := by
  intro out e he
  cases he

theorem Throws.seq {m n : Bounded α ε Unit} (hm : Throws P m) (hn : Throws P n) :
    Throws P (m >>= fun _ => n) := by
  intro out e he
  have hrun : (m out >>= fun p => n p.2) = .error e := he
  cases hfirst : m out with
  | error e' =>
      rw [hfirst] at hrun
      cases hrun
      exact hm out e hfirst
  | ok p =>
      rw [hfirst] at hrun
      exact hn p.2 e hrun

theorem throws_forM {f : β → Bounded α ε Unit} {items : List β} (h : ∀ b ∈ items, Throws P (f b)) :
    Throws P (items.forM f) := by
  induction items with
  | nil => exact throws_pure
  | cons b rest ih =>
      rw [List.forall_mem_cons] at h
      exact h.1.seq (ih h.2)

end Output
