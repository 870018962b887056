import Mathlib.Logic.Basic

/-!
# Event-loop handlers that can throw

A handler of a single-threaded event loop runs to completion on a shared
state. On its way it may be interrupted by an exception, and it may ask its
surroundings a question whose answer the program does not control (did this
allocation fail, is that socket still clean). `Act ι σ α` is such a handler:
`ι` names the places where a question is asked, and an `Oracle` holds the
answers, one stream for the whole handler, so that the same place asked twice
may be answered differently. An exception does not roll the state back: both
outcomes carry the state at that moment.

`wp F m Q E s` is the weakest precondition: whatever the oracle answers at
the places outside `F` (it never says yes at a place in `F`), running `m` from
`s` either returns with `Q` or throws with `E`. The rules below are the only
interface the proofs use; they never unfold `wp`.
-/

namespace EventLoop

/-- The answers to the questions a handler asks, in the order it asks them. -/
abbrev Oracle (ι : Type) := Nat → ι → Bool

/-- The answers that are left once the first question has been asked. -/
def Oracle.rest {ι : Type} (o : Oracle ι) : Oracle ι := fun n => o (n + 1)

/-- A handler over the state `σ` with result `α`. -/
def Act (ι σ α : Type) : Type :=
  Oracle ι → σ → Except Unit α × Oracle ι × σ

variable {ι σ τ α β : Type}

instance : Monad (Act ι σ) where
  pure a := fun o s => (.ok a, o, s)
  bind m f := fun o s =>
    match m o s with
    | (.ok a, o', s') => f a o' s'
    | (.error e, o', s') => (.error e, o', s')

instance : MonadStateOf σ (Act ι σ) where
  get := fun o s => (.ok s, o, s)
  set s' := fun o _ => (.ok (), o, s')
  modifyGet f := fun o s => (.ok (f s).1, o, (f s).2)

instance : MonadExceptOf Unit (Act ι σ) where
  throw e := fun o s => (.error e, o, s)
  tryCatch m h := fun o s =>
    match m o s with
    | (.ok a, o', s') => (.ok a, o', s')
    | (.error e, o', s') => h e o' s'

namespace Act

/-- Ask the question of place `i`. -/
def ask (i : ι) : Act ι σ Bool := fun o s => (.ok (o 0 i), o.rest, s)

/-- An operation at place `i` that throws when the oracle says so. -/
def mayThrow (i : ι) : Act ι σ Unit := do
  if ← ask i then throw ()

/-- Ask the questions of a whole family of places at once. -/
def survey {κ : Type} (i : κ → ι) : Act ι σ (κ → Bool) :=
  fun o s => (.ok fun k => o 0 (i k), o.rest, s)

/-- Run a handler of a component inside the whole state. -/
def zoom (get : σ → τ) (put : τ → σ → σ) (m : Act ι τ α) : Act ι σ α := fun o s =>
  match m o (get s) with
  | (r, o', t) => (r, o', put t s)

/-- The state a handler leaves behind, whether it returned or threw. -/
def exec (m : Act ι σ Unit) (o : Oracle ι) (s : σ) : σ := (m o s).2.2

theorem get_bind_apply {f : σ → Act ι σ α} (o : Oracle ι) (s : σ) :
    (get >>= f) o s = f s o s := rfl

theorem modify_bind_apply {f : σ → σ} {m : Unit → Act ι σ α} (o : Oracle ι) (s : σ) :
    (modify f >>= m) o s = m () o (f s) := rfl

theorem exec_get_bind {f : σ → Act ι σ Unit} (o : Oracle ι) (s : σ) :
    exec (get >>= f) o s = exec (f s) o s := rfl

theorem exec_modify_bind {f : σ → σ} {m : Unit → Act ι σ Unit} (o : Oracle ι) (s : σ) :
    exec (modify f >>= m) o s = exec (m ()) o (f s) := rfl

/-- A handler that returns is not caught. -/
theorem exec_tryCatch {m : Act ι σ Unit} {h : Unit → Act ι σ Unit} {o o' : Oracle ι} {s s' : σ}
    (hm : m o s = (.ok (), o', s')) : exec (tryCatch m h) o s = s' := by
  simp only [exec, tryCatch, tryCatchThe, MonadExceptOf.tryCatch, hm]

/-! ## The weakest precondition -/

/-- The oracle never says yes at the places in `F`. -/
def Admissible (F : ι → Prop) (o : Oracle ι) : Prop :=
  ∀ n i, F i → o n i = false

theorem Admissible.rest {F : ι → Prop} {o : Oracle ι} (h : Admissible F o) :
    Admissible F o.rest := fun n i hi => h (n + 1) i hi

/-- Every oracle is admissible when no place is excluded. -/
theorem admissible_none (o : Oracle ι) : Admissible (fun _ => False) o :=
  fun _ _ h => h.elim

def wp (F : ι → Prop) (m : Act ι σ α) (Q : α → σ → Prop) (E : σ → Prop) (s : σ) :
    Prop :=
  ∀ o, Admissible F o →
    match m o s with
    | (.ok a, o', s') => Admissible F o' ∧ Q a s'
    | (.error _, o', s') => Admissible F o' ∧ E s'

variable {F : ι → Prop} {Q Q' : α → σ → Prop} {E E' : σ → Prop} {s : σ}

/-- The rule that ends a proof about one handler: what `wp` promises holds of
the state the handler leaves behind. -/
theorem exec_of_wp {m : Act ι σ Unit} {P : σ → Prop} {o : Oracle ι}
    (ho : Admissible F o) (h : wp F m (fun _ => P) P s) : P (exec m o s) := by
  have hm := h o ho
  unfold exec
  revert hm
  rcases m o s with ⟨_ | _, o', s'⟩ <;> exact And.right

theorem wp_mono {m : Act ι σ α} (h : wp F m Q E s)
    (hQ : ∀ a s', Q a s' → Q' a s') (hE : ∀ s', E s' → E' s') :
    wp F m Q' E' s := by
  intro o ho
  have hm := h o ho
  revert hm
  rcases m o s with ⟨_ | a, o', s'⟩
  · exact fun hm => ⟨hm.1, hE s' hm.2⟩
  · exact fun hm => ⟨hm.1, hQ a s' hm.2⟩

theorem wp_and {m : Act ι σ α} (h : wp F m Q E s) (h' : wp F m Q' E' s) :
    wp F m (fun a s' => Q a s' ∧ Q' a s') (fun s' => E s' ∧ E' s') s := by
  intro o ho
  have hm := h o ho
  have hm' := h' o ho
  revert hm hm'
  rcases m o s with ⟨_ | a, o', s'⟩
  · exact fun hm hm' => ⟨hm.1, hm.2, hm'.2⟩
  · exact fun hm hm' => ⟨hm.1, hm.2, hm'.2⟩

theorem wp_bind {m : Act ι σ α} {f : α → Act ι σ β} {R : β → σ → Prop}
    (h : wp F m (fun a => wp F (f a) R E) E s) : wp F (m >>= f) R E s := by
  intro o ho
  have hm := h o ho
  show match (match m o s with
    | (.ok a, o', s') => f a o' s'
    | (.error e, o', s') => (.error e, o', s')) with
    | (.ok a, o', s') => Admissible F o' ∧ R a s'
    | (.error _, o', s') => Admissible F o' ∧ E s'
  revert hm
  rcases m o s with ⟨_ | a, o', s'⟩
  · exact id
  · exact fun hm => hm.2 o' hm.1

@[simp] theorem wp_pure {a : α} : wp F (pure a) Q E s ↔ Q a s :=
  ⟨fun h => (h (fun _ _ => false) (fun _ _ _ => rfl)).2, fun h _ ho => ⟨ho, h⟩⟩

@[simp] theorem wp_throw {e : Unit} : wp F (throw e : Act ι σ α) Q E s ↔ E s :=
  ⟨fun h => (h (fun _ _ => false) (fun _ _ _ => rfl)).2, fun h _ ho => ⟨ho, h⟩⟩

@[simp] theorem wp_modify {g : σ → σ} {R : PUnit → σ → Prop} :
    wp F (modify g : Act ι σ PUnit) R E s ↔ R ⟨⟩ (g s) :=
  ⟨fun h => (h (fun _ _ => false) (fun _ _ _ => rfl)).2, fun h _ ho => ⟨ho, h⟩⟩

@[simp] theorem wp_get_bind {f : σ → Act ι σ β} {R : β → σ → Prop} :
    wp F (get >>= f) R E s ↔ wp F (f s) R E s := Iff.rfl

@[simp] theorem wp_modify_bind {g : σ → σ} {f : PUnit → Act ι σ β} {R : β → σ → Prop} :
    wp F (modify g >>= f) R E s ↔ wp F (f ⟨⟩) R E (g s) := Iff.rfl

@[simp] theorem wp_throw_bind {e : Unit} {f : α → Act ι σ β} {R : β → σ → Prop} :
    wp F ((throw e : Act ι σ α) >>= f) R E s ↔ E s :=
  ⟨fun h => (h (fun _ _ => false) (fun _ _ _ => rfl)).2, fun h _ ho => ⟨ho, h⟩⟩

/-- A question has two answers, of which a place in `F` only gives the first. -/
theorem wp_ask_bind {i : ι} {f : Bool → Act ι σ β} {R : β → σ → Prop}
    (hno : wp F (f false) R E s) (hyes : ¬F i → wp F (f true) R E s) :
    wp F (ask i >>= f) R E s := by
  intro o ho
  show match f (o 0 i) o.rest s with
    | (.ok a, o', s') => Admissible F o' ∧ R a s'
    | (.error _, o', s') => Admissible F o' ∧ E s'
  cases hi : o 0 i with
  | false => exact hno o.rest ho.rest
  | true => exact hyes (fun hF => by simp [ho 0 i hF] at hi) o.rest ho.rest

theorem wp_survey_bind {κ : Type} {i : κ → ι} {f : (κ → Bool) → Act ι σ β}
    {R : β → σ → Prop} (h : ∀ answers, wp F (f answers) R E s) :
    wp F (survey i >>= f) R E s :=
  fun o ho => h (fun k => o 0 (i k)) o.rest ho.rest

theorem wp_mayThrow_bind {i : ι} {f : Unit → Act ι σ β} {R : β → σ → Prop}
    (hok : wp F (f ()) R E s) (hthrow : ¬F i → E s) :
    wp F (mayThrow i >>= f) R E s := by
  refine wp_bind (wp_ask_bind ?_ fun hF => ?_)
  · simpa using hok
  · simpa using hthrow hF

theorem wp_mayThrow {i : ι} {R : Unit → σ → Prop} (hok : R () s)
    (hthrow : ¬F i → E s) : wp F (mayThrow i) R E s := by
  refine wp_ask_bind ?_ fun hF => ?_
  · simpa using hok
  · simpa using hthrow hF

theorem wp_tryCatch {m : Act ι σ α} {h : Unit → Act ι σ α}
    (hm : wp F m Q (fun s' => wp F (h ()) Q E s') s) : wp F (tryCatch m h) Q E s := by
  intro o ho
  have hrun := hm o ho
  show match (match m o s with
    | (Except.ok a, o', s') => (Except.ok a, o', s')
    | (.error e, o', s') => h e o' s') with
    | (.ok a, o', s') => Admissible F o' ∧ Q a s'
    | (.error _, o', s') => Admissible F o' ∧ E s'
  revert hrun
  rcases m o s with ⟨_ | a, o', s'⟩
  · exact fun hrun => hrun.2 o' hrun.1
  · exact id

theorem wp_zoom {get : σ → τ} {put : τ → σ → σ} {m : Act ι τ α}
    (h : wp F m (fun a t => Q a (put t s)) (fun t => E (put t s)) (get s)) :
    wp F (zoom get put m) Q E s := by
  intro o ho
  have hm := h o ho
  unfold zoom
  revert hm
  rcases m o (get s) with ⟨_ | a, o', t⟩ <;> exact id

end Act

end EventLoop
