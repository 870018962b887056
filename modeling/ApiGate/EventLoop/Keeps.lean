import ApiGate.EventLoop.Act

/-!
# Handlers that keep a property

`Keeps P m` says that `m` leads from `P` to `P`, whatever is answered at its places
and whether it returns or throws. The rules are those of `wp` for a property that does
not change on the way: a handler keeps `P` when its updates do. Where a step needs more
than `P`, `Keeps.wp` leads back to `wp`.
-/

namespace EventLoop

namespace Act

variable {ι σ τ α β : Type}

def Keeps (P : σ → Prop) (m : Act ι σ α) : Prop :=
  ∀ (F : ι → Prop) (s : σ), P s → wp F m (fun _ => P) P s

namespace Keeps

variable {P : σ → Prop} {m : Act ι σ α} {f : α → Act ι σ β}

theorem wp (h : Keeps P m) {F : ι → Prop} {s : σ} (hs : P s) : Act.wp F m (fun _ => P) P s :=
  h F s hs

theorem pure (a : α) : Keeps P (Pure.pure a : Act ι σ α) :=
  fun _ _ hs => wp_pure.mpr hs

theorem throw (e : Unit) : Keeps P (MonadExceptOf.throw e : Act ι σ α) :=
  fun _ _ hs => wp_throw.mpr hs

theorem update {g : σ → σ} (h : ∀ s, P s → P (g s)) : Keeps P (modify g : Act ι σ PUnit) :=
  fun _ s hs => wp_modify.mpr (h s hs)

theorem bind (hm : Keeps P m) (hf : ∀ a, Keeps P (f a)) : Keeps P (m >>= f) :=
  fun F s hs => wp_bind (wp_mono (hm F s hs) (fun a s' hs' => hf a F s' hs') fun _ hs' => hs')

theorem update_bind {g : σ → σ} {f : PUnit → Act ι σ β} (h : ∀ s, P s → P (g s))
    (hf : Keeps P (f ⟨⟩)) : Keeps P (modify g >>= f) :=
  bind (update h) fun _ => hf

/-- What is read has the property too. -/
theorem get_bind {f : σ → Act ι σ β} (h : ∀ s, P s → Keeps P (f s)) : Keeps P (get >>= f) :=
  fun F s hs => wp_get_bind.mpr (h s hs F s hs)

theorem mayThrow (i : ι) : Keeps P (mayThrow i : Act ι σ Unit) :=
  fun _ _ hs => wp_mayThrow hs fun _ => hs

theorem mayThrow_bind {i : ι} {f : Unit → Act ι σ β} (h : Keeps P (f ())) :
    Keeps P (Act.mayThrow i >>= f) :=
  bind (mayThrow i) fun _ => h

theorem ask_bind {i : ι} {f : Bool → Act ι σ β} (h : ∀ b, Keeps P (f b)) :
    Keeps P (ask i >>= f) :=
  fun F s hs => wp_ask_bind (h false F s hs) fun _ => h true F s hs

theorem tryCatch {handler : Unit → Act ι σ α} (hm : Keeps P m) (hh : Keeps P (handler ())) :
    Keeps P (tryCatch m handler) :=
  fun F s hs => wp_tryCatch (wp_mono (hm F s hs) (fun _ _ hs' => hs') fun s' hs' => hh F s' hs')

theorem ite {c : Prop} [Decidable c] {m m' : Act ι σ α} (h : Keeps P m) (h' : Keeps P m') :
    Keeps P (if c then m else m') := by
  split
  · exact h
  · exact h'

/-- The state a handler leaves behind. -/
theorem exec {m : Act ι σ Unit} (h : Keeps P m) (o : Oracle ι) {s : σ} (hs : P s) :
    P (exec m o s) :=
  exec_of_wp (admissible_none o) (h _ s hs)

end Keeps

end Act

end EventLoop
