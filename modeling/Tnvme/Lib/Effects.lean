import Mathlib.Data.List.Basic

/-!
# Computations with a state that may throw

The state is kept when an exception is thrown. `Ends Q E x s` says of a computation from the state `s` that it returns
with `Q`, or throws with `E`. There is one rule for each way to put computations together; for a loop it is that of the
invariant (`Ends.foldlM`), and one for what a single pass brings about and the others keep (`Ends.foldlM_of_mem`).
-/

namespace Effects

abbrev Eff (ε σ : Type) := ExceptT ε (StateM σ)

variable {ε σ α β : Type} {Q Q' : α → σ → Prop} {R : β → σ → Prop} {E E' : ε → σ → Prop} {x : Eff ε σ α} {s : σ}

def Ends (Q : α → σ → Prop) (E : ε → σ → Prop) (x : Eff ε σ α) (s : σ) : Prop :=
  match x.run.run s with
  | (.ok a, s') => Q a s'
  | (.error e, s') => E e s'

theorem Ends.pure {a : α} (h : Q a s) : Ends Q E (Pure.pure a) s := h

theorem Ends.throw {e : ε} (h : E e s) : Ends Q E (MonadExcept.throw e) s := h

theorem Ends.set {Q : PUnit → σ → Prop} {s' : σ} (h : Q ⟨⟩ s') : Ends Q E (MonadStateOf.set s') s := h

theorem Ends.bind {f : α → Eff ε σ β} (hx : Ends Q E x s) (hf : ∀ a s', Q a s' → Ends R E (f a) s') :
    Ends R E (x >>= f) s := by
  have hrun : (x >>= f).run.run s = match x.run.run s with
      | (.ok a, s') => (f a).run.run s'
      | (.error e, s') => (.error e, s') := by
    change (ExceptT.bindCont f (x.run.run s).1) (x.run.run s).2 = _
    rcases x.run.run s with ⟨a | e, s'⟩ <;> rfl
  unfold Ends at hx ⊢
  rw [hrun]
  rcases hxs : x.run.run s with ⟨e | a, s'⟩ <;> rw [hxs] at hx
  · exact hx
  · exact hf a s' hx

theorem Ends.get_bind {f : σ → Eff ε σ β} (h : Ends R E (f s) s) : Ends R E (MonadState.get >>= f) s :=
  @Ends.bind _ _ _ _ (fun a s' => a = s ∧ s' = s) _ _ _ _ f ⟨rfl, rfl⟩ (by rintro _ _ ⟨rfl, rfl⟩; exact h)

theorem Ends.set_bind {s' : σ} {f : PUnit → Eff ε σ β} (h : Ends R E (f ⟨⟩) s') :
    Ends R E (MonadStateOf.set s' >>= f) s :=
  @Ends.bind _ _ _ _ (fun _ s'' => s'' = s') _ _ _ _ f rfl (by rintro _ _ rfl; exact h)

theorem Ends.mono (hx : Ends Q E x s) (hQ : ∀ a s', Q a s' → Q' a s') (hE : ∀ e s', E e s' → E' e s') :
    Ends Q' E' x s := by
  unfold Ends at hx ⊢
  rcases hxs : x.run.run s with ⟨e | a, s'⟩ <;> rw [hxs] at hx
  · exact hE e s' hx
  · exact hQ a s' hx

/-- What holds of the state either way. -/
theorem Ends.state {P : σ → Prop} (hx : Ends (fun _ => P) (fun _ => P) x s) : P (x.run.run s).2 := by
  unfold Ends at hx
  rcases hxs : x.run.run s with ⟨e | a, s'⟩ <;> rw [hxs] at hx <;> exact hx

/-- A computation that does not throw has a result and a last state. -/
theorem Ends.exists_ok (hx : Ends Q (fun _ _ => False) x s) :
    ∃ a, Q a (x.run.run s).2 ∧ Ends (fun a' s' => a' = a ∧ s' = (x.run.run s).2) (fun _ _ => False) x s := by
  unfold Ends at hx ⊢
  rcases hxs : x.run.run s with ⟨e | a, s'⟩ <;> rw [hxs] at hx
  · exact hx.elim
  · exact ⟨a, hx, rfl, rfl⟩

/-! ## Loops -/

section Loops

variable {γ : Type} {l : List γ} {f : α → γ → Eff ε σ α} {a : α}

theorem Ends.foldlM {I : α → σ → Prop} (hstep : ∀ c ∈ l, ∀ a s, I a s → Ends I E (f a c) s) (h : I a s) :
    Ends I E (l.foldlM f a) s := by
  induction l generalizing a s with
  | nil => exact Ends.pure h
  | cons c l ih =>
    rw [List.foldlM_cons]
    refine Ends.bind (hstep c List.mem_cons_self a s h) fun a s h => ?_
    exact ih (fun c hc => hstep c (List.mem_cons_of_mem _ hc)) h

/-- What one pass brings about, and the later ones keep. -/
theorem Ends.foldlM_of_mem {I P : α → σ → Prop} {c : γ} (hc : c ∈ l)
    (hI : ∀ c ∈ l, ∀ a s, I a s → Ends I E (f a c) s) (hc' : ∀ a s, I a s → Ends P E (f a c) s)
    (hP : ∀ c ∈ l, ∀ a s, P a s → Ends P E (f a c) s) (h : I a s) : Ends P E (l.foldlM f a) s := by
  obtain ⟨pre, post, rfl⟩ := List.append_of_mem hc
  rw [List.foldlM_append]
  refine Ends.bind (Ends.foldlM (fun c hc => hI c (List.mem_append_left _ hc)) h) fun a s h => ?_
  rw [List.foldlM_cons]
  refine Ends.bind (hc' a s h) fun a s h => ?_
  exact Ends.foldlM (fun c hc => hP c (List.mem_append_right _ (List.mem_cons_of_mem _ hc))) h

end Loops

end Effects
