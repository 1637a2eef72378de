import Mathlib.Logic.Basic

/-!
# Loops that count

`count step n k a` takes the steps `k`, …, `k + n - 1` one after the other, each of which may throw. A loop of which
each step has an exact condition has the condition of all its steps (`Exact.count`), whatever invariant the conditions
rest on.
-/

namespace Loops

variable {ε α : Type} {step : Nat → α → Except ε α} {I : Nat → α → Prop} {C : Nat → Prop}

def count (step : Nat → α → Except ε α) : Nat → Nat → α → Except ε α
  | 0, _, a => .ok a
  | n + 1, k, a => step k a >>= count step n (k + 1)

/-- A step that starts with the invariant goes through exactly if its condition holds, and keeps the invariant then. -/
structure Exact (step : Nat → α → Except ε α) (I : Nat → α → Prop) (C : Nat → Prop) : Prop where
  ok : ∀ {k a}, I k a → C k → ∃ a', step k a = .ok a' ∧ I (k + 1) a'
  holds : ∀ {k a a'}, I k a → step k a = .ok a' → C k

theorem count_ok {n k : Nat} {a : α} (hok : ∀ {k a}, I k a → C k → ∃ a', step k a = .ok a' ∧ I (k + 1) a')
    (ha : I k a) (hC : ∀ i < n, C (k + i)) : ∃ a', count step n k a = .ok a' ∧ I (k + n) a' := by
  induction n generalizing k a with
  | zero => exact ⟨a, rfl, ha⟩
  | succ n ih =>
    obtain ⟨b, hstep, hb⟩ := hok ha (hC 0 (Nat.succ_pos n))
    obtain ⟨a', hrest, ha'⟩ := ih hb fun i hi => by
      rw [Nat.add_assoc, Nat.add_comm 1]
      exact hC (i + 1) (Nat.succ_lt_succ hi)
    refine ⟨a', ?_, ?_⟩
    · rw [count, hstep]
      exact hrest
    · rwa [Nat.add_comm n, ← Nat.add_assoc]

theorem Exact.holds_of_count (h : Exact step I C) {n k : Nat} {a a' : α} (ha : I k a)
    (hcount : count step n k a = .ok a') : ∀ i < n, C (k + i) := by
  induction n generalizing k a with
  | zero => exact fun i hi => absurd hi (Nat.not_lt_zero i)
  | succ n ih =>
    cases hstep : step k a with
    | error e =>
      rw [count, hstep] at hcount
      cases hcount
    | ok b =>
      rw [count, hstep] at hcount
      obtain ⟨b', hstep', hb⟩ := h.ok ha (h.holds ha hstep)
      obtain rfl : b' = b := Except.ok.inj (hstep'.symm.trans hstep)
      intro i hi
      cases i with
      | zero => exact h.holds ha hstep
      | succ i =>
        have hrest := ih hb hcount i (Nat.lt_of_succ_lt_succ hi)
        rwa [Nat.add_assoc, Nat.add_comm 1] at hrest

/-- **A loop goes through exactly if each of its steps does.** -/
theorem Exact.count (h : Exact step I C) {n k : Nat} {a : α} (ha : I k a) :
    (∃ a', count step n k a = .ok a') ↔ ∀ i < n, C (k + i) := by
  constructor
  · rintro ⟨a', hcount⟩
    exact h.holds_of_count ha hcount
  · intro hC
    obtain ⟨a', hcount, -⟩ := count_ok h.ok ha hC
    exact ⟨a', hcount⟩

/-- The same of a loop over a list. -/
theorem foldlM_iff {β : Type} {f : α → β → Except ε α} {J : α → Prop} {D : β → Prop}
    (hok : ∀ {a b}, J a → D b → ∃ a', f a b = .ok a') (hholds : ∀ {a b a'}, J a → f a b = .ok a' → D b ∧ J a')
    {bs : List β} {a : α} (ha : J a) : (∃ a', bs.foldlM f a = .ok a') ↔ ∀ b ∈ bs, D b := by
  induction bs generalizing a with
  | nil => exact iff_of_true ⟨a, rfl⟩ fun b hb => absurd hb List.not_mem_nil
  | cons b bs ih =>
    rw [List.forall_mem_cons, List.foldlM_cons]
    cases hstep : f a b with
    | error e =>
      refine iff_of_false (fun ⟨a', h⟩ => by cases h) fun h => ?_
      obtain ⟨a', hok⟩ := hok ha h.1
      rw [hstep] at hok
      cases hok
    | ok a' =>
      obtain ⟨hb, ha'⟩ := hholds ha hstep
      rw [and_iff_right hb]
      exact ih ha'

theorem foldlM_keeps {β : Type} {f : α → β → Except ε α} {J : α → Prop}
    (hkeeps : ∀ {a b a'}, J a → f a b = .ok a' → J a') {bs : List β} {a a' : α} (ha : J a)
    (h : bs.foldlM f a = .ok a') : J a' := by
  induction bs generalizing a with
  | nil =>
    cases h
    exact ha
  | cons b bs ih =>
    rw [List.foldlM_cons] at h
    cases hstep : f a b with
    | error e =>
      rw [hstep] at h
      cases h
    | ok a₁ =>
      rw [hstep] at h
      exact ih (hkeeps ha hstep) h

end Loops
