import Mathlib.Data.List.Basic

/-!
# Chains of pointers

Nodes are linked by pointers, which somebody else has set, and a walk follows them and folds a function over the nodes.
No measure decreases on the way.

* A walk ends exactly if the chain does, and then it has folded over the nodes of the chain (`walk_eq_some_iff`,
  `exists_walk_iff`).
* A chain is determined by where it begins (`Chain.unique`), so a node that points to itself begins none
  (`Chain.not_loop`).
-/

namespace Chains

variable {α σ : Type*} (next : α → Option α) (visit : σ → α → σ)

/-- The nodes from a pointer on to the end. -/
inductive Chain : Option α → List α → Prop
  | nil : Chain none []
  | cons {a : α} {l : List α} : Chain (next a) l → Chain (some a) (a :: l)

/-- A walk of at most so many nodes; `none` if there are more. -/
def walk : Nat → σ → Option α → Option σ
  | _, s, none => some s
  | 0, _, some _ => none
  | fuel + 1, s, some a => walk fuel (visit s a) (next a)

variable {next visit} {p : Option α} {l l' : List α} {s s' : σ} {fuel : Nat}

theorem Chain.unique (h : Chain next p l) (h' : Chain next p l') : l = l' := by
  induction h generalizing l' with
  | nil => cases h'; rfl
  | cons _ ih =>
    cases h' with
    | cons h' => rw [ih h']

/-- A node that points to itself begins no chain. -/
theorem Chain.not_loop {a : α} (hloop : next a = some a) : ¬Chain next (some a) l := by
  rintro (_ | h)
  rename_i l
  rw [hloop] at h
  exact absurd (congrArg List.length (h.unique (.cons (hloop.symm ▸ h)))) (by simp)

/-- **A walk folds over its chain.** -/
theorem walk_eq_some_iff : walk next visit fuel s p = some s' ↔
    ∃ l, Chain next p l ∧ l.length ≤ fuel ∧ l.foldl visit s = s' := by
  induction fuel generalizing s p with
  | zero =>
    cases p with
    | none =>
      constructor
      · rintro ⟨⟩
        exact ⟨[], .nil, Nat.le_refl 0, rfl⟩
      · rintro ⟨l, ⟨⟩, _, rfl⟩
        rfl
    | some a =>
      constructor
      · rintro ⟨⟩
      · rintro ⟨l, ⟨⟩, hlen, _⟩
        cases hlen
  | succ fuel ih =>
    cases p with
    | none =>
      constructor
      · rintro ⟨⟩
        exact ⟨[], .nil, Nat.zero_le _, rfl⟩
      · rintro ⟨l, ⟨⟩, _, rfl⟩
        rfl
    | some a =>
      rw [walk, ih]
      constructor
      · rintro ⟨l, hl, hlen, hfold⟩
        exact ⟨a :: l, .cons hl, Nat.succ_le_succ hlen, hfold⟩
      · rintro ⟨_, hl | hl, hlen, hfold⟩
        exact ⟨_, hl, Nat.le_of_succ_le_succ hlen, hfold⟩

/-- A walk ends, with a good outcome, exactly if the chain ends and its fold is good. -/
theorem exists_walk_iff {P : σ → Prop} : (∃ fuel s', walk next visit fuel s p = some s' ∧ P s') ↔
    ∃ l, Chain next p l ∧ P (l.foldl visit s) := by
  constructor
  · rintro ⟨fuel, s', h, hP⟩
    obtain ⟨l, hl, _, rfl⟩ := walk_eq_some_iff.1 h
    exact ⟨l, hl, hP⟩
  · rintro ⟨l, hl, hP⟩
    exact ⟨l.length, _, walk_eq_some_iff.2 ⟨l, hl, Nat.le_refl l.length, rfl⟩, hP⟩

end Chains
