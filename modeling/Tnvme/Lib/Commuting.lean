import Mathlib.Data.List.Basic
import Mathlib.Logic.Function.Basic

/-!
# Commuting steps

Steps that may fail, one for each element of a list. If steps with different keys can be swapped, it is only the order
among the elements of each key that counts (`run_eq_of_ofKey`). They can be swapped if the state has a cell for each
key, and a step changes the cell of its key (`stepCells_commutes`).
-/

namespace Commuting

variable {σ α κ : Type*} {step : σ → α → Option σ} {key : α → κ} {s t : σ} {l l' p q : List α} {a : α}

/-- Steps with different keys can be swapped. -/
def Commutes (step : σ → α → Option σ) (key : α → κ) : Prop :=
  ∀ s a b, key a ≠ key b → (step s a).bind (step · b) = (step s b).bind (step · a)

/-- One step behind the other, up to one that fails. -/
def run (step : σ → α → Option σ) (s : σ) (l : List α) : Option σ := l.foldlM step s

@[simp] theorem run_nil (step : σ → α → Option σ) (s : σ) : run step s [] = some s := rfl

@[simp] theorem run_cons (step : σ → α → Option σ) (s : σ) (a : α) (l : List α) :
    run step s (a :: l) = (step s a).bind (run step · l) := List.foldlM_cons

/-- A system that is the image of another one has the image of its runs. -/
theorem run_map {τ : Type*} {f : σ → τ} {step' : τ → α → Option τ} (h : ∀ s a, step' (f s) a = (step s a).map f)
    (s : σ) (l : List α) : run step' (f s) l = (run step s l).map f := by
  induction l generalizing s with
  | nil => rfl
  | cons a l ih =>
    rw [run_cons, run_cons, h, Option.bind_map, Option.map_bind]
    exact congrArg (Option.bind (step s a)) (funext ih)

/-- An element can be brought in front of those of other keys. -/
theorem run_front (h : Commutes step key) (hp : ∀ b ∈ p, key b ≠ key a) (s : σ) (q : List α) :
    run step s (p ++ a :: q) = run step s (a :: (p ++ q)) := by
  induction p generalizing s with
  | nil => rfl
  | cons b p ih =>
    have hswap := h s b a (hp b List.mem_cons_self)
    calc run step s (b :: (p ++ a :: q))
        = (step s b).bind fun u => (step u a).bind (run step · (p ++ q)) := by
          rw [run_cons]
          congr 1
          funext u
          rw [ih (fun c hc => hp c (List.mem_cons_of_mem b hc)), run_cons]
      _ = ((step s b).bind (step · a)).bind (run step · (p ++ q)) := Option.bind_assoc .. |>.symm
      _ = ((step s a).bind (step · b)).bind (run step · (p ++ q)) := by rw [hswap]
      _ = (step s a).bind fun u => (step u b).bind (run step · (p ++ q)) := Option.bind_assoc ..
      _ = run step s (a :: (b :: p ++ q)) := rfl

variable [DecidableEq κ]

/-- The elements of a key. -/
def ofKey (key : α → κ) (k : κ) (l : List α) : List α := l.filter (key · = k)

/-- The first element of a key, with the elements of other keys in front of it. -/
theorem first_of_key (h : ofKey key (key a) l = a :: q) :
    ∃ p r, l = p ++ a :: r ∧ (∀ b ∈ p, key b ≠ key a) ∧ ofKey key (key a) r = q := by
  obtain ⟨p, r, rfl, hp, hr, hq⟩ := List.filter_eq_cons_iff.1 h
  exact ⟨p, r, rfl, fun b hb hkey => hp b hb (decide_eq_true hkey), hq⟩

theorem ofKey_append (key : α → κ) (k : κ) (l l' : List α) : ofKey key k (l ++ l') = ofKey key k l ++ ofKey key k l' :=
  List.filter_append ..

theorem ofKey_cons (key : α → κ) (k : κ) (a : α) (l : List α) :
    ofKey key k (a :: l) = if key a = k then a :: ofKey key k l else ofKey key k l := by
  simp only [ofKey, List.filter_cons, decide_eq_true_eq]

/-- **Only the order among the elements of each key counts.** -/
theorem run_eq_of_ofKey (h : Commutes step key) (hl : ∀ k, ofKey key k l = ofKey key k l') (s : σ) :
    run step s l = run step s l' := by
  induction l generalizing l' s with
  | nil =>
    have hnil : l' = [] := by
      refine List.eq_nil_iff_forall_not_mem.2 fun a ha => ?_
      have hmem : a ∈ ofKey key (key a) l' := List.mem_filter.2 ⟨ha, decide_eq_true rfl⟩
      rw [← hl (key a)] at hmem
      cases hmem
    rw [hnil]
  | cons a l ih =>
    have hfirst := hl (key a)
    rw [ofKey_cons, if_pos rfl] at hfirst
    obtain ⟨p, r, rfl, hp, -⟩ := first_of_key hfirst.symm
    rw [run_front h hp, run_cons, run_cons]
    congr 1
    funext u
    refine ih (fun k => ?_) u
    have hk := hl k
    rw [ofKey_cons, ofKey_append, ofKey_cons] at hk
    rw [ofKey_append]
    by_cases hkey : key a = k
    · have hnil : ofKey key k p = [] := List.filter_eq_nil_iff.2 fun b hb hdec =>
        hp b hb ((of_decide_eq_true hdec).trans hkey.symm)
      rw [if_pos hkey, if_pos hkey, hnil, List.nil_append] at hk
      rw [hnil, List.nil_append]
      exact List.tail_eq_of_cons_eq hk
    · rwa [if_neg hkey, if_neg hkey] at hk

/-! ## Cells

The state has a cell for each key, and a step changes the cell of its key. -/

section Cells

variable {cell : κ → Type*} (own : (a : α) → cell (key a) → Option (cell (key a)))

def stepCells (p : (k : κ) → cell k) (a : α) : Option ((k : κ) → cell k) :=
  (own a (p (key a))).map (Function.update p (key a))

theorem stepCells_commutes : Commutes (stepCells own) key := by
  intro p a b hkey
  have hab (v : cell (key a)) : Function.update p (key a) v (key b) = p (key b) :=
    Function.update_of_ne (Ne.symm hkey) v p
  have hba (v : cell (key b)) : Function.update p (key b) v (key a) = p (key a) := Function.update_of_ne hkey v p
  simp only [stepCells, Option.bind_map, Function.comp_def, hab, hba]
  cases own a (p (key a)) with
  | none => cases own b (p (key b)) <;> rfl
  | some v =>
    cases own b (p (key b)) with
    | none => rfl
    | some w => exact congrArg some (Function.update_comm hkey v w p)

/-- What holds of a cell after each of its own steps holds exactly if it held before, or there is such a step. -/
theorem stepCells_iff {k : κ} {P : cell k → Prop}
    (hown : ∀ a, key a = k → ∀ p p', stepCells own p a = some p' → P (p' k)) {p p' : (k : κ) → cell k}
    (h : run (stepCells own) p l = some p') : P (p' k) ↔ P (p k) ∨ ∃ a ∈ l, key a = k := by
  induction l generalizing p with
  | nil =>
    cases h
    simp
  | cons a l ih =>
    rw [run_cons] at h
    obtain ⟨u, hstep, hrest⟩ := Option.bind_eq_some_iff.1 h
    rw [ih hrest, List.exists_mem_cons_iff]
    by_cases hkey : key a = k
    · exact iff_of_true (Or.inl (hown a hkey p u hstep)) (Or.inr (Or.inl hkey))
    · obtain ⟨v, -, rfl⟩ := Option.map_eq_some_iff.1 hstep
      rw [Function.update_of_ne (Ne.symm hkey), or_iff_right hkey]

end Cells

end Commuting
