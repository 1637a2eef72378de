import Mathlib.Data.List.Basic

/-!
# Runs of a deterministic system

A run is a list of labels, worked off from a state by `step`. `steps` lists its steps, each with the state it starts
from.

* What every step preserves holds along the run (`inv_steps`, `inv_run`).
* A property that is kept, and gained exactly under a condition, holds after a run that had it at first or met the
  condition (`run_iff_steps`).
* If in the states with an invariant `J` and a property `P` a step is good and keeps `P` exactly under a condition,
  the whole run is good exactly when all of its steps meet that condition (`good_run_iff`).
-/

namespace Runs

variable {σ ℓ : Type*} (step : σ → ℓ → σ)

def run (s : σ) (ls : List ℓ) : σ := ls.foldl step s

/-- The steps of a run, with the states they start from. -/
def steps : σ → List ℓ → List (σ × ℓ)
  | _, [] => []
  | s, l :: ls => (s, l) :: steps (step s l) ls

variable {step} {s : σ} {J P : σ → Prop}

/-- The labels of the steps are those of the run. -/
theorem forall_steps {ls : List ℓ} {C : ℓ → Prop} : (∀ x ∈ steps step s ls, C x.2) ↔ ∀ l ∈ ls, C l := by
  induction ls generalizing s with
  | nil => simp [steps]
  | cons l ls ih => rw [steps, List.forall_mem_cons, List.forall_mem_cons, ih]

theorem run_append (s : σ) (ls ls' : List ℓ) : run step s (ls ++ ls') = run step (run step s ls) ls' :=
  List.foldl_append

theorem run_step_comm {l : ℓ} {ls : List ℓ} (h : ∀ l' ∈ ls, ∀ s, step (step s l) l' = step (step s l') l) (s : σ) :
    run step (step s l) ls = step (run step s ls) l := by
  induction ls generalizing s with
  | nil => rfl
  | cons l' ls ih =>
    change run step (step (step s l) l') ls = _
    rw [h l' List.mem_cons_self, ih fun k hk => h k (List.mem_cons_of_mem l' hk)]
    rfl

/-- Labels that commute one by one commute as runs. -/
theorem run_comm {ls ls' : List ℓ} (h : ∀ l ∈ ls, ∀ l' ∈ ls', ∀ s, step (step s l) l' = step (step s l') l) (s : σ) :
    run step (run step s ls) ls' = run step (run step s ls') ls := by
  induction ls generalizing s with
  | nil => rfl
  | cons l ls ih =>
    change run step (run step (step s l) ls) ls' = _
    rw [ih fun k hk => h k (List.mem_cons_of_mem l hk), run_step_comm (h l List.mem_cons_self)]
    rfl

theorem inv_run (hstep : ∀ s l, J s → J (step s l)) (hs : J s) (ls : List ℓ) : J (run step s ls) := by
  induction ls generalizing s with
  | nil => exact hs
  | cons l ls ih => exact ih (hstep s l hs)

theorem inv_steps {ls : List ℓ} (hstep : ∀ s, ∀ l ∈ ls, J s → J (step s l)) (hs : J s) {x : σ × ℓ}
    (hx : x ∈ steps step s ls) : J x.1 := by
  induction ls generalizing s with
  | nil => cases hx
  | cons l ls ih =>
    rcases List.mem_cons.1 hx with rfl | hx
    · exact hs
    · exact ih (fun s l' hl' => hstep s l' (List.mem_cons_of_mem l hl')) (hstep s l List.mem_cons_self hs) hx

/-- **The exact condition of one step is the exact condition of a run.** -/
theorem good_run_iff {Q C : σ → ℓ → Prop} (hJ : ∀ s l, J s → J (step s l))
    (hC : ∀ s l, J s → P s → (Q s l ∧ P (step s l) ↔ C s l)) (hs : J s) (hP : P s) (ls : List ℓ) :
    (∀ x ∈ steps step s ls, Q x.1 x.2 ∧ P (step x.1 x.2)) ↔ ∀ x ∈ steps step s ls, C x.1 x.2 := by
  induction ls generalizing s with
  | nil => simp [steps]
  | cons l ls ih =>
    simp only [steps, List.forall_mem_cons]
    constructor
    · rintro ⟨h, hrest⟩
      exact ⟨(hC s l hs hP).1 h, (ih (hJ s l hs) h.2).1 hrest⟩
    · rintro ⟨h, hrest⟩
      have hgood := (hC s l hs hP).2 h
      exact ⟨hgood, (ih (hJ s l hs) hgood.2).2 hrest⟩

/-- **What a run reaches once is reached by one of its steps.** -/
theorem run_iff_steps {C : σ → ℓ → Prop} (h : ∀ s l, P (step s l) ↔ P s ∨ C s l) (s : σ) (ls : List ℓ) :
    P (run step s ls) ↔ P s ∨ ∃ x ∈ steps step s ls, C x.1 x.2 := by
  induction ls generalizing s with
  | nil => simp [run, steps]
  | cons l ls ih =>
    have hrun : run step s (l :: ls) = run step (step s l) ls := rfl
    rw [hrun, ih (step s l), h s l, steps, List.exists_mem_cons_iff, or_assoc]

/-- A run whose steps all keep `P` has it in every state. -/
theorem run_of_steps (hP : P s) {ls : List ℓ} (h : ∀ x ∈ steps step s ls, P (step x.1 x.2)) : P (run step s ls) := by
  induction ls generalizing s with
  | nil => exact hP
  | cons l ls ih =>
    simp only [steps, List.forall_mem_cons] at h
    exact ih h.1 h.2

end Runs
