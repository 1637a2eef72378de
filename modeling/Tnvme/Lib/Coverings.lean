import Mathlib.Data.List.Basic

/-!
# Tables of ranges that overlap

A table lists ranges `[lo, hi)` of numbers; they may overlap and need not be sorted. A number is looked up from the
front. If no range begins behind the end of all that is in front of it, then the first range that has a number comes
no later for a smaller number (`findIdx_mono`), and every number below the last end is in some range (`findIdx_lt`).
-/

namespace Coverings

variable {α : Type*} (lo hi : α → Nat)

/-- The range has the number. -/
def has (n : Nat) (r : α) : Bool := decide (lo r ≤ n) && decide (n < hi r)

/-- What comes next reaches back to `e`, the end of what is in front of it. -/
def Gapless : Nat → List α → Prop
  | _, [] => True
  | e, r :: rs => lo r ≤ e ∧ Gapless (max e (hi r)) rs

/-- The end of the ranges. -/
def reach (e : Nat) (rs : List α) : Nat := rs.foldl (fun e r => max e (hi r)) e

instance decidableGapless : (e : Nat) → (rs : List α) → Decidable (Gapless lo hi e rs)
  | _, [] => inferInstanceAs (Decidable True)
  | e, r :: rs => have := decidableGapless (max e (hi r)) rs; inferInstanceAs (Decidable (_ ∧ _))

variable {lo hi} {e n m : Nat} {rs : List α}

theorem has_of_lt {r : α} (hr : lo r ≤ e) (hn : e ≤ n) (hin : n < hi r) : has lo hi n r = true := by
  simp [has, hin]
  omega

theorem not_has_of_le {r : α} (h : hi r ≤ n) : has lo hi n r = false := by
  simp [has]
  omega

theorem findIdx_mono (h : Gapless lo hi e rs) (hn : e ≤ n) (hm : n ≤ m) :
    rs.findIdx (has lo hi n) ≤ rs.findIdx (has lo hi m) := by
  induction rs generalizing e with
  | nil => simp
  | cons r rs ih =>
    obtain ⟨hr, hrs⟩ := h
    by_cases hin : n < hi r
    · simp [List.findIdx_cons, has_of_lt hr hn hin]
    · have hout : has lo hi n r = false := not_has_of_le (Nat.le_of_not_lt hin)
      have hout' : has lo hi m r = false := not_has_of_le (Nat.le_trans (Nat.le_of_not_lt hin) hm)
      have := ih hrs (by omega)
      simpa [List.findIdx_cons, hout, hout'] using this

theorem findIdx_lt (h : Gapless lo hi e rs) (hn : e ≤ n) (hlt : n < reach hi e rs) :
    rs.findIdx (has lo hi n) < rs.length := by
  induction rs generalizing e with
  | nil => simp only [reach, List.foldl_nil] at hlt; omega
  | cons r rs ih =>
    obtain ⟨hr, hrs⟩ := h
    by_cases hin : n < hi r
    · simp [List.findIdx_cons, has_of_lt hr hn hin]
    · have hout : has lo hi n r = false := not_has_of_le (Nat.le_of_not_lt hin)
      have := ih hrs (by omega) hlt
      simpa [List.findIdx_cons, hout] using this

end Coverings
