import Mathlib.Algebra.Ring.Nat
import Mathlib.Data.List.Basic

/-!
# Visiting a range in strides

A loop visits the numbers below `N` in ranges of `s`. It goes on while there is more than one number left, and shortens
the range that reaches the end. Sums are taken modulo `W`.

Such a loop visits every number once, and none from `N` on, exactly if the strides do not end in front of the last
number, and the end of the last whole stride is below `W` (`once_iff`).
-/

namespace Strides

variable {W N n s : Nat}

/-- The length of the range that begins at `n`. -/
def next (W N n s : Nat) : Nat := if N ≤ (n + s) % W then N - n else s

/-- The ranges from `n` on, each with its first number and its length; `none` if the loop has not ended. -/
def visit (W N : Nat) : Nat → Nat → Nat → Option (List (Nat × Nat))
  | 0, _, _ => none
  | fuel + 1, n, s =>
    if n < N - 1 then (visit W N fuel ((n + next W N n s) % W) (next W N n s)).map ((n, next W N n s) :: ·)
    else some []

/-- The range has the number. -/
def Has (r : Nat × Nat) (x : Nat) : Prop := r.1 ≤ x ∧ x < r.1 + r.2

instance (r : Nat × Nat) (x : Nat) : Decidable (Has r x) := inferInstanceAs (Decidable (_ ∧ _))

/-- Each number below `N` is in one range, and no other number is in any. -/
def Once (N : Nat) (l : List (Nat × Nat)) : Prop :=
  ∀ x, l.countP (fun r => decide (Has r x)) = if x < N then 1 else 0

theorem visit_of_lt {fuel : Nat} (h : n < N - 1) : visit W N (fuel + 1) n s =
    (visit W N fuel ((n + next W N n s) % W) (next W N n s)).map ((n, next W N n s) :: ·) := if_pos h

theorem visit_of_not_lt {fuel : Nat} (h : ¬n < N - 1) : visit W N (fuel + 1) n s = some [] := if_neg h

theorem visit_of_lt_some {fuel : Nat} {l : List (Nat × Nat)} (h : n < N - 1) (hl : visit W N (fuel + 1) n s = some l) :
    ∃ l', visit W N fuel ((n + next W N n s) % W) (next W N n s) = some l' ∧ l = (n, next W N n s) :: l' := by
  rw [visit_of_lt h] at hl
  obtain ⟨l', hl', rfl⟩ := Option.map_eq_some_iff.1 hl
  exact ⟨l', hl', rfl⟩

theorem next_le (W N n s : Nat) : next W N n s ≤ s := by
  unfold next
  split
  · have hmod := Nat.mod_le (n + s) W
    omega
  · exact Nat.le_refl s

theorem next_pos (hn : n < N - 1) (hs : 0 < s) : 0 < next W N n s := by
  unfold next
  split <;> omega

theorem next_zero (hlt : s < W) : next W N 0 s = min s N := by
  unfold next
  rw [Nat.zero_add, Nat.mod_eq_of_lt hlt]
  split <;> omega

/-- The ranges get no longer. -/
theorem visit_length {fuel : Nat} {l : List (Nat × Nat)} (hs : 0 < s) (hn : n < W)
    (h : visit W N fuel n s = some l) : ∀ r ∈ l, r.1 < W ∧ 0 < r.2 ∧ r.2 ≤ next W N n s := by
  induction fuel generalizing n s l with
  | zero => cases h
  | succ fuel ih =>
    by_cases hlast : n < N - 1
    · obtain ⟨l', hl', rfl⟩ := visit_of_lt_some hlast h
      have hpos := next_pos (W := W) hlast hs
      intro r hr
      rcases List.mem_cons.1 hr with rfl | hr
      · exact ⟨hn, hpos, Nat.le_refl _⟩
      · obtain ⟨hr1, hr2, hr3⟩ := ih hpos (Nat.mod_lt _ (Nat.zero_lt_of_lt hn)) hl' r hr
        exact ⟨hr1, hr2, Nat.le_trans hr3 (next_le W N _ _)⟩
    · rw [visit_of_not_lt hlast] at h
      cases h
      exact fun r hr => absurd hr List.not_mem_nil

/-! ## The condition is enough -/

/-- Behind whole strides the last number is not the only one that is left, and sums do not wrap. -/
theorem add_lt_of_dvd (hwrap : (N - 1) / s * s + s < W) (hn : n < N - 1) (hdvd : s ∣ n) : n + s < W := by
  obtain ⟨k, rfl⟩ := hdvd
  by_cases hs : s = 0
  · subst hs
    omega
  · have hk : k ≤ (N - 1) / s := (Nat.le_div_iff_mul_le (Nat.pos_of_ne_zero hs)).2 (by rw [Nat.mul_comm]; omega)
    have hmul := Nat.mul_le_mul_left s hk
    rw [Nat.mul_comm s ((N - 1) / s)] at hmul
    omega

theorem visit_once {n : Nat} (hs : 0 < s) (hdvd : ¬s ∣ N - 1) (hwrap : (N - 1) / s * s + s < W) (hN : N < W)
    (hn : n < N - 1) (hn' : s ∣ n) : ∃ fuel l, visit W N fuel n s = some l ∧
      ∀ x, l.countP (fun r => decide (Has r x)) = if n ≤ x ∧ x < N then 1 else 0 := by
  have hlt := add_lt_of_dvd hwrap hn hn'
  have hne : n + s ≠ N - 1 := fun h => hdvd (h ▸ Nat.dvd_add hn' (Nat.dvd_refl s))
  by_cases hend : N ≤ n + s
  · have hnext : next W N n s = N - n := if_pos (by rwa [Nat.mod_eq_of_lt hlt])
    have hsum : (n + (N - n)) % W = N := by
      rw [Nat.add_sub_cancel' (by omega), Nat.mod_eq_of_lt hN]
    refine ⟨2, [(n, N - n)], ?_, fun x => ?_⟩
    · rw [visit_of_lt hn, hnext, hsum, visit_of_not_lt (by omega)]
      rfl
    · have hhas : Has (n, N - n) x ↔ n ≤ x ∧ x < N := by
        rw [Has, Nat.add_sub_cancel' (show n ≤ N by omega)]
      rw [List.countP_singleton]
      simp only [decide_eq_true_eq, hhas]
  · have hnext : next W N n s = s := if_neg (by rwa [Nat.mod_eq_of_lt hlt])
    obtain ⟨fuel, l, hl, hcount⟩ := visit_once hs hdvd hwrap hN (show n + s < N - 1 by omega)
      (Nat.dvd_add hn' (Nat.dvd_refl s))
    refine ⟨fuel + 1, (n, s) :: l, ?_, fun x => ?_⟩
    · rw [visit_of_lt hn, hnext, Nat.mod_eq_of_lt hlt, hl]
      rfl
    · rw [List.countP_cons, hcount]
      simp only [decide_eq_true_eq]
      by_cases hx : Has (n, s) x
      · have hx' : n ≤ x ∧ x < n + s := hx
        rw [if_pos hx, if_neg (by omega), if_pos (by omega)]
      · have hx' : ¬(n ≤ x ∧ x < n + s) := hx
        rw [if_neg hx]
        by_cases hrest : n + s ≤ x ∧ x < N
        · rw [if_pos hrest, if_pos (by omega)]
        · rw [if_neg hrest, if_neg (by omega)]
termination_by N - n

/-! ## The condition is necessary -/

/-- If the strides end in front of the last number, it is not visited. -/
theorem visit_end (hdvd : s ∣ N - 1) (hN : N < W) {fuel : Nat} {l : List (Nat × Nat)} (hn : n ≤ N - 1) (hn' : s ∣ n)
    (h : visit W N fuel n s = some l) : ∀ r ∈ l, r.1 + r.2 ≤ N - 1 := by
  induction fuel generalizing n l with
  | zero => cases h
  | succ fuel ih =>
    by_cases hlast : n < N - 1
    · have hle : n + s ≤ N - 1 := by
        have hsub : s ≤ N - 1 - n := Nat.le_of_dvd (by omega) (Nat.dvd_sub hdvd hn')
        omega
      have hlt : n + s < W := by omega
      have hnext : next W N n s = s := if_neg (by rw [Nat.mod_eq_of_lt hlt]; omega)
      obtain ⟨l', hl', rfl⟩ := visit_of_lt_some hlast h
      rw [hnext, Nat.mod_eq_of_lt hlt] at hl'
      intro r hr
      rcases List.mem_cons.1 hr with rfl | hr
      · rwa [hnext]
      · exact ih hle (Nat.dvd_add hn' (Nat.dvd_refl s)) hl' r hr
    · rw [visit_of_not_lt hlast] at h
      cases h
      exact fun r hr => absurd hr List.not_mem_nil

/-- If the last whole stride goes beyond `W`, it is visited all the same. -/
theorem visit_wrap (hs : 0 < s) (hlt : s < W) (hdvd : ¬s ∣ N - 1) (hwrap : W ≤ (N - 1) / s * s + s) (hN : N < W)
    {fuel : Nat} {l : List (Nat × Nat)} (hn : n < N - 1) (hn' : s ∣ n) (h : visit W N fuel n s = some l) :
    ((N - 1) / s * s, s) ∈ l := by
  have hq : (N - 1) / s * s ≤ N - 1 := Nat.div_mul_le_self (N - 1) s
  have hqne : (N - 1) / s * s ≠ N - 1 := fun h => hdvd (h ▸ Nat.dvd_mul_left s _)
  induction fuel generalizing n l with
  | zero => cases h
  | succ fuel ih =>
    obtain ⟨l', hl', rfl⟩ := visit_of_lt_some hn h
    by_cases hlast : n = (N - 1) / s * s
    · have hnext : next W N n s = s := by
        refine if_neg ?_
        rw [Nat.mod_eq_sub_mod (by omega), Nat.mod_eq_of_lt (by omega)]
        omega
      rw [hnext, hlast]
      exact List.mem_cons_self
    · have hle : n + s ≤ (N - 1) / s * s := by
        obtain ⟨k, rfl⟩ := hn'
        have hk : k ≤ (N - 1) / s := (Nat.le_div_iff_mul_le hs).2 (by rw [Nat.mul_comm]; omega)
        have hk' : k < (N - 1) / s := Nat.lt_of_le_of_ne hk fun h => hlast (by rw [h, Nat.mul_comm])
        have hmul := Nat.mul_le_mul_left s (Nat.succ_le_of_lt hk')
        rw [Nat.mul_succ, Nat.mul_comm s ((N - 1) / s)] at hmul
        exact hmul
      have hsum : n + s < W := by omega
      have hnext : next W N n s = s := if_neg (by rw [Nat.mod_eq_of_lt hsum]; omega)
      rw [hnext, Nat.mod_eq_of_lt hsum] at hl'
      exact List.mem_cons_of_mem _ (ih (by omega) (Nat.dvd_add hn' (Nat.dvd_refl s)) hl')

/-- **Every number once.** -/
theorem once_iff (hs : 0 < s) (hlt : s < W) (hN : N < W) (hpos : 0 < N) :
    (∃ fuel l, visit W N fuel 0 s = some l ∧ Once N l) ↔ ¬s ∣ N - 1 ∧ (N - 1) / s * s + s < W := by
  constructor
  · rintro ⟨fuel, l, hl, honce⟩
    have hdvd : ¬s ∣ N - 1 := by
      intro hdvd
      have hlast := honce (N - 1)
      rw [if_pos (by omega)] at hlast
      obtain ⟨r, hr, hhas⟩ := List.countP_pos_iff.1 (show 0 < _ from hlast ▸ Nat.one_pos)
      have hle := visit_end hdvd hN (Nat.zero_le _) (Nat.dvd_zero s) hl r hr
      have hhas' := (of_decide_eq_true hhas).2
      omega
    refine ⟨hdvd, Nat.lt_of_not_le fun hwrap => ?_⟩
    have hzero : 0 < N - 1 := Nat.pos_of_ne_zero fun h => hdvd (h ▸ Nat.dvd_zero s)
    have hmem := visit_wrap hs hlt hdvd hwrap hN hzero (Nat.dvd_zero s) hl
    have hbeyond := honce ((N - 1) / s * s + s - 1)
    rw [if_neg (by omega), List.countP_eq_zero] at hbeyond
    refine hbeyond _ hmem (decide_eq_true ⟨?_, ?_⟩) <;> dsimp only <;> omega
  · rintro ⟨hdvd, hwrap⟩
    have hzero : 0 < N - 1 := Nat.pos_of_ne_zero fun h => hdvd (h ▸ Nat.dvd_zero s)
    obtain ⟨fuel, l, hl, hcount⟩ := visit_once hs hdvd hwrap hN hzero (Nat.dvd_zero s)
    refine ⟨fuel, l, hl, fun x => ?_⟩
    rw [hcount]
    simp only [Nat.zero_le, true_and]

end Strides
