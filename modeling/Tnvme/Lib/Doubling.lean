import Mathlib.Algebra.Order.Ring.Nat
import Mathlib.Data.List.Basic

/-!
# Doubling a counter

A loop visits the values of a counter that is doubled while it is at most `bound`, modulo `W`. It ends when the counter
has been doubled often enough (`walk_ends`), and visits the multiples of the start by powers of two (`mem_walk`).
-/

namespace Doubling

variable {W bound v : Nat}

/-- The values from `v` on; `none` if the loop has not ended. -/
def walk (W bound : Nat) : Nat → Nat → Option (List Nat)
  | 0, _ => none
  | fuel + 1, v => if v ≤ bound then (walk W bound fuel (2 * v % W)).map (v :: ·) else some []

/-- As long as nothing is cut off, the values are the doubled ones. -/
theorem mem_walk (hW : 2 * bound < W) {fuel : Nat} {l : List Nat} (h : walk W bound fuel v = some l) (x : Nat) :
    x ∈ l ↔ x ≤ bound ∧ ∃ j, x = 2 ^ j * v := by
  induction fuel generalizing v l with
  | zero => cases h
  | succ fuel ih =>
    rw [walk] at h
    split at h
    case isTrue hv =>
      obtain ⟨rest, hrest, rfl⟩ := Option.map_eq_some_iff.1 h
      rw [Nat.mod_eq_of_lt (by omega)] at hrest
      rw [List.mem_cons, ih hrest]
      constructor
      · rintro (rfl | ⟨hx, j, rfl⟩)
        · exact ⟨hv, 0, (Nat.one_mul x).symm⟩
        · exact ⟨hx, j + 1, by rw [Nat.pow_succ, Nat.mul_assoc]⟩
      · rintro ⟨hx, j, rfl⟩
        cases j with
        | zero => exact Or.inl (Nat.one_mul v)
        | succ j => exact Or.inr ⟨hx, j, by rw [Nat.pow_succ, Nat.mul_assoc]⟩
    case isFalse hv =>
      obtain rfl := Option.some.inj h
      refine iff_of_false List.not_mem_nil ?_
      rintro ⟨hx, j, rfl⟩
      have hle : 1 * v ≤ 2 ^ j * v := Nat.mul_le_mul_right v Nat.one_le_two_pow
      omega

/-- No value is below the start. -/
theorem le_of_mem_walk (hW : 2 * bound < W) {fuel : Nat} {l : List Nat} (h : walk W bound fuel v = some l) {x : Nat}
    (hx : x ∈ l) : v ≤ x := by
  obtain ⟨-, j, rfl⟩ := (mem_walk hW h x).1 hx
  exact Nat.le_mul_of_pos_left v (Nat.two_pow_pos j)

/-- The start is the first value, unless it is too large. -/
theorem start_mem_walk (hW : 2 * bound < W) {fuel : Nat} {l : List Nat} (h : walk W bound fuel v = some l)
    (hv : v ≤ bound) : v ∈ l := (mem_walk hW h v).2 ⟨hv, 0, (Nat.one_mul v).symm⟩

/-- With so many doublings the bound is passed. -/
theorem walk_ends (hW : 2 * bound < W) {fuel : Nat} (hv : bound < 2 ^ fuel * v) :
    ∃ l, walk W bound (fuel + 1) v = some l := by
  induction fuel generalizing v with
  | zero =>
    refine ⟨[], if_neg ?_⟩
    omega
  | succ fuel ih =>
    rw [walk]
    split
    case isTrue hle =>
      rw [Nat.pow_succ, Nat.mul_assoc] at hv
      rw [Nat.mod_eq_of_lt (by omega)]
      obtain ⟨l, hl⟩ := ih hv
      exact ⟨v :: l, congrArg (Option.map (v :: ·)) hl⟩
    case isFalse => exact ⟨[], rfl⟩

end Doubling
