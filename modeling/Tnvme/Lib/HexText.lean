import Mathlib.Algebra.Ring.Nat
import Mathlib.Data.List.Basic

/-!
# Hexadecimal texts of a fixed width

`digits w n` is what `%0wX` prints of a number below `16 ^ w`. Such a number is known from its text (`digits_inj`).
-/

namespace HexText

def digit (d : Nat) : Char := Char.ofNat (if d < 10 then 48 + d else 55 + d)

def digits : Nat → Nat → List Char
  | 0, _ => []
  | w + 1, n => digits w (n / 16) ++ [digit (n % 16)]

/-- `%02X` -/
def byte (b : BitVec 8) : String := String.ofList (digits 2 b.toNat)

/-- `%08X` -/
def word (n : Nat) : String := String.ofList (digits 8 n)

theorem digit_inj {d d' : Nat} (hd : d < 16) (hd' : d' < 16) (h : digit d = digit d') : d = d' := by
  have hall : ∀ e e' : Fin 16, digit e = digit e' → e.val = e'.val := by decide
  exact hall ⟨d, hd⟩ ⟨d', hd'⟩ h

@[simp] theorem length_digits (w n : Nat) : (digits w n).length = w := by
  induction w generalizing n with
  | zero => rfl
  | succ w ih => simp [digits, ih]

theorem digits_inj {w n n' : Nat} (hn : n < 16 ^ w) (hn' : n' < 16 ^ w) (h : digits w n = digits w n') : n = n' := by
  induction w generalizing n n' with
  | zero => omega
  | succ w ih =>
    obtain ⟨hhigh, hlow⟩ := List.append_inj' h rfl
    have hdiv : n / 16 = n' / 16 := ih (by omega) (by omega) hhigh
    have hmod : n % 16 = n' % 16 :=
      digit_inj (Nat.mod_lt _ (by decide)) (Nat.mod_lt _ (by decide)) (List.singleton_inj.1 hlow)
    omega

theorem word_inj {n n' : Nat} (hn : n < 2 ^ 32) (hn' : n' < 2 ^ 32) (h : word n = word n') : n = n' := by
  refine digits_inj (w := 8) (by omega) (by omega) ?_
  simpa [word] using congrArg String.toList h

@[simp] theorem length_byte (b : BitVec 8) : (byte b).length = 2 := by simp [byte]

end HexText
