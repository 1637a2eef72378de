import Mathlib.Algebra.Ring.Nat
import Mathlib.Data.BitVec
import Tnvme.Lib.Runs

/-!
# Bit fields

A field of a word is a number of neighbouring bits. `get` reads a field and `put` writes one, and `getLsbD_put` says
what `put` does to every bit. All laws follow from it.

* What is put is what is got (`get_put`), also after other fields have been put (`get_put_of_apart`), and the order of
  two fields does not matter (`put_comm`).
* A field of a field is a field (`put_put_get`): a byte that is read, changed in some bits and written back changes
  these bits.
* Clearing a mask and merging what is under it is a `put` (`and_not_or_and`).
* Fields one behind the other make up what they cover (`join_slices`).
* Different words have a least bit at which they differ (`exists_leastDiff`).

Fields of which no two overlap make a `Layout`. They are independent cells: after any number of writes each of them
holds what was written to it last (`Layout.read_run`).
-/

namespace Fields

variable {n w k lo lo' : Nat}

/-- The field of `w` bits that begins at bit `lo`. -/
def get (lo w : Nat) (m : BitVec n) : BitVec w := m.extractLsb' lo w

/-- The bits of a field. -/
def mask (n lo w : Nat) : BitVec n := (BitVec.allOnes w).setWidth n <<< lo

def put (lo : Nat) (v : BitVec w) (m : BitVec n) : BitVec n := m &&& ~~~mask n lo w ||| v.setWidth n <<< lo

/-- One field ends before the other one begins. -/
def Apart (lo w lo' k : Nat) : Prop := lo + w ≤ lo' ∨ lo' + k ≤ lo

instance : Decidable (Apart lo w lo' k) := inferInstanceAs (Decidable (_ ∨ _))

theorem getLsbD_get (lo w : Nat) (m : BitVec n) (i : Nat) :
    (get lo w m).getLsbD i = (decide (i < w) && m.getLsbD (lo + i)) := BitVec.getLsbD_extractLsb' lo w m i

theorem getLsbD_mask (n lo w i : Nat) : (mask n lo w).getLsbD i = decide (i < n ∧ lo ≤ i ∧ i < lo + w) := by
  simp only [mask, BitVec.getLsbD_shiftLeft, BitVec.getLsbD_setWidth, BitVec.getLsbD_allOnes]
  grind

/-- **The bits after a field has been put.** -/
theorem getLsbD_put (lo : Nat) (v : BitVec w) (m : BitVec n) (i : Nat) :
    (put lo v m).getLsbD i =
      if lo ≤ i ∧ i < lo + w then decide (i < n) && v.getLsbD (i - lo) else m.getLsbD i := by
  have hm : ¬i < n → m.getLsbD i = false := fun h => BitVec.getLsbD_of_ge m i (Nat.le_of_not_lt h)
  have hv : ¬i - lo < w → v.getLsbD (i - lo) = false := fun h => BitVec.getLsbD_of_ge v _ (Nat.le_of_not_lt h)
  simp only [put, BitVec.getLsbD_or, BitVec.getLsbD_and, BitVec.getLsbD_not, getLsbD_mask, BitVec.getLsbD_shiftLeft,
    BitVec.getLsbD_setWidth]
  grind

theorem getLsbD_put_of_not (v : BitVec w) (m : BitVec n) {i : Nat} (h : ¬(lo ≤ i ∧ i < lo + w)) :
    (put lo v m).getLsbD i = m.getLsbD i := by
  rw [getLsbD_put, if_neg h]

theorem get_put (h : lo + w ≤ n) (v : BitVec w) (m : BitVec n) : get lo w (put lo v m) = v := by
  refine BitVec.eq_of_getLsbD_eq fun i hi => ?_
  rw [getLsbD_get, getLsbD_put, if_pos (by omega), Nat.add_sub_cancel_left]
  simp [hi, show lo + i < n by omega]

theorem get_put_of_apart (h : Apart lo w lo' k) (v : BitVec w) (m : BitVec n) :
    get lo' k (put lo v m) = get lo' k m := by
  refine BitVec.eq_of_getLsbD_eq fun i hi => ?_
  rw [getLsbD_get, getLsbD_get, getLsbD_put_of_not]
  unfold Apart at h
  omega

theorem put_comm (h : Apart lo w lo' k) (v : BitVec w) (v' : BitVec k) (m : BitVec n) :
    put lo' v' (put lo v m) = put lo v (put lo' v' m) := by
  refine BitVec.eq_of_getLsbD_eq fun i hi => ?_
  simp only [getLsbD_put]
  unfold Apart at h
  grind

theorem get_get {a : Nat} (h : a + k ≤ w) (m : BitVec n) : get a k (get lo w m) = get (lo + a) k m := by
  refine BitVec.eq_of_getLsbD_eq fun i hi => ?_
  simp only [getLsbD_get, Nat.add_assoc]
  simp [hi, show a + i < w by omega]

theorem get_zero (h : w ≤ n) (m : BitVec n) : get 0 w m = m.setWidth w := (BitVec.setWidth_eq_extractLsb' h).symm

/-- **A field of a field.** -/
theorem put_put_get {a : Nat} (h : a + k ≤ w) (v : BitVec k) (m : BitVec n) :
    put lo (put a v (get lo w m)) m = put (lo + a) v m := by
  refine BitVec.eq_of_getLsbD_eq fun i hi => ?_
  rw [getLsbD_put, getLsbD_put, getLsbD_put, getLsbD_get]
  by_cases hin : lo ≤ i ∧ i < lo + w
  · have hsub : lo + (i - lo) = i := by omega
    rw [if_pos hin, decide_eq_true hi, decide_eq_true (show i - lo < w by omega), Bool.true_and, Bool.true_and, hsub,
      Nat.sub_sub]
    by_cases hfield : lo + a ≤ i ∧ i < lo + a + k
    · rw [if_pos (by omega), if_pos hfield, Bool.true_and]
    · rw [if_neg (by omega), if_neg hfield, Bool.true_and]
  · rw [if_neg hin, if_neg (by omega)]

/-- Clearing the bits of a field, and merging others. -/
theorem and_not_or_and (lo w : Nat) (x m : BitVec n) :
    m &&& ~~~mask n lo w ||| x &&& mask n lo w = put lo (get lo w x) m := by
  refine BitVec.eq_of_getLsbD_eq fun i hi => ?_
  simp only [BitVec.getLsbD_or, BitVec.getLsbD_and, BitVec.getLsbD_not, getLsbD_mask, getLsbD_put, getLsbD_get]
  grind

theorem get_shiftLeft (h : lo + w ≤ n) (x : BitVec n) : get lo w (x <<< lo) = x.setWidth w := by
  refine BitVec.eq_of_getLsbD_eq fun i hi => ?_
  rw [getLsbD_get, BitVec.getLsbD_shiftLeft, BitVec.getLsbD_setWidth, Nat.add_sub_cancel_left]
  simp [show lo + i < n by omega, show ¬lo + i < lo by omega]

/-- A value that fits is not changed by the mask of its field. -/
theorem shiftLeft_and_mask {x : BitVec n} (h : x.toNat < 2 ^ w) : x <<< lo &&& mask n lo w = x <<< lo := by
  refine BitVec.eq_of_getLsbD_eq fun i hi => ?_
  have hx : w ≤ i - lo → x.getLsbD (i - lo) = false := fun hw =>
    Nat.testBit_lt_two_pow (Nat.lt_of_lt_of_le h (Nat.pow_le_pow_right (by decide) hw))
  simp only [BitVec.getLsbD_and, BitVec.getLsbD_shiftLeft, getLsbD_mask]
  grind

theorem and_mask_ushiftRight (lo w : Nat) (x : BitVec n) : (x &&& mask n lo w) >>> lo = (get lo w x).setWidth n := by
  refine BitVec.eq_of_getLsbD_eq fun i hi => ?_
  have hx : ¬lo + i < n → x.getLsbD (lo + i) = false := fun h => BitVec.getLsbD_of_ge x _ (Nat.le_of_not_lt h)
  simp only [BitVec.getLsbD_ushiftRight, BitVec.getLsbD_and, getLsbD_mask, BitVec.getLsbD_setWidth, getLsbD_get]
  grind

theorem and_mask (w : Nat) (x : BitVec n) : x &&& mask n 0 w = (get 0 w x).setWidth n := by
  rw [← and_mask_ushiftRight, BitVec.ushiftRight_zero]

theorem ushiftRight_and_mask (lo w : Nat) (x : BitVec n) : x >>> lo &&& mask n 0 w = (get lo w x).setWidth n := by
  refine BitVec.eq_of_getLsbD_eq fun i hi => ?_
  simp only [BitVec.getLsbD_ushiftRight, BitVec.getLsbD_and, getLsbD_mask, BitVec.getLsbD_setWidth, getLsbD_get]
  grind

theorem toNat_and_mask_ushiftRight (h : w ≤ n) (lo : Nat) (x : BitVec n) :
    ((x &&& mask n lo w) >>> lo).toNat = (get lo w x).toNat := by
  rw [and_mask_ushiftRight, BitVec.toNat_setWidth_of_le h]

/-! Merging a value that fits, or that ends where the word does; setting and clearing all bits. -/

theorem and_not_or_shiftLeft (h : lo + w ≤ n) {x : BitVec n} (hx : x.toNat < 2 ^ w) (m : BitVec n) :
    m &&& ~~~mask n lo w ||| x <<< lo = put lo (x.setWidth w) m := by
  rw [← shiftLeft_and_mask hx, and_not_or_and, get_shiftLeft h]

theorem and_not_or_shiftLeft_top (h : lo + w = n) (x m : BitVec n) :
    m &&& ~~~mask n lo w ||| x <<< lo = put lo (x.setWidth w) m := by
  have htop : x <<< lo &&& mask n lo w = x <<< lo := by
    refine BitVec.eq_of_getLsbD_eq fun i hi => ?_
    simp only [BitVec.getLsbD_and, BitVec.getLsbD_shiftLeft, getLsbD_mask]
    grind
  rw [← htop, and_not_or_and, get_shiftLeft (Nat.le_of_eq h)]

/-- Under a mask words are the same if their bits are. -/
theorem and_mask_eq_iff {x y : BitVec n} : x &&& mask n lo w = y &&& mask n lo w ↔
    ∀ i, lo ≤ i → i < lo + w → x.getLsbD i = y.getLsbD i := by
  constructor
  · intro h i hle hlt
    by_cases hn : i < n
    · have hbit := congrArg (BitVec.getLsbD · i) h
      simp only [BitVec.getLsbD_and, getLsbD_mask] at hbit
      rwa [decide_eq_true ⟨hn, hle, hlt⟩, Bool.and_true, Bool.and_true] at hbit
    · rw [BitVec.getLsbD_of_ge x i (Nat.le_of_not_lt hn), BitVec.getLsbD_of_ge y i (Nat.le_of_not_lt hn)]
  · intro h
    refine BitVec.eq_of_getLsbD_eq fun i hi => ?_
    simp only [BitVec.getLsbD_and, getLsbD_mask]
    grind

theorem or_mask (lo w : Nat) (m : BitVec n) : m ||| mask n lo w = put lo (BitVec.allOnes w) m := by
  refine BitVec.eq_of_getLsbD_eq fun i hi => ?_
  simp only [BitVec.getLsbD_or, getLsbD_mask, getLsbD_put, BitVec.getLsbD_allOnes]
  grind

theorem and_not_mask (lo w : Nat) (m : BitVec n) : m &&& ~~~mask n lo w = put lo 0#w m := by
  refine BitVec.eq_of_getLsbD_eq fun i hi => ?_
  simp only [BitVec.getLsbD_and, BitVec.getLsbD_not, getLsbD_mask, getLsbD_put, BitVec.getLsbD_zero]
  grind

theorem put_and_not_mask (lo : Nat) (v : BitVec w) (m : BitVec n) :
    put lo v m &&& ~~~mask n lo w = m &&& ~~~mask n lo w := by
  refine BitVec.eq_of_getLsbD_eq fun i hi => ?_
  simp only [BitVec.getLsbD_and, BitVec.getLsbD_not, getLsbD_mask, getLsbD_put]
  grind

/-- A value fits into the lowest bits if it has no others. -/
theorem and_not_mask_eq_zero_iff (x : BitVec n) : x &&& ~~~mask n 0 w = 0#n ↔ x.toNat < 2 ^ w := by
  constructor
  · intro h
    refine Nat.lt_pow_two_of_testBit _ fun i hi => ?_
    by_cases hn : i < n
    · have hbit : (x &&& ~~~mask n 0 w).getLsbD i = false := by rw [h, BitVec.getLsbD_zero]
      rw [BitVec.getLsbD_and, BitVec.getLsbD_not, getLsbD_mask, decide_eq_true hn, Bool.true_and,
        decide_eq_false (show ¬(i < n ∧ 0 ≤ i ∧ i < 0 + w) by omega), Bool.not_false, Bool.and_true] at hbit
      exact hbit
    · exact BitVec.getLsbD_of_ge x i (Nat.le_of_not_lt hn)
  · intro h
    refine BitVec.eq_of_getLsbD_eq fun i hi => ?_
    have hx : w ≤ i → x.getLsbD i = false := fun hw =>
      Nat.testBit_lt_two_pow (Nat.lt_of_lt_of_le h (Nat.pow_le_pow_right (by decide) hw))
    simp only [BitVec.getLsbD_and, BitVec.getLsbD_not, getLsbD_mask, BitVec.getLsbD_zero]
    grind

/-! Two neighbours are one field. -/

theorem toNat_get_add (lo w k : Nat) (m : BitVec n) :
    (get lo (w + k) m).toNat = (get lo w m).toNat + 2 ^ w * (get (lo + w) k m).toNat := by
  simp only [get, BitVec.extractLsb'_toNat, Nat.pow_add, Nat.mod_mul, Nat.shiftRight_eq_div_pow, Nat.div_div_eq_div_mul]

theorem put_put_upper (v : BitVec (w + k)) (m : BitVec n) :
    put (lo + w) ((v >>> w).setWidth k) (put lo (v.setWidth w) m) = put lo v m := by
  refine BitVec.eq_of_getLsbD_eq fun i hi => ?_
  rw [getLsbD_put, getLsbD_put, getLsbD_put, BitVec.getLsbD_setWidth, BitVec.getLsbD_setWidth,
    BitVec.getLsbD_ushiftRight]
  by_cases hup : lo + w ≤ i ∧ i < lo + w + k
  · have hsub : w + (i - (lo + w)) = i - lo := by omega
    rw [if_pos hup, if_pos (by omega), decide_eq_true (show i - (lo + w) < k by omega), hsub, Bool.true_and]
  · rw [if_neg hup]
    by_cases hlow : lo ≤ i ∧ i < lo + w
    · rw [if_pos hlow, if_pos (by omega), decide_eq_true (show i - lo < w by omega), Bool.true_and]
    · rw [if_neg hlow, if_neg (by omega)]

theorem get_or_get_upper (lo w k : Nat) (m : BitVec n) :
    (get lo w m).setWidth (w + k) ||| (get (lo + w) k m).setWidth (w + k) <<< w = get lo (w + k) m := by
  refine BitVec.eq_of_getLsbD_eq fun i hi => ?_
  rw [BitVec.getLsbD_or, BitVec.getLsbD_shiftLeft, BitVec.getLsbD_setWidth, BitVec.getLsbD_setWidth, getLsbD_get,
    getLsbD_get, getLsbD_get]
  by_cases hw : i < w
  · simp [hi, hw]
  · have hsub : lo + w + (i - w) = lo + i := by omega
    simp [hi, hw, hsub, show i - w < w + k by omega, show i - w < k by omega]

theorem setWidth_get_or_upper (N lo w k : Nat) (m : BitVec n) :
    (get lo w m).setWidth N ||| (get (lo + w) k m).setWidth N <<< w = (get lo (w + k) m).setWidth N := by
  refine BitVec.eq_of_getLsbD_eq fun i hi => ?_
  rw [BitVec.getLsbD_or, BitVec.getLsbD_shiftLeft, BitVec.getLsbD_setWidth, BitVec.getLsbD_setWidth,
    BitVec.getLsbD_setWidth, getLsbD_get, getLsbD_get, getLsbD_get]
  by_cases hw : i < w
  · simp [hi, hw, Nat.lt_add_right k hw]
  · have hsub : lo + w + (i - w) = lo + i := by omega
    have hk : i - w < k ↔ i < w + k := by omega
    simp [hi, hw, hsub, hk, show i - w < N by omega]

/-- The upper one in front. -/
theorem append_get (lo w k : Nat) (m : BitVec n) : get (lo + w) k m ++ get lo w m = get lo (k + w) m := by
  refine BitVec.eq_of_getLsbD_eq fun i hi => ?_
  rw [BitVec.getLsbD_append, getLsbD_get, getLsbD_get, getLsbD_get]
  by_cases hw : i < w
  · simp [hw, hi]
  · have hsub : lo + w + (i - w) = lo + i := by omega
    simp [hw, hi, hsub, show i - w < k by omega]

theorem get_setWidth {N : Nat} (h : lo + w ≤ N) (m : BitVec n) : get lo w (m.setWidth N) = get lo w m := by
  refine BitVec.eq_of_getLsbD_eq fun i hi => ?_
  rw [getLsbD_get, getLsbD_get, BitVec.getLsbD_setWidth, decide_eq_true (show lo + i < N by omega), Bool.true_and]

theorem get_ushiftRight (lo w k : Nat) (m : BitVec n) :
    get lo (w + k) m >>> w = (get (lo + w) k m).setWidth (w + k) := by
  refine BitVec.eq_of_getLsbD_eq fun i hi => ?_
  rw [BitVec.getLsbD_ushiftRight, BitVec.getLsbD_setWidth, getLsbD_get, getLsbD_get]
  simp [hi, Nat.add_assoc]

/-! ## The least difference -/

/-- The words differ at this bit, and at none below. -/
def LeastDiff (x y : BitVec n) (i : Nat) : Prop :=
  x.getLsbD i ≠ y.getLsbD i ∧ ∀ j < i, x.getLsbD j = y.getLsbD j

section LeastDiff

variable {x y : BitVec n} {i j : Nat}

theorem LeastDiff.lt (h : LeastDiff x y i) : i < n := by
  by_contra hi
  refine h.1 ?_
  rw [BitVec.getLsbD_of_ge x i (Nat.le_of_not_lt hi), BitVec.getLsbD_of_ge y i (Nat.le_of_not_lt hi)]

theorem LeastDiff.ne (h : LeastDiff x y i) : x ≠ y := by
  rintro rfl
  exact h.1 rfl

theorem LeastDiff.unique (h : LeastDiff x y i) (hj : LeastDiff x y j) : i = j := by
  rcases Nat.lt_trichotomy i j with hlt | heq | hlt
  · exact absurd (hj.2 i hlt) h.1
  · exact heq
  · exact absurd (h.2 j hlt) hj.1

theorem exists_leastDiff (h : x ≠ y) : ∃ i, LeastDiff x y i := by
  have hdiff : ∃ i, x.getLsbD i ≠ y.getLsbD i := by
    by_contra hall
    exact h (BitVec.eq_of_getLsbD_eq fun i _ => not_not.1 fun hne => hall ⟨i, hne⟩)
  exact ⟨Nat.find hdiff, Nat.find_spec hdiff, fun j hj => not_not.1 (Nat.find_min hdiff hj)⟩

end LeastDiff

/-! ## Fields one behind the other -/

/-- Neighbouring fields of the given widths from a bit on: the number in each, and its width. -/
def slices (m : BitVec n) : Nat → List Nat → List (Nat × Nat)
  | _, [] => []
  | lo, w :: ws => ((get lo w m).toNat, w) :: slices m (lo + w) ws

/-- The number that fields make one behind the other, the first one at the bottom. -/
def join : List (Nat × Nat) → Nat
  | [] => 0
  | (v, w) :: fields => v + 2 ^ w * join fields

theorem join_slices (m : BitVec n) (lo : Nat) (ws : List Nat) :
    join (slices m lo ws) = (get lo ws.sum m).toNat := by
  induction ws generalizing lo with
  | nil => simp [slices, join, get]
  | cons w ws ih => rw [slices, join, ih, List.sum_cons, toNat_get_add]

theorem lt_of_mem_slices {m : BitVec n} {ws : List Nat} {field : Nat × Nat} (h : field ∈ slices m lo ws) :
    field.1 < 2 ^ field.2 := by
  induction ws generalizing lo with
  | nil => cases h
  | cons w ws ih =>
    rcases List.mem_cons.1 h with rfl | h
    · exact (get lo w m).isLt
    · exact ih h

/-! ## Writes to several fields -/

section Each

variable {α : Type*} {pos width : α → Nat} {val : (a : α) → BitVec (width a)} {as : List α}

/-- The write that belongs to `a`. -/
def putEach (pos : α → Nat) (val : (a : α) → BitVec (width a)) (m : BitVec n) (a : α) : BitVec n :=
  put (pos a) (val a) m

theorem get_run_of_forall_apart (h : ∀ a ∈ as, Apart (pos a) (width a) lo k) (m : BitVec n) :
    get lo k (Runs.run (putEach pos val) m as) = get lo k m := by
  induction as generalizing m with
  | nil => rfl
  | cons a as ih =>
    change get lo k (Runs.run _ (put (pos a) (val a) m) as) = _
    rw [ih fun b hb => h b (List.mem_cons_of_mem a hb), get_put_of_apart (h a List.mem_cons_self)]

/-- Each field holds its value when no two overlap. -/
theorem get_run_of_mem (h : as.Pairwise fun a b => Apart (pos a) (width a) (pos b) (width b)) {a : α} (ha : a ∈ as)
    (hfit : pos a + width a ≤ n) (m : BitVec n) :
    get (pos a) (width a) (Runs.run (putEach pos val) m as) = val a := by
  induction as generalizing m with
  | nil => cases ha
  | cons b as ih =>
    change get (pos a) (width a) (Runs.run _ (put (pos b) (val b) m) as) = _
    obtain ⟨hb, has⟩ := List.pairwise_cons.1 h
    rcases List.mem_cons.1 ha with rfl | ha
    · rw [get_run_of_forall_apart (fun d hd => (hb d hd).symm), get_put hfit]
    · exact ih has ha _

theorem getLsbD_run_of_forall_not {p : Nat} (h : ∀ a ∈ as, ¬(pos a ≤ p ∧ p < pos a + width a)) (m : BitVec n) :
    (Runs.run (putEach pos val) m as).getLsbD p = m.getLsbD p := by
  induction as generalizing m with
  | nil => rfl
  | cons a as ih =>
    change (Runs.run _ (put (pos a) (val a) m) as).getLsbD p = _
    rw [ih fun b hb => h b (List.mem_cons_of_mem a hb), getLsbD_put_of_not _ _ (h a List.mem_cons_self)]

end Each

/-! ## Layouts -/

/-- Fields of which no two overlap. -/
structure Layout (ι : Type*) (n : Nat) where
  lo : ι → Nat
  width : ι → Nat
  fits (i : ι) : lo i + width i ≤ n
  apart (i j : ι) : i ≠ j → Apart (lo i) (width i) (lo j) (width j)

namespace Layout

variable {ι : Type*} (L : Layout ι n)

def read (i : ι) (m : BitVec n) : Nat := (get (L.lo i) (L.width i) m).toNat

def write (m : BitVec n) (x : ι × Nat) : BitVec n := put (L.lo x.1) (BitVec.ofNat (L.width x.1) x.2) m

/-- The bit belongs to the field. -/
def Holds (i : ι) (p : Nat) : Prop := L.lo i ≤ p ∧ p < L.lo i + L.width i

/-- What is written to a field last, if anything is. -/
def last [DecidableEq ι] (i : ι) (xs : List (ι × Nat)) : Option Nat := ((xs.filter (·.1 = i)).getLast?).map Prod.snd

/-- What a field should hold after writes. -/
def final [DecidableEq ι] (i : ι) (m : BitVec n) (xs : List (ι × Nat)) : Nat :=
  (last i xs).elim (L.read i m) (· % 2 ^ L.width i)

variable {L}

theorem read_write (i : ι) (v : Nat) (m : BitVec n) : L.read i (L.write m (i, v)) = v % 2 ^ L.width i := by
  rw [read, write, get_put (L.fits i), BitVec.toNat_ofNat]

theorem read_write_of_ne {i j : ι} (h : j ≠ i) (v : Nat) (m : BitVec n) : L.read i (L.write m (j, v)) = L.read i m := by
  rw [read, write, get_put_of_apart (L.apart j i h), read]

theorem write_of_not_holds {i : ι} {p : Nat} (h : ¬L.Holds i p) (v : Nat) (m : BitVec n) :
    (L.write m (i, v)).getLsbD p = m.getLsbD p := getLsbD_put_of_not _ _ h

/-- **The fields are independent cells.** -/
theorem read_run [DecidableEq ι] (i : ι) (m : BitVec n) (xs : List (ι × Nat)) :
    L.read i (Runs.run L.write m xs) = L.final i m xs := by
  induction xs using List.reverseRecOn with
  | nil => rfl
  | append_singleton xs x ih =>
    obtain ⟨j, v⟩ := x
    rw [Runs.run_append]
    change L.read i (L.write (Runs.run L.write m xs) (j, v)) = _
    by_cases hj : j = i
    · subst hj
      rw [read_write]
      simp [final, last]
    · rw [read_write_of_ne hj, ih]
      simp [final, last, hj]

/-- The bits outside the fields that are written stay. -/
theorem get_run_of_apart {lo w : Nat} (m : BitVec n) {xs : List (ι × Nat)}
    (h : ∀ x ∈ xs, Apart (L.lo x.1) (L.width x.1) lo w) : get lo w (Runs.run L.write m xs) = get lo w m := by
  induction xs generalizing m with
  | nil => rfl
  | cons x xs ih =>
    exact (ih (L.write m x) fun y hy => h y (List.mem_cons_of_mem x hy)).trans
      (get_put_of_apart (h x List.mem_cons_self) _ m)

end Layout

end Fields
