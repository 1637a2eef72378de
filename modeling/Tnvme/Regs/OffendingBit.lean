import Tnvme.Info.Sizes

/-!
# The position of an offending bit

When a register does not hold what is expected, the tests report at which bit. `ReportOffendingBitPos` looks at one bit
after the other with the mask `1 << i`. This is an `int`: at 31 it becomes negative, and as a mask of 64 bits it covers
all bits from there on (`bitMask_thirtyOne`).

A difference below bit 32 is found where it is. Of any other one bit 31 is reported (`report_of_least`).
-/

namespace Tnvme

open Fields

namespace OffendingBit

/-- `INT_MAX` -/
def intMax : Nat := 2 ^ 31 - 1

/-- `1 << i`, as a mask of 64 bits. A shift by 32 or more is not defined; `wide` is what a machine makes of it. -/
def bitMask (wide : Nat → BitVec 32) (i : Nat) : BitVec 64 := ((oneShl i).toOption.getD (wide i)).signExtend 64

def reportOffendingBitPos (wide : Nat → BitVec 32) (val expectedVal : BitVec 64) : Nat :=
  ((List.range 64).find? fun i => val &&& bitMask wide i != expectedVal &&& bitMask wide i).getD intMax

/-- The least bit at which the values differ is reported, and that there is none exactly for equal values. -/
def ReportExact (wide : Nat → BitVec 32) (val expectedVal : BitVec 64) : Prop :=
  (val ≠ expectedVal → LeastDiff val expectedVal (reportOffendingBitPos wide val expectedVal)) ∧
    (reportOffendingBitPos wide val expectedVal = intMax ↔ val = expectedVal)

variable {val expectedVal : BitVec 64} {wide : Nat → BitVec 32} {i : Nat}

/-- The low halves differ if the least difference is among them. -/
theorem lt_iff_of_least (h : LeastDiff val expectedVal i) :
    i < 32 ↔ val.setWidth 32 ≠ expectedVal.setWidth 32 := by
  constructor
  · intro hi heq
    have hbit := congrArg (BitVec.getLsbD · i) heq
    simp only [BitVec.getLsbD_setWidth, decide_eq_true hi, Bool.true_and] at hbit
    exact h.1 hbit
  · intro hne
    by_contra hi
    refine hne (BitVec.eq_of_getLsbD_eq fun j hj => ?_)
    rw [BitVec.getLsbD_setWidth, BitVec.getLsbD_setWidth, h.2 j (by omega)]

/-! ## What a mask covers -/

theorem bitMask_of_lt (wide : Nat → BitVec 32) (h : i < 31) : bitMask wide i = mask 64 i 1 := by
  rw [bitMask, oneShl_of_lt (by omega)]
  refine BitVec.eq_of_getLsbD_eq fun j hj => ?_
  simp only [Except.toOption, Option.getD_some, BitVec.getLsbD_signExtend, BitVec.getLsbD_twoPow, getLsbD_mask,
    BitVec.msb_eq_getLsbD_last]
  grind

/-- The sign is extended. -/
theorem bitMask_thirtyOne (wide : Nat → BitVec 32) : bitMask wide 31 = mask 64 31 33 := by
  rw [bitMask, oneShl_of_lt (by decide)]
  change (BitVec.twoPow 32 31).signExtend 64 = _
  decide

theorem differs_of_lt (h : i < 31) : (val &&& bitMask wide i != expectedVal &&& bitMask wide i) = true ↔
    val.getLsbD i ≠ expectedVal.getLsbD i := by
  rw [bne_iff_ne, bitMask_of_lt wide h, Ne, and_mask_eq_iff]
  refine not_congr ⟨fun heq => heq i (by omega) (by omega), fun heq j hle hlt => ?_⟩
  obtain rfl : j = i := by omega
  exact heq

/-- All bits from 31 on are looked at together. -/
theorem differs_thirtyOne (h : LeastDiff val expectedVal i) (hi : 31 ≤ i) :
    (val &&& bitMask wide 31 != expectedVal &&& bitMask wide 31) = true := by
  rw [bne_iff_ne, bitMask_thirtyOne, Ne, and_mask_eq_iff]
  have hlt := h.lt
  exact fun heq => h.1 (heq i (by omega) (by omega))

/-- **Bit 31 stands for all bits from there on.** -/
theorem report_of_least (wide : Nat → BitVec 32) (h : LeastDiff val expectedVal i) :
    reportOffendingBitPos wide val expectedVal = min i 31 := by
  have hfind : ((List.range 64).find? fun i => val &&& bitMask wide i != expectedVal &&& bitMask wide i) =
      some (min i 31) := by
    rw [List.find?_range_eq_some]
    refine ⟨?_, List.mem_range.2 (by omega), fun j hj => ?_⟩
    · by_cases hi : i < 31
      · rw [Nat.min_eq_left (Nat.le_of_lt hi), differs_of_lt hi]
        exact h.1
      · rw [Nat.min_eq_right (by omega)]
        exact differs_thirtyOne h (by omega)
    · rw [Bool.not_eq_true', Bool.eq_false_iff, Ne, differs_of_lt (by omega), not_not]
      exact h.2 j (by omega)
  rw [reportOffendingBitPos, hfind, Option.getD_some]

/-- Whatever the masks are. -/
theorem report_self (wide : Nat → BitVec 32) (val : BitVec 64) : reportOffendingBitPos wide val val = intMax := by
  have hfind : ((List.range 64).find? fun i => val &&& bitMask wide i != val &&& bitMask wide i) = none :=
    List.find?_eq_none.2 fun i _ => by rw [bne_self_eq_false]; exact Bool.false_ne_true
  rw [reportOffendingBitPos, hfind, Option.getD_none]

theorem intMax_ne_min (i : Nat) : min i 31 ≠ intMax := by
  unfold intMax
  omega

theorem report_eq_intMax_iff : reportOffendingBitPos wide val expectedVal = intMax ↔ val = expectedVal := by
  constructor
  · intro hmax
    by_contra hne
    obtain ⟨i, hi⟩ := exists_leastDiff hne
    exact intMax_ne_min i ((report_of_least wide hi).symm.trans hmax)
  · rintro rfl
    exact report_self wide val

theorem report_iff_of_least (h : LeastDiff val expectedVal i) : ReportExact wide val expectedVal ↔ i < 32 := by
  rw [ReportExact, and_iff_left report_eq_intMax_iff, forall_prop_of_true h.ne, report_of_least wide h]
  constructor
  · intro hmin
    have heq := hmin.unique h
    omega
  · intro hi
    rwa [Nat.min_eq_left (by omega)]

/-- **The report is right exactly if the values are equal, or differ in the low 32 bits.** -/
theorem reportExact_iff (wide : Nat → BitVec 32) (val expectedVal : BitVec 64) : ReportExact wide val expectedVal ↔
    val = expectedVal ∨ val.setWidth 32 ≠ expectedVal.setWidth 32 := by
  by_cases hval : val = expectedVal
  · refine iff_of_true ⟨fun hne => absurd hval hne, report_eq_intMax_iff⟩ (.inl hval)
  · obtain ⟨i, hi⟩ := exists_leastDiff hval
    rw [report_iff_of_least hi, or_iff_right hval, lt_iff_of_least hi]

/-- Bit 40 is reported as bit 31. -/
theorem report_not_exact : ¬∀ wide val expectedVal, ReportExact wide val expectedVal := by
  intro h
  have hleast : LeastDiff (BitVec.twoPow 64 40) 0 40 := ⟨by decide, by decide⟩
  exact absurd ((report_iff_of_least hleast).1 (h (fun _ => 0) _ _)) (by decide)

/-- Of registers of 32 bits, such as those in which an error is looked for after a test, the report is right. -/
theorem reportExact_of_narrow (wide : Nat → BitVec 32) (val expectedVal : BitVec 32) :
    ReportExact wide (val.setWidth 64) (expectedVal.setWidth 64) := by
  by_cases hval : val.setWidth 64 = expectedVal.setWidth 64
  · exact ⟨fun hne => absurd hval hne, report_eq_intMax_iff⟩
  · obtain ⟨i, hi⟩ := exists_leastDiff hval
    rw [report_iff_of_least hi, lt_iff_of_least hi, BitVec.setWidth_setWidth_of_le _ (by decide),
      BitVec.setWidth_setWidth_of_le _ (by decide), BitVec.setWidth_eq, BitVec.setWidth_eq]
    rintro rfl
    exact hval rfl

end OffendingBit

end Tnvme
