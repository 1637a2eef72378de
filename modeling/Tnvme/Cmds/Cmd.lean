import Tnvme.Lib.Fields

/-!
# Commands

The buffer of a command holds 64 bytes. It is one word here, its first byte at the bottom. The accessors of `Cmd` read
and write a dword, or the `dwOffset`-th part of a dword when this is cut into parts of 16, 8, 4 or 1 bits. In terms of
bit fields they are `get` and `put` (`setBits_eq`, `getBits_eq`).

Most setters of the classes of commands change some bits of a part only. They read it, clear the bits of a mask, merge
the new value and write the part back (`mergeByte`, `mergeWord`, `mergeDword`), which is a `put` of the bits under the
mask.
-/

namespace Tnvme

open Fields

/-- What is in `mCmdBuf`. -/
abbrev Cmd := BitVec 512

namespace Cmd

/-- `GetCmdSizeDW` -/
def cmdSizeDW : Nat := 16

def getDword (c : Cmd) (whichDW : Nat) : Option (BitVec 32) :=
  if cmdSizeDW ≤ whichDW then none else some (get (32 * whichDW) 32 c)

def setDword (c : Cmd) (newVal : BitVec 32) (whichDW : Nat) : Option Cmd :=
  if cmdSizeDW ≤ whichDW then none else some (put (32 * whichDW) newVal c)

/-- The loop over the bits of a part. -/
def bitsMask (numBits : Nat) : BitVec 32 := (List.range numBits).foldl (fun mask i => mask ||| 1#32 <<< i) 0#32

def setBits (c : Cmd) (newVal : BitVec 32) (whichDW dwOffset numBits : Nat) : Option Cmd :=
  if cmdSizeDW ≤ whichDW then none
  else if 32 / numBits ≤ dwOffset then none
  else do
    let dw ← c.getDword whichDW
    let mask := bitsMask numBits
    c.setDword (dw &&& ~~~(mask <<< (dwOffset * numBits)) ||| (newVal &&& mask) <<< (dwOffset * numBits)) whichDW

def getBits (c : Cmd) (whichDW dwOffset numBits : Nat) : Option (BitVec 64) :=
  if cmdSizeDW ≤ whichDW then none
  else if 32 / numBits ≤ dwOffset then none
  else (c.getDword whichDW).map fun (dw : BitVec 32) => (dw >>> (dwOffset * numBits) &&& bitsMask numBits).setWidth 64

def getWord (c : Cmd) (whichDW dwOffset : Nat) : Option (BitVec 16) :=
  (c.getBits whichDW dwOffset 16).map (·.setWidth 16)

def getByte (c : Cmd) (whichDW dwOffset : Nat) : Option (BitVec 8) := (c.getBits whichDW dwOffset 8).map (·.setWidth 8)

def getBit (c : Cmd) (whichDW dwOffset : Nat) : Option Bool := (c.getBits whichDW dwOffset 1).map (· == 1#64)

def setWord (c : Cmd) (newVal : BitVec 16) (whichDW dwOffset : Nat) : Option Cmd :=
  c.setBits (newVal.setWidth 32) whichDW dwOffset 16

def setByte (c : Cmd) (newVal : BitVec 8) (whichDW dwOffset : Nat) : Option Cmd :=
  c.setBits (newVal.setWidth 32) whichDW dwOffset 8

def setBit (c : Cmd) (newVal : Bool) (whichDW dwOffset : Nat) : Option Cmd :=
  c.setBits (if newVal then 1#32 else 0#32) whichDW dwOffset 1

/-! ## Setters that read, change and write back -/

def mergeByte (c : Cmd) (mask newVal : BitVec 8) (whichDW dwOffset : Nat) : Option Cmd := do
  let work ← c.getByte whichDW dwOffset
  c.setByte (work &&& ~~~mask ||| newVal) whichDW dwOffset

def mergeWord (c : Cmd) (mask newVal : BitVec 16) (whichDW dwOffset : Nat) : Option Cmd := do
  let work ← c.getWord whichDW dwOffset
  c.setWord (work &&& ~~~mask ||| newVal) whichDW dwOffset

def mergeDword (c : Cmd) (mask newVal : BitVec 32) (whichDW : Nat) : Option Cmd := do
  let work ← c.getDword whichDW
  c.setDword (work &&& ~~~mask ||| newVal) whichDW

/-! ## The accessors as bit fields -/

variable {c : Cmd} {dw off nb : Nat}

theorem getDword_eq (hdw : dw < cmdSizeDW) : c.getDword dw = some (get (32 * dw) 32 c) :=
  if_neg (Nat.not_le_of_lt hdw)

theorem setDword_eq (hdw : dw < cmdSizeDW) (v : BitVec 32) : c.setDword v dw = some (put (32 * dw) v c) :=
  if_neg (Nat.not_le_of_lt hdw)

theorem getLsbD_bitsMask (nb i : Nat) : (bitsMask nb).getLsbD i = decide (i < 32 ∧ i < nb) := by
  induction nb with
  | zero => simp [bitsMask]
  | succ nb ih =>
    have hsucc : bitsMask (nb + 1) = bitsMask nb ||| 1#32 <<< nb := by
      rw [bitsMask, List.range_succ, List.foldl_append]
      rfl
    rw [hsucc, BitVec.getLsbD_or, ih, BitVec.getLsbD_shiftLeft, BitVec.getLsbD_one]
    grind

theorem bitsMask_eq (nb : Nat) : bitsMask nb = mask 32 0 nb := by
  refine BitVec.eq_of_getLsbD_eq fun i _ => ?_
  rw [getLsbD_bitsMask, getLsbD_mask]
  simp

/-- The part lies within the dword. -/
theorem part_le (hoff : off < 32 / nb) : off * nb + nb ≤ 32 := by
  rcases Nat.eq_zero_or_pos nb with rfl | hnb
  · omega
  · have h := (Nat.le_div_iff_mul_le hnb).1 (Nat.succ_le_of_lt hoff)
    rwa [Nat.succ_mul] at h

/-- The mask cleared, and the value merged. -/
theorem merge_bitsMask (k nb : Nat) (v dw : BitVec 32) :
    dw &&& ~~~(bitsMask nb <<< k) ||| (v &&& bitsMask nb) <<< k = put k (v.setWidth nb) dw := by
  have hmask : bitsMask nb <<< k = mask 32 k nb := by
    refine BitVec.eq_of_getLsbD_eq fun i hi => ?_
    simp only [BitVec.getLsbD_shiftLeft, getLsbD_bitsMask, getLsbD_mask]
    grind
  have hval : (v &&& bitsMask nb) <<< k = (v.setWidth nb).setWidth 32 <<< k := by
    refine BitVec.eq_of_getLsbD_eq fun i hi => ?_
    simp only [BitVec.getLsbD_shiftLeft, BitVec.getLsbD_and, getLsbD_bitsMask, BitVec.getLsbD_setWidth]
    grind
  rw [hmask, hval, put]

/-- **What `SetBits` writes.** -/
theorem setBits_eq (hdw : dw < cmdSizeDW) (hoff : off < 32 / nb) (v : BitVec 32) :
    c.setBits v dw off nb = some (put (32 * dw + off * nb) (v.setWidth nb) c) := by
  rw [setBits, if_neg (Nat.not_le_of_lt hdw), if_neg (Nat.not_le_of_lt hoff), getDword_eq hdw, Option.bind_eq_bind,
    Option.bind_some]
  dsimp only
  rw [merge_bitsMask, setDword_eq hdw, put_put_get (part_le hoff)]

theorem getBits_eq (hdw : dw < cmdSizeDW) (hoff : off < 32 / nb) :
    c.getBits dw off nb = some ((get (32 * dw + off * nb) nb c).setWidth 64) := by
  have hle := part_le hoff
  rw [getBits, if_neg (Nat.not_le_of_lt hdw), if_neg (Nat.not_le_of_lt hoff), getDword_eq hdw, Option.map_some,
    bitsMask_eq, ushiftRight_and_mask, get_get hle, BitVec.setWidth_setWidth (by omega)]

/-! Parts of 16, 8 and 1 bits. -/

theorem getWord_eq (hdw : dw < cmdSizeDW) (hoff : off < 2) :
    c.getWord dw off = some (get (32 * dw + off * 16) 16 c) := by
  rw [getWord, getBits_eq hdw hoff, Option.map_some, BitVec.setWidth_setWidth_of_le _ (by decide), BitVec.setWidth_eq]

theorem getByte_eq (hdw : dw < cmdSizeDW) (hoff : off < 4) : c.getByte dw off = some (get (32 * dw + off * 8) 8 c) := by
  rw [getByte, getBits_eq hdw hoff, Option.map_some, BitVec.setWidth_setWidth_of_le _ (by decide), BitVec.setWidth_eq]

theorem getBit_eq (hdw : dw < cmdSizeDW) (hoff : off < 32) :
    c.getBit dw off = some (get (32 * dw + off) 1 c == 1#1) := by
  have hone (b : BitVec 1) : (b.setWidth 64 == 1#64) = (b == 1#1) := by
    revert b
    decide
  rw [getBit, getBits_eq hdw hoff, Option.map_some, hone, Nat.mul_one]

theorem setWord_eq (hdw : dw < cmdSizeDW) (hoff : off < 2) (v : BitVec 16) :
    c.setWord v dw off = some (put (32 * dw + off * 16) v c) := by
  rw [setWord, setBits_eq hdw hoff, BitVec.setWidth_setWidth_of_le _ (by decide), BitVec.setWidth_eq]

theorem setByte_eq (hdw : dw < cmdSizeDW) (hoff : off < 4) (v : BitVec 8) :
    c.setByte v dw off = some (put (32 * dw + off * 8) v c) := by
  rw [setByte, setBits_eq hdw hoff, BitVec.setWidth_setWidth_of_le _ (by decide), BitVec.setWidth_eq]

theorem setBit_eq (hdw : dw < cmdSizeDW) (hoff : off < 32) (b : Bool) :
    c.setBit b dw off = some (put (32 * dw + off) (BitVec.ofBool b) c) := by
  rw [setBit, setBits_eq hdw hoff, Nat.mul_one]
  cases b <;> rfl

/-! What getters return as numbers. -/

theorem getBit_toNat (dw off : Nat) (hdw : dw < cmdSizeDW) (hoff : off < 32) :
    (c.getBit dw off).map Bool.toNat = some (get (32 * dw + off) 1 c).toNat := by
  have htoNat (b : BitVec 1) : (b == 1#1).toNat = b.toNat := by
    revert b
    decide
  rw [getBit_eq hdw hoff, Option.map_some, htoNat]

theorem getByte_toNat (dw off : Nat) (hdw : dw < cmdSizeDW) (hoff : off < 4) :
    (c.getByte dw off).map BitVec.toNat = some (get (32 * dw + off * 8) 8 c).toNat := by
  rw [getByte_eq hdw hoff, Option.map_some]

theorem getWord_toNat (dw off : Nat) (hdw : dw < cmdSizeDW) (hoff : off < 2) :
    (c.getWord dw off).map BitVec.toNat = some (get (32 * dw + off * 16) 16 c).toNat := by
  rw [getWord_eq hdw hoff, Option.map_some]

/-! **Read, change and write back: the bits under the mask become those of the value.** -/

theorem mergeByte_eq {a k : Nat} (hdw : dw < cmdSizeDW) (hoff : off < 4) (hk : a + k ≤ 8) (x : BitVec 8) :
    c.mergeByte (mask 8 a k) (x &&& mask 8 a k) dw off = some (put (32 * dw + off * 8 + a) (get a k x) c) := by
  rw [mergeByte, getByte_eq hdw hoff, Option.bind_eq_bind, Option.bind_some, and_not_or_and, setByte_eq hdw hoff,
    put_put_get hk]

theorem mergeWord_eq {a k : Nat} (hdw : dw < cmdSizeDW) (hoff : off < 2) (hk : a + k ≤ 16) (x : BitVec 16) :
    c.mergeWord (mask 16 a k) (x &&& mask 16 a k) dw off = some (put (32 * dw + off * 16 + a) (get a k x) c) := by
  rw [mergeWord, getWord_eq hdw hoff, Option.bind_eq_bind, Option.bind_some, and_not_or_and, setWord_eq hdw hoff,
    put_put_get hk]

theorem mergeDword_eq {a k : Nat} (hdw : dw < cmdSizeDW) (hk : a + k ≤ 32) (x : BitVec 32) :
    c.mergeDword (mask 32 a k) (x &&& mask 32 a k) dw = some (put (32 * dw + a) (get a k x) c) := by
  rw [mergeDword, getDword_eq hdw, Option.bind_eq_bind, Option.bind_some, and_not_or_and, setDword_eq hdw,
    put_put_get hk]

/-- No mask is needed for a value that fits. -/
theorem mergeByte_shift {a k : Nat} (hdw : dw < cmdSizeDW) (hoff : off < 4) (hk : a + k ≤ 8) {x : BitVec 8}
    (hx : x.toNat < 2 ^ k) :
    c.mergeByte (mask 8 a k) (x <<< a) dw off = some (put (32 * dw + off * 8 + a) (x.setWidth k) c) := by
  have h := mergeByte_eq (c := c) hdw hoff hk (x <<< a)
  rwa [shiftLeft_and_mask hx, get_shiftLeft hk] at h

theorem mergeWord_shift {a k : Nat} (hdw : dw < cmdSizeDW) (hoff : off < 2) (hk : a + k ≤ 16) {x : BitVec 16}
    (hx : x.toNat < 2 ^ k) :
    c.mergeWord (mask 16 a k) (x <<< a) dw off = some (put (32 * dw + off * 16 + a) (x.setWidth k) c) := by
  have h := mergeWord_eq (c := c) hdw hoff hk (x <<< a)
  rwa [shiftLeft_and_mask hx, get_shiftLeft hk] at h

/-- The check of an argument in front of what is done with it. -/
theorem check_eq {limit x : BitVec 8} {k : Nat} (hlimit : limit.toNat + 1 = 2 ^ k) {r r' : Option Cmd}
    (h : x.toNat < 2 ^ k → r = r') :
    (if limit < x then none else r) = if x.toNat < 2 ^ k then r' else none := by
  by_cases hx : x.toNat < 2 ^ k
  · have hle : ¬limit < x := by
      rw [BitVec.lt_def]
      omega
    rw [if_neg hle, if_pos hx, h hx]
  · have hlt : limit < x := by
      rw [BitVec.lt_def]
      omega
    rw [if_pos hlt, if_neg hx]

end Cmd

end Tnvme
