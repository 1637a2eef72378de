import Tnvme.Cmds.Cmd
import Tnvme.Fw.World

/-!
# Commands of any size

`Init` takes the size of a command in bytes. The accessors of `Cmd` check their arguments against it and throw before
anything is written. `GetCmdSizeDW`, from which they have the size, is a `uint8_t`.

A `Place` is what an accessor reads or writes. The accessors are lenses on places below `GetCmdSizeDW()`, so on all of
a command exactly if it has less than 256 dwords (`lensLaws_iff`). A command of 64 bytes is a `Cmd` (`setBits_cmd`,
`getBits_cmd`).
-/

namespace Tnvme

open Fields

/-- What is in `mCmdBuf` when the command has `n` dwords. -/
abbrev CmdBuf (n : Nat) := BitVec (32 * n)

/-- The exceptions of `Init` and of the accessors. -/
inductive CmdErr where
  /-- `Illegal data direction specified: %d` -/
  | illegalDataDir (dataDir : DataDir)
  /-- `Illegal cmd size specified: %d` -/
  | illegalSize (cmdSize : BitVec 16)
  /-- `Cmd is not large enough to get requested value` -/
  | tooSmallToGet
  /-- `Cmd is not large enough to set requested value` -/
  | tooSmallToSet
  /-- `Cmd is not large enough (%d DWORDS) to set req'd DWORD %d` -/
  | tooSmallForDword (cmdSizeDW whichDW : BitVec 8)
  /-- `Illegal DW offset parameter passed: %d` -/
  | illegalOffset (dwOffset : BitVec 8)
  deriving DecidableEq, Repr

namespace CmdBuf

variable {n : Nat}

def getCmdSizeDW (n : Nat) : BitVec 8 := BitVec.ofNat 8 (4 * n / 4)

def getDword (c : CmdBuf n) (whichDW : BitVec 8) : Except CmdErr (BitVec 32) :=
  if getCmdSizeDW n ≤ whichDW then .error .tooSmallToGet else .ok (get (32 * whichDW.toNat) 32 c)

def setDword (c : CmdBuf n) (newVal : BitVec 32) (whichDW : BitVec 8) : Except CmdErr Unit × CmdBuf n :=
  if getCmdSizeDW n ≤ whichDW then (.error .tooSmallToSet, c) else (.ok (), put (32 * whichDW.toNat) newVal c)

def setBits (c : CmdBuf n) (newVal : BitVec 32) (whichDW dwOffset : BitVec 8) (numBits : Nat) :
    Except CmdErr Unit × CmdBuf n :=
  if getCmdSizeDW n ≤ whichDW then (.error (.tooSmallForDword (getCmdSizeDW n) whichDW), c)
  else if 32 / numBits ≤ dwOffset.toNat then (.error (.illegalOffset dwOffset), c)
  else match c.getDword whichDW with
    | .error e => (.error e, c)
    | .ok dw =>
      let mask := Cmd.bitsMask numBits
      c.setDword (dw &&& ~~~(mask <<< (dwOffset.toNat * numBits)) |||
        (newVal &&& mask) <<< (dwOffset.toNat * numBits)) whichDW

def getBits (c : CmdBuf n) (whichDW dwOffset : BitVec 8) (numBits : Nat) : Except CmdErr (BitVec 64) :=
  if getCmdSizeDW n ≤ whichDW then .error .tooSmallToGet
  else if 32 / numBits ≤ dwOffset.toNat then .error (.illegalOffset dwOffset)
  else (c.getDword whichDW).map fun (dw : BitVec 32) =>
    (dw >>> (dwOffset.toNat * numBits) &&& Cmd.bitsMask numBits).setWidth 64

def getWord (c : CmdBuf n) (whichDW dwOffset : BitVec 8) : Except CmdErr (BitVec 16) :=
  (c.getBits whichDW dwOffset 16).map (·.setWidth 16)

def getByte (c : CmdBuf n) (whichDW dwOffset : BitVec 8) : Except CmdErr (BitVec 8) :=
  (c.getBits whichDW dwOffset 8).map (·.setWidth 8)

def getNibble (c : CmdBuf n) (whichDW dwOffset : BitVec 8) : Except CmdErr (BitVec 8) :=
  (c.getBits whichDW dwOffset 4).map (·.setWidth 8)

def getBit (c : CmdBuf n) (whichDW dwOffset : BitVec 8) : Except CmdErr Bool :=
  (c.getBits whichDW dwOffset 1).map (· == 1#64)

def setWord (c : CmdBuf n) (newVal : BitVec 16) (whichDW dwOffset : BitVec 8) : Except CmdErr Unit × CmdBuf n :=
  c.setBits (newVal.setWidth 32) whichDW dwOffset 16

def setByte (c : CmdBuf n) (newVal : BitVec 8) (whichDW dwOffset : BitVec 8) : Except CmdErr Unit × CmdBuf n :=
  c.setBits (newVal.setWidth 32) whichDW dwOffset 8

def setNibble (c : CmdBuf n) (newVal : BitVec 8) (whichDW dwOffset : BitVec 8) : Except CmdErr Unit × CmdBuf n :=
  c.setBits (newVal.setWidth 32) whichDW dwOffset 4

def setBit (c : CmdBuf n) (newVal : Bool) (whichDW dwOffset : BitVec 8) : Except CmdErr Unit × CmdBuf n :=
  c.setBits (if newVal then 1#32 else 0#32) whichDW dwOffset 1

/-- `Init`, when there is memory for the buffer. It is filled with 0. -/
def init (opcode : BitVec 8) (dataDir : DataDir) (cmdSize : BitVec 16) : Except CmdErr ((n : Nat) × CmdBuf n) :=
  if dataDir = .bidirectional then .error (.illegalDataDir dataDir)
  else if cmdSize.toNat % 4 ≠ 0 then .error (.illegalSize cmdSize)
  else match (0 : CmdBuf (cmdSize.toNat / 4)).setByte opcode 0 0 with
    | (.error e, _) => .error e
    | (.ok (), c) => .ok ⟨_, c⟩

/-! ## Places -/

/-- What one of the accessors is called for. -/
inductive Place where
  | bit (whichDW dwOffset : BitVec 8)
  | nibble (whichDW dwOffset : BitVec 8)
  | byte (whichDW dwOffset : BitVec 8)
  | word (whichDW dwOffset : BitVec 8)
  | dword (whichDW : BitVec 8)
  deriving DecidableEq, Repr

namespace Place

def width : Place → Nat
  | bit .. => 1
  | nibble .. => 4
  | byte .. => 8
  | word .. => 16
  | dword _ => 32

def whichDW : Place → BitVec 8
  | bit whichDW _ | nibble whichDW _ | byte whichDW _ | word whichDW _ | dword whichDW => whichDW

def dwOffset : Place → BitVec 8
  | bit _ dwOffset | nibble _ dwOffset | byte _ dwOffset | word _ dwOffset => dwOffset
  | dword _ => 0

/-- The accessor that sets the place. -/
def set (p : Place) (newVal : Nat) (c : CmdBuf n) : Except CmdErr Unit × CmdBuf n :=
  match p with
  | bit whichDW dwOffset => c.setBit (newVal != 0) whichDW dwOffset
  | nibble whichDW dwOffset => c.setNibble (BitVec.ofNat 8 newVal) whichDW dwOffset
  | byte whichDW dwOffset => c.setByte (BitVec.ofNat 8 newVal) whichDW dwOffset
  | word whichDW dwOffset => c.setWord (BitVec.ofNat 16 newVal) whichDW dwOffset
  | dword whichDW => c.setDword (BitVec.ofNat 32 newVal) whichDW

def get (p : Place) (c : CmdBuf n) : Except CmdErr Nat :=
  match p with
  | bit whichDW dwOffset => (c.getBit whichDW dwOffset).map Bool.toNat
  | nibble whichDW dwOffset => (c.getNibble whichDW dwOffset).map BitVec.toNat
  | byte whichDW dwOffset => (c.getByte whichDW dwOffset).map BitVec.toNat
  | word whichDW dwOffset => (c.getWord whichDW dwOffset).map BitVec.toNat
  | dword whichDW => (c.getDword whichDW).map BitVec.toNat

/-- The first bit of the place. -/
def lo (p : Place) : Nat := 32 * p.whichDW.toNat + p.dwOffset.toNat * p.width

/-- The place is one of the first `dwords` dwords, or part of it. -/
def Inside (p : Place) (dwords : Nat) : Prop := p.whichDW.toNat < dwords ∧ p.dwOffset.toNat < 32 / p.width

instance (p : Place) (dwords : Nat) : Decidable (p.Inside dwords) := inferInstanceAs (Decidable (_ ∧ _))

end Place

/-- The accessors are lenses on the places inside, and throw on all others. -/
structure LensLaws (dwords n : Nat) : Prop where
  set_get (c : CmdBuf n) (p : Place) (newVal : Nat) : p.Inside dwords → newVal < 2 ^ p.width →
    (p.set newVal c).1 = .ok () ∧ p.get (p.set newVal c).2 = .ok newVal
  frame (c : CmdBuf n) (p : Place) (newVal i : Nat) : ¬(p.lo ≤ i ∧ i < p.lo + p.width) →
    (p.set newVal c).2.getLsbD i = c.getLsbD i
  comm (c : CmdBuf n) (p q : Place) (newVal newVal' : Nat) : p.Inside dwords → q.Inside dwords →
    Apart p.lo p.width q.lo q.width → (q.set newVal' (p.set newVal c).2).2 = (p.set newVal (q.set newVal' c).2).2
  throws (c : CmdBuf n) (p : Place) (newVal : Nat) : ¬p.Inside dwords →
    (∃ e, p.set newVal c = (.error e, c)) ∧ ∃ e, p.get c = .error e

/-! ## The accessors as bit fields -/

variable {c : CmdBuf n} {dw off : BitVec 8} {nb : Nat}

theorem toNat_getCmdSizeDW (n : Nat) : (getCmdSizeDW n).toNat = n % 256 := by
  rw [getCmdSizeDW, BitVec.toNat_ofNat, Nat.mul_div_cancel_left n (by decide)]

theorem not_getCmdSizeDW_le (hdw : dw.toNat < n % 256) : ¬getCmdSizeDW n ≤ dw := by
  rw [BitVec.le_def, toNat_getCmdSizeDW]
  exact Nat.not_le_of_lt hdw

theorem getCmdSizeDW_le (hdw : ¬dw.toNat < n % 256) : getCmdSizeDW n ≤ dw := by
  rw [BitVec.le_def, toNat_getCmdSizeDW]
  exact Nat.le_of_not_lt hdw

theorem getDword_eq (hdw : dw.toNat < n % 256) : c.getDword dw = .ok (Fields.get (32 * dw.toNat) 32 c) :=
  if_neg (not_getCmdSizeDW_le hdw)

theorem setDword_eq (hdw : dw.toNat < n % 256) (v : BitVec 32) :
    c.setDword v dw = (.ok (), put (32 * dw.toNat) v c) := if_neg (not_getCmdSizeDW_le hdw)

theorem setBits_eq (hdw : dw.toNat < n % 256) (hoff : off.toNat < 32 / nb) (v : BitVec 32) :
    c.setBits v dw off nb = (.ok (), put (32 * dw.toNat + off.toNat * nb) (v.setWidth nb) c) := by
  rw [setBits, if_neg (not_getCmdSizeDW_le hdw), if_neg (Nat.not_le_of_lt hoff), getDword_eq hdw]
  dsimp only
  rw [Cmd.merge_bitsMask, setDword_eq hdw, put_put_get (Cmd.part_le hoff)]

theorem getBits_eq (hdw : dw.toNat < n % 256) (hoff : off.toNat < 32 / nb) :
    c.getBits dw off nb = .ok ((Fields.get (32 * dw.toNat + off.toNat * nb) nb c).setWidth 64) := by
  have hle := Cmd.part_le hoff
  rw [getBits, if_neg (not_getCmdSizeDW_le hdw), if_neg (Nat.not_le_of_lt hoff), getDword_eq hdw, Except.map,
    Cmd.bitsMask_eq, ushiftRight_and_mask, get_get hle, BitVec.setWidth_setWidth (by omega)]

/-- An argument that does not fit is refused before anything is written. -/
theorem setBits_throws (h : ¬(dw.toNat < n % 256 ∧ off.toNat < 32 / nb)) (c : CmdBuf n) (v : BitVec 32) :
    ∃ e, c.setBits v dw off nb = (.error e, c) := by
  by_cases hdw : dw.toNat < n % 256
  · have hoff : 32 / nb ≤ off.toNat := Nat.le_of_not_lt fun hoff => h ⟨hdw, hoff⟩
    exact ⟨.illegalOffset off, by rw [setBits, if_neg (not_getCmdSizeDW_le hdw), if_pos hoff]⟩
  · exact ⟨.tooSmallForDword (getCmdSizeDW n) dw, if_pos (getCmdSizeDW_le hdw)⟩

theorem getBits_throws (h : ¬(dw.toNat < n % 256 ∧ off.toNat < 32 / nb)) (c : CmdBuf n) :
    ∃ e, c.getBits dw off nb = .error e := by
  by_cases hdw : dw.toNat < n % 256
  · have hoff : 32 / nb ≤ off.toNat := Nat.le_of_not_lt fun hoff => h ⟨hdw, hoff⟩
    exact ⟨.illegalOffset off, by rw [getBits, if_neg (not_getCmdSizeDW_le hdw), if_pos hoff]⟩
  · exact ⟨.tooSmallToGet, if_pos (getCmdSizeDW_le hdw)⟩

namespace Place

/-- The bits that the accessor makes of its argument. -/
def written (p : Place) (newVal : Nat) : BitVec p.width :=
  match p with
  | bit .. => BitVec.ofBool (newVal != 0)
  | nibble .. => BitVec.ofNat 4 newVal
  | byte .. => BitVec.ofNat 8 newVal
  | word .. => BitVec.ofNat 16 newVal
  | dword _ => BitVec.ofNat 32 newVal

variable {p : Place} {newVal : Nat}

theorem toNat_written (h : newVal < 2 ^ p.width) : (p.written newVal).toNat = newVal := by
  cases p with
  | bit =>
    obtain rfl | rfl : newVal = 0 ∨ newVal = 1 := by
      change newVal < 2 at h
      omega
    · rfl
    · rfl
  | nibble | byte | word | dword => exact Nat.mod_eq_of_lt h

theorem inside_dword {dw : BitVec 8} {dwords : Nat} : (dword dw).Inside dwords ↔ dw.toNat < dwords :=
  and_iff_left (show (0 : BitVec 8).toNat < 32 / 32 by decide)

theorem Inside.fits (h : p.Inside (n % 256)) : p.lo + p.width ≤ 32 * n := by
  have hpart := Cmd.part_le h.2
  have hdw := Nat.lt_of_lt_of_le h.1 (Nat.mod_le n 256)
  rw [lo]
  omega

/-- The argument of the accessor, `k` bits wide, is converted to that of `SetBits`. -/
theorem setBits_setWidth {k : Nat} (hnb : nb ≤ k) (hk : k ≤ 32) (h : dw.toNat < n % 256 ∧ off.toNat < 32 / nb)
    (newVal : Nat) (c : CmdBuf n) : c.setBits ((BitVec.ofNat k newVal).setWidth 32) dw off nb =
      (.ok (), put (32 * dw.toNat + off.toNat * nb) (BitVec.ofNat nb newVal) c) := by
  rw [setBits_eq h.1 h.2, BitVec.setWidth_setWidth_of_le _ (Nat.le_trans hnb hk), BitVec.setWidth_ofNat_of_le hnb]

/-- **What an accessor writes.** -/
theorem set_eq (h : p.Inside (n % 256)) (newVal : Nat) (c : CmdBuf n) :
    p.set newVal c = (.ok (), put p.lo (p.written newVal) c) := by
  cases p with
  | bit dw off =>
    obtain ⟨hdw, hoff⟩ : dw.toNat < n % 256 ∧ off.toNat < 32 / 1 := h
    have hbit : (if (newVal != 0) = true then 1#32 else 0#32).setWidth 1 = BitVec.ofBool (newVal != 0) := by
      cases newVal != 0 <;> rfl
    rw [set, setBit, setBits_eq hdw hoff, hbit]
    rfl
  | nibble => exact setBits_setWidth (show 4 ≤ 8 by decide) (by decide) h newVal c
  | byte => exact setBits_setWidth (Nat.le_refl 8) (by decide) h newVal c
  | word => exact setBits_setWidth (Nat.le_refl 16) (by decide) h newVal c
  | dword dw =>
    rw [set, setDword_eq (inside_dword.1 h)]
    rfl

/-- What `GetBits` returns is converted to the type of the accessor, `k` bits wide. -/
theorem toNat_getBits {k : Nat} (hnb : nb ≤ k) (hk : k ≤ 64) (h : dw.toNat < n % 256 ∧ off.toNat < 32 / nb)
    (c : CmdBuf n) : ((c.getBits dw off nb).map (·.setWidth k)).map BitVec.toNat =
      .ok (Fields.get (32 * dw.toNat + off.toNat * nb) nb c).toNat := by
  have hconv (b : BitVec nb) : ((b.setWidth 64).setWidth k).toNat = b.toNat := by
    rw [BitVec.setWidth_setWidth_of_le _ hk, BitVec.toNat_setWidth_of_le hnb]
  rw [getBits_eq h.1 h.2]
  exact congrArg Except.ok (hconv _)

theorem get_eq (h : p.Inside (n % 256)) (c : CmdBuf n) : p.get c = .ok (Fields.get p.lo p.width c).toNat := by
  cases p with
  | bit dw off =>
    obtain ⟨hdw, hoff⟩ : dw.toNat < n % 256 ∧ off.toNat < 32 / 1 := h
    have hbit (b : BitVec 1) : (b.setWidth 64 == 1#64).toNat = b.toNat := by
      revert b
      decide
    rw [get, getBit, getBits_eq hdw hoff]
    exact congrArg Except.ok (hbit _)
  | nibble => exact toNat_getBits (show 4 ≤ 8 by decide) (by decide) h c
  | byte => exact toNat_getBits (Nat.le_refl 8) (by decide) h c
  | word => exact toNat_getBits (Nat.le_refl 16) (by decide) h c
  | dword dw =>
    rw [get, getDword_eq (inside_dword.1 h)]
    rfl

theorem set_throws (h : ¬p.Inside (n % 256)) (newVal : Nat) (c : CmdBuf n) :
    ∃ e, p.set newVal c = (.error e, c) := by
  cases p with
  | bit | nibble | byte | word => exact setBits_throws h c _
  | dword dw => exact ⟨.tooSmallToSet, if_pos (getCmdSizeDW_le (mt inside_dword.2 h))⟩

theorem throws_map {α β : Type} {x : Except CmdErr α} (h : ∃ e, x = .error e) (f : α → β) :
    ∃ e, x.map f = .error e := by
  obtain ⟨e, rfl⟩ := h
  exact ⟨e, rfl⟩

theorem get_throws (h : ¬p.Inside (n % 256)) (c : CmdBuf n) : ∃ e, p.get c = .error e := by
  cases p with
  | bit | nibble | byte | word => exact throws_map (throws_map (getBits_throws h c) _) _
  | dword dw => exact throws_map ⟨.tooSmallToGet, if_pos (getCmdSizeDW_le (mt inside_dword.2 h))⟩ _

end Place

/-! ## The laws -/

/-- Below `GetCmdSizeDW()` the accessors are lenses, whatever the size. -/
theorem lensLaws_getCmdSizeDW (n : Nat) : LensLaws (getCmdSizeDW n).toNat n := by
  rw [toNat_getCmdSizeDW]
  constructor
  · intro c p newVal hp hval
    rw [Place.set_eq hp, Place.get_eq hp, get_put hp.fits, Place.toNat_written hval]
    exact ⟨rfl, rfl⟩
  · intro c p newVal i hi
    by_cases hp : p.Inside (n % 256)
    · rw [Place.set_eq hp]
      exact getLsbD_put_of_not _ c hi
    · obtain ⟨e, he⟩ := Place.set_throws hp newVal c
      rw [he]
  · intro c p q newVal newVal' hp hq hpq
    rw [Place.set_eq hp, Place.set_eq hq, Place.set_eq hq, Place.set_eq hp]
    exact put_comm hpq _ _ c
  · intro c p newVal hp
    exact ⟨Place.set_throws hp newVal c, Place.get_throws hp c⟩

/-- `SetNibble` takes a byte, and does not look at its upper half. -/
theorem setNibble_and (c : CmdBuf n) (newVal dw off : BitVec 8) :
    c.setNibble (newVal &&& 0x0f) dw off = c.setNibble newVal dw off := by
  have hmask (v : BitVec 8) : (v &&& 0x0f).setWidth 32 &&& Cmd.bitsMask 4 = v.setWidth 32 &&& Cmd.bitsMask 4 := by
    revert v
    decide
  rw [setNibble, setNibble, setBits, setBits]
  simp only [hmask]

/-- From 256 dwords on there is one that no accessor gets to. -/
theorem not_lensLaws_of_le (h : 256 ≤ n) : ¬LensLaws n n := by
  intro hlaws
  have hlast : (Place.dword 255).Inside n := Place.inside_dword.2 (Nat.lt_of_lt_of_le (by decide) h)
  have hout : ¬(Place.dword 255).Inside (n % 256) := fun hin =>
    absurd (Place.inside_dword.1 hin) (Nat.not_lt_of_le (Nat.le_of_lt_succ (Nat.mod_lt n (by decide))))
  obtain ⟨e, he⟩ := Place.set_throws hout 0 (0 : CmdBuf n)
  have hset := (hlaws.set_get 0 (.dword 255) 0 hlast (by decide)).1
  rw [he] at hset
  cases hset

/-- **The accessors are lenses on a whole command exactly if it has less than 256 dwords.** On what is below
`GetCmdSizeDW()` they always are, and `SetNibble` sets the low nibble of its argument. -/
theorem lensLaws_iff (n : Nat) : (LensLaws n n ↔ n < 256) ∧ LensLaws (getCmdSizeDW n).toNat n ∧
    ∀ (c : CmdBuf n) (newVal dw off : BitVec 8), c.setNibble (newVal &&& 0x0f) dw off = c.setNibble newVal dw off := by
  refine ⟨⟨fun hlaws => ?_, fun hn => ?_⟩, lensLaws_getCmdSizeDW n, setNibble_and⟩
  · by_contra hn
    exact not_lensLaws_of_le (Nat.le_of_not_lt hn) hlaws
  · have hlaws := lensLaws_getCmdSizeDW n
    rwa [toNat_getCmdSizeDW, Nat.mod_eq_of_lt hn] at hlaws

/-- A command of 1028 bytes has a single dword for the accessors. -/
theorem not_lensLaws : ¬∀ n, LensLaws n n := fun h => not_lensLaws_of_le (by decide) (h 257)

/-- **The sizes that `Init` takes** are the multiples of 4, except for those of 1024: with these it throws when it sets
the opcode. -/
theorem init_eq (opcode : BitVec 8) (dataDir : DataDir) (cmdSize : BitVec 16) :
    init opcode dataDir cmdSize =
      if dataDir = .bidirectional then .error (.illegalDataDir dataDir)
      else if cmdSize.toNat % 4 ≠ 0 then .error (.illegalSize cmdSize)
      else if cmdSize.toNat % 1024 = 0 then .error (.tooSmallForDword 0 0)
      else .ok ⟨cmdSize.toNat / 4, put 0 opcode 0⟩ := by
  unfold init
  split
  · rfl
  · split
    · rfl
    · rename_i hsize
      by_cases hzero : cmdSize.toNat % 1024 = 0
      · have hdw : getCmdSizeDW (cmdSize.toNat / 4) = 0 := by
          refine BitVec.eq_of_toNat_eq ?_
          rw [toNat_getCmdSizeDW]
          change _ = 0
          omega
        have hset : (0 : CmdBuf (cmdSize.toNat / 4)).setByte opcode 0 0 = (.error (.tooSmallForDword 0 0), 0) := by
          rw [setByte, setBits, if_pos (by rw [hdw]; exact BitVec.le_refl _), hdw]
        rw [if_pos hzero, hset]
      · have hpos : (0 : BitVec 8).toNat < cmdSize.toNat / 4 % 256 := by
          change 0 < _
          omega
        have hset : (0 : CmdBuf (cmdSize.toNat / 4)).setByte opcode 0 0 = (.ok (), put 0 opcode 0) := by
          rw [setByte, setBits_eq hpos (by decide), BitVec.setWidth_setWidth_of_le _ (by decide), BitVec.setWidth_eq]
          rfl
        rw [if_neg hzero, hset]

/-! ## Commands of 64 bytes -/

theorem getDword_cmd (c : CmdBuf 16) (dw : BitVec 8) : (c.getDword dw).toOption = Cmd.getDword c dw.toNat := by
  by_cases hdw : dw.toNat < 16
  · rw [getDword_eq hdw, Cmd.getDword_eq hdw]
    rfl
  · have hle : Cmd.cmdSizeDW ≤ dw.toNat := Nat.le_of_not_lt hdw
    rw [getDword, if_pos (getCmdSizeDW_le hdw), Cmd.getDword, if_pos hle]
    rfl

theorem getBits_cmd (c : CmdBuf 16) (dw off : BitVec 8) (nb : Nat) :
    (c.getBits dw off nb).toOption = Cmd.getBits c dw.toNat off.toNat nb := by
  by_cases hin : dw.toNat < 16 ∧ off.toNat < 32 / nb
  · rw [getBits_eq hin.1 hin.2, Cmd.getBits_eq hin.1 hin.2]
    rfl
  · obtain ⟨e, he⟩ := getBits_throws hin c
    rw [he, Cmd.getBits]
    split
    · rfl
    · rename_i hdw
      rw [if_pos (Nat.le_of_not_lt fun hoff => hin ⟨Nat.lt_of_not_le hdw, hoff⟩)]
      rfl

/-- The buffer after a call, if it returns. -/
theorem setBits_cmd (c : CmdBuf 16) (v : BitVec 32) (dw off : BitVec 8) (nb : Nat) :
    (c.setBits v dw off nb).1.toOption.map (fun _ => (c.setBits v dw off nb).2) =
      Cmd.setBits c v dw.toNat off.toNat nb := by
  by_cases hin : dw.toNat < 16 ∧ off.toNat < 32 / nb
  · rw [setBits_eq hin.1 hin.2, Cmd.setBits_eq hin.1 hin.2]
    rfl
  · obtain ⟨e, he⟩ := setBits_throws hin c v
    rw [he, Cmd.setBits]
    split
    · rfl
    · rename_i hdw
      rw [if_pos (Nat.le_of_not_lt fun hoff => hin ⟨Nat.lt_of_not_le hdw, hoff⟩)]
      rfl

end CmdBuf

end Tnvme
