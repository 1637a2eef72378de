import Tnvme.Cmds.Cmd

/-!
# The commands Read and Write

`Read` and `Write` have the same setters and getters, apart from the names of three fields. The fields are those of
the NVMe layout (`ioLayout`), and every setter writes its own one (`set_eq`); so the buffer after any calls is the one
after writes to independent cells (`run_eq`).

Two getters read something else. `GetPRINFO` does not mask out the bits above its field, `GetILBRT` and `GetEILBRT`
read dword 13. `ioFields_independent_iff` says when this cannot be seen.
-/

namespace Tnvme

open Fields

namespace Read

def opcode : BitVec 8 := 0x02

/-- The constructor; `Init` sets the opcode. -/
def new : Option Cmd := Cmd.setByte 0 opcode 0 0

def setSLBA (lba : BitVec 64) (c : Cmd) : Option Cmd := do
  let c ← c.setDword (lba.setWidth 32) 10
  c.setDword ((lba >>> 32).setWidth 32) 11

def getSLBA (c : Cmd) : Option (BitVec 64) := do
  let low ← c.getDword 10
  let high ← c.getDword 11
  return low.setWidth 64 ||| high.setWidth 64 <<< 32

def setLR (lr : Bool) (c : Cmd) : Option Cmd := c.setBit lr 12 31

def getLR (c : Cmd) : Option Bool := c.getBit 12 31

def setFUA (fua : Bool) (c : Cmd) : Option Cmd := c.setBit fua 12 30

def getFUA (c : Cmd) : Option Bool := c.getBit 12 30

def setPRINFO (prinfo : BitVec 8) (c : Cmd) : Option Cmd :=
  if 0x0f < prinfo then none else c.mergeWord 0x3C00 (prinfo.setWidth 16 <<< 10) 12 1

-- no mask: FUA and LR stand above the field
def getPRINFO (c : Cmd) : Option (BitVec 8) := do
  let work ← c.getWord 12 1
  return (work >>> 10).setWidth 8

def setNLB (nlb : BitVec 16) (c : Cmd) : Option Cmd := c.setWord nlb 12 0

def getNLB (c : Cmd) : Option (BitVec 16) := c.getWord 12 0

def setDSMIncompress (incompress : Bool) (c : Cmd) : Option Cmd := c.setBit incompress 13 7

def getDSMIncompress (c : Cmd) : Option Bool := c.getBit 13 7

def setDSMSeqRequest (seqReq : Bool) (c : Cmd) : Option Cmd := c.setBit seqReq 13 6

def getDSMSeqRequest (c : Cmd) : Option Bool := c.getBit 13 6

def setDSMAccessLatent (accessLat : BitVec 8) (c : Cmd) : Option Cmd :=
  if 0x03 < accessLat then none else c.mergeByte 0x30 (accessLat <<< 4) 13 0

def getDSMAccessLatent (c : Cmd) : Option (BitVec 8) := do
  let work ← c.getByte 13 0
  return work >>> 4 &&& 0x03

def setDSMAccessFreq (accessFreq : BitVec 8) (c : Cmd) : Option Cmd :=
  if 0x0f < accessFreq then none else c.mergeByte 0x0f (accessFreq <<< 0) 13 0

def getDSMAccessFreq (c : Cmd) : Option (BitVec 8) := do
  let work ← c.getByte 13 0
  return work >>> 0 &&& 0x0f

def setEILBRT (eilbrt : BitVec 32) (c : Cmd) : Option Cmd := c.setDword eilbrt 14

-- not the dword that the setter writes
def getEILBRT (c : Cmd) : Option (BitVec 32) := c.getDword 13

def setELBATM (elbatm : BitVec 16) (c : Cmd) : Option Cmd := c.setWord elbatm 15 1

def getELBATM (c : Cmd) : Option (BitVec 16) := c.getWord 15 1

def setELBAT (elbat : BitVec 16) (c : Cmd) : Option Cmd := c.setWord elbat 15 0

def getELBAT (c : Cmd) : Option (BitVec 16) := c.getWord 15 0

end Read

namespace Write

def opcode : BitVec 8 := 0x01

def new : Option Cmd := Cmd.setByte 0 opcode 0 0

def setSLBA (lba : BitVec 64) (c : Cmd) : Option Cmd := do
  let c ← c.setDword (lba.setWidth 32) 10
  c.setDword ((lba >>> 32).setWidth 32) 11

def getSLBA (c : Cmd) : Option (BitVec 64) := do
  let low ← c.getDword 10
  let high ← c.getDword 11
  return low.setWidth 64 ||| high.setWidth 64 <<< 32

def setLR (lr : Bool) (c : Cmd) : Option Cmd := c.setBit lr 12 31

def getLR (c : Cmd) : Option Bool := c.getBit 12 31

def setFUA (fua : Bool) (c : Cmd) : Option Cmd := c.setBit fua 12 30

def getFUA (c : Cmd) : Option Bool := c.getBit 12 30

def setPRINFO (prinfo : BitVec 8) (c : Cmd) : Option Cmd :=
  if 0x0f < prinfo then none else c.mergeWord 0x3C00 (prinfo.setWidth 16 <<< 10) 12 1

-- no mask: FUA and LR stand above the field
def getPRINFO (c : Cmd) : Option (BitVec 8) := do
  let work ← c.getWord 12 1
  return (work >>> 10).setWidth 8

def setNLB (nlb : BitVec 16) (c : Cmd) : Option Cmd := c.setWord nlb 12 0

def getNLB (c : Cmd) : Option (BitVec 16) := c.getWord 12 0

def setDSMIncompress (incompress : Bool) (c : Cmd) : Option Cmd := c.setBit incompress 13 7

def getDSMIncompress (c : Cmd) : Option Bool := c.getBit 13 7

def setDSMSeqRequest (seqReq : Bool) (c : Cmd) : Option Cmd := c.setBit seqReq 13 6

def getDSMSeqRequest (c : Cmd) : Option Bool := c.getBit 13 6

def setDSMAccessLatent (accessLat : BitVec 8) (c : Cmd) : Option Cmd :=
  if 0x03 < accessLat then none else c.mergeByte 0x30 (accessLat <<< 4) 13 0

def getDSMAccessLatent (c : Cmd) : Option (BitVec 8) := do
  let work ← c.getByte 13 0
  return work >>> 4 &&& 0x03

def setDSMAccessFreq (accessFreq : BitVec 8) (c : Cmd) : Option Cmd :=
  if 0x0f < accessFreq then none else c.mergeByte 0x0f (accessFreq <<< 0) 13 0

def getDSMAccessFreq (c : Cmd) : Option (BitVec 8) := do
  let work ← c.getByte 13 0
  return work >>> 0 &&& 0x0f

def setILBRT (ilbrt : BitVec 32) (c : Cmd) : Option Cmd := c.setDword ilbrt 14

-- not the dword that the setter writes
def getILBRT (c : Cmd) : Option (BitVec 32) := c.getDword 13

def setLBATM (lbatm : BitVec 16) (c : Cmd) : Option Cmd := c.setWord lbatm 15 1

def getLBATM (c : Cmd) : Option (BitVec 16) := c.getWord 15 1

def setLBAT (lbat : BitVec 16) (c : Cmd) : Option Cmd := c.setWord lbat 15 0

def getLBAT (c : Cmd) : Option (BitVec 16) := c.getWord 15 0

end Write

/-- The classes with these fields. -/
inductive IoClass where
  | read
  | write
  deriving DecidableEq, Repr

/-- The fields, under the names of `Write`; `Read` has EILBRT, ELBATM and ELBAT for the last three. -/
inductive IoField where
  | slba
  | lr
  | fua
  | prinfo
  | nlb
  | dsmIncompress
  | dsmSeqRequest
  | dsmAccessLatent
  | dsmAccessFreq
  | ilbrt
  | lbatm
  | lbat
  deriving DecidableEq, Repr

/-- A call of a setter. -/
inductive IoCall where
  | slba (lba : BitVec 64)
  | lr (lr : Bool)
  | fua (fua : Bool)
  | prinfo (prinfo : BitVec 8)
  | nlb (nlb : BitVec 16)
  | dsmIncompress (incompress : Bool)
  | dsmSeqRequest (seqReq : Bool)
  | dsmAccessLatent (accessLat : BitVec 8)
  | dsmAccessFreq (accessFreq : BitVec 8)
  | ilbrt (ilbrt : BitVec 32)
  | lbatm (lbatm : BitVec 16)
  | lbat (lbat : BitVec 16)
  deriving DecidableEq, Repr

namespace IoClass

/-- The setter of the class; `none` when it throws. -/
def set : IoClass → IoCall → Cmd → Option Cmd
  | .read, .slba lba => Read.setSLBA lba
  | .read, .lr lr => Read.setLR lr
  | .read, .fua fua => Read.setFUA fua
  | .read, .prinfo prinfo => Read.setPRINFO prinfo
  | .read, .nlb nlb => Read.setNLB nlb
  | .read, .dsmIncompress incompress => Read.setDSMIncompress incompress
  | .read, .dsmSeqRequest seqReq => Read.setDSMSeqRequest seqReq
  | .read, .dsmAccessLatent accessLat => Read.setDSMAccessLatent accessLat
  | .read, .dsmAccessFreq accessFreq => Read.setDSMAccessFreq accessFreq
  | .read, .ilbrt eilbrt => Read.setEILBRT eilbrt
  | .read, .lbatm elbatm => Read.setELBATM elbatm
  | .read, .lbat elbat => Read.setELBAT elbat
  | .write, .slba lba => Write.setSLBA lba
  | .write, .lr lr => Write.setLR lr
  | .write, .fua fua => Write.setFUA fua
  | .write, .prinfo prinfo => Write.setPRINFO prinfo
  | .write, .nlb nlb => Write.setNLB nlb
  | .write, .dsmIncompress incompress => Write.setDSMIncompress incompress
  | .write, .dsmSeqRequest seqReq => Write.setDSMSeqRequest seqReq
  | .write, .dsmAccessLatent accessLat => Write.setDSMAccessLatent accessLat
  | .write, .dsmAccessFreq accessFreq => Write.setDSMAccessFreq accessFreq
  | .write, .ilbrt ilbrt => Write.setILBRT ilbrt
  | .write, .lbatm lbatm => Write.setLBATM lbatm
  | .write, .lbat lbat => Write.setLBAT lbat

/-- What the getter of the class returns. -/
def get : IoClass → IoField → Cmd → Option Nat
  | .read, .slba, c => (Read.getSLBA c).map BitVec.toNat
  | .read, .lr, c => (Read.getLR c).map Bool.toNat
  | .read, .fua, c => (Read.getFUA c).map Bool.toNat
  | .read, .prinfo, c => (Read.getPRINFO c).map BitVec.toNat
  | .read, .nlb, c => (Read.getNLB c).map BitVec.toNat
  | .read, .dsmIncompress, c => (Read.getDSMIncompress c).map Bool.toNat
  | .read, .dsmSeqRequest, c => (Read.getDSMSeqRequest c).map Bool.toNat
  | .read, .dsmAccessLatent, c => (Read.getDSMAccessLatent c).map BitVec.toNat
  | .read, .dsmAccessFreq, c => (Read.getDSMAccessFreq c).map BitVec.toNat
  | .read, .ilbrt, c => (Read.getEILBRT c).map BitVec.toNat
  | .read, .lbatm, c => (Read.getELBATM c).map BitVec.toNat
  | .read, .lbat, c => (Read.getELBAT c).map BitVec.toNat
  | .write, .slba, c => (Write.getSLBA c).map BitVec.toNat
  | .write, .lr, c => (Write.getLR c).map Bool.toNat
  | .write, .fua, c => (Write.getFUA c).map Bool.toNat
  | .write, .prinfo, c => (Write.getPRINFO c).map BitVec.toNat
  | .write, .nlb, c => (Write.getNLB c).map BitVec.toNat
  | .write, .dsmIncompress, c => (Write.getDSMIncompress c).map Bool.toNat
  | .write, .dsmSeqRequest, c => (Write.getDSMSeqRequest c).map Bool.toNat
  | .write, .dsmAccessLatent, c => (Write.getDSMAccessLatent c).map BitVec.toNat
  | .write, .dsmAccessFreq, c => (Write.getDSMAccessFreq c).map BitVec.toNat
  | .write, .ilbrt, c => (Write.getILBRT c).map BitVec.toNat
  | .write, .lbatm, c => (Write.getLBATM c).map BitVec.toNat
  | .write, .lbat, c => (Write.getLBAT c).map BitVec.toNat

/-- A call that throws has written nothing. -/
def step (cls : IoClass) (c : Cmd) (call : IoCall) : Cmd := (cls.set call c).getD c

end IoClass

namespace IoCall

def field : IoCall → IoField
  | slba _ => .slba
  | lr _ => .lr
  | fua _ => .fua
  | prinfo _ => .prinfo
  | nlb _ => .nlb
  | dsmIncompress _ => .dsmIncompress
  | dsmSeqRequest _ => .dsmSeqRequest
  | dsmAccessLatent _ => .dsmAccessLatent
  | dsmAccessFreq _ => .dsmAccessFreq
  | ilbrt _ => .ilbrt
  | lbatm _ => .lbatm
  | lbat _ => .lbat

def value : IoCall → Nat
  | slba v => v.toNat
  | lr b | fua b | dsmIncompress b | dsmSeqRequest b => b.toNat
  | prinfo v | dsmAccessLatent v | dsmAccessFreq v => v.toNat
  | nlb v | lbatm v | lbat v => v.toNat
  | ilbrt v => v.toNat

end IoCall

/-! ## The NVMe layout -/

namespace IoField

/-- The dword and the bit in it. -/
def lo : IoField → Nat
  | slba => 32 * 10
  | lr => 32 * 12 + 31
  | fua => 32 * 12 + 30
  | prinfo => 32 * 12 + 26
  | nlb => 32 * 12
  | dsmIncompress => 32 * 13 + 7
  | dsmSeqRequest => 32 * 13 + 6
  | dsmAccessLatent => 32 * 13 + 4
  | dsmAccessFreq => 32 * 13
  | ilbrt => 32 * 14
  | lbatm => 32 * 15 + 16
  | lbat => 32 * 15

def width : IoField → Nat
  | slba => 64
  | lr | fua | dsmIncompress | dsmSeqRequest => 1
  | prinfo | dsmAccessFreq => 4
  | dsmAccessLatent => 2
  | nlb | lbatm | lbat => 16
  | ilbrt => 32

end IoField

def ioLayout : Layout IoField 512 where
  lo := IoField.lo
  width := IoField.width
  fits i := by cases i <;> decide
  apart i j h := by cases i <;> cases j <;> first | exact absurd rfl h | decide

/-- The value fits into the field. -/
def IoCall.accepted (call : IoCall) : Bool := call.value < 2 ^ call.field.width


namespace IoClass

variable {c : Cmd}

theorem set_agree (call : IoCall) (c : Cmd) : IoClass.write.set call c = IoClass.read.set call c := by
  cases call <;> rfl

theorem get_agree (f : IoField) (c : Cmd) : IoClass.write.get f c = IoClass.read.get f c := by
  cases f <;> rfl

/-! ## What the setters write -/

theorem write_value {w : Nat} (f : IoField) (v : BitVec w) (c : Cmd) :
    ioLayout.write c (f, v.toNat) = put f.lo (v.setWidth f.width) c := by
  rw [← BitVec.ofNat_toNat]
  rfl

theorem setSLBA_eq (lba : BitVec 64) (c : Cmd) : Read.setSLBA lba c = some (put (32 * 10) lba c) := by
  have hlow := Cmd.setDword_eq (c := c) (show 10 < Cmd.cmdSizeDW by decide) (lba.setWidth 32)
  rw [Read.setSLBA, hlow, Option.bind_eq_bind, Option.bind_some, Cmd.setDword_eq (by decide)]
  exact congrArg some (put_put_upper (k := 32) lba c)

theorem setPRINFO_eq (prinfo : BitVec 8) (c : Cmd) : Read.setPRINFO prinfo c =
    if prinfo.toNat < 2 ^ 4 then some (put (32 * 12 + 26) (prinfo.setWidth 4) c) else none := by
  refine Cmd.check_eq (by decide) fun h => ?_
  have hfits : (prinfo.setWidth 16).toNat < 2 ^ 4 := by
    rw [BitVec.toNat_setWidth]
    omega
  rw [show (0x3C00 : BitVec 16) = mask 16 10 4 by decide, Cmd.mergeWord_shift (by decide) (by decide) (by decide) hfits,
    BitVec.setWidth_setWidth_of_le _ (by decide)]

theorem setDSMAccessLatent_eq (accessLat : BitVec 8) (c : Cmd) : Read.setDSMAccessLatent accessLat c =
    if accessLat.toNat < 2 ^ 2 then some (put (32 * 13 + 4) (accessLat.setWidth 2) c) else none := by
  refine Cmd.check_eq (by decide) fun h => ?_
  rw [show (0x30 : BitVec 8) = mask 8 4 2 by decide, Cmd.mergeByte_shift (by decide) (by decide) (by decide) h]

theorem setDSMAccessFreq_eq (accessFreq : BitVec 8) (c : Cmd) : Read.setDSMAccessFreq accessFreq c =
    if accessFreq.toNat < 2 ^ 4 then some (put (32 * 13) (accessFreq.setWidth 4) c) else none := by
  refine Cmd.check_eq (by decide) fun h => ?_
  rw [show (0x0f : BitVec 8) = mask 8 0 4 by decide, Cmd.mergeByte_shift (by decide) (by decide) (by decide) h]

/-- A value of the type of the field fits. -/
theorem some_write {w dw : Nat} {f : IoField} {v : BitVec w} {r : Option Cmd} (hr : r = some (put dw v c))
    (hlo : f.lo = dw) (hw : f.width = w) :
    r = if decide (v.toNat < 2 ^ f.width) = true then some (ioLayout.write c (f, v.toNat)) else none := by
  have hput : put f.lo (v.setWidth f.width) c = put dw v c := by rw [hw, hlo, BitVec.setWidth_eq]
  rw [if_pos (decide_eq_true (hw ▸ v.isLt)), write_value, hput, hr]

theorem setBit_write {f : IoField} (dw off : Nat) (hdw : dw < Cmd.cmdSizeDW) (hoff : off < 32)
    (hlo : f.lo = 32 * dw + off) (hw : f.width = 1) (b : Bool) :
    c.setBit b dw off =
      if decide (b.toNat < 2 ^ f.width) = true then some (ioLayout.write c (f, b.toNat)) else none := by
  have h := some_write (Cmd.setBit_eq (c := c) hdw hoff b) hlo hw
  rwa [BitVec.toNat_ofBool] at h

theorem setWord_write {f : IoField} (dw off : Nat) (hdw : dw < Cmd.cmdSizeDW) (hoff : off < 2)
    (hlo : f.lo = 32 * dw + off * 16) (hw : f.width = 16) (v : BitVec 16) :
    c.setWord v dw off =
      if decide (v.toNat < 2 ^ f.width) = true then some (ioLayout.write c (f, v.toNat)) else none :=
  some_write (Cmd.setWord_eq hdw hoff v) hlo hw

/-- A value that has to be checked. -/
theorem checked_write {f : IoField} {v : BitVec 8} {r : Option Cmd}
    (hr : r = if v.toNat < 2 ^ f.width then some (put f.lo (v.setWidth f.width) c) else none) :
    r = if decide (v.toNat < 2 ^ f.width) = true then some (ioLayout.write c (f, v.toNat)) else none := by
  rw [hr, write_value]
  simp only [decide_eq_true_eq]

/-- **Every setter writes its own field, or throws when the value does not fit.** -/
theorem set_eq (cls : IoClass) (call : IoCall) (c : Cmd) :
    cls.set call c = if call.accepted then some (ioLayout.write c (call.field, call.value)) else none := by
  have hread : IoClass.read.set call c =
      if call.accepted then some (ioLayout.write c (call.field, call.value)) else none := by
    cases call with
    | slba lba => exact some_write (f := .slba) (setSLBA_eq lba c) rfl rfl
    | lr lr => exact setBit_write (f := .lr) 12 31 (by decide) (by decide) rfl rfl lr
    | fua fua => exact setBit_write (f := .fua) 12 30 (by decide) (by decide) rfl rfl fua
    | prinfo prinfo => exact checked_write (f := .prinfo) (setPRINFO_eq prinfo c)
    | nlb nlb => exact setWord_write (f := .nlb) 12 0 (by decide) (by decide) rfl rfl nlb
    | dsmIncompress b =>
      exact setBit_write (f := .dsmIncompress) 13 7 (by decide) (by decide) rfl rfl b
    | dsmSeqRequest b =>
      exact setBit_write (f := .dsmSeqRequest) 13 6 (by decide) (by decide) rfl rfl b
    | dsmAccessLatent accessLat => exact checked_write (f := .dsmAccessLatent) (setDSMAccessLatent_eq accessLat c)
    | dsmAccessFreq accessFreq => exact checked_write (f := .dsmAccessFreq) (setDSMAccessFreq_eq accessFreq c)
    | ilbrt eilbrt =>
      exact some_write (f := .ilbrt) (Cmd.setDword_eq (show 14 < Cmd.cmdSizeDW by decide) eilbrt) rfl rfl
    | lbatm elbatm => exact setWord_write (f := .lbatm) 15 1 (by decide) (by decide) rfl rfl elbatm
    | lbat elbat => exact setWord_write (f := .lbat) 15 0 (by decide) (by decide) rfl rfl elbat
  cases cls with
  | read => exact hread
  | write => rw [set_agree, hread]

/-! ## What the getters return -/

theorem getSLBA_read (c : Cmd) : (Read.getSLBA c).map BitVec.toNat = some (ioLayout.read .slba c) := by
  have hboth := get_or_get_upper (32 * 10) 32 32 c
  rw [Read.getSLBA, Cmd.getDword_eq (by decide), Cmd.getDword_eq (by decide)]
  exact congrArg (fun lba : BitVec 64 => some lba.toNat) hboth

/-- A byte that is shifted and masked is a field of the command. -/
theorem shifted_toNat (lo : Nat) {a k : Nat} (hk : a + k ≤ 8) (c : Cmd) :
    (Fields.get lo 8 c >>> a &&& mask 8 0 k).toNat = (Fields.get (lo + a) k c).toNat := by
  rw [ushiftRight_and_mask, get_get hk]
  exact BitVec.toNat_setWidth_of_le (by omega)

theorem getDSMAccessLatent_read (c : Cmd) :
    (Read.getDSMAccessLatent c).map BitVec.toNat = some (ioLayout.read .dsmAccessLatent c) := by
  have hmask : (0x03 : BitVec 8) = mask 8 0 2 := by decide
  rw [Read.getDSMAccessLatent, Cmd.getByte_eq (by decide) (by decide), hmask]
  exact congrArg some (shifted_toNat (32 * 13 + 0 * 8) (by decide) c)

theorem getDSMAccessFreq_read (c : Cmd) :
    (Read.getDSMAccessFreq c).map BitVec.toNat = some (ioLayout.read .dsmAccessFreq c) := by
  have hmask : (0x0f : BitVec 8) = mask 8 0 4 := by decide
  rw [Read.getDSMAccessFreq, Cmd.getByte_eq (by decide) (by decide), hmask]
  exact congrArg some (shifted_toNat (32 * 13 + 0 * 8) (by decide) c)

/-- **Ten getters return their own field.** -/
theorem get_eq (cls : IoClass) {f : IoField} (hf : f ≠ .prinfo ∧ f ≠ .ilbrt) (c : Cmd) :
    cls.get f c = some (ioLayout.read f c) := by
  have hread : IoClass.read.get f c = some (ioLayout.read f c) := by
    cases f with
    | slba => exact getSLBA_read c
    | lr => exact Cmd.getBit_toNat 12 31 (by decide) (by decide)
    | fua => exact Cmd.getBit_toNat 12 30 (by decide) (by decide)
    | prinfo => exact absurd rfl hf.1
    | nlb => exact Cmd.getWord_toNat 12 0 (by decide) (by decide)
    | dsmIncompress => exact Cmd.getBit_toNat 13 7 (by decide) (by decide)
    | dsmSeqRequest => exact Cmd.getBit_toNat 13 6 (by decide) (by decide)
    | dsmAccessLatent => exact getDSMAccessLatent_read c
    | dsmAccessFreq => exact getDSMAccessFreq_read c
    | ilbrt => exact absurd rfl hf.2
    | lbatm => exact Cmd.getWord_toNat 15 1 (by decide) (by decide)
    | lbat => exact Cmd.getWord_toNat 15 0 (by decide) (by decide)
  cases cls with
  | read => exact hread
  | write => rw [get_agree, hread]

/-- `GetPRINFO` returns FUA and LR above its field. -/
theorem get_prinfo (cls : IoClass) (c : Cmd) : cls.get .prinfo c =
    some (ioLayout.read .prinfo c + 2 ^ 4 * (ioLayout.read .fua c + 2 ^ 1 * ioLayout.read .lr c)) := by
  have hread : IoClass.read.get .prinfo c =
      some (ioLayout.read .prinfo c + 2 ^ 4 * (ioLayout.read .fua c + 2 ^ 1 * ioLayout.read .lr c)) := by
    have hshift : (Fields.get (32 * 12 + 1 * 16) 16 c >>> 10).setWidth 8 =
        (Fields.get (32 * 12 + 26) 6 c).setWidth 8 := by
      rw [get_ushiftRight (32 * 12 + 1 * 16) 10 6 c, BitVec.setWidth_setWidth_of_le _ (by decide)]
    have hsplit : (Fields.get (32 * 12 + 26) 6 c).toNat =
        ioLayout.read .prinfo c + 2 ^ 4 * (ioLayout.read .fua c + 2 ^ 1 * ioLayout.read .lr c) := by
      rw [toNat_get_add (32 * 12 + 26) 4 2, toNat_get_add (32 * 12 + 26 + 4) 1 1]
      rfl
    have hget : IoClass.read.get .prinfo c =
        some ((Fields.get (32 * 12 + 1 * 16) 16 c >>> 10).setWidth 8).toNat := by
      rw [IoClass.get, Read.getPRINFO, Cmd.getWord_eq (by decide) (by decide)]
      rfl
    rw [hget, hshift, BitVec.toNat_setWidth_of_le (by decide), hsplit]
  cases cls with
  | read => exact hread
  | write => rw [get_agree, hread]

/-- `GetILBRT` returns the attributes for the dataset management and what stands above them. -/
theorem get_ilbrt (cls : IoClass) (c : Cmd) : cls.get .ilbrt c = some (Fields.get (32 * 13) 32 c).toNat := by
  cases cls <;> rfl

end IoClass

/-! ## Sequences of calls -/

/-- What the accepted ones of some calls write. -/
def IoCall.writes (calls : List IoCall) : List (IoField × Nat) :=
  (calls.filter IoCall.accepted).map fun call => (call.field, call.value)

/-- Dword 13 after writes: four fields, and bits that belong to no field. -/
def dword13 (c : Cmd) (xs : List (IoField × Nat)) : Nat :=
  ioLayout.final .dsmAccessFreq c xs + 2 ^ 4 * (ioLayout.final .dsmAccessLatent c xs + 2 ^ 2 *
    (ioLayout.final .dsmSeqRequest c xs + 2 ^ 1 * (ioLayout.final .dsmIncompress c xs + 2 ^ 1 *
      (get (32 * 13 + 8) 24 c).toNat)))

/-- The fields of a command are independent cells along some calls. -/
structure IoIndependent (cls : IoClass) (c : Cmd) (calls : List IoCall) : Prop where
  /-- A getter returns what its field was given last. -/
  returned (f : IoField) (v : Nat) :
    Layout.last f (IoCall.writes calls) = some v → cls.get f (Runs.run cls.step c calls) = some v
  /-- No setter changes a bit outside of its field. -/
  frame (x : Cmd × IoCall) (hx : x ∈ Runs.steps cls.step c calls) (p : Nat) :
    ¬ioLayout.Holds x.2.field p → (cls.step x.1 x.2).getLsbD p = x.1.getLsbD p
  /-- The other class does the same. -/
  agree (cls' : IoClass) (c' : Cmd) :
    (∀ call, cls'.set call c' = cls.set call c') ∧ ∀ f, cls'.get f c' = cls.get f c'

section Run

variable (cls : IoClass) (c : Cmd) (calls : List IoCall)

theorem step_eq (call : IoCall) :
    cls.step c call = if call.accepted then ioLayout.write c (call.field, call.value) else c := by
  rw [IoClass.step, IoClass.set_eq]
  cases call.accepted <;> rfl

theorem step_frame (call : IoCall) {p : Nat} (hp : ¬ioLayout.Holds call.field p) :
    (cls.step c call).getLsbD p = c.getLsbD p := by
  rw [step_eq]
  cases call.accepted with
  | false => rfl
  | true => exact Layout.write_of_not_holds hp _ c

/-- **The buffer after calls is the one after writes to independent cells.** -/
theorem run_eq : Runs.run cls.step c calls = Runs.run ioLayout.write c (IoCall.writes calls) := by
  induction calls generalizing c with
  | nil => rfl
  | cons call calls ih =>
    change Runs.run cls.step (cls.step c call) calls = _
    rw [ih, step_eq, IoCall.writes, IoCall.writes, List.filter_cons]
    cases call.accepted <;> rfl

theorem read_calls (f : IoField) :
    ioLayout.read f (Runs.run cls.step c calls) = ioLayout.final f c (IoCall.writes calls) := by
  rw [run_eq, Layout.read_run]

theorem final_of_last {f : IoField} {v : Nat} (h : Layout.last f (IoCall.writes calls) = some v) :
    ioLayout.final f c (IoCall.writes calls) = v := by
  have hfit : v < 2 ^ f.width := by
    obtain ⟨⟨g, u⟩, hlast, rfl⟩ := Option.map_eq_some_iff.1 h
    obtain ⟨hmem, hg⟩ := List.mem_filter.1 (List.mem_of_getLast? hlast)
    obtain ⟨call, hcall, hpair⟩ := List.mem_map.1 hmem
    obtain ⟨rfl, rfl⟩ := Prod.mk.inj hpair
    have hacc := of_decide_eq_true (List.mem_filter.1 hcall).2
    have hfield : call.field = f := of_decide_eq_true hg
    rwa [hfield] at hacc
  rw [Layout.final, h]
  exact Nat.mod_eq_of_lt hfit

theorem get_calls {f : IoField} (hf : f ≠ .prinfo ∧ f ≠ .ilbrt) :
    cls.get f (Runs.run cls.step c calls) = some (ioLayout.final f c (IoCall.writes calls)) := by
  rw [IoClass.get_eq cls hf, read_calls]

theorem get_ilbrt_calls : cls.get .ilbrt (Runs.run cls.step c calls) = some (dword13 c (IoCall.writes calls)) := by
  have hfree : get (32 * 13 + 8) 24 (Runs.run cls.step c calls) = get (32 * 13 + 8) 24 c := by
    rw [run_eq]
    exact Layout.get_run_of_apart c fun x _ => by cases x.1 <;> decide
  rw [IoClass.get_ilbrt, toNat_get_add (32 * 13) 4 28, toNat_get_add (32 * 13 + 4) 2 26,
    toNat_get_add (32 * 13 + 4 + 2) 1 25, toNat_get_add (32 * 13 + 4 + 2 + 1) 1 24, hfree]
  simp only [dword13, ← read_calls cls c calls]
  rfl

end Run

/-- **When the fields of Read and Write are independent cells**: neither may PRINFO be given under a set FUA or LR, nor
ILBRT another value than dword 13 has. -/
theorem ioFields_independent_iff (cls : IoClass) (c : Cmd) (calls : List IoCall) :
    IoIndependent cls c calls ↔
      ((Layout.last .prinfo (IoCall.writes calls)).isSome →
        ioLayout.final .fua c (IoCall.writes calls) = 0 ∧ ioLayout.final .lr c (IoCall.writes calls) = 0) ∧
      ∀ v, Layout.last .ilbrt (IoCall.writes calls) = some v → dword13 c (IoCall.writes calls) = v := by
  have hprinfo : cls.get .prinfo (Runs.run cls.step c calls) = some (ioLayout.final .prinfo c (IoCall.writes calls) +
      2 ^ 4 * (ioLayout.final .fua c (IoCall.writes calls) + 2 ^ 1 * ioLayout.final .lr c (IoCall.writes calls))) := by
    rw [IoClass.get_prinfo, read_calls, read_calls, read_calls]
  constructor
  · intro h
    constructor
    · intro hsome
      obtain ⟨v, hv⟩ := Option.isSome_iff_exists.1 hsome
      have hret := hprinfo.symm.trans (h.returned .prinfo v hv)
      rw [final_of_last c calls hv, Option.some.injEq] at hret
      omega
    · intro v hv
      exact Option.some.inj ((get_ilbrt_calls cls c calls).symm.trans (h.returned .ilbrt v hv))
  · rintro ⟨hfree, hsame⟩
    refine ⟨fun f v hv => ?_, fun x _ p hp => step_frame cls x.1 x.2 hp, fun cls' c' => ?_⟩
    · by_cases hp : f = .prinfo
      · subst hp
        obtain ⟨hfua, hlr⟩ := hfree (Option.isSome_iff_exists.2 ⟨v, hv⟩)
        rw [hprinfo, hfua, hlr, final_of_last c calls hv]
        rfl
      · by_cases hi : f = .ilbrt
        · subst hi
          rw [get_ilbrt_calls, hsame v hv]
        · rw [get_calls cls c calls ⟨hp, hi⟩, final_of_last c calls hv]
    · constructor
      · intro call
        rw [IoClass.set_eq, IoClass.set_eq]
      · intro f
        cases cls <;> cases cls' <;> first | rfl | exact IoClass.get_agree f c' | exact (IoClass.get_agree f c').symm

/-- LR is returned with PRINFO, and the reference tag not at all. -/
theorem ioFields_not_independent :
    ¬IoIndependent .write 0#512 [.prinfo 0x01#8, .lr true] ∧ ¬IoIndependent .read 0#512 [.ilbrt 0x01#32] := by
  constructor
  · intro h
    exact absurd (h.returned .prinfo 1 (by decide)) (by decide +kernel)
  · intro h
    exact absurd (h.returned .ilbrt 1 (by decide)) (by decide +kernel)

end Tnvme
