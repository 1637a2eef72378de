import Mathlib.Data.List.Pairwise
import Tnvme.Cmds.Cmd

/-!
# The admin commands with fields

The setters of `SetFeatures`, `GetLogPage`, `FormatNVM` and `BaseSecurity`, and their getters. A setter has a field,
which begins at the bit `lo` of the command, and is `width` bits wide; its argument may be wider (`argWidth`).

All setters but two write their field (`set_eq`). `SetArbitrationAB` and `SetLID` form the value that keeps the other
bits, but write the argument itself: they write `writes` bits. `adminFields_iff` says when this does no harm.
-/

namespace Tnvme

open Fields

namespace BaseFeatures

def setFID (fid : BitVec 8) (c : Cmd) : Option Cmd := c.setByte fid 10 0

def getFID (c : Cmd) : Option (BitVec 8) := c.getByte 10 0

end BaseFeatures

namespace SetFeatures

/-! The masks `BYTE_BITMASK_AB`, .. -/

def byteBitmaskAB : BitVec 8 := 0x7
def byteBitmaskPS : BitVec 8 := 0x1F
def byteBitmaskNUM : BitVec 8 := 0x3F
def byteBitmaskWCE : BitVec 8 := 0x1
def byteBitmaskCD : BitVec 8 := 0x1
def byteBitmaskDN : BitVec 8 := 0x1

def setArbitrationHPW (hpw : BitVec 8) (c : Cmd) : Option Cmd := c.setByte hpw 11 3

def setArbitrationMPW (mpw : BitVec 8) (c : Cmd) : Option Cmd := c.setByte mpw 11 2

def setArbitrationLPW (lpw : BitVec 8) (c : Cmd) : Option Cmd := c.setByte lpw 11 1

def setArbitrationAB (ab : BitVec 8) (c : Cmd) : Option Cmd := do
  let work ← c.getByte 11 0
  let _work := work &&& ~~~byteBitmaskAB ||| ab &&& byteBitmaskAB
  -- the argument is written, not what has been formed of it
  c.setByte ab 11 0

def setArbitration (hpw mpw lpw ab : BitVec 8) (c : Cmd) : Option Cmd := do
  let c ← setArbitrationHPW hpw c
  let c ← setArbitrationMPW mpw c
  let c ← setArbitrationLPW lpw c
  setArbitrationAB ab c

def getArbitration (c : Cmd) : Option (BitVec 32) := c.getDword 11

def getArbitrationHPW (c : Cmd) : Option (BitVec 8) := c.getByte 11 3

def getArbitrationMPW (c : Cmd) : Option (BitVec 8) := c.getByte 11 2

def getArbitrationLPW (c : Cmd) : Option (BitVec 8) := c.getByte 11 1

def getArbitrationAB (c : Cmd) : Option (BitVec 8) := do
  let work ← c.getByte 11 0
  return work &&& byteBitmaskAB

/-- `npss` is what the Identify data say, `none` if there are none. -/
def setPowerManagementPS (npss : Option (BitVec 8)) (ps : BitVec 8) (c : Cmd) : Option Cmd := do
  let npss ← npss
  if npss < ps then none else c.mergeByte byteBitmaskPS (ps &&& byteBitmaskPS) 11 0

def getPowerManagementPS (c : Cmd) : Option (BitVec 8) := do
  let work ← c.getByte 11 0
  return work &&& byteBitmaskPS

def setLBARangeTypeNUM (num : BitVec 8) (c : Cmd) : Option Cmd :=
  c.mergeByte byteBitmaskNUM (num &&& byteBitmaskNUM) 11 0

def getLBARangeTypeNUM (c : Cmd) : Option (BitVec 8) := do
  let work ← c.getByte 11 0
  return work &&& byteBitmaskNUM

def setTempThresholdTMPTH (tmpth : BitVec 16) (c : Cmd) : Option Cmd := c.setWord tmpth 11 0

def getTempThresholdTMPTH (c : Cmd) : Option (BitVec 16) := c.getWord 11 0

def setErrRecoveryTLER (tler : BitVec 16) (c : Cmd) : Option Cmd := c.setWord tler 11 0

def getErrRecoveryTLER (c : Cmd) : Option (BitVec 16) := c.getWord 11 0

def setErrRecoveryDULBE (dulbe : Bool) (c : Cmd) : Option Cmd := c.setBit dulbe 11 16

def getErrRecoveryDULBE (c : Cmd) : Option Bool := c.getBit 11 16

def setVolatileWriteCacheWCE (wce : BitVec 8) (c : Cmd) : Option Cmd :=
  c.mergeByte byteBitmaskWCE (wce &&& byteBitmaskWCE) 11 0

def getVolatileWriteCacheWCE (c : Cmd) : Option (BitVec 8) := do
  let work ← c.getByte 11 0
  return work &&& byteBitmaskWCE

def setNumberOfQueuesNCQR (ncqr : BitVec 16) (c : Cmd) : Option Cmd := c.setWord ncqr 11 1

def setNumberOfQueuesNSQR (nsqr : BitVec 16) (c : Cmd) : Option Cmd := c.setWord nsqr 11 0

def setNumberOfQueues (ncqr nsqr : BitVec 16) (c : Cmd) : Option Cmd := do
  let c ← setNumberOfQueuesNCQR ncqr c
  setNumberOfQueuesNSQR nsqr c

def getNumberOfQueues (c : Cmd) : Option (BitVec 32) := c.getDword 11

def getNumberOfQueuesNCQR (c : Cmd) : Option (BitVec 16) := c.getWord 11 1

def getNumberOfQueuesNSQR (c : Cmd) : Option (BitVec 16) := c.getWord 11 0

def setIntCoalescingTIME (time : BitVec 8) (c : Cmd) : Option Cmd := c.setByte time 11 1

def setIntCoalescingTHR (thr : BitVec 8) (c : Cmd) : Option Cmd := c.setByte thr 11 0

def setIntCoalescing (time thr : BitVec 8) (c : Cmd) : Option Cmd := do
  let c ← setIntCoalescingTIME time c
  setIntCoalescingTHR thr c

def getIntCoalescing (c : Cmd) : Option (BitVec 32) := c.getDword 11

def getIntCoalescingTIME (c : Cmd) : Option (BitVec 8) := c.getByte 11 1

def getIntCoalescingTHR (c : Cmd) : Option (BitVec 8) := c.getByte 11 0

def setIntVecConfigIV (iv : BitVec 16) (c : Cmd) : Option Cmd := c.setWord iv 11 0

def setIntVecConfigCD (cd : BitVec 8) (c : Cmd) : Option Cmd :=
  c.mergeByte byteBitmaskCD (cd &&& byteBitmaskCD) 11 2

def setIntVecConfig (cd : BitVec 8) (iv : BitVec 16) (c : Cmd) : Option Cmd := do
  let c ← setIntVecConfigCD cd c
  setIntVecConfigIV iv c

def getIntVecConfig (c : Cmd) : Option (BitVec 32) := c.getDword 11

def getIntVecConfigIV (c : Cmd) : Option (BitVec 16) := c.getWord 11 0

def getIntVecConfigCD (c : Cmd) : Option (BitVec 8) := do
  let work ← c.getByte 11 2
  return work &&& byteBitmaskCD

def setWriteAtomicityDN (dn : BitVec 8) (c : Cmd) : Option Cmd :=
  c.mergeByte byteBitmaskDN (dn &&& byteBitmaskDN) 11 0

def getWriteAtomicityDN (c : Cmd) : Option (BitVec 8) := do
  let work ← c.getByte 11 0
  return work &&& byteBitmaskDN

def setAsyncEventConfigSMART (critWarn : BitVec 16) (c : Cmd) : Option Cmd := c.setWord critWarn 11 0

def getAsyncEventConfigSMART (c : Cmd) : Option (BitVec 16) := c.getWord 11 0

def setSWProgressMarkerPBSLC (pbslc : BitVec 8) (c : Cmd) : Option Cmd := c.setByte pbslc 11 0

def getSWProgressMarkerPBSLC (c : Cmd) : Option (BitVec 8) := c.getByte 11 0

def setAutoPSTransAPSTE (enable : Bool) (c : Cmd) : Option Cmd := c.setBit enable 11 0

def getAutoPSTransAPSTE (c : Cmd) : Option Bool := c.getBit 11 0

def setSave (save : Bool) (c : Cmd) : Option Cmd := c.setBit save 10 31

def setUnsafePS (ps : BitVec 8) (c : Cmd) : Option Cmd := c.mergeByte byteBitmaskPS (ps &&& byteBitmaskPS) 11 0

end SetFeatures

namespace GetLogPage

def numdBitmask : BitVec 16 := 0x0fff

def setNUMD (numDW : BitVec 16) (c : Cmd) : Option Cmd := c.mergeWord numdBitmask (numDW &&& numdBitmask) 10 1

def setNUMDL (numdl : BitVec 16) (c : Cmd) : Option Cmd := c.setWord numdl 10 1

def setNUMDU (numdu : BitVec 16) (c : Cmd) : Option Cmd := c.setWord numdu 11 0

def getNUMD (c : Cmd) : Option (BitVec 16) := do
  let curVal ← c.getWord 10 1
  return curVal &&& numdBitmask

def setLID (logID : BitVec 16) (c : Cmd) : Option Cmd := do
  let curVal ← c.getWord 10 0
  let _curVal := curVal &&& 0xFF00 ||| logID
  -- the argument is written, not what has been formed of it
  c.setWord logID 10 0

def getLID (c : Cmd) : Option (BitVec 16) := c.getWord 10 0

end GetLogPage

namespace FormatNVM

def byteBitmaskSES : BitVec 8 := 0x0e
def byteBitmaskPI : BitVec 8 := 0xe0
def byteBitmaskLBAF : BitVec 8 := 0x0f

def setSES (ses : BitVec 8) (c : Cmd) : Option Cmd :=
  if 0x07 < ses then none else c.mergeByte byteBitmaskSES (ses <<< 1 &&& byteBitmaskSES) 10 1

def getSES (c : Cmd) : Option (BitVec 8) := do
  let work ← c.getByte 10 1
  return (work &&& byteBitmaskSES) >>> 1

def setPIL (pil : Bool) (c : Cmd) : Option Cmd := c.setBit pil 10 8

def getPIL (c : Cmd) : Option Bool := c.getBit 10 8

def setPI (pi : BitVec 8) (c : Cmd) : Option Cmd :=
  if 0x07 < pi then none else c.mergeByte byteBitmaskPI (pi <<< 5 &&& byteBitmaskPI) 10 0

def getPI (c : Cmd) : Option (BitVec 8) := do
  let work ← c.getByte 10 0
  return (work &&& byteBitmaskPI) >>> 5

def setMS (ms : Bool) (c : Cmd) : Option Cmd := c.setBit ms 10 4

def getMS (c : Cmd) : Option Bool := c.getBit 10 4

def setLBAF (lbaf : BitVec 8) (c : Cmd) : Option Cmd :=
  if 0x0f < lbaf then none else c.mergeByte byteBitmaskLBAF (lbaf <<< 0 &&& byteBitmaskLBAF) 10 0

def getLBAF (c : Cmd) : Option (BitVec 8) := do
  let work ← c.getByte 10 0
  return (work &&& byteBitmaskLBAF) >>> 0

end FormatNVM

namespace BaseSecurity

def maskSPSP : BitVec 32 := 0x00ffff00

def setSECP (secp : BitVec 8) (c : Cmd) : Option Cmd := c.setByte secp 10 3

def getSECP (c : Cmd) : Option (BitVec 8) := c.getByte 10 3

def setSPSP (spsp : BitVec 16) (c : Cmd) : Option Cmd := c.mergeDword maskSPSP (spsp.setWidth 32 <<< 8) 10

def getSPSP (c : Cmd) : Option (BitVec 16) := do
  let work ← c.getDword 10
  return ((work &&& maskSPSP) >>> 8).setWidth 16

def setTL (tl : BitVec 16) (c : Cmd) : Option Cmd := c.setWord tl 11 1

def getTL (c : Cmd) : Option (BitVec 16) := c.getWord 11 1

end BaseSecurity

/-! ## Fields -/

inductive AdminClass where
  | setFeatures
  | getLogPage
  | formatNVM
  | security
  deriving DecidableEq, Repr

/-- The fields, one for every setter of one. -/
inductive AdminField where
  | fid
  | hpw
  | mpw
  | lpw
  | ab
  | ps
  | num
  | tmpth
  | tler
  | dulbe
  | wce
  | ncqr
  | nsqr
  | time
  | thr
  | iv
  | cd
  | dn
  | smart
  | pbslc
  | apste
  | save
  | unsafePS
  | numd
  | numdl
  | numdu
  | lid
  | ses
  | pil
  | pi
  | ms
  | lbaf
  | secp
  | spsp
  | tl
  deriving DecidableEq, Repr

namespace AdminField

/-- The class that has the setter. -/
def cls : AdminField → AdminClass
  | fid | hpw | mpw | lpw | ab | ps | num | tmpth | tler | dulbe | wce | ncqr | nsqr | time | thr | iv | cd
  | dn | smart | pbslc | apste | save | unsafePS => .setFeatures
  | numd | numdl | numdu | lid => .getLogPage
  | ses | pil | pi | ms | lbaf => .formatNVM
  | secp | spsp | tl => .security

/-- The dword and the bit in it. -/
def lo : AdminField → Nat
  | fid | lid | lbaf => 32 * 10
  | hpw => 32 * 11 + 24
  | mpw | dulbe | ncqr | cd | tl => 32 * 11 + 16
  | lpw | time => 32 * 11 + 8
  | ab | ps | num | tmpth | tler | wce | nsqr | thr | iv | dn | smart | pbslc | apste | unsafePS | numdu => 32 * 11
  | save => 32 * 10 + 31
  | numd | numdl => 32 * 10 + 16
  | ses => 32 * 10 + 9
  | pil | spsp => 32 * 10 + 8
  | pi => 32 * 10 + 5
  | ms => 32 * 10 + 4
  | secp => 32 * 10 + 24

def width : AdminField → Nat
  | fid | hpw | mpw | lpw | time | thr | pbslc | lid | secp => 8
  | ab | ses | pi => 3
  | ps | unsafePS => 5
  | num => 6
  | tmpth | tler | ncqr | nsqr | iv | smart | numdl | numdu | spsp | tl => 16
  | dulbe | wce | cd | dn | apste | save | pil | ms => 1
  | numd => 12
  | lbaf => 4

/-- The width of the argument of the setter; a Boolean is one bit. -/
def argWidth : AdminField → Nat
  | fid | hpw | mpw | lpw | ab | ps | num | wce | time | thr | cd | dn | pbslc | unsafePS | ses | pi | lbaf
  | secp => 8
  | tmpth | tler | ncqr | nsqr | iv | smart | numd | numdl | numdu | lid | spsp | tl => 16
  | dulbe | apste | save | pil | ms => 1

/-- How many bits the setter writes. -/
def writes : AdminField → Nat
  | ab => 8
  | lid => 16
  | f => f.width

/-- The setter; `none` when it throws. -/
def set (npss : Option (BitVec 8)) : (f : AdminField) → BitVec f.argWidth → Cmd → Option Cmd
  | fid, v => BaseFeatures.setFID v
  | hpw, v => SetFeatures.setArbitrationHPW v
  | mpw, v => SetFeatures.setArbitrationMPW v
  | lpw, v => SetFeatures.setArbitrationLPW v
  | ab, v => SetFeatures.setArbitrationAB v
  | ps, v => SetFeatures.setPowerManagementPS npss v
  | num, v => SetFeatures.setLBARangeTypeNUM v
  | tmpth, v => SetFeatures.setTempThresholdTMPTH v
  | tler, v => SetFeatures.setErrRecoveryTLER v
  | dulbe, v => SetFeatures.setErrRecoveryDULBE (v == 1#1)
  | wce, v => SetFeatures.setVolatileWriteCacheWCE v
  | ncqr, v => SetFeatures.setNumberOfQueuesNCQR v
  | nsqr, v => SetFeatures.setNumberOfQueuesNSQR v
  | time, v => SetFeatures.setIntCoalescingTIME v
  | thr, v => SetFeatures.setIntCoalescingTHR v
  | iv, v => SetFeatures.setIntVecConfigIV v
  | cd, v => SetFeatures.setIntVecConfigCD v
  | dn, v => SetFeatures.setWriteAtomicityDN v
  | smart, v => SetFeatures.setAsyncEventConfigSMART v
  | pbslc, v => SetFeatures.setSWProgressMarkerPBSLC v
  | apste, v => SetFeatures.setAutoPSTransAPSTE (v == 1#1)
  | save, v => SetFeatures.setSave (v == 1#1)
  | unsafePS, v => SetFeatures.setUnsafePS v
  | numd, v => GetLogPage.setNUMD v
  | numdl, v => GetLogPage.setNUMDL v
  | numdu, v => GetLogPage.setNUMDU v
  | lid, v => GetLogPage.setLID v
  | ses, v => FormatNVM.setSES v
  | pil, v => FormatNVM.setPIL (v == 1#1)
  | pi, v => FormatNVM.setPI v
  | ms, v => FormatNVM.setMS (v == 1#1)
  | lbaf, v => FormatNVM.setLBAF v
  | secp, v => BaseSecurity.setSECP v
  | spsp, v => BaseSecurity.setSPSP v
  | tl, v => BaseSecurity.setTL v

/-- The getter of the field, where there is one. -/
def get : AdminField → Option (Cmd → Option Nat)
  | fid => some fun c => (BaseFeatures.getFID c).map BitVec.toNat
  | hpw => some fun c => (SetFeatures.getArbitrationHPW c).map BitVec.toNat
  | mpw => some fun c => (SetFeatures.getArbitrationMPW c).map BitVec.toNat
  | lpw => some fun c => (SetFeatures.getArbitrationLPW c).map BitVec.toNat
  | ab => some fun c => (SetFeatures.getArbitrationAB c).map BitVec.toNat
  | ps => some fun c => (SetFeatures.getPowerManagementPS c).map BitVec.toNat
  | num => some fun c => (SetFeatures.getLBARangeTypeNUM c).map BitVec.toNat
  | tmpth => some fun c => (SetFeatures.getTempThresholdTMPTH c).map BitVec.toNat
  | tler => some fun c => (SetFeatures.getErrRecoveryTLER c).map BitVec.toNat
  | dulbe => some fun c => (SetFeatures.getErrRecoveryDULBE c).map Bool.toNat
  | wce => some fun c => (SetFeatures.getVolatileWriteCacheWCE c).map BitVec.toNat
  | ncqr => some fun c => (SetFeatures.getNumberOfQueuesNCQR c).map BitVec.toNat
  | nsqr => some fun c => (SetFeatures.getNumberOfQueuesNSQR c).map BitVec.toNat
  | time => some fun c => (SetFeatures.getIntCoalescingTIME c).map BitVec.toNat
  | thr => some fun c => (SetFeatures.getIntCoalescingTHR c).map BitVec.toNat
  | iv => some fun c => (SetFeatures.getIntVecConfigIV c).map BitVec.toNat
  | cd => some fun c => (SetFeatures.getIntVecConfigCD c).map BitVec.toNat
  | dn => some fun c => (SetFeatures.getWriteAtomicityDN c).map BitVec.toNat
  | smart => some fun c => (SetFeatures.getAsyncEventConfigSMART c).map BitVec.toNat
  | pbslc => some fun c => (SetFeatures.getSWProgressMarkerPBSLC c).map BitVec.toNat
  | apste => some fun c => (SetFeatures.getAutoPSTransAPSTE c).map Bool.toNat
  | unsafePS => some fun c => (SetFeatures.getPowerManagementPS c).map BitVec.toNat
  | numd => some fun c => (GetLogPage.getNUMD c).map BitVec.toNat
  | lid => some fun c => (GetLogPage.getLID c).map BitVec.toNat
  | ses => some fun c => (FormatNVM.getSES c).map BitVec.toNat
  | pil => some fun c => (FormatNVM.getPIL c).map Bool.toNat
  | pi => some fun c => (FormatNVM.getPI c).map BitVec.toNat
  | ms => some fun c => (FormatNVM.getMS c).map Bool.toNat
  | lbaf => some fun c => (FormatNVM.getLBAF c).map BitVec.toNat
  | secp => some fun c => (BaseSecurity.getSECP c).map BitVec.toNat
  | spsp => some fun c => (BaseSecurity.getSPSP c).map BitVec.toNat
  | tl => some fun c => (BaseSecurity.getTL c).map BitVec.toNat
  | save | numdl | numdu => none

end AdminField

namespace AdminField

/-- When the setter throws. -/
def rejects (npss : Option (BitVec 8)) : (f : AdminField) → BitVec f.argWidth → Bool
  | ps, (v : BitVec 8) => npss.elim true fun n => decide (n < v)
  | ses, (v : BitVec 8) => decide (0x07 < v)
  | pi, (v : BitVec 8) => decide (0x07 < v)
  | lbaf, (v : BitVec 8) => decide (0x0f < v)
  | _, _ => false

section Set

variable {c : Cmd} (dw off a k : Nat)

theorem setBit_put (hdw : dw < Cmd.cmdSizeDW) (hoff : off < 32) (v : BitVec 1) :
    c.setBit (v == 1#1) dw off = some (put (32 * dw + off) (v.setWidth 1) c) := by
  have hbit : BitVec.ofBool (v == 1#1) = v := by
    revert v
    decide
  rw [Cmd.setBit_eq hdw hoff, hbit, BitVec.setWidth_eq]

theorem setByte_put (hdw : dw < Cmd.cmdSizeDW) (hoff : off < 4) (v : BitVec 8) :
    c.setByte v dw off = some (put (32 * dw + off * 8) (v.setWidth 8) c) := by
  rw [Cmd.setByte_eq hdw hoff, BitVec.setWidth_eq]

theorem setWord_put (hdw : dw < Cmd.cmdSizeDW) (hoff : off < 2) (v : BitVec 16) :
    c.setWord v dw off = some (put (32 * dw + off * 16) (v.setWidth 16) c) := by
  rw [Cmd.setWord_eq hdw hoff, BitVec.setWidth_eq]

theorem mergeByte_put {m : BitVec 8} (hm : m = mask 8 0 k) (hdw : dw < Cmd.cmdSizeDW) (hoff : off < 4) (hk : k ≤ 8)
    (v : BitVec 8) : c.mergeByte m (v &&& m) dw off = some (put (32 * dw + off * 8) (v.setWidth k) c) := by
  rw [hm, Cmd.mergeByte_eq hdw hoff (by omega), get_zero hk, Nat.add_zero]

theorem mergeByte_shift_put {m : BitVec 8} (hm : m = mask 8 a k) (hdw : dw < Cmd.cmdSizeDW) (hoff : off < 4)
    (hk : a + k ≤ 8) (v : BitVec 8) :
    c.mergeByte m (v <<< a &&& m) dw off = some (put (32 * dw + off * 8 + a) (v.setWidth k) c) := by
  rw [hm, Cmd.mergeByte_eq hdw hoff hk, get_shiftLeft hk]

theorem setArbitrationAB_put (v : BitVec 8) :
    SetFeatures.setArbitrationAB v c = some (put (32 * 11) (v.setWidth 8) c) := by
  rw [SetFeatures.setArbitrationAB, Cmd.getByte_eq (by decide) (by decide), Option.bind_eq_bind, Option.bind_some,
    setByte_put 11 0 (by decide) (by decide)]

theorem setLID_put (v : BitVec 16) : GetLogPage.setLID v c = some (put (32 * 10) (v.setWidth 16) c) := by
  rw [GetLogPage.setLID, Cmd.getWord_eq (by decide) (by decide), Option.bind_eq_bind, Option.bind_some,
    setWord_put 10 0 (by decide) (by decide)]

theorem setPowerManagementPS_put (npss : Option (BitVec 8)) (v : BitVec 8) :
    SetFeatures.setPowerManagementPS npss v c =
      if npss.elim true (fun n => decide (n < v)) then none else some (put (32 * 11) (v.setWidth 5) c) := by
  cases npss with
  | none => rfl
  | some n =>
    rw [SetFeatures.setPowerManagementPS, Option.bind_eq_bind, Option.bind_some,
      mergeByte_put 11 0 5 (by decide) (by decide) (by decide) (by decide)]
    simp only [Option.elim_some, decide_eq_true_eq]

/-- A setter that checks its argument. -/
theorem checked_put {limit v : BitVec 8} {r r' : Option Cmd} (hr : r = r') :
    (if limit < v then none else r) = if decide (limit < v) = true then none else r' := by
  rw [hr]
  simp only [decide_eq_true_eq]

theorem setNUMD_put (v : BitVec 16) : GetLogPage.setNUMD v c = some (put (32 * 10 + 16) (v.setWidth 12) c) := by
  rw [GetLogPage.setNUMD, show GetLogPage.numdBitmask = mask 16 0 12 by decide,
    Cmd.mergeWord_eq (by decide) (by decide) (by decide), get_zero (by decide)]

theorem setSPSP_put (v : BitVec 16) : BaseSecurity.setSPSP v c = some (put (32 * 10 + 8) (v.setWidth 16) c) := by
  have hfits : (v.setWidth 32).toNat < 2 ^ 16 := by
    rw [BitVec.toNat_setWidth_of_le (by decide)]
    exact v.isLt
  rw [BaseSecurity.setSPSP, show BaseSecurity.maskSPSP = mask 32 8 16 by decide, ← shiftLeft_and_mask hfits,
    Cmd.mergeDword_eq (by decide) (by decide), get_shiftLeft (by decide), BitVec.setWidth_setWidth_of_le _ (by decide)]

/-- **What a setter does.** -/
theorem set_eq (npss : Option (BitVec 8)) (f : AdminField) (v : BitVec f.argWidth) (c : Cmd) :
    f.set npss v c = if f.rejects npss v then none else some (put f.lo (v.setWidth f.writes) c) := by
  cases f with
  | fid => exact setByte_put 10 0 (by decide) (by decide) v
  | hpw => exact setByte_put 11 3 (by decide) (by decide) v
  | mpw => exact setByte_put 11 2 (by decide) (by decide) v
  | lpw | time => exact setByte_put 11 1 (by decide) (by decide) v
  | thr | pbslc => exact setByte_put 11 0 (by decide) (by decide) v
  | secp => exact setByte_put 10 3 (by decide) (by decide) v
  | tmpth | tler | nsqr | iv | smart | numdu => exact setWord_put 11 0 (by decide) (by decide) v
  | ncqr | tl => exact setWord_put 11 1 (by decide) (by decide) v
  | numdl => exact setWord_put 10 1 (by decide) (by decide) v
  | dulbe => exact setBit_put 11 16 (by decide) (by decide) v
  | apste => exact setBit_put 11 0 (by decide) (by decide) v
  | save => exact setBit_put 10 31 (by decide) (by decide) v
  | pil => exact setBit_put 10 8 (by decide) (by decide) v
  | ms => exact setBit_put 10 4 (by decide) (by decide) v
  | unsafePS => exact mergeByte_put 11 0 5 (by decide) (by decide) (by decide) (by decide) v
  | num => exact mergeByte_put 11 0 6 (by decide) (by decide) (by decide) (by decide) v
  | wce | dn => exact mergeByte_put 11 0 1 (by decide) (by decide) (by decide) (by decide) v
  | cd => exact mergeByte_put 11 2 1 (by decide) (by decide) (by decide) (by decide) v
  | ab => exact setArbitrationAB_put v
  | lid => exact setLID_put v
  | numd => exact setNUMD_put v
  | spsp => exact setSPSP_put v
  | ps => exact setPowerManagementPS_put npss v
  | ses => exact checked_put (mergeByte_shift_put 10 1 1 3 (by decide) (by decide) (by decide) (by decide) v)
  | pi => exact checked_put (mergeByte_shift_put 10 0 5 3 (by decide) (by decide) (by decide) (by decide) v)
  | lbaf => exact checked_put (mergeByte_shift_put 10 0 0 4 (by decide) (by decide) (by decide) (by decide) v)

/-! What the getters return. -/

theorem getMasked_toNat {m : BitVec 8} (hm : m = mask 8 0 k) (hdw : dw < Cmd.cmdSizeDW) (hoff : off < 4) (hk : k ≤ 8) :
    (do let work ← c.getByte dw off; return work &&& m).map BitVec.toNat =
      some (Fields.get (32 * dw + off * 8) k c).toNat := by
  rw [Cmd.getByte_eq hdw hoff, hm, Option.bind_eq_bind, Option.bind_some, and_mask, get_get (by omega)]
  exact congrArg some (BitVec.toNat_setWidth_of_le hk)

theorem getMaskedShift_toNat {m : BitVec 8} (hm : m = mask 8 a k) (hdw : dw < Cmd.cmdSizeDW) (hoff : off < 4)
    (hk : a + k ≤ 8) : (do let work ← c.getByte dw off; return (work &&& m) >>> a).map BitVec.toNat =
      some (Fields.get (32 * dw + off * 8 + a) k c).toNat := by
  rw [Cmd.getByte_eq hdw hoff, hm, Option.bind_eq_bind, Option.bind_some, and_mask_ushiftRight, get_get hk]
  exact congrArg some (BitVec.toNat_setWidth_of_le (by omega))

theorem getNUMD_toNat : (GetLogPage.getNUMD c).map BitVec.toNat = some (Fields.get (32 * 10 + 16) 12 c).toNat := by
  rw [GetLogPage.getNUMD, Cmd.getWord_eq (by decide) (by decide), show GetLogPage.numdBitmask = mask 16 0 12 by decide,
    Option.bind_eq_bind, Option.bind_some, and_mask, get_get (by decide)]
  exact congrArg some (BitVec.toNat_setWidth_of_le (by decide))

theorem getSPSP_toNat : (BaseSecurity.getSPSP c).map BitVec.toNat = some (Fields.get (32 * 10 + 8) 16 c).toNat := by
  rw [BaseSecurity.getSPSP, Cmd.getDword_eq (by decide), show BaseSecurity.maskSPSP = mask 32 8 16 by decide,
    Option.bind_eq_bind, Option.bind_some, and_mask_ushiftRight, get_get (by decide),
    BitVec.setWidth_setWidth_of_le _ (by decide), BitVec.setWidth_eq]
  rfl

/-- **A getter returns its field**; `GetLID` returns the word that the field stands in. -/
theorem get_eq (f : AdminField) (g : Cmd → Option Nat) (hg : f.get = some g) (c : Cmd) :
    g c = some (Fields.get f.lo (if f = lid then 16 else f.width) c).toNat := by
  cases f <;> cases hg
  case fid => exact Cmd.getByte_toNat 10 0 (by decide) (by decide)
  case hpw => exact Cmd.getByte_toNat 11 3 (by decide) (by decide)
  case mpw => exact Cmd.getByte_toNat 11 2 (by decide) (by decide)
  case lpw | time => exact Cmd.getByte_toNat 11 1 (by decide) (by decide)
  case thr | pbslc => exact Cmd.getByte_toNat 11 0 (by decide) (by decide)
  case secp => exact Cmd.getByte_toNat 10 3 (by decide) (by decide)
  case tmpth | tler | nsqr | iv | smart => exact Cmd.getWord_toNat 11 0 (by decide) (by decide)
  case ncqr | tl => exact Cmd.getWord_toNat 11 1 (by decide) (by decide)
  case lid => exact Cmd.getWord_toNat 10 0 (by decide) (by decide)
  case dulbe => exact Cmd.getBit_toNat 11 16 (by decide) (by decide)
  case apste => exact Cmd.getBit_toNat 11 0 (by decide) (by decide)
  case pil => exact Cmd.getBit_toNat 10 8 (by decide) (by decide)
  case ms => exact Cmd.getBit_toNat 10 4 (by decide) (by decide)
  case ab => exact getMasked_toNat 11 0 3 (by decide) (by decide) (by decide) (by decide)
  case ps | unsafePS => exact getMasked_toNat 11 0 5 (by decide) (by decide) (by decide) (by decide)
  case num => exact getMasked_toNat 11 0 6 (by decide) (by decide) (by decide) (by decide)
  case wce | dn => exact getMasked_toNat 11 0 1 (by decide) (by decide) (by decide) (by decide)
  case cd => exact getMasked_toNat 11 2 1 (by decide) (by decide) (by decide) (by decide)
  case numd => exact getNUMD_toNat
  case spsp => exact getSPSP_toNat
  case ses => exact getMaskedShift_toNat 10 1 1 3 (by decide) (by decide) (by decide) (by decide)
  case pi => exact getMaskedShift_toNat 10 0 5 3 (by decide) (by decide) (by decide) (by decide)
  case lbaf => exact getMaskedShift_toNat 10 0 0 4 (by decide) (by decide) (by decide) (by decide)

end Set

end AdminField

/-- The bit belongs to the field. -/
def AdminField.Holds (f : AdminField) (p : Nat) : Prop := f.lo ≤ p ∧ p < f.lo + f.width

instance (f : AdminField) (p : Nat) : Decidable (f.Holds p) := inferInstanceAs (Decidable (_ ∧ _))

/-! ## Calls -/

/-- A field, and an argument for its setter. -/
abbrev AdminPart := (f : AdminField) × BitVec f.argWidth

/-- A call of a setter, of one field or of several. -/
inductive AdminCall where
  | one (f : AdminField) (v : BitVec f.argWidth)
  | arbitration (hpw mpw lpw ab : BitVec 8)
  | numberOfQueues (ncqr nsqr : BitVec 16)
  | intCoalescing (time thr : BitVec 8)
  | intVecConfig (cd : BitVec 8) (iv : BitVec 16)

namespace AdminCall

def cls : AdminCall → AdminClass
  | one f _ => f.cls
  | _ => .setFeatures

def set (npss : Option (BitVec 8)) : AdminCall → Cmd → Option Cmd
  | one f v => f.set npss v
  | arbitration hpw mpw lpw ab => SetFeatures.setArbitration hpw mpw lpw ab
  | numberOfQueues ncqr nsqr => SetFeatures.setNumberOfQueues ncqr nsqr
  | intCoalescing time thr => SetFeatures.setIntCoalescing time thr
  | intVecConfig cd iv => SetFeatures.setIntVecConfig cd iv

/-- The fields that a call is to set. -/
def parts : AdminCall → List AdminPart
  | one f v => [⟨f, v⟩]
  | arbitration hpw mpw lpw ab => [⟨.hpw, hpw⟩, ⟨.mpw, mpw⟩, ⟨.lpw, lpw⟩, ⟨.ab, ab⟩]
  | numberOfQueues ncqr nsqr => [⟨.ncqr, ncqr⟩, ⟨.nsqr, nsqr⟩]
  | intCoalescing time thr => [⟨.time, time⟩, ⟨.thr, thr⟩]
  | intVecConfig cd iv => [⟨.cd, cd⟩, ⟨.iv, iv⟩]

/-- The fields of two calls do not overlap. -/
def Apart (call call' : AdminCall) : Prop :=
  ∀ x ∈ call.parts, ∀ y ∈ call'.parts, Fields.Apart x.1.lo x.1.width y.1.lo y.1.width

/-- A call that throws has written nothing. -/
def step (npss : Option (BitVec 8)) (c : Cmd) (call : AdminCall) : Cmd := (call.set npss c).getD c

end AdminCall

/-- The setters touch their own fields only, in one call. -/
structure AdminStepOk (npss : Option (BitVec 8)) (c : Cmd) (call : AdminCall) : Prop where
  /-- No other bit changes. -/
  frame (p : Nat) : (∀ x ∈ call.parts, ¬x.1.Holds p) → (call.step npss c).getLsbD p = c.getLsbD p
  /-- The bits of a field become those of the argument. -/
  taken : call.set npss c ≠ none → ∀ x ∈ call.parts,
    get x.1.lo x.1.width (call.step npss c) = x.2.setWidth x.1.width
  /-- The getter returns the argument, reduced to the width of the field. -/
  returned : call.set npss c ≠ none → ∀ x ∈ call.parts, ∀ g, x.1.get = some g →
    g (call.step npss c) = some (x.2.toNat % 2 ^ x.1.width)
  /-- `GetNumberOfQueues` returns both fields of its setter. -/
  both (ncqr nsqr : BitVec 16) : call = .numberOfQueues ncqr nsqr →
    (SetFeatures.getNumberOfQueues (call.step npss c)).map BitVec.toNat = some (nsqr.toNat + 2 ^ 16 * ncqr.toNat)
  /-- Setters of fields that do not overlap commute. -/
  commutes (call' : AdminCall) : call'.cls = call.cls → call.Apart call' →
    (call.set npss c).bind (call'.set npss) = (call'.set npss c).bind (call.set npss)

/-- What `SetArbitrationAB` and `SetLID` write besides their field is what stands there. -/
def AdminField.keeps : (f : AdminField) → BitVec f.argWidth → Cmd → Prop
  | .ab, (v : BitVec 8), c => ∀ i, 3 ≤ i → i < 8 → v.getLsbD i = c.getLsbD (32 * 11 + i)
  | .lid, (v : BitVec 16), c => v.toNat < 2 ^ 8 ∧ Fields.get (32 * 10 + 8) 8 c = 0#8
  | _, _, _ => True

/-! ## What a call does -/

namespace AdminCall

variable (npss : Option (BitVec 8)) (c : Cmd) (call : AdminCall)

def rejects : Bool := call.parts.any fun x => x.1.rejects npss x.2

/-- What is written, field by field. -/
def put (c : Cmd) (x : AdminPart) : Cmd :=
  putEach (fun x : AdminPart => x.1.lo) (fun x => x.2.setWidth x.1.writes) c x

theorem set_eq : call.set npss c = if call.rejects npss then none else some (Runs.run put c call.parts) := by
  have hpart (f : AdminField) (v : BitVec f.argWidth) (hf : f.rejects npss v = false) (c : Cmd) :
      f.set npss v c = some (put c ⟨f, v⟩) := by
    rw [AdminField.set_eq, hf]
    rfl
  cases call with
  | one f v =>
    change f.set npss v c = _
    rw [AdminField.set_eq, rejects, parts, List.any_cons, List.any_nil, Bool.or_false]
    rfl
  | arbitration hpw mpw lpw ab =>
    change (do
      let c ← AdminField.set npss .hpw hpw c
      let c ← AdminField.set npss .mpw mpw c
      let c ← AdminField.set npss .lpw lpw c
      AdminField.set npss .ab ab c) = _
    simp only [hpart .hpw hpw rfl, hpart .mpw mpw rfl, hpart .lpw lpw rfl, hpart .ab ab rfl, Option.bind_eq_bind,
      Option.bind_some]
    rfl
  | numberOfQueues ncqr nsqr =>
    change (do let c ← AdminField.set npss .ncqr ncqr c; AdminField.set npss .nsqr nsqr c) = _
    simp only [hpart .ncqr ncqr rfl, hpart .nsqr nsqr rfl, Option.bind_eq_bind, Option.bind_some]
    rfl
  | intCoalescing time thr =>
    change (do let c ← AdminField.set npss .time time c; AdminField.set npss .thr thr c) = _
    simp only [hpart .time time rfl, hpart .thr thr rfl, Option.bind_eq_bind, Option.bind_some]
    rfl
  | intVecConfig cd iv =>
    change (do let c ← AdminField.set npss .cd cd c; AdminField.set npss .iv iv c) = _
    simp only [hpart .cd cd rfl, hpart .iv iv rfl, Option.bind_eq_bind, Option.bind_some]
    rfl

theorem step_eq (h : call.rejects npss = false) : call.step npss c = Runs.run put c call.parts := by
  rw [step, set_eq, h]
  rfl

theorem step_rejected (h : call.rejects npss = true) : call.step npss c = c := by
  rw [step, set_eq, h]
  rfl

/-! ## When the fields are kept -/

theorem writes_le (f : AdminField) : f.width ≤ f.writes ∧ f.lo + f.writes ≤ 512 ∧ f.writes ≤ f.argWidth := by
  cases f <;> decide

theorem writes_eq {f : AdminField} (h : f ≠ .ab ∧ f ≠ .lid) : f.writes = f.width := by
  cases f <;> first | rfl | exact absurd rfl h.1 | exact absurd rfl h.2

/-- The fields of one call do not overlap, also with all that is written. -/
theorem parts_pairwise (call : AdminCall) : call.parts.Pairwise fun x y =>
    Fields.Apart x.1.lo x.1.writes y.1.lo y.1.writes := by
  cases call with
  | one f v => exact List.pairwise_singleton _ _
  | _ =>
    simp only [parts, List.pairwise_cons, List.mem_cons, List.not_mem_nil, or_false, forall_eq_or_imp, forall_eq,
      List.Pairwise.nil, and_true, false_imp_iff, implies_true]
    decide

/-- What is written beyond a field overlaps with no other field of the class. -/
theorem apart_beyond {f : AdminField} (hf : f = .ab ∨ f = .lid) (g : AdminField) : g.cls = f.cls →
    Fields.Apart f.lo f.width g.lo g.width → Fields.Apart f.lo f.writes g.lo g.writes := by
  rcases hf with rfl | rfl <;> cases g <;> decide

theorem apart_writes {f g : AdminField} (hcls : g.cls = f.cls) (h : Fields.Apart f.lo f.width g.lo g.width) :
    Fields.Apart f.lo f.writes g.lo g.writes := by
  by_cases hf : f = .ab ∨ f = .lid
  · exact apart_beyond hf g hcls h
  · by_cases hg : g = .ab ∨ g = .lid
    · exact (apart_beyond hg f hcls.symm h.symm).symm
    · rwa [writes_eq (not_or.1 hf), writes_eq (not_or.1 hg)]

theorem cls_part {x : AdminPart} (hx : x ∈ call.parts) : x.1.cls = call.cls := by
  cases call with
  | one f v =>
    obtain rfl := List.mem_singleton.1 hx
    rfl
  | _ =>
    simp only [parts, List.mem_cons, List.not_mem_nil, or_false] at hx
    rcases hx with rfl | rfl | rfl | rfl <;> rfl

/-- **Setters of fields that do not overlap commute**, for what they write does not either. -/
theorem set_comm {call call' : AdminCall} (hcls : call'.cls = call.cls) (h : call.Apart call') :
    (call.set npss c).bind (call'.set npss) = (call'.set npss c).bind (call.set npss) := by
  have hput : ∀ x ∈ call.parts, ∀ y ∈ call'.parts, ∀ c, put (put c x) y = put (put c y) x := by
    intro x hx y hy c
    have hcls : y.1.cls = x.1.cls := by rw [cls_part call hx, cls_part call' hy, hcls]
    exact put_comm (apart_writes hcls (h x hx y hy)) _ _ c
  have hset (call : AdminCall) (h : call.rejects npss = true) (c : Cmd) : call.set npss c = none := by
    rw [set_eq, h]
    rfl
  cases hrej : call.rejects npss with
  | true =>
    rw [hset call hrej, Option.bind_none]
    cases call'.set npss c with
    | none => rfl
    | some c' => exact (hset call hrej c').symm
  | false =>
    cases hrej' : call'.rejects npss with
    | true =>
      rw [hset call' hrej', Option.bind_none]
      cases call.set npss c with
      | none => rfl
      | some c' => exact hset call' hrej' c'
    | false =>
      have hrun (call : AdminCall) (h : call.rejects npss = false) (c : Cmd) :
          call.set npss c = some (Runs.run put c call.parts) := by
        rw [set_eq, h]
        rfl
      rw [hrun call hrej, hrun call' hrej', Option.bind_some, Option.bind_some, hrun call' hrej', hrun call hrej,
        Runs.run_comm hput]

/-- The bits of what has been written. -/
theorem get_written (h : call.rejects npss = false) {x : AdminPart} (hx : x ∈ call.parts) :
    Fields.get x.1.lo x.1.writes (call.step npss c) = x.2.setWidth x.1.writes := by
  rw [step_eq npss c call h]
  exact get_run_of_mem (parts_pairwise call) hx (writes_le x.1).2.1 c

theorem get_part (h : call.rejects npss = false) {x : AdminPart} (hx : x ∈ call.parts) :
    Fields.get x.1.lo x.1.width (call.step npss c) = x.2.setWidth x.1.width := by
  have hle := (writes_le x.1).1
  have hsub : Fields.get 0 x.1.width (Fields.get x.1.lo x.1.writes (call.step npss c)) =
      Fields.get (x.1.lo + 0) x.1.width (call.step npss c) := get_get (by omega) _
  rw [get_written npss c call h hx, get_zero hle, BitVec.setWidth_setWidth_of_le _ hle, Nat.add_zero] at hsub
  exact hsub.symm

/-- The bit of an argument that ends up at a place. -/
theorem bit_written (h : call.rejects npss = false) {x : AdminPart} (hx : x ∈ call.parts) {i : Nat}
    (hi : i < x.1.writes) : (call.step npss c).getLsbD (x.1.lo + i) = x.2.getLsbD i := by
  have hbit := congrArg (fun v => v.getLsbD i) (get_written npss c call h hx)
  simpa only [getLsbD_get, BitVec.getLsbD_setWidth, decide_eq_true hi, Bool.true_and] using hbit

/-- **Nothing changes outside of the fields exactly if what is written beyond them is there already.** -/
theorem frame_iff (h : call.rejects npss = false) :
    (∀ p, (∀ x ∈ call.parts, ¬x.1.Holds p) → (call.step npss c).getLsbD p = c.getLsbD p) ↔
      ∀ x ∈ call.parts, ∀ i, x.1.width ≤ i → i < x.1.writes → x.2.getLsbD i = c.getLsbD (x.1.lo + i) := by
  constructor
  · intro hframe x hx i hlow hhigh
    rw [← bit_written npss c call h hx hhigh]
    refine hframe (x.1.lo + i) fun y hy hin => ?_
    unfold AdminField.Holds at hin
    by_cases hyx : y = x
    · subst hyx
      omega
    · have hsymm : Std.Symm fun x y : AdminPart => Fields.Apart x.1.lo x.1.writes y.1.lo y.1.writes :=
        ⟨fun _ _ hxy => hxy.symm⟩
      have hapart := (parts_pairwise call).forall hy hx hyx
      have hle := (writes_le y.1).1
      unfold Fields.Apart at hapart
      omega
  · intro hkeep p hp
    by_cases hany : ∃ x ∈ call.parts, x.1.lo ≤ p ∧ p < x.1.lo + x.1.writes
    · obtain ⟨x, hx, hlow, hhigh⟩ := hany
      obtain ⟨i, rfl⟩ := Nat.exists_eq_add_of_le hlow
      have hout := hp x hx
      unfold AdminField.Holds at hout
      rw [bit_written npss c call h hx (by omega), hkeep x hx i (by omega) (by omega)]
    · rw [step_eq npss c call h]
      exact getLsbD_run_of_forall_not (fun x hx hin => hany ⟨x, hx, hin⟩) c

theorem getNumberOfQueues_step (ncqr nsqr : BitVec 16) :
    (SetFeatures.getNumberOfQueues ((numberOfQueues ncqr nsqr).step npss c)).map BitVec.toNat =
      some (nsqr.toNat + 2 ^ 16 * ncqr.toNat) := by
  have hhigh := get_part npss c (numberOfQueues ncqr nsqr) rfl (x := ⟨.ncqr, ncqr⟩) List.mem_cons_self
  have hlow := get_part npss c (numberOfQueues ncqr nsqr) rfl (x := ⟨.nsqr, nsqr⟩)
    (List.mem_cons_of_mem _ List.mem_cons_self)
  have hsplit := toNat_get_add (32 * 11) 16 16 ((numberOfQueues ncqr nsqr).step npss c)
  rw [show Fields.get (32 * 11) 16 _ = nsqr from hlow.trans (BitVec.setWidth_eq nsqr),
    show Fields.get (32 * 11 + 16) 16 _ = ncqr from hhigh.trans (BitVec.setWidth_eq ncqr)] at hsplit
  rw [SetFeatures.getNumberOfQueues, Cmd.getDword_eq (by decide)]
  exact congrArg some hsplit

theorem returned_iff (h : call.rejects npss = false) {x : AdminPart} (hx : x ∈ call.parts) {g : Cmd → Option Nat}
    (hg : x.1.get = some g) : g (call.step npss c) = some (x.2.toNat % 2 ^ x.1.width) ↔
      x.1 = .lid → x.2.toNat < 2 ^ 8 := by
  rw [AdminField.get_eq x.1 g hg]
  by_cases hlid : x.1 = .lid
  · obtain ⟨f, v⟩ := x
    obtain rfl : f = .lid := hlid
    have hword : Fields.get (32 * 10) 16 (call.step npss c) = v.setWidth 16 := get_written npss c call h hx
    rw [if_pos rfl]
    change some (Fields.get (32 * 10) 16 (call.step npss c)).toNat = some (v.toNat % 2 ^ 8) ↔ _
    rw [hword, show v.setWidth 16 = v from BitVec.setWidth_eq v, Option.some.injEq]
    constructor
    · intro hv _
      exact Nat.lt_of_le_of_lt (Nat.le_of_eq hv) (Nat.mod_lt _ (by decide))
    · intro hv
      exact (Nat.mod_eq_of_lt (hv rfl)).symm
  · rw [if_neg hlid, get_part npss c call h hx, BitVec.toNat_setWidth]
    exact iff_of_true rfl fun hl => absurd hl hlid

end AdminCall

theorem AdminField.keeps_of_ne {f : AdminField} (h : f ≠ .ab ∧ f ≠ .lid) (v : BitVec f.argWidth) (c : Cmd) :
    f.keeps v c := by
  cases f <;> first | exact trivial | exact absurd rfl h.1 | exact absurd rfl h.2

/-- What is written beyond a field, and what its getter returns. -/
theorem AdminField.keeps_iff (f : AdminField) (v : BitVec f.argWidth) (c : Cmd) :
    f.keeps v c ↔ (∀ i, f.width ≤ i → i < f.writes → v.getLsbD i = c.getLsbD (f.lo + i)) ∧
      (f = .lid → v.toNat < 2 ^ 8) := by
  by_cases hab : f = .ab
  · subst hab
    exact (and_iff_left fun h => AdminField.noConfusion h).symm
  · by_cases hlid : f = .lid
    · subst hlid
      have hhigh (hv : v.toNat < 2 ^ 8) {i : Nat} (hi : 8 ≤ i) : v.getLsbD i = false :=
        Nat.testBit_lt_two_pow (Nat.lt_of_lt_of_le hv (Nat.pow_le_pow_right (by decide) hi))
      constructor
      · rintro ⟨hv, hzero⟩
        refine ⟨fun i (hlow : 8 ≤ i) (hi : i < 16) => ?_, fun _ => hv⟩
        have hbit := congrArg (fun w => w.getLsbD (i - 8)) hzero
        simp only [getLsbD_get, BitVec.getLsbD_zero, decide_eq_true (show i - 8 < 8 by omega), Bool.true_and] at hbit
        rw [hhigh hv hlow, ← hbit]
        congr 1
        change 32 * 10 + 8 + (i - 8) = 32 * 10 + i
        omega
      · rintro ⟨hbits, hv⟩
        refine ⟨hv rfl, BitVec.eq_of_getLsbD_eq fun i hi => ?_⟩
        rw [getLsbD_get, decide_eq_true hi, Bool.true_and, BitVec.getLsbD_zero, Nat.add_assoc,
          ← hhigh (hv rfl) (Nat.le_add_right 8 i)]
        exact (hbits (8 + i) (Nat.le_add_right 8 i) (by change 8 + i < 16; omega)).symm
    · refine iff_of_true (keeps_of_ne ⟨hab, hlid⟩ v c) ⟨fun i hlow hi => ?_, fun h => absurd h hlid⟩
      rw [AdminCall.writes_eq ⟨hab, hlid⟩] at hi
      omega

/-- Only setters without these two fields throw. -/
theorem AdminCall.keeps_of_rejects {npss : Option (BitVec 8)} {call : AdminCall} (h : call.rejects npss = true)
    (c : Cmd) {x : AdminPart} (hx : x ∈ call.parts) : x.1.keeps x.2 c := by
  cases call with
  | one f v =>
    obtain rfl := List.mem_singleton.1 hx
    rw [rejects, parts, List.any_cons, List.any_nil, Bool.or_false] at h
    refine AdminField.keeps_of_ne ⟨?_, ?_⟩ v c <;> rintro rfl <;> cases h
  | _ => cases h

/-- **One call touches its own fields only exactly if what it writes beyond them is there already.** -/
theorem adminStepOk_iff (npss : Option (BitVec 8)) (c : Cmd) (call : AdminCall) :
    AdminStepOk npss c call ↔ ∀ x ∈ call.parts, x.1.keeps x.2 c := by
  cases hrej : call.rejects npss with
  | true =>
    have hnone : call.set npss c = none := by
      rw [AdminCall.set_eq, hrej]
      rfl
    refine iff_of_true ⟨fun p _ => ?_, fun h => absurd hnone h, fun h => absurd hnone h, ?_, fun call' hcls h =>
      AdminCall.set_comm npss c hcls h⟩ fun x hx => AdminCall.keeps_of_rejects hrej c hx
    · rw [AdminCall.step_rejected npss c call hrej]
    · rintro ncqr nsqr rfl
      cases hrej
  | false =>
    have hframe := AdminCall.frame_iff npss c call hrej
    have hset : call.set npss c ≠ none := by
      rw [AdminCall.set_eq, hrej]
      exact Option.some_ne_none _
    constructor
    · intro h x hx
      refine (x.1.keeps_iff x.2 c).2 ⟨hframe.1 h.frame x hx, fun hlid => ?_⟩
      obtain ⟨f, v⟩ := x
      obtain rfl : f = .lid := hlid
      exact (AdminCall.returned_iff npss c call hrej hx rfl).1 (h.returned hset _ hx _ rfl) rfl
    · intro h
      refine ⟨hframe.2 fun x hx => ((x.1.keeps_iff x.2 c).1 (h x hx)).1, fun _ x hx =>
        AdminCall.get_part npss c call hrej hx, fun _ x hx g hg => (AdminCall.returned_iff npss c call hrej hx hg).2
          ((x.1.keeps_iff x.2 c).1 (h x hx)).2, ?_, fun call' hcls hapart => AdminCall.set_comm npss c hcls hapart⟩
      rintro ncqr nsqr rfl
      exact AdminCall.getNumberOfQueues_step npss c ncqr nsqr

/-- A step of a sequence of calls. The Identify data may be another one at every call. -/
def AdminCall.next (c : Cmd) (x : Option (BitVec 8) × AdminCall) : Cmd := x.2.step x.1 c

/-- **When the setters of the admin commands touch their own fields only**, in all calls of a sequence. -/
theorem adminFields_iff (c : Cmd) (calls : List (Option (BitVec 8) × AdminCall)) :
    (∀ x ∈ Runs.steps AdminCall.next c calls, AdminStepOk x.2.1 x.1 x.2.2) ↔
      ∀ x ∈ Runs.steps AdminCall.next c calls, ∀ y ∈ x.2.2.parts, y.1.keeps y.2 x.1 :=
  forall₂_congr fun x _ => adminStepOk_iff x.2.1 x.1 x.2.2

/-- Bit 3 of AB is not masked out, nor is bit 8 of LID. -/
theorem adminFields_not_kept :
    ¬AdminStepOk none 0#512 (.one .ab 0x08#8) ∧ ¬AdminStepOk none 0#512 (.one .lid 0x0100#16) := by
  constructor
  · intro h
    have hbit := h.frame (32 * 11 + 3) fun x hx => by
      obtain rfl := List.mem_singleton.1 hx
      decide
    exact absurd hbit (by decide +kernel)
  · intro h
    have hbit := h.frame (32 * 10 + 8) fun x hx => by
      obtain rfl := List.mem_singleton.1 hx
      decide
    exact absurd hbit (by decide +kernel)

end Tnvme
