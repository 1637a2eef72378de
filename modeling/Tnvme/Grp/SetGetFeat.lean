import Tnvme.Cmds.Admin
import Tnvme.Lib.Outcomes
import Tnvme.Queues.IOQueue
import Tnvme.Queues.SendAndReap
import Tnvme.Regs.PciSpc

/-!
# The features before and after a group

`GrpAdminSetGetFeatCombo` reads the features of the device before its tests, and sets them to these values after its
tests. A value is the DW0 of a completion, which is looked up at the head that the ACQ had before the command. The
vectors of interrupts are counted by the scheme that is programmed.

The device is a store of what is set (`Dut.process`). `restoreState_saveState` is the round trip.
-/

namespace Tnvme

open Fields Outcomes

/-- `FID[FID_IRQ_VEC_CONFIG]` -/
def fidIrqVecConfig : BitVec 8 := 0x09

/-- The features that the group saves; each vector of interrupts has its configuration. -/
inductive Feature where
  | arbitration
  | pwrMgmt
  | tempThreshold
  | errRecovery
  | volWrCache
  | irqCoalescing
  | irqVecConfig (iv : BitVec 16)
  | writeAtomicity
  | asyncEventConfig
  deriving DecidableEq, Repr

namespace Feature

/-- `FEATURE_TABLE` -/
def fid : Feature → BitVec 8
  | arbitration => 0x01
  | pwrMgmt => 0x02
  | tempThreshold => 0x04
  | errRecovery => 0x05
  | volWrCache => 0x06
  | irqCoalescing => 0x08
  | irqVecConfig _ => fidIrqVecConfig
  | writeAtomicity => 0x0a
  | asyncEventConfig => 0x0b

def iv : Feature → BitVec 16
  | irqVecConfig iv => iv
  | _ => 0

/-- Where the value is in the device. -/
def cell (f : Feature) : BitVec 8 × BitVec 16 := (f.fid, f.iv)

end Feature

/-- What the device stores, for the number of a feature and of a vector. -/
abbrev Features := BitVec 8 × BitVec 16 → BitVec 32

namespace Cmd

/-! What the controller sees of a command. -/

def opcode (c : Cmd) : BitVec 8 := get 0 8 c

def dw11 (c : Cmd) : BitVec 32 := get (32 * 11) 32 c

/-- The value a command is about: DW11 has the number of the vector in the configuration of the vectors only. -/
def cell (c : Cmd) : BitVec 8 × BitVec 16 :=
  (get (32 * 10) 8 c, if get (32 * 10) 8 c = fidIrqVecConfig then get (32 * 11) 16 c else 0)

end Cmd

namespace GetFeatures

def opcode : BitVec 8 := 0x0a

/-- The constructor; `Init` sets the opcode. -/
def new : Option Cmd := Cmd.setByte 0 opcode 0 0

def setIntVecConfigIV (iv : BitVec 16) (c : Cmd) : Option Cmd := c.setWord iv 11 0

end GetFeatures

namespace SetFeatures

def opcode : BitVec 8 := 0x09

def new : Option Cmd := Cmd.setByte 0 opcode 0 0

end SetFeatures

/-- Why a function does not return. -/
inductive GrpFault where
  /-- `FrmwkEx` -/
  | thrown
  /-- `mIvecConf` is accessed beyond its end. -/
  | outOfBounds
  deriving DecidableEq, Repr

/-- The device and the driver. -/
structure Dut where
  /-- What a value is when it has been stored. -/
  keeps : BitVec 8 × BitVec 16 → BitVec 32 → BitVec 32
  /-- The entry of the command that is sent at a time, if one arrives. -/
  entry : Nat → Option CE
  /-- Whether a request to the driver that is made at a time is granted. -/
  works : Nat → Bool
  pciCap : List PciCapabilities
  /-- The registers MC and MXC, if they can be read. -/
  mc : Option Nat
  mxc : Option Nat
  /-- VWC of the Identify data. -/
  vwc : Nat

/-- The state of the device and the driver. -/
structure DutState where
  time : Nat
  features : Features
  acq : RingBuf CE 5
  irqActive : NvmeIrqType

namespace Dut

variable (dut : Dut)

/-- A command is carried out. -/
def process (c : Cmd) (ce : CE) (features : Features) : Features × CE :=
  if c.opcode = GetFeatures.opcode then (features, { ce with cmdSpec := features c.cell })
  else if c.opcode = SetFeatures.opcode then (Function.update features c.cell (dut.keeps c.cell c.dw11), ce)
  else (features, ce)

/-- `SendAndReapCmd`, with the state that it leaves. It expects success. -/
def sendAndReapCmd (c : Cmd) (s : DutState) : Except GrpFault DutState :=
  if s.acq.count ≠ 0 then .error .thrown
  else
    match dut.entry s.time with
    | none => .error .thrown
    | some ce =>
      let acq := s.acq.push (dut.process c ce s.features).2
      match verifyCE (acq.slot acq.head) [.success] with
      | .error _ => .error .thrown
      | .ok _ =>
        .ok { s with time := s.time + 1, features := (dut.process c ce s.features).1, acq := acq.pop 1 }

/-- The last lines of every `Save..`. The head of a queue is one of its indices, for which `PeekCE` does not throw. -/
def getDw0 (c : Cmd) (s : DutState) : Except GrpFault (DutState × BitVec 32) := do
  let acqMetrics := s.acq.head
  let s ← dut.sendAndReapCmd c s
  return (s, (s.acq.slot acqMetrics).cmdSpec)

/-- A request to the driver other than a command. -/
def request (s : DutState) : Except GrpFault DutState :=
  if dut.works s.time then .ok { s with time := s.time + 1 } else .error .thrown

/-! ## Interrupts -/

/-- Whether there is the capability, and the number of interrupts. -/
def isMSICapable : Option (Bool × Nat) :=
  if .msicap ∈ dut.pciCap then dut.mc.map fun value => (true, 1 <<< ((value &&& 0x000e) >>> 1)) else some (false, 0)

def isMSIXCapable : Option (Bool × Nat) :=
  if .msixcap ∈ dut.pciCap then dut.mxc.map fun value => (true, (value &&& 0x07ff) + 1) else some (false, 0)

/-- The scheme that `SetAnySchemeSpecifyNum` programs, where it does not throw. -/
def verifyAnySchemeSpecifyNum (numIrqsDesire : Nat) : Option NvmeIrqType :=
  match dut.isMSIXCapable with
  | none => none
  | some msix =>
    if msix.1 && numIrqsDesire ≤ msix.2 then some .msix
    else
      match dut.isMSICapable with
      | none => none
      | some msi =>
        if msi.1 && numIrqsDesire ≤ msi.2 then some (if msi.2 = 1 then .msiSingle else .msiMulti) else none

/-- The `switch` of `GetMaxIRQsSupportedAnyScheme`. -/
def maxIvec : NvmeIrqType → Option Nat
  | .msiMulti => dut.isMSICapable.map (·.2)
  | .msix => dut.isMSIXCapable.map (·.2)
  | .msiSingle | .none => some 0
  | .other => none

def getMaxIRQsSupportedAnyScheme (s : DutState) : Except GrpFault (DutState × Nat) := do
  let s ← dut.request s
  match dut.maxIvec s.irqActive with
  | none => .error .thrown
  | some maxIvec => return (s, maxIvec)

/-- The lines with which both functions begin. Disabling turns the interrupts off, a new ACQ is empty, and what `SetCSS`
returns is not looked at. -/
def prepare (s : DutState) : Except GrpFault DutState := do
  let s ← dut.request s
  let s ← dut.request { s with irqActive := .none }
  let s ← dut.request { s with acq := { slot := s.acq.slot, head := 0, count := 0, head_lt := by decide,
                                        count_lt := by decide } }
  match dut.verifyAnySchemeSpecifyNum 1 with
  | none => .error .thrown
  | some irqScheme =>
    let s ← dut.request s
    dut.request { s with irqActive := irqScheme, time := s.time + 1 }

end Dut

/-! ## The group -/

/-- `MAX_IVEC` -/
def maxIVEC : Nat := 2048

structure GrpAdminSetGetFeatCombo where
  mArbitration : BitVec 32
  mPowerState : BitVec 32
  mTmpThreshold : BitVec 32
  mTimeLimErrRec : BitVec 32
  mVolWrCache : BitVec 32
  mIrqCoalescing : BitVec 32
  mIvecConf : Nat → BitVec 32
  mWrAtomicity : BitVec 32
  mAsyncEvent : BitVec 32

namespace GrpAdminSetGetFeatCombo

def readIvecConf (g : GrpAdminSetGetFeatCombo) (ivec : Nat) : Except GrpFault (BitVec 32) :=
  if ivec < maxIVEC then .ok (g.mIvecConf ivec) else .error .outOfBounds

def writeIvecConf (g : GrpAdminSetGetFeatCombo) (ivec : Nat) (dw0 : BitVec 32) :
    Except GrpFault GrpAdminSetGetFeatCombo :=
  if ivec < maxIVEC then .ok { g with mIvecConf := Function.update g.mIvecConf ivec dw0 } else .error .outOfBounds

end GrpAdminSetGetFeatCombo

/-- The exceptions of the functions of a command. -/
def orThrow {α : Type} : Option α → Except GrpFault α
  | none => .error .thrown
  | some a => .ok a

namespace Dut

open GrpAdminSetGetFeatCombo

variable (dut : Dut)

/-! ### Saving -/

/-- The lines that every `Save..` has, with what it assigns to its member. -/
def save (f : Feature) (assign : GrpAdminSetGetFeatCombo → BitVec 32 → GrpAdminSetGetFeatCombo)
    (r : DutState × GrpAdminSetGetFeatCombo) : Except GrpFault (DutState × GrpAdminSetGetFeatCombo) := do
  let getFeaturesCmd ← orThrow GetFeatures.new
  let getFeaturesCmd ← orThrow (BaseFeatures.setFID f.fid getFeaturesCmd)
  let r' ← dut.getDw0 getFeaturesCmd r.1
  return (r'.1, assign r.2 r'.2)

def saveArbitration := dut.save .arbitration fun g dw0 => { g with mArbitration := dw0 }

def savePowerState := dut.save .pwrMgmt fun g dw0 => { g with mPowerState := dw0 }

def saveTMPTH := dut.save .tempThreshold fun g dw0 => { g with mTmpThreshold := dw0 }

def saveTLER := dut.save .errRecovery fun g dw0 => { g with mTimeLimErrRec := dw0 }

def saveVolWrCache := dut.save .volWrCache fun g dw0 => { g with mVolWrCache := dw0 }

def saveIRQCoalescing := dut.save .irqCoalescing fun g dw0 => { g with mIrqCoalescing := dw0 }

def saveWrAtomicity := dut.save .writeAtomicity fun g dw0 => { g with mWrAtomicity := dw0 }

def saveAsyncEvent := dut.save .asyncEventConfig fun g dw0 => { g with mAsyncEvent := dw0 }

/-- The loop of `SaveIvecConf`, from a vector on. -/
def saveIvecs (getFeaturesCmd : Cmd) (ivec : Nat) :
    Nat → DutState × GrpAdminSetGetFeatCombo → Except GrpFault (DutState × GrpAdminSetGetFeatCombo)
  | 0, r => .ok r
  | left + 1, r => do
    let getFeaturesCmd ← orThrow (GetFeatures.setIntVecConfigIV (BitVec.ofNat 16 ivec) getFeaturesCmd)
    let r' ← dut.getDw0 getFeaturesCmd r.1
    let g ← r.2.writeIvecConf ivec r'.2
    saveIvecs getFeaturesCmd (ivec + 1) left (r'.1, g)

def saveIvecConf (r : DutState × GrpAdminSetGetFeatCombo) : Except GrpFault (DutState × GrpAdminSetGetFeatCombo) := do
  let getFeaturesCmd ← orThrow GetFeatures.new
  let getFeaturesCmd ← orThrow (BaseFeatures.setFID fidIrqVecConfig getFeaturesCmd)
  let irqs ← dut.getMaxIRQsSupportedAnyScheme r.1
  dut.saveIvecs getFeaturesCmd 0 irqs.2 (irqs.1, r.2)

/-- `BITMASK_VWC` -/
def hasVwc : Bool := dut.vwc &&& 0x1 = 0x1

def saveState (s : DutState) : Except GrpFault (DutState × GrpAdminSetGetFeatCombo) := do
  let s ← dut.prepare s
  let r ← dut.saveArbitration (s, ⟨0, 0, 0, 0, 0, 0, fun _ => 0, 0, 0⟩)
  let r ← dut.savePowerState r
  let r ← dut.saveTMPTH r
  let r ← dut.saveTLER r
  let r ← (if dut.hasVwc then dut.saveVolWrCache r else pure r)
  let r ← dut.saveIRQCoalescing r
  let r ← dut.saveIvecConf r
  let r ← dut.saveWrAtomicity r
  dut.saveAsyncEvent r

/-! ### Restoring -/

/-- A value is set and read again; it is compared with the one that was saved. -/
def setAndCompare (setFeaturesCmd getFeaturesCmd : Cmd) (saved : BitVec 32) (s : DutState) :
    Except GrpFault (DutState × Bool) := do
  let s ← dut.sendAndReapCmd setFeaturesCmd s
  let r ← dut.getDw0 getFeaturesCmd s
  return (r.1, saved == r.2)

/-- The lines that every `Restore..` has. -/
def restore (f : Feature) (saved : BitVec 32) (s : DutState) : Except GrpFault (DutState × Bool) := do
  let getFeaturesCmd ← orThrow GetFeatures.new
  let setFeaturesCmd ← orThrow SetFeatures.new
  let setFeaturesCmd ← orThrow (BaseFeatures.setFID f.fid setFeaturesCmd)
  let getFeaturesCmd ← orThrow (BaseFeatures.setFID f.fid getFeaturesCmd)
  let setFeaturesCmd ← orThrow (Cmd.setDword setFeaturesCmd saved 11)
  dut.setAndCompare setFeaturesCmd getFeaturesCmd saved s

variable (g : GrpAdminSetGetFeatCombo)

def restoreArbitration := dut.restore .arbitration g.mArbitration

def restorePowerState := dut.restore .pwrMgmt g.mPowerState

def restoreTMPTH := dut.restore .tempThreshold g.mTmpThreshold

def restoreTLER := dut.restore .errRecovery g.mTimeLimErrRec

def restoreVolWrCache := dut.restore .volWrCache g.mVolWrCache

def restoreIRQCoalescing := dut.restore .irqCoalescing g.mIrqCoalescing

def restoreWrAtomicity := dut.restore .writeAtomicity g.mWrAtomicity

def restoreAsyncEvent := dut.restore .asyncEventConfig g.mAsyncEvent

/-- The loop of `RestoreSaveIvecConf`, from a vector on. -/
def restoreIvecs (setFeaturesCmd getFeaturesCmd : Cmd) (ivec : Nat) :
    Nat → DutState → Except GrpFault (DutState × Bool)
  | 0, s => .ok (s, true)
  | left + 1, s => do
    let setFeaturesCmd ← orThrow (BaseFeatures.setFID fidIrqVecConfig setFeaturesCmd)
    let getFeaturesCmd ← orThrow (BaseFeatures.setFID fidIrqVecConfig getFeaturesCmd)
    let saved ← g.readIvecConf ivec
    let setFeaturesCmd ← orThrow (Cmd.setDword setFeaturesCmd saved 11)
    let getFeaturesCmd ← orThrow (GetFeatures.setIntVecConfigIV (BitVec.ofNat 16 ivec) getFeaturesCmd)
    let r ← dut.setAndCompare setFeaturesCmd getFeaturesCmd saved s
    if r.2 then restoreIvecs setFeaturesCmd getFeaturesCmd (ivec + 1) left r.1 else return r

def restoreSaveIvecConf (s : DutState) : Except GrpFault (DutState × Bool) := do
  let getFeaturesCmd ← orThrow GetFeatures.new
  let setFeaturesCmd ← orThrow SetFeatures.new
  let irqs ← dut.getMaxIRQsSupportedAnyScheme s
  dut.restoreIvecs g setFeaturesCmd getFeaturesCmd 0 irqs.2 irqs.1

/-- The next one is restored unless the one before has failed. -/
def andThen (first next : DutState → Except GrpFault (DutState × Bool)) (s : DutState) :
    Except GrpFault (DutState × Bool) := do
  let r ← first s
  if r.2 then next r.1 else return r

def restoreState (s : DutState) : Except GrpFault (DutState × Bool) := do
  let s ← dut.prepare s
  andThen (dut.restoreArbitration g) (andThen (dut.restorePowerState g) (andThen (dut.restoreTMPTH g)
    (andThen (dut.restoreTLER g) (andThen (if dut.hasVwc then dut.restoreVolWrCache g else fun s => return (s, true))
      (andThen (dut.restoreIRQCoalescing g) (andThen (dut.restoreSaveIvecConf g)
        (andThen (dut.restoreWrAtomicity g) (dut.restoreAsyncEvent g)))))))) s

end Dut

/-! ## Commands -/

namespace Cmd

variable {c : Cmd}

end Cmd

section Commands

variable {E : GrpFault → Prop} {opcode fid : BitVec 8} {c : Cmd}

end Commands

/-! ## Runs that succeed -/

namespace Dut

variable {dut : Dut} {irq : NvmeIrqType} {s : DutState}

/-- Every command completes with success, every request is granted, registers can be read, and a scheme of interrupts is
supported. -/
structure Succeeds (dut : Dut) : Prop where
  entry (time : Nat) : ∃ ce st, dut.entry time = some ce ∧ verifyCE ce [.success] = .ok st
  works (time : Nat) : dut.works time = true
  mc : .msicap ∈ dut.pciCap → dut.mc ≠ none
  mxc : .msixcap ∈ dut.pciCap → dut.mxc ≠ none
  scheme : dut.verifyAnySchemeSpecifyNum 1 ≠ none

/-- The device stores what is set. -/
def Exact (dut : Dut) : Prop := ∀ cell value, dut.keeps cell value = value

/-- A function throws if something does not succeed, and does not go beyond the end of `mIvecConf`. -/
def Fails (dut : Dut) (fault : GrpFault) : Prop := fault = .thrown ∧ ¬dut.Succeeds

/-- No completion waits, and the scheme is programmed. -/
structure Ready (irq : NvmeIrqType) (s : DutState) : Prop where
  count : s.acq.count = 0
  irqActive : s.irqActive = irq

end Dut

/-! ## Values that are saved -/

namespace GrpAdminSetGetFeatCombo

/-- What is saved of a value. -/
def member (g : GrpAdminSetGetFeatCombo) : Feature → BitVec 32
  | .arbitration => g.mArbitration
  | .pwrMgmt => g.mPowerState
  | .tempThreshold => g.mTmpThreshold
  | .errRecovery => g.mTimeLimErrRec
  | .volWrCache => g.mVolWrCache
  | .irqCoalescing => g.mIrqCoalescing
  | .irqVecConfig iv => g.mIvecConf iv.toNat
  | .writeAtomicity => g.mWrAtomicity
  | .asyncEventConfig => g.mAsyncEvent

end GrpAdminSetGetFeatCombo

namespace Dut

open GrpAdminSetGetFeatCombo

variable {dut : Dut} {irq : NvmeIrqType} {s : DutState}

/-- A function that returns true has restored some of the values, and has not undone others. -/
def Restores (dut : Dut) (irq : NvmeIrqType) (g : GrpAdminSetGetFeatCombo) (fs : Feature → Prop)
    (step : DutState → Except GrpFault (DutState × Bool)) : Prop :=
  ∀ s, Ready irq s → Ends dut.Fails (fun r => Ready irq r.1 ∧ (dut.Exact → r.2 = true) ∧ (r.2 = true →
    ∀ f : Feature, fs f ∨ s.features f.cell = g.member f → r.1.features f.cell = g.member f)) (step s)

variable {A B : Feature → Prop} {g : GrpAdminSetGetFeatCombo}

theorem Restores.andThen {step step' : DutState → Except GrpFault (DutState × Bool)} (hstep : Restores dut irq g A step)
    (hstep' : Restores dut irq g B step') : Restores dut irq g (fun f => A f ∨ B f) (Dut.andThen step step') := by
  intro s hs
  refine (hstep s hs).bind fun r h => ?_
  obtain ⟨hr, hexact, hrestored⟩ := h
  split
  · rename_i htrue
    refine (hstep' r.1 hr).mono fun r' h' => ⟨h'.1, h'.2.1, fun htrue' f hf => h'.2.2 htrue' f ?_⟩
    rcases hf with (hA | hB) | hf
    · exact .inr (hrestored htrue f (.inl hA))
    · exact .inl hB
    · exact .inr (hrestored htrue f (.inr hf))
  · rename_i hfalse
    exact ⟨hr, hexact, fun htrue => absurd htrue hfalse⟩

/-! ### One feature -/

/-- The vectors that a scheme has. -/
def Vectors (dut : Dut) (irq : NvmeIrqType) : Feature → Prop
  | .irqVecConfig iv => ∃ n, dut.maxIvec irq = some n ∧ iv.toNat < n
  | _ => False

/-- The features that the device has. -/
def Supports (dut : Dut) : Feature → Prop
  | .volWrCache => dut.hasVwc = true
  | .irqVecConfig iv => ∃ irq, dut.verifyAnySchemeSpecifyNum 1 = some irq ∧ Vectors dut irq (.irqVecConfig iv)
  | _ => True

/-- The pair of functions does its work, whatever happens in between. -/
structure RoundTrip (dut : Dut) (s s' : DutState) : Prop where
  save_inBounds : dut.saveState s ≠ .error .outOfBounds
  restore_inBounds : ∀ r, dut.saveState s = .ok r → dut.restoreState r.2 s' ≠ .error .outOfBounds
  restored : ∀ r r', dut.saveState s = .ok r → dut.restoreState r.2 s' = .ok r' → r'.2 = true →
    ∀ f, dut.Supports f → r'.1.features f.cell = s.features f.cell
  returns : dut.Succeeds → dut.Exact →
    ∃ r r', dut.saveState s = .ok r ∧ dut.restoreState r.2 s' = .ok r' ∧ r'.2 = true

end Dut

end Tnvme
