import Tnvme.Fw.World
import Tnvme.Lib.Fields
import Tnvme.Queues.IOQueue

/-!
# The fields of CC

`CtrlrConfig` reads and writes the register CC field by field. Where CC is plain storage (`PlainCc`), the fields are
independent cells (`fields_run`).
-/

namespace Tnvme

namespace CtrlrConfig

variable (drv : Driver) (log : List Call)

def getSHN : Option Nat := getRegValue drv log 0x0000C000 14

def getAMS : Option Nat := getRegValue drv log 0x00003800 11

def getMPS : Option Nat := getRegValue drv log 0x00000780 7

def getCSS : Option Nat := getRegValue drv log 0x00000070 4

end CtrlrConfig

namespace World

variable (drv : Driver) (w : World) (value : UInt8)

def setIOCQES : World × Bool := w.setRegValue drv value 0x0f 0x00f00000 20

def setIOSQES : World × Bool := w.setRegValue drv value 0x0f 0x000f0000 16

def setSHN : World × Bool := w.setRegValue drv value 0x03 0x0000C000 14

def setAMS : World × Bool := w.setRegValue drv value 0x07 0x00003800 11

def setCSS : World × Bool := w.setRegValue drv value 0x07 0x00000070 4

end World

/-- The fields that can be written. -/
inductive CcField where
  | iocqes
  | iosqes
  | shn
  | ams
  | mps
  | css
  deriving DecidableEq, Repr

namespace CcField

/-- `CCBits` -/
def mask : CcField → UInt32
  | iocqes => 0x00f00000
  | iosqes => 0x000f0000
  | shn => 0x0000C000
  | ams => 0x00003800
  | mps => 0x00000780
  | css => 0x00000070

def get (drv : Driver) (log : List Call) : CcField → Option Nat
  | iocqes => CtrlrConfig.getIOCQES drv log
  | iosqes => CtrlrConfig.getIOSQES drv log
  | shn => CtrlrConfig.getSHN drv log
  | ams => CtrlrConfig.getAMS drv log
  | mps => CtrlrConfig.getMPS drv log
  | css => CtrlrConfig.getCSS drv log

/-- `CCShift` -/
def shift : CcField → Nat
  | iocqes => 20
  | iosqes => 16
  | shn => 14
  | ams => 11
  | mps => 7
  | css => 4

def width : CcField → Nat
  | iocqes | iosqes | mps => 4
  | shn => 2
  | ams | css => 3

/-- The largest value. -/
def valueMask : CcField → UInt8
  | iocqes | iosqes | mps => 0x0f
  | shn => 0x03
  | ams | css => 0x07

def layout : Fields.Layout CcField 32 where
  lo := shift
  width := width
  fits i := by cases i <;> decide
  apart i j h := by cases i <;> cases j <;> first | exact absurd rfl h | decide

end CcField

/-- A call that writes a field; `SetMPS` has no argument. -/
inductive SetCc where
  | setIOCQES (value : UInt8)
  | setIOSQES (value : UInt8)
  | setSHN (value : UInt8)
  | setAMS (value : UInt8)
  | setMPS
  | setCSS (value : UInt8)
  deriving DecidableEq, Repr

namespace SetCc

def field : SetCc → CcField
  | setIOCQES _ => .iocqes
  | setIOSQES _ => .iosqes
  | setSHN _ => .shn
  | setAMS _ => .ams
  | setMPS => .mps
  | setCSS _ => .css

def value : SetCc → UInt8
  | setIOCQES value | setIOSQES value | setSHN value | setAMS value | setCSS value => value
  | setMPS => 0

variable (drv : Driver)

def run (w : World) : SetCc → World × Bool
  | setIOCQES value => w.setIOCQES drv value
  | setIOSQES value => w.setIOSQES drv value
  | setSHN value => w.setSHN drv value
  | setAMS value => w.setAMS drv value
  | setMPS => w.setMPS drv
  | setCSS value => w.setCSS drv value

def step (w : World) (call : SetCc) : World := (call.run drv w).1

/-- The value that a call has written to a field, if it is a call for the field and succeeds. -/
def accepted (f : CcField) (x : World × SetCc) : Option Nat :=
  if x.2.field = f ∧ (x.2.run drv x.1).2 = true then some x.2.value.toNat else none

end SetCc

/-! ## PlainCc storage -/

/-- The value in CC after a call to the driver. -/
def ccCall (cc : UInt32) : Call → UInt32
  | .write .ctlspcCc value _ => value.toUInt32
  | _ => cc

/-- The value in CC after the calls of a log, from the value that it had at first. -/
def ccAfter (cc : UInt32) (log : List Call) : UInt32 := log.foldl ccCall cc

/-- A read of CC gets what has been written to it last, and no write to it fails. -/
structure PlainCc (drv : Driver) (cc : UInt32) : Prop where
  read (log : List Call) : drv.read log .ctlspcCc = some (ccAfter cc log).toNat
  write (log : List Call) (value : Nat) : drv.write log .ctlspcCc value = true

variable {drv : Driver} {cc : UInt32} {w : World}

namespace CcField

theorem toBitVec_mask (f : CcField) : f.mask.toBitVec = Fields.mask 32 f.shift f.width := by
  cases f <;> decide

theorem toBitVec_valueMask (f : CcField) : f.valueMask.toBitVec = Fields.mask 8 0 f.width := by
  cases f <;> decide

/-- A value has the right size if it has no bit outside the mask. -/
theorem and_not_valueMask_iff (f : CcField) (value : UInt8) :
    value &&& ~~~f.valueMask = 0 ↔ value.toNat < 2 ^ f.width := by
  rw [← UInt8.toBitVec_inj, UInt8.toBitVec_and, UInt8.toBitVec_not, toBitVec_valueMask]
  exact Fields.and_not_mask_eq_zero_iff _

theorem get_eq (drv : Driver) (log : List Call) (f : CcField) :
    f.get drv log = (drv.read log .ctlspcCc).map fun regVal => (regVal &&& f.mask.toNat) >>> f.shift := by
  cases f <;> rfl

theorem get_plain (hdrv : PlainCc drv cc) (log : List Call) (f : CcField) :
    f.get drv log = some (layout.read f (ccAfter cc log).toBitVec) := by
  have hwidth : f.width ≤ 32 := by cases f <;> decide
  rw [get_eq, hdrv.read, Option.map_some]
  refine congrArg some ((?_ : _ = _).trans (Fields.toNat_and_mask_ushiftRight hwidth f.shift _))
  rw [BitVec.toNat_ushiftRight, BitVec.toNat_and, ← toBitVec_mask]
  rfl

end CcField

/-- A read and a write leave the value that is written. -/
theorem ccAfter_write (cc regVal : UInt32) (w : World) :
    ccAfter cc ((w.read drv .ctlspcCc).write drv .ctlspcCc regVal.toNat).rsrc.log = regVal := by
  simp [World.read, World.write, World.calling, ccAfter, ccCall]

/-- What `SetRegValue` stores: the value in its field. -/
theorem toBitVec_merge (f : CcField) {value : UInt8} (hvalue : value.toNat < 2 ^ f.width) (regVal : UInt32) :
    (regVal &&& ~~~f.mask ||| value.toUInt32 <<< f.shift.toUInt32).toBitVec =
      CcField.layout.write regVal.toBitVec (f, value.toNat) := by
  have hshift : f.shift.toUInt32.toBitVec % 32 = BitVec.ofNat 32 f.shift := by cases f <;> decide
  have hmod : f.shift % 2 ^ 32 = f.shift := by cases f <;> decide
  have hfits : f.shift + f.width ≤ 32 := CcField.layout.fits f
  have hfit : value.toUInt32.toBitVec.toNat < 2 ^ f.width := hvalue
  rw [UInt32.toBitVec_or, UInt32.toBitVec_and, UInt32.toBitVec_not, UInt32.toBitVec_shiftLeft, f.toBitVec_mask, hshift,
    BitVec.shiftLeft_eq', BitVec.toNat_ofNat, hmod, Fields.and_not_or_shiftLeft hfits hfit]
  exact congrArg (Fields.put f.shift · regVal.toBitVec) (BitVec.ofNat_toNat f.width value.toUInt32.toBitVec).symm

namespace SetCc

/-- Every call is one of `SetRegValue`, but `SetMPS` for pages of another size. -/
theorem run_eq (call : SetCc) : call.run drv w =
    if call = setMPS ∧ drv.pageSize ≠ 4096 then (w, false)
    else w.setRegValue drv call.value call.field.valueMask call.field.mask call.field.shift.toUInt32 := by
  cases call with
  | setMPS =>
    by_cases hpage : drv.pageSize = 4096
    · rw [if_neg fun h => h.2 hpage]
      exact if_pos hpage
    · rw [if_pos ⟨rfl, hpage⟩]
      exact if_neg hpage
  | setIOCQES value => exact (if_neg fun h => SetCc.noConfusion h.1).symm
  | setIOSQES value => exact (if_neg fun h => SetCc.noConfusion h.1).symm
  | setSHN value => exact (if_neg fun h => SetCc.noConfusion h.1).symm
  | setAMS value => exact (if_neg fun h => SetCc.noConfusion h.1).symm
  | setCSS value => exact (if_neg fun h => SetCc.noConfusion h.1).symm

/-- A call leaves CC, or writes its value into its field. -/
theorem run_cases (hdrv : PlainCc drv cc) (w : World) (call : SetCc) :
    ((call.run drv w).2 = false ∧ ccAfter cc (call.step drv w).rsrc.log = ccAfter cc w.rsrc.log) ∨
      ((call.run drv w).2 = true ∧ call.value.toNat < 2 ^ call.field.width ∧
        (ccAfter cc (call.step drv w).rsrc.log).toBitVec =
          CcField.layout.write (ccAfter cc w.rsrc.log).toBitVec (call.field, call.value.toNat)) := by
  unfold step
  rw [run_eq]
  by_cases hpage : call = setMPS ∧ drv.pageSize ≠ 4096
  · rw [if_pos hpage]
    exact .inl ⟨rfl, rfl⟩
  rw [if_neg hpage]
  unfold World.setRegValue
  by_cases hvalue : call.value &&& ~~~call.field.valueMask = 0
  · have hfit := (call.field.and_not_valueMask_iff call.value).1 hvalue
    rw [if_neg (not_not.2 hvalue), hdrv.read]
    refine .inr ⟨hdrv.write _ _, hfit, ?_⟩
    change (ccAfter cc ((w.read drv .ctlspcCc).write drv .ctlspcCc _).rsrc.log).toBitVec = _
    rw [ccAfter_write, Nat.toUInt32_eq, UInt32.ofNat_toNat, toBitVec_merge call.field hfit]
  · rw [if_pos hvalue]
    exact .inl ⟨rfl, rfl⟩

/-- A getter after a call. -/
theorem get_step (hdrv : PlainCc drv cc) (w : World) (call : SetCc) (f : CcField) :
    f.get drv (call.step drv w).rsrc.log = (accepted drv f (w, call)).or (f.get drv w.rsrc.log) := by
  rw [f.get_plain hdrv, f.get_plain hdrv]
  unfold accepted
  obtain ⟨hrc, hcc⟩ | ⟨hrc, hfit, hcc⟩ := run_cases hdrv w call
  · rw [hcc, if_neg fun h => Bool.false_ne_true (hrc.symm.trans h.2), Option.none_or]
  · rw [hcc]
    by_cases hf : call.field = f
    · subst hf
      rw [if_pos ⟨rfl, hrc⟩, Option.some_or, Fields.Layout.read_write]
      exact congrArg some (Nat.mod_eq_of_lt hfit)
    · rw [if_neg fun h => hf h.1, Option.none_or, Fields.Layout.read_write_of_ne hf]

/-- **The getters after a run.** -/
theorem get_run (hdrv : PlainCc drv cc) (f : CcField) (calls : List SetCc) (w : World) :
    f.get drv (Runs.run (step drv) w calls).rsrc.log =
      ((Runs.steps (step drv) w calls).filterMap (accepted drv f)).getLast?.or
        (f.get drv w.rsrc.log) := by
  induction calls generalizing w with
  | nil => rfl
  | cons call calls ih =>
    refine (ih (call.step drv w)).trans ?_
    rw [get_step hdrv, Runs.steps]
    cases haccepted : accepted drv f (w, call) with
    | none => rw [List.filterMap_cons_none haccepted, Option.none_or]
    | some value =>
      rw [List.filterMap_cons_some haccepted, List.getLast?_cons, Option.some_or]
      cases (List.filterMap (accepted drv f) (Runs.steps _ (call.step drv w) calls)).getLast? <;> rfl

/-- A call changes no bit outside the mask of its field. -/
theorem step_and_not_mask (hdrv : PlainCc drv cc) (w : World) (call : SetCc) :
    ccAfter cc (call.step drv w).rsrc.log &&& ~~~call.field.mask = ccAfter cc w.rsrc.log &&& ~~~call.field.mask := by
  obtain ⟨-, hcc⟩ | ⟨-, -, hcc⟩ := run_cases hdrv w call
  · rw [hcc]
  · rw [← UInt32.toBitVec_inj, UInt32.toBitVec_and, UInt32.toBitVec_and, UInt32.toBitVec_not, hcc,
      call.field.toBitVec_mask]
    exact Fields.put_and_not_mask _ _ _

/-- A value that has the right size is accepted, of `SetMPS` if the pages do. -/
theorem accepted_iff (hdrv : PlainCc drv cc) (w : World) (call : SetCc) :
    (call.run drv w).2 = true ↔
      call.value.toNat < 2 ^ call.field.width ∧ (call = setMPS → drv.pageSize = 4096) := by
  rw [run_eq]
  by_cases hpage : call = setMPS ∧ drv.pageSize ≠ 4096
  · rw [if_pos hpage]
    exact iff_of_false Bool.false_ne_true fun h => hpage.2 (h.2 hpage.1)
  · have hsize : call = setMPS → drv.pageSize = 4096 := fun h => not_not.1 fun hne => hpage ⟨h, hne⟩
    rw [if_neg hpage, ← call.field.and_not_valueMask_iff, and_iff_left hsize]
    unfold World.setRegValue
    by_cases hvalue : call.value &&& ~~~call.field.valueMask = 0
    · rw [if_neg (not_not.2 hvalue), hdrv.read]
      exact iff_of_true (hdrv.write _ _) hvalue
    · rw [if_pos hvalue]
      exact iff_of_false Bool.false_ne_true hvalue

/-- **The fields are independent cells.** -/
theorem fields_run (hdrv : PlainCc drv cc) (w : World) (calls : List SetCc) :
    (∀ f : CcField, f.get drv (Runs.run (step drv) w calls).rsrc.log =
      ((Runs.steps (step drv) w calls).filterMap (accepted drv f)).getLast?.or
        (f.get drv w.rsrc.log)) ∧
    ∀ x ∈ Runs.steps (step drv) w calls,
      ((x.2.run drv x.1).2 = true ↔
        x.2.value.toNat < 2 ^ x.2.field.width ∧ (x.2 = setMPS → drv.pageSize = 4096)) ∧
      ((x.2.run drv x.1).2 = false →
        ccAfter cc (x.2.step drv x.1).rsrc.log = ccAfter cc x.1.rsrc.log) ∧
      ccAfter cc (x.2.step drv x.1).rsrc.log &&& ~~~x.2.field.mask =
        ccAfter cc x.1.rsrc.log &&& ~~~x.2.field.mask := by
  refine ⟨fun f => get_run hdrv f calls w,
    fun x _ => ⟨accepted_iff hdrv x.1 x.2, fun hrc => ?_, step_and_not_mask hdrv x.1 x.2⟩⟩
  obtain ⟨-, hcc⟩ | ⟨htrue, -⟩ := run_cases hdrv x.1 x.2
  · exact hcc
  · exact absurd (htrue.symm.trans hrc) Bool.noConfusion

/-- A device that keeps CC. -/
def keepsCc (cc : UInt32) : Driver where
  ioctl _ _ := 0
  mmap _ _ _ := none
  read log _ := some (ccAfter cc log).toNat
  write _ _ _ := true
  dump _ _ := true
  pageSize := 4096
  pageSize_pos := Nat.le_add_left 1 4095

/-- The value 4 is too large for SHN, and the one before stays. -/
theorem fields_run_shn :
    CcField.shn.get (keepsCc 1) (Runs.run (step (keepsCc 1)) World.init [.setSHN 2, .setIOCQES 4, .setSHN 4]).rsrc.log =
      some 2 :=
  ((fields_run ⟨fun _ => rfl, fun _ _ => rfl⟩ World.init [.setSHN 2, .setIOCQES 4, .setSHN 4]).1 .shn).trans (by decide)

end SetCc

end Tnvme
