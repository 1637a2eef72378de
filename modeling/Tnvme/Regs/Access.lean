import Tnvme.Regs.Discover
import Tnvme.Regs.Mmap

/-!
# Access to registers

A register is read or written only if its row of the metrics lists the revision that is tested. There are two tables, of
the PCI space and of the controller. The functions for the controller look for the revision in the table of the PCI
space, in the row with the same number (`gated_iff`).
-/

namespace Tnvme

inductive SpecRev where
  | rev10b
  | rev11
  | rev12
  | rev121
  | rev13
  deriving DecidableEq, Repr

/-- `CtlSpc`, without its fence. -/
inductive CtlSpc where
  | cap | vs | vs11 | vs12 | intms | intmc | cc | res0 | csts | csts11 | res1 | nssr | aqa | asq | acq | res2 | res3
  deriving DecidableEq, Repr

/-- What an access reads of `PciSpcType` and `CtlSpcType`. -/
structure RegMetrics where
  offset : Nat
  size : Nat
  specRev : List SpecRev
  deriving DecidableEq, Repr

namespace CtlSpc

/-- The registers in the order of `CTLSPC_TABLE`. -/
def all : List CtlSpc :=
  [.cap, .vs, .vs11, .vs12, .intms, .intmc, .cc, .res0, .csts, .csts11, .res1, .nssr, .aqa, .asq, .acq, .res2, .res3]

/-- The row of the PCI table that has the number of a register of the controller. -/
def toPciSpc : CtlSpc → PciSpc
  | cap => .id
  | vs => .cmd
  | vs11 => .sts
  | vs12 => .rid
  | intms => .cc
  | intmc => .cls
  | cc => .mlt
  | res0 => .htype
  | csts => .bist
  | csts11 => .bar0
  | res1 => .bar1
  | nssr => .bar2
  | aqa => .bar3
  | asq => .bar4
  | acq => .bar5
  | res2 => .ccptr
  | res3 => .ss

/-- `CTLSPC_TABLE` -/
def metrics : CtlSpc → RegMetrics
  | cap => ⟨0x00, 8, [.rev10b, .rev11, .rev12, .rev121, .rev13]⟩
  | vs => ⟨0x08, 4, [.rev10b]⟩
  | vs11 => ⟨0x08, 4, [.rev11]⟩
  | vs12 => ⟨0x08, 4, [.rev12, .rev121, .rev13]⟩
  | intms => ⟨0x0c, 4, [.rev10b, .rev11, .rev12, .rev121, .rev13]⟩
  | intmc => ⟨0x10, 4, [.rev10b, .rev11, .rev12, .rev121, .rev13]⟩
  | cc => ⟨0x14, 4, [.rev10b, .rev11, .rev12, .rev121, .rev13]⟩
  | res0 => ⟨0x18, 4, [.rev10b, .rev11, .rev12, .rev121, .rev13]⟩
  | csts => ⟨0x1c, 4, [.rev10b]⟩
  | csts11 => ⟨0x1c, 4, [.rev11, .rev12, .rev121, .rev13]⟩
  | res1 => ⟨0x20, 4, [.rev10b]⟩
  | nssr => ⟨0x20, 4, [.rev11, .rev12, .rev121, .rev13]⟩
  | aqa => ⟨0x24, 4, [.rev10b, .rev11, .rev12, .rev121, .rev13]⟩
  | asq => ⟨0x28, 8, [.rev10b, .rev11, .rev12, .rev121, .rev13]⟩
  | acq => ⟨0x30, 8, [.rev10b, .rev11, .rev12, .rev121, .rev13]⟩
  | res2 => ⟨0x38, 3784, [.rev10b, .rev11, .rev12, .rev121, .rev13]⟩
  | res3 => ⟨0xf00, 256, [.rev10b, .rev11, .rev12, .rev121, .rev13]⟩

end CtlSpc

/-- The tables, and the revision that is tested. -/
structure RegTables where
  mPciSpcMetrics : PciSpc → RegMetrics
  mCtlSpcMetrics : CtlSpc → RegMetrics
  mSpecRev : SpecRev

/-- What the driver answers: the value that is read, if it is, and whether a value is written. -/
structure GenericDriver where
  readGeneric : RwGeneric → Option Nat
  writeGeneric : RwGeneric → Nat → Bool

namespace RegTables

variable (t : RegTables) (drv : GenericDriver)

def validSpecRev (specRevs : List SpecRev) : Bool := specRevs.contains t.mSpecRev

def dftAcc (regSpc : NvmeIoSpace) : NvmeAccType := if regSpc = .bar01 then .dwordLen else .byteLen

/-- The requests to the driver, and the value that is returned if there is one. -/
def readReg (regSpc : NvmeIoSpace) (rsize roffset : Nat) : List RwGeneric × Option Nat :=
  let io := ⟨regSpc, roffset, rsize, dftAcc regSpc⟩
  if roffset = ushrtMax then ([], none)
  else if rsize > maxSupportedRegSize then ([], none)
  else ([io], (drv.readGeneric io).map (regmask · rsize))

/-- The `switch` of a write. -/
def sizeAcc (regSpc : NvmeIoSpace) : Nat → NvmeAccType
  | 2 => .wordLen
  | 4 => .dwordLen
  | 8 => .quadLen
  | _ => dftAcc regSpc

/-- The requests to the driver, and whether the value has been written. -/
def writeReg (regSpc : NvmeIoSpace) (rsize roffset value : Nat) : List RwGeneric × Bool :=
  let io := ⟨regSpc, roffset, rsize, sizeAcc regSpc rsize⟩
  if roffset = ushrtMax then ([], false)
  else if rsize > maxSupportedRegSize then ([], false)
  else ([io], drv.writeGeneric io value)

def readPciSpc (reg : PciSpc) : List RwGeneric × Option Nat :=
  if !t.validSpecRev (t.mPciSpcMetrics reg).specRev then ([], none)
  else readReg drv .pciHdr (t.mPciSpcMetrics reg).size (t.mPciSpcMetrics reg).offset

def readCtlSpc (reg : CtlSpc) : List RwGeneric × Option Nat :=
  if !t.validSpecRev (t.mPciSpcMetrics reg.toPciSpc).specRev then ([], none)
  else readReg drv .bar01 (t.mCtlSpcMetrics reg).size (t.mCtlSpcMetrics reg).offset

def writePciSpc (reg : PciSpc) (value : Nat) : List RwGeneric × Bool :=
  let regRevs := (t.mPciSpcMetrics reg).specRev
  if !t.validSpecRev regRevs then ([], false)
  else writeReg drv .pciHdr (t.mPciSpcMetrics reg).size (t.mPciSpcMetrics reg).offset value

def writeCtlSpc (reg : CtlSpc) (value : Nat) : List RwGeneric × Bool :=
  let regRevs := (t.mPciSpcMetrics reg.toPciSpc).specRev
  if !t.validSpecRev regRevs then ([], false)
  else writeReg drv .bar01 (t.mCtlSpcMetrics reg).size (t.mCtlSpcMetrics reg).offset value

/-- A request is for a register that has the revision, in its space, of its size and at its offset. -/
structure Own (regSpc : NvmeIoSpace) (own : RegMetrics) (io : RwGeneric) : Prop where
  specRev : t.mSpecRev ∈ own.specRev
  type : io.type = regSpc
  offset : io.offset = own.offset
  nBytes : io.nBytes = own.size

/-- Every request of an access is one for the register. -/
def Gated (regSpc : NvmeIoSpace) (own : RegMetrics) (ios : List RwGeneric) : Prop := ∀ io ∈ ios, t.Own regSpc own io

/-- The offset of a register has been discovered, and its value fits into the buffer. -/
def Known (own : RegMetrics) : Prop := own.offset ≠ ushrtMax ∧ own.size ≤ maxSupportedRegSize

instance (own : RegMetrics) : Decidable (Known own) := inferInstanceAs (Decidable (_ ∧ _))

variable {t : RegTables} {drv : GenericDriver} {regSpc : NvmeIoSpace} {own : RegMetrics} {io : RwGeneric}

theorem validSpecRev_iff {specRevs : List SpecRev} : t.validSpecRev specRevs = true ↔ t.mSpecRev ∈ specRevs :=
  List.contains_iff_mem

/-- The checks of an offset and of a size let one request through. -/
theorem checked_requests {α : Type} (own : RegMetrics) (io : RwGeneric) (refused answer : α) :
    (if own.offset = ushrtMax then ([], refused)
      else if own.size > maxSupportedRegSize then ([], refused) else ([io], answer)).1 =
      if Known own then [io] else [] := by
  by_cases hoffset : own.offset = ushrtMax
  · rw [if_pos hoffset, if_neg fun hknown => hknown.1 hoffset]
  · rw [if_neg hoffset]
    by_cases hsize : own.size > maxSupportedRegSize
    · rw [if_pos hsize, if_neg fun hknown => Nat.not_lt_of_le hknown.2 hsize]
    · rw [if_neg hsize, if_pos ⟨hoffset, Nat.le_of_not_lt hsize⟩]

theorem readReg_requests (drv : GenericDriver) (regSpc : NvmeIoSpace) (own : RegMetrics) :
    (readReg drv regSpc own.size own.offset).1 =
      if Known own then [⟨regSpc, own.offset, own.size, dftAcc regSpc⟩] else [] :=
  checked_requests own _ _ _

theorem writeReg_requests (drv : GenericDriver) (regSpc : NvmeIoSpace) (own : RegMetrics) (value : Nat) :
    (writeReg drv regSpc own.size own.offset value).1 =
      if Known own then [⟨regSpc, own.offset, own.size, sizeAcc regSpc own.size⟩] else [] :=
  checked_requests own _ _ _

/-- What lets the requests of an access through: the revision, or there are none. -/
theorem gated_requests_iff {accType : NvmeAccType} :
    t.Gated regSpc own (if Known own then [⟨regSpc, own.offset, own.size, accType⟩] else []) ↔
      t.mSpecRev ∈ own.specRev ∨ ¬Known own := by
  by_cases hknown : Known own
  · rw [if_pos hknown, or_iff_left (not_not.2 hknown)]
    refine ⟨fun hgated => (hgated _ (List.mem_singleton.2 rfl)).specRev, fun hrev io hio => ?_⟩
    rw [List.mem_singleton.1 hio]
    exact ⟨hrev, rfl, rfl, rfl⟩
  · rw [if_neg hknown]
    exact iff_of_true (fun io hio => absurd hio List.not_mem_nil) (.inr hknown)

/-- The guard with some list of revisions. -/
theorem gated_guard_iff {specRevs : List SpecRev} {α : Type} {blocked r : List RwGeneric × α} {accType : NvmeAccType}
    (hblocked : blocked.1 = [])
    (hr : r.1 = if Known own then [⟨regSpc, own.offset, own.size, accType⟩] else []) :
    t.Gated regSpc own (if !t.validSpecRev specRevs then blocked else r).1 ↔
      (t.mSpecRev ∈ specRevs → t.mSpecRev ∈ own.specRev ∨ ¬Known own) := by
  by_cases hrev : t.mSpecRev ∈ specRevs
  · rw [validSpecRev_iff.2 hrev, Bool.not_true, if_neg Bool.false_ne_true, hr, gated_requests_iff]
    exact ⟨fun h _ => h, fun h => h hrev⟩
  · rw [Bool.eq_false_iff.2 (mt validSpecRev_iff.1 hrev), Bool.not_false, if_pos rfl, hblocked]
    exact iff_of_true (fun io hio => absurd hio List.not_mem_nil) fun hin => absurd hin hrev

/-- **Registers of the PCI space are gated by their own list, those of the controller if that of the PCI register with
the same number is not wider, or if they are not accessed at all.** -/
theorem gated_iff (t : RegTables) (drv : GenericDriver) :
    (∀ (reg : PciSpc) (value : Nat), t.Gated .pciHdr (t.mPciSpcMetrics reg) (t.readPciSpc drv reg).1 ∧
      t.Gated .pciHdr (t.mPciSpcMetrics reg) (t.writePciSpc drv reg value).1) ∧
    ∀ (reg : CtlSpc) (value : Nat), t.Gated .bar01 (t.mCtlSpcMetrics reg) (t.readCtlSpc drv reg).1 ∧
      t.Gated .bar01 (t.mCtlSpcMetrics reg) (t.writeCtlSpc drv reg value).1 ↔
        (t.mSpecRev ∈ (t.mPciSpcMetrics reg.toPciSpc).specRev →
          t.mSpecRev ∈ (t.mCtlSpcMetrics reg).specRev ∨ ¬Known (t.mCtlSpcMetrics reg)) := by
  refine ⟨fun reg value => ⟨?_, ?_⟩, fun reg value => ?_⟩
  · exact (gated_guard_iff rfl (readReg_requests drv .pciHdr (t.mPciSpcMetrics reg))).2 .inl
  · exact (gated_guard_iff rfl (writeReg_requests drv .pciHdr (t.mPciSpcMetrics reg) value)).2 .inl
  · have hread := @gated_guard_iff t .bar01 _ (t.mPciSpcMetrics reg.toPciSpc).specRev _ ([], none) _ _ rfl
      (readReg_requests drv .bar01 (t.mCtlSpcMetrics reg))
    have hwrite := @gated_guard_iff t .bar01 _ (t.mPciSpcMetrics reg.toPciSpc).specRev _ ([], false) _ _ rfl
      (writeReg_requests drv .bar01 (t.mCtlSpcMetrics reg) value)
    exact ⟨fun h => hread.1 h.1, fun h => ⟨hread.2 h, hwrite.2 h⟩⟩

/-- The tables as they are initialized. -/
def init (rev : SpecRev) : RegTables where
  mPciSpcMetrics reg := ⟨reg.metrics.offset, reg.metrics.size, [.rev10b, .rev11, .rev12, .rev121, .rev13]⟩
  mCtlSpcMetrics := CtlSpc.metrics
  mSpecRev := rev

/-- At revision 1.1 the register for the version 1.0b is read: every row of the PCI table has every revision. -/
theorem revision_not_gated :
    ¬(init .rev11).Gated .bar01 (CtlSpc.metrics .vs)
      ((init .rev11).readCtlSpc ⟨fun _ => none, fun _ _ => false⟩ .vs).1 :=
  fun h => absurd (h ⟨.bar01, 0x08, 4, .dwordLen⟩ (List.mem_singleton.2 rfl)).specRev (by decide)

end RegTables

end Tnvme
