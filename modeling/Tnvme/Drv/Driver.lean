import Mathlib.Algebra.Ring.Nat
import Mathlib.Data.List.Basic

/-!
# The driver

What dnvme and the operating system answer is an oracle, which sees the whole history of calls (`Driver`). Every call
is kept in a log, with its answer (`Call`).
-/

namespace Tnvme

/-- A pointer. `mapFailed` is the `MAP_FAILED` of `mmap(2)`, which is not `NULL`. -/
inductive Ptr where
  | null
  | mapFailed
  | mem (addr : Nat)
  deriving DecidableEq, Repr, Inhabited

/-- `enum nvme_state` -/
inductive NvmeState where
  | enable
  | disable
  | disableCompletely
  deriving DecidableEq, Repr

inductive AdmnQType where
  | adminSQ
  | adminCQ
  deriving DecidableEq, Repr

/-- `KernelAPI::MmapRegion`, without its fence. -/
inductive MmapRegion where
  | mmrCQ
  | mmrSQ
  | mmrMeta
  deriving DecidableEq, Repr

def MmapRegion.toNat : MmapRegion → Nat
  | mmrCQ => 0
  | mmrSQ => 1
  | mmrMeta => 2

/-- The requests to dnvme. -/
inductive Ioctl where
  | deviceState (state : NvmeState)
  | metabufCreate (allocSize : Nat)
  | metabufAlloc (ID : Nat)
  | metabufDelete (ID : Nat)
  | createAdmnQ (type : AdmnQType) (elements : Nat)
  | prepareCQCreation (cqId elements : Nat) (contig : Bool)
  | prepareSQCreation (sqId cqId elements : Nat) (contig : Bool)
  | send64BCmd (qId : Nat) (maskMptr : Bool) (metaBufId : Nat)
  | getDeviceMetrics
  | dumpMetrics (filename : String)
  | markSyslog (log : String)
  deriving DecidableEq, Repr

/-- The registers that are used through `gRegisters`. -/
inductive Reg where
  | pcispcSts
  | pcispcPxds
  | pcispcAeruces
  | ctlspcCap
  | ctlspcCc
  | ctlspcCsts
  deriving DecidableEq, Repr

/-- The register dumps of `KernelAPI`, which fail with the file or with a register. -/
inductive RegDump where
  | pciSpace
  | ctrlrSpace
  deriving DecidableEq, Repr

/-- A call with its answer. A mapping is kept with the arguments that `KernelAPI::mmap` is called with. -/
inductive Call where
  | ioctl (req : Ioctl) (rc : Int)
  | mmap (bufLength bufID : Nat) (region : MmapRegion) (buf : Ptr)
  | munmap (buf : Ptr) (bufLength : Nat)
  | read (reg : Reg) (value : Option Nat)
  | write (reg : Reg) (value : Nat) (ok : Bool)
  | dump (what : RegDump) (ok : Bool)
  deriving DecidableEq, Repr

/-- The answers, given the calls so far. `mmap` maps a length at an offset, if it can. -/
structure Driver where
  ioctl : List Call → Ioctl → Int
  mmap : List Call → Nat → Nat → Option Nat
  read : List Call → Reg → Option Nat
  write : List Call → Reg → Nat → Bool
  dump : List Call → RegDump → Bool
  pageSize : Nat
  pageSize_pos : 0 < pageSize

namespace Driver

variable (drv : Driver) (log : List Call)

/-- The log after a request. -/
def ioctlLog (req : Ioctl) : List Call := log ++ [.ioctl req (drv.ioctl log req)]

/-- The log after a register is read. -/
def readLog (reg : Reg) : List Call := log ++ [.read reg (drv.read log reg)]

end Driver

/-! ## A log only gets longer -/

theorem longer_refl (log : List Call) : ∃ t, log = log ++ t := ⟨[], (List.append_nil log).symm⟩

theorem longer_trans {log log' log'' : List Call} (h : ∃ t, log' = log ++ t) (h' : ∃ t, log'' = log' ++ t) :
    ∃ t, log'' = log ++ t := by
  obtain ⟨t, rfl⟩ := h
  obtain ⟨t', rfl⟩ := h'
  exact ⟨t ++ t', List.append_assoc log t t'⟩

end Tnvme
