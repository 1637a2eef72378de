import Tnvme.Queues.Init

/-!
# I/O queues

`IOCQ::Init` and `IOSQ::Init` take the size of an entry from the register CC, and hold it against the limits of the
Identify data. `CreateIOCQ::Init` and `CreateIOSQ::Init` form the commands that create the queues in the controller;
what matters of them is where they throw.
-/

namespace Tnvme

/-- `enum nvme_irq_type`; `other` is a value that `DecodeIrqScheme` does not know. -/
inductive NvmeIrqType where
  | msiSingle
  | msiMulti
  | msix
  | none
  | other
  deriving DecidableEq, Repr

/-- What the creation of I/O queues reads besides registers: the fields CQES and SQES of the Identify data, `none` if
they cannot be had, and the scheme of interrupts in the metrics of the device. -/
structure DeviceInfo where
  cqes : Option Nat
  sqes : Option Nat
  irqType : List Call → NvmeIrqType

namespace CtrlrConfig

variable (drv : Driver) (log : List Call)

def getRegValue (regMask bitShift : Nat) : Option Nat :=
  (drv.read log .ctlspcCc).map fun regVal => (regVal &&& regMask) >>> bitShift

def getIOCQES : Option Nat := getRegValue drv log 0x00f00000 20

def getIOSQES : Option Nat := getRegValue drv log 0x000f0000 16

/-- The log after the scheme has been asked for, and the scheme. -/
def getIrqScheme (info : DeviceInfo) : List Call × Option NvmeIrqType :=
  let log' := drv.ioctlLog log .getDeviceMetrics
  if drv.ioctl log .getDeviceMetrics < 0 then (log', none)
  else if info.irqType log' = .other then (log', none)
  else (log', some (info.irqType log'))

end CtrlrConfig

/-- The entries are smaller or larger than the Identify data allow. -/
def badElemSize (value entrySize : Nat) : Bool := entrySize < value &&& 0x0f || entrySize > value >>> 4 &&& 0x0f

variable (drv : Driver) (info : DeviceInfo)

namespace IOCQ

def init (qId numEntries : Nat) (irqEnabled : Bool) (irqVec : Nat) (cq : CQ) (log : List Call) : InitRet CQ :=
  match CtrlrConfig.getIOCQES drv log with
  | none => ⟨cq, drv.readLog log .ctlspcCc, true⟩
  | some entrySize =>
    let log := drv.readLog log .ctlspcCc
    match info.cqes with
    | none => ⟨cq, log, true⟩
    | some value =>
      if badElemSize value entrySize then ⟨cq, log, true⟩
      else
        -- the value of CAP only decides on a warning
        match drv.read log .ctlspcCap with
        | none => ⟨cq, drv.readLog log .ctlspcCap, true⟩
        | some _ => cq.init drv qId (1 <<< entrySize) numEntries irqEnabled irqVec (drv.readLog log .ctlspcCap)

def initDiscontig (qId numEntries : Nat) (memBuffer : Option MemBuffer) (irqEnabled : Bool) (irqVec : Nat) (cq : CQ)
    (log : List Call) : InitRet CQ :=
  match drv.read log .ctlspcCap with
  | none => ⟨cq, drv.readLog log .ctlspcCap, true⟩
  | some _ =>
    let log := drv.readLog log .ctlspcCap
    match CtrlrConfig.getIOCQES drv log with
    | none => ⟨cq, drv.readLog log .ctlspcCc, true⟩
    | some entrySize =>
      let log := drv.readLog log .ctlspcCc
      match info.cqes with
      | none => ⟨cq, log, true⟩
      | some value =>
        if badElemSize value entrySize then ⟨cq, log, true⟩
        else cq.initDiscontig drv qId (1 <<< entrySize) numEntries memBuffer irqEnabled irqVec log

end IOCQ

structure IOSQ extends SQ where
  mPriority : Nat
  deriving DecidableEq, Repr

namespace IOSQ

def new : IOSQ := ⟨.new, 0⟩

/-- The object of a base class is the one of the queue. -/
def lift (iosq : IOSQ) (r : InitRet SQ) : InitRet IOSQ := ⟨{ iosq with toSQ := r.obj }, r.log, r.threw⟩

def init (qId numEntries cqId priority : Nat) (iosq : IOSQ) (log : List Call) : InitRet IOSQ :=
  if priority > 3 then ⟨iosq, log, true⟩
  else
    let iosq := { iosq with mPriority := priority }
    match CtrlrConfig.getIOSQES drv log with
    | none => ⟨iosq, drv.readLog log .ctlspcCc, true⟩
    | some entrySize =>
      let log := drv.readLog log .ctlspcCc
      match info.sqes with
      | none => ⟨iosq, log, true⟩
      | some value =>
        if badElemSize value entrySize then ⟨iosq, log, true⟩
        else
          match drv.read log .ctlspcCap with
          | none => ⟨iosq, drv.readLog log .ctlspcCap, true⟩
          | some _ =>
            iosq.lift (iosq.toSQ.init drv qId (1 <<< entrySize) numEntries cqId (drv.readLog log .ctlspcCap))

def initDiscontig (qId numEntries : Nat) (memBuffer : Option MemBuffer) (cqId priority : Nat) (iosq : IOSQ)
    (log : List Call) : InitRet IOSQ :=
  match drv.read log .ctlspcCap with
  | none => ⟨iosq, drv.readLog log .ctlspcCap, true⟩
  | some _ =>
    let log := drv.readLog log .ctlspcCap
    if priority > 3 then ⟨iosq, log, true⟩
    else
      let iosq := { iosq with mPriority := priority }
      match CtrlrConfig.getIOSQES drv log with
      | none => ⟨iosq, drv.readLog log .ctlspcCc, true⟩
      | some entrySize =>
        let log := drv.readLog log .ctlspcCc
        match info.sqes with
        | none => ⟨iosq, log, true⟩
        | some value =>
          if badElemSize value entrySize then ⟨iosq, log, true⟩
          else iosq.lift (iosq.toSQ.initDiscontig drv qId (1 <<< entrySize) numEntries memBuffer cqId log)

end IOSQ

/-! ## The commands -/

/-- `SetPrpBuffer` takes the memory of the queue: there has to be some. -/
def Queue.prpBuffer (q : Queue) : Bool :=
  match q.getQBuffer with
  | none => false
  | some buf => q.getQSize != 0 && buf != .null

/-- The log after the command has been formed, and whether it has been. -/
def CreateIOCQ.init (iocq : CQ) (log : List Call) : List Call × Bool :=
  if !iocq.prpBuffer then (log, false)
  else if iocq.mIrqEnabled then
    ((CtrlrConfig.getIrqScheme drv log info).1, (CtrlrConfig.getIrqScheme drv log info).2.isSome)
  else (log, true)

def CreateIOSQ.init (iosq : IOSQ) (log : List Call) : List Call × Bool := (log, iosq.prpBuffer)

end Tnvme
