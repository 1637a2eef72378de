import Tnvme.Drv.KernelAPI

/-!
# Contiguous queues

`CQ::Init` and `SQ::Init` for queues whose memory dnvme allocates: the checks, the request that creates the queue, and
the mapping of its memory. An `Init` leaves the queue and the log as they are when it returns or throws.
-/

namespace Tnvme

/-- A buffer in user space, with what a queue asks of it. -/
structure MemBuffer where
  addr : Nat
  bufSize : Nat
  alignment : Nat
  deriving DecidableEq, Repr

structure Queue where
  mQId : Nat
  mEntrySize : Nat
  mNumEntries : Nat
  mContigBuf : Ptr
  mDiscontigBuf : Option MemBuffer
  deriving DecidableEq, Repr

structure CQ extends Queue where
  mIrqEnabled : Bool
  mIrqVec : Nat
  deriving DecidableEq, Repr

structure SQ extends Queue where
  mCqId : Nat
  deriving DecidableEq, Repr

namespace Queue

variable (q : Queue)

/-- A queue as its constructor leaves it. -/
def new : Queue := ⟨0, 0, 0, .null, none⟩

def getIsAdmin : Bool := q.mQId == 0

/-- The product is a `uint32_t`. -/
def getQSize : Nat := q.mEntrySize * q.mNumEntries % 2 ^ 32

/-- `none` is an exception. -/
def getIsContig : Option Bool :=
  if q.mContigBuf = .null ∧ q.mDiscontigBuf = none then none
  else if q.mContigBuf ≠ .null ∧ q.mDiscontigBuf ≠ none then none
  else some (q.mContigBuf != .null)

/-- The memory that `Log`, `Dump` and the peeks of the queue read from. -/
def getQBuffer : Option Ptr :=
  match q.getIsContig with
  | none => none
  | some true => some q.mContigBuf
  | some false => q.mDiscontigBuf.map fun b => .mem b.addr

/-- `none` is an exception, thrown before any assignment. -/
def init (qId entrySize numEntries : Nat) : Option Queue :=
  if q.mDiscontigBuf ≠ none then none
  else if q.mContigBuf ≠ .null then none
  else some { q with mQId := qId, mEntrySize := entrySize, mNumEntries := numEntries }

end Queue

/-- `CtrlrConfig::IsStateEnabled` reads the bit `CSTS_RDY`. -/
def isStateEnabled (drv : Driver) (log : List Call) : Bool :=
  match drv.read log .ctlspcCsts with
  | some value => value &&& 1 != 0
  | none => false

/-- The object after a call, the log, and whether the call threw. -/
structure InitRet (α : Type) where
  obj : α
  log : List Call
  threw : Bool

namespace CQ

variable (drv : Driver)

/-- The request that creates the queue in dnvme, and the log before it; `none` is the exception for an admin queue of
an enabled controller. -/
def createReq (cq : CQ) (log : List Call) : List Call × Option Ioctl :=
  if cq.getIsAdmin then
    if isStateEnabled drv log then (drv.readLog log .ctlspcCsts, none)
    else (drv.readLog log .ctlspcCsts, some (.createAdmnQ .adminCQ cq.mNumEntries))
  else (log, some (.prepareCQCreation cq.mQId cq.mNumEntries true))

/-- The mapping at the end of `init`. -/
def mapQ (cq : CQ) (log : List Call) : InitRet CQ :=
  let cq := { cq with mContigBuf := KernelAPI.mmap drv log cq.getQSize cq.mQId .mmrCQ }
  ⟨cq, KernelAPI.mmapLog drv log cq.getQSize cq.mQId .mmrCQ, cq.mContigBuf == .null⟩

def init (qId entrySize numEntries : Nat) (irqEnabled : Bool) (irqVec : Nat) (cq : CQ) (log : List Call) :
    InitRet CQ :=
  match cq.toQueue.init qId entrySize numEntries with
  | none => ⟨cq, log, true⟩
  | some q =>
    let cq : CQ := { q with mIrqEnabled := irqEnabled, mIrqVec := irqVec }
    if numEntries < 2 then ⟨cq, log, true⟩
    else
      match cq.createReq drv log with
      | (log, none) => ⟨cq, log, true⟩
      | (log, some req) =>
        if drv.ioctl log req < 0 then ⟨cq, drv.ioctlLog log req, true⟩
        else cq.mapQ drv (drv.ioctlLog log req)

end CQ

namespace SQ

variable (drv : Driver)

def createReq (sq : SQ) (log : List Call) : List Call × Option Ioctl :=
  if sq.getIsAdmin then
    if isStateEnabled drv log then (drv.readLog log .ctlspcCsts, none)
    else (drv.readLog log .ctlspcCsts, some (.createAdmnQ .adminSQ sq.mNumEntries))
  else (log, some (.prepareSQCreation sq.mQId sq.mCqId sq.mNumEntries true))

def mapQ (sq : SQ) (log : List Call) : InitRet SQ :=
  let sq := { sq with mContigBuf := KernelAPI.mmap drv log sq.getQSize sq.mQId .mmrSQ }
  ⟨sq, KernelAPI.mmapLog drv log sq.getQSize sq.mQId .mmrSQ, sq.mContigBuf == .null⟩

def init (qId entrySize numEntries cqId : Nat) (sq : SQ) (log : List Call) : InitRet SQ :=
  let sq := { sq with mCqId := cqId }
  match sq.toQueue.init qId entrySize numEntries with
  | none => ⟨sq, log, true⟩
  | some q =>
    let sq : SQ := { q with mCqId := sq.mCqId }
    if numEntries < 2 then ⟨sq, log, true⟩
    else
      -- the value of CAP only decides on a warning
      match drv.read log .ctlspcCap with
      | none => ⟨sq, drv.readLog log .ctlspcCap, true⟩
      | some _ =>
        match sq.createReq drv (drv.readLog log .ctlspcCap) with
        | (log, none) => ⟨sq, log, true⟩
        | (log, some req) =>
          if drv.ioctl log req < 0 then ⟨sq, drv.ioctlLog log req, true⟩
          else sq.mapQ drv (drv.ioctlLog log req)

end SQ

end Tnvme
