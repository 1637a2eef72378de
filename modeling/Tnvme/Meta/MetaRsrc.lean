import Tnvme.Drv.KernelAPI
import Tnvme.Lib.SortedKeys

/-!
# `MetaRsrc`

The store of the meta data buffers: the reserved ones, ordered by their IDs, and the released ones, which wait to be
used again. Each operation works on the store and the log of the driver calls.
-/

namespace Tnvme

structure MetaDataBuf where
  buf : Ptr
  size : Nat
  ID : Nat
  deriving DecidableEq, Repr

/-- `MetaDataBuf()` -/
def MetaDataBuf.default : MetaDataBuf := ⟨.null, 0, 0⟩

structure MetaRsrc where
  mMetaAllocSize : Nat
  mMetaReserved : List MetaDataBuf
  mMetaReleased : List MetaDataBuf
  log : List Call
  deriving DecidableEq, Repr

/-- How `ReserveMetaBuf` ends: it returns true or false, or throws. -/
inductive Reserve where
  | reserved
  | denied
  | threw
  deriving DecidableEq, Repr

namespace MetaRsrc

variable (drv : Driver)

def init : MetaRsrc := ⟨0, [], [], []⟩

def setMetaAllocSize (allocSize : Nat) (s : MetaRsrc) : MetaRsrc × Bool :=
  if s.mMetaAllocSize = allocSize then ({ s with mMetaAllocSize := allocSize }, true)
  else if s.mMetaAllocSize ≠ 0 then (s, false)
  else if allocSize % 4 ≠ 0 then (s, false)
  else
    let log := drv.ioctlLog s.log (.metabufCreate allocSize)
    if drv.ioctl s.log (.metabufCreate allocSize) < 0 then ({ s with log }, false)
    else ({ s with log, mMetaAllocSize := allocSize }, true)

/-- The store, what is left in the argument `metaBuf`, and how the call ends. -/
def reserveMetaBuf (metaBuf : MetaDataBuf) (s : MetaRsrc) : MetaRsrc × MetaDataBuf × Reserve :=
  match s.mMetaReleased with
  | rel :: released =>
    let pos := SortedKeys.place MetaDataBuf.ID rel.ID s.mMetaReserved
    ({ s with mMetaReserved := s.mMetaReserved.insertIdx pos rel, mMetaReleased := released }, rel, .reserved)
  | [] =>
    let ID := (SortedKeys.gap MetaDataBuf.ID 0 s.mMetaReserved).1
    let pos := (SortedKeys.gap MetaDataBuf.ID 0 s.mMetaReserved).2
    let metaBuf := { metaBuf with size := s.mMetaAllocSize, ID }
    if ID < 1 <<< metadataUniqueIdBits then
      let log := drv.ioctlLog s.log (.metabufAlloc ID)
      if drv.ioctl s.log (.metabufAlloc ID) < 0 then ({ s with log }, metaBuf, .threw)
      else
        let metaBuf := { metaBuf with buf := KernelAPI.mmap drv log metaBuf.size ID .mmrMeta }
        let log := KernelAPI.mmapLog drv log metaBuf.size ID .mmrMeta
        if metaBuf.buf = .null then ({ s with log := drv.ioctlLog log (.metabufDelete ID) }, metaBuf, .threw)
        else ({ s with log, mMetaReserved := s.mMetaReserved.insertIdx pos metaBuf }, metaBuf, .reserved)
    else (s, metaBuf, .denied)

def releaseMetaBuf (metaBuf : MetaDataBuf) (s : MetaRsrc) : MetaRsrc :=
  if metaBuf = .default then s
  else
    match s.mMetaReserved.find? (·.ID == metaBuf.ID) with
    | none => s
    | some b => { s with
        mMetaReleased := s.mMetaReleased ++ [b]
        mMetaReserved := s.mMetaReserved.eraseP (·.ID == metaBuf.ID) }

/-- The first loop of `freeAllMetaBuf`; it never ends if `releaseMetaBuf` leaves the first buffer where it is. -/
def releaseAll : Nat → MetaRsrc → Option MetaRsrc
  | 0, _ => none
  | fuel + 1, s =>
    match s.mMetaReserved with
    | [] => some s
    | b :: _ => releaseAll fuel (s.releaseMetaBuf b)

/-- The second loop of `freeAllMetaBuf`, over the released buffers from the back. -/
def deleteAll : List MetaDataBuf → MetaRsrc → MetaRsrc
  | [], s => { s with mMetaReleased := [] }
  | tmp :: rest, s =>
    let log := KernelAPI.munmapLog s.log tmp.buf tmp.size
    deleteAll rest { s with mMetaReleased := rest.reverse, log := drv.ioctlLog log (.metabufDelete tmp.ID) }

/-- The store, and whether the check at the end throws. -/
def freeAllMetaBuf (fuel : Nat) (s : MetaRsrc) : Option (MetaRsrc × Bool) :=
  match releaseAll fuel s with
  | none => none
  | some s =>
    let s := { deleteAll drv s.mMetaReleased.reverse s with mMetaAllocSize := 0 }
    some (s, !s.mMetaReserved.isEmpty || !s.mMetaReleased.isEmpty)

end MetaRsrc

end Tnvme
