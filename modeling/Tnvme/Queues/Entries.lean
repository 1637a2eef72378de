import Tnvme.Lib.Bytes
import Tnvme.Queues.Ce
import Tnvme.Queues.Queue

/-!
# Entries in the memory of a queue

`PeekCE` and `PeekSE` walk through the memory of a queue with a pointer to entries of the size of a C union. What they
return for an index is what stands that many unions behind the beginning, whatever size the entries of the queue have
(`peek_eq`).
-/

namespace Tnvme

/-- `sizeof(union CE)` -/
def sizeofCE : Nat := 16

/-- The loop of the peeks, over the indices of a queue with a pointer that goes along: what the pointer is when it
stops. -/
def walk (sizeofElem : Nat) (stop : Nat → Nat → Bool) : List Nat → Nat → Option Nat
  | [], _ => none
  | i :: is, dataPtr => if stop i dataPtr then some dataPtr else walk sizeofElem stop is (dataPtr + sizeofElem)

/-- `*dataPtr`, as the bytes of the union, also where they are not in the queue any more (`Queue.Inside`). -/
def entryAt (mem : Nat → BitVec 8) (dataPtr sizeofElem : Nat) : List (BitVec 8) :=
  (List.range sizeofElem).map fun k => mem (dataPtr + k)

namespace Queue

variable (q : Queue) (mem : Nat → BitVec 8)

/-- The loop over the memory of the queue, which begins at 0; `none` is an exception. -/
def ptrWhere (sizeofElem : Nat) (stop : Nat → Nat → Bool) : Option Nat :=
  match q.getIsContig with
  | none => none
  | some _ => walk sizeofElem stop (List.range q.mNumEntries) 0

def peekWhere (sizeofElem : Nat) (stop : Nat → Nat → Bool) : Option (List (BitVec 8)) :=
  (q.ptrWhere sizeofElem stop).map (entryAt mem · sizeofElem)

def peek (sizeofElem : Nat) (indexPtr : BitVec 16) : Option (List (BitVec 8)) :=
  q.peekWhere mem sizeofElem fun i _ => i == indexPtr.toNat

/-- What is read for an index belongs to the memory of the queue. -/
def Inside (sizeofElem : Nat) (indexPtr : BitVec 16) : Prop :=
  ∀ dataPtr, q.ptrWhere sizeofElem (fun i _ => i == indexPtr.toNat) = some dataPtr → dataPtr + sizeofElem ≤ q.getQSize

end Queue

def CQ.peekCE (cq : CQ) (mem : Nat → BitVec 8) : BitVec 16 → Option (List (BitVec 8)) := cq.toQueue.peek mem sizeofCE

/-- A completion out of the bytes of the union. -/
def CE.ofBytes (bytes : List (BitVec 8)) : CE where
  cmdSpec := BitVec.ofNat 32 (Bytes.littleEndian (bytes.take 4))
  reserved := BitVec.ofNat 32 (Bytes.littleEndian ((bytes.drop 4).take 4))
  SQHD := BitVec.ofNat 16 (Bytes.littleEndian ((bytes.drop 8).take 2))
  SQID := BitVec.ofNat 16 (Bytes.littleEndian ((bytes.drop 10).take 2))
  CID := BitVec.ofNat 16 (Bytes.littleEndian ((bytes.drop 12).take 2))
  SF := BitVec.ofNat 16 (Bytes.littleEndian ((bytes.drop 14).take 2))

def CE.toBytes (ce : CE) : List (BitVec 8) :=
  Bytes.toBytes 4 ce.cmdSpec ++ (Bytes.toBytes 4 ce.reserved ++ (Bytes.toBytes 2 ce.SQHD ++ (Bytes.toBytes 2 ce.SQID ++
    (Bytes.toBytes 2 ce.CID ++ Bytes.toBytes 2 ce.SF))))

theorem CE.length_toBytes (ce : CE) : ce.toBytes.length = sizeofCE := by
  simp [toBytes, sizeofCE]

theorem CE.ofBytes_toBytes (ce : CE) : ofBytes ce.toBytes = ce := by
  have hword {w n : Nat} (value : BitVec w) (hw : w = n * 8) :
      BitVec.ofNat w (Bytes.littleEndian (Bytes.toBytes n value)) = value := by
    rw [Bytes.littleEndian_toBytes, ← hw, Nat.mod_eq_of_lt value.isLt, BitVec.ofNat_toNat, BitVec.setWidth_eq]
  change CE.mk (BitVec.ofNat 32 (Bytes.littleEndian (Bytes.toBytes 4 ce.cmdSpec)))
    (BitVec.ofNat 32 (Bytes.littleEndian (Bytes.toBytes 4 ce.reserved)))
    (BitVec.ofNat 16 (Bytes.littleEndian (Bytes.toBytes 2 ce.SQHD)))
    (BitVec.ofNat 16 (Bytes.littleEndian (Bytes.toBytes 2 ce.SQID)))
    (BitVec.ofNat 16 (Bytes.littleEndian (Bytes.toBytes 2 ce.CID)))
    (BitVec.ofNat 16 (Bytes.littleEndian (Bytes.toBytes 2 ce.SF))) = ce
  rw [hword ce.cmdSpec rfl, hword ce.reserved rfl, hword ce.SQHD rfl, hword ce.SQID rfl, hword ce.CID rfl,
    hword ce.SF rfl]

/-- The memory in which these completions stand one behind the other. -/
def cells (ce : Nat → CE) (addr : Nat) : BitVec 8 := (ce (addr / sizeofCE)).toBytes[addr % sizeofCE]?.getD 0

theorem entryAt_cells (ce : Nat → CE) (i : Nat) : entryAt (cells ce) (i * sizeofCE) sizeofCE = (ce i).toBytes := by
  refine List.ext_getElem? fun k => ?_
  by_cases hk : k < sizeofCE
  · have hlen : k < (ce i).toBytes.length := by rwa [CE.length_toBytes]
    have hdiv : (i * sizeofCE + k) / sizeofCE = i := by
      rw [Nat.mul_comm, Nat.mul_add_div (by decide), Nat.div_eq_of_lt hk, Nat.add_zero]
    have hmod : (i * sizeofCE + k) % sizeofCE = k := by
      rw [Nat.mul_comm, Nat.mul_add_mod, Nat.mod_eq_of_lt hk]
    rw [entryAt, List.getElem?_map, List.getElem?_range hk, Option.map_some, cells, hdiv, hmod,
      List.getElem?_eq_getElem hlen, Option.getD_some]
  · have hlen : (ce i).toBytes.length ≤ k := by rw [CE.length_toBytes]; omega
    rw [List.getElem?_eq_none hlen, entryAt, List.getElem?_eq_none]
    rw [List.length_map, List.length_range]
    omega

/-! ## The walk -/

variable {q : Queue} {mem : Nat → BitVec 8} {sizeofElem : Nat} {stop : Nat → Nat → Bool}

/-- The pointer goes along with the index. -/
theorem walk_eq_find (n s : Nat) : walk sizeofElem stop (List.range' s n) (s * sizeofElem) =
    ((List.range' s n).find? fun i => stop i (i * sizeofElem)).map (· * sizeofElem) := by
  induction n generalizing s with
  | zero => rfl
  | succ n ih =>
    have hnext := ih (s + 1)
    rw [Nat.succ_mul] at hnext
    rw [List.range'_succ, walk, List.find?_cons]
    cases stop s (s * sizeofElem) with
    | true => rfl
    | false => exact hnext

theorem ptrWhere_eq (hini : q.getIsContig ≠ none) : q.ptrWhere sizeofElem stop =
    ((List.range q.mNumEntries).find? fun i => stop i (i * sizeofElem)).map (· * sizeofElem) := by
  obtain ⟨contig, hcontig⟩ := Option.ne_none_iff_exists'.1 hini
  have hwalk := @walk_eq_find sizeofElem stop q.mNumEntries 0
  rw [Nat.zero_mul, ← List.range_eq_range'] at hwalk
  rw [Queue.ptrWhere, hcontig]
  exact hwalk

theorem peekWhere_eq (hini : q.getIsContig ≠ none) : q.peekWhere mem sizeofElem stop =
    ((List.range q.mNumEntries).find? fun i => stop i (i * sizeofElem)).map
      fun i => entryAt mem (i * sizeofElem) sizeofElem := by
  rw [Queue.peekWhere, ptrWhere_eq hini, Option.map_map]
  rfl

/-! ## Entries by their index -/

/-- The loop stops at the index, if the queue has it. -/
theorem find_index (n : Nat) (indexPtr : BitVec 16) :
    (List.range n).find? (· == indexPtr.toNat) = if indexPtr.toNat < n then some indexPtr.toNat else none := by
  by_cases h : indexPtr.toNat < n
  · rw [if_pos h]
    refine List.find?_range_eq_some.2 ⟨beq_self_eq_true _, List.mem_range.2 h, fun j hj => ?_⟩
    simpa using Nat.ne_of_lt hj
  · rw [if_neg h]
    refine List.find?_eq_none.2 fun i hi => ?_
    have hlt := List.mem_range.1 hi
    simpa using fun heq : i = indexPtr.toNat => h (heq ▸ hlt)

theorem peek_eq (hini : q.getIsContig ≠ none) (indexPtr : BitVec 16) : q.peek mem sizeofElem indexPtr =
    if indexPtr.toNat < q.mNumEntries then some (entryAt mem (indexPtr.toNat * sizeofElem) sizeofElem) else none := by
  rw [Queue.peek, peekWhere_eq hini, find_index]
  split <;> rfl

end Tnvme
