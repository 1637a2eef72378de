import Tnvme.Queues.Init
import Tnvme.Queues.SendAndReap

/-!
# The memory of discontiguous queues

A discontiguous queue takes a buffer that is large enough, and `CQ::Reap` makes one for the entries that are reaped. The
sizes are products of 32 bits, so all of them are right exactly if the size of the queue fits (`memoryCovers_iff`).
-/

namespace Tnvme

/-- How many entries `CQ::Reap` asks the driver for. -/
def reapDesire (numEntries ceDesire : Nat) : Nat :=
  if ceDesire = 0 ∨ ceDesire > numEntries - 1 then numEntries - 1 else ceDesire

/-- What is used of `struct nvme_reap`. -/
structure NvmeReap where
  elements : Nat
  size : Nat
  deriving DecidableEq, Repr

/-- The request of `CQ::Reap`, with a buffer that is made for it. -/
def CQ.reapReq (cq : CQ) (ceDesire : Nat) : NvmeReap :=
  ⟨reapDesire cq.mNumEntries ceDesire, cq.mEntrySize * reapDesire cq.mNumEntries ceDesire % 2 ^ 32⟩

/-- The buffer has room for all entries, and the size of the queue is theirs. -/
structure Queue.Covers (q : Queue) (entrySize numEntries : Nat) : Prop where
  memory : ∃ b, q.mDiscontigBuf = some b ∧ numEntries * entrySize ≤ b.bufSize
  size : q.getQSize = numEntries * entrySize

/-- Whatever number is desired, the buffer has the size of the entries that are asked for. -/
def CQ.ReapCovers (cq : CQ) (entrySize : Nat) : Prop :=
  ∀ ceDesire, (cq.reapReq ceDesire).size = entrySize * (cq.reapReq ceDesire).elements

/-- The same number is asked for in `SendAndReapCmd`. -/
theorem CQDriver.cqReap_eq {σ : Type} (drv : CQDriver σ) (stage : Stage) (ceDesire : Nat) (s : σ) :
    drv.cqReap stage ceDesire s = (do
      let s ← drv.enter stage s
      return drv.reap s (reapDesire drv.numEntries ceDesire)) := rfl

section Accepted

variable {drv : Driver} {qId entrySize numEntries : Nat} {memBuffer : Option MemBuffer} {log : List Call}

/-- What an accepted discontiguous queue has checked. -/
structure Queue.Checked (q : Queue) (entrySize numEntries : Nat) (b : MemBuffer) : Prop where
  entries : q.mNumEntries = numEntries
  entry : q.mEntrySize = entrySize
  buf : q.mDiscontigBuf = some b
  enough : q.getQSize ≤ b.bufSize

theorem CQ.initDiscontig_checked {irqEnabled : Bool} {irqVec : Nat} {cq : CQ}
    (h : (cq.initDiscontig drv qId entrySize numEntries memBuffer irqEnabled irqVec log).threw = false) :
    ∃ b, (cq.initDiscontig drv qId entrySize numEntries memBuffer irqEnabled irqVec log).obj.toQueue.Checked entrySize
      numEntries b := by
  obtain ⟨b, hmem, -, hobj⟩ := CQ.initDiscontig_accepted h
  rw [hobj]
  exact ⟨b, rfl, rfl, rfl, (Queue.checkMem_eq_some.1 hmem).2.2.1⟩

theorem SQ.initDiscontig_checked {cqId : Nat} {sq : SQ}
    (h : (sq.initDiscontig drv qId entrySize numEntries memBuffer cqId log).threw = false) :
    ∃ b, (sq.initDiscontig drv qId entrySize numEntries memBuffer cqId log).obj.toQueue.Checked
      entrySize numEntries b := by
  obtain ⟨b, hmem, -, hobj⟩ := SQ.initDiscontig_accepted h
  rw [hobj]
  exact ⟨b, rfl, rfl, rfl, (Queue.checkMem_eq_some.1 hmem).2.2.1⟩

end Accepted

/-! ## Which sizes are right -/

theorem Queue.Checked.getQSize_eq {q : Queue} {entrySize numEntries : Nat} {b : MemBuffer}
    (h : q.Checked entrySize numEntries b) : q.getQSize = numEntries * entrySize % 2 ^ 32 := by
  rw [Queue.getQSize, h.entries, h.entry, Nat.mul_comm]

/-- A queue that has passed its checks. -/
theorem Queue.Checked.covers_iff {q : Queue} {entrySize numEntries : Nat} {b : MemBuffer}
    (h : q.Checked entrySize numEntries b) : q.Covers entrySize numEntries ↔ numEntries * entrySize < 2 ^ 32 := by
  have hsize := h.getQSize_eq
  constructor
  · intro hcovers
    rw [← hcovers.size, hsize]
    exact Nat.mod_lt _ (by decide)
  · intro hfit
    rw [Nat.mod_eq_of_lt hfit] at hsize
    exact ⟨⟨b, h.buf, hsize ▸ h.enough⟩, hsize⟩

theorem reapDesire_le (numEntries ceDesire : Nat) : reapDesire numEntries ceDesire ≤ numEntries := by
  unfold reapDesire
  split <;> omega

/-- What is reaped is less than the queue. -/
theorem CQ.reapCovers {cq : CQ} {entrySize numEntries : Nat} {b : MemBuffer} (h : cq.Checked entrySize numEntries b)
    (hfit : numEntries * entrySize < 2 ^ 32) : cq.ReapCovers entrySize := by
  intro ceDesire
  have hle : entrySize * reapDesire numEntries ceDesire ≤ entrySize * numEntries :=
    Nat.mul_le_mul_left _ (reapDesire_le _ _)
  rw [Nat.mul_comm] at hfit
  rw [CQ.reapReq, h.entries, h.entry]
  exact Nat.mod_eq_of_lt (Nat.lt_of_le_of_lt hle hfit)

/-- **The sizes of an accepted queue are right exactly if the size of its entries is one of 32 bits.** -/
theorem memoryCovers_iff (drv : Driver) (exponent : BitVec 4) (numEntries : BitVec 32) (qId : Nat)
    (memBuffer : Option MemBuffer) (log : List Call) :
    (∀ (cq : CQ) (irqEnabled : Bool) (irqVec : Nat) (r : InitRet CQ),
      cq.initDiscontig drv qId (1 <<< exponent.toNat) numEntries.toNat memBuffer irqEnabled irqVec log = r →
      r.threw = false →
        (r.obj.Covers (2 ^ exponent.toNat) numEntries.toNat ∧ r.obj.ReapCovers (2 ^ exponent.toNat) ↔
          numEntries.toNat * 2 ^ exponent.toNat < 2 ^ 32)) ∧
    ∀ (sq : SQ) (cqId : Nat) (r : InitRet SQ),
      sq.initDiscontig drv qId (1 <<< exponent.toNat) numEntries.toNat memBuffer cqId log = r → r.threw = false →
        (r.obj.Covers (2 ^ exponent.toNat) numEntries.toNat ↔ numEntries.toNat * 2 ^ exponent.toNat < 2 ^ 32) := by
  have hshift : 1 <<< exponent.toNat = 2 ^ exponent.toNat := by rw [Nat.shiftLeft_eq, Nat.one_mul]
  rw [hshift]
  constructor
  · rintro cq irqEnabled irqVec _ rfl h
    obtain ⟨b, hb⟩ := CQ.initDiscontig_checked h
    exact ⟨fun hcovers => hb.covers_iff.1 hcovers.1, fun hfit => ⟨hb.covers_iff.2 hfit, CQ.reapCovers hb hfit⟩⟩
  · rintro sq cqId _ rfl h
    obtain ⟨b, hb⟩ := SQ.initDiscontig_checked h
    exact hb.covers_iff

/-- A driver that accepts the requests for queues. -/
def acceptingDriver : Driver where
  ioctl := fun _ _ => 0
  mmap := fun _ _ offset => some offset
  read := fun _ _ => some 0
  write := fun _ _ _ => true
  dump := fun _ _ => true
  pageSize := 4096
  pageSize_pos := Nat.succ_pos 4095

/-- Two entries of 16 bytes. -/
theorem memoryCovers_two :
    ((CQ.new.initDiscontig acceptingDriver 1 16 2 (some ⟨0, 32, 4096⟩) true 0 []).obj.Covers 16 2 ∧
    (CQ.new.initDiscontig acceptingDriver 1 16 2 (some ⟨0, 32, 4096⟩) true 0 []).obj.ReapCovers 16) ∧
    (SQ.new.initDiscontig acceptingDriver 1 16 2 (some ⟨0, 32, 4096⟩) 1 []).obj.Covers 16 2 :=
  have h := memoryCovers_iff acceptingDriver 4#4 2#32 1 (some ⟨0, 32, 4096⟩) []
  ⟨(h.1 .new true 0 _ rfl rfl).2 (by decide), (h.2 .new 1 _ rfl rfl).2 (by decide)⟩

/-- 2 ^ 28 entries of 16 bytes in an empty buffer. -/
theorem memory_not_covered :
    ¬∀ (drv : Driver) (exponent : BitVec 4) (numEntries : BitVec 32) (memBuffer : Option MemBuffer),
    (CQ.new.initDiscontig drv 1 (1 <<< exponent.toNat) numEntries.toNat memBuffer true 0 []).threw = false →
    (CQ.new.initDiscontig drv 1 (1 <<< exponent.toNat) numEntries.toNat memBuffer true 0 []).obj.Covers
      (2 ^ exponent.toNat) numEntries.toNat := by
  intro h
  have hcovers := h acceptingDriver 4#4 (2 ^ 28) (some ⟨0, 0, 4096⟩) rfl
  obtain ⟨b, hb⟩ := @CQ.initDiscontig_checked acceptingDriver 1 16 (2 ^ 28) (some ⟨0, 0, 4096⟩) [] true 0 .new rfl
  exact absurd (hb.covers_iff.1 hcovers) (by decide)

end Tnvme
