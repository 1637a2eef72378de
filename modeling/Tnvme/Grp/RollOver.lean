import Mathlib.Logic.Function.Iterate
import Tnvme.Lib.Loops
import Tnvme.Lib.Outcomes
import Tnvme.Queues.Exchange

/-!
# Queues that roll over

Four tests send two commands more than the larger one of two queues has entries, one at a time, and compare the head of
the submission queue that each completion names, and the pointers of the queues in the end.

A controller moves the head of a submission queue by a function of its own (`Dut.next`). It passes exactly if this
function is right at each entry of the queue (`ioqRollChk_iff`, `adminQRollChk_iff`): none that rolls over at the wrong
place gets through, and what the tests see is what they would see for ever.
-/

namespace Tnvme
namespace RollOver

open CQDriver Outcomes

/-- The exceptions of the tests. -/
inductive Fault where
  | io (fault : IOFault)
  /-- "Unable to see completion of cmd" -/
  | unseen
  /-- "The IOCQ should only have 1 CE as a result of a cmd" -/
  | found (numCE : Nat)
  | status
  /-- "Expected CE.SQID = 0x%04X in IOCQ CE but actual CE.SQID  = 0x%04X" -/
  | sqId (expected actual : BitVec 16)
  /-- "Expected CE.SQHD = 0x%04X in IOCQ CE but actual CE.SQHD  = 0x%04X" -/
  | sqHead (expected : Nat) (actual : BitVec 16)
  /-- "Expected IO CQ.head_ptr = 0x%04X but actual IOCQ.head_ptr = 0x%04X" -/
  | headPtr (expected actual : Nat)
  /-- "Expected  IO SQ.tail_ptr = 0x%04X but actual IOSQ.tail_ptr  = 0x%04X" -/
  | tailPtr (expected actual : Nat)
  deriving DecidableEq, Repr

/-- The ring of a completion queue, and the tail of the submission queue. -/
structure Pair (size : Nat) where
  ring : RingBuf CE size
  tailPtr : Nat

/-- What happens in a run: at each command, where the pointers are looked at after it, and in the end. -/
structure RunCourse where
  cmd : Nat → Course
  check : Nat → Stage
  last : Stage

variable {size : Nat}

/-- The queues after they have been created. -/
def Pair.fresh (hsize : 0 < size) : Pair size := ⟨⟨fun _ => successCE, 0, 0, hsize, hsize⟩, 0⟩

def verifyValues (sqId : BitVec 16) (expectedVal : Nat) (ce : CE) : Except Fault Unit := do
  require (ce.SQID = sqId) (.sqId sqId ce.SQID)
  require (ce.SQHD.toNat = expectedVal) (.sqHead expectedVal ce.SQHD)

/-- One command of the tests with I/O queues, with `ReapAndVerifyCE`. -/
def ioCmd (sqId : BitVec 16) (numIOSQ : Nat) (course : RunCourse) (k : Nat) (p : Pair size) :
    Except Fault (Pair size) := do
  let drv := ringDriver size
  let c := course.cmd k
  let ring ← (drv.sendRing c p.ring).mapError .io
  match ← (drv.doReapInquiry (calcTimeout 1) 1 c.polls ring).mapError .io with
  | none => .error .unseen
  | some (ring, numCE) =>
    require (numCE = 1) (.found numCE)
    let (ring, ce) ← (drv.takeCE c.metrics c.reap c.peek numCE ring).mapError .io
    require (ProcessCE.validatePeek ce .success = true) .status
    verifyValues sqId ((k + 1) % numIOSQ) ce
    return ⟨ring, (p.tailPtr + 1) % numIOSQ⟩

/-- The slot in front of the head. -/
def lastIndex (ring : RingBuf CE size) : Nat := if ring.head = 0 then size - 1 else ring.head - 1

/-- One command of the tests with the admin queues, with `VerifyCESQValues`. -/
def adminCmd (asqSize : Nat) (course : RunCourse) (k : Nat) (p : Pair size) : Except Fault (Pair size) := do
  let drv := ringDriver size
  let (ring, _) ← (drv.sendAndTake (course.cmd k) (calcTimeout 1) [.success] p.ring).mapError .io
  let ring ← (drv.enter (course.check k) ring).mapError .io
  let ce ← (drv.peekCE (lastIndex ring) ring).mapError .io
  verifyValues 0 ((k + 1) % asqSize) ce
  return ⟨ring, (p.tailPtr + 1) % asqSize⟩

/-! ### The pointers in the end -/

/-- `IOQRollChkSame_r10b::VerifyQPointers`: where a pointer is zero, this is what is expected. -/
def ioSamePointers (p : Pair size) : Except Fault Unit := do
  let expectedVal := if p.tailPtr = 0 then 0 else 2
  require (p.tailPtr = expectedVal) (.tailPtr expectedVal p.tailPtr)
  let expectedVal := if p.ring.head = 0 then 0 else 2
  require (p.ring.head = expectedVal) (.headPtr expectedVal p.ring.head)

/-- `IOQRollChkDiff_r10b::VerifyQPointers` -/
def ioDiffPointers (numIOSQ : Nat) (p : Pair size) : Except Fault Unit := do
  let expectedVal := (2 + max size numIOSQ) % size
  require (p.ring.head = expectedVal) (.headPtr expectedVal p.ring.head)
  let expectedVal := (2 + max size numIOSQ) % numIOSQ
  require (p.tailPtr = expectedVal) (.tailPtr expectedVal p.tailPtr)

/-- `AdminQRollChkSame_r10b::VerifyQPointers` -/
def adminSamePointers (p : Pair size) : Except Fault Unit := do
  let ce ← ((ringDriver size).peekCE (lastIndex p.ring) p.ring).mapError .io
  let expectedVal := if p.ring.head = 0 then 0 else 2
  require (p.tailPtr = expectedVal) (.tailPtr expectedVal p.tailPtr)
  require (p.ring.head = expectedVal) (.headPtr expectedVal p.ring.head)
  require (ce.SQHD.toNat = expectedVal) (.sqHead expectedVal ce.SQHD)

/-- `AdminQRollChkDiff_r10b::VerifyQPointers` -/
def adminDiffPointers (asqSize : Nat) (p : Pair size) : Except Fault Unit := do
  let ce ← ((ringDriver size).peekCE (lastIndex p.ring) p.ring).mapError .io
  let expectedVal := (2 + max size asqSize) % size
  require (p.ring.head = expectedVal) (.headPtr expectedVal p.ring.head)
  let expectedVal := (2 + max size asqSize) % asqSize
  require (p.tailPtr = expectedVal) (.tailPtr expectedVal p.tailPtr)
  require (ce.SQHD.toNat = expectedVal) (.sqHead expectedVal ce.SQHD)

/-! ### The tests -/

/-- All commands, and the pointers after them. -/
def rollChk (cmd : RunCourse → Nat → Pair size → Except Fault (Pair size))
    (verifyQPointers : Pair size → Except Fault Unit) (numCmds : Nat) (hsize : 0 < size) (course : RunCourse) :
    Except Fault Unit := do
  let p ← Loops.count (cmd course) numCmds 0 (.fresh hsize)
  let ring ← ((ringDriver size).enter course.last p.ring).mapError .io
  verifyQPointers ⟨ring, p.tailPtr⟩

def ioqRollChkSame (numEntriesIOQ : Nat) (hsize : 0 < numEntriesIOQ) : RunCourse → Except Fault Unit :=
  rollChk (ioCmd 1 numEntriesIOQ) ioSamePointers (numEntriesIOQ + 2) hsize

def ioqRollChkDiff (numEntriesIOSQ numEntriesIOCQ : Nat) (hsize : 0 < numEntriesIOCQ) : RunCourse → Except Fault Unit :=
  rollChk (ioCmd 1 numEntriesIOSQ) (ioDiffPointers numEntriesIOSQ) (max numEntriesIOSQ numEntriesIOCQ + 2) hsize

def adminQRollChkSame (adminQSize : Nat) (hsize : 0 < adminQSize) : RunCourse → Except Fault Unit :=
  rollChk (adminCmd adminQSize) adminSamePointers (adminQSize + 2) hsize

def adminQRollChkDiff (mASQSize mACQSize : Nat) (hsize : 0 < mACQSize) : RunCourse → Except Fault Unit :=
  rollChk (adminCmd mASQSize) (adminDiffPointers mASQSize) (max mASQSize mACQSize + 2) hsize

/-- `RunCoreTest` of the four tests, with the courses of their two rounds. -/
def IOQRollChkSame.runCoreTest (mqes : BitVec 16) (first second : RunCourse) : Except Fault Unit := do
  ioqRollChkSame 2 Nat.two_pos first
  ioqRollChkSame (mqes.toNat + 1) (Nat.succ_pos _) second

def IOQRollChkDiff.runCoreTest (mqes : BitVec 16) (first second : RunCourse) : Except Fault Unit := do
  ioqRollChkDiff (mqes.toNat + 1) 2 Nat.two_pos first
  ioqRollChkDiff 2 (mqes.toNat + 1) (Nat.succ_pos _) second

theorem adminQSize_pos : 0 < 4096 := Nat.succ_pos 4095

def AdminQRollChkSame.runCoreTest (first second : RunCourse) : Except Fault Unit := do
  adminQRollChkSame 2 Nat.two_pos first
  adminQRollChkSame 4096 adminQSize_pos second

def AdminQRollChkDiff.runCoreTest (first second : RunCourse) : Except Fault Unit := do
  adminQRollChkDiff 4096 2 Nat.two_pos first
  adminQRollChkDiff 2 4096 adminQSize_pos second

/-! ## The controller -/

/-- The head of a submission queue of so many entries after a command, from what it has been before. -/
structure Dut where
  next : Nat → BitVec 16 → BitVec 16

namespace Dut

variable (dut : Dut)

/-- The head after so many commands. -/
def head (numSQ k : Nat) : BitVec 16 := (dut.next numSQ)^[k] 0

/-- The head moves as it should from each entry. -/
def RollsOver (numSQ : Nat) : Prop := ∀ i < numSQ, (dut.next numSQ (BitVec.ofNat 16 i)).toNat = (i + 1) % numSQ

/-- All commands succeed, and their completions name the head. -/
structure Serves (sqId : BitVec 16) (numSQ : Nat) (course : RunCourse) : Prop where
  answer : ∀ k, ∃ ce, (course.cmd k).Answers ce ∧ ProcessCE.validatePeek ce .success = true ∧ ce.SQID = sqId ∧
    ce.SQHD = dut.head numSQ (k + 1)
  check : ∀ k, course.check k = noPosts
  last : course.last = noPosts

variable {dut} {numSQ : Nat}

/-- Once around shows all that there is to see. -/
theorem rollsOver_iff (hpos : 0 < numSQ) (hle : numSQ ≤ 2 ^ 16) {numCmds : Nat} (hnum : numSQ ≤ numCmds) :
    (∀ k < numCmds, (dut.head numSQ (k + 1)).toNat = (k + 1) % numSQ) ↔ dut.RollsOver numSQ := by
  have hsucc (k : Nat) : dut.head numSQ (k + 1) = dut.next numSQ (dut.head numSQ k) :=
    Function.iterate_succ_apply' _ _ _
  constructor
  · intro h i hi
    have hhead : dut.head numSQ i = BitVec.ofNat 16 i := by
      apply BitVec.eq_of_toNat_eq
      rw [BitVec.toNat_ofNat, Nat.mod_eq_of_lt (by omega)]
      cases i with
      | zero => rfl
      | succ i => rw [h i (by omega), Nat.mod_eq_of_lt hi]
    rw [← hhead, ← hsucc]
    exact h i (by omega)
  · intro h k _
    induction k with
    | zero =>
      rw [hsucc]
      exact h 0 hpos
    | succ k ih =>
      have hlt : (k + 1) % numSQ < numSQ := Nat.mod_lt _ hpos
      have hhead : dut.head numSQ (k + 1) = BitVec.ofNat 16 ((k + 1) % numSQ) := by
        apply BitVec.eq_of_toNat_eq
        rw [ih (by omega), BitVec.toNat_ofNat]
        exact (Nat.mod_eq_of_lt (by omega)).symm
      rw [hsucc, hhead, h _ hlt, Nat.mod_add_mod]

end Dut

/-! ## A run -/

section Run

variable {dut : Dut} {sqId : BitVec 16} {numSQ : Nat} {course : RunCourse} {p : Pair size}

/-- After so many commands. -/
structure At (numSQ k : Nat) (p : Pair size) : Prop where
  count : p.ring.count = 0
  head : p.ring.head = k % size
  tail : p.tailPtr = k % numSQ
  last : 0 < k → (p.ring.slot (lastIndex p.ring)).SQHD.toNat = k % numSQ

theorem at_fresh (hsize : 0 < size) : At numSQ 0 (Pair.fresh hsize) :=
  ⟨rfl, (Nat.zero_mod _).symm, (Nat.zero_mod _).symm, fun h => absurd h (Nat.lt_irrefl 0)⟩

/-- What has been reaped is in front of the head. -/
theorem lastIndex_emptied {ring ring' : RingBuf CE size} {ce : CE} (h : Emptied ring ring' ce) :
    lastIndex ring' = ring.head := by
  have hlt := ring.head_lt
  rw [lastIndex, h.head]
  by_cases hlast : ring.head + 1 = size
  · rw [hlast, Nat.mod_self, if_pos rfl]
    omega
  · rw [Nat.mod_eq_of_lt (by omega), if_neg (Nat.succ_ne_zero _)]
    rfl

theorem verifyValues_iff {expectedVal : Nat} {ce : CE} :
    verifyValues sqId expectedVal ce = .ok () ↔ ce.SQID = sqId ∧ ce.SQHD.toNat = expectedVal := by
  rw [verifyValues, require_bind, require_ok]

/-- A command comes down to the values of its completion. -/
structure ComesDown (dut : Dut) (sqId : BitVec 16) (numSQ k : Nat) (p : Pair size) (x : Except Fault (Pair size))
    (ring' : RingBuf CE size) (ce : CE) : Prop where
  emptied : Emptied p.ring ring' ce
  own : ce.SQID = sqId
  head : ce.SQHD = dut.head numSQ (k + 1)
  eq : x = (verifyValues sqId ((k + 1) % numSQ) ce).map fun _ => ⟨ring', (p.tailPtr + 1) % numSQ⟩

theorem exact_of_comesDown {cmd : Nat → Pair size → Except Fault (Pair size)}
    (h : ∀ k p, At numSQ k p → ∃ ring' ce, ComesDown dut sqId numSQ k p (cmd k p) ring' ce) :
    Loops.Exact cmd (At numSQ) fun k => (dut.head numSQ (k + 1)).toNat = (k + 1) % numSQ where
  ok := by
    intro k p hp hright
    obtain ⟨ring', ce, hcmd⟩ := h k p hp
    have hok := verifyValues_iff.2 ⟨hcmd.own, hcmd.head ▸ hright⟩
    refine ⟨⟨ring', (p.tailPtr + 1) % numSQ⟩, ?_, ⟨hcmd.emptied.count, ?_, ?_, fun _ => ?_⟩⟩
    · rw [hcmd.eq, hok]
      rfl
    · rw [hcmd.emptied.head, hp.head, Nat.mod_add_mod]
    · change (p.tailPtr + 1) % numSQ = _
      rw [hp.tail, Nat.mod_add_mod]
    · rw [lastIndex_emptied hcmd.emptied, hcmd.emptied.slot, hcmd.head]
      exact hright
  holds := by
    intro k p p' hp hok
    obtain ⟨ring', ce, hcmd⟩ := h k p hp
    rw [hcmd.eq] at hok
    cases hvalues : verifyValues sqId ((k + 1) % numSQ) ce with
    | error fault =>
      rw [hvalues] at hok
      cases hok
    | ok u =>
      have hright := (verifyValues_iff.1 hvalues).2
      rwa [hcmd.head] at hright

theorem ioCmd_comesDown (h : dut.Serves sqId numSQ course) (hsize : 2 ≤ size) {k : Nat} (hp : At numSQ k p) :
    ∃ ring' ce, ComesDown dut sqId numSQ k p (ioCmd sqId numSQ course k p) ring' ce := by
  obtain ⟨ce, hanswer, hsuccess, hsqId, hhead⟩ := h.answer k
  obtain ⟨ring', htake, hemptied⟩ := takeCE_answer hanswer hsize hp.count
  refine ⟨ring', ce, hemptied, hsqId, hhead, ?_⟩
  simp only [ioCmd]
  rw [sendRing_answer hanswer]
  change ((ringDriver size).doReapInquiry (calcTimeout 1) 1 (course.cmd k).polls _).mapError _ >>= _ = _
  rw [doReapInquiry, if_neg (by decide), sendWait_found hanswer hsize hp.count]
  change (((ringDriver size).takeCE _ _ _ 1 (p.ring.push ce)).mapError _ >>= _) = _
  rw [htake]
  change (require (ProcessCE.validatePeek ce .success = true) Fault.status >>= _) = _
  rw [require, if_pos hsuccess]
  change (verifyValues sqId ((k + 1) % numSQ) ce >>= _) = _
  cases verifyValues sqId ((k + 1) % numSQ) ce <;> rfl

theorem peekCE_lastIndex (hsize : 0 < size) (ring : RingBuf CE size) :
    (ringDriver size).peekCE (lastIndex ring) ring = .ok (ring.slot (lastIndex ring)) := by
  refine if_pos ?_
  have hlt := ring.head_lt
  change lastIndex ring < size
  rw [lastIndex]
  split <;> omega

theorem adminCmd_comesDown (h : dut.Serves 0 numSQ course) (hsize : 2 ≤ size) {k : Nat} (hp : At numSQ k p) :
    ∃ ring' ce, ComesDown dut 0 numSQ k p (adminCmd numSQ course k p) ring' ce := by
  obtain ⟨ce, hanswer, hsuccess, hsqId, hhead⟩ := h.answer k
  have hms : calcTimeout 1 ≤ 86400000 := by decide
  obtain ⟨ring', hemptied, htake⟩ := sendAndTake_answer hanswer hsize hp.count hms [.success]
  refine ⟨ring', ce, hemptied, hsqId, hhead, ?_⟩
  rw [verifyCE_success hsuccess] at htake
  simp only [adminCmd]
  rw [htake, h.check]
  change (((ringDriver size).peekCE (lastIndex ring') ring').mapError _ >>= _) = _
  rw [peekCE_lastIndex (by omega), lastIndex_emptied hemptied, hemptied.slot]
  change (verifyValues 0 ((k + 1) % numSQ) ce >>= _) = _
  cases verifyValues 0 ((k + 1) % numSQ) ce <;> rfl

theorem rollChk_iff {cmd : RunCourse → Nat → Pair size → Except Fault (Pair size)}
    {verifyQPointers : Pair size → Except Fault Unit} {numCmds : Nat} {C : Nat → Prop} (hsize : 0 < size)
    (hexact : Loops.Exact (cmd course) (At numSQ) C) (hlast : course.last = noPosts)
    (hpointers : ∀ p, At numSQ numCmds p → verifyQPointers p = .ok ()) :
    rollChk cmd verifyQPointers numCmds hsize course = .ok () ↔ ∀ k < numCmds, C k := by
  have hfresh : At numSQ 0 (Pair.fresh hsize) := at_fresh hsize
  have hcount := hexact.count (n := numCmds) hfresh
  simp only [Nat.zero_add] at hcount
  rw [← hcount]
  constructor
  · intro h
    obtain ⟨p, hp, -⟩ := Outcomes.bind_eq_ok.1 h
    exact ⟨p, hp⟩
  · intro hok
    obtain ⟨p, hp, hat⟩ := Loops.count_ok hexact.ok hfresh (by simpa using hcount.1 hok)
    rw [Nat.zero_add] at hat
    rw [rollChk, hp, hlast]
    exact hpointers p hat

/-! ### The pointers -/

theorem succ_succ_mod {n : Nat} (hn : 2 ≤ n) : (n + 2) % n = if (n + 2) % n = 0 then 0 else 2 := by
  rw [Nat.add_mod_left]
  by_cases htwo : n = 2
  · rw [htwo]
    rfl
  · rw [Nat.mod_eq_of_lt (by omega)]
    rfl

theorem ioSamePointers_ok (hsize : 2 ≤ size) (hp : At size (size + 2) p) : ioSamePointers p = .ok () := by
  rw [ioSamePointers, hp.tail, hp.head]
  exact require_bind.2 ⟨succ_succ_mod hsize, require_ok.2 (succ_succ_mod hsize)⟩

theorem ioDiffPointers_ok (hp : At numSQ (max numSQ size + 2) p) : ioDiffPointers numSQ p = .ok () := by
  rw [ioDiffPointers, hp.tail, hp.head, Nat.add_comm 2, max_comm size]
  exact require_bind.2 ⟨rfl, require_ok.2 rfl⟩

theorem adminSamePointers_ok (hsize : 2 ≤ size) (hp : At size (size + 2) p) : adminSamePointers p = .ok () := by
  rw [adminSamePointers, peekCE_lastIndex (by omega), hp.tail, hp.head]
  refine require_bind.2 ⟨succ_succ_mod hsize, require_bind.2 ⟨succ_succ_mod hsize, require_ok.2 ?_⟩⟩
  rw [hp.last (Nat.succ_pos _)]
  exact succ_succ_mod hsize

theorem adminDiffPointers_ok (hsize : 2 ≤ size) (hp : At numSQ (max numSQ size + 2) p) :
    adminDiffPointers numSQ p = .ok () := by
  rw [adminDiffPointers, peekCE_lastIndex (by omega), hp.tail, hp.head, Nat.add_comm 2, max_comm size]
  exact require_bind.2 ⟨rfl, require_bind.2 ⟨rfl, require_ok.2 (hp.last (Nat.succ_pos _))⟩⟩

end Run

/-! ## The four tests -/

section Tests

variable {dut : Dut} {course : RunCourse} {numSQ numCQ : Nat}

theorem ioqRollChkSame_iff (h : dut.Serves 1 numSQ course) (hsize : 2 ≤ numSQ) (hle : numSQ ≤ 2 ^ 16) :
    ioqRollChkSame numSQ (by omega) course = .ok () ↔ dut.RollsOver numSQ := by
  rw [← Dut.rollsOver_iff (by omega) hle (Nat.le_add_right numSQ 2)]
  exact rollChk_iff (by omega) (exact_of_comesDown fun _ _ => ioCmd_comesDown h hsize) h.last fun _ =>
    ioSamePointers_ok hsize

theorem ioqRollChkDiff_iff (h : dut.Serves 1 numSQ course) (hSQ : 2 ≤ numSQ) (hCQ : 2 ≤ numCQ) (hle : numSQ ≤ 2 ^ 16) :
    ioqRollChkDiff numSQ numCQ (by omega) course = .ok () ↔ dut.RollsOver numSQ := by
  have hnum : numSQ ≤ max numSQ numCQ + 2 := by omega
  rw [← Dut.rollsOver_iff (by omega) hle hnum]
  exact rollChk_iff (by omega) (exact_of_comesDown fun _ _ => ioCmd_comesDown h hCQ) h.last fun _ => ioDiffPointers_ok

theorem adminQRollChkSame_iff (h : dut.Serves 0 numSQ course) (hsize : 2 ≤ numSQ) (hle : numSQ ≤ 2 ^ 16) :
    adminQRollChkSame numSQ (by omega) course = .ok () ↔ dut.RollsOver numSQ := by
  rw [← Dut.rollsOver_iff (by omega) hle (Nat.le_add_right numSQ 2)]
  exact rollChk_iff (by omega) (exact_of_comesDown fun _ _ => adminCmd_comesDown h hsize) h.last fun _ =>
    adminSamePointers_ok hsize

theorem adminQRollChkDiff_iff (h : dut.Serves 0 numSQ course) (hSQ : 2 ≤ numSQ) (hCQ : 2 ≤ numCQ)
    (hle : numSQ ≤ 2 ^ 16) : adminQRollChkDiff numSQ numCQ (by omega) course = .ok () ↔ dut.RollsOver numSQ := by
  have hnum : numSQ ≤ max numSQ numCQ + 2 := by omega
  rw [← Dut.rollsOver_iff (by omega) hle hnum]
  exact rollChk_iff (by omega) (exact_of_comesDown fun _ _ => adminCmd_comesDown h hCQ) h.last fun _ =>
    adminDiffPointers_ok hCQ

theorem unit_bind_ok {ε α : Type} {x : Except ε Unit} {y : Except ε α} {a : α} :
    (x >>= fun _ => y) = .ok a ↔ x = .ok () ∧ y = .ok a := by
  rw [Outcomes.bind_eq_ok]
  exact ⟨fun ⟨_, h⟩ => h, fun h => ⟨(), h⟩⟩

/-- **The tests with I/O queues pass exactly if the controller moves the head as it should in a queue of two entries and
in one of all entries; whether the completion queue is of the same size does not matter.** -/
theorem ioqRollChk_iff (dut : Dut) (mqes : BitVec 16) (hmqes : 1 ≤ mqes.toNat) {least most : RunCourse}
    (hleast : dut.Serves 1 2 least) (hmost : dut.Serves 1 (mqes.toNat + 1) most) :
    (IOQRollChkSame.runCoreTest mqes least most = .ok () ↔ dut.RollsOver 2 ∧ dut.RollsOver (mqes.toNat + 1)) ∧
    (IOQRollChkDiff.runCoreTest mqes most least = .ok () ↔ dut.RollsOver 2 ∧ dut.RollsOver (mqes.toNat + 1)) := by
  have hlt := mqes.isLt
  constructor
  · rw [IOQRollChkSame.runCoreTest, unit_bind_ok, ioqRollChkSame_iff hleast (Nat.le_refl 2) (by omega),
      ioqRollChkSame_iff hmost (by omega) (by omega)]
  · rw [IOQRollChkDiff.runCoreTest, unit_bind_ok, ioqRollChkDiff_iff hmost (by omega) (Nat.le_refl 2) (by omega),
      ioqRollChkDiff_iff hleast (Nat.le_refl 2) (by omega) (by omega)]
    exact and_comm

/-- **The same of the tests with the admin queues, of two and of 4096 entries.** -/
theorem adminQRollChk_iff (dut : Dut) {least most : RunCourse} (hleast : dut.Serves 0 2 least)
    (hmost : dut.Serves 0 4096 most) :
    (AdminQRollChkSame.runCoreTest least most = .ok () ↔ dut.RollsOver 2 ∧ dut.RollsOver 4096) ∧
    (AdminQRollChkDiff.runCoreTest most least = .ok () ↔ dut.RollsOver 2 ∧ dut.RollsOver 4096) := by
  constructor
  · rw [AdminQRollChkSame.runCoreTest, unit_bind_ok, adminQRollChkSame_iff hleast (Nat.le_refl 2) (by omega),
      adminQRollChkSame_iff hmost (by omega) (by omega)]
  · rw [AdminQRollChkDiff.runCoreTest, unit_bind_ok, adminQRollChkDiff_iff hmost (by omega) (Nat.le_refl 2) (by omega),
      adminQRollChkDiff_iff hleast (Nat.le_refl 2) (by omega) (by omega)]
    exact and_comm

/-- A controller that rolls over. -/
def Dut.ring : Dut := ⟨fun numSQ head => BitVec.ofNat 16 ((head.toNat + 1) % numSQ)⟩

/-- It answers at the first inquiry. -/
def Dut.serving (dut : Dut) (sqId : BitVec 16) (numSQ : Nat) : RunCourse where
  cmd k := courseOf [{ IOPair.completion sqId 0 with SQHD := dut.head numSQ (k + 1) }]
  check _ := noPosts
  last := noPosts

theorem Dut.rollsOver_ring (hpos : 0 < numSQ) (hle : numSQ ≤ 2 ^ 16) : Dut.ring.RollsOver numSQ := by
  intro i hi
  have hlt : (i + 1) % numSQ < numSQ := Nat.mod_lt _ hpos
  rw [Dut.ring, BitVec.toNat_ofNat, BitVec.toNat_ofNat, Nat.mod_eq_of_lt (a := i) (by omega)]
  exact Nat.mod_eq_of_lt (by omega)

theorem Dut.serves_serving (dut : Dut) (sqId : BitVec 16) (numSQ : Nat) :
    dut.Serves sqId numSQ (dut.serving sqId numSQ) where
  answer k := by
    refine ⟨_, ⟨rfl, rfl, rfl, ?_, List.cons_ne_nil _ _, rfl, rfl, rfl, rfl⟩, ?_, rfl, rfl⟩
    · intro stage hstage
      obtain rfl := List.mem_singleton.1 hstage
      rfl
    · exact IOPair.validatePeek_completion sqId 0
  check _ := rfl
  last := rfl

theorem ioqRollChk_four : IOQRollChkSame.runCoreTest 3 (Dut.ring.serving 1 2) (Dut.ring.serving 1 4) = .ok () :=
  (ioqRollChk_iff Dut.ring 3 (by decide) (Dut.ring.serves_serving 1 2) (Dut.ring.serves_serving 1 4)).1.2
    ⟨Dut.rollsOver_ring (by omega) (by omega), Dut.rollsOver_ring (by omega) (by decide)⟩

theorem adminQRollChk_ring : AdminQRollChkSame.runCoreTest (Dut.ring.serving 0 2) (Dut.ring.serving 0 4096) = .ok () :=
  (adminQRollChk_iff Dut.ring (Dut.ring.serves_serving 0 2) (Dut.ring.serves_serving 0 4096)).1.2
    ⟨Dut.rollsOver_ring (by omega) (by omega), Dut.rollsOver_ring (by omega) (by omega)⟩

end Tests

end RollOver
end Tnvme
