import Mathlib.Data.List.Perm.Subperm
import Tnvme.Lib.Loops
import Tnvme.Lib.Outcomes
import Tnvme.Queues.Exchange
import Tnvme.Queues.IoqFull
import Tnvme.Queues.QidVariations

/-!
# Deleting all queues at once

`DeleteAllAtOnce_r10b` creates pairs of queues, as many as there may be or as the ASQ has entries. It sends the commands
that delete them before it rings the doorbell, and accepts the completions in any order: each identifier has to be one
of those that have been sent, and none comes twice.

* `verifyCEs_iff`: what is accepted is a permutation of what has been sent.
* `deleteAllAtOnce_iff`: a conforming controller passes, in whatever order it completes the commands, exactly if it has
  less queues than the ASQ has entries. A full ASQ holds one command less than it has entries.
-/

namespace Tnvme
namespace DeleteAllAtOnce

open CQDriver Outcomes

/-- `MAX_ADMIN_Q_SIZE` -/
def maxAdminQSize : Nat := 4096

/-- The exceptions of the test. -/
inductive Fault where
  | io (fault : IOFault)
  /-- "Unable to see CEs for issued cmds #%d" -/
  | unseen (X : Nat)
  /-- "The ACQ should only have #%d CE's as a result of #%d simultaneous cmds but found #%d" -/
  | found (X numCE : Nat)
  /-- "Unable to reap on ACQ. Reaped #%d of #%d" -/
  | reaped (numReaped X : Nat)
  | status
  /-- "Received invalid CID %d" -/
  | cid (actual : BitVec 16)
  deriving DecidableEq, Repr

/-- The admin queues, with the identifier that the driver assigns next. -/
structure AdminQ (size : Nat) where
  pair : IOPair size
  uniqueId : BitVec 16

/-- What happens around the calls for a command that is sent and reaped. -/
structure CmdCourse (size : Nat) where
  inquiry : Stage
  send : Stage
  ring : Stage
  wait : IOQFull.Wait size
  metrics : Stage
  reap : Stage
  peek : List CE

/-- The same for the commands that are sent at once. -/
structure BatchCourse (size : Nat) where
  send : Nat → Stage
  ring : Stage
  wait : IOQFull.Wait size
  reap : Stage

structure RunCourse (size : Nat) where
  createIOCQ : Nat → CmdCourse size
  createIOSQ : Nat → CmdCourse size
  deleteIOSQs : BatchCourse size
  deleteIOCQs : BatchCourse size

section Model

variable {size : Nat}

/-- `SQ::Send` into the ASQ. -/
def send (stage : Stage) (q : AdminQ size) : Except Fault (AdminQ size) := do
  let p ← ((IOPair.driver size).enter stage q.pair).mapError .io
  return ⟨p.send q.uniqueId, q.uniqueId + 1⟩

/-- `SQ::Ring` -/
def ring (stage : Stage) (q : AdminQ size) : Except Fault (AdminQ size) := do
  let p ← ((IOPair.driver size).enter stage q.pair).mapError .io
  return ⟨p.ringDoorbell, q.uniqueId⟩

/-- A command is sent and reaped, and succeeds. -/
def sendAndReapCmd (c : CmdCourse size) (q : AdminQ size) : Except Fault (AdminQ size) := do
  let drv := IOPair.driver size
  let (p, numCE) ← (drv.reapInquiry c.inquiry q.pair).mapError .io
  require (numCE = 0) (.io (.notEmpty numCE))
  let q ← send c.send ⟨p, q.uniqueId⟩
  let q ← ring c.ring q
  match ← (drv.doReapInquiry (calcTimeout 1) 1 (c.wait.polls q.pair) q.pair).mapError .io with
  | none => .error (.io .timedOut)
  | some (p, numCE) =>
    require (numCE = 1) (.io (.wrongCount numCE))
    let (p, ce) ← (drv.takeCE c.metrics c.reap c.peek numCE p).mapError .io
    let _ ← (verifyCE ce [.success]).mapError fun fault => .io (.status fault)
    return ⟨p, q.uniqueId⟩

/-- One turn of the loop that creates the queues. -/
def createPair (course : RunCourse size) (k : Nat) (q : AdminQ size) : Except Fault (AdminQ size) := do
  let q ← sendAndReapCmd (course.createIOCQ k) q
  sendAndReapCmd (course.createIOSQ k) q

/-- The loop over the completions, with the identifiers that have been there. -/
def verifyCEs (expectedCIDR1 expectedCIDR2 : BitVec 16) : List (BitVec 16) → List CE → Except Fault Unit
  | _, [] => .ok ()
  | uniqueCIDs, ce :: ces => do
    require (ProcessCE.validatePeek ce .success = true) .status
    if uniqueCIDs.contains ce.CID ∨ ce.CID < expectedCIDR1 ∨ expectedCIDR2 ≤ ce.CID then .error (.cid ce.CID)
    else verifyCEs expectedCIDR1 expectedCIDR2 (uniqueCIDs ++ [ce.CID]) ces

/-- `DelAllIOSQsAndVerify` and `DelAllIOCQsAndVerify`, which differ in the command that they send. -/
def delAllAndVerify (X : Nat) (c : BatchCourse size) (expectedCIDR1 : BitVec 16) (q : AdminQ size) :
    Except Fault (AdminQ size × BitVec 16) := do
  let drv := IOPair.driver size
  let q ← Loops.count (fun i => send (c.send i)) X 0 q
  let expectedCIDR2 := expectedCIDR1 + BitVec.ofNat 16 X
  let q ← ring c.ring q
  let (p, found) ← (drv.reapInquiryWaitSpecify (calcTimeout X) X (c.wait.polls q.pair) c.wait.log q.pair).mapError .io
  match found with
  | none => .error (.unseen X)
  | some numCE =>
    require (numCE = X) (.found X numCE)
    let (p, ces) ← (drv.reapMem c.reap X p).mapError .io
    require (ces.length = X) (.reaped ces.length X)
    verifyCEs expectedCIDR1 expectedCIDR2 [] ces
    return (⟨p, q.uniqueId⟩, expectedCIDR2)

def delIOSQsAndVerify (X : Nat) (course : RunCourse size) := delAllAndVerify X course.deleteIOSQs

def delIOCQsAndVerify (X : Nat) (course : RunCourse size) := delAllAndVerify X course.deleteIOCQs

/-- The admin queues after they have been created: the driver counts from zero. -/
def created (hsize : 0 < size) : AdminQ size := ⟨.fresh 0 hsize, 0⟩

/-- `RunCoreTest` for X pairs of queues. -/
def runCoreTestOn (X : Nat) (hsize : 0 < size) (course : RunCourse size) : Except Fault (AdminQ size) := do
  let q ← Loops.count (createPair course) X 0 (created hsize)
  let expectedCIDR1 := BitVec.ofNat 16 (2 * X)
  let (q, expectedCIDR1) ← delIOSQsAndVerify X course expectedCIDR1 q
  let (q, _) ← delIOCQsAndVerify X course expectedCIDR1 q
  return q

end Model

/-- `RunCoreTest`: X is the number of entries of the ASQ, or of the pairs of queues if there are less. -/
def runCoreTest (numOfQ : BitVec 32) (course : RunCourse maxAdminQSize) : Except Fault (AdminQ maxAdminQSize) :=
  runCoreTestOn (min maxAdminQSize (maxIOQSupport numOfQ)) (by decide) course

/-! ## The identifiers -/

section Identifiers

variable {r1 r2 : BitVec 16} {uniqueCIDs : List (BitVec 16)} {ces : List CE}

/-- All entries are successes with identifiers from a range, none of which comes twice or has been there. -/
structure Accepted (r1 r2 : BitVec 16) (uniqueCIDs : List (BitVec 16)) (ces : List CE) : Prop where
  success : ∀ ce ∈ ces, ProcessCE.validatePeek ce .success = true
  range : ∀ ce ∈ ces, r1 ≤ ce.CID ∧ ce.CID < r2
  nodup : (ces.map (·.CID)).Nodup
  new : ∀ ce ∈ ces, ce.CID ∉ uniqueCIDs

theorem accepted_cons {ce : CE} : Accepted r1 r2 uniqueCIDs (ce :: ces) ↔
    ProcessCE.validatePeek ce .success = true ∧ (ce.CID ∉ uniqueCIDs ∧ r1 ≤ ce.CID ∧ ce.CID < r2) ∧
      Accepted r1 r2 (uniqueCIDs ++ [ce.CID]) ces := by
  constructor
  · rintro ⟨hsuccess, hrange, hnodup, hnew⟩
    rw [List.forall_mem_cons] at hsuccess hrange hnew
    rw [List.map_cons, List.nodup_cons] at hnodup
    refine ⟨hsuccess.1, ⟨hnew.1, hrange.1⟩, hsuccess.2, hrange.2, hnodup.2, fun ce' hce' hmem => ?_⟩
    rcases List.mem_append.1 hmem with hmem | hmem
    · exact hnew.2 ce' hce' hmem
    · exact hnodup.1 (List.mem_map.2 ⟨ce', hce', List.mem_singleton.1 hmem⟩)
  · rintro ⟨hsuccess, ⟨hseen, hrange⟩, h⟩
    have hnew (ce' : CE) (hce' : ce' ∈ ces) := not_or.1 (mt List.mem_append.2 (h.new ce' hce'))
    refine ⟨List.forall_mem_cons.2 ⟨hsuccess, h.success⟩, List.forall_mem_cons.2 ⟨hrange, h.range⟩, ?_,
      List.forall_mem_cons.2 ⟨hseen, fun ce' hce' => (hnew ce' hce').1⟩⟩
    rw [List.map_cons, List.nodup_cons]
    refine ⟨fun hmem => ?_, h.nodup⟩
    obtain ⟨ce', hce', heq⟩ := List.mem_map.1 hmem
    exact (hnew ce' hce').2 (List.mem_singleton.2 heq)

theorem verifyCEs_ok : verifyCEs r1 r2 uniqueCIDs ces = .ok () ↔ Accepted r1 r2 uniqueCIDs ces := by
  induction ces generalizing uniqueCIDs with
  | nil =>
    refine iff_of_true rfl ⟨?_, ?_, List.nodup_nil, ?_⟩ <;> exact fun ce hce => absurd hce List.not_mem_nil
  | cons ce ces ih =>
    have hgood : ¬(uniqueCIDs.contains ce.CID ∨ ce.CID < r1 ∨ r2 ≤ ce.CID) ↔
        ce.CID ∉ uniqueCIDs ∧ r1 ≤ ce.CID ∧ ce.CID < r2 := by
      rw [not_or, not_or, List.contains_iff_mem, BitVec.not_lt, BitVec.not_le]
    rw [accepted_cons, verifyCEs, require_bind, ← hgood]
    refine and_congr_right fun _ => ?_
    by_cases hbad : uniqueCIDs.contains ce.CID ∨ ce.CID < r1 ∨ r2 ≤ ce.CID
    · rw [if_pos hbad]
      exact iff_of_false (fun h => by cases h) fun h => h.1 hbad
    · rw [if_neg hbad, ih]
      exact (and_iff_right hbad).symm

/-- The identifiers that are assigned to so many commands. -/
def cidsFrom (r1 : BitVec 16) (n : Nat) : List (BitVec 16) := (List.range n).map fun i => r1 + BitVec.ofNat 16 i

theorem mem_cidsFrom {n : Nat} (hfits : r1.toNat + n < 2 ^ 16) {cid : BitVec 16} :
    cid ∈ cidsFrom r1 n ↔ r1 ≤ cid ∧ cid < r1 + BitVec.ofNat 16 n := by
  have hadd (i : Nat) (hi : i ≤ n) : (r1 + BitVec.ofNat 16 i).toNat = r1.toNat + i := by
    rw [BitVec.toNat_add, BitVec.toNat_ofNat]
    omega
  rw [cidsFrom, List.mem_map, BitVec.le_def, BitVec.lt_def, hadd n (Nat.le_refl n)]
  constructor
  · rintro ⟨i, hi, rfl⟩
    rw [List.mem_range] at hi
    rw [hadd i (by omega)]
    omega
  · rintro ⟨hlow, hhigh⟩
    refine ⟨cid.toNat - r1.toNat, List.mem_range.2 (by omega), BitVec.eq_of_toNat_eq ?_⟩
    rw [hadd _ (by omega)]
    omega

theorem nodup_cidsFrom {n : Nat} (hle : n ≤ 2 ^ 16) : (cidsFrom r1 n).Nodup := by
  refine List.Nodup.map_on (fun i hi j hj heq => ?_) List.nodup_range
  rw [List.mem_range] at hi hj
  have heq := congrArg BitVec.toNat ((BitVec.add_right_inj r1).1 heq)
  rw [BitVec.toNat_ofNat, BitVec.toNat_ofNat] at heq
  omega

/-- **As many entries as commands are accepted exactly if they are successes, and their identifiers are a permutation of
those that have been sent.** -/
theorem verifyCEs_iff (hfits : r1.toNat + ces.length < 2 ^ 16) :
    verifyCEs r1 (r1 + BitVec.ofNat 16 ces.length) [] ces = .ok () ↔
      (∀ ce ∈ ces, ProcessCE.validatePeek ce .success = true) ∧
        (ces.map (·.CID)).Perm (cidsFrom r1 ces.length) := by
  rw [verifyCEs_ok]
  constructor
  · intro h
    refine ⟨h.success, (h.nodup.subperm ?_).perm_of_length_le ?_⟩
    · intro cid hcid
      obtain ⟨ce, hce, rfl⟩ := List.mem_map.1 hcid
      exact (mem_cidsFrom hfits).2 (h.range ce hce)
    · rw [cidsFrom, List.length_map, List.length_map, List.length_range]
  · rintro ⟨hsuccess, hperm⟩
    refine ⟨hsuccess, fun ce hce => ?_, hperm.nodup_iff.2 (nodup_cidsFrom (by omega)), fun _ _ => List.not_mem_nil⟩
    exact (mem_cidsFrom hfits).1 (hperm.mem_iff.1 (List.mem_map.2 ⟨ce, hce, rfl⟩))

end Identifiers

/-! ## A conforming controller -/

section Conforming

variable {size : Nat}

/-- No call fails, and the controller posts what it can while the test waits. -/
structure CmdCourse.Conforming (c : CmdCourse size) : Prop where
  inquiry : c.inquiry.fails = false
  send : c.send.fails = false
  ring : c.ring.fails = false
  wait : c.wait.Conforming
  metrics : c.metrics.fails = false
  reap : c.reap.fails = false

/-- A command can be sent as long as there is room for it. -/
structure BatchCourse.Conforming (c : BatchCourse size) : Prop where
  send : ∀ i, i + 1 < size → (c.send i).fails = false
  ring : c.ring.fails = false
  wait : c.wait.Conforming
  reap : c.reap.fails = false

structure RunCourse.Conforming (course : RunCourse size) : Prop where
  createIOCQ : ∀ k, (course.createIOCQ k).Conforming
  createIOSQ : ∀ k, (course.createIOSQ k).Conforming
  deleteIOSQs : course.deleteIOSQs.Conforming
  deleteIOCQs : course.deleteIOCQs.Conforming

variable {p : IOPair size} {q : AdminQ size} {cid : BitVec 16} {stage : Stage} {X : Nat}

/-- Nothing is on its way, and this is the identifier of the next command. -/
structure Idle (cid : BitVec 16) (q : AdminQ size) : Prop where
  sent : q.pair.sent = []
  owed : q.pair.owed = []
  uniqueId : q.uniqueId = cid

theorem keeps_driver (p : IOPair size) (ces : List CE) : p.Keeps ((IOPair.driver size).posts p ces) :=
  IOPair.keeps_posts IOPair.driver_view p ces

theorem send_ok (hcalm : stage.fails = false) : ∃ q', send stage q = .ok q' ∧
    q'.pair.sent = q.pair.sent ++ [q.uniqueId] ∧ q'.pair.owed.Perm q.pair.owed ∧ q'.uniqueId = q.uniqueId + 1 := by
  have hkeeps := keeps_driver q.pair stage.posted
  refine ⟨⟨((IOPair.driver size).posts q.pair stage.posted).send q.uniqueId, q.uniqueId + 1⟩, ?_, ?_, hkeeps.owed, rfl⟩
  · rw [send, enter_calm hcalm]
    rfl
  · exact congrArg (· ++ [q.uniqueId]) hkeeps.sent

theorem ring_ok (hcalm : stage.fails = false) : ∃ q', ring stage q = .ok q' ∧ q'.pair.sent = [] ∧
    q'.pair.owed.Perm (q.pair.owed ++ q.pair.sent) ∧ q'.uniqueId = q.uniqueId := by
  have hkeeps := keeps_driver q.pair stage.posted
  refine ⟨⟨((IOPair.driver size).posts q.pair stage.posted).ringDoorbell, q.uniqueId⟩, ?_, rfl, ?_, rfl⟩
  · rw [ring, enter_calm hcalm]
    rfl
  · have howed : ((IOPair.driver size).posts q.pair stage.posted).ringDoorbell.owed =
        ((IOPair.driver size).posts q.pair stage.posted).owed ++
          ((IOPair.driver size).posts q.pair stage.posted).sent := (List.append_assoc _ _ _).symm
    rw [howed, hkeeps.sent]
    exact hkeeps.owed.append_right _

/-- What is owed is there in the end, if there is room for it. -/
theorem doReapInquiry_found {w : IOQFull.Wait size} (hw : w.Conforming) {ms : Nat} (hms : ms ≤ 86400000)
    (howed : p.owed.length = X) (hpos : 0 < X) (hroom : X < size) :
    ∃ p', (IOPair.driver size).doReapInquiry ms X (w.polls p) p = .ok (some (p', X)) ∧ p.Keeps p' ∧
      p'.ring.count = X := by
  have hcount : (IOPair.driver size).inquiry ((IOPair.driver size).polled (w.polls p) p) = X := by
    have hkeeps : p.Keeps ((IOPair.driver size).polled (w.polls p) p) := keeps_driver p _
    have hsettled := (hw.settled p).count_eq
    rw [hkeeps.owed.length_eq, howed] at hsettled
    change ((IOPair.driver size).polled (w.polls p) p).ring.count = X
    omega
  obtain ⟨ces, hpoll, -, hnum⟩ := poll_found (hw.calm p) (hw.some p) (by rw [hcount]; omega) hcount.ge
  have hkeeps := keeps_driver p ces
  have hmost : (IOPair.driver size).inquiry ((IOPair.driver size).posts p ces) ≤ X := by
    have hlen := ((IOPair.driver size).posts p ces).length_owed
    rw [hkeeps.owed.length_eq, howed] at hlen
    change ((IOPair.driver size).posts p ces).ring.count ≤ X
    omega
  have hX := Nat.le_antisymm hmost hnum
  refine ⟨(IOPair.driver size).posts p ces, ?_, hkeeps, hX⟩
  rw [doReapInquiry, if_neg (Nat.not_lt.2 hms), hpoll, hX]

theorem owed_nil (howed : p.owed = []) {p' : IOPair size} (hkeeps : p.Keeps p') : p'.owed = [] :=
  List.Perm.eq_nil (hkeeps.owed.trans (howed ▸ List.Perm.refl _))

/-- Nothing is found when nothing is owed. -/
theorem reapInquiry_idle (hcalm : stage.fails = false) (howed : p.owed = []) :
    ∃ p', (IOPair.driver size).reapInquiry stage p = .ok (p', 0) ∧ p.Keeps p' ∧ p'.owed = [] := by
  have hkeeps := keeps_driver p stage.posted
  have hnone := owed_nil howed hkeeps
  have hcount : ((IOPair.driver size).posts p stage.posted).ring.count = 0 := by
    have hlen := ((IOPair.driver size).posts p stage.posted).length_owed
    rw [hnone, List.length_nil] at hlen
    omega
  refine ⟨(IOPair.driver size).posts p stage.posted, ?_, hkeeps, hnone⟩
  rw [reapInquiry, enter_calm hcalm]
  exact congrArg (fun n => Except.ok (_, n)) hcount

/-- A command comes and goes. -/
theorem sendAndReapCmd_ok {c : CmdCourse size} (h : c.Conforming) (hsize : 2 ≤ size) (hidle : Idle cid q) :
    ∃ q', sendAndReapCmd c q = .ok q' ∧ Idle (cid + 1) q' := by
  obtain ⟨p₀, hinquiry, hkeeps₀, howed₀⟩ := reapInquiry_idle h.inquiry hidle.owed
  obtain ⟨q₁, hsend, hsent₁, howed₁, hid₁⟩ := send_ok (q := ⟨p₀, q.uniqueId⟩) h.send
  obtain ⟨q₂, hring, hsent₂, howed₂, hid₂⟩ := ring_ok (q := q₁) h.ring
  have hlen : q₂.pair.owed.length = 1 := by
    rw [howed₂.length_eq, List.length_append, howed₁.length_eq, hsent₁, hkeeps₀.sent, hidle.sent]
    change p₀.owed.length + 1 = 1
    rw [howed₀, List.length_nil]
  have hms : calcTimeout 1 ≤ 86400000 := by decide
  obtain ⟨p₃, hfound, hkeeps, hcount⟩ := doReapInquiry_found h.wait hms hlen Nat.one_pos hsize
  obtain ⟨p₄, ce, htake, htaken⟩ := IOPair.takeCE_view IOPair.driver_view c.peek hsize h.metrics h.reap
    (hcount.symm ▸ Nat.one_pos : 0 < p₃.ring.count)
  refine ⟨⟨p₄, q₂.uniqueId⟩, ?_, ?_, ?_, ?_⟩
  · rw [sendAndReapCmd, hinquiry]
    change (send c.send ⟨p₀, q.uniqueId⟩ >>= _) = _
    rw [hsend, ok_bind, hring, ok_bind, hfound]
    change (((IOPair.driver size).takeCE c.metrics c.reap c.peek 1 p₃).mapError _ >>= _) = _
    rw [htake]
    change ((verifyCE ce [.success]).mapError _ >>= _) = _
    rw [verifyCE_success htaken.own.2]
    rfl
  · exact htaken.sent.trans (hkeeps.sent.trans hsent₂)
  · have hlen₄ := htaken.owed.length_eq
    change _ = p₃.owed.length at hlen₄
    rw [hkeeps.owed.length_eq, hlen, List.length_cons] at hlen₄
    exact List.length_eq_zero_iff.1 (Nat.succ.inj hlen₄)
  · change q₂.uniqueId = _
    rw [hid₂, hid₁]
    exact congrArg (· + 1) hidle.uniqueId

/-- All that is owed is reaped. -/
theorem reapMem_all (hcalm : stage.fails = false) (hpos : 0 < X) (hlt : X < size) (howed : p.owed.length = X)
    (hcount : p.ring.count = X) :
    ∃ p' ces, (IOPair.driver size).reapMem stage X p = .ok (p', ces) ∧ ces.length = X ∧
      (∀ ce ∈ ces, ProcessCE.validatePeek ce .success = true) ∧ (ces.map (·.CID)).Perm p.owed ∧ p'.owed = [] ∧
      p'.sent = p.sent := by
  obtain ⟨p₁, hp₁⟩ : ∃ p₁, p₁ = (IOPair.driver size).posts p stage.posted := ⟨_, rfl⟩
  have hkeeps : p.Keeps p₁ := hp₁ ▸ keeps_driver p stage.posted
  have hlen := p₁.length_owed
  rw [hkeeps.owed.length_eq, howed] at hlen
  have hcount₁ : p₁.ring.count = X := by
    have hle : p.ring.count ≤ p₁.ring.count := hp₁ ▸ IOPair.count_posts IOPair.driver_view p stage.posted
    omega
  have hwaiting : p₁.waiting = [] := List.length_eq_zero_iff.1 (by omega)
  have howed₁ : p₁.owed = p₁.ring.toList.map (·.CID) := by
    rw [IOPair.owed, hwaiting, List.append_nil]
  have hdesire : ¬(X = 0 ∨ X > (IOPair.driver size).numEntries - 1) := by
    change ¬(_ ∨ X > size - 1)
    omega
  refine ⟨p₁.reap X, p₁.ring.toList, ?_, ?_, fun ce hce => (p₁.own ce hce).2, ?_, ?_, hkeeps.sent⟩
  · rw [reapMem, if_neg hdesire, enter_calm hcalm, ← hp₁]
    change Except.ok (p₁.reap X, (List.range (min X p₁.ring.count)).map fun i => p₁.ring.slot (p₁.ring.idx i)) = _
    rw [hcount₁, Nat.min_self, RingBuf.toList, hcount₁]
  · rw [RingBuf.length_toList, hcount₁]
  · rw [← howed₁]
    exact hkeeps.owed
  · have hdrop : (p₁.ring.pop X).toList = [] := by
      rw [RingBuf.toList_pop, hcount₁, Nat.min_self, List.drop_eq_nil_iff, RingBuf.length_toList, hcount₁]
    change (p₁.ring.pop X).toList.map (·.CID) ++ p₁.waiting = []
    rw [hdrop, hwaiting]
    rfl

/-- So many commands have been sent, and the controller has not been told. -/
structure Sent (cid : BitVec 16) (k : Nat) (q : AdminQ size) : Prop where
  owed : q.pair.owed = []
  sent : q.pair.sent = cidsFrom cid k
  uniqueId : q.uniqueId = cid + BitVec.ofNat 16 k

theorem sent_send {k : Nat} (hq : Sent cid k q) (hcalm : stage.fails = false) :
    ∃ q', send stage q = .ok q' ∧ Sent cid (k + 1) q' := by
  obtain ⟨q', hsend, hsent, howed, hid⟩ := send_ok (q := q) hcalm
  refine ⟨q', hsend, List.Perm.eq_nil (howed.trans (hq.owed ▸ List.Perm.refl _)), ?_, ?_⟩
  · rw [hsent, hq.sent, hq.uniqueId, cidsFrom, cidsFrom, List.range_succ, List.map_append, List.map_singleton]
  · rw [hid, hq.uniqueId, BitVec.add_assoc, BitVec.ofNat_add]
    rfl

/-- The commands are sent one after the other, as long as there is room. -/
theorem sendAll_ok {c : BatchCourse size} (h : c.Conforming) (hlt : X < size) (hidle : Idle cid q) :
    ∃ q', Loops.count (fun i => send (c.send i)) X 0 q = .ok q' ∧ Sent cid X q' := by
  have hstart : Sent cid 0 q := ⟨hidle.owed, hidle.sent, hidle.uniqueId.trans (BitVec.add_zero cid).symm⟩
  obtain ⟨q', hcount, hq'⟩ := Loops.count_ok (I := Sent cid) (C := fun k => (c.send k).fails = false)
    (fun hq hcalm => sent_send hq hcalm) hstart (n := X) fun i hi => h.send _ (by omega)
  rw [Nat.zero_add] at hq'
  exact ⟨q', hcount, hq'⟩

theorem calcTimeout_le (hX : X ≤ 2 ^ 16) : calcTimeout X ≤ 86400000 := by
  rw [calcTimeout]
  split <;> omega

/-- All commands are completed, in any order. -/
theorem delAllAndVerify_ok {c : BatchCourse size} (h : c.Conforming) (hpos : 0 < X) (hlt : X < size)
    (hfits : cid.toNat + X < 2 ^ 16) (hidle : Idle cid q) :
    ∃ q', delAllAndVerify X c cid q = .ok (q', cid + BitVec.ofNat 16 X) ∧ Idle (cid + BitVec.ofNat 16 X) q' := by
  obtain ⟨q₁, hsend, hq₁⟩ := sendAll_ok h hlt hidle
  obtain ⟨q₂, hring, hsent₂, howed₂, hid₂⟩ := ring_ok (q := q₁) h.ring
  rw [hq₁.owed, hq₁.sent, List.nil_append] at howed₂
  have hlen : q₂.pair.owed.length = X := by
    rw [howed₂.length_eq, cidsFrom, List.length_map, List.length_range]
  obtain ⟨p₃, hfound, hkeeps, hcount⟩ := doReapInquiry_found h.wait (calcTimeout_le (X := X) (by omega)) hlen hpos hlt
  obtain ⟨p₄, ces, hreap, hlength, hsuccess, hperm, howed₄, hsent₄⟩ := reapMem_all h.reap hpos hlt
    (hkeeps.owed.length_eq.trans hlen) hcount
  have hverify : verifyCEs cid (cid + BitVec.ofNat 16 X) [] ces = .ok () := by
    rw [← hlength]
    refine (verifyCEs_iff (by omega)).2 ⟨hsuccess, ?_⟩
    rw [hlength]
    exact hperm.trans (hkeeps.owed.trans howed₂)
  refine ⟨⟨p₄, q₂.uniqueId⟩, ?_, ?_, howed₄, ?_⟩
  · rw [delAllAndVerify, hsend]
    change (ring c.ring q₁ >>= _) = _
    rw [hring, ok_bind, reapInquiryWaitSpecify, hfound]
    change (require (X = X) _ >>= _) = _
    rw [require_pos rfl, ok_bind, hreap]
    change (require (ces.length = X) _ >>= _) = _
    rw [require_pos hlength, ok_bind, hverify]
    rfl
  · exact hsent₄.trans (hkeeps.sent.trans hsent₂)
  · exact hid₂.trans hq₁.uniqueId

/-- A full queue of completions holds one less than it has entries. -/
theorem delAllAndVerify_full (c : BatchCourse size) (r1 : BitVec 16) {res : AdminQ size × BitVec 16} :
    delAllAndVerify size c r1 q ≠ .ok res := by
  intro hok
  obtain ⟨q₁, -, hok⟩ := Outcomes.bind_eq_ok.1 hok
  obtain ⟨q₂, -, hok⟩ := Outcomes.bind_eq_ok.1 hok
  obtain ⟨⟨p, found⟩, hwait, hok⟩ := Outcomes.bind_eq_ok.1 hok
  cases found with
  | none => cases hok
  | some numCE =>
    obtain ⟨hall, -⟩ := require_bind.1 hok
    obtain ⟨res, hpoll, hfound⟩ := Outcomes.bind_eq_ok.1 (mapError_ok.1 hwait)
    cases res with
    | none =>
      obtain ⟨p', -, hfound⟩ := Outcomes.bind_eq_ok.1 hfound
      obtain ⟨ce₁, -, hfound⟩ := Outcomes.bind_eq_ok.1 hfound
      obtain ⟨ce₂, -, hfound⟩ := Outcomes.bind_eq_ok.1 hfound
      obtain ⟨ce₃, -, hfound⟩ := Outcomes.bind_eq_ok.1 hfound
      obtain ⟨ce₄, -, hfound⟩ := Outcomes.bind_eq_ok.1 hfound
      cases hfound
    | some res =>
      obtain ⟨p', n⟩ := res
      have hn : n = numCE := Option.some.inj (Prod.mk.inj (Except.ok.inj hfound)).2
      rw [doReapInquiry] at hpoll
      split at hpoll
      · cases hpoll
      · have hlt := p'.ring.count_lt
        have hcount : n = p'.ring.count := (poll_ok hpoll).1
        omega

theorem createPair_ok {course : RunCourse size} (h : course.Conforming) (hsize : 2 ≤ size) {k : Nat}
    (hq : Idle (BitVec.ofNat 16 (2 * k)) q) :
    ∃ q', createPair course k q = .ok q' ∧ Idle (BitVec.ofNat 16 (2 * (k + 1))) q' := by
  obtain ⟨q₁, hcq, hq₁⟩ := sendAndReapCmd_ok (h.createIOCQ k) hsize hq
  obtain ⟨q₂, hsq, hq₂⟩ := sendAndReapCmd_ok (h.createIOSQ k) hsize hq₁
  refine ⟨q₂, ?_, ?_⟩
  · rw [createPair, hcq]
    exact hsq
  · rw [Nat.mul_succ, BitVec.ofNat_add]
    rwa [BitVec.add_assoc] at hq₂

theorem runCoreTestOn_ok {course : RunCourse size} (h : course.Conforming) (hpos : 0 < X) (hlt : X < size)
    (hfits : 4 * X < 2 ^ 16) : ∃ q', runCoreTestOn X (by omega) course = .ok q' := by
  have hstart : Idle (BitVec.ofNat 16 (2 * 0)) (created (by omega : 0 < size)) := ⟨rfl, rfl, rfl⟩
  obtain ⟨q₁, hcreate, hq₁⟩ := Loops.count_ok (I := fun k => Idle (BitVec.ofNat 16 (2 * k))) (C := fun _ => True)
    (fun hq _ => createPair_ok h (by omega) hq) hstart (n := X) fun _ _ => trivial
  rw [Nat.zero_add] at hq₁
  have htoNat : (BitVec.ofNat 16 (2 * X)).toNat = 2 * X := Nat.mod_eq_of_lt (by omega)
  obtain ⟨q₂, hsqs, hq₂⟩ := delAllAndVerify_ok h.deleteIOSQs hpos hlt (by omega) hq₁
  have htoNat₂ : (BitVec.ofNat 16 (2 * X) + BitVec.ofNat 16 X).toNat = 3 * X := by
    rw [BitVec.toNat_add, htoNat, BitVec.toNat_ofNat]
    omega
  obtain ⟨q₃, hcqs, -⟩ := delAllAndVerify_ok h.deleteIOCQs hpos hlt (by omega) hq₂
  refine ⟨q₃, ?_⟩
  rw [runCoreTestOn, hcreate, ok_bind]
  change (delIOSQsAndVerify X course (BitVec.ofNat 16 (2 * X)) q₁ >>= _) = _
  rw [delIOSQsAndVerify, hsqs, ok_bind]
  change (delIOCQsAndVerify X course _ q₂ >>= _) = _
  rw [delIOCQsAndVerify, hcqs]
  rfl

end Conforming

/-- **A conforming controller passes in whatever order it completes the commands, exactly if it has less queues than the
ASQ has entries.** -/
theorem deleteAllAtOnce_iff (numOfQ : BitVec 32) {course : RunCourse maxAdminQSize} (h : course.Conforming) :
    (∃ q, runCoreTest numOfQ course = .ok q) ↔ maxIOQSupport numOfQ < maxAdminQSize := by
  obtain ⟨hpos, -⟩ := QIDVariations.maxIOQSupport_pos numOfQ
  constructor
  · rintro ⟨q, hok⟩
    by_contra hmany
    rw [runCoreTest, Nat.min_eq_left (Nat.not_lt.1 hmany)] at hok
    obtain ⟨q₁, -, hok⟩ := Outcomes.bind_eq_ok.1 hok
    obtain ⟨res, hsqs, -⟩ := Outcomes.bind_eq_ok.1 hok
    exact delAllAndVerify_full _ _ hsqs
  · intro hfew
    rw [runCoreTest, Nat.min_eq_right (Nat.le_of_lt hfew)]
    refine runCoreTestOn_ok h hpos hfew ?_
    rw [maxAdminQSize] at hfew
    omega

/-- A controller that completes all it can while the test waits. -/
def eagerCourse (size : Nat) : RunCourse size where
  createIOCQ _ := ⟨noPosts, noPosts, noPosts, IOQFull.eagerWait size, noPosts, noPosts, []⟩
  createIOSQ _ := ⟨noPosts, noPosts, noPosts, IOQFull.eagerWait size, noPosts, noPosts, []⟩
  deleteIOSQs := ⟨fun _ => noPosts, noPosts, IOQFull.eagerWait size, noPosts⟩
  deleteIOCQs := ⟨fun _ => noPosts, noPosts, IOQFull.eagerWait size, noPosts⟩

theorem eagerCourse_conforming (size : Nat) : (eagerCourse size).Conforming where
  createIOCQ _ := ⟨rfl, rfl, rfl, IOQFull.eagerWait_conforming size, rfl, rfl⟩
  createIOSQ _ := ⟨rfl, rfl, rfl, IOQFull.eagerWait_conforming size, rfl, rfl⟩
  deleteIOSQs := ⟨fun _ _ => rfl, rfl, IOQFull.eagerWait_conforming size, rfl⟩
  deleteIOCQs := ⟨fun _ _ => rfl, rfl, IOQFull.eagerWait_conforming size, rfl⟩

/-- Three pairs of queues. -/
theorem deleteAllAtOnce_three : ∃ q, runCoreTest 0x00020002 (eagerCourse maxAdminQSize) = .ok q :=
  (deleteAllAtOnce_iff 0x00020002 (eagerCourse_conforming maxAdminQSize)).2 (by decide)

end DeleteAllAtOnce
end Tnvme
