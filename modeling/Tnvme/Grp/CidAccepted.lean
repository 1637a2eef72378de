import Tnvme.Lib.Loops
import Tnvme.Lib.Outcomes
import Tnvme.Queues.Exchange

/-!
# All identifiers of commands

`CIDAcceptedASQ_r10b` and `CIDAcceptedIOSQ_r10b` send one command more than there are identifiers into each submission
queue. The identifiers are assigned by the driver; the tests ask that each is the one before it plus one.

* `runCoreTest_covers`: a test that passes has seen a success with each identifier in each of its queues, whatever
  driver and controller there are.
* `cidAcceptedIOSQ_iff`: the identifiers of all queues are compared with the same number. A controller that completes
  all commands passes exactly if the driver starts the queues with the same identifier.
-/

namespace Tnvme
namespace CIDAccepted

open CQDriver Outcomes

/-- The exceptions of the tests. -/
inductive Fault where
  | io (fault : IOFault)
  /-- "The ACQ should not have any CE's waiting before testing" -/
  | notEmpty (numCE : Nat)
  /-- "Unable to see CEs for issued cmd" -/
  | unseen
  /-- "Unable to reap on IOCQ" -/
  | reaped (numReaped : Nat)
  | status
  /-- "Received CID %d but expected %d" -/
  | cid (actual expected : BitVec 16)
  /-- "Rx'd SDID %d but expt'd %d" -/
  | sqId (actual expected : BitVec 16)
  /-- "curCID(%d) != (prevCID + 1)(%d)" -/
  | next (curCID prevCID : BitVec 16)
  deriving DecidableEq, Repr

/-- What happens at each command of a submission queue, and at the first inquiry. -/
structure RunCourse where
  inquiry : Stage
  cmd : Nat → BitVec 16 → Course

def maxCmds : Nat := 65536 + 1

/-- The variables of a run, with the entries that have been verified. -/
structure State (σ : Type) where
  s : σ
  prevCID : BitVec 16
  curCID : BitVec 16
  verified : List CE

section Model

variable {σ : Type} (drv : CQDriver σ) (checkSQID : Bool)

/-- `ReapVerifyCID`; the test of the ASQ does not look at the identifier of the queue. -/
def reapVerifyCID (c : Course) (sqId expCID : BitVec 16) (s : σ) : Except Fault (σ × CE) := do
  match ← (drv.doReapInquiry (calcTimeout 1) 1 c.polls s).mapError .io with
  | none => .error .unseen
  | some (s, numCE) =>
    match ← (drv.reapMem c.reap numCE s).mapError .io with
    | (s, [ce]) =>
      require (ProcessCE.validatePeek ce .success = true) .status
      require (ce.CID = expCID) (.cid ce.CID expCID)
      require (checkSQID = true → ce.SQID = sqId) (.sqId ce.SQID sqId)
      return (s, ce)
    | (_, ces) => .error (.reaped ces.length)

/-- One command of one queue: the next one is sent when it has been verified. -/
def cmdOn (course : RunCourse) (nCmds : Nat) (st : State σ) (sqId : BitVec 16) : Except Fault (State σ) := do
  let s ← (drv.enter (course.cmd nCmds sqId).ring st.s).mapError .io
  let (s, ce) ← reapVerifyCID drv checkSQID (course.cmd nCmds sqId) sqId st.prevCID s
  let s ← (drv.enter (course.cmd (nCmds + 1) sqId).send s).mapError .io
  let curCID := (course.cmd (nCmds + 1) sqId).uniqueId
  require (curCID = st.prevCID + 1) (.next curCID st.prevCID)
  return ⟨s, st.prevCID, curCID, st.verified ++ [ce]⟩

def cmdOnAll (sqIds : List (BitVec 16)) (course : RunCourse) (nCmds : Nat) (st : State σ) :
    Except Fault (State σ) := do
  let st ← sqIds.foldlM (cmdOn drv checkSQID course nCmds) st
  return { st with prevCID := st.curCID }

/-- The first command of a queue is sent. -/
def sendFirst (course : RunCourse) (st : State σ) (sqId : BitVec 16) : Except Fault (State σ) := do
  let s ← (drv.enter (course.cmd 0 sqId).send st.s).mapError .io
  return { st with s := s, curCID := (course.cmd 0 sqId).uniqueId }

def runCoreTest (sqIds : List (BitVec 16)) (course : RunCourse) (s : σ) : Except Fault (State σ) := do
  let st ← sqIds.foldlM (sendFirst drv course) ⟨s, 0, 0, []⟩
  Loops.count (cmdOnAll drv checkSQID sqIds course) maxCmds 0 { st with prevCID := st.curCID }

end Model

/-- The submission queues of the test: two, or as many as there are. -/
def sqIds (numOfIOSQs : Nat) : List (BitVec 16) := (List.range' 1 (min 2 numOfIOSQs)).map (BitVec.ofNat 16)

end CIDAccepted

open CIDAccepted Outcomes

def CIDAcceptedASQ.runCoreTest {σ : Type} (drv : CQDriver σ) (course : RunCourse) (s : σ) :
    Except CIDAccepted.Fault (CIDAccepted.State σ) := do
  let (s, numCE) ← (drv.reapInquiry course.inquiry s).mapError .io
  require (numCE = 0) (.notEmpty numCE)
  CIDAccepted.runCoreTest drv false [0] course s

def CIDAcceptedIOSQ.runCoreTest {σ : Type} (drv : CQDriver σ) (numOfIOSQs : Nat) (course : RunCourse) (s : σ) :
    Except CIDAccepted.Fault (CIDAccepted.State σ) :=
  CIDAccepted.runCoreTest drv true (sqIds numOfIOSQs) course s

namespace CIDAccepted

open CQDriver

/-! ## What has been seen -/

section Covers

variable {σ : Type} {drv : CQDriver σ} {checkSQID : Bool} {course : RunCourse} {st st' : State σ} {sqId : BitVec 16}
  {nCmds : Nat}

/-- The completion of a command has been verified. -/
def Seen (checkSQID : Bool) (verified : List CE) (sqId cid : BitVec 16) : Prop :=
  ∃ ce ∈ verified, ProcessCE.validatePeek ce .success = true ∧ ce.CID = cid ∧ (checkSQID = true → ce.SQID = sqId)

theorem Seen.mono {verified verified' : List CE} {cid : BitVec 16} (h : Seen checkSQID verified sqId cid)
    (hsub : verified ⊆ verified') : Seen checkSQID verified' sqId cid := by
  obtain ⟨ce, hce, hseen⟩ := h
  exact ⟨ce, hsub hce, hseen⟩

theorem reapVerifyCID_ok {c : Course} {expCID : BitVec 16} {s s' : σ} {ce : CE}
    (h : reapVerifyCID drv checkSQID c sqId expCID s = .ok (s', ce)) :
    ProcessCE.validatePeek ce .success = true ∧ ce.CID = expCID ∧ (checkSQID = true → ce.SQID = sqId) := by
  obtain ⟨found, -, h⟩ := Outcomes.bind_eq_ok.1 h
  cases found with
  | none => cases h
  | some found =>
    obtain ⟨⟨s₁, ces⟩, -, h⟩ := Outcomes.bind_eq_ok.1 h
    match ces, h with
    | [ce'], h =>
      obtain ⟨hsuccess, h⟩ := require_bind.1 h
      obtain ⟨hcid, h⟩ := require_bind.1 h
      obtain ⟨hsqId, h⟩ := require_bind.1 h
      cases h
      exact ⟨hsuccess, hcid, hsqId⟩

/-- A command adds its completion. -/
theorem cmdOn_ok (h : cmdOn drv checkSQID course nCmds st sqId = .ok st') : st'.prevCID = st.prevCID ∧
    st'.curCID = st.prevCID + 1 ∧ st.verified ⊆ st'.verified ∧ Seen checkSQID st'.verified sqId st.prevCID := by
  obtain ⟨s₁, -, h⟩ := Outcomes.bind_eq_ok.1 h
  obtain ⟨⟨s₂, ce⟩, hverify, h⟩ := Outcomes.bind_eq_ok.1 h
  obtain ⟨s₃, -, h⟩ := Outcomes.bind_eq_ok.1 h
  obtain ⟨hnext, h⟩ := require_bind.1 h
  cases h
  exact ⟨rfl, hnext, List.subset_append_left _ _, ce, List.mem_append_right _ (List.mem_singleton_self ce),
    reapVerifyCID_ok hverify⟩

theorem foldlM_cmdOn_ok {sqIds : List (BitVec 16)}
    (h : sqIds.foldlM (cmdOn drv checkSQID course nCmds) st = .ok st') :
    st'.prevCID = st.prevCID ∧ (sqIds ≠ [] → st'.curCID = st.prevCID + 1) ∧ st.verified ⊆ st'.verified ∧
    ∀ sqId ∈ sqIds, Seen checkSQID st'.verified sqId st.prevCID := by
  induction sqIds generalizing st with
  | nil =>
    cases h
    exact ⟨rfl, fun hne => absurd rfl hne, List.Subset.refl _, fun _ hmem => absurd hmem List.not_mem_nil⟩
  | cons sqId sqIds ih =>
    rw [List.foldlM_cons] at h
    obtain ⟨st₁, hcmd, hrest⟩ := Outcomes.bind_eq_ok.1 h
    obtain ⟨hprev, hcur, hsub, hseen⟩ := cmdOn_ok hcmd
    obtain ⟨hprev', hcur', hsub', hseen'⟩ := ih hrest
    rw [hprev] at hprev' hcur' hseen'
    refine ⟨hprev', fun _ => ?_, fun ce hce => hsub' (hsub hce), ?_⟩
    · cases sqIds with
      | nil =>
        cases hrest
        exact hcur
      | cons sqId' rest => exact hcur' (List.cons_ne_nil _ _)
    · intro sqId' hmem
      rcases List.mem_cons.1 hmem with rfl | hmem
      · exact hseen.mono hsub'
      · exact hseen' sqId' hmem

/-- The commands before this one have been seen, from an identifier on. -/
structure Covered (checkSQID : Bool) (sqIds : List (BitVec 16)) (start : BitVec 16) (nCmds : Nat) (st : State σ) :
    Prop where
  prevCID : st.prevCID = start + BitVec.ofNat 16 nCmds
  seen : ∀ sqId ∈ sqIds, ∀ i < nCmds, Seen checkSQID st.verified sqId (start + BitVec.ofNat 16 i)

theorem covered_cmdOnAll {sqIds : List (BitVec 16)} {start : BitVec 16} (hne : sqIds ≠ [])
    (hst : Covered checkSQID sqIds start nCmds st)
    (h : cmdOnAll drv checkSQID sqIds course nCmds st = .ok st') : Covered checkSQID sqIds start (nCmds + 1) st' := by
  obtain ⟨st₁, hfold, h⟩ := Outcomes.bind_eq_ok.1 h
  cases h
  obtain ⟨-, hcur, hsub, hseen⟩ := foldlM_cmdOn_ok hfold
  refine ⟨?_, fun sqId hmem i hi => ?_⟩
  · change st₁.curCID = _
    rw [hcur hne, hst.prevCID, BitVec.add_assoc, BitVec.ofNat_add]
    rfl
  · change Seen checkSQID st₁.verified sqId _
    rcases Nat.lt_succ_iff_lt_or_eq.1 hi with hi | rfl
    · exact (hst.seen sqId hmem i hi).mono hsub
    · rw [← hst.prevCID]
      exact hseen sqId hmem

theorem covered_count {sqIds : List (BitVec 16)} {start : BitVec 16} (hne : sqIds ≠ []) {n : Nat}
    (hst : Covered checkSQID sqIds start nCmds st)
    (h : Loops.count (cmdOnAll drv checkSQID sqIds course) n nCmds st = .ok st') :
    Covered checkSQID sqIds start (nCmds + n) st' := by
  induction n generalizing nCmds st with
  | zero =>
    cases h
    exact hst
  | succ n ih =>
    obtain ⟨st₁, hstep, hrest⟩ := Outcomes.bind_eq_ok.1 h
    have hcovered := ih (covered_cmdOnAll hne hst hstep) hrest
    rwa [Nat.add_assoc, Nat.add_comm 1] at hcovered

/-- **A test that passes has seen each identifier in each queue.** -/
theorem runCoreTest_covers {sqIds : List (BitVec 16)} {s : σ}
    (h : runCoreTest drv checkSQID sqIds course s = .ok st) (hmem : sqId ∈ sqIds) (cid : BitVec 16) :
    Seen checkSQID st.verified sqId cid := by
  obtain ⟨st₀, -, h⟩ := Outcomes.bind_eq_ok.1 h
  have hstart : Covered checkSQID sqIds st₀.curCID 0 { st₀ with prevCID := st₀.curCID } :=
    ⟨(BitVec.add_zero _).symm, fun _ _ i hi => absurd hi (Nat.not_lt_zero i)⟩
  have hcovered := covered_count (List.ne_nil_of_mem hmem) hstart h
  have hlt := (cid - st₀.curCID).isLt
  have hseen := hcovered.seen sqId hmem (cid - st₀.curCID).toNat (by rw [maxCmds]; omega)
  rwa [BitVec.ofNat_toNat, BitVec.setWidth_eq, BitVec.add_comm, BitVec.sub_add_cancel] at hseen

end Covers

/-! ## A controller that completes all commands -/

section Completes

variable {size : Nat} {course : RunCourse} {sqIds : List (BitVec 16)} {first : BitVec 16 → BitVec 16}

/-- The driver counts the commands of each queue from a first identifier on, and the controller completes them. -/
structure Conforms (course : RunCourse) (first : BitVec 16 → BitVec 16) : Prop where
  inquiry : course.inquiry = noPosts
  uniqueId : ∀ k sqId, (course.cmd k sqId).uniqueId = first sqId + BitVec.ofNat 16 k
  send : ∀ k sqId, (course.cmd k sqId).send = noPosts
  answer : ∀ k sqId, ∃ ce, (course.cmd k sqId).Answers ce ∧ ProcessCE.validatePeek ce .success = true ∧
    ce.CID = (course.cmd k sqId).uniqueId ∧ ce.SQID = sqId

/-- Before a round, with what the identifier has to be. -/
structure Ready (cid : BitVec 16) (st : State (RingBuf CE size)) : Prop where
  empty : st.s.count = 0
  prevCID : st.prevCID = cid

variable {start cid : BitVec 16} {st : State (RingBuf CE size)} {sqId : BitVec 16} {k : Nat}

theorem reapVerifyCID_answer {c : Course} {ce : CE} (hanswer : c.Answers ce) (hsend : c.send = noPosts)
    (hsuccess : ProcessCE.validatePeek ce .success = true) (hsqId : ce.SQID = sqId) (hsize : 2 ≤ size)
    {ring : RingBuf CE size} (hempty : ring.count = 0) (checkSQID : Bool) :
    reapVerifyCID (ringDriver size) checkSQID c sqId cid (ring.pushes c.ring.posted) =
      require (ce.CID = cid) (Fault.cid ce.CID cid) >>= fun _ => .ok ((ring.push ce).pop 1, ce) := by
  have hfound := sendWait_found hanswer hsize hempty
  rw [hsend] at hfound
  change (ringDriver size).poll 1 c.polls (ring.pushes c.ring.posted) = _ at hfound
  rw [reapVerifyCID, doReapInquiry, if_neg (by decide), hfound]
  change ((ringDriver size).reapMem c.reap 1 (ring.push ce)).mapError _ >>= _ = _
  rw [reapMem_answer hanswer hsize hempty]
  change (require (ProcessCE.validatePeek ce .success = true) Fault.status >>= _) = _
  rw [require_pos hsuccess]
  change (require (ce.CID = cid) _ >>= fun _ => require (checkSQID = true → ce.SQID = sqId) _ >>= _) = _
  rw [require_pos fun _ => hsqId]
  rfl

/-- A command that is answered: its entry carries the identifier, and the next one has to follow it. -/
theorem Conforms.cmdOn_eq (h : Conforms course first) (hsize : 2 ≤ size) (checkSQID : Bool) (k : Nat)
    (sqId : BitVec 16) (hst : Ready cid st) :
    ∃ ce : CE, ce.CID = (course.cmd k sqId).uniqueId ∧ cmdOn (ringDriver size) checkSQID course k st sqId =
      (require (ce.CID = cid) (Fault.cid ce.CID cid) >>= fun _ =>
        require ((course.cmd (k + 1) sqId).uniqueId = cid + 1)
          (Fault.next (course.cmd (k + 1) sqId).uniqueId cid) >>= fun _ =>
        .ok ⟨(st.s.push ce).pop 1, cid, (course.cmd (k + 1) sqId).uniqueId, st.verified ++ [ce]⟩) := by
  obtain ⟨ce, hanswer, hsuccess, hown, hsqId⟩ := h.answer k sqId
  have hring : (ringDriver size).enter (course.cmd k sqId).ring st.s =
      .ok (st.s.pushes (course.cmd k sqId).ring.posted) := enter_calm hanswer.ring _
  refine ⟨ce, hown, ?_⟩
  rw [cmdOn, hring]
  change (reapVerifyCID _ _ _ _ st.prevCID (st.s.pushes (course.cmd k sqId).ring.posted) >>= _) = _
  rw [hst.prevCID, reapVerifyCID_answer hanswer (h.send k sqId) hsuccess hsqId hsize hst.empty]
  cases require (ce.CID = cid) (Fault.cid ce.CID cid) with
  | error e => rfl
  | ok u =>
    change (((ringDriver size).enter (course.cmd (k + 1) sqId).send ((st.s.push ce).pop 1)).mapError _ >>= _) = _
    rw [h.send]
    rfl

/-- A command goes through exactly if its identifier is the one that is expected. -/
theorem cmdOn_ready (h : Conforms course first) (hsize : 2 ≤ size) (checkSQID : Bool) (hst : Ready cid st)
    (hcid : cid = start + BitVec.ofNat 16 k) :
    ((∃ st', cmdOn (ringDriver size) checkSQID course k st sqId = .ok st') ↔ first sqId = start) ∧
    ∀ st', cmdOn (ringDriver size) checkSQID course k st sqId = .ok st' → Ready cid st' := by
  obtain ⟨ce, hown, hcmd⟩ := h.cmdOn_eq hsize checkSQID k sqId hst
  constructor
  · have hnext : (course.cmd (k + 1) sqId).uniqueId = (course.cmd k sqId).uniqueId + 1 := by
      rw [h.uniqueId, h.uniqueId, BitVec.ofNat_add, ← BitVec.add_assoc]
      rfl
    rw [hcmd]
    constructor
    · rintro ⟨st', hok⟩
      have hfirst := (require_bind.1 hok).1
      rw [hown, h.uniqueId, hcid] at hfirst
      exact (BitVec.add_left_inj _).1 hfirst
    · rintro rfl
      have hfirst : ce.CID = cid := by rw [hown, h.uniqueId, hcid]
      exact ⟨_, require_bind.2 ⟨hfirst, require_bind.2 ⟨by rw [hnext, ← hown, hfirst], rfl⟩⟩⟩
  · intro st' hok
    rw [hcmd] at hok
    obtain ⟨-, hok⟩ := require_bind.1 hok
    obtain ⟨-, hok⟩ := require_bind.1 hok
    cases hok
    exact ⟨(emptied_pop hsize hst.empty).count, rfl⟩

/-- A round goes through exactly if all queues have started with the same identifier. -/
theorem cmdOnAll_exact (h : Conforms course first) (hsize : 2 ≤ size) (checkSQID : Bool) (hne : sqIds ≠ [])
    (start : BitVec 16) : Loops.Exact (cmdOnAll (ringDriver size) checkSQID sqIds course)
      (fun k st => Ready (start + BitVec.ofNat 16 k) st) fun _ => ∀ sqId ∈ sqIds, first sqId = start := by
  have hfold (k : Nat) {st : State (RingBuf CE size)} (hst : Ready (start + BitVec.ofNat 16 k) st) :
      (∃ st', sqIds.foldlM (cmdOn (ringDriver size) checkSQID course k) st = .ok st') ↔
        ∀ sqId ∈ sqIds, first sqId = start := by
    refine Loops.foldlM_iff (fun hst hfirst => ?_) (fun hst hok => ?_) hst
    · exact (cmdOn_ready h hsize checkSQID hst rfl).1.2 hfirst
    · exact ⟨(cmdOn_ready h hsize checkSQID hst rfl).1.1 ⟨_, hok⟩, (cmdOn_ready h hsize checkSQID hst rfl).2 _ hok⟩
  constructor
  · intro k st hst hfirst
    obtain ⟨st', hok⟩ := (hfold k hst).2 hfirst
    have hst' := Loops.foldlM_keeps (fun hst hok => (cmdOn_ready h hsize checkSQID hst rfl).2 _ hok) hst hok
    refine ⟨{ st' with prevCID := st'.curCID }, ?_, hst'.empty, ?_⟩
    · rw [cmdOnAll, hok]
      rfl
    · change st'.curCID = _
      rw [(foldlM_cmdOn_ok hok).2.1 hne, hst.prevCID, BitVec.add_assoc, BitVec.ofNat_add]
      rfl
  · intro k st st' hst hok
    obtain ⟨st₁, hok, -⟩ := Outcomes.bind_eq_ok.1 hok
    exact (hfold k hst).1 ⟨st₁, hok⟩

/-- The last queue says which identifier is expected. -/
theorem foldlM_sendFirst (h : Conforms course first) (sqIds : List (BitVec 16)) (st : State (RingBuf CE size)) :
    ∃ st', sqIds.foldlM (sendFirst (ringDriver size) course) st = .ok st' ∧ st'.s = st.s ∧
      (sqIds ≠ [] → ∃ sqId ∈ sqIds, st'.curCID = first sqId) := by
  induction sqIds generalizing st with
  | nil => exact ⟨st, rfl, rfl, fun hne => absurd rfl hne⟩
  | cons sqId sqIds ih =>
    have hsend : sendFirst (ringDriver size) course st sqId = .ok { st with curCID := first sqId } := by
      rw [sendFirst, h.send, h.uniqueId, BitVec.add_zero]
      rfl
    obtain ⟨st', hrest, hs, hcur⟩ := ih { st with curCID := first sqId }
    refine ⟨st', ?_, hs, fun _ => ?_⟩
    · rw [List.foldlM_cons, hsend]
      exact hrest
    · cases sqIds with
      | nil =>
        cases hrest
        exact ⟨sqId, List.mem_cons_self, rfl⟩
      | cons sqId' rest =>
        obtain ⟨last, hlast, hcur⟩ := hcur (List.cons_ne_nil _ _)
        exact ⟨last, List.mem_cons_of_mem _ hlast, hcur⟩

theorem runCoreTest_iff (h : Conforms course first) (hsize : 2 ≤ size) (checkSQID : Bool) (hne : sqIds ≠ [])
    {ring : RingBuf CE size} (hempty : ring.count = 0) :
    (∃ st, runCoreTest (ringDriver size) checkSQID sqIds course ring = .ok st) ↔
      ∀ sqId ∈ sqIds, ∀ sqId' ∈ sqIds, first sqId = first sqId' := by
  obtain ⟨st₀, hsend, hs, hcur⟩ := foldlM_sendFirst h sqIds (⟨ring, 0, 0, []⟩ : State (RingBuf CE size))
  obtain ⟨last, hlast, hcur⟩ := hcur hne
  have hready : Ready (first last + BitVec.ofNat 16 0) { st₀ with prevCID := st₀.curCID } := by
    refine ⟨?_, ?_⟩
    · change st₀.s.count = 0
      rw [hs]
      exact hempty
    · change st₀.curCID = _
      rw [hcur, BitVec.add_zero]
  rw [runCoreTest, hsend, ok_bind, (cmdOnAll_exact h hsize checkSQID hne (first last)).count hready]
  constructor
  · intro hall sqId hmem sqId' hmem'
    have hfirst := hall 0 (by decide)
    rw [hfirst sqId hmem, hfirst sqId' hmem']
  · exact fun hall _ _ sqId hmem => hall sqId hmem last hlast

/-- **A controller that completes all commands passes the test of the ASQ, and the one of the I/O queues exactly if the
driver starts both queues with the same identifier.** -/
theorem cidAccepted_iff (h : Conforms course first) {acqSize iocqSize : Nat} (hacq : 2 ≤ acqSize) (hiocq : 2 ≤ iocqSize)
    {acq : RingBuf CE acqSize} {iocq : RingBuf CE iocqSize} (hacqEmpty : acq.count = 0) (hiocqEmpty : iocq.count = 0)
    {numOfIOSQs : Nat} (hnum : 0 < numOfIOSQs) :
    (∃ st, CIDAcceptedASQ.runCoreTest (ringDriver acqSize) course acq = .ok st) ∧
    ((∃ st, CIDAcceptedIOSQ.runCoreTest (ringDriver iocqSize) numOfIOSQs course iocq = .ok st) ↔
      (1 < numOfIOSQs → first 1 = first 2)) := by
  constructor
  · have hone : ∀ sqId ∈ [(0 : BitVec 16)], ∀ sqId' ∈ [(0 : BitVec 16)], first sqId = first sqId' := by
      intro sqId hmem sqId' hmem'
      rw [List.mem_singleton.1 hmem, List.mem_singleton.1 hmem']
    obtain ⟨st, hok⟩ := (runCoreTest_iff h hacq false (List.cons_ne_nil 0 []) hacqEmpty).2 hone
    refine ⟨st, ?_⟩
    rw [CIDAcceptedASQ.runCoreTest, h.inquiry]
    exact require_bind.2 ⟨hacqEmpty, hok⟩
  · obtain ⟨n, rfl⟩ := Nat.exists_eq_succ_of_ne_zero (Nat.pos_iff_ne_zero.1 hnum)
    rw [CIDAcceptedIOSQ.runCoreTest]
    cases n with
    | zero =>
      rw [runCoreTest_iff h hiocq true (by decide) hiocqEmpty]
      simp [sqIds]
    | succ n =>
      have htwo : sqIds (n + 1 + 1) = [1, 2] := by
        rw [sqIds, Nat.min_eq_left (by omega)]
        rfl
      rw [htwo, runCoreTest_iff h hiocq true (by decide) hiocqEmpty]
      simp [eq_comm]

/-- The controller answers at the first inquiry. -/
def counting (first : BitVec 16 → BitVec 16) : RunCourse where
  inquiry := noPosts
  cmd k sqId :=
    let cid := first sqId + BitVec.ofNat 16 k
    ⟨noPosts, noPosts, cid, noPosts, [⟨[IOPair.completion sqId cid], false⟩], noPosts, noPosts, []⟩

theorem conforms_counting (first : BitVec 16 → BitVec 16) : Conforms (counting first) first where
  inquiry := rfl
  uniqueId _ _ := rfl
  send _ _ := rfl
  answer k sqId := by
    refine ⟨_, ⟨rfl, rfl, rfl, ?_, List.cons_ne_nil _ _, rfl, rfl, rfl, rfl⟩, ?_, rfl, rfl⟩
    · intro stage hstage
      obtain rfl := List.mem_singleton.1 hstage
      rfl
    · exact IOPair.validatePeek_completion _ _

theorem runCoreTest_covers_two :
    ∃ st, runCoreTest (ringDriver 4) true [1, 2] (counting fun _ => 7) emptyRing = .ok st ∧
      ∀ cid, Seen true st.verified 2 cid := by
  have hempty : emptyRing.count = 0 := rfl
  obtain ⟨st, hok⟩ := (runCoreTest_iff (conforms_counting fun _ => 7) (by decide) true (List.cons_ne_nil 1 [2])
    hempty).2 fun _ _ _ _ => rfl
  exact ⟨st, hok, runCoreTest_covers hok (by decide)⟩

/-- The driver starts the queues with different identifiers. -/
theorem cidAccepted_apart : ¬∃ st, CIDAcceptedIOSQ.runCoreTest (ringDriver 4) 2 (counting id) emptyRing = .ok st := by
  have hempty : emptyRing.count = 0 := rfl
  rw [(cidAccepted_iff (conforms_counting id) (by decide) (by decide) hempty hempty (by decide)).2]
  decide

end Completes

end CIDAccepted
end Tnvme
