import Tnvme.Queues.Pairs

/-!
# Filling a queue pair

`IOQFull_r10b` sends commands into a submission queue until it is full, and expects the completion queue to fill up with
them. Where the submission queue has one entry more, the last completion has to wait for room: the test sees no entry in
time, reaps one, and waits again.

A conforming controller posts what it can while the test waits (`Waits`). Then the loop ends for all queues of the sizes
that are meant (`submit_ok`). The sizes are made from `MQES` by halving, and some of them are no sizes for a small
`MQES` (`neverFails_iff`).
-/

namespace Tnvme

/-- The exceptions of `IOQFull`. -/
inductive FullFault where
  /-- "Number elements breaches spec requirement" -/
  | numEntries
  | io (fault : IOFault)
  /-- "Unable to see CE for issued cmd #%d" -/
  | unseen (cmd : Nat)
  /-- "Missing last CE, #%d cmds of #%d received" -/
  | missing (cmd numCE : Nat)
  deriving DecidableEq, Repr

namespace CQDriver

variable {σ : Type} (drv : CQDriver σ)

/-- `tail_ptr` of the metrics: the slot behind the entries. -/
def tailPtr (s : σ) : Nat := (drv.headPtr s + drv.inquiry s) % drv.numEntries

/-- `ReapInquiryWaitSpecify`, with no number when the time is over: then four entries are logged. -/
def reapInquiryWaitSpecify (ms numTil : Nat) (polls : List Stage) (log : Stage) (s : σ) :
    Except IOFault (σ × Option Nat) := do
  match ← drv.doReapInquiry ms numTil polls s with
  | some (s, numCE) => return (s, some numCE)
  | none =>
    let s ← drv.enter log (drv.polled polls s)
    let _ ← drv.peekCE (drv.headPtr s) s
    let _ ← drv.peekCE (drv.tailPtr s) s
    let _ ← drv.peekCE ((drv.headPtr s + 1) % drv.numEntries) s
    let _ ← drv.peekCE ((drv.tailPtr s + 1) % drv.numEntries) s
    return (s, none)

end CQDriver

namespace IOQFull

variable {size : Nat}

/-- A wait: what the controller does depends on what it has to do. -/
structure Wait (size : Nat) where
  polls : IOPair size → List Stage
  log : Stage

/-- What happens around the calls for one command. -/
structure CmdCourse (size : Nat) where
  send : Stage
  uniqueId : BitVec 16
  ring : Stage
  wait : Wait size

/-- The course of one `IOQFull`: the commands, and making room for the last entry. -/
structure Course (size : Nat) where
  cmd : Nat → CmdCourse size
  metrics : Stage
  reap : Stage
  peek : List CE
  again : Wait size

def wait (w : Wait size) (numTil : Nat) (p : IOPair size) : Except FullFault (IOPair size × Option Nat) :=
  ((IOPair.driver size).reapInquiryWaitSpecify (calcTimeout 1) numTil (w.polls p) w.log p).mapError .io

/-- `IO::ReapCE` for one entry. -/
def reapCE (course : Course size) (status : List CEStat) (p : IOPair size) :
    Except FullFault (IOPair size × CEStat) := do
  let (p, ce) ← ((IOPair.driver size).takeCE course.metrics course.reap course.peek 1 p).mapError .io
  let st ← (verifyCE ce status).mapError fun fault => .io (.status fault)
  return (p, st)

def sendRing (c : CmdCourse size) (p : IOPair size) : Except FullFault (IOPair size) := do
  let p ← ((IOPair.driver size).enter c.send p).mapError .io
  let p ← ((IOPair.driver size).enter c.ring (p.send c.uniqueId)).mapError .io
  return p.ringDoorbell

/-- The loop, for the commands that are left. -/
def submit (numIOSQEntries : Nat) (course : Course size) : Nat → Nat → IOPair size → Except FullFault (IOPair size)
  | 0, _, p => .ok p
  | left + 1, nCmds, p => do
    let p ← sendRing (course.cmd nCmds) p
    let (p, found) ← wait (course.cmd nCmds).wait (nCmds + 1) p
    match found with
    | none =>
      if numIOSQEntries = (size + 1) % 2 ^ 32 ∧ nCmds = sub32 (sub32 numIOSQEntries 1) 1 then
        let (p, _) ← reapCE course [.success] p
        let (p, found) ← wait course.again nCmds p
        -- seen the last entry: the loop is left
        if found.isSome then return p else .error (.unseen (nCmds + 1))
      else .error (.unseen (nCmds + 1))
    | some numCE =>
      if numCE ≠ nCmds + 1 then .error (.missing (nCmds + 1) numCE)
      else submit numIOSQEntries course left (nCmds + 1) p

/-- `IOQFull`, which creates the queues first. -/
def ioqFull (numIOSQEntries numIOCQEntries : Nat) (course : Course numIOCQEntries) : Except FullFault Unit :=
  if h : 2 ≤ numIOCQEntries ∧ 2 ≤ numIOSQEntries then do
    let _ ← submit numIOSQEntries course (sub32 numIOSQEntries 1) 0 (.fresh 1 (by omega))
    return ()
  else .error .numEntries

/-- The sizes of the submission and the completion queues that `RunCoreTest` asks for. -/
def sizePairs (mqes : BitVec 16) : List (Nat × Nat) :=
  let maxIOQEntries := mqes.toNat + 1
  [(2, 2), (maxIOQEntries / 2, maxIOQEntries / 2), (maxIOQEntries, maxIOQEntries),
    (3, 2), (maxIOQEntries / 2, sub32 (maxIOQEntries / 2) 1), (maxIOQEntries, sub32 maxIOQEntries 1)]

/-- One queue pair after the other, from the number `k` on. -/
def runPairs (course : Nat → (size : Nat) → Course size) : List (Nat × Nat) → Nat → Except FullFault Unit
  | [], _ => .ok ()
  | pair :: pairs, k => do
    ioqFull pair.1 pair.2 (course k pair.2)
    runPairs course pairs (k + 1)

def runCoreTest (mqes : BitVec 16) (course : Nat → (size : Nat) → Course size) : Except FullFault Unit :=
  runPairs course (sizePairs mqes) 0

/-! ## The controller -/

/-- While the test waits, no call fails, and the controller posts what it can. -/
structure Wait.Conforming (w : Wait size) : Prop where
  calm : ∀ p, ∀ stage ∈ w.polls p, stage.fails = false
  some : ∀ p, w.polls p ≠ []
  settled : ∀ p, ((IOPair.driver size).polled (w.polls p) p).Settled
  log : w.log.fails = false

structure Course.Conforming (course : Course size) : Prop where
  send : ∀ k, (course.cmd k).send.fails = false
  ring : ∀ k, (course.cmd k).ring.fails = false
  wait : ∀ k, (course.cmd k).wait.Conforming
  metrics : course.metrics.fails = false
  reap : course.reap.fails = false
  again : course.again.Conforming

/-- The sizes are between two and what `MQES` allows, and no conforming controller makes the test fail. -/
def NeverFails (mqes : BitVec 16) : Prop :=
  (∀ pair ∈ sizePairs mqes, (2 ≤ pair.1 ∧ pair.1 ≤ mqes.toNat + 1) ∧ 2 ≤ pair.2 ∧ pair.2 ≤ mqes.toNat + 1) ∧
  ∀ course, (∀ k size, (course k size).Conforming) → runCoreTest mqes course = .ok ()

/-! ## A wait -/

section Wait

variable {w : Wait size} {p : IOPair size}

/-- The entries of all commands are there if there is room for them. -/
theorem wait_found (hw : w.Conforming) {numTil : Nat} (howed : p.owed.length = numTil) (hpos : 0 < numTil)
    (hroom : numTil < size) : ∃ p', wait w numTil p = .ok (p', some numTil) ∧ p.Keeps p' := by
  have hview : IOPair.View (IOPair.driver size) id := IOPair.driver_view
  have hcount : (IOPair.driver size).inquiry ((IOPair.driver size).polled (w.polls p) p) = numTil := by
    have hkeeps := (IOPair.keeps_posts hview p ((w.polls p).map (·.posted)).flatten).owed.length_eq
    have hsettled := (hw.settled p).count_eq
    change ((IOPair.driver size).polled (w.polls p) p).owed.length = p.owed.length at hkeeps
    rw [hkeeps, howed] at hsettled
    change ((IOPair.driver size).polled (w.polls p) p).ring.count = numTil
    omega
  obtain ⟨ces, hpoll, -, hnum⟩ := CQDriver.poll_found (hw.calm p) (hw.some p) (by rw [hcount]; omega) hcount.ge
  have hkeeps := IOPair.keeps_posts hview p ces
  have hmost : (IOPair.driver size).inquiry ((IOPair.driver size).posts p ces) ≤ numTil := by
    have hlen := ((IOPair.driver size).posts p ces).length_owed
    have howed' := hkeeps.owed.length_eq
    change ((IOPair.driver size).posts p ces).owed.length = p.owed.length at howed'
    change ((IOPair.driver size).posts p ces).ring.count ≤ numTil
    omega
  refine ⟨(IOPair.driver size).posts p ces, ?_, hkeeps⟩
  rw [wait, CQDriver.reapInquiryWaitSpecify, CQDriver.doReapInquiry, if_neg (by decide), hpoll,
    Nat.le_antisymm hmost hnum]
  rfl

/-- The last entry does not come as long as there is no room for it. -/
theorem wait_over (hw : w.Conforming) (hsize : 2 ≤ size) (howed : p.owed.length = size) :
    ∃ p', wait w size p = .ok (p', none) ∧ p.Keeps p' ∧ 0 < p'.ring.count := by
  have hview : IOPair.View (IOPair.driver size) id := IOPair.driver_view
  have hover : (IOPair.driver size).poll size (w.polls p) p = .ok none :=
    CQDriver.poll_over (hw.calm p) fun ces => ((IOPair.driver size).posts p ces).ring.count_lt
  have hkeeps := IOPair.keeps_posts hview p ((w.polls p).map (·.posted)).flatten
  obtain ⟨p1, hp1⟩ : ∃ p1, p1 = (IOPair.driver size).polled (w.polls p) p := ⟨_, rfl⟩
  obtain ⟨p2, hp2⟩ : ∃ p2, p2 = (IOPair.driver size).posts p1 w.log.posted := ⟨_, rfl⟩
  have hcount : 0 < p1.ring.count := by
    have hsettled := (hw.settled p).count_eq
    have hlen := hkeeps.owed.length_eq
    change ((IOPair.driver size).polled (w.polls p) p).owed.length = p.owed.length at hlen
    rw [hp1]
    omega
  have hpeek (i : Nat) (hi : i < size) : (IOPair.driver size).peekCE i p2 = .ok (p2.ring.slot i) := if_pos hi
  have hmod (i : Nat) : i % size < size := Nat.mod_lt _ (by omega)
  refine ⟨p2, ?_, ?_, ?_⟩
  · rw [wait, CQDriver.reapInquiryWaitSpecify, CQDriver.doReapInquiry, if_neg (by decide), hover]
    change Except.mapError _ ((IOPair.driver size).enter w.log ((IOPair.driver size).polled (w.polls p) p) >>= _) = _
    rw [CQDriver.enter_calm hw.log, ← hp1, ← hp2]
    change Except.mapError _ ((IOPair.driver size).peekCE p2.ring.head p2 >>= fun _ =>
      (IOPair.driver size).peekCE ((p2.ring.head + p2.ring.count) % size) p2 >>= fun _ =>
      (IOPair.driver size).peekCE ((p2.ring.head + 1) % size) p2 >>= fun _ =>
      (IOPair.driver size).peekCE (((p2.ring.head + p2.ring.count) % size + 1) % size) p2 >>= fun _ =>
      .ok (p2, none)) = _
    rw [hpeek _ p2.ring.head_lt, hpeek _ (hmod _), hpeek _ (hmod _), hpeek _ (hmod _)]
    rfl
  · rw [hp2, hp1]
    exact hkeeps.trans (IOPair.keeps_posts hview _ _)
  · rw [hp2]
    exact Nat.lt_of_lt_of_le hcount (IOPair.count_posts hview p1 w.log.posted)

end Wait

/-! ## The loop -/

section Submit

variable {course : Course size} {p : IOPair size}

/-- The controller owes one command more. -/
theorem sendRing_ok (h : course.Conforming) (k : Nat) (hsent : p.sent = []) :
    ∃ p', sendRing (course.cmd k) p = .ok p' ∧ p'.sent = [] ∧ p'.owed.length = p.owed.length + 1 := by
  have hview : IOPair.View (IOPair.driver size) id := IOPair.driver_view
  obtain ⟨p1, hp1⟩ : ∃ p1, p1 = (IOPair.driver size).posts p (course.cmd k).send.posted := ⟨_, rfl⟩
  obtain ⟨p2, hp2⟩ : ∃ p2, p2 = (IOPair.driver size).posts (p1.send (course.cmd k).uniqueId)
      (course.cmd k).ring.posted := ⟨_, rfl⟩
  have hkeeps1 : p.Keeps p1 := hp1 ▸ IOPair.keeps_posts hview p _
  have hkeeps2 : (p1.send (course.cmd k).uniqueId).Keeps p2 := hp2 ▸ IOPair.keeps_posts hview _ _
  have hsent2 : p2.sent = [(course.cmd k).uniqueId] := by
    rw [hkeeps2.sent, IOPair.send, hkeeps1.sent, hsent, List.nil_append]
  have howed2 : p2.owed.length = p.owed.length := hkeeps2.owed.length_eq.trans hkeeps1.owed.length_eq
  refine ⟨p2.ringDoorbell, ?_, rfl, ?_⟩
  · rw [sendRing, CQDriver.enter_calm (h.send k), ← hp1]
    change (((IOPair.driver size).enter (course.cmd k).ring (p1.send (course.cmd k).uniqueId)).mapError _ >>= _) = _
    rw [CQDriver.enter_calm (h.ring k), ← hp2]
    rfl
  · have hlen := p2.ringDoorbell.length_owed
    have hlen2 := p2.length_owed
    change _ = p2.ring.count + (p2.waiting ++ p2.sent).length at hlen
    rw [List.length_append, hsent2, List.length_singleton] at hlen
    omega

/-- One entry is reaped, which is a success. -/
theorem reapCE_ok (h : course.Conforming) (hsize : 2 ≤ size) (hcount : 0 < p.ring.count) :
    ∃ p', reapCE course [.success] p = .ok (p', .success) ∧ p'.owed.length + 1 = p.owed.length := by
  obtain ⟨p', ce, htake, htaken⟩ := IOPair.takeCE_view IOPair.driver_view course.peek hsize h.metrics h.reap
    hcount
  have hver : verifyCE ce [.success] = .ok .success := by
    have hfind : [CEStat.success].find? (fun st => st = .ignore || ProcessCE.validatePeek ce st) = some .success := by
      rw [List.find?_cons_of_pos]
      rw [htaken.own.2, Bool.or_true]
    rw [verifyCE, if_neg (by decide), hfind]
  refine ⟨p', ?_, ?_⟩
  · rw [reapCE, htake]
    change (Except.mapError _ (verifyCE ce [.success]) >>= _) = _
    rw [hver]
    rfl
  · have hlen := htaken.owed.length_eq
    rwa [List.length_cons] at hlen

/-- The loop ends: by induction on the commands that are left, of which none has been reaped. -/
theorem submit_ok (h : course.Conforming) (hsize : 2 ≤ size) {numIOSQEntries : Nat} (hlt : numIOSQEntries < 2 ^ 32)
    (hsizes : numIOSQEntries = size ∨ numIOSQEntries = size + 1) (left nCmds : Nat)
    (hsum : nCmds + left = numIOSQEntries - 1) (hsent : p.sent = []) (howed : p.owed.length = nCmds) :
    ∃ p', submit numIOSQEntries course left nCmds p = .ok p' := by
  induction left generalizing nCmds p with
  | zero => exact ⟨p, rfl⟩
  | succ left ih =>
    obtain ⟨p1, hsend, hsent1, howed1⟩ := sendRing_ok h nCmds hsent
    rw [howed] at howed1
    by_cases hroom : nCmds + 1 < size
    · obtain ⟨p2, hwait, hkeeps⟩ := wait_found (h.wait nCmds) howed1 (Nat.succ_pos _) hroom
      obtain ⟨p3, hrest⟩ := ih (nCmds + 1) (by omega) (hkeeps.sent.trans hsent1) (hkeeps.owed.length_eq.trans howed1)
      refine ⟨p3, ?_⟩
      rw [submit, hsend]
      change (wait (course.cmd nCmds).wait (nCmds + 1) p1 >>= _) = _
      rw [hwait]
      exact (if_neg (by omega)).trans hrest
    · -- the last command of the queue that has one entry more
      obtain ⟨rfl, rfl⟩ : nCmds + 1 = size ∧ numIOSQEntries = size + 1 := by omega
      obtain ⟨p2, hwait, hkeeps, hcount⟩ := wait_over (h.wait nCmds) hsize howed1
      obtain ⟨p3, hreap, hlen⟩ := reapCE_ok h hsize hcount
      have howed3 : p3.owed.length = nCmds := by
        have := hkeeps.owed.length_eq
        omega
      obtain ⟨p4, hagain, -⟩ := wait_found h.again howed3 (by omega) (by omega)
      have hspecial : nCmds + 1 + 1 = (nCmds + 1 + 1) % 2 ^ 32 ∧ nCmds = sub32 (sub32 (nCmds + 1 + 1) 1) 1 := by
        rw [sub32_of_le (a := nCmds + 1 + 1) (by omega) hlt, sub32_of_le (by omega) (by omega)]
        omega
      refine ⟨p4, ?_⟩
      rw [submit, hsend]
      change (wait (course.cmd nCmds).wait (nCmds + 1) p1 >>= _) = _
      rw [hwait]
      change (if nCmds + 1 + 1 = (nCmds + 1 + 1) % 2 ^ 32 ∧ nCmds = sub32 (sub32 (nCmds + 1 + 1) 1) 1 then
        reapCE course [.success] p2 >>= _ else _) = _
      rw [if_pos hspecial, hreap]
      change (wait course.again nCmds p3 >>= _) = _
      rw [hagain]
      rfl

end Submit

theorem ioqFull_ok {numIOSQEntries : Nat} {course : Course size} (h : course.Conforming) (hsize : 2 ≤ size)
    (hlt : numIOSQEntries < 2 ^ 32) (hsizes : numIOSQEntries = size ∨ numIOSQEntries = size + 1) :
    ioqFull numIOSQEntries size course = .ok () := by
  have hsub : sub32 numIOSQEntries 1 = numIOSQEntries - 1 := sub32_of_le (by omega) hlt
  obtain ⟨p', hsubmit⟩ := submit_ok (p := .fresh 1 (by omega)) h hsize hlt hsizes (numIOSQEntries - 1) 0
    (by omega) rfl rfl
  rw [ioqFull, dif_pos ⟨hsize, by omega⟩, hsub, hsubmit]
  rfl

/-! ## The sizes -/

/-- The queues of a pair can be created, and the completion queue is as large as the other one or smaller by one. -/
structure Fits (mqes : BitVec 16) (pair : Nat × Nat) : Prop where
  sq : 2 ≤ pair.1 ∧ pair.1 ≤ mqes.toNat + 1
  cq : 2 ≤ pair.2 ∧ pair.2 ≤ mqes.toNat + 1
  sizes : pair.1 = pair.2 ∨ pair.1 = pair.2 + 1

theorem fits_of_le {mqes : BitVec 16} (h : 5 ≤ mqes.toNat) : ∀ pair ∈ sizePairs mqes, Fits mqes pair := by
  have hlt := mqes.isLt
  intro pair hpair
  simp only [sizePairs, List.mem_cons, List.not_mem_nil, or_false] at hpair
  rcases hpair with rfl | rfl | rfl | rfl | rfl | rfl
  · exact ⟨⟨by omega, by omega⟩, ⟨by omega, by omega⟩, .inl rfl⟩
  · exact ⟨⟨by omega, by omega⟩, ⟨by omega, by omega⟩, .inl rfl⟩
  · exact ⟨⟨by omega, by omega⟩, ⟨by omega, by omega⟩, .inl rfl⟩
  · exact ⟨⟨by omega, by omega⟩, ⟨by omega, by omega⟩, .inr rfl⟩
  · rw [sub32_of_le (by omega) (by omega)]
    exact ⟨⟨by omega, by omega⟩, ⟨by omega, by omega⟩, .inr (by omega)⟩
  · rw [sub32_of_le (by omega) (by omega)]
    exact ⟨⟨by omega, by omega⟩, ⟨by omega, by omega⟩, .inr (by omega)⟩

/-- The pairs that fit do not make the test fail. -/
theorem runPairs_append {mqes : BitVec 16} {course : Nat → (size : Nat) → Course size}
    (h : ∀ k size, (course k size).Conforming) {pairs : List (Nat × Nat)} (hpairs : ∀ pair ∈ pairs, Fits mqes pair)
    (rest : List (Nat × Nat)) (k : Nat) :
    runPairs course (pairs ++ rest) k = runPairs course rest (k + pairs.length) := by
  induction pairs generalizing k with
  | nil => rfl
  | cons pair pairs ih =>
    have hfits := hpairs pair List.mem_cons_self
    have hlt : pair.1 < 2 ^ 32 := by
      have := mqes.isLt
      have := hfits.sq.2
      omega
    rw [List.cons_append, runPairs, ioqFull_ok (h k pair.2) hfits.cq.1 hlt hfits.sizes]
    refine (ih (fun pair hpair => hpairs pair (List.mem_cons_of_mem _ hpair)) (k + 1)).trans ?_
    rw [List.length_cons, Nat.add_assoc, Nat.add_comm 1]

/-- **The test never fails a conforming controller exactly if this has queues of six entries.** -/
theorem neverFails_iff (mqes : BitVec 16) : NeverFails mqes ↔ 5 ≤ mqes.toNat := by
  constructor
  · rintro ⟨hsizes, -⟩
    -- a half of the entries less one is the size of a queue
    have hmid := (hsizes ((mqes.toNat + 1) / 2, sub32 ((mqes.toNat + 1) / 2) 1) (by simp [sizePairs])).2
    have := mqes.isLt
    rw [sub32] at hmid
    omega
  · intro h
    have hfits := fits_of_le h
    exact ⟨fun pair hpair => ⟨(hfits pair hpair).sq, (hfits pair hpair).cq⟩,
      fun course hcourse => (congrArg (runPairs course · 0) (List.append_nil _)).symm.trans
        (runPairs_append hcourse hfits [] 0)⟩

def eagerWait (size : Nat) : Wait size := ⟨fun p => [⟨p.eager, false⟩], noPosts⟩

/-- A controller that completes all it can while the test waits. -/
def eagerCourse (size : Nat) : Course size where
  cmd k := ⟨noPosts, BitVec.ofNat 16 k, noPosts, eagerWait size⟩
  metrics := noPosts
  reap := noPosts
  peek := []
  again := eagerWait size

theorem eagerWait_conforming (size : Nat) : (eagerWait size).Conforming where
  calm p stage hstage := by
    obtain rfl := List.mem_singleton.1 hstage
    rfl
  some p := List.cons_ne_nil _ _
  settled p := by
    change ((IOPair.driver size).posts p (p.eager ++ [])).Settled
    rw [List.append_nil]
    exact IOPair.settled_eager IOPair.driver_view p
  log := rfl

theorem eagerCourse_conforming (size : Nat) : (eagerCourse size).Conforming :=
  ⟨fun _ => rfl, fun _ => rfl, fun _ => eagerWait_conforming size, rfl, rfl, eagerWait_conforming size⟩

/-- A controller that allows queues of four entries: a completion queue of one entry is not created. -/
theorem runCoreTest_throws : runCoreTest 3 (fun _ => eagerCourse) = .error .numEntries := by
  have hpairs : ∀ pair ∈ [(2, 2), (2, 2), (4, 4), (3, 2)], Fits 3 pair := by
    intro pair hpair
    simp only [List.mem_cons, List.not_mem_nil, or_false] at hpair
    rcases hpair with rfl | rfl | rfl | rfl <;> exact ⟨by decide, by decide, by decide⟩
  exact runPairs_append (fun _ => eagerCourse_conforming) hpairs [(2, 1), (4, 3)] 0

theorem not_neverFails : ¬∀ mqes : BitVec 16, 1 ≤ mqes.toNat → NeverFails mqes := by
  intro h
  have hok := (h 3 (by decide)).2 (fun _ => eagerCourse) fun _ => eagerCourse_conforming
  rw [runCoreTest_throws] at hok
  cases hok

end IOQFull
end Tnvme
