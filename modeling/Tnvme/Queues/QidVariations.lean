import Tnvme.Queues.ManySQtoCQ
import Tnvme.Queues.Pairs
import Mathlib.Data.List.Nodup

/-!
# Queue pairs for all identifiers

`QIDVariations_r10b` and `SQCQSizeMismatch_r10b` create as many queue pairs as the controller grants. The submission
queues get larger and the completion queues get smaller from pair to pair. Then all submission queues are filled, and
each completion queue is drained: one entry is waited for and reaped at a time, so that the controller can post the next
one.

* `Room`: the invariant of the sizes in the loop that creates the queues.
* `drain_ok`: what a pair owes is the measure of its drain, which the controller does not change.
* `holds_iff`: all is well as long as the identifiers fit into 16 bits.
-/

namespace Tnvme

/-- The arguments that create a pair of queues. -/
structure PairPlan where
  cqId : BitVec 16
  cqSize : Nat
  sqId : BitVec 16
  sqSize : Nat
  deriving DecidableEq, Repr

/-- `CQ::Init` and `SQ::Init` do not throw: zero is the identifier of the admin queues, which are not created while
the controller is enabled. -/
def PairPlan.Creatable (pair : PairPlan) : Prop :=
  pair.cqId ≠ 0 ∧ 2 ≤ pair.cqSize ∧ pair.sqId ≠ 0 ∧ 2 ≤ pair.sqSize

instance (pair : PairPlan) : Decidable pair.Creatable := inferInstanceAs (Decidable (_ ∧ _ ∧ _ ∧ _))

/-- The exceptions of the tests. -/
inductive QidFault where
  /-- Those of `CQ::Init` and `SQ::Init`. -/
  | create
  | io (fault : IOFault)
  | status
  /-- "Invalid SQID %d in CE, expected SQID" -/
  | sqId (actual expected : BitVec 16)
  deriving DecidableEq, Repr

namespace Informative

variable (mGetFeaturesNumOfQ : BitVec 32)

def getFeaturesNumOfIOCQs : Nat := (mGetFeaturesNumOfQ >>> 16).toNat + 1

def getFeaturesNumOfIOSQs : Nat := (mGetFeaturesNumOfQ &&& 0xffff).toNat + 1

end Informative

/-- `maxIOQSupport` of the tests. -/
def maxIOQSupport (numOfQ : BitVec 32) : Nat :=
  min (Informative.getFeaturesNumOfIOSQs numOfQ) (Informative.getFeaturesNumOfIOCQs numOfQ)

/-- The loop that creates the queues, for the pairs that are left from `ioqId` on. -/
def createPairs (maxIOQEntries : Nat) (sqId : Nat → Nat) : Nat → Nat → Nat → Nat → List PairPlan
  | 0, _, _, _ => []
  | left + 1, ioqId, numEntriesIOSQ, numEntriesIOCQ =>
    ⟨BitVec.ofNat 16 ioqId, numEntriesIOCQ, BitVec.ofNat 16 (sqId ioqId), numEntriesIOSQ⟩ ::
      if numEntriesIOSQ < maxIOQEntries then
        createPairs maxIOQEntries sqId left (ioqId + 1) (numEntriesIOSQ + 1) (sub32 numEntriesIOCQ 1)
      else createPairs maxIOQEntries sqId left (ioqId + 1) numEntriesIOSQ numEntriesIOCQ

/-- The pairs of a test: the submission queues have two entries first, the completion queues two more than there are
pairs if they may. -/
def pairsOf (sqId : Nat → Nat → Nat) (numOfQ : BitVec 32) (mqes : BitVec 16) : List PairPlan :=
  let maxIOQEntries := mqes.toNat + 1
  let numEntriesIOCQ := if maxIOQSupport numOfQ + 2 > maxIOQEntries then maxIOQEntries else maxIOQSupport numOfQ + 2
  createPairs maxIOQEntries (sqId (maxIOQSupport numOfQ)) (maxIOQSupport numOfQ) 1 2 numEntriesIOCQ

/-- The submission queues are numbered from the end. -/
def QIDVariations.pairs : BitVec 32 → BitVec 16 → List PairPlan :=
  pairsOf fun maxIOQSupport ioqId => sub32 maxIOQSupport ioqId + 1

def SQCQSizeMismatch.pairs : BitVec 32 → BitVec 16 → List PairPlan := pairsOf fun _ ioqId => ioqId

namespace QIDVariations

/-- All queue pairs, of which the test has planned the sizes. -/
abbrev Queues (plan : List PairPlan) : Type := (q : Fin plan.length) → IOPair (plan.get q).cqSize

/-- The completion queue of a pair. -/
def driver (plan : List PairPlan) (q : Fin plan.length) : CQDriver (Queues plan) :=
  pairDriver (fun q => (plan.get q).cqSize) q

/-- What happens around the calls: for the commands of a queue, for its doorbell, and for each entry that is reaped from
its completion queue, which may depend on what the controller has to do then. -/
structure Course (plan : List PairPlan) where
  send : Fin plan.length → Nat → Stage
  uniqueId : Fin plan.length → Nat → BitVec 16
  ring : Fin plan.length → Stage
  round : Fin plan.length → Nat → Queues plan → ReapRound

variable {plan : List PairPlan}

def created (h : ∀ pair ∈ plan, pair.Creatable) : Queues plan := fun q =>
  .fresh (plan.get q).sqId (Nat.lt_of_lt_of_le Nat.two_pos (h (plan.get q) (List.get_mem _ _)).2.1)

def sendCmds (course : Course plan) (q : Fin plan.length) : List Nat → Queues plan → Except QidFault (Queues plan)
  | [], s => .ok s
  | numCmds :: rest, s => do
    let s ← ((driver plan q).enter (course.send q numCmds) s).mapError .io
    sendCmds course q rest (Function.update s q ((s q).send (course.uniqueId q numCmds)))

/-- The numbers of the commands that fill a submission queue. -/
def cmdNumbers (q : Fin plan.length) : List Nat := List.range' 1 ((plan.get q).sqSize - 1)

/-- A submission queue is filled, and its doorbell is rung. -/
def fillSQ (course : Course plan) (q : Fin plan.length) (s : Queues plan) : Except QidFault (Queues plan) := do
  let s ← sendCmds course q (cmdNumbers q) s
  let s ← ((driver plan q).enter (course.ring q) s).mapError .io
  return Function.update s q (s q).ringDoorbell

/-- One round of `ReapVerifyOnCQ`. -/
def reapVerify (round : ReapRound) (q : Fin plan.length) (s : Queues plan) : Except QidFault (Queues plan × CE) := do
  match ← ((driver plan q).doReapInquiry (calcTimeout 1) 1 round.polls s).mapError .io with
  | none => .error (.io .timedOut)
  | some (s, _) =>
    let (s, ce) ← ((driver plan q).takeCE round.metrics round.reap round.peek 1 s).mapError .io
    if !ProcessCE.validatePeek ce .success then .error .status
    else if ce.SQID ≠ (plan.get q).sqId then .error (.sqId ce.SQID (plan.get q).sqId)
    else return (s, ce)

/-- `ReapVerifyOnCQ`, with the entries that it reaps. -/
def reapVerifyOnCQ (course : Course plan) (q : Fin plan.length) :
    List Nat → Queues plan → Except QidFault (Queues plan × List CE)
  | [], s => .ok (s, [])
  | nCmds :: rest, s => do
    let (s, ce) ← reapVerify (course.round q nCmds s) q s
    let (s, ces) ← reapVerifyOnCQ course q rest s
    return (s, ce :: ces)

def fillAll (course : Course plan) : List (Fin plan.length) → Queues plan → Except QidFault (Queues plan)
  | [], s => .ok s
  | q :: qs, s => do
    let s ← fillSQ course q s
    fillAll course qs s

def drainAll (course : Course plan) : List (Fin plan.length) → Queues plan → Except QidFault (List (List CE))
  | [], _ => .ok []
  | q :: qs, s => do
    let (s, ces) ← reapVerifyOnCQ course q (cmdNumbers q) s
    let rest ← drainAll course qs s
    return ces :: rest

/-- `RunCoreTest` up to the deletion of the queues, with the entries that are reaped from each. -/
def runCoreTest (plan : List PairPlan) (course : Course plan) : Except QidFault (List (List CE)) :=
  if h : ∀ pair ∈ plan, pair.Creatable then do
    let s ← fillAll course (List.finRange plan.length) (created h)
    drainAll course (List.finRange plan.length) s
  else .error .create

/-! ## What the tests are for -/

/-- No call fails, and while the test waits for an empty queue with commands to complete, the controller posts an entry
into it. -/
structure Course.Conforming (course : Course plan) : Prop where
  send : ∀ q k, (course.send q k).fails = false
  ring : ∀ q, (course.ring q).fails = false
  polls : ∀ q k s, ∀ stage ∈ (course.round q k s).polls, stage.fails = false
  some : ∀ q k s, (course.round q k s).polls ≠ []
  posts : ∀ q k s, (s q).ring.count = 0 → (s q).waiting ≠ [] →
    ((driver plan q).polled (course.round q k s).polls s q).ring.count ≠ 0
  metrics : ∀ q k s, (course.round q k s).metrics.fails = false
  reap : ∀ q k s, (course.round q k s).reap.fails = false

/-- The queues may have these sizes, and the identifiers are those of different I/O queues. -/
structure Planned (mqes : BitVec 16) (plan : List PairPlan) : Prop where
  sizes : ∀ pair ∈ plan, (2 ≤ pair.sqSize ∧ pair.sqSize ≤ mqes.toNat + 1) ∧
    2 ≤ pair.cqSize ∧ pair.cqSize ≤ mqes.toNat + 1
  sqIds : (plan.map (·.sqId)).Nodup
  cqIds : (plan.map (·.cqId)).Nodup
  ids_ne : ∀ pair ∈ plan, pair.sqId ≠ 0 ∧ pair.cqId ≠ 0

/-- The entries are the completions of the commands that have been sent into the submission queue. -/
structure Completions (course : Course plan) (q : Fin plan.length) (ces : List CE) : Prop where
  cids : (ces.map (·.CID)).Perm ((cmdNumbers q).map (course.uniqueId q))
  own : ∀ ce ∈ ces, ce.SQID = (plan.get q).sqId ∧ ProcessCE.validatePeek ce .success = true

/-- The test does not fail a conforming controller, and drains each pair of the completions of its commands. -/
def Drains (plan : List PairPlan) : Prop :=
  ∀ course : Course plan, course.Conforming → ∃ reaped : Fin plan.length → List CE,
    runCoreTest plan course = .ok ((List.finRange plan.length).map reaped) ∧ ∀ q, Completions course q (reaped q)

def Holds (mqes : BitVec 16) (plan : List PairPlan) : Prop := Planned mqes plan ∧ Drains plan

/-! ## The plan -/

/-- The invariant of the sizes: what one queue gains the other one loses, and it can lose as much as there are pairs. -/
structure Room (maxIOQEntries left sq cq : Nat) : Prop where
  least : 2 ≤ sq
  most : sq ≤ maxIOQEntries
  sum : sq + cq ≤ maxIOQEntries + 2
  rest : maxIOQEntries + 2 ≤ sq + cq ∨ left + 2 ≤ cq

theorem Room.step {m left sq cq : Nat} (h : Room m (left + 1) sq cq) (hm : m < 2 ^ 32) :
    if sq < m then Room m left (sq + 1) (sub32 cq 1) else Room m left sq cq := by
  have hleast := h.least
  have hsum := h.sum
  have hrest := h.rest
  split
  · rw [sub32_of_le (by omega) (by omega)]
    exact ⟨by omega, by omega, by omega, by omega⟩
  · exact ⟨h.least, h.most, h.sum, by omega⟩

section Plan

variable {m : Nat} {sqId : Nat → Nat} {left ioqId sq cq : Nat}

theorem sizes_createPairs (hm : m < 2 ^ 32) (h : Room m left sq cq) :
    ∀ pair ∈ createPairs m sqId left ioqId sq cq,
      (2 ≤ pair.sqSize ∧ pair.sqSize ≤ m) ∧ 2 ≤ pair.cqSize ∧ pair.cqSize ≤ m := by
  induction left generalizing ioqId sq cq with
  | zero => exact fun pair hpair => by cases hpair
  | succ left ih =>
    intro pair hpair
    have hstep := h.step hm
    rcases List.mem_cons.1 hpair with rfl | hpair
    · have hleast := h.least
      have hmost := h.most
      have hsum := h.sum
      have hrest := h.rest
      exact ⟨⟨hleast, hmost⟩, by dsimp only; omega, by dsimp only; omega⟩
    · split at hpair
      · rw [if_pos ‹_›] at hstep
        exact ih hstep pair hpair
      · rw [if_neg ‹_›] at hstep
        exact ih hstep pair hpair

theorem ids_createPairs :
    (createPairs m sqId left ioqId sq cq).map (·.cqId) = (List.range' ioqId left).map (fun id => BitVec.ofNat 16 id) ∧
    (createPairs m sqId left ioqId sq cq).map (·.sqId) =
      (List.range' ioqId left).map fun ioqId => BitVec.ofNat 16 (sqId ioqId) := by
  induction left generalizing ioqId sq cq with
  | zero => exact ⟨rfl, rfl⟩
  | succ left ih =>
    rw [createPairs, List.map_cons, List.map_cons, List.range'_succ, List.map_cons, List.map_cons]
    split
    · exact ⟨congrArg _ ih.1, congrArg _ ih.2⟩
    · exact ⟨congrArg _ ih.1, congrArg _ ih.2⟩

/-- Numbers of different queues up to the last one, as long as they fit into 16 bits. -/
theorem nodup_ids {x : Nat} {f : Nat → Nat} (hx : x ≤ 65535) (hrange : ∀ i, 1 ≤ i → i ≤ x → 1 ≤ f i ∧ f i ≤ x)
    (hinj : ∀ i j, 1 ≤ i → i ≤ x → 1 ≤ j → j ≤ x → f i = f j → i = j) :
    ((List.range' 1 x).map fun i => BitVec.ofNat 16 (f i)).Nodup ∧
      ∀ id ∈ (List.range' 1 x).map fun i => BitVec.ofNat 16 (f i), id ≠ 0 := by
  have hnat (i : Nat) (hi : i ∈ List.range' 1 x) : (BitVec.ofNat 16 (f i)).toNat = f i := by
    rw [List.mem_range'_1] at hi
    have := (hrange i hi.1 (by omega)).2
    rw [BitVec.toNat_ofNat]
    omega
  constructor
  · refine List.Nodup.map_on (fun i hi j hj hij => ?_) (List.nodup_range' 1 Nat.one_pos)
    have hsame : f i = f j := by rw [← hnat i hi, ← hnat j hj, hij]
    rw [List.mem_range'_1] at hi hj
    exact hinj i j hi.1 (by omega) hj.1 (by omega) hsame
  · intro id hid hzero
    obtain ⟨i, hi, rfl⟩ := List.mem_map.1 hid
    have hval := hnat i hi
    rw [hzero] at hval
    rw [List.mem_range'_1] at hi
    have := (hrange i hi.1 (by omega)).1
    change 0 = f i at hval
    omega

end Plan

theorem maxIOQSupport_pos (numOfQ : BitVec 32) : 1 ≤ maxIOQSupport numOfQ ∧ maxIOQSupport numOfQ ≤ 65536 := by
  have hsq : (numOfQ &&& 0xffff).toNat < 65536 := by
    rw [BitVec.toNat_and]
    exact Nat.and_lt_two_pow _ (show (0xffff#32).toNat < 2 ^ 16 by decide)
  unfold maxIOQSupport Informative.getFeaturesNumOfIOSQs Informative.getFeaturesNumOfIOCQs
  omega

/-- The identifiers of the submission queues are the ones of the pairs, in some order. -/
structure Numbering (sqId : Nat → Nat → Nat) : Prop where
  range : ∀ x < 2 ^ 32, ∀ i, 1 ≤ i → i ≤ x → 1 ≤ sqId x i ∧ sqId x i ≤ x
  inj : ∀ x < 2 ^ 32, ∀ i j, 1 ≤ i → i ≤ x → 1 ≤ j → j ≤ x → sqId x i = sqId x j → i = j

theorem numbering_reversed : Numbering fun maxIOQSupport ioqId => sub32 maxIOQSupport ioqId + 1 where
  range x hx i h1 hi := by
    rw [sub32_of_le hi hx]
    omega
  inj x hx i j h1 hi hj1 hj h := by
    rw [sub32_of_le hi hx, sub32_of_le hj hx] at h
    omega

theorem numbering_same : Numbering fun _ ioqId => ioqId :=
  ⟨fun _ _ _ h1 hi => ⟨h1, hi⟩, fun _ _ _ _ _ _ _ _ h => h⟩

section Pairs

variable {sqId : Nat → Nat → Nat} {numOfQ : BitVec 32} {mqes : BitVec 16}

theorem planned_pairsOf (hsqId : Numbering sqId) (hmqes : 1 ≤ mqes.toNat) (h : maxIOQSupport numOfQ ≤ 65535) :
    Planned mqes (pairsOf sqId numOfQ mqes) := by
  have hlt := mqes.isLt
  have hpos := maxIOQSupport_pos numOfQ
  have hroom : Room (mqes.toNat + 1) (maxIOQSupport numOfQ) 2
      (if maxIOQSupport numOfQ + 2 > mqes.toNat + 1 then mqes.toNat + 1 else maxIOQSupport numOfQ + 2) := by
    split
    · exact ⟨by omega, by omega, by omega, by omega⟩
    · exact ⟨by omega, by omega, by omega, by omega⟩
  obtain ⟨hcqs, hsqs⟩ := @ids_createPairs (mqes.toNat + 1) (sqId (maxIOQSupport numOfQ)) (maxIOQSupport numOfQ) 1 2
    (if maxIOQSupport numOfQ + 2 > mqes.toNat + 1 then mqes.toNat + 1 else maxIOQSupport numOfQ + 2)
  have hcq := nodup_ids h (fun i h1 hi => ⟨h1, hi⟩) fun i j _ _ _ _ hij => hij
  have hsq := nodup_ids h (hsqId.range (maxIOQSupport numOfQ) (by omega))
    (hsqId.inj (maxIOQSupport numOfQ) (by omega))
  rw [← hcqs] at hcq
  rw [← hsqs] at hsq
  exact ⟨sizes_createPairs (by omega) hroom, hsq.1, hcq.1,
    fun pair hpair => ⟨hsq.2 _ (List.mem_map_of_mem hpair), hcq.2 _ (List.mem_map_of_mem hpair)⟩⟩

/-- The last pair of too many has an identifier that does not fit. -/
theorem not_planned (h : ¬maxIOQSupport numOfQ ≤ 65535) : ¬Planned mqes (pairsOf sqId numOfQ mqes) := by
  intro hplanned
  have hpos := maxIOQSupport_pos numOfQ
  have hmem : BitVec.ofNat 16 65536 ∈ (pairsOf sqId numOfQ mqes).map (·.cqId) := by
    rw [pairsOf, ids_createPairs.1]
    exact List.mem_map_of_mem (List.mem_range'_1.2 ⟨by decide, by omega⟩)
  obtain ⟨pair, hpair, hid⟩ := List.mem_map.1 hmem
  exact (hplanned.ids_ne pair hpair).2 (hid.trans (by decide))

end Pairs

/-! ## Filling the queues -/

section Run

variable {plan : List PairPlan} {course : Course plan} {s : Queues plan}

theorem driver_view (plan : List PairPlan) (q : Fin plan.length) : IOPair.View (driver plan q) fun s => s q :=
  among_view _ q

theorem keeps_driver (q q' : Fin plan.length) (s : Queues plan) (ces : List CE) :
    (s q').Keeps ((driver plan q).posts s ces q') :=
  keeps_among q q' s ces

theorem sendCmds_ok (h : course.Conforming) (q : Fin plan.length) (cmds : List Nat) (s : Queues plan) :
    ∃ s', sendCmds course q cmds s = .ok s' ∧ (s' q).sqId = (s q).sqId ∧
      (s' q).sent = (s q).sent ++ cmds.map (course.uniqueId q) ∧ (s' q).owed.Perm (s q).owed ∧
      ∀ q' ≠ q, (s q').Keeps (s' q') := by
  induction cmds generalizing s with
  | nil => exact ⟨s, rfl, rfl, (List.append_nil _).symm, List.Perm.refl _, fun q' _ => .refl _⟩
  | cons k cmds ih =>
    obtain ⟨s1, hs1⟩ : ∃ s1, s1 = (driver plan q).posts s (course.send q k).posted := ⟨_, rfl⟩
    have hkeeps (q' : Fin plan.length) : (s q').Keeps (s1 q') := hs1 ▸ keeps_driver q q' s _
    obtain ⟨s', hrest, hsqId, hsent, howed, hothers⟩ := ih (Function.update s1 q ((s1 q).send (course.uniqueId q k)))
    rw [Function.update_self] at hsqId hsent howed
    refine ⟨s', ?_, hsqId.trans (hkeeps q).sqId, ?_, howed.trans (hkeeps q).owed, fun q' hq' => ?_⟩
    · rw [sendCmds, CQDriver.enter_calm (h.send q k), ← hs1]
      exact hrest
    · rw [hsent, IOPair.send, (hkeeps q).sent, List.append_assoc, List.map_cons, List.singleton_append]
    · have hother := hothers q' hq'
      rw [Function.update_of_ne hq'] at hother
      exact (hkeeps q').trans hother

/-- Nothing has been sent to the pair. -/
structure Idle (s : Queues plan) (q : Fin plan.length) : Prop where
  sqId : (s q).sqId = (plan.get q).sqId
  sent : (s q).sent = []
  owed : (s q).owed = []

/-- The controller owes the completions of the commands that fill the submission queue. -/
structure Filled (course : Course plan) (s : Queues plan) (q : Fin plan.length) : Prop where
  sqId : (s q).sqId = (plan.get q).sqId
  owed : (s q).owed.Perm ((cmdNumbers q).map (course.uniqueId q))

theorem Idle.keeps {s' : Queues plan} {q : Fin plan.length} (h : Idle s q) (hkeeps : (s q).Keeps (s' q)) : Idle s' q :=
  ⟨hkeeps.sqId.trans h.sqId, hkeeps.sent.trans h.sent, List.perm_nil.1 (h.owed ▸ hkeeps.owed)⟩

theorem Filled.keeps {s' : Queues plan} {q : Fin plan.length} (h : Filled course s q) (hkeeps : (s q).Keeps (s' q)) :
    Filled course s' q :=
  ⟨hkeeps.sqId.trans h.sqId, hkeeps.owed.trans h.owed⟩

theorem fillSQ_ok (h : course.Conforming) {q : Fin plan.length} (hidle : Idle s q) :
    ∃ s', fillSQ course q s = .ok s' ∧ Filled course s' q ∧ ∀ q' ≠ q, (s q').Keeps (s' q') := by
  obtain ⟨s1, hsend, hsqId, hsent, howed, hothers⟩ := sendCmds_ok h q (cmdNumbers q) s
  obtain ⟨s2, hs2⟩ : ∃ s2, s2 = (driver plan q).posts s1 (course.ring q).posted := ⟨_, rfl⟩
  have hkeeps (q' : Fin plan.length) : (s1 q').Keeps (s2 q') := hs2 ▸ keeps_driver q q' s1 _
  refine ⟨Function.update s2 q (s2 q).ringDoorbell, ?_, ⟨?_, ?_⟩, fun q' hq' => ?_⟩
  · rw [fillSQ, hsend]
    change (((driver plan q).enter (course.ring q) s1).mapError _ >>= _) = _
    rw [CQDriver.enter_calm (h.ring q), ← hs2]
    rfl
  · rw [Function.update_self]
    exact (hkeeps q).sqId.trans (hsqId.trans hidle.sqId)
  · have hnone : (s2 q).owed = [] := by
      refine List.perm_nil.1 ((hkeeps q).owed.trans (howed.trans ?_))
      rw [hidle.owed]
    have hring := List.append_eq_nil_iff.1 hnone
    rw [Function.update_self, IOPair.owed, IOPair.ringDoorbell, hring.1, hring.2, (hkeeps q).sent, hsent, hidle.sent]
    exact List.Perm.refl _
  · rw [Function.update_of_ne hq']
    exact (hothers q' hq').trans (hkeeps q')

theorem fillAll_ok (h : course.Conforming) {qs : List (Fin plan.length)} (hqs : qs.Nodup)
    (hidle : ∀ q ∈ qs, Idle s q) :
    ∃ s', fillAll course qs s = .ok s' ∧ (∀ q ∈ qs, Filled course s' q) ∧ ∀ q ∉ qs, (s q).Keeps (s' q) := by
  induction qs generalizing s with
  | nil => exact ⟨s, rfl, fun q hq => (by cases hq), fun q _ => .refl _⟩
  | cons q qs ih =>
    obtain ⟨hnot, hqs⟩ := List.nodup_cons.1 hqs
    obtain ⟨s1, hfill, hfilled, hothers⟩ := fillSQ_ok h (hidle q List.mem_cons_self)
    have hne (q' : Fin plan.length) (hq' : q' ∈ qs) : q' ≠ q := fun heq => hnot (heq ▸ hq')
    obtain ⟨s2, hrest, hall, hkeeps⟩ := ih hqs fun q' hq' =>
      (hidle q' (List.mem_cons_of_mem _ hq')).keeps (hothers q' (hne q' hq'))
    refine ⟨s2, ?_, fun q' hq' => ?_, fun q' hq' => ?_⟩
    · rw [fillAll, hfill]
      exact hrest
    · rcases List.mem_cons.1 hq' with rfl | hq'
      · exact hfilled.keeps (hkeeps q' hnot)
      · exact hall q' hq'
    · obtain ⟨hq', hrest'⟩ := not_or.1 (mt List.mem_cons.2 hq')
      exact (hothers q' hq').trans (hkeeps q' hrest')

/-! ## Draining the queues -/

/-- An entry arrives and is reaped, as long as something is owed. -/
theorem reapVerify_ok (h : course.Conforming) {q : Fin plan.length} (hsize : 2 ≤ (plan.get q).cqSize) (k : Nat)
    (hsqId : (s q).sqId = (plan.get q).sqId) (howed : (s q).owed ≠ []) :
    ∃ s' ce, reapVerify (course.round q k s) q s = .ok (s', ce) ∧ (s q).Taken (s' q) ce ∧
      ∀ q' ≠ q, (s q').Keeps (s' q') := by
  have hview := driver_view plan q
  have hpos : (driver plan q).inquiry ((driver plan q).polled (course.round q k s).polls s) ≠ 0 := by
    rw [hview.inquiry]
    by_cases hempty : (s q).ring.count = 0
    · refine h.posts q k s hempty fun hwaiting => howed ?_
      have hlen := (s q).length_owed
      rw [hempty, hwaiting] at hlen
      exact List.length_eq_zero_iff.1 hlen
    · have := IOPair.count_posts hview s ((course.round q k s).polls.map (·.posted)).flatten
      change (s q).ring.count ≤ ((driver plan q).polled (course.round q k s).polls s q).ring.count at this
      omega
  obtain ⟨ces, hpoll, hfound, -⟩ :=
    CQDriver.poll_found (h.polls q k s) (h.some q k s) hpos (Nat.one_le_iff_ne_zero.2 hpos)
  obtain ⟨s1, hs1⟩ : ∃ s1, s1 = (driver plan q).posts s ces := ⟨_, rfl⟩
  have hkeeps (q' : Fin plan.length) : (s q').Keeps (s1 q') := hs1 ▸ keeps_driver q q' s ces
  rw [← hs1, hview.inquiry] at hfound
  obtain ⟨s2, ce, htake, htaken⟩ := IOPair.takeCE_view hview (course.round q k s).peek hsize (h.metrics q k s)
    (h.reap q k s) (Nat.pos_of_ne_zero hfound)
  have hown : ce.SQID = (plan.get q).sqId ∧ ProcessCE.validatePeek ce .success = true := by
    rw [← hsqId, ← (hkeeps q).sqId]
    exact htaken.own
  refine ⟨s2, ce, ?_, (hkeeps q).taken htaken, fun q' hq' => (hkeeps q').trans (keeps_takeCE hq' htake)⟩
  rw [reapVerify, CQDriver.doReapInquiry, if_neg (by decide), hpoll, ← hs1]
  change (((driver plan q).takeCE _ _ _ 1 s1).mapError _ >>= _) = _
  rw [htake]
  change (if !ProcessCE.validatePeek ce .success then _ else if ce.SQID ≠ (plan.get q).sqId then _ else _) = _
  rw [hown.2, if_neg (by decide), if_neg (not_not.2 hown.1)]
  rfl

/-- As many rounds as there are completions owed: by induction on the rounds. -/
theorem reapVerifyOnCQ_ok (h : course.Conforming) {q : Fin plan.length} (hsize : 2 ≤ (plan.get q).cqSize)
    (rounds : List Nat) (s : Queues plan) (hsqId : (s q).sqId = (plan.get q).sqId)
    (hlen : (s q).owed.length = rounds.length) :
    ∃ s' ces, reapVerifyOnCQ course q rounds s = .ok (s', ces) ∧ (ces.map (·.CID)).Perm (s q).owed ∧
      (∀ ce ∈ ces, ce.SQID = (plan.get q).sqId ∧ ProcessCE.validatePeek ce .success = true) ∧
      ∀ q' ≠ q, (s q').Keeps (s' q') := by
  induction rounds generalizing s with
  | nil =>
    refine ⟨s, [], rfl, ?_, fun ce hce => (by cases hce), fun q' _ => .refl _⟩
    rw [List.length_eq_zero_iff.1 hlen]
    exact List.Perm.refl _
  | cons k rounds ih =>
    have hsome : (s q).owed ≠ [] := by
      intro hnone
      rw [hnone] at hlen
      cases hlen
    obtain ⟨s1, ce, hone, htaken, hothers⟩ := reapVerify_ok h hsize k hsqId hsome
    have hlen1 : (s1 q).owed.length = rounds.length := by
      have := htaken.owed.length_eq
      rw [List.length_cons, hlen, List.length_cons] at this
      exact Nat.succ.inj this
    obtain ⟨s2, ces, hrest, hcids, hown, hothers'⟩ := ih s1 (htaken.sqId.trans hsqId) hlen1
    refine ⟨s2, ce :: ces, ?_, (hcids.cons ce.CID).trans htaken.owed, fun c hc => ?_,
      fun q' hq' => (hothers q' hq').trans (hothers' q' hq')⟩
    · rw [reapVerifyOnCQ, hone]
      change (reapVerifyOnCQ course q rounds s1 >>= _) = _
      rw [hrest]
      rfl
    · rcases List.mem_cons.1 hc with rfl | hc
      · exact hsqId ▸ htaken.own
      · exact hown c hc

theorem drainAll_ok (h : course.Conforming) (hsizes : ∀ pair ∈ plan, 2 ≤ pair.cqSize) {qs : List (Fin plan.length)}
    (hqs : qs.Nodup) (hfilled : ∀ q ∈ qs, Filled course s q) :
    ∃ reaped : Fin plan.length → List CE, drainAll course qs s = .ok (qs.map reaped) ∧
      ∀ q ∈ qs, Completions course q (reaped q) := by
  induction qs generalizing s with
  | nil => exact ⟨fun _ => [], rfl, fun q hq => by cases hq⟩
  | cons q qs ih =>
    obtain ⟨hnot, hqs⟩ := List.nodup_cons.1 hqs
    have hq := hfilled q List.mem_cons_self
    have hne (q' : Fin plan.length) (hq' : q' ∈ qs) : q' ≠ q := fun heq => hnot (heq ▸ hq')
    have hlen : (s q).owed.length = (cmdNumbers q).length := hq.owed.length_eq.trans (List.length_map _)
    obtain ⟨s1, ces, hdrain, hcids, hown, hothers⟩ :=
      reapVerifyOnCQ_ok h (hsizes _ (List.get_mem _ _)) (cmdNumbers q) s hq.sqId hlen
    obtain ⟨reaped, hrest, hall⟩ := ih hqs fun q' hq' =>
      (hfilled q' (List.mem_cons_of_mem _ hq')).keeps (hothers q' (hne q' hq'))
    refine ⟨Function.update reaped q ces, ?_, fun q' hq' => ?_⟩
    · have hsame : qs.map (Function.update reaped q ces) = qs.map reaped :=
        List.map_congr_left fun q' hq' => Function.update_of_ne (hne q' hq') _ _
      rw [drainAll, hdrain, List.map_cons, Function.update_self, hsame]
      change (drainAll course qs s1 >>= _) = _
      rw [hrest]
      rfl
    · by_cases heq : q' = q
      · rw [heq, Function.update_self]
        exact ⟨hcids.trans hq.owed, hown⟩
      · rw [Function.update_of_ne heq]
        exact hall q' ((List.mem_cons.1 hq').resolve_left heq)

theorem drain_ok {mqes : BitVec 16} (h : Planned mqes plan) : Drains plan := by
  intro course hcourse
  have hcreatable : ∀ pair ∈ plan, pair.Creatable := fun pair hpair =>
    ⟨(h.ids_ne pair hpair).2, (h.sizes pair hpair).2.1, (h.ids_ne pair hpair).1, (h.sizes pair hpair).1.1⟩
  have hqs := List.nodup_finRange plan.length
  obtain ⟨s, hfill, hfilled, -⟩ := fillAll_ok (s := created hcreatable) hcourse hqs fun q _ => ⟨rfl, rfl, rfl⟩
  obtain ⟨reaped, hdrain, hall⟩ := drainAll_ok hcourse (fun pair hpair => (hcreatable pair hpair).2.1) hqs hfilled
  refine ⟨reaped, ?_, fun q => hall q (List.mem_finRange q)⟩
  rw [runCoreTest, dif_pos hcreatable, hfill]
  exact hdrain

end Run

theorem holds_pairsOf_iff {sqId : Nat → Nat → Nat} (hsqId : Numbering sqId) (numOfQ : BitVec 32) {mqes : BitVec 16}
    (hmqes : 1 ≤ mqes.toNat) : Holds mqes (pairsOf sqId numOfQ mqes) ↔ maxIOQSupport numOfQ ≤ 65535 := by
  constructor
  · intro h
    by_contra hmany
    exact not_planned hmany h.1
  · intro h
    have hplanned := planned_pairsOf hsqId hmqes h
    exact ⟨hplanned, drain_ok hplanned⟩

/-- **Both tests create queues as they should and drain them exactly if there are identifiers for all pairs.** -/
theorem holds_iff (numOfQ : BitVec 32) {mqes : BitVec 16} (hmqes : 1 ≤ mqes.toNat) :
    (Holds mqes (QIDVariations.pairs numOfQ mqes) ↔ maxIOQSupport numOfQ ≤ 65535) ∧
      (Holds mqes (SQCQSizeMismatch.pairs numOfQ mqes) ↔ maxIOQSupport numOfQ ≤ 65535) :=
  ⟨holds_pairsOf_iff numbering_reversed numOfQ hmqes, holds_pairsOf_iff numbering_same numOfQ hmqes⟩

/-- A controller that completes all it can while the test waits. -/
def eagerCourse (plan : List PairPlan) : Course plan where
  send _ _ := noPosts
  uniqueId _ k := BitVec.ofNat 16 k
  ring _ := noPosts
  round q _ s := ⟨[⟨(s q).eager, false⟩], noPosts, noPosts, []⟩

theorem eagerCourse_conforming {plan : List PairPlan} (hsizes : ∀ pair ∈ plan, 2 ≤ pair.cqSize) :
    (eagerCourse plan).Conforming where
  send _ _ := rfl
  ring _ := rfl
  polls q k s stage hstage := by
    obtain rfl := List.mem_singleton.1 hstage
    rfl
  some _ _ _ := List.cons_ne_nil _ _
  posts q k s hempty hwaiting := by
    change ((driver plan q).posts s ((s q).eager ++ []) q).ring.count ≠ 0
    rw [List.append_nil]
    have hsettled := (IOPair.settled_eager (driver_view plan q) s).count_eq
    have howed := (keeps_driver q q s (s q).eager).owed.length_eq
    have hlen := (s q).length_owed
    have hpos := List.length_pos_iff.2 hwaiting
    have hsize := hsizes _ (List.get_mem plan q)
    change ((driver plan q).posts s (s q).eager q).ring.count = _ at hsettled
    omega
  metrics _ _ _ := rfl
  reap _ _ _ := rfl

/-- Three submission queues and two completion queues, of four entries. -/
theorem holds_two_pairs : 1 ≤ (3#16).toNat ∧
    (Holds 3 (QIDVariations.pairs 0x00010002 3) ∧ Holds 3 (SQCQSizeMismatch.pairs 0x00010002 3)) ∧
    ∃ course : Course (QIDVariations.pairs 0x00010002 3), course.Conforming := by
  obtain ⟨hqid, hmismatch⟩ := @holds_iff 0x00010002 3 (by decide)
  have hplanned : Planned 3 (QIDVariations.pairs 0x00010002 3) :=
    planned_pairsOf numbering_reversed (by decide) (by decide)
  exact ⟨by decide, ⟨hqid.2 (by decide), hmismatch.2 (by decide)⟩,
    _, eagerCourse_conforming fun pair hpair => (hplanned.sizes pair hpair).2.1⟩

/-- As many queues as the field can name: the last pair has the identifier of the admin queues. -/
theorem not_holds : ¬∀ (numOfQ : BitVec 32) (mqes : BitVec 16), 1 ≤ mqes.toNat →
    Holds mqes (QIDVariations.pairs numOfQ mqes) ∧ Holds mqes (SQCQSizeMismatch.pairs numOfQ mqes) :=
  fun h => not_planned (by decide) (h 0xffffffff 1 (by decide)).1.1

end QIDVariations
end Tnvme
