import Tnvme.Lib.Outcomes
import Tnvme.Lib.Rings
import Tnvme.Queues.Entries

/-!
# `SendAndReapCmd`

A command is sent into a submission queue, and the completion queue is polled until an entry is there. The entry is
reaped from the head of the queue. Nothing compares it with the command: that it is the one of the command is an
assumption of the method, which wants an empty queue at first and exactly one entry in the end.

The controller posts entries between all the calls (`Course`). In a queue whose entries have the 16 bytes of `union CE`
the entry that is verified is the first one posted since the queue was found empty (`sendAndReapCmd_ok`). It is the one
of the command if no other command completes before it (`sendAndReapCmd_own`).
-/

namespace Tnvme

/-- A completion queue as it is seen through the driver: its metrics, the entries that the controller posts into it, and
its memory as `PeekCE` goes through it, in steps of 16 bytes (`Serves.cells`). -/
structure CQDriver (σ : Type) where
  numEntries : Nat
  post : σ → CE → σ
  /-- `num_remaining` of an inquiry. -/
  inquiry : σ → Nat
  headPtr : σ → Nat
  /-- `NVME_IOCTL_REAP` for a number of entries, with `num_reaped`. -/
  reap : σ → Nat → σ × Nat
  mem : σ → Nat → CE

/-- What happens around a call into the driver: entries that are posted before it, and whether it fails. -/
structure Stage where
  posted : List CE
  fails : Bool

/-- The course of one `SendAndReapCmd`. -/
structure Course where
  inquiry : Stage
  send : Stage
  /-- `unique_id`, which the driver assigns to the command. -/
  uniqueId : BitVec 16
  ring : Stage
  /-- The inquiries until the time is over. -/
  polls : List Stage
  metrics : Stage
  reap : Stage
  peek : List CE

/-- The exceptions of `SendAndReapCmd`. -/
inductive IOFault where
  | ioctl
  | notEmpty (found : Nat)
  | tooLong
  | timedOut
  | wrongCount (numCE : Nat)
  | reaped (desired numReaped : Nat)
  | noIndex
  | status (fault : CEFault)
  deriving DecidableEq, Repr

namespace CQDriver

variable {σ : Type} (drv : CQDriver σ)

def posts (s : σ) (ces : List CE) : σ := ces.foldl drv.post s

/-- A call of the driver, which throws if it fails. -/
def enter (stage : Stage) (s : σ) : Except IOFault σ :=
  if stage.fails then .error .ioctl else .ok (drv.posts s stage.posted)

def reapInquiry (stage : Stage) (s : σ) : Except IOFault (σ × Nat) := do
  let s ← drv.enter stage s
  return (s, drv.inquiry s)

/-- The loop of `DoReapInquiry`; `none` when the time is over. -/
def poll (numTil : Nat) : List Stage → σ → Except IOFault (Option (σ × Nat))
  | [], _ => .ok none
  | stage :: stages, s => do
    let (s, numCE) ← drv.reapInquiry stage s
    if numCE ≠ 0 ∧ numCE ≥ numTil then return some (s, numCE) else poll numTil stages s

def doReapInquiry (ms numTil : Nat) (polls : List Stage) (s : σ) : Except IOFault (Option (σ × Nat)) :=
  if ms > 86400000 then .error .tooLong else drv.poll numTil polls s

/-- `SendCmd`, with the unique identifier of the command. -/
def sendCmd (course : Course) (s : σ) : Except IOFault (σ × BitVec 16) := do
  let (s, numCE) ← drv.reapInquiry course.inquiry s
  if numCE ≠ 0 then .error (.notEmpty numCE)
  else
    let s ← drv.enter course.send s
    let s ← drv.enter course.ring s
    return (s, course.uniqueId)

def waitForReap (course : Course) (ms : Nat) (s : σ) : Except IOFault (σ × Nat) := do
  match ← drv.doReapInquiry ms 1 course.polls s with
  | none => .error .timedOut
  | some (s, numCE) => if numCE ≠ 1 then .error (.wrongCount numCE) else return (s, numCE)

/-- `CQ::Reap`: at most as many as fit into the queue, and these also if none are desired. -/
def cqReap (stage : Stage) (ceDesire : Nat) (s : σ) : Except IOFault (σ × Nat) := do
  let ceDesire := if ceDesire = 0 ∨ ceDesire > drv.numEntries - 1 then drv.numEntries - 1 else ceDesire
  let s ← drv.enter stage s
  return drv.reap s ceDesire

def peekCE (indexPtr : Nat) (s : σ) : Except IOFault CE :=
  if indexPtr < drv.numEntries then .ok (drv.mem s indexPtr) else .error .noIndex

def retrieveCE (course : Course) (numCE : Nat) (s : σ) : Except IOFault CE := do
  let s ← drv.enter course.metrics s
  let headPtr := drv.headPtr s
  let (s, numReaped) ← drv.cqReap course.reap numCE s
  if numReaped ≠ 1 then .error (.reaped numCE numReaped) else drv.peekCE headPtr (drv.posts s course.peek)

def reapCE (course : Course) (numCE : Nat) (status : List CEStat) (s : σ) : Except IOFault CEStat := do
  let ce ← drv.retrieveCE course numCE s
  (verifyCE ce status).mapError .status

/-- `SendAndReapCmd`: the unique identifier is of no use. -/
def sendAndReapCmd (course : Course) (ms : Nat) (status : List CEStat) (s : σ) : Except IOFault CEStat := do
  let (s, _) ← drv.sendCmd course s
  let (s, numCE) ← drv.waitForReap course ms s
  drv.reapCE course numCE status s

/-- What the entries of a queue with the size of `union CE` are relied on for: they wait in the order in which they are
posted, one less than there are slots at most, and the slot of an entry that has been reaped last stays as it is. -/
structure Lawful (queue : σ → List CE) : Prop where
  inquiry_eq : ∀ s, drv.inquiry s = (queue s).length
  queue_post : ∀ s ce, queue (drv.post s ce) =
    if (queue s).length + 1 < drv.numEntries then queue s ++ [ce] else queue s
  headPtr_post : ∀ s ce, drv.headPtr (drv.post s ce) = drv.headPtr s
  mem_reap : ∀ s ce rest desire s' ces, queue s = ce :: rest → drv.reap s desire = (s', 1) →
    drv.mem (drv.posts s' ces) (drv.headPtr s) = ce

/-- The same of a queue `cq` in the bytes of its memory: an entry stands where the size of the entries says. -/
structure Serves (cq : CQ) (mem : σ → Nat → BitVec 8) (queue : σ → List CE) : Prop where
  contig : cq.getIsContig ≠ none
  numEntries : drv.numEntries = cq.mNumEntries
  cells : ∀ s i, drv.mem s i = CE.ofBytes (entryAt (mem s) (i * sizeofCE) sizeofCE)
  inquiry_eq : ∀ s, drv.inquiry s = (queue s).length
  queue_post : ∀ s ce, queue (drv.post s ce) =
    if (queue s).length + 1 < cq.mNumEntries then queue s ++ [ce] else queue s
  headPtr_post : ∀ s ce, drv.headPtr (drv.post s ce) = drv.headPtr s
  mem_reap : ∀ s ce rest desire s' ces, queue s = ce :: rest → drv.reap s desire = (s', 1) →
    CE.ofBytes (entryAt (mem (drv.posts s' ces)) (drv.headPtr s * cq.mEntrySize) sizeofCE) = ce

end CQDriver

namespace Course

/-- What is posted from the time when the queue is found empty to the end of the wait. -/
def awaited (course : Course) : List CE :=
  course.send.posted ++ course.ring.posted ++ (course.polls.map (·.posted)).flatten

/-- All that is posted since the queue is found empty. -/
def posted (course : Course) : List CE :=
  course.awaited ++ course.metrics.posted ++ course.reap.posted ++ course.peek

/-- The entry is the completion of the command that has been sent. -/
def Own (course : Course) (sqId : BitVec 16) (ce : CE) : Prop := ce.CID = course.uniqueId ∧ ce.SQID = sqId

end Course

/-- What `VerifyCE` returns for an entry: its status, or the marker if it is listed. -/
def StatusOf (ce : CE) (status : List CEStat) (st : CEStat) : Prop :=
  st ∈ status ∧ (Matches ce st ∨ st = .ignore)

theorem verifyCE_statusOf {ce : CE} {status : List CEStat} {st : CEStat} (h : verifyCE ce status = .ok st) :
    StatusOf ce status st := by
  rw [verifyCE] at h
  split at h
  · cases h
  · split at h
    · rename_i st' hfind
      cases h
      have hfit := List.find?_some hfind
      rw [Bool.or_eq_true, decide_eq_true_eq, ProcessCE.validatePeek_iff] at hfit
      exact ⟨List.mem_of_find?_eq_some hfind, hfit.symm.imp (·.1) id⟩
    · cases h

namespace CQDriver

variable {σ : Type} {drv : CQDriver σ} {queue : σ → List CE} {course : Course} {s s' : σ}

theorem enter_ok {stage : Stage} (h : drv.enter stage s = .ok s') : s' = drv.posts s stage.posted := by
  rw [enter] at h
  split at h
  · cases h
  · exact (Except.ok.inj h).symm

theorem posts_append (s : σ) (ces ces' : List CE) : drv.posts s (ces ++ ces') = drv.posts (drv.posts s ces) ces' :=
  List.foldl_append

section Queue

variable (hdrv : drv.Lawful queue)
include hdrv

theorem headPtr_posts (s : σ) (ces : List CE) : drv.headPtr (drv.posts s ces) = drv.headPtr s := by
  induction ces generalizing s with
  | nil => rfl
  | cons ce ces ih =>
    change drv.headPtr (drv.posts (drv.post s ce) ces) = _
    rw [ih, hdrv.headPtr_post]

/-- The queue takes the entries in order, as long as there is room. -/
theorem queue_posts (s : σ) (ces : List CE) :
    queue (drv.posts s ces) = queue s ++ ces.take (drv.numEntries - 1 - (queue s).length) := by
  induction ces generalizing s with
  | nil => rw [List.take_nil, List.append_nil]; rfl
  | cons ce ces ih =>
    change queue (drv.posts (drv.post s ce) ces) = _
    rw [ih, hdrv.queue_post]
    by_cases hroom : (queue s).length + 1 < drv.numEntries
    · have hrest : drv.numEntries - 1 - (queue s).length = drv.numEntries - 1 - (queue s ++ [ce]).length + 1 := by
        rw [List.length_append, List.length_singleton]
        omega
      rw [if_pos hroom, hrest, List.take_succ_cons, List.append_assoc, List.singleton_append]
    · have hfull : drv.numEntries - 1 - (queue s).length = 0 := by omega
      rw [if_neg hroom, hfull, List.take_zero, List.take_zero]

/-- An entry at the head stays there. -/
theorem queue_posts_cons {ce : CE} {rest : List CE} (h : queue s = ce :: rest) (ces : List CE) :
    ∃ rest', queue (drv.posts s ces) = ce :: rest' :=
  ⟨_, by rw [queue_posts hdrv, h, List.cons_append]⟩

/-- What is read at the head from before a call of `Reap` that takes one entry is that entry. -/
theorem cqReap_head {ce ce' : CE} {rest : List CE} (hqueue : queue s = ce :: rest) {metrics reap : Stage}
    {peek : List CE} {numCE : Nat} {s1 s3 : σ} (hmetrics : drv.enter metrics s = .ok s1)
    (hreap : drv.cqReap reap numCE s1 = .ok (s3, 1))
    (hpeek : drv.peekCE (drv.headPtr s1) (drv.posts s3 peek) = .ok ce') :
    ce' = ce ∧ ∃ s2 rest2 desire, queue s2 = ce :: rest2 ∧ drv.reap s2 desire = (s3, 1) := by
  obtain ⟨s2, henter, hreap⟩ := Outcomes.bind_eq_ok.1 hreap
  obtain ⟨rest1, hqueue1⟩ := queue_posts_cons hdrv hqueue metrics.posted
  rw [← enter_ok hmetrics] at hqueue1
  obtain ⟨rest2, hqueue2⟩ := queue_posts_cons hdrv hqueue1 reap.posted
  have hhead : drv.headPtr s2 = drv.headPtr s1 := by rw [enter_ok henter, headPtr_posts hdrv]
  rw [← enter_ok henter] at hqueue2
  have hmem := hdrv.mem_reap s2 ce rest2 _ s3 peek hqueue2 (Except.ok.inj hreap)
  rw [peekCE] at hpeek
  split at hpeek
  · refine ⟨?_, s2, rest2, _, hqueue2, Except.ok.inj hreap⟩
    rw [← Except.ok.inj hpeek, ← hmem, hhead]
  · cases hpeek

/-- `RetrieveCE` reads the entry at the head. -/
theorem retrieveCE_ok {ce ce' : CE} {rest : List CE} (hqueue : queue s = ce :: rest) {numCE : Nat}
    (h : drv.retrieveCE course numCE s = .ok ce') : ce' = ce := by
  obtain ⟨s1, hmetrics, h⟩ := Outcomes.bind_eq_ok.1 h
  obtain ⟨⟨s3, numReaped⟩, hreap, h⟩ := Outcomes.bind_eq_ok.1 h
  dsimp only at h
  split at h
  · cases h
  · rename_i hnum
    obtain rfl : numReaped = 1 := not_not.1 hnum
    exact (cqReap_head hdrv hqueue hmetrics hreap h).1

end Queue

/-! ## The bytes of a queue -/

section Serves

variable {cq : CQ} {mem : σ → Nat → BitVec 8}

/-- `peekCE` is the `PeekCE` of the queue. -/
theorem Serves.peekCE_eq (h : drv.Serves cq mem queue) (indexPtr : BitVec 16) (s : σ) :
    drv.peekCE indexPtr.toNat s =
      match cq.peekCE (mem s) indexPtr with
      | some ce => .ok (CE.ofBytes ce)
      | none => .error .noIndex := by
  rw [CQDriver.peekCE, CQ.peekCE, peek_eq h.contig, h.numEntries, h.cells]
  split <;> rfl

/-- Entries of the size of the union are where `PeekCE` looks for them. -/
theorem Serves.lawful (h : drv.Serves cq mem queue) (hentry : cq.mEntrySize = sizeofCE) : drv.Lawful queue where
  inquiry_eq := h.inquiry_eq
  queue_post s ce := by rw [h.queue_post, h.numEntries]
  headPtr_post := h.headPtr_post
  mem_reap s ce rest desire s' ces hqueue hreap := by
    rw [h.cells, ← hentry]
    nth_rewrite 2 [hentry]
    exact h.mem_reap s ce rest desire s' ces hqueue hreap

end Serves

/-! ## Sending and waiting -/

theorem sendCmd_ok {uniqueId : BitVec 16} (h : drv.sendCmd course s = .ok (s', uniqueId)) :
    ∃ s0, drv.inquiry s0 = 0 ∧ s' = drv.posts s0 (course.send.posted ++ course.ring.posted) := by
  obtain ⟨⟨s0, numCE⟩, hinq, h⟩ := Outcomes.bind_eq_ok.1 h
  obtain ⟨s00, -, hinq⟩ := Outcomes.bind_eq_ok.1 hinq
  cases hinq
  dsimp only at h
  split at h
  · cases h
  · rename_i hempty
    obtain ⟨s1, hsend, h⟩ := Outcomes.bind_eq_ok.1 h
    obtain ⟨s2, hring, h⟩ := Outcomes.bind_eq_ok.1 h
    cases h
    exact ⟨s0, not_not.1 hempty, by rw [posts_append, ← enter_ok hsend, enter_ok hring]⟩

/-- The loop ends with what was posted up to then. -/
theorem poll_ok {numTil numCE : Nat} {stages : List Stage} {s : σ}
    (h : drv.poll numTil stages s = .ok (some (s', numCE))) :
    numCE = drv.inquiry s' ∧ ∃ ces, ces <+: (stages.map (·.posted)).flatten ∧ s' = drv.posts s ces := by
  induction stages generalizing s with
  | nil => cases h
  | cons stage stages ih =>
    obtain ⟨⟨s1, numCE1⟩, hinq, h⟩ := Outcomes.bind_eq_ok.1 h
    obtain ⟨s2, henter, hinq⟩ := Outcomes.bind_eq_ok.1 hinq
    cases hinq
    have henter := enter_ok henter
    dsimp only at h
    split at h
    · cases h
      exact ⟨rfl, stage.posted, List.prefix_append _ _, henter⟩
    · obtain ⟨hnum, ces, hces, hs'⟩ := ih h
      refine ⟨hnum, stage.posted ++ ces, (List.prefix_append_right_inj _).2 hces, ?_⟩
      rw [hs', henter, posts_append]

theorem waitForReap_ok {ms numCE : Nat} (h : drv.waitForReap course ms s = .ok (s', numCE)) :
    drv.inquiry s' = 1 ∧ ∃ ces, ces <+: (course.polls.map (·.posted)).flatten ∧ s' = drv.posts s ces := by
  obtain ⟨res, hpoll, h⟩ := Outcomes.bind_eq_ok.1 h
  cases res with
  | none => cases h
  | some res =>
    rw [doReapInquiry] at hpoll
    split at hpoll
    · cases hpoll
    · obtain ⟨hnum, hces⟩ := poll_ok hpoll
      dsimp only at h
      split at h
      · cases h
      · rename_i hone
        cases h
        exact ⟨hnum ▸ not_not.1 hone, hces⟩

/-- The entry that is verified is the first one that was posted since the queue was found empty. -/
theorem sendAndReapCmd_ok (hdrv : drv.Lawful queue) {ms : Nat} {status : List CEStat} {st : CEStat}
    (h : drv.sendAndReapCmd course ms status s = .ok st) :
    ∃ ce, course.awaited.head? = some ce ∧ StatusOf ce status st := by
  obtain ⟨⟨s1, uniqueId⟩, hsend, h⟩ := Outcomes.bind_eq_ok.1 h
  obtain ⟨⟨s2, numCE⟩, hwait, h⟩ := Outcomes.bind_eq_ok.1 h
  obtain ⟨ce', hret, h⟩ := Outcomes.bind_eq_ok.1 h
  obtain ⟨s0, hempty, hs1⟩ := sendCmd_ok hsend
  obtain ⟨hone, ces, hces, hs2⟩ := waitForReap_ok hwait
  rw [hs1, ← posts_append] at hs2
  have hqueue0 : queue s0 = [] := List.length_eq_zero_iff.1 ((hdrv.inquiry_eq s0).symm.trans hempty)
  obtain ⟨ce, hce⟩ := List.length_eq_one_iff.1 ((hdrv.inquiry_eq s2).symm.trans hone)
  have hfirst : [ce] <+: course.send.posted ++ course.ring.posted ++ ces := by
    rw [hs2, queue_posts hdrv, hqueue0, List.nil_append] at hce
    exact hce ▸ List.take_prefix _ _
  refine ⟨ce, ?_, ?_⟩
  · rw [← List.singleton_prefix_iff_head?_eq_some]
    exact hfirst.trans ((List.prefix_append_right_inj _).2 hces)
  · obtain rfl := retrieveCE_ok hdrv hce hret
    cases hver : verifyCE ce' status with
    | error e => rw [hver] at h; cases h
    | ok st' =>
      rw [hver] at h
      cases h
      exact verifyCE_statusOf hver

/-- **The right completion.** In a queue of entries of 16 bytes: if the first entry that the controller posts into it is
the one of the command, `SendAndReapCmd` throws or returns the status of the entry of the command. -/
theorem sendAndReapCmd_own {σ : Type} {drv : CQDriver σ} {cq : CQ} {mem : σ → Nat → BitVec 8} {queue : σ → List CE}
    (hdrv : drv.Serves cq mem queue) (hentry : cq.mEntrySize = sizeofCE) {course : Course} {sqId : BitVec 16}
    (hfirst : ∀ ce ∈ course.awaited.head?, course.Own sqId ce) (ms : Nat) (status : List CEStat) (s : σ) :
    (∃ fault, drv.sendAndReapCmd course ms status s = .error fault) ∨
      ∃ st, drv.sendAndReapCmd course ms status s = .ok st ∧
        ∃ ce ∈ course.posted, course.Own sqId ce ∧ StatusOf ce status st := by
  cases hres : drv.sendAndReapCmd course ms status s with
  | error fault => exact .inl ⟨fault, rfl⟩
  | ok st =>
    obtain ⟨ce, hce, hst⟩ := sendAndReapCmd_ok (hdrv.lawful hentry) hres
    have hmem : ce ∈ course.posted := by
      rw [Course.posted]
      simp only [List.mem_append, List.mem_of_head? hce, true_or]
    exact .inr ⟨st, rfl, ce, hmem, hfirst ce hce, hst⟩

end CQDriver

/-! ## A queue in a ring -/

/-- The slots of a completion queue, which the controller and the driver use in the round. -/
def ringDriver (size : Nat) : CQDriver (RingBuf CE size) where
  numEntries := size
  post := RingBuf.push
  inquiry := RingBuf.count
  headPtr := RingBuf.head
  reap ring desire := (ring.pop desire, min desire ring.count)
  mem := RingBuf.slot

theorem ringDriver_lawful (size : Nat) : (ringDriver size).Lawful RingBuf.toList where
  inquiry_eq ring := ring.length_toList.symm
  queue_post := RingBuf.toList_push
  headPtr_post _ _ := RingBuf.head_push
  mem_reap ring ce rest desire ring' ces hqueue hreap := by
    obtain ⟨rfl, hone⟩ := Prod.mk.inj hreap
    have hcount : 0 < ring.count := by
      rw [← ring.length_toList, hqueue]
      exact Nat.succ_pos _
    have hpop : ring.pop desire = ring.pop 1 := by
      simp only [RingBuf.pop, hone, show min 1 ring.count = 1 by omega]
    rw [hpop]
    exact (ring.slot_pushes_pop ces hcount).trans (RingBuf.slot_head hqueue)

/-- The queue of the ring, with entries of 16 bytes. -/
def ringCQ (size : Nat) : CQ := ⟨⟨1, sizeofCE, size, .mem 4096, none⟩, false, 0⟩

theorem ringDriver_serves (size : Nat) :
    (ringDriver size).Serves (ringCQ size) (fun ring => cells ring.slot) RingBuf.toList where
  contig h := nomatch h
  numEntries := rfl
  cells ring i := by
    rw [entryAt_cells, CE.ofBytes_toBytes]
    rfl
  inquiry_eq := (ringDriver_lawful size).inquiry_eq
  queue_post := (ringDriver_lawful size).queue_post
  headPtr_post := (ringDriver_lawful size).headPtr_post
  mem_reap ring ce rest desire ring' ces hqueue hreap := by
    have hslot := (ringDriver_lawful size).mem_reap ring ce rest desire ring' ces hqueue hreap
    change CE.ofBytes (entryAt (cells _) (_ * sizeofCE) sizeofCE) = ce
    rw [entryAt_cells, CE.ofBytes_toBytes]
    exact hslot

def noPosts : Stage := ⟨[], false⟩

/-- A command with the identifier 1, while this is posted. -/
def courseOf (ces : List CE) : Course := ⟨noPosts, noPosts, 1, noPosts, [⟨ces, false⟩], noPosts, noPosts, []⟩

def emptyRing : RingBuf CE 4 := ⟨fun _ => successCE, 0, 0, by decide, by decide⟩

/-- The completion of the command, and one of another command. -/
def ownCE : CE := { successCE with CID := 1 }

def otherCE : CE := { successCE with CID := 9 }

namespace CQDriver

theorem sendAndReapCmd_own_one :
    ∃ st, (ringDriver 4).sendAndReapCmd (courseOf [ownCE]) 1 [.success] emptyRing = .ok st ∧
      ∃ ce ∈ (courseOf [ownCE]).posted, (courseOf [ownCE]).Own 0 ce ∧ StatusOf ce [.success] st := by
  have hfirst : ∀ ce ∈ (courseOf [ownCE]).awaited.head?, (courseOf [ownCE]).Own 0 ce := by
    intro ce hce
    obtain rfl : ownCE = ce := Option.some.inj hce
    exact ⟨rfl, rfl⟩
  have hok : (ringDriver 4).sendAndReapCmd (courseOf [ownCE]) 1 [.success] emptyRing = .ok .success := rfl
  rcases sendAndReapCmd_own (ringDriver_serves 4) rfl hfirst 1 [.success] emptyRing with ⟨fault, hthrew⟩ | hret
  · rw [hok] at hthrew
    cases hthrew
  · exact hret

/-- Another command completes first: its status comes back. -/
theorem sendAndReapCmd_other : ¬∀ (σ : Type) (drv : CQDriver σ) (cq : CQ) (mem : σ → Nat → BitVec 8)
    (queue : σ → List CE), drv.Serves cq mem queue → cq.mEntrySize = sizeofCE →
    ∀ (course : Course) (sqId : BitVec 16) (ms : Nat) (status : List CEStat) (s : σ),
      (∃ fault, drv.sendAndReapCmd course ms status s = .error fault) ∨
        ∃ st, drv.sendAndReapCmd course ms status s = .ok st ∧
          ∃ ce ∈ course.posted, course.Own sqId ce ∧ StatusOf ce status st := by
  intro h
  have hok : (ringDriver 4).sendAndReapCmd (courseOf [otherCE]) 1 [.success] emptyRing = .ok .success := rfl
  rcases h _ _ _ _ _ (ringDriver_serves 4) rfl (courseOf [otherCE]) 0 1 [.success] emptyRing with
    ⟨fault, hthrew⟩ | ⟨st, -, ce, hce, hown, -⟩
  · rw [hok] at hthrew
    cases hthrew
  · obtain rfl : ce = otherCE := List.mem_singleton.1 hce
    exact absurd hown.1 (by decide)

end CQDriver

end Tnvme
