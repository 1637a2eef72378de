import Tnvme.Queues.SendAndReap
import Mathlib.Data.List.Perm.Basic

/-!
# Queue pairs of a conforming controller

A submission queue has a completion queue of its own. The controller completes the commands it has been told of, in any
order, and posts nothing else (`IOPair.complete`): an entry is posted only while there is room, and a command waits
until then. What a pair owes, the commands that wait and the entries that have not been reaped, is the same whatever the
controller does (`keeps_posts`).

* `View`: a completion queue that is seen through a driver belongs to a pair. The driver of one pair is such a view, and
  so is the one of a pair among others (`among_view`).
* `takeCE_view`: reaping one entry takes it out of what is owed.
-/

namespace Tnvme

open ProcessCE

/-- A submission queue, and the ring of its completion queue. -/
structure IOPair (size : Nat) where
  sqId : BitVec 16
  /-- The commands that have been sent, before the doorbell is rung. -/
  sent : List (BitVec 16)
  /-- The commands that the controller has been told of and has not completed. -/
  waiting : List (BitVec 16)
  ring : RingBuf CE size
  own : ∀ ce ∈ ring.toList, ce.SQID = sqId ∧ validatePeek ce .success = true

/-- `CALC_TIMEOUT_ms` -/
def calcTimeout (numCmds : Nat) : Nat := if numCmds * 20 > 10000 then numCmds * 20 else 10000

/-- The difference of two values of type `uint32_t`. -/
def sub32 (a b : Nat) : Nat := (a + (2 ^ 32 - b)) % 2 ^ 32

theorem sub32_of_le {a b : Nat} (h : b ≤ a) (ha : a < 2 ^ 32) : sub32 a b = a - b := by
  unfold sub32
  omega

namespace IOPair

variable {size : Nat}

/-- The queues after they have been created. -/
def fresh (sqId : BitVec 16) (hsize : 0 < size) : IOPair size :=
  ⟨sqId, [], [], ⟨fun _ => successCE, 0, 0, hsize, hsize⟩, fun _ hce => by cases hce⟩

def send (p : IOPair size) (uniqueId : BitVec 16) : IOPair size := { p with sent := p.sent ++ [uniqueId] }

def ringDoorbell (p : IOPair size) : IOPair size := { p with sent := [], waiting := p.waiting ++ p.sent }

/-- The entry is the completion of a command that waits, and there is room for it. -/
structure Completes (p : IOPair size) (ce : CE) : Prop where
  own : ce.SQID = p.sqId ∧ validatePeek ce .success = true
  waits : ce.CID ∈ p.waiting
  room : p.ring.count + 1 < size

instance (p : IOPair size) (ce : CE) : Decidable (p.Completes ce) :=
  decidable_of_iff ((ce.SQID = p.sqId ∧ validatePeek ce .success = true) ∧ p.waiting.contains ce.CID = true ∧
      p.ring.count + 1 < size)
    ⟨fun h => ⟨h.1, List.contains_iff_mem.1 h.2.1, h.2.2⟩, fun h => ⟨h.own, List.contains_iff_mem.2 h.waits, h.room⟩⟩

theorem own_push (p : IOPair size) {ce : CE} (hce : ce.SQID = p.sqId ∧ validatePeek ce .success = true) :
    ∀ c ∈ (p.ring.push ce).toList, c.SQID = p.sqId ∧ validatePeek c .success = true := by
  intro c hc
  rw [RingBuf.toList_push] at hc
  split at hc
  · rcases List.mem_append.1 hc with hc | hc
    · exact p.own c hc
    · obtain rfl := List.mem_singleton.1 hc
      exact hce
  · exact p.own c hc

/-- The controller posts an entry. -/
def complete (p : IOPair size) (ce : CE) : IOPair size :=
  if h : p.Completes ce then
    { p with waiting := p.waiting.erase ce.CID, ring := p.ring.push ce, own := p.own_push h.own }
  else p

def reap (p : IOPair size) (desire : Nat) : IOPair size :=
  { p with
    ring := p.ring.pop desire
    own := fun ce hce => p.own ce (List.mem_of_mem_drop (by rwa [RingBuf.toList_pop] at hce)) }

def driver (size : Nat) : CQDriver (IOPair size) where
  numEntries := size
  post := complete
  inquiry p := p.ring.count
  headPtr p := p.ring.head
  reap p desire := (p.reap desire, min desire p.ring.count)
  mem p := p.ring.slot

/-- The commands that have not come back to the test. -/
def owed (p : IOPair size) : List (BitVec 16) := p.ring.toList.map (·.CID) ++ p.waiting

/-- What the controller leaves as it is. -/
structure Keeps (p p' : IOPair size) : Prop where
  sqId : p'.sqId = p.sqId
  sent : p'.sent = p.sent
  owed : p'.owed.Perm p.owed

theorem Keeps.refl (p : IOPair size) : Keeps p p := ⟨rfl, rfl, List.Perm.refl _⟩

theorem Keeps.trans {p q r : IOPair size} (h : Keeps p q) (h' : Keeps q r) : Keeps p r :=
  ⟨h'.sqId.trans h.sqId, h'.sent.trans h.sent, h'.owed.trans h.owed⟩

/-- An entry has been taken out of what is owed. -/
structure Taken (p p' : IOPair size) (ce : CE) : Prop where
  sqId : p'.sqId = p.sqId
  sent : p'.sent = p.sent
  own : ce.SQID = p.sqId ∧ validatePeek ce .success = true
  owed : (ce.CID :: p'.owed).Perm p.owed

theorem Keeps.taken {p q r : IOPair size} {ce : CE} (h : Keeps p q) (h' : Taken q r ce) : Taken p r ce :=
  ⟨h'.sqId.trans h.sqId, h'.sent.trans h.sent, h.sqId ▸ h'.own, h'.owed.trans h.owed⟩

theorem Taken.keeps {p q r : IOPair size} {ce : CE} (h : Taken p q ce) (h' : Keeps q r) : Taken p r ce :=
  ⟨h'.sqId.trans h.sqId, h'.sent.trans h.sent, h.own, (h'.owed.cons _).trans h.owed⟩

/-- A queue that is seen through a driver is the completion queue of a pair. -/
structure View {σ : Type} (drv : CQDriver σ) (pair : σ → IOPair size) : Prop where
  numEntries : drv.numEntries = size
  post : ∀ s ce, pair (drv.post s ce) = (pair s).complete ce
  inquiry : ∀ s, drv.inquiry s = (pair s).ring.count
  headPtr : ∀ s, drv.headPtr s = (pair s).ring.head
  reap : ∀ s desire, pair (drv.reap s desire).1 = (pair s).reap desire
  numReaped : ∀ s desire, (drv.reap s desire).2 = min desire (pair s).ring.count
  mem : ∀ s, drv.mem s = (pair s).ring.slot

theorem driver_view : View (driver size) id := ⟨rfl, fun _ _ => rfl, fun _ => rfl, fun _ => rfl, fun _ _ => rfl,
  fun _ _ => rfl, fun _ => rfl⟩

/-! ## What the controller does -/

theorem complete_of_completes {p : IOPair size} {ce : CE} (h : p.Completes ce) : p.complete ce =
    { p with waiting := p.waiting.erase ce.CID, ring := p.ring.push ce, own := p.own_push h.own } := dif_pos h

theorem complete_of_not {p : IOPair size} {ce : CE} (h : ¬p.Completes ce) : p.complete ce = p := dif_neg h

theorem length_owed (p : IOPair size) : p.owed.length = p.ring.count + p.waiting.length := by
  rw [owed, List.length_append, List.length_map, RingBuf.length_toList]

theorem keeps_complete (p : IOPair size) (ce : CE) : Keeps p (p.complete ce) := by
  by_cases h : p.Completes ce
  · have hroom : p.ring.toList.length + 1 < size := by
      rw [RingBuf.length_toList]
      exact h.room
    rw [complete_of_completes h]
    refine ⟨rfl, rfl, ?_⟩
    rw [owed, owed, RingBuf.toList_push, if_pos hroom, List.map_append, List.append_assoc]
    exact (List.perm_cons_erase h.waits).symm.append_left _
  · rw [complete_of_not h]
    exact .refl p

/-- What the controller does to the ring is to push entries. -/
theorem ring_complete (p : IOPair size) (ce : CE) : ∃ ces, (p.complete ce).ring = p.ring.pushes ces := by
  by_cases h : p.Completes ce
  · exact ⟨[ce], by rw [complete_of_completes h]; rfl⟩
  · exact ⟨[], by rw [complete_of_not h]; rfl⟩

end IOPair

namespace CQDriver

variable {σ : Type} (drv : CQDriver σ)

/-- The state when the time is over. -/
def polled (stages : List Stage) (s : σ) : σ := drv.posts s (stages.map (·.posted)).flatten

/-- Reap a number of entries, one, and read it where the head of the queue was. -/
def takeCE (metrics reap : Stage) (peek : List CE) (numCE : Nat) (s : σ) : Except IOFault (σ × CE) := do
  let s ← drv.enter metrics s
  let headPtr := drv.headPtr s
  let (s, numReaped) ← drv.cqReap reap numCE s
  if numReaped ≠ 1 then .error (.reaped numCE numReaped)
  else
    let s := drv.posts s peek
    let ce ← drv.peekCE headPtr s
    return (s, ce)

variable {drv}

/-- `RetrieveCE` does the same, and the state is not looked at again. -/
theorem retrieveCE_eq (course : Course) (numCE : Nat) (s : σ) : drv.retrieveCE course numCE s =
    (drv.takeCE course.metrics course.reap course.peek numCE s).map (·.2) := by
  rw [retrieveCE, takeCE]
  cases drv.enter course.metrics s with
  | error fault => rfl
  | ok s1 =>
    change (drv.cqReap course.reap numCE s1 >>= _) = (drv.cqReap course.reap numCE s1 >>= _).map _
    cases drv.cqReap course.reap numCE s1 with
    | error fault => rfl
    | ok res =>
      change (if res.2 ≠ 1 then _ else _) = Except.map _ (if res.2 ≠ 1 then _ else _)
      split
      · rfl
      · cases drv.peekCE (drv.headPtr s1) (drv.posts res.1 course.peek) <;> rfl

theorem enter_calm {stage : Stage} (h : stage.fails = false) (s : σ) :
    drv.enter stage s = .ok (drv.posts s stage.posted) := by
  rw [enter, h]
  rfl

/-- What is there in the end is found then, if not before. -/
theorem poll_found {numTil : Nat} {stages : List Stage} {s : σ} (hcalm : ∀ stage ∈ stages, stage.fails = false)
    (hsome : stages ≠ []) (hpos : drv.inquiry (drv.polled stages s) ≠ 0)
    (hnum : numTil ≤ drv.inquiry (drv.polled stages s)) :
    ∃ ces, drv.poll numTil stages s = .ok (some (drv.posts s ces, drv.inquiry (drv.posts s ces))) ∧
      drv.inquiry (drv.posts s ces) ≠ 0 ∧ numTil ≤ drv.inquiry (drv.posts s ces) := by
  induction stages generalizing s with
  | nil => exact absurd rfl hsome
  | cons stage stages ih =>
    have henter : drv.enter stage s = _ := enter_calm (hcalm stage List.mem_cons_self) s
    by_cases hfound : drv.inquiry (drv.posts s stage.posted) ≠ 0 ∧ drv.inquiry (drv.posts s stage.posted) ≥ numTil
    · refine ⟨stage.posted, ?_, hfound⟩
      rw [poll, reapInquiry, henter]
      exact if_pos hfound
    · have hpolled : drv.polled (stage :: stages) s = drv.polled stages (drv.posts s stage.posted) :=
        posts_append s stage.posted _
      rw [hpolled] at hpos hnum
      have hrest : stages ≠ [] := by
        rintro rfl
        exact hfound ⟨hpos, hnum⟩
      obtain ⟨ces, hpoll, hces⟩ := ih (fun st hst => hcalm st (List.mem_cons_of_mem _ hst)) hrest hpos hnum
      refine ⟨stage.posted ++ ces, ?_, by rwa [posts_append]⟩
      rw [posts_append, ← hpoll, poll, reapInquiry, henter]
      exact if_neg hfound

/-- The time is over when there are too few entries all along. -/
theorem poll_over {numTil : Nat} {stages : List Stage} {s : σ} (hcalm : ∀ stage ∈ stages, stage.fails = false)
    (hless : ∀ ces, drv.inquiry (drv.posts s ces) < numTil) : drv.poll numTil stages s = .ok none := by
  induction stages generalizing s with
  | nil => rfl
  | cons stage stages ih =>
    have henter : drv.enter stage s = _ := enter_calm (hcalm stage List.mem_cons_self) s
    have hnot : ¬(drv.inquiry (drv.posts s stage.posted) ≠ 0 ∧ drv.inquiry (drv.posts s stage.posted) ≥ numTil) :=
      fun h => absurd h.2 (Nat.not_le.2 (hless _))
    rw [poll, reapInquiry, henter]
    refine (if_neg hnot).trans (ih (fun st hst => hcalm st (List.mem_cons_of_mem _ hst)) fun ces => ?_)
    rw [← posts_append]
    exact hless _

end CQDriver

namespace IOPair

/-! ## What is seen of a pair -/

section View

variable {size : Nat} {σ : Type} {drv : CQDriver σ} {pair : σ → IOPair size} (hV : View drv pair) {s : σ}
include hV

theorem keeps_posts (s : σ) (ces : List CE) : Keeps (pair s) (pair (drv.posts s ces)) := by
  induction ces generalizing s with
  | nil => exact .refl _
  | cons ce ces ih =>
    have hstep : Keeps (pair s) (pair (drv.post s ce)) := hV.post s ce ▸ keeps_complete _ _
    exact hstep.trans (ih (drv.post s ce))

theorem ring_posts (s : σ) (ces : List CE) : ∃ ces', (pair (drv.posts s ces)).ring = (pair s).ring.pushes ces' := by
  induction ces generalizing s with
  | nil => exact ⟨[], rfl⟩
  | cons ce ces ih =>
    obtain ⟨ces1, h1⟩ := ring_complete (pair s) ce
    obtain ⟨ces2, h2⟩ := ih (drv.post s ce)
    exact ⟨ces1 ++ ces2, by rw [RingBuf.pushes_append, ← h1, ← hV.post, ← h2]; rfl⟩

/-- The entries stay in front. -/
theorem prefix_posts (s : σ) (ces : List CE) : (pair s).ring.toList <+: (pair (drv.posts s ces)).ring.toList := by
  obtain ⟨ces', h⟩ := ring_posts hV s ces
  rw [h]
  exact RingBuf.prefix_pushes _ _

theorem head_posts (s : σ) (ces : List CE) : (pair (drv.posts s ces)).ring.head = (pair s).ring.head := by
  obtain ⟨ces', h⟩ := ring_posts hV s ces
  rw [h, RingBuf.head_pushes]

theorem count_posts (s : σ) (ces : List CE) : (pair s).ring.count ≤ (pair (drv.posts s ces)).ring.count := by
  have h := (prefix_posts hV s ces).length_le
  rwa [RingBuf.length_toList, RingBuf.length_toList] at h

/-- The driver reaps the entry at the head. -/
theorem taken_reap {ce : CE} {rest : List CE} (h : (pair s).ring.toList = ce :: rest) :
    Taken (pair s) (pair (drv.reap s 1).1) ce := by
  have hcount : (pair s).ring.count = rest.length + 1 := by
    rw [← RingBuf.length_toList, h, List.length_cons]
  have hone : min 1 (pair s).ring.count = 1 := by omega
  rw [hV.reap]
  refine ⟨rfl, rfl, (pair s).own ce (h ▸ List.mem_cons_self), ?_⟩
  rw [owed, owed, reap, RingBuf.toList_pop, hone, h]
  exact List.Perm.refl _

/-- What was at the head can still be read. -/
theorem mem_reap (ces : List CE) (h : 0 < (pair s).ring.count) :
    drv.mem (drv.posts (drv.reap s 1).1 ces) (drv.headPtr s) = (pair s).ring.slot (pair s).ring.head := by
  obtain ⟨ces', hring⟩ := ring_posts hV (drv.reap s 1).1 ces
  rw [hV.mem, hV.headPtr, hring, hV.reap]
  exact RingBuf.slot_pushes_pop _ _ h

/-- Reaping an entry takes it out of what is owed. -/
theorem takeCE_view {metrics reap : Stage} (peek : List CE) (hsize : 2 ≤ size) (hmetrics : metrics.fails = false)
    (hreap : reap.fails = false) (hcount : 0 < (pair s).ring.count) :
    ∃ s' ce, drv.takeCE metrics reap peek 1 s = .ok (s', ce) ∧ Taken (pair s) (pair s') ce := by
  obtain ⟨s1, hs1⟩ : ∃ s1, s1 = drv.posts s metrics.posted := ⟨_, rfl⟩
  obtain ⟨s2, hs2⟩ : ∃ s2, s2 = drv.posts s1 reap.posted := ⟨_, rfl⟩
  have hcount2 : 0 < (pair s2).ring.count := by
    rw [hs2, hs1, ← CQDriver.posts_append]
    exact Nat.lt_of_lt_of_le hcount (count_posts hV s _)
  obtain ⟨ce, rest, hlist⟩ : ∃ ce rest, (pair s2).ring.toList = ce :: rest :=
    List.exists_cons_of_length_pos (by rwa [RingBuf.length_toList])
  have hdesire : ¬((1 : Nat) = 0 ∨ 1 > drv.numEntries - 1) := by
    rw [hV.numEntries]
    omega
  have hcq : drv.cqReap reap 1 s1 = .ok (drv.reap s2 1) := by
    rw [CQDriver.cqReap, if_neg hdesire, CQDriver.enter_calm hreap, ← hs2]
    rfl
  have hnum : (drv.reap s2 1).2 = 1 := by
    rw [hV.numReaped]
    omega
  have hhead : drv.headPtr s1 = drv.headPtr s2 := by rw [hs2, hV.headPtr, hV.headPtr, head_posts hV s1]
  have hpeek : drv.peekCE (drv.headPtr s1) (drv.posts (drv.reap s2 1).1 peek) = .ok ce := by
    rw [CQDriver.peekCE, if_pos, hhead, mem_reap hV peek hcount2, RingBuf.slot_head hlist]
    rw [hV.numEntries, hV.headPtr]
    exact (pair s1).ring.head_lt
  refine ⟨drv.posts (drv.reap s2 1).1 peek, ce, ?_, ?_⟩
  · rw [CQDriver.takeCE, CQDriver.enter_calm hmetrics, ← hs1]
    change (drv.cqReap reap 1 s1 >>= _) = _
    rw [hcq]
    change (if _ ≠ 1 then _ else (drv.peekCE _ _ >>= _)) = _
    rw [if_neg (not_not.2 hnum), hpeek]
    rfl
  · have hbefore : Keeps (pair s) (pair s2) := by
      rw [hs2, hs1, ← CQDriver.posts_append]
      exact keeps_posts hV s _
    exact hbefore.taken ((taken_reap hV hlist).keeps (keeps_posts hV _ peek))

end View

/-! ## A controller that posts what it can -/

variable {size : Nat}

/-- There is nothing left that the controller could post. -/
def Settled (p : IOPair size) : Prop := p.waiting = [] ∨ p.ring.count + 1 = size

/-- The completion of a command, which succeeds. -/
def completion (sqId cid : BitVec 16) : CE := { successCE with SQID := sqId, CID := cid }

theorem validatePeek_completion (sqId cid : BitVec 16) : validatePeek (completion sqId cid) .success = true := by
  have hrow : rowMatches (completion sqId cid) .success = rowMatches successCE .success := rfl
  have hmore : (completion sqId cid).M = successCE.M := rfl
  rw [validatePeek, hrow, hmore]
  decide

/-- All that waits is completed in order. -/
def eager (p : IOPair size) : List CE := p.waiting.map (completion p.sqId)

/-- As many entries are in the ring as it can hold. -/
theorem Settled.count_eq {p : IOPair size} (h : p.Settled) : p.ring.count = min p.owed.length (size - 1) := by
  have hcount := p.ring.count_lt
  have hlen := p.length_owed
  rcases h with hnone | hfull
  · rw [hnone, List.length_nil] at hlen
    omega
  · omega

theorem settled_eager {σ : Type} {drv : CQDriver σ} {pair : σ → IOPair size} (hV : View drv pair) (s : σ) :
    (pair (drv.posts s (pair s).eager)).Settled := by
  obtain ⟨cids, hcids⟩ : ∃ cids, cids = (pair s).waiting := ⟨_, rfl⟩
  rw [eager, ← hcids]
  induction cids generalizing s with
  | nil => exact .inl hcids.symm
  | cons cid cids ih =>
    by_cases hroom : (pair s).ring.count + 1 < size
    · have hcompletes : (pair s).Completes (completion (pair s).sqId cid) :=
        ⟨⟨rfl, validatePeek_completion _ _⟩, hcids ▸ List.mem_cons_self, hroom⟩
      have hpair := (hV.post s (completion (pair s).sqId cid)).trans (complete_of_completes hcompletes)
      have hwaiting : cids = (pair (drv.post s (completion (pair s).sqId cid))).waiting := by
        rw [hpair, ← hcids]
        exact (List.erase_cons_head cid cids).symm
      have hsqId : (pair (drv.post s (completion (pair s).sqId cid))).sqId = (pair s).sqId := by rw [hpair]
      have hrest := ih (drv.post s (completion (pair s).sqId cid)) hwaiting
      rwa [hsqId] at hrest
    · -- the ring stays full
      have hcount := count_posts hV s ((cid :: cids).map (completion (pair s).sqId))
      have hlt := (pair (drv.posts s ((cid :: cids).map (completion (pair s).sqId)))).ring.count_lt
      exact .inr (by omega)

end IOPair

/-! ## Many pairs -/

/-- One of many queues. What the controller posts is offered to all of them, and only the queue it is for takes it. -/
def CQDriver.among {ι : Type} [DecidableEq ι] {σ : ι → Type} (drv : ∀ q, CQDriver (σ q)) (q : ι) :
    CQDriver (∀ q, σ q) where
  numEntries := (drv q).numEntries
  post s ce := fun q' => (drv q').post (s q') ce
  inquiry s := (drv q).inquiry (s q)
  headPtr s := (drv q).headPtr (s q)
  reap s desire := (Function.update s q ((drv q).reap (s q) desire).1, ((drv q).reap (s q) desire).2)
  mem s := (drv q).mem (s q)

section Among

variable {ι : Type} [DecidableEq ι] {sizes : ι → Nat}

/-- The completion queue of a pair among others. -/
def pairDriver (sizes : ι → Nat) (q : ι) : CQDriver (∀ q, IOPair (sizes q)) :=
  .among (fun q => IOPair.driver (sizes q)) q

theorem among_view (sizes : ι → Nat) (q : ι) : IOPair.View (pairDriver sizes q) fun s => s q where
  numEntries := rfl
  post _ _ := rfl
  inquiry _ := rfl
  headPtr _ := rfl
  reap _ _ := Function.update_self _ _ _
  numReaped _ _ := rfl
  mem _ := rfl

/-- What is posted keeps each of the pairs. -/
theorem keeps_among (q q' : ι) (s : ∀ q, IOPair (sizes q)) (ces : List CE) :
    (s q').Keeps ((pairDriver sizes q).posts s ces q') :=
  IOPair.keeps_posts (among_view sizes q') s ces

/-- Reaping from one queue keeps the other pairs. -/
theorem keeps_takeCE {q q' : ι} (hne : q' ≠ q) {metrics reap : Stage} {peek : List CE} {numCE : Nat}
    {s s' : ∀ q, IOPair (sizes q)} {ce : CE}
    (h : (pairDriver sizes q).takeCE metrics reap peek numCE s = .ok (s', ce)) : (s q').Keeps (s' q') := by
  obtain ⟨s1, hmetrics, h⟩ := Outcomes.bind_eq_ok.1 h
  obtain ⟨⟨s3, numReaped⟩, hreap, h⟩ := Outcomes.bind_eq_ok.1 h
  obtain ⟨s2, henter, hreap⟩ := Outcomes.bind_eq_ok.1 hreap
  have hbefore : (s q').Keeps (s2 q') := by
    rw [CQDriver.enter_ok henter, CQDriver.enter_ok hmetrics]
    exact (keeps_among q q' _ _).trans (keeps_among q q' _ _)
  have hother : s3 q' = s2 q' := by
    cases hreap
    exact Function.update_of_ne hne _ _
  dsimp only at h
  split at h
  · cases h
  · obtain ⟨ce', -, h⟩ := Outcomes.bind_eq_ok.1 h
    cases h
    exact hbefore.trans (hother ▸ keeps_among q q' s3 peek)

end Among
end Tnvme
