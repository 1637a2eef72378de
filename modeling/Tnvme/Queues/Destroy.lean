import Tnvme.Lib.Runs
import Tnvme.Meta.MetaRsrc
import Tnvme.Queues.Init

/-!
# The end of a queue

`CQ::~CQ` and `SQ::~SQ` ask `GetIsContig` whether there is memory to unmap, and an exception that leaves a destructor
ends the program. The life of a queue is a run of its `Init`s, with other calls between them (`Life`); in it the
destructor completes, and gives back what the queue holds, exactly if one of the `Init`s has given the queue its
memory (`destroyable_iff`).
-/

namespace Tnvme

/-- A destructor that has completed: the log after it, and the shared pointer that the destruction of the members
drops. -/
structure Destroyed where
  log : List Call
  released : Option MemBuffer
  deriving DecidableEq

/-- The cleanup of both classes. `none` is an exception, and with it the end of the program. -/
def Queue.cleanup (q : Queue) (log : List Call) : Option Destroyed :=
  match q.getIsContig with
  | none => none
  | some true => some ⟨KernelAPI.munmapLog log q.mContigBuf q.getQSize, q.mDiscontigBuf⟩
  | some false => some ⟨log, q.mDiscontigBuf⟩

def CQ.dtor (cq : CQ) (log : List Call) : Option Destroyed := cq.toQueue.cleanup log

def SQ.dtor (sq : SQ) (log : List Call) : Option Destroyed := sq.toQueue.cleanup log

/-- The memory that a call maps into user space, or unmaps: its address and length. -/
def Call.mapping : Call → Option (Nat × Nat)
  | .mmap bufLength _ _ (.mem addr) => some (addr, bufLength)
  | _ => none

def Call.unmapping : Call → Option (Nat × Nat)
  | .munmap (.mem addr) bufLength => some (addr, bufLength)
  | _ => none

/-- An object with the log, and the mappings that its own `Init`s have made. -/
structure Life (α : Type) where
  obj : α
  log : List Call
  mapped : List (Nat × Nat)

namespace QClass

variable {α ι : Type} (K : QClass α ι)

def start (log : List Call) : Life α := ⟨K.new, log, []⟩

/-- Other calls, and an `Init`. -/
def step (s : Life α) (l : List Call × ι) : Life α :=
  let r := K.init l.2 s.obj (s.log ++ l.1)
  ⟨r.obj, r.log, s.mapped ++ (r.log.drop (s.log ++ l.1).length).filterMap Call.mapping⟩

/-- The destructor completes. It unmaps exactly the mappings of the object, and drops its memory buffer. -/
def Destroyable (dtor : α → List Call → Option Destroyed) (s : Life α) : Prop :=
  ∃ d, dtor s.obj s.log = some d ∧ (d.log.drop s.log.length).filterMap Call.unmapping = s.mapped ∧
    d.released = (K.queue s.obj).mDiscontigBuf

end QClass

/-! ## The life of a queue -/

/-- A queue has no memory, or a mapping of its size, or a buffer of its caller. -/
inductive Holds (q : Queue) (mapped : List (Nat × Nat)) : Prop
  | nothing : q.Uninit → mapped = [] → Holds q mapped
  | mapping (bufID : Nat) (region : MmapRegion) : q.mContigBuf ≠ .null → q.mDiscontigBuf = none →
      mapped = [Call.mmap q.getQSize bufID region q.mContigBuf].filterMap Call.mapping → Holds q mapped
  | memBuffer (b : MemBuffer) : q.mContigBuf = .null → q.mDiscontigBuf = some b → mapped = [] → Holds q mapped

theorem mappings_nil {t : List Call} (ht : ∀ e ∈ t, e.isMmap = false) : t.filterMap Call.mapping = [] := by
  refine List.filterMap_eq_nil_iff.2 fun e he => ?_
  have := ht e he
  cases e <;> first | rfl | cases this

/-- An unmapping undoes the mapping with its arguments, a failed one included. -/
theorem unmapping_munmap (bufLength bufID : Nat) (region : MmapRegion) (buf : Ptr) :
    Call.unmapping (.munmap buf bufLength) = Call.mapping (.mmap bufLength bufID region buf) := by
  cases buf <;> rfl

theorem Queue.cleanup_of_uninit {q : Queue} (h : q.Uninit) (log : List Call) : q.cleanup log = none := by
  obtain ⟨hnull, hnone⟩ := h
  simp [Queue.cleanup, Queue.getIsContig, hnull, hnone]

theorem Queue.cleanup_of_contig {q : Queue} (hne : q.mContigBuf ≠ .null) (hnone : q.mDiscontigBuf = none)
    (log : List Call) : q.cleanup log = some ⟨KernelAPI.munmapLog log q.mContigBuf q.getQSize, none⟩ := by
  have hcontig : q.getIsContig = some true := by simp [Queue.getIsContig, hne, hnone]
  rw [Queue.cleanup, hcontig, hnone]

theorem Queue.cleanup_of_discontig {q : Queue} {b : MemBuffer} (hnull : q.mContigBuf = .null)
    (hsome : q.mDiscontigBuf = some b) (log : List Call) : q.cleanup log = some ⟨log, some b⟩ := by
  have hcontig : q.getIsContig = some false := by simp [Queue.getIsContig, hnull, hsome]
  rw [Queue.cleanup, hcontig, hsome]

section Outcome

variable {region : MmapRegion} {mem : QMem} {records : Prop} {rc : Int} {q q' : Queue} {log log' : List Call}
  {threw : Bool} (h : InitOutcome region mem records rc q q' log log' threw)

include h

theorem InitOutcome.holds {mapped : List (Nat × Nat)} (hq : Holds q mapped) :
    Holds q' (mapped ++ (log'.drop log.length).filterMap Call.mapping) := by
  have hnil : q.Uninit → mapped = [] := by
    rintro ⟨hnull, hnone⟩
    cases hq with
    | nothing _ hmapped => exact hmapped
    | mapping _ _ hne => exact absurd hnull hne
    | memBuffer b _ hsome => rw [hnone] at hsome; cases hsome
  cases h with
  | refused _ hq' hlog => simpa [hq', hlog] using hq
  | failed t hini _ hq' hlog ht =>
    refine .nothing hq' ?_
    rw [hlog, List.drop_left, mappings_nil ht, hnil hini]
    rfl
  | mapped t hini _ _ hne hnone hlog ht =>
    refine .mapping q'.mQId region hne hnone ?_
    rw [hlog, List.append_assoc, List.drop_left, List.filterMap_append, mappings_nil ht, hnil hini]
    rfl
  | taken t b hini _ _ hnull hsome hlog ht =>
    refine .memBuffer b hnull hsome ?_
    rw [hlog, List.drop_left, mappings_nil ht, hnil hini]
    rfl

/-- Memory that a queue has got it keeps, and it gets memory from a call that gets through. -/
theorem InitOutcome.not_uninit_iff : ¬q'.Uninit ↔ ¬q.Uninit ∨ records := by
  cases h with
  | refused hini hq' => simp [hq', hini]
  | failed t hini hrec hq' => simp [hini, hrec, hq']
  | mapped t hini hrec _ hne => simp [hrec, Queue.Uninit, hne]
  | taken t b hini hrec _ _ hsome => simp [hrec, Queue.Uninit, hsome]

end Outcome

/-- The destructor of an uninitialised queue does not complete; that of any other gives back what the queue holds. -/
theorem QClass.destroyable_of_holds {α ι : Type} {K : QClass α ι} {s : Life α} (hs : Holds (K.queue s.obj) s.mapped) :
    K.Destroyable (fun a => (K.queue a).cleanup) s ↔ ¬(K.queue s.obj).Uninit := by
  unfold QClass.Destroyable
  beta_reduce
  generalize K.queue s.obj = q at hs ⊢
  cases hs with
  | nothing huninit _ => simp [Queue.cleanup_of_uninit huninit, huninit]
  | mapping bufID region hne hnone hmapped =>
    rw [Queue.cleanup_of_contig hne hnone]
    refine iff_of_true ⟨_, rfl, ?_, hnone.symm⟩ fun huninit => hne huninit.1
    rw [hmapped, KernelAPI.munmapLog, List.drop_left, List.filterMap_cons, List.filterMap_cons,
      unmapping_munmap _ bufID region]
    rfl
  | memBuffer b hnull hsome hmapped =>
    rw [Queue.cleanup_of_discontig hnull hsome]
    refine iff_of_true ⟨_, rfl, ?_, hsome.symm⟩ fun huninit => ?_
    · rw [hmapped, List.drop_length]
      rfl
    · rw [huninit.2] at hsome
      cases hsome

section Lawful

variable {α ι : Type} {K : QClass α ι} (hK : K.Lawful)

include hK

theorem QClass.holds_run (log : List Call) (ls : List (List Call × ι)) :
    Holds (K.queue (Runs.run K.step (K.start log) ls).obj) (Runs.run K.step (K.start log) ls).mapped := by
  refine Runs.inv_run (J := fun s : Life α => Holds (K.queue s.obj) s.mapped) (fun s l hs => ?_)
    (.nothing hK.new rfl) ls
  exact (hK.outcome l.2 s.obj (s.log ++ l.1)).holds hs

theorem QClass.destroyable_run_iff (log : List Call) (ls : List (List Call × ι)) :
    K.Destroyable (fun a => (K.queue a).cleanup) (Runs.run K.step (K.start log) ls) ↔
      ∃ x ∈ Runs.steps K.step (K.start log) ls, K.records x.2.2 (x.1.log ++ x.2.1) := by
  rw [QClass.destroyable_of_holds (QClass.holds_run hK log ls)]
  rw [Runs.run_iff_steps (P := fun s => ¬(K.queue s.obj).Uninit)
    (C := fun s l => K.records l.2 (s.log ++ l.1)) (fun s l => ?_) (K.start log) ls]
  · exact or_iff_right (not_not.2 hK.new)
  · exact (hK.outcome l.2 s.obj (s.log ++ l.1)).not_uninit_iff

end Lawful

/-- **When a queue can be destroyed**: exactly when one of its `Init`s got through its checks and, if the queue is
contiguous, was accepted. -/
theorem destroyable_iff (drv : Driver) (log : List Call) :
    (∀ ls : List (List Call × CQInit),
      (cqClass drv).Destroyable CQ.dtor (Runs.run (cqClass drv).step ((cqClass drv).start log) ls) ↔
        ∃ x ∈ Runs.steps (cqClass drv).step ((cqClass drv).start log) ls, x.2.2.Records drv (x.1.log ++ x.2.1)) ∧
    ∀ ls : List (List Call × SQInit),
      (sqClass drv).Destroyable SQ.dtor (Runs.run (sqClass drv).step ((sqClass drv).start log) ls) ↔
        ∃ x ∈ Runs.steps (sqClass drv).step ((sqClass drv).start log) ls, x.2.2.Records drv (x.1.log ++ x.2.1) :=
  ⟨QClass.destroyable_run_iff (cqClass_lawful drv) log, QClass.destroyable_run_iff (sqClass_lawful drv) log⟩

/-- A driver that refuses every request. -/
def refuseEverything : Driver := { MetaRsrc.grantingDriver with ioctl := fun _ _ => -1 }

/-- Neither a queue that was never initialised nor one that dnvme has refused can be destroyed. -/
theorem uninit_not_destroyable :
    ¬(cqClass refuseEverything).Destroyable CQ.dtor ((cqClass refuseEverything).start []) ∧
      ¬(sqClass refuseEverything).Destroyable SQ.dtor (Runs.run (sqClass refuseEverything).step
        ((sqClass refuseEverything).start []) [([], ⟨⟨1, 64, 2, .contig⟩, 1⟩)]) := by
  constructor
  · rintro ⟨d, hd, _⟩
    cases hd
  · rintro ⟨d, hd, _⟩
    cases hd

end Tnvme
