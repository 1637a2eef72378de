import Tnvme.Queues.Destroy

/-!
# Failed `Init`s

An `Init` that throws should leave the queue as it was (`Atomic`). Two orders in the source break this: a discontiguous
queue takes its memory before dnvme is asked to create it, and an `SQ` records the ID of its completion queue before it
finds that it has memory already. There is no other way (`atomic_iff`).
-/

namespace Tnvme

/-- If the call throws, the buffers are those from before it; if the queue was uninitialised, a valid call later does
what it does on a new queue, and if it was not, the object is unchanged. -/
def QClass.Atomic {α ι : Type} (K : QClass α ι) (i : ι) (a : α) (log : List Call) : Prop :=
  (K.init i a log).threw = true →
    ((K.queue (K.init i a log).obj).mContigBuf = (K.queue a).mContigBuf ∧
      (K.queue (K.init i a log).obj).mDiscontigBuf = (K.queue a).mDiscontigBuf) ∧
    ((K.queue a).Uninit → ∀ i' log', (K.init i' K.new log').threw = false →
      K.init i' (K.init i a log).obj log' = K.init i' K.new log') ∧
    (¬(K.queue a).Uninit → (K.init i a log).obj = a)

/-- The memory has been taken when the request is refused. -/
def QClass.TakenInVain {α ι : Type} (K : QClass α ι) (i : ι) (a : α) (log : List Call) : Prop :=
  (K.queue a).Uninit ∧ K.mem i ≠ .contig ∧ K.records i log ∧ K.rc i log < 0

section Lawful

variable {α ι : Type} {K : QClass α ι} (hK : K.Lawful)

include hK

theorem QClass.atomic_of_uninit {i : ι} {a : α} (h : (K.queue a).Uninit) (log : List Call) :
    K.Atomic i a log ↔ ¬K.TakenInVain i a log := by
  unfold QClass.Atomic QClass.TakenInVain
  cases hK.outcome i a log with
  | refused hini => exact absurd h hini
  | failed t _ hrec hq' =>
    refine iff_of_true (fun _ => ⟨?_, fun _ i' log' _ => hK.retry i' hq' log', fun hini => absurd h hini⟩)
      fun hvain => hrec hvain.2.2.1
    rw [hq'.1, hq'.2, h.1, h.2]
    exact ⟨rfl, rfl⟩
  | mapped t _ _ hmem _ _ _ _ hthrew =>
    refine iff_of_true (fun hthrows => ?_) fun hvain => hvain.2.1 hmem
    rw [hthrew] at hthrows
    cases hthrows
  | taken t b _ hrec hmem _ hsome _ _ hthrew =>
    constructor
    · rintro hatomic ⟨_, _, _, hneg⟩
      have hkept := (hatomic (hthrew.2 hneg)).1.2
      rw [hsome, h.2] at hkept
      cases hkept
    · intro hvain hthrows
      exact absurd ⟨h, by rw [hmem]; nofun, hrec, hthrew.1 hthrows⟩ hvain

omit hK in
/-- An initialised queue refuses the call, so that only its other attributes can change. -/
theorem QClass.atomic_of_not_uninit {i : ι} {a : α} (h : ¬(K.queue a).Uninit) {log : List Call}
    (hthrew : (K.init i a log).threw = true) (hqueue : K.queue (K.init i a log).obj = K.queue a) :
    K.Atomic i a log ↔ (K.init i a log).obj = a := by
  unfold QClass.Atomic
  rw [hqueue]
  exact ⟨fun hatomic => (hatomic hthrew).2.2 h, fun hobj _ => ⟨⟨rfl, rfl⟩, fun hini => absurd hini h, fun _ => hobj⟩⟩

end Lawful

theorem cq_atomic_iff (drv : Driver) (i : CQInit) (cq : CQ) (log : List Call) :
    (cqClass drv).Atomic i cq log ↔ ¬(cqClass drv).TakenInVain i cq log := by
  by_cases h : cq.toQueue.Uninit
  · exact QClass.atomic_of_uninit (cqClass_lawful drv) h log
  · have hrun : (cqClass drv).init i cq log = ⟨cq, log, true⟩ := i.run_of_not_uninit h log
    rw [QClass.atomic_of_not_uninit h (by rw [hrun]) (by rw [hrun]), hrun]
    exact iff_of_true rfl fun hvain => h hvain.1

theorem sq_atomic_iff (drv : Driver) (i : SQInit) (sq : SQ) (log : List Call) :
    (sqClass drv).Atomic i sq log ↔
      ¬(sqClass drv).TakenInVain i sq log ∧ (¬sq.toQueue.Uninit → i.cqId = sq.mCqId) := by
  by_cases h : sq.toQueue.Uninit
  · rw [and_iff_left fun hini => absurd h hini]
    exact QClass.atomic_of_uninit (sqClass_lawful drv) h log
  · have hrun : (sqClass drv).init i sq log = ⟨{ sq with mCqId := i.cqId }, log, true⟩ := i.run_of_not_uninit h log
    rw [QClass.atomic_of_not_uninit h (by rw [hrun]) (by rw [hrun]; rfl), hrun]
    obtain ⟨q, mCqId⟩ := sq
    simp only [SQ.mk.injEq, true_and]
    exact ⟨fun hid => ⟨fun hvain => h hvain.1, fun _ => hid⟩, fun hgood => hgood.2 h⟩

/-- **When a failed `Init` leaves no trace**: unless a discontiguous queue has taken its memory and is then refused, or
an initialised `SQ` is called with another completion queue. -/
theorem atomic_iff (drv : Driver) :
    (∀ (i : CQInit) (cq : CQ) (log : List Call),
      (cqClass drv).Atomic i cq log ↔ ¬(cqClass drv).TakenInVain i cq log) ∧
    ∀ (i : SQInit) (sq : SQ) (log : List Call), (sqClass drv).Atomic i sq log ↔
      ¬(sqClass drv).TakenInVain i sq log ∧ (¬sq.toQueue.Uninit → i.cqId = sq.mCqId) :=
  ⟨cq_atomic_iff drv, sq_atomic_iff drv⟩

/-- A refused discontiguous completion queue keeps the memory; an initialised submission queue takes over the ID of a
call that it refuses. -/
theorem init_leaves_trace :
    ¬(cqClass refuseEverything).Atomic ⟨⟨1, 16, 2, .discontig (some ⟨0, 4096, 4096⟩)⟩, false, 0⟩ .new [] ∧
      ¬(sqClass refuseEverything).Atomic ⟨⟨1, 64, 2, .contig⟩, 7⟩ ⟨⟨1, 64, 2, .mem 4096, none⟩, 1⟩ [] := by
  constructor
  · intro hatomic
    have hkept := (hatomic (by decide)).1.2
    revert hkept
    decide
  · intro hatomic
    have hsame := (hatomic (by decide)).2.2 (by decide)
    revert hsame
    decide

end Tnvme
