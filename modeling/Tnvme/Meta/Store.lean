import Tnvme.Lib.Runs
import Tnvme.Meta.Invariant

/-!
# The store over whole runs

Any sequence of operations keeps the lists in order and the IDs apart, and `FreeAllMetaBuf` always ends. The sizes are
another matter: with the alloc size at 0 a buffer of size 0 can be reserved, as the failed mapping goes unnoticed, and
after that a size is still granted. `storeInv_run_iff` says that this is the only way to break the invariant.
-/

namespace Tnvme.MetaRsrc

open SortedKeys

inductive StoreOp where
  | setMetaAllocSize (allocSize : Nat)
  | reserveMetaBuf (metaBuf : MetaDataBuf)
  | releaseMetaBuf (metaBuf : MetaDataBuf)
  | freeAllMetaBuf
  deriving DecidableEq, Repr

/-- The turns that the loop of `freeAllMetaBuf` gets: one for each reserved buffer, and one to see that none is left. -/
def turns (s : MetaRsrc) : Nat := s.mMetaReserved.length + 1

/-- One operation; an operation that does not end leaves the store as it is. -/
def step (drv : Driver) (s : MetaRsrc) : StoreOp → MetaRsrc
  | .setMetaAllocSize allocSize => (s.setMetaAllocSize drv allocSize).1
  | .reserveMetaBuf metaBuf => (s.reserveMetaBuf drv metaBuf).1
  | .releaseMetaBuf metaBuf => s.releaseMetaBuf metaBuf
  | .freeAllMetaBuf =>
    match s.freeAllMetaBuf drv s.turns with
    | some (s, _) => s
    | none => s

/-- The lists are in order, the IDs are different and in range, and the sizes are the alloc size. -/
structure StoreInv (s : MetaRsrc) : Prop where
  sorted : s.mMetaReserved.Pairwise fun a b => a.ID < b.ID
  nodup : ((s.mMetaReserved ++ s.mMetaReleased).map (·.ID)).Nodup
  range : ∀ b ∈ s.mMetaReserved ++ s.mMetaReleased, b.ID < 2 ^ metadataUniqueIdBits
  size : ∀ b ∈ s.mMetaReserved ++ s.mMetaReleased, b.size = s.mMetaAllocSize

/-- `FreeAllMetaBuf` ends without an exception and with both lists empty, and has asked for the deletion of each ID
once. -/
def FreesAll (drv : Driver) (s : MetaRsrc) : Prop :=
  ∃ s' t, s.freeAllMetaBuf drv s.turns = some (s', false) ∧ s'.mMetaReserved = [] ∧ s'.mMetaReleased = [] ∧
    s'.log = s.log ++ t ∧ (deletes t).Perm ((s.mMetaReserved ++ s.mMetaReleased).map (·.ID))

/-- What is asked of one operation, apart from the invariant. -/
def StepOk (drv : Driver) (s : MetaRsrc) (op : StoreOp) : Prop := op = .freeAllMetaBuf → FreesAll drv s

/-- The operation does not grant a size other than 0 while the alloc size is 0 and the store has a buffer. -/
def KeepsSize (drv : Driver) (s : MetaRsrc) (op : StoreOp) : Prop :=
  ∀ allocSize, op = .setMetaAllocSize allocSize → allocSize ≠ 0 → grants drv s allocSize = true → s.bufs = []

variable {drv : Driver} {s : MetaRsrc}

theorem step_freeAll (drv : Driver) (h : s.Wf) :
    FreesAll drv s ∧ (step drv s .freeAllMetaBuf).mMetaReserved = [] ∧
      (step drv s .freeAllMetaBuf).mMetaReleased = [] ∧ (step drv s .freeAllMetaBuf).mMetaAllocSize = 0 ∧
      ∃ t, (step drv s .freeAllMetaBuf).log = s.log ++ t := by
  obtain ⟨s', t, hs', hres, hrel, hsize, hlog, hdel⟩ :=
    freeAllMetaBuf_spec drv h (Nat.lt_succ_self s.mMetaReserved.length)
  have hstep : step drv s .freeAllMetaBuf = s' := by simp only [step, turns, hs']
  exact ⟨⟨s', t, hs', hres, hrel, hlog, hdel⟩, hstep ▸ hres, hstep ▸ hrel, hstep ▸ hsize, t, hstep ▸ hlog⟩

theorem wf_step (op : StoreOp) (h : s.Wf) : (step drv s op).Wf := by
  cases op with
  | setMetaAllocSize allocSize =>
    obtain ⟨hres, hrel, _⟩ := setMetaAllocSize_cases drv s allocSize
    exact h.congr hres hrel
  | reserveMetaBuf metaBuf => exact wf_reserveMetaBuf h (reserveMetaBuf_step drv metaBuf s)
  | releaseMetaBuf metaBuf => exact wf_releaseMetaBuf h metaBuf
  | freeAllMetaBuf =>
    obtain ⟨_, hres, hrel, _⟩ := step_freeAll drv h
    exact wf_init.congr hres hrel

theorem setMetaAllocSize_log (drv : Driver) (allocSize : Nat) (s : MetaRsrc) :
    ∃ t, (s.setMetaAllocSize drv allocSize).1.log = s.log ++ t := by
  have hsame := longer_refl s.log
  unfold setMetaAllocSize
  split
  · exact hsame
  · split
    · exact hsame
    · split
      · exact hsame
      · simp only
        split <;> exact ⟨_, rfl⟩

theorem reserveMetaBuf_log (drv : Driver) (metaBuf : MetaDataBuf) (s : MetaRsrc) :
    ∃ t, (s.reserveMetaBuf drv metaBuf).1.log = s.log ++ t := by
  have hsame := longer_refl s.log
  unfold reserveMetaBuf
  cases s.mMetaReleased with
  | cons rel released => exact hsame
  | nil =>
    simp only
    split
    · split
      · exact ⟨_, rfl⟩
      · rw [if_neg (KernelAPI.mmap_ne_null drv _ _ _ _)]
        exact ⟨_, List.append_assoc _ _ _⟩
    · exact hsame

/-- Every operation only makes the log longer. -/
theorem step_log (drv : Driver) (h : s.Wf) (op : StoreOp) : ∃ t, (step drv s op).log = s.log ++ t := by
  cases op with
  | setMetaAllocSize allocSize => exact setMetaAllocSize_log drv allocSize s
  | reserveMetaBuf metaBuf => exact reserveMetaBuf_log drv metaBuf s
  | releaseMetaBuf metaBuf =>
    rw [step, releaseMetaBuf_log]
    exact longer_refl s.log
  | freeAllMetaBuf => exact (step_freeAll drv h).2.2.2.2

/-! ## The sizes -/

/-- All buffers have the alloc size. -/
def SizeOk (s : MetaRsrc) : Prop := ∀ b ∈ s.bufs, b.size = s.mMetaAllocSize

/-- In a well-formed store only the sizes are in question. -/
theorem storeInv_iff (h : s.Wf) : s.StoreInv ↔ s.SizeOk :=
  ⟨fun hi => hi.size, fun hs => ⟨h.sorted, h.nodup, h.range, hs⟩⟩

theorem sizeOk_setMetaAllocSize_iff (h : s.SizeOk) (allocSize : Nat) :
    (s.setMetaAllocSize drv allocSize).1.SizeOk ↔ (allocSize ≠ 0 → grants drv s allocSize = true → s.bufs = []) := by
  obtain ⟨hres, hrel, hnew⟩ := setMetaAllocSize_cases drv s allocSize
  have hzero : grants drv s allocSize = true → s.mMetaAllocSize = 0 := by
    intro hg
    simp only [grants, Bool.and_eq_true, beq_iff_eq] at hg
    exact hg.1.1
  rw [SizeOk, show (s.setMetaAllocSize drv allocSize).1.bufs = s.bufs by rw [bufs, bufs, hres, hrel], hnew]
  constructor
  · intro hall hne hg
    -- a buffer would have the old size 0 and the new size
    refine List.eq_nil_iff_forall_not_mem.2 fun b hb => hne ?_
    have hb' := hall b hb
    rw [if_pos hg] at hb'
    rw [← hb', h b hb, hzero hg]
  · intro hk b hb
    by_cases hg : grants drv s allocSize = true
    · by_cases hne : allocSize = 0
      · rw [if_pos hg, hne, h b hb, hzero hg]
      · rw [hk hne hg] at hb
        cases hb
    · rw [if_neg hg]
      exact h b hb

theorem ReserveStep.sizeOk {metaBuf metaBuf' : MetaDataBuf} {s' : MetaRsrc} {r : Reserve} (h : s.SizeOk)
    (hstep : ReserveStep metaBuf s s' metaBuf' r) : s'.SizeOk := by
  intro b hb
  cases hstep with
  | reused hrel hs' =>
    subst hs'
    have hmem : metaBuf' ∈ s.bufs := by simp [bufs, hrel]
    rcases List.mem_append.1 hb with hb | hb
    · rcases (List.mem_insertIdx (place_le _ _)).1 hb with rfl | hb
      · exact h b hmem
      · exact h b (List.mem_append_left _ hb)
    · exact h b (List.mem_append_right _ (by rw [hrel]; exact List.mem_cons_of_mem _ hb))
  | fresh _ _ _ hm hs' =>
    subst hs'
    rcases List.mem_append.1 hb with hb | hb
    · rcases (List.mem_insertIdx (gap_le _ _)).1 hb with rfl | hb
      · rw [hm]
      · exact h b (List.mem_append_left _ hb)
    · exact h b (List.mem_append_right _ hb)
  | failed _ _ _ hs' => subst hs'; exact h b hb

theorem sizeOk_releaseMetaBuf (h : s.SizeOk) (metaBuf : MetaDataBuf) : (s.releaseMetaBuf metaBuf).SizeOk := by
  intro b hb
  have hb' := h b ((bufs_releaseMetaBuf metaBuf s).mem_iff.1 hb)
  rcases releaseMetaBuf_cases metaBuf s with ⟨he, _⟩ | ⟨_, _, _, _, _, _, he⟩ <;> simpa [he] using hb'

/-- **The sizes are kept exactly by the operations that do not set one under the buffers.** -/
theorem storeInv_step_iff (op : StoreOp) (h : s.Wf) (hs : s.StoreInv) :
    (step drv s op).StoreInv ↔ KeepsSize drv s op := by
  rw [storeInv_iff (wf_step op h)]
  have hsize := (storeInv_iff h).1 hs
  cases op with
  | setMetaAllocSize allocSize =>
    refine (sizeOk_setMetaAllocSize_iff hsize allocSize).trans ⟨?_, fun hk => hk allocSize rfl⟩
    rintro hk _ ⟨rfl⟩
    exact hk
  | reserveMetaBuf metaBuf => exact iff_of_true ((reserveMetaBuf_step drv metaBuf s).sizeOk hsize) nofun
  | releaseMetaBuf metaBuf => exact iff_of_true (sizeOk_releaseMetaBuf hsize metaBuf) nofun
  | freeAllMetaBuf =>
    refine iff_of_true (fun b hb => ?_) nofun
    obtain ⟨_, hres, hrel, _⟩ := step_freeAll drv h
    rw [bufs, hres, hrel] at hb
    cases hb

theorem storeInv_init : init.StoreInv where
  sorted := List.Pairwise.nil
  nodup := List.Pairwise.nil
  range := by simp [init]
  size := by simp [init]

/-- **A run keeps the store in order exactly as long as it sets no size under the buffers.** -/
theorem storeInv_run_iff (drv : Driver) (ops : List StoreOp) :
    (∀ x ∈ Runs.steps (step drv) init ops, StepOk drv x.1 x.2 ∧ (step drv x.1 x.2).StoreInv) ↔
      ∀ x ∈ Runs.steps (step drv) init ops, KeepsSize drv x.1 x.2 := by
  refine Runs.good_run_iff (fun s op => wf_step op) (fun s op hwf hs => ?_) wf_init storeInv_init ops
  rw [storeInv_step_iff op hwf hs]
  refine and_iff_right fun hop => ?_
  exact (step_freeAll drv hwf).1

/-- A driver that grants everything, with an operating system that maps nothing of length 0. -/
def grantingDriver : Driver where
  ioctl := fun _ _ => 0
  mmap := fun _ bufLength offset => if bufLength = 0 then none else some offset
  read := fun _ _ => some 0
  write := fun _ _ _ => true
  dump := fun _ _ => true
  pageSize := 4096
  pageSize_pos := by decide

/-- A buffer that is reserved before the alloc size is set stays behind with the size 0. -/
theorem size_set_under_buffer :
    ¬∀ x ∈ Runs.steps (step grantingDriver) init [.reserveMetaBuf .default, .setMetaAllocSize 512],
      StepOk grantingDriver x.1 x.2 ∧ (step grantingDriver x.1 x.2).StoreInv := by
  intro h
  have hrun := Runs.run_of_steps storeInv_init fun x hx => (h x hx).2
  have hb : (⟨.mapFailed, 0, 0⟩ : MetaDataBuf) ∈
      (Runs.run (step grantingDriver) init [.reserveMetaBuf .default, .setMetaAllocSize 512]).mMetaReserved := by decide
  exact absurd (hrun.size _ (List.mem_append_left _ hb)) (by decide)

end Tnvme.MetaRsrc
