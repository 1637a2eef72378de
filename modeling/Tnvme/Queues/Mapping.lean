import Tnvme.Meta.Store
import Tnvme.Queues.Queue

/-!
# Mapped memory

Three calls map memory of the kernel: `CQ::Init`, `SQ::Init` and `ReserveMetaBuf` (`MapCall`). One lemma says what they
have in common (`mapStep`): they map at most once, and once they have mapped they neither throw nor forget the pointer.

A failed mapping is never noticed: `mmap(2)` returns `MAP_FAILED`, and the three calls test for `NULL` (`detects_iff`).
-/

namespace Tnvme

/-- The calls that map memory of the kernel. -/
inductive MapCall where
  | cqInit (qId entrySize numEntries : Nat) (irqEnabled : Bool) (irqVec : Nat) (cq : CQ) (log : List Call)
  | sqInit (qId entrySize numEntries cqId : Nat) (sq : SQ) (log : List Call)
  | reserveMetaBuf (metaBuf : MetaDataBuf) (s : MetaRsrc)

/-- The log after a call, whether the call threw, and whether a buffer pointer was recorded. -/
structure MapRet where
  log : List Call
  threw : Bool
  recorded : Bool

def Call.isMmap : Call → Bool
  | .mmap _ _ _ _ => true
  | _ => false

namespace MapCall

/-- The log before the call. -/
def log : MapCall → List Call
  | cqInit _ _ _ _ _ _ log => log
  | sqInit _ _ _ _ _ log => log
  | reserveMetaBuf _ s => s.log

/-- The object that the call maps, if it gets that far. -/
def object : MapCall → MmapRegion × Nat
  | cqInit qId _ _ _ _ _ _ => (.mmrCQ, qId)
  | sqInit qId _ _ _ _ _ => (.mmrSQ, qId)
  | reserveMetaBuf _ s => (.mmrMeta, (SortedKeys.gap MetaDataBuf.ID 0 s.mMetaReserved).1)

def run (drv : Driver) : MapCall → MapRet
  | cqInit qId entrySize numEntries irqEnabled irqVec cq log =>
    let r := cq.init drv qId entrySize numEntries irqEnabled irqVec log
    ⟨r.log, r.threw, r.obj.mContigBuf != cq.mContigBuf⟩
  | sqInit qId entrySize numEntries cqId sq log =>
    let r := sq.init drv qId entrySize numEntries cqId log
    ⟨r.log, r.threw, r.obj.mContigBuf != sq.mContigBuf⟩
  | reserveMetaBuf metaBuf s =>
    let r := s.reserveMetaBuf drv metaBuf
    ⟨r.1.log, r.2.2 == .threw, r.1.mMetaReserved != s.mMetaReserved⟩

/-- The call makes a mapping, with the pointer `buf` as its outcome. -/
def Maps (drv : Driver) (c : MapCall) (region : MmapRegion) (bufID : Nat) (buf : Ptr) : Prop :=
  ∃ bufLength, .mmap bufLength bufID region buf ∈ (c.run drv).log.drop c.log.length

/-- A mapping of the call fails. -/
def MappingFails (drv : Driver) (c : MapCall) : Prop := ∃ region bufID, c.Maps drv region bufID .mapFailed

/-- If the mapping fails, the call throws and records no pointer. -/
def Detects (drv : Driver) (c : MapCall) : Prop :=
  c.MappingFails drv → (c.run drv).threw = true ∧ (c.run drv).recorded = false

end MapCall

/-- What a call of the three can do. -/
inductive MapStep (drv : Driver) (c : MapCall) : Prop
  | unmapped (t : List Call) : (c.run drv).log = c.log ++ t → (∀ e ∈ t, e.isMmap = false) → MapStep drv c
  | mapped (t : List Call) (bufLength : Nat) (buf : Ptr) : (c.run drv).log = c.log ++ t ++
        [.mmap bufLength c.object.2 c.object.1 buf] → (∀ e ∈ t, e.isMmap = false) → buf ≠ .null →
      (c.run drv).threw = false → (c.run drv).recorded = true →
      (c.object.1 = .mmrMeta → c.object.2 < 2 ^ metadataUniqueIdBits) → MapStep drv c

/-! ## `CQ::Init` and `SQ::Init` -/

theorem Queue.init_some {q q' : Queue} {qId entrySize numEntries : Nat}
    (h : q.init qId entrySize numEntries = some q') : q.mContigBuf = .null ∧ q'.mQId = qId := by
  unfold Queue.init at h
  split at h
  · cases h
  · split at h
    · cases h
    · rename_i hnull
      cases h
      exact ⟨not_not.1 hnull, rfl⟩

/-- What an `Init` can do from `log` on; `contigBuf` is the pointer that it may have recorded. -/
inductive InitStep (region : MmapRegion) (qId : Nat) (contigBuf : Ptr) (log log' : List Call) (threw : Bool) : Prop
  | unmapped {t : List Call} : log' = log ++ t → (∀ e ∈ t, e.isMmap = false) →
      InitStep region qId contigBuf log log' threw
  | mapped {t : List Call} {bufLength : Nat} : log' = log ++ t ++ [.mmap bufLength qId region contigBuf] →
      (∀ e ∈ t, e.isMmap = false) → contigBuf ≠ .null → threw = false →
      InitStep region qId contigBuf log log' threw

section InitStep

variable {region : MmapRegion} {qId : Nat} {contigBuf : Ptr} {log log' : List Call} {threw : Bool}

theorem InitStep.refl : InitStep region qId contigBuf log log threw :=
  .unmapped (List.append_nil log).symm (by simp)

/-- Other calls may come first. -/
theorem InitStep.after {t : List Call} (h : InitStep region qId contigBuf (log ++ t) log' threw)
    (ht : ∀ e ∈ t, e.isMmap = false) : InitStep region qId contigBuf log log' threw := by
  have happend : ∀ {t'}, (∀ e ∈ t', Call.isMmap e = false) → ∀ e ∈ t ++ t', e.isMmap = false :=
    fun ht' e he => (List.mem_append.1 he).elim (ht e) (ht' e)
  cases h with
  | unmapped hlog ht' => exact .unmapped (by rw [hlog, List.append_assoc]) (happend ht')
  | mapped hlog ht' hne hthrew => exact .mapped (by rw [hlog, List.append_assoc log]) (happend ht') hne hthrew

theorem InitStep.ioctl {drv : Driver} {req : Ioctl}
    (h : InitStep region qId contigBuf (drv.ioctlLog log req) log' threw) :
    InitStep region qId contigBuf log log' threw := h.after (by simp [Call.isMmap])

theorem InitStep.read (drv : Driver) (reg : Reg)
    (h : InitStep region qId contigBuf (drv.readLog log reg) log' threw) :
    InitStep region qId contigBuf log log' threw := h.after (by simp [Call.isMmap])

end InitStep

variable {drv : Driver}

/-- Before the request that creates a queue at most a register is read. -/
theorem CQ.createReq_log (drv : Driver) (cq : CQ) (log : List Call) :
    ∃ t, (cq.createReq drv log).1 = log ++ t ∧ ∀ e ∈ t, e.isMmap = false := by
  unfold CQ.createReq
  split
  · refine ⟨[.read .ctlspcCsts (drv.read log .ctlspcCsts)], ?_, by simp [Call.isMmap]⟩
    split <;> rfl
  · exact ⟨[], (List.append_nil log).symm, by simp⟩

theorem SQ.createReq_log (drv : Driver) (sq : SQ) (log : List Call) :
    ∃ t, (sq.createReq drv log).1 = log ++ t ∧ ∀ e ∈ t, e.isMmap = false := by
  unfold SQ.createReq
  split
  · refine ⟨[.read .ctlspcCsts (drv.read log .ctlspcCsts)], ?_, by simp [Call.isMmap]⟩
    split <;> rfl
  · exact ⟨[], (List.append_nil log).symm, by simp⟩

theorem CQ.mapQ_step (cq : CQ) (log : List Call) : InitStep .mmrCQ cq.mQId (cq.mapQ drv log).obj.mContigBuf log
    (cq.mapQ drv log).log (cq.mapQ drv log).threw :=
  .mapped (t := []) (by rw [List.append_nil]; rfl) (by simp) (KernelAPI.mmap_ne_null drv _ _ _ _)
    (by simp [CQ.mapQ, KernelAPI.mmap_ne_null])

theorem SQ.mapQ_step (sq : SQ) (log : List Call) : InitStep .mmrSQ sq.mQId (sq.mapQ drv log).obj.mContigBuf log
    (sq.mapQ drv log).log (sq.mapQ drv log).threw :=
  .mapped (t := []) (by rw [List.append_nil]; rfl) (by simp) (KernelAPI.mmap_ne_null drv _ _ _ _)
    (by simp [SQ.mapQ, KernelAPI.mmap_ne_null])

theorem CQ.init_step (drv : Driver) (qId entrySize numEntries : Nat) (irqEnabled : Bool) (irqVec : Nat) (cq : CQ)
    (log : List Call) : InitStep .mmrCQ qId (cq.init drv qId entrySize numEntries irqEnabled irqVec log).obj.mContigBuf
      log (cq.init drv qId entrySize numEntries irqEnabled irqVec log).log
      (cq.init drv qId entrySize numEntries irqEnabled irqVec log).threw := by
  unfold CQ.init
  cases hinit : cq.toQueue.init qId entrySize numEntries with
  | none => exact .refl
  | some q =>
    obtain ⟨_, hqId⟩ := Queue.init_some hinit
    simp only
    split
    · exact .refl
    · obtain ⟨t, hlog, ht⟩ := CQ.createReq_log drv { q with mIrqEnabled := irqEnabled, mIrqVec := irqVec } log
      generalize CQ.createReq drv { q with mIrqEnabled := irqEnabled, mIrqVec := irqVec } log = out at hlog ⊢
      obtain ⟨log', req⟩ := out
      simp only at hlog
      subst hlog
      cases req with
      | none => exact InitStep.refl.after ht
      | some req =>
        simp only
        split
        · exact InitStep.refl.ioctl.after ht
        · exact (hqId ▸ CQ.mapQ_step { q with mIrqEnabled := irqEnabled, mIrqVec := irqVec } _).ioctl.after ht

theorem SQ.init_step (drv : Driver) (qId entrySize numEntries cqId : Nat) (sq : SQ) (log : List Call) :
    InitStep .mmrSQ qId (sq.init drv qId entrySize numEntries cqId log).obj.mContigBuf log
      (sq.init drv qId entrySize numEntries cqId log).log (sq.init drv qId entrySize numEntries cqId log).threw := by
  unfold SQ.init
  simp only
  cases hinit : sq.toQueue.init qId entrySize numEntries with
  | none => exact .refl
  | some q =>
    obtain ⟨_, hqId⟩ := Queue.init_some hinit
    simp only
    split
    · exact .refl
    · cases drv.read log .ctlspcCap with
      | none => exact InitStep.read drv .ctlspcCap .refl
      | some _ =>
        refine InitStep.read drv .ctlspcCap ?_
        simp only
        obtain ⟨t, hlog, ht⟩ := SQ.createReq_log drv { q with mCqId := cqId } (drv.readLog log .ctlspcCap)
        generalize SQ.createReq drv { q with mCqId := cqId } (drv.readLog log .ctlspcCap) = out at hlog ⊢
        obtain ⟨log', req⟩ := out
        simp only at hlog
        subst hlog
        cases req with
        | none => exact InitStep.refl.after ht
        | some req =>
          simp only
          split
          · exact InitStep.refl.ioctl.after ht
          · exact (hqId ▸ SQ.mapQ_step { q with mCqId := cqId } _).ioctl.after ht

/-! ## What the three calls have in common -/

theorem mapStep_reserveMetaBuf (drv : Driver) (metaBuf : MetaDataBuf) (s : MetaRsrc) :
    MapStep drv (.reserveMetaBuf metaBuf s) := by
  have hlog : (MapCall.reserveMetaBuf metaBuf s).log = s.log := rfl
  generalize hID : (SortedKeys.gap MetaDataBuf.ID 0 s.mMetaReserved).1 = ID
  cases hrel : s.mMetaReleased with
  | cons rel released =>
    refine .unmapped [] ?_ (by simp)
    simp [MapCall.run, MetaRsrc.reserveMetaBuf, hrel, hlog]
  | nil =>
    by_cases hrange : ID < 1 <<< metadataUniqueIdBits
    · by_cases hrc : drv.ioctl s.log (.metabufAlloc ID) < 0
      · refine .unmapped [.ioctl (.metabufAlloc ID) (drv.ioctl s.log (.metabufAlloc ID))] ?_ (by simp [Call.isMmap])
        simp [MapCall.run, MetaRsrc.reserveMetaBuf, hrel, hID, hrange, hrc, hlog, Driver.ioctlLog]
      · have hnull := KernelAPI.mmap_ne_null drv (drv.ioctlLog s.log (.metabufAlloc ID)) s.mMetaAllocSize ID .mmrMeta
        refine .mapped [.ioctl (.metabufAlloc ID) (drv.ioctl s.log (.metabufAlloc ID))] s.mMetaAllocSize _ ?_
          (by simp [Call.isMmap]) hnull ?_ ?_ ?_
        · simp only [MapCall.run, MetaRsrc.reserveMetaBuf, hrel, hID, if_pos hrange, if_neg hrc, if_neg hnull, hlog,
            MapCall.object, KernelAPI.mmapLog]
          rfl
        · simp [MapCall.run, MetaRsrc.reserveMetaBuf, hrel, hID, hrange, hrc, hnull]
        · have hne : ∀ m, s.mMetaReserved.insertIdx (SortedKeys.gap MetaDataBuf.ID 0 s.mMetaReserved).2 m ≠
              s.mMetaReserved := by
            intro m heq
            have hlen := congrArg List.length heq
            rw [List.length_insertIdx_of_le_length (SortedKeys.gap_le _ _)] at hlen
            omega
          simp [MapCall.run, MetaRsrc.reserveMetaBuf, hrel, hID, hrange, hrc, hnull, hne]
        · intro _
          rw [Nat.one_shiftLeft] at hrange
          simpa [MapCall.object, hID] using hrange
    · refine .unmapped [] ?_ (by simp)
      simp [MapCall.run, MetaRsrc.reserveMetaBuf, hrel, hID, hrange, hlog]

/-- A queue that has memory refuses another `Init`. -/
theorem Queue.init_of_ne_null {q : Queue} (h : q.mContigBuf ≠ .null) (qId entrySize numEntries : Nat) :
    q.init qId entrySize numEntries = none := by
  unfold Queue.init
  rw [if_pos h]
  exact ite_self none

theorem mapStep (drv : Driver) (c : MapCall) : MapStep drv c := by
  cases c with
  | reserveMetaBuf metaBuf s => exact mapStep_reserveMetaBuf drv metaBuf s
  | cqInit qId entrySize numEntries irqEnabled irqVec cq log =>
    by_cases hnew : cq.mContigBuf = .null
    · cases CQ.init_step drv qId entrySize numEntries irqEnabled irqVec cq log with
      | unmapped hlog ht => exact .unmapped _ hlog ht
      | mapped hlog ht hne hthrew => exact .mapped _ _ _ hlog ht hne hthrew (by simp [MapCall.run, hnew, hne]) nofun
    · refine .unmapped [] ?_ (by simp)
      simp [MapCall.run, MapCall.log, CQ.init, Queue.init_of_ne_null hnew]
  | sqInit qId entrySize numEntries cqId sq log =>
    by_cases hnew : sq.mContigBuf = .null
    · cases SQ.init_step drv qId entrySize numEntries cqId sq log with
      | unmapped hlog ht => exact .unmapped _ hlog ht
      | mapped hlog ht hne hthrew => exact .mapped _ _ _ hlog ht hne hthrew (by simp [MapCall.run, hnew, hne]) nofun
    · refine .unmapped [] ?_ (by simp)
      simp [MapCall.run, MapCall.log, SQ.init, Queue.init_of_ne_null hnew]

/-! ## Failed mappings -/

theorem maps_of_unmapped {c : MapCall} {t : List Call} (hlog : (c.run drv).log = c.log ++ t)
    (ht : ∀ e ∈ t, e.isMmap = false) {region : MmapRegion} {bufID : Nat} {buf : Ptr} :
    ¬c.Maps drv region bufID buf := by
  rintro ⟨bufLength, hmem⟩
  rw [hlog, List.drop_left] at hmem
  exact absurd (ht _ hmem) (by simp [Call.isMmap])

theorem maps_iff_of_mapped {c : MapCall} {t : List Call} {bufLength : Nat} {buf : Ptr}
    (hlog : (c.run drv).log = c.log ++ t ++ [.mmap bufLength c.object.2 c.object.1 buf])
    (ht : ∀ e ∈ t, e.isMmap = false) {region : MmapRegion} {bufID : Nat} {buf' : Ptr} :
    c.Maps drv region bufID buf' ↔ region = c.object.1 ∧ bufID = c.object.2 ∧ buf' = buf := by
  unfold MapCall.Maps
  rw [hlog, List.append_assoc, List.drop_left]
  constructor
  · rintro ⟨len, hmem⟩
    rcases List.mem_append.1 hmem with hmem | hmem
    · exact absurd (ht _ hmem) (by simp [Call.isMmap])
    · cases List.mem_singleton.1 hmem
      exact ⟨rfl, rfl, rfl⟩
  · rintro ⟨rfl, rfl, rfl⟩
    exact ⟨bufLength, List.mem_append_right _ (List.mem_singleton_self _)⟩

/-- A call whose mapping fails returns normally, and has recorded a pointer. -/
theorem recorded_of_mappingFails {c : MapCall} (h : c.MappingFails drv) :
    (c.run drv).threw = false ∧ (c.run drv).recorded = true := by
  obtain ⟨region, bufID, hmaps⟩ := h
  cases mapStep drv c with
  | unmapped t hlog ht => exact absurd hmaps (maps_of_unmapped hlog ht)
  | mapped t bufLength buf hlog ht _ hnot hrec _ => exact ⟨hnot, hrec⟩

/-- **No failed mapping is detected**: a call meets the demand exactly if its mapping does not fail. -/
theorem detects_iff (drv : Driver) (c : MapCall) : c.Detects drv ↔ ¬c.MappingFails drv := by
  refine ⟨fun h hfail => ?_, fun h hfail => absurd hfail h⟩
  obtain ⟨hthrew, _⟩ := h hfail
  obtain ⟨hnot, _⟩ := recorded_of_mappingFails hfail
  rw [hnot] at hthrew
  cases hthrew

/-- A driver that grants everything, with an operating system that maps nothing. -/
def mapNothing : Driver := { MetaRsrc.grantingDriver with mmap := fun _ _ _ => none }

/-- A completion queue whose memory could not be mapped is initialised, and its buffer is `MAP_FAILED`. -/
theorem failed_mapping_recorded :
    ¬(MapCall.cqInit 1 16 2 true 0 ⟨.new, false, 0⟩ []).Detects mapNothing ∧
      ((CQ.init mapNothing 1 16 2 true 0 ⟨.new, false, 0⟩ []).obj.getQBuffer = some .mapFailed) := by
  refine ⟨fun h => ?_, by decide⟩
  have hfail : (MapCall.cqInit 1 16 2 true 0 ⟨.new, false, 0⟩ []).MappingFails mapNothing :=
    ⟨.mmrCQ, 1, 32, by decide⟩
  exact absurd (h hfail).1 (by decide)

end Tnvme
