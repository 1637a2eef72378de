import Tnvme.Queues.Mapping

/-!
# The `Init`s of a queue

`CQ::Init` and `SQ::Init` come in two variants: dnvme allocates the memory of a contiguous queue (`CQ.init`,
`SQ.init`), the caller that of a discontiguous one (`CQ.initDiscontig`, `SQ.initDiscontig`). `CQInit` and `SQInit` are
their calls.

An uninitialised queue gets memory exactly if the call gets through its checks, and, if it is contiguous, dnvme accepts
the request (`Records`). A discontiguous queue takes its memory before the request. The two classes have one
description of what a call can do (`InitOutcome`), and with it one description as classes (`QClass.Lawful`).
-/

namespace Tnvme

variable (drv : Driver)

namespace Queue

variable (q : Queue)

/-- The state in which `GetIsContig` throws for want of memory, and in which `Init` goes ahead. -/
def Uninit : Prop := q.mContigBuf = .null ∧ q.mDiscontigBuf = none

instance : Decidable q.Uninit := inferInstanceAs (Decidable (_ ∧ _))

/-- The checks on the memory of a discontiguous queue; `none` is an exception. -/
def checkMem : Option MemBuffer → Option MemBuffer
  | none => none
  | some memBuffer =>
    if q.getIsAdmin then none
    else if memBuffer.bufSize < q.getQSize then none
    else if memBuffer.alignment ≠ drv.pageSize then none
    else some memBuffer

end Queue

/-- The queue takes the memory, and clears it, before it is created in dnvme. -/
def CQ.initDiscontig (qId entrySize numEntries : Nat) (memBuffer : Option MemBuffer) (irqEnabled : Bool) (irqVec : Nat)
    (cq : CQ) (log : List Call) : InitRet CQ :=
  match cq.toQueue.init qId entrySize numEntries with
  | none => ⟨cq, log, true⟩
  | some q =>
    let cq : CQ := { q with mIrqEnabled := irqEnabled, mIrqVec := irqVec }
    if numEntries < 2 then ⟨cq, log, true⟩
    else
      match cq.checkMem drv memBuffer with
      | none => ⟨cq, log, true⟩
      | some memBuffer =>
        let cq : CQ := { cq with mDiscontigBuf := some memBuffer }
        let req := .prepareCQCreation cq.mQId cq.mNumEntries false
        ⟨cq, drv.ioctlLog log req, drv.ioctl log req < 0⟩

def SQ.initDiscontig (qId entrySize numEntries : Nat) (memBuffer : Option MemBuffer) (cqId : Nat) (sq : SQ)
    (log : List Call) : InitRet SQ :=
  let sq := { sq with mCqId := cqId }
  match sq.toQueue.init qId entrySize numEntries with
  | none => ⟨sq, log, true⟩
  | some q =>
    let sq : SQ := { q with mCqId := sq.mCqId }
    if numEntries < 2 then ⟨sq, log, true⟩
    else
      -- the value of CAP only decides on a warning
      match drv.read log .ctlspcCap with
      | none => ⟨sq, drv.readLog log .ctlspcCap, true⟩
      | some _ =>
        let log := drv.readLog log .ctlspcCap
        match sq.checkMem drv memBuffer with
        | none => ⟨sq, log, true⟩
        | some memBuffer =>
          let sq : SQ := { sq with mDiscontigBuf := some memBuffer }
          let req := .prepareSQCreation sq.mQId sq.mCqId sq.mNumEntries false
          ⟨sq, drv.ioctlLog log req, drv.ioctl log req < 0⟩

/-! ## The calls -/

def CQ.new : CQ := ⟨.new, false, 0⟩

def SQ.new : SQ := ⟨.new, 0⟩

/-- Which `Init` is called; a caller may pass a null pointer for the memory. -/
inductive QMem where
  | contig
  | discontig (memBuffer : Option MemBuffer)
  deriving DecidableEq, Repr

def QMem.isContig : QMem → Bool
  | contig => true
  | discontig _ => false

structure InitArgs where
  qId : Nat
  entrySize : Nat
  numEntries : Nat
  mem : QMem
  deriving DecidableEq, Repr

structure CQInit extends InitArgs where
  irqEnabled : Bool
  irqVec : Nat
  deriving DecidableEq, Repr

structure SQInit extends InitArgs where
  cqId : Nat
  deriving DecidableEq, Repr

def CQInit.run (i : CQInit) (cq : CQ) (log : List Call) : InitRet CQ :=
  match i.mem with
  | .contig => cq.init drv i.qId i.entrySize i.numEntries i.irqEnabled i.irqVec log
  | .discontig memBuffer => cq.initDiscontig drv i.qId i.entrySize i.numEntries memBuffer i.irqEnabled i.irqVec log

def SQInit.run (i : SQInit) (sq : SQ) (log : List Call) : InitRet SQ :=
  match i.mem with
  | .contig => sq.init drv i.qId i.entrySize i.numEntries i.cqId log
  | .discontig memBuffer => sq.initDiscontig drv i.qId i.entrySize i.numEntries memBuffer i.cqId log

/-! ## When a call gets through -/

/-- The checks between `Queue::Init` and the request; `log` is the log before the status is read. -/
def InitArgs.Passes (a : InitArgs) (log : List Call) : Prop :=
  2 ≤ a.numEntries ∧ match a.mem with
    | .contig => a.qId = 0 → isStateEnabled drv log = false
    | .discontig memBuffer => ∃ b, memBuffer = some b ∧ a.qId ≠ 0 ∧
        a.entrySize * a.numEntries % 2 ^ 32 ≤ b.bufSize ∧ b.alignment = drv.pageSize

/-- An admin queue is contiguous, and has the status read before its request. -/
def InitArgs.isAdmin (a : InitArgs) : Bool := a.mem.isContig && a.qId == 0

/-- The answer to the request of a call that gets through its checks. -/
def CQInit.rc (i : CQInit) (log : List Call) : Int :=
  if i.isAdmin then drv.ioctl (drv.readLog log .ctlspcCsts) (.createAdmnQ .adminCQ i.numEntries)
  else drv.ioctl log (.prepareCQCreation i.qId i.numEntries i.mem.isContig)

def SQInit.rc (i : SQInit) (log : List Call) : Int :=
  if i.isAdmin then drv.ioctl (drv.readLog log .ctlspcCsts) (.createAdmnQ .adminSQ i.numEntries)
  else drv.ioctl log (.prepareSQCreation i.qId i.cqId i.numEntries i.mem.isContig)

/-- The call gives an uninitialised queue its memory. -/
def CQInit.Records (i : CQInit) (log : List Call) : Prop :=
  i.Passes drv log ∧ (i.mem = .contig → 0 ≤ i.rc drv log)

def SQInit.Records (i : SQInit) (log : List Call) : Prop :=
  (∃ value, drv.read log .ctlspcCap = some value) ∧ i.Passes drv (drv.readLog log .ctlspcCap) ∧
    (i.mem = .contig → 0 ≤ i.rc drv (drv.readLog log .ctlspcCap))

/-! ## What a call can do -/

/-- A queue either refuses an `Init` because it has memory, or stays without, or gets its memory mapped or handed over.
`records` says whether the call gets through, `rc` is the answer to its request. -/
inductive InitOutcome (region : MmapRegion) (mem : QMem) (records : Prop) (rc : Int) (q q' : Queue)
    (log log' : List Call) (threw : Bool) : Prop
  | refused : ¬q.Uninit → q' = q → log' = log → threw = true →
      InitOutcome region mem records rc q q' log log' threw
  | failed (t : List Call) : q.Uninit → ¬records → q'.Uninit → log' = log ++ t → (∀ e ∈ t, e.isMmap = false) →
      threw = true → InitOutcome region mem records rc q q' log log' threw
  | mapped (t : List Call) : q.Uninit → records → mem = .contig → q'.mContigBuf ≠ .null → q'.mDiscontigBuf = none →
      log' = log ++ t ++ [.mmap q'.getQSize q'.mQId region q'.mContigBuf] → (∀ e ∈ t, e.isMmap = false) →
      threw = false → InitOutcome region mem records rc q q' log log' threw
  | taken (t : List Call) (memBuffer : MemBuffer) : q.Uninit → records → mem = .discontig (some memBuffer) →
      q'.mContigBuf = .null → q'.mDiscontigBuf = some memBuffer → log' = log ++ t → (∀ e ∈ t, e.isMmap = false) →
      (threw = true ↔ rc < 0) → InitOutcome region mem records rc q q' log log' threw

variable {drv}

theorem Queue.init_of_uninit {q : Queue} (h : q.Uninit) (qId entrySize numEntries : Nat) :
    q.init qId entrySize numEntries = some ⟨qId, entrySize, numEntries, .null, none⟩ := by
  obtain ⟨hnull, hnone⟩ := h
  simp [Queue.init, hnull, hnone]

theorem Queue.init_of_not_uninit {q : Queue} (h : ¬q.Uninit) (qId entrySize numEntries : Nat) :
    q.init qId entrySize numEntries = none := by
  unfold Queue.init
  split
  · rfl
  · rename_i hnone
    rw [if_pos fun hnull => h ⟨hnull, not_not.1 hnone⟩]

theorem Queue.checkMem_eq_some {q : Queue} {memBuffer : Option MemBuffer} {b : MemBuffer} :
    q.checkMem drv memBuffer = some b ↔
      memBuffer = some b ∧ q.mQId ≠ 0 ∧ q.getQSize ≤ b.bufSize ∧ b.alignment = drv.pageSize := by
  cases memBuffer with
  | none => simp [Queue.checkMem]
  | some b' =>
    simp only [Queue.checkMem, Queue.getIsAdmin, beq_iff_eq, Option.ite_none_left_eq_some, Nat.not_lt, ne_eq, not_not,
      Option.some.injEq]
    constructor
    · rintro ⟨hadmin, hsize, halign, rfl⟩
      exact ⟨rfl, hadmin, hsize, halign⟩
    · rintro ⟨rfl, hadmin, hsize, halign⟩
      exact ⟨hadmin, hsize, halign, rfl⟩

theorem Queue.uninit_mk (qId entrySize numEntries : Nat) : Queue.Uninit ⟨qId, entrySize, numEntries, .null, none⟩ :=
  ⟨rfl, rfl⟩

theorem CQ.uninit_new : CQ.new.toQueue.Uninit := ⟨rfl, rfl⟩

theorem SQ.uninit_new : SQ.new.toQueue.Uninit := ⟨rfl, rfl⟩

/-- What an accepted discontiguous queue is left with. -/
theorem CQ.initDiscontig_accepted {qId entrySize numEntries irqVec : Nat} {memBuffer : Option MemBuffer}
    {irqEnabled : Bool} {cq : CQ} {log : List Call}
    (h : (cq.initDiscontig drv qId entrySize numEntries memBuffer irqEnabled irqVec log).threw = false) :
    ∃ b, Queue.checkMem drv ⟨qId, entrySize, numEntries, .null, none⟩ memBuffer = some b ∧ 2 ≤ numEntries ∧
      (cq.initDiscontig drv qId entrySize numEntries memBuffer irqEnabled irqVec log).obj =
        ⟨⟨qId, entrySize, numEntries, .null, some b⟩, irqEnabled, irqVec⟩ := by
  by_cases hu : cq.toQueue.Uninit
  · by_cases hn : numEntries < 2
    · simp only [CQ.initDiscontig, Queue.init_of_uninit hu, if_pos hn, Bool.true_eq_false] at h
    · simp only [CQ.initDiscontig, Queue.init_of_uninit hu, if_neg hn] at h ⊢
      cases hmem : Queue.checkMem drv ⟨qId, entrySize, numEntries, .null, none⟩ memBuffer with
      | none => simp only [hmem, Bool.true_eq_false] at h
      | some b => exact ⟨b, rfl, Nat.le_of_not_lt hn, rfl⟩
  · simp only [CQ.initDiscontig, Queue.init_of_not_uninit hu, Bool.true_eq_false] at h

theorem SQ.initDiscontig_accepted {qId entrySize numEntries cqId : Nat} {memBuffer : Option MemBuffer} {sq : SQ}
    {log : List Call} (h : (sq.initDiscontig drv qId entrySize numEntries memBuffer cqId log).threw = false) :
    ∃ b, Queue.checkMem drv ⟨qId, entrySize, numEntries, .null, none⟩ memBuffer = some b ∧ 2 ≤ numEntries ∧
      (sq.initDiscontig drv qId entrySize numEntries memBuffer cqId log).obj =
        ⟨⟨qId, entrySize, numEntries, .null, some b⟩, cqId⟩ := by
  by_cases hu : sq.toQueue.Uninit
  · by_cases hn : numEntries < 2
    · simp only [SQ.initDiscontig, Queue.init_of_uninit hu, if_pos hn, Bool.true_eq_false] at h
    · simp only [SQ.initDiscontig, Queue.init_of_uninit hu, if_neg hn] at h ⊢
      cases hcap : drv.read log .ctlspcCap with
      | none => simp only [hcap, Bool.true_eq_false] at h
      | some value =>
        simp only [hcap] at h ⊢
        cases hmem : Queue.checkMem drv ⟨qId, entrySize, numEntries, .null, none⟩ memBuffer with
        | none => simp only [hmem, Bool.true_eq_false] at h
        | some b => exact ⟨b, rfl, Nat.le_of_not_lt hn, rfl⟩
  · simp only [SQ.initDiscontig, Queue.init_of_not_uninit hu, Bool.true_eq_false] at h

/-- Whatever an uninitialised queue has kept of earlier calls, it is overwritten. -/
theorem CQInit.run_of_uninit (i : CQInit) {cq : CQ} (h : cq.toQueue.Uninit) (log : List Call) :
    i.run drv cq log = i.run drv .new log := by
  simp only [CQInit.run, CQ.init, CQ.initDiscontig, Queue.init_of_uninit h, Queue.init_of_uninit CQ.uninit_new]

theorem SQInit.run_of_uninit (i : SQInit) {sq : SQ} (h : sq.toQueue.Uninit) (log : List Call) :
    i.run drv sq log = i.run drv .new log := by
  simp only [SQInit.run, SQ.init, SQ.initDiscontig, Queue.init_of_uninit h, Queue.init_of_uninit SQ.uninit_new]

theorem CQInit.run_of_not_uninit (i : CQInit) {cq : CQ} (h : ¬cq.toQueue.Uninit) (log : List Call) :
    i.run drv cq log = ⟨cq, log, true⟩ := by
  unfold CQInit.run CQ.init CQ.initDiscontig
  rw [Queue.init_of_not_uninit h]
  cases i.mem <;> rfl

/-- The new completion queue's ID is recorded before the queue refuses the call. -/
theorem SQInit.run_of_not_uninit (i : SQInit) {sq : SQ} (h : ¬sq.toQueue.Uninit) (log : List Call) :
    i.run drv sq log = ⟨{ sq with mCqId := i.cqId }, log, true⟩ := by
  unfold SQInit.run SQ.init SQ.initDiscontig
  simp only [Queue.init_of_not_uninit h]
  cases i.mem <;> rfl

section InitOutcome

variable {region : MmapRegion} {mem : QMem} {records : Prop} {rc : Int} {q q₁ q' : Queue} {log t log' : List Call}
  {threw : Bool}

/-- Other calls may come first. -/
theorem InitOutcome.after (h : InitOutcome region mem records rc q q' (log ++ t) log' threw) (hq : q.Uninit)
    (ht : ∀ e ∈ t, e.isMmap = false) : InitOutcome region mem records rc q q' log log' threw := by
  have happend : ∀ {t'}, (∀ e ∈ t', Call.isMmap e = false) → ∀ e ∈ t ++ t', e.isMmap = false :=
    fun ht' e he => (List.mem_append.1 he).elim (ht e) (ht' e)
  cases h with
  | refused hini => exact absurd hq hini
  | failed t' _ hrec hq' hlog ht' hthrew =>
    exact .failed _ hq hrec hq' (by rw [hlog, List.append_assoc]) (happend ht') hthrew
  | mapped t' _ hrec hmem hne hnone hlog ht' hthrew =>
    exact .mapped _ hq hrec hmem hne hnone (by rw [hlog, List.append_assoc log]) (happend ht') hthrew
  | taken t' b _ hrec hmem hnull hsome hlog ht' hthrew =>
    exact .taken _ b hq hrec hmem hnull hsome (by rw [hlog, List.append_assoc]) (happend ht') hthrew

theorem InitOutcome.afterRead (drv : Driver) (reg : Reg)
    (h : InitOutcome region mem records rc q q' (drv.readLog log reg) log' threw) (hq : q.Uninit) :
    InitOutcome region mem records rc q q' log log' threw := h.after hq (by simp [Call.isMmap])

/-- A call only makes the log longer. -/
theorem InitOutcome.longer (h : InitOutcome region mem records rc q q' log log' threw) : ∃ t, log' = log ++ t := by
  cases h with
  | refused _ _ hlog _ => exact ⟨[], by rw [hlog, List.append_nil]⟩
  | failed t _ _ _ hlog _ _ => exact ⟨t, hlog⟩
  | mapped t _ _ _ _ _ hlog _ _ => exact ⟨_, by rw [hlog, List.append_assoc]⟩
  | taken t _ _ _ _ _ _ hlog _ _ => exact ⟨t, hlog⟩

/-- When an uninitialised queue is initialised without an exception. -/
theorem InitOutcome.threw_iff (h : InitOutcome region mem records rc q q' log log' threw) (hq : q.Uninit) :
    threw = false ↔ records ∧ (mem ≠ .contig → 0 ≤ rc) := by
  cases h with
  | refused hini => exact absurd hq hini
  | failed _ _ hno _ _ _ hthrew => exact iff_of_false (by simp [hthrew]) fun hrec => hno hrec.1
  | mapped _ _ hrec hmem _ _ _ _ hthrew => exact iff_of_true hthrew ⟨hrec, fun hne => absurd hmem hne⟩
  | taken _ b _ hrec hmem _ _ _ _ hthrew =>
    rw [← Bool.not_eq_true, hthrew, Int.not_lt, and_iff_right hrec]
    exact ⟨fun hrc _ => hrc, fun hrc => hrc (by rw [hmem]; nofun)⟩

/-- An `Init` that throws before its request. -/
theorem InitOutcome.fails (hq : q.Uninit) (hq' : q'.Uninit) (hrec : ¬records) :
    InitOutcome region mem records rc q q' log log true :=
  .failed [] hq hrec hq' (List.append_nil log).symm (by simp) rfl

/-- The answer to the request of a contiguous queue: refused, or accepted, with a mapping after it. -/
theorem InitOutcome.request {req : Ioctl} (hq : q.Uninit) (hq₁ : q₁.Uninit) (hrc : drv.ioctl log req = rc)
    (hrec : records ↔ 0 ≤ rc)
    (h : drv.ioctl log req < 0 ∧ q' = q₁ ∧ log' = drv.ioctlLog log req ∧ threw = true ∨
      0 ≤ drv.ioctl log req ∧
        q' = { q₁ with mContigBuf := KernelAPI.mmap drv (drv.ioctlLog log req) q₁.getQSize q₁.mQId region } ∧
        log' = KernelAPI.mmapLog drv (drv.ioctlLog log req) q₁.getQSize q₁.mQId region ∧ threw = false) :
    InitOutcome region .contig records rc q q' log log' threw := by
  subst hrc
  have ht : ∀ e ∈ [Call.ioctl req (drv.ioctl log req)], e.isMmap = false := by simp [Call.isMmap]
  rcases h with ⟨hneg, rfl, rfl, rfl⟩ | ⟨hpos, rfl, rfl, rfl⟩
  · refine .failed _ hq (fun h => ?_) hq₁ rfl ht rfl
    exact absurd (hrec.1 h) (Int.not_le.2 hneg)
  · exact .mapped _ hq (hrec.2 hpos) rfl (KernelAPI.mmap_ne_null drv _ _ _ _) hq₁.2 rfl ht rfl

/-- A discontiguous queue that has taken its memory: whatever the answer to its request is, it keeps it. -/
theorem InitOutcome.handOver {req : Ioctl} {b : MemBuffer} (hq : q.Uninit) (hq₁ : q₁.Uninit)
    (hrc : drv.ioctl log req = rc) (hrec : records) : InitOutcome region (.discontig (some b)) records rc q
      { q₁ with mDiscontigBuf := some b } log (drv.ioctlLog log req) (drv.ioctl log req < 0) :=
  .taken [.ioctl req (drv.ioctl log req)] b hq hrec rfl hq₁.1 rfl rfl (by simp [Call.isMmap])
    (by rw [hrc, decide_eq_true_iff])

end InitOutcome

/-- The request of a contiguous queue fails for an enabled controller, or is the one that `rc` answers. -/
theorem CQ.createReq_cases (drv : Driver) {i : CQInit} (hmem : i.mem = .contig) (cq : CQ) (hqId : cq.mQId = i.qId)
    (hnum : cq.mNumEntries = i.numEntries) (log : List Call) : ∃ t, (∀ e ∈ t, e.isMmap = false) ∧
      (cq.createReq drv log = (log ++ t, none) ∧ ¬(i.qId = 0 → isStateEnabled drv log = false) ∨
        ∃ req, cq.createReq drv log = (log ++ t, some req) ∧ (i.qId = 0 → isStateEnabled drv log = false) ∧
          drv.ioctl (log ++ t) req = i.rc drv log) := by
  unfold CQ.createReq Queue.getIsAdmin CQInit.rc InitArgs.isAdmin
  rw [hqId, hnum, hmem]
  by_cases hadmin : i.qId = 0
  · refine ⟨[.read .ctlspcCsts (drv.read log .ctlspcCsts)], by simp [Call.isMmap], ?_⟩
    cases hen : isStateEnabled drv log with
    | true => exact .inl ⟨by simp [hadmin, Driver.readLog], by simp [hadmin]⟩
    | false =>
      exact .inr ⟨.createAdmnQ .adminCQ i.numEntries, by simp [hadmin, Driver.readLog], fun _ => rfl,
        by simp [hadmin, QMem.isContig, Driver.readLog]⟩
  · refine ⟨[], by simp, .inr ⟨.prepareCQCreation i.qId i.numEntries true, ?_, fun h => absurd h hadmin, ?_⟩⟩
    · simp [hadmin]
    · simp [hadmin, QMem.isContig]

theorem SQ.createReq_cases (drv : Driver) {i : SQInit} (hmem : i.mem = .contig) (sq : SQ) (hqId : sq.mQId = i.qId)
    (hcqId : sq.mCqId = i.cqId) (hnum : sq.mNumEntries = i.numEntries) (log : List Call) :
    ∃ t, (∀ e ∈ t, e.isMmap = false) ∧
      (sq.createReq drv log = (log ++ t, none) ∧ ¬(i.qId = 0 → isStateEnabled drv log = false) ∨
        ∃ req, sq.createReq drv log = (log ++ t, some req) ∧ (i.qId = 0 → isStateEnabled drv log = false) ∧
          drv.ioctl (log ++ t) req = i.rc drv log) := by
  unfold SQ.createReq Queue.getIsAdmin SQInit.rc InitArgs.isAdmin
  rw [hqId, hcqId, hnum, hmem]
  by_cases hadmin : i.qId = 0
  · refine ⟨[.read .ctlspcCsts (drv.read log .ctlspcCsts)], by simp [Call.isMmap], ?_⟩
    cases hen : isStateEnabled drv log with
    | true => exact .inl ⟨by simp [hadmin, Driver.readLog], by simp [hadmin]⟩
    | false =>
      exact .inr ⟨.createAdmnQ .adminSQ i.numEntries, by simp [hadmin, Driver.readLog], fun _ => rfl,
        by simp [hadmin, QMem.isContig, Driver.readLog]⟩
  · refine ⟨[], by simp, .inr ⟨.prepareSQCreation i.qId i.cqId i.numEntries true, ?_, fun h => absurd h hadmin, ?_⟩⟩
    · simp [hadmin]
    · simp [hadmin, QMem.isContig]

/-- A contiguous `Init` of an uninitialised queue. -/
theorem CQInit.outcome_contig {i : CQInit} (hmem : i.mem = .contig) {cq : CQ} (h : cq.toQueue.Uninit)
    (log : List Call) : InitOutcome .mmrCQ .contig (i.Records drv log) (i.rc drv log) cq.toQueue
      (i.run drv cq log).obj.toQueue log (i.run drv cq log).log (i.run drv cq log).threw := by
  unfold CQInit.run CQ.init CQInit.Records InitArgs.Passes
  simp only [hmem, Queue.init_of_uninit h]
  by_cases hn : i.numEntries < 2
  · rw [if_pos hn]
    exact .fails h (Queue.uninit_mk ..) fun hrec => by omega
  rw [if_neg hn]
  obtain ⟨t, ht, ⟨hreq, hen⟩ | ⟨req, hreq, hen, hrc⟩⟩ := CQ.createReq_cases drv hmem
    ⟨⟨i.qId, i.entrySize, i.numEntries, .null, none⟩, i.irqEnabled, i.irqVec⟩ rfl rfl log
  · rw [hreq]
    exact .after (.fails h (Queue.uninit_mk ..) fun hrec => hen hrec.1.2) h ht
  · have hrec : (2 ≤ i.numEntries ∧ (i.qId = 0 → isStateEnabled drv log = false)) ∧
        (True → 0 ≤ i.rc drv log) ↔ 0 ≤ i.rc drv log :=
      ⟨fun hrec => hrec.2 trivial, fun hrc => ⟨⟨Nat.le_of_not_lt hn, hen⟩, fun _ => hrc⟩⟩
    rw [hreq]
    refine .after (.request h (Queue.uninit_mk i.qId i.entrySize i.numEntries) hrc hrec ?_) h ht
    dsimp only
    split
    · exact .inl ⟨‹_›, rfl, rfl, rfl⟩
    · exact .inr ⟨Int.not_lt.1 ‹_›, rfl, rfl, by simp [CQ.mapQ, KernelAPI.mmap_ne_null]⟩

theorem SQInit.outcome_contig {i : SQInit} (hmem : i.mem = .contig) {sq : SQ} (h : sq.toQueue.Uninit)
    (log : List Call) : InitOutcome .mmrSQ .contig (i.Records drv log) (i.rc drv (drv.readLog log .ctlspcCap))
      sq.toQueue (i.run drv sq log).obj.toQueue log (i.run drv sq log).log (i.run drv sq log).threw := by
  unfold SQInit.run SQ.init SQInit.Records InitArgs.Passes
  simp only [hmem, Queue.init_of_uninit h]
  by_cases hn : i.numEntries < 2
  · rw [if_pos hn]
    exact .fails h (Queue.uninit_mk ..) fun hrec => by omega
  rw [if_neg hn]
  refine InitOutcome.afterRead drv .ctlspcCap ?_ h
  cases hcap : drv.read log .ctlspcCap with
  | none => exact .fails h (Queue.uninit_mk ..) (by simp)
  | some value =>
    obtain ⟨t, ht, ⟨hreq, hen⟩ | ⟨req, hreq, hen, hrc⟩⟩ := SQ.createReq_cases drv hmem
      ⟨⟨i.qId, i.entrySize, i.numEntries, .null, none⟩, i.cqId⟩ rfl rfl rfl (drv.readLog log .ctlspcCap)
    · simp only [hreq]
      exact .after (.fails h (Queue.uninit_mk ..) fun hrec => hen hrec.2.1.2) h ht
    · have hrec : (∃ v, some value = some v) ∧
          (2 ≤ i.numEntries ∧ (i.qId = 0 → isStateEnabled drv (drv.readLog log .ctlspcCap) = false)) ∧
            (True → 0 ≤ i.rc drv (drv.readLog log .ctlspcCap)) ↔ 0 ≤ i.rc drv (drv.readLog log .ctlspcCap) :=
        ⟨fun hrec => hrec.2.2 trivial, fun hrc => ⟨⟨value, rfl⟩, ⟨Nat.le_of_not_lt hn, hen⟩, fun _ => hrc⟩⟩
      simp only [hreq]
      refine .after (.request h (Queue.uninit_mk i.qId i.entrySize i.numEntries) hrc hrec ?_) h ht
      dsimp only
      split
      · exact .inl ⟨‹_›, rfl, rfl, rfl⟩
      · exact .inr ⟨Int.not_lt.1 ‹_›, rfl, rfl, by simp [SQ.mapQ, KernelAPI.mmap_ne_null]⟩

/-- The checks of a discontiguous `Init`, after the entries have been counted. -/
theorem InitArgs.passes_discontig {a : InitArgs} {memBuffer : Option MemBuffer} (hmem : a.mem = .discontig memBuffer)
    (hn : ¬a.numEntries < 2) (log : List Call) : a.Passes drv log ↔
      ∃ b, Queue.checkMem drv ⟨a.qId, a.entrySize, a.numEntries, .null, none⟩ memBuffer = some b := by
  unfold InitArgs.Passes
  simp only [hmem, Queue.checkMem_eq_some, Queue.getQSize, Nat.le_of_not_lt hn, true_and]

theorem CQInit.outcome_discontig {i : CQInit} {memBuffer : Option MemBuffer} (hmem : i.mem = .discontig memBuffer)
    {cq : CQ} (h : cq.toQueue.Uninit) (log : List Call) :
    InitOutcome .mmrCQ i.mem (i.Records drv log) (i.rc drv log) cq.toQueue
      (i.run drv cq log).obj.toQueue log (i.run drv cq log).log (i.run drv cq log).threw := by
  have hrec : i.Records drv log ↔ i.Passes drv log := by simp [CQInit.Records, hmem]
  unfold CQInit.run CQ.initDiscontig
  simp only [hmem, Queue.init_of_uninit h]
  by_cases hn : i.numEntries < 2
  · rw [if_pos hn]
    exact .fails h (Queue.uninit_mk ..) fun hpass => by have := (hrec.1 hpass).1; omega
  rw [if_neg hn]
  rw [InitArgs.passes_discontig hmem hn] at hrec
  cases hcheck : Queue.checkMem drv ⟨i.qId, i.entrySize, i.numEntries, .null, none⟩ memBuffer with
  | none => exact .fails h (Queue.uninit_mk ..) (by simp [hrec, hcheck])
  | some b =>
    obtain ⟨rfl, hqId, _⟩ := Queue.checkMem_eq_some.1 hcheck
    refine .handOver h (Queue.uninit_mk i.qId i.entrySize i.numEntries) ?_ (hrec.2 ⟨b, hcheck⟩)
    simp [CQInit.rc, InitArgs.isAdmin, hmem, QMem.isContig]

theorem SQInit.outcome_discontig {i : SQInit} {memBuffer : Option MemBuffer} (hmem : i.mem = .discontig memBuffer)
    {sq : SQ} (h : sq.toQueue.Uninit) (log : List Call) :
    InitOutcome .mmrSQ i.mem (i.Records drv log) (i.rc drv (drv.readLog log .ctlspcCap)) sq.toQueue
      (i.run drv sq log).obj.toQueue log (i.run drv sq log).log (i.run drv sq log).threw := by
  have hrec : i.Records drv log ↔
      (∃ value, drv.read log .ctlspcCap = some value) ∧ i.Passes drv (drv.readLog log .ctlspcCap) := by
    simp [SQInit.Records, hmem]
  unfold SQInit.run SQ.initDiscontig
  simp only [hmem, Queue.init_of_uninit h]
  by_cases hn : i.numEntries < 2
  · rw [if_pos hn]
    exact .fails h (Queue.uninit_mk ..) fun hpass => by have := (hrec.1 hpass).2.1; omega
  rw [if_neg hn]
  rw [InitArgs.passes_discontig hmem hn] at hrec
  refine InitOutcome.afterRead drv .ctlspcCap ?_ h
  cases hcap : drv.read log .ctlspcCap with
  | none => exact .fails h (Queue.uninit_mk ..) (by simp [hrec, hcap])
  | some value =>
    dsimp only
    cases hcheck : Queue.checkMem drv ⟨i.qId, i.entrySize, i.numEntries, .null, none⟩ memBuffer with
    | none => exact .fails h (Queue.uninit_mk ..) (by simp [hrec, hcheck])
    | some b =>
      obtain ⟨rfl, hqId, _⟩ := Queue.checkMem_eq_some.1 hcheck
      refine .handOver h (Queue.uninit_mk i.qId i.entrySize i.numEntries) ?_
        (hrec.2 ⟨⟨value, hcap⟩, b, hcheck⟩)
      simp [SQInit.rc, InitArgs.isAdmin, hmem, QMem.isContig]

theorem CQInit.outcome (i : CQInit) (cq : CQ) (log : List Call) :
    InitOutcome .mmrCQ i.mem (i.Records drv log) (i.rc drv log) cq.toQueue (i.run drv cq log).obj.toQueue log
      (i.run drv cq log).log (i.run drv cq log).threw := by
  by_cases h : cq.toQueue.Uninit
  · cases hmem : i.mem with
    | contig => exact outcome_contig hmem h log
    | discontig memBuffer => exact hmem ▸ outcome_discontig hmem h log
  · rw [i.run_of_not_uninit h]
    exact .refused h rfl rfl rfl

theorem SQInit.outcome (i : SQInit) (sq : SQ) (log : List Call) :
    InitOutcome .mmrSQ i.mem (i.Records drv log) (i.rc drv (drv.readLog log .ctlspcCap)) sq.toQueue
      (i.run drv sq log).obj.toQueue log (i.run drv sq log).log (i.run drv sq log).threw := by
  by_cases h : sq.toQueue.Uninit
  · cases hmem : i.mem with
    | contig => exact outcome_contig hmem h log
    | discontig memBuffer => exact hmem ▸ outcome_discontig hmem h log
  · rw [i.run_of_not_uninit h]
    exact .refused h rfl rfl rfl

/-! ## The two classes -/

/-- A class of queues: its part `Queue`, and what `InitOutcome` says of its `Init`s. -/
structure QClass (α ι : Type) where
  new : α
  queue : α → Queue
  region : MmapRegion
  mem : ι → QMem
  init : ι → α → List Call → InitRet α
  records : ι → List Call → Prop
  rc : ι → List Call → Int

def cqClass (drv : Driver) : QClass CQ CQInit :=
  ⟨.new, CQ.toQueue, .mmrCQ, (·.mem), CQInit.run drv, CQInit.Records drv, CQInit.rc drv⟩

def sqClass (drv : Driver) : QClass SQ SQInit :=
  ⟨.new, SQ.toQueue, .mmrSQ, (·.mem), SQInit.run drv, SQInit.Records drv,
    fun i log => i.rc drv (drv.readLog log .ctlspcCap)⟩

/-- What the proofs about both classes rest on. -/
structure QClass.Lawful {α ι : Type} (K : QClass α ι) : Prop where
  new : (K.queue K.new).Uninit
  outcome (i : ι) (a : α) (log : List Call) : InitOutcome K.region (K.mem i) (K.records i log) (K.rc i log) (K.queue a)
    (K.queue (K.init i a log).obj) log (K.init i a log).log (K.init i a log).threw
  retry (i : ι) {a : α} (h : (K.queue a).Uninit) (log : List Call) : K.init i a log = K.init i K.new log

/-- The `Init` of a new queue succeeds: it gets its memory, and its request is accepted. -/
def QClass.Succeeds {α ι : Type} (K : QClass α ι) (i : ι) (log : List Call) : Prop :=
  K.records i log ∧ (K.mem i ≠ .contig → 0 ≤ K.rc i log)

theorem QClass.Lawful.threw_iff {α ι : Type} {K : QClass α ι} (hK : K.Lawful) (i : ι) (log : List Call) :
    (K.init i K.new log).threw = false ↔ K.Succeeds i log :=
  (hK.outcome i K.new log).threw_iff hK.new

theorem cqClass_lawful (drv : Driver) : (cqClass drv).Lawful := ⟨CQ.uninit_new, CQInit.outcome, CQInit.run_of_uninit⟩

theorem sqClass_lawful (drv : Driver) : (sqClass drv).Lawful := ⟨SQ.uninit_new, SQInit.outcome, SQInit.run_of_uninit⟩

end Tnvme
