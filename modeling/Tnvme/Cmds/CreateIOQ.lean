import Tnvme.Cmds.Cmd
import Tnvme.Meta.Store
import Tnvme.Queues.IOQueue

/-!
# The commands that create I/O queues

`CreateIOCQ::Init` and `CreateIOSQ::Init` take a queue object, and write its values into the dwords 10 and 11 of the
command. What is left of these dwords from before is kept only where the NVMe layout has reserved bits.

`createIOQ_encodes` decodes the dwords again. The number of elements minus one has 16 bits there. The vector is that of
the queue when its interrupts are enabled and the scheme has more than one vector; otherwise it is zero, as required.
-/

namespace Tnvme

open Fields

/-- A command that creates a queue: its buffer, and what `PrpData` has of another one. -/
structure CreateQCmd where
  cmdBuf : Cmd
  mBufRO : Ptr
  /-- A buffer that may be written to has been associated. -/
  mBufRW : Bool
  deriving DecidableEq, Repr

namespace CreateQCmd

/-- As the constructor leaves it. -/
def Fresh (cmd : CreateQCmd) : Prop := cmd.mBufRO = .null ∧ cmd.mBufRW = false

/-- The direction of the data and the fields for the PRPs are right in these commands; `none` is an exception. -/
def setPrpBuffer (memBuffer : Ptr) (bufSize : Nat) (cmd : CreateQCmd) : Option CreateQCmd :=
  if cmd.mBufRW then none
  else if bufSize = 0 then none
  else if memBuffer = .null then none
  else if cmd.mBufRO ≠ .null then none
  else some { cmd with mBufRO := memBuffer }

/-- The buffer of a queue. -/
def setQBuffer (q : Queue) (cmd : CreateQCmd) : Option CreateQCmd := do
  let buf ← q.getQBuffer
  cmd.setPrpBuffer buf q.getQSize

end CreateQCmd

/-- "Handle DWORD 10", the same for both commands. -/
def Queue.handleDword10 (q : Queue) (c : Cmd) : Option Cmd := do
  let dword10 ← c.getDword 10
  let dword10 := dword10 &&& ~~~0xffff0000#32 ||| (BitVec.ofNat 32 q.mNumEntries - 1#32) <<< 16
  let dword10 := dword10 &&& ~~~0x0000ffff#32 ||| (BitVec.ofNat 16 q.mQId).setWidth 32
  c.setDword dword10 10

/-- "Handle the PC bit" -/
def Queue.handlePC (contig : Bool) (dword11 : BitVec 32) : BitVec 32 :=
  if contig then dword11 ||| 0x00000001#32 else dword11 &&& ~~~0x00000001#32

variable (drv : Driver) (info : DeviceInfo)

namespace CreateIOCQ

/-- "Handle DWORD 11", with the log after the scheme has been asked for. -/
def handleDword11 (iocq : CQ) (c : Cmd) (log : List Call) : List Call × Option Cmd :=
  match c.getDword 11, iocq.getIsContig with
  | some dword11, some contig =>
    let dword11 := Queue.handlePC contig dword11
    if iocq.mIrqEnabled then
      let dword11 := (dword11 ||| 0x00000002#32) &&& ~~~0xffff0000#32
      match CtrlrConfig.getIrqScheme drv log info with
      | (log, some .msiMulti) | (log, some .msix) =>
        (log, c.setDword (dword11 ||| (BitVec.ofNat 16 iocq.mIrqVec).setWidth 32 <<< 16) 11)
      | (log, some .msiSingle) | (log, some .none) => (log, c.setDword dword11 11)
      | (log, _) => (log, none)
    else (log, c.setDword (dword11 &&& ~~~0x00000002#32 &&& ~~~0xffff0000#32) 11)
  | _, _ => (log, none)

/-- The dwords. When the second one cannot be formed, the first one has been written. -/
def initDwords (iocq : CQ) (cmd : CreateQCmd) (log : List Call) : InitRet CreateQCmd :=
  match iocq.handleDword10 cmd.cmdBuf with
  | none => ⟨cmd, log, true⟩
  | some c =>
    match handleDword11 drv info iocq c log with
    | (log, none) => ⟨{ cmd with cmdBuf := c }, log, true⟩
    | (log, some c) => ⟨{ cmd with cmdBuf := c }, log, false⟩

/-- `CreateIOCQ::Init` for a command as it is. -/
def initOn (iocq : CQ) (cmd : CreateQCmd) (log : List Call) : InitRet CreateQCmd :=
  match cmd.setQBuffer iocq.toQueue with
  | none => ⟨cmd, log, true⟩
  | some cmd => initDwords drv info iocq cmd log

/-- `CreateIOCQ::InitInvalidPrpOffset` leaves the buffer to the caller. -/
def initInvalidPrpOffset (iocq : CQ) (cmd : CreateQCmd) (log : List Call) : InitRet CreateQCmd :=
  initDwords drv info iocq cmd log

end CreateIOCQ

namespace CreateIOSQ

def handleDword11 (iosq : IOSQ) (c : Cmd) : Option Cmd := do
  let dword11 ← c.getDword 11
  let contig ← iosq.getIsContig
  let dword11 := Queue.handlePC contig dword11
  let dword11 := dword11 &&& ~~~0x00000006#32 ||| (BitVec.ofNat 8 iosq.mPriority).setWidth 32 <<< 1
  let dword11 := dword11 &&& ~~~0xffff0000#32 ||| (BitVec.ofNat 16 iosq.mCqId).setWidth 32 <<< 16
  c.setDword dword11 11

def initOn (iosq : IOSQ) (cmd : CreateQCmd) (log : List Call) : InitRet CreateQCmd :=
  match cmd.setQBuffer iosq.toQueue with
  | none => ⟨cmd, log, true⟩
  | some cmd =>
    match iosq.handleDword10 cmd.cmdBuf with
    | none => ⟨cmd, log, true⟩
    | some c =>
      match handleDword11 iosq c with
      | none => ⟨{ cmd with cmdBuf := c }, log, true⟩
      | some c => ⟨{ cmd with cmdBuf := c }, log, false⟩

end CreateIOSQ

/-! ## The NVMe layout -/

/-- What a command says about the queue it creates. -/
structure CreateIOCQFields where
  numEntries : Nat
  qId : Nat
  pc : Bool
  ien : Bool
  iv : Nat
  deriving DecidableEq, Repr

structure CreateIOSQFields where
  numEntries : Nat
  qId : Nat
  pc : Bool
  qprio : Nat
  cqId : Nat
  deriving DecidableEq, Repr

/-- The size is 0's based. -/
def CreateIOCQFields.decode (c : Cmd) : CreateIOCQFields :=
  ⟨(get (32 * 10 + 16) 16 c).toNat + 1, (get (32 * 10) 16 c).toNat, get (32 * 11) 1 c == 1#1,
    get (32 * 11 + 1) 1 c == 1#1, (get (32 * 11 + 16) 16 c).toNat⟩

def CreateIOSQFields.decode (c : Cmd) : CreateIOSQFields :=
  ⟨(get (32 * 10 + 16) 16 c).toNat + 1, (get (32 * 10) 16 c).toNat, get (32 * 11) 1 c == 1#1,
    (get (32 * 11 + 1) 2 c).toNat, (get (32 * 11 + 16) 16 c).toNat⟩

/-! ## Queues that have been initialised -/

/-- Some `Init` of the class has returned, and left this object. The arguments have their types. -/
def IOCQ.Accepted (iocq : CQ) : Prop :=
  ∃ (drv : Driver) (info : DeviceInfo) (qId numEntries irqVec : Nat) (irqEnabled : Bool) (mem : QMem) (cq : CQ)
    (log : List Call), qId < 2 ^ 16 ∧ numEntries < 2 ^ 32 ∧ irqVec < 2 ^ 16 ∧
    let ret := match mem with
      | .contig => IOCQ.init drv info qId numEntries irqEnabled irqVec cq log
      | .discontig memBuffer => IOCQ.initDiscontig drv info qId numEntries memBuffer irqEnabled irqVec cq log
    ret.threw = false ∧ ret.obj = iocq

def IOSQ.Accepted (iosq : IOSQ) : Prop :=
  ∃ (drv : Driver) (info : DeviceInfo) (qId numEntries cqId priority : Nat) (mem : QMem) (sq : IOSQ) (log : List Call),
    qId < 2 ^ 16 ∧ numEntries < 2 ^ 32 ∧ cqId < 2 ^ 16 ∧
    let ret := match mem with
      | .contig => IOSQ.init drv info qId numEntries cqId priority sq log
      | .discontig memBuffer => IOSQ.initDiscontig drv info qId numEntries memBuffer cqId priority sq log
    ret.threw = false ∧ ret.obj = iosq

/-- What an `Init` that returns leaves in the object. -/
structure Queue.Took (q : Queue) (qId numEntries : Nat) : Prop where
  qId_eq : q.mQId = qId
  numEntries_eq : q.mNumEntries = numEntries
  two_le : 2 ≤ numEntries

section Took

variable {drv} {qId entrySize numEntries : Nat} {log : List Call}

theorem CQ.init_took {irqEnabled : Bool} {irqVec : Nat} {cq : CQ}
    (h : (cq.init drv qId entrySize numEntries irqEnabled irqVec log).threw = false) :
    (cq.init drv qId entrySize numEntries irqEnabled irqVec log).obj.toQueue.Took qId numEntries ∧
      (cq.init drv qId entrySize numEntries irqEnabled irqVec log).obj.mIrqVec = irqVec := by
  by_cases hu : cq.toQueue.Uninit
  · by_cases hn : numEntries < 2
    · simp only [CQ.init, Queue.init_of_uninit hu, if_pos hn, Bool.true_eq_false] at h
    · simp only [CQ.init, Queue.init_of_uninit hu, if_neg hn] at h ⊢
      generalize CQ.createReq drv _ log = out at h ⊢
      obtain ⟨log', req⟩ := out
      cases req with
      | none => cases h
      | some req =>
        dsimp only at h ⊢
        split at h
        · cases h
        next hrc =>
          rw [if_neg hrc]
          exact ⟨⟨rfl, rfl, Nat.le_of_not_lt hn⟩, rfl⟩
  · simp only [CQ.init, Queue.init_of_not_uninit hu, Bool.true_eq_false] at h

theorem CQ.initDiscontig_took {memBuffer : Option MemBuffer} {irqEnabled : Bool} {irqVec : Nat} {cq : CQ}
    (h : (cq.initDiscontig drv qId entrySize numEntries memBuffer irqEnabled irqVec log).threw = false) :
    (cq.initDiscontig drv qId entrySize numEntries memBuffer irqEnabled irqVec log).obj.toQueue.Took qId numEntries ∧
      (cq.initDiscontig drv qId entrySize numEntries memBuffer irqEnabled irqVec log).obj.mIrqVec = irqVec := by
  obtain ⟨b, -, hn, hobj⟩ := CQ.initDiscontig_accepted h
  rw [hobj]
  exact ⟨⟨rfl, rfl, hn⟩, rfl⟩

theorem SQ.init_took {cqId : Nat} {sq : SQ} (h : (sq.init drv qId entrySize numEntries cqId log).threw = false) :
    (sq.init drv qId entrySize numEntries cqId log).obj.toQueue.Took qId numEntries ∧
      (sq.init drv qId entrySize numEntries cqId log).obj.mCqId = cqId := by
  by_cases hu : sq.toQueue.Uninit
  · by_cases hn : numEntries < 2
    · simp only [SQ.init, Queue.init_of_uninit hu, if_pos hn, Bool.true_eq_false] at h
    · simp only [SQ.init, Queue.init_of_uninit hu, if_neg hn] at h ⊢
      cases hcap : drv.read log .ctlspcCap with
      | none =>
        rw [hcap] at h
        cases h
      | some value =>
        rw [hcap] at h
        dsimp only at h ⊢
        generalize SQ.createReq drv _ _ = out at h ⊢
        obtain ⟨log', req⟩ := out
        cases req with
        | none => cases h
        | some req =>
          dsimp only at h ⊢
          split at h
          · cases h
          next hrc =>
            rw [if_neg hrc]
            exact ⟨⟨rfl, rfl, Nat.le_of_not_lt hn⟩, rfl⟩
  · simp only [SQ.init, Queue.init_of_not_uninit hu, Bool.true_eq_false] at h

theorem SQ.initDiscontig_took {memBuffer : Option MemBuffer} {cqId : Nat} {sq : SQ}
    (h : (sq.initDiscontig drv qId entrySize numEntries memBuffer cqId log).threw = false) :
    (sq.initDiscontig drv qId entrySize numEntries memBuffer cqId log).obj.toQueue.Took qId numEntries ∧
      (sq.initDiscontig drv qId entrySize numEntries memBuffer cqId log).obj.mCqId = cqId := by
  obtain ⟨b, -, hn, hobj⟩ := SQ.initDiscontig_accepted h
  rw [hobj]
  exact ⟨⟨rfl, rfl, hn⟩, rfl⟩

/-! The classes of I/O queues only put checks in front. -/

theorem IOCQ.init_eq {irqEnabled : Bool} {irqVec : Nat} {cq : CQ}
    (h : (IOCQ.init drv info qId numEntries irqEnabled irqVec cq log).threw = false) :
    ∃ entrySize log', IOCQ.init drv info qId numEntries irqEnabled irqVec cq log =
      cq.init drv qId entrySize numEntries irqEnabled irqVec log' := by
  unfold IOCQ.init at h ⊢
  cases hes : CtrlrConfig.getIOCQES drv log with
  | none => simp only [hes, Bool.true_eq_false] at h
  | some entrySize =>
    cases hcqes : info.cqes with
    | none => simp only [hes, hcqes, Bool.true_eq_false] at h
    | some value =>
      simp only [hes, hcqes] at h ⊢
      split at h
      · cases h
      next hbad =>
        rw [if_neg hbad]
        cases hcap : drv.read (drv.readLog log .ctlspcCc) .ctlspcCap with
        | none => simp only [hcap, Bool.true_eq_false] at h
        | some work => exact ⟨_, _, rfl⟩

theorem IOCQ.initDiscontig_eq {memBuffer : Option MemBuffer} {irqEnabled : Bool} {irqVec : Nat} {cq : CQ}
    (h : (IOCQ.initDiscontig drv info qId numEntries memBuffer irqEnabled irqVec cq log).threw = false) :
    ∃ entrySize log', IOCQ.initDiscontig drv info qId numEntries memBuffer irqEnabled irqVec cq log =
      cq.initDiscontig drv qId entrySize numEntries memBuffer irqEnabled irqVec log' := by
  unfold IOCQ.initDiscontig at h ⊢
  cases hcap : drv.read log .ctlspcCap with
  | none => simp only [hcap, Bool.true_eq_false] at h
  | some work =>
    cases hes : CtrlrConfig.getIOCQES drv (drv.readLog log .ctlspcCap) with
    | none => simp only [hcap, hes, Bool.true_eq_false] at h
    | some entrySize =>
      cases hcqes : info.cqes with
      | none => simp only [hcap, hes, hcqes, Bool.true_eq_false] at h
      | some value =>
        simp only [hcap, hes, hcqes] at h ⊢
        split at h
        · cases h
        next hbad =>
          rw [if_neg hbad]
          exact ⟨_, _, rfl⟩

theorem IOSQ.init_eq {cqId priority : Nat} {iosq : IOSQ}
    (h : (IOSQ.init drv info qId numEntries cqId priority iosq log).threw = false) :
    priority ≤ 3 ∧ ∃ entrySize log', IOSQ.init drv info qId numEntries cqId priority iosq log =
      IOSQ.lift { iosq with mPriority := priority } (iosq.toSQ.init drv qId entrySize numEntries cqId log') := by
  unfold IOSQ.init at h ⊢
  split at h
  · cases h
  next hprio =>
    refine ⟨Nat.le_of_not_lt hprio, ?_⟩
    rw [if_neg hprio]
    cases hes : CtrlrConfig.getIOSQES drv log with
    | none => simp only [hes, Bool.true_eq_false] at h
    | some entrySize =>
      cases hsqes : info.sqes with
      | none => simp only [hes, hsqes, Bool.true_eq_false] at h
      | some value =>
        simp only [hes, hsqes] at h ⊢
        split at h
        · cases h
        next hbad =>
          rw [if_neg hbad]
          cases hcap : drv.read (drv.readLog log .ctlspcCc) .ctlspcCap with
          | none => simp only [hcap, Bool.true_eq_false] at h
          | some work => exact ⟨_, _, rfl⟩

theorem IOSQ.initDiscontig_eq {memBuffer : Option MemBuffer} {cqId priority : Nat} {iosq : IOSQ}
    (h : (IOSQ.initDiscontig drv info qId numEntries memBuffer cqId priority iosq log).threw = false) :
    priority ≤ 3 ∧ ∃ entrySize log', IOSQ.initDiscontig drv info qId numEntries memBuffer cqId priority iosq log =
      IOSQ.lift { iosq with mPriority := priority }
        (iosq.toSQ.initDiscontig drv qId entrySize numEntries memBuffer cqId log') := by
  unfold IOSQ.initDiscontig at h ⊢
  cases hcap : drv.read log .ctlspcCap with
  | none => simp only [hcap, Bool.true_eq_false] at h
  | some work =>
    simp only [hcap] at h ⊢
    split at h
    · cases h
    next hprio =>
      refine ⟨Nat.le_of_not_lt hprio, ?_⟩
      rw [if_neg hprio]
      cases hes : CtrlrConfig.getIOSQES drv (drv.readLog log .ctlspcCap) with
      | none => simp only [hes, Bool.true_eq_false] at h
      | some entrySize =>
        cases hsqes : info.sqes with
        | none => simp only [hes, hsqes, Bool.true_eq_false] at h
        | some value =>
          simp only [hes, hsqes] at h ⊢
          split at h
          · cases h
          next hbad =>
            rw [if_neg hbad]
            exact ⟨_, _, rfl⟩

end Took

/-- **The values of an accepted queue have the widths of their types.** -/
theorem IOCQ.Accepted.fits {iocq : CQ} (h : IOCQ.Accepted iocq) :
    iocq.mQId < 2 ^ 16 ∧ 2 ≤ iocq.mNumEntries ∧ iocq.mNumEntries < 2 ^ 32 ∧ iocq.mIrqVec < 2 ^ 16 := by
  obtain ⟨drv, info, qId, numEntries, irqVec, irqEnabled, mem, cq, log, hqId, hnum, hvec, hret⟩ := h
  have htook : iocq.toQueue.Took qId numEntries ∧ iocq.mIrqVec = irqVec := by
    cases mem with
    | contig =>
      obtain ⟨hthrew, rfl⟩ := hret
      obtain ⟨_, _, heq⟩ := IOCQ.init_eq info hthrew
      rw [heq] at hthrew ⊢
      exact CQ.init_took hthrew
    | discontig memBuffer =>
      obtain ⟨hthrew, rfl⟩ := hret
      obtain ⟨_, _, heq⟩ := IOCQ.initDiscontig_eq info hthrew
      dsimp only at hthrew ⊢
      rw [heq] at hthrew ⊢
      exact CQ.initDiscontig_took hthrew
  obtain ⟨⟨hq, hn, htwo⟩, hv⟩ := htook
  omega

theorem IOSQ.Accepted.fits {iosq : IOSQ} (h : IOSQ.Accepted iosq) :
    iosq.mQId < 2 ^ 16 ∧ 2 ≤ iosq.mNumEntries ∧ iosq.mNumEntries < 2 ^ 32 ∧ iosq.mCqId < 2 ^ 16 ∧
      iosq.mPriority ≤ 3 := by
  obtain ⟨drv, info, qId, numEntries, cqId, priority, mem, sq, log, hqId, hnum, hcqId, hret⟩ := h
  have htook : (iosq.toQueue.Took qId numEntries ∧ iosq.mCqId = cqId) ∧ iosq.mPriority ≤ 3 := by
    cases mem with
    | contig =>
      obtain ⟨hthrew, rfl⟩ := hret
      obtain ⟨hprio, _, _, heq⟩ := IOSQ.init_eq info hthrew
      rw [heq] at hthrew ⊢
      exact ⟨SQ.init_took hthrew, hprio⟩
    | discontig memBuffer =>
      obtain ⟨hthrew, rfl⟩ := hret
      obtain ⟨hprio, _, _, heq⟩ := IOSQ.initDiscontig_eq info hthrew
      dsimp only at hthrew ⊢
      rw [heq] at hthrew ⊢
      exact ⟨SQ.initDiscontig_took hthrew, hprio⟩
  obtain ⟨⟨⟨hq, hn, htwo⟩, hc⟩, hp⟩ := htook
  omega

/-! ## What the dwords hold -/

/-- Size and queue id in a dword 10. -/
def Queue.dword10 (q : Queue) (d : BitVec 32) : BitVec 32 :=
  put 0 (BitVec.ofNat 16 q.mQId) (put 16 ((BitVec.ofNat 32 q.mNumEntries - 1#32).setWidth 16) d)

theorem Queue.handleDword10_eq (q : Queue) (c : Cmd) :
    q.handleDword10 c = some (put (32 * 10) (q.dword10 (get (32 * 10) 32 c)) c) := by
  have hqId : ((BitVec.ofNat 16 q.mQId).setWidth 32).toNat < 2 ^ 16 := by
    rw [BitVec.toNat_setWidth_of_le (by decide)]
    exact BitVec.isLt _
  have hmerge (d : BitVec 32) :
      d &&& ~~~0x0000ffff#32 ||| (BitVec.ofNat 16 q.mQId).setWidth 32 = put 0 (BitVec.ofNat 16 q.mQId) d := by
    have h := and_not_or_shiftLeft (show 0 + 16 ≤ 32 by decide) hqId d
    rwa [BitVec.shiftLeft_zero, BitVec.setWidth_setWidth_of_le _ (by decide), BitVec.setWidth_eq] at h
  rw [Queue.handleDword10, Cmd.getDword_eq (by decide), Option.bind_eq_bind, Option.bind_some]
  dsimp only
  rw [show 0xffff0000#32 = mask 32 16 16 by decide, and_not_or_shiftLeft_top (by decide), hmerge,
    Cmd.setDword_eq (by decide), Queue.dword10]

theorem Queue.handlePC_eq (contig : Bool) (d : BitVec 32) :
    Queue.handlePC contig d = put 0 (BitVec.ofBool contig) d := by
  cases contig with
  | false => exact and_not_mask 0 1 d
  | true => exact or_mask 0 1 d

/-- The vector that the command has to name. -/
def CreateIOCQ.iv (iocq : CQ) (scheme : Option NvmeIrqType) : Nat :=
  if iocq.mIrqEnabled ∧ (scheme = some .msiMulti ∨ scheme = some .msix) then iocq.mIrqVec else 0

/-- PC, IEN and IV in a dword 11. -/
def CreateIOCQ.dword11 (contig ien : Bool) (iv : Nat) (d : BitVec 32) : BitVec 32 :=
  put 16 (BitVec.ofNat 16 iv) (put 1 (BitVec.ofBool ien) (put 0 (BitVec.ofBool contig) d))

theorem CreateIOCQ.handleDword11_eq {iocq : CQ} {c c' : Cmd} {log : List Call}
    (h : (CreateIOCQ.handleDword11 drv info iocq c log).2 = some c') :
    ∃ contig, iocq.getIsContig = some contig ∧ c' = put (32 * 11) (CreateIOCQ.dword11 contig iocq.mIrqEnabled
      (CreateIOCQ.iv iocq (CtrlrConfig.getIrqScheme drv log info).2) (get (32 * 11) 32 c)) c := by
  have hset {d : BitVec 32} (hd : c.setDword d 11 = some c') : c' = put (32 * 11) d c := by
    rw [Cmd.setDword_eq (by decide)] at hd
    exact (Option.some.inj hd).symm
  have hvec : ((BitVec.ofNat 16 iocq.mIrqVec).setWidth 32).toNat < 2 ^ 16 := by
    rw [BitVec.toNat_setWidth_of_le (by decide)]
    exact BitVec.isLt _
  have hmask : 0xffff0000#32 = mask 32 16 16 := by decide
  unfold CreateIOCQ.handleDword11 at h
  rw [Cmd.getDword_eq (by decide)] at h
  cases hcontig : iocq.getIsContig with
  | none =>
    rw [hcontig] at h
    cases h
  | some contig =>
    simp only [hcontig, Queue.handlePC_eq] at h
    refine ⟨contig, rfl, ?_⟩
    cases hien : iocq.mIrqEnabled with
    | false =>
      rw [if_neg (by rw [hien]; exact Bool.false_ne_true)] at h
      rw [hset h, hmask, show 0x00000002#32 = mask 32 1 1 by decide, and_not_mask, and_not_mask]
      simp [CreateIOCQ.dword11, CreateIOCQ.iv, hien]
    | true =>
      rw [if_pos hien] at h
      have hien' (d : BitVec 32) : d ||| 0x00000002#32 = put 1 (BitVec.ofBool true) d := or_mask 1 1 d
      generalize CtrlrConfig.getIrqScheme drv log info = out at h ⊢
      obtain ⟨log', scheme⟩ := out
      cases scheme with
      | none => cases h
      | some irq =>
        cases irq with
        | msiMulti | msix =>
          rw [hset h, hien', hmask, and_not_or_shiftLeft (by decide) hvec,
            BitVec.setWidth_setWidth_of_le _ (by decide), BitVec.setWidth_eq]
          simp [CreateIOCQ.dword11, CreateIOCQ.iv, hien]
        | msiSingle | none =>
          rw [hset h, hien', hmask, and_not_mask]
          simp [CreateIOCQ.dword11, CreateIOCQ.iv, hien]
        | other => cases h

/-- PC, QPRIO and CQID in a dword 11. -/
def CreateIOSQ.dword11 (contig : Bool) (priority cqId : Nat) (d : BitVec 32) : BitVec 32 :=
  put 16 (BitVec.ofNat 16 cqId) (put 1 (BitVec.ofNat 2 priority) (put 0 (BitVec.ofBool contig) d))

theorem CreateIOSQ.handleDword11_eq {iosq : IOSQ} (hprio : iosq.mPriority ≤ 3) {c c' : Cmd}
    (h : CreateIOSQ.handleDword11 iosq c = some c') :
    ∃ contig, iosq.getIsContig = some contig ∧
      c' = put (32 * 11) (CreateIOSQ.dword11 contig iosq.mPriority iosq.mCqId (get (32 * 11) 32 c)) c := by
  have hcq : ((BitVec.ofNat 16 iosq.mCqId).setWidth 32).toNat < 2 ^ 16 := by
    rw [BitVec.toNat_setWidth_of_le (by decide)]
    exact BitVec.isLt _
  have hprio' : ((BitVec.ofNat 8 iosq.mPriority).setWidth 32).toNat < 2 ^ 2 := by
    rw [BitVec.toNat_setWidth_of_le (by decide), BitVec.toNat_ofNat]
    omega
  have htwo : ((BitVec.ofNat 8 iosq.mPriority).setWidth 32).setWidth 2 = BitVec.ofNat 2 iosq.mPriority := by
    rw [BitVec.setWidth_setWidth_of_le _ (by decide)]
    exact BitVec.eq_of_toNat_eq (by simp only [BitVec.toNat_setWidth, BitVec.toNat_ofNat]; omega)
  cases hcontig : iosq.getIsContig with
  | none =>
    simp only [CreateIOSQ.handleDword11, Cmd.getDword_eq (show 11 < Cmd.cmdSizeDW by decide), hcontig,
      Option.bind_eq_bind, Option.bind_some, Option.bind_none, reduceCtorEq] at h
  | some contig =>
    refine ⟨contig, rfl, ?_⟩
    simp only [CreateIOSQ.handleDword11, Cmd.getDword_eq (show 11 < Cmd.cmdSizeDW by decide), hcontig,
      Option.bind_eq_bind, Option.bind_some, Queue.handlePC_eq] at h
    rw [Cmd.setDword_eq (by decide), show 0x00000006#32 = mask 32 1 2 by decide,
      show 0xffff0000#32 = mask 32 16 16 by decide, and_not_or_shiftLeft (by decide) hprio', htwo,
      and_not_or_shiftLeft (by decide) hcq, BitVec.setWidth_setWidth_of_le _ (by decide), BitVec.setWidth_eq] at h
    exact (Option.some.inj h).symm

/-! ## Decoding -/

section Decode

variable {c : Cmd} {d d' : BitVec 32} {a k : Nat}

theorem get_dword11 (h : a + k ≤ 32) : get (32 * 11 + a) k (put (32 * 11) d' c) = get a k d' := by
  rw [← get_get h, get_put (by decide)]

theorem get_dword10 (h : a + k ≤ 32) : get (32 * 10 + a) k (put (32 * 11) d' (put (32 * 10) d c)) = get a k d := by
  rw [get_put_of_apart (Or.inr (by omega)), ← get_get h, get_put (by decide)]

theorem get_dword11_low (h : k ≤ 32) : get (32 * 11) k (put (32 * 11) d' c) = get 0 k d' :=
  get_dword11 (show 0 + k ≤ 32 by omega)

theorem get_dword10_low (h : k ≤ 32) : get (32 * 10) k (put (32 * 11) d' (put (32 * 10) d c)) = get 0 k d :=
  get_dword10 (show 0 + k ≤ 32 by omega)

theorem CreateIOCQFields.decode_put (d d' : BitVec 32) (c : Cmd) :
    CreateIOCQFields.decode (put (32 * 11) d' (put (32 * 10) d c)) =
      ⟨(get 16 16 d).toNat + 1, (get 0 16 d).toNat, get 0 1 d' == 1#1, get 1 1 d' == 1#1, (get 16 16 d').toNat⟩ := by
  rw [CreateIOCQFields.decode, get_dword10 (by decide), get_dword10_low (by decide), get_dword11_low (by decide),
    get_dword11 (by decide), get_dword11 (by decide)]

theorem CreateIOSQFields.decode_put (d d' : BitVec 32) (c : Cmd) :
    CreateIOSQFields.decode (put (32 * 11) d' (put (32 * 10) d c)) =
      ⟨(get 16 16 d).toNat + 1, (get 0 16 d).toNat, get 0 1 d' == 1#1, (get 1 2 d').toNat, (get 16 16 d').toNat⟩ := by
  rw [CreateIOSQFields.decode, get_dword10 (by decide), get_dword10_low (by decide), get_dword11_low (by decide),
    get_dword11 (by decide), get_dword11 (by decide)]

theorem Queue.size_dword10 {q : Queue} (hnum : 2 ≤ q.mNumEntries) (hfit : q.mNumEntries ≤ 2 ^ 16) (d : BitVec 32) :
    (get 16 16 (q.dword10 d)).toNat + 1 = q.mNumEntries := by
  rw [Queue.dword10, get_put_of_apart (by decide), get_put (by decide), BitVec.toNat_setWidth, BitVec.toNat_sub,
    BitVec.toNat_ofNat, BitVec.toNat_ofNat]
  omega

theorem Queue.qId_dword10 {q : Queue} (hqId : q.mQId < 2 ^ 16) (d : BitVec 32) :
    (get 0 16 (q.dword10 d)).toNat = q.mQId := by
  rw [Queue.dword10, get_put (by decide), BitVec.toNat_ofNat, Nat.mod_eq_of_lt hqId]

theorem CreateIOCQ.fields_dword11 (contig ien : Bool) (iv : Nat) (d : BitVec 32) :
    get 0 1 (CreateIOCQ.dword11 contig ien iv d) = BitVec.ofBool contig ∧
      get 1 1 (CreateIOCQ.dword11 contig ien iv d) = BitVec.ofBool ien ∧
      get 16 16 (CreateIOCQ.dword11 contig ien iv d) = BitVec.ofNat 16 iv := by
  refine ⟨?_, ?_, get_put (by decide) _ _⟩
  · rw [CreateIOCQ.dword11, get_put_of_apart (by decide), get_put_of_apart (by decide), get_put (by decide)]
  · rw [CreateIOCQ.dword11, get_put_of_apart (by decide), get_put (by decide)]

theorem CreateIOSQ.fields_dword11 (contig : Bool) (priority cqId : Nat) (d : BitVec 32) :
    get 0 1 (CreateIOSQ.dword11 contig priority cqId d) = BitVec.ofBool contig ∧
      get 1 2 (CreateIOSQ.dword11 contig priority cqId d) = BitVec.ofNat 2 priority ∧
      get 16 16 (CreateIOSQ.dword11 contig priority cqId d) = BitVec.ofNat 16 cqId := by
  refine ⟨?_, ?_, get_put (by decide) _ _⟩
  · rw [CreateIOSQ.dword11, get_put_of_apart (by decide), get_put_of_apart (by decide), get_put (by decide)]
  · rw [CreateIOSQ.dword11, get_put_of_apart (by decide), get_put (by decide)]

theorem ofBool_beq (b : Bool) : (BitVec.ofBool b == 1#1) = b := by
  cases b <;> rfl

end Decode

/-- The command says what the queue is. -/
structure CreateIOCQ.Encodes (iocq : CQ) (scheme : Option NvmeIrqType) (c : Cmd) : Prop where
  size : iocq.mNumEntries ≤ 2 ^ 16 → (CreateIOCQFields.decode c).numEntries = iocq.mNumEntries
  qId : (CreateIOCQFields.decode c).qId = iocq.mQId
  pc : iocq.getIsContig = some (CreateIOCQFields.decode c).pc
  ien : (CreateIOCQFields.decode c).ien = iocq.mIrqEnabled
  iv : (CreateIOCQFields.decode c).iv = CreateIOCQ.iv iocq scheme

structure CreateIOSQ.Encodes (iosq : IOSQ) (c : Cmd) : Prop where
  size : iosq.mNumEntries ≤ 2 ^ 16 → (CreateIOSQFields.decode c).numEntries = iosq.mNumEntries
  qId : (CreateIOSQFields.decode c).qId = iosq.mQId
  pc : iosq.getIsContig = some (CreateIOSQFields.decode c).pc
  qprio : (CreateIOSQFields.decode c).qprio = iosq.mPriority
  cqId : (CreateIOSQFields.decode c).cqId = iosq.mCqId

variable {drv} {info}

theorem CreateIOCQ.initDwords_encodes {iocq : CQ} (hcq : IOCQ.Accepted iocq) {cmd : CreateQCmd} {log : List Call}
    (h : (CreateIOCQ.initDwords drv info iocq cmd log).threw = false) :
    CreateIOCQ.Encodes iocq (CtrlrConfig.getIrqScheme drv log info).2
      (CreateIOCQ.initDwords drv info iocq cmd log).obj.cmdBuf := by
  obtain ⟨hqId, hnum, _, hvec⟩ := hcq.fits
  rw [CreateIOCQ.initDwords, Queue.handleDword10_eq] at h ⊢
  dsimp only at h ⊢
  have hfound := @CreateIOCQ.handleDword11_eq drv info iocq
    (put (32 * 10) (iocq.dword10 (get (32 * 10) 32 cmd.cmdBuf)) cmd.cmdBuf)
  generalize hout : CreateIOCQ.handleDword11 drv info iocq _ log = out at h ⊢
  obtain ⟨log', c'⟩ := out
  cases c' with
  | none => cases h
  | some c' =>
    obtain ⟨contig, hcontig, rfl⟩ := hfound (congrArg Prod.snd hout)
    have hiv : CreateIOCQ.iv iocq (CtrlrConfig.getIrqScheme drv log info).2 < 2 ^ 16 := by
      unfold CreateIOCQ.iv
      split <;> omega
    generalize hd : get (32 * 11) 32 (put (32 * 10) _ cmd.cmdBuf) = d
    obtain ⟨hpc, hien, hvec'⟩ := CreateIOCQ.fields_dword11 contig iocq.mIrqEnabled
      (CreateIOCQ.iv iocq (CtrlrConfig.getIrqScheme drv log info).2) d
    have hdecode := CreateIOCQFields.decode_put (iocq.dword10 (get (32 * 10) 32 cmd.cmdBuf))
      (CreateIOCQ.dword11 contig iocq.mIrqEnabled (CreateIOCQ.iv iocq (CtrlrConfig.getIrqScheme drv log info).2) d)
      cmd.cmdBuf
    rw [hpc, hien, hvec', ofBool_beq, ofBool_beq, Queue.qId_dword10 hqId, BitVec.toNat_ofNat,
      Nat.mod_eq_of_lt hiv] at hdecode
    refine ⟨fun hfit => ?_, ?_, ?_, ?_, ?_⟩
    · rw [hdecode, Queue.size_dword10 hnum hfit]
    · rw [hdecode]
    · rw [hdecode, hcontig]
    · rw [hdecode]
    · rw [hdecode]

theorem CreateIOSQ.initOn_encodes {iosq : IOSQ} (hsq : IOSQ.Accepted iosq) {cmd : CreateQCmd} {log : List Call}
    (h : (CreateIOSQ.initOn iosq cmd log).threw = false) :
    CreateIOSQ.Encodes iosq (CreateIOSQ.initOn iosq cmd log).obj.cmdBuf := by
  obtain ⟨hqId, hnum, _, hcqId, hprio⟩ := hsq.fits
  unfold CreateIOSQ.initOn at h ⊢
  cases hbuf : cmd.setQBuffer iosq.toQueue with
  | none => simp only [hbuf, Bool.true_eq_false] at h
  | some cmd' =>
    simp only [hbuf, Queue.handleDword10_eq] at h ⊢
    cases hout : CreateIOSQ.handleDword11 iosq _ with
    | none => simp only [hout, Bool.true_eq_false] at h
    | some c' =>
      obtain ⟨contig, hcontig, rfl⟩ := CreateIOSQ.handleDword11_eq hprio hout
      generalize hd : get (32 * 11) 32 (put (32 * 10) _ cmd'.cmdBuf) = d
      obtain ⟨hpc, hqprio, hcq⟩ := CreateIOSQ.fields_dword11 contig iosq.mPriority iosq.mCqId d
      have hdecode := CreateIOSQFields.decode_put (iosq.dword10 (get (32 * 10) 32 cmd'.cmdBuf))
        (CreateIOSQ.dword11 contig iosq.mPriority iosq.mCqId d) cmd'.cmdBuf
      rw [hpc, hqprio, hcq, ofBool_beq, Queue.qId_dword10 hqId, BitVec.toNat_ofNat, Nat.mod_eq_of_lt (by omega),
        BitVec.toNat_ofNat, Nat.mod_eq_of_lt hcqId] at hdecode
      refine ⟨fun hfit => ?_, ?_, ?_, ?_, ?_⟩
      · rw [hdecode, Queue.size_dword10 hnum hfit]
      · rw [hdecode]
      · rw [hdecode, hcontig]
      · rw [hdecode]
      · rw [hdecode]

/-- The dwords do not depend on the buffers. -/
theorem CreateIOCQ.initDwords_congr {iocq : CQ} {cmd cmd' : CreateQCmd} (h : cmd'.cmdBuf = cmd.cmdBuf)
    (log : List Call) :
    (CreateIOCQ.initDwords drv info iocq cmd' log).threw = (CreateIOCQ.initDwords drv info iocq cmd log).threw ∧
      (CreateIOCQ.initDwords drv info iocq cmd' log).obj.cmdBuf =
        (CreateIOCQ.initDwords drv info iocq cmd log).obj.cmdBuf := by
  unfold CreateIOCQ.initDwords
  rw [h, Queue.handleDword10_eq]
  dsimp only
  generalize CreateIOCQ.handleDword11 drv info iocq _ log = out
  obtain ⟨log', c'⟩ := out
  cases c' <;> exact ⟨rfl, rfl⟩

theorem CreateQCmd.setPrpBuffer_cmdBuf {cmd cmd' : CreateQCmd} {buf : Ptr} {size : Nat}
    (h : cmd.setPrpBuffer buf size = some cmd') : cmd'.cmdBuf = cmd.cmdBuf := by
  simp only [CreateQCmd.setPrpBuffer, Option.ite_none_left_eq_some, Option.some.injEq] at h
  obtain ⟨_, _, _, _, rfl⟩ := h
  rfl

theorem CreateQCmd.setQBuffer_cmdBuf {cmd cmd' : CreateQCmd} {q : Queue} (h : cmd.setQBuffer q = some cmd') :
    cmd'.cmdBuf = cmd.cmdBuf := by
  obtain ⟨_, _, hset⟩ := Option.bind_eq_some_iff.1 h
  exact CreateQCmd.setPrpBuffer_cmdBuf hset

theorem CtrlrConfig.getIrqScheme_ne_other (drv : Driver) (info : DeviceInfo) (log : List Call) :
    (CtrlrConfig.getIrqScheme drv log info).2 ≠ some .other := by
  simp only [CtrlrConfig.getIrqScheme]
  split
  · exact nofun
  · split
    next => exact nofun
    next hother => exact fun h => hother (Option.some.inj h)

/-- How far `CreateIOCQ::Init` gets once the buffer is there. -/
theorem CreateIOCQ.initDwords_log (drv : Driver) (info : DeviceInfo) {iocq : CQ} {contig : Bool}
    (hcontig : iocq.getIsContig = some contig) (cmd : CreateQCmd) (log : List Call) :
    (CreateIOCQ.initDwords drv info iocq cmd log).log =
        (if iocq.mIrqEnabled then (CtrlrConfig.getIrqScheme drv log info).1 else log) ∧
      (CreateIOCQ.initDwords drv info iocq cmd log).threw =
        (iocq.mIrqEnabled && (CtrlrConfig.getIrqScheme drv log info).2.isNone) := by
  have hother := CtrlrConfig.getIrqScheme_ne_other drv info log
  rw [CreateIOCQ.initDwords, Queue.handleDword10_eq]
  simp only [CreateIOCQ.handleDword11, Cmd.getDword_eq (show 11 < Cmd.cmdSizeDW by decide), hcontig]
  cases iocq.mIrqEnabled with
  | false => exact ⟨rfl, rfl⟩
  | true =>
    generalize CtrlrConfig.getIrqScheme drv log info = out at hother ⊢
    obtain ⟨log', scheme⟩ := out
    cases scheme with
    | none => exact ⟨rfl, rfl⟩
    | some irq =>
      cases irq with
      | other => exact absurd rfl hother
      | _ => exact ⟨rfl, rfl⟩

/-- A command without a buffer takes that of a queue that has memory. -/
theorem CreateQCmd.Fresh.setQBuffer {cmd : CreateQCmd} (h : cmd.Fresh) (q : Queue) :
    (q.prpBuffer = false ∧ cmd.setQBuffer q = none) ∨
      q.prpBuffer = true ∧ (∃ cmd', cmd.setQBuffer q = some cmd') ∧ ∃ contig, q.getIsContig = some contig := by
  obtain ⟨hRO, hRW⟩ := h
  unfold CreateQCmd.setQBuffer Queue.prpBuffer
  cases hbuf : q.getQBuffer with
  | none => exact .inl ⟨rfl, rfl⟩
  | some buf =>
    have hcontig : ∃ contig, q.getIsContig = some contig := by
      cases hc : q.getIsContig with
      | none => simp only [Queue.getQBuffer, hc, reduceCtorEq] at hbuf
      | some contig => exact ⟨contig, rfl⟩
    by_cases hsize : q.getQSize = 0
    · exact .inl (by simp [CreateQCmd.setPrpBuffer, hsize])
    · by_cases hnull : buf = .null
      · exact .inl (by simp [CreateQCmd.setPrpBuffer, hnull])
      · exact .inr ⟨by simp [hsize, hnull], by simp [CreateQCmd.setPrpBuffer, hRW, hsize, hnull, hRO], hcontig⟩

/-- For a command that has no buffer yet, `Init` throws and asks dnvme as `CreateIOCQ.init` says. -/
theorem CreateIOCQ.initOn_fresh (iocq : CQ) {cmd : CreateQCmd} (h : cmd.Fresh) (log : List Call) :
    (CreateIOCQ.initOn drv info iocq cmd log).log = (CreateIOCQ.init drv info iocq log).1 ∧
      (CreateIOCQ.initOn drv info iocq cmd log).threw = !(CreateIOCQ.init drv info iocq log).2 := by
  obtain ⟨hprp, hbuf⟩ | ⟨hprp, ⟨cmd', hbuf⟩, contig, hcontig⟩ := h.setQBuffer iocq.toQueue
  · simp [CreateIOCQ.initOn, CreateIOCQ.init, hprp, hbuf]
  · obtain ⟨hlog, hthrew⟩ := CreateIOCQ.initDwords_log drv info hcontig cmd' log
    simp only [CreateIOCQ.initOn, CreateIOCQ.init, hprp, hbuf, hlog, hthrew]
    cases iocq.mIrqEnabled with
    | false => exact ⟨rfl, rfl⟩
    | true =>
      cases (CtrlrConfig.getIrqScheme drv log info).2 <;> exact ⟨rfl, rfl⟩

theorem CreateIOSQ.initOn_fresh (iosq : IOSQ) {cmd : CreateQCmd} (h : cmd.Fresh) (log : List Call) :
    (CreateIOSQ.initOn iosq cmd log).threw = !(CreateIOSQ.init iosq log).2 := by
  obtain ⟨hprp, hbuf⟩ | ⟨hprp, ⟨cmd', hbuf⟩, contig, hcontig⟩ := h.setQBuffer iosq.toQueue
  · simp [CreateIOSQ.initOn, CreateIOSQ.init, hprp, hbuf]
  · simp [CreateIOSQ.initOn, CreateIOSQ.init, hprp, hbuf, Queue.handleDword10_eq, CreateIOSQ.handleDword11,
      Cmd.getDword_eq (show 11 < Cmd.cmdSizeDW by decide), Cmd.setDword_eq (show 11 < Cmd.cmdSizeDW by decide), hcontig]

/-- **The commands encode the queues they are given**, apart from sizes that do not fit into 16 bits. -/
theorem createIOQ_encode (drv : Driver) (info : DeviceInfo) {iocq : CQ} (hcq : IOCQ.Accepted iocq) {iosq : IOSQ}
    (hsq : IOSQ.Accepted iosq) (cmd : CreateQCmd) (log : List Call) :
    ((CreateIOCQ.initOn drv info iocq cmd log).threw = false → CreateIOCQ.Encodes iocq
      (CtrlrConfig.getIrqScheme drv log info).2 (CreateIOCQ.initOn drv info iocq cmd log).obj.cmdBuf) ∧
    ((CreateIOSQ.initOn iosq cmd log).threw = false →
      CreateIOSQ.Encodes iosq (CreateIOSQ.initOn iosq cmd log).obj.cmdBuf) ∧
    (cmd.setQBuffer iocq.toQueue ≠ none →
      (CreateIOCQ.initOn drv info iocq cmd log).threw = (CreateIOCQ.initInvalidPrpOffset drv info iocq cmd log).threw ∧
      (CreateIOCQ.initOn drv info iocq cmd log).obj.cmdBuf =
        (CreateIOCQ.initInvalidPrpOffset drv info iocq cmd log).obj.cmdBuf) := by
  refine ⟨fun h => ?_, CreateIOSQ.initOn_encodes hsq, fun h => ?_⟩
  · unfold CreateIOCQ.initOn at h ⊢
    cases hbuf : cmd.setQBuffer iocq.toQueue with
    | none => simp only [hbuf, Bool.true_eq_false] at h
    | some cmd' =>
      simp only [hbuf] at h ⊢
      exact CreateIOCQ.initDwords_encodes hcq h
  · unfold CreateIOCQ.initOn
    cases hbuf : cmd.setQBuffer iocq.toQueue with
    | none => exact absurd hbuf h
    | some cmd' => exact CreateIOCQ.initDwords_congr (CreateQCmd.setQBuffer_cmdBuf hbuf) log

/-! ## Two queues -/

namespace CreateIOQ

/-- CC names entries of 16 and 64 bytes. -/
def sizedDriver : Driver := { MetaRsrc.grantingDriver with read := fun _ _ => some 0x00460000 }

def sizedInfo : DeviceInfo := ⟨some 0x44, some 0x66, fun _ => .msix⟩

/-- A queue without interrupts, for which the caller has named a vector. -/
def iocq : CQ := (IOCQ.init sizedDriver sizedInfo 1 2 false 5 .new []).obj

def iosq : IOSQ := (IOSQ.init sizedDriver sizedInfo 1 2 1 3 .new []).obj

theorem iocq_accepted : IOCQ.Accepted iocq :=
  ⟨sizedDriver, sizedInfo, 1, 2, 5, false, .contig, .new, [], by decide, by decide, by decide, by decide, rfl⟩

theorem iosq_accepted : IOSQ.Accepted iosq :=
  ⟨sizedDriver, sizedInfo, 1, 2, 1, 3, .contig, .new, [], by decide, by decide, by decide, by decide, rfl⟩

end CreateIOQ

/-- Both commands, from empty ones. -/
theorem createIOQ_encode_two :
    CreateIOCQ.Encodes CreateIOQ.iocq (some .msix)
        (CreateIOCQ.initOn CreateIOQ.sizedDriver CreateIOQ.sizedInfo CreateIOQ.iocq
          ⟨0#512, .null, false⟩ []).obj.cmdBuf ∧
      CreateIOSQ.Encodes CreateIOQ.iosq (CreateIOSQ.initOn CreateIOQ.iosq ⟨0#512, .null, false⟩ []).obj.cmdBuf :=
  have h := createIOQ_encode CreateIOQ.sizedDriver CreateIOQ.sizedInfo CreateIOQ.iocq_accepted CreateIOQ.iosq_accepted
    ⟨0#512, .null, false⟩ []
  ⟨h.1 (by decide), h.2.1 (by decide)⟩

/-- The vector of a queue whose interrupts are not enabled is not in the command. -/
theorem createIOCQ_without_iv :
    IOCQ.Accepted CreateIOQ.iocq ∧
      (CreateIOCQ.initOn CreateIOQ.sizedDriver CreateIOQ.sizedInfo CreateIOQ.iocq
        ⟨0#512, .null, false⟩ []).threw = false ∧
      (CreateIOCQFields.decode (CreateIOCQ.initOn CreateIOQ.sizedDriver CreateIOQ.sizedInfo CreateIOQ.iocq
        ⟨0#512, .null, false⟩ []).obj.cmdBuf).iv ≠ CreateIOQ.iocq.mIrqVec := by
  refine ⟨CreateIOQ.iocq_accepted, by decide, by decide +kernel⟩

end Tnvme
