import Tnvme.Fw.Disabled
import Tnvme.Queues.IOQueue

/-!
# The helpers that create I/O queues

`CreateIOCQContigToHdw` and its three siblings allocate a queue with group lifetime, initialise it, and have the
controller create it. The discontiguous ones first hold the memory they are given against the size of the queue.

* No helper takes the queue out of the resource manager again when a later step throws (`Throws`). It is the
  constructor of the exception that empties the map, if it can disable the device (`GetsDisabled`).
* `CreateIOSQDiscontigToHdw` measures the memory with the entries of a completion queue, and both products wrap.

`createToHdw_iff` gives the exact condition for each helper.
-/

namespace Tnvme

/-- How a helper ends. `crashed` is a use of a null pointer, `terminated` an exception that leaves the destructor of the
queue, `hangs` an exception whose constructor does not end. -/
inductive ToHdwEnd where
  | returned (w : World)
  | threw (w : World)
  | crashed
  | terminated
  | hangs

inductive CheckEnd where
  | passed
  | threw
  | crashed
  deriving DecidableEq, Repr

namespace World

variable (w : World)

/-- `AllocObj` returns a pointer to a new object. -/
def allocates (handle : Nat) (lookupName : String) : Bool :=
  lookupName != "" && (w.obj handle).isNone && !w.objs.any (·.lookupName == some lookupName)

end World

/-- What tells one helper from another. `check` precedes the allocation; `form` gives the log after the command has been
formed, and whether it has been. -/
structure ToHdw (α : Type) where
  objType : ObjType
  new : α
  queue : α → Queue
  check : World → World × CheckEnd
  init : α → List Call → InitRet α
  form : α → List Call → List Call × Bool

namespace ToHdw

variable {α : Type} (drv : Driver) (su : Setup) (fuel : Nat)

/-- An exception is constructed, and then unwinds the stack. -/
def raise (w : World) (unwind : World → ToHdwEnd) : ToHdwEnd :=
  match FrmwkEx.construct drv su fuel w with
  | none => .hangs
  | some (w, _) => unwind w

/-- The local pointer goes away, and with it the queue, unless the resource manager holds it. -/
def unwind (handle : Nat) (w : World) : ToHdwEnd :=
  if (w.obj handle).any fun o => o.lookupName.isNone && !o.canDie then .terminated else .threw (w.drop drv handle)

variable (T : ToHdw α)

/-- The new queue has been initialised, or its `Init` has thrown. -/
def initialised (o : Obj) (w : World) : World :=
  let r := T.init T.new w.rsrc.log
  (w.withLog r.log).put { o with mQueue := T.queue r.obj }

/-- The command has been formed, too, or its `Init` has thrown. -/
def formed (o : Obj) (w : World) : World :=
  let r := T.init T.new w.rsrc.log
  (T.initialised o w).withLog (T.form r.obj r.log).1

/-- The steps that follow the allocation, and whether they were all taken. `sendAndReap` is `IO::SendAndReapCmd`: the
calls it makes, and whether it returns. -/
def fill (sendAndReap : World → List Call × Bool) (o : Obj) (w : World) : World × Bool :=
  let r := T.init T.new w.rsrc.log
  if r.threw then (T.initialised o w, false)
  else if (T.form r.obj r.log).2 then
    ((T.formed o w).calling (sendAndReap (T.formed o w)).1, (sendAndReap (T.formed o w)).2)
  else (T.formed o w, false)

def run (sendAndReap : World → List Call × Bool) (handle : Nat) (grpID : String) (w : World) : ToHdwEnd :=
  match T.check w with
  | (w, .threw) => raise drv su fuel w .threw
  | (_, .crashed) => .crashed
  | (w, .passed) =>
    if w.allocates handle grpID then
      let r := T.fill sendAndReap (.new handle T.objType (some grpID) .none) (w.allocObj handle T.objType grpID .none)
      if r.2 then .returned r.1 else raise drv su fuel r.1 (unwind drv handle)
    else .crashed

end ToHdw

/-! ## The four helpers -/

namespace Queues

variable (drv : Driver) (info : DeviceInfo)

/-- The check of both discontiguous helpers. The product is a `uint32_t`. -/
def checkMem (qBackedMem : Option MemBuffer) (numEntries : Nat) (w : World) : World × CheckEnd :=
  match CtrlrConfig.getIOCQES drv w.rsrc.log with
  | none => (w.read drv .ctlspcCc, .threw)
  | some ioqes =>
    match qBackedMem with
    | none => (w.read drv .ctlspcCc, .crashed)
    | some qBackedMem =>
      if qBackedMem.bufSize < (1 <<< ioqes) * numEntries % 2 ^ 32 then (w.read drv .ctlspcCc, .threw)
      else (w.read drv .ctlspcCc, .passed)

def createIOCQContigToHdw (qId numEntries : Nat) (irqEnabled : Bool) (irqVec : Nat) : ToHdw CQ where
  objType := .iocq
  new := .new
  queue := CQ.toQueue
  check := fun w => (w, .passed)
  init := IOCQ.init drv info qId numEntries irqEnabled irqVec
  form := CreateIOCQ.init drv info

def createIOSQContigToHdw (qId numEntries cqId priority : Nat) : ToHdw IOSQ where
  objType := .iosq
  new := .new
  queue := fun iosq => iosq.toQueue
  check := fun w => (w, .passed)
  init := IOSQ.init drv info qId numEntries cqId priority
  form := CreateIOSQ.init

def createIOCQDiscontigToHdw (qId numEntries : Nat) (irqEnabled : Bool) (irqVec : Nat)
    (qBackedMem : Option MemBuffer) : ToHdw CQ where
  objType := .iocq
  new := .new
  queue := CQ.toQueue
  check := checkMem drv qBackedMem numEntries
  init := IOCQ.initDiscontig drv info qId numEntries qBackedMem irqEnabled irqVec
  form := CreateIOCQ.init drv info

def createIOSQDiscontigToHdw (qId numEntries cqId priority : Nat) (qBackedMem : Option MemBuffer) : ToHdw IOSQ where
  objType := .iosq
  new := .new
  queue := fun iosq => iosq.toQueue
  check := checkMem drv qBackedMem numEntries
  init := IOSQ.initDiscontig drv info qId numEntries qBackedMem cqId priority
  form := CreateIOSQ.init

end Queues

/-! ## What is asked of a helper -/

/-- A helper that throws leaves no entry in the map that was not there before. -/
def ToHdwEnd.Intact (w : World) : ToHdwEnd → Prop
  | threw w' => ∀ o ∈ w'.mObjGrpLife, ∃ p ∈ w.mObjGrpLife, p.handle = o.handle ∧ p.lookupName = o.lookupName
  | _ => True

/-- The memory is too small for a queue whose entries have the size that CC gives them. -/
def TooSmall (entrySize : Option Nat) (qBackedMem : Option MemBuffer) (numEntries : Nat) : Prop :=
  ∃ es b, entrySize = some es ∧ qBackedMem = some b ∧ b.bufSize < numEntries * 2 ^ es

/-- The memory is too small as the helpers measure it, in a `uint32_t`. -/
def MeasuredTooSmall (entrySize : Option Nat) (qBackedMem : Option MemBuffer) (numEntries : Nat) : Prop :=
  ∃ es b, entrySize = some es ∧ qBackedMem = some b ∧ b.bufSize < numEntries * 2 ^ es % 2 ^ 32

/-- The helper throws before it allocates the queue. -/
def ToHdw.Rejects {α : Type} (T : ToHdw α) (w : World) : Prop := (T.check w).2 = .threw

/-- The size of an entry is one that the Identify data allow. -/
def ElemSize (es value : Option Nat) (entrySize : Nat) : Prop :=
  ∃ n limits, es = some n ∧ value = some limits ∧ badElemSize limits n = false ∧ entrySize = 1 <<< n

/-- When `IOCQ::Init` succeeds, with the size of an entry. -/
def IOCQ.Succeeds (drv : Driver) (info : DeviceInfo) (qId numEntries : Nat) (irqEnabled : Bool) (irqVec : Nat) :
    QMem → List Call → Nat → Prop
  | .contig, log, entrySize => ElemSize (CtrlrConfig.getIOCQES drv log) info.cqes entrySize ∧
    drv.read (drv.readLog log .ctlspcCc) .ctlspcCap ≠ none ∧
      (cqClass drv).Succeeds ⟨⟨qId, entrySize, numEntries, .contig⟩, irqEnabled, irqVec⟩
        (drv.readLog (drv.readLog log .ctlspcCc) .ctlspcCap)
  | .discontig memBuffer, log, entrySize => drv.read log .ctlspcCap ≠ none ∧
    ElemSize (CtrlrConfig.getIOCQES drv (drv.readLog log .ctlspcCap)) info.cqes entrySize ∧
      (cqClass drv).Succeeds ⟨⟨qId, entrySize, numEntries, .discontig memBuffer⟩, irqEnabled, irqVec⟩
        (drv.readLog (drv.readLog log .ctlspcCap) .ctlspcCc)

/-- When `IOSQ::Init` succeeds, with the size of an entry. -/
def IOSQ.Succeeds (drv : Driver) (info : DeviceInfo) (qId numEntries cqId priority : Nat) :
    QMem → List Call → Nat → Prop
  | .contig, log, entrySize => priority ≤ 3 ∧ ElemSize (CtrlrConfig.getIOSQES drv log) info.sqes entrySize ∧
    drv.read (drv.readLog log .ctlspcCc) .ctlspcCap ≠ none ∧
      (sqClass drv).Succeeds ⟨⟨qId, entrySize, numEntries, .contig⟩, cqId⟩
        (drv.readLog (drv.readLog log .ctlspcCc) .ctlspcCap)
  | .discontig memBuffer, log, entrySize => drv.read log .ctlspcCap ≠ none ∧ priority ≤ 3 ∧
    ElemSize (CtrlrConfig.getIOSQES drv (drv.readLog log .ctlspcCap)) info.sqes entrySize ∧
      (sqClass drv).Succeeds ⟨⟨qId, entrySize, numEntries, .discontig memBuffer⟩, cqId⟩
        (drv.readLog (drv.readLog log .ctlspcCap) .ctlspcCc)

/-- When the steps before the command is sent succeed: `Init`, from its log on and with the size of an entry, and the
forming of the command, from the log after `Init`. -/
structure ToHdw.Needs where
  init : List Call → Nat → Prop
  scheme : List Call → Prop

/-- The command can be formed: the size of the queue does not wrap to zero, and the scheme of its interrupts, if it has
any, is known. -/
def ToHdw.Needs.form (N : ToHdw.Needs) (numEntries : Nat) (log log' : List Call) : Prop :=
  (∃ entrySize, N.init log entrySize ∧ entrySize * numEntries % 2 ^ 32 ≠ 0) ∧ N.scheme log'

namespace Queues

variable (drv : Driver) (info : DeviceInfo)

def iocqNeeds (qId numEntries : Nat) (irqEnabled : Bool) (irqVec : Nat) (mem : QMem) : ToHdw.Needs where
  init := IOCQ.Succeeds drv info qId numEntries irqEnabled irqVec mem
  scheme := fun log => irqEnabled = true → (CtrlrConfig.getIrqScheme drv log info).2 ≠ none

def iosqNeeds (qId numEntries cqId priority : Nat) (mem : QMem) : ToHdw.Needs where
  init := IOSQ.Succeeds drv info qId numEntries cqId priority mem
  scheme := fun _ => True

end Queues

/-- A step after the allocation throws, and this in the given world: `Init` fails, or else the command cannot be formed,
or else it fails. -/
inductive ToHdw.Throws {α : Type} (T : ToHdw α) (N : ToHdw.Needs) (numEntries : Nat)
    (sendAndReap : World → List Call × Bool) (o : Obj) (w : World) : World → Prop
  | init : (¬∃ entrySize, N.init w.rsrc.log entrySize) → Throws T N numEntries sendAndReap o w (T.initialised o w)
  | form : (∃ entrySize, N.init w.rsrc.log entrySize) →
      ¬N.form numEntries w.rsrc.log (T.initialised o w).rsrc.log →
      Throws T N numEntries sendAndReap o w (T.formed o w)
  | command : N.form numEntries w.rsrc.log (T.initialised o w).rsrc.log → (sendAndReap (T.formed o w)).2 = false →
      Throws T N numEntries sendAndReap o w ((T.formed o w).calling (sendAndReap (T.formed o w)).1)

/-- If a step after the allocation throws an exception whose constructor ends, that one gets the device disabled. -/
def ToHdw.Undone {α : Type} (drv : Driver) (su : Setup) (fuel : Nat) (T : ToHdw α) (N : ToHdw.Needs) (numEntries : Nat)
    (sendAndReap : World → List Call × Bool) (handle : Nat) (grpID : String) (w : World) : Prop :=
  (T.check w).2 = .passed → (T.check w).1.allocates handle grpID = true →
    ∀ v, T.Throws N numEntries sendAndReap (.new handle T.objType (some grpID) .none)
        ((T.check w).1.allocObj handle T.objType grpID .none) v →
      (FrmwkEx.construct drv su fuel v).isSome = true →
        ∀ u, FrmwkEx.marked drv fuel v = some u → FrmwkEx.GetsDisabled drv su u

/-! ## The steps that follow the allocation -/

/-- What the forming of a command needs of a queue that has been initialised. -/
theorem InitOutcome.prpBuffer_iff {region : MmapRegion} {mem : QMem} {records : Prop} {rc : Int} {q q' : Queue}
    {log log' : List Call} {threw : Bool} (h : InitOutcome region mem records rc q q' log log' threw)
    (hq : q.Uninit) (hthrew : threw = false) : q'.prpBuffer = true ↔ q'.getQSize ≠ 0 := by
  have hbuf : ∃ buf, q'.getQBuffer = some buf ∧ buf ≠ .null := by
    cases h with
    | refused hini => exact absurd hq hini
    | failed _ _ _ _ _ _ hthrew' =>
      rw [hthrew] at hthrew'
      cases hthrew'
    | mapped _ _ _ _ hne hnone =>
      have hcontig : q'.getIsContig = some true := by simp [Queue.getIsContig, hne, hnone]
      exact ⟨q'.mContigBuf, by rw [Queue.getQBuffer, hcontig], hne⟩
    | taken _ b _ _ _ hnull hsome =>
      have hcontig : q'.getIsContig = some false := by simp [Queue.getIsContig, hnull, hsome]
      exact ⟨.mem b.addr, by rw [Queue.getQBuffer, hcontig, hsome, Option.map_some], nofun⟩
  obtain ⟨buf, hsome, hne⟩ := hbuf
  simp [Queue.prpBuffer, hsome, hne]

/-- A helper takes the steps after the allocation as its needs say. -/
structure ToHdw.Meets {α : Type} (T : ToHdw α) (N : ToHdw.Needs) (numEntries : Nat) : Prop where
  init (log : List Call) : (T.init T.new log).threw = false ↔ ∃ entrySize, N.init log entrySize
  form (log : List Call) : (T.init T.new log).threw = false →
    ((T.form (T.init T.new log).obj (T.init T.new log).log).2 = true ↔
      N.form numEntries log (T.init T.new log).log)

section Steps

variable {drv : Driver} {info : DeviceInfo} {qId numEntries irqVec cqId priority : Nat} {irqEnabled : Bool}

theorem not_elemSize_none {es value : Option Nat} {entrySize : Nat} (h : es = none ∨ value = none) :
    ¬ElemSize es value entrySize := by
  rintro ⟨_, _, rfl, rfl, _⟩
  simp at h

theorem elemSize_some {n limits entrySize : Nat} : ElemSize (some n) (some limits) entrySize ↔
    badElemSize limits n = false ∧ entrySize = 1 <<< n := by
  constructor
  · rintro ⟨_, _, ⟨⟩, ⟨⟩, h⟩
    exact h
  · exact fun h => ⟨n, limits, rfl, rfl, h⟩

/-- What `CQ::Init` writes before anything can fail. -/
theorem CQInit.run_fields (i : CQInit) (log : List Call) :
    (i.run drv .new log).obj.getQSize = i.entrySize * i.numEntries % 2 ^ 32 ∧
      (i.run drv .new log).obj.mIrqEnabled = i.irqEnabled := by
  unfold CQInit.run CQ.init CQ.initDiscontig
  simp only [Queue.init_of_uninit CQ.uninit_new]
  repeat' split
  all_goals exact ⟨rfl, rfl⟩

theorem SQInit.run_fields (i : SQInit) (log : List Call) :
    (i.run drv .new log).obj.getQSize = i.entrySize * i.numEntries % 2 ^ 32 := by
  unfold SQInit.run SQ.init SQ.initDiscontig
  simp only [Queue.init_of_uninit SQ.uninit_new]
  repeat' split
  all_goals rfl

/-- The `Init` of a class `β` only puts checks in front of the one of its base. -/
def QClass.Fronts {α β ι : Type} (K : QClass α ι) (queue : β → Queue) (args : ι → InitArgs) (numEntries : Nat)
    (P : β → Prop) (r : InitRet β) (succeeds : Nat → Prop) : Prop :=
  r.threw = true ∧ (∀ entrySize, ¬succeeds entrySize) ∨
    P r.obj ∧ ∃ i log, queue r.obj = K.queue (K.init i K.new log).obj ∧ r.threw = (K.init i K.new log).threw ∧
      (args i).numEntries = numEntries ∧
        ∀ entrySize, succeeds entrySize ↔ entrySize = (args i).entrySize ∧ K.Succeeds i log

section Fronts

variable {α β ι : Type} {K : QClass α ι} {queue : β → Queue} {args : ι → InitArgs} {P : β → Prop} {r : InitRet β}
  {succeeds : Nat → Prop}

theorem QClass.Fronts.threw_iff (h : K.Fronts queue args numEntries P r succeeds) (hK : K.Lawful) :
    r.threw = false ↔ ∃ entrySize, succeeds entrySize := by
  obtain ⟨hthrew, hno⟩ | ⟨-, i, log, -, hthrew, -, hiff⟩ := h
  · exact iff_of_false (by simp [hthrew]) fun ⟨e, he⟩ => hno e he
  · rw [hthrew, hK.threw_iff]
    exact ⟨fun hsucc => ⟨(args i).entrySize, (hiff _).2 ⟨rfl, hsucc⟩⟩, fun ⟨e, he⟩ => ((hiff e).1 he).2⟩

theorem QClass.Fronts.obj (h : K.Fronts queue args numEntries P r succeeds) (hthrew : r.threw = false) : P r.obj := by
  obtain ⟨hthrew', -⟩ | ⟨hP, -⟩ := h
  · rw [hthrew] at hthrew'
    cases hthrew'
  · exact hP

theorem QClass.Fronts.prpBuffer_iff (h : K.Fronts queue args numEntries P r succeeds) (hK : K.Lawful)
    (hsize : ∀ i log, (K.queue (K.init i K.new log).obj).getQSize =
      (args i).entrySize * (args i).numEntries % 2 ^ 32) (hthrew : r.threw = false) :
    (queue r.obj).prpBuffer = true ↔ ∃ entrySize, succeeds entrySize ∧ entrySize * numEntries % 2 ^ 32 ≠ 0 := by
  obtain ⟨hthrew', -⟩ | ⟨-, i, log, hqueue, hthrew', hnum, hiff⟩ := h
  · rw [hthrew] at hthrew'
    cases hthrew'
  · rw [hthrew'] at hthrew
    have hsucc := (hK.threw_iff i log).1 hthrew
    rw [hqueue, (hK.outcome i K.new log).prpBuffer_iff hK.new hthrew, hsize, hnum]
    exact ⟨fun hne => ⟨_, (hiff _).2 ⟨rfl, hsucc⟩, hne⟩, fun ⟨e, he, hne⟩ => ((hiff e).1 he).1 ▸ hne⟩

end Fronts

def IOCQ.Fronts (drv : Driver) (numEntries : Nat) (irqEnabled : Bool) : InitRet CQ → (Nat → Prop) → Prop :=
  (cqClass drv).Fronts CQ.toQueue CQInit.toInitArgs numEntries fun cq => cq.mIrqEnabled = irqEnabled

def IOSQ.Fronts (drv : Driver) (numEntries : Nat) : InitRet IOSQ → (Nat → Prop) → Prop :=
  (sqClass drv).Fronts (fun iosq => iosq.toQueue) SQInit.toInitArgs numEntries fun _ => True

theorem IOCQ.fronts_run (i : CQInit) (log : List Call) {succeeds : Nat → Prop}
    (h : ∀ entrySize, succeeds entrySize ↔ entrySize = i.entrySize ∧ (cqClass drv).Succeeds i log) :
    IOCQ.Fronts drv i.numEntries i.irqEnabled (i.run drv .new log) succeeds :=
  .inr ⟨(i.run_fields log).2, i, log, rfl, rfl, rfl, h⟩

theorem IOSQ.fronts_run (iosq : IOSQ) (i : SQInit) (log : List Call) {succeeds : Nat → Prop}
    (h : ∀ entrySize, succeeds entrySize ↔ entrySize = i.entrySize ∧ (sqClass drv).Succeeds i log) :
    IOSQ.Fronts drv i.numEntries (iosq.lift (i.run drv .new log)) succeeds :=
  .inr ⟨trivial, i, log, rfl, rfl, rfl, h⟩

theorem IOCQ.init_fronts (log : List Call) : IOCQ.Fronts drv numEntries irqEnabled
    (IOCQ.init drv info qId numEntries irqEnabled irqVec .new log)
    fun entrySize => IOCQ.Succeeds drv info qId numEntries irqEnabled irqVec .contig log entrySize := by
  unfold IOCQ.init
  simp only [IOCQ.Succeeds]
  cases CtrlrConfig.getIOCQES drv log with
  | none => exact .inl ⟨rfl, fun _ h => not_elemSize_none (.inl rfl) h.1⟩
  | some n =>
    cases info.cqes with
    | none => exact .inl ⟨rfl, fun _ h => not_elemSize_none (.inr rfl) h.1⟩
    | some limits =>
      simp only [elemSize_some]
      cases hbad : badElemSize limits n with
      | true => exact .inl ⟨rfl, by simp⟩
      | false =>
        cases drv.read (drv.readLog log .ctlspcCc) .ctlspcCap with
        | none => exact .inl ⟨rfl, by simp⟩
        | some value =>
          refine IOCQ.fronts_run ⟨⟨qId, 1 <<< n, numEntries, .contig⟩, irqEnabled, irqVec⟩ _ fun entrySize => ?_
          simp only [true_and, ne_eq, reduceCtorEq, not_false_eq_true]
          exact and_congr_right fun h => by rw [h]

theorem IOCQ.initDiscontig_fronts (memBuffer : Option MemBuffer) (log : List Call) :
    IOCQ.Fronts drv numEntries irqEnabled
      (IOCQ.initDiscontig drv info qId numEntries memBuffer irqEnabled irqVec .new log)
      fun entrySize =>
        IOCQ.Succeeds drv info qId numEntries irqEnabled irqVec (.discontig memBuffer) log entrySize := by
  unfold IOCQ.initDiscontig
  simp only [IOCQ.Succeeds]
  cases drv.read log .ctlspcCap with
  | none => exact .inl ⟨rfl, by simp⟩
  | some value =>
    dsimp only
    cases CtrlrConfig.getIOCQES drv (drv.readLog log .ctlspcCap) with
    | none => exact .inl ⟨rfl, fun _ h => not_elemSize_none (.inl rfl) h.2.1⟩
    | some n =>
      cases info.cqes with
      | none => exact .inl ⟨rfl, fun _ h => not_elemSize_none (.inr rfl) h.2.1⟩
      | some limits =>
        simp only [elemSize_some]
        cases hbad : badElemSize limits n with
        | true => exact .inl ⟨rfl, by simp⟩
        | false =>
          refine IOCQ.fronts_run ⟨⟨qId, 1 <<< n, numEntries, .discontig memBuffer⟩, irqEnabled, irqVec⟩ _
            fun entrySize => ?_
          simp only [true_and, ne_eq, reduceCtorEq, not_false_eq_true]
          exact and_congr_right fun h => by rw [h]

theorem IOSQ.init_fronts (log : List Call) : IOSQ.Fronts drv numEntries
    (IOSQ.init drv info qId numEntries cqId priority .new log)
    fun entrySize => IOSQ.Succeeds drv info qId numEntries cqId priority .contig log entrySize := by
  unfold IOSQ.init
  simp only [IOSQ.Succeeds]
  by_cases hprio : priority > 3
  · rw [if_pos hprio]
    exact .inl ⟨rfl, fun _ h => absurd h.1 (Nat.not_le.2 hprio)⟩
  rw [if_neg hprio]
  simp only [Nat.not_lt.1 hprio, true_and]
  cases CtrlrConfig.getIOSQES drv log with
  | none => exact .inl ⟨rfl, fun _ h => not_elemSize_none (.inl rfl) h.1⟩
  | some n =>
    cases info.sqes with
    | none => exact .inl ⟨rfl, fun _ h => not_elemSize_none (.inr rfl) h.1⟩
    | some limits =>
      simp only [elemSize_some]
      cases hbad : badElemSize limits n with
      | true => exact .inl ⟨rfl, by simp⟩
      | false =>
        cases drv.read (drv.readLog log .ctlspcCc) .ctlspcCap with
        | none => exact .inl ⟨rfl, by simp⟩
        | some value =>
          refine IOSQ.fronts_run { IOSQ.new with mPriority := priority } ⟨⟨qId, 1 <<< n, numEntries, .contig⟩, cqId⟩ _
            fun entrySize => ?_
          simp only [true_and, ne_eq, reduceCtorEq, not_false_eq_true]
          exact and_congr_right fun h => by rw [h]

theorem IOSQ.initDiscontig_fronts (memBuffer : Option MemBuffer) (log : List Call) : IOSQ.Fronts drv numEntries
    (IOSQ.initDiscontig drv info qId numEntries memBuffer cqId priority .new log)
    fun entrySize => IOSQ.Succeeds drv info qId numEntries cqId priority (.discontig memBuffer) log entrySize := by
  unfold IOSQ.initDiscontig
  simp only [IOSQ.Succeeds]
  cases drv.read log .ctlspcCap with
  | none => exact .inl ⟨rfl, by simp⟩
  | some value =>
    dsimp only
    by_cases hprio : priority > 3
    · rw [if_pos hprio]
      exact .inl ⟨rfl, fun _ h => absurd h.2.1 (Nat.not_le.2 hprio)⟩
    rw [if_neg hprio]
    simp only [Nat.not_lt.1 hprio, true_and]
    cases CtrlrConfig.getIOSQES drv (drv.readLog log .ctlspcCap) with
    | none => exact .inl ⟨rfl, fun _ h => not_elemSize_none (.inl rfl) h.2.1⟩
    | some n =>
      cases info.sqes with
      | none => exact .inl ⟨rfl, fun _ h => not_elemSize_none (.inr rfl) h.2.1⟩
      | some limits =>
        simp only [elemSize_some]
        cases hbad : badElemSize limits n with
        | true => exact .inl ⟨rfl, by simp⟩
        | false =>
          refine IOSQ.fronts_run { IOSQ.new with mPriority := priority }
            ⟨⟨qId, 1 <<< n, numEntries, .discontig memBuffer⟩, cqId⟩ _ fun entrySize => ?_
          simp only [true_and, ne_eq, reduceCtorEq, not_false_eq_true]
          exact and_congr_right fun h => by rw [h]

theorem IOCQ.Fronts.meets {T : ToHdw CQ} {N : ToHdw.Needs}
    (h : ∀ log, IOCQ.Fronts drv numEntries irqEnabled (T.init T.new log) (N.init log))
    (hform : T.form = CreateIOCQ.init drv info)
    (hscheme : ∀ log, N.scheme log ↔ (irqEnabled = true → (CtrlrConfig.getIrqScheme drv log info).2 ≠ none)) :
    T.Meets N numEntries := by
  have hK := cqClass_lawful drv
  refine ⟨fun log => (h log).threw_iff hK, fun log hthrew => ?_⟩
  have hprp := (h log).prpBuffer_iff hK (fun i log => (i.run_fields log).1) hthrew
  have hirq := (h log).obj hthrew
  rw [ToHdw.Needs.form, ← hprp, hform, hscheme, ← hirq]
  unfold CreateIOCQ.init
  cases (T.init T.new log).obj.prpBuffer with
  | false => simp
  | true =>
    cases (T.init T.new log).obj.mIrqEnabled with
    | false => simp
    | true => simp [Option.isSome_iff_ne_none]

theorem IOSQ.Fronts.meets {T : ToHdw IOSQ} {N : ToHdw.Needs}
    (h : ∀ log, IOSQ.Fronts drv numEntries (T.init T.new log) (N.init log)) (hform : T.form = CreateIOSQ.init)
    (hscheme : ∀ log, N.scheme log) : T.Meets N numEntries := by
  have hK := sqClass_lawful drv
  refine ⟨fun log => (h log).threw_iff hK, fun log hthrew => ?_⟩
  have hprp := (h log).prpBuffer_iff hK SQInit.run_fields hthrew
  rw [ToHdw.Needs.form, ← hprp, hform, and_iff_left (hscheme _)]
  rfl

theorem Queues.createIOCQContigToHdw_meets :
    (Queues.createIOCQContigToHdw drv info qId numEntries irqEnabled irqVec).Meets
      (Queues.iocqNeeds drv info qId numEntries irqEnabled irqVec .contig) numEntries :=
  IOCQ.Fronts.meets IOCQ.init_fronts rfl fun _ => Iff.rfl

theorem Queues.createIOSQContigToHdw_meets :
    (Queues.createIOSQContigToHdw drv info qId numEntries cqId priority).Meets
      (Queues.iosqNeeds drv info qId numEntries cqId priority .contig) numEntries :=
  IOSQ.Fronts.meets IOSQ.init_fronts rfl fun _ => trivial

theorem Queues.createIOCQDiscontigToHdw_meets {qBackedMem : Option MemBuffer} :
    (Queues.createIOCQDiscontigToHdw drv info qId numEntries irqEnabled irqVec qBackedMem).Meets
      (Queues.iocqNeeds drv info qId numEntries irqEnabled irqVec (.discontig qBackedMem)) numEntries :=
  IOCQ.Fronts.meets (IOCQ.initDiscontig_fronts qBackedMem) rfl fun _ => Iff.rfl

theorem Queues.createIOSQDiscontigToHdw_meets {qBackedMem : Option MemBuffer} :
    (Queues.createIOSQDiscontigToHdw drv info qId numEntries cqId priority qBackedMem).Meets
      (Queues.iosqNeeds drv info qId numEntries cqId priority (.discontig qBackedMem)) numEntries :=
  IOSQ.Fronts.meets (IOSQ.initDiscontig_fronts qBackedMem) rfl fun _ => trivial

end Steps

/-! ## The map after a helper -/

section Map

open World

variable {α : Type} {drv : Driver} {su : Setup} {fuel : Nat} {w v : World} {handle : Nat} {grpID : String}

theorem World.objs_allocObj {objType : ObjType} (hne : objType ≠ .writeZeroes)
    (h : w.allocates handle grpID = true) : (w.allocObj handle objType grpID .none).objs =
      w.objs ++ [.new handle objType (some grpID) .none] := by
  simp only [allocates, Bool.and_eq_true, bne_iff_ne, Option.isNone_iff_eq_none, Bool.not_eq_true'] at h
  obtain ⟨⟨hname, hfree⟩, hcoll⟩ := h
  simp [allocObj, hname, hne, hfree, hcoll]

theorem World.obj_of_append {o : Obj} (hfree : w.obj o.handle = none) (hobjs : v.objs = w.objs ++ [o]) :
    v.obj o.handle = some o := by
  have hnone : w.objs.find? (·.handle == o.handle) = none := hfree
  simp [obj, hobjs, List.find?_append, hnone]

theorem intact_of_nil (h : v.mObjGrpLife = []) : (ToHdwEnd.threw v).Intact w := by
  intro o ho
  rw [h] at ho
  cases ho

theorem intact_of_objs (h : v.objs = w.objs) : (ToHdwEnd.threw v).Intact w := by
  intro o ho
  refine ⟨o, ?_, rfl, rfl⟩
  rwa [mObjGrpLife, h] at ho

/-- Nothing is left to be unwound from the map. -/
theorem intact_unwind (h : v.mObjGrpLife = []) : (ToHdw.unwind drv handle v).Intact w := by
  unfold ToHdw.unwind
  split
  · trivial
  · refine intact_of_nil ?_
    unfold drop
    cases hobj : v.obj handle with
    | none => exact h
    | some o =>
      have hname : o.lookupName = none := by
        have hmem := List.filter_eq_nil_iff.1 h o (obj_some hobj).1
        simpa using hmem
      dsimp only
      rw [if_pos hname]
      refine List.filter_eq_nil_iff.2 fun p hp => ?_
      have hp' : p ∈ v.objs.filter (·.handle != o.handle) := hp
      exact List.filter_eq_nil_iff.1 h p (List.mem_filter.1 hp').1

/-- A queue that is still in the map stays there. -/
theorem not_intact_unwind {o : Obj} (hfree : w.obj o.handle = none) (hname : o.lookupName ≠ none)
    (hobjs : v.objs = w.objs ++ [o]) : ¬(ToHdw.unwind drv o.handle v).Intact w := by
  have hobj := obj_of_append hfree hobjs
  have hsome : o.lookupName.isNone = false := Option.isNone_eq_false_iff.2 (Option.isSome_iff_ne_none.2 hname)
  have hdrop : v.drop drv o.handle = v.put { o with held := false } := by simp [drop, hobj, hname]
  rw [ToHdw.unwind, hobj, Option.any_some, hsome, Bool.false_and, if_neg Bool.false_ne_true, hdrop]
  intro hintact
  have hput : { o with held := false } ∈ (v.put { o with held := false }).mObjGrpLife := by
    refine List.mem_filter.2 ⟨List.mem_map.2 ⟨o, ?_, if_pos rfl⟩, Option.isSome_iff_ne_none.2 hname⟩
    rw [hobjs]
    exact List.mem_append_right _ (List.mem_singleton_self _)
  obtain ⟨p, hp, hhandle, _⟩ := hintact _ hput
  exact obj_none hfree p (List.mem_filter.1 hp).1 hhandle

/-- The queue may be another one after the steps, but it is in the map under its name. -/
theorem ToHdw.fill_objs (T : ToHdw α) (sendAndReap : World → List Call × Bool) {o : Obj} (hfree : w.obj o.handle = none)
    (hobjs : v.objs = w.objs ++ [o]) :
    ∃ q, (T.fill sendAndReap o v).1.objs = w.objs ++ [{ o with mQueue := q }] := by
  refine ⟨T.queue (T.init T.new v.rsrc.log).obj, ?_⟩
  have hput : (T.initialised o v).objs =
      w.objs ++ [{ o with mQueue := T.queue (T.init T.new v.rsrc.log).obj }] := by
    have hothers : w.objs.map (fun p => if p.handle = o.handle then
        { o with mQueue := T.queue (T.init T.new v.rsrc.log).obj } else p) = w.objs :=
      (List.map_congr_left fun p hp => if_neg (obj_none hfree p hp)).trans w.objs.map_id
    change v.objs.map _ = _
    rw [hobjs, List.map_append, hothers]
    simp
  unfold ToHdw.fill
  dsimp only
  split
  · exact hput
  · split <;> exact hput

theorem ToHdw.fill_init {T : ToHdw α} {N : ToHdw.Needs} {numEntries : Nat} (h : T.Meets N numEntries)
    (sendAndReap : World → List Call × Bool) (o : Obj) (hno : ¬∃ entrySize, N.init w.rsrc.log entrySize) :
    T.fill sendAndReap o w = (T.initialised o w, false) := by
  have hthrew : (T.init T.new w.rsrc.log).threw = true := by
    rw [← Bool.not_eq_false]
    exact fun hok => hno ((h.init w.rsrc.log).1 hok)
  exact if_pos hthrew

theorem ToHdw.fill_form {T : ToHdw α} {N : ToHdw.Needs} {numEntries : Nat} (h : T.Meets N numEntries)
    (sendAndReap : World → List Call × Bool) (o : Obj) (hsucc : ∃ entrySize, N.init w.rsrc.log entrySize)
    (hno : ¬N.form numEntries w.rsrc.log (T.initialised o w).rsrc.log) :
    T.fill sendAndReap o w = (T.formed o w, false) := by
  have hok := (h.init w.rsrc.log).2 hsucc
  have hnot : ¬(T.form (T.init T.new w.rsrc.log).obj (T.init T.new w.rsrc.log).log).2 = true :=
    fun hformed => hno ((h.form w.rsrc.log hok).1 hformed)
  simp only [fill, hok, Bool.false_eq_true, if_false, if_neg hnot]

theorem ToHdw.fill_command {T : ToHdw α} {N : ToHdw.Needs} {numEntries : Nat} (h : T.Meets N numEntries)
    (sendAndReap : World → List Call × Bool) (o : Obj)
    (hforms : N.form numEntries w.rsrc.log (T.initialised o w).rsrc.log) :
    T.fill sendAndReap o w = ((T.formed o w).calling (sendAndReap (T.formed o w)).1, (sendAndReap (T.formed o w)).2) := by
  obtain ⟨⟨entrySize, hsucc, _⟩, _⟩ := id hforms
  have hok := (h.init w.rsrc.log).2 ⟨entrySize, hsucc⟩
  have hformed := (h.form w.rsrc.log hok).2 hforms
  simp only [fill, hok, Bool.false_eq_true, if_false, if_pos hformed]

/-- The steps fail as `Throws` says. -/
theorem ToHdw.throws_iff {T : ToHdw α} {N : ToHdw.Needs} {numEntries : Nat} (h : T.Meets N numEntries)
    (sendAndReap : World → List Call × Bool) (o : Obj) (u : World) :
    T.Throws N numEntries sendAndReap o w u ↔ T.fill sendAndReap o w = (u, false) := by
  constructor
  · intro hthrows
    cases hthrows with
    | init hno => exact ToHdw.fill_init h sendAndReap o hno
    | form hsucc hno => exact ToHdw.fill_form h sendAndReap o hsucc hno
    | command hforms hfails => rw [ToHdw.fill_command h sendAndReap o hforms, hfails]
  · intro hfill
    by_cases hsucc : ∃ entrySize, N.init w.rsrc.log entrySize
    · by_cases hforms : N.form numEntries w.rsrc.log (T.initialised o w).rsrc.log
      · rw [ToHdw.fill_command h sendAndReap o hforms, Prod.mk.injEq] at hfill
        obtain ⟨rfl, hfails⟩ := hfill
        exact .command hforms hfails
      · rw [ToHdw.fill_form h sendAndReap o hsucc hforms, Prod.mk.injEq] at hfill
        obtain ⟨rfl, -⟩ := hfill
        exact .form hsucc hforms
    · rw [ToHdw.fill_init h sendAndReap o hsucc, Prod.mk.injEq] at hfill
      obtain ⟨rfl, -⟩ := hfill
      exact .init hsucc

/-- **A helper leaves the map intact exactly if no exception finds it with the queue in the map, or that exception gets
the device disabled.** -/
theorem ToHdw.intact_iff (T : ToHdw α) {N : ToHdw.Needs} {numEntries : Nat} (hmeets : T.Meets N numEntries)
    (hne : T.objType ≠ .writeZeroes) (hcheck : ∀ w, (T.check w).1.objs = w.objs)
    (sendAndReap : World → List Call × Bool) (w : World) :
    (T.run drv su fuel sendAndReap handle grpID w).Intact w ↔
      T.Undone drv su fuel N numEntries sendAndReap handle grpID w := by
  have hobjs := hcheck w
  unfold ToHdw.run ToHdw.Undone
  simp only [ToHdw.throws_iff hmeets]
  generalize T.check w = c at hobjs
  obtain ⟨v, result⟩ := c
  cases result with
  | crashed => exact iff_of_true trivial nofun
  | threw =>
    refine iff_of_true ?_ nofun
    dsimp only [ToHdw.raise]
    cases hctor : FrmwkEx.construct drv su fuel v with
    | none => trivial
    | some r =>
      obtain ⟨u, _, hdis, hno⟩ := FrmwkEx.construct_objs hctor
      by_cases hgets : FrmwkEx.GetsDisabled drv su u
      · exact intact_of_nil (hdis hgets)
      · exact intact_of_objs ((hno hgets).trans hobjs)
  | passed =>
    dsimp only at hobjs ⊢
    by_cases halloc : v.allocates handle grpID = true
    · have hfree : w.obj handle = none := by
        simp only [World.allocates, Bool.and_eq_true, Option.isNone_iff_eq_none] at halloc
        rw [World.obj, ← hobjs]
        exact halloc.1.2
      have hnew := World.objs_allocObj hne halloc
      rw [hobjs] at hnew
      obtain ⟨q, hfill⟩ := T.fill_objs sendAndReap (o := .new handle T.objType (some grpID) .none) hfree hnew
      rw [if_pos halloc]
      generalize T.fill sendAndReap _ _ = r at hfill ⊢
      obtain ⟨u, ok⟩ := r
      cases ok with
      | true => exact iff_of_true trivial fun _ _ _ h => nomatch h
      | false =>
        simp only [halloc, Prod.mk.injEq, and_true, forall_const, forall_eq', Bool.false_eq_true, if_false]
        dsimp only [ToHdw.raise]
        cases hctor : FrmwkEx.construct drv su fuel u with
        | none => exact iff_of_true trivial nofun
        | some ctor =>
          obtain ⟨u', hu, hdis, hno⟩ := FrmwkEx.construct_objs hctor
          simp only [hu, Option.isSome_some, forall_const, Option.some.injEq, forall_eq']
          constructor
          · intro hintact
            by_contra hnot
            exact not_intact_unwind (o := { Obj.new handle T.objType (some grpID) .none with mQueue := q }) hfree
              nofun ((hno hnot).trans hfill) hintact
          · exact fun hgets => intact_unwind (hdis hgets)
    · rw [if_neg halloc]
      exact iff_of_true trivial fun _ h => absurd h halloc

end Map

/-! ## The memory of a discontiguous queue -/

section Memory

variable {drv : Driver} {qBackedMem : Option MemBuffer} {numEntries : Nat} {w : World}

theorem Queues.checkMem_objs (w : World) : (Queues.checkMem drv qBackedMem numEntries w).1.objs = w.objs := by
  unfold Queues.checkMem
  split
  · rfl
  · split
    · rfl
    · split <;> rfl

theorem Queues.checkMem_threw_iff : (Queues.checkMem drv qBackedMem numEntries w).2 = .threw ↔
    CtrlrConfig.getIOCQES drv w.rsrc.log = none ∨
      MeasuredTooSmall (CtrlrConfig.getIOCQES drv w.rsrc.log) qBackedMem numEntries := by
  unfold Queues.checkMem MeasuredTooSmall
  cases CtrlrConfig.getIOCQES drv w.rsrc.log with
  | none => simp
  | some ioqes =>
    cases qBackedMem with
    | none => simp
    | some b =>
      dsimp only
      rw [Nat.one_shiftLeft, Nat.mul_comm]
      by_cases hsize : b.bufSize < numEntries * 2 ^ ioqes % 2 ^ 32
      · rw [if_pos hsize]
        exact iff_of_true rfl (.inr ⟨ioqes, b, rfl, rfl, hsize⟩)
      · rw [if_neg hsize]
        refine iff_of_false nofun (not_or.2 ⟨nofun, ?_⟩)
        rintro ⟨_, _, ⟨⟩, ⟨⟩, hsmall⟩
        exact hsize hsmall

/-- Both sizes of entries are fields of CC. -/
theorem CtrlrConfig.getIOCQES_of_getIOSQES {log : List Call} {es : Nat} (h : getIOSQES drv log = some es) :
    getIOCQES drv log ≠ none := by
  unfold getIOSQES getRegValue at h
  unfold getIOCQES getRegValue
  obtain ⟨regVal, hread, _⟩ := Option.map_eq_some_iff.1 h
  simp [hread]

/-- Memory that is too small is rejected exactly if it measures as too small. -/
theorem Queues.rejects_iff {entrySize : Option Nat}
    (hsize : ∀ es, entrySize = some es → CtrlrConfig.getIOCQES drv w.rsrc.log ≠ none) :
    (TooSmall entrySize qBackedMem numEntries → (Queues.checkMem drv qBackedMem numEntries w).2 = .threw) ↔
      (TooSmall entrySize qBackedMem numEntries →
        MeasuredTooSmall (CtrlrConfig.getIOCQES drv w.rsrc.log) qBackedMem numEntries) := by
  refine forall_congr' fun hsmall => ?_
  obtain ⟨es, b, hes, _⟩ := hsmall
  rw [Queues.checkMem_threw_iff, or_iff_right (hsize es hes)]

end Memory

/-- **When the helpers keep their promises**: when an exception after the allocation gets the device disabled, and, with
memory of the caller, when memory that is too small also measures as too small with the entries of a completion
queue. -/
theorem createToHdw_iff (drv : Driver) (su : Setup) (fuel : Nat) (info : DeviceInfo)
    (sendAndReap : World → List Call × Bool) (handle : Nat) (grpID : String) (w : World) (qId numEntries : Nat) :
    (∀ irqEnabled irqVec, let T := Queues.createIOCQContigToHdw drv info qId numEntries irqEnabled irqVec
      let N := Queues.iocqNeeds drv info qId numEntries irqEnabled irqVec .contig
      (T.run drv su fuel sendAndReap handle grpID w).Intact w ↔
        T.Undone drv su fuel N numEntries sendAndReap handle grpID w) ∧
    (∀ cqId priority, let T := Queues.createIOSQContigToHdw drv info qId numEntries cqId priority
      let N := Queues.iosqNeeds drv info qId numEntries cqId priority .contig
      (T.run drv su fuel sendAndReap handle grpID w).Intact w ↔
        T.Undone drv su fuel N numEntries sendAndReap handle grpID w) ∧
    (∀ irqEnabled irqVec qBackedMem,
      let T := Queues.createIOCQDiscontigToHdw drv info qId numEntries irqEnabled irqVec qBackedMem
      let N := Queues.iocqNeeds drv info qId numEntries irqEnabled irqVec (.discontig qBackedMem)
      let ioqes := CtrlrConfig.getIOCQES drv w.rsrc.log
      (T.run drv su fuel sendAndReap handle grpID w).Intact w ∧ (TooSmall ioqes qBackedMem numEntries → T.Rejects w) ↔
        T.Undone drv su fuel N numEntries sendAndReap handle grpID w ∧
          (TooSmall ioqes qBackedMem numEntries → MeasuredTooSmall ioqes qBackedMem numEntries)) ∧
    ∀ cqId priority qBackedMem,
      let T := Queues.createIOSQDiscontigToHdw drv info qId numEntries cqId priority qBackedMem
      let N := Queues.iosqNeeds drv info qId numEntries cqId priority (.discontig qBackedMem)
      let ioqes := CtrlrConfig.getIOSQES drv w.rsrc.log
      (T.run drv su fuel sendAndReap handle grpID w).Intact w ∧ (TooSmall ioqes qBackedMem numEntries → T.Rejects w) ↔
        T.Undone drv su fuel N numEntries sendAndReap handle grpID w ∧ (TooSmall ioqes qBackedMem numEntries →
          MeasuredTooSmall (CtrlrConfig.getIOCQES drv w.rsrc.log) qBackedMem numEntries) := by
  have hiocq : ObjType.iocq ≠ .writeZeroes := nofun
  have hiosq : ObjType.iosq ≠ .writeZeroes := nofun
  refine ⟨fun irqEnabled irqVec => ?_, fun cqId priority => ?_, fun irqEnabled irqVec qBackedMem => ?_,
    fun cqId priority qBackedMem => ?_⟩
  · exact ToHdw.intact_iff _ Queues.createIOCQContigToHdw_meets hiocq (fun _ => rfl) sendAndReap w
  · exact ToHdw.intact_iff _ Queues.createIOSQContigToHdw_meets hiosq (fun _ => rfl) sendAndReap w
  · exact and_congr
      (ToHdw.intact_iff _ Queues.createIOCQDiscontigToHdw_meets hiocq Queues.checkMem_objs sendAndReap w)
      (Queues.rejects_iff fun es h => by simp [h])
  · exact and_congr
      (ToHdw.intact_iff _ Queues.createIOSQDiscontigToHdw_meets hiosq Queues.checkMem_objs sendAndReap w)
      (Queues.rejects_iff fun es h => CtrlrConfig.getIOCQES_of_getIOSQES h)

/-- A driver that creates no completion queue and does not let go of the device; the entries in CC are of 16 and of 64
bytes. -/
def refuseDisable : Driver :=
  { MetaRsrc.grantingDriver with
    ioctl := fun _ req =>
      match req with
      | .prepareCQCreation _ _ _ => -1
      | .deviceState _ => -1
      | _ => 0
    read := fun _ _ => some 0x00460000 }

/-- A completion queue that was refused stays in the map, and memory for half an entry of a submission queue passes for
the memory of two. -/
theorem createToHdw_leaves_entry :
    ¬((Queues.createIOCQContigToHdw refuseDisable ⟨some 0x44, some 0x66, fun _ => .none⟩ 1 2 false 0).run refuseDisable
      ⟨false, "", fun _ => ([], true)⟩ 2 (fun _ => ([], true)) 1 "IOCQ" World.init).Intact World.init ∧
    TooSmall (CtrlrConfig.getIOSQES refuseDisable []) (some ⟨4096, 32, 4096⟩) 2 ∧
    ¬(Queues.createIOSQDiscontigToHdw refuseDisable ⟨some 0x44, some 0x66, fun _ => .none⟩ 1 2 1 0
      (some ⟨4096, 32, 4096⟩)).Rejects World.init := by
  refine ⟨fun hintact => ?_, ⟨6, _, by decide, rfl, by decide⟩, nofun⟩
  obtain ⟨p, hp, _⟩ := hintact
    { Obj.new 1 .iocq (some "IOCQ") .none with held := false, mQueue := ⟨1, 16, 2, .null, none⟩ } (by decide)
  cases hp

end Tnvme
