import Tnvme.Fw.World
import Tnvme.Mem.MemBuffer

/-!
# The payload of a command

A command shares its payload with others and keeps the size that it had when it was set. `SQ::Send` passes that size
next to the address that the payload has then. A call that allocates the payload anew does not tell the command, and a
payload whose size and offset do not add up in an `uint32_t` has less memory than its size says. So the size is right as
long as no call leaves less memory than the command has kept, and no such payload is set (`sent_run_iff`).
-/

namespace Tnvme

/-- The members. The buffer that can be written is known by its number, the other one by its address. -/
structure PrpData where
  mBufRW : Option Nat
  mBufRO : Option Nat
  mBufSize : BitVec 64
  mPrpAllowed : BitVec 32
  mPrpFields : BitVec 32
  deriving DecidableEq, Repr

namespace PrpData

/-- A command that has set its allowed fields and nothing else. -/
def new (allowedBitmask : BitVec 32) : PrpData := ⟨none, none, 0, allowedBitmask, 0⟩

/-- The exceptions of the setters. -/
inductive Fault where
  | noDirection
  | disallowed (prpFields : BitVec 32)
  | alreadyRO
  | alreadyRW
  | zeroLength
  | ambiguous (memBuffer : Option Nat) (bufSize : BitVec 64)
  | noReconfig
  deriving DecidableEq, Repr

/-- The end of the setters of a shared buffer. -/
def attach (cmd : PrpData) (prpFields : BitVec 32) (memBuffer : Nat) (bufSize : BitVec 32) : PrpData :=
  { cmd with mBufRW := some memBuffer, mBufSize := bufSize.setWidth 64, mPrpFields := prpFields }

/-- `SetPrpBuffer` with a shared buffer, which has the size `bufSize`: the members, and what is thrown. -/
def setPrpBuffer (dir : DataDir) (cmd : PrpData) (prpFields : BitVec 32) (memBuffer : Nat) (bufSize : BitVec 32) :
    PrpData × Option Fault :=
  if dir = .none then (cmd, some .noDirection)
  else if prpFields &&& ~~~cmd.mPrpAllowed ≠ 0 then (cmd, some (.disallowed prpFields))
  else if cmd.mBufRO ≠ none then (cmd, some .alreadyRO)
  else if bufSize = 0 then (cmd, some .zeroLength)
  else (cmd.attach prpFields memBuffer bufSize, none)

def setPrpBufferUnsafe (cmd : PrpData) (prpFields : BitVec 32) (memBuffer : Nat) (bufSize : BitVec 32) :
    PrpData × Option Fault :=
  (cmd.attach prpFields memBuffer bufSize, none)

/-- `SetPrpBuffer` with the memory of a queue, which comes with its size. -/
def setPrpBufferRO (dir : DataDir) (cmd : PrpData) (prpFields : BitVec 32) (memBuffer : Option Nat)
    (bufSize : BitVec 64) : PrpData × Option Fault :=
  if dir = .none then (cmd, some .noDirection)
  else if prpFields &&& ~~~cmd.mPrpAllowed ≠ 0 then (cmd, some (.disallowed prpFields))
  else if cmd.mBufRW ≠ none then (cmd, some .alreadyRW)
  else if bufSize = 0 then (cmd, some .zeroLength)
  else if bufSize = 0 ∧ memBuffer ≠ none ∨ bufSize ≠ 0 ∧ memBuffer = none then
    (cmd, some (.ambiguous memBuffer bufSize))
  else if cmd.mBufRO ≠ none then (cmd, some .noReconfig)
  else ({ cmd with mBufRO := memBuffer, mBufSize := bufSize, mPrpFields := prpFields }, none)

end PrpData

namespace MemBuffer

/-- The bytes from the address of a buffer to the end of its memory. -/
def State.room (s : State) : Nat :=
  match s.obj.mRealBaseAddr, s.obj.mVirBaseAddr with
  | some base, some first => ((s.live.find? fun b => b.base = base).map fun b => b.base + b.size - first).getD 0
  | _, _ => 0

/-- The sum of the size and the offset that were asked for is no `uint32_t`. -/
def State.Wrapped (s : State) : Prop :=
  ∃ bufSize offset1stPg : BitVec 32, s.asked = some (.initOffset1stPage bufSize offset1stPg) ∧
    2 ^ 32 ≤ bufSize.toNat + offset1stPg.toNat

/-- The buffer is empty or has one block, which has room for its size unless the sum was too large. -/
inductive State.Placed (s : State) : Prop where
  | empty : s = new → s.Placed
  | held (b : Block) : s.live = [b] → s.obj.mRealBaseAddr = some b.base → s.obj.mAllocByNewOperator = b.byNew →
      (¬s.Wrapped → s.room = s.obj.mVirBufSize.toNat) → (s.Wrapped → s.room = 0 ∧ s.obj.mVirBufSize ≠ 0) → s.Placed

/-- The memory that a call leaves of a buffer, if it does not keep what it has. -/
def leaves {pageSize : BitVec 32} (call : Call pageSize) : Option Nat :=
  match call.init with
  | .init bufSize => if call.answer = none then some 0 else some bufSize.toNat
  | .initAlignment bufSize align =>
    if align.toNat % 8 ≠ 0 then none else if call.answer = none then some 0 else some bufSize.toNat
  | .initOffset1stPage bufSize offset1stPg =>
    if offset1stPg.toNat % 4 ≠ 0 then none else if call.answer = none then some 0
    else if 2 ^ 32 ≤ bufSize.toNat + offset1stPg.toNat then some 0 else some bufSize.toNat

end MemBuffer

/-- A command, and all buffers of the process. -/
structure Payloads where
  cmd : PrpData
  bufs : Nat → MemBuffer.State

namespace Payloads

/-- `GetBufSize` of a buffer. -/
def bufSize (w : Payloads) (id : Nat) : BitVec 32 := (w.bufs id).obj.mVirBufSize

/-- `GetROPrpBuffer`; no address is `NULL`. -/
def getROPrpBuffer (w : Payloads) : Option Nat :=
  match w.cmd.mBufRW with
  | some id => (w.bufs id).obj.mVirBaseAddr
  | none => w.cmd.mBufRO

/-- What `SQ::Send` passes to the driver of the payload. -/
structure Sent where
  dataBufSize : BitVec 64
  dataBufPtr : Option Nat
  bitMask : BitVec 32
  deriving DecidableEq, Repr

def send (w : Payloads) : Sent := ⟨w.cmd.mBufSize, w.getROPrpBuffer, w.cmd.mPrpFields⟩

variable (pageSize : BitVec 32)

/-- What is done with the command or with a buffer. -/
inductive Action where
  | setPrpBuffer (dir : DataDir) (prpFields : BitVec 32) (memBuffer : Nat)
  | setPrpBufferUnsafe (prpFields : BitVec 32) (memBuffer : Nat)
  | setPrpBufferRO (dir : DataDir) (prpFields : BitVec 32) (memBuffer : Option Nat) (bufSize : BitVec 64)
  | reinit (id : Nat) (call : MemBuffer.Call pageSize)

/-- The state after an action, and what a setter has thrown. -/
def Action.run (w : Payloads) : Action pageSize → Payloads × Option PrpData.Fault
  | .setPrpBuffer dir prpFields id =>
    let res := w.cmd.setPrpBuffer dir prpFields id (w.bufSize id)
    ({ w with cmd := res.1 }, res.2)
  | .setPrpBufferUnsafe prpFields id =>
    let res := w.cmd.setPrpBufferUnsafe prpFields id (w.bufSize id)
    ({ w with cmd := res.1 }, res.2)
  | .setPrpBufferRO dir prpFields memBuffer size =>
    let res := w.cmd.setPrpBufferRO dir prpFields memBuffer size
    ({ w with cmd := res.1 }, res.2)
  | .reinit id call => ({ w with bufs := Function.update w.bufs id (MemBuffer.step pageSize (w.bufs id) call) }, none)

def step (w : Payloads) (a : Action pageSize) : Payloads := (Action.run pageSize w a).1

/-- The memory that is sent has at least the size that is sent. Without a buffer that is zero; the memory of a queue has
been given together with its size. -/
def Fits (w : Payloads) : Prop :=
  match w.cmd.mBufRW with
  | some id => w.send.dataBufSize.toNat ≤ (w.bufs id).room
  | none => w.cmd.mBufRO = none → w.send.dataBufSize = 0

/-- An action that throws leaves the command as it was. -/
def ThrowsClean (w : Payloads) (a : Action pageSize) : Prop :=
  (Action.run pageSize w a).2 ≠ none → (step pageSize w a).cmd = w.cmd

variable {pageSize}

/-- The action leaves less memory than the command has kept of its payload, or makes a payload of a buffer that has less
than its size. -/
def Spoils (w : Payloads) : Action pageSize → Prop
  | .setPrpBuffer dir prpFields id =>
    dir ≠ .none ∧ prpFields &&& ~~~w.cmd.mPrpAllowed = 0 ∧ w.cmd.mBufRO = none ∧ (w.bufs id).Wrapped
  | .setPrpBufferUnsafe _ id => (w.bufs id).Wrapped
  | .setPrpBufferRO .. => False
  | .reinit id call =>
    w.cmd.mBufRW = some id ∧ ∃ size, MemBuffer.leaves call = some size ∧ size < w.cmd.mBufSize.toNat

end Payloads

/-! ## The memory of a buffer -/

namespace MemBuffer

variable {pageSize : BitVec 32} {s : State}

theorem resize_placed (h : s.Placed) : resize s = new := by
  cases h with
  | empty hnew => rw [hnew]; rfl
  | held b hlive hreal hflag =>
    have hnone : release b.byNew b.base [b] = [] := by simp [release]
    rw [resize, if_pos (by rw [hreal]; exact Option.some_ne_none _), deallocateResources, hreal, hlive, hflag]
    dsimp only
    rw [hnone]
    rfl

theorem room_alloc {obj : Members} {b : Block} {first : Nat} {asked : Option Init}
    (hreal : obj.mRealBaseAddr = some b.base) (hvir : obj.mVirBaseAddr = some first) :
    State.room ⟨obj, [b], asked⟩ = b.base + b.size - first := by
  simp [State.room, hreal, hvir]

/-- A buffer that has just been allocated, without an offset. -/
theorem placed_plain {obj : Members} {b : Block} {asked : Init} (hreal : obj.mRealBaseAddr = some b.base)
    (hvir : obj.mVirBaseAddr = some b.base) (hflag : obj.mAllocByNewOperator = b.byNew)
    (hsize : b.size = obj.mVirBufSize.toNat) (hasked : ∀ size off, asked ≠ .initOffset1stPage size off) :
    State.Placed ⟨obj, [b], some asked⟩ ∧ State.room ⟨obj, [b], some asked⟩ = obj.mVirBufSize.toNat := by
  have hroom : State.room ⟨obj, [b], some asked⟩ = obj.mVirBufSize.toNat := by
    rw [room_alloc hreal hvir, Nat.add_sub_cancel_left, hsize]
  refine ⟨.held b rfl hreal hflag (fun _ => hroom) ?_, hroom⟩
  rintro ⟨size, off, h, -⟩
  exact absurd (Option.some.inj h) (hasked size off)

/-- A buffer that has just been allocated, with an offset. -/
theorem placed_offset {obj : Members} {bufSize offset1stPg : BitVec 32} {base : Nat}
    (hreal : obj.mRealBaseAddr = some base) (hvir : obj.mVirBaseAddr = some (base + offset1stPg.toNat))
    (hflag : obj.mAllocByNewOperator = false) (hsize : obj.mVirBufSize = bufSize) :
    State.Placed ⟨obj, [⟨base, (bufSize + offset1stPg).toNat, false⟩], some (.initOffset1stPage bufSize offset1stPg)⟩ ∧
      State.room ⟨obj, [⟨base, (bufSize + offset1stPg).toNat, false⟩], some (.initOffset1stPage bufSize offset1stPg)⟩ =
        if 2 ^ 32 ≤ bufSize.toNat + offset1stPg.toNat then 0 else bufSize.toNat := by
  subst hsize
  have hsum : (obj.mVirBufSize + offset1stPg).toNat = (obj.mVirBufSize.toNat + offset1stPg.toNat) % 2 ^ 32 :=
    BitVec.toNat_add _ _
  have hbuf := obj.mVirBufSize.isLt
  have hoff := offset1stPg.isLt
  have hroom : State.room ⟨obj, [⟨base, (obj.mVirBufSize + offset1stPg).toNat, false⟩],
      some (.initOffset1stPage obj.mVirBufSize offset1stPg)⟩ =
        if 2 ^ 32 ≤ obj.mVirBufSize.toNat + offset1stPg.toNat then 0 else obj.mVirBufSize.toNat := by
    rw [room_alloc hreal hvir]
    dsimp only
    split <;> omega
  refine ⟨.held _ rfl hreal hflag (fun hno => ?_) ?_, hroom⟩
  · rw [hroom, if_neg fun hwide => hno ⟨_, _, rfl, hwide⟩]
  · rintro ⟨size, off, h, hwide⟩
    obtain ⟨rfl, rfl⟩ : obj.mVirBufSize = size ∧ offset1stPg = off := by simpa using h
    refine ⟨by rw [hroom, if_pos hwide], fun hzero => ?_⟩
    rw [hzero] at hwide
    change 2 ^ 32 ≤ 0 + offset1stPg.toNat at hwide
    omega

/-- A call leaves of the memory what it says. -/
theorem placed_step (h : s.Placed) (call : Call pageSize) :
    (step pageSize s call).Placed ∧ (step pageSize s call).room = (leaves call).getD s.room := by
  obtain ⟨init, answer, haligned⟩ := call
  cases init with
  | init bufSize =>
    change (MemBuffer.init bufSize answer s).1.Placed ∧ (MemBuffer.init bufSize answer s).1.room = _
    unfold MemBuffer.init
    rw [resize_placed h]
    cases answer with
    | none => exact ⟨.empty rfl, rfl⟩
    | some base => exact placed_plain rfl rfl rfl rfl nofun
  | initAlignment bufSize align =>
    change (initAlignment bufSize align answer s).1.Placed ∧ (initAlignment bufSize align answer s).1.room = _
    unfold initAlignment leaves
    by_cases hmod : align.toNat % 8 ≠ 0
    · simp only [if_pos hmod]
      exact ⟨h, rfl⟩
    simp only [if_neg hmod, resize_placed h]
    cases answer with
    | none => exact ⟨.empty rfl, rfl⟩
    | some base => exact placed_plain rfl rfl rfl rfl nofun
  | initOffset1stPage bufSize offset1stPg =>
    change (initOffset1stPage pageSize bufSize offset1stPg answer s).1.Placed ∧
      (initOffset1stPage pageSize bufSize offset1stPg answer s).1.room = _
    unfold initOffset1stPage leaves
    by_cases hmod : offset1stPg.toNat % 4 ≠ 0
    · simp only [if_pos hmod]
      exact ⟨h, rfl⟩
    simp only [if_neg hmod, resize_placed h]
    cases answer with
    | none => exact ⟨.empty rfl, rfl⟩
    | some base =>
      obtain ⟨hplaced, hroom⟩ := @placed_offset ⟨false, some base, some (base + offset1stPg.toNat), bufSize,
        if offset1stPg ≠ 0 then offset1stPg else pageSize⟩ bufSize offset1stPg base rfl rfl rfl rfl
      refine ⟨hplaced, hroom.trans ?_⟩
      simp only [reduceCtorEq, if_false]
      split <;> rfl

end MemBuffer

/-! ## What an action does -/

namespace Payloads

variable {pageSize : BitVec 32} {w : Payloads}

/-- A setter of a shared buffer attaches it with its size, or throws and leaves the command as it was. -/
theorem setPrpBuffer_cases (dir : DataDir) (cmd : PrpData) (prpFields : BitVec 32) (memBuffer : Nat)
    (bufSize : BitVec 32) :
    cmd.setPrpBuffer dir prpFields memBuffer bufSize = (cmd.attach prpFields memBuffer bufSize, none) ∨
      ∃ fault, cmd.setPrpBuffer dir prpFields memBuffer bufSize = (cmd, some fault) := by
  unfold PrpData.setPrpBuffer
  repeat' split
  all_goals first | exact .inr ⟨_, rfl⟩ | exact .inl rfl

theorem setPrpBufferRO_cases (dir : DataDir) (cmd : PrpData) (prpFields : BitVec 32) (memBuffer : Option Nat)
    (bufSize : BitVec 64) :
    (cmd.mBufRW = none ∧ memBuffer ≠ none ∧ cmd.setPrpBufferRO dir prpFields memBuffer bufSize =
        ({ cmd with mBufRO := memBuffer, mBufSize := bufSize, mPrpFields := prpFields }, none)) ∨
      ∃ fault, cmd.setPrpBufferRO dir prpFields memBuffer bufSize = (cmd, some fault) := by
  unfold PrpData.setPrpBufferRO
  repeat' split
  all_goals try exact .inr ⟨_, rfl⟩
  rename_i hrw hzero hambiguous _
  exact .inl ⟨not_not.1 hrw, fun hnull => hambiguous (.inr ⟨hzero, hnull⟩), rfl⟩

/-- A buffer fits the size that it has itself exactly if its memory was not asked for with a sum that wraps. -/
theorem fits_attach_iff {id : Nat} (h : (w.bufs id).Placed) (prpFields : BitVec 32) :
    Fits { w with cmd := w.cmd.attach prpFields id (w.bufSize id) } ↔ ¬(w.bufs id).Wrapped := by
  change ((w.bufSize id).setWidth 64).toNat ≤ (w.bufs id).room ↔ _
  rw [BitVec.toNat_setWidth, Nat.mod_eq_of_lt (Nat.lt_trans (w.bufSize id).isLt (by decide)), bufSize]
  cases h with
  | empty hnew =>
    rw [hnew]
    refine iff_of_true (Nat.le_refl 0) ?_
    rintro ⟨_, _, hasked, -⟩
    cases hasked
  | held b hlive hreal hflag hfit hwrap =>
    by_cases hw : (w.bufs id).Wrapped
    · obtain ⟨hroom, hpos⟩ := hwrap hw
      rw [hroom, Nat.le_zero]
      exact iff_of_false (fun hzero => hpos (BitVec.eq_of_toNat_eq hzero)) (not_not.2 hw)
    · exact iff_of_true (Nat.le_of_eq (hfit hw).symm) hw

theorem throwsClean (w : Payloads) (a : Action pageSize) : ThrowsClean pageSize w a := by
  intro hthrew
  cases a with
  | setPrpBuffer dir prpFields id =>
    rcases setPrpBuffer_cases dir w.cmd prpFields id (w.bufSize id) with h | ⟨fault, h⟩
    · exact absurd (by rw [Action.run, h]) hthrew
    · rw [step, Action.run, h]
  | setPrpBufferUnsafe prpFields id => exact absurd rfl hthrew
  | setPrpBufferRO dir prpFields memBuffer size =>
    rcases setPrpBufferRO_cases dir w.cmd prpFields memBuffer size with ⟨-, -, h⟩ | ⟨fault, h⟩
    · exact absurd (by rw [Action.run, h]) hthrew
    · rw [step, Action.run, h]
  | reinit id call => rfl

theorem fits_some {id : Nat} (h : w.cmd.mBufRW = some id) : Fits w ↔ w.cmd.mBufSize.toNat ≤ (w.bufs id).room := by
  unfold Fits
  rw [h]
  rfl

theorem fits_none (h : w.cmd.mBufRW = none) : Fits w ↔ (w.cmd.mBufRO = none → w.cmd.mBufSize = 0) := by
  unfold Fits
  rw [h]
  rfl

/-- What is relied on of the buffers. -/
def AllPlaced (w : Payloads) : Prop := ∀ id, (w.bufs id).Placed

/-- A call for one buffer leaves the others. -/
theorem bufs_reinit (hw : AllPlaced w) (id : Nat) (call : MemBuffer.Call pageSize) (other : Nat) :
    ((step pageSize w (.reinit id call)).bufs other).Placed ∧ ((step pageSize w (.reinit id call)).bufs other).room =
      if other = id then (MemBuffer.leaves call).getD (w.bufs id).room else (w.bufs other).room := by
  change (Function.update w.bufs id (MemBuffer.step pageSize (w.bufs id) call) other).Placed ∧
    (Function.update w.bufs id (MemBuffer.step pageSize (w.bufs id) call) other).room = _
  by_cases h : other = id
  · subst h
    rw [Function.update_self, if_pos rfl]
    exact MemBuffer.placed_step (hw other) call
  · rw [Function.update_of_ne h, if_neg h]
    exact ⟨hw other, rfl⟩

theorem allPlaced_step (hw : AllPlaced w) (a : Action pageSize) : AllPlaced (step pageSize w a) := by
  cases a with
  | reinit id call => exact fun other => (bufs_reinit hw id call other).1
  | setPrpBuffer | setPrpBufferUnsafe | setPrpBufferRO => exact hw

theorem fits_reinit_iff (hw : AllPlaced w) (h : Fits w) (id : Nat) (call : MemBuffer.Call pageSize) :
    Fits (step pageSize w (.reinit id call)) ↔ ¬Spoils w (.reinit id call) := by
  have hcmd : (step pageSize w (.reinit id call)).cmd = w.cmd := rfl
  cases hrw : w.cmd.mBufRW with
  | none =>
    refine iff_of_true ((fits_none (hcmd ▸ hrw)).2 (hcmd ▸ (fits_none hrw).1 h)) fun hspoils => ?_
    cases hrw.symm.trans hspoils.1
  | some attached =>
    have hold := (fits_some hrw).1 h
    rw [fits_some (hcmd ▸ hrw), hcmd, (bufs_reinit hw id call attached).2]
    by_cases hid : attached = id
    · subst hid
      rw [if_pos rfl]
      cases hleaves : MemBuffer.leaves call with
      | none =>
        refine iff_of_true hold ?_
        rintro ⟨-, size, hsome, -⟩
        cases hleaves.symm.trans hsome
      | some size =>
        refine Nat.not_lt.symm.trans (not_congr ⟨fun hlt => ⟨hrw, size, hleaves, hlt⟩, ?_⟩)
        rintro ⟨-, size', hsome, hlt⟩
        cases hleaves.symm.trans hsome
        exact hlt
    · rw [if_neg hid]
      exact iff_of_true hold fun hspoils => hid (Option.some.inj (hrw.symm.trans hspoils.1))

/-- A wrapped buffer is not empty. -/
theorem bufSize_of_wrapped {id : Nat} (h : (w.bufs id).Placed) (hw : (w.bufs id).Wrapped) : w.bufSize id ≠ 0 := by
  cases h with
  | empty hnew =>
    rw [hnew] at hw
    obtain ⟨_, _, hasked, -⟩ := hw
    cases hasked
  | held b hlive hreal hflag hfit hwrap => exact (hwrap hw).2

theorem fits_setPrpBuffer_iff (hw : AllPlaced w) (h : Fits w) (dir : DataDir) (prpFields : BitVec 32) (id : Nat) :
    Fits { w with cmd := (w.cmd.setPrpBuffer dir prpFields id (w.bufSize id)).1 } ↔
      ¬(dir ≠ .none ∧ prpFields &&& ~~~w.cmd.mPrpAllowed = 0 ∧ w.cmd.mBufRO = none ∧ (w.bufs id).Wrapped) := by
  unfold PrpData.setPrpBuffer
  split
  · rename_i hdir
    exact iff_of_true h fun hspoils => hspoils.1 hdir
  split
  · rename_i hfields
    exact iff_of_true h fun hspoils => hfields hspoils.2.1
  split
  · rename_i hro
    exact iff_of_true h fun hspoils => hro hspoils.2.2.1
  split
  · rename_i hzero
    exact iff_of_true h fun hspoils => bufSize_of_wrapped (hw id) hspoils.2.2.2 hzero
  · rename_i hdir hfields hro _
    refine (fits_attach_iff (hw id) prpFields).trans (not_congr ⟨fun hwrapped => ?_, fun hspoils => hspoils.2.2.2⟩)
    exact ⟨hdir, not_not.1 hfields, not_not.1 hro, hwrapped⟩

/-- **An action keeps the size right exactly if it does not spoil it.** -/
theorem fits_step_iff (hw : AllPlaced w) (h : Fits w) (a : Action pageSize) :
    Fits (step pageSize w a) ↔ ¬Spoils w a := by
  cases a with
  | setPrpBuffer dir prpFields id => exact fits_setPrpBuffer_iff hw h dir prpFields id
  | setPrpBufferUnsafe prpFields id => exact fits_attach_iff (hw id) prpFields
  | setPrpBufferRO dir prpFields memBuffer size =>
    refine iff_of_true ?_ fun hno => hno
    rw [step, Action.run]
    rcases setPrpBufferRO_cases dir w.cmd prpFields memBuffer size with ⟨hrw, hnull, hset⟩ | ⟨fault, hset⟩
    · rw [hset]
      refine (fits_none ?_).2 fun hnone => absurd hnone hnull
      exact hrw
    · rw [hset]; exact h
  | reinit id call => exact fits_reinit_iff hw h id call

/-! ## What a run does -/

/-- A new command and new buffers. -/
def start (allowedBitmask : BitVec 32) : Payloads := ⟨PrpData.new allowedBitmask, fun _ => MemBuffer.new⟩

/-- **Along a run the size that is sent fits the memory, and a setter that throws leaves the command alone, exactly as
long as no action spoils the payload.** -/
theorem sent_run_iff (pageSize : BitVec 32) (allowedBitmask : BitVec 32) (actions : List (Action pageSize)) :
    (∀ x ∈ Runs.steps (step pageSize) (start allowedBitmask) actions,
      ThrowsClean pageSize x.1 x.2 ∧ Fits (step pageSize x.1 x.2)) ↔
      ∀ x ∈ Runs.steps (step pageSize) (start allowedBitmask) actions, ¬Spoils x.1 x.2 := by
  have hstep (w : Payloads) (a : Action pageSize) (hw : AllPlaced w) (h : Fits w) :
      ThrowsClean pageSize w a ∧ Fits (step pageSize w a) ↔ ¬Spoils w a :=
    (and_iff_right (throwsClean w a)).trans (fits_step_iff hw h a)
  exact Runs.good_run_iff (J := AllPlaced) (fun _ a hw => allPlaced_step hw a) hstep (fun _ => .empty rfl)
    ((fits_none rfl).2 fun _ => rfl) actions

/-- Memory of `bufSize` bytes by `new`. -/
def byInit (bufSize : BitVec 32) : MemBuffer.Call 4096#32 := ⟨.init bufSize, some 65536, fun _ _ => Nat.one_dvd _⟩

/-- A payload of 4096 bytes that is cut down to 512. -/
def cutDown : List (Action 4096#32) :=
  [.reinit 0 (byInit 4096#32), .setPrpBuffer .toDevice 1#32 0, .reinit 0 (byInit 512#32)]

theorem sent_too_much : ¬∀ (pageSize allowedBitmask : BitVec 32) (actions : List (Action pageSize)),
    ∀ x ∈ Runs.steps (step pageSize) (start allowedBitmask) actions,
      ThrowsClean pageSize x.1 x.2 ∧ Fits (step pageSize x.1 x.2) := by
  intro h
  have hlast := h 4096#32 1#32 cutDown _ (List.mem_cons_of_mem _ (List.mem_cons_of_mem _ List.mem_cons_self))
  exact absurd ((fits_some rfl).1 hlast.2) (by decide)

end Payloads
end Tnvme
