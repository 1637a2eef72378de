import Mathlib.Algebra.Ring.Nat
import Tnvme.Lib.Runs

/-!
# The buffers of the tests

A `MemBuffer` gets its memory from one of three functions, which allocate it with `new` or with `posix_memalign` and
set the members one by one. Each gives back what the buffer had before. What the memory is filled with is left out.

`Good` says what the members have to do with the memory that is allocated. Every call keeps it but one: the sum of the
size and the offset is a `uint32_t`, and can be too small for both (`fits_run_iff`).
-/

namespace Tnvme.MemBuffer

/-- The members. A null pointer is `none`. -/
structure Members where
  mAllocByNewOperator : Bool
  mRealBaseAddr : Option Nat
  mVirBaseAddr : Option Nat
  mVirBufSize : BitVec 32
  mAlignment : BitVec 32
  deriving DecidableEq, Repr

/-- What an allocator has handed out. -/
structure Block where
  base : Nat
  size : Nat
  byNew : Bool
  deriving DecidableEq, Repr

/-- The three functions that allocate. -/
inductive Init where
  | init (bufSize : BitVec 32)
  | initAlignment (bufSize align : BitVec 32)
  | initOffset1stPage (bufSize offset1stPg : BitVec 32)
  deriving DecidableEq, Repr

/-- The members, the memory that was allocated for the buffer and not given back, and the call that has allocated it. -/
structure State where
  obj : Members
  live : List Block
  asked : Option Init
  deriving DecidableEq, Repr

/-- `InitMemberVariables` -/
def initMemberVariables : Members := ⟨true, none, none, 0, 0⟩

def new : State := ⟨initMemberVariables, [], none⟩

/-- `delete []` and `free` give back what was allocated in the same way. -/
def release (byNew : Bool) (base : Nat) (live : List Block) : List Block :=
  live.filter fun b => ¬(b.base = base ∧ b.byNew = byNew)

def deallocateResources (s : State) : State :=
  match s.obj.mRealBaseAddr with
  | none => ⟨initMemberVariables, s.live, none⟩
  | some base => ⟨initMemberVariables, release s.obj.mAllocByNewOperator base s.live, none⟩

/-- The beginning of all three: a buffer that has memory gives it back. -/
def resize (s : State) : State := if s.obj.mRealBaseAddr ≠ none then deallocateResources s else s

section Calls

variable (pageSize : BitVec 32)

/-- The sizes and alignments that are asked for; `none` is an exception. `answer` is where the memory has been
allocated, if it has been. -/
def initOffset1stPage (bufSize offset1stPg : BitVec 32) (answer : Option Nat) (s : State) : State × Bool :=
  if offset1stPg.toNat % 4 ≠ 0 then (s, true)
  else
    let s := resize s
    let obj := { s.obj with mAllocByNewOperator := false, mVirBufSize := bufSize }
    let realBufSize := bufSize + offset1stPg
    match answer with
    | none => ({ s with obj := initMemberVariables }, true)
    | some base =>
      let obj := { obj with
        mRealBaseAddr := some base
        mVirBaseAddr := some (base + offset1stPg.toNat)
        mAlignment := if offset1stPg ≠ 0 then offset1stPg else pageSize }
      (⟨obj, ⟨base, realBufSize.toNat, false⟩ :: s.live, some (.initOffset1stPage bufSize offset1stPg)⟩, false)

def initAlignment (bufSize align : BitVec 32) (answer : Option Nat) (s : State) : State × Bool :=
  if align.toNat % 8 ≠ 0 then (s, true)
  else
    let s := resize s
    let obj := { s.obj with mAllocByNewOperator := false, mVirBufSize := bufSize }
    match answer with
    | none => ({ s with obj := initMemberVariables }, true)
    | some base =>
      let obj := { obj with mRealBaseAddr := some base, mVirBaseAddr := some base, mAlignment := align }
      (⟨obj, ⟨base, bufSize.toNat, false⟩ :: s.live, some (.initAlignment bufSize align)⟩, false)

def init (bufSize : BitVec 32) (answer : Option Nat) (s : State) : State × Bool :=
  let s := resize s
  let obj := { s.obj with mAllocByNewOperator := true, mVirBufSize := bufSize }
  match answer with
  | none => ({ s with obj := initMemberVariables }, true)
  | some base =>
    let obj := { obj with mRealBaseAddr := some base, mVirBaseAddr := some base, mAlignment := 0 }
    (⟨obj, ⟨base, bufSize.toNat, true⟩ :: s.live, some (.init bufSize)⟩, false)

/-- The alignment that `posix_memalign` is asked for. -/
def Init.align : Init → Nat
  | .init _ => 1
  | .initAlignment _ align => align.toNat
  | .initOffset1stPage _ _ => pageSize.toNat

/-- A call, and the memory it is given, aligned as it asks for. -/
structure Call where
  init : Init
  answer : Option Nat
  aligned : ∀ base, answer = some base → init.align pageSize ∣ base

/-- The state after a call, and whether it has thrown. -/
def Call.run (c : Call pageSize) (s : State) : State × Bool :=
  match c.init with
  | .init bufSize => MemBuffer.init bufSize c.answer s
  | .initAlignment bufSize align => MemBuffer.initAlignment bufSize align c.answer s
  | .initOffset1stPage bufSize offset1stPg => MemBuffer.initOffset1stPage pageSize bufSize offset1stPg c.answer s

def step (s : State) (c : Call pageSize) : State := (c.run pageSize s).1

/-- What a call asks of the buffer that begins at `first`. -/
def Init.Asks (first : Nat) (bufSize : BitVec 32) : Init → Prop
  | .init size => bufSize = size
  | .initAlignment size align => bufSize = size ∧ align.toNat ∣ first
  | .initOffset1stPage size offset1stPg =>
    bufSize = size ∧ ∃ page, pageSize.toNat ∣ page ∧ first = page + offset1stPg.toNat

/-- The buffer lies in the one block that is allocated, at a place as it was asked for. -/
structure Holds (s : State) (b : Block) (first : Nat) : Prop where
  live : s.live = [b]
  real : s.obj.mRealBaseAddr = some b.base
  vir : s.obj.mVirBaseAddr = some first
  flag : s.obj.mAllocByNewOperator = b.byNew
  lower : b.base ≤ first
  upper : first + s.obj.mVirBufSize.toNat ≤ b.base + b.size
  asked : ∃ init, s.asked = some init ∧ init.Asks pageSize first s.obj.mVirBufSize

/-- The members fit the memory that is allocated: there is none, or the buffer lies in it. -/
inductive Good (s : State) : Prop where
  | empty : s = new → Good s
  | holds (b : Block) (first : Nat) : Holds pageSize s b first → Good s

/-- A call that throws leaves the buffer as it was, or empty. -/
def FailsClean (s : State) (c : Call pageSize) : Prop :=
  (c.run pageSize s).2 = true → step pageSize s c = s ∨ step pageSize s c = new

/-- Memory is allocated for a size and an offset whose sum is no `uint32_t`. -/
def Wraps (c : Call pageSize) : Prop :=
  c.answer ≠ none ∧ ∃ bufSize offset1stPg : BitVec 32, c.init = .initOffset1stPage bufSize offset1stPg ∧
    offset1stPg.toNat % 4 = 0 ∧ 2 ^ 32 ≤ bufSize.toNat + offset1stPg.toNat

end Calls

/-! ## What a call does -/

variable {pageSize : BitVec 32} {s : State}

/-- What a buffer has is given back the way it was allocated. -/
theorem resize_eq_new (h : Good pageSize s) : resize s = new := by
  cases h with
  | empty hs => rw [hs]; rfl
  | holds b first hb =>
    have hnone : release b.byNew b.base [b] = [] := by simp [release]
    rw [resize, if_pos (by rw [hb.real]; exact nofun), deallocateResources, hb.real, hb.live, hb.flag]
    dsimp only
    rw [hnone]
    rfl

theorem good_init (h : Good pageSize s) (bufSize : BitVec 32) (answer : Option Nat) :
    Good pageSize (init bufSize answer s).1 ∧ ((init bufSize answer s).2 = true → (init bufSize answer s).1 = new) := by
  unfold init
  rw [resize_eq_new h]
  cases answer with
  | none => exact ⟨.empty rfl, fun _ => rfl⟩
  | some base =>
    refine ⟨.holds _ base ⟨rfl, rfl, rfl, rfl, Nat.le_refl _, Nat.le_refl _, _, rfl, rfl⟩, nofun⟩

theorem good_initAlignment (h : Good pageSize s) (bufSize : BitVec 32) {align : BitVec 32} {answer : Option Nat}
    (haligned : ∀ base, answer = some base → align.toNat ∣ base) :
    Good pageSize (initAlignment bufSize align answer s).1 ∧ ((initAlignment bufSize align answer s).2 = true →
      (initAlignment bufSize align answer s).1 = s ∨ (initAlignment bufSize align answer s).1 = new) := by
  rw [initAlignment]
  split
  · exact ⟨h, fun _ => .inl rfl⟩
  rw [resize_eq_new h]
  cases answer with
  | none => exact ⟨.empty rfl, fun _ => .inr rfl⟩
  | some base =>
    refine ⟨.holds _ base ⟨rfl, rfl, rfl, rfl, Nat.le_refl _, Nat.le_refl _, _, rfl, rfl, ?_⟩, nofun⟩
    exact haligned base rfl

theorem initOffset1stPage_threw (h : Good pageSize s) (bufSize offset1stPg : BitVec 32) (answer : Option Nat)
    (hthrew : (initOffset1stPage pageSize bufSize offset1stPg answer s).2 = true) :
    (initOffset1stPage pageSize bufSize offset1stPg answer s).1 = s ∨
      (initOffset1stPage pageSize bufSize offset1stPg answer s).1 = new := by
  rw [initOffset1stPage] at hthrew ⊢
  split at hthrew
  · rename_i hmod
    exact .inl (by rw [if_pos hmod])
  · rename_i hmod
    rw [if_neg hmod]
    rw [resize_eq_new h] at hthrew ⊢
    cases answer with
    | none => exact .inr rfl
    | some base => cases hthrew

/-- Memory for a size and an offset holds both exactly if their sum fits. -/
theorem good_initOffset1stPage_iff (h : Good pageSize s) (bufSize offset1stPg : BitVec 32) {answer : Option Nat}
    (haligned : ∀ base, answer = some base → pageSize.toNat ∣ base) :
    Good pageSize (initOffset1stPage pageSize bufSize offset1stPg answer s).1 ↔
      ¬(answer ≠ none ∧ offset1stPg.toNat % 4 = 0 ∧ 2 ^ 32 ≤ bufSize.toNat + offset1stPg.toNat) := by
  rw [initOffset1stPage]
  by_cases hmod : offset1stPg.toNat % 4 ≠ 0
  · rw [if_pos hmod]
    exact iff_of_true h fun hwraps => hmod hwraps.2.1
  rw [if_neg hmod, resize_eq_new h]
  cases answer with
  | none => exact iff_of_true (.empty rfl) fun hwraps => hwraps.1 rfl
  | some base =>
    have hsum : (bufSize + offset1stPg).toNat = (bufSize.toNat + offset1stPg.toNat) % 2 ^ 32 := BitVec.toNat_add _ _
    by_cases hwide : 2 ^ 32 ≤ bufSize.toNat + offset1stPg.toNat
    · refine iff_of_false (fun hgood => ?_) fun hnot => hnot ⟨nofun, not_not.1 hmod, hwide⟩
      cases hgood with
      | empty hnew => cases congrArg State.asked hnew
      | holds b first hb =>
        obtain rfl : ⟨base, (bufSize + offset1stPg).toNat, false⟩ = b := List.singleton_inj.1 hb.live
        have hfirst : base + offset1stPg.toNat = first := Option.some.inj hb.vir
        have hupper : first + bufSize.toNat ≤ base + (bufSize + offset1stPg).toNat := hb.upper
        have hbuf := bufSize.isLt
        have hoff := offset1stPg.isLt
        omega
    · refine iff_of_true ?_ fun hwraps => hwide hwraps.2.2
      refine .holds ⟨base, (bufSize + offset1stPg).toNat, false⟩ (base + offset1stPg.toNat)
        ⟨rfl, rfl, rfl, rfl, Nat.le_add_right _ _, ?_, _, rfl, rfl, base, haligned base rfl, rfl⟩
      change base + offset1stPg.toNat + bufSize.toNat ≤ base + (bufSize + offset1stPg).toNat
      omega

/-! ## What a run does -/

theorem good_new : Good pageSize new := .empty rfl

theorem good_step_iff (h : Good pageSize s) (c : Call pageSize) :
    FailsClean pageSize s c ∧ Good pageSize (step pageSize s c) ↔ ¬Wraps pageSize c := by
  obtain ⟨call, answer, haligned⟩ := c
  cases call with
  | init bufSize =>
    obtain ⟨hgood, hthrew⟩ := good_init h bufSize answer
    refine iff_of_true ⟨fun ht => .inr (hthrew ht), hgood⟩ ?_
    rintro ⟨-, _, _, heq, -⟩
    cases heq
  | initAlignment bufSize align =>
    obtain ⟨hgood, hthrew⟩ := good_initAlignment h bufSize haligned
    refine iff_of_true ⟨hthrew, hgood⟩ ?_
    rintro ⟨-, _, _, heq, -⟩
    cases heq
  | initOffset1stPage bufSize offset1stPg =>
    have hfails : FailsClean pageSize s ⟨.initOffset1stPage bufSize offset1stPg, answer, haligned⟩ :=
      initOffset1stPage_threw h bufSize offset1stPg answer
    rw [and_iff_right hfails]
    refine (good_initOffset1stPage_iff h bufSize offset1stPg haligned).trans (not_congr (and_congr_right fun _ => ?_))
    refine ⟨fun hwide => ⟨_, _, rfl, hwide⟩, ?_⟩
    rintro ⟨_, _, ⟨rfl, rfl⟩, hwide⟩
    exact hwide

/-- **The members fit the memory along a run exactly as long as no sum of size and offset wraps.** -/
theorem fits_run_iff (pageSize : BitVec 32) (calls : List (Call pageSize)) :
    (∀ x ∈ Runs.steps (step pageSize) new calls,
      FailsClean pageSize x.1 x.2 ∧ Good pageSize (step pageSize x.1 x.2)) ↔ ∀ c ∈ calls, ¬Wraps pageSize c := by
  have hstep (s : State) (c : Call pageSize) (_ : True) (h : Good pageSize s) := good_step_iff h c
  exact (Runs.good_run_iff (J := fun _ => True) (fun _ _ _ => trivial) hstep trivial good_new calls).trans
    (Runs.forall_steps (C := fun c => ¬Wraps pageSize c))

/-- A buffer of 2 ^ 32 - 4 bytes with an offset of 8 gets memory of 4 bytes. -/
theorem window_not_inside : ¬∀ (pageSize : BitVec 32) (calls : List (Call pageSize)),
    ∀ x ∈ Runs.steps (step pageSize) new calls,
      FailsClean pageSize x.1 x.2 ∧ Good pageSize (step pageSize x.1 x.2) := by
  intro h
  let c : Call 4096#32 := ⟨.initOffset1stPage 0xfffffffc#32 8#32, some 4096, fun base hbase => by
    rw [← Option.some.inj hbase]
    exact Nat.dvd_refl _⟩
  have hgood := (h 4096#32 [c] _ (List.mem_singleton.2 rfl)).2
  exact (good_initOffset1stPage_iff good_new 0xfffffffc#32 8#32 c.aligned).1 hgood ⟨nofun, by decide, by decide⟩

end Tnvme.MemBuffer
