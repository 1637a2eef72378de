import Tnvme.Cmds.Cmd
import Tnvme.Lib.Runs

/-!
# The reservation commands

`ReservationRegister`, `ReservationAcquire` and `ReservationRelease` keep their parameters in DW10. The fields of two
and three bits are set bit by bit, the getters put them together again.

A field takes what fits of the value that its setter is given. So the fields are independent cells (`rsvFields_run`).
-/

namespace Tnvme

open Fields

namespace Reservation

/-! What the classes have in common. -/

def setCPTPL (val : BitVec 8) (c : Cmd) : Option Cmd := do
  let c ← c.setBit (val &&& 0x1 != 0) 10 30
  c.setBit (val &&& 0x2 != 0) 10 31

def getCPTPL (c : Cmd) : Option (BitVec 8) := do
  let low ← c.getBit 10 30
  let high ← c.getBit 10 31
  return (BitVec.ofBool low).setWidth 8 ||| (BitVec.ofBool high).setWidth 8 <<< 1

def setIEKEY (val : Bool) (c : Cmd) : Option Cmd := c.setBit val 10 3

def getIEKEY (c : Cmd) : Option Bool := c.getBit 10 3

/-- `SetRREGA`, `SetRACQA` -/
def setAction (val : BitVec 8) (c : Cmd) : Option Cmd := do
  let c ← c.setBit (val &&& 0x1 != 0) 10 0
  let c ← c.setBit (val &&& 0x2 != 0) 10 1
  c.setBit (val &&& 0x4 != 0) 10 2

def getAction (c : Cmd) : Option (BitVec 8) := do
  let bit0 ← c.getBit 10 0
  let bit1 ← c.getBit 10 1
  let bit2 ← c.getBit 10 2
  return (BitVec.ofBool bit0).setWidth 8 ||| (BitVec.ofBool bit1).setWidth 8 <<< 1 |||
    (BitVec.ofBool bit2).setWidth 8 <<< 2

end Reservation

namespace ReservationRegister

def opcode : BitVec 8 := 0x0D

/-- The constructor; `Init` sets the opcode. -/
def new : Option Cmd := Cmd.setByte 0 opcode 0 0

def setCPTPL : BitVec 8 → Cmd → Option Cmd := Reservation.setCPTPL

def getCPTPL : Cmd → Option (BitVec 8) := Reservation.getCPTPL

def setIEKEY : Bool → Cmd → Option Cmd := Reservation.setIEKEY

def getIEKEY : Cmd → Option Bool := Reservation.getIEKEY

def setRREGA : BitVec 8 → Cmd → Option Cmd := Reservation.setAction

def getRREGA : Cmd → Option (BitVec 8) := Reservation.getAction

end ReservationRegister

namespace ReservationAcquire

def opcode : BitVec 8 := 0x11

def new : Option Cmd := Cmd.setByte 0 opcode 0 0

def setRTYPE (val : BitVec 8) (c : Cmd) : Option Cmd := c.setByte val 10 1

def getRTYPE (c : Cmd) : Option (BitVec 8) := c.getByte 10 1

def setIEKEY : Bool → Cmd → Option Cmd := Reservation.setIEKEY

def getIEKEY : Cmd → Option Bool := Reservation.getIEKEY

def setRACQA : BitVec 8 → Cmd → Option Cmd := Reservation.setAction

def getRACQA : Cmd → Option (BitVec 8) := Reservation.getAction

end ReservationAcquire

/-! It has the setters of `ReservationRegister`, and under their names. -/

namespace ReservationRelease

def opcode : BitVec 8 := 0x15

def new : Option Cmd := Cmd.setByte 0 opcode 0 0

def setCPTPL : BitVec 8 → Cmd → Option Cmd := Reservation.setCPTPL

def getCPTPL : Cmd → Option (BitVec 8) := Reservation.getCPTPL

def setIEKEY : Bool → Cmd → Option Cmd := Reservation.setIEKEY

def getIEKEY : Cmd → Option Bool := Reservation.getIEKEY

def setRREGA : BitVec 8 → Cmd → Option Cmd := Reservation.setAction

def getRREGA : Cmd → Option (BitVec 8) := Reservation.getAction

end ReservationRelease

/-! ## The fields of DW10 -/

inductive RsvClass where
  | register | acquire | release
  deriving DecidableEq, Repr

inductive RsvField where
  | action | iekey | rtype | cptpl
  deriving DecidableEq, Repr

/-- A call of a setter of the class. -/
inductive RsvCall : RsvClass → Type where
  | registerCPTPL (val : BitVec 8) : RsvCall .register
  | registerIEKEY (val : Bool) : RsvCall .register
  | registerRREGA (val : BitVec 8) : RsvCall .register
  | acquireRTYPE (val : BitVec 8) : RsvCall .acquire
  | acquireIEKEY (val : Bool) : RsvCall .acquire
  | acquireRACQA (val : BitVec 8) : RsvCall .acquire
  | releaseCPTPL (val : BitVec 8) : RsvCall .release
  | releaseIEKEY (val : Bool) : RsvCall .release
  | releaseRREGA (val : BitVec 8) : RsvCall .release

namespace RsvCall

variable {cls : RsvClass}

def set : RsvCall cls → Cmd → Option Cmd
  | registerCPTPL val => ReservationRegister.setCPTPL val
  | registerIEKEY val => ReservationRegister.setIEKEY val
  | registerRREGA val => ReservationRegister.setRREGA val
  | acquireRTYPE val => ReservationAcquire.setRTYPE val
  | acquireIEKEY val => ReservationAcquire.setIEKEY val
  | acquireRACQA val => ReservationAcquire.setRACQA val
  | releaseCPTPL val => ReservationRelease.setCPTPL val
  | releaseIEKEY val => ReservationRelease.setIEKEY val
  | releaseRREGA val => ReservationRelease.setRREGA val

def field : RsvCall cls → RsvField
  | registerCPTPL _ | releaseCPTPL _ => .cptpl
  | registerIEKEY _ | acquireIEKEY _ | releaseIEKEY _ => .iekey
  | registerRREGA _ | acquireRACQA _ | releaseRREGA _ => .action
  | acquireRTYPE _ => .rtype

def value : RsvCall cls → Nat
  | registerCPTPL val | releaseCPTPL val | registerRREGA val | acquireRACQA val | releaseRREGA val
  | acquireRTYPE val => val.toNat
  | registerIEKEY val | acquireIEKEY val | releaseIEKEY val => val.toNat

end RsvCall

/-- The getter of the class for a field; `none` in front of the function where it has none. -/
def RsvClass.getter : RsvClass → RsvField → Option (Cmd → Option Nat)
  | .register, .cptpl => some fun c => (ReservationRegister.getCPTPL c).map BitVec.toNat
  | .register, .iekey => some fun c => (ReservationRegister.getIEKEY c).map Bool.toNat
  | .register, .action => some fun c => (ReservationRegister.getRREGA c).map BitVec.toNat
  | .register, .rtype => none
  | .acquire, .cptpl => none
  | .acquire, .iekey => some fun c => (ReservationAcquire.getIEKEY c).map Bool.toNat
  | .acquire, .action => some fun c => (ReservationAcquire.getRACQA c).map BitVec.toNat
  | .acquire, .rtype => some fun c => (ReservationAcquire.getRTYPE c).map BitVec.toNat
  | .release, .cptpl => some fun c => (ReservationRelease.getCPTPL c).map BitVec.toNat
  | .release, .iekey => some fun c => (ReservationRelease.getIEKEY c).map Bool.toNat
  | .release, .action => some fun c => (ReservationRelease.getRREGA c).map BitVec.toNat
  | .release, .rtype => none

/-- The fields of a class: RTYPE is one of `ReservationAcquire` only, which has no CPTPL. -/
def RsvClass.fields : RsvClass → List RsvField
  | .register | .release => [.action, .iekey, .cptpl]
  | .acquire => [.action, .iekey, .rtype]

namespace RsvField

def lo : RsvField → Nat
  | action => 32 * 10
  | iekey => 32 * 10 + 3
  | rtype => 32 * 10 + 8
  | cptpl => 32 * 10 + 30

def width : RsvField → Nat
  | action => 3
  | iekey => 1
  | rtype => 8
  | cptpl => 2

end RsvField

def rsvLayout : Layout RsvField 512 where
  lo := RsvField.lo
  width := RsvField.width
  fits i := by cases i <;> decide
  apart i j h := by cases i <;> cases j <;> first | exact absurd rfl h | decide

/-! ## What the setters and the getters do -/

namespace Reservation

variable {c : Cmd}

theorem setCPTPL_eq (val : BitVec 8) (c : Cmd) : setCPTPL val c = some (put (32 * 10 + 30) (val.setWidth 2) c) := by
  have hlow : BitVec.ofBool (val &&& 0x1 != 0) = (val.setWidth 2).setWidth 1 := by
    revert val
    decide
  have hhigh : BitVec.ofBool (val &&& 0x2 != 0) = (val.setWidth 2 >>> 1).setWidth 1 := by
    revert val
    decide
  have hboth : put (32 * 10 + 31) ((val.setWidth 2 >>> 1).setWidth 1)
      (put (32 * 10 + 30) ((val.setWidth 2).setWidth 1) c) = put (32 * 10 + 30) (val.setWidth 2) c :=
    put_put_upper (w := 1) (k := 1) _ c
  rw [setCPTPL, Cmd.setBit_eq (by decide) (by decide), Option.bind_eq_bind, Option.bind_some,
    Cmd.setBit_eq (by decide) (by decide), hlow, hhigh, hboth]

theorem setAction_eq (val : BitVec 8) (c : Cmd) : setAction val c = some (put (32 * 10) (val.setWidth 3) c) := by
  have h0 : BitVec.ofBool (val &&& 0x1 != 0) = ((val.setWidth 3).setWidth 2).setWidth 1 := by
    revert val
    decide
  have h1 : BitVec.ofBool (val &&& 0x2 != 0) = ((val.setWidth 3).setWidth 2 >>> 1).setWidth 1 := by
    revert val
    decide
  have h2 : BitVec.ofBool (val &&& 0x4 != 0) = (val.setWidth 3 >>> 2).setWidth 1 := by
    revert val
    decide
  have hlow : put (32 * 10 + 1) (((val.setWidth 3).setWidth 2 >>> 1).setWidth 1)
      (put (32 * 10 + 0) (((val.setWidth 3).setWidth 2).setWidth 1) c) =
        put (32 * 10) ((val.setWidth 3).setWidth 2) c := put_put_upper (w := 1) (k := 1) _ c
  have hboth : put (32 * 10 + 2) ((val.setWidth 3 >>> 2).setWidth 1) (put (32 * 10) ((val.setWidth 3).setWidth 2) c) =
      put (32 * 10) (val.setWidth 3) c := put_put_upper (w := 2) (k := 1) _ c
  rw [setAction, Cmd.setBit_eq (by decide) (by decide), Option.bind_eq_bind, Option.bind_some,
    Cmd.setBit_eq (by decide) (by decide), Option.bind_some, Cmd.setBit_eq (by decide) (by decide), h0, h1, h2, hlow,
    hboth]

theorem getCPTPL_eq (c : Cmd) : (getCPTPL c).map BitVec.toNat = some (get (32 * 10 + 30) 2 c).toNat := by
  have hlow : get (32 * 10 + 30) 1 c = get 0 1 (get (32 * 10 + 30) 2 c) := by rw [get_get (by decide)]
  have hhigh : get (32 * 10 + 31) 1 c = get 1 1 (get (32 * 10 + 30) 2 c) := by rw [get_get (by decide)]
  rw [getCPTPL, Cmd.getBit_eq (by decide) (by decide), Cmd.getBit_eq (by decide) (by decide), hlow, hhigh]
  generalize get (32 * 10 + 30) 2 c = v
  revert v
  decide

theorem getAction_eq (c : Cmd) : (getAction c).map BitVec.toNat = some (get (32 * 10) 3 c).toNat := by
  have h0 : get (32 * 10 + 0) 1 c = get 0 1 (get (32 * 10) 3 c) := (get_get (by decide) c).symm
  have h1 : get (32 * 10 + 1) 1 c = get 1 1 (get (32 * 10) 3 c) := (get_get (by decide) c).symm
  have h2 : get (32 * 10 + 2) 1 c = get 2 1 (get (32 * 10) 3 c) := (get_get (by decide) c).symm
  rw [getAction, Cmd.getBit_eq (by decide) (by decide), Cmd.getBit_eq (by decide) (by decide),
    Cmd.getBit_eq (by decide) (by decide), h0, h1, h2]
  generalize get (32 * 10) 3 c = v
  revert v
  decide

end Reservation

namespace RsvCall

variable {cls : RsvClass}

/-- **A setter writes its own field, and nothing else.** -/
theorem set_eq (call : RsvCall cls) (c : Cmd) :
    call.set c = some (rsvLayout.write c (call.field, call.value)) := by
  have hwrite {w : Nat} (f : RsvField) (v : BitVec w) :
      rsvLayout.write c (f, v.toNat) = put f.lo (v.setWidth f.width) c := by
    rw [← BitVec.ofNat_toNat]
    rfl
  have hbit (val : Bool) : Cmd.setBit c val 10 3 = some (rsvLayout.write c (.iekey, val.toNat)) := by
    rw [Cmd.setBit_eq (by decide) (by decide), ← BitVec.toNat_ofBool, hwrite]
    exact congrArg (fun v => some (put _ v c)) (BitVec.setWidth_eq _).symm
  cases call with
  | registerCPTPL val | releaseCPTPL val =>
    exact (Reservation.setCPTPL_eq val c).trans (congrArg some (hwrite .cptpl val).symm)
  | registerIEKEY val | acquireIEKEY val | releaseIEKEY val => exact hbit val
  | registerRREGA val | acquireRACQA val | releaseRREGA val =>
    exact (Reservation.setAction_eq val c).trans (congrArg some (hwrite .action val).symm)
  | acquireRTYPE val =>
    have hbyte : c.setByte val 10 1 = some (put (32 * 10 + 1 * 8) val c) := Cmd.setByte_eq (by decide) (by decide) val
    have hown : rsvLayout.write c (.rtype, val.toNat) = put (32 * 10 + 1 * 8) val c := by
      rw [hwrite]
      exact congrArg (fun v => put _ v c) (BitVec.setWidth_eq val)
    exact hbyte.trans (congrArg some hown.symm)

end RsvCall

theorem RsvClass.getter_eq {cls : RsvClass} {f : RsvField} {g : Cmd → Option Nat} (hg : cls.getter f = some g)
    (c : Cmd) : g c = some (rsvLayout.read f c) := by
  cases f with
  | action => cases cls <;> cases hg <;> exact Reservation.getAction_eq c
  | iekey => cases cls <;> cases hg <;> exact Cmd.getBit_toNat 10 3 (by decide) (by decide)
  | rtype =>
    cases cls with
    | register | release => cases hg
    | acquire =>
      cases hg
      exact Cmd.getByte_toNat 10 1 (by decide) (by decide)
  | cptpl => cases cls <;> cases hg <;> exact Reservation.getCPTPL_eq c

/-! ## Sequences of calls -/

theorem RsvCall.field_mem {cls : RsvClass} (call : RsvCall cls) : call.field ∈ cls.fields := by
  cases call <;> simp [field, RsvClass.fields]

section Run

variable {cls : RsvClass}

/-- A call that throws has written nothing. -/
def RsvCall.step (c : Cmd) (call : RsvCall cls) : Cmd := (call.set c).getD c

def RsvCall.writes (calls : List (RsvCall cls)) : List (RsvField × Nat) :=
  calls.map fun call => (call.field, call.value)

/-- What the fields of a command are along some calls. -/
structure RsvFields (c : Cmd) (calls : List (RsvCall cls)) : Prop where
  /-- A getter returns what fits of the value that its field was given last. -/
  returned (f : RsvField) (g : Cmd → Option Nat) : cls.getter f = some g →
    g (Runs.run RsvCall.step c calls) = some (rsvLayout.final f c (RsvCall.writes calls))
  /-- What is in no field of the class stays: the opcode, the pointers to the data, the other bits of DW10. -/
  frame (lo w : Nat) : (∀ f ∈ cls.fields, Apart f.lo f.width lo w) →
    get lo w (Runs.run RsvCall.step c calls) = get lo w c
  /-- No setter throws. -/
  total (call : RsvCall cls) (c' : Cmd) : (call.set c').isSome

/-- **The fields are independent cells**, for any class, and after any calls of its setters. -/
theorem rsvFields_run (c : Cmd) (calls : List (RsvCall cls)) : RsvFields c calls := by
  have hrun : Runs.run RsvCall.step c calls = Runs.run rsvLayout.write c (RsvCall.writes calls) := by
    induction calls generalizing c with
    | nil => rfl
    | cons call calls ih =>
      change Runs.run RsvCall.step (RsvCall.step c call) calls = _
      rw [ih, RsvCall.step, RsvCall.set_eq]
      rfl
  refine ⟨fun f g hg => ?_, fun lo w h => ?_, fun call c' => ?_⟩
  · rw [RsvClass.getter_eq hg, hrun, Layout.read_run]
  · rw [hrun]
    refine Layout.get_run_of_apart c fun x hx => ?_
    obtain ⟨call, -, rfl⟩ := List.mem_map.1 hx
    exact h call.field call.field_mem
  · rw [RsvCall.set_eq]
    rfl

end Run

end Tnvme
