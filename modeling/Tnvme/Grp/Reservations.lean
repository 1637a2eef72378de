import Tnvme.Cmds.ReadWrite
import Tnvme.Cmds.Reservation
import Tnvme.Grp.SetGetFeat
import Tnvme.Queues.Ce

/-!
# The tests of reservations

The groups `GrpReservationsHostA` and `GrpReservationsHostB` are for two hosts that share a namespace. The host A
registers a key, replaces it, acquires the namespace, and writes and reads it. The host B registers a key as well, and
checks that it can neither write nor read.

Nothing makes one host wait for the other. The commands that a test sends are made with the setters of their classes;
what they ask the device for is in the scripts (`tests_decode`).
-/

namespace Tnvme

open Fields

inductive Host where
  | A | B
  deriving DecidableEq, Repr

abbrev Bytes := List (BitVec 8)

/-! ## The tests -/

/-- A command for `SendAndReapCmd`, with the buffer that is given to `SetPrpBuffer`. -/
structure Exchange where
  /-- It is sent into the ASQ. -/
  admin : Bool
  cmd : Cmd
  buf : Bytes
  status : List CEStat
  /-- What the buffer is compared with, if the command is a success. -/
  expected : Option Bytes
  deriving DecidableEq, Repr

/-- `SetNSID` -/
def Cmd.setNSID (nsid : BitVec 32) (c : Cmd) : Option Cmd := c.setDword nsid 1

/-- `SetFID(0x81)` -/
def fidHostId : BitVec 8 := 0x81

/-- `RegisterReservation`. A and B differ in their identifiers and keys, and in what may come back for the second
command. -/
def registerReservation (hostID key : BitVec 8) (readStatus : List CEStat) : Option (List Exchange) := do
  let setFeaturesCmd ← SetFeatures.new
  let setFeaturesCmd ← BaseFeatures.setFID fidHostId setFeaturesCmd
  let writeHostIDmem := List.replicate 8 hostID
  let getFeaturesCmd ← GetFeatures.new
  let getFeaturesCmd ← BaseFeatures.setFID fidHostId getFeaturesCmd
  let readHostIDmem := List.replicate 8 0x00
  -- any key is released first
  let c ← ReservationRegister.new
  let c ← c.setNSID 1
  let c ← ReservationRegister.setCPTPL 0 c
  let c ← ReservationRegister.setIEKEY true c
  let release ← ReservationRegister.setRREGA 1 c
  let c ← release.setNSID 1
  let c ← ReservationRegister.setCPTPL 0 c
  let c ← ReservationRegister.setIEKEY true c
  let register ← ReservationRegister.setRREGA 0 c
  return [⟨true, setFeaturesCmd, writeHostIDmem, [.success], none⟩,
    ⟨true, getFeaturesCmd, readHostIDmem, readStatus, some writeHostIDmem⟩,
    ⟨false, release, List.replicate 16 0, [.success, .rsrvConflict, .ignore], none⟩,
    ⟨false, register, List.replicate 16 key, [.success], none⟩]

/-- A write to the LBA 5, and a read of it. -/
def writeReadLBA5 (data : BitVec 8) (status : CEStat) (expected : Option Bytes) : Option (List Exchange) := do
  let writeCmd ← Write.new
  let writeCmd ← writeCmd.setNSID 1
  let writeCmd ← Write.setSLBA 5 writeCmd
  let writeCmd ← Write.setNLB 0 writeCmd
  let readCmd ← Read.new
  let readCmd ← readCmd.setNSID 1
  let readCmd ← Read.setSLBA 5 readCmd
  let readCmd ← Read.setNLB 0 readCmd
  return [⟨false, writeCmd, List.replicate 512 data, [status], none⟩,
    ⟨false, readCmd, List.replicate 512 0x00, [status], expected⟩]

/-- A test, after the ones that create the queues. -/
inductive TestStep where
  /-- `CreateResources_r11` -/
  | createResources
  | exchange (e : Exchange)
  deriving DecidableEq, Repr

namespace HostA

def registerReservation : Option (List Exchange) := Tnvme.registerReservation 0xAA 0xAE [.success]

def replaceReservation : Option (List Exchange) := do
  let c ← ReservationRegister.new
  let c ← c.setNSID 1
  let c ← ReservationRegister.setCPTPL 0 c
  let c ← ReservationRegister.setIEKEY false c
  let replace ← ReservationRegister.setRREGA 2 c
  -- the second one is the same, with other keys
  let c ← replace.setNSID 1
  let c ← ReservationRegister.setCPTPL 0 c
  let c ← ReservationRegister.setIEKEY false c
  let invalid ← ReservationRegister.setRREGA 2 c
  -- the keys that are in the buffer already
  let c ← invalid.setNSID 1
  let c ← ReservationRegister.setCPTPL 0 c
  let c ← ReservationRegister.setIEKEY true c
  let ignoring ← ReservationRegister.setRREGA 2 c
  let c ← ignoring.setNSID 1
  let c ← ReservationRegister.setCPTPL 0 c
  let c ← ReservationRegister.setIEKEY false c
  let remove ← ReservationRegister.setRREGA 1 c
  return [⟨false, replace, List.replicate 8 0xAE ++ List.replicate 8 0xAF, [.success], none⟩,
    ⟨false, invalid, List.replicate 8 0xAA ++ List.replicate 8 0xAD, [.rsrvConflict], none⟩,
    ⟨false, ignoring, List.replicate 8 0xAA ++ List.replicate 8 0xAD, [.success], none⟩,
    ⟨false, remove, List.replicate 8 0xAA ++ List.replicate 8 0x00, [.rsrvConflict], none⟩]

def acquireReservation : Option (List Exchange) := do
  let c ← ReservationAcquire.new
  let c ← c.setNSID 1
  let c ← ReservationAcquire.setRTYPE 2 c
  let c ← ReservationAcquire.setIEKEY false c
  let acquire ← ReservationAcquire.setRACQA 0 c
  let accesses ← writeReadLBA5 0xCC .success (some (List.replicate 512 0xCC))
  return [⟨false, acquire, List.replicate 8 0xFA, [.rsrvConflict], none⟩,
    ⟨false, acquire, List.replicate 8 0xAD, [.success], none⟩] ++ accesses

/-- The tests of the group, one after the other; `ReleaseReservation` sends nothing. -/
def tests : Option (List TestStep) := do
  let register ← registerReservation
  let replace ← replaceReservation
  let acquire ← acquireReservation
  return .createResources :: (register ++ replace ++ acquire).map .exchange

end HostA

namespace HostB

def registerReservation : Option (List Exchange) := Tnvme.registerReservation 0xBB 0xBD [.success, .ignore]

def readWriteToUnacquiredReservation : Option (List Exchange) := writeReadLBA5 0xDD .rsrvConflict none

def tests : Option (List TestStep) := do
  let register ← registerReservation
  let readWrite ← readWriteToUnacquiredReservation
  return .createResources :: (register ++ readWrite).map .exchange

end HostB

def Host.tests : Host → Option (List TestStep)
  | .A => HostA.tests
  | .B => HostB.tests

/-- What `SendAndReapCmd` finds; without an entry it throws. -/
structure RsvReply (σ : Type) where
  ce : Option CE
  buf : Bytes
  dev : σ

/-- The device behind the drivers of the two hosts. -/
structure RsvDut (σ : Type) where
  createResources : Host → σ → Option σ
  /-- A command in the ASQ or in the IOSQ, and the buffer. -/
  exec : Host → Bool → Cmd → Bytes → σ → RsvReply σ

/-- The test goes on. -/
def Exchange.passes {σ : Type} (e : Exchange) (reply : RsvReply σ) : Bool :=
  match reply.ce with
  | none => false
  | some ce =>
    match verifyCE ce e.status with
    | .error _ => false
    | .ok retStat => if retStat = .success then e.expected.all (· = reply.buf) else true

def RsvDut.play {σ : Type} (dut : RsvDut σ) (h : Host) : TestStep → σ → Bool × σ
  | .createResources, s =>
    match dut.createResources h s with
    | none => (false, s)
    | some s' => (true, s')
  | .exchange e, s =>
    let reply := dut.exec h e.admin e.cmd e.buf s
    (e.passes reply, reply.dev)

/-- The two hosts. A group whose tests are through starts again. -/
structure RsvSys (σ : Type) where
  dev : σ
  /-- The number of steps that the host has taken. -/
  pc : Host → Nat
  threw : Host → Bool

namespace RsvSys

variable {σ : Type}

def fresh (s : σ) : RsvSys σ := ⟨s, fun _ => 0, fun _ => false⟩

/-- It is the turn of a host. -/
def step (dut : RsvDut σ) (sys : RsvSys σ) (h : Host) : RsvSys σ :=
  if sys.threw h then sys
  else
    match h.tests with
    | none => { sys with threw := Function.update sys.threw h true }
    | some tests =>
      match tests[sys.pc h % tests.length]? with
      | none => sys
      | some t =>
        let (ok, dev) := dut.play h t sys.dev
        ⟨dev, Function.update sys.pc h (sys.pc h + 1), Function.update sys.threw h !ok⟩

end RsvSys

/-! ## What a device should do -/

/-- The reservations for which one host is the holder. -/
inductive RType where
  | writeExclusive | exclusiveAccess | writeExclusiveRegistrants | exclusiveAccessRegistrants
  deriving DecidableEq, Repr

inductive RegAction where
  | register | unregister | replace
  deriving DecidableEq, Repr

/-- What the tests ask the device for. -/
inductive RsvOp where
  | setHostId (id : Bytes)
  | getHostId
  | register (action : RegAction) (iekey : Bool) (crkey nrkey : Bytes)
  | acquire (iekey : Bool) (crkey : Bytes) (rtype : RType)
  | write (slba : BitVec 64) (data : Bytes)
  | read (slba : BitVec 64)
  deriving DecidableEq, Repr

def RType.decode (rtype : BitVec 8) : Option RType :=
  if rtype = 1 then some .writeExclusive
  else if rtype = 2 then some .exclusiveAccess
  else if rtype = 3 then some .writeExclusiveRegistrants
  else if rtype = 4 then some .exclusiveAccessRegistrants
  else none

def RegAction.decode (rrega : BitVec 3) : Option RegAction :=
  if rrega = 0 then some .register
  else if rrega = 1 then some .unregister
  else if rrega = 2 then some .replace
  else none

namespace RsvOp

/-- A command on the namespace, for one block. -/
def decodeIO (c : Cmd) (buf : Bytes) : Option RsvOp :=
  let iekey := get (32 * 10 + 3) 1 c == 1
  let nlb := get (32 * 12) 16 c
  if c.opcode = ReservationRegister.opcode ∧ get (32 * 10 + 30) 2 c = 0 then
    (RegAction.decode (get (32 * 10) 3 c)).map fun action =>
      .register action iekey (buf.take 8) ((buf.drop 8).take 8)
  else if c.opcode = ReservationAcquire.opcode ∧ get (32 * 10) 3 c = 0 then
    (RType.decode (get (32 * 10 + 8) 8 c)).map (.acquire iekey (buf.take 8))
  else if c.opcode = Write.opcode ∧ nlb = 0 then some (.write (get (32 * 10) 64 c) buf)
  else if c.opcode = Read.opcode ∧ nlb = 0 then some (.read (get (32 * 10) 64 c))
  else none

def decode (admin : Bool) (c : Cmd) (buf : Bytes) : Option RsvOp :=
  if admin then
    if get (32 * 10) 8 c ≠ fidHostId then none
    else if c.opcode = SetFeatures.opcode then some (.setHostId (buf.take 8))
    else if c.opcode = GetFeatures.opcode then some .getHostId
    else none
  else if get 32 32 c = 1 then decodeIO c buf
  else none

end RsvOp

/-- The namespace, as the hosts share it. -/
structure Rsv where
  /-- The identifiers of the hosts. -/
  hostId : Host → Bytes
  /-- The keys that are registered, by identifier. -/
  key : Bytes → Option Bytes
  /-- The identifier of the host that has the reservation. -/
  holder : Option (Bytes × RType)
  lba : BitVec 64 → Bytes

structure RsvAnswer where
  granted : Bool
  data : Option Bytes

/-- A reservation conflict is the answer to what is not granted. -/
def RsvAnswer.status (answer : RsvAnswer) : CEStat := if answer.granted then .success else .rsrvConflict

/-- The access of a host that is not the holder. -/
def RType.grants (registrant write : Bool) : RType → Bool
  | .writeExclusive => !write
  | .exclusiveAccess => false
  | .writeExclusiveRegistrants => !write || registrant
  | .exclusiveAccessRegistrants => registrant

namespace Rsv

variable (st : Rsv)

def allows (h : Host) (write : Bool) : Bool :=
  match st.holder with
  | none => true
  | some (id, rtype) => id = st.hostId h || rtype.grants (st.key (st.hostId h)).isSome write

/-- The reservation goes with the key of its holder. -/
def unregister (id : Bytes) : Rsv :=
  { st with key := Function.update st.key id none, holder := st.holder.filter (·.1 ≠ id) }

def setKey (id nrkey : Bytes) : Rsv := { st with key := Function.update st.key id (some nrkey) }

/-- Either the answer and the new state, or a conflict. -/
def grantIf (p : Prop) [Decidable p] (st' : Rsv) : RsvAnswer × Rsv :=
  if p then (⟨true, none⟩, st') else (⟨false, none⟩, st)

def exec (h : Host) : RsvOp → RsvAnswer × Rsv
  | .setHostId id => (⟨true, none⟩, { st with hostId := Function.update st.hostId h id })
  | .getHostId => (⟨true, some (st.hostId h)⟩, st)
  | .register action iekey crkey nrkey =>
    let id := st.hostId h
    match action with
    | .register => st.grantIf (st.key id = none ∨ st.key id = some nrkey) (st.setKey id nrkey)
    | .unregister => st.grantIf (st.key id ≠ none ∧ (iekey = true ∨ st.key id = some crkey)) (st.unregister id)
    | .replace => st.grantIf (iekey = true ∨ st.key id = some crkey) (st.setKey id nrkey)
  | .acquire iekey crkey rtype =>
    let id := st.hostId h
    st.grantIf (st.key id ≠ none ∧ (iekey = true ∨ st.key id = some crkey) ∧ st.holder.all (· = (id, rtype)))
      { st with holder := some (id, rtype) }
  | .write slba data => st.grantIf (st.allows h true) { st with lba := Function.update st.lba slba data }
  | .read slba => if st.allows h false then (⟨true, some (st.lba slba)⟩, st) else (⟨false, none⟩, st)

/-- The holder is registered. -/
def Registered : Prop := ∀ id rtype, st.holder = some (id, rtype) → st.key id ≠ none

end Rsv

/-- What the device answers, and what it does, is what the states say. New queues take a reset, after which the host has
any identifier. -/
structure RsvDut.Conforms {σ : Type} (dut : RsvDut σ) (abs : σ → Rsv) : Prop where
  createResources : ∀ h s, ∃ s' id, dut.createResources h s = some s' ∧
    abs s' = { abs s with hostId := Function.update (abs s).hostId h id }
  ce : ∀ h admin c buf s op, RsvOp.decode admin c buf = some op →
    ∃ ce, (dut.exec h admin c buf s).ce = some ce ∧
      ProcessCE.validatePeek ce ((abs s).exec h op).1.status = true
  buf : ∀ h admin c buf s op data, RsvOp.decode admin c buf = some op →
    ((abs s).exec h op).1.data = some data → (dut.exec h admin c buf s).buf = data
  dev : ∀ h admin c buf s op, RsvOp.decode admin c buf = some op →
    abs (dut.exec h admin c buf s).dev = ((abs s).exec h op).2

/-! ## A device -/

def RsvAnswer.entry (answer : RsvAnswer) : CE where
  cmdSpec := 0
  reserved := 0
  SQHD := 0
  SQID := 0
  CID := 0
  SF := if answer.granted then 0 else 0x0106

/-- A device whose states are the states. -/
def RsvDut.reference : RsvDut Rsv where
  createResources h st := some { st with hostId := Function.update st.hostId h (List.replicate 8 0) }
  exec h admin c buf st :=
    match RsvOp.decode admin c buf with
    | none => ⟨none, buf, st⟩
    | some op =>
      let (answer, st') := st.exec h op
      ⟨some answer.entry, answer.data.getD buf, st'⟩

theorem RsvDut.reference_exec {admin : Bool} {c : Cmd} {buf : Bytes} {op : RsvOp} (h : Host) (st : Rsv)
    (hop : RsvOp.decode admin c buf = some op) : RsvDut.reference.exec h admin c buf st =
      ⟨some (st.exec h op).1.entry, (st.exec h op).1.data.getD buf, (st.exec h op).2⟩ := by
  unfold RsvDut.reference
  dsimp only
  rw [hop]

theorem RsvDut.reference_conforms : RsvDut.reference.Conforms id where
  createResources h s := ⟨_, _, rfl, rfl⟩
  ce h admin c buf s op hop := by
    refine ⟨(s.exec h op).1.entry, by rw [reference_exec h s hop], ?_⟩
    change ProcessCE.validatePeek (s.exec h op).1.entry (s.exec h op).1.status = true
    rw [RsvAnswer.entry, RsvAnswer.status]
    cases (s.exec h op).1.granted <;> decide
  buf h admin c buf s op data hop hdata := by
    have hdata : (s.exec h op).1.data = some data := hdata
    rw [reference_exec h s hop, hdata]
    rfl
  dev h admin c buf s op hop := by
    rw [reference_exec h s hop]
    rfl

/-- A namespace that nobody uses. -/
def Rsv.empty : Rsv := ⟨fun _ => List.replicate 8 0, fun _ => none, none, fun _ => List.replicate 512 0⟩

/-! ## What the tests ask for -/

/-- A step of the tests, as the device takes it. -/
inductive RsvStep where
  | createResources
  | op (op : RsvOp) (status : List CEStat) (expected : Option Bytes)
  deriving DecidableEq, Repr

def TestStep.decode : TestStep → Option RsvStep
  | .createResources => some .createResources
  | .exchange e => (RsvOp.decode e.admin e.cmd e.buf).map fun op => .op op e.status e.expected

/-- A buffer of eight bytes, all of one value. -/
def fill (val : BitVec 8) : Bytes := List.replicate 8 val

/-- A block, all of one value. -/
def block (val : BitVec 8) : Bytes := List.replicate 512 val

def Host.script : Host → List RsvStep
  | .A => [
    .createResources,
    .op (.setHostId (fill 0xAA#8)) [.success] none,
    .op .getHostId [.success] (some (fill 0xAA#8)),
    .op (.register .unregister true (fill 0x00#8) (fill 0x00#8)) [.success, .rsrvConflict, .ignore] none,
    .op (.register .register true (fill 0xAE#8) (fill 0xAE#8)) [.success] none,
    .op (.register .replace false (fill 0xAE#8) (fill 0xAF#8)) [.success] none,
    .op (.register .replace false (fill 0xAA#8) (fill 0xAD#8)) [.rsrvConflict] none,
    .op (.register .replace true (fill 0xAA#8) (fill 0xAD#8)) [.success] none,
    .op (.register .unregister false (fill 0xAA#8) (fill 0x00#8)) [.rsrvConflict] none,
    .op (.acquire false (fill 0xFA#8) .exclusiveAccess) [.rsrvConflict] none,
    .op (.acquire false (fill 0xAD#8) .exclusiveAccess) [.success] none,
    .op (.write 5#64 (block 0xCC#8)) [.success] none,
    .op (.read 5#64) [.success] (some (block 0xCC#8))]
  | .B => [
    .createResources,
    .op (.setHostId (fill 0xBB#8)) [.success] none,
    .op .getHostId [.success, .ignore] (some (fill 0xBB#8)),
    .op (.register .unregister true (fill 0x00#8) (fill 0x00#8)) [.success, .rsrvConflict, .ignore] none,
    .op (.register .register true (fill 0xBD#8) (fill 0xBD#8)) [.success] none,
    .op (.write 5#64 (block 0xDD#8)) [.rsrvConflict] none,
    .op (.read 5#64) [.rsrvConflict] none]

/-- **The commands of the tests say what the script says.** -/
theorem tests_decode (h : Host) : h.tests.map (·.map TestStep.decode) = some (h.script.map some) := by
  cases h with
  | A => decide +kernel
  | B => decide +kernel

end Tnvme
