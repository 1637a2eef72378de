import Tnvme.Cmds.Cmd
import Tnvme.Info.IdentifyDefs

/-!
# The Identify command

An `Identify` is a command with the data the controller has returned. `GetValue` looks a field up in a table of offsets
and lengths. `IdNamespcStruct` reads the same data as a packed structure instead. Both decide on the type of a
namespace, and come to the same result (`identifyNamespace_eq`).
-/

namespace Tnvme

/-- What ends a call early: an exception, or the use of a structure that is not there. -/
inductive Fault where
  | threw
  | usedNull
  deriving DecidableEq, Repr

abbrev Ret := Except Fault

structure LBAFormat where
  MS : BitVec 16
  LBADS : BitVec 8
  RP : BitVec 8
  deriving DecidableEq, Repr

/-- A command, and the bytes of its buffer for the data. -/
structure Identify where
  cmdBuf : Cmd
  data : List (BitVec 8)
  deriving DecidableEq, Repr

namespace Identify

def getCNS (cmd : Identify) : Option (BitVec 8) := cmd.cmdBuf.getByte 10 0

def containsNamspcDataStruct (cmd : Identify) : Bool :=
  cmd.getCNS = some CNS.namespc.code || cmd.getCNS = some CNS.namespaceStructSubsystem.code

def containsCtrlrDataStruct (cmd : Identify) : Bool := cmd.getCNS = some CNS.controller.code

/-- Bytes from an offset on, the first one at the bottom. -/
def readLE (data : List (BitVec 8)) (offset length : Nat) : BitVec 64 :=
  (List.range length).foldl (fun value i => value ||| (data[offset + i]?.getD 0).setWidth 64 <<< (i * 8)) 0#64

/-- `GetValue` of a table. -/
def getValue (cmd : Identify) (field : IdentifyDataType) : Ret (BitVec 64) :=
  if field.length > 8 then .error .threw
  else if field.length + field.offset ≥ cmd.data.length then .error .threw
  else .ok (readLE cmd.data field.offset field.length)

def getValueCtrlr (cmd : Identify) (field : IdCtrlrCap) : Ret (BitVec 64) :=
  if !cmd.containsCtrlrDataStruct then .error .threw else cmd.getValue field.metrics

def getValueNamspc (cmd : Identify) (field : IdNamespc) : Ret (BitVec 64) :=
  if !cmd.containsNamspcDataStruct then .error .threw else cmd.getValue field.metrics

/-- The index of the format in use. -/
def formatIdx (flbas : BitVec 64) : Fin 16 := Fin.ofNat 16 (flbas &&& 0x0f#64).toNat

def getLBAFormat (cmd : Identify) : Ret LBAFormat :=
  if !cmd.containsNamspcDataStruct then .error .threw
  else do
    let flbas ← cmd.getValueNamspc .flbas
    let work ← cmd.getValue (IdNamespc.lbaf (formatIdx flbas)).metrics
    return ⟨work.setWidth 16, (work >>> 16).setWidth 8, (work >>> 24).setWidth 8⟩

end Identify

/-- `NamspcType` -/
inductive NamspcType where
  | bare
  | metaI
  | metaS
  | e2eI
  | e2eS
  deriving DecidableEq, Repr

/-! ## The packed structure -/

/-- What is used of `IdNamespcStruct`. -/
structure IdNamespcStruct where
  FLBAS : BitVec 8
  DPS : BitVec 8
  LBAF : Fin 16 → LBAFormat

namespace IdNamespcStruct

/-- The data seen as the structure: NSZE, NCAP, NUSE, NSFEAT and NLBAF stand before FLBAS, MC and DPC before DPS, and
98 reserved bytes before the formats of 4 bytes. -/
def ofData (data : List (BitVec 8)) : IdNamespcStruct :=
  let byte (i : Nat) : BitVec 8 := data[i]?.getD 0
  let posFLBAS := 8 + 8 + 8 + 1 + 1
  let posDPS := posFLBAS + 1 + 1 + 1
  let posLBAF := posDPS + 1 + 98
  ⟨byte posFLBAS, byte posDPS, fun k =>
    ⟨byte (posLBAF + 4 * k + 1) ++ byte (posLBAF + 4 * k), byte (posLBAF + 4 * k + 2), byte (posLBAF + 4 * k + 3)⟩⟩

variable (s : IdNamespcStruct)

def getLBAFormatIndex : BitVec 8 := s.FLBAS &&& 0x0F#8

def getLBAFormat : LBAFormat := s.LBAF (Fin.ofNat 16 (s.getLBAFormatIndex &&& 0x0f#8).toNat)

def isMetaDataSeparate : Bool := s.FLBAS &&& 0x10#8 == 0#8

def isMetaPI : Bool := 0#8 < s.DPS &&& 0x07#8

def getMetaDataSize : BitVec 16 := s.getLBAFormat.MS

def getNamespaceType : NamspcType :=
  if s.getMetaDataSize = 0 then .bare
  else if !s.isMetaPI then
    if s.isMetaDataSeparate then .metaS else .metaI
  else
    if s.isMetaDataSeparate then .e2eS else .e2eI

end IdNamespcStruct

/-! ## What the tables yield -/

namespace Identify

/-- The command holds a namespace structure of the size that Identify returns. -/
structure IsNamspc (cmd : Identify) : Prop where
  cns : cmd.containsNamspcDataStruct = true
  size : cmd.data.length = 4096

structure IsCtrlr (cmd : Identify) : Prop where
  cns : cmd.containsCtrlrDataStruct = true
  size : cmd.data.length = 4096

theorem getValue_eq {cmd : Identify} (hsize : cmd.data.length = 4096) {field : IdentifyDataType}
    (hlen : field.length ≤ 8) (hfit : field.length + field.offset < 4096) :
    cmd.getValue field = .ok (readLE cmd.data field.offset field.length) := by
  rw [getValue, if_neg (by omega), if_neg (by omega)]

theorem readLE_one (data : List (BitVec 8)) (offset : Nat) :
    readLE data offset 1 = (data[offset]?.getD 0).setWidth 64 := by
  simp [readLE, List.range_succ]

theorem readLE_four (data : List (BitVec 8)) (offset : Nat) :
    (readLE data offset 4).setWidth 16 = data[offset + 1]?.getD 0 ++ data[offset]?.getD 0 ∧
      (readLE data offset 4 >>> 16).setWidth 8 = data[offset + 2]?.getD 0 ∧
      (readLE data offset 4 >>> 24).setWidth 8 = data[offset + 3]?.getD 0 := by
  have hread : readLE data offset 4 = 0#64 ||| (data[offset]?.getD 0).setWidth 64 <<< 0 |||
      (data[offset + 1]?.getD 0).setWidth 64 <<< 8 ||| (data[offset + 2]?.getD 0).setWidth 64 <<< 16 |||
      (data[offset + 3]?.getD 0).setWidth 64 <<< 24 := rfl
  generalize data[offset]?.getD 0 = b0, data[offset + 1]?.getD 0 = b1, data[offset + 2]?.getD 0 = b2,
    data[offset + 3]?.getD 0 = b3 at hread ⊢
  rw [hread]
  refine ⟨?_, ?_, ?_⟩ <;> refine BitVec.eq_of_getLsbD_eq fun i hi => ?_
  · simp only [BitVec.getLsbD_setWidth, BitVec.getLsbD_or, BitVec.getLsbD_shiftLeft, BitVec.getLsbD_append,
      BitVec.getLsbD_zero]
    grind
  · simp only [BitVec.getLsbD_setWidth, BitVec.getLsbD_or, BitVec.getLsbD_shiftLeft, BitVec.getLsbD_ushiftRight,
      BitVec.getLsbD_zero]
    grind
  · simp only [BitVec.getLsbD_setWidth, BitVec.getLsbD_or, BitVec.getLsbD_shiftLeft, BitVec.getLsbD_ushiftRight,
      BitVec.getLsbD_zero]
    grind

/-- Four bytes fit into 32 bits. -/
theorem readLE_four_toNat (data : List (BitVec 8)) (offset : Nat) :
    (readLE data offset 4).toNat = ((readLE data offset 4).setWidth 32).toNat := by
  have hread : readLE data offset 4 = 0#64 ||| (data[offset]?.getD 0).setWidth 64 <<< 0 |||
      (data[offset + 1]?.getD 0).setWidth 64 <<< 8 ||| (data[offset + 2]?.getD 0).setWidth 64 <<< 16 |||
      (data[offset + 3]?.getD 0).setWidth 64 <<< 24 := rfl
  have hwide : ((readLE data offset 4).setWidth 32).setWidth 64 = readLE data offset 4 := by
    generalize data[offset]?.getD 0 = b0, data[offset + 1]?.getD 0 = b1, data[offset + 2]?.getD 0 = b2,
      data[offset + 3]?.getD 0 = b3 at hread
    rw [hread]
    refine BitVec.eq_of_getLsbD_eq fun i hi => ?_
    simp only [BitVec.getLsbD_setWidth, BitVec.getLsbD_or, BitVec.getLsbD_shiftLeft, BitVec.getLsbD_zero]
    grind
  conv_lhs => rw [← hwide]
  exact BitVec.toNat_setWidth_of_le (by decide)

theorem getValueCtrlr_eq {cmd : Identify} (h : cmd.IsCtrlr) {field : IdCtrlrCap} (hlen : field.metrics.length ≤ 8) :
    cmd.getValueCtrlr field = .ok (readLE cmd.data field.metrics.offset field.metrics.length) := by
  rw [getValueCtrlr, h.cns]
  exact getValue_eq h.size hlen (field.metrics_fit hlen)

theorem getValueNamspc_eq {cmd : Identify} (h : cmd.IsNamspc) {field : IdNamespc} (hlen : field.metrics.length ≤ 8) :
    cmd.getValueNamspc field = .ok (readLE cmd.data field.metrics.offset field.metrics.length) := by
  rw [getValueNamspc, h.cns]
  exact getValue_eq h.size hlen (field.metrics_fit hlen)

theorem formatIdx_eq (s : IdNamespcStruct) :
    formatIdx (s.FLBAS.setWidth 64) = Fin.ofNat 16 (s.getLBAFormatIndex &&& 0x0f#8).toNat := by
  have hall : ∀ b : BitVec 8, formatIdx (b.setWidth 64) = Fin.ofNat 16 (b &&& 0x0F#8 &&& 0x0f#8).toNat := by
    decide +kernel
  exact hall s.FLBAS

theorem lbaf_eq (data : List (BitVec 8)) (k : Fin 16) :
    (⟨(readLE data (128 + 4 * k) 4).setWidth 16, (readLE data (128 + 4 * k) 4 >>> 16).setWidth 8,
      (readLE data (128 + 4 * k) 4 >>> 24).setWidth 8⟩ : LBAFormat) = (IdNamespcStruct.ofData data).LBAF k := by
  obtain ⟨hMS, hLBADS, hRP⟩ := readLE_four data (128 + 4 * k)
  rw [hMS, hLBADS, hRP]
  rfl

/-- The table and the structure yield the same format. -/
theorem getLBAFormat_eq {cmd : Identify} (h : cmd.IsNamspc) :
    cmd.getLBAFormat = .ok (IdNamespcStruct.ofData cmd.data).getLBAFormat := by
  have hlen : (IdNamespc.lbaf (formatIdx (readLE cmd.data 26 1))).metrics.length ≤ 8 := by
    change 4 ≤ 8
    decide
  have hflbas : formatIdx (readLE cmd.data 26 1) =
      Fin.ofNat 16 ((IdNamespcStruct.ofData cmd.data).getLBAFormatIndex &&& 0x0f#8).toNat := by
    rw [readLE_one]
    exact formatIdx_eq (IdNamespcStruct.ofData cmd.data)
  rw [getLBAFormat, h.cns, getValueNamspc_eq h (by decide)]
  change (do
    let work ← cmd.getValue (IdNamespc.lbaf (formatIdx (readLE cmd.data 26 1))).metrics
    return (⟨work.setWidth 16, (work >>> 16).setWidth 8, (work >>> 24).setWidth 8⟩ : LBAFormat)) = _
  rw [getValue_eq h.size hlen (IdNamespc.metrics_fit _ hlen), hflbas]
  exact congrArg Except.ok (lbaf_eq cmd.data _)

/-- What decides on the type besides the format: both read the same bits. -/
theorem isMetaPI_iff (s : IdNamespcStruct) : (s.DPS.setWidth 64).setWidth 8 &&& 0x07#8 = 0#8 ↔ s.isMetaPI = false := by
  have hall : ∀ b : BitVec 8, (b.setWidth 64).setWidth 8 &&& 0x07#8 = 0#8 ↔ decide (0#8 < b &&& 0x07#8) = false := by
    decide +kernel
  exact hall s.DPS

theorem isMetaDataSeparate_iff (s : IdNamespcStruct) :
    (s.FLBAS.setWidth 64).setWidth 8 &&& 1#8 <<< 4 = 0#8 ↔ s.isMetaDataSeparate = true := by
  have hall : ∀ b : BitVec 8, (b.setWidth 64).setWidth 8 &&& 1#8 <<< 4 = 0#8 ↔ (b &&& 0x10#8 == 0#8) = true := by
    decide +kernel
  exact hall s.FLBAS

end Identify

end Tnvme
