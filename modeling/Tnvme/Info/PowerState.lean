import Tnvme.Info.Payload

/-!
# Power state descriptors

Two functions read the descriptor of a power state from the data of the controller, 32 bytes each. `getPSD` goes through
the bytes with a pointer and picks the fields by masks and shifts, `getPSDStruct` reads them as a packed structure.
Both yield the fields that lie one behind the other in these bytes (`decodes_unpacked`, `decodes_struct`), so that they
agree.

A power state is checked against NPSS only, which is a byte of the controller; the table has 32 descriptors
(`psdExact_iff`).
-/

namespace Tnvme

open Bytes Fields

structure IdPowerStateDescUnpacked where
  MP : BitVec 16
  RES0 : BitVec 8
  MPS : BitVec 8
  NOPS : BitVec 8
  RES1 : BitVec 8
  ENLAT : BitVec 32
  EXLAT : BitVec 32
  RRT : BitVec 8
  RES2 : BitVec 8
  RRL : BitVec 8
  RES3 : BitVec 8
  RWT : BitVec 8
  RES4 : BitVec 8
  RWL : BitVec 8
  RES5_1 : BitVec 64
  RES5_2 : BitVec 64
  RES5_3 : BitVec 8
  deriving DecidableEq, Repr

/-- The fields of fewer bits than a byte are bit-fields. The last bit of the byte of RES9 belongs to none. -/
structure IdPowerStateDescStruct where
  MP : BitVec 16
  RES0 : BitVec 8
  MXPS : BitVec 1
  NOPS : BitVec 1
  RES1 : BitVec 6
  ENLAT : BitVec 32
  EXLAT : BitVec 32
  RRT : BitVec 5
  RES2 : BitVec 3
  RRL : BitVec 5
  RES3 : BitVec 3
  RWT : BitVec 5
  RES4 : BitVec 3
  RWL : BitVec 5
  RES5 : BitVec 3
  IDLP : BitVec 16
  RES6 : BitVec 6
  IPS : BitVec 2
  RES7 : BitVec 8
  ACTP : BitVec 16
  APW : BitVec 3
  RES8 : BitVec 3
  APS : BitVec 2
  RES9 : BitVec 7
  RES10 : BitVec 64
  deriving DecidableEq, Repr

/-! ## Numbers in memory -/

namespace PSD

variable (data : Nat → BitVec 8)

def u16 (i : Nat) : BitVec 16 := data (i + 1) ++ data i

def u32 (i : Nat) : BitVec 32 := u16 data (i + 2) ++ u16 data i

def u64 (i : Nat) : BitVec 64 := u32 data (i + 4) ++ u32 data i

end PSD

/-! ## The two decoders -/

open PSD

/-- What `getPSD` picks from the bytes of a descriptor. -/
def IdPowerStateDescUnpacked.ofData (data : Nat → BitVec 8) : IdPowerStateDescUnpacked where
  MP := u16 data 0 &&& 0xffff#16
  RES0 := data 2 &&& 0xff#8
  MPS := data 3 &&& 0x01#8
  NOPS := (data 3 &&& 0x02#8) >>> 1
  RES1 := (data 3 &&& 0xfc#8) >>> 2
  ENLAT := u32 data 4 &&& 0xffffffff#32
  EXLAT := u32 data 8 &&& 0xffffffff#32
  RRT := data 12 &&& 0x1f#8
  RES2 := (data 12 &&& 0xe0#8) >>> 5
  RRL := data 13 &&& 0x1f#8
  RES3 := (data 13 &&& 0xe0#8) >>> 5
  RWT := data 14 &&& 0x1f#8
  RES4 := (data 14 &&& 0xe0#8) >>> 5
  RWL := data 15 &&& 0x1f#8
  RES5_1 := 0#64 ||| ((data 15).setWidth 64 &&& 0xe0#64) >>> 5 |||
    ((u32 data 16).setWidth 64 &&& 0xffffffff#64) <<< 3 |||
    ((u32 data 20).setWidth 64 &&& 0x1fffffff#64) <<< 35
  RES5_2 := 0#64 ||| ((u32 data 20).setWidth 64 &&& 0xe0000000#64) >>> 29 |||
    ((u32 data 24).setWidth 64 &&& 0xffffffff#64) <<< 3 ||| ((u32 data 28).setWidth 64 &&& 0x07ffffff#64) <<< 35
  RES5_3 := ((u32 data 28 &&& 0xf8000000#32) >>> 27).setWidth 8

/-- The bytes of a descriptor seen as the structure. -/
def IdPowerStateDescStruct.ofData (data : Nat → BitVec 8) : IdPowerStateDescStruct where
  MP := u16 data 0
  RES0 := data 2
  MXPS := get 0 1 (data 3)
  NOPS := get 1 1 (data 3)
  RES1 := get 2 6 (data 3)
  ENLAT := u32 data 4
  EXLAT := u32 data 8
  RRT := get 0 5 (data 12)
  RES2 := get 5 3 (data 12)
  RRL := get 0 5 (data 13)
  RES3 := get 5 3 (data 13)
  RWT := get 0 5 (data 14)
  RES4 := get 5 3 (data 14)
  RWL := get 0 5 (data 15)
  RES5 := get 5 3 (data 15)
  IDLP := u16 data 16
  RES6 := get 0 6 (data 18)
  IPS := get 6 2 (data 18)
  RES7 := data 19
  ACTP := u16 data 20
  APW := get 0 3 (data 22)
  RES8 := get 3 3 (data 22)
  APS := get 6 2 (data 22)
  RES9 := get 0 7 (data 23)
  RES10 := u64 data 24

namespace Identify

/-- `IDCTRLRCAP_PSD`; its last element is `IDCTRLRCAP_FENCE`, which no row of the table belongs to. -/
def idCtrlrCapPSD : List (Option IdCtrlrCap) := (List.finRange 32).map (fun k => some (.psd k)) ++ [none]

/-- The row of a power state that is not above NPSS. -/
def psdMetrics (cmd : Identify) (psdNum : BitVec 8) : Except Failure IdentifyDataType :=
  match cmd.getValue IdCtrlrCap.npss.metrics with
  | .error _ => .error .threw
  | .ok npss =>
    if psdNum.setWidth 64 > npss then .error .threw
    else
      match idCtrlrCapPSD[psdNum.toNat]? with
      | some (some field) => .ok field.metrics
      | _ => .error .undefined

/-- The bytes from a place of the buffer on, all of which are in the buffer. -/
def pointerTo (cmd : Identify) (offset length : Nat) : Except Failure (Nat → BitVec 8) :=
  if offset + length ≤ cmd.data.length then .ok fun i => cmd.data[offset + i]?.getD 0 else .error .undefined

def getPSDStruct (cmd : Identify) (psdNum : BitVec 8) : Except Failure IdPowerStateDescStruct := do
  let psd ← cmd.psdMetrics psdNum
  let data ← cmd.pointerTo psd.offset 32
  return .ofData data

def getPSD (cmd : Identify) (psdNum : BitVec 8) : Except Failure IdPowerStateDescUnpacked := do
  let psd ← cmd.psdMetrics psdNum
  let data ← cmd.pointerTo psd.offset 32
  return .ofData data

end Identify

/-! ## The fields of a descriptor -/

/-- The fields are those that lie one behind the other in the bytes. -/
structure PSD.Decodes (fields : List (Nat × Nat)) (bytes : List (BitVec 8)) : Prop where
  fits : ∀ field ∈ fields, field.1 < 2 ^ field.2
  joins : join fields = littleEndian bytes

/-- The fields with their widths in bits. -/
def IdPowerStateDescUnpacked.fields (desc : IdPowerStateDescUnpacked) : List (Nat × Nat) :=
  [(desc.MP.toNat, 16), (desc.RES0.toNat, 8), (desc.MPS.toNat, 1), (desc.NOPS.toNat, 1), (desc.RES1.toNat, 6),
    (desc.ENLAT.toNat, 32), (desc.EXLAT.toNat, 32), (desc.RRT.toNat, 5), (desc.RES2.toNat, 3), (desc.RRL.toNat, 5),
    (desc.RES3.toNat, 3), (desc.RWT.toNat, 5), (desc.RES4.toNat, 3), (desc.RWL.toNat, 5), (desc.RES5_1.toNat, 64),
    (desc.RES5_2.toNat, 62), (desc.RES5_3.toNat, 5)]

/-- The fields with their widths in bits, and the bit that belongs to none. -/
def IdPowerStateDescStruct.fields (desc : IdPowerStateDescStruct) (unnamed : BitVec 1) : List (Nat × Nat) :=
  [(desc.MP.toNat, 16), (desc.RES0.toNat, 8), (desc.MXPS.toNat, 1), (desc.NOPS.toNat, 1), (desc.RES1.toNat, 6),
    (desc.ENLAT.toNat, 32), (desc.EXLAT.toNat, 32), (desc.RRT.toNat, 5), (desc.RES2.toNat, 3), (desc.RRL.toNat, 5),
    (desc.RES3.toNat, 3), (desc.RWT.toNat, 5), (desc.RES4.toNat, 3), (desc.RWL.toNat, 5), (desc.RES5.toNat, 3),
    (desc.IDLP.toNat, 16), (desc.RES6.toNat, 6), (desc.IPS.toNat, 2), (desc.RES7.toNat, 8), (desc.ACTP.toNat, 16),
    (desc.APW.toNat, 3), (desc.RES8.toNat, 3), (desc.APS.toNat, 2), (desc.RES9.toNat, 7), (unnamed.toNat, 1),
    (desc.RES10.toNat, 64)]

namespace PSD

variable (data : Nat → BitVec 8) {i : Nat}

/-- A descriptor as one word. -/
def word (data : Nat → BitVec 8) : BitVec 256 := merge 256 data 32

theorem u8_eq (hi : i < 32) : data i = get (8 * i) 8 (word data) := by
  refine BitVec.eq_of_getLsbD_eq fun k hk => ?_
  have hdiv : (8 * i + k) / 8 = i := by omega
  have hmod : (8 * i + k) % 8 = k := by omega
  rw [getLsbD_get, word, getLsbD_merge, hdiv, hmod]
  simp [hk, hi, show 8 * i + k < 256 by omega]

theorem u16_eq (hi : i + 1 < 32) : u16 data i = get (8 * i) 16 (word data) := by
  have hlow : i < 32 := Nat.lt_of_succ_lt hi
  rw [u16, u8_eq data hi, u8_eq data hlow, Nat.mul_add]
  exact append_get _ _ _ _

theorem u32_eq (hi : i + 3 < 32) : u32 data i = get (8 * i) 32 (word data) := by
  rw [u32, u16_eq data (by omega), u16_eq data (by omega), Nat.mul_add]
  exact append_get _ _ _ _

theorem u64_eq (hi : i + 7 < 32) : u64 data i = get (8 * i) 64 (word data) := by
  rw [u64, u32_eq data (by omega), u32_eq data (by omega), Nat.mul_add]
  exact append_get _ _ _ _

/-- A field of a byte. -/
theorem get_u8 (hi : i < 32) {lo w : Nat} (h : lo + w ≤ 8) : get lo w (data i) = get (8 * i + lo) w (word data) := by
  rw [u8_eq data hi, get_get h]

theorem get_u32 (hi : i + 3 < 32) {lo w : Nat} (h : lo + w ≤ 32) :
    get lo w (u32 data i) = get (8 * i + lo) w (word data) := by
  rw [u32_eq data hi, get_get h]

/-- What is masked and shifted down in a byte. -/
theorem picked (hi : i < 32) {lo w : Nat} (h : lo + w ≤ 8) {bits : BitVec 8} (hbits : bits = mask 8 lo w) :
    ((data i &&& bits) >>> lo).toNat = (get (8 * i + lo) w (word data)).toNat := by
  rw [hbits, toNat_and_mask_ushiftRight (by omega), get_u8 data hi h]

theorem picked_low (hi : i < 32) {w : Nat} (h : w ≤ 8) {bits : BitVec 8} (hbits : bits = mask 8 0 w) :
    (data i &&& bits).toNat = (get (8 * i) w (word data)).toNat :=
  picked data hi (by omega) hbits

/-- What is masked and shifted down in a word of 64 bits. -/
theorem picked_wide {n : Nat} (x : BitVec n) {lo w : Nat} (h : lo + w ≤ 64) {bits : BitVec 64}
    (hbits : bits = mask 64 lo w) : (x.setWidth 64 &&& bits) >>> lo = (get lo w x).setWidth 64 := by
  rw [hbits, and_mask_ushiftRight, get_setWidth h]

theorem picked_u32 (hi : i + 3 < 32) {lo w : Nat} (h : lo + w ≤ 32) {bits : BitVec 64} (hbits : bits = mask 64 lo w) :
    ((u32 data i).setWidth 64 &&& bits) >>> lo = (get (8 * i + lo) w (word data)).setWidth 64 := by
  rw [picked_wide (u32 data i) (by omega) hbits, get_u32 data hi h]

theorem picked_u32_low (hi : i + 3 < 32) {w : Nat} (h : w ≤ 32) {bits : BitVec 64} (hbits : bits = mask 64 0 w) :
    (u32 data i).setWidth 64 &&& bits = (get (8 * i) w (word data)).setWidth 64 := by
  have hpick := picked_u32 data hi (by omega) hbits
  rwa [BitVec.ushiftRight_zero] at hpick

/-- Three neighbours merged. -/
theorem merged {N n lo a b c : Nat} (m : BitVec n) :
    0#N ||| (get lo a m).setWidth N ||| (get (lo + a) b m).setWidth N <<< a |||
      (get (lo + (a + b)) c m).setWidth N <<< (a + b) = (get lo (a + b + c) m).setWidth N := by
  rw [BitVec.zero_or, setWidth_get_or_upper, setWidth_get_or_upper]

theorem toNat_RES5_1 : (IdPowerStateDescUnpacked.ofData data).RES5_1.toNat = (get 125 64 (word data)).toNat := by
  have hfirst : ((data 15).setWidth 64 &&& 0xe0#64) >>> 5 = (get 125 3 (word data)).setWidth 64 := by
    rw [picked_wide (data 15) (by decide) (show 0xe0#64 = mask 64 5 3 by decide), get_u8 data (by decide) (by decide)]
  have hsecond := @picked_u32_low data 16 (by decide) 32 (by decide) 0xffffffff#64 (by decide)
  have hthird := @picked_u32_low data 20 (by decide) 29 (by decide) 0x1fffffff#64 (by decide)
  rw [IdPowerStateDescUnpacked.ofData, hfirst, hsecond, hthird]
  exact congrArg BitVec.toNat (merged (word data))

theorem toNat_RES5_2 : (IdPowerStateDescUnpacked.ofData data).RES5_2.toNat = (get 189 62 (word data)).toNat := by
  have hfirst := @picked_u32 data 20 (by decide) 29 3 (by decide) 0xe0000000#64 (by decide)
  have hsecond := @picked_u32_low data 24 (by decide) 32 (by decide) 0xffffffff#64 (by decide)
  have hthird := @picked_u32_low data 28 (by decide) 27 (by decide) 0x07ffffff#64 (by decide)
  rw [IdPowerStateDescUnpacked.ofData, hfirst, hsecond, hthird, ← BitVec.toNat_setWidth_of_le (show 62 ≤ 64 by decide)]
  exact congrArg BitVec.toNat (merged (word data))

theorem toNat_RES5_3 : (IdPowerStateDescUnpacked.ofData data).RES5_3.toNat = (get 251 5 (word data)).toNat := by
  have hpick : (u32 data 28 &&& 0xf8000000#32) >>> 27 = (get 251 5 (word data)).setWidth 32 := by
    rw [show 0xf8000000#32 = mask 32 27 5 by decide, and_mask_ushiftRight, get_u32 data (by decide) (by decide)]
  rw [IdPowerStateDescUnpacked.ofData, hpick, BitVec.setWidth_setWidth_of_le _ (by decide),
    BitVec.toNat_setWidth_of_le (by decide)]

/-- `getPSD` picks the fields one behind the other. -/
theorem fields_unpacked : (IdPowerStateDescUnpacked.ofData data).fields =
    slices (word data) 0 [16, 8, 1, 1, 6, 32, 32, 5, 3, 5, 3, 5, 3, 5, 64, 62, 5] := by
  simp only [IdPowerStateDescUnpacked.fields, slices, toNat_RES5_1, toNat_RES5_2, toNat_RES5_3]
  have hMP : u16 data 0 &&& 0xffff#16 = get 0 16 (word data) := by
    rw [show 0xffff#16 = BitVec.allOnes 16 by decide, BitVec.and_allOnes, u16_eq data (by decide)]
  have hLAT (i : Nat) (hi : i + 3 < 32) : u32 data i &&& 0xffffffff#32 = get (8 * i) 32 (word data) := by
    rw [show 0xffffffff#32 = BitVec.allOnes 32 by decide, BitVec.and_allOnes, u32_eq data hi]
  simp only [IdPowerStateDescUnpacked.ofData, hMP, hLAT 4 (by decide), hLAT 8 (by decide), List.cons.injEq,
    Prod.mk.injEq, and_true, true_and]
  exact ⟨picked_low data (by decide) (by decide) (by decide), picked_low data (by decide) (by decide) (by decide),
    picked data (by decide) (by decide) (by decide), picked data (by decide) (by decide) (by decide),
    picked_low data (by decide) (by decide) (by decide), picked data (by decide) (by decide) (by decide),
    picked_low data (by decide) (by decide) (by decide), picked data (by decide) (by decide) (by decide),
    picked_low data (by decide) (by decide) (by decide), picked data (by decide) (by decide) (by decide),
    picked_low data (by decide) (by decide) (by decide)⟩

/-- The structure has the fields one behind the other. -/
theorem fields_struct : (IdPowerStateDescStruct.ofData data).fields (get 7 1 (data 23)) =
    slices (word data) 0
      [16, 8, 1, 1, 6, 32, 32, 5, 3, 5, 3, 5, 3, 5, 3, 16, 6, 2, 8, 16, 3, 3, 2, 7, 1, 64] := by
  have hu16 {i : Nat} (hi : i + 1 < 32) : (u16 data i).toNat = (get (8 * i) 16 (word data)).toNat :=
    congrArg BitVec.toNat (u16_eq data hi)
  have hu32 {i : Nat} (hi : i + 3 < 32) : (u32 data i).toNat = (get (8 * i) 32 (word data)).toNat :=
    congrArg BitVec.toNat (u32_eq data hi)
  have hu8 {i : Nat} (hi : i < 32) : (data i).toNat = (get (8 * i) 8 (word data)).toNat :=
    congrArg BitVec.toNat (u8_eq data hi)
  have hbits {i lo w : Nat} (hi : i < 32) (h : lo + w ≤ 8) :
      (get lo w (data i)).toNat = (get (8 * i + lo) w (word data)).toNat := congrArg BitVec.toNat (get_u8 data hi h)
  have hu64 : (u64 data 24).toNat = (get 192 64 (word data)).toNat := congrArg BitVec.toNat (u64_eq data (by decide))
  simp only [IdPowerStateDescStruct.fields, IdPowerStateDescStruct.ofData, slices, List.cons.injEq, Prod.mk.injEq,
    and_true]
  exact ⟨hu16 (by decide), hu8 (by decide), hbits (by decide) (by decide), hbits (by decide) (by decide),
    hbits (by decide) (by decide), hu32 (by decide), hu32 (by decide), hbits (by decide) (by decide),
    hbits (by decide) (by decide), hbits (by decide) (by decide), hbits (by decide) (by decide),
    hbits (by decide) (by decide), hbits (by decide) (by decide), hbits (by decide) (by decide),
    hbits (by decide) (by decide), hu16 (by decide), hbits (by decide) (by decide), hbits (by decide) (by decide),
    hu8 (by decide), hu16 (by decide), hbits (by decide) (by decide), hbits (by decide) (by decide),
    hbits (by decide) (by decide), hbits (by decide) (by decide), hbits (by decide) (by decide), hu64⟩

theorem decodes_of_slices {fields : List (Nat × Nat)} {widths : List Nat} (h : fields = slices (word data) 0 widths)
    (hsum : widths.sum = 256) : Decodes fields ((List.range 32).map data) := by
  subst h
  refine ⟨fun _ => lt_of_mem_slices, ?_⟩
  rw [join_slices, hsum, get_zero (Nat.le_refl _), BitVec.setWidth_eq, word]
  exact toNat_merge (by decide)

theorem decodes_unpacked : Decodes (IdPowerStateDescUnpacked.ofData data).fields ((List.range 32).map data) :=
  decodes_of_slices data (fields_unpacked data) rfl

theorem decodes_struct :
    Decodes ((IdPowerStateDescStruct.ofData data).fields (get 7 1 (data 23))) ((List.range 32).map data) :=
  decodes_of_slices data (fields_struct data) rfl

/-- The first 14 fields of both have the same names. The one that follows them in the structure is the beginning of the
reserved bits. -/
structure Agree (unpacked : IdPowerStateDescUnpacked) (packed : IdPowerStateDescStruct) : Prop where
  named (unnamed : BitVec 1) : unpacked.fields.take 14 = (packed.fields unnamed).take 14
  reserved : packed.RES5 = get 0 3 unpacked.RES5_1

theorem agree_ofData : Agree (.ofData data) (.ofData data) where
  named unnamed := by
    have htake : ((IdPowerStateDescStruct.ofData data).fields unnamed).take 14 =
        ((IdPowerStateDescStruct.ofData data).fields (get 7 1 (data 23))).take 14 := rfl
    rw [htake, fields_unpacked, fields_struct]
    rfl
  reserved := by
    rw [BitVec.eq_of_toNat_eq (toNat_RES5_1 data), get_get (by decide)]
    exact get_u8 data (by decide) (by decide)

end PSD

/-! ## Which power states are decoded -/

namespace Identify

variable {cmd : Identify}

def npss (cmd : Identify) : BitVec 8 := cmd.data[263]?.getD 0

/-- The bytes of a power state. -/
def psdBytes (cmd : Identify) (n : Nat) : List (BitVec 8) := (cmd.data.drop (2048 + 32 * n)).take 32

/-- Both reject the power state; or it is one of the 32, both decode its bytes, and they agree. -/
def PSDExact (cmd : Identify) (psdNum : BitVec 8) : Prop :=
  cmd.getPSD psdNum = .error .threw ∧ cmd.getPSDStruct psdNum = .error .threw ∨
    ∃ unpacked packed, cmd.getPSD psdNum = .ok unpacked ∧ cmd.getPSDStruct psdNum = .ok packed ∧ psdNum.toNat < 32 ∧
      Decodes unpacked.fields (cmd.psdBytes psdNum.toNat) ∧
      (∃ unnamed, Decodes (packed.fields unnamed) (cmd.psdBytes psdNum.toNat)) ∧ Agree unpacked packed

theorem idCtrlrCapPSD_inside {n : Nat} (h : n < 32) : idCtrlrCapPSD[n]? = some (some (.psd ⟨n, h⟩)) := by
  rw [idCtrlrCapPSD, List.getElem?_append_left (by simpa using h)]
  simp [h]

theorem idCtrlrCapPSD_outside {n : Nat} (h : 32 ≤ n) : ∀ field, idCtrlrCapPSD[n]? ≠ some (some field) := by
  intro field
  rw [idCtrlrCapPSD, List.getElem?_append_right (by simpa using h), List.getElem?_singleton]
  split <;> exact nofun

/-- What is looked up for a power state. -/
theorem psdMetrics_eq (hsize : cmd.data.length = 4096) (psdNum : BitVec 8) : cmd.psdMetrics psdNum =
    if cmd.npss.toNat < psdNum.toNat then .error .threw
    else if h : psdNum.toNat < 32 then .ok (IdCtrlrCap.psd ⟨psdNum.toNat, h⟩).metrics else .error .undefined := by
  have hnpss : cmd.getValue IdCtrlrCap.npss.metrics = .ok (cmd.npss.setWidth 64) := by
    rw [getValue_eq hsize (by decide) (by decide)]
    exact congrArg Except.ok (readLE_one _ _)
  have hgt : psdNum.setWidth 64 > cmd.npss.setWidth 64 ↔ cmd.npss.toNat < psdNum.toNat := by
    rw [gt_iff_lt, BitVec.lt_def, BitVec.toNat_setWidth_of_le (by decide), BitVec.toNat_setWidth_of_le (by decide)]
  unfold psdMetrics
  rw [hnpss]
  by_cases habove : cmd.npss.toNat < psdNum.toNat
  · rw [if_pos habove]
    exact if_pos (hgt.2 habove)
  · rw [if_neg habove]
    refine (if_neg (mt hgt.1 habove)).trans ?_
    by_cases h : psdNum.toNat < 32
    · rw [dif_pos h, idCtrlrCapPSD_inside h]
    · rw [dif_neg h]
      have hout := idCtrlrCapPSD_outside (Nat.le_of_not_lt h)
      generalize idCtrlrCapPSD[psdNum.toNat]? = entry at hout ⊢
      match entry, hout with
      | none, _ => rfl
      | some none, _ => rfl
      | some (some field), hout => exact absurd rfl (hout field)

/-- Every descriptor of the table is in the payload. -/
theorem pointerTo_psd (hsize : cmd.data.length = 4096) {n : Nat} (h : n < 32) :
    cmd.pointerTo (2048 + 32 * n) 32 = .ok fun i => cmd.data[2048 + 32 * n + i]?.getD 0 :=
  if_pos (by omega)

/-- There is no descriptor for the power state, but it is not rejected. -/
theorem not_psdExact (hsize : cmd.data.length = 4096) {psdNum : BitVec 8} (habove : ¬cmd.npss.toNat < psdNum.toNat)
    (h : ¬psdNum.toNat < 32) : ¬PSDExact cmd psdNum := by
  have hmetrics := psdMetrics_eq hsize psdNum
  rw [if_neg habove, dif_neg h] at hmetrics
  rintro (⟨hthrew, -⟩ | ⟨_, _, hok, -⟩)
  · rw [getPSD, hmetrics] at hthrew
    cases hthrew
  · rw [getPSD, hmetrics] at hok
    cases hok

/-- **The decoders are right exactly if the power state is one of the 32, or above NPSS.** -/
theorem psdExact_iff (hsize : cmd.data.length = 4096) (psdNum : BitVec 8) :
    PSDExact cmd psdNum ↔ psdNum.toNat < 32 ∨ cmd.npss.toNat < psdNum.toNat := by
  have hmetrics := psdMetrics_eq hsize psdNum
  by_cases habove : cmd.npss.toNat < psdNum.toNat
  · rw [if_pos habove] at hmetrics
    refine iff_of_true (.inl ⟨?_, ?_⟩) (.inr habove)
    · rw [getPSD, hmetrics]
      rfl
    · rw [getPSDStruct, hmetrics]
      rfl
  rw [or_iff_left habove]
  by_cases h : psdNum.toNat < 32
  · rw [if_neg habove, dif_pos h] at hmetrics
    have hdata := pointerTo_psd hsize h
    have hbytes : (List.range 32).map (fun i => cmd.data[2048 + 32 * psdNum.toNat + i]?.getD 0) =
        cmd.psdBytes psdNum.toNat := map_getD_eq (by omega)
    generalize (fun i => cmd.data[2048 + 32 * psdNum.toNat + i]?.getD 0) = data at hdata hbytes
    rw [PSDExact, getPSD, getPSDStruct, hmetrics, ← hbytes]
    refine iff_of_true (.inr ⟨.ofData data, .ofData data, ?_, ?_, h, decodes_unpacked data, ⟨_, decodes_struct data⟩,
      agree_ofData data⟩) h
    · exact congrArg (fun data => data >>= fun data => Except.ok (IdPowerStateDescUnpacked.ofData data)) hdata
    · exact congrArg (fun data => data >>= fun data => Except.ok (IdPowerStateDescStruct.ofData data)) hdata
  · exact iff_of_false (not_psdExact hsize habove h) h

/-- The last power state of a controller with 32 of them. -/
theorem psdExact_last : PSDExact (ofCNS .controller (List.replicate 4096 31)) 31#8 :=
  (psdExact_iff List.length_replicate 31#8).2 (.inl (by decide))

/-- A controller whose NPSS is 255, and the power state 32. -/
theorem psd_not_exact : ¬∀ (cmd : Identify) (psdNum : BitVec 8), cmd.containsCtrlrDataStruct = true →
    cmd.data.length = 4096 → PSDExact cmd psdNum := by
  intro h
  have hsize : (ofCNS .controller (List.replicate 4096 255)).data.length = 4096 := List.length_replicate
  have hcns : (ofCNS .controller (List.replicate 4096 255)).containsCtrlrDataStruct = true := by
    rw [containsCtrlrDataStruct, getCNS_ofCNS]
    rfl
  have hnpss : (ofCNS .controller (List.replicate 4096 255)).npss = 255#8 := by
    rw [npss, ofCNS, List.getElem?_replicate_of_lt (by decide)]
    rfl
  refine not_psdExact hsize ?_ (by decide) (h _ 32#8 hcns hsize)
  rw [hnpss]
  decide

end Identify

end Tnvme
