import Tnvme.Info.Payload

/-!
# Sizes that an Identify command yields

The data state the size of a logical block and that of the largest transfer as powers of two. Both are computed with a
shift of the `int` 1, which has 32 bits.

* The maximum transfer size is right if it is below 2^32, and otherwise it is 0, which means that there is no limit, or
  undefined (`xferExact_iff`).
* The size of a block is right if it is below 2^31. Then both decoders agree on it (`blockExact_iff`).
-/

namespace Tnvme

open Bytes Fields

/-- `1 << n` of an `int`. -/
def oneShl (n : Nat) : Except Failure (BitVec 32) := if n < 32 then .ok (1#32 <<< n) else .error .undefined

theorem oneShl_of_lt {n : Nat} (h : n < 32) : oneShl n = .ok (BitVec.twoPow 32 n) := by
  rw [oneShl, if_pos h, BitVec.twoPow]

namespace Identify

/-- `CAP_MPSMIN`, and where it begins. -/
def capMpsmin : BitVec 64 := 0x000f000000000000

/-- The field MPSMIN of the register CAP. -/
def mpsmin (ctrlCap : BitVec 64) : BitVec 64 := (ctrlCap &&& capMpsmin) >>> 48

/-- A value of the table, as far as it is used from here on. -/
def valueCtrlr (cmd : Identify) (field : IdCtrlrCap) : Except Failure (BitVec 64) :=
  (cmd.getValueCtrlr field).mapError fun _ => .threw

/-- `ctrlCap` is the register CAP, `none` if it cannot be read. -/
def getMaxDataXferSize (cmd : Identify) (ctrlCap : Option (BitVec 64)) : Except Failure (BitVec 32) :=
  if cmd.getCNS = some CNS.namespc.code then .error .threw
  else do
    let mdts : BitVec 8 := (← cmd.valueCtrlr .mdts).setWidth 8
    if mdts = 0 then return 0
    else
      match ctrlCap with
      | none => .error .threw
      | some ctrlCap =>
        let mpsMin ← oneShl (12 + (mpsmin ctrlCap).toNat)
        let pages ← oneShl mdts.toNat
        return pages * mpsMin

/-- The byte MDTS of the data. -/
def mdts (cmd : Identify) : Nat := (cmd.data[77]?.getD 0).toNat

/-- 2^MDTS pages of the minimum size, in bytes. -/
def xferSize (cmd : Identify) (ctrlCap : BitVec 64) : Nat := 2 ^ cmd.mdts * 2 ^ (12 + (mpsmin ctrlCap).toNat)

/-- The limit is returned, or an exception thrown if it cannot be; and 0 means that there is none. -/
structure XferExact (cmd : Identify) (ctrlCap : BitVec 64) : Prop where
  unlimited : cmd.mdts = 0 → cmd.getMaxDataXferSize (some ctrlCap) = .ok 0
  limited : cmd.mdts ≠ 0 → cmd.xferSize ctrlCap < 2 ^ 32 →
    ∃ size, cmd.getMaxDataXferSize (some ctrlCap) = .ok size ∧ size.toNat = cmd.xferSize ctrlCap
  rejected : cmd.mdts ≠ 0 → 2 ^ 32 ≤ cmd.xferSize ctrlCap → cmd.getMaxDataXferSize (some ctrlCap) = .error .threw

/-- The shift of the `int` is extended to 64 bits with its sign. -/
def getLBADataSize (cmd : Identify) : Except Failure (BitVec 64) :=
  match cmd.getLBAFormat with
  | .error _ => .error .threw
  | .ok lbaFormat => (oneShl lbaFormat.LBADS.toNat).map (·.signExtend 64)

end Identify

/-- `IdNamespcStruct::getLBADataSize` -/
def IdNamespcStruct.getLBADataSize (s : IdNamespcStruct) : Except Failure (BitVec 32) :=
  oneShl s.getLBAFormat.LBADS.toNat

namespace Identify

/-- LBADS of the format that FLBAS selects. -/
def lbads (cmd : Identify) : Nat :=
  let format := (cmd.data[26]?.getD 0).toNat % 16
  (cmd.data[128 + 4 * format + 2]?.getD 0).toNat

/-- Both decoders return 2^LBADS, or an exception is thrown if that does not fit into 64 bits. -/
structure BlockExact (cmd : Identify) : Prop where
  fits : cmd.lbads < 64 → ∃ size size', cmd.getLBADataSize = .ok size ∧ size.toNat = 2 ^ cmd.lbads ∧
    (IdNamespcStruct.ofData cmd.data).getLBADataSize = .ok size' ∧ size'.toNat = 2 ^ cmd.lbads
  rejected : 64 ≤ cmd.lbads → cmd.getLBADataSize = .error .threw

/-! ## The maximum transfer size -/

variable {cmd : Identify}

theorem mpsmin_lt (ctrlCap : BitVec 64) : (mpsmin ctrlCap).toNat < 16 := by
  have hmask : (ctrlCap &&& capMpsmin).toNat ≤ capMpsmin.toNat := by
    rw [BitVec.toNat_and]
    exact Nat.and_le_right
  rw [mpsmin, BitVec.toNat_ushiftRight, Nat.shiftRight_eq_div_pow]
  exact Nat.lt_of_le_of_lt (Nat.div_le_div_right hmask) (by decide)

/-- The three ways a call ends once CAP has been read. -/
theorem getMaxDataXferSize_eq (h : cmd.IsCtrlr) (ctrlCap : BitVec 64) :
    cmd.getMaxDataXferSize (some ctrlCap) =
      if cmd.mdts = 0 then .ok 0
      else if cmd.mdts < 32 then .ok (BitVec.twoPow 32 cmd.mdts * BitVec.twoPow 32 (12 + (mpsmin ctrlCap).toNat))
      else .error .undefined := by
  have hcns : cmd.getCNS ≠ some CNS.namespc.code := by
    have hctrlr : cmd.getCNS = some CNS.controller.code := of_decide_eq_true h.cns
    rw [hctrlr]
    decide
  have hvalue : cmd.valueCtrlr .mdts = .ok ((cmd.data[77]?.getD 0).setWidth 64) := by
    rw [valueCtrlr, getValueCtrlr_eq h (by decide), ← readLE_one]
    rfl
  have hbyte : ((cmd.data[77]?.getD 0).setWidth 64).setWidth 8 = cmd.data[77]?.getD 0 := by simp
  have hzero : cmd.data[77]?.getD 0 = 0 ↔ cmd.mdts = 0 := BitVec.toNat_eq.trans (by rw [mdts]; rfl)
  have hmin := oneShl_of_lt (n := 12 + (mpsmin ctrlCap).toNat) (by have := mpsmin_lt ctrlCap; omega)
  rw [getMaxDataXferSize, if_neg hcns, hvalue]
  simp only [bind, Except.bind, hbyte, hzero, hmin]
  split
  · rfl
  · by_cases hlt : cmd.mdts < 32
    · rw [if_pos hlt, ← mdts, oneShl_of_lt hlt]
      rfl
    · rw [if_neg hlt, ← mdts, oneShl, if_neg hlt]

/-- The product is exact as long as it fits. -/
theorem twoPow_mul_toNat {a b : Nat} (ha : a < 32) (hb : b < 32) :
    (BitVec.twoPow 32 a * BitVec.twoPow 32 b).toNat = 2 ^ (a + b) % 2 ^ 32 := by
  have hpow {n : Nat} (hn : n < 32) : (BitVec.twoPow 32 n).toNat = 2 ^ n := by
    rw [BitVec.toNat_twoPow, Nat.mod_eq_of_lt (Nat.pow_lt_pow_right (by decide) hn)]
  rw [BitVec.toNat_mul, hpow ha, hpow hb, ← Nat.pow_add]

/-- What does not fit wraps around, or the shift is too long; in neither case it throws. -/
theorem not_xferExact (h : cmd.IsCtrlr) {ctrlCap : BitVec 64} (hzero : cmd.mdts ≠ 0)
    (hfits : ¬cmd.mdts + 12 + (mpsmin ctrlCap).toNat < 32) : ¬XferExact cmd ctrlCap := by
  intro hexact
  have hsize : cmd.xferSize ctrlCap = 2 ^ (cmd.mdts + (12 + (mpsmin ctrlCap).toNat)) := (Nat.pow_add ..).symm
  have hle : 2 ^ 32 ≤ cmd.xferSize ctrlCap := hsize ▸ Nat.pow_le_pow_right (by decide) (by omega)
  have hcall := getMaxDataXferSize_eq h ctrlCap
  rw [if_neg hzero, hexact.rejected hzero hle] at hcall
  split at hcall <;> cases hcall

/-- **The maximum transfer size is exact if there is none, and otherwise exactly if it fits into 32 bits.** -/
theorem xferExact_iff (h : cmd.IsCtrlr) (ctrlCap : BitVec 64) :
    XferExact cmd ctrlCap ↔ cmd.mdts = 0 ∨ cmd.mdts + 12 + (mpsmin ctrlCap).toNat < 32 := by
  have hcall := getMaxDataXferSize_eq h ctrlCap
  have hsize : cmd.xferSize ctrlCap = 2 ^ (cmd.mdts + (12 + (mpsmin ctrlCap).toNat)) := (Nat.pow_add ..).symm
  by_cases hzero : cmd.mdts = 0
  · rw [if_pos hzero] at hcall
    exact iff_of_true ⟨fun _ => hcall, fun hne => absurd hzero hne, fun hne => absurd hzero hne⟩ (.inl hzero)
  · rw [if_neg hzero] at hcall
    rw [or_iff_right hzero]
    by_cases hfits : cmd.mdts + 12 + (mpsmin ctrlCap).toNat < 32
    · have hlt : cmd.xferSize ctrlCap < 2 ^ 32 := hsize ▸ Nat.pow_lt_pow_right (by decide) (by omega)
      rw [if_pos (by omega)] at hcall
      refine iff_of_true ⟨fun h0 => absurd h0 hzero, fun _ _ => ⟨_, hcall, ?_⟩, fun _ hle => ?_⟩ hfits
      · rw [twoPow_mul_toNat (by omega) (by omega), ← hsize, Nat.mod_eq_of_lt hlt]
      · exact absurd hlt (Nat.not_lt_of_le hle)
    · exact iff_of_false (not_xferExact h hzero hfits) hfits

/-- A size that wraps around is taken for no limit. -/
theorem getMaxDataXferSize_wraps (h : cmd.IsCtrlr) {ctrlCap : BitVec 64} (hlt : cmd.mdts < 32)
    (hle : 32 ≤ cmd.mdts + 12 + (mpsmin ctrlCap).toNat) : cmd.getMaxDataXferSize (some ctrlCap) = .ok 0 := by
  have hmin := mpsmin_lt ctrlCap
  rw [getMaxDataXferSize_eq h, if_pos hlt]
  split
  · rfl
  · refine congrArg Except.ok (BitVec.eq_of_toNat_eq ?_)
    rw [twoPow_mul_toNat hlt (by omega)]
    exact Nat.mod_eq_zero_of_dvd (Nat.pow_dvd_pow 2 (by omega))

/-- Data of the size that Identify returns, of which only one byte is not 0. -/
def oneByte (pos : Nat) (byte : BitVec 8) : List (BitVec 8) := (List.replicate 4096 0).set pos byte

theorem oneByte_length (pos : Nat) (byte : BitVec 8) : (oneByte pos byte).length = 4096 := by
  rw [oneByte, List.length_set, List.length_replicate]

theorem oneByte_self {pos : Nat} (hpos : pos < 4096) (byte : BitVec 8) : (oneByte pos byte)[pos]? = some byte := by
  rw [oneByte, List.getElem?_set_self (by rwa [List.length_replicate])]

theorem oneByte_other {pos i : Nat} (hne : pos ≠ i) (hi : i < 4096) (byte : BitVec 8) :
    (oneByte pos byte)[i]? = some 0 := by
  rw [oneByte, List.getElem?_set_ne hne, List.getElem?_replicate_of_lt hi]

/-- A controller with the limit `mdts`. -/
def ofMDTS (mdts : BitVec 8) : Identify := ofCNS .controller (oneByte 77 mdts)

theorem isCtrlr_ofMDTS (mdts : BitVec 8) : (ofMDTS mdts).IsCtrlr := by
  refine ⟨?_, oneByte_length 77 mdts⟩
  rw [containsCtrlrDataStruct, ofMDTS, getCNS_ofCNS]
  rfl

theorem mdts_ofMDTS (mdts : BitVec 8) : (ofMDTS mdts).mdts = mdts.toNat :=
  congrArg (fun byte => (byte.getD 0).toNat) (oneByte_self (by decide) mdts)

/-- 32 pages of 4 KiB. -/
theorem xferExact_five : XferExact (ofMDTS 5) 0 := by
  refine (xferExact_iff (isCtrlr_ofMDTS 5) 0).2 (.inr ?_)
  rw [mdts_ofMDTS]
  decide

/-- 2^20 pages of 4 KiB. -/
theorem xfer_not_exact : ¬∀ (cmd : Identify) (ctrlCap : BitVec 64), cmd.IsCtrlr → XferExact cmd ctrlCap := by
  intro h
  refine not_xferExact (isCtrlr_ofMDTS 20) ?_ ?_ (h _ 0 (isCtrlr_ofMDTS 20)) <;>
    rw [mdts_ofMDTS] <;> decide

/-! ## The size of a block -/

/-- Both decoders look at the same byte. -/
theorem LBADS_toNat (cmd : Identify) : (IdNamespcStruct.ofData cmd.data).getLBAFormat.LBADS.toNat = cmd.lbads := by
  have hidx : ∀ flbas : BitVec 8, (flbas &&& 0x0F#8 &&& 0x0f#8).toNat % 16 = flbas.toNat % 16 := by
    decide +kernel
  exact congrArg (fun i => (cmd.data[128 + 4 * i + 2]?.getD 0).toNat) (hidx (cmd.data[26]?.getD 0))

theorem getLBADataSize_eq (h : cmd.IsNamspc) : cmd.getLBADataSize = (oneShl cmd.lbads).map (·.signExtend 64) := by
  rw [getLBADataSize, getLBAFormat_eq h]
  dsimp only
  rw [LBADS_toNat]

/-- Below 2^31 the sign is 0. -/
theorem twoPow_signExtend {n : Nat} (h : n < 32) :
    ((BitVec.twoPow 32 n).signExtend 64).toNat = 2 ^ n ↔ n < 31 := by
  have hall : ∀ n : Fin 32, ((BitVec.twoPow 32 n).signExtend 64).toNat = 2 ^ (n : Nat) ↔ (n : Nat) < 31 := by
    decide +kernel
  exact hall ⟨n, h⟩

/-- A shift by 31 takes the sign. -/
theorem not_blockExact (h : cmd.IsNamspc) (hlt : cmd.lbads < 32) (hle : ¬cmd.lbads < 31) : ¬BlockExact cmd := by
  intro hexact
  have hcall := getLBADataSize_eq h
  rw [oneShl_of_lt hlt] at hcall
  obtain ⟨size, -, hok, hnat, -⟩ := hexact.fits (by omega)
  rw [hcall] at hok
  rw [← Except.ok.inj hok] at hnat
  exact hle ((twoPow_signExtend hlt).1 hnat)

/-- **The size of a block is right exactly if it is below 2^31.** -/
theorem blockExact_iff (h : cmd.IsNamspc) : BlockExact cmd ↔ cmd.lbads < 31 := by
  have hcall := getLBADataSize_eq h
  by_cases hlt : cmd.lbads < 32
  · rw [oneShl_of_lt hlt] at hcall
    constructor
    · exact fun hexact => by_contra fun hle => not_blockExact h hlt hle hexact
    · intro hfits
      have hstruct : (IdNamespcStruct.ofData cmd.data).getLBADataSize = .ok (BitVec.twoPow 32 cmd.lbads) := by
        rw [IdNamespcStruct.getLBADataSize, LBADS_toNat, oneShl_of_lt hlt]
      refine ⟨fun _ => ⟨_, _, hcall, (twoPow_signExtend hlt).2 hfits, hstruct, ?_⟩, fun hle => by omega⟩
      rw [BitVec.toNat_twoPow, Nat.mod_eq_of_lt (Nat.pow_lt_pow_right (by decide) hlt)]
  · rw [oneShl, if_neg hlt] at hcall
    refine iff_of_false (fun hexact => ?_) fun hfits => hlt (by omega)
    -- The shift is too long, whether the size fits into 64 bits or not.
    rcases Nat.lt_or_ge cmd.lbads 64 with hsmall | hlarge
    · obtain ⟨size, -, hok, -⟩ := hexact.fits hsmall
      rw [hcall] at hok
      cases hok
    · have hthrew := hexact.rejected hlarge
      rw [hcall] at hthrew
      cases hthrew

/-- A namespace with the first format in use. -/
def ofLBADS (lbads : BitVec 8) : Identify := ofCNS .namespc (oneByte 130 lbads)

theorem isNamspc_ofLBADS (lbads : BitVec 8) : (ofLBADS lbads).IsNamspc := by
  refine ⟨?_, oneByte_length 130 lbads⟩
  rw [containsNamspcDataStruct, ofLBADS, getCNS_ofCNS]
  rfl

theorem lbads_ofLBADS (lbads : BitVec 8) : (ofLBADS lbads).lbads = lbads.toNat := by
  have hflbas : (ofLBADS lbads).data[26]? = some 0 := oneByte_other (by decide) (by decide) lbads
  rw [Identify.lbads, hflbas]
  have hlbads : (ofLBADS lbads).data[130]? = some lbads := oneByte_self (by decide) lbads
  exact congrArg (fun byte => (byte.getD 0).toNat) hlbads

theorem blockExact_twelve : BlockExact (ofLBADS 12) := by
  refine (blockExact_iff (isNamspc_ofLBADS 12)).2 ?_
  rw [lbads_ofLBADS]
  decide

/-- The size 2^31 comes out as 2^64 - 2^31. -/
theorem block_not_exact : ¬∀ cmd : Identify, cmd.IsNamspc → BlockExact cmd := by
  intro h
  refine not_blockExact (isNamspc_ofLBADS 31) ?_ ?_ (h _ (isNamspc_ofLBADS 31)) <;>
    rw [lbads_ofLBADS] <;> decide

end Identify

end Tnvme
