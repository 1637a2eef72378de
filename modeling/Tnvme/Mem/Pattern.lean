import Tnvme.Info.Payload
import Tnvme.Mem.MemBuffer
import Tnvme.Meta.MetaRsrc

/-!
# Data patterns

`SetDataPattern` of a buffer and `SetMetaDataPattern` of a meta buffer fill a segment with elements of a pattern. Both
are the same code, `writePattern`.

An infinite length stands for the size of the buffer, wherever the segment begins, and the end of the segment is a
`uint32_t`. `patternsExact_iff` says for which segments the right bytes are written all the same.
-/

namespace Tnvme

open Bytes

inductive DataPattern where
  | const8bit
  | const16bit
  | const32bit
  | inc8bit
  | inc16bit
  | inc32bit
  | fence
  deriving DecidableEq, Repr

namespace DataPattern

/-- The bytes of an element. -/
def width : DataPattern → Nat
  | const8bit | inc8bit | fence => 1
  | const16bit | inc16bit => 2
  | const32bit | inc32bit => 4

def isInc : DataPattern → Bool
  | inc8bit | inc16bit | inc32bit => true
  | _ => false

/-- The number that is element `k` of a pattern. -/
def value (pat : DataPattern) (initVal k : Nat) : Nat := if pat.isInc then initVal + k else initVal

/-- How a call ends, with the bytes of the buffer. -/
inductive Ends where
  | returned (data : List (BitVec 8))
  | threw (data : List (BitVec 8))
  | undefined
  deriving DecidableEq, Repr

/-- `*rawPtr = val` for an element of some bytes; `none` if it is not in the buffer. -/
def poke (data : List (BitVec 8)) (rawPtr width : Nat) (val : BitVec 64) : Option (List (BitVec 8)) :=
  if rawPtr + width ≤ data.length then some (splice data rawPtr (toBytes width val)) else none

/-- The loop over the elements. -/
def fill (width : Nat) (inc : Bool) : Nat → Nat → BitVec 64 → List (BitVec 8) → Option (List (BitVec 8))
  | 0, _, _, data => some data
  | n + 1, rawPtr, initVal, data =>
    match poke data rawPtr width initVal with
    | none => none
    | some data => fill width inc n (rawPtr + width) (if inc then initVal + 1 else initVal) data

/-- The loop of a pattern over a length in bytes. -/
def setPattern (pat : DataPattern) (initVal : BitVec 64) (offset length : Nat) (data : List (BitVec 8)) :
    Option (List (BitVec 8)) :=
  match pat with
  | .const8bit => fill 1 false length offset initVal data
  | .const16bit => fill 2 false (length / 2) offset initVal data
  | .const32bit => fill 4 false (length / 4) offset initVal data
  | .inc8bit => fill 1 true length offset initVal data
  | .inc16bit => fill 2 true (length / 2) offset initVal data
  | .inc32bit => fill 4 true (length / 4) offset initVal data
  | .fence => some data

/-- What both functions do with the bytes of a buffer. -/
def writePattern (isNull : Bool) (size : BitVec 32) (pat : DataPattern) (initVal : BitVec 64)
    (offset length : BitVec 32) (data : List (BitVec 8)) : Ends :=
  if isNull then .returned data
  else
    let length := if length = BitVec.allOnes 32 then size else length
    if length + offset > size then .threw data
    else if pat = .fence then .threw data
    else
      match setPattern pat initVal offset.toNat length.toNat data with
      | none => .undefined
      | some data => .returned data

end DataPattern

open DataPattern

def MemBuffer.setDataPattern (m : MemBuffer.Members) : DataPattern → BitVec 64 → BitVec 32 → BitVec 32 →
    List (BitVec 8) → Ends := writePattern (m.mRealBaseAddr = none) m.mVirBufSize

def MetaDataBuf.setMetaDataPattern (b : MetaDataBuf) : DataPattern → BitVec 64 → BitVec 32 → BitVec 32 →
    List (BitVec 8) → Ends := writePattern (b.buf = .null) (BitVec.ofNat 32 b.size)

/-! ## What is to be written -/

namespace DataPattern

/-- The length of a segment; an infinite one goes to the end of the buffer. -/
def segment (size offset length : Nat) : Nat := if length = 2 ^ 32 - 1 then size - offset else length

/-- The elements in a segment are those of the pattern, and nothing else has changed. -/
structure Filled (pat : DataPattern) (initVal offset length : Nat) (before after : List (BitVec 8)) : Prop where
  size : after.length = before.length
  element : ∀ k < length / pat.width, littleEndian ((after.drop (offset + k * pat.width)).take pat.width) =
    pat.value initVal k % 2 ^ (pat.width * 8)
  frame : ∀ i, ¬(offset ≤ i ∧ i < offset + length / pat.width * pat.width) → after[i]? = before[i]?

/-- A segment in the buffer is filled, any other one is rejected. -/
structure PatternExact (call : List (BitVec 8) → Ends) (pat : DataPattern) (initVal offset length : Nat)
    (data : List (BitVec 8)) : Prop where
  outside : data.length < offset + segment data.length offset length → call data = .threw data
  inside : offset + segment data.length offset length ≤ data.length →
    ∃ after, call data = .returned after ∧
      Filled pat initVal offset (segment data.length offset length) data after

/-- Neither the length nor the end of the segment goes wrong, or not so that it matters. -/
def PatternSafe (width size offset length : Nat) : Prop :=
  if length = 2 ^ 32 - 1 then
    offset = 0 ∨ size < offset ∧ size + offset < 2 ^ 32 ∨
      offset ≤ size ∧ 2 ^ 32 ≤ size + offset ∧ size / width = (size - offset) / width
  else length + offset < 2 ^ 32 ∨ size < length + offset - 2 ^ 32

instance (width size offset length : Nat) : Decidable (PatternSafe width size offset length) :=
  inferInstanceAs (Decidable (ite _ _ _))

/-- The buffer and the meta buffer are filled right, and alike. Where there is none, nothing is done. -/
structure PatternsExact (m : MemBuffer.Members) (b : MetaDataBuf) (pat : DataPattern) (initVal : BitVec 64)
    (offset length : BitVec 32) (data : List (BitVec 8)) : Prop where
  buffer : m.mRealBaseAddr ≠ none →
    PatternExact (MemBuffer.setDataPattern m pat initVal offset length) pat initVal.toNat offset.toNat length.toNat data
  metaBuffer : b.buf ≠ .null →
    PatternExact (b.setMetaDataPattern pat initVal offset length) pat initVal.toNat offset.toNat length.toNat data
  absent : m.mRealBaseAddr = none → MemBuffer.setDataPattern m pat initVal offset length data = .returned data
  metaAbsent : b.buf = .null → b.setMetaDataPattern pat initVal offset length data = .returned data
  agree : (m.mRealBaseAddr = none ↔ b.buf = .null) →
    MemBuffer.setDataPattern m pat initVal offset length data = b.setMetaDataPattern pat initVal offset length data

/-! ## The elements -/

/-- The bytes that the loop writes. -/
def elements (width : Nat) (inc : Bool) : Nat → BitVec 64 → List (BitVec 8)
  | 0, _ => []
  | n + 1, initVal => toBytes width initVal ++ elements width inc n (if inc then initVal + 1 else initVal)

variable {width n k rawPtr : Nat} {inc : Bool} {initVal : BitVec 64} {data : List (BitVec 8)} {pat : DataPattern}

theorem length_elements : (elements width inc n initVal).length = n * width := by
  induction n generalizing initVal with
  | zero => simp [elements]
  | succ n ih => rw [elements, List.length_append, length_toBytes, ih, Nat.succ_mul, Nat.add_comm]

/-- Elements that have room are written one behind the other. -/
theorem fill_inside (h : rawPtr + n * width ≤ data.length) :
    fill width inc n rawPtr initVal data = some (splice data rawPtr (elements width inc n initVal)) := by
  induction n generalizing rawPtr initVal data with
  | zero => rw [fill, elements, splice_nil]
  | succ n ih =>
    rw [Nat.succ_mul] at h
    have hroom : rawPtr + (toBytes width initVal).length ≤ data.length := by
      rw [length_toBytes]
      omega
    have hnext : rawPtr + width + n * width ≤ (splice data rawPtr (toBytes width initVal)).length := by
      rw [length_splice hroom]
      omega
    have hsplice := splice_splice (show rawPtr ≤ data.length by omega) (toBytes width initVal)
    rw [length_toBytes] at hsplice
    rw [fill, poke, if_pos (by omega)]
    exact (ih hnext).trans (congrArg some (hsplice _))

/-- Of elements that have none one is written behind the buffer. -/
theorem fill_outside (hptr : rawPtr ≤ data.length) (h : data.length < rawPtr + n * width) :
    fill width inc n rawPtr initVal data = none := by
  induction n generalizing rawPtr initVal data with
  | zero => omega
  | succ n ih =>
    rw [fill, poke]
    by_cases hroom : rawPtr + width ≤ data.length
    · have hlen : (splice data rawPtr (toBytes width initVal)).length = data.length :=
        length_splice (by rwa [length_toBytes])
      rw [if_pos hroom]
      exact ih (by rwa [hlen]) (by rw [hlen]; rw [Nat.succ_mul] at h; omega)
    · rw [if_neg hroom]

/-- The bytes of one element. -/
theorem take_drop_elements (hk : k < n) : ((elements width inc n initVal).drop (k * width)).take width =
    toBytes width (if inc then initVal + BitVec.ofNat 64 k else initVal) := by
  induction n generalizing initVal k with
  | zero => omega
  | succ n ih =>
    rw [elements]
    cases k with
    | zero =>
      rw [Nat.zero_mul, List.drop_zero, List.take_left' (length_toBytes _ _)]
      cases inc <;> simp
    | succ k =>
      rw [Nat.succ_mul, Nat.add_comm, ← List.drop_drop, List.drop_left' (length_toBytes _ _),
        ih (Nat.lt_of_succ_lt_succ hk)]
      cases inc with
      | false => rfl
      | true =>
        refine congrArg (toBytes width) ?_
        rw [if_pos rfl, if_pos rfl, if_pos rfl, BitVec.add_assoc, Nat.add_comm k 1, BitVec.ofNat_add]
        rfl

theorem setPattern_eq (hpat : pat ≠ .fence) (initVal : BitVec 64) (offset length : Nat) (data : List (BitVec 8)) :
    setPattern pat initVal offset length data =
      fill pat.width pat.isInc (length / pat.width) offset initVal data := by
  cases pat with
  | fence => exact absurd rfl hpat
  | const8bit | inc8bit => exact congrArg (fill 1 _ · offset initVal data) (Nat.div_one _).symm
  | const16bit | const32bit | inc16bit | inc32bit => rfl

theorem value_eq (pat : DataPattern) (initVal : BitVec 64) (k : Nat) :
    (if pat.isInc then initVal + BitVec.ofNat 64 k else initVal).toNat % 2 ^ (pat.width * 8) =
      pat.value initVal.toNat k % 2 ^ (pat.width * 8) := by
  have hdvd : 2 ^ (pat.width * 8) ∣ 2 ^ 64 := Nat.pow_dvd_pow 2 (by cases pat <;> decide)
  rw [value]
  split
  · rw [BitVec.toNat_add, BitVec.toNat_ofNat, Nat.add_mod_mod, Nat.mod_mod_of_dvd _ hdvd]
  · rfl

/-- What the loop leaves when there is room. -/
theorem filled_splice {offset length : Nat} (h : offset + length / pat.width * pat.width ≤ data.length) :
    Filled pat initVal.toNat offset length data
      (splice data offset (elements pat.width pat.isInc (length / pat.width) initVal)) := by
  have hroom : offset + (elements pat.width pat.isInc (length / pat.width) initVal).length ≤ data.length := by
    rwa [length_elements]
  refine ⟨length_splice hroom, fun k hk => ?_, fun i hi => getElem?_splice_of_not hroom (by rwa [length_elements])⟩
  have hin : k * pat.width + pat.width ≤ length / pat.width * pat.width := by
    rw [← Nat.succ_mul]
    exact Nat.mul_le_mul_right _ hk
  rw [take_drop_splice (by omega) (by rwa [length_elements]), take_drop_elements hk, littleEndian_toBytes, value_eq]

/-! ## Which segments are filled -/

section Segments

variable {size offset length : BitVec 32} {len : Nat}

/-- The length that the code takes. -/
def taken (size length : BitVec 32) : Nat := if length.toNat = 2 ^ 32 - 1 then size.toNat else length.toNat

theorem writePattern_eq (hpat : pat ≠ .fence) (initVal : BitVec 64) (size offset length : BitVec 32)
    (data : List (BitVec 8)) : writePattern false size pat initVal offset length data =
      if size.toNat < (taken size length + offset.toNat) % 2 ^ 32 then .threw data
      else
        match fill pat.width pat.isInc (taken size length / pat.width) offset.toNat initVal data with
        | none => .undefined
        | some data => .returned data := by
  have hlen : (if length = BitVec.allOnes 32 then size else length).toNat = taken size length := by
    have hall : length = BitVec.allOnes 32 ↔ length.toNat = 2 ^ 32 - 1 := by
      rw [← BitVec.toNat_inj, BitVec.toNat_allOnes]
    rw [taken, apply_ite BitVec.toNat]
    simp only [hall]
  have hgt (l : BitVec 32) : l + offset > size ↔ size.toNat < (l.toNat + offset.toNat) % 2 ^ 32 := by
    rw [gt_iff_lt, BitVec.lt_def, BitVec.toNat_add]
  rw [writePattern]
  simp only [Bool.false_eq_true, if_false, hgt, hlen, if_neg hpat, setPattern_eq hpat]

/-- How a call ends that finds the end of the segment in the buffer. -/
theorem writePattern_inside (hpat : pat ≠ .fence) (hsize : size.toNat = data.length)
    (hcheck : (taken size length + offset.toNat) % 2 ^ 32 ≤ data.length)
    (hroom : offset.toNat + taken size length / pat.width * pat.width ≤ data.length) :
    ∃ after, writePattern false size pat initVal offset length data = .returned after ∧
      Filled pat initVal.toNat offset.toNat (taken size length) data after := by
  refine ⟨_, ?_, filled_splice hroom⟩
  rw [writePattern_eq hpat, if_neg (by omega), fill_inside hroom]

theorem writePattern_outside (hpat : pat ≠ .fence) (hsize : size.toNat = data.length)
    (hcheck : (taken size length + offset.toNat) % 2 ^ 32 ≤ data.length) (hoffset : offset.toNat ≤ data.length)
    (hout : data.length < offset.toNat + taken size length / pat.width * pat.width) :
    writePattern false size pat initVal offset length data = .undefined := by
  rw [writePattern_eq hpat, if_neg (by omega), fill_outside hoffset hout]

theorem writePattern_threw_iff (hpat : pat ≠ .fence) (hsize : size.toNat = data.length) :
    writePattern false size pat initVal offset length data = .threw data ↔
      data.length < (taken size length + offset.toNat) % 2 ^ 32 := by
  rw [writePattern_eq hpat, ← hsize]
  constructor
  · intro hthrew
    by_contra hcheck
    rw [if_neg hcheck] at hthrew
    split at hthrew <;> cases hthrew
  · exact fun hcheck => if_pos hcheck

/-- The elements of a segment, not its bytes, are what counts. -/
theorem Filled.congr {v o l l' : Nat} {after : List (BitVec 8)} (h : Filled pat v o l data after)
    (hdiv : l / pat.width = l' / pat.width) : Filled pat v o l' data after :=
  ⟨h.size, hdiv ▸ h.element, hdiv ▸ h.frame⟩

theorem PatternExact.rejected {call : List (BitVec 8) → Ends} {v o l : Nat}
    (h : data.length < o + segment data.length o l) : PatternExact call pat v o l data ↔ call data = .threw data :=
  ⟨fun hexact => hexact.outside h, fun hthrew => ⟨fun _ => hthrew, fun hin => absurd hin (Nat.not_le_of_lt h)⟩⟩

theorem PatternExact.accepted {call : List (BitVec 8) → Ends} {v o l : Nat}
    (h : o + segment data.length o l ≤ data.length) : PatternExact call pat v o l data ↔
      ∃ after, call data = .returned after ∧ Filled pat v o (segment data.length o l) data after :=
  ⟨fun hexact => hexact.inside h, fun hfilled => ⟨fun hout => absurd h (Nat.not_le_of_lt hout), fun _ => hfilled⟩⟩

/-- A segment that goes to the end of the buffer. -/
theorem infiniteExact_iff (hpat : pat ≠ .fence) (hsize : size.toNat = data.length)
    (hmax : length.toNat = 2 ^ 32 - 1) :
    PatternExact (writePattern false size pat initVal offset length) pat initVal.toNat offset.toNat length.toNat data ↔
      offset.toNat = 0 ∨ data.length < offset.toNat ∧ data.length + offset.toNat < 2 ^ 32 ∨
        offset.toNat ≤ data.length ∧ 2 ^ 32 ≤ data.length + offset.toNat ∧
          data.length / pat.width = (data.length - offset.toNat) / pat.width := by
  have htaken : taken size length = data.length := (if_pos hmax).trans hsize
  have hsegment : segment data.length offset.toNat length.toNat = data.length - offset.toNat := if_pos hmax
  have hthrew := @writePattern_threw_iff initVal data pat size offset length hpat hsize
  have hinside := @writePattern_inside initVal data pat size offset length hpat hsize
  have houtside := @writePattern_outside initVal data pat size offset length hpat hsize
  rw [htaken] at hthrew hinside houtside
  have hwide : data.length < 2 ^ 32 := hsize ▸ size.isLt
  have hoff : offset.toNat < 2 ^ 32 := offset.isLt
  rcases Nat.lt_or_ge data.length offset.toNat with hbehind | hbefore
  · rw [PatternExact.rejected (by rw [hsegment]; omega), hthrew]
    omega
  rw [PatternExact.accepted (by rw [hsegment]; omega), hsegment]
  by_cases hcheck : (data.length + offset.toNat) % 2 ^ 32 ≤ data.length
  · by_cases hdiv : data.length / pat.width = (data.length - offset.toNat) / pat.width
    · -- as many elements as there are up to the end
      have hfloor : (data.length - offset.toNat) / pat.width * pat.width ≤ data.length - offset.toNat :=
        Nat.div_mul_le_self _ _
      obtain ⟨after, hcall, hfilled⟩ := hinside hcheck (by rw [hdiv]; omega)
      exact iff_of_true ⟨after, hcall, hfilled.congr hdiv⟩ (by omega)
    · -- the last elements are behind the buffer
      have hlt : (data.length - offset.toNat) / pat.width < data.length / pat.width :=
        Nat.lt_of_le_of_ne (Nat.div_le_div_right (Nat.sub_le _ _)) (Ne.symm hdiv)
      have hpos : 0 < pat.width := by cases pat <;> decide
      have hout := (Nat.div_lt_iff_lt_mul hpos).1 hlt
      have hzero : offset.toNat ≠ 0 := fun hzero => hdiv (by rw [hzero, Nat.sub_zero])
      refine iff_of_false ?_ (by omega)
      rintro ⟨after, hcall, -⟩
      rw [houtside hcheck hbefore (by omega)] at hcall
      cases hcall
  · refine iff_of_false ?_ (by omega)
    rintro ⟨after, hcall, -⟩
    rw [hthrew.2 (Nat.lt_of_not_le hcheck)] at hcall
    cases hcall

theorem patternExact_iff (hpat : pat ≠ .fence) (hsize : size.toNat = data.length) :
    PatternExact (writePattern false size pat initVal offset length) pat initVal.toNat offset.toNat length.toNat data ↔
      PatternSafe pat.width data.length offset.toNat length.toNat := by
  unfold PatternSafe
  by_cases hmax : length.toNat = 2 ^ 32 - 1
  · rw [if_pos hmax, infiniteExact_iff hpat hsize hmax]
  rw [if_neg hmax]
  have htaken : taken size length = length.toNat := if_neg hmax
  have hsegment : segment data.length offset.toNat length.toNat = length.toNat := if_neg hmax
  have hthrew := @writePattern_threw_iff initVal data pat size offset length hpat hsize
  have hinside := @writePattern_inside initVal data pat size offset length hpat hsize
  rw [htaken] at hthrew hinside
  have hwide : data.length < 2 ^ 32 := hsize ▸ size.isLt
  rcases Nat.lt_or_ge data.length (offset.toNat + length.toNat) with hout | hin
  · have hlen : length.toNat < 2 ^ 32 := length.isLt
    have hoff : offset.toNat < 2 ^ 32 := offset.isLt
    rw [PatternExact.rejected (by rwa [hsegment]), hthrew]
    omega
  · have hfloor : length.toNat / pat.width * pat.width ≤ length.toNat := Nat.div_mul_le_self _ _
    rw [PatternExact.accepted (by rwa [hsegment]), hsegment]
    exact iff_of_true (hinside (by omega) (by omega)) (.inl (by omega))

end Segments

/-- **A segment is filled right, or rejected, exactly if its length and its end do not go wrong.** -/
theorem patternsExact_iff (hpat : pat ≠ .fence) {m : MemBuffer.Members} {b : MetaDataBuf}
    (hm : m.mVirBufSize.toNat = data.length) (hb : b.size = data.length) (initVal : BitVec 64)
    (offset length : BitVec 32) : PatternsExact m b pat initVal offset length data ↔
      m.mRealBaseAddr = none ∧ b.buf = .null ∨ PatternSafe pat.width data.length offset.toNat length.toNat := by
  have hsize : BitVec.ofNat 32 b.size = m.mVirBufSize := by
    rw [hb, ← hm, BitVec.ofNat_toNat, BitVec.setWidth_eq]
  have hexact := @patternExact_iff initVal data pat m.mVirBufSize offset length hpat hm
  have hbuffer (h : m.mRealBaseAddr ≠ none) : MemBuffer.setDataPattern m = writePattern false m.mVirBufSize := by
    rw [MemBuffer.setDataPattern, decide_eq_false h]
  have hmeta (h : b.buf ≠ .null) : b.setMetaDataPattern = writePattern false m.mVirBufSize := by
    rw [MetaDataBuf.setMetaDataPattern, hsize, decide_eq_false h]
  have hnull (h : b.buf = .null) : b.setMetaDataPattern = writePattern true m.mVirBufSize := by
    rw [MetaDataBuf.setMetaDataPattern, hsize, decide_eq_true h]
  constructor
  · intro h
    by_cases hbase : m.mRealBaseAddr = none
    · by_cases hbuf : b.buf = .null
      · exact .inl ⟨hbase, hbuf⟩
      · exact .inr (hexact.1 (hmeta hbuf ▸ h.metaBuffer hbuf))
    · exact .inr (hexact.1 (hbuffer hbase ▸ h.buffer hbase))
  · intro h
    refine ⟨fun hbase => ?_, fun hbuf => ?_, fun hbase => ?_, fun hbuf => ?_, fun hsame => ?_⟩
    · rw [hbuffer hbase]
      exact hexact.2 (h.resolve_left fun hno => hbase hno.1)
    · rw [hmeta hbuf]
      exact hexact.2 (h.resolve_left fun hno => hbuf hno.2)
    · rw [MemBuffer.setDataPattern, decide_eq_true hbase]
      rfl
    · rw [hnull hbuf]
      rfl
    · rw [MemBuffer.setDataPattern, MetaDataBuf.setMetaDataPattern, hsize, decide_eq_decide.2 hsame]

/-- A buffer of four bytes, in which the last three are numbered. -/
theorem patternsExact_three :
    PatternsExact ⟨true, some 64, some 64, 4#32, 0⟩ ⟨.mem 64, 4, 0⟩ .inc8bit 1 1 3 [0, 0, 0, 0] :=
  (patternsExact_iff (by decide) rfl rfl 1 1 3).2 (.inr (by decide))

/-- From the second byte to the end of a buffer of four bytes. -/
theorem pattern_not_exact : ¬∀ (pat : DataPattern) (m : MemBuffer.Members) (b : MetaDataBuf) (initVal : BitVec 64)
    (offset length : BitVec 32) (data : List (BitVec 8)), pat ≠ .fence → m.mVirBufSize.toNat = data.length →
    b.size = data.length → PatternsExact m b pat initVal offset length data := by
  intro h
  have hexact := h .const8bit ⟨true, some 64, some 64, 4#32, 0⟩ ⟨.mem 64, 4, 0⟩ 0 1 (BitVec.allOnes 32) [0, 0, 0, 0]
    (by decide) rfl rfl
  have hsafe := (patternExact_iff (by decide) rfl).1 (hexact.buffer (by decide))
  exact absurd hsafe (by decide)

end DataPattern

end Tnvme
