import Mathlib.Data.List.TakeWhile
import Tnvme.Info.Sizes
import Tnvme.Mem.Pattern

/-!
# Buffers at every offset into a page

`PRPOffsetSinglePgMultiBlk_r10b` and `PRPOffsetDualPgMultiBlk_r10b` begin a buffer at every offset into a page, and take
as many blocks as there is room for in one or in two pages. The two are one function here, with the number of pages and
the pattern that they differ in.

The transfer is compared with its maximum without interleaved meta data. `inLimits_iff` says when this does not matter;
NLB and the size of the meta buffers can be too small for very many blocks. A shift by 31 makes a negative size.
-/

namespace Tnvme

/-- What a test is given: CC.MPS, the format and the type of the namespace, the maximum size of a transfer (0 for none),
and whether meta buffers of a size can be had. -/
structure PrpOffset where
  mpsRegVal : BitVec 4
  LBADS : BitVec 8
  MS : BitVec 16
  type : NamspcType
  maxDtXferSz : BitVec 32
  setMetaAllocSize : BitVec 32 → Bool

/-- What is made for a write and a read. -/
structure PrpOffsetCmd where
  pgOff : BitVec 32
  bufSize : BitVec 32
  nlb : BitVec 16
  dataPat : DataPattern
  wrVal : BitVec 64
  /-- The length of the pattern for the meta buffer. -/
  metabufSz : Option (BitVec 32)
  deriving DecidableEq, Repr

/-- The elements up to the first one with a property, which is the last one then. -/
def upTo {α : Type} (p : α → Bool) : List α → List α
  | [] => []
  | a :: l => if p a then [a] else a :: upTo p l

namespace PrpOffset

variable (pages : BitVec 64) (incPat : DataPattern) (t : PrpOffset)

def ccMPS : Except Failure (BitVec 64) := (oneShl (t.mpsRegVal.toNat + 12)).map (·.signExtend 64)

def lbaDataSize : Except Failure (BitVec 64) := (oneShl t.LBADS.toNat).map (·.signExtend 64)

/-- The size that the offsets and the buffers are computed with. -/
def blockSize (lbaDataSize : BitVec 64) : BitVec 64 :=
  if t.type = .metaI then lbaDataSize + t.MS.setWidth 64 else lbaDataSize

def metaAllocSize (ccMPS lbaDataSize : BitVec 64) : BitVec 32 :=
  (t.MS.setWidth 64 * (pages * ccMPS / lbaDataSize)).setWidth 32

/-- The condition of the `break` of the inner loop. -/
def exceeds (lbaDataSize nLBAs : BitVec 64) : Bool :=
  t.maxDtXferSz ≠ 0 && decide (t.maxDtXferSz.setWidth 64 < lbaDataSize * nLBAs)

def cmd (lbaDataSize pgOff nLBAs : BitVec 64) : PrpOffsetCmd where
  pgOff := pgOff.setWidth 32
  bufSize := (t.blockSize lbaDataSize * nLBAs).setWidth 32
  nlb := (nLBAs - 1).setWidth 16
  dataPat := if nLBAs.toNat % 2 ≠ 0 then incPat else .const16bit
  wrVal := pgOff + nLBAs
  metabufSz := if t.type = .metaS then some ((nLBAs * t.MS.setWidth 64).setWidth 32) else none

/-- The inner loop. -/
def cmdsAt (ccMPS lbaDataSize pgOff : BitVec 64) : List PrpOffsetCmd :=
  let Y := (pages * ccMPS - pgOff) / t.blockSize lbaDataSize
  ((List.range' 1 Y.toNat).takeWhile fun nLBAs => !t.exceeds lbaDataSize (BitVec.ofNat 64 nLBAs)).map fun nLBAs =>
    t.cmd incPat lbaDataSize pgOff (BitVec.ofNat 64 nLBAs)

/-- The outer loop, for a last offset of `X`. -/
def cmds (ccMPS lbaDataSize X : BitVec 64) : List PrpOffsetCmd :=
  (List.range (X.toNat / 4 + 1)).flatMap fun k => t.cmdsAt pages incPat ccMPS lbaDataSize (BitVec.ofNat 64 (4 * k))

/-- The pattern does not fit, so `SetMetaDataPattern` throws. -/
def throws (metaBufSize : BitVec 32) (c : PrpOffsetCmd) : Bool := c.metabufSz.any (metaBufSize < ·)

/-- `RunCoreTest`: what is made until the end, or until something throws. Other calls that throw end it earlier. -/
def run : Except Failure (List PrpOffsetCmd) := do
  let ccMPS ← t.ccMPS
  let lbaDataSize ← t.lbaDataSize
  let X := ccMPS - t.blockSize lbaDataSize
  let metaBufSize := t.metaAllocSize pages ccMPS lbaDataSize
  if t.type = .e2eS ∨ t.type = .e2eI then return []
  else if t.type = .metaS ∧ t.setMetaAllocSize metaBufSize = false then return []
  else if X.slt 0 then return []
  else return upTo (throws metaBufSize) (t.cmds pages incPat ccMPS lbaDataSize X)

end PrpOffset

namespace PRPOffsetSinglePgMultiBlk_r10b

def runCoreTest (t : PrpOffset) : Except Failure (List PrpOffsetCmd) := t.run 1 .inc8bit

end PRPOffsetSinglePgMultiBlk_r10b

namespace PRPOffsetDualPgMultiBlk_r10b

def runCoreTest (t : PrpOffset) : Except Failure (List PrpOffsetCmd) := t.run 2 .inc32bit

end PRPOffsetDualPgMultiBlk_r10b

/-! ## The limits -/

namespace PrpOffset

variable (pages : Nat) (t : PrpOffset)

/-- The bytes of a memory page, and of a block on the wire. -/
def pageBytes : Nat := 2 ^ (t.mpsRegVal.toNat + 12)

def lbaBytes : Nat := 2 ^ t.LBADS.toNat

def wireBytes : Nat := t.lbaBytes + if t.type = .metaI then t.MS.toNat else 0

/-- The bytes of a meta buffer. -/
def metaBytes : Nat := t.MS.toNat * (pages * t.pageBytes / t.lbaBytes) % 2 ^ 32

/-- What a command has to keep to. -/
structure InLimits (c : PrpOffsetCmd) : Prop where
  page : c.pgOff.toNat + c.bufSize.toNat ≤ pages * t.pageBytes
  xfer : t.maxDtXferSz ≠ 0 → c.bufSize.toNat ≤ t.maxDtXferSz.toNat
  blocks : (c.nlb.toNat + 1) * t.wireBytes = c.bufSize.toNat
  metabuf : ∀ len ∈ c.metabufSz, len.toNat ≤ t.metaBytes pages

/-- All that is made keeps to the limits. -/
def Keeps (res : Except Failure (List PrpOffsetCmd)) : Prop := ∃ cs, res = .ok cs ∧ ∀ c ∈ cs, t.InLimits pages c

/-- The most blocks of a command. -/
def maxBlocks : Nat :=
  if t.maxDtXferSz = 0 then pages * t.pageBytes / t.wireBytes
  else min (pages * t.pageBytes / t.wireBytes) (t.maxDtXferSz.toNat / t.lbaBytes)

/-- The test does not get to its loops. -/
def Refused : Prop :=
  t.type = .e2eS ∨ t.type = .e2eI ∨
    t.type = .metaS ∧ t.setMetaAllocSize (BitVec.ofNat 32 (t.metaBytes pages)) = false

/-- The largest number of blocks keeps to the limits. -/
structure LargestFits : Prop where
  xfer : t.maxDtXferSz ≠ 0 → t.maxBlocks pages * t.wireBytes ≤ t.maxDtXferSz.toNat
  nlb : t.maxBlocks pages ≤ 2 ^ 16
  metabuf : t.type = .metaS → t.maxBlocks pages * t.MS.toNat ≤ t.metaBytes pages

/-- When the commands keep to the limits. -/
def Fits : Prop :=
  t.LBADS.toNat < 32 ∧ (t.Refused pages ∨
    if t.LBADS.toNat = 31 then t.maxDtXferSz ≠ 0 else t.wireBytes ≤ t.pageBytes → t.LargestFits pages)

/-! ## What the sizes are -/

theorem mem_takeWhile_iff {α : Type} {p : α → Bool} {l : List α} (h : l.Pairwise fun a b => p b = true → p a = true)
    {a : α} : a ∈ l.takeWhile p ↔ a ∈ l ∧ p a = true := by
  induction l with
  | nil => simp
  | cons b l ih =>
    obtain ⟨hb, hl⟩ := List.pairwise_cons.1 h
    by_cases hpb : p b = true
    · rw [List.takeWhile_cons_of_pos hpb, List.mem_cons, List.mem_cons, ih hl]
      constructor
      · rintro (rfl | ⟨hmem, hpa⟩)
        · exact ⟨.inl rfl, hpb⟩
        · exact ⟨.inr hmem, hpa⟩
      · rintro ⟨rfl | hmem, hpa⟩
        · exact .inl rfl
        · exact .inr ⟨hmem, hpa⟩
    · rw [List.takeWhile_cons_of_neg hpb]
      refine iff_of_false List.not_mem_nil ?_
      rintro ⟨hmem, hpa⟩
      rcases List.mem_cons.1 hmem with rfl | hmem
      · exact hpb hpa
      · exact hpb (hb a hmem hpa)

/-- What fits does not stop the list. -/
theorem forall_upTo {α : Type} {p : α → Bool} {Q : α → Prop} (h : ∀ a, Q a → p a = false) (l : List α) :
    (∀ a ∈ upTo p l, Q a) ↔ ∀ a ∈ l, Q a := by
  induction l with
  | nil => rfl
  | cons a l ih =>
    unfold upTo
    by_cases hp : p a = true
    · rw [if_pos hp]
      have hno : ¬Q a := fun hq => by rw [h a hq] at hp; cases hp
      refine iff_of_false (fun hall => ?_) fun hall => ?_
      · exact hno (hall a (List.mem_singleton_self a))
      · exact hno (hall a List.mem_cons_self)
    · rw [if_neg hp, List.forall_mem_cons, List.forall_mem_cons, ih]

section Sizes

variable {t : PrpOffset} {pages : Nat}

theorem pageBytes_le (t : PrpOffset) : t.pageBytes ≤ 2 ^ 27 :=
  Nat.pow_le_pow_right (by decide) (by have := t.mpsRegVal.isLt; omega)

theorem pageBytes_dvd (t : PrpOffset) : 4 ∣ t.pageBytes := by
  rw [pageBytes, Nat.pow_add]
  exact Dvd.dvd.mul_left (by decide) _

theorem ccMPS_ok (t : PrpOffset) : ∃ ccMPS, t.ccMPS = .ok ccMPS ∧ ccMPS.toNat = t.pageBytes := by
  have hlt : t.mpsRegVal.toNat + 12 < 31 := by
    have := t.mpsRegVal.isLt
    omega
  refine ⟨_, by rw [ccMPS, oneShl_of_lt (by omega)]; rfl, ?_⟩
  exact (Identify.twoPow_signExtend (by omega)).2 hlt

theorem lbaDataSize_ok (hlt : t.LBADS.toNat < 31) :
    ∃ lbaDataSize, t.lbaDataSize = .ok lbaDataSize ∧ lbaDataSize.toNat = t.lbaBytes := by
  refine ⟨_, by rw [lbaDataSize, oneShl_of_lt (by omega)]; rfl, ?_⟩
  exact (Identify.twoPow_signExtend (by omega)).2 hlt

/-- A shift by 31. -/
theorem lbaDataSize_sign (h : t.LBADS.toNat = 31) :
    ∃ lbaDataSize, t.lbaDataSize = .ok lbaDataSize ∧ lbaDataSize.toNat = 2 ^ 64 - 2 ^ 31 :=
  ⟨_, by rw [lbaDataSize, h, oneShl_of_lt (by decide)]; rfl, by decide⟩

theorem lbaBytes_pos (t : PrpOffset) : 0 < t.lbaBytes := Nat.pow_pos (by decide)

theorem lbaBytes_le_wire (t : PrpOffset) : t.lbaBytes ≤ t.wireBytes := Nat.le_add_right _ _

theorem wireBytes_le (t : PrpOffset) : t.wireBytes ≤ t.lbaBytes + 65535 := by
  have := t.MS.isLt
  unfold wireBytes
  split <;> omega

theorem InLimits.not_throws {metaBufSize : BitVec 32} (hsize : metaBufSize.toNat = t.metaBytes pages)
    (c : PrpOffsetCmd) (h : t.InLimits pages c) : throws metaBufSize c = false := by
  unfold throws
  cases hlen : c.metabufSz with
  | none => rfl
  | some len =>
    have := h.metabuf len hlen
    simp only [Option.any_some, decide_eq_false_iff_not, BitVec.not_lt, BitVec.le_def]
    omega

end Sizes

/-! ## Blocks below 2^31 -/

section Small

variable {t : PrpOffset} {pages : BitVec 64} {incPat : DataPattern} {ccMPS lbaDataSize : BitVec 64}
  (hpages : pages.toNat ≤ 2) (hcc : ccMPS.toNat = t.pageBytes) (hlba : lbaDataSize.toNat = t.lbaBytes)

include hpages hcc in
theorem pages_toNat : (pages * ccMPS).toNat = pages.toNat * t.pageBytes := by
  have hle := pageBytes_le t
  have hmul := Nat.mul_le_mul hpages hle
  rw [BitVec.toNat_mul, hcc, Nat.mod_eq_of_lt (by omega)]

include hlba in
theorem blockSize_toNat (hlt : t.LBADS.toNat < 31) : (t.blockSize lbaDataSize).toNat = t.wireBytes := by
  have hle : t.lbaBytes ≤ 2 ^ 30 := Nat.pow_le_pow_right (by decide) (by omega)
  have hms := t.MS.isLt
  unfold blockSize wireBytes
  split
  · rw [BitVec.toNat_add, BitVec.toNat_setWidth, hlba]
    omega
  · exact hlba

include hpages hcc hlba in
theorem metaAllocSize_toNat : (t.metaAllocSize pages ccMPS lbaDataSize).toNat = t.metaBytes pages.toNat := by
  have hms := t.MS.isLt
  have hP := pages_toNat hpages hcc
  have hmul := Nat.mul_le_mul hpages (pageBytes_le t)
  have hdiv : pages.toNat * t.pageBytes / t.lbaBytes ≤ 2 ^ 28 := Nat.le_trans (Nat.div_le_self _ _) hmul
  have hprod := Nat.mul_le_mul (Nat.le_of_lt hms) hdiv
  rw [metaAllocSize, metaBytes, BitVec.toNat_setWidth, BitVec.toNat_mul, BitVec.toNat_udiv, BitVec.toNat_setWidth, hP,
    hlba, Nat.mod_eq_of_lt (show t.MS.toNat < 2 ^ 64 by omega)]
  rw [Nat.mod_eq_of_lt (show t.MS.toNat * (pages.toNat * t.pageBytes / t.lbaBytes) < 2 ^ 64 by omega)]

/-- The offset and the number of blocks of a command. -/
structure Admitted (pages : Nat) (t : PrpOffset) (k n : Nat) : Prop where
  offset : 4 * k + t.wireBytes ≤ t.pageBytes
  pos : 1 ≤ n
  room : 4 * k + t.wireBytes * n ≤ pages * t.pageBytes
  xfer : t.maxDtXferSz ≠ 0 → t.lbaBytes * n ≤ t.maxDtXferSz.toNat

theorem Admitted.le_maxBlocks {k n : Nat} (h : Admitted pages.toNat t k n) : n ≤ t.maxBlocks pages.toNat := by
  have hwire : 0 < t.wireBytes := Nat.lt_of_lt_of_le (lbaBytes_pos t) (lbaBytes_le_wire t)
  have hroom : n ≤ pages.toNat * t.pageBytes / t.wireBytes := by
    rw [Nat.le_div_iff_mul_le hwire, Nat.mul_comm]
    have := h.room
    omega
  unfold maxBlocks
  split
  · exact hroom
  · rename_i hmax
    refine Nat.le_min.2 ⟨hroom, ?_⟩
    rw [Nat.le_div_iff_mul_le (lbaBytes_pos t), Nat.mul_comm]
    exact h.xfer hmax

theorem admitted_maxBlocks (hfit : t.wireBytes ≤ t.pageBytes) (hpos : 1 ≤ t.maxBlocks pages.toNat) :
    Admitted pages.toNat t 0 (t.maxBlocks pages.toNat) := by
  have hroom : t.maxBlocks pages.toNat ≤ pages.toNat * t.pageBytes / t.wireBytes := by
    unfold maxBlocks
    split
    · exact Nat.le_refl _
    · exact Nat.min_le_left _ _
  refine ⟨by omega, hpos, ?_, fun hmax => ?_⟩
  · have := Nat.mul_le_of_le_div _ _ _ hroom
    rw [Nat.mul_comm t.wireBytes]
    omega
  · have hxfer : t.maxBlocks pages.toNat ≤ t.maxDtXferSz.toNat / t.lbaBytes := by
      rw [maxBlocks, if_neg hmax]
      exact Nat.min_le_right _ _
    rw [Nat.mul_comm]
    exact Nat.mul_le_of_le_div _ _ _ hxfer

include hlba in
theorem exceeds_iff {n : Nat} (hn : t.lbaBytes * n < 2 ^ 64) : t.exceeds lbaDataSize (BitVec.ofNat 64 n) = true ↔
    t.maxDtXferSz ≠ 0 ∧ t.maxDtXferSz.toNat < t.lbaBytes * n := by
  have hle : n ≤ t.lbaBytes * n := Nat.le_mul_of_pos_left n (lbaBytes_pos t)
  have hmax := t.maxDtXferSz.isLt
  unfold exceeds
  rw [Bool.and_eq_true, decide_eq_true_eq, decide_eq_true_eq, BitVec.lt_def, BitVec.toNat_mul, hlba, BitVec.toNat_ofNat,
    BitVec.toNat_setWidth, Nat.mod_eq_of_lt (show n < 2 ^ 64 by omega), Nat.mod_eq_of_lt hn,
    Nat.mod_eq_of_lt (show t.maxDtXferSz.toNat < 2 ^ 64 by omega)]

include hpages hlba in
/-- What the limits mean for a command. -/
theorem inLimits_cmd_iff (hlt : t.LBADS.toNat < 31) {k n : Nat} (h : Admitted pages.toNat t k n) :
    t.InLimits pages.toNat (t.cmd incPat lbaDataSize (BitVec.ofNat 64 (4 * k)) (BitVec.ofNat 64 n)) ↔
      (t.maxDtXferSz ≠ 0 → n * t.wireBytes ≤ t.maxDtXferSz.toNat) ∧ n ≤ 2 ^ 16 ∧
        (t.type = .metaS → n * t.MS.toNat ≤ t.metaBytes pages.toNat) := by
  have hmul := Nat.mul_le_mul hpages (pageBytes_le t)
  have hwire : 0 < t.wireBytes := Nat.lt_of_lt_of_le (lbaBytes_pos t) (lbaBytes_le_wire t)
  have hroom := h.room
  have hpos := h.pos
  have hms := t.MS.isLt
  have hn : n ≤ t.wireBytes * n := Nat.le_mul_of_pos_left n hwire
  have hnn : (BitVec.ofNat 64 n).toNat = n := by
    rw [BitVec.toNat_ofNat]
    omega
  have hoff : ((BitVec.ofNat 64 (4 * k)).setWidth 32).toNat = 4 * k := by
    rw [BitVec.toNat_setWidth, BitVec.toNat_ofNat]
    omega
  have hbuf : ((t.blockSize lbaDataSize * BitVec.ofNat 64 n).setWidth 32).toNat = t.wireBytes * n := by
    rw [BitVec.toNat_setWidth, BitVec.toNat_mul, blockSize_toNat hlba hlt, hnn]
    omega
  have hnlb : ((BitVec.ofNat 64 n - 1).setWidth 16).toNat = (n - 1) % 2 ^ 16 := by
    rw [BitVec.toNat_setWidth, BitVec.toNat_sub_of_le (by rw [BitVec.le_def, hnn]; exact hpos), hnn]
    rfl
  have hmeta (hle : n ≤ 2 ^ 16) : ((BitVec.ofNat 64 n * t.MS.setWidth 64).setWidth 32).toNat = n * t.MS.toNat := by
    have hprod := Nat.mul_le_mul hle (Nat.le_of_lt_succ hms)
    rw [BitVec.toNat_setWidth, BitVec.toNat_mul, hnn, BitVec.toNat_setWidth]
    rw [Nat.mod_eq_of_lt (show t.MS.toNat < 2 ^ 64 by omega)]
    omega
  have hblocks : ((n - 1) % 2 ^ 16 + 1) * t.wireBytes = t.wireBytes * n ↔ n ≤ 2 ^ 16 := by
    rw [Nat.mul_comm t.wireBytes, Nat.mul_left_inj (Nat.pos_iff_ne_zero.1 hwire)]
    omega
  constructor
  · rintro ⟨-, hxfer, hcount, hlen⟩
    rw [cmd, hnlb, hbuf, hblocks] at hcount
    refine ⟨fun hmax => ?_, hcount, fun hsep => ?_⟩
    · rw [Nat.mul_comm, ← hbuf]
      exact hxfer hmax
    · rw [← hmeta hcount]
      exact hlen _ (if_pos hsep)
  · rintro ⟨hxfer, hcount, hlen⟩
    refine ⟨?_, fun hmax => ?_, ?_, fun len hmem => ?_⟩
    · rw [cmd, hoff, hbuf]
      exact hroom
    · rw [cmd, hbuf, Nat.mul_comm]
      exact hxfer hmax
    · rw [cmd, hnlb, hbuf]
      exact hblocks.2 hcount
    · rw [cmd] at hmem
      by_cases hsep : t.type = .metaS
      · rw [if_pos hsep] at hmem
        rw [← Option.some.inj hmem, hmeta hcount]
        exact hlen hsep
      · rw [if_neg hsep] at hmem
        cases hmem

variable (hone : 1 ≤ pages.toNat)

include hpages hcc hlba hone

/-- The numbers of blocks at an offset. -/
theorem mem_blocks_iff (hlt : t.LBADS.toNat < 31) {k : Nat} (hk : 4 * k ≤ t.pageBytes) (n : Nat) :
    (n ∈ (List.range' 1 ((pages * ccMPS - BitVec.ofNat 64 (4 * k)) / t.blockSize lbaDataSize).toNat).takeWhile
        fun n => !t.exceeds lbaDataSize (BitVec.ofNat 64 n)) ↔
      1 ≤ n ∧ 4 * k + t.wireBytes * n ≤ pages.toNat * t.pageBytes ∧
        (t.maxDtXferSz ≠ 0 → t.lbaBytes * n ≤ t.maxDtXferSz.toNat) := by
  have hP := pages_toNat hpages hcc
  have hmul := Nat.mul_le_mul hpages (pageBytes_le t)
  have hwire : 0 < t.wireBytes := Nat.lt_of_lt_of_le (lbaBytes_pos t) (lbaBytes_le_wire t)
  have hin : t.pageBytes ≤ pages.toNat * t.pageBytes := Nat.le_mul_of_pos_left _ hone
  have hY : ((pages * ccMPS - BitVec.ofNat 64 (4 * k)) / t.blockSize lbaDataSize).toNat =
      (pages.toNat * t.pageBytes - 4 * k) / t.wireBytes := by
    have hoff : (BitVec.ofNat 64 (4 * k)).toNat = 4 * k := by
      rw [BitVec.toNat_ofNat]
      omega
    rw [BitVec.toNat_udiv, blockSize_toNat hlba hlt, BitVec.toNat_sub_of_le (by rw [BitVec.le_def, hoff, hP]; omega),
      hoff, hP]
  have hmem (n : Nat) : n ∈ List.range' 1 ((pages.toNat * t.pageBytes - 4 * k) / t.wireBytes) ↔
      1 ≤ n ∧ 4 * k + t.wireBytes * n ≤ pages.toNat * t.pageBytes := by
    have hdiv := Nat.le_div_iff_mul_le (x := n) (y := pages.toNat * t.pageBytes - 4 * k) hwire
    rw [Nat.mul_comm n] at hdiv
    rw [List.mem_range'_1]
    omega
  have hsmall {n : Nat} (h : 4 * k + t.wireBytes * n ≤ pages.toNat * t.pageBytes) : t.lbaBytes * n < 2 ^ 64 := by
    have := Nat.mul_le_mul_right n (lbaBytes_le_wire t)
    omega
  rw [hY, mem_takeWhile_iff, hmem, and_assoc]
  · refine and_congr_right fun _ => and_congr_right fun hroom => ?_
    rw [Bool.not_eq_true', ← Bool.not_eq_true, exceeds_iff hlba (hsmall hroom)]
    exact not_and.trans (forall_congr' fun _ => Nat.not_lt)
  · refine List.Pairwise.imp_of_mem ?_ List.pairwise_lt_range'
    intro a b ha hb hab hno
    have hb' := ((hmem b).1 hb).2
    have hle : t.lbaBytes * a ≤ t.lbaBytes * b := Nat.mul_le_mul_left _ (Nat.le_of_lt hab)
    rw [Bool.not_eq_true', ← Bool.not_eq_true, exceeds_iff hlba (hsmall hb')] at hno
    rw [Bool.not_eq_true', ← Bool.not_eq_true, exceeds_iff hlba (hsmall ((hmem a).1 ha).2)]
    exact fun h => hno ⟨h.1, Nat.lt_of_lt_of_le h.2 hle⟩

/-- **The commands are those that the offsets and the transfers admit.** -/
theorem mem_cmds_iff (hlt : t.LBADS.toNat < 31) (hfit : t.wireBytes ≤ t.pageBytes) (c : PrpOffsetCmd) :
    c ∈ t.cmds pages incPat ccMPS lbaDataSize (ccMPS - t.blockSize lbaDataSize) ↔
      ∃ k n, Admitted pages.toNat t k n ∧
        c = t.cmd incPat lbaDataSize (BitVec.ofNat 64 (4 * k)) (BitVec.ofNat 64 n) := by
  have hblock := blockSize_toNat hlba hlt
  have hX : (ccMPS - t.blockSize lbaDataSize).toNat = t.pageBytes - t.wireBytes := by
    rw [BitVec.toNat_sub_of_le (by rw [BitVec.le_def, hblock, hcc]; exact hfit), hblock, hcc]
  simp only [cmds, cmdsAt, List.mem_flatMap, List.mem_range, List.mem_map, hX]
  constructor
  · rintro ⟨k, hk, n, hn, rfl⟩
    obtain ⟨hpos, hroom, hxfer⟩ := (mem_blocks_iff hpages hcc hlba hone hlt (by omega) n).1 hn
    exact ⟨k, n, ⟨by omega, hpos, hroom, hxfer⟩, rfl⟩
  · rintro ⟨k, n, h, rfl⟩
    have hoffset := h.offset
    exact ⟨k, by omega, n, (mem_blocks_iff hpages hcc hlba hone hlt (by omega) n).2 ⟨h.pos, h.room, h.xfer⟩, rfl⟩

/-- **All commands keep to the limits exactly if those with the most blocks would.** -/
theorem forall_cmds_iff (hlt : t.LBADS.toNat < 31) (hfit : t.wireBytes ≤ t.pageBytes) :
    (∀ c ∈ t.cmds pages incPat ccMPS lbaDataSize (ccMPS - t.blockSize lbaDataSize), t.InLimits pages.toNat c) ↔
      t.LargestFits pages.toNat := by
  have hmem := @mem_cmds_iff t pages incPat ccMPS lbaDataSize hpages hcc hlba hone hlt hfit
  have hlimits {k n : Nat} (h : Admitted pages.toNat t k n) :=
    @inLimits_cmd_iff t pages incPat lbaDataSize hpages hlba hlt k n h
  constructor
  · intro hall
    by_cases hpos : 1 ≤ t.maxBlocks pages.toNat
    · have had := admitted_maxBlocks hfit hpos
      obtain ⟨hxfer, hnlb, hmeta⟩ := (hlimits had).1 (hall _ ((hmem _).2 ⟨0, _, had, rfl⟩))
      exact ⟨hxfer, hnlb, hmeta⟩
    · have hzero : t.maxBlocks pages.toNat = 0 := by omega
      refine ⟨fun _ => ?_, ?_, fun _ => ?_⟩ <;> rw [hzero] <;> omega
  · intro h c hc
    obtain ⟨k, n, had, rfl⟩ := (hmem c).1 hc
    have hle := had.le_maxBlocks
    refine (hlimits had).2 ⟨fun hmax => ?_, Nat.le_trans hle h.nlb, fun hsep => ?_⟩
    · exact Nat.le_trans (Nat.mul_le_mul_right _ hle) (h.xfer hmax)
    · exact Nat.le_trans (Nat.mul_le_mul_right _ hle) (h.metabuf hsep)

end Small

/-! ## Blocks of 2^31 bytes -/

/-- The test of a signed number for a negative one. -/
theorem slt_zero_iff (x : BitVec 64) : x.slt 0 = true ↔ 2 ^ 63 ≤ x.toNat := by
  change x.slt 0#64 = true ↔ _
  rw [BitVec.slt_zero_eq_msb, BitVec.msb_eq_decide, decide_eq_true_eq]

section Sign

variable {t : PrpOffset} {pages : BitVec 64} {incPat : DataPattern} {ccMPS lbaDataSize : BitVec 64}
  (hpages : pages.toNat ≤ 2) (hcc : ccMPS.toNat = t.pageBytes) (hsign : t.LBADS.toNat = 31)
  (hlba : lbaDataSize.toNat = 2 ^ 64 - 2 ^ 31)

include hlba in
theorem blockSize_sign : 2 ^ 64 - 2 ^ 31 ≤ (t.blockSize lbaDataSize).toNat ∧
    (t.blockSize lbaDataSize).toNat < 2 ^ 64 - 2 ^ 31 + 2 ^ 16 := by
  have hms := t.MS.isLt
  unfold blockSize
  split
  · rw [BitVec.toNat_add, BitVec.toNat_setWidth, hlba]
    omega
  · omega

include hcc hlba in
/-- The last offset lies far behind the page. -/
theorem sign_X : (ccMPS - t.blockSize lbaDataSize).slt 0 = false ∧
    t.pageBytes + (2 ^ 31 - 2 ^ 16) ≤ (ccMPS - t.blockSize lbaDataSize).toNat := by
  obtain ⟨hlow, hhigh⟩ := @blockSize_sign t lbaDataSize hlba
  have hle := pageBytes_le t
  have hX : (ccMPS - t.blockSize lbaDataSize).toNat = t.pageBytes + (2 ^ 64 - (t.blockSize lbaDataSize).toNat) := by
    rw [BitVec.toNat_sub, hcc]
    omega
  constructor
  · rw [← Bool.not_eq_true, slt_zero_iff, hX]
    omega
  · rw [hX]
    omega

include hpages hcc hsign hlba in
theorem sign_metaAllocSize : (t.metaAllocSize pages ccMPS lbaDataSize).toNat = t.metaBytes pages.toNat := by
  have hP := pages_toNat hpages hcc
  have hmul := Nat.mul_le_mul hpages (pageBytes_le t)
  have hdiv : (pages * ccMPS / lbaDataSize) = 0#64 := by
    refine BitVec.eq_of_toNat_eq ?_
    rw [BitVec.toNat_udiv, hlba, hP]
    exact Nat.div_eq_of_lt (by omega)
  rw [metaAllocSize, hdiv, metaBytes, lbaBytes, hsign, Nat.div_eq_of_lt (by omega)]
  simp

include hpages hcc hlba in
/-- **There are commands exactly if no transfer is too long; they begin behind their pages.** -/
theorem sign_forall_cmds_iff (hone : 1 ≤ pages.toNat) :
    (∀ c ∈ t.cmds pages incPat ccMPS lbaDataSize (ccMPS - t.blockSize lbaDataSize), t.InLimits pages.toNat c) ↔
      t.maxDtXferSz ≠ 0 := by
  have hmaxlt := t.maxDtXferSz.isLt
  have hone64 : (lbaDataSize * BitVec.ofNat 64 1).toNat = 2 ^ 64 - 2 ^ 31 := by
    rw [BitVec.toNat_mul, hlba]
    rfl
  have hexceeds : t.exceeds lbaDataSize (BitVec.ofNat 64 1) = true ↔ t.maxDtXferSz ≠ 0 := by
    unfold exceeds
    rw [Bool.and_eq_true, decide_eq_true_eq, decide_eq_true_eq, BitVec.lt_def, hone64, BitVec.toNat_setWidth]
    refine and_iff_left ?_
    omega
  constructor
  · intro hall hmax
    have hP := pages_toNat hpages hcc
    have hmul := Nat.mul_le_mul hpages (pageBytes_le t)
    have hin : t.pageBytes ≤ pages.toNat * t.pageBytes := Nat.le_mul_of_pos_left _ hone
    obtain ⟨hlow, hhigh⟩ := @blockSize_sign t lbaDataSize hlba
    obtain ⟨k, hk⟩ : 4 ∣ pages.toNat * t.pageBytes := Dvd.dvd.mul_left (pageBytes_dvd t) _
    have hX := (@sign_X t ccMPS lbaDataSize hcc hlba).2
    -- four bytes behind the pages their rest wraps, and is enough for a block
    have hoff : (BitVec.ofNat 64 (4 * (k + 1))).toNat = 4 * (k + 1) := by
      rw [BitVec.toNat_ofNat]
      omega
    have hY : ((pages * ccMPS - BitVec.ofNat 64 (4 * (k + 1))) / t.blockSize lbaDataSize).toNat = 1 := by
      rw [BitVec.toNat_udiv, BitVec.toNat_sub, hP, hoff, Nat.div_eq_iff (by omega)]
      omega
    have hmem : t.cmd incPat lbaDataSize (BitVec.ofNat 64 (4 * (k + 1))) (BitVec.ofNat 64 1) ∈
        t.cmds pages incPat ccMPS lbaDataSize (ccMPS - t.blockSize lbaDataSize) := by
      refine List.mem_flatMap.2 ⟨k + 1, List.mem_range.2 (by omega), List.mem_map.2 ⟨1, ?_, rfl⟩⟩
      have hno : t.exceeds lbaDataSize (BitVec.ofNat 64 1) = false := by
        rw [← Bool.not_eq_true, hexceeds]
        exact not_not.2 hmax
      rw [hY, List.range'_one, List.takeWhile_cons_of_pos (by rw [hno]; rfl)]
      exact List.mem_cons_self
    have hpage : ((BitVec.ofNat 64 (4 * (k + 1))).setWidth 32).toNat + _ ≤ pages.toNat * t.pageBytes :=
      (hall _ hmem).page
    rw [BitVec.toNat_setWidth, hoff] at hpage
    omega
  · intro hmax c hc
    obtain ⟨k, -, hc⟩ := List.mem_flatMap.1 hc
    obtain ⟨n, hn, -⟩ := List.mem_map.1 hc
    have hnil (m : Nat) : (List.range' 1 m).takeWhile
        (fun n => !t.exceeds lbaDataSize (BitVec.ofNat 64 n)) = [] := by
      cases m with
      | zero => rfl
      | succ m =>
        rw [List.range'_succ, List.takeWhile_cons_of_neg]
        rw [hexceeds.2 hmax]
        exact Bool.false_ne_true
    rw [hnil] at hn
    cases hn

end Sign

/-! ## The tests -/

section Tests

variable {t : PrpOffset} {pages : BitVec 64} {incPat : DataPattern} {ccMPS lbaDataSize : BitVec 64}

/-- A run that has its sizes. -/
theorem keeps_run_iff (hcc : t.ccMPS = .ok ccMPS) (hlba : t.lbaDataSize = .ok lbaDataSize)
    (hmeta : (t.metaAllocSize pages ccMPS lbaDataSize).toNat = t.metaBytes pages.toNat) :
    t.Keeps pages.toNat (t.run pages incPat) ↔ t.Refused pages.toNat ∨
      (ccMPS - t.blockSize lbaDataSize).slt 0 = true ∨
        ∀ c ∈ t.cmds pages incPat ccMPS lbaDataSize (ccMPS - t.blockSize lbaDataSize), t.InLimits pages.toNat c := by
  have hsize : t.metaAllocSize pages ccMPS lbaDataSize = BitVec.ofNat 32 (t.metaBytes pages.toNat) := by
    rw [← hmeta, BitVec.ofNat_toNat, BitVec.setWidth_eq]
  have hnil : t.Keeps pages.toNat (.ok []) := ⟨[], rfl, fun c hc => by cases hc⟩
  have hrun : t.run pages incPat =
      if t.type = .e2eS ∨ t.type = .e2eI then .ok []
      else if t.type = .metaS ∧ t.setMetaAllocSize (BitVec.ofNat 32 (t.metaBytes pages.toNat)) = false then .ok []
      else if (ccMPS - t.blockSize lbaDataSize).slt 0 then .ok []
      else .ok (upTo (throws (t.metaAllocSize pages ccMPS lbaDataSize))
        (t.cmds pages incPat ccMPS lbaDataSize (ccMPS - t.blockSize lbaDataSize))) := by
    rw [← hsize, run, hcc, hlba]
    rfl
  rw [hrun]
  by_cases he2e : t.type = .e2eS ∨ t.type = .e2eI
  · rw [if_pos he2e]
    exact iff_of_true hnil (.inl (he2e.imp id .inl))
  rw [if_neg he2e]
  by_cases hdenied : t.type = .metaS ∧ t.setMetaAllocSize (BitVec.ofNat 32 (t.metaBytes pages.toNat)) = false
  · rw [if_pos hdenied]
    exact iff_of_true hnil (.inl (.inr (.inr hdenied)))
  rw [if_neg hdenied]
  have hrefused : ¬t.Refused pages.toNat := by
    rintro (h | h | h)
    · exact he2e (.inl h)
    · exact he2e (.inr h)
    · exact hdenied h
  rw [or_iff_right hrefused]
  by_cases hX : (ccMPS - t.blockSize lbaDataSize).slt 0 = true
  · rw [if_pos hX]
    exact iff_of_true hnil (.inl hX)
  rw [if_neg hX, or_iff_right hX, ← forall_upTo (InLimits.not_throws hmeta)]
  exact ⟨fun ⟨cs, hcs, hall⟩ => Except.ok.inj hcs ▸ hall, fun hall => ⟨_, rfl, hall⟩⟩

theorem keeps_iff (hpages : pages.toNat ≤ 2) (hone : 1 ≤ pages.toNat) (t : PrpOffset) (incPat : DataPattern) :
    t.Keeps pages.toNat (t.run pages incPat) ↔ t.Fits pages.toNat := by
  obtain ⟨ccMPS, hcc, hccNat⟩ := ccMPS_ok t
  unfold Fits
  by_cases hundef : t.LBADS.toNat < 32
  · rw [and_iff_right hundef]
    by_cases hsign : t.LBADS.toNat = 31
    · obtain ⟨lbaDataSize, hlba, hlbaNat⟩ := lbaDataSize_sign hsign
      have hX := (@sign_X t ccMPS lbaDataSize hccNat hlbaNat).1
      rw [keeps_run_iff hcc hlba (sign_metaAllocSize hpages hccNat hsign hlbaNat), if_pos hsign,
        sign_forall_cmds_iff hpages hccNat hlbaNat hone, hX]
      simp
    · have hlt : t.LBADS.toNat < 31 := by omega
      obtain ⟨lbaDataSize, hlba, hlbaNat⟩ := lbaDataSize_ok hlt
      have hblock := blockSize_toNat hlbaNat hlt
      have hwire := wireBytes_le t
      have hsmall : t.lbaBytes ≤ 2 ^ 30 := Nat.pow_le_pow_right (by decide) (by omega)
      have hpage := pageBytes_le t
      have hX : (ccMPS - t.blockSize lbaDataSize).slt 0 = true ↔ ¬t.wireBytes ≤ t.pageBytes := by
        rw [slt_zero_iff, BitVec.toNat_sub, hblock, hccNat]
        omega
      rw [keeps_run_iff hcc hlba (metaAllocSize_toNat hpages hccNat hlbaNat), if_neg hsign, hX]
      refine or_congr_right ?_
      by_cases hfit : t.wireBytes ≤ t.pageBytes
      · rw [or_iff_right (not_not.2 hfit), forall_cmds_iff hpages hccNat hlbaNat hone hlt hfit]
        exact ⟨fun h _ => h, fun h => h hfit⟩
      · exact iff_of_true (.inl hfit) fun h => absurd h hfit
  · refine iff_of_false ?_ fun h => hundef h.1
    rintro ⟨cs, hcs, -⟩
    rw [run, hcc, lbaDataSize, oneShl, if_neg hundef] at hcs
    cases hcs

end Tests

/-- **The commands of both tests keep to their limits exactly if those with the most blocks do**: a transfer with its
interleaved meta data, NLB and the meta buffers. -/
theorem inLimits_iff (t : PrpOffset) :
    (t.Keeps 1 (PRPOffsetSinglePgMultiBlk_r10b.runCoreTest t) ↔ t.Fits 1) ∧
      (t.Keeps 2 (PRPOffsetDualPgMultiBlk_r10b.runCoreTest t) ↔ t.Fits 2) :=
  ⟨@keeps_iff 1 (by decide) (by decide) t .inc8bit,
    @keeps_iff 2 (by decide) (by decide) t .inc32bit⟩

/-- Pages of 4096 bytes, blocks of 2^31 bytes, and transfers of any size. -/
def signed : PrpOffset where
  mpsRegVal := 0
  LBADS := 31
  MS := 0
  type := .bare
  maxDtXferSz := 0
  setMetaAllocSize _ := true

/-- The first block lies behind the page. -/
theorem not_inLimits : ¬∀ t : PrpOffset, t.Keeps 1 (PRPOffsetSinglePgMultiBlk_r10b.runCoreTest t) := by
  intro h
  have hfits := (@keeps_iff 1 (by decide) (by decide) signed .inc8bit).1 (h signed)
  rcases hfits.2 with hrefused | hmax
  · rcases hrefused with hno | hno | ⟨hno, -⟩ <;> cases hno
  · exact absurd rfl hmax

end PrpOffset
end Tnvme
