import Tnvme.Lib.Numerals

/-!
# The option `--error`

The option names four masks of registers in hexadecimal digits. Each of them may have 16 bits, also the last one, which
is the mask of a register of 32 bits. `strtoul` takes the masks off the text one behind the other, and the text is
looked at in a copy that has been destroyed.

Masks that are printed are parsed again exactly if the last one fits into 16 bits and the text is short, and what is
accepted are four masks exactly if the text is short and none of the parts is lax (`errorExact_iff`).
-/

namespace Tnvme

open Numerals

structure ErrorRegs where
  sts : BitVec 16
  pxds : BitVec 16
  aeruces : BitVec 16
  csts : BitVec 32
  deriving DecidableEq, Repr

/-- A mask up to `stop`; `none` is the end of the text. -/
def parseMask (swork : List Char) (stop : Option Char) : Option (BitVec 16) :=
  if (strtoulRest 16 swork).head? ≠ stop then none
  else if strtoul 16 swork > 0xffff then none
  else some (BitVec.ofNat 16 (strtoul 16 swork))

def parseMasks (optarg : List Char) : Option ErrorRegs := do
  let sts ← parseMask optarg (some ':')
  let swork := after ':' optarg
  let pxds ← parseMask swork (some ':')
  let swork := after ':' swork
  let aeruces ← parseMask swork (some ':')
  let swork := after ':' swork
  let csts ← parseMask swork none
  return ⟨sts, pxds, aeruces, csts.setWidth 32⟩

/-- Each part is looked at in a copy, of which the first one is the longest. -/
def parseErrorCmdLine (optarg : List Char) : Except TextFault ErrorRegs := readCopy optarg (parseMasks optarg)

/-! ## What a text denotes -/

/-- A mask in hexadecimal digits. -/
structure Mask {w : Nat} (part : List Char) (mask : BitVec w) : Prop where
  plain : Plain 16 part
  value : ofDigits 16 (dropPrefix 16 part) = mask.toNat

inductive DenotesRegs : List Char → ErrorRegs → Prop
  | masks {a b c d : List Char} {sts pxds aeruces : BitVec 16} {csts : BitVec 32} :
      Mask a sts → Mask b pxds → Mask c aeruces → Mask d csts →
      DenotesRegs (a ++ ':' :: (b ++ ':' :: (c ++ ':' :: d))) ⟨sts, pxds, aeruces, csts⟩

/-- `%x` -/
def printMask {w : Nat} (mask : BitVec w) : List Char := Nat.toDigits 16 mask.toNat

def printErrorRegs (regs : ErrorRegs) : List Char :=
  printMask regs.sts ++ ':' :: (printMask regs.pxds ++ ':' :: (printMask regs.aeruces ++ ':' :: printMask regs.csts))

def RoundTrip (regs : ErrorRegs) : Prop := parseErrorCmdLine (printErrorRegs regs) = .ok regs

/-- Only masks are accepted, and as these masks; and no freed memory is read. -/
structure AcceptsMasks (optarg : List Char) : Prop where
  defined : parseErrorCmdLine optarg ≠ .error .freed
  masks : ∀ regs, parseErrorCmdLine optarg = .ok regs → DenotesRegs optarg regs

/-! ## What is accepted -/

/-- A mask that `strtoul` takes from a part, and the part is taken whole. -/
structure ReadsMask (part : List Char) (mask : BitVec 16) : Prop where
  whole : strtoulRest 16 part = []
  small : strtoul 16 part ≤ 0xffff
  value : BitVec.ofNat 16 (strtoul 16 part) = mask

inductive TakesRegs : List Char → ErrorRegs → Prop
  | masks {a b c d : List Char} {sts pxds aeruces csts : BitVec 16} :
      ReadsMask a sts → ReadsMask b pxds → ReadsMask c aeruces → ReadsMask d csts →
      TakesRegs (a ++ ':' :: (b ++ ':' :: (c ++ ':' :: d))) ⟨sts, pxds, aeruces, csts.setWidth 32⟩

/-- Parts that are taken, and one of them is lax. -/
inductive SloppyRegs : List Char → Prop
  | masks {a b c d : List Char} {sts pxds aeruces csts : BitVec 16} :
      ReadsMask a sts → ReadsMask b pxds → ReadsMask c aeruces → ReadsMask d csts →
      (Lax a ∨ Lax b ∨ Lax c ∨ Lax d) → SloppyRegs (a ++ ':' :: (b ++ ':' :: (c ++ ':' :: d)))

variable {part optarg : List Char} {mask : BitVec 16} {regs : ErrorRegs}

theorem separator_colon_hex : Separator 16 ':' :=
  ⟨⟨by decide, by decide, ⟨by decide, by decide⟩, by decide, by decide⟩, by decide⟩

theorem ReadsMask.not_mem (h : ReadsMask part mask) : ':' ∉ part := not_mem_of_whole separator_colon_hex h.whole

theorem parseMask_eq (swork : List Char) (stop : Option Char) : parseMask swork stop = some mask ↔
    (strtoulRest 16 swork).head? = stop ∧ strtoul 16 swork ≤ 0xffff ∧ BitVec.ofNat 16 (strtoul 16 swork) = mask := by
  rw [parseMask, Option.ite_none_left_eq_some, Option.ite_none_left_eq_some, not_not, Nat.not_lt, Option.some_inj]

theorem readsMask_iff : ReadsMask part mask ↔
    strtoulRest 16 part = [] ∧ strtoul 16 part ≤ 0xffff ∧ BitVec.ofNat 16 (strtoul 16 part) = mask :=
  ⟨fun h => ⟨h.whole, h.small, h.value⟩, fun ⟨hwhole, hsmall, hvalue⟩ => ⟨hwhole, hsmall, hvalue⟩⟩

theorem parseMask_none : parseMask part none = some mask ↔ ReadsMask part mask := by
  rw [parseMask_eq, List.head?_eq_none_iff, readsMask_iff]

theorem parseMask_colon {swork : List Char} : parseMask swork (some ':') = some mask ↔
    ∃ part rest, swork = part ++ ':' :: rest ∧ ReadsMask part mask := by
  simp only [parseMask_eq, readsMask_iff]
  exact head_separator separator_colon_hex (strtoul_separator separator_colon_hex) fun value =>
    value ≤ 0xffff ∧ BitVec.ofNat 16 value = mask

theorem parseMasks_some : parseMasks optarg = some regs ↔ TakesRegs optarg regs := by
  constructor
  · intro h
    obtain ⟨sts, hmask, h⟩ := Option.bind_eq_some_iff.1 h
    obtain ⟨a, rest, rfl, ha⟩ := parseMask_colon.1 hmask
    rw [after_append ha.not_mem] at h
    obtain ⟨pxds, hmask, h⟩ := Option.bind_eq_some_iff.1 h
    obtain ⟨b, rest, rfl, hb⟩ := parseMask_colon.1 hmask
    rw [after_append hb.not_mem] at h
    obtain ⟨aeruces, hmask, h⟩ := Option.bind_eq_some_iff.1 h
    obtain ⟨c, d, rfl, hc⟩ := parseMask_colon.1 hmask
    rw [after_append hc.not_mem] at h
    obtain ⟨csts, hmask, h⟩ := Option.bind_eq_some_iff.1 h
    cases h
    exact .masks ha hb hc (parseMask_none.1 hmask)
  · rintro @⟨a, b, c, d, sts, pxds, aeruces, csts, ha, hb, hc, hd⟩
    have hsts := parseMask_colon.2 ⟨a, b ++ ':' :: (c ++ ':' :: d), rfl, ha⟩
    have hpxds := parseMask_colon.2 ⟨b, c ++ ':' :: d, rfl, hb⟩
    have haeruces := parseMask_colon.2 ⟨c, d, rfl, hc⟩
    rw [parseMasks, hsts]
    simp only [Option.bind_eq_bind, Option.bind_some, after_append ha.not_mem, after_append hb.not_mem,
      after_append hc.not_mem, hpxds, haeruces, parseMask_none.2 hd]
    rfl

/-- **A text is accepted if it is short and `strtoul` takes four parts whole, each with a value of 16 bits.** -/
theorem parseErrorCmdLine_ok : parseErrorCmdLine optarg = .ok regs ↔
    optarg.length ≤ inlineCapacity ∧ TakesRegs optarg regs := by
  rw [parseErrorCmdLine, readCopy_eq_ok, parseMasks_some]

/-! ## Masks -/

/-- **A mask of 16 bits is what is taken and not lax.** -/
theorem mask_iff : Mask part mask ↔ ReadsMask part mask ∧ ¬Lax part := by
  constructor
  · rintro ⟨hplain, hvalue⟩
    obtain ⟨hwhole, hlax⟩ := plain_iff.1 hplain
    have hstrtoul : strtoul 16 part = mask.toNat := by
      have hlt := mask.isLt
      rw [hplain.strtoul_eq, hvalue]
      omega
    refine ⟨⟨hwhole, ?_, ?_⟩, hlax⟩
    · have hlt := mask.isLt
      omega
    · rw [hstrtoul, BitVec.ofNat_toNat, BitVec.setWidth_eq]
  · rintro ⟨⟨hwhole, hsmall, hvalue⟩, hlax⟩
    have hplain := plain_iff.2 ⟨hwhole, hlax⟩
    refine ⟨hplain, ?_⟩
    rw [hplain.strtoul_eq] at hsmall hvalue
    rw [← hvalue, BitVec.toNat_ofNat]
    omega

theorem Mask.setWidth (h : Mask part mask) : Mask part (mask.setWidth 32) :=
  ⟨h.plain, h.value.trans (BitVec.toNat_setWidth_of_le (by decide)).symm⟩

theorem mask_printMask {w : Nat} (mask : BitVec w) : Mask (printMask mask) mask := by
  obtain ⟨hplain, hvalue⟩ := plain_toDigits (by decide : 1 < 16) (by decide) mask.toNat
  exact ⟨hplain, hvalue⟩

theorem Mask.unique {w : Nat} {m m' : BitVec w} (h : Mask part m) (h' : Mask part m') : m = m' :=
  BitVec.eq_of_toNat_eq (h.value.symm.trans h'.value)

theorem Mask.not_mem {w : Nat} {m : BitVec w} (h : Mask part m) : ':' ∉ part :=
  not_mem_of_whole separator_colon_hex (plain_iff.1 h.plain).1

/-- The parts of masks are determined. -/
theorem parts_unique {a b c d a' b' c' d' : List Char} (ha : ':' ∉ a) (hb : ':' ∉ b) (hc : ':' ∉ c) (ha' : ':' ∉ a')
    (hb' : ':' ∉ b') (hc' : ':' ∉ c')
    (h : a ++ ':' :: (b ++ ':' :: (c ++ ':' :: d)) = a' ++ ':' :: (b' ++ ':' :: (c' ++ ':' :: d'))) :
    a = a' ∧ b = b' ∧ c = c' ∧ d = d' := by
  obtain ⟨heqa, h⟩ := append_separator_inj ha ha' h
  obtain ⟨heqb, h⟩ := append_separator_inj hb hb' h
  obtain ⟨heqc, heqd⟩ := append_separator_inj hc hc' h
  exact ⟨heqa, heqb, heqc, heqd⟩

/-- The last mask has 16 bits as well. -/
theorem TakesRegs.csts_le (h : TakesRegs optarg regs) : regs.csts.toNat ≤ 0xffff := by
  cases h with
  | @masks a b c d sts pxds aeruces csts ha hb hc hd =>
    have hlt := csts.isLt
    change (csts.setWidth 32).toNat ≤ 0xffff
    rw [BitVec.toNat_setWidth_of_le (by decide)]
    omega

theorem DenotesRegs.takes (h : DenotesRegs optarg regs) (hcsts : regs.csts.toNat ≤ 0xffff) :
    TakesRegs optarg regs := by
  cases h with
  | @masks a b c d sts pxds aeruces csts ha hb hc hd =>
    have hnarrow : (csts.setWidth 16).toNat = csts.toNat := by
      rw [BitVec.toNat_setWidth]
      exact Nat.mod_eq_of_lt (Nat.lt_succ_of_le hcsts)
    have hwide : csts = (csts.setWidth 16).setWidth 32 := by
      refine BitVec.eq_of_toNat_eq ?_
      rw [BitVec.toNat_setWidth_of_le (by decide), hnarrow]
    rw [hwide]
    exact .masks (mask_iff.1 ha).1 (mask_iff.1 hb).1 (mask_iff.1 hc).1
      (mask_iff.1 ⟨hd.plain, hd.value.trans hnarrow.symm⟩).1

theorem denotes_printErrorRegs (regs : ErrorRegs) : DenotesRegs (printErrorRegs regs) regs :=
  .masks (mask_printMask _) (mask_printMask _) (mask_printMask _) (mask_printMask _)

theorem roundTrip_iff (regs : ErrorRegs) :
    RoundTrip regs ↔ regs.csts.toNat ≤ 0xffff ∧ (printErrorRegs regs).length ≤ inlineCapacity := by
  rw [RoundTrip, parseErrorCmdLine_ok, and_comm]
  exact and_congr_left' ⟨TakesRegs.csts_le, (denotes_printErrorRegs regs).takes⟩

/-- What is accepted and is not sloppy denotes the masks. -/
theorem TakesRegs.denotes (h : TakesRegs optarg regs) (hnot : ¬SloppyRegs optarg) : DenotesRegs optarg regs := by
  cases h with
  | masks ha hb hc hd =>
    have hlax := fun h => hnot (.masks ha hb hc hd h)
    obtain ⟨hlaxa, hlax⟩ := not_or.1 hlax
    obtain ⟨hlaxb, hlax⟩ := not_or.1 hlax
    obtain ⟨hlaxc, hlaxd⟩ := not_or.1 hlax
    exact .masks (mask_iff.2 ⟨ha, hlaxa⟩) (mask_iff.2 ⟨hb, hlaxb⟩) (mask_iff.2 ⟨hc, hlaxc⟩)
      (mask_iff.2 ⟨hd, hlaxd⟩).setWidth

theorem SloppyRegs.takes (h : SloppyRegs optarg) : ∃ regs, TakesRegs optarg regs := by
  cases h with
  | masks ha hb hc hd _ => exact ⟨_, .masks ha hb hc hd⟩

theorem SloppyRegs.not_denotes (h : SloppyRegs optarg) (regs : ErrorRegs) : ¬DenotesRegs optarg regs := by
  intro hdenotes
  cases h with
  | masks ha hb hc hd hlax =>
    generalize heq : _ ++ ':' :: _ = text at hdenotes
    cases hdenotes with
    | masks ma mb mc md =>
      obtain ⟨rfl, rfl, rfl, rfl⟩ :=
        parts_unique ha.not_mem hb.not_mem hc.not_mem ma.not_mem mb.not_mem mc.not_mem heq
      rcases hlax with hlax | hlax | hlax | hlax
      · exact ma.plain.not_lax hlax
      · exact mb.plain.not_lax hlax
      · exact mc.plain.not_lax hlax
      · exact md.plain.not_lax hlax

/-- **Masks come back exactly if the last one fits into 16 bits and they are printed in no more than 15 characters; and
only masks are accepted exactly if the text is so short and no part is lax.** -/
theorem errorExact_iff (regs : ErrorRegs) (optarg : List Char) :
    (RoundTrip regs ↔ regs.csts.toNat ≤ 0xffff ∧ (printErrorRegs regs).length ≤ inlineCapacity) ∧
      (AcceptsMasks optarg ↔ optarg.length ≤ inlineCapacity ∧ ¬SloppyRegs optarg) := by
  refine ⟨roundTrip_iff regs, fun haccepts => ?_, fun ⟨hshort, hnot⟩ => ⟨fun hfreed => ?_, fun regs h => ?_⟩⟩
  · have hshort : optarg.length ≤ inlineCapacity :=
      Nat.not_lt.1 fun hlong => haccepts.defined (readCopy_eq_freed.2 hlong)
    refine ⟨hshort, fun hsloppy => ?_⟩
    obtain ⟨regs, htakes⟩ := hsloppy.takes
    exact hsloppy.not_denotes regs (haccepts.masks regs (parseErrorCmdLine_ok.2 ⟨hshort, htakes⟩))
  · exact Nat.not_lt.2 hshort (readCopy_eq_freed.1 hfreed)
  · exact (parseErrorCmdLine_ok.1 h).2.denotes hnot

/-- The bit 16 of CSTS cannot be asked for. -/
theorem error_not_exact : ¬((∀ regs, RoundTrip regs) ∧ ∀ optarg, AcceptsMasks optarg) := by
  rintro ⟨hround, -⟩
  exact absurd ((roundTrip_iff ⟨0, 0, 0, 0x10000⟩).1 (hround _)).1 (by decide)

end Tnvme
