import Tnvme.Lib.Numerals

/-!
# The options `--rmmap` and `--wmmap`

An option names a space, an offset, a size, a value when it is to be written, and a width of access. `strtoul` takes the
numbers off the text, as a `size_t`. They are handed on to `Registers::Read` and `Registers::Write`, whose parameters
have 16 bits.

What reaches the driver is what was parsed exactly if the offset and the size that the text names fit into these
(`mmap_exact_iff`).
-/

namespace Tnvme

open Numerals

inductive NvmeIoSpace where
  | pciHdr
  | bar01
  deriving DecidableEq, Repr

inductive NvmeAccType where
  | byteLen
  | wordLen
  | dwordLen
  | quadLen
  deriving DecidableEq, Repr

structure RmmapIo where
  space : NvmeIoSpace
  offset : BitVec 64
  size : BitVec 64
  acc : NvmeAccType
  deriving DecidableEq, Repr

structure WmmapIo extends RmmapIo where
  value : BitVec 64
  deriving DecidableEq, Repr

/-! ## The parsers -/

/-- `swork.substr(swork.find_first_of(':') + 1, ..)` -/
def afterColon (swork : List Char) : List Char := (swork.dropWhile (· ≠ ':')).drop 1

def parseSpace (optarg : List Char) : Option NvmeIoSpace :=
  if ':' ∉ optarg then none
  else if optarg.takeWhile (· ≠ ':') = "PCI".toList then some .pciHdr
  else if optarg.takeWhile (· ≠ ':') = "BAR01".toList then some .bar01
  else none

/-- A number of base 16 in front of a colon. -/
def parseNumber (swork : List Char) : Option (BitVec 64) :=
  if (strtoulRest 16 swork).head? = some ':' then some (BitVec.ofNat 64 (strtoul 16 swork)) else none

/-- The part of the width, of which `strtoul` has to reach the end behind the letter. -/
def parseAcc (swork : List Char) : Option NvmeAccType :=
  if swork.length = 0 then none
  else if strtoulRest 16 (swork.drop 1) ≠ [] then none
  else if swork = "b".toList then some .byteLen
  else if swork = "w".toList then some .wordLen
  else if swork = "l".toList then some .dwordLen
  else if swork = "q".toList then some .quadLen
  else none

def parseRmmapCmdLine (optarg : List Char) : Option RmmapIo := do
  let space ← parseSpace optarg
  let swork := afterColon optarg
  let offset ← parseNumber swork
  let swork := afterColon swork
  if swork.length = 0 then none
  else
    let size ← parseNumber swork
    let swork := afterColon swork
    let acc ← parseAcc swork
    return ⟨space, offset, size, acc⟩

/-- `MAX_SUPPORTED_REG_SIZE` -/
def maxSupportedRegSize : Nat := 8

def parseWmmapCmdLine (optarg : List Char) : Option WmmapIo := do
  let space ← parseSpace optarg
  let swork := afterColon optarg
  let offset ← parseNumber swork
  let swork := afterColon swork
  let size ← parseNumber swork
  if size.toNat > maxSupportedRegSize then none
  else
    let swork := afterColon swork
    if swork.length = 0 then none
    else
      let value ← parseNumber swork
      let swork := afterColon swork
      let acc ← parseAcc swork
      return ⟨⟨space, offset, size, acc⟩, value⟩

/-! ## What reaches the driver -/

/-- `rw_generic`, without the buffer. -/
structure RwGeneric where
  type : NvmeIoSpace
  offset : Nat
  nBytes : Nat
  accType : NvmeAccType
  deriving DecidableEq, Repr

/-- The parameters of `Registers::Read` and `Registers::Write` that are raw. -/
def rwGeneric (regSpc : NvmeIoSpace) (rsize roffset : BitVec 16) (racc : NvmeAccType) : RwGeneric :=
  ⟨regSpc, roffset.toNat, rsize.toNat, racc⟩

/-- The bytes of a value from the lowest on. -/
def lowBytes (value : BitVec 64) (nBytes : Nat) : List (BitVec 8) :=
  (List.range nBytes).map fun i => value.extractLsb' (8 * i) 8

/-- The read of `ExecuteCmdLine`; `alloc` says if there is memory for a buffer, else it throws. -/
def readMmap (alloc : Nat → Bool) (rmmap : RmmapIo) : Option RwGeneric :=
  if alloc rmmap.size.toNat then
    some (rwGeneric rmmap.space (rmmap.size.setWidth 16) (rmmap.offset.setWidth 16) rmmap.acc)
  else none

/-- The write, with the bytes that the driver takes from the buffer. -/
def writeMmap (wmmap : WmmapIo) : RwGeneric × List (BitVec 8) :=
  let io := rwGeneric wmmap.space (wmmap.size.setWidth 16) (wmmap.offset.setWidth 16) wmmap.acc
  (io, lowBytes wmmap.value io.nBytes)

/-- The numbers that the text names, whatever their size. -/
def namedOffset (optarg : List Char) : Int := signed 16 (afterColon optarg)

def namedSize (optarg : List Char) : Int := signed 16 (afterColon (afterColon optarg))

/-- The number can be passed on. -/
def Fits (z : Int) : Prop := 0 ≤ z ∧ z < 0x10000

/-- What reaches the driver is what was parsed; and nothing does if a number cannot be passed on. -/
structure ReadExact (alloc : Nat → Bool) (optarg : List Char) : Prop where
  exact : ∀ rmmap, parseRmmapCmdLine optarg = some rmmap → ∀ io, readMmap alloc rmmap = some io →
    io = ⟨rmmap.space, rmmap.offset.toNat, rmmap.size.toNat, rmmap.acc⟩
  rejected : ¬(Fits (namedOffset optarg) ∧ Fits (namedSize optarg)) →
    (parseRmmapCmdLine optarg).bind (readMmap alloc) = none

structure WriteExact (optarg : List Char) : Prop where
  exact : ∀ wmmap, parseWmmapCmdLine optarg = some wmmap →
    writeMmap wmmap = (⟨wmmap.space, wmmap.offset.toNat, wmmap.size.toNat, wmmap.acc⟩,
      lowBytes wmmap.value wmmap.size.toNat)
  rejected : ¬(Fits (namedOffset optarg) ∧ Fits (namedSize optarg)) → parseWmmapCmdLine optarg = none

variable {optarg : List Char}

/-- A number that fits is passed on. -/
theorem parseNumber_fits {swork : List Char} {n : BitVec 64} (h : parseNumber swork = some n)
    (hfits : Fits (signed 16 swork)) : (n.setWidth 16).toNat = n.toNat := by
  obtain ⟨-, hn⟩ := Option.ite_none_right_eq_some.1 h
  obtain ⟨h0, hlt⟩ := hfits
  have hnat : (signed 16 swork).toNat < 0x10000 := by omega
  rw [strtoul_of_signed h0 (Nat.lt_trans hnat (by decide))] at hn
  rw [← Option.some.inj hn, BitVec.toNat_setWidth, BitVec.toNat_ofNat]
  omega

/-- The numbers of an option that is accepted. -/
theorem parseRmmapCmdLine_some {rmmap : RmmapIo} (h : parseRmmapCmdLine optarg = some rmmap) :
    parseNumber (afterColon optarg) = some rmmap.offset ∧
      parseNumber (afterColon (afterColon optarg)) = some rmmap.size := by
  obtain ⟨space, -, h⟩ := Option.bind_eq_some_iff.1 h
  obtain ⟨offset, hoffset, h⟩ := Option.bind_eq_some_iff.1 h
  obtain ⟨-, h⟩ := Option.ite_none_left_eq_some.1 h
  obtain ⟨size, hsize, h⟩ := Option.bind_eq_some_iff.1 h
  obtain ⟨acc, -, h⟩ := Option.bind_eq_some_iff.1 h
  cases h
  exact ⟨hoffset, hsize⟩

theorem parseWmmapCmdLine_some {wmmap : WmmapIo} (h : parseWmmapCmdLine optarg = some wmmap) :
    parseNumber (afterColon optarg) = some wmmap.offset ∧
      parseNumber (afterColon (afterColon optarg)) = some wmmap.size := by
  obtain ⟨space, -, h⟩ := Option.bind_eq_some_iff.1 h
  obtain ⟨offset, hoffset, h⟩ := Option.bind_eq_some_iff.1 h
  obtain ⟨size, hsize, h⟩ := Option.bind_eq_some_iff.1 h
  obtain ⟨-, h⟩ := Option.ite_none_left_eq_some.1 h
  obtain ⟨-, h⟩ := Option.ite_none_left_eq_some.1 h
  obtain ⟨value, -, h⟩ := Option.bind_eq_some_iff.1 h
  obtain ⟨acc, -, h⟩ := Option.bind_eq_some_iff.1 h
  cases h
  exact ⟨hoffset, hsize⟩

theorem parseNumber_eq {swork : List Char} {n : BitVec 64} (h : parseNumber swork = some n) :
    n = BitVec.ofNat 64 (strtoul 16 swork) :=
  (Option.some.inj (Option.ite_none_right_eq_some.1 h).2).symm

theorem readExact_iff (alloc : Nat → Bool) {rmmap : RmmapIo} (h : parseRmmapCmdLine optarg = some rmmap) :
    ReadExact alloc optarg ↔ alloc rmmap.size.toNat = false ∨ Fits (namedOffset optarg) ∧ Fits (namedSize optarg) := by
  obtain ⟨hoffset, hsize⟩ := parseRmmapCmdLine_some h
  constructor
  · intro hexact
    by_contra hnot
    obtain ⟨halloc, hfits⟩ := not_or.1 hnot
    have hnone := hexact.rejected hfits
    rw [h, Option.bind_some, readMmap, if_pos (eq_true_of_ne_false halloc)] at hnone
    cases hnone
  · rintro (halloc | ⟨hfitsOffset, hfitsSize⟩)
    · have hnone : readMmap alloc rmmap = none := by rw [readMmap, halloc]; rfl
      refine ⟨fun rmmap' h' io hio => ?_, fun _ => by rw [h, Option.bind_some, hnone]⟩
      obtain rfl : rmmap = rmmap' := Option.some.inj (h.symm.trans h')
      rw [hnone] at hio
      cases hio
    · refine ⟨fun rmmap' h' io hio => ?_, fun hnot => absurd ⟨hfitsOffset, hfitsSize⟩ hnot⟩
      obtain rfl : rmmap = rmmap' := Option.some.inj (h.symm.trans h')
      obtain ⟨-, hio⟩ := Option.ite_none_right_eq_some.1 hio
      rw [← Option.some.inj hio, rwGeneric, parseNumber_fits hoffset hfitsOffset, parseNumber_fits hsize hfitsSize]

theorem writeExact_iff {wmmap : WmmapIo} (h : parseWmmapCmdLine optarg = some wmmap) :
    WriteExact optarg ↔ Fits (namedOffset optarg) ∧ Fits (namedSize optarg) := by
  obtain ⟨hoffset, hsize⟩ := parseWmmapCmdLine_some h
  constructor
  · intro hexact
    by_contra hfits
    have hnone := hexact.rejected hfits
    rw [h] at hnone
    cases hnone
  · rintro ⟨hfitsOffset, hfitsSize⟩
    refine ⟨fun wmmap' h' => ?_, fun hnot => absurd ⟨hfitsOffset, hfitsSize⟩ hnot⟩
    obtain rfl : wmmap = wmmap' := Option.some.inj (h.symm.trans h')
    rw [writeMmap, rwGeneric, parseNumber_fits hoffset hfitsOffset, parseNumber_fits hsize hfitsSize]

/-- **What reaches the driver is what was parsed exactly if the offset and the size fit into 16 bits.** A read of which
there is no memory for the buffer does not reach it. -/
theorem mmap_exact_iff (alloc : Nat → Bool) (optarg : List Char) :
    (parseRmmapCmdLine optarg ≠ none → (ReadExact alloc optarg ↔
      alloc (strtoul 16 (afterColon (afterColon optarg))) = false ∨
        Fits (namedOffset optarg) ∧ Fits (namedSize optarg))) ∧
    (parseWmmapCmdLine optarg ≠ none → (WriteExact optarg ↔ Fits (namedOffset optarg) ∧ Fits (namedSize optarg))) := by
  constructor
  · intro h
    obtain ⟨rmmap, hrmmap⟩ := Option.ne_none_iff_exists'.1 h
    have hsize : rmmap.size.toNat = strtoul 16 (afterColon (afterColon optarg)) := by
      rw [parseNumber_eq (parseRmmapCmdLine_some hrmmap).2, BitVec.toNat_ofNat]
      exact Nat.mod_eq_of_lt (strtoul_lt _ _)
    rw [readExact_iff alloc hrmmap, hsize]
  · intro h
    obtain ⟨wmmap, hwmmap⟩ := Option.ne_none_iff_exists'.1 h
    exact writeExact_iff hwmmap

theorem mmap_exact_doorbell :
    ReadExact (fun _ => true) "PCI:6:2:w".toList ∧ WriteExact "BAR01:1000:4:7:l".toList :=
  ⟨((mmap_exact_iff (fun _ => true) "PCI:6:2:w".toList).1 (by decide)).2 (.inr ⟨⟨by decide, by decide⟩, by decide,
    by decide⟩), ((mmap_exact_iff (fun _ => true) "BAR01:1000:4:7:l".toList).2 (by decide)).2
    ⟨⟨by decide, by decide⟩, by decide, by decide⟩⟩

/-- The offset 0x10008 is cut to 8: another register is read, and written. -/
theorem mmap_not_exact : ¬∀ (alloc : Nat → Bool) (optarg : List Char),
    (parseRmmapCmdLine optarg ≠ none → ReadExact alloc optarg) ∧
      (parseWmmapCmdLine optarg ≠ none → WriteExact optarg) := by
  intro h
  have hexact := (h (fun _ => true) "BAR01:10008:4:l".toList).1 (by decide)
  have hparse : parseRmmapCmdLine "BAR01:10008:4:l".toList = some ⟨.bar01, 0x10008, 4, .dwordLen⟩ := by decide
  have hread := hexact.exact _ hparse _ rfl
  exact absurd hread (by decide)

end Tnvme
