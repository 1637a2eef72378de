import Tnvme.Lib.Bytes
import Tnvme.Lib.Effects
import Tnvme.Regs.Masks

/-!
# Writing the bits that are read-only

The tests of all registers write ones and then zeros to the bits of `maskRO`, and the rest of a register as it has been
read. A register of a capability that is wider than 8 bytes is put together of parts of `DWORD_LEN` bytes, each shifted
to its place in an `uint32_t`, and is taken apart again by shifts of 64 bits. `DWORD_LEN` comes from the interface of
the driver (`AccessLen`).

* `visit_ends`: a register that is not wide is passed exactly if it can be accessed, and only bits of its mask are
  changed.
* `exists_altered`: once a wide register is reached, a shift that is undefined tells what the part behind its first 8
  bytes becomes; and what is put together of undefined shifts is written to the first part (`visitCap_first_word`).
-/

namespace Tnvme

open Effects

/-! ## Registers that are plain storage -/

/-- A write, and what was at its place when the register was last read. `first` is the first bit that is written. -/
structure RegWrite (ρ : Type) where
  reg : ρ
  first : Nat
  nBytes : Nat
  last : Option (BitVec 64)
  value : BitVec 64

/-- Only bits of the mask are changed. -/
def RegWrite.OnlyRO {ρ : Type} (maskRO : ρ → BitVec 64) (w : RegWrite ρ) : Prop :=
  ∃ last, w.last = some last ∧
    ∀ i < 8 * w.nBytes, w.value.getLsbD i ≠ last.getLsbD i → (maskRO w.reg).getLsbD (w.first + i) = true

/-- A device, with what its space held when a register was last read, and what has been written. -/
structure IoSpaces (ρ : Type) where
  mem : NvmeIoSpace → Nat → BitVec 8
  lastRead : ρ → Option (Nat → BitVec 8)
  writes : List (RegWrite ρ)

/-- `FrmwkEx`; `incorrect` is the one whose text names a bit. -/
inductive RoException (ρ : Type) where
  | here
  | incorrect (reg : ρ) (value expectedValue : BitVec 64)
  deriving DecidableEq, Repr

namespace IoSpaces

variable {ρ : Type} [DecidableEq ρ] (d : IoSpaces ρ)

def start (mem : NvmeIoSpace → Nat → BitVec 8) : IoSpaces ρ := ⟨mem, fun _ => none, []⟩

def saw (regSpc : NvmeIoSpace) (reg : ρ) : IoSpaces ρ :=
  { d with lastRead := Function.update d.lastRead reg (some (d.mem regSpc)) }

@[simp] theorem lastRead_saw_self (regSpc : NvmeIoSpace) (reg : ρ) :
    (d.saw regSpc reg).lastRead reg = some (d.mem regSpc) :=
  Function.update_self reg _ d.lastRead

def wrote (reg : ρ) (first : Nat) (io : RwGeneric) (value : BitVec 64) : IoSpaces ρ where
  mem := Function.update d.mem io.type (Bytes.store (d.mem io.type) io.offset io.nBytes value)
  lastRead := d.lastRead
  writes := d.writes ++
    [⟨reg, first, io.nBytes, (d.lastRead reg).map fun mem => Bytes.load 64 mem io.offset io.nBytes, value⟩]

def drv : GenericDriver where
  readGeneric io := some (Bytes.load 64 (d.mem io.type) io.offset io.nBytes).toNat
  writeGeneric _ _ := true

/-- Every write changes only bits of the mask. -/
def Good (maskRO : ρ → BitVec 64) : Prop := ∀ w ∈ d.writes, w.OnlyRO maskRO

end IoSpaces

section Good

variable {ρ : Type} {maskRO : ρ → BitVec 64} {d : IoSpaces ρ} {reg : ρ}

/-- A write that differs from what has been read in bits of the mask only. -/
theorem good_wrote (hgood : d.Good maskRO) {mem : Nat → BitVec 8} (hlast : d.lastRead reg = some mem) {io : RwGeneric}
    {value : BitVec 64} (h : ∀ i < 8 * io.nBytes,
      value.getLsbD i ≠ (Bytes.load 64 mem io.offset io.nBytes).getLsbD i → (maskRO reg).getLsbD i = true) :
    (d.wrote reg 0 io value).Good maskRO := by
  intro w hw
  rcases List.mem_append.1 hw with hw | hw
  · exact hgood w hw
  · rw [List.mem_singleton.1 hw]
    refine ⟨_, congrArg (Option.map _) hlast, fun i hi hdiff => ?_⟩
    rw [Nat.zero_add]
    exact h i hi hdiff

/-- Where the mask has no bit, ones and zeros that are written there are the bits that have been read. -/
theorem getLsbD_masked (value : BitVec 64) {mask : BitVec 64} {i : Nat} (hmask : mask.getLsbD i = false) :
    (value ||| mask).getLsbD i = value.getLsbD i ∧ (value &&& ~~~mask).getLsbD i = value.getLsbD i := by
  rw [BitVec.getLsbD_or, BitVec.getLsbD_and, BitVec.getLsbD_not, hmask, Bool.or_false, Bool.not_false, Bool.and_true]
  refine ⟨rfl, ?_⟩
  by_cases hi : i < 64
  · rw [decide_eq_true hi, Bool.and_true]
  · rw [BitVec.getLsbD_of_ge _ _ (Nat.le_of_not_lt hi), Bool.false_and]

/-- A register is written with ones as it has been read. -/
theorem good_ones (hgood : d.Good maskRO) {mem : Nat → BitVec 8} (hlast : d.lastRead reg = some mem) (io : RwGeneric) :
    (d.wrote reg 0 io (Bytes.load 64 mem io.offset io.nBytes ||| maskRO reg)).Good maskRO := by
  refine good_wrote hgood hlast fun i _ hdiff => ?_
  by_contra hmask
  exact hdiff (getLsbD_masked _ (Bool.eq_false_iff.2 hmask)).1

/-- A register is written with zeros as it has been read. -/
theorem good_zeros (hgood : d.Good maskRO) {mem : Nat → BitVec 8} (hlast : d.lastRead reg = some mem) (io : RwGeneric) :
    (d.wrote reg 0 io (Bytes.load 64 mem io.offset io.nBytes &&& ~~~maskRO reg)).Good maskRO := by
  refine good_wrote hgood hlast fun i _ hdiff => ?_
  by_contra hmask
  exact hdiff (getLsbD_masked _ (Bool.eq_false_iff.2 hmask)).2

/-- A register that has been written with ones, and has been read since, is written with zeros as it was before. -/
theorem good_zeros_of_ones (hgood : d.Good maskRO) (mem : Nat → BitVec 8) (io : RwGeneric) {value : BitVec 64}
    (hlast : d.lastRead reg = some (Bytes.store mem io.offset io.nBytes (value ||| maskRO reg))) :
    (d.wrote reg 0 io (value &&& ~~~maskRO reg)).Good maskRO := by
  refine good_wrote hgood hlast fun i hi hdiff => ?_
  by_contra hmask
  obtain ⟨hones, hzeros⟩ := getLsbD_masked value (Bool.eq_false_iff.2 hmask)
  rw [Bytes.getLsbD_load_store, hones, hzeros] at hdiff
  by_cases hwide : i < 64
  · rw [decide_eq_true ⟨hwide, by omega⟩, Bool.true_and] at hdiff
    exact hdiff rfl
  · rw [BitVec.getLsbD_of_ge _ _ (Nat.le_of_not_lt hwide), Bool.and_false] at hdiff
    exact hdiff rfl

end Good

section Access

variable {ρ : Type} [DecidableEq ρ]

/-- `Read`, and the exception if it answers `false`. -/
def readOrThrow (regSpc : NvmeIoSpace) (read : GenericDriver → List RwGeneric × Option Nat) (reg : ρ) :
    Eff (RoException ρ) (IoSpaces ρ) (BitVec 64) := do
  let d ← get
  match (read d.drv).2 with
  | none => throw .here
  | some value =>
    set (d.saw regSpc reg)
    return BitVec.ofNat 64 value

/-- `Write`, and the exception if it answers `false`. -/
def writeOrThrow (write : GenericDriver → Nat → List RwGeneric × Bool) (reg : ρ) (value : BitVec 64) :
    Eff (RoException ρ) (IoSpaces ρ) PUnit := do
  let d ← get
  if (write d.drv value.toNat).2 then
    set ((write d.drv value.toNat).1.foldl (fun d io => d.wrote reg 0 io value) d)
  else throw .here

/-- A part of a register is read without a check. -/
def readPart (reg : ρ) (io : RwGeneric) : Eff (RoException ρ) (IoSpaces ρ) (BitVec 64) := do
  let d ← get
  set (d.saw io.type reg)
  return Bytes.load 64 (d.mem io.type) io.offset io.nBytes

/-- A part of a register is written without a check. -/
def writePart (reg : ρ) (first : Nat) (io : RwGeneric) (value : BitVec 64) :
    Eff (RoException ρ) (IoSpaces ρ) PUnit := do
  let d ← get
  set (d.wrote reg first io value)

/-- The checks in front of an access: the revision is listed, and the register is known. -/
def Accessible (t : RoTables) (specRevs : List SpecRev) (own : RegMetrics) : Prop :=
  t.mSpecRev ∈ specRevs ∧ RegTables.Known own

instance (t : RoTables) (specRevs : List SpecRev) (own : RegMetrics) : Decidable (Accessible t specRevs own) :=
  inferInstanceAs (Decidable (_ ∧ _))

/-- What every read and every write keeps. -/
structure Kept (P : IoSpaces ρ → Prop) : Prop where
  saw : ∀ d regSpc reg, P d → P (d.saw regSpc reg)
  wrote : ∀ d reg first io value, P d → P (d.wrote reg first io value)

variable {P : IoSpaces ρ → Prop} {d : IoSpaces ρ} {regSpc : NvmeIoSpace} {reg : ρ}
  {read : GenericDriver → List RwGeneric × Option Nat} {write : GenericDriver → Nat → List RwGeneric × Bool}

theorem readOrThrow_kept (hP : Kept P) (h : P d) :
    Ends (fun _ => P) (fun _ => P) (readOrThrow regSpc read reg) d := by
  refine Ends.get_bind ?_
  cases (read d.drv).2 with
  | none => exact Ends.throw h
  | some value => exact Ends.set_bind (Ends.pure (hP.saw d regSpc reg h))

theorem readPart_kept (hP : Kept P) (h : P d) (reg : ρ) (io : RwGeneric) :
    Ends (fun _ => P) (fun _ => P) (readPart reg io) d :=
  Ends.get_bind (Ends.set_bind (Ends.pure (hP.saw d io.type reg h)))

theorem writePart_kept (hP : Kept P) (h : P d) (reg : ρ) (first : Nat) (io : RwGeneric) (value : BitVec 64) :
    Ends (fun _ => P) (fun _ => P) (writePart reg first io value) d :=
  Ends.get_bind (Ends.set (hP.wrote d reg first io value h))

theorem writeOrThrow_kept (hP : Kept P) (h : P d) (value : BitVec 64) :
    Ends (fun _ => P) (fun _ => P) (writeOrThrow write reg value) d := by
  refine Ends.get_bind ?_
  split
  · exact Ends.set (List.foldlRecOn (motive := P) _ _ h fun d hd io _ => hP.wrote d reg 0 io value hd)
  · exact Ends.throw h

variable {t : RoTables} {specRevs : List SpecRev} {own : RegMetrics} {E : RoException ρ → IoSpaces ρ → Prop}

theorem ofNat_regmask_load (mem : Nat → BitVec 8) (offset nBytes : Nat) :
    BitVec.ofNat 64 (regmask (Bytes.load 64 mem offset nBytes).toNat nBytes) = Bytes.load 64 mem offset nBytes := by
  refine BitVec.eq_of_getLsbD_eq fun i hi => ?_
  rw [BitVec.getLsbD_ofNat, regmask, Nat.testBit_mod_two_pow, BitVec.testBit_toNat, decide_eq_true hi, Bool.true_and]
  by_cases hin : i < 8 * nBytes
  · rw [decide_eq_true hin, Bool.true_and]
  · rw [decide_eq_false hin, Bool.false_and, Bytes.getLsbD_load, decide_eq_false (by omega), Bool.false_and]

/-- The checks together. -/
theorem checked_eq {α : Type} (refused answer : α) :
    (if !t.regs.validSpecRev specRevs then refused else if own.offset = ushrtMax then refused
      else if own.size > maxSupportedRegSize then refused else answer) =
      if Accessible t specRevs own then answer else refused := by
  by_cases hrev : t.regs.validSpecRev specRevs = true
  · rw [hrev, Bool.not_true, if_neg Bool.false_ne_true]
    by_cases hoffset : own.offset = ushrtMax
    · rw [if_pos hoffset, if_neg fun hacc => hacc.2.1 hoffset]
    · rw [if_neg hoffset]
      by_cases hsize : own.size > maxSupportedRegSize
      · rw [if_pos hsize, if_neg fun hacc => Nat.not_lt.2 hacc.2.2 hsize]
      · rw [if_neg hsize, if_pos ⟨RegTables.validSpecRev_iff.1 hrev, hoffset, Nat.le_of_not_lt hsize⟩]
  · rw [Bool.eq_false_iff.2 hrev, Bool.not_false, if_pos rfl,
      if_neg fun hacc => hrev (RegTables.validSpecRev_iff.2 hacc.1)]

/-- **A register that can be accessed is read as it is stored, and another one throws.** -/
theorem readOrThrow_ends {Q : BitVec 64 → IoSpaces ρ → Prop} (hread : ∀ drv, read drv =
      if !t.regs.validSpecRev specRevs then ([], none) else RegTables.readReg drv regSpc own.size own.offset)
    (hok : Accessible t specRevs own → Q (Bytes.load 64 (d.mem regSpc) own.offset own.size) (d.saw regSpc reg))
    (hthrow : ¬Accessible t specRevs own → E .here d) : Ends Q E (readOrThrow regSpc read reg) d := by
  refine Ends.get_bind ?_
  rw [hread]
  unfold RegTables.readReg
  rw [checked_eq]
  by_cases hacc : Accessible t specRevs own
  · rw [if_pos hacc]
    refine Ends.set_bind (Ends.pure ?_)
    rw [ofNat_regmask_load]
    exact hok hacc
  · rw [if_neg hacc]
    exact Ends.throw (hthrow hacc)

omit [DecidableEq ρ] in
theorem writeOrThrow_ends {Q : PUnit → IoSpaces ρ → Prop} {value : BitVec 64} (hwrite : ∀ drv value, write drv value =
      if !t.regs.validSpecRev specRevs then ([], false)
      else RegTables.writeReg drv regSpc own.size own.offset value)
    (hok : Accessible t specRevs own →
      Q ⟨⟩ (d.wrote reg 0 ⟨regSpc, own.offset, own.size, RegTables.sizeAcc regSpc own.size⟩ value))
    (hthrow : ¬Accessible t specRevs own → E .here d) : Ends Q E (writeOrThrow write reg value) d := by
  refine Ends.get_bind ?_
  rw [hwrite]
  unfold RegTables.writeReg
  rw [checked_eq]
  by_cases hacc : Accessible t specRevs own
  · rw [if_pos hacc]
    exact Ends.set (hok hacc)
  · rw [if_neg hacc]
    exact Ends.throw (hthrow hacc)

/-- What is known after a register has been read again. -/
structure Seen (regSpc : NvmeIoSpace) (reg : ρ) (d d' : IoSpaces ρ) : Prop where
  writes : d'.writes = d.writes
  mem : d'.mem = d.mem
  lastRead : d'.lastRead reg = some (d.mem regSpc)

theorem seen_saw (regSpc : NvmeIoSpace) (reg : ρ) (d : IoSpaces ρ) : Seen regSpc reg d (d.saw regSpc reg) :=
  ⟨rfl, rfl, d.lastRead_saw_self regSpc reg⟩

/-- **A register is written with ones, and then with zeros as it has been read before the ones.** In between it is
validated, which reads it again, with `A` if it returns and `B` if it throws. -/
theorem ones_zeros_ends {α β : Type} (maskRO : ρ → BitVec 64) (validate : Eff (RoException ρ) (IoSpaces ρ) α)
    (rest : α → Eff (RoException ρ) (IoSpaces ρ) β) {A B : Prop} {Q : β → IoSpaces ρ → Prop}
    (hread : ∀ drv, read drv =
      if !t.regs.validSpecRev specRevs then ([], none) else RegTables.readReg drv regSpc own.size own.offset)
    (hwrite : ∀ drv value, write drv value = if !t.regs.validSpecRev specRevs then ([], false)
      else RegTables.writeReg drv regSpc own.size own.offset value)
    (hvalidate : Accessible t specRevs own → ∀ d,
      Ends (fun _ d' => Seen regSpc reg d d' ∧ A) (fun _ d' => d'.writes = d.writes ∧ B) validate d)
    (hrest : Accessible t specRevs own → A → ∀ a d', d'.Good maskRO → Ends Q E (rest a) d')
    (hthrow : ∀ e d', d'.Good maskRO → ¬Accessible t specRevs own ∨ B → E e d') (hgood : d.Good maskRO) :
    Ends Q E (do
      let origValue ← readOrThrow regSpc read reg
      writeOrThrow write reg (origValue ||| maskRO reg)
      let ones ← validate
      writeOrThrow write reg (origValue &&& ~~~maskRO reg)
      rest ones) d := by
  let io : RwGeneric := ⟨regSpc, own.offset, own.size, RegTables.sizeAcc regSpc own.size⟩
  refine Ends.bind (readOrThrow_ends (Q := fun value d' => Accessible t specRevs own ∧ d' = d.saw regSpc reg ∧
    value = Bytes.load 64 (d.mem regSpc) own.offset own.size) hread (fun hacc => ⟨hacc, rfl, rfl⟩)
    fun h => hthrow _ _ hgood (.inl h)) ?_
  rintro origValue _ ⟨hacc, rfl, hvalue⟩
  have hones : ((d.saw regSpc reg).wrote reg 0 io (origValue ||| maskRO reg)).Good maskRO := by
    rw [hvalue]
    exact good_ones (show (d.saw regSpc reg).Good maskRO from hgood) (d.lastRead_saw_self regSpc reg) io
  refine Ends.bind (writeOrThrow_ends (Q := fun _ d' => d' = (d.saw regSpc reg).wrote reg 0 io
    (origValue ||| maskRO reg)) hwrite (fun _ => rfl) fun h => absurd hacc h) ?_
  rintro - _ rfl
  refine Ends.bind ((hvalidate hacc _).mono (fun _ _ h => h) fun e d' h => ?_) ?_
  · exact hthrow e d' (fun w hw => hones w (h.1 ▸ hw)) (.inr h.2)
  rintro ones d' ⟨hseen, ha⟩
  have hzeros : (d'.wrote reg 0 io (origValue &&& ~~~maskRO reg)).Good maskRO := by
    refine good_zeros_of_ones (fun w hw => hones w (hseen.writes ▸ hw)) (d.mem regSpc) io ?_
    rw [hseen.lastRead]
    exact congrArg some (Function.update_self regSpc _ d.mem)
  refine Ends.bind (writeOrThrow_ends (Q := fun _ d'' => d'' = d'.wrote reg 0 io (origValue &&& ~~~maskRO reg))
    hwrite (fun _ => rfl) fun h => absurd hacc h) ?_
  rintro - _ rfl
  exact hrest hacc ha ones _ hzeros

end Access

/-- What is relied on of `DWORD_LEN`, which the interface of the driver defines: it is the size of an access that an
`uint32_t` has room for. -/
def AccessLen (dwordLen : Nat) : Prop := dwordLen = 1 ∨ dwordLen = 2 ∨ dwordLen = 4

/-- The indices of the parts of a register. -/
def partsOf (nBytes size : Nat) : List Nat := List.range ((size + nBytes - 1) / nBytes)

/-- What the machine makes of shifts by the width or more, which are undefined, and what is in a variable that has not
been initialised. -/
structure Beyond where
  shl : BitVec 32 → Nat → BitVec 32
  shr : BitVec 64 → Nat → BitVec 64
  uninitialized : BitVec 32

namespace Beyond

variable (b : Beyond)

def shl32 (x : BitVec 32) (n : Nat) : BitVec 32 := if n < 32 then x <<< n else b.shl x n

def shr64 (x : BitVec 64) (n : Nat) : BitVec 64 := if n < 64 then x >>> n else b.shr x n

end Beyond

/-! ## The registers of the PCI space -/

namespace AllPciRegs

abbrev Run := Eff (RoException PciSpc) (IoSpaces PciSpc)

/-- `CMD_IOSE`, `PXLCAP_ASPMS`, `PXLCAP_AOC` and `PXLCAP_ASPM_DEFAULT` -/
def cmdIose : BitVec 64 := 0x0001

def pxlcapAspms : BitVec 64 := 0x00000c00

def pxlcapAoc : BitVec 64 := 0x00400000

def pxlcapAspmDefault : BitVec 64 := 0x0000000000400000

variable (b : Beyond) (dwordLen : Nat) (t : RoTables)

def read (reg : PciSpc) : Run (BitVec 64) := readOrThrow .pciHdr (t.regs.readPciSpc · reg) reg

def write (reg : PciSpc) (value : BitVec 64) : Run PUnit := writeOrThrow (t.regs.writePciSpc · reg) reg value

/-- The request for a part; the offset is a `uint16_t`. -/
def part (reg : PciSpc) (nBytes k : Nat) : RwGeneric :=
  ⟨.pciHdr, ((t.pciMetrics reg).offset + k * nBytes) % 2 ^ 16, nBytes, RegTables.sizeAcc .pciHdr nBytes⟩

/-- The bits that are read-only hold their default values, except if the index/data pair is not supported. -/
def compareHdr (reg : PciSpc) (value : BitVec 64) : Run Bool := do
  let value := value &&& ~~~(t.pciMetrics reg).impSpec &&& (t.pciMetrics reg).maskRO
  let expectedValue := (t.pciMetrics reg).dfltValue &&& (t.pciMetrics reg).maskRO
  if reg = .bar2 then
    let cmdReg ← read t .cmd
    return value == if cmdReg &&& cmdIose ≠ 0 then expectedValue else 0
  else return value == expectedValue

def validatePciHdrRegisterROAttribute (reg : PciSpc) : Run Bool := do
  if (t.pciMetrics reg).size > maxSupportedRegSize then
    (partsOf 8 (t.pciMetrics reg).size).foldlM (fun result k => do
      let value ← readPart reg (part t reg 8 k)
      let ok ← compareHdr t reg value
      return result && ok) true
  else
    let value ← read t reg
    compareHdr t reg value

/-- The link capabilities may have the bit AOC if ASPM is supported. -/
def compareCap (reg : PciSpc) (value : BitVec 64) : Bool :=
  if reg = .pxlcap ∧ value &&& pxlcapAspms ≠ 0 then
    value &&& (~~~(t.pciMetrics reg).impSpec ||| pxlcapAoc) &&& (t.pciMetrics reg).maskRO ==
      ((t.pciMetrics reg).dfltValue ||| pxlcapAspmDefault) &&& (t.pciMetrics reg).maskRO
  else
    value &&& ~~~(t.pciMetrics reg).impSpec &&& (t.pciMetrics reg).maskRO ==
      (t.pciMetrics reg).dfltValue &&& (t.pciMetrics reg).maskRO

def validatePciCapRegisterROAttribute (reg : PciSpc) : Run Bool := do
  if (t.pciMetrics reg).size > maxSupportedRegSize then
    (partsOf dwordLen (t.pciMetrics reg).size).foldlM (fun result k => do
      let value ← readPart reg (part t reg dwordLen k)
      return result && value &&& ~~~(t.pciMetrics reg).impSpec &&& (t.pciMetrics reg).maskRO ==
        (t.pciMetrics reg).dfltValue &&& (t.pciMetrics reg).maskRO) true
  else
    let value ← read t reg
    return compareCap t reg value

/-- `tmpValue` with a part that is read into it; its other bytes stay. -/
def intoTmpValue (nBytes : Nat) (tmpValue : BitVec 32) (value : BitVec 64) : BitVec 32 :=
  tmpValue >>> (8 * nBytes) <<< (8 * nBytes) ||| value.setWidth 32

/-- A wide register is put together of parts, each of which is shifted as an `uint32_t`; with what is in `tmpValue`. -/
def readWide (reg : PciSpc) (tmpValue : BitVec 32) : Run (BitVec 64 × BitVec 32) :=
  (partsOf dwordLen (t.pciMetrics reg).size).foldlM (fun vars k => do
    let value ← readPart reg (part t reg dwordLen k)
    let tmpValue := intoTmpValue dwordLen vars.2 value
    return (vars.1 ||| (b.shl32 tmpValue (k * dwordLen * 8)).setWidth 64, tmpValue)) (0, tmpValue)

def writeWide (reg : PciSpc) (value : BitVec 64) : Run (BitVec 32) :=
  (partsOf dwordLen (t.pciMetrics reg).size).foldlM (fun _ k => do
    let tmpValue := (b.shr64 value (k * dwordLen * 8)).setWidth 32
    writePart reg (k * dwordLen * 8) (part t reg dwordLen k) (tmpValue.setWidth 64)
    return tmpValue) 0

def readCap (reg : PciSpc) (tmpValue : BitVec 32) : Run (BitVec 64 × BitVec 32) :=
  if (t.pciMetrics reg).size > maxSupportedRegSize then readWide b dwordLen t reg tmpValue
  else do
    let value ← read t reg
    return (value, tmpValue)

def writeCap (reg : PciSpc) (value : BitVec 64) (tmpValue : BitVec 32) : Run (BitVec 32) :=
  if (t.pciMetrics reg).size > maxSupportedRegSize then writeWide b dwordLen t reg value
  else do
    write t reg value
    return tmpValue

/-- The body of the loop over the registers of the header. -/
def visitHdr (reg : PciSpc) : Run Bool := do
  let origValue ← read t reg
  write t reg (origValue ||| (t.pciMetrics reg).maskRO)
  let ones ← validatePciHdrRegisterROAttribute t reg
  write t reg (origValue &&& ~~~(t.pciMetrics reg).maskRO)
  let zeros ← validatePciHdrRegisterROAttribute t reg
  return ones && zeros

/-- A register of a capability is read, written with a change, and compared. -/
def rewriteCap (reg : PciSpc) (change : BitVec 64 → BitVec 64) (tmpValue : BitVec 32) : Run (Bool × BitVec 32) := do
  let vars ← readCap b dwordLen t reg tmpValue
  let tmpValue ← writeCap b dwordLen t reg (change vars.1) vars.2
  let ok ← validatePciCapRegisterROAttribute dwordLen t reg
  return (ok, tmpValue)

/-- The body of the loop over the registers of a capability, which does this twice. -/
def visitCap (reg : PciSpc) (tmpValue : BitVec 32) : Run (Bool × BitVec 32) := do
  let ones ← rewriteCap b dwordLen t reg (· ||| (t.pciMetrics reg).maskRO) tmpValue
  let zeros ← rewriteCap b dwordLen t reg (· &&& ~~~(t.pciMetrics reg).maskRO) ones.2
  return (ones.1 && zeros.1, zeros.2)

/-- A pass of one of the two loops. -/
inductive Visit where
  | hdr (reg : PciSpc)
  | cap (reg : PciSpc)
  deriving DecidableEq, Repr

/-- `result` and `tmpValue` behind a pass. -/
def visit (vars : Bool × BitVec 32) : Visit → Run (Bool × BitVec 32)
  | .hdr reg => do
    let ok ← visitHdr t reg
    return (vars.1 && ok, vars.2)
  | .cap reg => do
    let ok ← visitCap b dwordLen t reg vars.2
    return (vars.1 && ok.1, ok.2)

/-- The registers of a capability, or of the header, that the revision of the test has and that are not reserved. -/
def rows (mSpecRev : SpecRev) (cap : Option PciCapabilities) : List PciSpc :=
  PciSpc.all.filter fun reg => (t.pciMetrics reg).specRev.contains mSpecRev && reg ≠ .res0 && reg ≠ .res1 &&
    (t.pciMetrics reg).cap = cap

/-- The passes of the loops over the header and over the discovered capabilities. -/
def visits (pciCap : List PciCapabilities) (mSpecRev : SpecRev) : List Visit :=
  (rows t mSpecRev none).map .hdr ++ pciCap.flatMap fun cap => (rows t mSpecRev (some cap)).map .cap

def validateROBitsAfterWriting (pciCap : List PciCapabilities) (mSpecRev : SpecRev) : Run Bool := do
  let vars ← (visits t pciCap mSpecRev).foldlM (visit b dwordLen t) (true, b.uninitialized)
  return vars.1

/-! ### Registers that are not wide -/

/-- The register can be accessed. -/
def Known (reg : PciSpc) : Prop := Accessible t (t.pciMetrics reg).specRev (t.pciMetrics reg).toRegMetrics

instance (reg : PciSpc) : Decidable (Known t reg) := inferInstanceAs (Decidable (Accessible _ _ _))

/-- A pass does not throw. BAR2 is compared after CMD has been read. -/
def Visit.Passes : Visit → Prop
  | .hdr reg => Known t reg ∧ (reg = .bar2 → Known t .cmd)
  | .cap reg => Known t reg

/-- A register of a capability that is wider than 8 bytes. -/
def Visit.Wide : Visit → Prop
  | .hdr _ => False
  | .cap reg => (t.pciMetrics reg).size > maxSupportedRegSize

instance : (v : Visit) → Decidable (v.Passes t)
  | .hdr _ => inferInstanceAs (Decidable (_ ∧ _))
  | .cap _ => inferInstanceAs (Decidable (Known _ _))

instance : (v : Visit) → Decidable (v.Wide t)
  | .hdr _ => inferInstanceAs (Decidable False)
  | .cap _ => inferInstanceAs (Decidable (_ > _))

variable {b dwordLen t} {reg : PciSpc} {d : IoSpaces PciSpc} {v : Visit}
  {Q : BitVec 64 → IoSpaces PciSpc → Prop} {E : RoException PciSpc → IoSpaces PciSpc → Prop}

/-- The mask of each register. -/
def maskRO (t : RoTables) (reg : PciSpc) : BitVec 64 := (t.pciMetrics reg).maskRO

/-- The request for a whole register. -/
def whole (t : RoTables) (reg : PciSpc) : RwGeneric :=
  ⟨.pciHdr, (t.pciMetrics reg).offset, (t.pciMetrics reg).size, RegTables.sizeAcc .pciHdr (t.pciMetrics reg).size⟩

theorem readPciSpc_eq (drv : GenericDriver) : t.regs.readPciSpc drv reg =
    if !t.regs.validSpecRev (t.pciMetrics reg).specRev then ([], none)
    else RegTables.readReg drv .pciHdr (t.pciMetrics reg).size (t.pciMetrics reg).offset := rfl

theorem writePciSpc_eq (drv : GenericDriver) (value : Nat) : t.regs.writePciSpc drv reg value =
    if !t.regs.validSpecRev (t.pciMetrics reg).specRev then ([], false)
    else RegTables.writeReg drv .pciHdr (t.pciMetrics reg).size (t.pciMetrics reg).offset value := rfl

theorem read_ends (hok : Known t reg →
      Q (Bytes.load 64 (d.mem .pciHdr) (t.pciMetrics reg).offset (t.pciMetrics reg).size) (d.saw .pciHdr reg))
    (hthrow : ¬Known t reg → E .here d) : Ends Q E (read t reg) d :=
  readOrThrow_ends readPciSpc_eq hok hthrow

theorem write_ends {Q : PUnit → IoSpaces PciSpc → Prop} {value : BitVec 64}
    (hok : Known t reg → Q ⟨⟩ (d.wrote reg 0 (whole t reg) value)) (hthrow : ¬Known t reg → E .here d) :
    Ends Q E (write t reg value) d :=
  writeOrThrow_ends writePciSpc_eq hok hthrow

theorem validateHdr_ends (hknown : Known t reg) :
    Ends (fun _ d' => Seen .pciHdr reg d d' ∧ (reg = .bar2 → Known t .cmd))
      (fun _ d' => d'.writes = d.writes ∧ ¬(reg = .bar2 → Known t .cmd))
      (validatePciHdrRegisterROAttribute t reg) d := by
  unfold validatePciHdrRegisterROAttribute
  rw [if_neg (Nat.not_lt.2 hknown.2.2)]
  refine Ends.bind (read_ends (Q := fun _ => Seen .pciHdr reg d) (fun _ => seen_saw .pciHdr reg d)
    fun h => absurd hknown h) ?_
  intro value d' hseen
  unfold compareHdr
  by_cases hbar : reg = .bar2
  · rw [if_pos hbar]
    refine Ends.bind (read_ends (Q := fun _ d'' => Seen .pciHdr reg d d'' ∧ Known t .cmd) (fun hcmd => ⟨?_, hcmd⟩)
      fun hcmd => ⟨hseen.writes, fun h => hcmd (h hbar)⟩) fun cmdReg d'' h => Ends.pure ⟨h.1, fun _ => h.2⟩
    have hne : reg ≠ .cmd := by rw [hbar]; decide
    exact ⟨hseen.writes, hseen.mem, (Function.update_of_ne hne _ _).trans hseen.lastRead⟩
  · rw [if_neg hbar]
    exact Ends.pure ⟨hseen, fun h => absurd h hbar⟩

theorem visitHdr_ends (hgood : d.Good (maskRO t)) :
    Ends (fun _ d' => d'.Good (maskRO t) ∧ (Visit.hdr reg).Passes t)
      (fun _ d' => d'.Good (maskRO t) ∧ ¬(Visit.hdr reg).Passes t) (visitHdr t reg) d := by
  refine ones_zeros_ends (maskRO t) (validatePciHdrRegisterROAttribute t reg)
    (fun ones => validatePciHdrRegisterROAttribute t reg >>= fun zeros => Pure.pure (ones && zeros)) readPciSpc_eq
    writePciSpc_eq (fun hknown d => validateHdr_ends hknown) (fun hknown hcmd ones d' hgood' => ?_)
    (fun _ d' hgood' hno => ⟨hgood', fun hpass => ?_⟩) hgood
  · refine Ends.bind ((validateHdr_ends hknown).mono (fun _ _ h => h) fun _ _ h => absurd hcmd h.2) ?_
    exact fun zeros d'' h => Ends.pure ⟨fun w hw => hgood' w (h.1.writes ▸ hw), hknown, hcmd⟩
  · exact hno.elim (fun h => h hpass.1) fun h => h hpass.2

theorem validateCap_ends (hknown : Known t reg) :
    Ends (fun _ d' => d'.writes = d.writes) (fun _ _ => False)
      (validatePciCapRegisterROAttribute dwordLen t reg) d := by
  unfold validatePciCapRegisterROAttribute
  rw [if_neg (Nat.not_lt.2 hknown.2.2)]
  refine Ends.bind (read_ends (Q := fun _ d' => d'.writes = d.writes) (fun _ => rfl) fun h => absurd hknown h) ?_
  exact fun _ _ h => Ends.pure h

theorem rewriteCap_ends (hsize : ¬(Visit.cap reg).Wide t) (hgood : d.Good (maskRO t)) (tmpValue : BitVec 32)
    {change : BitVec 64 → BitVec 64} (hchange : ∀ d : IoSpaces PciSpc, d.Good (maskRO t) → ∀ {mem},
      d.lastRead reg = some mem → ∀ io : RwGeneric,
        (d.wrote reg 0 io (change (Bytes.load 64 mem io.offset io.nBytes))).Good (maskRO t)) :
    Ends (fun _ d' => d'.Good (maskRO t) ∧ Known t reg) (fun _ d' => d'.Good (maskRO t) ∧ ¬Known t reg)
      (rewriteCap b dwordLen t reg change tmpValue) d := by
  have hnarrow : ¬(t.pciMetrics reg).size > maxSupportedRegSize := hsize
  unfold rewriteCap readCap writeCap
  rw [if_neg hnarrow]
  refine Ends.bind (Q := fun vars d' => Known t reg ∧ d' = d.saw .pciHdr reg ∧
    vars.1 = Bytes.load 64 (d.mem .pciHdr) (t.pciMetrics reg).offset (t.pciMetrics reg).size)
    (Ends.bind (read_ends (Q := fun value d' => Known t reg ∧ d' = d.saw .pciHdr reg ∧
      value = Bytes.load 64 (d.mem .pciHdr) (t.pciMetrics reg).offset (t.pciMetrics reg).size)
      (fun hknown => ⟨hknown, rfl, rfl⟩) fun h => ⟨hgood, h⟩) fun _ _ h => Ends.pure h) ?_
  rintro ⟨origValue, tmpValue⟩ _ ⟨hknown, rfl, rfl⟩
  rw [if_neg hnarrow]
  refine Ends.bind (Q := fun _ d' => d'.Good (maskRO t)) (Ends.bind (write_ends
    (Q := fun _ d' => d'.Good (maskRO t)) (fun _ => ?_) fun h => absurd hknown h) fun _ _ h => Ends.pure h) ?_
  · exact hchange (d.saw .pciHdr reg) hgood (d.lastRead_saw_self .pciHdr reg) (whole t reg)
  · refine fun _ d' h => Ends.bind ((validateCap_ends hknown).mono (fun _ _ hw => hw) fun _ _ h => h.elim) ?_
    exact fun _ _ hw => Ends.pure ⟨fun w hin => h w (hw ▸ hin), hknown⟩

theorem visitCap_ends (hsize : ¬(Visit.cap reg).Wide t) (hgood : d.Good (maskRO t)) (tmpValue : BitVec 32) :
    Ends (fun _ d' => d'.Good (maskRO t) ∧ (Visit.cap reg).Passes t)
      (fun _ d' => d'.Good (maskRO t) ∧ ¬(Visit.cap reg).Passes t) (visitCap b dwordLen t reg tmpValue) d := by
  refine Ends.bind (rewriteCap_ends hsize hgood tmpValue fun d hgood _ hlast io => good_ones hgood hlast io) ?_
  rintro ones d' ⟨hgood', -⟩
  refine Ends.bind (rewriteCap_ends hsize hgood' ones.2 fun d hgood _ hlast io => good_zeros hgood hlast io) ?_
  exact fun zeros d'' h => Ends.pure h

/-- **A register that is not wide is passed exactly if it can be accessed; only bits of its mask are changed.** -/
theorem visit_ends (hsize : ¬v.Wide t) (hgood : d.Good (maskRO t)) (vars : Bool × BitVec 32) :
    Ends (fun _ d' => d'.Good (maskRO t) ∧ v.Passes t) (fun _ d' => d'.Good (maskRO t) ∧ ¬v.Passes t)
      (visit b dwordLen t vars v) d := by
  cases v with
  | hdr reg => exact Ends.bind (visitHdr_ends hgood) fun ok d' h => Ends.pure h
  | cap reg => exact Ends.bind (visitCap_ends hsize hgood vars.2) fun ok d' h => Ends.pure h

/-- A register that passes is not wide. -/
theorem Visit.Passes.not_wide (hpass : v.Passes t) : ¬v.Wide t := by
  cases v with
  | hdr reg => exact id
  | cap reg => exact Nat.not_lt.2 hpass.2.2

/-- The first register that does not pass is not wide. -/
def Stops (t : RoTables) (vs : List Visit) : Prop := ∀ v, vs.find? (fun v => ¬v.Passes t) = some v → ¬v.Wide t

/-- **All is good as long as no wide register is reached.** -/
theorem visits_ends (vs : List Visit) (hstops : Stops t vs) (hgood : d.Good (maskRO t)) (vars : Bool × BitVec 32) :
    Ends (fun _ d' => d'.Good (maskRO t)) (fun _ d' => d'.Good (maskRO t)) (vs.foldlM (visit b dwordLen t) vars) d := by
  induction vs generalizing vars d with
  | nil => exact Ends.pure hgood
  | cons v vs ih =>
    rw [List.foldlM_cons]
    by_cases hpass : v.Passes t
    · refine Ends.bind ((visit_ends hpass.not_wide hgood vars).mono (fun _ _ h => h.1) fun _ _ h => h.1) ?_
      intro vars' d' hgood'
      refine ih (fun w hw => hstops w ?_) hgood' vars'
      rw [List.find?_cons_of_neg (by simpa using hpass)]
      exact hw
    · have hsize := hstops v (List.find?_cons_of_pos (by simpa using hpass))
      exact Ends.bind (Q := fun _ _ => False)
        ((visit_ends hsize hgood vars).mono (fun _ _ h => hpass h.2) fun _ _ h => h.1) fun _ _ h => h.elim

/-! ### Wide registers -/

section Wide

variable {P : IoSpaces PciSpc → Prop}

theorem read_kept (hP : Kept P) (h : P d) (reg : PciSpc) : Ends (fun _ => P) (fun _ => P) (read t reg) d :=
  readOrThrow_kept hP h

theorem write_kept (hP : Kept P) (h : P d) (reg : PciSpc) (value : BitVec 64) :
    Ends (fun _ => P) (fun _ => P) (write t reg value) d :=
  writeOrThrow_kept hP h value

theorem compareHdr_kept (hP : Kept P) (h : P d) (reg : PciSpc) (value : BitVec 64) :
    Ends (fun _ => P) (fun _ => P) (compareHdr t reg value) d := by
  unfold compareHdr
  split
  · exact Ends.bind (read_kept hP h .cmd) fun _ _ h => Ends.pure h
  · exact Ends.pure h

theorem validateHdr_kept (hP : Kept P) (h : P d) (reg : PciSpc) :
    Ends (fun _ => P) (fun _ => P) (validatePciHdrRegisterROAttribute t reg) d := by
  unfold validatePciHdrRegisterROAttribute
  split
  · refine Ends.foldlM (I := fun _ => P) (fun k _ result d h => ?_) h
    refine Ends.bind (readPart_kept hP h reg _) fun value d h => ?_
    exact Ends.bind (compareHdr_kept hP h reg value) fun _ _ h => Ends.pure h
  · exact Ends.bind (read_kept hP h reg) fun value d h => compareHdr_kept hP h reg value

theorem validateCap_kept (hP : Kept P) (h : P d) (reg : PciSpc) :
    Ends (fun _ => P) (fun _ => P) (validatePciCapRegisterROAttribute dwordLen t reg) d := by
  unfold validatePciCapRegisterROAttribute
  split
  · refine Ends.foldlM (I := fun _ => P) (fun k _ result d h => ?_) h
    exact Ends.bind (readPart_kept hP h reg _) fun _ _ h => Ends.pure h
  · exact Ends.bind (read_kept hP h reg) fun _ _ h => Ends.pure h

theorem readCap_kept (hP : Kept P) (h : P d) (reg : PciSpc) (tmpValue : BitVec 32) :
    Ends (fun _ => P) (fun _ => P) (readCap b dwordLen t reg tmpValue) d := by
  unfold readCap readWide
  split
  · refine Ends.foldlM (I := fun _ => P) (fun k _ vars d h => ?_) h
    exact Ends.bind (readPart_kept hP h reg _) fun _ _ h => Ends.pure h
  · exact Ends.bind (read_kept hP h reg) fun _ _ h => Ends.pure h

theorem writeCap_kept (hP : Kept P) (h : P d) (reg : PciSpc) (value : BitVec 64) (tmpValue : BitVec 32) :
    Ends (fun _ => P) (fun _ => P) (writeCap b dwordLen t reg value tmpValue) d := by
  unfold writeCap writeWide
  split
  · refine Ends.foldlM (I := fun _ => P) (fun k _ _ d h => ?_) h
    exact Ends.bind (writePart_kept hP h reg _ _ _) fun _ _ h => Ends.pure h
  · exact Ends.bind (write_kept hP h reg value) fun _ _ h => Ends.pure h

theorem rewriteCap_kept (hP : Kept P) (h : P d) (reg : PciSpc) (change : BitVec 64 → BitVec 64)
    (tmpValue : BitVec 32) : Ends (fun _ => P) (fun _ => P) (rewriteCap b dwordLen t reg change tmpValue) d := by
  refine Ends.bind (readCap_kept hP h reg tmpValue) fun vars d h => ?_
  refine Ends.bind (writeCap_kept hP h reg (change vars.1) vars.2) fun _ d h => ?_
  exact Ends.bind (validateCap_kept hP h reg) fun _ _ h => Ends.pure h

theorem visit_kept (hP : Kept P) (h : P d) (vars : Bool × BitVec 32) (v : Visit) :
    Ends (fun _ => P) (fun _ => P) (visit b dwordLen t vars v) d := by
  cases v with
  | hdr reg =>
    refine Ends.bind (Ends.bind (read_kept hP h reg) fun origValue d h => ?_) fun _ _ h => Ends.pure h
    refine Ends.bind (write_kept hP h reg _) fun _ d h => ?_
    refine Ends.bind (validateHdr_kept hP h reg) fun ones d h => ?_
    refine Ends.bind (write_kept hP h reg _) fun _ d h => ?_
    exact Ends.bind (validateHdr_kept hP h reg) fun _ _ h => Ends.pure h
  | cap reg =>
    refine Ends.bind (Ends.bind (rewriteCap_kept hP h reg _ vars.2) fun ones d h => ?_) fun _ _ h => Ends.pure h
    exact Ends.bind (rewriteCap_kept hP h reg _ ones.2) fun _ _ h => Ends.pure h

/-- A write that is not good stays. -/
theorem kept_not_good : Kept fun d : IoSpaces PciSpc => ¬d.Good (maskRO t) where
  saw _ _ _ h := h
  wrote _ _ _ _ _ h hgood := h fun w hw => hgood w (List.mem_append_left _ hw)

/-- What a wide register holds in the part that begins behind 8 bytes. -/
def ninth (dwordLen : Nat) (t : RoTables) (mem : Nat → BitVec 8) (reg : PciSpc) : BitVec 64 :=
  Bytes.load 64 mem (part t reg dwordLen (8 / dwordLen)).offset dwordLen

/-- A machine that makes the complement of a word of every shift that is undefined. -/
def against (word : BitVec 64) : Beyond := ⟨fun x _ => x, fun _ _ => ~~~word, 0⟩

theorem accessLen_pos (hlen : AccessLen dwordLen) : 0 < dwordLen := by
  rcases hlen with rfl | rfl | rfl <;> decide

/-- A wide register has the parts that begin up to 8 bytes behind its beginning. -/
theorem mem_partsOf (hlen : AccessLen dwordLen) {k size : Nat} (hk : k * dwordLen ≤ 8)
    (hsize : size > maxSupportedRegSize) : k ∈ partsOf dwordLen size := by
  have h8 : 8 < size := hsize
  rw [partsOf, List.mem_range]
  rcases hlen with rfl | rfl | rfl <;> omega

/-- A pass of the loop that reads a wide register. -/
theorem readWord_ends {mem : Nat → BitVec 8} (h : d.mem .pciHdr = mem) (vars : BitVec 64 × BitVec 32) (k : Nat) :
    Ends (fun vars' d' =>
        (∃ tmpValue : BitVec 32, vars'.1 = vars.1 ||| (b.shl32 tmpValue (k * dwordLen * 8)).setWidth 64) ∧
        d'.mem .pciHdr = mem ∧ d'.lastRead reg = some mem) (fun _ _ => False) (do
      let value ← readPart reg (part t reg dwordLen k)
      let tmpValue := intoTmpValue dwordLen vars.2 value
      return (vars.1 ||| (b.shl32 tmpValue (k * dwordLen * 8)).setWidth 64, tmpValue)) d := by
  subst h
  refine Ends.bind (Q := fun _ d' => d' = d.saw .pciHdr reg) (Ends.get_bind (Ends.set_bind (Ends.pure rfl))) ?_
  rintro _ _ rfl
  exact Ends.pure ⟨⟨_, rfl⟩, rfl, d.lastRead_saw_self .pciHdr reg⟩

/-- Every part of a wide register is read. -/
theorem readWide_ends (hlen : AccessLen dwordLen) (hsize : (t.pciMetrics reg).size > maxSupportedRegSize)
    (tmpValue : BitVec 32) : Ends (fun _ d' => d'.lastRead reg = some (d.mem .pciHdr)) (fun _ _ => False)
      (readWide b dwordLen t reg tmpValue) d := by
  let I (_ : BitVec 64 × BitVec 32) (d' : IoSpaces PciSpc) : Prop := d'.mem .pciHdr = d.mem .pciHdr
  let P (vars : BitVec 64 × BitVec 32) (d' : IoSpaces PciSpc) : Prop :=
    I vars d' ∧ d'.lastRead reg = some (d.mem .pciHdr)
  have hpass (vars : BitVec 64 × BitVec 32) (k : Nat) (d' : IoSpaces PciSpc) (h : I vars d') :
      Ends P (fun _ _ => False) (do
      let value ← readPart reg (part t reg dwordLen k)
      let tmpValue := intoTmpValue dwordLen vars.2 value
      return (vars.1 ||| (b.shl32 tmpValue (k * dwordLen * 8)).setWidth 64, tmpValue)) d' :=
    (readWord_ends h vars k).mono (fun _ _ h => h.2) fun _ _ h => h
  refine (Ends.foldlM_of_mem (I := I) (P := P) (mem_partsOf hlen (show 0 * dwordLen ≤ 8 by omega) hsize)
    (fun k _ vars d' h => ?_) (fun vars d' h => hpass vars 0 d' h) (fun k _ vars d' h => hpass vars k d' h.1) rfl).mono
    (fun _ _ h => h.2) fun _ _ h => h
  exact (hpass vars k d' h).mono (fun _ _ h => h.1) fun _ _ h => h

/-- A part that is not good is written. -/
theorem writeWide_of_part (hlen : AccessLen dwordLen) (hsize : (t.pciMetrics reg).size > maxSupportedRegSize)
    {mem : Nat → BitVec 8} (hlast : d.lastRead reg = some mem) {value : BitVec 64} {k : Nat} (hk : k * dwordLen ≤ 8)
    (hbad : ∀ d' : IoSpaces PciSpc, d'.lastRead reg = some mem → ¬(d'.wrote reg (k * dwordLen * 8)
      (part t reg dwordLen k) (((b.shr64 value (k * dwordLen * 8)).setWidth 32).setWidth 64)).Good (maskRO t)) :
    Ends (fun _ d' => ¬d'.Good (maskRO t)) (fun _ d' => ¬d'.Good (maskRO t)) (writeWide b dwordLen t reg value) d := by
  refine Ends.foldlM_of_mem (I := fun _ d' => d'.lastRead reg = some mem) (mem_partsOf hlen hk hsize)
    (fun k _ _ d' h => ?_) (fun _ d' h => ?_) (fun k _ _ d' h => ?_) hlast
  · exact Ends.bind (Ends.get_bind (Ends.set (Q := fun _ d' => IoSpaces.lastRead d' reg = some mem) h))
      fun _ _ h => Ends.pure h
  · exact Ends.bind (Ends.get_bind (Ends.set (Q := fun _ d' => ¬IoSpaces.Good d' (maskRO t)) (hbad d' h)))
      fun _ _ h => Ends.pure h
  · exact Ends.bind (writePart_kept kept_not_good h reg _ _ _) fun _ _ h => Ends.pure h

/-- Behind 8 bytes a part becomes what a shift makes of it that is undefined, and no bit of it is in the mask. -/
theorem writeWide_ends (hlen : AccessLen dwordLen) (hsize : (t.pciMetrics reg).size > maxSupportedRegSize)
    {mem : Nat → BitVec 8} (hlast : d.lastRead reg = some mem) (value : BitVec 64) :
    Ends (fun _ d' => ¬d'.Good (maskRO t)) (fun _ d' => ¬d'.Good (maskRO t))
      (writeWide (against (ninth dwordLen t mem reg)) dwordLen t reg value) d := by
  have height : 8 / dwordLen * dwordLen = 8 := by rcases hlen with rfl | rfl | rfl <;> rfl
  refine writeWide_of_part hlen hsize hlast (Nat.le_of_eq height) fun d' h hgood => ?_
  obtain ⟨last, hlast, hbits⟩ := hgood _ (List.mem_append_right _ (List.mem_singleton.2 rfl))
  obtain rfl : ninth dwordLen t mem reg = last := Option.some.inj ((congrArg (Option.map _) h).symm.trans hlast)
  have hdiff : (((against (ninth dwordLen t mem reg)).shr64 value (8 / dwordLen * dwordLen * 8)).setWidth 32
      |>.setWidth 64).getLsbD 0 ≠ (ninth dwordLen t mem reg).getLsbD 0 := by
    rw [height]
    simp [Beyond.shr64, against]
  have hmask := hbits 0 (Nat.mul_pos (by decide) (accessLen_pos hlen)) hdiff
  rw [BitVec.getLsbD_of_ge _ _ (by dsimp only; omega)] at hmask
  exact Bool.false_ne_true hmask

/-- What writing a wide register spoils stays so to the end of the pass. -/
theorem visitCap_of_write {b : Beyond} {I : BitVec 64 → IoSpaces PciSpc → Prop} (hsize : (Visit.cap reg).Wide t)
    {tmpValue : BitVec 32}
    (hread : Ends (fun vars => I vars.1) (fun _ _ => False) (readWide b dwordLen t reg tmpValue) d)
    (hwrite : ∀ origValue d', I origValue d' → Ends (fun _ d' => ¬d'.Good (maskRO t)) (fun _ d' => ¬d'.Good (maskRO t))
      (writeWide b dwordLen t reg (origValue ||| maskRO t reg)) d') :
    Ends (fun _ d' => ¬d'.Good (maskRO t)) (fun _ d' => ¬d'.Good (maskRO t))
      (visitCap b dwordLen t reg tmpValue) d := by
  have hwide : (t.pciMetrics reg).size > maxSupportedRegSize := hsize
  refine Ends.bind (Q := fun _ d' => ¬d'.Good (maskRO t)) ?_ fun ones d' h =>
    Ends.bind (rewriteCap_kept kept_not_good h reg _ ones.2) fun _ _ h => Ends.pure h
  unfold rewriteCap readCap writeCap
  rw [if_pos hwide]
  refine Ends.bind (hread.mono (fun _ _ h => h) fun _ _ h => h.elim) fun vars d' h => ?_
  rw [if_pos hwide]
  refine Ends.bind (hwrite vars.1 d' h) fun _ _ h => ?_
  exact Ends.bind (validateCap_kept kept_not_good h reg) fun _ _ h => Ends.pure h

theorem visitCap_wide (hlen : AccessLen dwordLen) (hsize : (Visit.cap reg).Wide t) (tmpValue : BitVec 32) :
    Ends (fun _ d' => ¬d'.Good (maskRO t)) (fun _ d' => ¬d'.Good (maskRO t))
      (visitCap (against (ninth dwordLen t (d.mem .pciHdr) reg)) dwordLen t reg tmpValue) d :=
  visitCap_of_write (I := fun _ d' => d'.lastRead reg = some (d.mem .pciHdr)) hsize
    (readWide_ends hlen hsize tmpValue) fun _ _ h => writeWide_ends hlen hsize h _

/-- A machine that makes ones of every shift of 32 bits that is undefined. -/
def filling : Beyond := ⟨fun _ _ => BitVec.allOnes 32, fun x _ => x, 0⟩

theorem readWide_filling (hlen : AccessLen dwordLen) (hsize : (t.pciMetrics reg).size > maxSupportedRegSize)
    (tmpValue : BitVec 32) {i : Nat} (hi : i < 32) :
    Ends (fun vars d' => vars.1.getLsbD i = true ∧ d'.lastRead reg = some (d.mem .pciHdr)) (fun _ _ => False)
      (readWide filling dwordLen t reg tmpValue) d := by
  let I (_ : BitVec 64 × BitVec 32) (d' : IoSpaces PciSpc) : Prop := d'.mem .pciHdr = d.mem .pciHdr
  let P (vars : BitVec 64 × BitVec 32) (d' : IoSpaces PciSpc) : Prop :=
    I vars d' ∧ vars.1.getLsbD i = true ∧ d'.lastRead reg = some (d.mem .pciHdr)
  have hfour : 4 / dwordLen * dwordLen = 4 := by rcases hlen with rfl | rfl | rfl <;> rfl
  refine (Ends.foldlM_of_mem (I := I) (P := P)
    (mem_partsOf hlen (show 4 / dwordLen * dwordLen ≤ 8 by omega) hsize)
    (fun k _ vars d' h => ?_) (fun vars d' h => ?_) (fun k _ vars d' h => ?_) rfl).mono
    (fun _ _ h => h.2) fun _ _ h => h
  · exact (readWord_ends h vars k).mono (fun _ _ h => h.2.1) fun _ _ h => h
  · refine (readWord_ends h vars (4 / dwordLen)).mono (fun vars' d'' hread => ⟨hread.2.1, ?_, hread.2.2⟩) fun _ _ h => h
    have hshift (x : BitVec 32) : filling.shl32 x (4 / dwordLen * dwordLen * 8) = BitVec.allOnes 32 :=
      if_neg (by rw [hfour]; decide)
    obtain ⟨tmpValue, hvars⟩ := hread.1
    rw [hvars, hshift, BitVec.getLsbD_or, BitVec.getLsbD_setWidth, BitVec.getLsbD_allOnes, decide_eq_true hi,
      decide_eq_true (Nat.lt_trans hi (show 32 < 64 by decide)), Bool.true_and, Bool.or_true]
  · refine (readWord_ends h.1 vars k).mono (fun vars' d'' hread => ⟨hread.2.1, ?_, hread.2.2⟩) fun _ _ h => h
    obtain ⟨tmpValue, hvars⟩ := hread.1
    rw [hvars, BitVec.getLsbD_or, h.2.1, Bool.true_or]

/-- Even in the first part of a wide register a bit may be set that is clear and not in the mask. -/
theorem visitCap_first_word (hlen : AccessLen dwordLen) (hsize : (Visit.cap reg).Wide t) (tmpValue : BitVec 32)
    {i : Nat} (hi : i < 8 * dwordLen) (hmask : (maskRO t reg).getLsbD i = false)
    (hclear : (Bytes.load 64 (d.mem .pciHdr) (part t reg dwordLen 0).offset dwordLen).getLsbD i = false) :
    Ends (fun _ d' => ¬d'.Good (maskRO t)) (fun _ d' => ¬d'.Good (maskRO t))
      (visitCap filling dwordLen t reg tmpValue) d := by
  have h32 : i < 32 := by rcases hlen with rfl | rfl | rfl <;> omega
  refine visitCap_of_write (I := fun value d' => value.getLsbD i = true ∧ d'.lastRead reg = some (d.mem .pciHdr)) hsize
    (readWide_filling hlen hsize tmpValue h32) fun origValue d' h => ?_
  refine writeWide_of_part hlen hsize h.2 (show 0 * dwordLen ≤ 8 by omega) fun d'' hlast hgood => ?_
  obtain ⟨last, hlast', hbits⟩ := hgood _ (List.mem_append_right _ (List.mem_singleton.2 rfl))
  obtain rfl : Bytes.load 64 (d.mem .pciHdr) (part t reg dwordLen 0).offset dwordLen = last :=
    Option.some.inj ((congrArg (Option.map _) hlast).symm.trans hlast')
  have hset : (((filling.shr64 (origValue ||| maskRO t reg) (0 * dwordLen * 8)).setWidth 32).setWidth 64).getLsbD i =
      true := by
    simp [Beyond.shr64, h.1, h32, Nat.lt_trans h32 (show 32 < 64 by decide)]
  have hbit := hbits i hi fun heq => Bool.false_ne_true (hclear.symm.trans (heq.symm.trans hset))
  rw [show 0 * dwordLen * 8 + i = i by simp] at hbit
  exact Bool.false_ne_true (hmask.symm.trans hbit)

/-- Only wide registers are shifted. -/
theorem visit_eq (hsize : ¬v.Wide t) (b b' : Beyond) (vars : Bool × BitVec 32) :
    visit b dwordLen t vars v = visit b' dwordLen t vars v := by
  cases v with
  | hdr reg => rfl
  | cap reg =>
    have hrewrite (change : BitVec 64 → BitVec 64) (tmpValue : BitVec 32) :
        rewriteCap b dwordLen t reg change tmpValue = rewriteCap b' dwordLen t reg change tmpValue := by
      have hread (b : Beyond) (tmpValue : BitVec 32) : readCap b dwordLen t reg tmpValue = (do
          let value ← read t reg
          return (value, tmpValue)) := if_neg hsize
      have hwrite (b : Beyond) (value : BitVec 64) (tmpValue : BitVec 32) :
          writeCap b dwordLen t reg value tmpValue = (do
            write t reg value
            return tmpValue) := if_neg hsize
      unfold rewriteCap
      simp only [hread, hwrite]
    simp only [visit, visitCap, hrewrite]

theorem visits_eq {vs : List Visit} (hsize : ∀ v ∈ vs, ¬v.Wide t) (b b' : Beyond) (vars : Bool × BitVec 32) :
    vs.foldlM (visit b dwordLen t) vars = vs.foldlM (visit b' dwordLen t) vars := by
  induction vs generalizing vars with
  | nil => rw [List.foldlM_nil, List.foldlM_nil]
  | cons v vs ih =>
    rw [List.foldlM_cons, List.foldlM_cons, visit_eq (hsize v List.mem_cons_self) b b']
    exact bind_congr fun vars' => ih (fun w hw => hsize w (List.mem_cons_of_mem _ hw)) vars'

/-- **Once a wide register is reached, there are machines on which bits are changed that are not in the mask.** -/
theorem exists_altered (hlen : AccessLen dwordLen) {vs : List Visit} (hstops : ¬Stops t vs)
    (hgood : d.Good (maskRO t)) :
    ∃ b, Ends (fun _ d' => ¬d'.Good (maskRO t)) (fun _ d' => ¬d'.Good (maskRO t))
      (vs.foldlM (visit b dwordLen t) (true, b.uninitialized)) d := by
  obtain ⟨v, hstop⟩ := not_forall.1 hstops
  obtain ⟨hfind, hwide⟩ := Classical.not_imp.1 hstop
  rw [not_not] at hwide
  obtain ⟨-, pre, post, rfl, hpre⟩ := List.find?_eq_some_iff_append.1 hfind
  have hpass : ∀ v ∈ pre, v.Passes t := fun v hv => by simpa using hpre v hv
  have hprefix : Ends (fun _ d' => d'.Good (maskRO t)) (fun _ _ => False)
      (pre.foldlM (visit (against 0) dwordLen t) (true, 0)) d :=
    Ends.foldlM (I := fun _ d' => d'.Good (maskRO t)) (fun v hv vars d' hgood' =>
      (visit_ends (hpass v hv).not_wide hgood' vars).mono (fun _ _ h => h.1) fun _ _ h => h.2 (hpass v hv)) hgood
  obtain ⟨vars, -, hreaches⟩ := hprefix.exists_ok
  cases v with
  | hdr reg => exact absurd hwide id
  | cap reg =>
    let d' := ((pre.foldlM (visit (against 0) dwordLen t) (true, 0)).run.run d).2
    refine ⟨against (ninth dwordLen t (d'.mem .pciHdr) reg), ?_⟩
    rw [List.foldlM_append, visits_eq (fun v hv => (hpass v hv).not_wide) _ (against 0)]
    refine Ends.bind (hreaches.mono (fun _ _ h => h) fun _ _ h => h.elim) ?_
    rintro _ _ ⟨rfl, rfl⟩
    rw [List.foldlM_cons]
    refine Ends.bind (Q := fun _ d' => ¬d'.Good (maskRO t))
      (Ends.bind (visitCap_wide hlen hwide _) fun _ _ h => Ends.pure h) fun vars' d' h => ?_
    exact Ends.foldlM (I := fun _ d' => ¬IoSpaces.Good d' (maskRO t))
      (fun v _ vars d' h => visit_kept kept_not_good h vars v) h

end Wide

/-- Whatever the machine makes of what is undefined, only bits that are read-only are changed. -/
def OnlyRO (dwordLen : Nat) (t : RoTables) (pciCap : List PciCapabilities) (mSpecRev : SpecRev)
    (mem : NvmeIoSpace → Nat → BitVec 8) : Prop :=
  ∀ b, ((validateROBitsAfterWriting b dwordLen t pciCap mSpecRev).run.run (IoSpaces.start mem)).2.Good (maskRO t)

theorem good_start (mem : NvmeIoSpace → Nat → BitVec 8) : (IoSpaces.start mem).Good (maskRO t) :=
  fun _ hw => absurd hw List.not_mem_nil

theorem onlyRO_iff_stops (hlen : AccessLen dwordLen) (t : RoTables) (pciCap : List PciCapabilities)
    (mSpecRev : SpecRev) (mem : NvmeIoSpace → Nat → BitVec 8) :
    OnlyRO dwordLen t pciCap mSpecRev mem ↔ Stops t (visits t pciCap mSpecRev) := by
  constructor
  · intro h
    by_contra hstops
    obtain ⟨b, hb⟩ := exists_altered hlen hstops (good_start mem)
    exact Ends.state (P := fun d : IoSpaces PciSpc => ¬d.Good (maskRO t))
      (Ends.bind hb fun _ _ h => Ends.pure h) (h b)
  · exact fun hstops b => Ends.state (P := fun d : IoSpaces PciSpc => d.Good (maskRO t))
      (Ends.bind (visits_ends _ hstops (good_start mem) _) fun _ _ h => Ends.pure h)

end AllPciRegs

/-! ## The registers of the controller -/

namespace AllCtrlRegs

abbrev Run := Eff (RoException CtlSpc) (IoSpaces CtlSpc)

variable (t : RoTables)

def read (reg : CtlSpc) : Run (BitVec 64) := readOrThrow .bar01 (t.regs.readCtlSpc · reg) reg

def write (reg : CtlSpc) (value : BitVec 64) : Run PUnit := writeOrThrow (t.regs.writeCtlSpc · reg) reg value

def part (reg : CtlSpc) (nBytes k : Nat) : RwGeneric :=
  ⟨.bar01, ((t.ctlMetrics reg).offset + k * nBytes) % 2 ^ 16, nBytes, RegTables.sizeAcc .bar01 nBytes⟩

/-- The bits that are read-only hold their default values, or it throws. -/
def compare (reg : CtlSpc) (value : BitVec 64) : Run PUnit := do
  let value := value &&& ~~~(t.ctlMetrics reg).impSpec &&& (t.ctlMetrics reg).maskRO
  let expectedValue := (t.ctlMetrics reg).dfltValue &&& (t.ctlMetrics reg).maskRO
  if value ≠ expectedValue then throw (.incorrect reg value expectedValue)

def validateCtlRegisterROAttribute (reg : CtlSpc) : Run PUnit := do
  if (t.ctlMetrics reg).size > maxSupportedRegSize then
    (partsOf 8 (t.ctlMetrics reg).size).foldlM (fun _ k => do
      let value ← readPart reg (part t reg 8 k)
      compare t reg value) ⟨⟩
  else
    let value ← read t reg
    compare t reg value

/-- The body of the loop. -/
def visit (reg : CtlSpc) : Run PUnit := do
  let origValue ← read t reg
  write t reg (origValue ||| (t.ctlMetrics reg).maskRO)
  validateCtlRegisterROAttribute t reg
  write t reg (origValue &&& ~~~(t.ctlMetrics reg).maskRO)
  validateCtlRegisterROAttribute t reg

/-- The registers that the revision of the test has and that are not reserved. -/
def rows (mSpecRev : SpecRev) : List CtlSpc :=
  CtlSpc.all.filter fun reg => (t.ctlMetrics reg).specRev.contains mSpecRev && reg ≠ .res1 && reg ≠ .res2 &&
    reg ≠ .res3

def validateROBitsAfterWriting (mSpecRev : SpecRev) : Run PUnit :=
  (rows t mSpecRev).foldlM (fun _ reg => visit t reg) ⟨⟩

/-- The register can be accessed; the revision is looked for in the table of the PCI space. -/
def Known (reg : CtlSpc) : Prop :=
  Accessible t (t.pciMetrics reg.toPciSpc).specRev (t.ctlMetrics reg).toRegMetrics

variable {t} {reg : CtlSpc} {d : IoSpaces CtlSpc}

def maskRO (t : RoTables) (reg : CtlSpc) : BitVec 64 := (t.ctlMetrics reg).maskRO

theorem readCtlSpc_eq (drv : GenericDriver) : t.regs.readCtlSpc drv reg =
    if !t.regs.validSpecRev (t.pciMetrics reg.toPciSpc).specRev then ([], none)
    else RegTables.readReg drv .bar01 (t.ctlMetrics reg).size (t.ctlMetrics reg).offset := rfl

theorem writeCtlSpc_eq (drv : GenericDriver) (value : Nat) : t.regs.writeCtlSpc drv reg value =
    if !t.regs.validSpecRev (t.pciMetrics reg.toPciSpc).specRev then ([], false)
    else RegTables.writeReg drv .bar01 (t.ctlMetrics reg).size (t.ctlMetrics reg).offset value := rfl

theorem validate_ends (hknown : Known t reg) :
    Ends (fun _ d' => Seen .bar01 reg d d' ∧ True) (fun _ d' => d'.writes = d.writes ∧ True)
      (validateCtlRegisterROAttribute t reg) d := by
  unfold validateCtlRegisterROAttribute
  rw [if_neg (Nat.not_lt.2 hknown.2.2)]
  refine Ends.bind (readOrThrow_ends (Q := fun _ => Seen .bar01 reg d) readCtlSpc_eq
    (fun _ => seen_saw .bar01 reg d) fun h => absurd hknown h) fun value d' hseen => ?_
  unfold compare
  dsimp only
  split
  · exact Ends.throw ⟨hseen.writes, trivial⟩
  · exact Ends.pure ⟨hseen, trivial⟩

/-- The body of the loop changes only bits of the mask, whether it throws or not. -/
theorem visit_ends (hgood : d.Good (maskRO t)) :
    Ends (fun _ d' => d'.Good (maskRO t)) (fun _ d' => d'.Good (maskRO t)) (visit t reg) d := by
  refine ones_zeros_ends (maskRO t) (validateCtlRegisterROAttribute t reg)
    (fun _ => validateCtlRegisterROAttribute t reg) readCtlSpc_eq writeCtlSpc_eq
    (fun hknown d => validate_ends hknown)
    (fun hknown _ _ d' hgood' => ?_) (fun _ _ hgood' _ => hgood') hgood
  exact (validate_ends hknown).mono (fun _ _ h w hw => hgood' w (h.1.writes ▸ hw)) fun _ _ h w hw =>
    hgood' w (h.1 ▸ hw)

/-- Only bits that are read-only are changed. -/
def OnlyRO (t : RoTables) (mSpecRev : SpecRev) (mem : NvmeIoSpace → Nat → BitVec 8) : Prop :=
  ((validateROBitsAfterWriting t mSpecRev).run.run (IoSpaces.start mem)).2.Good (maskRO t)

theorem onlyRO (t : RoTables) (mSpecRev : SpecRev) (mem : NvmeIoSpace → Nat → BitVec 8) : OnlyRO t mSpecRev mem :=
  Ends.state (P := fun d : IoSpaces CtlSpc => d.Good (maskRO t)) (Ends.foldlM
    (I := fun _ d => IoSpaces.Good d (maskRO t)) (fun _ _ _ _ h => visit_ends h) fun _ hw => absurd hw List.not_mem_nil)

end AllCtrlRegs

/-! ## Both tests -/

namespace AllRegs

/-- **Both tests change only bits that are read-only exactly if the first register of the PCI space that is not passed
is not a wide one of a capability.** -/
theorem onlyRO_iff {dwordLen : Nat} (hlen : AccessLen dwordLen) (t : RoTables) (pciCap : List PciCapabilities)
    (mSpecRev : SpecRev) (mem : NvmeIoSpace → Nat → BitVec 8) :
    AllPciRegs.OnlyRO dwordLen t pciCap mSpecRev mem ∧ AllCtrlRegs.OnlyRO t mSpecRev mem ↔
      AllPciRegs.Stops t (AllPciRegs.visits t pciCap mSpecRev) := by
  rw [AllPciRegs.onlyRO_iff_stops hlen]
  exact and_iff_left (AllCtrlRegs.onlyRO t mSpecRev mem)

theorem wide_of_tables (reg : PciSpc) (hsize : reg.metrics.size > maxSupportedRegSize) (hne : reg ≠ .res1) :
    reg.metrics.cap = some .aercap := by
  revert hsize hne
  cases reg <;> decide

/-- With the tables of the repository only the capability of advanced error reporting has wide registers that are
written. -/
theorem stops_of_not_aer (regs : Registers) (rev mSpecRev : SpecRev) {pciCap : List PciCapabilities}
    (haer : .aercap ∉ pciCap) :
    AllPciRegs.Stops (regs.tables rev) (AllPciRegs.visits (regs.tables rev) pciCap mSpecRev) := by
  intro v hfind hwide
  rcases List.mem_append.1 (List.mem_of_find?_eq_some hfind) with hv | hv
  · obtain ⟨reg, -, rfl⟩ := List.mem_map.1 hv
    exact hwide
  · obtain ⟨cap, hcap, hv⟩ := List.mem_flatMap.1 hv
    obtain ⟨reg, hreg, rfl⟩ := List.mem_map.1 hv
    obtain ⟨-, hrow⟩ := List.mem_filter.1 hreg
    simp only [Bool.and_eq_true, decide_eq_true_eq] at hrow
    have hsome := hrow.2.symm.trans (wide_of_tables reg hwide hrow.1.2)
    exact haer (Option.some.inj hsome ▸ hcap)

theorem onlyRO_of_not_aer {dwordLen : Nat} (hlen : AccessLen dwordLen) (regs : Registers) (rev mSpecRev : SpecRev)
    (mem : NvmeIoSpace → Nat → BitVec 8) (haer : .aercap ∉ regs.mPciCap) :
    AllPciRegs.OnlyRO dwordLen (regs.tables rev) regs.mPciCap mSpecRev mem :=
  (AllPciRegs.onlyRO_iff_stops hlen _ _ _ _).2 (stops_of_not_aer regs rev mSpecRev haer)

/-- A device of which only the capability of advanced error reporting is discovered. -/
def aerSpace : PciSpace := ⟨fun a => if a = 0x100 then 1 else 0, fun _ _ => true⟩

/-- A device that lists its power management, and nothing else. -/
def pmListed : PciSpace where
  byte := fun offset =>
    match offset with
    | 0x06 => 0x10
    | 0x34 => 0x40
    | 0x40 => 0x01
    | _ => 0
  readable := fun _ _ => true

def pmRegisters : Registers := (Registers.init.discover pmListed 1).getD .init

/-- On that device both tests change only bits that are read-only. -/
theorem onlyRO_pm : pmRegisters.mPciCap = [.pmcap] ∧
    AllPciRegs.OnlyRO 4 (pmRegisters.tables .rev10b) pmRegisters.mPciCap .rev10b (fun _ _ => 0) ∧
    AllCtrlRegs.OnlyRO (pmRegisters.tables .rev10b) .rev10b fun _ _ => 0 :=
  ⟨by decide, (onlyRO_iff (.inr (.inr rfl)) _ pmRegisters.mPciCap .rev10b _).2
    (stops_of_not_aer pmRegisters .rev10b .rev10b (by decide))⟩

/-- The header log of that device is 16 bytes wide. -/
theorem not_onlyRO : ¬∀ (dwordLen : Nat), AccessLen dwordLen → ∀ (t : RoTables) (pciCap : List PciCapabilities)
    (mSpecRev : SpecRev) (mem : NvmeIoSpace → Nat → BitVec 8),
      AllPciRegs.OnlyRO dwordLen t pciCap mSpecRev mem ∧ AllCtrlRegs.OnlyRO t mSpecRev mem := by
  intro h
  let regs := Registers.init.extended aerSpace
  have honly := (h 4 (.inr (.inr rfl)) (regs.tables .rev10b) regs.mPciCap .rev10b fun _ _ => 0).1
  rw [AllPciRegs.onlyRO_iff_stops (.inr (.inr rfl))] at honly
  exact honly (.cap .aerhl) (by decide) (by decide)

end AllRegs

end Tnvme
