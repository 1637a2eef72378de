import Tnvme.Drv.Driver

/-!
# `KernelAPI`

The mapping of kernel memory. The offset of a mapping encodes the region and the ID, which has come through a
`uint16_t`.
-/

namespace Tnvme

/-- `METADATA_UNIQUE_ID_BITS` -/
def metadataUniqueIdBits : Nat := 18

namespace KernelAPI

variable (drv : Driver)

/-- The parameter `bufID` is a `uint16_t`. -/
def encodeOffset (bufID : Nat) (region : MmapRegion) : Nat :=
  (bufID % 2 ^ 16 ||| region.toNat <<< metadataUniqueIdBits) * drv.pageSize

def mmap (log : List Call) (bufLength bufID : Nat) (region : MmapRegion) : Ptr :=
  match drv.mmap log bufLength (encodeOffset drv bufID region) with
  | some addr => .mem addr
  | none => .mapFailed

/-- The log after a mapping. -/
def mmapLog (log : List Call) (bufLength bufID : Nat) (region : MmapRegion) : List Call :=
  log ++ [.mmap bufLength bufID region (mmap drv log bufLength bufID region)]

/-- The log after an unmapping. -/
def munmapLog (log : List Call) (memPtr : Ptr) (bufLength : Nat) : List Call := log ++ [.munmap memPtr bufLength]

/-- `mmap(2)` never gives `NULL`: it gives a usable address or `MAP_FAILED`. -/
theorem mmap_ne_null (log : List Call) (bufLength bufID : Nat) (region : MmapRegion) :
    mmap drv log bufLength bufID region ≠ .null := by
  unfold mmap
  split <;> simp

variable {drv} in
/-- An offset determines its region and the low 16 bits of its ID. -/
theorem encodeOffset_eq_iff {i j : Nat} {region region' : MmapRegion} :
    encodeOffset drv i region = encodeOffset drv j region' ↔ region = region' ∧ i % 2 ^ 16 = j % 2 ^ 16 := by
  have hsum : ∀ (k : Nat) (r : MmapRegion), k % 2 ^ 16 ||| r.toNat <<< metadataUniqueIdBits =
      r.toNat * 2 ^ 18 + k % 2 ^ 16 := by
    intro k r
    rw [Nat.or_comm, metadataUniqueIdBits, ← Nat.shiftLeft_add_eq_or_of_lt (by omega), Nat.shiftLeft_eq]
  unfold encodeOffset
  rw [hsum, hsum]
  constructor
  · intro h
    have h' := Nat.eq_of_mul_eq_mul_right drv.pageSize_pos h
    have hreg : region.toNat = region'.toNat := by omega
    refine ⟨?_, by omega⟩
    cases region <;> cases region' <;> first | rfl | cases hreg
  · rintro ⟨rfl, h⟩
    rw [h]

end KernelAPI

end Tnvme
