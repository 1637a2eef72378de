import Mathlib.Data.List.InsertIdx
import Mathlib.Data.Set.Function
import Tnvme.Queues.Mapping

/-!
# Offsets of mappings

The ID of a mapping is cut to 16 bits, but the IDs of the meta data buffers have 18. So the offsets tell the mapped
objects apart exactly as long as no two meta IDs agree in their low 16 bits (`offsets_apart_iff`), and every ID of 18
bits is handed out sooner or later (`meta_mem_passed_iff`).
-/

namespace Tnvme

/-- A call that can occur: the IDs of queues are `uint16_t`, and the store has come out of its operations. -/
def MapCall.Possible (drv : Driver) : MapCall → Prop
  | cqInit qId _ _ _ _ _ _ => qId < 2 ^ 16
  | sqInit qId _ _ _ _ _ => qId < 2 ^ 16
  | reserveMetaBuf _ s => ∃ ops, s = Runs.run (MetaRsrc.step drv) MetaRsrc.init ops

/-- The pairs that the calls pass to `KernelAPI::mmap`. -/
def passed : Set (MmapRegion × Nat) := {p | ∃ drv c buf, MapCall.Possible drv c ∧ c.Maps drv p.1 p.2 buf}

def offset (drv : Driver) (p : MmapRegion × Nat) : Nat := KernelAPI.encodeOffset drv p.2 p.1

/-- Different pairs have different offsets, and a pair can be recovered from its offset. -/
def OffsetsApart (drv : Driver) (S : Set (MmapRegion × Nat)) : Prop :=
  Set.InjOn (offset drv) S ∧ ∃ decode, Set.LeftInvOn decode (offset drv) S

/-! ## The pairs that are passed -/

theorem lt_of_mem_passed {p : MmapRegion × Nat} (hp : p ∈ passed) :
    p.2 < if p.1 = .mmrMeta then 2 ^ metadataUniqueIdBits else 2 ^ 16 := by
  obtain ⟨drv, c, buf, hc, hmaps⟩ := hp
  cases mapStep drv c with
  | unmapped t hlog ht => exact absurd hmaps (maps_of_unmapped hlog ht)
  | mapped t bufLength buf' hlog ht _ _ _ hmeta =>
    obtain ⟨hregion, hID, _⟩ := (maps_iff_of_mapped hlog ht).1 hmaps
    rw [hregion, hID]
    cases c with
    | cqInit qId _ _ _ _ _ _ => exact hc
    | sqInit qId _ _ _ _ _ => exact hc
    | reserveMetaBuf metaBuf s => exact hmeta rfl

/-- A store from which `n` buffers have been reserved. -/
def reservedStore (n : Nat) : MetaRsrc := Runs.run (MetaRsrc.step MetaRsrc.grantingDriver) MetaRsrc.init
  (.setMetaAllocSize 512 :: List.replicate n (.reserveMetaBuf .default))

theorem reservedStore_succ (n : Nat) :
    reservedStore (n + 1) = ((reservedStore n).reserveMetaBuf MetaRsrc.grantingDriver .default).1 := by
  rw [reservedStore, List.replicate_succ', ← List.cons_append, Runs.run_append]
  rfl

/-- With a driver that grants everything, reservations get the IDs from 0 on. -/
theorem reservedStore_spec (n : Nat) (hn : n ≤ 2 ^ metadataUniqueIdBits) :
    (reservedStore n).mMetaReserved.map MetaDataBuf.ID = List.range' 0 n ∧ (reservedStore n).mMetaReleased = [] := by
  induction n with
  | zero => exact ⟨rfl, rfl⟩
  | succ n ih =>
    obtain ⟨hres, hrel⟩ := ih (by omega)
    have hgap := SortedKeys.gap_of_range' hres
    rw [Nat.zero_add] at hgap
    obtain ⟨buf, hs'⟩ := MetaRsrc.reserveMetaBuf_granted MetaRsrc.grantingDriver .default hrel
      (by rw [hgap]; exact hn) (Int.le_refl 0)
    have hend : (List.range' 0 n).insertIdx n n = List.range' 0 n ++ [n] := by
      simpa using List.insertIdx_length_self (l := List.range' 0 n) (x := n)
    rw [reservedStore_succ, hs', hgap]
    refine ⟨?_, hrel⟩
    simp only
    rw [List.map_insertIdx, hres, hend, List.range'_concat]
    simp

/-- **Every ID of 18 bits is passed for a meta data buffer.** -/
theorem meta_mem_passed_iff (ID : Nat) : (.mmrMeta, ID) ∈ passed ↔ ID < 2 ^ metadataUniqueIdBits := by
  refine ⟨fun h => by simpa using lt_of_mem_passed h, fun h => ?_⟩
  obtain ⟨hres, hrel⟩ := reservedStore_spec ID (Nat.le_of_lt h)
  have hgap := SortedKeys.gap_of_range' hres
  rw [Nat.zero_add] at hgap
  obtain ⟨buf, hs'⟩ := MetaRsrc.reserveMetaBuf_granted MetaRsrc.grantingDriver .default hrel
    (by rw [hgap]; exact h) (Int.le_refl 0)
  refine ⟨MetaRsrc.grantingDriver, .reserveMetaBuf .default (reservedStore ID), buf, ⟨_, rfl⟩,
    (reservedStore ID).mMetaAllocSize, ?_⟩
  simp [MapCall.run, MapCall.log, hs', hgap, Driver.ioctlLog]

/-! ## The offsets -/

theorem injOn_offset_iff (drv : Driver) (S : Set (MmapRegion × Nat)) :
    Set.InjOn (offset drv) (S ∩ passed) ↔ ∀ i j, (.mmrMeta, i) ∈ S ∩ passed → (.mmrMeta, j) ∈ S ∩ passed →
      i % 2 ^ 16 = j % 2 ^ 16 → i = j := by
  constructor
  · intro h i j hi hj hij
    exact (Prod.mk.inj (h hi hj (KernelAPI.encodeOffset_eq_iff.2 ⟨rfl, hij⟩))).2
  · rintro h ⟨region, i⟩ hi ⟨region', j⟩ hj heq
    obtain ⟨hregion, hij⟩ := KernelAPI.encodeOffset_eq_iff.1 heq
    simp only at hregion hij
    subst hregion
    have hi' := lt_of_mem_passed hi.2
    have hj' := lt_of_mem_passed hj.2
    cases region with
    | mmrMeta => rw [h i j hi hj hij]
    | mmrCQ => simp at hi' hj'; congr 1; omega
    | mmrSQ => simp at hi' hj'; congr 1; omega

/-- **Offsets tell passed pairs apart exactly as long as no two meta IDs among them agree in their low 16 bits.** -/
theorem offsets_apart_iff (drv : Driver) (S : Set (MmapRegion × Nat)) :
    OffsetsApart drv (S ∩ passed) ↔ ∀ i j, (.mmrMeta, i) ∈ S ∩ passed → (.mmrMeta, j) ∈ S ∩ passed →
      i % 2 ^ 16 = j % 2 ^ 16 → i = j := by
  rw [← injOn_offset_iff drv S]
  refine ⟨fun h => h.1, fun h => ⟨h, ?_⟩⟩
  have : Nonempty (MmapRegion × Nat) := ⟨(.mmrCQ, 0)⟩
  exact ⟨_, h.leftInvOn_invFunOn⟩

/-- The meta data buffers 0 and 65536 are mapped at one offset. -/
theorem meta_offsets_collide : ¬OffsetsApart MetaRsrc.grantingDriver passed := by
  intro h
  have heq := h.1 ((meta_mem_passed_iff 0).2 (by decide)) ((meta_mem_passed_iff 65536).2 (by decide)) (by decide)
  exact absurd heq (by decide)

end Tnvme
