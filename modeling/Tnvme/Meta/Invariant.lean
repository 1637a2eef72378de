import Tnvme.Meta.MetaRsrc

/-!
# What the operations of `MetaRsrc` do to the lists

The lists of a well-formed store (`MetaRsrc.Wf`) are in order, their IDs are different and in range, and all their
buffers have a pointer. Every operation is described once by its cases, and keeps this form. In a well-formed store
`FreeAllMetaBuf` ends with both lists empty, and has asked for the deletion of each ID once (`freeAllMetaBuf_spec`).
-/

namespace Tnvme.MetaRsrc

open SortedKeys

/-- All buffers of the store. -/
def bufs (s : MetaRsrc) : List MetaDataBuf := s.mMetaReserved ++ s.mMetaReleased

structure Wf (s : MetaRsrc) : Prop where
  sorted : Sorted MetaDataBuf.ID s.mMetaReserved
  nodup : (s.bufs.map (·.ID)).Nodup
  range : ∀ b ∈ s.bufs, b.ID < 2 ^ metadataUniqueIdBits
  mapped : ∀ b ∈ s.bufs, b.buf ≠ .null

theorem wf_init : init.Wf where
  sorted := List.Pairwise.nil
  nodup := List.Pairwise.nil
  range := by simp [init, bufs]
  mapped := by simp [init, bufs]

/-- The lists say everything that `Wf` needs. -/
theorem Wf.congr {s s' : MetaRsrc} (h : s.Wf) (hres : s'.mMetaReserved = s.mMetaReserved)
    (hrel : s'.mMetaReleased = s.mMetaReleased) : s'.Wf := by
  have hb : s'.bufs = s.bufs := by rw [bufs, bufs, hres, hrel]
  exact ⟨hres ▸ h.sorted, hb ▸ h.nodup, hb ▸ h.range, hb ▸ h.mapped⟩

/-- The buffers may be moved between the lists. -/
theorem Wf.of_perm {s s' : MetaRsrc} (h : s.Wf) (hs : Sorted MetaDataBuf.ID s'.mMetaReserved)
    (hp : s'.bufs.Perm s.bufs) : s'.Wf :=
  ⟨hs, (hp.map _).nodup_iff.2 h.nodup, fun b hb => h.range b (hp.mem_iff.1 hb),
    fun b hb => h.mapped b (hp.mem_iff.1 hb)⟩

variable {drv : Driver} {s : MetaRsrc}

/-! ## `SetMetaAllocSize` -/

/-- The request is one that the store and the driver grant. -/
def grants (drv : Driver) (s : MetaRsrc) (allocSize : Nat) : Bool :=
  s.mMetaAllocSize == 0 && allocSize % 4 == 0 && 0 ≤ drv.ioctl s.log (.metabufCreate allocSize)

/-- The size changes only if a new one is granted, and nothing else does. -/
theorem setMetaAllocSize_cases (drv : Driver) (s : MetaRsrc) (allocSize : Nat) :
    (s.setMetaAllocSize drv allocSize).1.mMetaReserved = s.mMetaReserved ∧
      (s.setMetaAllocSize drv allocSize).1.mMetaReleased = s.mMetaReleased ∧
      (s.setMetaAllocSize drv allocSize).1.mMetaAllocSize =
        if grants drv s allocSize then allocSize else s.mMetaAllocSize := by
  unfold setMetaAllocSize grants
  by_cases heq : s.mMetaAllocSize = allocSize
  · simp [heq]
  · rw [if_neg heq]
    by_cases h0 : s.mMetaAllocSize = 0
    · by_cases h4 : allocSize % 4 = 0
      · by_cases hrc : drv.ioctl s.log (.metabufCreate allocSize) < 0
        · have hrc' : ¬0 ≤ drv.ioctl s.log (.metabufCreate allocSize) := by omega
          simp [h0, h4, hrc, hrc']
        · have hrc' : 0 ≤ drv.ioctl s.log (.metabufCreate allocSize) := by omega
          simp [h0, h4, hrc, hrc']
      · simp [h0, h4]
    · simp [h0]

/-! ## `ReserveMetaBuf` -/

/-- What one call of `reserveMetaBuf` can do. -/
inductive ReserveStep (metaBuf : MetaDataBuf) (s s' : MetaRsrc) (metaBuf' : MetaDataBuf) : Reserve → Prop
  | reused {released : List MetaDataBuf} {log : List Call} : s.mMetaReleased = metaBuf' :: released →
      s' = { s with
        mMetaReserved := s.mMetaReserved.insertIdx (place MetaDataBuf.ID metaBuf'.ID s.mMetaReserved) metaBuf'
        mMetaReleased := released
        log } → ReserveStep metaBuf s s' metaBuf' .reserved
  | fresh {buf : Ptr} {log : List Call} : s.mMetaReleased = [] →
      (gap MetaDataBuf.ID 0 s.mMetaReserved).1 < 2 ^ metadataUniqueIdBits → buf ≠ .null →
      metaBuf' = ⟨buf, s.mMetaAllocSize, (gap MetaDataBuf.ID 0 s.mMetaReserved).1⟩ →
      s' = { s with
        mMetaReserved := s.mMetaReserved.insertIdx (gap MetaDataBuf.ID 0 s.mMetaReserved).2 metaBuf'
        log } → ReserveStep metaBuf s s' metaBuf' .reserved
  | failed {r : Reserve} {log : List Call} : r ≠ .reserved → s.mMetaReleased = [] →
      metaBuf' = { metaBuf with
        size := s.mMetaAllocSize
        ID := (gap MetaDataBuf.ID 0 s.mMetaReserved).1 } →
      s' = { s with log } → ReserveStep metaBuf s s' metaBuf' r

theorem reserveMetaBuf_step (drv : Driver) (metaBuf : MetaDataBuf) (s : MetaRsrc) :
    ReserveStep metaBuf s (s.reserveMetaBuf drv metaBuf).1 (s.reserveMetaBuf drv metaBuf).2.1
      (s.reserveMetaBuf drv metaBuf).2.2 := by
  generalize hout : s.reserveMetaBuf drv metaBuf = out
  unfold reserveMetaBuf at hout
  cases hrel : s.mMetaReleased with
  | cons rel released =>
    rw [hrel] at hout
    subst hout
    exact .reused hrel rfl
  | nil =>
    rw [hrel] at hout
    simp only at hout
    by_cases hID : (gap MetaDataBuf.ID 0 s.mMetaReserved).1 < 1 <<< metadataUniqueIdBits
    · rw [if_pos hID] at hout
      by_cases hrc : drv.ioctl s.log (.metabufAlloc (gap MetaDataBuf.ID 0 s.mMetaReserved).1) < 0
      · rw [if_pos hrc] at hout
        subst hout
        exact .failed nofun hrel rfl (by rw [← hrel])
      · rw [if_neg hrc, if_neg (KernelAPI.mmap_ne_null drv _ _ _ _)] at hout
        subst hout
        exact .fresh hrel (by rwa [Nat.one_shiftLeft] at hID) (KernelAPI.mmap_ne_null drv _ _ _ _) rfl (by rw [← hrel])
    · rw [if_neg hID] at hout
      subst hout
      exact .failed nofun hrel rfl rfl

/-- A request for new memory that the driver grants. -/
theorem reserveMetaBuf_granted (drv : Driver) (metaBuf : MetaDataBuf) (hrel : s.mMetaReleased = [])
    (hID : (gap MetaDataBuf.ID 0 s.mMetaReserved).1 < 2 ^ metadataUniqueIdBits)
    (hrc : 0 ≤ drv.ioctl s.log (.metabufAlloc (gap MetaDataBuf.ID 0 s.mMetaReserved).1)) :
    ∃ buf, s.reserveMetaBuf drv metaBuf =
      ({ s with
        mMetaReserved := s.mMetaReserved.insertIdx (gap MetaDataBuf.ID 0 s.mMetaReserved).2
          ⟨buf, s.mMetaAllocSize, (gap MetaDataBuf.ID 0 s.mMetaReserved).1⟩
        log := drv.ioctlLog s.log (.metabufAlloc (gap MetaDataBuf.ID 0 s.mMetaReserved).1) ++
          [.mmap s.mMetaAllocSize (gap MetaDataBuf.ID 0 s.mMetaReserved).1 .mmrMeta buf] },
        ⟨buf, s.mMetaAllocSize, (gap MetaDataBuf.ID 0 s.mMetaReserved).1⟩, .reserved) := by
  refine ⟨KernelAPI.mmap drv (drv.ioctlLog s.log (.metabufAlloc (gap MetaDataBuf.ID 0 s.mMetaReserved).1))
    s.mMetaAllocSize (gap MetaDataBuf.ID 0 s.mMetaReserved).1 .mmrMeta, ?_⟩
  unfold reserveMetaBuf
  rw [hrel]
  simp only
  rw [if_pos (by rwa [Nat.one_shiftLeft]), if_neg (by omega), if_neg (KernelAPI.mmap_ne_null drv _ _ _ _),
    KernelAPI.mmapLog, ← hrel]

/-- A released buffer is left, or the driver grants a new one. -/
def canReserve (drv : Driver) (s : MetaRsrc) : Bool :=
  !s.mMetaReleased.isEmpty || (decide ((gap MetaDataBuf.ID 0 s.mMetaReserved).1 < 2 ^ metadataUniqueIdBits) &&
    0 ≤ drv.ioctl s.log (.metabufAlloc (gap MetaDataBuf.ID 0 s.mMetaReserved).1))

theorem reserveMetaBuf_iff (drv : Driver) (metaBuf : MetaDataBuf) (s : MetaRsrc) :
    (s.reserveMetaBuf drv metaBuf).2.2 = .reserved ↔ s.canReserve drv = true := by
  unfold canReserve
  cases hrel : s.mMetaReleased with
  | cons rel released => simp [reserveMetaBuf, hrel]
  | nil =>
    by_cases hID : (gap MetaDataBuf.ID 0 s.mMetaReserved).1 < 2 ^ metadataUniqueIdBits
    · by_cases hrc : 0 ≤ drv.ioctl s.log (.metabufAlloc (gap MetaDataBuf.ID 0 s.mMetaReserved).1)
      · obtain ⟨_, hs'⟩ := reserveMetaBuf_granted drv metaBuf hrel hID hrc
        simp [hs', hID, hrc]
      · have hneg : drv.ioctl s.log (.metabufAlloc (gap MetaDataBuf.ID 0 s.mMetaReserved).1) < 0 := by omega
        simp [reserveMetaBuf, hrel, hID, hneg, hrc, Nat.one_shiftLeft]
    · simp [reserveMetaBuf, hrel, hID, Nat.one_shiftLeft]

theorem wf_reserveMetaBuf {metaBuf metaBuf' : MetaDataBuf} {s' : MetaRsrc} {r : Reserve} (h : s.Wf)
    (hstep : ReserveStep metaBuf s s' metaBuf' r) : s'.Wf := by
  cases hstep with
  | reused hrel hs' =>
    subst hs'
    have hnodup := h.nodup
    rw [bufs, hrel, List.map_append, List.map_cons] at hnodup
    have hfree : ∀ b ∈ s.mMetaReserved, b.ID ≠ metaBuf'.ID := by
      intro b hb heq
      exact (List.nodup_append.1 hnodup).2.2 _ (List.mem_map_of_mem hb) _ List.mem_cons_self heq
    refine h.of_perm (sorted_insert_place h.sorted hfree) ?_
    rw [bufs, bufs, hrel]
    exact ((List.perm_insertIdx _ _ (place_le _ _)).append_right _).trans List.perm_middle.symm
  | fresh hrel hID hbuf hm hs' =>
    subst hs'
    have hmID : metaBuf'.ID = (gap MetaDataBuf.ID 0 s.mMetaReserved).1 := by rw [hm]
    have hp : (s.mMetaReserved.insertIdx (gap MetaDataBuf.ID 0 s.mMetaReserved).2 metaBuf' ++ s.mMetaReleased).Perm
        (metaBuf' :: s.bufs) := (List.perm_insertIdx _ _ (gap_le _ _)).append_right _
    have hmem : ∀ b ∈ s.bufs, b ∈ s.mMetaReserved := by simp [bufs, hrel]
    refine ⟨sorted_insert_gap h.sorted hmID, (hp.map _).nodup_iff.2 ?_, fun b hb => ?_, fun b hb => ?_⟩
    · refine List.nodup_cons.2 ⟨fun hin => ?_, h.nodup⟩
      obtain ⟨b, hb, heq⟩ := List.mem_map.1 hin
      exact gap_free h.sorted b (hmem b hb) (heq.trans hmID)
    · rcases List.mem_cons.1 (hp.mem_iff.1 hb) with rfl | hb
      · rw [hmID]; exact hID
      · exact h.range b hb
    · rcases List.mem_cons.1 (hp.mem_iff.1 hb) with rfl | hb
      · rw [hm]; exact hbuf
      · exact h.mapped b hb
  | failed _ _ _ hs' => subst hs'; exact h.congr rfl rfl

/-- A buffer that is reserved is a new one among the reserved buffers. -/
theorem ReserveStep.mem_reserved {metaBuf metaBuf' : MetaDataBuf} {s' : MetaRsrc} (h : s.Wf)
    (hstep : ReserveStep metaBuf s s' metaBuf' .reserved) : metaBuf' ∈ s'.mMetaReserved ∧
      ∀ b ∈ s.mMetaReserved, b ∈ s'.mMetaReserved ∧ b.ID ≠ metaBuf'.ID := by
  have hinsert : ∃ n ≤ s.mMetaReserved.length, s'.mMetaReserved = s.mMetaReserved.insertIdx n metaBuf' := by
    cases hstep with
    | reused _ hs' => exact ⟨_, place_le _ _, by rw [hs']⟩
    | fresh _ _ _ _ hs' => exact ⟨_, gap_le _ _, by rw [hs']⟩
    | failed hr => exact absurd rfl hr
  have hsorted := (wf_reserveMetaBuf h hstep).sorted
  obtain ⟨n, hn, hs'⟩ := hinsert
  rw [hs'] at hsorted ⊢
  exact ⟨(List.mem_insertIdx hn).2 (Or.inl rfl), fun b hb =>
    ⟨(List.mem_insertIdx hn).2 (Or.inr hb), hsorted.ne_of_insertIdx hn b hb⟩⟩

/-- A failed call leaves the lists as they are. -/
theorem ReserveStep.of_ne {metaBuf metaBuf' : MetaDataBuf} {s' : MetaRsrc} {r : Reserve}
    (hstep : ReserveStep metaBuf s s' metaBuf' r) (hr : r ≠ .reserved) :
    (s'.mMetaReserved = s.mMetaReserved ∧ s'.mMetaReleased = s.mMetaReleased) ∧
      metaBuf' = { metaBuf with size := s.mMetaAllocSize, ID := (gap MetaDataBuf.ID 0 s.mMetaReserved).1 } := by
  cases hstep with
  | reused => exact absurd rfl hr
  | fresh => exact absurd rfl hr
  | failed _ _ hm hs' => exact ⟨by rw [hs']; exact ⟨rfl, rfl⟩, hm⟩

/-! ## `ReleaseMetaBuf` -/

/-- The buffer with the ID goes from the reserved to the released ones, if there is one. -/
theorem releaseMetaBuf_cases (metaBuf : MetaDataBuf) (s : MetaRsrc) :
    s.releaseMetaBuf metaBuf = s ∧ (metaBuf = .default ∨ ∀ b ∈ s.mMetaReserved, b.ID ≠ metaBuf.ID) ∨
      ∃ l₁ b l₂, s.mMetaReserved = l₁ ++ b :: l₂ ∧ b.ID = metaBuf.ID ∧ metaBuf ≠ .default ∧
        s.releaseMetaBuf metaBuf = { s with mMetaReleased := s.mMetaReleased ++ [b], mMetaReserved := l₁ ++ l₂ } := by
  unfold releaseMetaBuf
  split
  · exact Or.inl ⟨rfl, Or.inl (by assumption)⟩
  · rename_i hne
    cases hfind : s.mMetaReserved.find? (·.ID == metaBuf.ID) with
    | none => exact Or.inl ⟨rfl, Or.inr fun b hb => by simpa using List.find?_eq_none.1 hfind b hb⟩
    | some b =>
      obtain ⟨hID, l₁, l₂, hres, hl₁⟩ := List.find?_eq_some_iff_append.1 hfind
      have hID' : b.ID = metaBuf.ID := by simpa using hID
      have herase : s.mMetaReserved.eraseP (·.ID == metaBuf.ID) = l₁ ++ l₂ := by
        rw [hres, List.eraseP_append_right _ fun c hc => by simpa using hl₁ c hc]
        simp [hID']
      exact Or.inr ⟨l₁, b, l₂, hres, hID', hne, by rw [herase]⟩

theorem sorted_remove {l₁ l₂ : List MetaDataBuf} {b : MetaDataBuf} (h : Sorted MetaDataBuf.ID (l₁ ++ b :: l₂)) :
    Sorted MetaDataBuf.ID (l₁ ++ l₂) :=
  h.sublist ((List.Sublist.refl l₁).append (List.sublist_cons_self b l₂))

/-- Only the buffer with the ID goes. -/
theorem mem_releaseMetaBuf (h : s.Wf) {metaBuf b : MetaDataBuf} : b ∈ (s.releaseMetaBuf metaBuf).mMetaReserved ↔
    b ∈ s.mMetaReserved ∧ (metaBuf ≠ .default → b.ID ≠ metaBuf.ID) := by
  rcases releaseMetaBuf_cases metaBuf s with ⟨hs, hnone⟩ | ⟨l₁, c, l₂, hres, hID, hne, hs⟩
  · rw [hs]
    refine ⟨fun hb => ⟨hb, fun hne => ?_⟩, And.left⟩
    rcases hnone with heq | hnone
    · exact absurd heq hne
    · exact hnone b hb
  · have hsorted := h.sorted
    rw [hres] at hsorted
    have hc : ∀ b ∈ l₁ ++ l₂, b.ID ≠ c.ID := by
      have hnodup := hsorted.nodup_keys
      rw [(List.perm_middle.map _).nodup_iff, List.map_cons, List.nodup_cons] at hnodup
      intro b hb heq
      exact hnodup.1 (heq ▸ List.mem_map_of_mem hb)
    rw [hs, hres, List.perm_middle.mem_iff, List.mem_cons, ← hID]
    constructor
    · intro hb
      exact ⟨Or.inr hb, fun _ => hc b hb⟩
    · rintro ⟨rfl | hb, hb'⟩
      · exact absurd rfl (hb' hne)
      · exact hb

theorem bufs_releaseMetaBuf (metaBuf : MetaDataBuf) (s : MetaRsrc) :
    (s.releaseMetaBuf metaBuf).bufs.Perm s.bufs := by
  rcases releaseMetaBuf_cases metaBuf s with ⟨h, _⟩ | ⟨l₁, b, l₂, hres, _, _, h⟩
  · rw [h]
  · rw [h, bufs, bufs, hres]
    simp only [List.append_assoc, List.cons_append]
    refine List.Perm.append_left l₁ ?_
    rw [← List.append_assoc]
    exact List.perm_append_comm

theorem wf_releaseMetaBuf (h : s.Wf) (metaBuf : MetaDataBuf) : (s.releaseMetaBuf metaBuf).Wf := by
  refine h.of_perm ?_ (bufs_releaseMetaBuf metaBuf s)
  rcases releaseMetaBuf_cases metaBuf s with ⟨hs, _⟩ | ⟨l₁, b, l₂, hres, _, _, hs⟩
  · rw [hs]; exact h.sorted
  · have hsorted := h.sorted
    rw [hres] at hsorted
    rw [hs]
    exact sorted_remove hsorted

@[simp] theorem releaseMetaBuf_log (metaBuf : MetaDataBuf) (s : MetaRsrc) : (s.releaseMetaBuf metaBuf).log = s.log := by
  rcases releaseMetaBuf_cases metaBuf s with ⟨h, _⟩ | ⟨_, _, _, _, _, _, h⟩ <;> rw [h]

/-! ## `FreeAllMetaBuf` -/

/-- The first loop ends, because the buffer it takes has a pointer and so is released. -/
theorem releaseAll_spec {fuel : Nat} (h : s.Wf) (hf : s.mMetaReserved.length < fuel) :
    ∃ s', s.releaseAll fuel = some s' ∧ s'.mMetaReserved = [] ∧ s'.mMetaReleased.Perm s.bufs ∧ s'.log = s.log := by
  induction fuel generalizing s with
  | zero => omega
  | succ fuel ih =>
    unfold releaseAll
    cases hres : s.mMetaReserved with
    | nil => exact ⟨s, rfl, hres, by rw [bufs, hres, List.nil_append], rfl⟩
    | cons b rest =>
      have hb : b ≠ .default := by
        rintro rfl
        exact h.mapped _ (by rw [bufs, hres]; exact List.mem_cons_self) rfl
      have hlen : (s.releaseMetaBuf b).mMetaReserved.length < fuel := by
        rcases releaseMetaBuf_cases b s with ⟨_, hd | hnot⟩ | ⟨l₁, c, l₂, hres', _, _, hs⟩
        · exact absurd hd hb
        · exact absurd rfl (hnot b (by rw [hres]; exact List.mem_cons_self))
        · rw [hres'] at hf
          rw [hs]
          simp only [List.length_append, List.length_cons] at hf ⊢
          omega
      obtain ⟨s', hs', hnil, hperm, hlog⟩ := ih (wf_releaseMetaBuf h b) hlen
      exact ⟨s', hs', hnil, hperm.trans (bufs_releaseMetaBuf b s), by rw [hlog, releaseMetaBuf_log]⟩

/-- The IDs whose deletion was asked for. -/
def deletes (log : List Call) : List Nat :=
  log.filterMap fun c => match c with
    | .ioctl (.metabufDelete ID) _ => some ID
    | _ => none

/-- The second loop asks for the deletion of what it is given. -/
theorem deleteAll_spec (drv : Driver) (l : List MetaDataBuf) (s : MetaRsrc) :
    (deleteAll drv l s).mMetaReserved = s.mMetaReserved ∧ (deleteAll drv l s).mMetaReleased = [] ∧
      ∃ t, (deleteAll drv l s).log = s.log ++ t ∧ deletes t = l.map (·.ID) := by
  induction l generalizing s with
  | nil => exact ⟨rfl, rfl, [], (List.append_nil _).symm, rfl⟩
  | cons tmp rest ih =>
    obtain ⟨hres, hrel, t, ht, hdel⟩ := ih { s with
      mMetaReleased := rest.reverse
      log := drv.ioctlLog (KernelAPI.munmapLog s.log tmp.buf tmp.size) (.metabufDelete tmp.ID) }
    refine ⟨hres, hrel, .munmap tmp.buf tmp.size :: .ioctl (.metabufDelete tmp.ID)
      (drv.ioctl (KernelAPI.munmapLog s.log tmp.buf tmp.size) (.metabufDelete tmp.ID)) :: t, ?_, ?_⟩
    · exact ht.trans (by simp [Driver.ioctlLog, KernelAPI.munmapLog])
    · simpa [deletes] using hdel

/-- **`FreeAllMetaBuf` empties a well-formed store**, and asks for the deletion of each ID once. -/
theorem freeAllMetaBuf_spec (drv : Driver) {fuel : Nat} (h : s.Wf) (hf : s.mMetaReserved.length < fuel) :
    ∃ s' t, s.freeAllMetaBuf drv fuel = some (s', false) ∧ s'.mMetaReserved = [] ∧ s'.mMetaReleased = [] ∧
      s'.mMetaAllocSize = 0 ∧ s'.log = s.log ++ t ∧ (deletes t).Perm (s.bufs.map (·.ID)) := by
  obtain ⟨s₁, hs₁, hnil, hperm, hlog⟩ := releaseAll_spec h hf
  obtain ⟨hres, hrel, t, ht, hdel⟩ := deleteAll_spec drv s₁.mMetaReleased.reverse s₁
  refine ⟨{ deleteAll drv s₁.mMetaReleased.reverse s₁ with mMetaAllocSize := 0 }, t, ?_, hres.trans hnil, hrel, rfl,
    ht.trans (by rw [hlog]), ?_⟩
  · simp [freeAllMetaBuf, hs₁, hres, hnil, hrel]
  · rw [hdel]
    exact ((List.reverse_perm _).trans hperm).map _

end Tnvme.MetaRsrc
