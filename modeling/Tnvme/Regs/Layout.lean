import Tnvme.Regs.Discover

/-!
# Where the registers of the capabilities lie

The registers of a capability follow each other from its offset on, in the order of the table, but for AERTLP. The two
loops of the discovery set the offsets one after the other (`setOffsets_block`); after the discovery of a device whose
list holds every capability at most once, the offsets are those of `layout` (`discover_layout`).
-/

namespace Tnvme

namespace PciSpc

/-- The registers of a capability, in the order of the table. -/
def block (cap : PciCapabilities) : List PciSpc := all.filter (·.capability == some cap)

/-- The sum of the sizes of the registers that precede one in its block. -/
def preceding (cap : PciCapabilities) (r : PciSpc) : Nat := (((block cap).takeWhile (· ≠ r)).map size).sum

theorem mem_block {cap : PciCapabilities} {r : PciSpc} : r ∈ block cap ↔ r.capability = some cap := by
  simp [block, mem_all]

/-- A block is much smaller than the space of the offsets. -/
theorem preceding_lt (cap : PciCapabilities) (r : PciSpc) : preceding cap r < 2 ^ 8 := by
  have htotal : ((block cap).map size).sum < 2 ^ 8 := by cases cap <;> decide
  have hsplit : ((block cap).map size).sum = preceding cap r + (((block cap).dropWhile (· ≠ r)).map size).sum := by
    rw [preceding, ← List.sum_append, ← List.map_append, List.takeWhile_append_dropWhile]
  omega

end PciSpc

/-- The extended space at 0x100 holds the capability AER. -/
def PciSpace.hasAer (sp : PciSpace) : Bool := regmask (sp.bytes 0x100 4) 2 == 0x0001

namespace Registers

/-- Where a register lies on a device with the list `l`. -/
def layout (sp : PciSpace) (l : List Nat) (r : PciSpc) : Nat :=
  match r.capability with
  | none => r.metrics.offset
  | some .aercap =>
    if sp.hasAer then if r = .aertlp then 0x138 else 0x100 + PciSpc.preceding .aercap r else r.metrics.offset
  | some cap =>
    match l.find? (sp.capAt · == some cap) with
    | none => r.metrics.offset
    | some base => base + PciSpc.preceding cap r

/-! ## The loops -/

section Loops

variable {test : PciSpc → Bool} {prev : PciSpc} {blk rest : List PciSpc} {offset : PciSpc → Nat}

theorem setOffsets_rest (hrest : ∀ r ∈ rest, test r = false) : setOffsets test prev rest offset = offset := by
  induction rest generalizing prev with
  | nil => rfl
  | cons r rest ih =>
    rw [setOffsets, hrest r List.mem_cons_self]
    exact ih fun r' hr' => hrest r' (List.mem_cons_of_mem r hr')

/-- **Registers that follow each other in the table follow each other in the space.** -/
theorem setOffsets_block (hblk : ∀ r ∈ blk, test r = true) (hrest : ∀ r ∈ rest, test r = false)
    (hnodup : (prev :: blk).Nodup) (r : PciSpc) : setOffsets test prev (blk ++ rest) offset r =
      if r ∈ blk then (offset prev + (((prev :: blk).takeWhile (· ≠ r)).map PciSpc.size).sum) % 2 ^ 16
      else offset r := by
  induction blk generalizing prev offset with
  | nil => rw [List.nil_append, setOffsets_rest hrest, if_neg List.not_mem_nil]
  | cons b blk ih =>
    obtain ⟨hprev, hnodup'⟩ := List.nodup_cons.1 hnodup
    rw [List.cons_append, setOffsets, hblk b List.mem_cons_self, if_pos rfl,
      ih (fun r' hr' => hblk r' (List.mem_cons_of_mem b hr')) hnodup']
    by_cases hr : r = b
    · subst hr
      have hne : prev ≠ r := fun h => hprev (h ▸ List.mem_cons_self)
      rw [if_neg (List.nodup_cons.1 hnodup').1, if_pos List.mem_cons_self, Function.update_self]
      simp [hne]
    · by_cases hmem : r ∈ blk
      · have hne : prev ≠ r := fun h => hprev (h ▸ List.mem_cons_of_mem b hmem)
        rw [if_pos hmem, if_pos (List.mem_cons_of_mem b hmem), Function.update_self, Nat.mod_add_mod]
        simp [hne, Nat.add_assoc]
      · rw [if_neg hmem, if_neg (by simp [hr, hmem]), Function.update_of_ne hr]

end Loops

variable {sp : PciSpace}

/-- The registers of a known capability follow its first one in the table. -/
theorem knownCap_block {capId : Nat} {cap : PciCapabilities} {capIdx : PciSpc}
    (h : knownCap capId = some (cap, capIdx)) : ∃ blk rest, capIdx.after = blk ++ rest ∧
      PciSpc.block cap = capIdx :: blk ∧ ∀ r ∈ rest, (r.capability == some cap) = false := by
  refine ⟨(PciSpc.block cap).tail, capIdx.after.drop (PciSpc.block cap).tail.length, ?_⟩
  unfold knownCap at h
  split at h <;> cases h <;> decide

theorem block_nodup (cap : PciCapabilities) : (PciSpc.block cap).Nodup :=
  (show PciSpc.all.Nodup by decide).filter _

/-- A capability that is decoded gives its registers their places. -/
theorem offset_decode {capId capOffset : Nat} {cap : PciCapabilities} {capIdx : PciSpc}
    (h : knownCap capId = some (cap, capIdx)) (hlt : capOffset < 2 ^ 8) (regs : Registers) (r : PciSpc) :
    (regs.decode capId capOffset).offset r =
      if r.capability = some cap then capOffset + PciSpc.preceding cap r else regs.offset r := by
  obtain ⟨blk, rest, hafter, hblock, hrest⟩ := knownCap_block h
  have hnodup := block_nodup cap
  have hpre := PciSpc.preceding_lt cap r
  have hblk : ∀ r ∈ blk, (r.capability == some cap) = true := fun r hr =>
    beq_iff_eq.2 (PciSpc.mem_block.1 (hblock ▸ List.mem_cons_of_mem capIdx hr))
  rw [hblock] at hnodup
  simp only [decode, h, hafter, setOffsets_block hblk hrest hnodup, ← PciSpc.mem_block, hblock, List.mem_cons]
  by_cases hr : r = capIdx
  · subst hr
    rw [if_neg (List.nodup_cons.1 hnodup).1, if_pos (.inl rfl), Function.update_self, PciSpc.preceding, hblock]
    simp
  · by_cases hmem : r ∈ blk
    · rw [if_pos hmem, if_pos (.inr hmem), Function.update_self, ← hblock]
      exact Nat.mod_eq_of_lt (show capOffset + PciSpc.preceding cap r < 2 ^ 16 by omega)
    · rw [if_neg hmem, if_neg (by simp [hr, hmem]), Function.update_of_ne hr]

theorem offset_decode_unknown {capId capOffset : Nat} (h : knownCap capId = none) (regs : Registers) :
    regs.decode capId capOffset = regs := by
  rw [decode, h]

/-! ## The list -/

theorem capAt_eq_some {offset : Nat} {cap : PciCapabilities} (h : sp.capAt offset = some cap) :
    sp.readable offset 4 = true ∧ ∃ capIdx, knownCap (sp.byte offset).toNat = some (cap, capIdx) := by
  unfold PciSpace.capAt at h
  split at h
  · rename_i hread
    obtain ⟨⟨_, capIdx⟩, hknown, rfl⟩ := Option.map_eq_some_iff.1 h
    exact ⟨hread, capIdx, hknown⟩
  · cases h

theorem visit_of_capAt_none {offset : Nat} (h : sp.capAt offset = none) (s : Registers × Bool) :
    (visit sp s offset).1 = s.1 := by
  unfold visit
  split
  · rename_i hread
    exact offset_decode_unknown (by simpa [PciSpace.capAt, hread] using h) s.1
  · rfl

/-- After the traversal a register lies where the capability that it belongs to puts it. -/
theorem offset_foldl {l : List Nat} (hlt : ∀ offset ∈ l, offset < 2 ^ 8) (hnodup : (l.filterMap sp.capAt).Nodup)
    (s : Registers × Bool) (r : PciSpc) : (l.foldl (visit sp) s).1.offset r =
      match r.capability.bind fun cap => (l.find? (sp.capAt · == some cap)).map (· + PciSpc.preceding cap r) with
      | none => s.1.offset r
      | some offset => offset := by
  induction l generalizing s with
  | nil => cases r.capability <;> rfl
  | cons offset l ih =>
    have hlt' := fun offset' h => hlt offset' (List.mem_cons_of_mem offset h)
    rw [List.foldl_cons]
    cases hcap : sp.capAt offset with
    | none =>
      rw [List.filterMap_cons_none hcap] at hnodup
      rw [ih hlt' hnodup, visit_of_capAt_none hcap]
      simp [hcap]
    | some c =>
      rw [List.filterMap_cons_some hcap] at hnodup
      obtain ⟨hnotMem, hnodup'⟩ := List.nodup_cons.1 hnodup
      obtain ⟨hread, capIdx, hknown⟩ := capAt_eq_some hcap
      have hvisit : (visit sp s offset).1 = s.1.decode (sp.byte offset).toNat offset := by simp [visit, hread]
      rw [ih hlt' hnodup', hvisit, offset_decode hknown (hlt offset List.mem_cons_self)]
      cases hr : r.capability with
      | none => simp
      | some c' =>
        by_cases hc : c' = c
        · subst hc
          have hnone : l.find? (sp.capAt · == some c') = none := by
            refine List.find?_eq_none.2 fun offset' hmem h => hnotMem ?_
            exact List.mem_filterMap.2 ⟨offset', hmem, beq_iff_eq.1 h⟩
          simp [List.find?_cons, hcap, hnone]
        · have hbeq : (c == c') = false := beq_false_of_ne (Ne.symm hc)
          simp [List.find?_cons, hcap, hc, hbeq]

/-- The registers that the second loop goes through. -/
def aerBlock : List PciSpc := [.aeruces, .aerucem, .aerucesev, .aercs, .aercem, .aercc, .aerhl]

theorem block_aercap : PciSpc.block .aercap = .aerid :: aerBlock ++ [.aertlp] := by decide

/-- The extended capability has its registers where the table puts them, but for AERTLP. -/
theorem offset_extended (hread : sp.readable 0x100 4 = true) (regs : Registers) (r : PciSpc) :
    (regs.extended sp).offset r =
      if sp.hasAer ∧ r.capability = some .aercap then
        if r = .aertlp then 0x138 else 0x100 + PciSpc.preceding .aercap r
      else regs.offset r := by
  unfold extended
  simp only [PciSpace.ioctl, hread, if_true, PciSpace.hasAer, beq_iff_eq]
  by_cases haer : regmask (sp.bytes 0x100 4) 2 = 0x0001
  · have hblk : PciSpc.aerid.after.takeWhile (· ≠ .aertlp) = aerBlock ++ [] := by decide
    simp only [haer, if_true, true_and, ← PciSpc.mem_block, block_aercap, hblk]
    by_cases hlast : r = .aertlp
    · rw [hlast, Function.update_self, if_pos (by decide), if_pos rfl]
    · rw [Function.update_of_ne hlast, setOffsets_block (by simp) (by simp) (by decide), if_neg hlast]
      by_cases hfirst : r = .aerid
      · rw [hfirst, if_neg (by decide), Function.update_self, if_pos (by decide)]
        decide
      · by_cases hmem : r ∈ aerBlock
        · have hsum : ∀ r ∈ aerBlock, (((.aerid :: aerBlock).takeWhile (· ≠ r)).map PciSpc.size).sum =
              PciSpc.preceding .aercap r := by decide
          have hpre := PciSpc.preceding_lt .aercap r
          rw [if_pos hmem, Function.update_self, hsum r hmem, if_pos (by simp [hmem])]
          exact Nat.mod_eq_of_lt (by omega)
        · rw [if_neg hmem, Function.update_of_ne hfirst, if_neg (by simp [hfirst, hmem, hlast])]
  · simp [haer]

/-- The pointers of the list are bytes. -/
theorem chain_lt {p : Nat} (hp : p < 2 ^ 8) {l : List Nat} (h : Chains.Chain sp.next (pointer p) l) :
    ∀ offset ∈ l, offset < 2 ^ 8 := by
  generalize hfrom : pointer p = q at h
  induction h generalizing p with
  | nil => simp
  | @cons offset l hrest ih =>
    have hoffset : offset = p := by
      unfold pointer at hfrom
      split at hfrom <;> cases hfrom
      rfl
    refine List.forall_mem_cons.2 ⟨hoffset ▸ hp, ?_⟩
    cases hread : sp.readable offset 4 with
    | false =>
      have hnext : sp.next offset = none := by simp [PciSpace.next, hread]
      rw [hnext] at hrest
      cases hrest
      simp
    | true => exact ih (sp.byte (offset + 1)).toNat_lt (by simp [PciSpace.next, hread])

/-- The traversal of a list whose reads all succeed. -/
theorem foldl_ok {l : List Nat} (hread : ∀ offset ∈ l, sp.readable offset 4 = true) (s : Registers × Bool) :
    (l.foldl (visit sp) s).2 = s.2 := by
  induction l generalizing s with
  | nil => rfl
  | cons offset l ih =>
    rw [List.foldl_cons, ih fun offset' h => hread offset' (List.mem_cons_of_mem offset h)]
    simp [visit, hread offset List.mem_cons_self]

/-- **The layout of a device** whose list ends and holds every known capability at most once: the capabilities are
recorded in the order of the list, and the registers lie where `layout` puts them. -/
theorem discover_layout (sp : PciSpace) (hread : ∀ offset nBytes, sp.readable offset nBytes = true)
    (hcl : regmask (sp.bytes 0x06 2) 2 &&& 0x0010 ≠ 0) (l : List Nat)
    (hlist : Chains.Chain sp.next (pointer (sp.byte 0x34).toNat) l) (hnodup : (l.filterMap sp.capAt).Nodup)
    (fuel : Nat) (hfuel : l.length ≤ fuel) :
    ∃ regs, init.discover sp fuel = some regs ∧
      regs.mPciCap = l.filterMap sp.capAt ++ (if sp.hasAer then [.aercap] else []) ∧
      ∀ r, regs.offset r = layout sp l r := by
  have hsts : init.read sp .sts = some (regmask (sp.bytes 0x06 2) 2) := by
    simp [read, init, PciSpc.metrics, PciSpc.size, PciSpace.ioctl, hread, ushrtMax]
  have hcap : init.read sp .cap = some (sp.byte 0x34).toNat := by
    simp [read, init, PciSpc.metrics, PciSpc.size, PciSpace.ioctl, hread, ushrtMax, PciSpace.regmask_id]
  have hwalk : Chains.walk sp.next (visit sp) fuel (init, true) (pointer (sp.byte 0x34).toNat) =
      some (l.foldl (visit sp) (init, true)) := Chains.walk_eq_some_iff.2 ⟨l, hlist, hfuel, rfl⟩
  have hok := foldl_ok (fun offset _ => hread offset 4) (init, true) (l := l)
  refine ⟨(l.foldl (visit sp) (init, true)).1.extended sp, ?_, ?_, fun r => ?_⟩
  · rw [discover_eq_walk hsts hcl hcap]
    exact congrArg (Option.map _) hwalk |>.trans (by rw [Option.map_some, hok, if_pos rfl])
  · have hmap : (l.foldl (visit sp) (init, true)).1.mPciCap = l.filterMap sp.capAt := mPciCap_foldl l (init, true)
    simp only [extended, PciSpace.ioctl, hread, if_true, PciSpace.hasAer, beq_iff_eq]
    split
    · exact congrArg (· ++ [.aercap]) hmap
    · rw [List.append_nil]
      exact hmap
  · have hplace := offset_foldl (chain_lt (sp.byte 0x34).toNat_lt hlist) hnodup (init, true) r
    rw [offset_extended (hread 0x100 4), hplace, layout]
    cases hr : r.capability with
    | none => simp [init]
    | some cap =>
      by_cases haer : cap = .aercap
      · subst haer
        have hnone : l.find? (sp.capAt · == some .aercap) = none := by
          refine List.find?_eq_none.2 fun offset hmem h => aercap_not_mem sp l ?_
          exact List.mem_filterMap.2 ⟨offset, hmem, beq_iff_eq.1 h⟩
        simp [hnone, init]
      · cases hfind : l.find? (sp.capAt · == some cap) <;> simp [haer, hfind, init]

/-- A device with a capability that is not known, MSI-X, power management, and AER. -/
def threeListed : PciSpace where
  byte := fun offset =>
    match offset with
    | 0x06 => 0x10
    | 0x34 => 0x50
    | 0x50 => 0x09
    | 0x51 => 0x80
    | 0x80 => 0x11
    | 0x81 => 0x40
    | 0x40 => 0x01
    | 0x100 => 0x01
    | _ => 0
  readable := fun _ _ => true

/-- The layout of that device. -/
theorem threeListed_layout : ∃ regs, init.discover threeListed 3 = some regs ∧
    regs.mPciCap = [.msixcap, .pmcap, .aercap] ∧ ∀ r, regs.offset r = layout threeListed [0x50, 0x80, 0x40] r := by
  have hlist : Chains.Chain threeListed.next (pointer (threeListed.byte 0x34).toNat) [0x50, 0x80, 0x40] := by
    have h50 : threeListed.next 0x50 = some 0x80 := by decide
    have h80 : threeListed.next 0x80 = some 0x40 := by decide
    have h40 : threeListed.next 0x40 = none := by decide
    exact .cons (h50 ▸ .cons (h80 ▸ .cons (h40 ▸ .nil)))
  exact discover_layout threeListed (fun _ _ => rfl) (by decide) [0x50, 0x80, 0x40] hlist (by decide) 3 (Nat.le_refl 3)

end Registers

end Tnvme
