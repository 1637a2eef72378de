import Mathlib.Data.List.Nodup
import Tnvme.Lib.Chains
import Tnvme.Regs.PciSpc

/-!
# The discovery of PCI capabilities

`DiscoverPciCapabilities` follows the next pointers of the capabilities, records those it knows, and gives their
registers their offsets. The pointers come from the device. `discover_iff` says for which devices the discovery ends
and records no capability twice: the list has to end, and no capability that is known may be on it twice.
-/

namespace Tnvme

/-- The configuration space of a device: its bytes, and which of its parts can be read. -/
structure PciSpace where
  byte : Nat → UInt8
  readable : Nat → Nat → Bool

namespace PciSpace

variable (sp : PciSpace)

/-- Bytes in the order of the host, which is little-endian. -/
def bytes (offset : Nat) : Nat → Nat
  | 0 => 0
  | nBytes + 1 => (sp.byte offset).toNat + 2 ^ 8 * bytes (offset + 1) nBytes

/-- `NVME_IOCTL_READ_GENERIC` -/
def ioctl (offset nBytes : Nat) : Option Nat :=
  if sp.readable offset nBytes then some (sp.bytes offset nBytes) else none

end PciSpace

def regmask (regval bytes : Nat) : Nat := regval % 2 ^ (8 * bytes)

/-- What a discovery works on: the capabilities found, and the offsets in the metrics. -/
structure Registers where
  mPciCap : List PciCapabilities
  offset : PciSpc → Nat

namespace Registers

/-- Before the first discovery the offsets are those of the table. -/
def init : Registers := ⟨[], fun r => r.metrics.offset⟩

variable (regs : Registers) (sp : PciSpace)

def read (r : PciSpc) : Option Nat :=
  if regs.offset r = ushrtMax then none
  else if r.size > 8 then none
  else (sp.ioctl (regs.offset r) r.size).map (regmask · r.size)

/-- A loop over registers. One that passes the test begins where the register before it ends; an offset is a
`uint16_t`. -/
def setOffsets (test : PciSpc → Bool) : PciSpc → List PciSpc → (PciSpc → Nat) → PciSpc → Nat
  | _, [], offset => offset
  | prev, r :: rest, offset =>
    setOffsets test r rest
      (if test r then Function.update offset r ((offset prev + prev.size) % 2 ^ 16) else offset)

/-- The capabilities that are known by their ID, each with its first register. -/
def knownCap : Nat → Option (PciCapabilities × PciSpc)
  | 0x01 => some (.pmcap, .pid)
  | 0x05 => some (.msicap, .mid)
  | 0x10 => some (.pxcap, .pxid)
  | 0x11 => some (.msixcap, .mxid)
  | _ => none

/-- A capability at an offset is recorded, and its registers get their offsets. -/
def decode (capId capOffset : Nat) : Registers :=
  match knownCap capId with
  | none => regs
  | some (cap, capIdx) =>
    { mPciCap := regs.mPciCap ++ [cap]
      offset := setOffsets (·.capability == some cap) capIdx capIdx.after
        (Function.update regs.offset capIdx capOffset) }

/-- The `while` loop, with the registers and whether all its reads succeeded; `none` if it has not ended. -/
def traverse : Nat → Nat → Registers → Option (Registers × Bool)
  | fuel, nextCap, regs =>
    if regmask (nextCap >>> 8) 1 = 0 then some (regs, true)
    else
      match fuel with
      | 0 => none
      | fuel + 1 =>
        let offset := regmask (nextCap >>> 8) 1
        match sp.ioctl offset 4 with
        | none => some (regs, false)
        | some nextCap => traverse fuel nextCap (regs.decode (regmask nextCap 1) offset)

/-- The only extended capability that is known. -/
def extended : Registers :=
  match sp.ioctl 0x100 4 with
  | none => regs
  | some nextCap =>
    if regmask nextCap 2 = 0x0001 then
      let offset := Function.update regs.offset .aerid 0x100
      let offset := setOffsets (fun _ => true) .aerid (PciSpc.aerid.after.takeWhile (· ≠ .aertlp)) offset
      { mPciCap := regs.mPciCap ++ [.aercap], offset := Function.update offset .aertlp (0x100 + 0x38) }
    else regs

/-- `DiscoverPciCapabilities` -/
def discover (fuel : Nat) : Option Registers :=
  let regs := { regs with mPciCap := [] }
  match regs.read sp .sts with
  | none => some regs
  | some work =>
    if work &&& 0x0010 = 0 then some regs
    else
      match regs.read sp .cap with
      | none => some regs
      | some nextCap =>
        (traverse sp fuel (nextCap <<< 8) regs).map fun r => if r.2 then r.1.extended sp else r.1

end Registers

/-! ## The list of the device -/

/-- A null pointer ends the list. -/
def pointer (p : Nat) : Option Nat := if p = 0 then none else some p

namespace PciSpace

variable (sp : PciSpace)

/-- The next pointer of a capability. The traversal ends where it cannot read. -/
def next (offset : Nat) : Option Nat :=
  if sp.readable offset 4 then pointer (sp.byte (offset + 1)).toNat else none

/-- The capability at an offset, if it can be read and is known. -/
def capAt (offset : Nat) : Option PciCapabilities :=
  if sp.readable offset 4 then (Registers.knownCap (sp.byte offset).toNat).map Prod.fst else none

variable {sp}

theorem regmask_id (offset nBytes : Nat) : regmask (sp.bytes offset (nBytes + 1)) 1 = (sp.byte offset).toNat := by
  have hlt := (sp.byte offset).toNat_lt
  simp only [regmask, bytes]
  omega

theorem regmask_next (offset nBytes : Nat) :
    regmask (sp.bytes offset (nBytes + 2) >>> 8) 1 = (sp.byte (offset + 1)).toNat := by
  have hlt := (sp.byte offset).toNat_lt
  have hshift : sp.bytes offset (nBytes + 2) >>> 8 = sp.bytes (offset + 1) (nBytes + 1) := by
    rw [Nat.shiftRight_eq_div_pow, bytes]
    omega
  rw [hshift, regmask_id]

end PciSpace

namespace Registers

/-- One turn of the loop at an offset. -/
def visit (sp : PciSpace) (s : Registers × Bool) (offset : Nat) : Registers × Bool :=
  if sp.readable offset 4 then (s.1.decode (sp.byte offset).toNat offset, s.2) else (s.1, false)

variable {regs : Registers} {sp : PciSpace}

/-- The loop walks along the list of the device. -/
theorem traverse_eq_walk (fuel nextCap : Nat) (regs : Registers) : traverse sp fuel nextCap regs =
    Chains.walk sp.next (visit sp) fuel (regs, true) (pointer (regmask (nextCap >>> 8) 1)) := by
  induction fuel generalizing nextCap regs with
  | zero =>
    unfold traverse pointer
    split <;> rfl
  | succ fuel ih =>
    unfold traverse pointer
    split
    · rfl
    · generalize regmask (nextCap >>> 8) 1 = offset
      cases hread : sp.readable offset 4 with
      | false =>
        simp [PciSpace.ioctl, hread, Chains.walk, PciSpace.next, visit]
      | true =>
        simp only [PciSpace.ioctl, hread, if_true, ih, PciSpace.regmask_id, PciSpace.regmask_next, Chains.walk,
          PciSpace.next, visit]

theorem mPciCap_decode (capId capOffset : Nat) (regs : Registers) :
    (regs.decode capId capOffset).mPciCap = regs.mPciCap ++ ((knownCap capId).map Prod.fst).toList := by
  unfold decode
  cases knownCap capId with
  | none => exact (List.append_nil _).symm
  | some known => rfl

/-- The capabilities are recorded in the order of the list. -/
theorem mPciCap_foldl (l : List Nat) (s : Registers × Bool) :
    (l.foldl (visit sp) s).1.mPciCap = s.1.mPciCap ++ l.filterMap sp.capAt := by
  induction l generalizing s with
  | nil => exact (List.append_nil _).symm
  | cons offset l ih =>
    rw [List.foldl_cons, ih]
    cases hread : sp.readable offset 4 with
    | false => simp [visit, PciSpace.capAt, hread]
    | true =>
      simp only [visit, hread, if_true, mPciCap_decode, List.append_assoc]
      congr 1
      cases hknown : knownCap (sp.byte offset).toNat <;> simp [PciSpace.capAt, hread, hknown]

theorem mPciCap_extended (regs : Registers) (sp : PciSpace) :
    (regs.extended sp).mPciCap = regs.mPciCap ∨ (regs.extended sp).mPciCap = regs.mPciCap ++ [.aercap] := by
  unfold extended
  split
  · exact .inl rfl
  · split
    · exact .inr rfl
    · exact .inl rfl

/-- No capability of the list is the extended one. -/
theorem aercap_not_mem (sp : PciSpace) (l : List Nat) : .aercap ∉ l.filterMap sp.capAt := by
  intro hmem
  obtain ⟨offset, _, hcap⟩ := List.mem_filterMap.1 hmem
  unfold PciSpace.capAt at hcap
  split at hcap
  · obtain ⟨⟨cap, capIdx⟩, hknown, rfl⟩ := Option.map_eq_some_iff.1 hcap
    unfold knownCap at hknown
    split at hknown <;> cases hknown
  · cases hcap

/-! ## Termination -/

/-- The pointer to the first capability; the capability list bit of STS says whether there is one. -/
def first (regs : Registers) (sp : PciSpace) : Option Nat :=
  match regs.read sp .sts with
  | none => none
  | some work => if work &&& 0x0010 = 0 then none else (regs.read sp .cap).bind pointer

/-- The list of the device ends, and holds no capability twice that is known. -/
def ListedOnce (regs : Registers) (sp : PciSpace) : Prop :=
  ∃ l, Chains.Chain sp.next (regs.first sp) l ∧ (l.filterMap sp.capAt).Nodup

theorem read_lt {r : PciSpc} (h : r.size = 1) {value : Nat} (hread : regs.read sp r = some value) : value < 2 ^ 8 := by
  unfold read at hread
  split at hread
  · cases hread
  · split at hread
    · cases hread
    · obtain ⟨regval, _, rfl⟩ := Option.map_eq_some_iff.1 hread
      rw [h]
      exact Nat.mod_lt _ (by decide)

/-- The trick with the first pointer. -/
theorem regmask_first {cap : Nat} (h : cap < 2 ^ 8) : regmask (cap <<< 8 >>> 8) 1 = cap := by
  rw [Nat.shiftLeft_shiftRight]
  exact Nat.mod_eq_of_lt h

theorem nodup_extended {l : List Nat} {s : Registers × Bool} (h : s.1.mPciCap = l.filterMap sp.capAt) :
    (if s.2 then s.1.extended sp else s.1).mPciCap.Nodup ↔ (l.filterMap sp.capAt).Nodup := by
  cases s.2 with
  | false => rw [← h]; rfl
  | true =>
    rcases mPciCap_extended s.1 sp with hext | hext
    · rw [if_pos rfl, hext, h]
    · rw [if_pos rfl, hext, h, List.nodup_append_comm, List.singleton_append, List.nodup_cons]
      exact and_iff_right (aercap_not_mem sp l)

/-- The discovery walks along the list, and then looks at the extended space. -/
theorem discover_eq_walk {work cap : Nat} (hsts : regs.read sp .sts = some work) (hcl : work &&& 0x0010 ≠ 0)
    (hcap : regs.read sp .cap = some cap) (fuel : Nat) : regs.discover sp fuel =
      (Chains.walk sp.next (visit sp) fuel ({ regs with mPciCap := [] }, true) (pointer cap)).map
        fun r => if r.2 then r.1.extended sp else r.1 := by
  have hread : ∀ r, Registers.read { regs with mPciCap := [] } sp r = regs.read sp r := fun _ => rfl
  simp only [discover, hread, hsts, if_neg hcl, hcap, traverse_eq_walk, regmask_first (read_lt rfl hcap)]

/-- There is no list, or there is one to walk along. -/
theorem discover_cases (regs : Registers) (sp : PciSpace) :
    regs.first sp = none ∧ (∀ fuel, regs.discover sp fuel = some { regs with mPciCap := [] }) ∨
      ∀ fuel, regs.discover sp fuel =
        (Chains.walk sp.next (visit sp) fuel ({ regs with mPciCap := [] }, true) (regs.first sp)).map
          fun r => if r.2 then r.1.extended sp else r.1 := by
  have hread : ∀ r, Registers.read { regs with mPciCap := [] } sp r = regs.read sp r := fun _ => rfl
  cases hsts : regs.read sp .sts with
  | none => exact .inl ⟨by rw [first, hsts], fun _ => by simp only [discover, hread, hsts]⟩
  | some work =>
    by_cases hcl : work &&& 0x0010 = 0
    · exact .inl ⟨by simp only [first, hsts, if_pos hcl], fun _ => by simp only [discover, hread, hsts, if_pos hcl]⟩
    · cases hcap : regs.read sp .cap with
      | none =>
        refine .inl ⟨by simp only [first, hsts, if_neg hcl, hcap, Option.bind_none], fun _ => ?_⟩
        simp only [discover, hread, hsts, if_neg hcl, hcap]
      | some cap =>
        have hfirst : regs.first sp = pointer cap := by
          simp only [first, hsts, if_neg hcl, hcap, Option.bind_some]
        exact .inr fun fuel => hfirst ▸ discover_eq_walk hsts hcl hcap fuel

/-- **The discovery ends and records no capability twice exactly if the list of the device ends, with no known
capability on it twice.** -/
theorem discover_iff (regs : Registers) (sp : PciSpace) :
    (∃ fuel r, regs.discover sp fuel = some r ∧ r.mPciCap.Nodup) ↔ regs.ListedOnce sp := by
  unfold ListedOnce
  rcases discover_cases regs sp with ⟨hfirst, hdiscover⟩ | hdiscover
  · rw [hfirst]
    exact iff_of_true ⟨0, _, hdiscover 0, List.nodup_nil⟩ ⟨[], .nil, List.nodup_nil⟩
  · have hwalk := @Chains.exists_walk_iff _ _ sp.next (visit sp) (regs.first sp) ({ regs with mPciCap := [] }, true)
      fun s => (if s.2 then s.1.extended sp else s.1).mPciCap.Nodup
    simp only [hdiscover, Option.map_eq_some_iff]
    constructor
    · rintro ⟨fuel, _, ⟨s, hs, rfl⟩, hnodup⟩
      obtain ⟨l, hl, hgood⟩ := hwalk.1 ⟨fuel, s, hs, hnodup⟩
      exact ⟨l, hl, (nodup_extended (mPciCap_foldl l _)).1 hgood⟩
    · rintro ⟨l, hl, hnodup⟩
      obtain ⟨fuel, s, hs, hgood⟩ := hwalk.2 ⟨l, hl, (nodup_extended (mPciCap_foldl l _)).2 hnodup⟩
      exact ⟨fuel, _, ⟨s, hs, rfl⟩, hgood⟩

/-- A device whose only capability points to itself. -/
def selfPointing : PciSpace where
  byte := fun offset =>
    match offset with
    | 0x06 => 0x10
    | 0x34 => 0x40
    | 0x40 => 0x01
    | 0x41 => 0x40
    | _ => 0
  readable := fun _ _ => true

/-- The discovery does not end. -/
theorem discover_hangs : ¬∃ fuel r, init.discover selfPointing fuel = some r ∧ r.mPciCap.Nodup := by
  rintro ⟨fuel, r, hr, _⟩
  have hfirst : init.first selfPointing = some 0x40 := by decide
  rcases discover_cases init selfPointing with ⟨hnone, _⟩ | hdiscover
  · rw [hfirst] at hnone
    cases hnone
  · rw [hdiscover, hfirst] at hr
    obtain ⟨s, hs, _⟩ := Option.map_eq_some_iff.1 hr
    obtain ⟨l, hl, _⟩ := Chains.walk_eq_some_iff.1 hs
    exact Chains.Chain.not_loop (by decide) hl

end Registers

end Tnvme
