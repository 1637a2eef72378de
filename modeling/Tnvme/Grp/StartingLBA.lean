import Mathlib.Data.BitVec
import Tnvme.Lib.Strides
import Tnvme.Meta.Store

/-!
# Writing and reading every block

`StartingLBABare_r10b` and `StartingLBAMeta_r10b` write the blocks of a namespace and read them again, as many at a time
as a transfer takes. The loop goes on while there is more than one block left. It shortens the last transfer; the number
of blocks goes through the 16 bits of NLB.

A block is left out if the transfers end in front of the last one. `sweeps_iff` says for which namespaces every block is
covered.
-/

namespace Tnvme

/-- What the loop sets of a command: SLBA, NLB and the size of its buffer. -/
structure LbaCmd where
  slba : BitVec 64
  nlb : BitVec 16
  bufSize : BitVec 32
  deriving DecidableEq, Repr

/-- The blocks of a command, with the first one and their number; NLB is 0's based. -/
def LbaCmd.range (c : LbaCmd) : Nat × Nat := (c.slba.toNat, c.nlb.toNat + 1)

/-- What a loop works on: the namespace, the size that a block has in the buffers, the number of blocks of a transfer.
If the meta data are separate, the size of the meta data buffers and the meta data of a block. -/
structure LbaSweep where
  ncap : BitVec 64
  blockSize : BitVec 64
  maxWrBlks : BitVec 64
  metaData : Option (BitVec 32 × BitVec 16)

namespace LbaSweep

variable (sw : LbaSweep)

/-- The lines of `ResizeDataBuf` for one of the commands, which are also those before the loop. -/
def resizeDataBuf (maxWrBlks : BitVec 64) (c : LbaCmd) : LbaCmd :=
  { c with nlb := (maxWrBlks - 1).setWidth 16, bufSize := (maxWrBlks * sw.blockSize).setWidth 32 }

/-- `SetMetaDataPattern` for every block does not throw. It returns if there is no buffer. -/
def setMetaDataPatterns (maxWrBlks : BitVec 64) : Bool :=
  match sw.metaData with
  | none => true
  | some buf => (List.range maxWrBlks.toNat).all fun nLBA =>
    buf.2.setWidth 32 + (BitVec.ofNat 64 nLBA * buf.2.setWidth 64).setWidth 32 ≤ buf.1

/-- The number of blocks of the transfer from a block on. -/
def blocksAt (nWrBlks maxWrBlks : BitVec 64) : BitVec 64 :=
  if sw.ncap ≤ nWrBlks + maxWrBlks then sw.ncap - nWrBlks else maxWrBlks

/-- The commands for the transfer. -/
def cmdsAt (nWrBlks maxWrBlks : BitVec 64) (cmds : LbaCmd × LbaCmd) : LbaCmd × LbaCmd :=
  if sw.ncap ≤ nWrBlks + maxWrBlks then
    (sw.resizeDataBuf (sw.blocksAt nWrBlks maxWrBlks) cmds.1, sw.resizeDataBuf (sw.blocksAt nWrBlks maxWrBlks) cmds.2)
  else cmds

/-- The loop: the writes and reads that are sent, and whether it gets to its end; `none` if it is still running. The
data patterns of the blocks are inside of the buffer (`dataPattern_inside`). -/
def loop : Nat → BitVec 64 → BitVec 64 → LbaCmd × LbaCmd → Option (List (LbaCmd × LbaCmd) × Bool)
  | 0, _, _, _ => none
  | fuel + 1, nWrBlks, maxWrBlks, cmds =>
    if nWrBlks < sw.ncap - 1 then
      let cmds := sw.cmdsAt nWrBlks maxWrBlks cmds
      let maxWrBlks := sw.blocksAt nWrBlks maxWrBlks
      if sw.setMetaDataPatterns maxWrBlks then
        let sent := ({ cmds.1 with slba := nWrBlks }, { cmds.2 with slba := nWrBlks })
        (loop fuel (nWrBlks + maxWrBlks) maxWrBlks sent).map fun r => (sent :: r.1, r.2)
      else some ([], false)
    else some ([], true)

/-- The loop, with commands that are prepared for it. -/
def run (fuel : Nat) : Option (List (LbaCmd × LbaCmd) × Bool) :=
  sw.loop fuel 0 sw.maxWrBlks (sw.resizeDataBuf sw.maxWrBlks ⟨0, 0, 0⟩, sw.resizeDataBuf sw.maxWrBlks ⟨0, 0, 0⟩)

/-- Every block is in one command, and a command has as many blocks as its buffer. -/
structure Exact (cmds : List LbaCmd) : Prop where
  once : Strides.Once sw.ncap.toNat (cmds.map LbaCmd.range)
  blocks : ∀ c ∈ cmds, c.bufSize.toNat = c.range.2 * sw.blockSize.toNat

/-- The loop ends, with writes and reads that are exact. A loop for blocks without meta data has the same ranges. -/
def Covers : Prop :=
  ∃ fuel sent, sw.run fuel = some (sent, true) ∧ sw.Exact (sent.map Prod.fst) ∧ sw.Exact (sent.map Prod.snd) ∧
    ∀ blockSize, ∃ bare, { sw with blockSize := blockSize, metaData := none }.run fuel = some (bare, true) ∧
      bare.map (Prod.map LbaCmd.range LbaCmd.range) = sent.map (Prod.map LbaCmd.range LbaCmd.range)

end LbaSweep

/-- `MAX_DATA_TX_SIZE`, where the device does not limit a transfer. -/
def maxDtXferSz (maxDataXferSize : BitVec 32) : BitVec 32 :=
  if maxDataXferSize = 0 then BitVec.ofNat 32 (256 * 1024) else maxDataXferSize

namespace StartingLBABare_r10b

def sweep (maxDataXferSize : BitVec 32) (ncap lbaDataSize : BitVec 64) : LbaSweep :=
  ⟨ncap, lbaDataSize, (maxDtXferSz maxDataXferSize).setWidth 64 / lbaDataSize, none⟩

end StartingLBABare_r10b

namespace StartingLBAMeta_r10b

/-- `NS_METAS`; the test throws if the meta data buffers do not get their size. -/
def sweepS (drv : Driver) (s : MetaRsrc) (maxDataXferSize : BitVec 32) (ncap lbaDataSize : BitVec 64)
    (MS : BitVec 16) : Option LbaSweep :=
  let maxWrBlks := (maxDtXferSz maxDataXferSize).setWidth 64 / lbaDataSize
  let metaBuffSz : BitVec 32 := (maxWrBlks * MS.setWidth 64).setWidth 32
  if (s.setMetaAllocSize drv metaBuffSz.toNat).2 then some ⟨ncap, lbaDataSize, maxWrBlks, some (metaBuffSz, MS)⟩
  else none

/-- `NS_METAI` -/
def sweepI (maxDataXferSize : BitVec 32) (ncap lbaDataSize : BitVec 64) (MS : BitVec 16) : LbaSweep :=
  let blockSize := lbaDataSize + MS.setWidth 64
  ⟨ncap, blockSize, (maxDtXferSz maxDataXferSize).setWidth 64 / blockSize, none⟩

end StartingLBAMeta_r10b

/-! ## The loop as one over numbers -/

namespace LbaSweep

variable {sw : LbaSweep}

/-- The command for a range. -/
def cmd (sw : LbaSweep) (r : Nat × Nat) : LbaCmd := sw.resizeDataBuf (BitVec.ofNat 64 r.2) ⟨BitVec.ofNat 64 r.1, 0, 0⟩

/-- The command is prepared for a number of blocks. -/
def SetUp (sw : LbaSweep) (maxWrBlks : BitVec 64) (c : LbaCmd) : Prop := sw.resizeDataBuf maxWrBlks c = c

theorem setUp_resizeDataBuf (maxWrBlks : BitVec 64) (c : LbaCmd) :
    sw.SetUp maxWrBlks (sw.resizeDataBuf maxWrBlks c) := rfl

theorem SetUp.slba_eq {n m : BitVec 64} {c : LbaCmd} (h : sw.SetUp m c) :
    { c with slba := n } = sw.cmd (n.toNat, m.toNat) := by
  rw [← h, cmd, BitVec.ofNat_toNat, BitVec.ofNat_toNat, BitVec.setWidth_eq, BitVec.setWidth_eq]
  rfl

theorem setUp_cmd (n : Nat) (m : BitVec 64) : sw.SetUp m (sw.cmd (n, m.toNat)) := by
  unfold SetUp cmd
  rw [BitVec.ofNat_toNat, BitVec.setWidth_eq]
  rfl

theorem setUp_cmdsAt {n m : BitVec 64} {cmds : LbaCmd × LbaCmd} (h : sw.SetUp m cmds.1 ∧ sw.SetUp m cmds.2) :
    sw.SetUp (sw.blocksAt n m) (sw.cmdsAt n m cmds).1 ∧ sw.SetUp (sw.blocksAt n m) (sw.cmdsAt n m cmds).2 := by
  unfold cmdsAt
  split
  · exact ⟨setUp_resizeDataBuf _ _, setUp_resizeDataBuf _ _⟩
  · rename_i hend
    rw [blocksAt, if_neg hend]
    exact h

theorem lt_ncap_iff (hncap : 1 ≤ sw.ncap.toNat) (n : BitVec 64) : n < sw.ncap - 1 ↔ n.toNat < sw.ncap.toNat - 1 := by
  have hle : (1 : BitVec 64) ≤ sw.ncap := BitVec.le_def.2 hncap
  rw [BitVec.lt_def, BitVec.toNat_sub_of_le hle]
  exact Iff.rfl

theorem toNat_blocksAt {n m : BitVec 64} (hn : n.toNat < sw.ncap.toNat - 1) :
    (sw.blocksAt n m).toNat = Strides.next (2 ^ 64) sw.ncap.toNat n.toNat m.toNat := by
  have hle : n ≤ sw.ncap := BitVec.le_def.2 (by omega)
  have hiff : sw.ncap ≤ n + m ↔ sw.ncap.toNat ≤ (n.toNat + m.toNat) % 2 ^ 64 := by
    rw [BitVec.le_def, BitVec.toNat_add]
  unfold blocksAt Strides.next
  by_cases hend : sw.ncap ≤ n + m
  · rw [if_pos hend, if_pos (hiff.1 hend), BitVec.toNat_sub_of_le hle]
  · rw [if_neg hend, if_neg (mt hiff.2 hend)]

/-- Fewer blocks need less meta data. -/
theorem setMetaDataPatterns_mono {k m : BitVec 64} (hle : k.toNat ≤ m.toNat) (h : sw.setMetaDataPatterns m = true) :
    sw.setMetaDataPatterns k = true := by
  unfold setMetaDataPatterns at h ⊢
  split
  · rfl
  · rename_i buf hbuf
    rw [hbuf, List.all_eq_true] at h
    rw [List.all_eq_true]
    exact fun nLBA hlt => h nLBA (List.mem_range.2 (Nat.lt_of_lt_of_le (List.mem_range.1 hlt) hle))

/-- **The loop visits the ranges of its strides.** -/
theorem loop_eq (hncap : 1 ≤ sw.ncap.toNat) {fuel : Nat} {n m : BitVec 64} {cmds : LbaCmd × LbaCmd}
    (hset : sw.SetUp m cmds.1 ∧ sw.SetUp m cmds.2)
    (hmeta : n.toNat < sw.ncap.toNat - 1 → sw.setMetaDataPatterns (sw.blocksAt n m) = true) :
    sw.loop fuel n m cmds = (Strides.visit (2 ^ 64) sw.ncap.toNat fuel n.toNat m.toNat).map fun rs =>
      (rs.map fun r => (sw.cmd r, sw.cmd r), true) := by
  induction fuel generalizing n m cmds with
  | zero => rfl
  | succ fuel ih =>
    unfold loop
    by_cases hn : n.toNat < sw.ncap.toNat - 1
    · obtain ⟨hwrite, hread⟩ := setUp_cmdsAt (n := n) hset
      have hblocks := toNat_blocksAt (m := m) hn
      rw [if_pos ((lt_ncap_iff hncap n).2 hn), Strides.visit_of_lt hn, ← hblocks]
      dsimp only
      rw [if_pos (hmeta hn), hwrite.slba_eq, hread.slba_eq, ih ⟨setUp_cmd _ _, setUp_cmd _ _⟩ ?_, BitVec.toNat_add,
        Option.map_map, Option.map_map]
      · rfl
      · intro hn'
        refine setMetaDataPatterns_mono ?_ (hmeta hn)
        rw [toNat_blocksAt hn']
        exact Strides.next_le _ _ _ _
    · rw [if_neg (mt (lt_ncap_iff hncap n).1 hn), Strides.visit_of_not_lt hn]
      rfl

theorem run_eq (hncap : 1 ≤ sw.ncap.toNat)
    (hmeta : 0 < sw.ncap.toNat - 1 → sw.setMetaDataPatterns (sw.blocksAt 0 sw.maxWrBlks) = true) (fuel : Nat) :
    sw.run fuel = (Strides.visit (2 ^ 64) sw.ncap.toNat fuel 0 sw.maxWrBlks.toNat).map fun rs =>
      (rs.map fun r => (sw.cmd r, sw.cmd r), true) :=
  loop_eq hncap ⟨setUp_resizeDataBuf _ _, setUp_resizeDataBuf _ _⟩ hmeta

/-! ## What is covered -/

/-- There is a block, and a transfer takes one or more of them and is not longer than a buffer can be. -/
structure Transfers (sw : LbaSweep) : Prop where
  ncap : 1 ≤ sw.ncap.toNat
  blockSize : 0 < sw.blockSize.toNat
  maxWrBlks : 0 < sw.maxWrBlks.toNat
  bufSize : sw.maxWrBlks.toNat * sw.blockSize.toNat < 2 ^ 32

theorem Transfers.maxWrBlks_lt (h : sw.Transfers) : sw.maxWrBlks.toNat < 2 ^ 32 :=
  Nat.lt_of_le_of_lt (Nat.le_mul_of_pos_right _ h.blockSize) h.bufSize

/-- The number of blocks of a command is that of its range modulo the width of NLB. -/
theorem range_cmd {r : Nat × Nat} (hfst : r.1 < 2 ^ 64) (hpos : 0 < r.2) (hlt : r.2 < 2 ^ 32) :
    (sw.cmd r).range = (r.1, (r.2 - 1) % 2 ^ 16 + 1) := by
  have hle : (1 : BitVec 64) ≤ BitVec.ofNat 64 r.2 := by
    rw [BitVec.le_def, BitVec.toNat_ofNat, Nat.mod_eq_of_lt (by omega)]
    exact hpos
  have hone : (1 : BitVec 64).toNat = 1 := rfl
  refine Prod.ext ?_ ?_
  · change (BitVec.ofNat 64 r.1).toNat = r.1
    rw [BitVec.toNat_ofNat, Nat.mod_eq_of_lt hfst]
  · change ((BitVec.ofNat 64 r.2 - 1).setWidth 16).toNat + 1 = _
    rw [BitVec.toNat_setWidth, BitVec.toNat_sub_of_le hle, BitVec.toNat_ofNat,
      Nat.mod_eq_of_lt (show r.2 < 2 ^ 64 by omega), hone]

theorem bufSize_cmd (h : sw.Transfers) {r : Nat × Nat} (hle : r.2 ≤ sw.maxWrBlks.toNat) :
    (sw.cmd r).bufSize.toNat = r.2 * sw.blockSize.toNat := by
  have hlt := h.maxWrBlks_lt
  have hprod : r.2 * sw.blockSize.toNat < 2 ^ 32 := Nat.lt_of_le_of_lt (Nat.mul_le_mul_right _ hle) h.bufSize
  change ((BitVec.ofNat 64 r.2 * sw.blockSize).setWidth 32).toNat = _
  rw [BitVec.toNat_setWidth, BitVec.toNat_mul, BitVec.toNat_ofNat, Nat.mod_eq_of_lt (show r.2 < 2 ^ 64 by omega),
    Nat.mod_eq_of_lt (show r.2 * sw.blockSize.toNat < 2 ^ 64 by omega), Nat.mod_eq_of_lt hprod]

/-- The ranges of all commands are those of the strides, if they fit into NLB. -/
theorem map_range_cmd {rs : List (Nat × Nat)} (hrs : ∀ r ∈ rs, r.1 < 2 ^ 64 ∧ 0 < r.2 ∧ r.2 ≤ 2 ^ 16) :
    (rs.map sw.cmd).map LbaCmd.range = rs := by
  rw [List.map_map]
  refine (List.map_congr_left fun r hr => ?_).trans (List.map_id rs)
  obtain ⟨hfst, hpos, hle⟩ := hrs r hr
  change (sw.cmd r).range = r
  rw [range_cmd hfst hpos (by omega), Nat.mod_eq_of_lt (by omega), Nat.sub_add_cancel hpos]

theorem map_fst_pairs (rs : List (Nat × Nat)) :
    (rs.map fun r => (sw.cmd r, sw.cmd r)).map Prod.fst = rs.map sw.cmd := by
  rw [List.map_map]
  rfl

theorem map_snd_pairs (rs : List (Nat × Nat)) :
    (rs.map fun r => (sw.cmd r, sw.cmd r)).map Prod.snd = rs.map sw.cmd := by
  rw [List.map_map]
  rfl

/-- The first transfer fits into NLB. -/
theorem first_le (h : sw.Transfers) {r : Nat × Nat} (hfst : r.1 < 2 ^ 64) (hpos : 0 < r.2)
    (hle : r.2 ≤ sw.maxWrBlks.toNat) (hblocks : (sw.cmd r).bufSize.toNat = (sw.cmd r).range.2 * sw.blockSize.toNat) :
    r.2 ≤ 2 ^ 16 := by
  have hlt := h.maxWrBlks_lt
  rw [bufSize_cmd h hle, range_cmd hfst hpos (by omega)] at hblocks
  have heq : r.2 = (r.2 - 1) % 2 ^ 16 + 1 := Nat.eq_of_mul_eq_mul_right h.blockSize hblocks
  have hmod := Nat.mod_lt (r.2 - 1) (show 0 < 2 ^ 16 by decide)
  omega

/-- The pattern of a block ends inside of the buffer. -/
theorem dataPattern_inside (h : sw.Transfers) {r : Nat × Nat} (hle : r.2 ≤ sw.maxWrBlks.toNat) {nLBA lbaDataSize : Nat}
    (hlt : nLBA < r.2) (hsize : lbaDataSize ≤ sw.blockSize.toNat) :
    nLBA * lbaDataSize + lbaDataSize ≤ (sw.cmd r).bufSize.toNat := by
  rw [bufSize_cmd h hle, ← Nat.succ_mul]
  exact Nat.mul_le_mul hlt hsize

theorem exact_map_cmd (h : sw.Transfers) {rs : List (Nat × Nat)}
    (hrs : ∀ r ∈ rs, r.1 < 2 ^ 64 ∧ 0 < r.2 ∧ r.2 ≤ 2 ^ 16 ∧ r.2 ≤ sw.maxWrBlks.toNat)
    (honce : Strides.Once sw.ncap.toNat rs) : sw.Exact (rs.map sw.cmd) where
  once := by rwa [map_range_cmd fun r hr => ⟨(hrs r hr).1, (hrs r hr).2.1, (hrs r hr).2.2.1⟩]
  blocks := by
    intro c hc
    obtain ⟨r, hr, rfl⟩ := List.mem_map.1 hc
    obtain ⟨hfst, hpos, hnlb, hle⟩ := hrs r hr
    rw [bufSize_cmd h hle, range_cmd hfst hpos (by omega), Nat.mod_eq_of_lt (by omega), Nat.sub_add_cancel hpos]

/-- The strides do not end in front of the last block, the last of them ends below 2^64, and NLB takes a transfer. -/
def Fits (maxWrBlks ncap : Nat) : Prop :=
  (¬maxWrBlks ∣ ncap - 1 ∧ (ncap - 1) / maxWrBlks * maxWrBlks + maxWrBlks < 2 ^ 64) ∧ min maxWrBlks ncap ≤ 2 ^ 16

instance (maxWrBlks ncap : Nat) : Decidable (Fits maxWrBlks ncap) := inferInstanceAs (Decidable (_ ∧ _))

/-- The first block is sent if the test does not throw for its meta data. -/
theorem setMetaDataPatterns_of_run (hncap : 1 ≤ sw.ncap.toNat) {fuel : Nat} {sent : List (LbaCmd × LbaCmd)}
    (h : sw.run fuel = some (sent, true)) (hzero : 0 < sw.ncap.toNat - 1) :
    sw.setMetaDataPatterns (sw.blocksAt 0 sw.maxWrBlks) = true := by
  cases fuel with
  | zero => cases h
  | succ fuel =>
    unfold run loop at h
    rw [if_pos ((lt_ncap_iff hncap 0).2 hzero)] at h
    by_contra hmeta
    dsimp only at h
    rw [if_neg hmeta] at h
    cases h

theorem covers_of_fits (h : sw.Transfers) (hfits : Fits sw.maxWrBlks.toNat sw.ncap.toNat)
    (hmeta : sw.setMetaDataPatterns (sw.blocksAt 0 sw.maxWrBlks) = true) : sw.Covers := by
  obtain ⟨hstrides, hnlb⟩ := hfits
  obtain ⟨fuel, rs, hvisit, honce⟩ := (Strides.once_iff h.maxWrBlks sw.maxWrBlks.isLt sw.ncap.isLt h.ncap).2 hstrides
  have hrs : ∀ r ∈ rs, r.1 < 2 ^ 64 ∧ 0 < r.2 ∧ r.2 ≤ 2 ^ 16 ∧ r.2 ≤ sw.maxWrBlks.toNat := by
    intro r hr
    obtain ⟨hfst, hpos, hle⟩ := Strides.visit_length h.maxWrBlks (by decide) hvisit r hr
    rw [Strides.next_zero sw.maxWrBlks.isLt] at hle
    omega
  have hexact := exact_map_cmd h hrs honce
  refine ⟨fuel, rs.map fun r => (sw.cmd r, sw.cmd r), ?_, ?_, ?_, fun blockSize => ?_⟩
  · rw [run_eq h.ncap fun _ => hmeta, hvisit]
    rfl
  · rwa [map_fst_pairs]
  · rwa [map_snd_pairs]
  · let bare := { sw with blockSize := blockSize, metaData := none }
    refine ⟨rs.map fun r => (bare.cmd r, bare.cmd r), ?_, ?_⟩
    · have hrun := @run_eq bare h.ncap (fun _ => rfl) fuel
      rw [hrun, hvisit]
      rfl
    · rw [List.map_map, List.map_map]
      rfl

theorem fits_of_covers (h : sw.Transfers) (hcovers : sw.Covers) : Fits sw.maxWrBlks.toNat sw.ncap.toNat ∧
    sw.setMetaDataPatterns (sw.blocksAt 0 sw.maxWrBlks) = true := by
  obtain ⟨fuel, sent, hrun, hwrite, -, -⟩ := hcovers
  have hmeta := setMetaDataPatterns_of_run h.ncap hrun
  rw [run_eq h.ncap hmeta] at hrun
  obtain ⟨rs, hvisit, hsent⟩ := Option.map_eq_some_iff.1 hrun
  obtain rfl := (Prod.mk.inj hsent).1
  rw [map_fst_pairs] at hwrite
  have hrs : ∀ r ∈ rs, r.1 < 2 ^ 64 ∧ 0 < r.2 ∧ r.2 ≤ 2 ^ 16 := by
    intro r hr
    obtain ⟨hfst, hpos, hle⟩ := Strides.visit_length h.maxWrBlks (by decide) hvisit r hr
    exact ⟨hfst, hpos, first_le h hfst hpos (Nat.le_trans hle (Strides.next_le _ _ _ _))
      (hwrite.blocks _ (List.mem_map_of_mem hr))⟩
  have honce := hwrite.once
  rw [map_range_cmd hrs] at honce
  have hstrides := (Strides.once_iff h.maxWrBlks sw.maxWrBlks.isLt sw.ncap.isLt h.ncap).1 ⟨fuel, rs, hvisit, honce⟩
  have hzero : 0 < sw.ncap.toNat - 1 := Nat.pos_of_ne_zero fun h0 => hstrides.1 (h0 ▸ Nat.dvd_zero _)
  refine ⟨⟨hstrides, ?_⟩, hmeta hzero⟩
  cases fuel with
  | zero => cases hvisit
  | succ fuel =>
    obtain ⟨rs', -, rfl⟩ := Strides.visit_of_lt_some hzero hvisit
    have hfirst := (hrs _ List.mem_cons_self).2.2
    rwa [Strides.next_zero sw.maxWrBlks.isLt] at hfirst

theorem covers_iff (h : sw.Transfers) : sw.Covers ↔
    Fits sw.maxWrBlks.toNat sw.ncap.toNat ∧ sw.setMetaDataPatterns (sw.blocksAt 0 sw.maxWrBlks) = true :=
  ⟨fits_of_covers h, fun hfits => covers_of_fits h hfits.1 hfits.2⟩

/-! ## The tests -/

theorem toNat_maxWrBlks (maxDtXferSz : BitVec 32) (blockSize : BitVec 64) :
    (maxDtXferSz.setWidth 64 / blockSize).toNat = maxDtXferSz.toNat / blockSize.toNat := by
  rw [BitVec.toNat_udiv, BitVec.toNat_setWidth_of_le (by decide)]

theorem transfers {ncap blockSize : BitVec 64} {maxDtXferSz : BitVec 32} {metaData : Option (BitVec 32 × BitVec 16)}
    (hncap : 1 ≤ ncap.toNat) (hpos : 0 < blockSize.toNat) (hle : blockSize.toNat ≤ maxDtXferSz.toNat) :
    Transfers ⟨ncap, blockSize, maxDtXferSz.setWidth 64 / blockSize, metaData⟩ where
  ncap := hncap
  blockSize := hpos
  maxWrBlks := by
    rw [toNat_maxWrBlks]
    exact Nat.div_pos hle hpos
  bufSize := by
    rw [toNat_maxWrBlks]
    exact Nat.lt_of_le_of_lt (Nat.div_mul_le_self _ _) maxDtXferSz.isLt

theorem Fits.ncap {maxWrBlks ncap : Nat} (h : Fits maxWrBlks ncap) : 0 < ncap - 1 :=
  Nat.pos_of_ne_zero fun h0 => h.1.1 (h0 ▸ Nat.dvd_zero _)

/-- If NLB takes the blocks, the end of the last one is compared with the size of the buffer. -/
theorem setMetaDataPatterns_iff {size : BitVec 32} {MS : BitVec 16} (hmeta : sw.metaData = some (size, MS))
    {k : BitVec 64} (hpos : 0 < k.toNat) (hle : k.toNat ≤ 2 ^ 16) :
    sw.setMetaDataPatterns k = true ↔ k.toNat * MS.toNat ≤ size.toNat := by
  have hMS := MS.isLt
  have hend : ∀ nLBA < k.toNat, (MS.setWidth 32 + (BitVec.ofNat 64 nLBA * MS.setWidth 64).setWidth 32 ≤ size ↔
      (nLBA + 1) * MS.toNat ≤ size.toNat) := by
    intro nLBA hlt
    have hbound : (nLBA + 1) * MS.toNat ≤ 2 ^ 16 * (2 ^ 16 - 1) := Nat.mul_le_mul (by omega) (by omega)
    rw [Nat.succ_mul] at hbound ⊢
    have hlength : (MS.setWidth 32).toNat = MS.toNat := BitVec.toNat_setWidth_of_le (by decide)
    have hoffset : ((BitVec.ofNat 64 nLBA * MS.setWidth 64).setWidth 32).toNat = nLBA * MS.toNat := by
      rw [BitVec.toNat_setWidth, BitVec.toNat_mul, BitVec.toNat_ofNat, BitVec.toNat_setWidth_of_le (by decide),
        Nat.mod_eq_of_lt (show nLBA < 2 ^ 64 by omega), Nat.mod_mod_of_dvd _ (by decide), Nat.mod_eq_of_lt (by omega)]
    rw [BitVec.le_def, BitVec.toNat_add_of_lt (by omega), hlength, hoffset, Nat.add_comm]
  unfold setMetaDataPatterns
  rw [hmeta, List.all_eq_true]
  simp only [decide_eq_true_eq, List.mem_range]
  constructor
  · intro h
    have hlast := (hend _ (Nat.sub_lt hpos Nat.one_pos)).1 (h _ (Nat.sub_lt hpos Nat.one_pos))
    rwa [Nat.sub_add_cancel hpos] at hlast
  · intro h nLBA hlt
    exact (hend nLBA hlt).2 (Nat.le_trans (Nat.mul_le_mul_right _ hlt) h)

theorem toNat_blocksAt_zero (hzero : 0 < sw.ncap.toNat - 1) :
    (sw.blocksAt 0 sw.maxWrBlks).toNat = min sw.maxWrBlks.toNat sw.ncap.toNat := by
  have hlt : (0 : BitVec 64).toNat < sw.ncap.toNat - 1 := hzero
  exact (toNat_blocksAt hlt).trans (Strides.next_zero sw.maxWrBlks.isLt)

/-- The blocks are covered if there are no meta data of their own. -/
theorem covers_iff_of_none (h : sw.Transfers) (hmeta : sw.metaData = none) :
    sw.Covers ↔ Fits sw.maxWrBlks.toNat sw.ncap.toNat := by
  have htrue : sw.setMetaDataPatterns (sw.blocksAt 0 sw.maxWrBlks) = true := by
    unfold setMetaDataPatterns
    rw [hmeta]
  rw [covers_iff h, and_iff_left htrue]

theorem covers_iff_of_some (h : sw.Transfers) {size : BitVec 32} {MS : BitVec 16}
    (hmeta : sw.metaData = some (size, MS)) :
    sw.Covers ↔ Fits sw.maxWrBlks.toNat sw.ncap.toNat ∧
      min sw.maxWrBlks.toNat sw.ncap.toNat * MS.toNat ≤ size.toNat := by
  rw [covers_iff h]
  refine and_congr_right fun hfits => ?_
  have hk := toNat_blocksAt_zero hfits.ncap
  have hpos : 0 < (sw.blocksAt 0 sw.maxWrBlks).toNat := hk ▸ Nat.lt_min.2 ⟨h.maxWrBlks, h.ncap⟩
  rw [setMetaDataPatterns_iff hmeta hpos (hk ▸ hfits.2), hk]

end LbaSweep

/-- A size that is a multiple of 4 is set if nothing is set before. -/
theorem MetaRsrc.setMetaAllocSize_snd_iff {drv : Driver} {s : MetaRsrc} (hs : s.mMetaAllocSize = 0)
    (hgrant : ∀ size, 0 ≤ drv.ioctl s.log (.metabufCreate size)) (allocSize : Nat) :
    (s.setMetaAllocSize drv allocSize).2 = true ↔ 4 ∣ allocSize := by
  unfold setMetaAllocSize
  by_cases heq : s.mMetaAllocSize = allocSize
  · rw [if_pos heq, ← heq, hs]
    exact iff_of_true rfl (Nat.dvd_zero 4)
  · rw [if_neg heq, if_neg (not_not.2 hs), Nat.dvd_iff_mod_eq_zero]
    by_cases hmod : allocSize % 4 = 0
    · rw [if_neg (not_not.2 hmod), if_neg (Int.not_lt.2 (hgrant allocSize))]
      exact iff_of_true rfl hmod
    · rw [if_pos hmod]
      exact iff_of_false Bool.false_ne_true hmod

open LbaSweep

theorem sweep_covers_iff {maxDataXferSize : BitVec 32} {ncap lbaDataSize : BitVec 64} (hncap : 1 ≤ ncap.toNat)
    (hpos : 0 < lbaDataSize.toNat) (hle : lbaDataSize.toNat ≤ (maxDtXferSz maxDataXferSize).toNat) :
    (StartingLBABare_r10b.sweep maxDataXferSize ncap lbaDataSize).Covers ↔
      Fits ((maxDtXferSz maxDataXferSize).toNat / lbaDataSize.toNat) ncap.toNat := by
  have h : Transfers (StartingLBABare_r10b.sweep maxDataXferSize ncap lbaDataSize) := transfers hncap hpos hle
  rw [covers_iff_of_none h rfl, ← toNat_maxWrBlks]
  rfl

theorem sweepI_covers_iff {maxDataXferSize : BitVec 32} {ncap lbaDataSize : BitVec 64} {MS : BitVec 16}
    (hncap : 1 ≤ ncap.toNat) (hpos : 0 < lbaDataSize.toNat)
    (hle : lbaDataSize.toNat + MS.toNat ≤ (maxDtXferSz maxDataXferSize).toNat) :
    (StartingLBAMeta_r10b.sweepI maxDataXferSize ncap lbaDataSize MS).Covers ↔
      Fits ((maxDtXferSz maxDataXferSize).toNat / (lbaDataSize.toNat + MS.toNat)) ncap.toNat := by
  have hlt := (maxDtXferSz maxDataXferSize).isLt
  have hblock : (lbaDataSize + MS.setWidth 64).toNat = lbaDataSize.toNat + MS.toNat := by
    have hMS : (MS.setWidth 64).toNat = MS.toNat := BitVec.toNat_setWidth_of_le (by decide)
    rw [BitVec.toNat_add_of_lt (by omega), hMS]
  have h : Transfers (StartingLBAMeta_r10b.sweepI maxDataXferSize ncap lbaDataSize MS) :=
    transfers hncap (by omega) (by omega)
  rw [covers_iff_of_none h rfl, ← hblock, ← toNat_maxWrBlks]
  rfl

theorem sweepS_covers_iff {drv : Driver} {s : MetaRsrc} (hs : s.mMetaAllocSize = 0)
    (hgrant : ∀ size, 0 ≤ drv.ioctl s.log (.metabufCreate size)) {maxDataXferSize : BitVec 32}
    {ncap lbaDataSize : BitVec 64} {MS : BitVec 16} (hncap : 1 ≤ ncap.toNat) (hpos : 0 < lbaDataSize.toNat)
    (hle : lbaDataSize.toNat ≤ (maxDtXferSz maxDataXferSize).toNat) {maxWrBlks : Nat}
    (hmax : (maxDtXferSz maxDataXferSize).toNat / lbaDataSize.toNat = maxWrBlks) :
    (∃ sw, StartingLBAMeta_r10b.sweepS drv s maxDataXferSize ncap lbaDataSize MS = some sw ∧ sw.Covers) ↔
      Fits maxWrBlks ncap.toNat ∧ 4 ∣ maxWrBlks * MS.toNat % 2 ^ 32 ∧
        min maxWrBlks ncap.toNat * MS.toNat ≤ maxWrBlks * MS.toNat % 2 ^ 32 := by
  have hblks := toNat_maxWrBlks (maxDtXferSz maxDataXferSize) lbaDataSize
  rw [hmax] at hblks
  unfold StartingLBAMeta_r10b.sweepS
  dsimp only
  generalize hsz : (((maxDtXferSz maxDataXferSize).setWidth 64 / lbaDataSize) * MS.setWidth 64).setWidth 32 = metaBuffSz
  have hbuff : metaBuffSz.toNat = maxWrBlks * MS.toNat % 2 ^ 32 := by
    rw [← hsz, BitVec.toNat_setWidth, BitVec.toNat_mul, BitVec.toNat_setWidth_of_le (by decide), hblks,
      Nat.mod_mod_of_dvd _ (by decide)]
  have h : Transfers ⟨ncap, lbaDataSize, (maxDtXferSz maxDataXferSize).setWidth 64 / lbaDataSize,
      some (metaBuffSz, MS)⟩ := transfers hncap hpos hle
  have hcovers := covers_iff_of_some h rfl
  rw [hblks, hbuff] at hcovers
  have hset := MetaRsrc.setMetaAllocSize_snd_iff hs hgrant metaBuffSz.toNat
  rw [hbuff] at hset ⊢
  constructor
  · rintro ⟨sw, hsw, hcov⟩
    split at hsw
    · rename_i hgot
      cases hsw
      have hboth := hcovers.1 hcov
      exact ⟨hboth.1, hset.1 hgot, hboth.2⟩
    · cases hsw
  · rintro ⟨hfits, hdvd, hend⟩
    exact ⟨_, if_pos (hset.2 hdvd), hcovers.2 ⟨hfits, hend⟩⟩

/-- **When the tests cover a namespace.** -/
theorem sweeps_iff {drv : Driver} {s : MetaRsrc} (hs : s.mMetaAllocSize = 0)
    (hgrant : ∀ size, 0 ≤ drv.ioctl s.log (.metabufCreate size)) (maxDataXferSize : BitVec 32)
    (ncap lbaDataSize : BitVec 64) (MS : BitVec 16) (hncap : 1 ≤ ncap.toNat) (hsize : 0 < lbaDataSize.toNat) :
    (lbaDataSize.toNat ≤ (maxDtXferSz maxDataXferSize).toNat →
      ((StartingLBABare_r10b.sweep maxDataXferSize ncap lbaDataSize).Covers ↔
        Fits ((maxDtXferSz maxDataXferSize).toNat / lbaDataSize.toNat) ncap.toNat)) ∧
    (lbaDataSize.toNat ≤ (maxDtXferSz maxDataXferSize).toNat →
      ((∃ sw, StartingLBAMeta_r10b.sweepS drv s maxDataXferSize ncap lbaDataSize MS = some sw ∧ sw.Covers) ↔
        Fits ((maxDtXferSz maxDataXferSize).toNat / lbaDataSize.toNat) ncap.toNat ∧
        4 ∣ (maxDtXferSz maxDataXferSize).toNat / lbaDataSize.toNat * MS.toNat % 2 ^ 32 ∧
        min ((maxDtXferSz maxDataXferSize).toNat / lbaDataSize.toNat) ncap.toNat * MS.toNat ≤
          (maxDtXferSz maxDataXferSize).toNat / lbaDataSize.toNat * MS.toNat % 2 ^ 32)) ∧
    (lbaDataSize.toNat + MS.toNat ≤ (maxDtXferSz maxDataXferSize).toNat →
      ((StartingLBAMeta_r10b.sweepI maxDataXferSize ncap lbaDataSize MS).Covers ↔
        Fits ((maxDtXferSz maxDataXferSize).toNat / (lbaDataSize.toNat + MS.toNat)) ncap.toNat)) := by
  refine ⟨fun hle => sweep_covers_iff hncap hsize hle, fun hle => sweepS_covers_iff hs hgrant hncap hsize hle rfl,
    fun hle => sweepI_covers_iff hncap hsize hle⟩

theorem sweeps_ten : (StartingLBABare_r10b.sweep 4096 10 512).Covers ∧
    (∃ sw, StartingLBAMeta_r10b.sweepS MetaRsrc.grantingDriver MetaRsrc.init 4096 10 512 8 = some sw ∧ sw.Covers) ∧
    (StartingLBAMeta_r10b.sweepI 4096 10 512 8).Covers := by
  obtain ⟨hbare, hmetas, hmetai⟩ := @sweeps_iff MetaRsrc.grantingDriver MetaRsrc.init rfl (fun _ => Int.le_refl 0)
    4096 10 512 8 (by decide) (by decide)
  exact ⟨(hbare (by decide)).2 (by decide), (hmetas (by decide)).2 (by decide), (hmetai (by decide)).2 (by decide)⟩

/-- A transfer takes 16 blocks and there are 17: the last one is not written. -/
theorem last_block_not_covered : ¬(StartingLBABare_r10b.sweep 8192 17 512).Covers :=
  mt (sweep_covers_iff (by decide) (by decide) (by decide)).1 (by decide)

example : (StartingLBABare_r10b.sweep 8192 17 512).run 2 = some ([(⟨0, 15, 8192⟩, ⟨0, 15, 8192⟩)], true) := by decide

end Tnvme
