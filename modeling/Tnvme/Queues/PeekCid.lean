import Mathlib.Data.List.Induction
import Tnvme.Queues.Peek

/-!
# Completions by their CID

`PeekCEwithCID` walks through the memory of a completion queue, as `PeekCE` does, and takes the first place with the
CID for the completion. The controller uses the slots in the round, so a place in front of another one is not always
older or newer; slots that were never written have the CID 0; and what is not a completion is looked at as one when the
entries are larger than the union.

The newest completion with the CID is found exactly if it is met first, and none is made up exactly if nothing else has
the CID (`peekCidExact_iff`).
-/

namespace Tnvme

/-- The bytes 12 and 13 of a completion. -/
def cidOf (ce : List (BitVec 8)) : BitVec 16 := ce[13]?.getD 0 ++ ce[12]?.getD 0

def CQ.peekCEwithCID (cq : CQ) (mem : Nat → BitVec 8) (CIDtoPeek : BitVec 16) : Option (List (BitVec 8)) :=
  cq.toQueue.peekWhere mem sizeofCE fun _ dataPtr => cidOf (entryAt mem dataPtr sizeofCE) == CIDtoPeek

variable {mem : Nat → BitVec 8}

/-- The controller writes completion `k` into its slot, which are used in the round. -/
def post (entrySize size : Nat) (mem : Nat → BitVec 8) (k : Nat) (entry : Nat → BitVec 8) : Nat → BitVec 8 :=
  fun x => if k % size * entrySize ≤ x ∧ x < k % size * entrySize + entrySize then entry (x - k % size * entrySize)
    else mem x

/-- The memory after the completions that have been posted. -/
def posts (entrySize size : Nat) (mem : Nat → BitVec 8) (posted : List (Nat → BitVec 8)) : Nat → BitVec 8 :=
  posted.zipIdx.foldl (fun mem x => post entrySize size mem x.2 x.1) mem

/-- Of `length` completions, `k` has been posted and not been overwritten. -/
def InMemory (size length k : Nat) : Prop := k < length ∧ length ≤ k + size

/-- The last one with the CID. -/
structure Newest (size : Nat) (cids : List (BitVec 16)) (cid : BitVec 16) (k : Nat) : Prop where
  inMemory : InMemory size cids.length k
  cid_eq : cids[k]? = some cid
  last : ∀ k', k < k' → cids[k']? ≠ some cid

/-- The completion in an entry. -/
def completion (entry : Nat → BitVec 8) : List (BitVec 8) := entryAt entry 0 sizeofCE

/-- Whatever else the completions with these CIDs hold, the newest one that has the CID is returned, and an exception is
thrown if there is none. -/
def CQ.PeekCidExact (cq : CQ) (cids : List (BitVec 16)) (cid : BitVec 16) : Prop :=
  ∀ (mem : Nat → BitVec 8) (posted : List (Nat → BitVec 8)),
    (∀ x < cq.mNumEntries * cq.mEntrySize, mem x = 0) → posted.map (fun entry => cidOf (completion entry)) = cids →
    (∀ k entry, Newest cq.mNumEntries cids cid k → posted[k]? = some entry →
      cq.peekCEwithCID (posts cq.mEntrySize cq.mNumEntries mem posted) cid = some (completion entry)) ∧
    ((∀ k, InMemory cq.mNumEntries cids.length k → cids[k]? ≠ some cid) →
      cq.peekCEwithCID (posts cq.mEntrySize cq.mNumEntries mem posted) cid = none)

/-- An initialised queue whose entries have room for a completion. -/
structure CQ.Ready (cq : CQ) : Prop where
  contig : cq.getIsContig ≠ none
  entries : 2 ≤ cq.mNumEntries
  entrySize : ∃ exponent, 4 ≤ exponent ∧ cq.mEntrySize = 2 ^ exponent

/-- The newest one is met first, and nothing else is taken for a completion. -/
structure CQ.CidMet (cq : CQ) (cids : List (BitVec 16)) (cid : BitVec 16) : Prop where
  found : ∀ k, Newest cq.mNumEntries cids cid k → k % cq.mNumEntries = 0 ∨ cq.mEntrySize = sizeofCE ∧
    ∀ k', InMemory cq.mNumEntries cids.length k' → k' % cq.mNumEntries < k % cq.mNumEntries → cids[k']? ≠ some cid
  missed : (∀ k, InMemory cq.mNumEntries cids.length k → cids[k]? ≠ some cid) →
    cq.mEntrySize = sizeofCE ∧ (cid ≠ 0 ∨ cq.mNumEntries ≤ cids.length) ∨ cids = [] ∧ cid ≠ 0

section Memory

variable {entrySize size k x j : Nat} {posted : List (Nat → BitVec 8)} {entry : Nat → BitVec 8}

theorem posts_concat (mem : Nat → BitVec 8) (posted : List (Nat → BitVec 8)) (entry : Nat → BitVec 8) :
    posts entrySize size mem (posted ++ [entry]) =
      post entrySize size (posts entrySize size mem posted) posted.length entry := by
  rw [posts, List.zipIdx_append, List.foldl_append, Nat.zero_add]
  rfl

/-- A completion is written to its own slot only. -/
theorem post_of_ne (hx : x < entrySize) (hne : j ≠ k % size) :
    post entrySize size mem k entry (j * entrySize + x) = mem (j * entrySize + x) := by
  refine if_neg fun hin => hne ?_
  have hdiv (n y : Nat) (hy : y < entrySize) : (n * entrySize + y) / entrySize = n := by
    rw [Nat.mul_comm, Nat.mul_add_div (by omega), Nat.div_eq_of_lt hy, Nat.add_zero]
  have hsame := hdiv (k % size) (j * entrySize + x - k % size * entrySize) (by omega)
  rw [Nat.add_sub_cancel' hin.1, hdiv j x hx] at hsame
  exact hsame

theorem post_self (hx : x < entrySize) :
    post entrySize size mem k entry (k % size * entrySize + x) = entry x := by
  rw [post, if_pos (by omega), Nat.add_sub_cancel_left]

/-- What is in the slot of a completion that has not been overwritten. -/
theorem posts_inMemory (hk : InMemory size posted.length k) (hentry : posted[k]? = some entry) (hx : x < entrySize) :
    posts entrySize size mem posted (k % size * entrySize + x) = entry x := by
  induction posted using List.reverseRecOn with
  | nil => cases hentry
  | append_singleton posted last ih =>
    obtain ⟨hlt, hle⟩ := hk
    rw [List.length_append, List.length_singleton] at hlt hle
    rw [posts_concat]
    rcases Nat.lt_succ_iff_lt_or_eq.1 hlt with hold | rfl
    · have hother : k % size ≠ posted.length % size := fun heq => by
        have hmod : (posted.length - k) % size = 0 := Nat.sub_mod_eq_zero_of_mod_eq heq.symm
        rw [Nat.mod_eq_of_lt (by omega)] at hmod
        omega
      rw [post_of_ne hx hother]
      exact ih ⟨hold, by omega⟩ (by rwa [List.getElem?_append_left hold] at hentry)
    · rw [post_self hx]
      rw [List.getElem?_append_right (Nat.le_refl _), Nat.sub_self] at hentry
      exact congrFun (Option.some.inj hentry) x

/-- A slot that no completion has reached is as it was. -/
theorem posts_unused (hj : posted.length ≤ j) (hsize : j < size) (hx : x < entrySize) :
    posts entrySize size mem posted (j * entrySize + x) = mem (j * entrySize + x) := by
  induction posted using List.reverseRecOn with
  | nil => rfl
  | append_singleton posted last ih =>
    rw [List.length_append, List.length_singleton] at hj
    rw [posts_concat, post_of_ne hx, ih (by omega)]
    rw [Nat.mod_eq_of_lt (by omega)]
    omega

/-- Every slot that has been reached holds a completion. -/
theorem exists_inMemory {length : Nat} (hj : j < size) (hlen : j < length) :
    ∃ k, InMemory size length k ∧ k % size = j := by
  have hpos : 0 < size := Nat.lt_of_le_of_lt (Nat.zero_le _) hj
  refine ⟨j + size * ((length - 1 - j) / size), ⟨?_, ?_⟩, ?_⟩
  · have hle := Nat.mul_div_le (length - 1 - j) size
    omega
  · have hlt := Nat.lt_mul_div_succ (length - 1 - j) hpos
    rw [Nat.mul_add, Nat.mul_one] at hlt
    omega
  · rw [Nat.add_mul_mod_self_left, Nat.mod_eq_of_lt hj]

/-- The union at the place of a completion. -/
theorem entryAt_inMemory (hroom : sizeofCE ≤ entrySize) (hk : InMemory size posted.length k)
    (hentry : posted[k]? = some entry) :
    entryAt (posts entrySize size mem posted) (k % size * entrySize) sizeofCE = completion entry := by
  refine List.map_congr_left fun x hx => ?_
  rw [posts_inMemory hk hentry (Nat.lt_of_lt_of_le (List.mem_range.1 hx) hroom)]

/-- What has been zeroed has the CID 0. -/
theorem cidOf_zero {dataPtr : Nat} (h : ∀ x < sizeofCE, mem (dataPtr + x) = 0) :
    cidOf (entryAt mem dataPtr sizeofCE) = 0 := by
  have hlow : (entryAt mem dataPtr sizeofCE)[12]? = some (mem (dataPtr + 12)) := rfl
  have hhigh : (entryAt mem dataPtr sizeofCE)[13]? = some (mem (dataPtr + 13)) := rfl
  rw [cidOf, hlow, hhigh, h 12 (by decide), h 13 (by decide)]
  rfl

end Memory

section Search

variable {cq : CQ} {cids : List (BitVec 16)} {cid : BitVec 16} {posted : List (Nat → BitVec 8)}

/-- The CID of the cell that the pointer is at. -/
def cellCid (mem : Nat → BitVec 8) (j : Nat) : BitVec 16 := cidOf (entryAt mem (j * sizeofCE) sizeofCE)

theorem peekCEwithCID_eq (hini : cq.getIsContig ≠ none) (mem : Nat → BitVec 8) (cid : BitVec 16) :
    cq.peekCEwithCID mem cid = ((List.range cq.mNumEntries).find? (cellCid mem · == cid)).map
      fun j => entryAt mem (j * sizeofCE) sizeofCE := peekWhere_eq hini

/-- The first cell that has the CID is returned. -/
theorem peekCEwithCID_found (hini : cq.getIsContig ≠ none) {j : Nat} (hj : j < cq.mNumEntries)
    (hcid : cellCid mem j = cid) (hfirst : ∀ i < j, cellCid mem i ≠ cid) :
    cq.peekCEwithCID mem cid = some (entryAt mem (j * sizeofCE) sizeofCE) := by
  have hfind : (List.range cq.mNumEntries).find? (cellCid mem · == cid) = some j :=
    List.find?_range_eq_some.2 ⟨beq_iff_eq.2 hcid, List.mem_range.2 hj, fun i hi => by simpa using hfirst i hi⟩
  rw [peekCEwithCID_eq hini, hfind]
  rfl

theorem peekCEwithCID_missed (hini : cq.getIsContig ≠ none) (h : ∀ j < cq.mNumEntries, cellCid mem j ≠ cid) :
    cq.peekCEwithCID mem cid = none := by
  have hfind : (List.range cq.mNumEntries).find? (cellCid mem · == cid) = none :=
    List.find?_eq_none.2 fun j hj => by simpa using h j (List.mem_range.1 hj)
  rw [peekCEwithCID_eq hini, hfind]
  rfl

/-- If a cell has the CID, it or one in front of it is returned. -/
theorem exists_peekCEwithCID (hini : cq.getIsContig ≠ none) {j : Nat} (hj : j < cq.mNumEntries)
    (hcid : cellCid mem j = cid) :
    ∃ i ≤ j, cq.peekCEwithCID mem cid = some (entryAt mem (i * sizeofCE) sizeofCE) := by
  rw [peekCEwithCID_eq hini]
  cases hfind : (List.range cq.mNumEntries).find? (cellCid mem · == cid) with
  | none => exact absurd hcid (by simpa using List.find?_eq_none.1 hfind j (List.mem_range.2 hj))
  | some i =>
    obtain ⟨-, -, hfirst⟩ := List.find?_range_eq_some.1 hfind
    refine ⟨i, Nat.le_of_not_lt fun hlt => ?_, rfl⟩
    exact absurd hcid (by simpa using hfirst j hlt)

/-- The CID of a completion that is in the list of CIDs. -/
theorem cidOf_completion (hcids : posted.map (fun entry => cidOf (completion entry)) = cids) {k : Nat}
    {entry : Nat → BitVec 8} (hentry : posted[k]? = some entry) : cids[k]? = some (cidOf (completion entry)) := by
  rw [← hcids, List.getElem?_map, hentry]
  rfl

/-- A cell of a queue with entries of the size of the union is a completion. -/
theorem exists_cellCid (hsize : cq.mEntrySize = sizeofCE)
    (hcids : posted.map (fun entry => cidOf (completion entry)) = cids) {j : Nat} (hj : j < cq.mNumEntries)
    (hlen : j < cids.length) :
    ∃ k, InMemory cq.mNumEntries cids.length k ∧ k % cq.mNumEntries = j ∧
      cids[k]? = some (cellCid (posts cq.mEntrySize cq.mNumEntries mem posted) j) := by
  have hlength : posted.length = cids.length := by rw [← hcids, List.length_map]
  obtain ⟨k, hk, hmod⟩ := exists_inMemory hj hlen
  have hlt : k < posted.length := hlength ▸ hk.1
  have hcell := @entryAt_inMemory mem cq.mEntrySize cq.mNumEntries k posted _ (Nat.le_of_eq hsize.symm) (hlength ▸ hk)
    (List.getElem?_eq_getElem hlt)
  refine ⟨k, hk, hmod, ?_⟩
  rw [cidOf_completion hcids (List.getElem?_eq_getElem hlt), cellCid, ← hcell, hmod, hsize]

theorem peekCidExact_of_met (hq : cq.Ready) (h : cq.CidMet cids cid) : cq.PeekCidExact cids cid := by
  intro mem posted hzero hcids
  have hlength : posted.length = cids.length := by rw [← hcids, List.length_map]
  obtain ⟨exponent, hexp, hentry⟩ := hq.entrySize
  have hroom : sizeofCE ≤ cq.mEntrySize := by
    rw [hentry]
    exact Nat.pow_le_pow_right (show 0 < 2 by decide) hexp
  have hpos : 0 < cq.mNumEntries := Nat.lt_of_lt_of_le (by decide) hq.entries
  constructor
  · intro k entry hnew hk
    have hmem := @entryAt_inMemory mem cq.mEntrySize cq.mNumEntries k posted entry hroom (hlength ▸ hnew.inMemory) hk
    have hcid : cidOf (completion entry) = cid := by
      have hsome := cidOf_completion hcids hk
      rw [hnew.cid_eq] at hsome
      exact (Option.some.inj hsome).symm
    rcases h.found k hnew with hfirst | ⟨hsize, hfront⟩
    · rw [hfirst, Nat.zero_mul] at hmem
      have hcell : entryAt (posts cq.mEntrySize cq.mNumEntries mem posted) (0 * sizeofCE) sizeofCE =
          completion entry := by rw [Nat.zero_mul, hmem]
      rw [← hcell]
      exact peekCEwithCID_found hq.contig hpos (by rw [cellCid, hcell, hcid]) fun i hi => absurd hi (Nat.not_lt_zero i)
    · have hcell : entryAt (posts cq.mEntrySize cq.mNumEntries mem posted) (k % cq.mNumEntries * sizeofCE) sizeofCE =
          completion entry := by rw [← hmem, hsize]
      rw [← hcell]
      refine peekCEwithCID_found hq.contig (Nat.mod_lt _ hpos) (by rw [cellCid, hcell, hcid]) fun i hi => ?_
      have hlt : i < cids.length := Nat.lt_trans (Nat.lt_of_lt_of_le hi (Nat.mod_le _ _)) hnew.inMemory.1
      obtain ⟨k', hk', hmod, hsome⟩ :=
        @exists_cellCid mem cq cids posted hsize hcids i (Nat.lt_trans hi (Nat.mod_lt _ hpos)) hlt
      exact fun heq => hfront k' hk' (hmod ▸ hi) (heq ▸ hsome)
  · intro hnone
    refine peekCEwithCID_missed hq.contig fun j hj => ?_
    rcases h.missed hnone with ⟨hsize, hclear⟩ | ⟨rfl, hclear⟩
    · rcases Nat.lt_or_ge j cids.length with hlt | hge
      · obtain ⟨k, hk, -, hsome⟩ := @exists_cellCid mem cq cids posted hsize hcids j hj hlt
        exact fun heq => hnone k hk (heq ▸ hsome)
      · have hunused : cellCid (posts cq.mEntrySize cq.mNumEntries mem posted) j = 0 := by
          refine cidOf_zero fun x hx => ?_
          rw [← hsize] at hx ⊢
          rw [posts_unused (hlength ▸ hge) hj hx]
          refine hzero _ ?_
          have hle := Nat.mul_le_mul_right cq.mEntrySize (Nat.succ_le_of_lt hj)
          rw [Nat.succ_mul] at hle
          omega
        rw [hunused]
        exact (hclear.resolve_right (by omega)).symm
    · have hunused : cellCid (posts cq.mEntrySize cq.mNumEntries mem posted) j = 0 := by
        obtain rfl : posted = [] := List.length_eq_zero_iff.1 hlength
        refine cidOf_zero fun x hx => hzero _ ?_
        have hle := Nat.mul_le_mul (Nat.succ_le_of_lt hj) hroom
        rw [Nat.succ_mul] at hle
        omega
      rw [hunused]
      exact hclear.symm

/-- An entry with a CID at its place, and another one where the union would be that follows it. Its first byte tells it
from all others. -/
def marked (cids : List (BitVec 16)) (cid : BitVec 16) (mark k : Nat) : Nat → BitVec 8
  | 0 => if k = mark then 1 else 0
  | 12 => (cids[k]?.getD 0).setWidth 8
  | 13 => (cids[k]?.getD 0 >>> 8).setWidth 8
  | 28 => cid.setWidth 8
  | 29 => (cid >>> 8).setWidth 8
  | _ => 0

theorem halves (c : BitVec 16) : (c >>> 8).setWidth 8 ++ c.setWidth 8 = c := by
  refine BitVec.eq_of_getLsbD_eq fun i hi => ?_
  rw [BitVec.getLsbD_append, BitVec.getLsbD_setWidth, BitVec.getLsbD_setWidth, BitVec.getLsbD_ushiftRight]
  by_cases hlow : i < 8
  · simp [hlow]
  · simp [hlow, show i - 8 < 8 by omega, show 8 + (i - 8) = i by omega]

theorem cidOf_marked (cids : List (BitVec 16)) (cid : BitVec 16) (mark k : Nat) :
    cidOf (completion (marked cids cid mark k)) = cids[k]?.getD 0 := halves _

theorem map_marked (cids : List (BitVec 16)) (cid : BitVec 16) (mark : Nat) :
    ((List.range cids.length).map (marked cids cid mark)).map (fun entry => cidOf (completion entry)) = cids := by
  refine List.ext_getElem (by simp) fun k hk hk' => ?_
  simp only [List.getElem_map, List.getElem_range, cidOf_marked, List.getElem?_eq_getElem hk', Option.getD_some]

/-- The memory in which the completions cannot be told apart by chance. -/
def markedMem (cq : CQ) (cids : List (BitVec 16)) (cid : BitVec 16) (mark : Nat) : Nat → BitVec 8 :=
  posts cq.mEntrySize cq.mNumEntries (fun _ => 0) ((List.range cids.length).map (marked cids cid mark))

theorem markedMem_inMemory (cid : BitVec 16) (mark : Nat) {k x : Nat}
    (hk : InMemory cq.mNumEntries cids.length k) (hx : x < cq.mEntrySize) :
    markedMem cq cids cid mark (k % cq.mNumEntries * cq.mEntrySize + x) = marked cids cid mark k x := by
  refine posts_inMemory (by simpa using hk) ?_ hx
  rw [List.getElem?_map, List.getElem?_range hk.1]
  rfl

theorem markedMem_unused (cid : BitVec 16) (mark : Nat) {j x : Nat} (hj : cids.length ≤ j) (hsize : j < cq.mNumEntries)
    (hx : x < cq.mEntrySize) : markedMem cq cids cid mark (j * cq.mEntrySize + x) = 0 :=
  posts_unused (by simpa using hj) hsize hx

/-- Of a queue with larger entries, the second cell has the CID as soon as something has been posted. -/
theorem second_cell (hroom : 32 ≤ cq.mEntrySize) (hpos : 0 < cq.mNumEntries) (hlen : 0 < cids.length)
    (cid : BitVec 16) (mark : Nat) : ∃ k, k % cq.mNumEntries = 0 ∧ cellCid (markedMem cq cids cid mark) 1 = cid ∧
      markedMem cq cids cid mark 0 = marked cids cid mark k 0 ∧ markedMem cq cids cid mark 16 = 0 := by
  obtain ⟨k, hk, hmod⟩ := exists_inMemory hpos hlen
  have hread {x : Nat} (hx : x < 32) : markedMem cq cids cid mark x = marked cids cid mark k x := by
    have hbyte := markedMem_inMemory cid mark hk (Nat.lt_of_lt_of_le hx hroom)
    rwa [hmod, Nat.zero_mul, Nat.zero_add] at hbyte
  refine ⟨k, hmod, ?_, hread (by decide), hread (by decide)⟩
  have hlow : (entryAt (markedMem cq cids cid mark) (1 * sizeofCE) sizeofCE)[12]? =
      some (markedMem cq cids cid mark 28) := rfl
  have hhigh : (entryAt (markedMem cq cids cid mark) (1 * sizeofCE) sizeofCE)[13]? =
      some (markedMem cq cids cid mark 29) := rfl
  rw [cellCid, cidOf, hlow, hhigh, hread (by decide), hread (by decide)]
  exact halves cid

theorem CQ.Ready.entrySize_cases (hq : cq.Ready) : cq.mEntrySize = sizeofCE ∨ 32 ≤ cq.mEntrySize := by
  obtain ⟨exponent, hexp, hentry⟩ := hq.entrySize
  rcases Nat.eq_or_lt_of_le hexp with rfl | hlarge
  · exact .inl hentry
  · refine .inr ?_
    rw [hentry]
    exact Nat.pow_le_pow_right (show 0 < 2 by decide) hlarge

/-- Where a completion stands that is not at the first index, something in front of it can have its CID. -/
theorem exists_front (hq : cq.Ready) {k : Nat} (hnew : Newest cq.mNumEntries cids cid k)
    (hindex : k % cq.mNumEntries ≠ 0) (hnot : ¬(cq.mEntrySize = sizeofCE ∧
      ∀ k', InMemory cq.mNumEntries cids.length k' → k' % cq.mNumEntries < k % cq.mNumEntries → cids[k']? ≠ some cid)) :
    ∃ j < cq.mNumEntries, cellCid (markedMem cq cids cid k) j = cid ∧
      ∀ i ≤ j, markedMem cq cids cid k (i * sizeofCE) = 0 := by
  have hpos : 0 < cq.mNumEntries := Nat.lt_of_lt_of_le (by decide) hq.entries
  have hother {k' : Nat} (h : k' % cq.mNumEntries ≠ k % cq.mNumEntries) : marked cids cid k k' 0 = 0 :=
    if_neg fun heq => h (by rw [heq])
  rcases hq.entrySize_cases with hsize | hlarge
  · simp only [hsize, true_and, not_forall, not_not] at hnot
    obtain ⟨k', hk', hlt, hcid⟩ := hnot
    refine ⟨k' % cq.mNumEntries, Nat.mod_lt _ hpos, ?_, fun i hi => ?_⟩
    · have hcell := @entryAt_inMemory (fun _ => 0) cq.mEntrySize cq.mNumEntries k'
        ((List.range cids.length).map (marked cids cid k)) (marked cids cid k k') (Nat.le_of_eq hsize.symm)
        (by simpa using hk') (by rw [List.getElem?_map, List.getElem?_range hk'.1]; rfl)
      have hmarked := cidOf_marked cids cid k k'
      rw [hcid, ← hcell, hsize] at hmarked
      rw [cellCid, markedMem, hsize]
      exact hmarked
    · have hin : i < cids.length := by
        have hle := Nat.mod_le k cq.mNumEntries
        have hlen := hnew.inMemory.1
        omega
      obtain ⟨k'', hk'', hmod⟩ := exists_inMemory (show i < cq.mNumEntries by have := Nat.mod_lt k' hpos; omega) hin
      have hbyte := markedMem_inMemory cid k hk'' (show 0 < cq.mEntrySize by rw [hsize]; decide)
      rw [hmod, hsize, Nat.add_zero] at hbyte
      rw [hbyte]
      exact hother (by omega)
  · have hlen : 0 < cids.length := Nat.lt_of_le_of_lt (Nat.zero_le _) hnew.inMemory.1
    obtain ⟨k', hmod, hcid, hfirst, hsecond⟩ := second_cell hlarge hpos hlen cid k
    refine ⟨1, hq.entries, hcid, fun i hi => ?_⟩
    rcases Nat.le_one_iff_eq_zero_or_eq_one.1 hi with rfl | rfl
    · rw [Nat.zero_mul, hfirst]
      exact hother (by omega)
    · exact hsecond

/-- What is taken for a completion that is not there. -/
theorem exists_false (hq : cq.Ready) (hnot : ¬(cq.mEntrySize = sizeofCE ∧ (cid ≠ 0 ∨ cq.mNumEntries ≤ cids.length) ∨
    cids = [] ∧ cid ≠ 0)) :
    ∃ j < cq.mNumEntries, cellCid (markedMem cq cids cid 0) j = cid := by
  have hpos : 0 < cq.mNumEntries := Nat.lt_of_lt_of_le (by decide) hq.entries
  rcases hq.entrySize_cases with hsize | hlarge
  · have hzero : cid = 0 ∧ cids.length < cq.mNumEntries := by
      by_contra hno
      refine hnot (.inl ⟨hsize, ?_⟩)
      by_cases hcid : cid = 0
      · exact .inr (Nat.le_of_not_lt fun hlt => hno ⟨hcid, hlt⟩)
      · exact .inl hcid
    refine ⟨cids.length, hzero.2, ?_⟩
    rw [hzero.1, cellCid, ← hsize]
    refine hsize ▸ cidOf_zero fun x hx => ?_
    rw [← hsize] at hx ⊢
    exact markedMem_unused 0 0 (Nat.le_refl _) hzero.2 hx
  · by_cases hnil : cids = []
    · have hcid : cid = 0 := by_contra fun hcid => hnot (.inr ⟨hnil, hcid⟩)
      subst hnil hcid
      refine ⟨0, hpos, cidOf_zero fun x hx => ?_⟩
      have hbyte := @markedMem_unused cq [] 0 0 0 x (Nat.le_refl _) hpos (by unfold sizeofCE at hx; omega)
      rwa [Nat.zero_mul] at hbyte ⊢
    · obtain ⟨-, -, hcid, -, -⟩ := second_cell hlarge hpos (List.length_pos_iff.2 hnil) cid 0
      exact ⟨1, hq.entries, hcid⟩

theorem met_of_peekCidExact (hq : cq.Ready) (h : cq.PeekCidExact cids cid) : cq.CidMet cids cid := by
  have hexact (mark : Nat) := h (fun _ => 0) _ (fun _ _ => rfl) (map_marked cids cid mark)
  constructor
  · intro k hnew
    by_contra hnot
    rw [not_or] at hnot
    obtain ⟨j, hj, hcid, hbytes⟩ := exists_front hq hnew hnot.1 hnot.2
    obtain ⟨i, hi, hpeek⟩ := exists_peekCEwithCID hq.contig hj hcid
    have hk : ((List.range cids.length).map (marked cids cid k))[k]? = some (marked cids cid k k) := by
      rw [List.getElem?_map, List.getElem?_range hnew.inMemory.1]
      rfl
    have hsame := (hexact k).1 k _ hnew hk
    rw [← markedMem, hpeek] at hsame
    have hfirst : (entryAt (markedMem cq cids cid k) (i * sizeofCE) sizeofCE)[0]? =
        some (markedMem cq cids cid k (i * sizeofCE)) := rfl
    have hmark : (completion (marked cids cid k k))[0]? = some (if k = k then 1 else 0) := rfl
    rw [Option.some.inj hsame, hmark, hbytes i hi, if_pos rfl] at hfirst
    exact absurd (Option.some.inj hfirst) (by decide)
  · intro hnone
    by_contra hnot
    obtain ⟨j, hj, hcid⟩ := exists_false hq hnot
    obtain ⟨i, -, hpeek⟩ := exists_peekCEwithCID hq.contig hj hcid
    have hno := (hexact 0).2 hnone
    rw [← markedMem, hpeek] at hno
    cases hno

end Search

/-- **The newest completion is found exactly if it is met first and nothing else is taken for one.** -/
theorem peekCidExact_iff {cq : CQ} (hq : cq.Ready) (cids : List (BitVec 16)) (cid : BitVec 16) :
    cq.PeekCidExact cids cid ↔ cq.CidMet cids cid :=
  ⟨met_of_peekCidExact hq, peekCidExact_of_met hq⟩

/-- Three completions of 16 bytes. -/
def threeEntries : CQ := ⟨⟨1, 16, 3, .mem 4096, none⟩, true, 0⟩

theorem ready_threeEntries : threeEntries.Ready := ⟨by decide, by decide, 4, by decide, by decide⟩

/-- One completion in a new queue. -/
theorem peekCidExact_one : threeEntries.PeekCidExact [5#16] 5#16 := by
  refine (peekCidExact_iff ready_threeEntries [5#16] 5#16).2 ⟨fun k hnew => .inl ?_, fun hnone => ?_⟩
  · have hlt : k < 1 := hnew.inMemory.1
    rw [Nat.lt_one_iff.1 hlt]
    rfl
  · exact absurd rfl (hnone 0 ⟨by decide, by decide⟩)

/-- Of two completions with the same CID the older one is met first. -/
theorem peekCid_not_exact : ¬∀ (cq : CQ) (cids : List (BitVec 16)) (cid : BitVec 16), cq.Ready →
    cq.PeekCidExact cids cid := by
  intro h
  have hmet := met_of_peekCidExact ready_threeEntries (h threeEntries [7#16, 7#16] 7#16 ready_threeEntries)
  have hnew : Newest 3 [7#16, 7#16] 7#16 1 := by
    refine ⟨⟨by decide, by decide⟩, rfl, fun k hk => ?_⟩
    rw [List.getElem?_eq_none (Nat.succ_le_of_lt hk)]
    exact nofun
  rcases hmet.found 1 hnew with hfirst | ⟨-, hfront⟩
  · exact absurd hfirst (by decide)
  · exact hfront 0 ⟨by decide, by decide⟩ (by decide) rfl

end Tnvme
