import Tnvme.Queues.SendAndReap
import Mathlib.Algebra.Ring.Nat
import Mathlib.Data.List.Perm.Subperm

/-!
# Many submission queues with one completion queue

The test keeps the head that it expects of every submission queue in a vector, which is indexed by the identifier of
the queue. `reapIOCQAndVerifyCE` reaps as many entries as there are queues and strikes the queue of each one off. An
identifier that is not of a queue of the test is an index behind the end of the vector.

* `struck`: after some entries, a queue has been struck off if one of them is of it.
* `perm_of_covers`: as many entries as queues, that strike every queue off, are one for each.
-/

namespace Tnvme

/-- What happens while one entry is waited for and reaped. -/
structure ReapRound where
  polls : List Stage
  metrics : Stage
  reap : Stage
  peek : List CE

/-- The ways in which the verification does not return. -/
inductive ManyFault where
  | io (fault : IOFault)
  | status
  | sqhd (expected actual : Nat)
  | neverReceived (sqId : Nat)
  /-- An access behind the end of the vector. -/
  | undefined
  deriving DecidableEq, Repr

namespace ManySQtoCQ

def ushrtMax : Nat := 65535

/-- `NumEntriesIOQ`, after `CAP.MQES` has been read. -/
def numEntriesIOQ (mqes : BitVec 16) : Nat := if mqes.toNat + 1 < 5 then mqes.toNat + 1 else 5

/-- The identifier of the queue that is created as the one with the number `j`. -/
def qId (j : Nat) : Nat := j % 2 ^ 16

/-- The vector for `j` queues: it gets an entry for the last one, and each of the queues is sent a command. -/
def sqidToSQHD (numEntries : Nat) : Nat → List Nat
  | 0 => [ushrtMax]
  | j + 1 => (List.range' 1 (j + 1)).foldl (fun v q => v.modify (qId q) fun sqhd => (sqhd + 1) % numEntries)
      (sqidToSQHD numEntries j ++ [0])

/-- The checks of an entry that has been reaped; the vector afterwards. -/
def verify (v : List Nat) (ce : CE) : Except ManyFault (List Nat) :=
  if !ProcessCE.validatePeek ce .success then .error .status
  else
    match v[ce.SQID.toNat]? with
    | none => .error .undefined
    | some sqhd =>
      if ce.SQHD.toNat ≠ sqhd then .error (.sqhd sqhd ce.SQHD.toNat) else .ok (v.set ce.SQID.toNat ushrtMax)

/-- The last loop, from the index `it` on. -/
def allArrived : List Nat → Nat → Except ManyFault Unit
  | [], _ => .ok ()
  | sqhd :: v, it => if sqhd ≠ ushrtMax then .error (.neverReceived it) else allArrived v (it + 1)

variable {σ : Type} (drv : CQDriver σ) (ms : Nat)

/-- Wait for an entry and reap it. -/
def reapOne (round : ReapRound) (s : σ) : Except IOFault (σ × CE) := do
  match ← drv.doReapInquiry ms 1 round.polls s with
  | none => .error .timedOut
  | some (s, numCE) =>
    if numCE = 0 then .error (.wrongCount numCE)
    else
      let s ← drv.enter round.metrics s
      let headPtr := drv.headPtr s
      let (s, numReaped) ← drv.cqReap round.reap 1 s
      if numReaped ≠ 1 then .error (.reaped 1 numReaped)
      else
        let s := drv.posts s round.peek
        let ce ← drv.peekCE headPtr s
        return (s, ce)

/-- The loop of `ReapIOCQAndVerifyCE`. -/
def reapAndVerify : List ReapRound → σ → List Nat → Except ManyFault (σ × List Nat)
  | [], s, v => .ok (s, v)
  | round :: rounds, s, v => do
    let (s, ce) ← (reapOne drv ms round s).mapError .io
    let v ← verify v ce
    reapAndVerify rounds s v

/-- `ReapIOCQAndVerifyCE`, with a round for each entry. -/
def reapIOCQAndVerifyCE (rounds : List ReapRound) (v : List Nat) (s : σ) : Except ManyFault σ := do
  let (s, v) ← reapAndVerify drv ms rounds s v
  allArrived v 0
  return s

/-- The entries that are reaped, whatever they are, up to a call that fails. -/
def reaped : List ReapRound → σ → List CE
  | [], _ => []
  | round :: rounds, s =>
    match reapOne drv ms round s with
    | .error _ => []
    | .ok (s, ce) => ce :: reaped rounds s

/-! ## The vector -/

/-- The entry is a success, as `ProcessCE` sees it. -/
def Success (ce : CE) : Prop := ProcessCE.validatePeek ce .success = true

instance (ce : CE) : Decidable (Success ce) := inferInstanceAs (Decidable (_ = _))

/-- The vector with the queues of some entries struck off. -/
def struckOff (v : List Nat) (ces : List CE) : List Nat := ces.foldl (fun v ce => v.set ce.SQID.toNat ushrtMax) v

/-- The entry passes the checks behind the entries of `front`. -/
def Passes (v : List Nat) (front : List CE) (ce : CE) : Prop :=
  Success ce ∧ (struckOff v front)[ce.SQID.toNat]? = some ce.SQHD.toNat

instance (v : List Nat) (front : List CE) (ce : CE) : Decidable (Passes v front ce) :=
  inferInstanceAs (Decidable (_ ∧ _))

/-- The identifier of a success that comes behind entries that pass is not in the vector. -/
def Strays (v : List Nat) (ces : List CE) : Prop :=
  ∃ i ce, ces[i]? = some ce ∧ Success ce ∧ v.length ≤ ce.SQID.toNat ∧
    ∀ k < i, ∀ c, ces[k]? = some c → Passes v (ces.take k) c

def verifyAll (v : List Nat) (ces : List CE) : Except ManyFault (List Nat) := ces.foldlM verify v

section Verify

variable {v v' : List Nat} {ce : CE} {ces : List CE}

theorem verify_ok : verify v ce = .ok v' ↔ Passes v [] ce ∧ v' = v.set ce.SQID.toNat ushrtMax := by
  unfold verify Passes Success
  cases hval : ProcessCE.validatePeek ce .success with
  | false => simp
  | true =>
    cases hget : v[ce.SQID.toNat]? with
    | none => simp [struckOff, hget]
    | some sqhd =>
      by_cases hsame : ce.SQHD.toNat = sqhd
      · simp [struckOff, hget, hsame, eq_comm]
      · simp [struckOff, hget, hsame, Ne.symm hsame]

theorem verify_undefined : verify v ce = .error .undefined ↔ Success ce ∧ v.length ≤ ce.SQID.toNat := by
  unfold verify Success
  cases hval : ProcessCE.validatePeek ce .success with
  | false => simp
  | true =>
    cases hget : v[ce.SQID.toNat]? with
    | none => simpa using hget
    | some sqhd =>
      have hlt := (List.getElem?_eq_some_iff.1 hget).1
      by_cases hsame : ce.SQHD.toNat = sqhd
      · simp [hsame]; omega
      · simp [hsame]; omega

theorem verifyAll_cons (v : List Nat) (ce : CE) (ces : List CE) :
    verifyAll v (ce :: ces) = (verify v ce).bind fun v => verifyAll v ces := rfl

/-- The entries that come behind one that passes. -/
theorem strays_cons (hpass : Passes v [] ce) :
    Strays v (ce :: ces) ↔ Strays (v.set ce.SQID.toNat ushrtMax) ces := by
  have hin : ce.SQID.toNat < v.length := (List.getElem?_eq_some_iff.1 hpass.2).1
  constructor
  · rintro ⟨i, c, hc, hsuccess, hout, hfront⟩
    cases i with
    | zero => cases hc; omega
    | succ i =>
      refine ⟨i, c, hc, hsuccess, by rwa [List.length_set], fun k hk c' hc' => ?_⟩
      exact hfront (k + 1) (by omega) c' hc'
  · rintro ⟨i, c, hc, hsuccess, hout, hfront⟩
    refine ⟨i + 1, c, hc, hsuccess, by rwa [List.length_set] at hout, fun k hk c' hc' => ?_⟩
    cases k with
    | zero => cases hc'; exact hpass
    | succ k => exact hfront k (by omega) c' hc'

theorem verifyAll_undefined (v : List Nat) (ces : List CE) : verifyAll v ces = .error .undefined ↔ Strays v ces := by
  induction ces generalizing v with
  | nil =>
    refine iff_of_false (fun h => by cases h) ?_
    rintro ⟨i, c, hc, -⟩
    cases hc
  | cons ce ces ih =>
    rw [verifyAll_cons]
    by_cases hpass : Passes v [] ce
    · rw [verify_ok.2 ⟨hpass, rfl⟩, strays_cons hpass, ← ih]
      rfl
    · have hfirst : Strays v (ce :: ces) ↔ Success ce ∧ v.length ≤ ce.SQID.toNat := by
        constructor
        · rintro ⟨i, c, hc, hsuccess, hout, hfront⟩
          cases i with
          | zero => cases hc; exact ⟨hsuccess, hout⟩
          | succ i => exact absurd (hfront 0 (by omega) ce rfl) hpass
        · rintro ⟨hsuccess, hout⟩
          exact ⟨0, ce, rfl, hsuccess, hout, fun k hk => absurd hk (Nat.not_lt_zero k)⟩
      rw [hfirst, ← verify_undefined]
      cases hres : verify v ce with
      | error fault => exact Iff.rfl
      | ok v' => exact absurd (verify_ok.1 hres).1 hpass

/-- When all entries pass, each of them has done so behind those in front of it. -/
theorem verifyAll_ok : verifyAll v ces = .ok v' ↔
    (∀ k c, ces[k]? = some c → Passes v (ces.take k) c) ∧ v' = struckOff v ces := by
  induction ces generalizing v with
  | nil =>
    constructor
    · rintro h
      cases h
      exact ⟨fun k c hc => (by cases hc), rfl⟩
    · rintro ⟨-, rfl⟩
      rfl
  | cons ce ces ih =>
    rw [verifyAll_cons]
    by_cases hpass : Passes v [] ce
    · rw [verify_ok.2 ⟨hpass, rfl⟩]
      refine ih.trans (and_congr_left fun _ => ⟨fun h k c hc => ?_, fun h k c hc => h (k + 1) c hc⟩)
      cases k with
      | zero => cases hc; exact hpass
      | succ k => exact h k c hc
    · refine iff_of_false (fun h => ?_) fun h => hpass (h.1 0 ce rfl)
      cases hres : verify v ce with
      | error fault => rw [hres] at h; cases h
      | ok v1 => exact hpass (verify_ok.1 hres).1

theorem length_struckOff (v : List Nat) (ces : List CE) : (struckOff v ces).length = v.length := by
  induction ces generalizing v with
  | nil => rfl
  | cons ce ces ih => exact (ih _).trans List.length_set

/-- A queue has been struck off if one of the entries is of it. -/
theorem struckOff_getElem? (v : List Nat) (ces : List CE) {q : Nat} (hq : q < v.length) :
    (struckOff v ces)[q]? = if q ∈ ces.map (·.SQID.toNat) then some ushrtMax else v[q]? := by
  induction ces generalizing v with
  | nil => simp [struckOff]
  | cons ce ces ih =>
    have hrest := ih (v.set ce.SQID.toNat ushrtMax) (by rwa [List.length_set])
    change (struckOff (v.set ce.SQID.toNat ushrtMax) ces)[q]? = _
    rw [hrest, List.map_cons]
    by_cases hmem : q ∈ ces.map (·.SQID.toNat)
    · rw [if_pos hmem, if_pos (List.mem_cons_of_mem _ hmem)]
    · rw [if_neg hmem, List.getElem?_set]
      by_cases hsame : ce.SQID.toNat = q
      · rw [if_pos hsame, if_pos (hsame ▸ hq), if_pos (by rw [hsame]; exact List.mem_cons_self)]
      · have hnot : q ∉ ce.SQID.toNat :: ces.map (·.SQID.toNat) := by
          rw [List.mem_cons, not_or]
          exact ⟨Ne.symm hsame, hmem⟩
        rw [if_neg hsame, if_neg hnot]

theorem allArrived_ok (v : List Nat) (it : Nat) : allArrived v it = .ok () ↔ ∀ x ∈ v, x = ushrtMax := by
  induction v generalizing it with
  | nil => simp [allArrived]
  | cons x v ih =>
    rw [allArrived]
    by_cases hx : x = ushrtMax
    · rw [if_neg (not_not.2 hx), ih]
      simp [hx]
    · rw [if_pos hx]
      simp [hx]

theorem allArrived_defined (v : List Nat) (it : Nat) : allArrived v it ≠ .error .undefined := by
  induction v generalizing it with
  | nil => exact fun h => by cases h
  | cons x v ih =>
    rw [allArrived]
    split
    · exact fun h => by cases h
    · exact ih (it + 1)

end Verify

/-! ## One entry for each queue -/

/-- The entries are successes, one for each of the `j` queues, with the head that is expected of it. -/
structure AllThere (j : Nat) (heads : Nat → Nat) (ces : List CE) : Prop where
  success : ∀ ce ∈ ces, Success ce
  each : (ces.map (·.SQID.toNat)).Perm (List.range' 1 j)
  head : ∀ ce ∈ ces, ce.SQHD.toNat = heads ce.SQID.toNat

/-- The vector has the mark in front, and then the heads of the `j` queues. -/
structure Expects (j : Nat) (heads : Nat → Nat) (v : List Nat) : Prop where
  length : v.length = j + 1
  front : v[0]? = some ushrtMax
  heads_eq : ∀ q, 1 ≤ q → q ≤ j → v[q]? = some (heads q)
  heads_ne : ∀ q, 1 ≤ q → q ≤ j → heads q ≠ ushrtMax

section Each

variable {j : Nat} {heads : Nat → Nat} {v : List Nat} {ces : List CE}

/-- Numbers that are as many as the queues and leave none of them out. -/
theorem perm_of_covers {ids : List Nat} (hlen : ids.length = j) (h : ∀ q, 1 ≤ q → q ≤ j → q ∈ ids) :
    ids.Perm (List.range' 1 j) := by
  have hsub : List.range' 1 j ⊆ ids := by
    intro q hq
    rw [List.mem_range'_1] at hq
    exact h q hq.1 (by omega)
  have hsubperm := List.subperm_of_subset (List.nodup_range' 1 Nat.one_pos) hsub
  exact (hsubperm.perm_of_length_le (by rw [hlen, List.length_range'])).symm

theorem AllThere.of_verified (hv : Expects j heads v) (hlen : ces.length = j)
    (hpass : ∀ k c, ces[k]? = some c → Passes v (ces.take k) c) (hall : ∀ x ∈ struckOff v ces, x = ushrtMax) :
    AllThere j heads ces := by
  have hperm : (ces.map (·.SQID.toNat)).Perm (List.range' 1 j) := by
    refine perm_of_covers (by rw [List.length_map, hlen]) fun q hq hqj => ?_
    by_contra hmem
    have hqv : q < v.length := by rw [hv.length]; omega
    have hstruck := struckOff_getElem? v ces hqv
    rw [if_neg hmem, hv.heads_eq q hq hqj] at hstruck
    exact hv.heads_ne q hq hqj (hall _ (List.mem_of_getElem? hstruck))
  refine ⟨fun ce hce => ?_, hperm, fun ce hce => ?_⟩
  · obtain ⟨k, hk⟩ := List.mem_iff_getElem?.1 hce
    exact (hpass k ce hk).1
  · obtain ⟨k, hk⟩ := List.mem_iff_getElem?.1 hce
    obtain ⟨hklt, hget⟩ := List.getElem?_eq_some_iff.1 hk
    have hhead := (hpass k ce hk).2
    -- no earlier entry is of the same queue
    have hfresh : ce.SQID.toNat ∉ (ces.take k).map (·.SQID.toNat) := by
      intro hmem
      obtain ⟨c, hc, hsame⟩ := List.mem_map.1 hmem
      obtain ⟨i, hi⟩ := List.mem_iff_getElem?.1 hc
      have hik : i < k := by
        have := (List.getElem?_eq_some_iff.1 hi).1
        rw [List.length_take] at this
        omega
      rw [List.getElem?_take, if_pos hik] at hi
      have hnodup := hperm.symm.nodup (List.nodup_range' 1 Nat.one_pos)
      have hi' : (ces.map (·.SQID.toNat))[i]? = (ces.map (·.SQID.toNat))[k]? := by
        rw [List.getElem?_map, List.getElem?_map, hi, hk, Option.map_some, Option.map_some, hsame]
      have := (List.getElem?_inj (by rw [List.length_map]; omega) hnodup).1 hi'
      omega
    have hin : ce.SQID.toNat < v.length := by
      have := (List.getElem?_eq_some_iff.1 hhead).1
      rwa [length_struckOff] at this
    have hrange := List.mem_range'_1.1 (hperm.mem_iff.1 (List.mem_map_of_mem hce))
    rw [struckOff_getElem? v _ hin, if_neg hfresh, hv.heads_eq _ hrange.1 (by omega)] at hhead
    exact (Option.some.inj hhead).symm

theorem AllThere.verified (hv : Expects j heads v) (h : AllThere j heads ces) :
    (∀ k c, ces[k]? = some c → Passes v (ces.take k) c) ∧ ∀ x ∈ struckOff v ces, x = ushrtMax := by
  constructor
  · intro k c hk
    have hc := List.mem_of_getElem? hk
    have hrange := List.mem_range'_1.1 (h.each.mem_iff.1 (List.mem_map_of_mem hc))
    have hhead := hv.heads_eq _ hrange.1 (by omega)
    have hin := (List.getElem?_eq_some_iff.1 hhead).1
    refine ⟨h.success c hc, ?_⟩
    rw [struckOff_getElem? v _ hin, if_neg, hhead, h.head c hc]
    intro hmem
    have hnodup := h.each.symm.nodup (List.nodup_range' 1 Nat.one_pos)
    have hsplit : ces = ces.take k ++ c :: ces.drop (k + 1) := by
      obtain ⟨hklt, hget⟩ := List.getElem?_eq_some_iff.1 hk
      rw [← hget, List.getElem_cons_drop, List.take_append_drop]
    rw [hsplit, List.map_append, List.map_cons, List.nodup_append] at hnodup
    exact hnodup.2.2 _ hmem _ List.mem_cons_self rfl
  · intro x hx
    obtain ⟨q, hq⟩ := List.mem_iff_getElem?.1 hx
    have hqv : q < v.length := by
      have := (List.getElem?_eq_some_iff.1 hq).1
      rwa [length_struckOff] at this
    rw [struckOff_getElem? v ces hqv] at hq
    split at hq
    · exact (Option.some.inj hq).symm
    · rename_i hmem
      have hzero : q = 0 := by
        by_contra hne
        refine hmem (h.each.mem_iff.2 (List.mem_range'_1.2 ⟨by omega, ?_⟩))
        have := hv.length
        omega
      rw [hzero, hv.front] at hq
      exact (Option.some.inj hq).symm

end Each

/-! ## The heads that are expected -/

/-- The queue `q` of `j` has been sent a command for each queue from itself on. -/
def headOf (numEntries j q : Nat) : Nat := (j + 1 - q) % numEntries

theorem numEntriesIOQ_le (mqes : BitVec 16) : numEntriesIOQ mqes ≤ 5 := by
  unfold numEntriesIOQ
  split <;> omega

theorem numEntriesIOQ_pos (mqes : BitVec 16) : 0 < numEntriesIOQ mqes := by
  unfold numEntriesIOQ
  split <;> omega

/-- One command is sent into each of the first `m` queues. -/
theorem send_getElem? (n : Nat) (v : List Nat) {m : Nat} (hm : m < 2 ^ 16) (q : Nat) :
    ((List.range' 1 m).foldl (fun v q => v.modify (qId q) fun sqhd => (sqhd + 1) % n) v)[q]? =
      if 1 ≤ q ∧ q ≤ m then v[q]?.map fun sqhd => (sqhd + 1) % n else v[q]? := by
  induction m with
  | zero =>
    rw [if_neg (by omega)]
    rfl
  | succ m ih =>
    have hid : qId (1 + 1 * m) = m + 1 := by
      unfold qId
      omega
    rw [List.range'_concat, List.foldl_append, List.foldl_cons, List.foldl_nil, List.getElem?_modify, hid,
      ih (by omega)]
    by_cases hq : m + 1 = q
    · simp only [if_pos hq, Option.map_eq_map]
      rw [if_neg (by omega), if_pos (by omega)]
    · simp only [if_neg hq, Option.map_eq_map, Option.map_id']
      by_cases hin : 1 ≤ q ∧ q ≤ m
      · rw [if_pos hin, if_pos (by omega)]
      · rw [if_neg hin, if_neg (by omega)]

theorem length_send (n : Nat) (v : List Nat) (qs : List Nat) :
    (qs.foldl (fun v q => v.modify (qId q) fun sqhd => (sqhd + 1) % n) v).length = v.length := by
  induction qs generalizing v with
  | nil => rfl
  | cons q qs ih => exact (ih _).trans (List.length_modify _ _ _)

theorem length_sqidToSQHD (n j : Nat) : (sqidToSQHD n j).length = j + 1 := by
  induction j with
  | zero => rfl
  | succ j ih => rw [sqidToSQHD, length_send, List.length_append, ih, List.length_singleton]

/-- The vector that is handed over has the heads, as long as there are identifiers for the queues. -/
theorem expects_sqidToSQHD (mqes : BitVec 16) {j : Nat} (hj : j < 2 ^ 16) :
    Expects j (headOf (numEntriesIOQ mqes) j) (sqidToSQHD (numEntriesIOQ mqes) j) := by
  have hle := numEntriesIOQ_le mqes
  have hpos := numEntriesIOQ_pos mqes
  have hget : (sqidToSQHD (numEntriesIOQ mqes) j)[0]? = some ushrtMax ∧ ∀ q, 1 ≤ q → q ≤ j →
      (sqidToSQHD (numEntriesIOQ mqes) j)[q]? = some (headOf (numEntriesIOQ mqes) j q) := by
    induction j with
    | zero => exact ⟨rfl, fun q h1 h2 => by omega⟩
    | succ j ih =>
      obtain ⟨hfront, hheads⟩ := ih (by omega)
      have hlen := length_sqidToSQHD (numEntriesIOQ mqes) j
      refine ⟨?_, fun q h1 h2 => ?_⟩
      · rw [sqidToSQHD, send_getElem? _ _ hj, if_neg (by omega), List.getElem?_append_left (by omega), hfront]
      · rw [sqidToSQHD, send_getElem? _ _ hj, if_pos ⟨h1, h2⟩]
        by_cases hlast : q = j + 1
        · rw [hlast, List.getElem?_append_right (by omega), hlen, Nat.sub_self]
          simp [headOf]
        · rw [List.getElem?_append_left (by omega), hheads q h1 (by omega), Option.map_some, headOf, headOf,
            Nat.mod_add_mod, show j + 1 - q + 1 = j + 1 + 1 - q by omega]
  refine ⟨length_sqidToSQHD _ _, hget.1, hget.2, fun q _ _ => ?_⟩
  have := Nat.mod_lt (j + 1 - q) hpos
  unfold headOf ushrtMax
  omega

/-- A queue that has no identifier of its own is never sent a command. -/
theorem sqidToSQHD_beyond (n : Nat) {j : Nat} (hj : 2 ^ 16 ≤ j) : (sqidToSQHD n j)[j]? = some 0 := by
  obtain ⟨j, rfl⟩ : ∃ i, j = i + 1 := ⟨j - 1, by omega⟩
  have hkeep (qs : List Nat) (v : List Nat) :
      (qs.foldl (fun v q => v.modify (qId q) fun sqhd => (sqhd + 1) % n) v)[j + 1]? = v[j + 1]? := by
    induction qs generalizing v with
    | nil => rfl
    | cons q qs ih =>
      have hid : qId q ≠ j + 1 := by
        unfold qId
        omega
      rw [List.foldl_cons, ih, List.getElem?_modify]
      simp only [if_neg hid, Option.map_eq_map, Option.map_id']
  rw [sqidToSQHD, hkeep, List.getElem?_append_right (by rw [length_sqidToSQHD]), length_sqidToSQHD, Nat.sub_self]
  rfl

/-! ## The verification -/

section Run

variable {σ : Type} {drv : CQDriver σ} {ms : Nat} {rounds : List ReapRound} {s : σ} {v v' : List Nat}

theorem reapAndVerify_cons {round : ReapRound} {s1 : σ} {ce : CE} (h : reapOne drv ms round s = .ok (s1, ce)) :
    reapAndVerify drv ms (round :: rounds) s v = (verify v ce).bind fun v => reapAndVerify drv ms rounds s1 v := by
  rw [reapAndVerify, h]
  rfl

theorem reaped_cons {round : ReapRound} {s1 : σ} {ce : CE} (h : reapOne drv ms round s = .ok (s1, ce)) :
    reaped drv ms (round :: rounds) s = ce :: reaped drv ms rounds s1 := by rw [reaped, h]

theorem reaped_fail {round : ReapRound} {fault : IOFault} (h : reapOne drv ms round s = .error fault) :
    reapAndVerify drv ms (round :: rounds) s v = .error (.io fault) ∧ reaped drv ms (round :: rounds) s = [] := by
  rw [reapAndVerify, reaped, h]
  exact ⟨rfl, rfl⟩

/-- The loop verifies what is reaped. -/
theorem reapAndVerify_ok : (∃ s', reapAndVerify drv ms rounds s v = .ok (s', v')) ↔
    (reaped drv ms rounds s).length = rounds.length ∧ verifyAll v (reaped drv ms rounds s) = .ok v' := by
  induction rounds generalizing s v with
  | nil =>
    constructor
    · rintro ⟨s', h⟩
      cases h
      exact ⟨rfl, rfl⟩
    · rintro ⟨-, h⟩
      cases h
      exact ⟨s, rfl⟩
  | cons round rounds ih =>
    cases hone : reapOne drv ms round s with
    | error fault =>
      rw [(reaped_fail hone).1, (reaped_fail (v := v) hone).2]
      exact iff_of_false (fun ⟨s', h⟩ => by cases h) fun h => absurd h.1 (by simp)
    | ok res =>
      obtain ⟨s1, ce⟩ := res
      rw [reapAndVerify_cons hone, reaped_cons hone, verifyAll_cons, List.length_cons, List.length_cons,
        Nat.add_right_cancel_iff]
      cases hver : verify v ce with
      | error fault => exact iff_of_false (fun ⟨s', h⟩ => by cases h) fun h => by cases h.2
      | ok v1 => exact ih

theorem reapAndVerify_undefined : reapAndVerify drv ms rounds s v = .error .undefined ↔
    verifyAll v (reaped drv ms rounds s) = .error .undefined := by
  induction rounds generalizing s v with
  | nil => exact iff_of_false (fun h => by cases h) fun h => by cases h
  | cons round rounds ih =>
    cases hone : reapOne drv ms round s with
    | error fault =>
      rw [(reaped_fail hone).1, (reaped_fail (v := v) hone).2]
      exact iff_of_false (fun h => by cases h) fun h => by cases h
    | ok res =>
      obtain ⟨s1, ce⟩ := res
      rw [reapAndVerify_cons hone, reaped_cons hone, verifyAll_cons]
      cases hver : verify v ce with
      | error fault => exact ⟨fun h => by cases h; rfl, fun h => by cases h; rfl⟩
      | ok v1 => exact ih

theorem run_ok : (∃ s', reapIOCQAndVerifyCE drv ms rounds v s = .ok s') ↔
    (reaped drv ms rounds s).length = rounds.length ∧
      (∀ k c, (reaped drv ms rounds s)[k]? = some c → Passes v ((reaped drv ms rounds s).take k) c) ∧
      ∀ x ∈ struckOff v (reaped drv ms rounds s), x = ushrtMax := by
  constructor
  · rintro ⟨s', h⟩
    obtain ⟨⟨s1, v1⟩, hloop, h⟩ := Outcomes.bind_eq_ok.1 h
    obtain ⟨⟨⟩, hall, -⟩ := Outcomes.bind_eq_ok.1 h
    obtain ⟨hlen, hver⟩ := reapAndVerify_ok.1 ⟨s1, hloop⟩
    obtain ⟨hpass, rfl⟩ := verifyAll_ok.1 hver
    exact ⟨hlen, hpass, (allArrived_ok _ 0).1 hall⟩
  · rintro ⟨hlen, hpass, hall⟩
    obtain ⟨s1, hloop⟩ := reapAndVerify_ok.2 ⟨hlen, verifyAll_ok.2 ⟨hpass, rfl⟩⟩
    refine ⟨s1, ?_⟩
    rw [reapIOCQAndVerifyCE, hloop]
    change (allArrived _ 0 >>= fun _ => Except.ok s1) = _
    rw [(allArrived_ok _ 0).2 hall]
    rfl

theorem run_undefined : reapIOCQAndVerifyCE drv ms rounds v s = .error .undefined ↔
    Strays v (reaped drv ms rounds s) := by
  rw [← verifyAll_undefined, ← reapAndVerify_undefined, reapIOCQAndVerifyCE]
  cases hloop : reapAndVerify drv ms rounds s v with
  | error fault => exact ⟨fun h => by cases h; rfl, fun h => by cases h; rfl⟩
  | ok res =>
    obtain ⟨s1, v1⟩ := res
    refine iff_of_false (fun h => ?_) fun h => by cases h
    change (allArrived v1 0 >>= fun _ => Except.ok s1) = _ at h
    cases hall : allArrived v1 0 with
    | error fault =>
      rw [hall] at h
      cases h
      exact allArrived_defined v1 0 hall
    | ok _ => rw [hall] at h; cases h

end Run

/-- The verification returns exactly if the entries that it reaps are one success for each queue with its head, and
it stays in its vector. -/
def Exact {σ : Type} (drv : CQDriver σ) (ms : Nat) (mqes : BitVec 16) (rounds : List ReapRound) (s : σ) : Prop :=
  ((∃ s', reapIOCQAndVerifyCE drv ms rounds (sqidToSQHD (numEntriesIOQ mqes) rounds.length) s = .ok s') ↔
    (reaped drv ms rounds s).length = rounds.length ∧
      AllThere rounds.length (headOf (numEntriesIOQ mqes) rounds.length) (reaped drv ms rounds s)) ∧
  reapIOCQAndVerifyCE drv ms rounds (sqidToSQHD (numEntriesIOQ mqes) rounds.length) s ≠ .error .undefined

/-- **The verification is exact as long as no entry strays.** -/
theorem exact_iff {σ : Type} (drv : CQDriver σ) (ms : Nat) (mqes : BitVec 16) (rounds : List ReapRound) (s : σ) :
    Exact drv ms mqes rounds s ↔
      ¬Strays (sqidToSQHD (numEntriesIOQ mqes) rounds.length) (reaped drv ms rounds s) := by
  rw [Exact, Ne, run_undefined, run_ok]
  refine and_iff_right (and_congr_right fun hlen => ?_)
  by_cases hj : rounds.length < 2 ^ 16
  · have hv := expects_sqidToSQHD mqes hj
    exact ⟨fun h => AllThere.of_verified hv hlen h.1 h.2, AllThere.verified hv⟩
  · -- the last queue cannot be named by an entry
    have hlast := sqidToSQHD_beyond (numEntriesIOQ mqes) (Nat.le_of_not_lt hj)
    have hmem : rounds.length ∉ (reaped drv ms rounds s).map (·.SQID.toNat) := by
      intro hmem
      obtain ⟨ce, _, hid⟩ := List.mem_map.1 hmem
      have := ce.SQID.isLt
      omega
    refine iff_of_false (fun h => ?_) fun h => hmem (h.each.mem_iff.2 (List.mem_range'_1.2 (by omega)))
    have hget := struckOff_getElem? (sqidToSQHD (numEntriesIOQ mqes) rounds.length) (reaped drv ms rounds s)
      (q := rounds.length) (by rw [length_sqidToSQHD]; omega)
    rw [if_neg hmem, hlast] at hget
    exact absurd (h.2 0 (List.mem_of_getElem? hget)) (by decide)

/-- One submission queue, and a completion that names another. -/
def strayCE : CE := { successCE with SQID := 2, SQHD := 1 }

def roundOf (ces : List CE) : ReapRound := ⟨[⟨ces, false⟩], noPosts, noPosts, []⟩

theorem not_exact : ¬∀ (σ : Type) (drv : CQDriver σ) (ms : Nat) (mqes : BitVec 16) (rounds : List ReapRound) (s : σ),
    Exact drv ms mqes rounds s := by
  intro h
  have hstray : reapIOCQAndVerifyCE (ringDriver 4) 1 [roundOf [strayCE]] (sqidToSQHD (numEntriesIOQ 7) 1) emptyRing =
      .error .undefined := rfl
  exact (h _ (ringDriver 4) 1 7 [roundOf [strayCE]] emptyRing).2 hstray

end ManySQtoCQ
end Tnvme
