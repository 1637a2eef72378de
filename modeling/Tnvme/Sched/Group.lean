import Mathlib.Data.List.Basic
import Mathlib.Data.List.Nodup
import Mathlib.Data.List.Perm.Subperm

/-!
# Test matrices and test sets

A group holds its tests in a matrix addressed by x, y and z levels; any level may be of any length, also empty. A test
iterator counts the tests that are met on the walk that starts at `0.0.0` and goes on to the next z, else the next y,
else the next x (`next`, `iteraterToTestRef`).

* Every position of the walk after the first one exists (`testExists_of_iter`); the first one is `0.0.0` whether or not
  the group has such a test.
* The walk goes up in the lexicographic order (`iter_lt`), so it ends (`iter_none`) and the searches of the code, which
  run until it ends, are given enough turns (`testRefToIterator_eq_some`, `pushAll_getElem?`).
-/

namespace Tnvme.Sched

/-- `UINT_MAX`, which stands for "all" in a level of a target. -/
def uintMax : Nat := 4294967295

structure TestRef where
  group : Nat
  xLev : Nat
  yLev : Nat
  zLev : Nat
  deriving DecidableEq, Repr, Inhabited

/-- A test object, known by its address. -/
structure Test where
  addr : Nat
  deriving DecidableEq, Repr

structure Group where
  mGrpNum : Nat
  mTests : List (List (List Test))
  deriving DecidableEq, Repr

namespace Group

variable (g : Group)

/-- `mTests[x]` -/
def ys (x : Nat) : List (List Test) := g.mTests.getD x []

/-- `mTests[x][y]` -/
def zs (x y : Nat) : List Test := (g.ys x).getD y []

def testExists (tr : TestRef) : Bool :=
  !(tr.group != g.mGrpNum || decide (g.mTests.length ≤ tr.xLev) || decide ((g.ys tr.xLev).length ≤ tr.yLev) ||
    decide ((g.zs tr.xLev tr.yLev).length ≤ tr.zLev))

/-- One turn of the loop of `iteraterToTestRef`; `none` is its `break`. -/
def next (tr : TestRef) : Option TestRef :=
  if g.testExists ⟨g.mGrpNum, tr.xLev, tr.yLev, tr.zLev + 1⟩ then
    some ⟨g.mGrpNum, tr.xLev, tr.yLev, tr.zLev + 1⟩
  else if g.testExists ⟨g.mGrpNum, tr.xLev, tr.yLev + 1, 0⟩ then
    some ⟨g.mGrpNum, tr.xLev, tr.yLev + 1, 0⟩
  else if g.testExists ⟨g.mGrpNum, tr.xLev + 1, 0, 0⟩ then
    some ⟨g.mGrpNum, tr.xLev + 1, 0, 0⟩
  else none

/-- `count` turns are left to the iterator. -/
def seek : Nat → TestRef → Option TestRef
  | 0, tr => some tr
  | count + 1, tr =>
    match g.next tr with
    | some tr' => seek count tr'
    | none => none

def iteraterToTestRef (testIter : Nat) : Option TestRef := g.seek testIter ⟨g.mGrpNum, 0, 0, 0⟩

/-- All tests of the matrix. -/
def refs : List TestRef :=
  (List.range g.mTests.length).flatMap fun x => (List.range (g.ys x).length).flatMap fun y =>
    (List.range (g.zs x y).length).map fun z => ⟨g.mGrpNum, x, y, z⟩

/-- The loop of `testRefToIterator` from `testIter` on. -/
def searchIter (tr : TestRef) : Nat → Nat → Option Nat
  | 0, _ => none
  | fuel + 1, testIter =>
    match g.iteraterToTestRef testIter with
    | none => none
    | some proposedTr => if tr = proposedTr then some testIter else searchIter tr fuel (testIter + 1)

def testRefToIterator (tr : TestRef) : Option Nat := g.searchIter tr (g.refs.length + 2) 0

/-- The loop of `getTestSet` over a whole group: push the tests from `tstIter` on until there is none. -/
def pushAll : Nat → Nat → List TestRef
  | 0, _ => []
  | fuel + 1, tstIter =>
    match g.iteraterToTestRef tstIter with
    | none => []
    | some thisTest => thisTest :: pushAll fuel (tstIter + 1)

/-- The loop of `getTestSet` over a sequence: push the `count` tests from the iterator `i` on. -/
def pushSequence : Nat → Nat → List TestRef → Bool × List TestRef
  | 0, _, dependencies => (true, dependencies)
  | count + 1, i, dependencies =>
    match g.iteraterToTestRef i with
    | none => (false, dependencies)
    | some thisTest => pushSequence count (i + 1) (dependencies ++ [thisTest])

end Group

/-- What `GetTestSet` gives back: its return value, and the list and index it fills in. The index is `none` for the
source's `-1`. -/
structure TestSet where
  ok : Bool
  dependencies : List TestRef
  tstIdx : Option Nat
  deriving DecidableEq, Repr

/-- No level of the target is `UINT_MAX`: it is a single test, not a whole group. -/
def TestRef.Single (target : TestRef) : Prop :=
  target.xLev ≠ uintMax ∧ target.yLev ≠ uintMax ∧ target.zLev ≠ uintMax

instance (target : TestRef) : Decidable target.Single := inferInstanceAs (Decidable (_ ∧ _ ∧ _))

/-- The configuration test of the x level of `tr`. -/
def TestRef.config (tr : TestRef) : TestRef := ⟨tr.group, tr.xLev, 0, 0⟩

/-- The dependencies that `getTestSet` collects before it walks the sequence of `target`. -/
def Group.configDependency (g : Group) (target : TestRef) : Option (List TestRef) :=
  if target.yLev ≠ 0 then
    if g.testExists target.config then some [target.config] else none
  else some []

def Group.getTestSet (g : Group) (target : TestRef) : TestSet :=
  if target.group ≠ g.mGrpNum then ⟨false, [], none⟩
  else if target.Single then
    if target.yLev = 0 ∧ target.zLev = 0 then ⟨true, [target], some 0⟩
    else if target.zLev = 0 then
      if g.testExists target.config then ⟨true, [target.config, target], some 0⟩ else ⟨false, [], none⟩
    else
      match g.configDependency target with
      | none => ⟨false, [], none⟩
      | some dependencies =>
        match g.testRefToIterator ⟨target.group, target.xLev, target.yLev, 0⟩ with
        | none => ⟨false, dependencies, none⟩
        | some seqIter =>
          match g.testRefToIterator target with
          | none => ⟨false, dependencies, none⟩
          | some targetIter =>
            match g.pushSequence (targetIter - seqIter) seqIter dependencies with
            | (false, dependencies) => ⟨false, dependencies, none⟩
            | (true, dependencies) => ⟨true, dependencies ++ [target], some 0⟩
  else ⟨true, g.pushAll (g.refs.length + 2) 0, some 0⟩

/-! ## The order of the tests -/

namespace TestRef

/-- The lexicographic order of the levels. -/
def Lt (a b : TestRef) : Prop :=
  a.xLev < b.xLev ∨ a.xLev = b.xLev ∧ (a.yLev < b.yLev ∨ a.yLev = b.yLev ∧ a.zLev < b.zLev)

theorem Lt.trans {a b c : TestRef} (h : a.Lt b) (h' : b.Lt c) : a.Lt c := by
  unfold Lt at *; omega

theorem Lt.ne {a b : TestRef} (h : a.Lt b) : a ≠ b := by
  rintro rfl; unfold Lt at h; omega

/-- What a test depends on: the configuration test of its x level and the earlier tests of its sequence. -/
def Requires (b a : TestRef) : Prop :=
  a = b.config ∧ ¬(b.yLev = 0 ∧ b.zLev = 0) ∨ ∃ z < b.zLev, a = ⟨b.group, b.xLev, b.yLev, z⟩

end TestRef

/-! ## Existing tests -/

namespace Group

variable {g : Group}

theorem testExists_iff {tr : TestRef} :
    g.testExists tr = true ↔ tr.group = g.mGrpNum ∧ tr.zLev < (g.zs tr.xLev tr.yLev).length := by
  have hy : g.mTests.length ≤ tr.xLev → (g.zs tr.xLev tr.yLev).length = 0 := by
    intro h
    simp [zs, ys, List.getD_eq_getElem?_getD, List.getElem?_eq_none h]
  have hz : (g.ys tr.xLev).length ≤ tr.yLev → (g.zs tr.xLev tr.yLev).length = 0 := by
    intro h
    simp [zs, List.getD_eq_getElem?_getD, List.getElem?_eq_none h]
  simp only [testExists, Bool.not_eq_true', Bool.or_eq_false_iff, bne_eq_false_iff_eq, decide_eq_false_iff_not]
  omega

/-- With a test all earlier tests of its sequence exist. -/
theorem testExists_earlier {tr : TestRef} (h : g.testExists tr = true) {z : Nat} (hz : z ≤ tr.zLev) :
    g.testExists ⟨tr.group, tr.xLev, tr.yLev, z⟩ = true := by
  rw [testExists_iff] at h ⊢
  exact ⟨h.1, by simp only; omega⟩

theorem mem_refs {tr : TestRef} : tr ∈ g.refs ↔ g.testExists tr = true := by
  simp only [refs, List.mem_flatMap, List.mem_range, List.mem_map]
  constructor
  · rintro ⟨x, _, y, _, z, hz, rfl⟩
    exact testExists_iff.2 ⟨rfl, hz⟩
  · intro h
    have hg := (testExists_iff.1 h).1
    simp only [testExists, Bool.not_eq_true', Bool.or_eq_false_iff, decide_eq_false_iff_not, Nat.not_le] at h
    exact ⟨tr.xLev, h.1.1.2, tr.yLev, h.1.2, tr.zLev, h.2, by rw [← hg]⟩

/-! ## The walk of the iterators -/

theorem next_cases {p q : TestRef} (h : g.next p = some q) :
    g.testExists q = true ∧ (q = ⟨g.mGrpNum, p.xLev, p.yLev, p.zLev + 1⟩ ∨
      q = ⟨g.mGrpNum, p.xLev, p.yLev + 1, 0⟩ ∨ q = ⟨g.mGrpNum, p.xLev + 1, 0, 0⟩) := by
  unfold next at h
  split at h
  · cases h; exact ⟨by assumption, Or.inl rfl⟩
  · split at h
    · cases h; exact ⟨by assumption, Or.inr (Or.inl rfl)⟩
    · split at h
      · cases h; exact ⟨by assumption, Or.inr (Or.inr rfl)⟩
      · cases h

theorem next_lt {p q : TestRef} (h : g.next p = some q) : p.Lt q := by
  rcases (next_cases h).2 with rfl | rfl | rfl <;> simp [TestRef.Lt]

theorem seek_succ (n : Nat) : ∀ p, g.seek (n + 1) p = (g.seek n p).bind g.next := by
  induction n with
  | zero => intro p; cases h : g.next p <;> simp [seek, h]
  | succ n ih =>
    intro p
    rw [seek]
    cases h : g.next p with
    | none => simp [seek, h]
    | some q => simp only [ih q]; simp [seek, h]

theorem iter_zero : g.iteraterToTestRef 0 = some ⟨g.mGrpNum, 0, 0, 0⟩ := rfl

theorem iter_succ (n : Nat) : g.iteraterToTestRef (n + 1) = (g.iteraterToTestRef n).bind g.next := seek_succ n _

theorem iter_succ_some {n : Nat} {q : TestRef} (h : g.iteraterToTestRef (n + 1) = some q) :
    ∃ p, g.iteraterToTestRef n = some p ∧ g.next p = some q := by
  rw [iter_succ] at h
  exact Option.bind_eq_some_iff.1 h

theorem iter_group {n : Nat} {p : TestRef} (h : g.iteraterToTestRef n = some p) : p.group = g.mGrpNum := by
  cases n with
  | zero => cases h; rfl
  | succ n =>
    obtain ⟨q, _, hq⟩ := iter_succ_some h
    rcases (next_cases hq).2 with rfl | rfl | rfl <;> rfl

/-- Every position of the walk but the first exists. -/
theorem testExists_of_iter {n : Nat} {p : TestRef} (h : g.iteraterToTestRef (n + 1) = some p) :
    g.testExists p = true := by
  obtain ⟨q, _, hq⟩ := iter_succ_some h
  exact (next_cases hq).1

/-- The walk has no gaps. -/
theorem iter_some_of_le {m n : Nat} (hmn : m ≤ n) {q : TestRef} (h : g.iteraterToTestRef n = some q) :
    ∃ p, g.iteraterToTestRef m = some p := by
  induction n generalizing q with
  | zero => exact ⟨q, by rwa [Nat.le_zero.1 hmn]⟩
  | succ n ih =>
    rcases Nat.lt_or_eq_of_le hmn with hlt | rfl
    · obtain ⟨p, hp, _⟩ := iter_succ_some h
      exact ih (by omega) hp
    · exact ⟨q, h⟩

/-- The walk goes up. -/
theorem iter_lt {m n : Nat} (hmn : m < n) {p q : TestRef} (hp : g.iteraterToTestRef m = some p)
    (hq : g.iteraterToTestRef n = some q) : p.Lt q := by
  induction n generalizing q with
  | zero => omega
  | succ n ih =>
    obtain ⟨r, hr, hrq⟩ := iter_succ_some hq
    rcases Nat.lt_or_eq_of_le (Nat.le_of_lt_succ hmn) with hlt | rfl
    · exact (ih hlt hr).trans (next_lt hrq)
    · rw [hp] at hr; cases hr; exact next_lt hrq

theorem iter_inj {m n : Nat} {p : TestRef} (hm : g.iteraterToTestRef m = some p)
    (hn : g.iteraterToTestRef n = some p) : m = n := by
  rcases Nat.lt_trichotomy m n with h | h | h
  · exact absurd rfl (iter_lt h hm hn).ne
  · exact h
  · exact absurd rfl (iter_lt h hn hm).ne

/-- The positions `1, ..., n` of a walk that gets that far are different tests, so there are at least `n` tests. -/
theorem le_refs_of_iter {n : Nat} {q : TestRef} (h : g.iteraterToTestRef n = some q) : n ≤ g.refs.length := by
  have hget : ∀ k < n, ∃ p, g.iteraterToTestRef (k + 1) = some p := fun k hk => iter_some_of_le hk h
  choose! at' hat using hget
  have hnodup : ((List.range n).map at').Nodup := by
    refine List.Nodup.map_on ?_ List.nodup_range
    intro i hi j hj hij
    have hi' := hat i (List.mem_range.1 hi)
    rw [hij] at hi'
    have := iter_inj hi' (hat j (List.mem_range.1 hj))
    omega
  have hsub : ((List.range n).map at') ⊆ g.refs := by
    intro p hp
    obtain ⟨k, hk, rfl⟩ := List.mem_map.1 hp
    exact mem_refs.2 (testExists_of_iter (hat k (List.mem_range.1 hk)))
  simpa using (List.subperm_of_subset hnodup hsub).length_le

/-- The walk ends. -/
theorem iter_none {n : Nat} (h : g.refs.length < n) : g.iteraterToTestRef n = none := by
  cases hn : g.iteraterToTestRef n with
  | none => rfl
  | some q => have := le_refs_of_iter hn; omega

/-! ## The searches -/

theorem searchIter_sound {tr : TestRef} {fuel i n : Nat} (h : g.searchIter tr fuel i = some n) :
    g.iteraterToTestRef n = some tr := by
  induction fuel generalizing i with
  | zero => cases h
  | succ fuel ih =>
    rw [searchIter] at h
    cases hi : g.iteraterToTestRef i with
    | none => rw [hi] at h; cases h
    | some p =>
      simp only [hi] at h
      by_cases htr : tr = p
      · rw [if_pos htr] at h; cases h; rw [hi, htr]
      · rw [if_neg htr] at h; exact ih h

theorem searchIter_complete {tr : TestRef} {fuel i n : Nat} (hn : g.iteraterToTestRef n = some tr) (hi : i ≤ n)
    (hf : n < i + fuel) : g.searchIter tr fuel i = some n := by
  induction fuel generalizing i with
  | zero => omega
  | succ fuel ih =>
    obtain ⟨p, hp⟩ := iter_some_of_le hi hn
    simp only [searchIter, hp]
    by_cases htr : tr = p
    · subst htr; rw [if_pos rfl, iter_inj hp hn]
    · have hne : i ≠ n := by rintro rfl; rw [hp] at hn; exact htr (Option.some.inj hn).symm
      rw [if_neg htr, ih (by omega) (by omega)]

/-- The search finds exactly the positions of the walk. -/
theorem testRefToIterator_eq_some {tr : TestRef} {n : Nat} :
    g.testRefToIterator tr = some n ↔ g.iteraterToTestRef n = some tr := by
  refine ⟨searchIter_sound, fun h => searchIter_complete h (Nat.zero_le n) ?_⟩
  have := le_refs_of_iter h
  omega

theorem pushAll_length (fuel i : Nat) : (g.pushAll fuel i).length ≤ fuel := by
  induction fuel generalizing i with
  | zero => simp [pushAll]
  | succ fuel ih =>
    simp only [pushAll]
    split
    · simp
    · simpa using ih (i + 1)

theorem pushAll_getElem?_of_lt {fuel k : Nat} (hk : k < fuel) (i : Nat) :
    (g.pushAll fuel i)[k]? = g.iteraterToTestRef (i + k) := by
  induction fuel generalizing i k with
  | zero => omega
  | succ fuel ih =>
    simp only [pushAll]
    cases hi : g.iteraterToTestRef i with
    | none =>
      cases hk' : g.iteraterToTestRef (i + k) with
      | none => rfl
      | some q =>
        obtain ⟨p, hp⟩ := iter_some_of_le (Nat.le_add_right i k) hk'
        rw [hi] at hp; cases hp
    | some p =>
      cases k with
      | zero => simp [hi]
      | succ k =>
        rw [List.getElem?_cons_succ, ih (by omega)]
        congr 1; omega

/-- The list of a whole group is the whole walk. -/
theorem pushAll_getElem? (k : Nat) :
    (g.pushAll (g.refs.length + 2) 0)[k]? = g.iteraterToTestRef k := by
  by_cases hk : k < g.refs.length + 2
  · rw [pushAll_getElem?_of_lt hk, Nat.zero_add]
  · rw [iter_none (by omega)]
    have := pushAll_length (g := g) (g.refs.length + 2) 0
    exact List.getElem?_eq_none (by omega)

/-- A stretch of the walk that is known is pushed as it is. -/
theorem pushSequence_eq {r : Nat → TestRef} {count i : Nat} (dependencies : List TestRef)
    (h : ∀ k < count, g.iteraterToTestRef (i + k) = some (r k)) :
    g.pushSequence count i dependencies = (true, dependencies ++ (List.range count).map r) := by
  induction count generalizing i r dependencies with
  | zero => simp [pushSequence]
  | succ count ih =>
    have h0 := h 0 (by omega)
    rw [Nat.add_zero] at h0
    simp only [pushSequence, h0]
    have hs : ∀ k < count, g.iteraterToTestRef (i + 1 + k) = some (r (k + 1)) := by
      intro k hk
      rw [show i + 1 + k = i + (k + 1) by omega]
      exact h (k + 1) (by omega)
    rw [ih _ hs]
    simp [List.range_succ_eq_map, Function.comp_def]

/-- From the root of a sequence the walk goes along the sequence. -/
theorem iter_sequence {tr : TestRef} (htr : g.testExists tr = true) {n : Nat}
    (hn : g.iteraterToTestRef n = some ⟨tr.group, tr.xLev, tr.yLev, 0⟩) {z : Nat} (hz : z ≤ tr.zLev) :
    g.iteraterToTestRef (n + z) = some ⟨tr.group, tr.xLev, tr.yLev, z⟩ := by
  induction z with
  | zero => exact hn
  | succ z ih =>
    have hg := (testExists_iff.1 htr).1
    have he := testExists_earlier htr hz
    rw [← Nat.add_assoc, iter_succ, ih (by omega), Option.bind_some, next, ← hg]
    simp [he]

end Group
end Tnvme.Sched
