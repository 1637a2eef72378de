import Tnvme.Sched.Group
import Mathlib.Data.List.Pairwise

/-!
# The tests of a group in order

The walk of the iterators next to the triple loop of `getGroupSummary`. With no empty level in the matrix the walk
misses no test: from the last test of a sequence it goes on to the next sequence, from the last sequence of an x level
to the next x level (`iter_complete`). It is then the list `refs` of the triple loop (`iter_eq_refs`).
-/

namespace Tnvme.Sched

/-- The texts of a test object. -/
structure Descriptions where
  getShortDescription : String
  getComplianceDescription : String
  getLongDescription : Bool → Nat → String

namespace Group

variable (g : Group)

def padIndentLvl1 : String := "    "

def padIndentLvl2 : String := "      "

def newline : String := "\n"

/-- `FORMAT_TEST_NUM`; its buffer has room for 39 characters. -/
def formatTestNum (padStr : String) (x y z : Nat) : String :=
  String.ofList ((padStr ++ toString x ++ "." ++ toString y ++ "." ++ toString z ++ ": Test: ").toList.take 39)

def getTestDescription (texts : Test → Descriptions) (verbose : Bool) (tr : TestRef) : String :=
  let work := formatTestNum padIndentLvl1 tr.xLev tr.yLev tr.zLev
  if !g.testExists tr then work ++ "unknown test" ++ newline
  else
    match (g.zs tr.xLev tr.yLev)[tr.zLev]? with
    | none => work  -- not reached: the test exists
    | some test =>
      if verbose then
        work ++ (texts test).getShortDescription ++ newline ++ padIndentLvl2 ++ "Compliance: " ++
          (texts test).getComplianceDescription ++ newline ++
          -- `sizeof` counts the zero at the end of the indent
          (texts test).getLongDescription true (padIndentLvl2.length + 1 + 2)
      else work ++ (texts test).getShortDescription ++ newline

variable {σ : Type}

/-- The three loops of `getGroupSummary` with `visit` for their body. -/
def summaryLoop (visit : σ → TestRef → σ) (work : σ) : σ :=
  (List.range g.mTests.length).foldl (fun work x =>
    (List.range (g.ys x).length).foldl (fun work y =>
      (List.range (g.zs x y).length).foldl (fun work z => visit work ⟨g.mGrpNum, x, y, z⟩) work) work) work

def getGroupSummary (texts : Test → Descriptions) (verbose : Bool) : String :=
  g.summaryLoop (fun work tr => work ++ g.getTestDescription texts verbose tr) ""

/-- No level of the matrix is empty. -/
structure NonemptyLevels : Prop where
  xs : g.mTests ≠ []
  ys : ∀ y ∈ g.mTests, y ≠ []
  zs : ∀ y ∈ g.mTests, ∀ z ∈ y, z ≠ []

variable {g}

/-! ## The triple loop -/

theorem summaryLoop_eq (visit : σ → TestRef → σ) (work : σ) :
    g.summaryLoop visit work = g.refs.foldl visit work := by
  simp only [summaryLoop, refs, List.foldl_flatMap, List.foldl_map]

/-- The triple loop goes up. -/
theorem refs_pairwise : g.refs.Pairwise TestRef.Lt := by
  refine List.pairwise_flatMap.2 ⟨fun x _ => List.pairwise_flatMap.2 ⟨fun y _ => ?_, ?_⟩, ?_⟩
  · rw [List.pairwise_map]
    exact List.pairwise_lt_range.imp fun h => Or.inr ⟨rfl, Or.inr ⟨rfl, h⟩⟩
  · refine List.pairwise_lt_range.imp fun {y y'} h => ?_
    intro p hp q hq
    obtain ⟨z, _, rfl⟩ := List.mem_map.1 hp
    obtain ⟨z', _, rfl⟩ := List.mem_map.1 hq
    exact Or.inr ⟨rfl, Or.inl h⟩
  · refine List.pairwise_lt_range.imp fun {x x'} h => ?_
    intro p hp q hq
    obtain ⟨y, _, hp⟩ := List.mem_flatMap.1 hp
    obtain ⟨y', _, hq⟩ := List.mem_flatMap.1 hq
    obtain ⟨z, _, rfl⟩ := List.mem_map.1 hp
    obtain ⟨z', _, rfl⟩ := List.mem_map.1 hq
    exact Or.inl h

/-! ## The walk misses nothing -/

namespace NonemptyLevels

variable (h : g.NonemptyLevels)

include h

theorem ys_pos {x : Nat} (hx : x < g.mTests.length) : 0 < (g.ys x).length := by
  have hmem : g.ys x ∈ g.mTests := by simp [Group.ys, List.getElem?_eq_getElem hx]
  exact List.length_pos_iff.2 (h.ys _ hmem)

theorem zs_pos {x y : Nat} (hx : x < g.mTests.length) (hy : y < (g.ys x).length) : 0 < (g.zs x y).length := by
  have hmem : g.ys x ∈ g.mTests := by simp [Group.ys, List.getElem?_eq_getElem hx]
  have hmem' : g.zs x y ∈ g.ys x := by simp [Group.zs, List.getElem?_eq_getElem hy]
  exact List.length_pos_iff.2 (h.zs _ hmem _ hmem')

theorem testExists_start : g.testExists ⟨g.mGrpNum, 0, 0, 0⟩ = true := by
  have hx := List.length_pos_iff.2 h.xs
  exact testExists_iff.2 ⟨rfl, h.zs_pos hx (h.ys_pos hx)⟩

end NonemptyLevels

theorem testExists_bounds {tr : TestRef} (h : g.testExists tr = true) :
    tr.xLev < g.mTests.length ∧ tr.yLev < (g.ys tr.xLev).length := by
  simp only [testExists, Bool.not_eq_true', Bool.or_eq_false_iff, decide_eq_false_iff_not, Nat.not_le] at h
  exact ⟨h.1.1.2, h.1.2⟩

/-- The walk comes to every test of a sequence to whose root it comes. -/
theorem iter_z {x y z : Nat} (hz : z < (g.zs x y).length)
    (hn : ∃ n, g.iteraterToTestRef n = some ⟨g.mGrpNum, x, y, 0⟩) :
    ∃ n, g.iteraterToTestRef n = some ⟨g.mGrpNum, x, y, z⟩ := by
  obtain ⟨n, hn⟩ := hn
  have htr : g.testExists ⟨g.mGrpNum, x, y, z⟩ = true := testExists_iff.2 ⟨rfl, hz⟩
  exact ⟨n + z, iter_sequence htr hn (Nat.le_refl z)⟩

/-- It comes to the root of every sequence of an x level to whose first test it comes. -/
theorem iter_y (h : g.NonemptyLevels) {x y : Nat} (hx : x < g.mTests.length) (hy : y < (g.ys x).length)
    (hn : ∃ n, g.iteraterToTestRef n = some ⟨g.mGrpNum, x, 0, 0⟩) :
    ∃ n, g.iteraterToTestRef n = some ⟨g.mGrpNum, x, y, 0⟩ := by
  induction y with
  | zero => exact hn
  | succ y ih =>
    have hpos := h.zs_pos hx (Nat.lt_of_succ_lt hy)
    obtain ⟨n, hlast⟩ := iter_z (z := (g.zs x y).length - 1) (by omega) (ih (Nat.lt_of_succ_lt hy))
    refine ⟨n + 1, ?_⟩
    have hno : g.testExists ⟨g.mGrpNum, x, y, (g.zs x y).length - 1 + 1⟩ = false := by
      rw [← Bool.not_eq_true, testExists_iff]; simp only; omega
    have hyes : g.testExists ⟨g.mGrpNum, x, y + 1, 0⟩ = true := testExists_iff.2 ⟨rfl, h.zs_pos hx hy⟩
    rw [iter_succ, hlast, Option.bind_some, next]
    simp [hno, hyes]

/-- It comes to the first test of every x level. -/
theorem iter_x (h : g.NonemptyLevels) {x : Nat} (hx : x < g.mTests.length) :
    ∃ n, g.iteraterToTestRef n = some ⟨g.mGrpNum, x, 0, 0⟩ := by
  induction x with
  | zero => exact ⟨0, iter_zero⟩
  | succ x ih =>
    have hx' := Nat.lt_of_succ_lt hx
    have hys := h.ys_pos hx'
    have hzs := h.zs_pos (y := (g.ys x).length - 1) hx' (by omega)
    obtain ⟨n, hlast⟩ := iter_z (z := (g.zs x ((g.ys x).length - 1)).length - 1) (by omega)
      (iter_y h hx' (y := (g.ys x).length - 1) (by omega) (ih hx'))
    refine ⟨n + 1, ?_⟩
    have hno : g.testExists ⟨g.mGrpNum, x, (g.ys x).length - 1,
        (g.zs x ((g.ys x).length - 1)).length - 1 + 1⟩ = false := by
      rw [← Bool.not_eq_true, testExists_iff]; simp only; omega
    have hno' : g.testExists ⟨g.mGrpNum, x, (g.ys x).length - 1 + 1, 0⟩ = false := by
      rw [← Bool.not_eq_true]
      intro hex
      have := (testExists_bounds hex).2
      simp only at this
      omega
    have hyes : g.testExists ⟨g.mGrpNum, x + 1, 0, 0⟩ = true :=
      testExists_iff.2 ⟨rfl, h.zs_pos hx (h.ys_pos hx)⟩
    rw [iter_succ, hlast, Option.bind_some, next]
    simp [hno, hno', hyes]

theorem iter_complete (h : g.NonemptyLevels) {tr : TestRef} (htr : g.testExists tr = true) :
    ∃ n, g.iteraterToTestRef n = some tr := by
  obtain ⟨hx, hy⟩ := testExists_bounds htr
  obtain ⟨hg, hz⟩ := testExists_iff.1 htr
  obtain ⟨n, hn⟩ := iter_z hz (iter_y h hx hy (iter_x h hx))
  exact ⟨n, by rw [hn, ← hg]⟩

theorem testExists_of_walk (h : g.NonemptyLevels) {n : Nat} {tr : TestRef} (hn : g.iteraterToTestRef n = some tr) :
    g.testExists tr = true := by
  cases n with
  | zero => cases hn; exact h.testExists_start
  | succ n => exact testExists_of_iter hn

/-! ## The order of the walk -/

theorem walk_pairwise : (g.pushAll (g.refs.length + 2) 0).Pairwise TestRef.Lt := by
  refine List.pairwise_iff_getElem.2 fun i j hi hj hij => iter_lt (g := g) hij ?_ ?_
  · rw [← pushAll_getElem?, List.getElem?_eq_getElem hi]
  · rw [← pushAll_getElem?, List.getElem?_eq_getElem hj]

theorem mem_walk (h : g.NonemptyLevels) {tr : TestRef} :
    tr ∈ g.pushAll (g.refs.length + 2) 0 ↔ g.testExists tr = true := by
  rw [List.mem_iff_getElem?]
  simp only [pushAll_getElem?]
  exact ⟨fun ⟨_, hn⟩ => testExists_of_walk h hn, iter_complete h⟩

/-- The walk is the triple loop: both go up and both meet exactly the tests that exist. -/
theorem iter_eq_refs (h : g.NonemptyLevels) (k : Nat) : g.iteraterToTestRef k = g.refs[k]? := by
  have hasymm : ∀ a b : TestRef, a.Lt b → b.Lt a → a = b := by
    intro a b hab hba
    exact absurd rfl (hab.trans hba).ne
  have hnodup {l : List TestRef} (hl : l.Pairwise TestRef.Lt) : l.Nodup := hl.imp fun hab => hab.ne
  have hperm : (g.pushAll (g.refs.length + 2) 0).Perm g.refs :=
    (List.perm_ext_iff_of_nodup (hnodup walk_pairwise) (hnodup refs_pairwise)).2 fun tr => by
      rw [mem_walk h, mem_refs]
  have heq := hperm.eq_of_pairwise (fun a b _ _ => hasymm a b) walk_pairwise refs_pairwise
  rw [← pushAll_getElem?, heq]

/-- **With no empty level in the matrix there is one order of its tests, the lexicographic one, that the iterators
count, that `testRefToIterator` looks up and that the loops of `getGroupSummary` follow.** -/
theorem iterators_in_order (h : g.NonemptyLevels) :
    ∃ order : List TestRef,
      order.Pairwise TestRef.Lt ∧
      (∀ tr, tr ∈ order ↔ g.testExists tr = true) ∧
      (∀ testIter, g.iteraterToTestRef testIter = order[testIter]?) ∧
      (∀ tr testIter, g.testRefToIterator tr = some testIter ↔ order[testIter]? = some tr) ∧
      (∀ tr, g.testExists tr = true → ∃ testIter, g.testRefToIterator tr = some testIter) ∧
      (∀ tr, g.testExists tr = false → g.testRefToIterator tr = none) ∧
      (∀ (σ : Type) (visit : σ → TestRef → σ) (work : σ), g.summaryLoop visit work = order.foldl visit work) ∧
      ∀ texts verbose, g.getGroupSummary texts verbose =
        order.foldl (fun work tr => work ++ g.getTestDescription texts verbose tr) "" := by
  have hsearch (tr : TestRef) (testIter : Nat) :
      g.testRefToIterator tr = some testIter ↔ g.refs[testIter]? = some tr := by
    rw [testRefToIterator_eq_some, iter_eq_refs h]
  refine ⟨g.refs, refs_pairwise, fun tr => mem_refs, iter_eq_refs h, hsearch, fun tr htr => ?_, fun tr htr => ?_,
    fun σ visit work => summaryLoop_eq visit work, fun texts verbose => summaryLoop_eq _ _⟩
  · obtain ⟨n, hn⟩ := iter_complete h htr
    exact ⟨n, testRefToIterator_eq_some.2 hn⟩
  · refine Option.eq_none_iff_forall_ne_some.2 fun n hn => ?_
    have hmem := List.mem_of_getElem? ((hsearch tr n).1 hn)
    rw [mem_refs, htr] at hmem
    cases hmem

/-- Two x levels; the first has a sequence of two tests and one of a single test. -/
def ragged : Group := ⟨2, [[[⟨16⟩, ⟨32⟩], [⟨48⟩]], [[⟨64⟩]]]⟩

theorem ragged_nonempty : ragged.NonemptyLevels where
  xs := by simp [ragged]
  ys := by simp [ragged]
  zs := by simp [ragged]

theorem ragged_in_order :
    ∃ order : List TestRef, order.length = 4 ∧ (∀ k, ragged.iteraterToTestRef k = order[k]?) ∧
      ∀ tr, tr ∈ order ↔ ragged.testExists tr = true := by
  obtain ⟨order, _, hmem, hiter, _⟩ := iterators_in_order ragged_nonempty
  refine ⟨order, ?_, hiter, hmem⟩
  have h3 : order[3]? = some ⟨2, 1, 0, 0⟩ := (hiter 3).symm
  have h4 : order[4]? = none := (hiter 4).symm
  have := (List.getElem?_eq_some_iff.1 h3).1
  have := List.getElem?_eq_none_iff.1 h4
  omega

example : (List.range 5).map ragged.iteraterToTestRef =
    [some ⟨2, 0, 0, 0⟩, some ⟨2, 0, 0, 1⟩, some ⟨2, 0, 1, 0⟩, some ⟨2, 1, 0, 0⟩, none] := by decide

end Group
end Tnvme.Sched
