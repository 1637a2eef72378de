import Tnvme.Sched.TestSet
import Tnvme.Sched.ExecuteTests

/-!
# Targets that do not exist

`GetTestSet` checks a target only where it has to turn it into an iterator, or to find its configuration test. A target
`x.0.0` or `x.y.0` is accepted unseen, and the walk of a whole group starts at `0.0.0` even when the group has no such
test. `checked` says which targets are left, and `rejectsMissing_iff` that these are the ones for which a missing test
is an error.
-/

namespace Tnvme.Sched

/-- The groups of the test foundation: each is built with its index as its number. -/
structure Suite where
  groups : List Group
  numbered : ∀ {i : Nat} {g : Group}, groups[i]? = some g → g.mGrpNum = i
  small : groups.length ≤ uintMax

variable {g : Group} {target : TestRef}

/-- The target names a test of the group: a single target itself, a whole group any. -/
def Group.Names (g : Group) (target : TestRef) : Prop :=
  if target.Single then g.testExists target = true else ∃ tr, g.testExists tr = true

/-- A target which names no test is an error: `GetTestSet` accepts only lists of existing tests, and `ExecuteTests`
reports failure. -/
structure RejectsMissing (suite : Suite) (target : TestRef) : Prop where
  lists : ∀ g ∈ suite.groups, (g.getTestSet target).ok = true →
    ∀ tr ∈ (g.getTestSet target).dependencies, g.testExists tr = true
  reported : target.group ≠ uintMax → (∀ g, suite.groups[target.group]? = some g → ¬g.Names target) →
    ∀ cl env fuel heap, cl.test = target → 0 < cl.loop →
      ∃ s, executeTests cl env fuel (.init suite.groups heap) = some (s, .returned false)

/-- The targets that are rejected if they do not exist, and the existing ones. -/
def Group.checked (g : Group) (target : TestRef) : Bool :=
  if target.Single then
    g.testExists target || target.zLev != 0 || (target.yLev != 0 && !g.testExists target.config)
  else g.testExists ⟨g.mGrpNum, 0, 0, 0⟩

/-! ## `GetTestSet` -/

/-- The entries of a whole group exist as soon as the first one does. -/
theorem pushAll_exists (h : g.testExists ⟨g.mGrpNum, 0, 0, 0⟩ = true) {tr : TestRef}
    (htr : tr ∈ g.pushAll (g.refs.length + 2) 0) : g.testExists tr = true := by
  obtain ⟨k, hk⟩ := List.mem_iff_getElem?.1 htr
  rw [Group.pushAll_getElem?] at hk
  cases k with
  | zero => rw [Group.iter_zero] at hk; cases hk; exact h
  | succ k => exact Group.testExists_of_iter hk

theorem first_mem_pushAll : (⟨g.mGrpNum, 0, 0, 0⟩ : TestRef) ∈ g.pushAll (g.refs.length + 2) 0 := by
  rw [List.mem_iff_getElem?]
  exact ⟨0, by rw [Group.pushAll_getElem?, Group.iter_zero]⟩

theorem sequence_exists (h : g.testExists target = true) {tr : TestRef} (htr : tr ∈ target.sequence) :
    g.testExists tr = true := by
  obtain ⟨z, hz, rfl⟩ := List.mem_map.1 htr
  exact Group.testExists_earlier h (Nat.le_of_lt_succ (List.mem_range.1 hz))

/-- **The accepted lists of `GetTestSet` exist exactly for the checked targets.** -/
theorem getTestSet_exists_iff (hg : target.group = g.mGrpNum) :
    ((g.getTestSet target).ok = true → ∀ tr ∈ (g.getTestSet target).dependencies, g.testExists tr = true) ↔
      g.checked target = true := by
  constructor
  · intro h
    unfold Group.checked
    by_cases hs : target.Single
    · rw [if_pos hs]
      by_cases hz : target.zLev = 0
      · by_cases hy : target.yLev = 0
        · have ht := h (by simp [Group.getTestSet, hg, hs, hy, hz]) target (by simp [Group.getTestSet, hg, hs, hy, hz])
          simp [ht]
        · cases hc : g.testExists target.config with
          | false => simp [hy]
          | true =>
            have ht := h (by simp [Group.getTestSet, hg, hs, hy, hz, hc]) target
              (by simp [Group.getTestSet, hg, hs, hy, hz, hc])
            simp [ht]
      · simp [hz]
    · rw [if_neg hs]
      exact h (by simp [Group.getTestSet, hg, hs]) _ (by simpa [Group.getTestSet, hg, hs] using first_mem_pushAll)
  · intro h hok
    obtain ⟨_, _, hcases⟩ := getTestSet_cases hok
    unfold Group.checked at h
    rcases hcases with ⟨hs, hy, hz, e⟩ | ⟨hs, hy, hz, hc, e⟩ | ⟨_, _, hex, ⟨_, hc, e⟩ | ⟨_, e⟩⟩ | ⟨hs, e⟩ <;> rw [e]
    · have ht : g.testExists target = true := by simpa [hs, hy, hz] using h
      simpa using ht
    · have ht : g.testExists target = true := by simpa [hs, hy, hz, hc] using h
      simpa using ⟨hc, ht⟩
    · intro tr htr
      rcases List.mem_cons.1 htr with rfl | htr
      · exact hc
      · exact sequence_exists hex htr
    · exact fun tr htr => sequence_exists hex htr
    · rw [if_neg hs] at h
      exact fun tr htr => pushAll_exists h htr

/-! ## `ExecuteTests` -/

variable {cl : CmdLine} {env : Env} {fuel : Nat}

/-- The groups up to a selected one whose target is rejected are passed over, and then the execution is aborted. -/
theorem executeGroups_rejected (env : Env) (fuel : Nat) {k : Nat} {s : ExecSt} (hk : s.groups[k]? = some g)
    (hne : cl.test.group ≠ uintMax) (hsel : cl.test.group = k) (hrej : (g.getTestSet cl.test).ok = false)
    {idxs : List Nat} (hmem : k ∈ idxs) :
    ∃ disables, executeGroups cl env fuel idxs s = some ({ s with disables }, .abortOut) := by
  induction idxs with
  | nil => cases hmem
  | cons iGrp rest ih =>
    by_cases h : iGrp = k
    · subst h
      have ht : targetTst cl iGrp = some cl.test := by
        unfold targetTst
        rw [if_neg hne, if_pos hsel.symm, ← hsel]
      unfold executeGroups
      simp only [ht, hk, hrej]
      split
      · exact ⟨_, rfl⟩
      · exact ⟨_, rfl⟩
    · have ht : targetTst cl iGrp = none := by
        unfold targetTst
        rw [if_neg hne, if_neg (by omega)]
      obtain ⟨disables, hs'⟩ := ih ((List.mem_cons.1 hmem).resolve_left (Ne.symm h))
      exact ⟨disables, by simpa only [executeGroups, ht] using hs'⟩

/-- A target of a group that rejects it, or of a group that does not exist, is reported as a failure. -/
theorem executeTests_rejected (env : Env) (fuel : Nat) {s : ExecSt} (hne : cl.test.group ≠ uintMax)
    (hloop : 0 < cl.loop)
    (hrej : ∀ g, s.groups[cl.test.group]? = some g → (g.getTestSet cl.test).ok = false) :
    ∃ disables, executeTests cl env fuel s = some ({ s with disables }, .returned false) := by
  unfold executeTests
  by_cases hlen : s.groups.length ≤ cl.test.group
  · exact ⟨s.disables, by rw [if_pos ⟨hne, hlen⟩]⟩
  · rw [if_neg (fun h => hlen h.2)]
    split
    · exact ⟨s.disables, rfl⟩
    · have hget := List.getElem?_eq_getElem (Nat.not_le.1 hlen)
      obtain ⟨disables, hs'⟩ := executeGroups_rejected env fuel hget hne rfl (hrej _ hget)
        (List.mem_range.2 (Nat.not_le.1 hlen))
      obtain ⟨loop, hl⟩ := Nat.exists_eq_succ_of_ne_zero (Nat.pos_iff_ne_zero.1 hloop)
      refine ⟨disables, ?_⟩
      rw [hl, executeLoop, hs']

/-- **A missing test is an error exactly for the checked targets.** -/
theorem rejectsMissing_iff (suite : Suite) (target : TestRef) :
    RejectsMissing suite target ↔ ∀ g ∈ suite.groups, target.group = g.mGrpNum → g.checked target = true := by
  constructor
  · intro h g hg hnum
    exact (getTestSet_exists_iff hnum).1 (h.lists g hg)
  · intro h
    have hlists : ∀ g ∈ suite.groups, (g.getTestSet target).ok = true →
        ∀ tr ∈ (g.getTestSet target).dependencies, g.testExists tr = true := by
      intro g hg hok
      have hnum := (getTestSet_cases hok).1
      exact (getTestSet_exists_iff hnum).2 (h g hg hnum) hok
    refine ⟨hlists, ?_⟩
    rintro hne hmissing cl env fuel heap rfl hloop
    suffices hrej : ∀ g, suite.groups[cl.test.group]? = some g → (g.getTestSet cl.test).ok = false by
      obtain ⟨disables, h⟩ := executeTests_rejected env fuel (s := .init suite.groups heap) hne hloop hrej
      exact ⟨_, h⟩
    intro g hget
    have hg : g ∈ suite.groups := List.mem_of_getElem? hget
    by_contra hok
    rw [Bool.not_eq_false] at hok
    -- an accepted list has an entry that shows that the target names a test
    refine hmissing g hget ?_
    have hall := hlists g hg hok
    unfold Group.Names
    obtain ⟨_, _, hcases⟩ := getTestSet_cases hok
    rcases hcases with ⟨hs, _, _, e⟩ | ⟨hs, _, _, _, e⟩ | ⟨hs, _, hex, _⟩ | ⟨hs, e⟩
    · rw [if_pos hs]; exact hall _ (by rw [e]; simp)
    · rw [if_pos hs]; exact hall _ (by rw [e]; simp)
    · rw [if_pos hs]; exact hex
    · rw [if_neg hs]; exact ⟨_, hall _ (by rw [e]; exact first_mem_pushAll)⟩

/-- A suite of one group with the one test `0.0.0`. -/
def oneTest : Suite where
  groups := [⟨0, [[[⟨0⟩]]]⟩]
  numbered := by
    intro i g h
    cases i with
    | zero => cases h; rfl
    | succ i => simp at h
  small := by decide

/-- Every test is runnable and succeeds. -/
def Answers.passing : Answers := ⟨.returns true, fun _ => .runTrue, .success, .returns true⟩

/-- The missing test `0:5.0.0` is accepted, nothing is executed, and the execution is reported as a success. -/
theorem missing_test_succeeds :
    ¬RejectsMissing oneTest ⟨0, 5, 0, 0⟩ ∧
      (executeTests ⟨false, false, false, 1, ⟨0, 5, 0, 0⟩, []⟩ ⟨fun _ => .passing, fun _ => true, true⟩ 2
        (.init oneTest.groups 1)).map (fun r => (r.1.trace, r.2)) = some ([], .returned true) := by
  refine ⟨fun h => ?_, by decide⟩
  have hmissing := h.lists _ (List.mem_singleton_self _) (by decide) ⟨0, 5, 0, 0⟩ (by decide)
  exact absurd hmissing (by decide)

end Tnvme.Sched
