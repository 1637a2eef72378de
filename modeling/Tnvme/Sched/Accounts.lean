import Mathlib.Algebra.Ring.Nat
import Tnvme.Sched.Execution
import Tnvme.Sched.Targets

/-!
# Every test is accounted for

With failures ignored, no state restored and a controller that obeys, a pass should account for every entry of its
dependency list once: executed with success, failed, or skipped; and the totals of `ExecuteTests` should count them
(`PassAccounts`, `Accounts`). This is so exactly as long as `GetTestSet` accepts the target, a whole group has the test
`0.0.0` that its list starts with, and no total leaves the range of an `int` (`Accountable`, `accounts_iff`).
-/

namespace Tnvme.Sched

/-- A run in which every disable succeeds and the revision can be read. -/
def Env.working (answers : Nat → Answers) : Env := ⟨answers, fun _ => true, true⟩

/-- The tests that were executed with success in a trace. -/
def succeeded (trace : List Event) : List TestRef :=
  (runs trace).filterMap fun x => if x.2 = .success then some x.1 else none

/-- The pass over the list for `target` finds no more test exactly once, at its end, and it has then accounted for each
entry of the list once; each call puts the index further or sets it to `-1`. -/
structure PassAccounts (cl : CmdLine) (env : Env) (g : Group) (target : TestRef) : Prop where
  accounts : ∀ s : ExecSt, ∃ p rs t failed skipped,
    (∀ k, pass cl env (g.getTestSet target).dependencies ((g.getTestSet target).dependencies.length + 1 + k)
      (s.enter g (g.getTestSet target).tstIdx) = some (p, .notFound)) ∧
    p.returned = rs ++ [.notFound] ∧ .notFound ∉ rs ∧
    p.trace = s.trace ++ t ∧ p.failedTests = s.failedTests ++ failed ∧ p.skippedTests = s.skippedTests ++ skipped ∧
    (succeeded t ++ failed ++ skipped).Perm (g.getTestSet target).dependencies
  index : ∀ (a : Answers) (s : RunSt) (j : Nat),
    (runTest cl a (g.getTestSet target).dependencies s).1.tstIdx = some j → ∃ i < j, s.tstIdx = some i

/-- All passes of an execution account for their tests, the totals count all entries of all lists, and the execution is
a success if and only if no test failed. -/
structure Accounts (suite : Suite) (cl : CmdLine) (env : Env) : Prop where
  passes : ∀ iGrp target g, targetTst cl iGrp = some target →
    suite.groups[iGrp]? = some g → PassAccounts cl env g target
  totals : ∀ heap, ∃ s ok bound,
    (∀ fuel, bound ≤ fuel → executeTests cl env fuel (.init suite.groups heap) = some (s, .returned ok)) ∧
    s.results .success + s.results .fail + s.results .skipping =
      ((cl.loop * (jobs cl suite.groups).flatten.length : Nat) : Int) ∧
    (ok = true ↔ failures s.trace = [])

/-- The target of the command line exists: it stands for all groups, or its group exists and has the test, if it is
a single one. -/
structure Existing (suite : Suite) (cl : CmdLine) : Prop where
  group : cl.test.group = uintMax ∨ cl.test.group < suite.groups.length
  test : ∀ g, suite.groups[cl.test.group]? = some g → cl.test.Single → g.testExists cl.test = true

/-- The report of all iterations. -/
def executionReport (suite : Suite) (cl : CmdLine) (env : Env) : List (TestRef × Option Verdict) :=
  jobsReport cl env 0 (List.replicate cl.loop (jobs cl suite.groups)).flatten

/-- When the accounts are right. -/
structure Accountable (suite : Suite) (cl : CmdLine) (env : Env) : Prop where
  accepted : ∀ iGrp target g, targetTst cl iGrp = some target →
    suite.groups[iGrp]? = some g → (g.getTestSet target).ok = true
  first : ∀ iGrp target g, targetTst cl iGrp = some target →
    suite.groups[iGrp]? = some g → ¬target.Single → g.testExists ⟨iGrp, 0, 0, 0⟩ = true
  passed : (passedOf (executionReport suite cl env)).length < 2 ^ 31
  failed : (failedOf (executionReport suite cl env)).length < 2 ^ 31
  skipped : (skippedOf (executionReport suite cl env)).length < 2 ^ 31

/-! ## The three kinds of entries -/

/-- Every entry of a report is passed, failed or skipped. -/
theorem accounted_perm (rep : List (TestRef × Option Verdict)) :
    (passedOf rep ++ failedOf rep ++ skippedOf rep).Perm (rep.map Prod.fst) := by
  induction rep with
  | nil => exact List.Perm.nil
  | cons x rep ih =>
    obtain ⟨tr, o⟩ := x
    have hp : passedOf ((tr, o) :: rep) = passedOf [(tr, o)] ++ passedOf rep := passedOf_append [(tr, o)] rep
    have hf : failedOf ((tr, o) :: rep) = failedOf [(tr, o)] ++ failedOf rep := failedOf_append [(tr, o)] rep
    have hs : skippedOf ((tr, o) :: rep) = skippedOf [(tr, o)] ++ skippedOf rep := skippedOf_append [(tr, o)] rep
    rw [hp, hf, hs, List.map_cons]
    have failed : (passedOf rep ++ (tr :: failedOf rep) ++ skippedOf rep).Perm (tr :: rep.map Prod.fst) := by
      rw [List.append_assoc]
      refine List.perm_middle.trans (List.Perm.cons tr ?_)
      show (passedOf rep ++ (failedOf rep ++ skippedOf rep)).Perm _
      rwa [← List.append_assoc]
    have skipped : (passedOf rep ++ failedOf rep ++ (tr :: skippedOf rep)).Perm (tr :: rep.map Prod.fst) :=
      List.perm_middle.trans (List.Perm.cons tr ih)
    cases o with
    | none => exact skipped
    | some v =>
      cases v with
      | passed => exact List.Perm.cons tr ih
      | failed => exact failed
      | runnableFailed => exact failed
      | skipListed => exact skipped
      | notRunnable => exact skipped

theorem succeeded_eq {t : List Event} {rep : List (TestRef × Option Verdict)} (h : runs t = runsOf rep) :
    succeeded t = passedOf rep := by
  rw [succeeded, h, runsOf, List.filterMap_filterMap, passedOf]
  refine List.filterMap_congr fun x _ => ?_
  obtain ⟨tr, o⟩ := x
  cases o with
  | none => rfl
  | some v => cases v <;> rfl

/-! ## The range of an `int` -/

theorem int32_le (n : Nat) : int32 n ≤ n := by
  simp only [int32, Int.bmod]
  split <;> omega

theorem int32_eq_iff (n : Nat) : int32 n = n ↔ n < 2 ^ 31 := by
  simp only [int32, Int.bmod]
  split <;> omega

/-! ## The passes -/

section Passes

variable {cl : CmdLine} {env : Env} {g : Group} {target : TestRef}

/-- Without the state hooks an index after a call comes from a smaller one. -/
theorem index_lt (hrestore : cl.restore = false) (a : Answers) (dependencies : List TestRef) (s : RunSt) {j : Nat}
    (h : (runTest cl a dependencies s).1.tstIdx = some j) : ∃ i < j, s.tstIdx = some i := by
  have hstep := (runTest_step cl a dependencies s).plain hrestore
  generalize runTest cl a dependencies s = out at hstep h
  obtain ⟨s', ret⟩ := out
  simp only at hstep h
  cases hstep with
  | notFound _ hs => rw [hs] at h; cases h
  | turn hi _ _ _ hidx => exact ⟨_, lt_of_jump (hidx ▸ h), hi⟩

theorem passAccounts_of_exists (hignore : cl.ignore = true) (hrestore : cl.restore = false)
    (hok : (g.getTestSet target).ok = true)
    (hex : ∀ tr ∈ (g.getTestSet target).dependencies, g.testExists tr = true) : PassAccounts cl env g target where
  index a s _ := index_lt hrestore a _ s
  accounts s := by
    have hidx : (g.getTestSet target).tstIdx = some 0 := (getTestSet_cases hok).2.1
    obtain ⟨p, hp, hc⟩ := pass_full hignore hrestore env (g.getTestSet target).dependencies
      (p := s.enter g (some 0))
      (show (g.getTestSet target).dependencies.length < (g.getTestSet target).dependencies.length + 1 by omega) hex
    obtain ⟨rs, hrs, hnot⟩ := hc.returned
    obtain ⟨t, ht, hruns, _⟩ := hc.records.trace
    refine ⟨p, rs, t, _, _, fun k => ?_, hrs, hnot, ht, hc.records.failed, hc.records.skipped, ?_⟩
    · rw [hidx]
      exact pass_mono hp k
    · rw [succeeded_eq hruns]
      have hperm := accounted_perm (report cl env s.calls (g.getTestSet target).dependencies)
      rwa [report, Dispatch.map_fst_dispatch] at hperm

/-- A pass whose first entry does not exist is over at once, so it accounts for none of its entries. -/
theorem exists_of_passAccounts (h : PassAccounts cl env g target) (hok : (g.getTestSet target).ok = true)
    {tr : TestRef} {rest : List TestRef} (hd : (g.getTestSet target).dependencies = tr :: rest) :
    g.testExists tr = true := by
  by_contra hne
  obtain ⟨p, rs, t, failed, skipped, hp, _, _, ht, hf, hs, hperm⟩ := h.accounts (.init [] 0)
  have hat : g.testAt tr = none := testAt_eq_none_iff.2 (by simpa using hne)
  have hrun := hp 0
  rw [(getTestSet_cases hok).2.1, hd] at hrun
  simp only [pass, runTest, ExecSt.enter, hat, Option.bind_some, List.getElem?_cons_zero, if_true, Option.some.injEq,
    Prod.mk.injEq, and_true] at hrun
  subst hrun
  have ht' : t = [] := List.append_eq_nil_iff.1 ht.symm |>.2
  have hf' : failed = [] := List.append_eq_nil_iff.1 hf.symm |>.2
  have hs' : skipped = [] := List.append_eq_nil_iff.1 hs.symm |>.2
  rw [hd, ht', hf', hs'] at hperm
  exact absurd hperm.length_eq (by simp [succeeded, runs])

end Passes

/-! ## The executions -/

section Executions

variable {suite : Suite} {cl : CmdLine} {answers : Nat → Answers}

/-- The target of a selected group is a whole group, or the target of the command line. -/
theorem targetTst_cases {iGrp : Nat} {target : TestRef} (h : targetTst cl iGrp = some target) :
    target.group = iGrp ∧ (¬target.Single ∨ target = cl.test ∧ cl.test.group ≠ uintMax) := by
  unfold targetTst at h
  split at h
  · cases h
    exact ⟨rfl, Or.inl fun h => h.1 rfl⟩
  · rename_i hne
    split at h
    · rename_i hg
      cases h
      exact ⟨rfl, Or.inr ⟨by rw [hg], hne⟩⟩
    · cases h

theorem whole_ok {g : Group} {target : TestRef} (hg : target.group = g.mGrpNum) (hs : ¬target.Single) :
    g.getTestSet target = ⟨true, g.pushAll (g.refs.length + 2) 0, some 0⟩ := by
  simp [Group.getTestSet, hg, hs]

/-- An execution whose target is rejected is no success, though no test failed. -/
theorem accepted_of_accounts (hloop : 0 < cl.loop) (h : Accounts suite cl (.working answers)) (iGrp : Nat)
    (target : TestRef) (g : Group) (ht : targetTst cl iGrp = some target) (hg : suite.groups[iGrp]? = some g) :
    (g.getTestSet target).ok = true := by
  obtain ⟨hgrp, hkind⟩ := targetTst_cases ht
  rcases hkind with hs | ⟨rfl, hne⟩
  · rw [whole_ok (by rw [hgrp, suite.numbered hg]) hs]
  · by_contra hrej
    obtain ⟨s, ok, bound, hrun, _, hok⟩ := h.totals 0
    obtain ⟨disables, hrun'⟩ := executeTests_rejected (.working answers) bound
      (s := .init suite.groups 0) hne hloop fun g' hg' => by
        rw [show (ExecSt.init suite.groups 0).groups = suite.groups from rfl, hgrp, hg] at hg'
        cases hg'
        simpa using hrej
    have heq := (hrun bound (Nat.le_refl bound)).symm.trans hrun'
    simp only [Option.some.injEq, Prod.mk.injEq, ExecRet.returned.injEq] at heq
    obtain ⟨rfl, rfl⟩ := heq
    simp [ExecSt.init, failures] at hok

theorem first_of_accounts (h : Accounts suite cl (.working answers)) (iGrp : Nat) (target : TestRef) (g : Group)
    (ht : targetTst cl iGrp = some target) (hg : suite.groups[iGrp]? = some g) (hs : ¬target.Single) :
    g.testExists ⟨iGrp, 0, 0, 0⟩ = true := by
  have hnum := suite.numbered hg
  have hw := whole_ok (g := g) (by rw [(targetTst_cases ht).1, hnum]) hs
  rw [← hnum]
  have hd : (g.getTestSet target).dependencies = ⟨g.mGrpNum, 0, 0, 0⟩ :: g.pushAll (g.refs.length + 1) 1 := by
    rw [hw]
    rfl
  exact exists_of_passAccounts (h.passes _ _ _ ht hg) (by rw [hw]) hd

/-- Where the accounts are right, the selected groups are sound. -/
theorem sound_of_accepted (hexist : Existing suite cl)
    (hok : ∀ iGrp target g, targetTst cl iGrp = some target →
      suite.groups[iGrp]? = some g → (g.getTestSet target).ok = true)
    (hfirst : ∀ iGrp target g, targetTst cl iGrp = some target →
      suite.groups[iGrp]? = some g → ¬target.Single → g.testExists ⟨iGrp, 0, 0, 0⟩ = true) : Sound cl suite.groups := by
  intro iGrp target g ht hg
  obtain ⟨hgrp, hkind⟩ := targetTst_cases ht
  have hnum := suite.numbered hg
  refine ⟨hok _ _ _ ht hg, (getTestSet_exists_iff (by rw [hgrp, hnum])).2 ?_ (hok _ _ _ ht hg)⟩
  unfold Group.checked
  by_cases hs : target.Single
  · have htest : target = cl.test := (hkind.resolve_left (not_not.2 hs)).1
    have hex := hexist.test g (by rwa [← htest, hgrp]) (htest ▸ hs)
    rw [if_pos hs]
    simp [htest, hex]
  · rw [if_neg hs, hnum]
    exact hfirst _ _ _ ht hg hs

theorem length_le_flatten {js : List (List TestRef)} {dependencies : List TestRef} (h : dependencies ∈ js) :
    dependencies.length < js.flatten.length + 1 :=
  Nat.lt_succ_of_le (List.sublist_flatten_of_mem h).length_le

/-- What a sound execution leaves in the totals. -/
theorem execution_totals (answers : Nat → Answers) (hignore : cl.ignore = true) (hrestore : cl.restore = false)
    (hexist : Existing suite cl) (hsound : Sound cl suite.groups) (heap : Nat) :
    ∃ s, (∀ fuel, (jobs cl suite.groups).flatten.length + 1 ≤ fuel →
        executeTests cl (.working answers) fuel (.init suite.groups heap) =
          some (s, .returned s.results.allTestsPass)) ∧
      Counts s.results (executionReport suite cl (.working answers)) ∧
      failures s.trace = failedOf (executionReport suite cl (.working answers)) := by
  obtain ⟨s, hrun, hexec⟩ := executeTests_spec (.working answers) ((jobs cl suite.groups).flatten.length + 1)
    hignore hrestore (fun _ => rfl) rfl hsound hexist.group (fun _ => length_le_flatten) heap
  obtain ⟨t, ht, hf⟩ := hexec.trace
  refine ⟨s, fun fuel hfuel => ?_, hexec.counts counts_zero, ?_⟩
  · obtain ⟨k, rfl⟩ := Nat.exists_eq_add_of_le hfuel
    exact executeTests_mono hrun k
  · rw [ht]
    exact hf

theorem length_executionReport (suite : Suite) (cl : CmdLine) (env : Env) :
    (executionReport suite cl env).length = cl.loop * (jobs cl suite.groups).flatten.length := by
  rw [← List.length_map Prod.fst, executionReport, map_fst_jobsReport]
  induction cl.loop with
  | zero => simp
  | succ n ih =>
    rw [List.replicate_succ, List.flatten_cons, List.flatten_append, List.length_append, ih, Nat.succ_mul, Nat.add_comm]

/-- **The accounts are right exactly when every target is accepted, every whole group has its first test, and the
totals fit an `int`.** -/
theorem accounts_iff (suite : Suite) (cl : CmdLine) (answers : Nat → Answers) (hignore : cl.ignore = true)
    (hrestore : cl.restore = false) (hloop : 0 < cl.loop) (hexist : Existing suite cl) :
    Accounts suite cl (.working answers) ↔ Accountable suite cl (.working answers) := by
  have hlen := (accounted_perm (executionReport suite cl (.working answers))).length_eq
  rw [List.length_map, length_executionReport, List.length_append, List.length_append] at hlen
  constructor
  · intro h
    have hok := accepted_of_accounts hloop h
    have hfirst := first_of_accounts h
    have hsound := sound_of_accepted hexist hok hfirst
    obtain ⟨s, hrun, hcounts, _⟩ := execution_totals answers hignore hrestore hexist hsound 0
    obtain ⟨s', ok, bound, hrun', hsum, _⟩ := h.totals 0
    have hs := (hrun _ (Nat.le_add_right _ bound)).symm.trans (hrun' _ (Nat.le_add_left _ _))
    simp only [Option.some.injEq, Prod.mk.injEq] at hs
    rw [← hs.1, hcounts.success, hcounts.fail, hcounts.skipping] at hsum
    -- no total is larger than what it counts, so none of them is smaller either
    have hp := int32_le (passedOf (executionReport suite cl (.working answers))).length
    have hf := int32_le (failedOf (executionReport suite cl (.working answers))).length
    have hk := int32_le (skippedOf (executionReport suite cl (.working answers))).length
    exact ⟨hok, hfirst, (int32_eq_iff _).1 (by omega), (int32_eq_iff _).1 (by omega), (int32_eq_iff _).1 (by omega)⟩
  · intro h
    have hsound := sound_of_accepted hexist h.accepted h.first
    refine ⟨fun iGrp target g ht hg => passAccounts_of_exists hignore hrestore (hsound iGrp target g ht hg).1
        (hsound iGrp target g ht hg).2, fun heap => ?_⟩
    obtain ⟨s, hrun, hcounts, hfail⟩ := execution_totals answers hignore hrestore hexist hsound heap
    refine ⟨s, _, _, hrun, ?_, ?_⟩
    · rw [hcounts.success, hcounts.fail, hcounts.skipping, (int32_eq_iff _).2 h.passed, (int32_eq_iff _).2 h.failed,
        (int32_eq_iff _).2 h.skipped]
      omega
    · rw [hfail, TestResults.allTestsPass, hcounts.fail, (int32_eq_iff _).2 h.failed]
      simp

/-- A suite of one group with four tests on three levels. -/
def fourTests : Suite where
  groups := [⟨0, [[[⟨0⟩, ⟨1⟩]], [[⟨2⟩]], [[⟨3⟩]]]⟩]
  numbered := by
    intro i g h
    cases i with
    | zero => cases h; rfl
    | succ i => simp at h
  small := by decide

/-- The test that the second call runs fails. -/
def secondFails (n : Nat) : Answers := if n = 1 then { Answers.passing with run := .fail } else .passing

/-- The whole group in two iterations, with `0:2.0.0` to be skipped. -/
def wholeGroup : CmdLine := ⟨true, false, false, 2, ⟨0, uintMax, uintMax, uintMax⟩, [⟨0, 2, 0, 0⟩]⟩

/-- The accounts where five tests pass, one fails and two are skipped. -/
theorem accounts_fourTests : Accounts fourTests wholeGroup (.working secondFails) := by
  have ht : ∀ {iGrp target g}, targetTst wholeGroup iGrp = some target → fourTests.groups[iGrp]? = some g →
      iGrp = 0 ∧ target = ⟨0, uintMax, uintMax, uintMax⟩ ∧ fourTests.groups = [g] := by
    intro iGrp target g h hget
    unfold targetTst at h
    rw [if_neg (by decide)] at h
    split at h
    · rename_i h0
      cases h
      subst h0
      exact ⟨rfl, rfl, by cases hget; rfl⟩
    · cases h
  refine (accounts_iff fourTests _ _ rfl rfl (by decide) ⟨Or.inr (by decide), fun g _ hs => absurd hs (by decide)⟩).2
    ⟨fun iGrp target g h hget => ?_, fun iGrp target g h hget _ => ?_, by decide, by decide, by decide⟩
  · obtain ⟨rfl, rfl, hg⟩ := ht h hget
    cases hg
    decide
  · obtain ⟨rfl, rfl, hg⟩ := ht h hget
    cases hg
    decide

/-- A suite of one group without tests. -/
def emptyGroup : Suite where
  groups := [⟨0, []⟩]
  numbered := by
    intro i g h
    cases i with
    | zero => cases h; rfl
    | succ i => simp at h
  small := by decide

/-- The list of a whole empty group has one entry, and a pass leaves it unaccounted for. -/
theorem empty_group_unaccounted :
    Existing emptyGroup ⟨true, false, false, 1, ⟨0, uintMax, uintMax, uintMax⟩, []⟩ ∧
      ¬Accounts emptyGroup ⟨true, false, false, 1, ⟨0, uintMax, uintMax, uintMax⟩, []⟩
        (.working fun _ => .passing) := by
  refine ⟨⟨Or.inr (by decide), fun g _ hs => absurd hs (by decide)⟩, fun h => ?_⟩
  have hpass := h.passes 0 ⟨0, uintMax, uintMax, uintMax⟩ ⟨0, []⟩ (by decide) rfl
  have hd : (Group.getTestSet ⟨0, []⟩ ⟨0, uintMax, uintMax, uintMax⟩).dependencies = [⟨0, 0, 0, 0⟩] := by decide
  exact absurd (exists_of_passAccounts hpass (by decide) hd) (by decide)

end Executions

end Tnvme.Sched
