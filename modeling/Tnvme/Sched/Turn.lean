import Tnvme.Sched.Report

/-!
# One call of `RunTest` is one leap

What a call of `RunTest` can do is said once (`RunTestStep`, `runTest_step`): find no test, fail or throw around the
state hooks, or record one leap of the report and put the index behind it.
-/

namespace Tnvme.Sched

/-! ## Records -/

/-- The entries of the list from the index on. -/
def remaining (dependencies : List TestRef) : Option Nat → List TestRef
  | none => []
  | some i => dependencies.drop i

theorem getElem?_tstIdx (dependencies : List TestRef) (tstIdx : Option Nat) :
    (tstIdx.bind fun i => dependencies[i]?) = (remaining dependencies tstIdx).head? := by
  cases tstIdx with
  | none => rfl
  | some i => simp [remaining]

/-- The index is at the next test. -/
theorem exists_drop {dependencies : List TestRef} {tstIdx : Option Nat} {tr : TestRef}
    (h : (remaining dependencies tstIdx).head? = some tr) :
    ∃ i rest, tstIdx = some i ∧ dependencies.drop i = tr :: rest := by
  cases tstIdx with
  | none => cases h
  | some i =>
    obtain ⟨rest, hrest⟩ := List.head?_eq_some_iff.1 h
    exact ⟨i, rest, rfl, hrest⟩

/-- From `s` to `s'` the part `rep` of a report was recorded. -/
structure Records (s s' : RunSt) (rep : List (TestRef × Option Verdict)) : Prop where
  failed : s'.failedTests = s.failedTests ++ failedOf rep
  skipped : s'.skippedTests = s.skippedTests ++ skippedOf rep
  trace : ∃ t, s'.trace = s.trace ++ t ∧ runs t = runsOf rep ∧ failures t = failedOf rep

theorem Records.refl (s : RunSt) : Records s s [] where
  failed := (List.append_nil _).symm
  skipped := (List.append_nil _).symm
  trace := ⟨[], (List.append_nil _).symm, rfl, rfl⟩

theorem Records.trans {s₁ s₂ s₃ : RunSt} {rep rep' : List (TestRef × Option Verdict)} (h : Records s₁ s₂ rep)
    (h' : Records s₂ s₃ rep') : Records s₁ s₃ (rep ++ rep') where
  failed := by rw [h'.failed, h.failed, List.append_assoc, failedOf_append]
  skipped := by rw [h'.skipped, h.skipped, List.append_assoc, skippedOf_append]
  trace := by
    obtain ⟨t, ht, hr, hf⟩ := h.trace
    obtain ⟨t', ht', hr', hf'⟩ := h'.trace
    exact ⟨t ++ t', by rw [ht', ht, List.append_assoc], by rw [runs_append, hr, hr', runsOf_append],
      by rw [failures_append, hf, hf', failedOf_append]⟩

/-- An event that is neither a run nor a failure records nothing. -/
theorem Records.event {s s' : RunSt} {rep : List (TestRef × Option Verdict)} (h : Records s s' rep) {e : Event}
    (hr : runs [e] = []) (hf : failures [e] = []) : Records s (s'.event e) rep where
  failed := h.failed
  skipped := h.skipped
  trace := by
    obtain ⟨t, ht, hrt, hft⟩ := h.trace
    exact ⟨t ++ [e], by rw [event_trace, ht, List.append_assoc], by rw [runs_append, hr, hrt, List.append_nil],
      by rw [failures_append, hf, hft, List.append_nil]⟩

/-- Where the index goes from `i` when the followers that pass `p` are dropped from `rest`. -/
def jump (i : Nat) (p : TestRef → Bool) (rest : List TestRef) : Option Nat :=
  if (rest.dropWhile p).isEmpty then none else some (i + 1 + (rest.takeWhile p).length)

theorem remaining_jump {dependencies rest : List TestRef} {i : Nat} {tr : TestRef}
    (h : dependencies.drop i = tr :: rest) (p : TestRef → Bool) :
    remaining dependencies (jump i p rest) = rest.dropWhile p := by
  have hrest : dependencies.drop (i + 1) = rest := by rw [← List.drop_drop, h]; rfl
  unfold jump
  split
  · rename_i hempty
    rw [remaining, List.isEmpty_iff.1 hempty]
  · have hsplit : (rest.takeWhile p ++ rest.dropWhile p).drop (rest.takeWhile p).length = rest.dropWhile p :=
      List.drop_left
    rw [List.takeWhile_append_dropWhile] at hsplit
    rw [remaining, ← List.drop_drop, hrest, hsplit]

/-! ## The verdict on a test -/

/-- What `consider` makes of the test `tr` with the verdict `v`. -/
structure Considered (v : Verdict) (i : Nat) (tr : TestRef) (rest : List TestRef) (s s' : RunSt) : Prop where
  records : Records s s' (leap v tr rest)
  tstIdx : s'.tstIdx = jump i (blocks v tr) rest
  grp : s'.grp = s.grp
  heap : s'.heap = s.heap

variable {cl : CmdLine} {a : Answers} {dependencies rest : List TestRef} {i : Nat} {tr : TestRef} {s : RunSt}

theorem advance_eq (h : dependencies.drop i = tr :: rest) (hi : s.tstIdx = some i) (failed : Bool) :
    s.advance dependencies failed =
      ({ s with
        tstIdx := jump i (dependent failed tr) rest
        skippedTests := s.skippedTests ++ rest.takeWhile (dependent failed tr) },
        (rest.takeWhile (dependent failed tr)).length) := by
  simp [RunSt.advance, hi, advanceDependencies_eq h, jump]

/-- The verdicts but `passed` go past the dependents of the test. -/
theorem considered_advance (h : dependencies.drop i = tr :: rest) {v : Verdict} (hv : v ≠ .passed) (s₁ : RunSt)
    (hi : s₁.tstIdx = some i) (hgrp : s₁.grp = s.grp) (hheap : s₁.heap = s.heap)
    (hf : s₁.failedTests = s.failedTests ++ if v.isFailed then [tr] else [])
    (hs : s₁.skippedTests = s.skippedTests ++ if v.isSkipped then [tr] else [])
    (ht : ∃ t, s₁.trace = s.trace ++ t ∧ runs t = (v.ran.map fun r => (tr, r)).toList ∧
      failures t = if v.isFailed then [tr] else []) :
    Considered v i tr rest s (s₁.advance dependencies v.isFailed).1 ∧
      (s₁.advance dependencies v.isFailed).2 + (if v.isSkipped then 1 else 0) =
        (skippedOf (leap v tr rest)).length := by
  have hblk : blocks v tr = dependent v.isFailed tr := by
    funext st
    simp [blocks, hv]
  rw [advance_eq h hi]
  constructor
  · refine ⟨⟨?_, ?_, ?_⟩, ?_, hgrp, hheap⟩
    · rw [failedOf_leap]; exact hf
    · rw [skippedOf_leap, hblk, ← List.append_assoc, ← hs]
    · rw [runsOf_leap, failedOf_leap]; exact ht
    · rw [hblk]
  · rw [skippedOf_leap, hblk]
    cases v.isSkipped <;> simp [Nat.add_comm]

/-- A test that passes is left behind alone. -/
theorem considered_passed (h : dependencies.drop i = tr :: rest) (s₁ : RunSt) (hi : s₁.tstIdx = some i)
    (hgrp : s₁.grp = s.grp) (hheap : s₁.heap = s.heap) (hf : s₁.failedTests = s.failedTests)
    (hs : s₁.skippedTests = s.skippedTests)
    (ht : ∃ t, s₁.trace = s.trace ++ t ∧ runs t = [(tr, .success)] ∧ failures t = []) :
    Considered .passed i tr rest s
      { s₁ with tstIdx := s₁.tstIdx.bind fun i => if dependencies.length ≤ i + 1 then none else some (i + 1) } where
  records := by
    refine ⟨?_, ?_, ?_⟩
    · rw [failedOf_leap]; exact hf.trans (List.append_nil _).symm
    · rw [skippedOf_leap, blocks_passed, takeWhile_false]; exact hs.trans (List.append_nil _).symm
    · rw [runsOf_leap, failedOf_leap]; exact ht
  tstIdx := by
    have hlen := congrArg List.length h
    simp only [List.length_drop, List.length_cons] at hlen
    rw [blocks_passed]
    simp only [hi, Option.bind_some]
    cases rest with
    | nil => rw [if_pos (by simp at hlen; omega)]; rfl
    | cons st rest => rw [if_neg (by simp at hlen; omega)]; simp [jump]
  grp := hgrp
  heap := hheap

/-- **What `consider` does**: the test gets its verdict, and one leap of the report is recorded. -/
theorem consider_spec (cl : CmdLine) (a : Answers) (h : dependencies.drop i = tr :: rest) (hi : s.tstIdx = some i)
    (myTest : Test) : ∃ s', s.consider cl a dependencies tr myTest = (s', (verdictOf cl a tr).toResult,
        (skippedOf (leap (verdictOf cl a tr) tr rest)).length) ∧ Considered (verdictOf cl a tr) i tr rest s s' := by
  by_cases hskip : skippingTest tr cl.skiptest = true
  · have hv : verdictOf cl a tr = .skipListed := by simp [verdictOf, hskip]
    obtain ⟨hc, hn⟩ := considered_advance h (v := .skipListed) (s := s) nofun
      { s.event (.skipping tr) with skippedTests := s.skippedTests ++ [tr] } hi rfl rfl (List.append_nil _).symm rfl
      ⟨_, rfl, rfl, rfl⟩
    rw [hv, ← hn]
    refine ⟨_, ?_, hc⟩
    simp only [RunSt.consider, hskip, if_true]
    rfl
  · have hskip' : skippingTest tr cl.skiptest = false := by simpa using hskip
    cases hr : a.runnable cl.preserve with
    | runTrue =>
      cases hrun : a.run with
      | success =>
        have hv : verdictOf cl a tr = .passed := by simp [verdictOf, hskip', hr, hrun]
        have hc := considered_passed (s := s) h
          ((s.event (.runnable myTest tr .runTrue)).event (.run myTest tr .success)) hi rfl rfl rfl rfl
          ⟨_, List.append_assoc _ _ _, rfl, rfl⟩
        rw [hv]
        refine ⟨_, ?_, hc⟩
        rw [skippedOf_leap, blocks_passed, takeWhile_false]
        simp only [RunSt.consider, hskip', hr, hrun, RunAnswer.toTestResult]
        rfl
      | fail =>
        have hv : verdictOf cl a tr = .failed := by simp [verdictOf, hskip', hr, hrun]
        obtain ⟨hc, hn⟩ := considered_advance h (v := .failed) (s := s) nofun
          { (s.event (.runnable myTest tr .runTrue)).event (.run myTest tr .fail) with
            failedTests := s.failedTests ++ [tr] } hi rfl rfl rfl (List.append_nil _).symm
          ⟨_, List.append_assoc _ _ _, rfl, rfl⟩
        rw [hv, ← hn]
        refine ⟨_, ?_, hc⟩
        simp only [RunSt.consider, hskip', hr, hrun, RunAnswer.toTestResult]
        rfl
    | runFalse =>
      have hv : verdictOf cl a tr = .notRunnable := by simp [verdictOf, hskip', hr]
      obtain ⟨hc, hn⟩ := considered_advance h (v := .notRunnable) (s := s) nofun
        { s.event (.runnable myTest tr .runFalse) with skippedTests := s.skippedTests ++ [tr] } hi rfl rfl
        (List.append_nil _).symm rfl ⟨_, rfl, rfl, rfl⟩
      rw [hv, ← hn]
      refine ⟨_, ?_, hc⟩
      simp only [RunSt.consider, hskip', hr]
      rfl
    | runFail =>
      have hv : verdictOf cl a tr = .runnableFailed := by simp [verdictOf, hskip', hr]
      obtain ⟨hc, hn⟩ := considered_advance h (v := .runnableFailed) (s := s) nofun
        { s.event (.runnable myTest tr .runFail) with failedTests := s.failedTests ++ [tr] } hi rfl rfl rfl
        (List.append_nil _).symm ⟨_, rfl, rfl, rfl⟩
      rw [hv, ← hn]
      refine ⟨_, ?_, hc⟩
      simp only [RunSt.consider, hskip', hr]
      rfl

/-! ## The whole call -/

/-- The groups have the same tests, if not the same test objects. -/
structure Alike (g g' : Group) : Prop where
  mGrpNum : g'.mGrpNum = g.mGrpNum
  testExists : ∀ tr, g'.testExists tr = g.testExists tr

theorem Alike.refl (g : Group) : Alike g g := ⟨rfl, fun _ => rfl⟩

theorem Alike.trans {g₁ g₂ g₃ : Group} (h : Alike g₁ g₂) (h' : Alike g₂ g₃) : Alike g₁ g₃ :=
  ⟨h'.mGrpNum.trans h.mGrpNum, fun tr => (h'.testExists tr).trans (h.testExists tr)⟩

theorem alike_replaceAt (g : Group) (tr : TestRef) (new : Test) : Alike g (g.replaceAt tr new) :=
  ⟨rfl, testExists_replaceAt g tr new⟩

/-- How the call ends after a verdict: it returns the result of the verdict, or the restoring of the state spoils it. -/
inductive TurnEnds (cl : CmdLine) (v : Verdict) (next : Option Nat) (numSkipped : Nat) (s' : RunSt) : RunRet → Prop
  | went : s'.tstIdx = next → TurnEnds cl v next numSkipped s' (.result v.toResult numSkipped)
  | restoreFailed : cl.restore = true → s'.tstIdx = none →
      TurnEnds cl v next numSkipped s' (.result .fail numSkipped)
  | restoreThrew : cl.restore = true → TurnEnds cl v next numSkipped s' .threw

/-- What one call of `runTest` can do. -/
inductive RunTestStep (cl : CmdLine) (a : Answers) (dependencies : List TestRef) (s s' : RunSt) : RunRet → Prop
  | notFound : (∀ tr ∈ (remaining dependencies s.tstIdx).head?, s.grp.testExists tr = false) →
      s' = { s with tstIdx := none } → RunTestStep cl a dependencies s s' (.result .notFound 0)
  | saveFailed : cl.restore = true → remaining dependencies s.tstIdx ≠ [] → Records s s' [] → s'.tstIdx = none →
      RunTestStep cl a dependencies s s' (.result .fail 0)
  | saveThrew : cl.restore = true → Records s s' [] → RunTestStep cl a dependencies s s' .threw
  | turn {i : Nat} {tr : TestRef} {rest : List TestRef} {ret : RunRet} : s.tstIdx = some i →
      dependencies.drop i = tr :: rest → s.grp.testExists tr = true →
      Records s s' (leap (verdictOf cl a tr) tr rest) → Alike s.grp s'.grp →
      TurnEnds cl (verdictOf cl a tr) (jump i (blocks (verdictOf cl a tr) tr) rest)
        (skippedOf (leap (verdictOf cl a tr) tr rest)).length s' ret →
      RunTestStep cl a dependencies s s' ret

/-- What one call of `runTest` can do where no state is saved. -/
inductive PlainStep (cl : CmdLine) (a : Answers) (dependencies : List TestRef) (s s' : RunSt) : RunRet → Prop
  | notFound : (∀ tr ∈ (remaining dependencies s.tstIdx).head?, s.grp.testExists tr = false) →
      s' = { s with tstIdx := none } → PlainStep cl a dependencies s s' (.result .notFound 0)
  | turn {i : Nat} {tr : TestRef} {rest : List TestRef} : s.tstIdx = some i → dependencies.drop i = tr :: rest →
      Records s s' (leap (verdictOf cl a tr) tr rest) → Alike s.grp s'.grp →
      s'.tstIdx = jump i (blocks (verdictOf cl a tr) tr) rest →
      PlainStep cl a dependencies s s'
        (.result (verdictOf cl a tr).toResult (skippedOf (leap (verdictOf cl a tr) tr rest)).length)

theorem RunTestStep.plain {s' : RunSt} {ret : RunRet} (hrestore : cl.restore = false)
    (h : RunTestStep cl a dependencies s s' ret) : PlainStep cl a dependencies s s' ret := by
  have hno : cl.restore ≠ true := by simp [hrestore]
  cases h with
  | notFound hnone hs => exact .notFound hnone hs
  | saveFailed hr => exact absurd hr hno
  | saveThrew hr => exact absurd hr hno
  | turn hi hd _ hrec halike hends =>
    cases hends with
    | went hidx => exact .turn hi hd hrec halike hidx
    | restoreFailed hr => exact absurd hr hno
    | restoreThrew hr => exact absurd hr hno

theorem records_replaceTest {s s' : RunSt} {rep : List (TestRef × Option Verdict)} (h : Records s s' rep)
    (tr : TestRef) (myTest : Test) : Records s (s'.replaceTest tr myTest) rep :=
  let h' := h.event (e := .clone myTest ⟨s'.heap⟩ tr) rfl rfl
  ⟨h'.failed, h'.skipped, h'.trace⟩

theorem finish_spec (cl : CmdLine) (a : Answers) {v : Verdict} {s s₁ : RunSt} (hc : Considered v i tr rest s s₁)
    (myTest : Test) (numSkipped : Nat) :
    Records s (s₁.finish cl a tr myTest v.toResult numSkipped).1 (leap v tr rest) ∧
      Alike s.grp (s₁.finish cl a tr myTest v.toResult numSkipped).1.grp ∧
      TurnEnds cl v (jump i (blocks v tr) rest) numSkipped (s₁.finish cl a tr myTest v.toResult numSkipped).1
        (s₁.finish cl a tr myTest v.toResult numSkipped).2 := by
  have halike : Alike s.grp s₁.grp := hc.grp ▸ Alike.refl _
  unfold RunSt.finish
  split
  · rename_i hrest
    have hrestore : cl.restore = true := by simp only [Bool.and_eq_true] at hrest; exact hrest.1
    have hr := hc.records.event (e := .restoreState a.restoreState) rfl rfl
    generalize a.restoreState = h at hr ⊢
    cases h with
    | throws => exact ⟨hr, halike, .restoreThrew hrestore⟩
    | returns ok =>
      cases ok with
      | false => exact ⟨⟨hr.failed, hr.skipped, hr.trace⟩, halike, .restoreFailed hrestore rfl⟩
      | true => exact ⟨records_replaceTest hr tr myTest, halike.trans (alike_replaceAt _ _ _), .went hc.tstIdx⟩
  · exact ⟨records_replaceTest hc.records tr myTest, halike.trans (alike_replaceAt _ _ _), .went hc.tstIdx⟩

/-- The turn itself, from a state that differs from `s` in its trace at most. -/
theorem body_step (hi : s.tstIdx = some i) (hd : dependencies.drop i = tr :: rest)
    (hex : s.grp.testExists tr = true) {s₀ : RunSt} (hr : Records s s₀ []) (hi₀ : s₀.tstIdx = some i)
    (hgrp : s₀.grp = s.grp) (myTest : Test) :
    RunTestStep cl a dependencies s (s₀.body cl a dependencies tr myTest).1
      (s₀.body cl a dependencies tr myTest).2 := by
  obtain ⟨s₁, hcons, hc⟩ := consider_spec cl a hd hi₀ myTest
  obtain ⟨hrec, halike, hends⟩ := finish_spec cl a hc myTest
    (skippedOf (leap (verdictOf cl a tr) tr rest)).length
  rw [RunSt.body, hcons]
  exact .turn hi hd hex (hr.trans hrec) (hgrp ▸ halike) hends

/-- **The cases of a call of `runTest`.** -/
theorem runTest_step (cl : CmdLine) (a : Answers) (dependencies : List TestRef) (s : RunSt) :
    RunTestStep cl a dependencies s (runTest cl a dependencies s).1 (runTest cl a dependencies s).2 := by
  unfold runTest
  rw [getElem?_tstIdx]
  cases hhead : (remaining dependencies s.tstIdx).head? with
  | none => exact .notFound (by simp [hhead]) rfl
  | some tr =>
    simp only
    cases hat : s.grp.testAt tr with
    | none => exact .notFound (by simp [hhead, testAt_eq_none_iff.1 hat]) rfl
    | some myTest =>
      simp only
      obtain ⟨i, rest, hi, hd⟩ := exists_drop hhead
      have hex : s.grp.testExists tr = true := by rw [← testAt_isSome, hat]; rfl
      split
      · rename_i hsave
        have hrestore : cl.restore = true := by simp only [Bool.and_eq_true] at hsave; exact hsave.1
        have hr := (Records.refl s).event (e := .saveState a.saveState) rfl rfl
        generalize a.saveState = h at hr ⊢
        cases h with
        | throws => exact .saveThrew hrestore hr
        | returns ok =>
          cases ok with
          | false =>
            have hne : remaining dependencies s.tstIdx ≠ [] := by rw [hi, remaining, hd]; simp
            exact .saveFailed hrestore hne ⟨hr.failed, hr.skipped, hr.trace⟩ rfl
          | true => exact body_step hi hd hex hr hi rfl myTest
      · exact body_step hi hd hex (Records.refl s) hi rfl myTest

end Tnvme.Sched
