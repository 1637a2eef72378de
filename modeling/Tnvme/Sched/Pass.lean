import Tnvme.Sched.Turn

/-!
# A pass records its report

Calls of `RunTest` add up: a pass always ends, and what it records is a part from the front of its report
(`pass_report`). When failures are ignored and no state is restored, a pass over existing tests records the whole
report, and its totals count it (`pass_full`).
-/

namespace Tnvme.Sched

variable {cl : CmdLine} {env : Env} {dependencies : List TestRef}

theorem report_nil (n : Nat) : report cl env n [] = [] := rfl

theorem lt_of_jump {i j : Nat} {p : TestRef → Bool} {rest : List TestRef} (h : jump i p rest = some j) :
    i < j := by
  unfold jump at h
  split at h
  · cases h
  · cases h; omega

/-- What a call adds to the report, and that the pass gets on. -/
theorem step_report {a : Answers} {s s' : RunSt} {ret : RunRet} {n : Nat} (ha : a = env.answers n)
    (h : RunTestStep cl a dependencies s s' ret) :
    ∃ rep, Records s s' rep ∧ rep <+: report cl env n (remaining dependencies s.tstIdx) ∧
      (ret = .threw → cl.restore = true) ∧ ∀ result skipped, ret = .result result skipped →
        (∀ rep', rep' <+: report cl env (n + 1) (remaining dependencies s'.tstIdx) →
          rep ++ rep' <+: report cl env n (remaining dependencies s.tstIdx)) ∧
        (result = .notFound ∨
          (remaining dependencies s'.tstIdx).length < (remaining dependencies s.tstIdx).length) := by
  subst ha
  -- with the index gone nothing more is reported
  have gone : ∀ {rep}, s'.tstIdx = none → rep <+: report cl env n (remaining dependencies s.tstIdx) →
      ∀ rep', rep' <+: report cl env (n + 1) (remaining dependencies s'.tstIdx) →
        rep ++ rep' <+: report cl env n (remaining dependencies s.tstIdx) := by
    intro rep hidx hrep rep' hrep'
    rw [hidx, remaining, report_nil, List.prefix_nil] at hrep'
    rwa [hrep', List.append_nil]
  have shorter : s'.tstIdx = none → remaining dependencies s.tstIdx ≠ [] →
      (remaining dependencies s'.tstIdx).length < (remaining dependencies s.tstIdx).length := by
    intro hidx hne
    rw [hidx]
    exact List.length_pos_iff.2 hne
  have returned : ∀ {result : TestResult} {skipped : Nat}, RunRet.result result skipped = .threw →
      cl.restore = true := fun h => by cases h
  cases h with
  | notFound _ hs =>
    subst hs
    exact ⟨[], ⟨(List.append_nil _).symm, (List.append_nil _).symm, [], (List.append_nil _).symm, rfl, rfl⟩,
      List.nil_prefix, returned,
      fun result skipped hret => ⟨gone rfl List.nil_prefix, by cases hret; exact Or.inl rfl⟩⟩
  | saveFailed _ hne hrec hidx =>
    exact ⟨[], hrec, List.nil_prefix, returned, fun _ _ _ => ⟨gone hidx List.nil_prefix, Or.inr (shorter hidx hne)⟩⟩
  | saveThrew hrestore hrec => exact ⟨[], hrec, List.nil_prefix, fun _ => hrestore, fun _ _ h => by cases h⟩
  | @turn i tr rest _ hi hd _ hrec _ hends =>
    have hrem : remaining dependencies s.tstIdx = tr :: rest := by rw [hi, remaining, hd]
    have hrep : leap (verdictOf cl (env.answers n) tr) tr rest <+:
        report cl env n (remaining dependencies s.tstIdx) := by
      rw [hrem, report_cons]
      exact List.prefix_append _ _
    refine ⟨_, hrec, hrep, ?_⟩
    cases hends with
    | restoreThrew hrestore => exact ⟨fun _ => hrestore, fun _ _ h => by cases h⟩
    | restoreFailed _ hidx =>
      exact ⟨returned, fun _ _ _ => ⟨gone hidx hrep, Or.inr (shorter hidx (by simp [hrem]))⟩⟩
    | went hidx =>
      refine ⟨returned, fun _ _ _ => ?_⟩
      rw [hidx, remaining_jump hd, hrem, report_cons]
      refine ⟨fun rep' hrep' => (List.prefix_append_right_inj _).2 hrep', Or.inr ?_⟩
      exact Nat.lt_succ_of_le ((List.dropWhile_sublist _).length_le)

/-- **A pass ends, and it records a part of its report from the front.** -/
theorem pass_report (cl : CmdLine) (env : Env) (dependencies : List TestRef) {fuel : Nat} {p : PassSt}
    (hf : (remaining dependencies p.tstIdx).length < fuel) :
    ∃ p' e rep, pass cl env dependencies fuel p = some (p', e) ∧
      (cl.ignore = true → cl.restore = false → e = .notFound) ∧
      rep <+: report cl env p.calls (remaining dependencies p.tstIdx) ∧ Records p.toRunSt p'.toRunSt rep := by
  induction fuel generalizing p with
  | zero => omega
  | succ fuel ih =>
    have hstep := runTest_step cl (env.answers p.calls) dependencies p.toRunSt
    unfold pass
    generalize runTest cl (env.answers p.calls) dependencies p.toRunSt = out at hstep ⊢
    obtain ⟨s, ret⟩ := out
    obtain ⟨rep, hrec, hrep, hthrew, hnext⟩ := step_report rfl hstep
    cases ret with
    | threw => exact ⟨_, _, rep, rfl, fun _ h => absurd h (by simp [hthrew rfl]), hrep, hrec⟩
    | result result skipped =>
      obtain ⟨hmore, hlen⟩ := hnext result skipped rfl
      simp only
      split
      · exact ⟨_, _, rep, rfl, fun _ _ => rfl, hrep, hrec⟩
      · split
        · rename_i hfail
          exact ⟨_, _, rep, rfl, fun h _ => absurd h (by simp [hfail.2]), hrep, hrec⟩
        · rename_i hnf _
          have hlt : (remaining dependencies s.tstIdx).length < (remaining dependencies p.tstIdx).length :=
            hlen.resolve_left hnf
          obtain ⟨p', e, rep', hp', he, hrep', hrec'⟩ := ih (p := p.returns s result skipped)
            (show (remaining dependencies s.tstIdx).length < fuel by omega)
          exact ⟨p', e, rep ++ rep', hp', he, hmore rep' hrep', hrec.trans hrec'⟩

/-- What follows a check may be replaced by what gives the same result. -/
theorem ite_else_mono {α : Type} {c : Prop} [Decidable c] {a x y : Option α} {r : α}
    (h : (if c then a else x) = some r) (hxy : x = some r → y = some r) : (if c then a else y) = some r := by
  by_cases hc : c
  · rwa [if_pos hc] at h ⊢
  · rw [if_neg hc] at h ⊢
    exact hxy h

/-- More turns than needed change nothing. -/
theorem pass_mono {fuel : Nat} {p : PassSt} {r : PassSt × PassEnd} (h : pass cl env dependencies fuel p = some r)
    (k : Nat) : pass cl env dependencies (fuel + k) p = some r := by
  induction fuel generalizing p with
  | zero => cases h
  | succ fuel ih =>
    rw [Nat.add_right_comm]
    unfold pass at h ⊢
    generalize runTest cl (env.answers p.calls) dependencies p.toRunSt = out at h ⊢
    obtain ⟨s, ret⟩ := out
    cases ret with
    | threw => exact h
    | result result skipped =>
      exact ite_else_mono h fun h => ite_else_mono h ih

/-! ## The totals -/

theorem int32_add (a b : Int) : int32 (int32 a + int32 b) = int32 (a + b) := by
  simp [int32]

/-- The totals count a report, as far as an `int` can. -/
structure Counts (results : TestResults) (rep : List (TestRef × Option Verdict)) : Prop where
  success : results .success = int32 (passedOf rep).length
  fail : results .fail = int32 (failedOf rep).length
  skipping : results .skipping = int32 (skippedOf rep).length

theorem counts_zero : Counts TestResults.zero [] where
  success := rfl
  fail := rfl
  skipping := rfl

/-- What `account` adds is what the call accounts for. -/
theorem counts_account {results : TestResults} {rep : List (TestRef × Option Verdict)} (h : Counts results rep)
    (v : Verdict) (tr : TestRef) (rest : List TestRef) :
    Counts (results.account v.toResult (skippedOf (leap v tr rest)).length) (rep ++ leap v tr rest) := by
  obtain ⟨hs, hf, hk⟩ := h
  constructor <;> cases v <;>
    simp [TestResults.account, TestResults.addResult, Verdict.toResult, passedOf_leap, failedOf_leap, skippedOf_leap,
      Verdict.isFailed, Verdict.isSkipped, hs, hf, hk, int32_add]

theorem counts_notFound {results : TestResults} {rep : List (TestRef × Option Verdict)} (h : Counts results rep) :
    Counts (results.account .notFound 0) rep where
  success := h.success
  fail := h.fail
  skipping := h.skipping

/-! ## The whole report -/

/-- From `p` to `p'` a pass recorded the report `rep` and then found no more test. -/
structure Completes (p p' : PassSt) (rep : List (TestRef × Option Verdict)) : Prop where
  records : Records p.toRunSt p'.toRunSt rep
  alike : Alike p.grp p'.grp
  calls : p'.calls = p.calls + turns rep + 1
  returned : ∃ rs, p'.returned = p.returned ++ (rs ++ [.notFound]) ∧ .notFound ∉ rs
  counts : ∀ {R}, Counts p.results R → Counts p'.results (R ++ rep)

theorem toResult_ne_notFound (v : Verdict) : v.toResult ≠ .notFound := by
  cases v <;> simp [Verdict.toResult]

/-- One more call in front. -/
theorem Completes.cons {p p' : PassSt} {s : RunSt} {rep : List (TestRef × Option Verdict)} {v : Verdict}
    {tr : TestRef} {rest : List TestRef} (hrec : Records p.toRunSt s (leap v tr rest)) (halike : Alike p.grp s.grp)
    (h : Completes (p.returns s v.toResult (skippedOf (leap v tr rest)).length) p' rep) :
    Completes p p' (leap v tr rest ++ rep) where
  records := hrec.trans h.records
  alike := halike.trans h.alike
  calls := by
    rw [h.calls, returns_calls, turns_append, turns_leap]
    omega
  returned := by
    obtain ⟨rs, hrs, hnot⟩ := h.returned
    refine ⟨v.toResult :: rs, by simp [hrs], ?_⟩
    rw [List.mem_cons, not_or]
    exact ⟨(toResult_ne_notFound v).symm, hnot⟩
  counts hc := by
    rw [← List.append_assoc]
    exact h.counts (counts_account hc v tr rest)

/-- The call that finds no more test. -/
theorem Completes.last (p : PassSt) (s : RunSt) (hs : s = { p.toRunSt with tstIdx := none }) :
    Completes p (p.returns s .notFound 0) [] where
  records := by
    subst hs
    exact ⟨(List.append_nil _).symm, (List.append_nil _).symm, [], (List.append_nil _).symm, rfl, rfl⟩
  alike := by
    subst hs
    exact .refl _
  calls := rfl
  returned := ⟨[], rfl, by simp⟩
  counts h := (List.append_nil _).symm ▸ counts_notFound h

/-- **A pass over existing tests records the whole report.** -/
theorem pass_full (hignore : cl.ignore = true) (hrestore : cl.restore = false) (env : Env)
    (dependencies : List TestRef) {fuel : Nat} {p : PassSt} (hf : (remaining dependencies p.tstIdx).length < fuel)
    (hex : ∀ tr ∈ remaining dependencies p.tstIdx, p.grp.testExists tr = true) :
    ∃ p', pass cl env dependencies fuel p = some (p', .notFound) ∧
      Completes p p' (report cl env p.calls (remaining dependencies p.tstIdx)) := by
  induction fuel generalizing p with
  | zero => omega
  | succ fuel ih =>
    have hstep := (runTest_step cl (env.answers p.calls) dependencies p.toRunSt).plain hrestore
    unfold pass
    generalize runTest cl (env.answers p.calls) dependencies p.toRunSt = out at hstep ⊢
    obtain ⟨s, ret⟩ := out
    simp only at hstep
    cases hstep with
    | notFound hnone hs =>
      -- all that remains exists, so nothing remains
      have hrem : remaining dependencies p.tstIdx = [] := by
        cases hl : remaining dependencies p.tstIdx with
        | nil => rfl
        | cons tr rest =>
          have h := hnone tr (by simp [hl])
          rw [hex tr (by simp [hl])] at h
          cases h
      rw [hrem, report_nil]
      exact ⟨_, rfl, .last p s hs⟩
    | @turn i tr rest hi hd hrec halike hidx =>
      have hrem : remaining dependencies p.tstIdx = tr :: rest := by rw [hi, remaining, hd]
      have hnext : remaining dependencies s.tstIdx = rest.dropWhile (blocks (verdicts cl env p.calls tr) tr) := by
        rw [hidx]
        exact remaining_jump hd _
      have hsub := List.dropWhile_sublist (l := rest) (blocks (verdicts cl env p.calls tr) tr)
      have hlen := hsub.length_le
      rw [hrem] at hf hex ⊢
      rw [List.length_cons] at hf
      obtain ⟨p', hp', hc⟩ := ih (p := p.returns s (verdicts cl env p.calls tr).toResult
          (skippedOf (leap (verdicts cl env p.calls tr) tr rest)).length)
        (show (remaining dependencies s.tstIdx).length < fuel by rw [hnext]; omega)
        (fun st (hst : st ∈ remaining dependencies s.tstIdx) => by
          rw [hnext] at hst
          exact (halike.testExists st).trans (hex st (List.mem_cons_of_mem _ (hsub.subset hst))))
      refine ⟨p', ?_, ?_⟩
      · simpa [toResult_ne_notFound, hignore, verdicts] using hp'
      · rw [report_cons, ← hnext]
        exact Completes.cons hrec halike hc

end Tnvme.Sched
