import Tnvme.Sched.Pass

/-!
# The order of the executed tests

`AdvanceDependencies` skips what depends on a test that failed or was skipped, so a pass executes a test only after the
tests it requires have been executed and have passed (`pass_inDependencyOrder`).
-/

namespace Tnvme.Sched

open Dispatch

/-- A pass over `dependencies` whose part of the trace is `t`, and which added `failed` and `skipped` to the lists of
the failed and the skipped tests, has kept the dependencies. -/
structure InDependencyOrder (dependencies : List TestRef) (t : List Event) (failed skipped : List TestRef) : Prop where
  listed : ∀ {pre post b a}, dependencies = pre ++ b :: post → b.Requires a → a ∈ pre
  executed : ∀ {pre post obj b r a}, t = pre ++ .run obj b r :: post → b.Requires a →
    (∃ obj', .run obj' a .success ∈ pre) ∧ a ∉ failed ∧ a ∉ skipped

theorem mem_runs {t : List Event} {tr : TestRef} {r : RunAnswer} :
    (tr, r) ∈ runs t ↔ ∃ obj, .run obj tr r ∈ t := by
  rw [runs, List.mem_filterMap]
  constructor
  · rintro ⟨e, he, hx⟩
    cases e with
    | run obj => cases hx; exact ⟨obj, he⟩
    | _ => cases hx
  · rintro ⟨obj, he⟩
    exact ⟨_, he, rfl⟩

/-- The entry behind a run of a report, and the runs before it. -/
theorem runsOf_split {rep : List (TestRef × Option Verdict)} {l l' : List (TestRef × RunAnswer)} {tr : TestRef}
    {r : RunAnswer} (h : runsOf rep = l ++ (tr, r) :: l') :
    ∃ rep₁ v rep₂, rep = rep₁ ++ (tr, some v) :: rep₂ ∧ runsOf rep₁ = l := by
  obtain ⟨rep₁, tail, rfl, h₁, htail⟩ := List.filterMap_eq_append_iff.1 h
  obtain ⟨skip, ⟨x, o⟩, rep₂, rfl, hskip, hx, _⟩ := List.filterMap_eq_cons_iff.1 htail
  cases o with
  | none => cases hx
  | some v =>
    obtain ⟨_, _, he⟩ := Option.map_eq_some_iff.1 hx
    obtain ⟨rfl, _⟩ := Prod.mk.inj he
    refine ⟨rep₁ ++ skip, v, rep₂, by simp, ?_⟩
    rw [runsOf_append, ← List.append_nil l, ← h₁]
    congr 1
    exact List.filterMap_eq_nil_iff.2 hskip

/-- The order theorem of the dispatch, on the reports of dependency lists. -/
theorem report_order {dependencies : List TestRef} (hd : DepList dependencies) {cl : CmdLine} {env : Env} {n : Nat}
    {rep₁ rep₂ : List (TestRef × Option Verdict)} {b a : TestRef} {v : Verdict}
    (h : report cl env n dependencies = rep₁ ++ (b, some v) :: rep₂) (ha : b.Requires a) :
    (a, some .passed) ∈ rep₁ := by
  have hlist : dependencies = rep₁.map Prod.fst ++ b :: rep₂.map Prod.fst := by
    have := congrArg (List.map Prod.fst) h
    rwa [report, map_fst_dispatch, List.map_append] at this
  obtain ⟨⟨a', o⟩, hmem, hfst⟩ := List.mem_map.1 (hd.closed hlist ha)
  replace hfst : a' = a := hfst
  subst hfst
  have hsub : [(a', o), (b, some v)].Sublist (report cl env n dependencies) := by
    rw [h]
    exact (List.singleton_sublist.2 hmem).append (List.singleton_sublist.2 List.mem_cons_self)
  obtain ⟨_, rfl, rfl⟩ := dispatch_order hd.orderly (by simp) hsub ha
  exact hmem

/-- A test with a good entry is neither in the failed nor in the skipped tests of the report. -/
theorem not_listed_of_passed {dependencies : List TestRef} (hd : DepList dependencies) {cl : CmdLine} {env : Env}
    {n : Nat} {rep : List (TestRef × Option Verdict)} (hrep : rep <+: report cl env n dependencies) {a : TestRef}
    (ha : (a, some .passed) ∈ rep) : a ∉ failedOf rep ∧ a ∉ skippedOf rep := by
  have key : ∀ {o}, (a, o) ∈ rep → o = some .passed := fun ho =>
    entry_unique hd.nodup (hrep.subset ho) (hrep.subset ha)
  constructor
  · intro h
    obtain ⟨⟨b, o⟩, ho, hx⟩ := List.mem_filterMap.1 h
    split at hx
    · cases hx
      rename_i hfail
      rw [key ho] at hfail
      cases hfail
    · cases hx
  · intro h
    obtain ⟨⟨b, o⟩, ho, hx⟩ := List.mem_filterMap.1 h
    split at hx
    · cases hx
      rename_i hskip
      rw [key ho] at hskip
      cases hskip
    · cases hx

theorem remaining_tstIdx (g : Group) (target : TestRef) :
    remaining (g.getTestSet target).dependencies (g.getTestSet target).tstIdx = [] ∨
      remaining (g.getTestSet target).dependencies (g.getTestSet target).tstIdx =
        (g.getTestSet target).dependencies := by
  cases h : (g.getTestSet target).ok with
  | true => rw [(getTestSet_cases h).2.1]; exact Or.inr rfl
  | false => rw [(getTestSet_rejected h).1]; exact Or.inl rfl

/-- **A pass executes a test only after the tests it requires, which have passed.** -/
theorem pass_inDependencyOrder (cl : CmdLine) (env : Env) (g : Group) (target : TestRef) (s : ExecSt) (k : Nat) :
    ∃ p e t failed skipped,
      pass cl env (g.getTestSet target).dependencies ((g.getTestSet target).dependencies.length + 1 + k)
        (s.enter g (g.getTestSet target).tstIdx) = some (p, e) ∧
      (cl.ignore = true → cl.restore = false → e = .notFound) ∧
      p.trace = s.trace ++ t ∧ p.failedTests = s.failedTests ++ failed ∧
      p.skippedTests = s.skippedTests ++ skipped ∧
      InDependencyOrder (g.getTestSet target).dependencies t failed skipped := by
  have hd := depList_dependencies g target
  have hrem := remaining_tstIdx g target
  obtain ⟨p, e, rep, hp, he, hrep, hrec⟩ := pass_report cl env (g.getTestSet target).dependencies
    (p := s.enter g (g.getTestSet target).tstIdx) (by
      show (remaining _ (g.getTestSet target).tstIdx).length < (g.getTestSet target).dependencies.length + 1 + k
      rcases hrem with h | h <;> rw [h]
      · rw [List.length_nil]; omega
      · omega)
  obtain ⟨t, ht, hruns, _⟩ := hrec.trace
  have hprefix : rep <+: report cl env s.calls (g.getTestSet target).dependencies := by
    rcases hrem with h | h
    · have hnil : rep <+: report cl env s.calls [] := h ▸ hrep
      rw [report_nil, List.prefix_nil] at hnil
      rw [hnil]
      exact List.nil_prefix
    · exact h ▸ hrep
  refine ⟨p, e, t, failedOf rep, skippedOf rep, hp, he, ht, hrec.failed, hrec.skipped, hd.closed, ?_⟩
  intro pre post obj b r a htrace ha
  rw [htrace, runs_append] at hruns
  obtain ⟨rep₁, v, rep₂, rfl, hpre⟩ := runsOf_split hruns.symm
  obtain ⟨rep₃, hreport⟩ := hprefix
  have hgood : (a, some .passed) ∈ rep₁ :=
    report_order hd (by rw [← hreport, List.append_assoc, List.cons_append]) ha
  refine ⟨mem_runs.1 ?_, not_listed_of_passed hd ⟨rep₃, hreport⟩ (List.mem_append_left _ hgood)⟩
  rw [← hpre]
  exact List.mem_filterMap.2 ⟨_, hgood, rfl⟩

end Tnvme.Sched
