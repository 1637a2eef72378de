import Tnvme.Sched.Pass

/-!
# A whole execution is a list of passes

The passes replace test objects but no tests, so every iteration meets the same dependency lists (`getTestSet_congr`,
`jobs`). With failures ignored and no state restored, an execution over existing tests works off the lists of all its
iterations one after the other: its report is the report of a list of jobs (`jobsReport`, `executeTests_spec`).
-/

namespace Tnvme.Sched

/-! ## The same tests give the same lists -/

section Congr

variable {g g' : Group} (h : Alike g g')
include h

theorem next_congr (tr : TestRef) : g'.next tr = g.next tr := by
  simp only [Group.next, h.mGrpNum, h.testExists]

theorem seek_congr (count : Nat) (tr : TestRef) : g'.seek count tr = g.seek count tr := by
  induction count generalizing tr with
  | zero => rfl
  | succ count ih => simp only [Group.seek, next_congr h, ih]

theorem iter_congr (n : Nat) : g'.iteraterToTestRef n = g.iteraterToTestRef n := by
  rw [Group.iteraterToTestRef, Group.iteraterToTestRef, seek_congr h, h.mGrpNum]

theorem testRefToIterator_congr (tr : TestRef) : g'.testRefToIterator tr = g.testRefToIterator tr := by
  ext n
  rw [Group.testRefToIterator_eq_some, Group.testRefToIterator_eq_some, iter_congr h]

theorem pushSequence_congr (count i : Nat) (dependencies : List TestRef) :
    g'.pushSequence count i dependencies = g.pushSequence count i dependencies := by
  induction count generalizing i dependencies with
  | zero => rfl
  | succ count ih => simp only [Group.pushSequence, iter_congr h, ih]

theorem pushAll_congr : g'.pushAll (g'.refs.length + 2) 0 = g.pushAll (g.refs.length + 2) 0 := by
  refine List.ext_getElem? fun k => ?_
  rw [Group.pushAll_getElem?, Group.pushAll_getElem?, iter_congr h]

theorem getTestSet_congr (target : TestRef) : g'.getTestSet target = g.getTestSet target := by
  simp only [Group.getTestSet, Group.configDependency, h.mGrpNum, h.testExists, testRefToIterator_congr h,
    pushSequence_congr h, pushAll_congr h]

end Congr

/-! ## Lists of jobs -/

/-- The dependency list of the group `iGrp`, if it is selected. -/
def job (cl : CmdLine) (groups : List Group) (iGrp : Nat) : Option (List TestRef) :=
  match targetTst cl iGrp, groups[iGrp]? with
  | some target, some grp => some (grp.getTestSet target).dependencies
  | _, _ => none

/-- The dependency lists of one iteration. -/
def jobs (cl : CmdLine) (groups : List Group) : List (List TestRef) :=
  (List.range groups.length).filterMap (job cl groups)

/-- The report of passes over the lists, the first of which starts with the call `n`. -/
def jobsReport (cl : CmdLine) (env : Env) : Nat → List (List TestRef) → List (TestRef × Option Verdict)
  | _, [] => []
  | n, dependencies :: rest =>
    report cl env n dependencies ++ jobsReport cl env (n + turns (report cl env n dependencies) + 1) rest

/-- The number of calls after these passes. -/
def jobsCalls (cl : CmdLine) (env : Env) : Nat → List (List TestRef) → Nat
  | n, [] => n
  | n, dependencies :: rest => jobsCalls cl env (n + turns (report cl env n dependencies) + 1) rest

variable {cl : CmdLine} {env : Env}

theorem jobsReport_append (n : Nat) (js js' : List (List TestRef)) :
    jobsReport cl env n (js ++ js') = jobsReport cl env n js ++ jobsReport cl env (jobsCalls cl env n js) js' := by
  induction js generalizing n with
  | nil => rfl
  | cons dependencies rest ih => simp [jobsReport, jobsCalls, ih]

theorem jobsCalls_append (n : Nat) (js js' : List (List TestRef)) :
    jobsCalls cl env n (js ++ js') = jobsCalls cl env (jobsCalls cl env n js) js' := by
  induction js generalizing n with
  | nil => rfl
  | cons dependencies rest ih => simp [jobsCalls, ih]

/-- The report has one entry for each entry of each list. -/
theorem map_fst_jobsReport (n : Nat) (js : List (List TestRef)) :
    (jobsReport cl env n js).map Prod.fst = js.flatten := by
  induction js generalizing n with
  | nil => rfl
  | cons dependencies rest ih =>
    simp [jobsReport, ih, report, Dispatch.map_fst_dispatch]

/-! ## More turns than needed change nothing -/

section Mono

variable {fuel : Nat} {s : ExecSt}

theorem executeGroups_mono {idxs : List Nat} {r : ExecSt × ExecEnd}
    (h : executeGroups cl env fuel idxs s = some r) (k : Nat) : executeGroups cl env (fuel + k) idxs s = some r := by
  induction idxs generalizing s with
  | nil => exact h
  | cons iGrp rest ih =>
    unfold executeGroups at h ⊢
    split at h
    · refine ite_else_mono h fun h => ite_else_mono h fun h => ?_
      split at h
      · cases h
      · simp only [pass_mono (by assumption) k]
        exact ih h
      · simpa only [pass_mono (by assumption) k] using h
      · simpa only [pass_mono (by assumption) k] using h
    · exact ih h

theorem executeLoop_mono {loop : Nat} {r : ExecSt × ExecEnd} (h : executeLoop cl env fuel loop s = some r)
    (k : Nat) : executeLoop cl env (fuel + k) loop s = some r := by
  induction loop generalizing s with
  | zero => exact h
  | succ loop ih =>
    unfold executeLoop at h ⊢
    cases hg : executeGroups cl env fuel (List.range s.groups.length) s with
    | none => rw [hg] at h; cases h
    | some r' =>
      rw [hg] at h
      rw [executeGroups_mono hg k]
      obtain ⟨s', e⟩ := r'
      cases e with
      | done => exact ih h
      | _ => exact h

theorem executeTests_mono {r : ExecSt × ExecRet} (h : executeTests cl env fuel s = some r) (k : Nat) :
    executeTests cl env (fuel + k) s = some r := by
  unfold executeTests at h ⊢
  refine ite_else_mono h fun h => ite_else_mono h fun h => ?_
  cases hl : executeLoop cl env fuel cl.loop s with
  | none => rw [hl] at h; cases h
  | some r' =>
    rw [hl] at h
    rw [executeLoop_mono hl k]
    exact h

end Mono

/-! ## The loops -/

/-- The groups of the state have the tests of `groups`. -/
structure SameTests (groups : List Group) (s : ExecSt) : Prop where
  length : s.groups.length = groups.length
  alike : ∀ {i : Nat} {g g' : Group}, groups[i]? = some g → s.groups[i]? = some g' → Alike g g'

/-- A pass leaves a group with the same tests. -/
theorem SameTests.leave {groups : List Group} {s : ExecSt} (hs : SameTests groups s) {iGrp : Nat} {g : Group}
    (hg : groups[iGrp]? = some g) (hlt : iGrp < s.groups.length) {p : PassSt} (halike : Alike g p.grp) :
    SameTests groups (s.leave iGrp p) where
  length := by simpa [ExecSt.leave] using hs.length
  alike := by
    intro j g₁ g₂ hj hj'
    simp only [ExecSt.leave, List.getElem?_set] at hj'
    by_cases hij : iGrp = j
    · subst hij
      rw [hg] at hj
      cases hj
      rw [if_pos rfl, if_pos hlt] at hj'
      cases hj'
      exact halike
    · rw [if_neg hij] at hj'
      exact hs.alike hj hj'

/-- From `s` to `s'` the lists `js` were worked off. -/
structure Executes (cl : CmdLine) (env : Env) (js : List (List TestRef)) (s s' : ExecSt) : Prop where
  calls : s'.calls = jobsCalls cl env s.calls js
  counts : ∀ {rep}, Counts s.results rep → Counts s'.results (rep ++ jobsReport cl env s.calls js)
  trace : ∃ t, s'.trace = s.trace ++ t ∧ failures t = failedOf (jobsReport cl env s.calls js)

theorem Executes.nil (s : ExecSt) : Executes cl env [] s s where
  calls := rfl
  counts h := by simpa [jobsReport] using h
  trace := ⟨[], (List.append_nil _).symm, rfl⟩

theorem Executes.append {js js' : List (List TestRef)} {s₁ s₂ s₃ : ExecSt} (h : Executes cl env js s₁ s₂)
    (h' : Executes cl env js' s₂ s₃) : Executes cl env (js ++ js') s₁ s₃ where
  calls := by rw [h'.calls, h.calls, jobsCalls_append]
  counts hc := by
    rw [jobsReport_append, ← h.calls, ← List.append_assoc]
    exact h'.counts (h.counts hc)
  trace := by
    obtain ⟨t, ht, hf⟩ := h.trace
    obtain ⟨t', ht', hf'⟩ := h'.trace
    refine ⟨t ++ t', by rw [ht', ht, List.append_assoc], ?_⟩
    rw [failures_append, hf, hf', jobsReport_append, failedOf_append, h.calls]

/-- One pass is one job. -/
theorem Completes.executes {s : ExecSt} {grp : Group} {tstIdx : Option Nat} {p : PassSt} (iGrp : Nat)
    {dependencies : List TestRef} (h : Completes (s.enter grp tstIdx) p (report cl env s.calls dependencies)) :
    Executes cl env [dependencies] s (s.leave iGrp p) where
  calls := h.calls
  counts hc := by
    rw [jobsReport, jobsReport, List.append_nil]
    exact h.counts hc
  trace := by
    obtain ⟨t, ht, _, hf⟩ := h.records.trace
    exact ⟨t, ht, by simpa [jobsReport] using hf⟩

/-- The groups for which `ExecuteTests` is expected to work: a selected one accepts its target, and the tests of its
list exist. -/
def Sound (cl : CmdLine) (groups : List Group) : Prop :=
  ∀ iGrp target grp, targetTst cl iGrp = some target → groups[iGrp]? = some grp →
    (grp.getTestSet target).ok = true ∧ ∀ tr ∈ (grp.getTestSet target).dependencies, grp.testExists tr = true

variable {groups : List Group} {fuel : Nat}

/-- The loop over the groups works off the lists of the selected groups. -/
theorem executeGroups_spec (hignore : cl.ignore = true) (hrestore : cl.restore = false)
    (hdisable : ∀ n, env.disable n = true) (hsound : Sound cl groups) (idxs : List Nat) {s : ExecSt}
    (hs : SameTests groups s) (hfuel : ∀ js ∈ idxs.filterMap (job cl groups), js.length < fuel) :
    ∃ s', executeGroups cl env fuel idxs s = some (s', .done) ∧ SameTests groups s' ∧
      Executes cl env (idxs.filterMap (job cl groups)) s s' := by
  induction idxs generalizing s with
  | nil => exact ⟨s, rfl, hs, .nil s⟩
  | cons iGrp rest ih =>
    cases ht : targetTst cl iGrp with
    | none =>
      have hjob : job cl groups iGrp = none := by simp [job, ht]
      rw [List.filterMap_cons_none hjob] at hfuel ⊢
      simpa only [executeGroups, ht] using ih hs hfuel
    | some target =>
      cases hg : groups[iGrp]? with
      | none =>
        have hjob : job cl groups iGrp = none := by simp [job, ht, hg]
        have hg' : s.groups[iGrp]? = none := by
          rw [List.getElem?_eq_none_iff, hs.length]
          exact List.getElem?_eq_none_iff.1 hg
        rw [List.filterMap_cons_none hjob] at hfuel ⊢
        simpa only [executeGroups, ht, hg'] using ih hs hfuel
      | some grp =>
        have hjob : job cl groups iGrp = some (grp.getTestSet target).dependencies := by simp [job, ht, hg]
        rw [List.filterMap_cons_some hjob] at hfuel ⊢
        have hlt : iGrp < s.groups.length := by
          rw [hs.length]
          exact (List.getElem?_eq_some_iff.1 hg).1
        obtain ⟨grp', hg'⟩ : ∃ grp', s.groups[iGrp]? = some grp' := ⟨_, List.getElem?_eq_getElem hlt⟩
        have halike := hs.alike hg hg'
        obtain ⟨hok, hex⟩ := hsound _ _ _ ht hg
        have hidx : (grp.getTestSet target).tstIdx = some 0 := (getTestSet_cases hok).2.1
        -- the pass over this group, from the state after the disable
        obtain ⟨p, hp, hc⟩ := pass_full hignore hrestore env (grp.getTestSet target).dependencies
          (p := ({ s with disables := s.disables + 1 } : ExecSt).enter grp' (some 0))
          (hfuel _ List.mem_cons_self)
          (fun tr htr => (halike.testExists tr).trans (hex tr htr))
        have hs₁ : SameTests groups { s with disables := s.disables + 1 } := ⟨hs.length, hs.alike⟩
        have hs' := hs₁.leave hg hlt (halike.trans hc.alike)
        obtain ⟨s', hrun, hsame, hexec⟩ := ih hs' fun js hjs => hfuel js (List.mem_cons_of_mem _ hjs)
        refine ⟨s', ?_, hsame, ?_⟩
        · simp only [executeGroups, ht, hg', hdisable, getTestSet_congr halike, hok, hidx, hp]
          exact hrun
        · have hone : Executes cl env [(grp.getTestSet target).dependencies] s
              (ExecSt.leave { s with disables := s.disables + 1 } iGrp p) :=
            let h := Completes.executes (s := { s with disables := s.disables + 1 }) iGrp hc
            ⟨h.calls, h.counts, h.trace⟩
          exact hone.append hexec

/-- The loop over the iterations works off the lists of all iterations. -/
theorem executeLoop_spec (hignore : cl.ignore = true) (hrestore : cl.restore = false)
    (hdisable : ∀ n, env.disable n = true) (hsound : Sound cl groups)
    (hfuel : ∀ js ∈ jobs cl groups, js.length < fuel) (loop : Nat) {s : ExecSt} (hs : SameTests groups s) :
    ∃ s', executeLoop cl env fuel loop s = some (s', .done) ∧
      Executes cl env (List.replicate loop (jobs cl groups)).flatten s s' := by
  induction loop generalizing s with
  | zero => exact ⟨s, rfl, .nil s⟩
  | succ loop ih =>
    obtain ⟨s₁, hrun, hs₁, hexec⟩ := executeGroups_spec hignore hrestore hdisable hsound
      (List.range groups.length) hs hfuel
    obtain ⟨s₂, hrun', hexec'⟩ := ih hs₁
    refine ⟨s₂, ?_, ?_⟩
    · rw [executeLoop, hs.length, hrun]
      exact hrun'
    · rw [List.replicate_succ, List.flatten_cons]
      exact hexec.append hexec'

/-- **An execution over existing tests works off all lists, and its answer says whether a test failed.** -/
theorem executeTests_spec (env : Env) (fuel : Nat) (hignore : cl.ignore = true) (hrestore : cl.restore = false)
    (hdisable : ∀ n, env.disable n = true) (hspec : env.specOk = true) (hsound : Sound cl groups)
    (htarget : cl.test.group = uintMax ∨ cl.test.group < groups.length)
    (hfuel : ∀ js ∈ jobs cl groups, js.length < fuel) (heap : Nat) :
    ∃ s, executeTests cl env fuel (.init groups heap) = some (s, .returned s.results.allTestsPass) ∧
      Executes cl env (List.replicate cl.loop (jobs cl groups)).flatten (.init groups heap) s := by
  have hs : SameTests groups (.init groups heap) := by
    refine ⟨rfl, fun {i g g'} hi hi' => ?_⟩
    rw [show (ExecSt.init groups heap).groups = groups from rfl, hi] at hi'
    cases hi'
    exact .refl g
  obtain ⟨s, hrun, hexec⟩ := executeLoop_spec hignore hrestore hdisable hsound hfuel cl.loop hs
  refine ⟨s, ?_, hexec⟩
  have hin : ¬(cl.test.group ≠ uintMax ∧ (ExecSt.init groups heap).groups.length ≤ cl.test.group) := by
    rintro ⟨hne, hle⟩
    rcases htarget with h | h
    · exact hne h
    · exact absurd h (Nat.not_lt.2 hle)
  rw [executeTests, if_neg hin, if_neg (by simp [hspec]), hrun]

end Tnvme.Sched
