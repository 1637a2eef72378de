import Tnvme.Sched.Pass

/-!
# The calls that `RunTest` makes

The calls of one turn, in their order: the chance to save the state, the test (`considered`), the chance to restore the
state, and the clone. `runTest_calls` says which of them are made, and what becomes of the matrix.
-/

namespace Tnvme.Sched

/-- The calls that go to the test itself. -/
def considered (cl : CmdLine) (a : Answers) (tr : TestRef) (myTest : Test) : List Event :=
  if skippingTest tr cl.skiptest then [.skipping tr]
  else if a.runnable cl.preserve = .runTrue then [.runnable myTest tr .runTrue, .run myTest tr a.run]
  else [.runnable myTest tr (a.runnable cl.preserve)]

/-- A successful save at the first index of a list. -/
def saved (cl : CmdLine) (i : Nat) : List Event := if cl.restore && i == 0 then [.saveState (.returns true)] else []

/-- The state is to be restored after the verdict `v`, from which the index goes on to `next`. -/
def restoreDue (cl : CmdLine) (v : Verdict) (next : Option Nat) : Bool := cl.restore && (next.isNone || v.isFailed)

/-- A clone is left at the place of the test. -/
structure Cloned (s s' : RunSt) (tr : TestRef) : Prop where
  grp : s'.grp = s.grp.replaceAt tr ⟨s.heap⟩
  heap : s'.heap = s.heap + 1

/-- The test stays. -/
structure Stays (s s' : RunSt) : Prop where
  grp : s'.grp = s.grp
  heap : s'.heap = s.heap

/-- How a turn ends, with the calls that it makes behind the test. -/
inductive TurnCalls (a : Answers) (due : Bool) (next : Option Nat) (v : Verdict) (tr : TestRef) (myTest : Test)
    (s s' : RunSt) : List Event → RunRet → Prop
  | went {n : Nat} : due = false → s'.tstIdx = next → Cloned s s' tr →
      TurnCalls a due next v tr myTest s s' [.clone myTest ⟨s.heap⟩ tr] (.result v.toResult n)
  | restored {n : Nat} : due = true → a.restoreState = .returns true → s'.tstIdx = next → Cloned s s' tr →
      TurnCalls a due next v tr myTest s s' [.restoreState (.returns true), .clone myTest ⟨s.heap⟩ tr]
        (.result v.toResult n)
  | restoreFailed {n : Nat} : due = true → a.restoreState = .returns false → s'.tstIdx = none → Stays s s' →
      TurnCalls a due next v tr myTest s s' [.restoreState (.returns false)] (.result .fail n)
  | restoreThrew : due = true → a.restoreState = .throws → Stays s s' →
      TurnCalls a due next v tr myTest s s' [.restoreState .throws] .threw

/-- The calls that one call of `runTest` makes. -/
inductive RunTestCalls (cl : CmdLine) (a : Answers) (dependencies : List TestRef) (s s' : RunSt) :
    List Event → RunRet → Prop
  | notFound : (∀ tr ∈ (remaining dependencies s.tstIdx).head?, s.grp.testExists tr = false) → s'.tstIdx = none →
      Stays s s' → RunTestCalls cl a dependencies s s' [] (.result .notFound 0)
  | saveFailed {tr : TestRef} {rest : List TestRef} : cl.restore = true → s.tstIdx = some 0 →
      dependencies = tr :: rest → s.grp.testExists tr = true → a.saveState = .returns false → s'.tstIdx = none →
      Stays s s' → RunTestCalls cl a dependencies s s' [.saveState (.returns false)] (.result .fail 0)
  | saveThrew : cl.restore = true → s.tstIdx = some 0 → a.saveState = .throws → Stays s s' →
      RunTestCalls cl a dependencies s s' [.saveState .throws] .threw
  | turn {i : Nat} {tr : TestRef} {rest : List TestRef} {myTest : Test} {t : List Event} {ret : RunRet} :
      s.tstIdx = some i → dependencies.drop i = tr :: rest → s.grp.testAt tr = some myTest →
      (cl.restore = true → i = 0 → a.saveState = .returns true) →
      TurnCalls a (restoreDue cl (verdictOf cl a tr) (jump i (blocks (verdictOf cl a tr) tr) rest))
        (jump i (blocks (verdictOf cl a tr) tr) rest) (verdictOf cl a tr) tr myTest s s' t ret →
      RunTestCalls cl a dependencies s s' (saved cl i ++ considered cl a tr myTest ++ t) ret

variable {cl : CmdLine} {a : Answers} {dependencies rest : List TestRef} {i : Nat} {tr : TestRef} {s : RunSt}

theorem advance_trace (s : RunSt) (dependencies : List TestRef) (failed : Bool) :
    (s.advance dependencies failed).1.trace = s.trace := rfl

theorem consider_trace (cl : CmdLine) (a : Answers) (dependencies : List TestRef) (tr : TestRef) (myTest : Test)
    (s : RunSt) :
    (s.consider cl a dependencies tr myTest).1.trace = s.trace ++ considered cl a tr myTest := by
  unfold RunSt.consider considered
  split
  · rfl
  · cases a.runnable cl.preserve with
    | runTrue =>
      simp only [if_true]
      split
      · simp [advance_trace]
      · simp
    | runFalse => simp [advance_trace]
    | runFail => simp [advance_trace]

theorem toResult_fail_iff (v : Verdict) : (v.toResult == .fail) = v.isFailed := by
  cases v <;> rfl

theorem cloned_replaceTest {s₁ : RunSt} (h : Stays s s₁) (tr : TestRef) (myTest : Test) :
    Cloned s (s₁.replaceTest tr myTest) tr := by
  constructor
  · rw [← h.grp, ← h.heap]
    rfl
  · rw [← h.heap]
    rfl

/-- The end of a turn, from a state whose matrix is that of `s`. -/
theorem finish_calls (cl : CmdLine) (a : Answers) {v : Verdict} {next : Option Nat} {s₁ : RunSt}
    (hnext : s₁.tstIdx = next) (h : Stays s s₁) (tr : TestRef) (myTest : Test) (numSkipped : Nat) :
    ∃ t, (s₁.finish cl a tr myTest v.toResult numSkipped).1.trace = s₁.trace ++ t ∧
      TurnCalls a (restoreDue cl v next) next v tr myTest s (s₁.finish cl a tr myTest v.toResult numSkipped).1 t
        (s₁.finish cl a tr myTest v.toResult numSkipped).2 := by
  have hdue : (cl.restore && (s₁.tstIdx.isNone || v.toResult == .fail)) = restoreDue cl v next := by
    rw [toResult_fail_iff, hnext, restoreDue]
  unfold RunSt.finish
  rw [hdue]
  cases hd : restoreDue cl v next with
  | false =>
    refine ⟨[.clone myTest ⟨s.heap⟩ tr], ?_, .went rfl hnext (cloned_replaceTest h tr myTest)⟩
    rw [← h.heap]
    rfl
  | true =>
    rw [if_pos rfl]
    cases ha : a.restoreState with
    | throws => exact ⟨_, rfl, .restoreThrew rfl ha ⟨h.grp, h.heap⟩⟩
    | returns ok =>
      have hstays : Stays s (s₁.event (.restoreState (.returns ok))) := ⟨h.grp, h.heap⟩
      cases ok with
      | false => exact ⟨_, rfl, .restoreFailed rfl ha rfl ⟨hstays.grp, hstays.heap⟩⟩
      | true =>
        refine ⟨[.restoreState (.returns true), .clone myTest ⟨s.heap⟩ tr], ?_,
          .restored rfl ha hnext (cloned_replaceTest hstays tr myTest)⟩
        rw [← h.heap]
        exact List.append_assoc _ _ _

/-- A turn without the chance to save the state. -/
theorem body_calls (cl : CmdLine) (a : Answers) (hd : dependencies.drop i = tr :: rest) (s₀ : RunSt)
    (hi₀ : s₀.tstIdx = some i) (h : Stays s s₀) (myTest : Test) :
    ∃ t, (s₀.body cl a dependencies tr myTest).1.trace = s₀.trace ++ (considered cl a tr myTest ++ t) ∧
      TurnCalls a (restoreDue cl (verdictOf cl a tr) (jump i (blocks (verdictOf cl a tr) tr) rest))
        (jump i (blocks (verdictOf cl a tr) tr) rest) (verdictOf cl a tr) tr myTest s
        (s₀.body cl a dependencies tr myTest).1 t (s₀.body cl a dependencies tr myTest).2 := by
  obtain ⟨s₁, hcons, hc⟩ := consider_spec cl a hd hi₀ myTest
  have htrace := consider_trace cl a dependencies tr myTest s₀
  rw [hcons] at htrace
  have hstays : Stays s s₁ := ⟨hc.grp.trans h.grp, hc.heap.trans h.heap⟩
  obtain ⟨t, ht, hcalls⟩ := finish_calls cl a hc.tstIdx hstays tr myTest
    (skippedOf (leap (verdictOf cl a tr) tr rest)).length
  rw [RunSt.body, hcons]
  exact ⟨t, by rw [ht, htrace, List.append_assoc], hcalls⟩

/-- **The calls of a call of `runTest`.** -/
theorem runTest_calls (cl : CmdLine) (a : Answers) (dependencies : List TestRef) (s : RunSt) :
    ∃ t, (runTest cl a dependencies s).1.trace = s.trace ++ t ∧
      RunTestCalls cl a dependencies s (runTest cl a dependencies s).1 t (runTest cl a dependencies s).2 := by
  unfold runTest
  rw [getElem?_tstIdx]
  cases hhead : (remaining dependencies s.tstIdx).head? with
  | none => exact ⟨[], (List.append_nil _).symm, .notFound (by simp [hhead]) rfl ⟨rfl, rfl⟩⟩
  | some tr =>
    simp only
    cases hat : s.grp.testAt tr with
    | none =>
      exact ⟨[], (List.append_nil _).symm, .notFound (by simp [hhead, testAt_eq_none_iff.1 hat]) rfl ⟨rfl, rfl⟩⟩
    | some myTest =>
      simp only
      obtain ⟨i, rest, hi, hd⟩ := exists_drop hhead
      split
      · rename_i hsave
        obtain ⟨hrestore, hzero⟩ := Bool.and_eq_true_iff.1 hsave
        have hidx : s.tstIdx = some 0 := by simpa using hzero
        cases ha : a.saveState with
        | throws => exact ⟨_, rfl, .saveThrew hrestore hidx ha ⟨rfl, rfl⟩⟩
        | returns ok =>
          cases ok with
          | false =>
            have hex : s.grp.testExists tr = true := by rw [← testAt_isSome, hat]; rfl
            rw [hi] at hidx
            rw [Option.some.inj hidx] at hd
            exact ⟨_, rfl, .saveFailed hrestore (hi.trans hidx) hd hex ha rfl ⟨rfl, rfl⟩⟩
          | true =>
            have hstays : Stays s (s.event (.saveState (.returns true))) := ⟨rfl, rfl⟩
            obtain ⟨t, ht, hcalls⟩ := body_calls cl a hd (s.event (.saveState (.returns true))) hi hstays myTest
            have hsaved : saved cl i = [.saveState (.returns true)] := by
              rw [hi] at hidx
              simp [saved, hrestore, Option.some.inj hidx]
            refine ⟨saved cl i ++ considered cl a tr myTest ++ t, ?_, .turn hi hd hat (fun _ _ => ha) hcalls⟩
            rw [ht, hsaved]
            simp
      · rename_i hsave
        have hno : (cl.restore && i == 0) = false := by simpa [hi] using hsave
        obtain ⟨t, ht, hcalls⟩ := body_calls cl a hd s hi ⟨rfl, rfl⟩ myTest
        refine ⟨saved cl i ++ considered cl a tr myTest ++ t, ?_, .turn hi hd hat (fun hr hz => ?_) hcalls⟩
        · rw [ht, saved, hno]
          simp
        · simp [hr, hz] at hno

/-- No test comes or goes. -/
theorem RunTestCalls.testExists {s s' : RunSt} {t : List Event} {ret : RunRet}
    (h : RunTestCalls cl a dependencies s s' t ret) (tr : TestRef) : s'.grp.testExists tr = s.grp.testExists tr := by
  have hstays : Stays s s' → s'.grp.testExists tr = s.grp.testExists tr := fun h => by rw [h.grp]
  cases h with
  | notFound _ _ hs => exact hstays hs
  | saveFailed _ _ _ _ _ _ hs => exact hstays hs
  | saveThrew _ _ _ hs => exact hstays hs
  | turn _ _ _ _ hturn =>
    cases hturn with
    | went _ _ hc => rw [hc.grp, testExists_replaceAt]
    | restored _ _ _ hc => rw [hc.grp, testExists_replaceAt]
    | restoreFailed _ _ _ hs => exact hstays hs
    | restoreThrew _ _ hs => exact hstays hs

end Tnvme.Sched
