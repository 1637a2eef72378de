import Tnvme.Lib.Dispatch
import Tnvme.Sched.ExecuteTests

/-!
# The report of a pass

A pass over a dependency list is a dispatch. The verdict on a test is what one call of `RunTest` makes of it
(`verdictOf`); a verdict that is not `passed` blocks the dependents that `AdvanceDependencies` skips (`blocks`). On the
dependency lists this is `Orderly` (`DepList.orderly`). The report of the dispatch says which tests fail, are skipped
and run (`failedOf`, `skippedOf`, `runsOf`), and `leap` is the part of it that one call accounts for.
-/

namespace Tnvme.Sched

open Dispatch

/-- What one call of `runTest` makes of the test it considers. -/
inductive Verdict where
  | skipListed
  | notRunnable
  | runnableFailed
  | passed
  | failed
  deriving DecidableEq, Repr

namespace Verdict

def isFailed : Verdict → Bool
  | runnableFailed | failed => true
  | _ => false

def isSkipped : Verdict → Bool
  | skipListed | notRunnable => true
  | _ => false

def toResult : Verdict → TestResult
  | skipListed | notRunnable => .skipping
  | runnableFailed | failed => .fail
  | passed => .success

end Verdict

def verdictOf (cl : CmdLine) (a : Answers) (tr : TestRef) : Verdict :=
  if skippingTest tr cl.skiptest then .skipListed
  else
    match a.runnable cl.preserve, a.run with
    | .runTrue, .success => .passed
    | .runTrue, .fail => .failed
    | .runFalse, _ => .notRunnable
    | .runFail, _ => .runnableFailed

/-- The verdicts of the calls of a run. -/
def verdicts (cl : CmdLine) (env : Env) (n : Nat) (tr : TestRef) : Verdict := verdictOf cl (env.answers n) tr

def blocks (v : Verdict) (dt st : TestRef) : Bool := v != .passed && dependent v.isFailed dt st

/-- The report of a pass over `dependencies` that starts with the call `n`. -/
def report (cl : CmdLine) (env : Env) (n : Nat) (dependencies : List TestRef) : List (TestRef × Option Verdict) :=
  dispatch (verdicts cl env) blocks n none dependencies

/-! ## The dependency lists are orderly -/

theorem blocks_iff {v : Verdict} {dt st : TestRef} :
    blocks v dt st = true ↔ v ≠ .passed ∧ dt.xLev = st.xLev ∧
      (v.isFailed = true ∨ dt.yLev = 0 ∧ dt.zLev = 0 ∨ dt.yLev = st.yLev) := by
  simp [blocks, dependent_iff]

@[simp] theorem blocks_passed (dt : TestRef) : blocks .passed dt = fun _ => false := by
  funext st
  simp [blocks]

/-- Nothing is dropped behind a test that passed. -/
@[simp] theorem takeWhile_false (l : List TestRef) : l.takeWhile (fun _ => false) = [] := by
  cases l <;> rfl

theorem DepList.orderly {dependencies : List TestRef} (h : DepList dependencies) :
    Orderly blocks (· = .passed) TestRef.Requires dependencies where
  direct := by
    intro a b v hs hv hr
    refine blocks_iff.2 ⟨hv, ?_⟩
    rcases hr with ⟨rfl, _⟩ | ⟨z, _, rfl⟩
    · exact ⟨rfl, Or.inr (Or.inl ⟨rfl, rfl⟩)⟩
    · exact ⟨rfl, Or.inr (Or.inr rfl)⟩
  inherit := by
    intro c a b v hs hca hr
    have hlt : c.Lt a := (List.pairwise_cons.1 (h.sorted.sublist hs)).1 a (by simp)
    obtain ⟨hv, hx, hy⟩ := blocks_iff.1 hca
    refine blocks_iff.2 ⟨hv, ?_⟩
    unfold TestRef.Lt at hlt
    -- nothing stands before a configuration test, so it is blocked only by way of its x level
    rcases hr with ⟨rfl, _⟩ | ⟨z, _, rfl⟩
    · simp only [TestRef.config] at hx hy hlt
      omega
    · exact ⟨hx, hy⟩
  contiguous := by
    intro c k b v hs hcb
    have hp := h.sorted.sublist hs
    have hck : c.Lt k := (List.pairwise_cons.1 hp).1 k (by simp)
    have hkb : k.Lt b := (List.pairwise_cons.1 (List.pairwise_cons.1 hp).2).1 b (by simp)
    obtain ⟨hv, hx, hy⟩ := blocks_iff.1 hcb
    unfold TestRef.Lt at hck hkb
    refine blocks_iff.2 ⟨hv, by omega, ?_⟩
    rcases hy with hy | hy | hy
    · exact Or.inl hy
    · exact Or.inr (Or.inl hy)
    · exact Or.inr (Or.inr (by omega))

/-! ## What a report says -/

/-- The tests that a report lists as failed. -/
def failedOf (rep : List (TestRef × Option Verdict)) : List TestRef :=
  rep.filterMap fun x => if x.2.any (·.isFailed) then some x.1 else none

/-- The tests that a report lists as skipped: by their own verdict, or dropped. -/
def skippedOf (rep : List (TestRef × Option Verdict)) : List TestRef :=
  rep.filterMap fun x => if x.2.all (·.isSkipped) then some x.1 else none

def passedOf (rep : List (TestRef × Option Verdict)) : List TestRef :=
  rep.filterMap fun x => if x.2 = some .passed then some x.1 else none

/-- The answer of `Run` behind a verdict, if the test was run. -/
def Verdict.ran : Verdict → Option RunAnswer
  | passed => some .success
  | failed => some .fail
  | _ => none

/-- The tests that a report lists as run, with their answers. -/
def runsOf (rep : List (TestRef × Option Verdict)) : List (TestRef × RunAnswer) :=
  rep.filterMap fun x => (x.2.bind Verdict.ran).map fun r => (x.1, r)

/-- The runs in a trace. -/
def runs (trace : List Event) : List (TestRef × RunAnswer) :=
  trace.filterMap fun e => match e with
    | .run _ tr r => some (tr, r)
    | _ => none

/-- The tests that failed in a trace, in `Run` or already in `Runnable`. -/
def failures (trace : List Event) : List TestRef :=
  trace.filterMap fun e => match e with
    | .run _ tr .fail => some tr
    | .runnable _ tr .runFail => some tr
    | _ => none

@[simp] theorem runs_append (t t' : List Event) : runs (t ++ t') = runs t ++ runs t' := List.filterMap_append

@[simp] theorem failures_append (t t' : List Event) : failures (t ++ t') = failures t ++ failures t' :=
  List.filterMap_append

/-- The number of calls of `runTest` behind a report. -/
def turns (rep : List (TestRef × Option Verdict)) : Nat := rep.countP fun x => x.2.isSome

section Append

variable (rep rep' : List (TestRef × Option Verdict))

@[simp] theorem failedOf_append : failedOf (rep ++ rep') = failedOf rep ++ failedOf rep' := List.filterMap_append

@[simp] theorem skippedOf_append : skippedOf (rep ++ rep') = skippedOf rep ++ skippedOf rep' := List.filterMap_append

@[simp] theorem passedOf_append : passedOf (rep ++ rep') = passedOf rep ++ passedOf rep' := List.filterMap_append

@[simp] theorem runsOf_append : runsOf (rep ++ rep') = runsOf rep ++ runsOf rep' := List.filterMap_append

@[simp] theorem turns_append : turns (rep ++ rep') = turns rep + turns rep' := List.countP_append

end Append

/-- The part of the report that one call of `runTest` accounts for. -/
def leap (v : Verdict) (tr : TestRef) (rest : List TestRef) : List (TestRef × Option Verdict) :=
  (tr, some v) :: (rest.takeWhile (blocks v tr)).map fun st => (st, none)

theorem report_cons (cl : CmdLine) (env : Env) (n : Nat) (tr : TestRef) (rest : List TestRef) :
    report cl env n (tr :: rest) = leap (verdicts cl env n tr) tr rest ++
      report cl env (n + 1) (rest.dropWhile (blocks (verdicts cl env n tr) tr)) := by
  simp [report, leap, dispatch_cons]

theorem failedOf_leap (v : Verdict) (tr : TestRef) (rest : List TestRef) :
    failedOf (leap v tr rest) = if v.isFailed then [tr] else [] := by
  cases h : v.isFailed <;> simp [failedOf, leap, h, List.filterMap_map]

theorem passedOf_leap (v : Verdict) (tr : TestRef) (rest : List TestRef) :
    passedOf (leap v tr rest) = if v = .passed then [tr] else [] := by
  by_cases h : v = .passed <;> simp [passedOf, leap, h, List.filterMap_map]

theorem skippedOf_leap (v : Verdict) (tr : TestRef) (rest : List TestRef) :
    skippedOf (leap v tr rest) = (if v.isSkipped then [tr] else []) ++ rest.takeWhile (blocks v tr) := by
  cases h : v.isSkipped <;> simp [skippedOf, leap, h, List.filterMap_map]

theorem runsOf_leap (v : Verdict) (tr : TestRef) (rest : List TestRef) :
    runsOf (leap v tr rest) = (v.ran.map fun r => (tr, r)).toList := by
  cases h : v.ran <;> simp [runsOf, leap, h, List.filterMap_map]

theorem turns_leap (v : Verdict) (tr : TestRef) (rest : List TestRef) : turns (leap v tr rest) = 1 := by
  simp [turns, leap, List.countP_map, Function.comp_def]

end Tnvme.Sched
