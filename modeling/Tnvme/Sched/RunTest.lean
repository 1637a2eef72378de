import Tnvme.Sched.TestSet

/-!
# `Group::RunTest`

One call considers the test at the index it is given: it may save the state of the device, it skips the test or asks
whether it is runnable and runs it, it moves the index past what the result makes pointless
(`advanceDependencies`), it may restore the state, and it puts a clone in the place of the test object.

What the tests and the group answer during one call is its `Answers`. Every outside call is kept in the trace.
-/

namespace Tnvme.Sched

inductive TestResult where
  | success
  | fail
  | skipping
  | informative
  | notFound
  deriving DecidableEq, Repr

/-- `Test::RunType` -/
inductive RunType where
  | runTrue
  | runFalse
  | runFail
  deriving DecidableEq, Repr

/-- What `Test::Run` can return: `TR_FAIL`, or `mResult`, which is `TR_SUCCESS` from the constructor on and is never
assigned by a test. -/
inductive RunAnswer where
  | success
  | fail
  deriving DecidableEq, Repr

def RunAnswer.toTestResult : RunAnswer → TestResult
  | success => .success
  | fail => .fail

/-- The outcome of `SaveState` or `RestoreState`. -/
inductive Hook where
  | returns (ok : Bool)
  | throws
  deriving DecidableEq, Repr

/-- What the tests and the group answer during one call of `runTest`. -/
structure Answers where
  saveState : Hook
  runnable : Bool → RunType
  run : RunAnswer
  restoreState : Hook

/-- The options that the scheduler reads. -/
structure CmdLine where
  ignore : Bool
  restore : Bool
  preserve : Bool
  loop : Nat
  test : TestRef
  skiptest : List TestRef
  deriving DecidableEq, Repr

inductive Event where
  | saveState (h : Hook)
  | skipping (tr : TestRef)
  | runnable (obj : Test) (tr : TestRef) (r : RunType)
  | run (obj : Test) (tr : TestRef) (r : RunAnswer)
  | restoreState (h : Hook)
  | clone (old new : Test) (tr : TestRef)
  deriving DecidableEq, Repr

/-- The state that `runTest` works on: the group, its reference arguments, the next free address for a test object,
and the trace. The index is `none` for the source's `-1`. -/
structure RunSt where
  grp : Group
  tstIdx : Option Nat
  failedTests : List TestRef
  skippedTests : List TestRef
  heap : Nat
  trace : List Event
  deriving DecidableEq, Repr

/-- A result with the number of skipped tests, or an exception that left `runTest`. -/
inductive RunRet where
  | result (r : TestResult) (numSkipped : Nat)
  | threw
  deriving DecidableEq, Repr

/-! ## The functions -/

def skippingTest (tr : TestRef) (skipTest : List TestRef) : Bool :=
  skipTest.any fun s =>
    (tr.group == s.group && tr.xLev == s.xLev && tr.yLev == s.yLev && tr.zLev == s.zLev) ||
      (tr.group == s.group && (uintMax == s.xLev || uintMax == s.yLev || uintMax == s.zLev))

/-- The test of the loop that `advanceDependencies` enters: is `st` a dependent of `dt`? -/
def dependent (failed : Bool) (dt st : TestRef) : Bool :=
  if failed then dt.xLev == st.xLev
  else if dt.yLev == 0 && dt.zLev == 0 then dt.xLev == st.xLev
  else dt.xLev == st.xLev && dt.yLev == st.yLev

/-- A loop of `advanceDependencies`, over the entries from `tstIdx` on; the index, the skipped tests and the return
value. -/
def pushDependents (isDependent : TestRef → Bool) (origTstIdx : Nat) :
    Nat → List TestRef → List TestRef → Option Nat × List TestRef × Nat
  | tstIdx, [], skippedTests => (none, skippedTests, tstIdx - origTstIdx - 1)
  | tstIdx, st :: rest, skippedTests =>
    if isDependent st then pushDependents isDependent origTstIdx (tstIdx + 1) rest (skippedTests ++ [st])
    else (some tstIdx, skippedTests, tstIdx - origTstIdx - 1)

def advanceDependencies (dependencies : List TestRef) (tstIdx : Option Nat) (failed : Bool)
    (skippedTests : List TestRef) : Option Nat × List TestRef × Nat :=
  match tstIdx with
  | none => (none, skippedTests, 0)
  | some origTstIdx =>
    match dependencies.drop origTstIdx with
    | [] => (none, skippedTests, 0)
    | dt :: rest => pushDependents (dependent failed dt) origTstIdx (origTstIdx + 1) rest skippedTests

/-- The object at `mTests[x][y][z]`, if `testExists`. -/
def Group.testAt (g : Group) (tr : TestRef) : Option Test :=
  if g.testExists tr then (g.zs tr.xLev tr.yLev)[tr.zLev]? else none

/-- Erase the object at `mTests[x][y][z]` and insert another one at its place. -/
def Group.replaceAt (g : Group) (tr : TestRef) (new : Test) : Group :=
  { g with mTests := g.mTests.modify tr.xLev fun ys => ys.modify tr.yLev fun zs => zs.set tr.zLev new }

namespace RunSt

def event (s : RunSt) (e : Event) : RunSt := { s with trace := s.trace ++ [e] }

/-- Move past `tr`, which did not run, and what depends on it. -/
def advance (s : RunSt) (dependencies : List TestRef) (failed : Bool) : RunSt × Nat :=
  let (tstIdx, skippedTests, numSkipped) := advanceDependencies dependencies s.tstIdx failed s.skippedTests
  ({ s with tstIdx, skippedTests }, numSkipped)

/-- The skip, or the switch over `Runnable`. -/
def consider (cl : CmdLine) (a : Answers) (dependencies : List TestRef) (tr : TestRef) (myTest : Test) (s : RunSt) :
    RunSt × TestResult × Nat :=
  if skippingTest tr cl.skiptest then
    let s := { s.event (.skipping tr) with skippedTests := s.skippedTests ++ [tr] }
    let (s, numSkipped) := s.advance dependencies false
    (s, .skipping, numSkipped + 1)
  else
    let s := s.event (.runnable myTest tr (a.runnable cl.preserve))
    match a.runnable cl.preserve with
    | .runTrue =>
      let s := s.event (.run myTest tr a.run)
      if a.run.toTestResult = .fail then
        let s := { s with failedTests := s.failedTests ++ [tr] }
        let (s, numSkipped) := s.advance dependencies true
        (s, .fail, numSkipped)
      else
        let tstIdx := s.tstIdx.bind fun i => if dependencies.length ≤ i + 1 then none else some (i + 1)
        ({ s with tstIdx }, a.run.toTestResult, 0)
    | .runFalse =>
      let s := { s with skippedTests := s.skippedTests ++ [tr] }
      let (s, numSkipped) := s.advance dependencies false
      (s, .skipping, numSkipped + 1)
    | .runFail =>
      -- `result` keeps the `TR_FAIL` it starts with
      let s := { s with failedTests := s.failedTests ++ [tr] }
      let (s, numSkipped) := s.advance dependencies true
      (s, .fail, numSkipped)

/-- Destroy the test object and leave a clone in its place. -/
def replaceTest (s : RunSt) (tr : TestRef) (myTest : Test) : RunSt :=
  { s.event (.clone myTest ⟨s.heap⟩ tr) with grp := s.grp.replaceAt tr ⟨s.heap⟩, heap := s.heap + 1 }

/-- What follows the test: the chance to restore the state, and the clone. -/
def finish (cl : CmdLine) (a : Answers) (tr : TestRef) (myTest : Test) (s : RunSt) (result : TestResult)
    (numSkipped : Nat) : RunSt × RunRet :=
  if cl.restore && (s.tstIdx.isNone || result == .fail) then
    let s := s.event (.restoreState a.restoreState)
    match a.restoreState with
    | .throws => (s, .threw)
    | .returns false => ({ s with tstIdx := none }, .result .fail numSkipped)
    | .returns true => (s.replaceTest tr myTest, .result result numSkipped)
  else (s.replaceTest tr myTest, .result result numSkipped)

/-- A call that found its test, after the chance to save the state. -/
def body (cl : CmdLine) (a : Answers) (dependencies : List TestRef) (tr : TestRef) (myTest : Test) (s : RunSt) :
    RunSt × RunRet :=
  let (s, result, numSkipped) := s.consider cl a dependencies tr myTest
  s.finish cl a tr myTest result numSkipped

end RunSt

def runTest (cl : CmdLine) (a : Answers) (dependencies : List TestRef) (s : RunSt) : RunSt × RunRet :=
  match s.tstIdx.bind fun i => dependencies[i]? with
  | none => ({ s with tstIdx := none }, .result .notFound 0)
  | some tr =>
    match s.grp.testAt tr with
    | none => ({ s with tstIdx := none }, .result .notFound 0)
    | some myTest =>
      if cl.restore && s.tstIdx == some 0 then
        let s := s.event (.saveState a.saveState)
        match a.saveState with
        | .throws => (s, .threw)
        | .returns false => ({ s with tstIdx := none }, .result .fail 0)
        | .returns true => s.body cl a dependencies tr myTest
      else s.body cl a dependencies tr myTest

/-! ## An event changes the trace only -/

section Event

variable (s : RunSt) (e : Event)

@[simp] theorem event_grp : (s.event e).grp = s.grp := rfl

@[simp] theorem event_tstIdx : (s.event e).tstIdx = s.tstIdx := rfl

@[simp] theorem event_failedTests : (s.event e).failedTests = s.failedTests := rfl

@[simp] theorem event_skippedTests : (s.event e).skippedTests = s.skippedTests := rfl

@[simp] theorem event_heap : (s.event e).heap = s.heap := rfl

@[simp] theorem event_trace : (s.event e).trace = s.trace ++ [e] := rfl

end Event

/-! ## The index -/

/-- With the test of a dependent goes its x level, and unless a configuration test is skipped or a test fails, also
its y level. -/
theorem dependent_iff {failed : Bool} {dt st : TestRef} :
    dependent failed dt st = true ↔
      dt.xLev = st.xLev ∧ (failed = true ∨ dt.yLev = 0 ∧ dt.zLev = 0 ∨ dt.yLev = st.yLev) := by
  unfold dependent
  split
  · simp [*]
  · split <;> simp_all

/-- The loop pushes the dependents at the front of the rest and stops behind them. -/
theorem pushDependents_eq (p : TestRef → Bool) (origTstIdx : Nat) (rest : List TestRef) (tstIdx : Nat)
    (skippedTests : List TestRef) :
    pushDependents p origTstIdx tstIdx rest skippedTests =
      (if (rest.dropWhile p).isEmpty then none else some (tstIdx + (rest.takeWhile p).length),
        skippedTests ++ rest.takeWhile p, tstIdx + (rest.takeWhile p).length - origTstIdx - 1) := by
  induction rest generalizing tstIdx skippedTests with
  | nil => simp [pushDependents]
  | cons st rest ih =>
    by_cases h : p st
    · simp only [pushDependents, h, if_true, ih, List.takeWhile_cons_of_pos, List.dropWhile_cons_of_pos,
        List.append_assoc, List.singleton_append, List.length_cons, Prod.mk.injEq, true_and]
      refine ⟨?_, by omega⟩
      congr 2; omega
    · simp [pushDependents, h]

/-- **What `advanceDependencies` does**: the dependents right behind the entry are skipped. -/
theorem advanceDependencies_eq {dependencies rest : List TestRef} {i : Nat} {dt : TestRef}
    (h : dependencies.drop i = dt :: rest) (failed : Bool) (skippedTests : List TestRef) :
    advanceDependencies dependencies (some i) failed skippedTests =
      (if (rest.dropWhile (dependent failed dt)).isEmpty then none
        else some (i + 1 + (rest.takeWhile (dependent failed dt)).length),
        skippedTests ++ rest.takeWhile (dependent failed dt), (rest.takeWhile (dependent failed dt)).length) := by
  simp only [advanceDependencies, h, pushDependents_eq, Prod.mk.injEq, true_and]
  omega

/-! ## The matrix keeps its shape -/

theorem getD_modify_length {β : Type} (l : List (List β)) (i j : Nat) (f : List β → List β)
    (hf : ∀ b, (f b).length = b.length) : ((l.modify i f).getD j []).length = (l.getD j []).length := by
  simp only [List.getD_eq_getElem?_getD, List.getElem?_modify]
  cases hj : l[j]? with
  | none => simp
  | some b => by_cases h : i = j <;> simp [h, hf]

theorem zs_replaceAt_length (g : Group) (tr : TestRef) (new : Test) (x y : Nat) :
    ((g.replaceAt tr new).zs x y).length = (g.zs x y).length := by
  simp only [Group.zs, Group.ys, Group.replaceAt, List.getD_eq_getElem?_getD (l := g.mTests.modify _ _),
    List.getElem?_modify]
  cases hx : g.mTests[x]? with
  | none => simp [List.getD_eq_getElem?_getD, hx]
  | some ys =>
    by_cases h : tr.xLev = x
    · simp only [h, if_true, Option.getD_some, List.getD_eq_getElem?_getD (l := g.mTests), hx]
      exact getD_modify_length ys tr.yLev y _ (fun zs => by simp)
    · simp [h, List.getD_eq_getElem?_getD, hx]

@[simp] theorem testExists_replaceAt (g : Group) (tr : TestRef) (new : Test) (tr' : TestRef) :
    (g.replaceAt tr new).testExists tr' = g.testExists tr' := by
  rw [Bool.eq_iff_iff, Group.testExists_iff, Group.testExists_iff, zs_replaceAt_length]
  rfl

theorem testAt_isSome (g : Group) (tr : TestRef) : (g.testAt tr).isSome = g.testExists tr := by
  unfold Group.testAt
  by_cases h : g.testExists tr = true
  · simp [h, (Group.testExists_iff.1 h).2]
  · simp [h]

theorem testAt_eq_none_iff {g : Group} {tr : TestRef} : g.testAt tr = none ↔ g.testExists tr = false := by
  rw [← testAt_isSome, Option.isSome_eq_false_iff, Option.isNone_iff_eq_none]

end Tnvme.Sched
