import Mathlib.Logic.Function.Basic
import Tnvme.Sched.RunTest

/-!
# `ExecuteTests`

The loops over the iterations and the groups, and the innermost loop that calls `RunTest` until it returns
`TR_NOTFOUND` (`pass`). The innermost loop takes its turns from `fuel`, and is `none` when it runs out of them.

The outcomes from outside are an `Env`: what the tests answer in the `n`-th call of `RunTest`, whether the `n`-th
disable before a group succeeds, and whether the revision of the hardware could be read.
-/

namespace Tnvme.Sched

/-! ## `TestResults` -/

/-- The value an `int` keeps of `x`: two's complement of 32 bits. -/
def int32 (x : Int) : Int := x.bmod 4294967296

abbrev TestResults := TestResult → Int

namespace TestResults

def zero : TestResults := fun _ => 0

def addResult (results : TestResults) (testResult : TestResult) (amount : Int) : TestResults :=
  Function.update results testResult (int32 (results testResult + int32 amount))

def allTestsPass (results : TestResults) : Bool := results .fail == 0

/-- What the innermost loop of `executeTests` adds for a result of `RunTest` with `skipped` skipped tests. -/
def account (results : TestResults) (result : TestResult) (skipped : Nat) : TestResults :=
  if result = .skipping then results.addResult result skipped
  else
    let results := results.addResult result 1
    if result = .fail then results.addResult .skipping skipped else results

end TestResults

/-! ## The loops -/

structure Env where
  answers : Nat → Answers
  disable : Nat → Bool
  specOk : Bool

/-- The state of the innermost loop: the state of `runTest`, the totals, the number of calls so far, and the results
that the calls of this loop have returned. -/
structure PassSt extends RunSt where
  results : TestResults
  calls : Nat
  returned : List TestResult

/-- A call of `runTest` has left `s` and returned `result`, with `skipped` skipped tests. -/
def PassSt.returns (p : PassSt) (s : RunSt) (result : TestResult) (skipped : Nat) : PassSt :=
  { toRunSt := s
    results := p.results.account result skipped
    calls := p.calls + 1
    returned := p.returned ++ [result] }

section Returns

variable (p : PassSt) (s : RunSt) (result : TestResult) (skipped : Nat)

@[simp] theorem returns_calls : (p.returns s result skipped).calls = p.calls + 1 := rfl

@[simp] theorem returns_returned : (p.returns s result skipped).returned = p.returned ++ [result] := rfl

end Returns

inductive PassEnd where
  | notFound
  | earlyOut
  | threw
  deriving DecidableEq, Repr

def pass (cl : CmdLine) (env : Env) (testsToRun : List TestRef) : Nat → PassSt → Option (PassSt × PassEnd)
  | 0, _ => none
  | fuel + 1, p =>
    match runTest cl (env.answers p.calls) testsToRun p.toRunSt with
    | (s, .threw) => some ({ p with toRunSt := s, calls := p.calls + 1 }, .threw)
    | (s, .result result skipped) =>
      let p := p.returns s result skipped
      if result = .notFound then some (p, .notFound)
      else if result = .fail ∧ cl.ignore = false then some (p, .earlyOut)
      else pass cl env testsToRun fuel p

/-- The variables of `executeTests` outside the innermost loop, the groups, the next free address for a test object,
the numbers of calls of `runTest` and of disables so far, and the trace. -/
structure ExecSt where
  groups : List Group
  failedTests : List TestRef
  skippedTests : List TestRef
  results : TestResults
  heap : Nat
  calls : Nat
  disables : Nat
  trace : List Event

/-- How a loop over groups or iterations is left: at its end, or by a `goto`, or by an exception. -/
inductive ExecEnd where
  | done
  | abortOut
  | earlyOut
  | threw
  deriving DecidableEq, Repr

inductive ExecRet where
  | returned (ok : Bool)
  | threw
  deriving DecidableEq, Repr

namespace ExecSt

def init (groups : List Group) (heap : Nat) : ExecSt :=
  ⟨groups, [], [], TestResults.zero, heap, 0, 0, []⟩

/-- The state in which the innermost loop starts on the group `grp`. -/
def enter (s : ExecSt) (grp : Group) (tstIdx : Option Nat) : PassSt :=
  { grp, tstIdx, failedTests := s.failedTests, skippedTests := s.skippedTests, heap := s.heap, trace := s.trace,
    results := s.results, calls := s.calls, returned := [] }

/-- The state after the innermost loop on the group `iGrp`. -/
def leave (s : ExecSt) (iGrp : Nat) (p : PassSt) : ExecSt :=
  { s with
    groups := s.groups.set iGrp p.grp
    failedTests := p.failedTests
    skippedTests := p.skippedTests
    results := p.results
    heap := p.heap
    calls := p.calls
    trace := p.trace }

end ExecSt

/-- The target of the group `iGrp`, if the command line asks for it. -/
def targetTst (cl : CmdLine) (iGrp : Nat) : Option TestRef :=
  if cl.test.group = uintMax then some ⟨iGrp, uintMax, uintMax, uintMax⟩
  else if iGrp = cl.test.group then some ⟨iGrp, cl.test.xLev, cl.test.yLev, cl.test.zLev⟩
  else none

/-- The loop over the groups, from `iGrp` on. -/
def executeGroups (cl : CmdLine) (env : Env) (fuel : Nat) : List Nat → ExecSt → Option (ExecSt × ExecEnd)
  | [], s => some (s, .done)
  | iGrp :: rest, s =>
    match targetTst cl iGrp, s.groups[iGrp]? with
    | some target, some grp =>
      let ok := env.disable s.disables
      let s := { s with disables := s.disables + 1 }
      if ok = false then some (s, .abortOut)
      else
        let tstSet := grp.getTestSet target
        if tstSet.ok = false then some (s, .abortOut)
        else
          match pass cl env tstSet.dependencies fuel (s.enter grp tstSet.tstIdx) with
          | none => none
          | some (p, .notFound) => executeGroups cl env fuel rest (s.leave iGrp p)
          | some (p, .earlyOut) => some (s.leave iGrp p, .earlyOut)
          | some (p, .threw) => some (s.leave iGrp p, .threw)
    | _, _ => executeGroups cl env fuel rest s

/-- The loop over the iterations. -/
def executeLoop (cl : CmdLine) (env : Env) (fuel : Nat) : Nat → ExecSt → Option (ExecSt × ExecEnd)
  | 0, s => some (s, .done)
  | loop + 1, s =>
    match executeGroups cl env fuel (List.range s.groups.length) s with
    | some (s, .done) => executeLoop cl env fuel loop s
    | r => r

def executeTests (cl : CmdLine) (env : Env) (fuel : Nat) (s : ExecSt) : Option (ExecSt × ExecRet) :=
  if cl.test.group ≠ uintMax ∧ s.groups.length ≤ cl.test.group then some (s, .returned false)
  else if env.specOk = false then some (s, .returned false)
  else
    match executeLoop cl env fuel cl.loop s with
    | none => none
    | some (s, .done) => some (s, .returned s.results.allTestsPass)
    | some (s, .earlyOut) => some (s, .returned s.results.allTestsPass)
    | some (s, .abortOut) => some (s, .returned false)
    | some (s, .threw) => some (s, .threw)

end Tnvme.Sched
