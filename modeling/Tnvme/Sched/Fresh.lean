import Tnvme.Lib.Runs
import Tnvme.Sched.Events

/-!
# Fresh test objects

A call of `RunTest` that gets as far as its test destroys the test object in the end and leaves a clone at its place,
so that no object is run twice. Only a `RestoreState` that fails or throws comes in between; then the object stays in
the matrix with all that it knows, and the next loop runs it again. `fresh_run_iff` says that this is the only way.
-/

namespace Tnvme.Sched

/-! ## Calls in any order -/

/-- The arguments of one call of `runTest`, with what it is answered. -/
structure RunCall where
  cl : CmdLine
  answers : Answers
  dependencies : List TestRef
  tstIdx : Option Nat

def call (s : RunSt) (c : RunCall) : RunSt := (runTest c.cl c.answers c.dependencies { s with tstIdx := c.tstIdx }).1

/-- The lengths of the rows of the matrix. -/
def Group.shape (g : Group) : List (List Nat) := g.mTests.map fun ys => ys.map List.length

/-- The test objects of the matrix. -/
def Group.objs (g : Group) : List Test := g.mTests.flatten.flatten

/-- The test objects whose `Run` is entered. -/
def executed (trace : List Event) : List Test :=
  trace.filterMap fun e => match e with
    | .run obj _ _ => some obj
    | _ => none

/-- The test objects that are destroyed. -/
def destroyed (trace : List Event) : List Test :=
  trace.filterMap fun e => match e with
    | .clone old _ _ => some old
    | _ => none

/-- The state before the first call: the objects of the matrix are all different, and what is allocated later is
different again. -/
structure Start extends RunSt where
  nodup : grp.objs.Nodup
  below : ∀ o ∈ grp.objs, o.addr < heap
  unrun : trace = []

/-- The call gets as far as the test `tr`, the object `myTest`. -/
structure Considers (s : RunSt) (c : RunCall) (i : Nat) (tr : TestRef) (rest : List TestRef) (myTest : Test) :
    Prop where
  tstIdx : c.tstIdx = some i
  listed : c.dependencies.drop i = tr :: rest
  found : s.grp.testAt tr = some myTest
  save : c.cl.restore = true → i = 0 → c.answers.saveState = .returns true

/-- From `s` to `s'` the test object is destroyed, once, and there is a clone at its place. -/
structure Replaced (s s' : RunSt) (tr : TestRef) (myTest : Test) : Prop where
  clone : ∃ t new, s'.trace = s.trace ++ t ++ [.clone myTest new tr] ∧ destroyed t = [] ∧ s'.grp.testAt tr = some new
  others : ∀ tr', tr' ≠ tr → s'.grp.testAt tr' = s.grp.testAt tr'

/-- The matrix keeps its shape, and the test that is considered is replaced. -/
structure Renews (s : RunSt) (c : RunCall) : Prop where
  shape : (call s c).grp.shape = s.grp.shape
  replaced : ∀ i tr rest myTest, Considers s c i tr rest myTest → Replaced s (call s c) tr myTest

/-- If the call comes to restore the state, this succeeds. -/
def Restores (s : RunSt) (c : RunCall) : Prop :=
  ∀ i tr rest myTest, Considers s c i tr rest myTest →
    restoreDue c.cl (verdictOf c.cl c.answers tr) (jump i (blocks (verdictOf c.cl c.answers tr) tr) rest) = true →
    c.answers.restoreState = .returns true

/-! ## The matrix -/

variable {g : Group} {tr : TestRef} {myTest : Test}

theorem map_modify {α β : Type} (l : List α) (i : Nat) {f : α → α} {k : α → β} (h : ∀ a, k (f a) = k a) :
    (l.modify i f).map k = l.map k := by
  refine List.ext_getElem? fun j => ?_
  simp only [List.getElem?_map, List.getElem?_modify]
  cases l[j]? with
  | none => rfl
  | some a => by_cases hij : i = j <;> simp [hij, h]

theorem shape_replaceAt (g : Group) (tr : TestRef) (new : Test) : (g.replaceAt tr new).shape = g.shape :=
  map_modify _ _ fun _ => map_modify _ _ fun _ => List.length_set

theorem zs_replaceAt (g : Group) (tr : TestRef) (new : Test) (x y : Nat) :
    (g.replaceAt tr new).zs x y = if tr.xLev = x ∧ tr.yLev = y then (g.zs x y).set tr.zLev new else g.zs x y := by
  simp only [Group.zs, Group.ys, Group.replaceAt, List.getD_eq_getElem?_getD, List.getElem?_modify]
  by_cases hx : tr.xLev = x
  · cases hys : g.mTests[x]? with
    | none => simp
    | some ys =>
      by_cases hy : tr.yLev = y
      · cases hzs : ys[y]? <;> simp [hx, hy, hzs]
      · simp [hx, hy]
  · simp [hx]

theorem testAt_eq_some_iff : g.testAt tr = some myTest ↔
    g.testExists tr = true ∧ (g.zs tr.xLev tr.yLev)[tr.zLev]? = some myTest := by
  unfold Group.testAt
  split <;> simp [*]

theorem testAt_replaceAt (h : g.testExists tr = true) (new : Test) : (g.replaceAt tr new).testAt tr = some new := by
  have hlt := (Group.testExists_iff.1 h).2
  rw [testAt_eq_some_iff, testExists_replaceAt, zs_replaceAt]
  simp [h, hlt]

theorem testAt_replaceAt_ne {tr' : TestRef} (hne : tr' ≠ tr) (h : g.testExists tr = true) (new : Test) :
    (g.replaceAt tr new).testAt tr' = g.testAt tr' := by
  unfold Group.testAt
  rw [testExists_replaceAt, zs_replaceAt]
  split
  · rename_i hex
    have hgrp : tr'.group = tr.group := (Group.testExists_iff.1 hex).1.trans (Group.testExists_iff.1 h).1.symm
    split
    · rename_i hxy
      rw [List.getElem?_set_ne]
      intro hz
      apply hne
      cases tr'
      cases tr
      simp only [TestRef.mk.injEq] at hgrp hxy hz ⊢
      exact ⟨hgrp, hxy.1.symm, hxy.2.symm, hz.symm⟩
    · rfl
  · rfl

/-- The objects of the matrix but one. -/
theorem objs_replaceAt (h : g.testAt tr = some myTest) (new : Test) :
    ∃ rest, g.objs.Perm (myTest :: rest) ∧ (g.replaceAt tr new).objs.Perm (new :: rest) := by
  obtain ⟨hex, hget⟩ := testAt_eq_some_iff.1 h
  obtain ⟨_, hz⟩ := Group.testExists_iff.1 hex
  have hy : tr.yLev < (g.ys tr.xLev).length := by
    by_contra hno
    simp [Group.zs, List.getD_eq_getElem?_getD, List.getElem?_eq_none (Nat.not_lt.1 hno)] at hz
  have hx : tr.xLev < g.mTests.length := by
    by_contra hno
    simp [Group.ys, List.getD_eq_getElem?_getD, List.getElem?_eq_none (Nat.not_lt.1 hno)] at hy
  obtain ⟨xs, ys, xs', hxs, hxlen, hxmod⟩ :=
    List.exists_of_modify (fun ys => ys.modify tr.yLev fun zs => zs.set tr.zLev new) hx
  have hys : g.ys tr.xLev = ys := by simp [Group.ys, hxs, ← hxlen]
  rw [hys] at hy
  obtain ⟨ws, zs, ws', hws, hwlen, hwmod⟩ := List.exists_of_modify (fun zs => zs.set tr.zLev new) hy
  have hzs : g.zs tr.xLev tr.yLev = zs := by simp [Group.zs, hys, hws, ← hwlen]
  rw [hzs] at hget hz
  obtain ⟨os, os', hos, holen, hoset⟩ : ∃ os os', zs = os ++ myTest :: os' ∧ os.length = tr.zLev ∧
      zs.set tr.zLev new = os ++ new :: os' := by
    obtain ⟨hlt, rfl⟩ := List.getElem?_eq_some_iff.1 hget
    exact ⟨zs.take tr.zLev, zs.drop (tr.zLev + 1), by simp, by simp; omega,
      List.set_eq_take_append_cons_drop.trans (if_pos hlt)⟩
  refine ⟨xs.flatten.flatten ++ ws.flatten ++ os ++ (os' ++ ws'.flatten ++ xs'.flatten.flatten), ?_, ?_⟩
  · have hobjs : g.objs = xs.flatten.flatten ++ ws.flatten ++ os ++
        myTest :: (os' ++ ws'.flatten ++ xs'.flatten.flatten) := by
      simp [Group.objs, hxs, hws, hos]
    rw [hobjs]
    exact List.perm_middle
  · have hobjs : (g.replaceAt tr new).objs = xs.flatten.flatten ++ ws.flatten ++ os ++
        new :: (os' ++ ws'.flatten ++ xs'.flatten.flatten) := by
      simp [Group.objs, Group.replaceAt, hxmod, hwmod, hoset]
    rw [hobjs]
    exact List.perm_middle

/-! ## One call -/

variable {s s' : RunSt} {c : RunCall} {rest : List TestRef} {i : Nat} {t : List Event} {ret : RunRet} {cl : CmdLine}
  {a : Answers}

/-- A call that does not get as far as its test, or one that does. -/
inductive CallStep (s : RunSt) (c : RunCall) : Prop
  | early : (∀ i tr rest myTest, ¬Considers s c i tr rest myTest) → (call s c).grp = s.grp →
      (call s c).heap = s.heap → executed (call s c).trace = executed s.trace → CallStep s c
  | considers {i : Nat} {tr : TestRef} {rest : List TestRef} {myTest : Test} {ret : RunRet} {t : List Event} :
      Considers s c i tr rest myTest →
      (call s c).trace = s.trace ++ (saved c.cl i ++ considered c.cl c.answers tr myTest ++ t) →
      TurnCalls c.answers
        (restoreDue c.cl (verdictOf c.cl c.answers tr) (jump i (blocks (verdictOf c.cl c.answers tr) tr) rest))
        (jump i (blocks (verdictOf c.cl c.answers tr) tr) rest) (verdictOf c.cl c.answers tr) tr myTest
        { s with tstIdx := c.tstIdx } (call s c) t ret → CallStep s c

theorem executed_append (t t' : List Event) : executed (t ++ t') = executed t ++ executed t' := List.filterMap_append

theorem call_step (s : RunSt) (c : RunCall) : CallStep s c := by
  obtain ⟨t, ht, hcalls⟩ := runTest_calls c.cl c.answers c.dependencies { s with tstIdx := c.tstIdx }
  have hearly : Stays { s with tstIdx := c.tstIdx } (call s c) → executed t = [] →
      (∀ i tr rest myTest, ¬Considers s c i tr rest myTest) → CallStep s c := by
    intro hs hex hno
    refine .early hno hs.grp hs.heap ?_
    rw [call, ht, executed_append, hex, List.append_nil]
  have hsave : c.cl.restore = true → c.tstIdx = some 0 → c.answers.saveState ≠ .returns true →
      ∀ i tr rest myTest, ¬Considers s c i tr rest myTest := by
    intro hrestore hidx hne i tr rest myTest h
    have hi := h.tstIdx
    rw [hidx] at hi
    exact hne (h.save hrestore (Option.some.inj hi).symm)
  change RunTestCalls c.cl c.answers c.dependencies { s with tstIdx := c.tstIdx } (call s c) t _ at hcalls
  generalize (runTest c.cl c.answers c.dependencies { s with tstIdx := c.tstIdx }).2 = ret at hcalls
  cases hcalls with
  | notFound hnone _ hs =>
    refine hearly hs rfl fun i tr rest myTest h => ?_
    have hex : s.grp.testExists tr = true := (testAt_eq_some_iff.1 h.found).1
    rw [hnone tr (by simp [h.tstIdx, remaining, h.listed])] at hex
    cases hex
  | saveFailed hrestore hidx _ _ ha _ hs => exact hearly hs rfl (hsave hrestore hidx (by simp [ha]))
  | saveThrew hrestore hidx ha hs => exact hearly hs rfl (hsave hrestore hidx (by simp [ha]))
  | turn hi hd hat hsv hturn => exact .considers ⟨hi, hd, hat, hsv⟩ ht hturn

theorem Considers.unique {i' : Nat} {tr tr' : TestRef} {rest' : List TestRef} {myTest' : Test}
    (h : Considers s c i tr rest myTest) (h' : Considers s c i' tr' rest' myTest') :
    i = i' ∧ tr = tr' ∧ rest = rest' ∧ myTest = myTest' := by
  obtain rfl : i = i' := Option.some.inj (h.tstIdx.symm.trans h'.tstIdx)
  obtain ⟨rfl, rfl⟩ := List.cons.inj (h.listed.symm.trans h'.listed)
  exact ⟨rfl, rfl, rfl, Option.some.inj (h.found.symm.trans h'.found)⟩

theorem destroyed_considered : destroyed (saved cl i ++ considered cl a tr myTest) = [] := by
  unfold saved considered
  repeat' split
  all_goals rfl

theorem shape_call (s : RunSt) (c : RunCall) : (call s c).grp.shape = s.grp.shape := by
  cases call_step s c with
  | early _ hgrp => rw [hgrp]
  | considers _ _ hturn =>
    cases hturn with
    | went _ _ hc => rw [hc.grp, shape_replaceAt]
    | restored _ _ _ hc => rw [hc.grp, shape_replaceAt]
    | restoreFailed _ _ _ hs => rw [hs.grp]
    | restoreThrew _ _ hs => rw [hs.grp]

/-- What is behind the test in a call that replaces it. -/
theorem replaced_of_cloned (h : Considers s c i tr rest myTest) (t : List Event)
    (ht : (call s c).trace = s.trace ++ t ++ [.clone myTest ⟨s.heap⟩ tr]) (hno : destroyed t = [])
    (hgrp : (call s c).grp = s.grp.replaceAt tr ⟨s.heap⟩) : Replaced s (call s c) tr myTest := by
  have hex := (testAt_eq_some_iff.1 h.found).1
  refine ⟨⟨t, ⟨s.heap⟩, ht, hno, ?_⟩, fun tr' hne => ?_⟩
  · rw [hgrp, testAt_replaceAt hex]
  · rw [hgrp, testAt_replaceAt_ne hne hex]

theorem destroyed_append (t t' : List Event) : destroyed (t ++ t') = destroyed t ++ destroyed t' :=
  List.filterMap_append

/-- **A call renews its test exactly if it does not fail to restore the state.** -/
theorem renews_iff (s : RunSt) (c : RunCall) : Renews s c ↔ Restores s c := by
  cases call_step s c with
  | early hno =>
    refine iff_of_true ⟨shape_call s c, ?_⟩ ?_
    · exact fun i tr rest o h => absurd h (hno i tr rest o)
    · exact fun i tr rest o h => absurd h (hno i tr rest o)
  | @considers i tr rest myTest ret t h ht hturn =>
    have hnone : destroyed t = [] → ¬Renews s c := by
      intro hdes hr
      obtain ⟨u, new, hu, _⟩ := (hr.replaced _ _ _ _ h).clone
      rw [ht, List.append_assoc s.trace u] at hu
      have hmem := congrArg destroyed (List.append_cancel_left hu)
      rw [destroyed_append, destroyed_considered, hdes, destroyed_append] at hmem
      simp [destroyed] at hmem
    have hall : Replaced s (call s c) tr myTest → Renews s c := by
      refine fun hr => ⟨shape_call s c, fun i' tr' rest' o' h' => ?_⟩
      obtain ⟨_, rfl, _, rfl⟩ := h.unique h'
      exact hr
    cases hturn with
    | went hdue _ hc =>
      refine iff_of_true (hall (replaced_of_cloned h (saved c.cl i ++ considered c.cl c.answers tr myTest) ?_
        destroyed_considered hc.grp)) ?_
      · rw [ht, List.append_assoc s.trace]
      · rintro i' tr' rest' o' h' hdue'
        obtain ⟨rfl, rfl, rfl, _⟩ := h.unique h'
        rw [hdue] at hdue'
        cases hdue'
    | restored _ ha _ hc =>
      refine iff_of_true (hall (replaced_of_cloned h (saved c.cl i ++ considered c.cl c.answers tr myTest ++
        [.restoreState (.returns true)]) ?_ ?_ hc.grp)) fun _ _ _ _ _ _ => ha
      · rw [ht]
        simp
      · rw [destroyed_append, destroyed_considered]
        rfl
    | restoreFailed hdue ha =>
      refine iff_of_false (hnone rfl) fun hr => ?_
      rw [hr _ _ _ _ h hdue] at ha
      cases ha
    | restoreThrew hdue ha =>
      refine iff_of_false (hnone rfl) fun hr => ?_
      rw [hr _ _ _ _ h hdue] at ha
      cases ha

/-! ## Runs of calls -/

/-- What has been run is gone, and was run once. -/
structure Fresh (s : RunSt) : Prop where
  nodup : (executed s.trace ++ s.grp.objs).Nodup
  below : ∀ o ∈ executed s.trace ++ s.grp.objs, o.addr < s.heap

theorem Start.fresh (s : Start) : Fresh s.toRunSt := by
  constructor
  · rw [s.unrun]
    exact s.nodup
  · rw [s.unrun]
    exact s.below

theorem executed_considered : executed (saved cl i ++ considered cl a tr myTest) = [] ∨
    executed (saved cl i ++ considered cl a tr myTest) = [myTest] := by
  unfold saved considered
  repeat' split
  all_goals simp [executed]

/-- The object that is replaced was not run before, and a new one takes its place. -/
theorem fresh_of_cloned (hf : Fresh s) (h : s.grp.testAt tr = some myTest) {ran : List Test}
    (hran : ran = [] ∨ ran = [myTest]) (hex : executed s'.trace = executed s.trace ++ ran)
    (hgrp : s'.grp = s.grp.replaceAt tr ⟨s.heap⟩) (hheap : s'.heap = s.heap + 1) : Fresh s' := by
  obtain ⟨rest, hold, hnew⟩ := objs_replaceAt h ⟨s.heap⟩
  have hold' : (executed s.trace ++ s.grp.objs).Perm (executed s.trace ++ (myTest :: rest)) := hold.append_left _
  have hsub : (executed s.trace ++ ran ++ rest).Sublist (executed s.trace ++ (myTest :: rest)) := by
    rw [List.append_assoc]
    refine (List.Sublist.refl _).append ?_
    rcases hran with rfl | rfl
    · exact List.sublist_cons_self _ _
    · exact List.Sublist.refl _
  have hperm : (executed s'.trace ++ s'.grp.objs).Perm (⟨s.heap⟩ :: (executed s.trace ++ ran ++ rest)) := by
    rw [hex, hgrp]
    exact (hnew.append_left _).trans List.perm_middle
  have hlt : ∀ o ∈ executed s.trace ++ ran ++ rest, o.addr < s.heap :=
    fun o ho => hf.below o (hold'.mem_iff.2 (hsub.subset ho))
  constructor
  · rw [hperm.nodup_iff, List.nodup_cons]
    refine ⟨fun hmem => ?_, hsub.nodup (hold'.nodup_iff.1 hf.nodup)⟩
    exact Nat.lt_irrefl _ (hlt _ hmem)
  · intro o ho
    rw [hheap]
    rcases List.mem_cons.1 (hperm.mem_iff.1 ho) with rfl | ho
    · exact Nat.lt_succ_self _
    · exact Nat.lt_succ_of_lt (hlt o ho)

theorem fresh_call (hf : Fresh s) (hr : Restores s c) : Fresh (call s c) := by
  cases call_step s c with
  | early _ hgrp hheap hex =>
    constructor
    · rw [hex, hgrp]
      exact hf.nodup
    · rw [hex, hgrp, hheap]
      exact hf.below
  | @considers i tr rest myTest ret t h ht hturn =>
    have hex : executed t = [] → executed (call s c).trace =
        executed s.trace ++ executed (saved c.cl i ++ considered c.cl c.answers tr myTest) := by
      intro hnil
      rw [ht, executed_append, executed_append, hnil, List.append_nil]
    cases hturn with
    | went _ _ hc => exact fresh_of_cloned hf h.found executed_considered (hex rfl) hc.grp hc.heap
    | restored _ _ _ hc => exact fresh_of_cloned hf h.found executed_considered (hex rfl) hc.grp hc.heap
    | restoreFailed hdue ha =>
      rw [hr _ _ _ _ h hdue] at ha
      cases ha
    | restoreThrew hdue ha =>
      rw [hr _ _ _ _ h hdue] at ha
      cases ha

/-- **In a run of calls every test that is considered is replaced, and no object is run twice, exactly if every
`RestoreState` of the run succeeds.** -/
theorem fresh_run_iff (s : Start) (cs : List RunCall) :
    ((∀ x ∈ Runs.steps call s.toRunSt cs, Renews x.1 x.2) ∧ (executed (Runs.run call s.toRunSt cs).trace).Nodup) ↔
      ∀ x ∈ Runs.steps call s.toRunSt cs, Restores x.1 x.2 := by
  constructor
  · rintro ⟨h, _⟩ x hx
    exact (renews_iff x.1 x.2).1 (h x hx)
  · intro h
    have hrun : ∀ x ∈ Runs.steps call s.toRunSt cs, Restores x.1 x.2 ∧ Fresh (call x.1 x.2) :=
      (Runs.good_run_iff (J := fun _ => True) (fun _ _ _ => trivial)
        (fun _ _ _ hf => ⟨fun hr => hr.1, fun hr => ⟨hr, fresh_call hf hr⟩⟩) trivial s.fresh cs).2 h
    have hfresh : Fresh (Runs.run call s.toRunSt cs) := Runs.run_of_steps s.fresh fun x hx => (hrun x hx).2
    exact ⟨fun x hx => (renews_iff x.1 x.2).2 (h x hx), (List.nodup_append.1 hfresh.nodup).1⟩

/-- A matrix with one test. -/
def oneObject : Start where
  grp := ⟨0, [[[⟨0⟩]]]⟩
  tstIdx := some 0
  failedTests := []
  skippedTests := []
  heap := 1
  trace := []
  nodup := by decide
  below := by decide
  unrun := rfl

/-- The test passes, but its group cannot restore the state. -/
def unrestored : RunCall where
  cl := ⟨true, true, false, 2, ⟨0, 0, 0, 0⟩, []⟩
  answers := ⟨.returns true, fun _ => .runTrue, .success, .returns false⟩
  dependencies := [⟨0, 0, 0, 0⟩]
  tstIdx := some 0

/-- In the second loop the test object is run once more. -/
theorem unrestored_run_twice :
    ¬((∀ x ∈ Runs.steps call oneObject.toRunSt [unrestored, unrestored], Renews x.1 x.2) ∧
      (executed (Runs.run call oneObject.toRunSt [unrestored, unrestored]).trace).Nodup) := by
  rintro ⟨_, h⟩
  exact absurd h (by decide)

end Tnvme.Sched
