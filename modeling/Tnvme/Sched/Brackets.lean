import Tnvme.Sched.Events
import Tnvme.Sched.Order
import Tnvme.Sched.Targets

/-!
# Saving and restoring the state around a pass

With `--restore` a pass saves the state of the device before its first test, and is to restore it at its end and after
every failure (`Brackets`). The state hooks of a group may throw, and `RunTest` lets that through; and a pass that comes
upon a missing test leaves without looking back. `pass_brackets_iff` says that nothing else goes wrong.
-/

namespace Tnvme.Sched

/-! ## What a trace shows -/

/-- The test has failed, in `Run` or in `Runnable`. -/
def Event.failed : Event → Bool
  | .run _ _ .fail => true
  | .runnable _ _ .runFail => true
  | _ => false

/-- No state is saved. -/
def NoSave (t : List Event) : Prop := ∀ h, .saveState h ∉ t

/-- The state is restored after the last test that is executed. -/
def RestoredLast (t : List Event) : Prop := ∃ pre h post, t = pre ++ .restoreState h :: post ∧ runs post = []

/-- The call after a failure restores the state. -/
def RestoredAfterFailures (t : List Event) : Prop :=
  ∀ pre e post, t = pre ++ e :: post → e.failed = true → ∃ h post', post = .restoreState h :: post'

/-- Saving and restoring bracket the calls `t` of a pass that ends with `e`. -/
structure Brackets (t : List Event) (e : PassEnd) : Prop where
  noThrow : e ≠ .threw
  saved : ∃ h post, t = .saveState h :: post ∧ NoSave post ∧ (h ≠ .returns true → runs t = [])
  restored : runs t ≠ [] → RestoredLast t
  afterFailures : RestoredAfterFailures t

/-- The call of `runTest` finds its test, if the index has not run out, and the hooks that it calls do not throw. -/
structure CallOk (cl : CmdLine) (a : Answers) (dependencies : List TestRef) (s : RunSt) : Prop where
  found : ∀ i, s.tstIdx = some i → ∃ tr, dependencies[i]? = some tr ∧ s.grp.testExists tr = true
  save : s.tstIdx = some 0 → a.saveState ≠ .throws
  restore : ∀ i tr rest, s.tstIdx = some i → dependencies.drop i = tr :: rest →
    (i = 0 → a.saveState = .returns true) →
    restoreDue cl (verdictOf cl a tr) (jump i (blocks (verdictOf cl a tr) tr) rest) = true → a.restoreState ≠ .throws

/-- The states in which a pass calls `runTest`. -/
def callsOf (cl : CmdLine) (env : Env) (testsToRun : List TestRef) : Nat → PassSt → List PassSt
  | 0, _ => []
  | fuel + 1, p =>
    p :: match runTest cl (env.answers p.calls) testsToRun p.toRunSt with
      | (_, .threw) => []
      | (s, .result result skipped) =>
        if result = .notFound then []
        else if result = .fail ∧ cl.ignore = false then []
        else callsOf cl env testsToRun fuel (p.returns s result skipped)

section Traces

variable {t t' : List Event}

theorem NoSave.append (h : NoSave t) (h' : NoSave t') : NoSave (t ++ t') :=
  fun k hk => (List.mem_append.1 hk).elim (h k) (h' k)

theorem RestoredLast.after (h : RestoredLast t') (t : List Event) : RestoredLast (t ++ t') := by
  obtain ⟨pre, k, post, rfl, hpost⟩ := h
  exact ⟨t ++ pre, k, post, (List.append_assoc _ _ _).symm, hpost⟩

/-- Nothing that is executed comes behind. -/
theorem RestoredLast.before (h : RestoredLast t) (ht' : runs t' = []) : RestoredLast (t ++ t') := by
  obtain ⟨pre, k, post, rfl, hpost⟩ := h
  exact ⟨pre, k, post ++ t', by simp, by rw [runs_append, hpost, ht', List.append_nil]⟩

/-- The place of the last restore, in one part of a trace or in the other. -/
theorem RestoredLast.split (h : RestoredLast (t ++ t')) :
    RestoredLast t' ∨ runs t' = [] ∧ ∃ k, .restoreState k ∈ t := by
  obtain ⟨pre, k, post, heq, hpost⟩ := h
  rcases List.append_eq_append_iff.1 heq with ⟨mid, rfl, rfl⟩ | ⟨mid, rfl, hmid⟩
  · exact Or.inl ⟨mid, k, post, rfl, hpost⟩
  · cases mid with
    | nil => exact Or.inl ⟨[], k, post, hmid.symm, hpost⟩
    | cons e mid =>
      obtain ⟨rfl, rfl⟩ := List.cons.inj hmid
      have hruns : runs mid ++ runs t' = [] := runs_append mid t' ▸ hpost
      exact Or.inr ⟨(List.append_eq_nil_iff.1 hruns).2, k, by simp⟩

theorem restoredAfterFailures_nil : RestoredAfterFailures [] := by
  rintro pre e post h -
  simp at h

theorem RestoredAfterFailures.cons {e : Event} (h : RestoredAfterFailures t)
    (he : e.failed = true → ∃ k t', t = .restoreState k :: t') : RestoredAfterFailures (e :: t) := by
  intro pre e' post heq hfail
  cases pre with
  | nil =>
    obtain ⟨rfl, rfl⟩ := List.cons.inj heq
    exact he hfail
  | cons _ pre => exact h pre e' post (List.cons.inj heq).2 hfail

theorem RestoredAfterFailures.append (h : RestoredAfterFailures t) (h' : RestoredAfterFailures t') :
    RestoredAfterFailures (t ++ t') := by
  intro pre e post heq hfail
  rcases List.append_eq_append_iff.1 heq with ⟨mid, rfl, hmid⟩ | ⟨mid, rfl, hmid⟩
  · exact h' mid e post hmid hfail
  · cases mid with
    | nil => exact h' [] e post hmid.symm hfail
    | cons e' mid =>
      obtain ⟨rfl, rfl⟩ := List.cons.inj hmid
      obtain ⟨k, post', rfl⟩ := h pre _ mid rfl hfail
      exact ⟨k, post' ++ t', rfl⟩

end Traces

/-! ## One call -/

variable {cl : CmdLine} {a : Answers} {env : Env} {dependencies rest : List TestRef} {i : Nat} {tr : TestRef}
  {myTest : Test} {s s' : RunSt} {t : List Event} {ret : RunRet} {due : Bool} {next : Option Nat} {v : Verdict}

theorem noSave_considered : NoSave (considered cl a tr myTest) := by
  intro h
  unfold considered
  repeat' split
  all_goals simp

theorem no_restore_considered (h : Hook) : .restoreState h ∉ considered cl a tr myTest := by
  unfold considered
  repeat' split
  all_goals simp

theorem runs_considered : runs (considered cl a tr myTest) = ((verdictOf cl a tr).ran.map fun r => (tr, r)).toList := by
  unfold considered verdictOf
  split
  · rfl
  · cases a.runnable cl.preserve with
    | runTrue => cases a.run <;> rfl
    | runFalse => rfl
    | runFail => rfl

/-- What fails comes last, and makes the verdict. -/
theorem restoredAfterFailures_considered
    (h : (verdictOf cl a tr).isFailed = true → ∃ k t', t = .restoreState k :: t') (ht : RestoredAfterFailures t) :
    RestoredAfterFailures (considered cl a tr myTest ++ t) := by
  unfold verdictOf at h
  unfold considered
  by_cases hskip : skippingTest tr cl.skiptest = true
  · rw [if_pos hskip]
    exact ht.cons nofun
  · rw [if_neg hskip] at h ⊢
    cases hr : a.runnable cl.preserve with
    | runTrue =>
      rw [if_pos rfl]
      refine (ht.cons fun hfail => h ?_).cons nofun
      cases hrun : a.run with
      | success => rw [hrun] at hfail; cases hfail
      | fail => rw [hr]; rfl
    | runFalse => exact ht.cons nofun
    | runFail => exact ht.cons fun _ => h (by rw [hr]; rfl)

/-- What a turn calls behind the test. -/
structure TurnEvents (t : List Event) (due : Bool) : Prop where
  noSave : NoSave t
  noRuns : runs t = []
  afterFailures : RestoredAfterFailures t
  restores : due = true → ∃ h t', t = .restoreState h :: t' ∧ runs t' = []
  noRestore : due = false → ∀ h, .restoreState h ∉ t

theorem TurnCalls.events (h : TurnCalls a due next v tr myTest s s' t ret) : TurnEvents t due := by
  have hnil := restoredAfterFailures_nil
  cases h with
  | went hdue => exact ⟨fun k => by simp, rfl, hnil.cons nofun, by simp [hdue], fun _ k => by simp⟩
  | restored hdue =>
    have hclone : RestoredAfterFailures [.clone myTest ⟨s.heap⟩ tr] := hnil.cons nofun
    exact ⟨fun k => by simp, rfl, hclone.cons nofun, fun _ => ⟨_, _, rfl, rfl⟩, by simp [hdue]⟩
  | restoreFailed hdue => exact ⟨fun k => by simp, rfl, hnil.cons nofun, fun _ => ⟨_, _, rfl, rfl⟩, by simp [hdue]⟩
  | restoreThrew hdue => exact ⟨fun k => by simp, rfl, hnil.cons nofun, fun _ => ⟨_, _, rfl, rfl⟩, by simp [hdue]⟩

theorem restoreDue_of_failed (hrestore : cl.restore = true) (h : v.isFailed = true) (next : Option Nat) :
    restoreDue cl v next = true := by
  simp [restoreDue, hrestore, h]

/-- The test with what comes behind it. -/
theorem TurnEvents.behind_considered (myTest : Test) (hrestore : cl.restore = true)
    (h : TurnEvents t (restoreDue cl (verdictOf cl a tr) next)) :
    NoSave (considered cl a tr myTest ++ t) ∧ RestoredAfterFailures (considered cl a tr myTest ++ t) ∧
      (restoreDue cl (verdictOf cl a tr) next = true → RestoredLast (considered cl a tr myTest ++ t)) := by
  refine ⟨noSave_considered.append h.noSave, ?_, fun hdue => ?_⟩
  · refine restoredAfterFailures_considered (fun hfail => ?_) h.afterFailures
    obtain ⟨k, t', rfl, _⟩ := h.restores (restoreDue_of_failed hrestore hfail next)
    exact ⟨k, t', rfl⟩
  · obtain ⟨k, t', rfl, ht'⟩ := h.restores hdue
    exact ⟨_, k, t', rfl, ht'⟩

/-! ## The calls of a pass -/

/-- A pass from `p` on: the states in which it calls `runTest`, the calls that are made, and its end. -/
inductive PassCalls (cl : CmdLine) (env : Env) (dependencies : List TestRef) :
    PassSt → List PassSt → List Event → PassEnd → Prop
  | threw {p : PassSt} {s : RunSt} {c : List Event} :
      RunTestCalls cl (env.answers p.calls) dependencies p.toRunSt s c .threw →
      PassCalls cl env dependencies p [p] c .threw
  | notFound {p : PassSt} {s : RunSt} {c : List Event} {n : Nat} :
      RunTestCalls cl (env.answers p.calls) dependencies p.toRunSt s c (.result .notFound n) →
      PassCalls cl env dependencies p [p] c .notFound
  | earlyOut {p : PassSt} {s : RunSt} {c : List Event} {n : Nat} :
      RunTestCalls cl (env.answers p.calls) dependencies p.toRunSt s c (.result .fail n) →
      PassCalls cl env dependencies p [p] c .earlyOut
  | more {p : PassSt} {s : RunSt} {c t : List Event} {result : TestResult} {n : Nat} {qs : List PassSt} {e : PassEnd} :
      result ≠ .notFound →
      RunTestCalls cl (env.answers p.calls) dependencies p.toRunSt s c (.result result n) →
      PassCalls cl env dependencies (p.returns s result n) qs t e →
      PassCalls cl env dependencies p (p :: qs) (c ++ t) e

/-- The calls of a pass that ends. -/
theorem pass_calls {fuel : Nat} {p p' : PassSt} {e : PassEnd}
    (h : pass cl env dependencies fuel p = some (p', e)) :
    ∃ t, p'.trace = p.trace ++ t ∧ PassCalls cl env dependencies p (callsOf cl env dependencies fuel p) t e := by
  induction fuel generalizing p with
  | zero => cases h
  | succ fuel ih =>
    obtain ⟨c, hc, hcalls⟩ := runTest_calls cl (env.answers p.calls) dependencies p.toRunSt
    unfold pass at h
    unfold callsOf
    generalize runTest cl (env.answers p.calls) dependencies p.toRunSt = out at hc hcalls h ⊢
    obtain ⟨s, ret⟩ := out
    cases ret with
    | threw =>
      cases h
      exact ⟨c, hc, .threw hcalls⟩
    | result result n =>
      simp only at h hc hcalls ⊢
      by_cases hnf : result = .notFound
      · subst hnf
        simp only [if_true, Option.some.injEq, Prod.mk.injEq] at h ⊢
        obtain ⟨rfl, rfl⟩ := h
        exact ⟨c, hc, .notFound hcalls⟩
      · rw [if_neg hnf] at h ⊢
        by_cases hfail : result = .fail ∧ cl.ignore = false
        · rw [if_pos hfail] at h ⊢
          obtain ⟨rfl, _⟩ := hfail
          cases h
          exact ⟨c, hc, .earlyOut hcalls⟩
        · rw [if_neg hfail] at h ⊢
          obtain ⟨t, ht, hmore⟩ := ih h
          exact ⟨c ++ t, by rw [ht, ← List.append_assoc, ← hc]; rfl, .more hnf hcalls hmore⟩

/-! ## If all calls are in order -/

/-- What is still to come with the index at `idx`. -/
def Rest (t : List Event) : Option Nat → Prop
  | none => t = []
  | some i => RestoredAfterFailures t ∧ (i ≠ 0 → NoSave t ∧ RestoredLast t) ∧
      (i = 0 → ∃ h post, t = .saveState h :: post ∧ NoSave post ∧ (h ≠ .returns true → runs t = []) ∧
        (h = .returns true → RestoredLast t))

/-- What may come behind a turn, which has restored the state if it was due. -/
structure Behind (t : List Event) (due : Bool) : Prop where
  noSave : NoSave t
  afterFailures : RestoredAfterFailures t
  restored : RestoredLast t ∨ due = true ∧ t = []

theorem behind_nil : Behind [] true := ⟨fun _ => by simp, restoredAfterFailures_nil, Or.inr ⟨rfl, rfl⟩⟩

theorem Rest.behind {idx : Option Nat} (h : Rest t idx) (hpos : ∀ j, idx = some j → j ≠ 0)
    (hdue : due = false → idx ≠ none) : Behind t due := by
  cases idx with
  | none =>
    have hd : due = true := by simpa using hdue
    obtain rfl : t = [] := h
    exact hd ▸ behind_nil
  | some j =>
    obtain ⟨hafter, hlater, _⟩ := h
    obtain ⟨hno, hlast⟩ := hlater (hpos j rfl)
    exact ⟨hno, hafter, Or.inl hlast⟩

/-- A turn with all that comes behind it. -/
theorem rest_turn (hrestore : cl.restore = true) {u : List Event}
    (hu : TurnEvents u (restoreDue cl (verdictOf cl a tr) next))
    (ht : Behind t (restoreDue cl (verdictOf cl a tr) next)) :
    Rest (saved cl i ++ considered cl a tr myTest ++ u ++ t) (some i) := by
  obtain ⟨hno, hafter, hlast⟩ := hu.behind_considered myTest hrestore
  have hno' := hno.append ht.noSave
  have hafter' := hafter.append ht.afterFailures
  have hlast' : RestoredLast (considered cl a tr myTest ++ u ++ t) := by
    rcases ht.restored with h | ⟨hdue, rfl⟩
    · exact h.after _
    · rw [List.append_nil]
      exact hlast hdue
  rw [List.append_assoc (saved cl i), List.append_assoc (saved cl i)]
  by_cases hi : i = 0
  · have hsaved : saved cl i = [.saveState (.returns true)] := by simp [saved, hrestore, hi]
    rw [hsaved]
    have hok : (Event.saveState (.returns true)).failed ≠ true := by decide
    exact ⟨hafter'.cons fun h => absurd h hok, fun h => absurd hi h, fun _ => ⟨_, _, rfl, hno', fun h => absurd rfl h,
      fun _ => hlast'.after [_]⟩⟩
  · have hsaved : saved cl i = [] := by simp [saved, hi]
    rw [hsaved]
    exact ⟨hafter', fun _ => ⟨hno', hlast'⟩, fun h => absurd h hi⟩

theorem TurnCalls.index {q : TestRef → Bool} (hrestore : cl.restore = true)
    (h : TurnCalls a (restoreDue cl v (jump i q rest)) (jump i q rest) v tr myTest s s' t ret) (hret : ret ≠ .threw) :
    (∀ j, s'.tstIdx = some j → j ≠ 0) ∧ (restoreDue cl v (jump i q rest) = false → s'.tstIdx ≠ none) := by
  have hpos : ∀ j, jump i q rest = some j → j ≠ 0 := by
    intro j hj
    have hlt := lt_of_jump hj
    omega
  cases h with
  | went hdue hidx =>
    refine ⟨hidx ▸ hpos, fun _ hnone => ?_⟩
    rw [← hidx, hnone] at hdue
    simp [restoreDue, hrestore] at hdue
  | restored hdue _ hidx => exact ⟨hidx ▸ hpos, fun h => by rw [hdue] at h; cases h⟩
  | restoreFailed hdue _ hidx => exact ⟨by simp [hidx], fun h => by rw [hdue] at h; cases h⟩
  | restoreThrew => exact absurd rfl hret

/-- A turn that returns no success has restored the state. -/
theorem TurnCalls.isDue (hrestore : cl.restore = true) {result : TestResult} {n : Nat}
    (h : TurnCalls a (restoreDue cl v next) next v tr myTest s s' t (.result result n))
    (hresult : result = .notFound ∨ result = .fail) : restoreDue cl v next = true := by
  cases h with
  | went =>
    rcases hresult with h | h
    · exact absurd h (toResult_ne_notFound v)
    · refine restoreDue_of_failed hrestore ?_ next
      rw [← toResult_fail_iff, h]
      rfl
  | restored hdue => exact hdue
  | restoreFailed hdue => exact hdue

/-- A call that calls anything has found its test. -/
theorem RunTestCalls.found {result : TestResult} {n : Nat} {c : List Event}
    (hc : RunTestCalls cl a dependencies s s' c (.result result n)) (hne : result = .notFound → c ≠ []) (i : Nat)
    (hi : s.tstIdx = some i) : ∃ tr, dependencies[i]? = some tr ∧ s.grp.testExists tr = true := by
  cases hc with
  | notFound => exact absurd rfl (hne rfl)
  | @saveFailed tr rest _ hidx hd hex =>
    rw [hi] at hidx
    cases hidx
    exact ⟨tr, by rw [hd]; rfl, hex⟩
  | @turn i' tr rest _ _ _ hi' hd hat =>
    rw [hi] at hi'
    cases hi'
    exact ⟨tr, by rw [← List.head?_drop, hd]; rfl, by rw [← testAt_isSome, hat]; rfl⟩

/-- A call that finds no test although the list has it at the index has no index left. -/
theorem tstIdx_of_notFound (hnone : ∀ tr ∈ (remaining dependencies s.tstIdx).head?, s.grp.testExists tr = false)
    (hfound : ∀ i, s.tstIdx = some i → ∃ tr, dependencies[i]? = some tr ∧ s.grp.testExists tr = true) :
    s.tstIdx = none := by
  cases hidx : s.tstIdx with
  | none => rfl
  | some i =>
    obtain ⟨tr, htr, hex⟩ := hfound i hidx
    rw [hidx] at hnone
    rw [hnone tr (by simpa [remaining] using htr)] at hex
    cases hex

/-- A call that finds its test, with all that comes behind it. -/
theorem rest_call (hrestore : cl.restore = true) {result : TestResult} {n : Nat} {c : List Event}
    (hc : RunTestCalls cl a dependencies s s' c (.result result n))
    (hfound : ∀ i, s.tstIdx = some i → ∃ tr, dependencies[i]? = some tr ∧ s.grp.testExists tr = true)
    (ht : (result = .notFound ∨ result = .fail) ∧ t = [] ∨ result ≠ .notFound ∧ Rest t s'.tstIdx) :
    Rest (c ++ t) s.tstIdx := by
  cases hc with
  | notFound hnone =>
    have hnil : t = [] := by simpa using ht
    rw [tstIdx_of_notFound hnone hfound, hnil]
    rfl
  | saveFailed _ hidx _ _ _ hidx' =>
    have hnil : t = [] := by
      rcases ht with ⟨_, h⟩ | ⟨_, h⟩
      · exact h
      · rw [hidx'] at h
        exact h
    rw [hidx, hnil]
    exact ⟨restoredAfterFailures_nil.cons nofun, fun h => absurd rfl h,
      fun _ => ⟨_, _, rfl, fun k => by simp, fun _ => rfl, nofun⟩⟩
  | turn hi hd _ hs hturn =>
    rw [hi]
    refine rest_turn hrestore hturn.events ?_
    rcases ht with ⟨hresult, rfl⟩ | ⟨_, hrest⟩
    · exact hturn.isDue hrestore hresult ▸ behind_nil
    · obtain ⟨hpos, hdue⟩ := hturn.index hrestore nofun
      exact hrest.behind hpos hdue

/-- **If every call is in order, nothing throws, and the state is saved and restored.** -/
theorem rest_of_callsOk (hrestore : cl.restore = true) {p : PassSt} {qs : List PassSt} {e : PassEnd}
    (h : PassCalls cl env dependencies p qs t e)
    (hok : ∀ q ∈ qs, CallOk cl (env.answers q.calls) dependencies q.toRunSt) : e ≠ .threw ∧ Rest t p.tstIdx := by
  induction h with
  | @threw p s c hc =>
    obtain ⟨_, hsave, hrest⟩ := hok p (List.mem_singleton_self p)
    cases hc with
    | saveThrew _ hidx ha => exact absurd ha (hsave hidx)
    | turn hi hd _ hs hturn =>
      cases hturn with
      | restoreThrew hdue ha => exact absurd ha (hrest _ _ _ hi hd (hs hrestore) hdue)
  | @notFound p s c n hc =>
    have hrest := rest_call hrestore hc (hok p (List.mem_singleton_self p)).found (Or.inl ⟨Or.inl rfl, rfl⟩)
    exact ⟨nofun, by rwa [List.append_nil] at hrest⟩
  | @earlyOut p s c n hc =>
    have hrest := rest_call hrestore hc (hok p (List.mem_singleton_self p)).found (Or.inl ⟨Or.inr rfl, rfl⟩)
    exact ⟨nofun, by rwa [List.append_nil] at hrest⟩
  | @more p s c t result n qs e hnf hc _ ih =>
    obtain ⟨he, hrest⟩ := ih fun q hq => hok q (List.mem_cons_of_mem p hq)
    exact ⟨he, rest_call hrestore hc (hok p List.mem_cons_self).found (Or.inr ⟨hnf, hrest⟩)⟩

/-! ## If the state is saved and restored -/

/-- A missing test that follows another one in the list depends on it. -/
def GapsBlocked (g : Group) (dependencies : List TestRef) : Prop :=
  ∀ i tr rest, dependencies.drop i = tr :: rest → ∀ st ∈ rest,
    g.testExists st = true ∨ ∀ v, v ≠ .passed → blocks v tr st = true

theorem jump_some {q : TestRef → Bool} {j : Nat} (hd : dependencies.drop i = tr :: rest)
    (h : jump i q rest = some j) : ∃ st ∈ rest, dependencies[j]? = some st ∧ q st = false := by
  have hrem := remaining_jump hd q
  rw [h, remaining] at hrem
  cases hdw : rest.dropWhile q with
  | nil =>
    simp [jump, hdw] at h
  | cons st tail =>
    have hst : (rest.dropWhile q).head? = some st := by rw [hdw]; rfl
    refine ⟨st, (List.dropWhile_sublist q).subset (by rw [hdw]; exact List.mem_cons_self), ?_, ?_⟩
    · rw [← List.head?_drop, hrem, hst]
    · simpa [hst] using List.head?_dropWhile_not q rest

/-- A call that returns is in order if it finds its test. -/
theorem callOk_of_calls (hrestore : cl.restore = true) {result : TestResult} {n : Nat} {c : List Event}
    (hc : RunTestCalls cl a dependencies s s' c (.result result n))
    (hfound : result = .notFound → ∀ i, s.tstIdx = some i →
      (∃ tr, dependencies[i]? = some tr ∧ s.grp.testExists tr = true) ∨ c ≠ []) :
    CallOk cl a dependencies s := by
  have hthere : ∀ i, s.tstIdx = some i → ∃ tr, dependencies[i]? = some tr ∧ s.grp.testExists tr = true := by
    intro i hi
    by_cases hresult : result = .notFound
    · rcases hfound hresult i hi with h | hne
      · exact h
      · exact hc.found (fun _ => hne) i hi
    · exact hc.found (fun h => absurd h hresult) i hi
  cases hc with
  | notFound hnone =>
    have hidx := tstIdx_of_notFound hnone hthere
    exact ⟨hthere, by simp [hidx], by simp [hidx]⟩
  | @saveFailed tr rest _ hidx hd hex ha =>
    refine ⟨hthere, by simp [ha], fun i _ _ hi _ hs => ?_⟩
    rw [hidx] at hi
    cases hi
    rw [hs rfl] at ha
    cases ha
  | @turn i tr rest myTest t ret hi hd hat hs hturn =>
    refine ⟨hthere, ?_, fun i' tr' rest' hi' hd' _ hdue => ?_⟩
    · intro hi'
      rw [hi] at hi'
      simp [hs hrestore (Option.some.inj hi')]
    · rw [hi] at hi'
      cases hi'
      rw [hd] at hd'
      cases hd'
      cases hturn with
      | went hno => rw [hdue] at hno; cases hno
      | restored _ ha => simp [ha]
      | restoreFailed _ ha => simp [ha]

/-- What is still to come is found, or the state is restored after it. -/
theorem found_next {g : Group} (hgaps : GapsBlocked g dependencies)
    (halike : ∀ tr, s'.grp.testExists tr = g.testExists tr) {result : TestResult} {n : Nat} {c : List Event}
    (hc : RunTestCalls cl a dependencies s s' c (.result result n)) (hresult : result ≠ .notFound)
    (hrestored : runs (c ++ t) ≠ [] → RestoredLast (c ++ t)) (j : Nat) (hj : s'.tstIdx = some j) :
    (∃ st, dependencies[j]? = some st ∧ s'.grp.testExists st = true) ∨ RestoredLast t := by
  cases hc with
  | notFound => exact absurd rfl hresult
  | saveFailed _ _ _ _ _ hidx => rw [hidx] at hj; cases hj
  | @turn i tr rest myTest u ret hi hd _ _ hturn =>
    -- if the verdict blocks what is missing, the index goes past it
    have hgap : verdictOf cl a tr ≠ .passed → jump i (blocks (verdictOf cl a tr) tr) rest = some j →
        ∃ st, dependencies[j]? = some st ∧ s'.grp.testExists st = true := by
      intro hv hjump
      obtain ⟨st, hst, hget, hno⟩ := jump_some hd hjump
      rcases hgaps i tr rest hd st hst with hex | hblocks
      · exact ⟨st, hget, (halike st).trans hex⟩
      · rw [hblocks _ hv] at hno
        cases hno
    cases hturn with
    | went hdue hidx =>
      by_cases hv : verdictOf cl a tr = .passed
      · have hran : runs (considered cl a tr myTest) = [(tr, .success)] := by rw [runs_considered, hv]; rfl
        have hruns : runs (saved cl i ++ considered cl a tr myTest ++ [.clone myTest ⟨s.heap⟩ tr] ++ t) ≠ [] := by
          simp [hran]
        rcases (hrestored hruns).split with h | ⟨_, k, hk⟩
        · exact Or.inr h
        · have hno : .restoreState k ∉ considered cl a tr myTest := no_restore_considered k
          unfold saved at hk
          split at hk <;> simp [hno] at hk
      · exact Or.inl (hgap hv (hidx ▸ hj))
    | restored hdue _ hidx =>
      refine Or.inl (hgap (fun hv => ?_) (hidx ▸ hj))
      rw [← hidx, hj, hv] at hdue
      simp [restoreDue, Verdict.isFailed] at hdue
    | restoreFailed _ _ hidx => rw [hidx] at hj; cases hj

/-- **If nothing throws and the state is saved and restored, every call is in order.** -/
theorem callsOk_of_restored (hrestore : cl.restore = true) {g : Group} (hgaps : GapsBlocked g dependencies)
    {p : PassSt} {qs : List PassSt} {e : PassEnd} (h : PassCalls cl env dependencies p qs t e)
    (halike : ∀ tr, p.grp.testExists tr = g.testExists tr) (he : e ≠ .threw)
    (hrestored : runs t ≠ [] → RestoredLast t)
    (hfound : ∀ i, p.tstIdx = some i →
      (∃ tr, dependencies[i]? = some tr ∧ p.grp.testExists tr = true) ∨ RestoredLast t) :
    ∀ q ∈ qs, CallOk cl (env.answers q.calls) dependencies q.toRunSt := by
  have hnonempty : ∀ {t}, RestoredLast t → t ≠ [] := by
    rintro _ ⟨pre, k, post, rfl, _⟩
    simp
  induction h with
  | threw => exact absurd rfl he
  | notFound hc =>
    simp only [List.forall_mem_singleton]
    exact callOk_of_calls hrestore hc fun _ i hi => (hfound i hi).imp_right hnonempty
  | earlyOut hc =>
    simp only [List.forall_mem_singleton]
    exact callOk_of_calls hrestore hc fun _ i hi => (hfound i hi).imp_right hnonempty
  | @more p s c t result n qs e hnf hc _ ih =>
    have hgrp : ∀ tr, s.grp.testExists tr = g.testExists tr := fun tr => (hc.testExists tr).trans (halike tr)
    rw [List.forall_mem_cons]
    refine ⟨callOk_of_calls hrestore hc fun h => absurd h hnf, ih hgrp he (fun hruns => ?_) fun j hj => ?_⟩
    · have hruns' : runs (c ++ t) ≠ [] := by simp [hruns]
      exact (hrestored hruns').split.resolve_right fun h => hruns h.1
    · exact found_next hgaps hgrp hc hnf hrestored j hj

/-- A pass that calls anything has found its first test. -/
theorem PassCalls.found {p : PassSt} {qs : List PassSt} {e : PassEnd} (h : PassCalls cl env dependencies p qs t e)
    (he : e ≠ .threw) (ht : t ≠ []) (i : Nat) (hi : p.tstIdx = some i) :
    ∃ tr, dependencies[i]? = some tr ∧ p.grp.testExists tr = true := by
  cases h with
  | threw => exact absurd rfl he
  | notFound hc => exact hc.found (fun _ => ht) i hi
  | earlyOut hc => exact hc.found nofun i hi
  | more hnf hc => exact hc.found (fun h => absurd h hnf) i hi

/-! ## The lists of `GetTestSet` -/

/-- Only the first test of an accepted list may be missing, or the one right behind its configuration test. -/
theorem gapsBlocked_of_ok {g : Group} {target : TestRef} (h : (g.getTestSet target).ok = true) :
    GapsBlocked g (g.getTestSet target).dependencies := by
  intro i tr rest hd st hst
  have hdrop : st ∈ (g.getTestSet target).dependencies.drop i := hd ▸ List.mem_cons_of_mem tr hst
  have hmem : st ∈ (g.getTestSet target).dependencies := List.mem_of_mem_drop hdrop
  obtain ⟨_, _, hcases⟩ := getTestSet_cases h
  rcases hcases with ⟨_, _, _, hl⟩ | ⟨_, _, hz, hc, hl⟩ | ⟨_, _, hex, ⟨_, hc, hl⟩ | ⟨_, hl⟩⟩ | ⟨_, hl⟩
  · rw [hl] at hd
    cases i with
    | zero => cases hd; cases hst
    | succ i => simp at hd
  · rw [hl] at hd
    cases i with
    | zero =>
      cases hd
      rw [List.mem_singleton.1 hst]
      exact Or.inr fun v hv => blocks_iff.2 ⟨hv, rfl, Or.inr (Or.inl ⟨rfl, rfl⟩)⟩
    | succ i =>
      cases i with
      | zero => cases hd; cases hst
      | succ i => simp at hd
  · rw [hl] at hmem
    rcases List.mem_cons.1 hmem with rfl | hmem
    · exact Or.inl hc
    · exact Or.inl (sequence_exists hex hmem)
  · rw [hl] at hmem
    exact Or.inl (sequence_exists hex hmem)
  · rw [hl] at hd
    obtain ⟨k, hk⟩ := List.mem_iff_getElem?.1 hst
    have hget : (g.pushAll (g.refs.length + 2) 0)[i + (k + 1)]? = some st := by
      rw [← List.getElem?_drop, hd]
      exact hk
    rw [Group.pushAll_getElem?, show i + (k + 1) = i + k + 1 from rfl] at hget
    exact Or.inl (Group.testExists_of_iter hget)

/-- **A pass over an accepted list throws nothing, saves the state and restores it exactly if every call finds its test
and its hooks do not throw.** -/
theorem pass_brackets_iff (cl : CmdLine) (hrestore : cl.restore = true) (env : Env) (g : Group) (target : TestRef)
    (hok : (g.getTestSet target).ok = true) (s : ExecSt) (k : Nat) :
    ∃ p e t,
      pass cl env (g.getTestSet target).dependencies ((g.getTestSet target).dependencies.length + 1 + k)
        (s.enter g (g.getTestSet target).tstIdx) = some (p, e) ∧ p.trace = s.trace ++ t ∧
      (Brackets t e ↔ ∀ q ∈ callsOf cl env (g.getTestSet target).dependencies
        ((g.getTestSet target).dependencies.length + 1 + k) (s.enter g (g.getTestSet target).tstIdx),
        CallOk cl (env.answers q.calls) (g.getTestSet target).dependencies q.toRunSt) := by
  obtain ⟨_, hidx, _⟩ := getTestSet_cases hok
  obtain ⟨p, e, rep, hp, _⟩ := pass_report cl env (g.getTestSet target).dependencies
    (p := s.enter g (g.getTestSet target).tstIdx) (by
      show (remaining _ (g.getTestSet target).tstIdx).length < (g.getTestSet target).dependencies.length + 1 + k
      rw [hidx, remaining, List.drop_zero]
      omega)
  obtain ⟨t, ht, hcalls⟩ := pass_calls hp
  refine ⟨p, e, t, hp, ht, ?_, ?_⟩
  · intro h
    obtain ⟨k, post, hpost, _⟩ := h.saved
    have hne : t ≠ [] := by simp [hpost]
    exact callsOk_of_restored hrestore (gapsBlocked_of_ok hok) hcalls (fun _ => rfl) h.noThrow h.restored
      fun i hi => Or.inl (hcalls.found h.noThrow hne i hi)
  · intro h
    obtain ⟨he, hrest⟩ := rest_of_callsOk hrestore hcalls h
    have hrest' : Rest t (some 0) := hidx ▸ hrest
    obtain ⟨hafter, _, hsaved⟩ := hrest'
    obtain ⟨k, post, hpost, hno, hfalse, htrue⟩ := hsaved rfl
    refine ⟨he, ⟨k, post, hpost, hno, hfalse⟩, fun hruns => htrue ?_, hafter⟩
    by_contra hk
    exact hruns (hfalse hk)

/-! ## Hooks that return -/

/-- The index of a call that returns stays in the list. -/
theorem RunTestCalls.index {result : TestResult} {n : Nat} {c : List Event}
    (h : RunTestCalls cl a dependencies s s' c (.result result n)) (j : Nat) (hj : s'.tstIdx = some j) :
    j < dependencies.length := by
  have hjump : ∀ {i tr rest q}, dependencies.drop i = tr :: rest → jump i q rest = some j →
      j < dependencies.length := by
    intro i tr rest q hd h
    obtain ⟨st, _, hget, _⟩ := jump_some hd h
    exact (List.getElem?_eq_some_iff.1 hget).1
  cases h with
  | notFound _ hidx => rw [hidx] at hj; cases hj
  | saveFailed _ _ _ _ _ hidx => rw [hidx] at hj; cases hj
  | turn _ hd _ _ hturn =>
    cases hturn with
    | went _ hidx => exact hjump hd (hidx ▸ hj)
    | restored _ _ hidx => exact hjump hd (hidx ▸ hj)
    | restoreFailed _ _ hidx => rw [hidx] at hj; cases hj

/-- Where all tests exist and no hook throws, every call is in order. -/
theorem callsOk_of_exist {g : Group} (hex : ∀ tr ∈ dependencies, g.testExists tr = true)
    (hsave : ∀ n, (env.answers n).saveState ≠ .throws) (hrest : ∀ n, (env.answers n).restoreState ≠ .throws)
    {p : PassSt} {qs : List PassSt} {e : PassEnd} (h : PassCalls cl env dependencies p qs t e)
    (halike : ∀ tr, p.grp.testExists tr = g.testExists tr) (hidx : ∀ i, p.tstIdx = some i → i < dependencies.length) :
    ∀ q ∈ qs, CallOk cl (env.answers q.calls) dependencies q.toRunSt := by
  have hcall : ∀ {p : PassSt}, (∀ tr, p.grp.testExists tr = g.testExists tr) →
      (∀ i, p.tstIdx = some i → i < dependencies.length) → CallOk cl (env.answers p.calls) dependencies p.toRunSt := by
    intro p halike hidx
    refine ⟨fun i hi => ?_, fun _ => hsave _, fun _ _ _ _ _ _ _ => hrest _⟩
    have hlt := hidx i hi
    exact ⟨dependencies[i], List.getElem?_eq_getElem hlt, (halike _).trans (hex _ (List.getElem_mem hlt))⟩
  induction h with
  | threw => exact List.forall_mem_singleton.2 (hcall halike hidx)
  | notFound => exact List.forall_mem_singleton.2 (hcall halike hidx)
  | earlyOut => exact List.forall_mem_singleton.2 (hcall halike hidx)
  | more _ hc _ ih =>
    refine List.forall_mem_cons.2 ⟨hcall halike hidx, ih (fun tr => (hc.testExists tr).trans (halike tr)) ?_⟩
    exact fun j hj => hc.index j hj

/-- A command line that asks for one test, with the state to be restored. -/
def restoring (test : TestRef) : CmdLine := ⟨false, true, false, 1, test, []⟩

/-- Everything passes. -/
def allPassing : Env := ⟨fun _ => .passing, fun _ => true, true⟩

/-- Four tests on three levels. -/
def branches : Group := ⟨0, [[[⟨0⟩, ⟨1⟩]], [[⟨2⟩]], [[⟨3⟩]]]⟩

/-- All of them, with `0:1.0.0` to be skipped, and on behind a test that fails. -/
def restoringAll : CmdLine := ⟨true, true, false, 1, ⟨0, uintMax, uintMax, uintMax⟩, [⟨0, 1, 0, 0⟩]⟩

/-- The first test fails. -/
def firstFails : Env :=
  { allPassing with answers := fun n => if n = 0 then { Answers.passing with run := .fail } else .passing }

/-- A pass with tests that pass, fail and are skipped is bracketed. -/
theorem brackets_branches : ∃ p e t,
    pass restoringAll firstFails (branches.getTestSet restoringAll.test).dependencies
      ((branches.getTestSet restoringAll.test).dependencies.length + 1 + 0)
      ((ExecSt.init [] 4).enter branches (branches.getTestSet restoringAll.test).tstIdx) = some (p, e) ∧
      p.trace = [] ++ t ∧ Brackets t e := by
  obtain ⟨p, e, t, hp, ht, hiff⟩ :=
    pass_brackets_iff restoringAll rfl firstFails branches restoringAll.test (by decide) (.init [] 4) 0
  obtain ⟨_, _, hcalls⟩ := pass_calls hp
  have hex : ∀ tr ∈ (branches.getTestSet restoringAll.test).dependencies, branches.testExists tr = true := by decide
  have hsave : ∀ n, (firstFails.answers n).saveState ≠ .throws := fun n => by
    by_cases h : n = 0 <;> simp [firstFails, Answers.passing, h]
  have hrest : ∀ n, (firstFails.answers n).restoreState ≠ .throws := fun n => by
    by_cases h : n = 0 <;> simp [firstFails, Answers.passing, h]
  exact ⟨p, e, t, hp, ht, hiff.2 (callsOk_of_exist hex hsave hrest hcalls (fun _ => rfl) (by decide))⟩

/-- Behind its configuration test the target `1.0` is missing, and the state is not restored. -/
theorem missing_test_unrestored : ¬∀ p e t,
    pass (restoring ⟨0, 0, 1, 0⟩) allPassing (Group.getTestSet ⟨0, [[[⟨0⟩]]]⟩ ⟨0, 0, 1, 0⟩).dependencies 3
      ((ExecSt.init [] 1).enter ⟨0, [[[⟨0⟩]]]⟩ (Group.getTestSet ⟨0, [[[⟨0⟩]]]⟩ ⟨0, 0, 1, 0⟩).tstIdx) = some (p, e) →
      p.trace = [] ++ t → Brackets t e := by
  intro h
  obtain ⟨pre, k, post, heq, _⟩ := (h _ _ _ rfl rfl).restored (by decide)
  have hmem : .restoreState k ∈ pre ++ Event.restoreState k :: post := by simp
  rw [← heq] at hmem
  simp at hmem

end Tnvme.Sched
