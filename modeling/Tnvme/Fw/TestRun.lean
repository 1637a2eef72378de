import Tnvme.Fw.Commands
import Tnvme.Fw.Raise
import Tnvme.Sched.RunTest
import Tnvme.Regs.PciSpc

/-!
# `Test::Run` and `Test::Runnable`

A test fails by an exception, or by what the status registers say when it is done. Only the constructor of a `FrmwkEx`
disables the device, so after any other failure the device goes on with what the test has left behind. `failure_iff`
says which failures leave nothing, when the calls of the driver succeed.
-/

namespace Tnvme

open World FrmwkEx

/-- `gCmdLine.errRegs` -/
structure ErrRegs where
  sts : UInt64
  pxds : UInt64
  aeruces : UInt64
  csts : UInt64

structure Env extends Setup where
  errRegs : ErrRegs
  cap : List PciCapabilities

/-- How the code of a test ends. -/
inductive Ending (α : Type) where
  | returns (a : α)
  | throws (how : Throw)
  | foreign
  deriving DecidableEq, Repr

/-- What the code of a test does, and how it ends, depends on the world it finds. `RunCoreTest` comes with the value of
`mResult` that it leaves. -/
structure Test where
  mGrpName : String
  mTestName : String
  runCoreTest : World → List Op × Ending Sched.TestResult
  runnableCoreTest : Bool → World → List Op × Ending Sched.RunType

namespace Test

variable (drv : Driver) (env : Env)

/-! ## The status registers -/

def resetCap (w : World) : PciCapabilities → World
  | .pxcap => w.write drv .pcispcPxds 0xffff
  | .aercap => w.write drv .pcispcAeruces 0xffffffff
  | _ => w

def resetStatusRegErrors (w : World) : World := env.cap.foldl (resetCap drv) (w.write drv .pcispcSts 0xffff)

/-- The register can be read, and has no bit of the mask. -/
def checkReg (reg : Reg) (errRegs : UInt64) (w : World) : World × Bool :=
  (w.read drv reg,
    match drv.read w.rsrc.log reg with
    | none => false
    | some value => value.toUInt64 == value.toUInt64 &&& ~~~errRegs)

def checkCaps : List PciCapabilities → World → World × Bool
  | [], w => (w, true)
  | .pxcap :: cap, w => andThen (checkReg drv .pcispcPxds env.errRegs.pxds w) (checkCaps cap)
  | .aercap :: cap, w => andThen (checkReg drv .pcispcAeruces env.errRegs.aeruces w) (checkCaps cap)
  | _ :: cap, w => checkCaps cap w

def getStatusRegErrors (w : World) : World × Bool :=
  andThen (checkReg drv .pcispcSts env.errRegs.sts w) fun w =>
    andThen (checkCaps drv env env.cap w) (checkReg drv .ctlspcCsts env.errRegs.csts)

/-! ## Running a test -/

/-- The code of the test has done its operations. -/
def body (w : World) (ops : List Op) : World := Runs.run (World.step drv) w ops

/-- What `Run` does with the end of the test's code, if the program is still there. -/
def finish (fuel : Nat) (w : World) (ending : Ending Sched.TestResult) : Option (World × Sched.TestResult) :=
  if w.lost then none
  else
    match ending with
    | .returns mResult =>
      some ((getStatusRegErrors drv env w).1, if (getStatusRegErrors drv env w).2 then mResult else .fail)
    | .throws how => (raise drv env.toSetup fuel how w).map fun w => (w, .fail)
    | .foreign => some (w, .fail)

def run (fuel : Nat) (t : Test) (w : World) : Option (World × Sched.TestResult) :=
  let w := resetStatusRegErrors drv env w
  match prepDumpFile env.dumpDir t.mGrpName t.mTestName "kmetrics" "preTestRun" with
  | none => (raise drv env.toSetup fuel .byValue w).map fun w => (w, .fail)
  | some filename =>
    if (w.dumpKernelMetrics drv filename).2 then
      let w := (w.dumpKernelMetrics drv filename).1
      finish drv env fuel (body drv w (t.runCoreTest w).1) (t.runCoreTest w).2
    else (raise drv env.toSetup fuel .byValue (w.dumpKernelMetrics drv filename).1).map fun w => (w, .fail)

def runnable (fuel : Nat) (t : Test) (preserve : Bool) (w : World) : Option (World × Sched.RunType) :=
  let w' := body drv w (t.runnableCoreTest preserve w).1
  if w'.lost then none
  else
    match (t.runnableCoreTest preserve w).2 with
    | .returns r => some (w', r)
    | .throws how => (raise drv env.toSetup fuel how w').map fun w => (w, .runFail)
    | .foreign => some (w', .runFail)

/-! ## What a failure leaves -/

/-- The device has been asked to disable completely on the way, and the resource manager holds nothing. -/
structure Safe (w w' : World) : Prop where
  requested : Requested .disableCompletely w w'
  empty : w'.mObjGrpLife = []

/-- The code of the test disables the device itself, and creates nothing for the group after that, unless it ends the
program. -/
def CleansUp (w : World) (ops : List Op) : Prop := (body drv w ops).lost = false → Safe w (body drv w ops)

/-- The world in which the code of the test starts, if it does. -/
def ready (t : Test) (w : World) : Option World :=
  (prepDumpFile env.dumpDir t.mGrpName t.mTestName "kmetrics" "preTestRun").map fun filename =>
    ((resetStatusRegErrors drv env w).dumpKernelMetrics drv filename).1

/-- A failure of `Run` comes as a `FrmwkEx` that finds the flag clear, or from a test that cleans up. -/
def RunLeavesNothing (t : Test) (w : World) : Prop :=
  match ready drv env t w with
  | none => w.mPrelimProcessingInProgress = false
  | some v =>
    match (t.runCoreTest v).2 with
    | .throws _ => w.mPrelimProcessingInProgress = false ∨ CleansUp drv v (t.runCoreTest v).1
    | .foreign => CleansUp drv v (t.runCoreTest v).1
    | .returns mResult =>
      mResult = .fail ∨ (getStatusRegErrors drv env (body drv v (t.runCoreTest v).1)).2 = false →
        CleansUp drv v (t.runCoreTest v).1

def RunnableLeavesNothing (t : Test) (preserve : Bool) (w : World) : Prop :=
  match (t.runnableCoreTest preserve w).2 with
  | .throws _ => w.mPrelimProcessingInProgress = false ∨ CleansUp drv w (t.runnableCoreTest preserve w).1
  | .foreign => CleansUp drv w (t.runnableCoreTest preserve w).1
  | .returns r => r = .runFail → CleansUp drv w (t.runnableCoreTest preserve w).1

variable {drv env} {w w' w'' : World}

/-- Nothing happens that matters to a failure. -/
structure Idle (w w' : World) : Prop where
  silent : Silent w w'
  objs : w'.mObjGrpLife = w.mObjGrpLife
  flag : w'.mPrelimProcessingInProgress = w.mPrelimProcessingInProgress

theorem Idle.refl (w : World) : Idle w w := ⟨.refl w, rfl, rfl⟩

theorem Idle.trans (h : Idle w w') (h' : Idle w' w'') : Idle w w'' :=
  ⟨h.silent.trans h'.silent, h'.objs.trans h.objs, h'.flag.trans h.flag⟩

theorem idle_calling {c : Call} (h : ∀ state rc, c ≠ .ioctl (.deviceState state) rc) : Idle w (w.calling [c]) :=
  ⟨silent_calling h, rfl, rfl⟩

theorem idle_reset (drv : Driver) (env : Env) (w : World) : Idle w (resetStatusRegErrors drv env w) := by
  have hcap : ∀ (cap : List PciCapabilities) v, Idle w v → Idle w (cap.foldl (resetCap drv) v) := by
    intro cap
    induction cap with
    | nil => exact fun _ hv => hv
    | cons c cap ih =>
      refine fun v hv => ih _ (hv.trans ?_)
      cases c with
      | pxcap => exact idle_calling nofun
      | aercap => exact idle_calling nofun
      | _ => exact .refl v
  exact hcap env.cap _ (idle_calling nofun)

theorem idle_getStatusRegErrors (drv : Driver) (env : Env) (w : World) :
    Idle w (getStatusRegErrors drv env w).1 := by
  have hreg : ∀ reg errRegs v, Idle w v → Idle w (checkReg drv reg errRegs v).1 :=
    fun reg errRegs v hv => hv.trans (idle_calling nofun)
  have hcaps : ∀ cap v, Idle w v → Idle w (checkCaps drv env cap v).1 := by
    intro cap
    induction cap with
    | nil => exact fun _ hv => hv
    | cons c cap ih =>
      intro v hv
      cases c with
      | pxcap => exact andThen_inv (P := Idle w) (hreg _ _ v hv) ih
      | aercap => exact andThen_inv (P := Idle w) (hreg _ _ v hv) ih
      | _ => exact ih v hv
  exact andThen_inv (P := Idle w) (hreg _ _ w (.refl w)) fun v hv =>
    andThen_inv (P := Idle w) (hcaps env.cap v hv) (hreg _ _)

theorem frame_body (drv : Driver) (w : World) (ops : List Op) : Frame w (body drv w ops) :=
  Runs.inv_run (fun v op hv => hv.trans (frame_step drv v op)) (.refl w) ops

/-! ## When the calls succeed -/

theorem setState_granted (hdrv : ∀ log req, 0 ≤ drv.ioctl log req) (w : World) :
    (w.setState drv .disableCompletely).2 = true ∧ (w.setState drv .disableCompletely).1.mObjGrpLife = [] := by
  have hrc := hdrv w.rsrc.log (.deviceState .disableCompletely)
  simp only [setState, requestState, if_neg (by omega : ¬drv.ioctl w.rsrc.log (.deviceState .disableCompletely) < 0)]
  refine ⟨trivial, List.filter_eq_nil_iff.2 fun o ho => ?_⟩
  obtain ⟨p, _, rfl⟩ := List.mem_map.1 ho
  simp

/-- A constructor that finds the flag set has marked the log. -/
theorem construct_set (hdrv : ∀ log req, 0 ≤ drv.ioctl log req) (su : Setup) (fuel : Nat)
    (hflag : w.mPrelimProcessingInProgress = true) :
    construct drv su (fuel + 1) w = some (w.ioctl drv startMark, .built) := by
  have hrc := hdrv w.rsrc.log startMark
  simp only [construct, if_neg (by omega : ¬drv.ioctl w.rsrc.log startMark < 0), process]
  exact if_pos hflag

/-- Any other one disables the device, if it ends. -/
theorem construct_clear (hdrv : ∀ log req, 0 ≤ drv.ioctl log req) {su : Setup} (hpost : su.postfail = false)
    {fuel : Nat} (hflag : w.mPrelimProcessingInProgress = false) {r : World × CtorEnd}
    (h : construct drv su (fuel + 1) w = some r) :
    r = (((enter (w.ioctl drv startMark)).setState drv .disableCompletely).1, .built) := by
  have hrc := hdrv w.rsrc.log startMark
  have hflag' : ¬(w.ioctl drv startMark).mPrelimProcessingInProgress = true := Bool.eq_false_iff.1 hflag
  obtain ⟨hok, _⟩ := setState_granted hdrv (enter (w.ioctl drv startMark))
  simp only [construct, if_neg (by omega : ¬drv.ioctl w.rsrc.log startMark < 0), process, if_neg hflag', disableDevice,
    processing, hpost, hok, Bool.false_eq_true, if_false, if_true] at h
  split at h
  · cases h
  · exact (Option.some.inj h).symm

theorem caught_frame (how : Throw) (e : CtorEnd) (w : World) :
    (caught how e w).rsrc = w.rsrc ∧ (caught how e w).objs = w.objs := by
  cases e <;> cases how <;> exact ⟨rfl, rfl⟩

/-- An exception that finds the flag clear leaves nothing. -/
theorem raise_clear (hdrv : ∀ log req, 0 ≤ drv.ioctl log req) {su : Setup} (hpost : su.postfail = false) {fuel : Nat}
    {how : Throw} (hflag : w.mPrelimProcessingInProgress = false) (h : raise drv su (fuel + 1) how w = some w') :
    Safe w w' := by
  obtain ⟨r, hr, rfl⟩ := Option.map_eq_some_iff.1 h
  rw [construct_clear hdrv hpost hflag hr]
  obtain ⟨hrsrc, hobjs⟩ := caught_frame how .built ((enter (w.ioctl drv startMark)).setState drv .disableCompletely).1
  have hne : NvmeState.disableCompletely ≠ .enable := by decide
  have hmark : Silent w (enter (w.ioctl drv startMark)) := silent_startMark drv w
  obtain ⟨t, ht, hmem⟩ := (requested_setState drv _ hne).after hmark.extends
  refine ⟨⟨t, by rw [← ht]; exact congrArg MetaRsrc.log hrsrc, hmem⟩, ?_⟩
  exact (congrArg (List.filter _) hobjs).trans (setState_granted hdrv _).2

/-- An exception that finds the flag set does nothing. -/
theorem raise_set (hdrv : ∀ log req, 0 ≤ drv.ioctl log req) (su : Setup) (fuel : Nat) (how : Throw)
    (hflag : w.mPrelimProcessingInProgress = true) :
    ∃ w', raise drv su (fuel + 1) how w = some w' ∧ Silent w w' ∧ w'.mObjGrpLife = w.mObjGrpLife := by
  obtain ⟨hrsrc, hobjs⟩ := caught_frame how .built (w.ioctl drv startMark)
  refine ⟨caught how .built (w.ioctl drv startMark), ?_, ?_, congrArg (List.filter _) hobjs⟩
  · rw [raise, construct_set hdrv su fuel hflag]
    rfl
  · obtain ⟨t, ht, hno⟩ := silent_startMark drv w
    exact ⟨t, by rw [← ht]; exact congrArg MetaRsrc.log hrsrc, hno⟩

/-! ## Failures -/

/-- The end of the way to a failure does not matter if it is idle. -/
theorem safe_iff {v v' : World} (h : Silent w v) (hv : ∃ t, v'.rsrc.log = v.rsrc.log ++ t) (h' : Silent v' w')
    (hobjs : w'.mObjGrpLife = v'.mObjGrpLife) : Safe w w' ↔ Safe v v' := by
  constructor
  · rintro ⟨hreq, hempty⟩
    exact ⟨(requested_iff h hv h').1 hreq, hobjs ▸ hempty⟩
  · rintro ⟨hreq, hempty⟩
    exact ⟨(requested_iff h hv h').2 hreq, hobjs.trans hempty⟩

/-- A test throws at the end of what it does. -/
theorem throws_iff (hdrv : ∀ log req, 0 ≤ drv.ioctl log req) {su : Setup} (hpost : su.postfail = false) (fuel : Nat)
    (how : Throw) {v : World} (hv : Idle w v) (ops : List Op) :
    (∀ w', raise drv su (fuel + 1) how (body drv v ops) = some w' → Safe w w') ↔
      w.mPrelimProcessingInProgress = false ∨ Safe v (body drv v ops) := by
  obtain ⟨hlog, hflag⟩ := frame_body drv v ops
  have hflag' := hflag.trans hv.flag
  cases hset : w.mPrelimProcessingInProgress with
  | false =>
    refine iff_of_true (fun w' hraise => ?_) (Or.inl rfl)
    obtain ⟨hreq, hempty⟩ := raise_clear hdrv hpost (hflag'.trans hset) hraise
    exact ⟨hreq.after (longer_trans hv.silent.extends hlog), hempty⟩
  | true =>
    obtain ⟨w', hraise, hsilent, hobjs⟩ := raise_set hdrv su fuel how (hflag'.trans hset)
    rw [hraise]
    simp only [Option.some.injEq, forall_eq', Bool.true_eq_false, false_or]
    exact safe_iff hv.silent hlog hsilent hobjs

/-- A test ends with a failure and no exception of the framework. -/
theorem quits_iff {v : World} (hv : Idle w v) (ops : List Op) (hidle : Idle (body drv v ops) w') :
    Safe w w' ↔ Safe v (body drv v ops) :=
  safe_iff hv.silent (frame_body drv v ops).log hidle.silent hidle.objs

/-- The way from the code of a test to the result of `Run`. -/
theorem finish_iff (hdrv : ∀ log req, 0 ≤ drv.ioctl log req) (hpost : env.postfail = false) (fuel : Nat) {v : World}
    (hv : Idle w v) (ops : List Op) (ending : Ending Sched.TestResult) :
    (∀ w', finish drv env (fuel + 1) (body drv v ops) ending = some (w', .fail) → Safe w w') ↔
      match ending with
      | .throws _ => w.mPrelimProcessingInProgress = false ∨ CleansUp drv v ops
      | .foreign => CleansUp drv v ops
      | .returns mResult =>
        mResult = .fail ∨ (getStatusRegErrors drv env (body drv v ops)).2 = false → CleansUp drv v ops := by
  unfold finish CleansUp
  cases (body drv v ops).lost with
  | true => cases ending <;> simp
  | false =>
    simp only [Bool.false_eq_true, if_false, forall_const]
    cases ending with
    | throws how =>
      simp only [Option.map_eq_some_iff, Prod.mk.injEq, and_true, exists_eq_right]
      exact throws_iff hdrv hpost fuel how hv ops
    | foreign =>
      simp only [Option.some.injEq, Prod.mk.injEq, and_true, forall_eq']
      exact quits_iff hv ops (.refl _)
    | returns mResult =>
      have hquits := quits_iff hv ops (idle_getStatusRegErrors drv env (body drv v ops))
      simp only [Option.some.injEq, Prod.mk.injEq, and_imp, forall_eq']
      rw [hquits]
      cases (getStatusRegErrors drv env (body drv v ops)).2 <;> simp

theorem run_iff (hdrv : ∀ log req, 0 ≤ drv.ioctl log req) (hpost : env.postfail = false) (fuel : Nat) (t : Test)
    (w : World) : (∀ w', t.run drv env (fuel + 1) w = some (w', .fail) → Safe w w') ↔ t.RunLeavesNothing drv env w := by
  have hreset := idle_reset drv env w
  unfold run RunLeavesNothing ready
  cases hfile : prepDumpFile env.dumpDir t.mGrpName t.mTestName "kmetrics" "preTestRun" with
  | none =>
    simp only [Option.map_none, Option.map_eq_some_iff, Prod.mk.injEq, and_true, exists_eq_right]
    refine (throws_iff hdrv hpost fuel .byValue hreset []).trans (or_iff_left fun hclean => ?_)
    exact (Silent.refl _).not_requested hclean.requested
  | some filename =>
    have hok : ((resetStatusRegErrors drv env w).dumpKernelMetrics drv filename).2 = true :=
      decide_eq_true (hdrv _ _)
    have hready : Idle w ((resetStatusRegErrors drv env w).dumpKernelMetrics drv filename).1 :=
      hreset.trans (idle_calling nofun)
    simp only [Option.map_some, hok, if_true]
    exact finish_iff hdrv hpost fuel hready _ _

theorem runnable_iff (hdrv : ∀ log req, 0 ≤ drv.ioctl log req) (hpost : env.postfail = false) (fuel : Nat) (t : Test)
    (preserve : Bool) (w : World) :
    (∀ w', t.runnable drv env (fuel + 1) preserve w = some (w', .runFail) → Safe w w') ↔
      t.RunnableLeavesNothing drv preserve w := by
  unfold runnable RunnableLeavesNothing CleansUp
  dsimp only
  cases (body drv w (t.runnableCoreTest preserve w).1).lost with
  | true => cases (t.runnableCoreTest preserve w).2 <;> simp
  | false =>
    simp only [Bool.false_eq_true, if_false, forall_const]
    cases (t.runnableCoreTest preserve w).2 with
    | throws how =>
      simp only [Option.map_eq_some_iff, Prod.mk.injEq, and_true, exists_eq_right]
      exact throws_iff hdrv hpost fuel how (.refl w) _
    | foreign => simp only [Option.some.injEq, Prod.mk.injEq, and_true, forall_eq']
    | returns r => simp only [Option.some.injEq, Prod.mk.injEq, and_imp, forall_eq']

/-- **Which failures leave nothing in the device**, when the calls of the driver succeed. -/
theorem failure_iff (hdrv : ∀ log req, 0 ≤ drv.ioctl log req) (hpost : env.postfail = false) (fuel : Nat) (t : Test)
    (preserve : Bool) (w : World) :
    ((∀ w', t.run drv env (fuel + 1) w = some (w', .fail) → Safe w w') ↔ t.RunLeavesNothing drv env w) ∧
      ((∀ w', t.runnable drv env (fuel + 1) preserve w = some (w', .runFail) → Safe w w') ↔
        t.RunnableLeavesNothing drv preserve w) :=
  ⟨run_iff hdrv hpost fuel t w, runnable_iff hdrv hpost fuel t preserve w⟩

/-- A test that creates an object for its group, and ends somehow. -/
def creates (objType : ObjType) (ending : Ending Sched.TestResult) : Test where
  mGrpName := "GrpQueues"
  mTestName := "CreateResources_r10b"
  runCoreTest := fun _ => ([.allocObj 1 objType "OBJ" .none], ending)
  runnableCoreTest := fun _ _ => ([], .returns .runTrue)

/-- The options of `--error` as they are by default. -/
def defaultEnv : Env where
  postfail := false
  dumpDir := "./Logs/GrpPending/"
  extract := fun _ => ([], true)
  errRegs := ⟨0x7800, 0x44, 0, 2⟩
  cap := [.pxcap]

theorem exception_leaves_nothing : ∃ w',
    (creates .memBuffer (.throws .byValue)).run MetaRsrc.grantingDriver defaultEnv 1 init = some (w', .fail) ∧
      Safe init w' := by
  have hgrants : ∀ log req, 0 ≤ MetaRsrc.grantingDriver.ioctl log req := fun _ _ => Int.le_refl 0
  have hpost : defaultEnv.postfail = false := rfl
  obtain ⟨w', hw'⟩ : ∃ w',
    (creates .memBuffer (.throws .byValue)).run MetaRsrc.grantingDriver defaultEnv 1 init = some (w', .fail) := ⟨_, rfl⟩
  obtain ⟨hrun, _⟩ := failure_iff hgrants hpost 0 (creates .memBuffer (.throws .byValue)) true init
  exact ⟨w', hw', hrun.2 (Or.inl rfl) w' hw'⟩

/-- The device reports a fatal status, and the queue of the group stays where it is. -/
theorem fatal_status_leaves_queue :
    ¬∀ w', (creates .iocq (.returns .success)).run
      { MetaRsrc.grantingDriver with read := fun _ reg => if reg = .ctlspcCsts then some 2 else some 0 }
      defaultEnv 1 init = some (w', .fail) → Safe init w' := by
  intro h
  have hempty := (h _ rfl).empty
  exact absurd hempty (by decide)

end Test

end Tnvme
