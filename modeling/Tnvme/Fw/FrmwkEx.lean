import Tnvme.Fw.SetState
import Tnvme.Regs.CtrlrConfig

/-!
# `FrmwkEx`

The constructor of an exception marks the log of dnvme and disables the device, once: a static flag keeps the exceptions
that come up on the way from doing it again. The flag is cleared by the destructor. An exception that is thrown as a
pointer is never destroyed.

The processing ends the program if it destroys a queue without memory: one that the disable frees, or one of its own
whose `Init` has failed (`lost_processing_iff`).
-/

namespace Tnvme

/-- `FileSystem::PrepDumpFile`; `none` is an exception. -/
def prepDumpFile (dir grpName className objName qualifier : String) : Option String :=
  if grpName.isEmpty || className.isEmpty || objName.isEmpty then none
  else some (dir ++ grpName ++ "." ++ className ++ "." ++ objName ++ if qualifier.isEmpty then "" else "." ++ qualifier)

/-- The options and the environment of the exceptions. `extract` is the rest of `PreliminaryProcessing`, with the device
enabled again: what it calls, and whether it gets to its end without an exception. -/
structure Setup where
  postfail : Bool
  dumpDir : String
  extract : World → List Call × Bool

/-- A constructor ends with its object, or with another exception. -/
inductive CtorEnd where
  | built
  | nested
  deriving DecidableEq, Repr

namespace World

variable (drv : Driver) (w : World)

/-- Goes on unless something was thrown. -/
def andThen (r : World × Bool) (f : World → World × Bool) : World × Bool := if r.2 then f r.1 else (r.1, false)

/-- What both parts keep, the whole keeps. -/
theorem andThen_inv {P : World → Prop} {r : World × Bool} {f : World → World × Bool} (hr : P r.1)
    (hf : ∀ w, P w → P (f w).1) : P (andThen r f).1 := by
  unfold andThen
  split
  · exact hf _ hr
  · exact hr

def dumpKernelMetrics (filename : String) : World × Bool :=
  (w.ioctl drv (.dumpMetrics filename), 0 ≤ drv.ioctl w.rsrc.log (.dumpMetrics filename))

def dumpRegs (what : RegDump) : World × Bool :=
  (w.calling [.dump what (drv.dump w.rsrc.log what)], drv.dump w.rsrc.log what)

end World

namespace FrmwkEx

open World

variable (drv : Driver) (su : Setup)

def startMark : Ioctl := .markSyslog "-------START POST FAILURE STATE DUMP-------"

/-- The first part of `PreliminaryProcessing`, which leaves the device alone. -/
def snapshot (w : World) : World × Bool :=
  andThen (w.dumpKernelMetrics drv (su.dumpDir ++ "post.failure.kmetrics")) fun w =>
    andThen (w.dumpRegs drv .pciSpace) fun w => w.dumpRegs drv .ctrlrSpace

/-- `acq->Init(2)` -/
def acqInit : CQInit := ⟨⟨0, 16, 2, .contig⟩, true, 0⟩

/-- `asq->Init(2)` -/
def asqInit : SQInit := ⟨⟨0, 64, 2, .contig⟩, 0⟩

/-- The admin queues of `PreliminaryProcessing`. One whose `Init` throws dies without memory while the stack unwinds.
That the mappings end with the queues is not followed. -/
def initAdminQs (w : World) : World × Bool :=
  let acq := acqInit.run drv .new w.rsrc.log
  if acq.threw then ({ w.withLog acq.log with lost := true }, false)
  else
    let asq := asqInit.run drv .new acq.log
    ({ w.withLog asq.log with lost := w.lost || asq.threw }, !asq.threw)

/-- The second part of `PreliminaryProcessing`, after the disable. -/
def gatherIntrusive (w : World) : World × Bool :=
  andThen (initAdminQs drv w) fun w =>
    -- the value of `SetCSS` is not looked at
    andThen ((w.setCSS drv 0).1.setState drv .enable) fun w => (w.calling (su.extract w).1, (su.extract w).2)

def preliminaryProcessing (w : World) : World × Bool :=
  andThen (snapshot drv su w) fun w => andThen (w.setState drv .disableCompletely) (gatherIntrusive drv su)

/-- What `DumpStateOfTheSystem` does to the device, up to its last disable. -/
def processing (w : World) : World × Bool :=
  if su.postfail then preliminaryProcessing drv su w else w.setState drv .disableCompletely

/-- `DumpStateOfTheSystem` once the flag is set; `nested` is the construction of another exception. -/
def disableDevice (nested : World → Option (World × CtorEnd)) (w : World) : Option (World × CtorEnd) :=
  let r := processing drv su w
  if r.1.lost then none
  else if r.2 then some (if su.postfail then (r.1.setState drv .disable).1 else r.1, .built)
  else nested r.1

/-- The flag is set. -/
def enter (w : World) : World := { w with mPrelimProcessingInProgress := true }

/-- `DumpStateOfTheSystem` after the log has been marked. -/
def process (nested : World → Option (World × CtorEnd)) (w : World) : Option (World × CtorEnd) :=
  if w.mPrelimProcessingInProgress then some (w, .built) else disableDevice drv su nested (enter w)

/-- The constructor. It does not end if dnvme refuses to mark its log again and again, or if the program ends. -/
def construct : Nat → World → Option (World × CtorEnd)
  | 0, _ => none
  | fuel + 1, w =>
    let nested := fun w => (construct fuel w).map fun r => (r.1, .nested)
    if drv.ioctl w.rsrc.log startMark < 0 then nested (w.ioctl drv startMark)
    else process drv su nested (w.ioctl drv startMark)

/-- The destructor. -/
def destruct (w : World) : World := { w with mPrelimProcessingInProgress := false }

/-! ## Requests for a state -/

/-- The state has been asked for on the way from `w` to `w'`. -/
def Requested (state : NvmeState) (w w' : World) : Prop :=
  ∃ t, w'.rsrc.log = w.rsrc.log ++ t ∧ ∃ rc, .ioctl (.deviceState state) rc ∈ t

/-- No state has been asked for on the way from `w` to `w'`. -/
def Silent (w w' : World) : Prop :=
  ∃ t, w'.rsrc.log = w.rsrc.log ++ t ∧ ∀ state rc, .ioctl (.deviceState state) rc ∉ t

variable {drv : Driver} {su : Setup} {w w' w'' : World} {state : NvmeState}

theorem Silent.refl (w : World) : Silent w w := ⟨[], (List.append_nil _).symm, by simp⟩

theorem Silent.trans (h : Silent w w') (h' : Silent w' w'') : Silent w w'' := by
  obtain ⟨t, ht, hno⟩ := h
  obtain ⟨t', ht', hno'⟩ := h'
  refine ⟨t ++ t', by rw [ht', ht, List.append_assoc], fun state rc hmem => ?_⟩
  rcases List.mem_append.1 hmem with hmem | hmem
  · exact hno state rc hmem
  · exact hno' state rc hmem

theorem Silent.not_requested (h : Silent w w') : ¬Requested state w w' := by
  obtain ⟨t, ht, hno⟩ := h
  rintro ⟨t', ht', rc, hmem⟩
  rw [ht] at ht'
  exact hno state rc (List.append_cancel_left ht' ▸ hmem)

theorem Requested.after (h' : Requested state w' w'') (h : ∃ t, w'.rsrc.log = w.rsrc.log ++ t) :
    Requested state w w'' := by
  obtain ⟨t, ht⟩ := h
  obtain ⟨t', ht', rc, hmem⟩ := h'
  exact ⟨t ++ t', by rw [ht', ht, List.append_assoc], rc, List.mem_append_right t hmem⟩

theorem Requested.then (h : Requested state w w') (h' : ∃ t, w''.rsrc.log = w'.rsrc.log ++ t) :
    Requested state w w'' := by
  obtain ⟨t, ht, rc, hmem⟩ := h
  obtain ⟨t', ht'⟩ := h'
  exact ⟨t ++ t', by rw [ht', ht, List.append_assoc], rc, List.mem_append_left t' hmem⟩

theorem Silent.extends (h : Silent w w') : ∃ t, w'.rsrc.log = w.rsrc.log ++ t :=
  ⟨h.choose, h.choose_spec.1⟩

theorem silent_calling {c : Call} (h : ∀ state rc, c ≠ .ioctl (.deviceState state) rc) : Silent w (w.calling [c]) :=
  ⟨[c], rfl, fun state rc hmem => h state rc (List.mem_singleton.1 hmem).symm⟩

/-- What was asked for in a part of the way, if nothing was asked for in the rest. -/
theorem requested_iff {v v' : World} (h : Silent w v) (hv : ∃ t, v'.rsrc.log = v.rsrc.log ++ t) (h' : Silent v' w') :
    Requested state w w' ↔ Requested state v v' := by
  refine ⟨fun hreq => ?_, fun hreq => (hreq.after h.extends).then h'.extends⟩
  obtain ⟨t, ht, hno⟩ := h
  obtain ⟨u, hu⟩ := hv
  obtain ⟨t', ht', hno'⟩ := h'
  obtain ⟨all, hall, rc, hmem⟩ := hreq
  rw [ht', hu, ht, List.append_assoc, List.append_assoc] at hall
  rw [← List.append_cancel_left hall] at hmem
  rcases List.mem_append.1 hmem with hmem | hmem
  · exact absurd hmem (hno state rc)
  · rcases List.mem_append.1 hmem with hmem | hmem
    · exact ⟨u, hu, rc, hmem⟩
    · exact absurd hmem (hno' state rc)

/-- A disable asks for its state first of all. -/
theorem requested_setState (drv : Driver) (w : World) {state : NvmeState} (h : state ≠ .enable) :
    Requested state w (w.setState drv state).1 := by
  have hreq : Requested state w (w.requestState drv state).1 := by
    have hfirst : Requested state w (w.ioctl drv (.deviceState state)) :=
      ⟨[.ioctl (.deviceState state) (drv.ioctl w.rsrc.log (.deviceState state))], rfl, _, List.mem_singleton_self _⟩
    unfold requestState
    split
    · exact hfirst.then (onlyLog_read _ _).log
    · exact hfirst.then (freed_update _ h).log
  cases state with
  | enable => exact absurd rfl h
  | disable => exact hreq
  | disableCompletely => exact hreq

/-! ## The log of a construction -/

theorem snapshot_silent (drv : Driver) (su : Setup) (w : World) : Silent w (snapshot drv su w).1 ∧
    (snapshot drv su w).1.mPrelimProcessingInProgress = w.mPrelimProcessingInProgress := by
  have hregs : ∀ what v, Silent w v ∧ v.mPrelimProcessingInProgress = w.mPrelimProcessingInProgress →
      Silent w (v.dumpRegs drv what).1 ∧
        (v.dumpRegs drv what).1.mPrelimProcessingInProgress = w.mPrelimProcessingInProgress :=
    fun what v h => ⟨h.1.trans (silent_calling nofun), h.2⟩
  refine andThen_inv (P := fun v => Silent w v ∧ v.mPrelimProcessingInProgress = w.mPrelimProcessingInProgress)
    ⟨silent_calling nofun, rfl⟩ fun v hv => ?_
  exact andThen_inv (hregs .pciSpace v hv) (hregs .ctrlrSpace)

/-- Nothing but the log, and whether the world is lost. -/
theorem onlyLog_initAdminQs (drv : Driver) (w : World) :
    OnlyLog { w with lost := (initAdminQs drv w).1.lost } (initAdminQs drv w).1 := by
  have hacq : ∃ t, (acqInit.run drv .new w.rsrc.log).log = w.rsrc.log ++ t :=
    (acqInit.outcome .new w.rsrc.log).longer
  have hasq : ∃ t, (asqInit.run drv .new (acqInit.run drv .new w.rsrc.log).log).log =
      (acqInit.run drv .new w.rsrc.log).log ++ t :=
    (asqInit.outcome .new (acqInit.run drv .new w.rsrc.log).log).longer
  unfold initAdminQs
  dsimp only
  split
  · exact ⟨rfl, rfl, rfl, rfl, rfl, rfl, rfl, hacq⟩
  · exact ⟨rfl, rfl, rfl, rfl, rfl, rfl, rfl, longer_trans hacq hasq⟩

theorem onlyLog_gatherIntrusive (drv : Driver) (su : Setup) (w : World) :
    OnlyLog { w with lost := (initAdminQs drv w).1.lost } (gatherIntrusive drv su w).1 := by
  refine andThen_inv (P := OnlyLog { w with lost := (initAdminQs drv w).1.lost }) (onlyLog_initAdminQs drv w)
    fun v hv => ?_
  have hcss : OnlyLog v (v.setCSS drv 0).1 := onlyLog_setRegValue v 0 0x07 0x70 4
  have henable : OnlyLog (v.setCSS drv 0).1 ((v.setCSS drv 0).1.setState drv .enable).1 := setState_refused rfl
  exact andThen_inv (P := OnlyLog { w with lost := (initAdminQs drv w).1.lost }) (hv.trans (hcss.trans henable))
    fun u hu => hu.trans (onlyLog_calling u _)

/-- With `--postfail` the device is disabled as soon as the snapshot has been taken. -/
theorem preliminaryProcessing_log (drv : Driver) (su : Setup) (w : World) :
    (preliminaryProcessing drv su w).1.mPrelimProcessingInProgress = w.mPrelimProcessingInProgress ∧
      if (snapshot drv su w).2 then Requested .disableCompletely w (preliminaryProcessing drv su w).1
      else Silent w (preliminaryProcessing drv su w).1 ∧ (preliminaryProcessing drv su w).2 = false := by
  obtain ⟨hsilent, hflag⟩ := snapshot_silent drv su w
  cases hok : (snapshot drv su w).2 with
  | false => simp [preliminaryProcessing, andThen, hok, hsilent, hflag]
  | true =>
    obtain ⟨_, hflag'⟩ := frame_run drv (snapshot drv su w).1 (.setState .disableCompletely)
    have hne : NvmeState.disableCompletely ≠ .enable := nofun
    have hreq := (requested_setState drv (snapshot drv su w).1 hne).after hsilent.extends
    simp only [preliminaryProcessing, andThen, hok, if_true]
    split
    · have hgather := onlyLog_gatherIntrusive drv su ((snapshot drv su w).1.setState drv .disableCompletely).1
      exact ⟨hgather.flag.trans (hflag'.trans hflag), hreq.then hgather.log⟩
    · exact ⟨hflag'.trans hflag, hreq⟩

/-- The processing disables the device, unless its snapshot fails. -/
theorem processing_log (drv : Driver) (su : Setup) (w : World) :
    (processing drv su w).1.mPrelimProcessingInProgress = w.mPrelimProcessingInProgress ∧
      if su.postfail = true ∧ (snapshot drv su w).2 = false then
        Silent w (processing drv su w).1 ∧ (processing drv su w).2 = false
      else Requested .disableCompletely w (processing drv su w).1 := by
  unfold processing
  by_cases hpost : su.postfail = true
  · obtain ⟨hflag, hlog⟩ := preliminaryProcessing_log drv su w
    rw [if_pos hpost]
    refine ⟨hflag, ?_⟩
    cases hok : (snapshot drv su w).2 with
    | false => simpa [hpost, hok] using hlog
    | true => simpa [hpost, hok] using hlog
  · have hne : NvmeState.disableCompletely ≠ .enable := nofun
    rw [if_neg hpost, if_neg fun h => hpost h.1]
    exact ⟨(frame_run drv w (.setState .disableCompletely)).flag, requested_setState drv w hne⟩

/-- The log is marked: the world from which the constructor that gets through goes on. -/
def marked (drv : Driver) : Nat → World → Option World
  | 0, _ => none
  | fuel + 1, w =>
    if drv.ioctl w.rsrc.log startMark < 0 then marked drv fuel (w.ioctl drv startMark)
    else some (w.ioctl drv startMark)

/-- Whether the constructor disables the device once it has marked the log. -/
def Disables (drv : Driver) (su : Setup) (w : World) : Prop :=
  w.mPrelimProcessingInProgress = false ∧
    (su.postfail = true → (snapshot drv su (enter w)).2 = true)

theorem silent_startMark (drv : Driver) (w : World) : Silent w (w.ioctl drv startMark) := silent_calling nofun

/-- While the flag is set, exceptions do nothing but mark the log. -/
theorem construct_of_flag {fuel : Nat} {e : CtorEnd} (hflag : w.mPrelimProcessingInProgress = true)
    (h : construct drv su fuel w = some (w', e)) : Silent w w' ∧ w'.mPrelimProcessingInProgress = true := by
  induction fuel generalizing w e with
  | zero => cases h
  | succ fuel ih =>
    simp only [construct] at h
    split at h
    · obtain ⟨⟨v, e'⟩, hv, heq⟩ := Option.map_eq_some_iff.1 h
      cases heq
      obtain ⟨hsilent, hset⟩ := ih (w := w.ioctl drv startMark) hflag hv
      exact ⟨(silent_startMark drv w).trans hsilent, hset⟩
    · have hflag' : (w.ioctl drv startMark).mPrelimProcessingInProgress = true := hflag
      rw [process, if_pos hflag'] at h
      cases h
      exact ⟨silent_startMark drv w, hflag⟩

/-- What comes after the flag is set either disables the device, or asks for nothing. -/
theorem disableDevice_spec {nested : World → Option (World × CtorEnd)} {e : CtorEnd}
    (hnested : ∀ {v r}, v.mPrelimProcessingInProgress = true → nested v = some r →
      Silent v r.1 ∧ r.1.mPrelimProcessingInProgress = true)
    (hflag : w.mPrelimProcessingInProgress = true) (h : disableDevice drv su nested w = some (w', e)) :
    w'.mPrelimProcessingInProgress = true ∧
      if su.postfail = true ∧ (snapshot drv su w).2 = false then Silent w w'
      else Requested .disableCompletely w w' := by
  obtain ⟨hset, hlog⟩ := processing_log drv su w
  have hflag' := hset.trans hflag
  simp only [disableDevice] at h
  split at h
  · cases h
  · split at h
    · rename_i hok
      cases h
      have hlast : Frame (processing drv su w).1
          (if su.postfail then ((processing drv su w).1.setState drv .disable).1 else (processing drv su w).1) := by
        split
        · exact frame_run drv _ (.setState .disable)
        · exact .refl _
      refine ⟨hlast.flag.trans hflag', ?_⟩
      split at hlog
      · exact absurd (hlog.2.symm.trans hok) (by decide)
      · rename_i hgets
        rw [if_neg hgets]
        exact hlog.then hlast.log
    · obtain ⟨hsilent, hset'⟩ := hnested hflag' h
      refine ⟨hset', ?_⟩
      split at hlog
      · rename_i hfails
        rw [if_pos hfails]
        exact hlog.1.trans hsilent
      · rename_i hgets
        rw [if_neg hgets]
        exact hlog.then hsilent.extends

/-- **What a constructor asks for**, once it has marked the log. -/
theorem process_spec {fuel : Nat} {e : CtorEnd}
    (h : process drv su (fun w => (construct drv su fuel w).map fun r => (r.1, .nested)) w = some (w', e)) :
    w'.mPrelimProcessingInProgress = true ∧ (Disables drv su w → Requested .disableCompletely w w') ∧
      (¬Disables drv su w → Silent w w') := by
  unfold process at h
  by_cases hflag : w.mPrelimProcessingInProgress = true
  · rw [if_pos hflag] at h
    cases h
    exact ⟨hflag, fun hd => absurd hd.1 (by simp [hflag]), fun _ => .refl w⟩
  · rw [if_neg hflag] at h
    have hspec := disableDevice_spec (fun {v r} hv hr => ?_) rfl h
    · obtain ⟨hset, hlog⟩ := hspec
      refine ⟨hset, fun hd => ?_, fun hd => ?_⟩
      · rwa [if_neg (fun hc => by simp [hd.2 hc.1] at hc)] at hlog
      · rw [if_pos] at hlog
        · exact hlog
        · simpa [Disables, hflag] using hd
    · obtain ⟨r', hr', rfl⟩ := Option.map_eq_some_iff.1 hr
      exact construct_of_flag hv hr'

/-- **A constructor that ends asks for a disable exactly if it finds the flag clear and can take its snapshot.** -/
theorem construct_spec {fuel : Nat} {e : CtorEnd} (h : construct drv su fuel w = some (w', e)) :
    ∃ v, marked drv fuel w = some v ∧ Silent w v ∧ OnlyLog w v ∧ w'.mPrelimProcessingInProgress = true ∧
      (Disables drv su v → Requested .disableCompletely w w') ∧ (¬Disables drv su v → Silent w w') := by
  induction fuel generalizing w e with
  | zero => cases h
  | succ fuel ih =>
    have hmark := silent_startMark drv w
    simp only [construct] at h
    unfold marked
    split at h
    · rename_i hrc
      rw [if_pos hrc]
      obtain ⟨⟨v', e'⟩, hv', heq⟩ := Option.map_eq_some_iff.1 h
      cases heq
      obtain ⟨v, hv, hsilent, hlog, hset, hreq, hno⟩ := ih hv'
      exact ⟨v, hv, hmark.trans hsilent, (onlyLog_ioctl w _).trans hlog, hset,
        fun hd => (hreq hd).after hmark.extends, fun hd => hmark.trans (hno hd)⟩
    · rename_i hrc
      rw [if_neg hrc]
      obtain ⟨hset, hreq, hno⟩ := process_spec h
      exact ⟨_, rfl, hmark, onlyLog_ioctl w _, hset, fun hd => (hreq hd).after hmark.extends,
        fun hd => hmark.trans (hno hd)⟩

/-! ## A construction is a sequence of calls -/

theorem enter_dtor (w : World) (o : Obj) : (enter w).dtor drv o = enter (w.dtor drv o) := by
  have hunmap : ∀ v : World, (enter v).unmap o.mQueue = enter (v.unmap o.mQueue) := by
    intro v
    unfold unmap
    split <;> rfl
  unfold dtor
  split
  · exact hunmap (w.store drv (.releaseMetaBuf o.mMetaData))
  · rfl

theorem enter_dtors (l : List Obj) (w : World) :
    l.foldl (fun w o => w.dtor drv o) (enter w) = enter (l.foldl (fun w o => w.dtor drv o) w) := by
  induction l generalizing w with
  | nil => rfl
  | cons o l ih =>
    have hdtor := ih (w.dtor drv o)
    rw [← enter_dtor] at hdtor
    exact hdtor

theorem enter_freeObjs (w : World) (keep : ObjType → Bool) :
    (enter w).freeObjs drv keep = enter (w.freeObjs drv keep) := by
  simp only [freeObjs]
  rw [show (enter w).objs = w.objs from rfl, enter_dtors]
  rfl

theorem enter_freeAllObjNotASQACQ (w : World) :
    (enter w).freeAllObjNotASQACQ drv = enter (w.freeAllObjNotASQACQ drv) := by
  by_cases honly : ∀ o ∈ w.mObjGrpLife, o.objType.isAdminQ = true
  · rw [freeAllObjNotASQACQ_eq honly]
    exact freeAllObjNotASQACQ_eq honly
  · rw [freeAllObjNotASQACQ_lost honly, freeAllObjNotASQACQ_lost (w := enter w) honly, enter_freeObjs]
    rfl

theorem enter_requestState (w : World) (state : NvmeState) :
    ((enter w).requestState drv state).1 = enter (w.requestState drv state).1 := by
  have hrsrc : (enter w).rsrc = w.rsrc := rfl
  unfold requestState
  rw [hrsrc]
  split
  · rfl
  · have hioctl : (enter w).ioctl drv (.deviceState state) = enter (w.ioctl drv (.deviceState state)) := rfl
    rw [hioctl]
    cases state with
    | enable => rfl
    | disable => simp only [update, enter_freeAllObjNotASQACQ]; rfl
    | disableCompletely => simp only [update, freeAllObj, enter_freeObjs]; rfl

theorem enter_setMPS (w : World) : (enter w).setMPS drv = (enter (w.setMPS drv).1, (w.setMPS drv).2) := by
  have hrsrc : (enter w).rsrc = w.rsrc := rfl
  unfold setMPS
  split
  · unfold setRegValue
    split
    · rfl
    · rw [hrsrc]
      split <;> rfl
  · rfl

theorem enter_run (w : World) (c : FwCall) : c.run drv (enter w) = enter (c.run drv w) := by
  cases c with
  | other call => rfl
  | setState state =>
    cases state with
    | enable =>
      simp only [FwCall.run, setState, enter_setMPS]
      split
      · exact enter_requestState _ _
      · rfl
    | disable => exact enter_requestState w _
    | disableCompletely => exact enter_requestState w _

theorem enter_calls (cs : List FwCall) (w : World) : (enter w).calls drv cs = enter (w.calls drv cs) := by
  induction cs generalizing w with
  | nil => rfl
  | cons c cs ih =>
    have hrun := ih (c.run drv w)
    rw [← enter_run] at hrun
    exact hrun

/-- All that happens on the way from `w` to `w'`, the flag apart, is a sequence of calls. -/
def IsCalls (drv : Driver) (w w' : World) : Prop := ∃ cs, enter w' = enter (w.calls drv cs)

theorem IsCalls.trans (h : IsCalls drv w w') (h' : IsCalls drv w' w'') : IsCalls drv w w'' := by
  obtain ⟨cs, hcs⟩ := h
  obtain ⟨cs', hcs'⟩ := h'
  refine ⟨cs ++ cs', ?_⟩
  rw [hcs', ← enter_calls, hcs, enter_calls, calls, calls, calls, Runs.run_append]

theorem isCalls_calling (w : World) (t : List Call) : IsCalls drv w (w.calling t) := by
  refine ⟨t.map .other, ?_⟩
  induction t generalizing w with
  | nil =>
    simp only [calling, List.append_nil]
    rfl
  | cons c t ih =>
    have hnext := ih (w.calling [c])
    rw [show (w.calling [c]).calling t = w.calling (c :: t) by
      simp only [calling, List.append_assoc, List.singleton_append]] at hnext
    exact hnext

theorem isCalls_setState (w : World) (state : NvmeState) : IsCalls drv w (w.setState drv state).1 :=
  ⟨[.setState state], rfl⟩

/-- Where nothing but the log differs, the driver has been called. -/
theorem isCalls_of_onlyLog (h : OnlyLog w w') : IsCalls drv w w' := by
  obtain ⟨hobjs, hsize, hres, hrel, hflag, hdis, hlost, t, ht⟩ := h
  have heq : w' = w.calling t := by
    obtain ⟨⟨_, _, _, _⟩, _, _, _, _, _⟩ := w'
    subst hobjs hsize hres hrel hflag hdis hlost ht
    rfl
  rw [heq]
  exact isCalls_calling w t

theorem onlyLog_snapshot (w : World) : OnlyLog w (snapshot drv su w).1 :=
  andThen_inv (P := OnlyLog w) (onlyLog_calling w _) fun _ hv =>
    andThen_inv (P := OnlyLog w) (hv.trans (onlyLog_calling _ _)) fun _ hv' => hv'.trans (onlyLog_calling _ _)

/-! ## What the processing loses -/

/-- dnvme grants the two admin queues. -/
def GrantsAdminQs (drv : Driver) (w : World) : Prop :=
  acqInit.Records drv w.rsrc.log ∧ asqInit.Records drv (acqInit.run drv .new w.rsrc.log).log

/-- The processing does not end the program: no queue without memory dies in the disable, and with `--postfail` the
admin queues get theirs. -/
def Survives (drv : Driver) (su : Setup) (w : World) : Prop :=
  if su.postfail then
    (snapshot drv su w).2 = true → (snapshot drv su w).1.accepts drv .disableCompletely = true →
      (∀ o ∈ w.objs, o.outlives = false → o.canDie = true) ∧
        GrantsAdminQs drv ((snapshot drv su w).1.setState drv .disableCompletely).1
  else w.accepts drv .disableCompletely = true → ∀ o ∈ w.objs, o.outlives = false → o.canDie = true

theorem lost_initAdminQs (drv : Driver) (w : World) :
    (initAdminQs drv w).1.lost = false ↔ w.lost = false ∧ GrantsAdminQs drv w := by
  have hacq : (acqInit.run drv .new w.rsrc.log).threw = false ↔ acqInit.Records drv w.rsrc.log :=
    ((acqInit.outcome .new w.rsrc.log).threw_iff CQ.uninit_new).trans (and_iff_left fun hne => absurd rfl hne)
  have hasq : (asqInit.run drv .new (acqInit.run drv .new w.rsrc.log).log).threw = false ↔
      asqInit.Records drv (acqInit.run drv .new w.rsrc.log).log :=
    ((asqInit.outcome .new (acqInit.run drv .new w.rsrc.log).log).threw_iff SQ.uninit_new).trans
      (and_iff_left fun hne => absurd rfl hne)
  rw [GrantsAdminQs, ← hacq, ← hasq]
  unfold initAdminQs
  dsimp only
  split
  · rename_i hthrew
    simp [hthrew]
  · rename_i hok
    simp [hok]

theorem lost_gatherIntrusive (drv : Driver) (su : Setup) (w : World) :
    (gatherIntrusive drv su w).1.lost = false ↔ w.lost = false ∧ GrantsAdminQs drv w := by
  rw [(onlyLog_gatherIntrusive drv su w).lost]
  exact lost_initAdminQs drv w

/-- **When the world survives the processing.** -/
theorem lost_processing_iff (drv : Driver) (su : Setup) (w : World) :
    (processing drv su w).1.lost = false ↔ w.lost = false ∧ Survives drv su w := by
  have hdisable : ∀ v : World, OnlyLog w v → v.accepts drv .disableCompletely = true →
      ((v.setState drv .disableCompletely).1.lost = false ↔
        w.lost = false ∧ ∀ o ∈ w.objs, o.outlives = false → o.canDie = true) := by
    intro v hv hacc
    rw [lost_disableCompletely hacc, hv.lost, hv.objs]
  unfold processing Survives
  by_cases hpost : su.postfail = true
  · simp only [if_pos hpost, preliminaryProcessing, andThen]
    have hlog : OnlyLog w (snapshot drv su w).1 := onlyLog_snapshot w
    cases hok : (snapshot drv su w).2 with
    | false => simp [hlog.lost]
    | true =>
      have hres := setState_ok drv (snapshot drv su w).1 .disableCompletely nofun
      cases hacc : (snapshot drv su w).1.accepts drv .disableCompletely with
      | false => simp [hres, hacc, (setState_refused hacc).lost, hlog.lost]
      | true =>
        simp only [hres, hacc, if_true, forall_const, lost_gatherIntrusive, hdisable _ hlog hacc, and_assoc]
  · simp only [if_neg hpost]
    cases hacc : w.accepts drv .disableCompletely with
    | false => simp [(setState_refused hacc).lost]
    | true => simpa using hdisable w (.refl w) hacc

/-! ## A construction as calls -/

theorem isCalls_processing (h : (processing drv su w).1.lost = false) : IsCalls drv w (processing drv su w).1 := by
  unfold processing at h ⊢
  split
  · rename_i hpost
    rw [if_pos hpost] at h
    have hsnap : IsCalls drv w (snapshot drv su w).1 := isCalls_of_onlyLog (onlyLog_snapshot w)
    unfold preliminaryProcessing andThen at h ⊢
    split
    · rename_i hok
      rw [if_pos hok] at h
      have hdis : IsCalls drv w ((snapshot drv su w).1.setState drv .disableCompletely).1 :=
        hsnap.trans (isCalls_setState _ _)
      dsimp only at h ⊢
      split
      · rename_i hacc
        rw [if_pos hacc] at h
        have hgather := onlyLog_gatherIntrusive drv su ((snapshot drv su w).1.setState drv .disableCompletely).1
        rw [hgather.lost] at h
        obtain ⟨hlost, -⟩ := (lost_initAdminQs drv _).1 h
        rw [h, ← hlost] at hgather
        exact hdis.trans (isCalls_of_onlyLog hgather)
      · exact hdis
    · exact hsnap
  · exact isCalls_setState w _

/-- **To the store and the objects, the construction of an exception is a sequence of calls**, as the operations on the
meta data buffers take it. -/
theorem isCalls_construct {fuel : Nat} {e : CtorEnd} (h : construct drv su fuel w = some (w', e)) :
    IsCalls drv w w' := by
  induction fuel generalizing w e with
  | zero => cases h
  | succ fuel ih =>
    have hnested : ∀ {v}, IsCalls drv w v →
        ((construct drv su fuel v).map fun r => (r.1, CtorEnd.nested)) = some (w', e) → IsCalls drv w w' := by
      intro v hv hmap
      obtain ⟨⟨v', e'⟩, hv', heq⟩ := Option.map_eq_some_iff.1 hmap
      cases heq
      exact hv.trans (ih hv')
    have hmark : IsCalls drv w (w.ioctl drv startMark) := isCalls_calling w _
    have henter : IsCalls drv w (enter (w.ioctl drv startMark)) := hmark.trans ⟨[], rfl⟩
    simp only [construct] at h
    split at h
    · exact hnested hmark h
    · unfold process at h
      split at h
      · cases h
        exact hmark
      · simp only [disableDevice] at h
        split at h
        · cases h
        · rename_i hlives
          have hproc := henter.trans (isCalls_processing (Bool.eq_false_iff.2 hlives))
          split at h
          · cases h
            split
            · exact hproc.trans (isCalls_setState _ _)
            · exact hproc
          · exact hnested hproc h

end FrmwkEx

end Tnvme
