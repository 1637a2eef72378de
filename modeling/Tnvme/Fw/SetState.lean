import Tnvme.Fw.World

/-!
# What `SetState` does to the world

A disable that the driver accepts frees the store and the objects (`Freed`); any other call of the driver changes
nothing but the log (`OnlyLog`). `FwCall` is what goes on between framework and driver apart from the meta data
buffers, above all in the constructor of an exception. `lost_calls_iff` says when the world survives such calls.
-/

namespace Tnvme

namespace World

/-- The driver accepts the request, and it is one for a disable. -/
def accepts (drv : Driver) (w : World) (state : NvmeState) : Bool :=
  state != .enable && 0 ≤ drv.ioctl w.rsrc.log (.deviceState state)

/-- Nothing but the log differs. -/
structure OnlyLog (w w' : World) : Prop where
  objs : w'.objs = w.objs
  size : w'.rsrc.mMetaAllocSize = w.rsrc.mMetaAllocSize
  reserved : w'.rsrc.mMetaReserved = w.rsrc.mMetaReserved
  released : w'.rsrc.mMetaReleased = w.rsrc.mMetaReleased
  flag : w'.mPrelimProcessingInProgress = w.mPrelimProcessingInProgress
  disables : w'.disables = w.disables
  lost : w'.lost = w.lost
  log : ∃ t, w'.rsrc.log = w.rsrc.log ++ t

/-- A disable has happened. -/
structure Freed (w w' : World) : Prop where
  objs : ∃ keep : ObjType → Bool, (∀ t, keep t = true → t.isAdminQ = true) ∧
    w'.objs = (w.objs.filter fun o => keep o.objType || o.outlives).map fun o =>
      if keep o.objType then o else { o with lookupName := none }
  size : w'.rsrc.mMetaAllocSize = 0
  reserved : w'.rsrc.mMetaReserved = []
  released : w'.rsrc.mMetaReleased = []
  flag : w'.mPrelimProcessingInProgress = w.mPrelimProcessingInProgress
  disables : w'.disables = w.disables + 1
  log : ∃ t, w'.rsrc.log = w.rsrc.log ++ t

variable {drv : Driver} {w w' w'' : World}

theorem OnlyLog.refl (w : World) : OnlyLog w w := ⟨rfl, rfl, rfl, rfl, rfl, rfl, rfl, longer_refl w.rsrc.log⟩

theorem OnlyLog.trans (h : OnlyLog w w') (h' : OnlyLog w' w'') : OnlyLog w w'' where
  objs := h'.objs.trans h.objs
  size := h'.size.trans h.size
  reserved := h'.reserved.trans h.reserved
  released := h'.released.trans h.released
  flag := h'.flag.trans h.flag
  disables := h'.disables.trans h.disables
  lost := h'.lost.trans h.lost
  log := longer_trans h.log h'.log

theorem onlyLog_calling (w : World) (t : List Call) : OnlyLog w (w.calling t) :=
  ⟨rfl, rfl, rfl, rfl, rfl, rfl, rfl, t, rfl⟩

theorem onlyLog_ioctl (w : World) (req : Ioctl) : OnlyLog w (w.ioctl drv req) := onlyLog_calling w _

theorem onlyLog_read (w : World) (reg : Reg) : OnlyLog w (w.read drv reg) := onlyLog_calling w _

theorem onlyLog_write (w : World) (reg : Reg) (value : Nat) : OnlyLog w (w.write drv reg value) := onlyLog_calling w _

/-! ## Destructors -/

theorem unmap_spec (w : World) (q : Queue) : (w.unmap q).mPrelimProcessingInProgress = w.mPrelimProcessingInProgress ∧
    (w.unmap q).lost = (w.lost || q.getIsContig.isNone) ∧
      ∃ t, (w.unmap q).rsrc = { w.rsrc with log := w.rsrc.log ++ t } := by
  unfold unmap
  cases q.getIsContig with
  | none => exact ⟨rfl, (Bool.or_true _).symm, [], by rw [List.append_nil]⟩
  | some contig =>
    cases contig with
    | true => exact ⟨rfl, (Bool.or_false _).symm, _, rfl⟩
    | false => exact ⟨rfl, (Bool.or_false _).symm, [], by rw [List.append_nil]⟩

/-- A destructor moves a buffer between the lists, and may unmap memory. -/
theorem dtor_spec (drv : Driver) (w : World) (o : Obj) :
    (w.dtor drv o).mPrelimProcessingInProgress = w.mPrelimProcessingInProgress ∧
      (w.dtor drv o).lost = (w.lost || !o.canDie) ∧
      ∃ t, (w.dtor drv o).rsrc =
        { (MetaRsrc.releaseMetaBuf o.mMetaData w.rsrc) with log := w.rsrc.log ++ t } := by
  have hlog := MetaRsrc.releaseMetaBuf_log o.mMetaData w.rsrc
  unfold dtor
  cases hqueue : o.objType.isQueue with
  | true =>
    obtain ⟨hflag, hlost, t, hrsrc⟩ := unmap_spec (w.store drv (.releaseMetaBuf o.mMetaData)) o.mQueue
    refine ⟨hflag, hlost.trans ?_, t, hrsrc.trans ?_⟩
    · rw [Obj.canDie, hqueue, Bool.not_true, Bool.false_or, Option.not_isSome]
      rfl
    · rw [← hlog]
      rfl
  | false =>
    refine ⟨rfl, ?_, [], ?_⟩
    · rw [Obj.canDie, hqueue, Bool.not_false, Bool.true_or]
      exact (Bool.or_false _).symm
    · rw [List.append_nil, ← hlog]
      rfl

theorem dtors_spec (drv : Driver) (l : List Obj) (w : World) :
    (l.foldl (fun w o => w.dtor drv o) w).mPrelimProcessingInProgress = w.mPrelimProcessingInProgress ∧
      (l.foldl (fun w o => w.dtor drv o) w).lost = (w.lost || l.any (!·.canDie)) ∧
      ∃ t, (l.foldl (fun w o => w.dtor drv o) w).rsrc.log = w.rsrc.log ++ t := by
  induction l generalizing w with
  | nil => exact ⟨rfl, (Bool.or_false _).symm, longer_refl _⟩
  | cons o l ih =>
    obtain ⟨hflag, hlost, hlog⟩ := ih (w.dtor drv o)
    obtain ⟨hflag', hlost', t, hrsrc⟩ := dtor_spec drv w o
    refine ⟨hflag.trans hflag', hlost.trans ?_, longer_trans ⟨t, by rw [hrsrc]⟩ hlog⟩
    rw [hlost', List.any_cons, Bool.or_assoc]

/-! ## Erasing from the map -/

variable {o : Obj}

theorem mem_put {p : Obj} (o : Obj) (h : p ∈ (w.put o).objs) : p = o ∨ p ∈ w.objs ∧ p.handle ≠ o.handle := by
  obtain ⟨q, hq, rfl⟩ := List.mem_map.1 h
  by_cases hqo : q.handle = o.handle
  · exact Or.inl (if_pos hqo)
  · rw [if_neg hqo]
    exact Or.inr ⟨hq, hqo⟩

theorem mem_byName : o ∈ w.byName ↔ o ∈ w.mObjGrpLife := List.mem_insertionSort _

/-- What has been erased is no longer in the map. -/
theorem not_mem_erase (h : o.lookupName.isSome = true) : o ∉ (w.erase drv o).mObjGrpLife := by
  intro hmem
  obtain ⟨hobjs, _⟩ := List.mem_filter.1 hmem
  unfold erase at hobjs
  split at hobjs
  · rcases mem_put _ hobjs with heq | ⟨_, hne⟩
    · rw [heq] at h
      cases h
    · exact hne rfl
  · have hobjs' : o ∈ w.objs.filter (·.handle != o.handle) := hobjs
    simp at hobjs'

/-- **The loop gets through exactly if it has nothing to erase.** -/
theorem eraseLoop_eq_some_iff {l : List Obj} (hl : ∀ o ∈ l, o ∈ w.mObjGrpLife) {v : World} :
    w.eraseLoop drv l = some v ↔ v = w ∧ ∀ o ∈ l, o.objType.isAdminQ = true := by
  induction l with
  | nil => simpa [eraseLoop] using eq_comm
  | cons o l ih =>
    have ho := hl o List.mem_cons_self
    have hname : o.lookupName.isSome = true := (List.mem_filter.1 ho).2
    rw [List.forall_mem_cons]
    by_cases hadmin : o.objType.isAdminQ = true
    · simp only [eraseLoop, hadmin, if_true, if_pos ho, true_and]
      exact ih fun p hp => hl p (List.mem_cons_of_mem o hp)
    · have hgone : o ∉ (w.erase drv o).mObjGrpLife := not_mem_erase hname
      simp [eraseLoop, hadmin, hgone]

theorem eraseLoop_byName_iff {v : World} :
    w.eraseLoop drv w.byName = some v ↔ v = w ∧ ∀ o ∈ w.mObjGrpLife, o.objType.isAdminQ = true := by
  rw [eraseLoop_eq_some_iff fun o => mem_byName.1]
  exact and_congr_right' ⟨fun h o ho => h o (mem_byName.2 ho), fun h o ho => h o (mem_byName.1 ho)⟩

/-- With nothing to erase, the loop leaves everything. -/
theorem freeAllObjNotASQACQ_eq (h : ∀ o ∈ w.mObjGrpLife, o.objType.isAdminQ = true) :
    w.freeAllObjNotASQACQ drv = w := by
  rw [freeAllObjNotASQACQ, eraseLoop_byName_iff.2 ⟨rfl, h⟩, Option.getD_some]

theorem freeAllObjNotASQACQ_lost (h : ¬∀ o ∈ w.mObjGrpLife, o.objType.isAdminQ = true) :
    w.freeAllObjNotASQACQ drv = { w.freeObjs drv ObjType.isAdminQ with lost := true } := by
  have hnone : w.eraseLoop drv w.byName = none := by
    cases hloop : w.eraseLoop drv w.byName with
    | none => rfl
    | some v => exact absurd (eraseLoop_byName_iff.1 hloop).2 h
  rw [freeAllObjNotASQACQ, hnone, Option.getD_none]

/-- With nothing to erase, what is to be left is what there is. -/
theorem objs_of_adminQs (h : ∀ o ∈ w.mObjGrpLife, o.objType.isAdminQ = true) :
    (w.objs.filter fun o => o.objType.isAdminQ || o.outlives).map (fun o =>
      if o.objType.isAdminQ then o else { o with lookupName := none }) = w.objs := by
  have hstays : ∀ o ∈ w.objs, (o.objType.isAdminQ || o.outlives) = true := by
    intro o ho
    cases hname : o.lookupName with
    | none => simp [Obj.outlives, hname]
    | some lookupName =>
      rw [h o (List.mem_filter.2 ⟨ho, by simp [hname]⟩), Bool.true_or]
  rw [List.filter_eq_self.2 hstays]
  refine (List.map_congr_left fun o ho => ?_).trans w.objs.map_id
  split
  · rfl
  · rename_i hadmin
    cases hname : o.lookupName with
    | none => simp [← hname]
    | some lookupName => exact absurd (h o (List.mem_filter.2 ⟨ho, by simp [hname]⟩)) hadmin

/-! ## Disables -/

theorem freed_of_objs {v : World} {keep : ObjType → Bool} (hkeep : ∀ t, keep t = true → t.isAdminQ = true)
    (hobjs : v.objs = (w.objs.filter fun o => keep o.objType || o.outlives).map fun o =>
      if keep o.objType then o else { o with lookupName := none })
    (hflag : v.mPrelimProcessingInProgress = w.mPrelimProcessingInProgress)
    (hlog : ∃ t, v.rsrc.log = w.rsrc.log ++ t) :
    Freed w { v.store drv .freeAllMetaBuf with disables := w.disables + 1 } := by
  obtain ⟨_, hres, hrel, hsize, t, hfree⟩ := MetaRsrc.step_freeAll drv v.wf
  exact ⟨⟨keep, hkeep, hobjs⟩, hsize, hres, hrel, hflag, rfl, longer_trans hlog ⟨t, hfree⟩⟩

theorem freed_update (w : World) {state : NvmeState} (h : state ≠ .enable) : Freed w (w.update drv state) := by
  have hfree (keep : ObjType → Bool) :
      (w.freeObjs drv keep).mPrelimProcessingInProgress = w.mPrelimProcessingInProgress ∧
        ∃ t, (w.freeObjs drv keep).rsrc.log = w.rsrc.log ++ t := by
    obtain ⟨hflag, -, hlog⟩ := dtors_spec drv (w.objs.filter fun o => !(keep o.objType || o.outlives)) w
    exact ⟨hflag, hlog⟩
  cases state with
  | enable => exact absurd rfl h
  | disable =>
    obtain ⟨hflag, hlog⟩ := hfree ObjType.isAdminQ
    by_cases honly : ∀ o ∈ w.mObjGrpLife, o.objType.isAdminQ = true
    · rw [update, freeAllObjNotASQACQ_eq honly]
      exact freed_of_objs (fun _ ht => ht) (objs_of_adminQs honly).symm rfl (longer_refl _)
    · rw [update, freeAllObjNotASQACQ_lost honly]
      exact freed_of_objs (fun _ ht => ht) rfl hflag hlog
  | disableCompletely =>
    obtain ⟨hflag, hlog⟩ := hfree fun _ => false
    have hkeep : ∀ t : ObjType, (fun _ => false) t = true → t.isAdminQ = true := by
      intro t ht
      cases ht
    exact freed_of_objs hkeep rfl hflag hlog

/-- What was only logged before a disable does not matter. -/
theorem Freed.after (h' : Freed w' w'') (h : OnlyLog w w') : Freed w w'' where
  objs := by
    obtain ⟨keep, hkeep, hobjs⟩ := h'.objs
    exact ⟨keep, hkeep, by rw [hobjs, h.objs]⟩
  size := h'.size
  reserved := h'.reserved
  released := h'.released
  flag := h'.flag.trans h.flag
  disables := by rw [h'.disables, h.disables]
  log := longer_trans h.log h'.log

/-- A disable that the driver accepts is passed on to the resource manager. -/
theorem setState_update {state : NvmeState} (h : w.accepts drv state = true) :
    state ≠ .enable ∧ (w.setState drv state).1 = (w.ioctl drv (.deviceState state)).update drv state := by
  simp only [accepts, Bool.and_eq_true, bne_iff_ne, decide_eq_true_eq] at h
  obtain ⟨hne, hrc⟩ := h
  have hreq : (w.requestState drv state).1 = (w.ioctl drv (.deviceState state)).update drv state := by
    rw [requestState, if_neg (by omega)]
  cases state with
  | enable => exact absurd rfl hne
  | disable => exact ⟨hne, hreq⟩
  | disableCompletely => exact ⟨hne, hreq⟩

theorem setState_accepted {state : NvmeState} (h : w.accepts drv state = true) : Freed w (w.setState drv state).1 := by
  obtain ⟨hne, hupdate⟩ := setState_update h
  rw [hupdate]
  exact (freed_update _ hne).after (onlyLog_ioctl w _)

/-- A disable succeeds if the driver accepts it. -/
theorem setState_ok (drv : Driver) (w : World) (state : NvmeState) (h : state ≠ .enable) :
    (w.setState drv state).2 = w.accepts drv state := by
  have hreq : (w.requestState drv state).2 = w.accepts drv state := by
    have hne : (state != .enable) = true := bne_iff_ne.2 h
    simp only [requestState, accepts, hne, Bool.true_and]
    split
    · exact (decide_eq_false (by omega)).symm
    · exact (decide_eq_true (by omega)).symm
  cases state with
  | enable => exact absurd rfl h
  | disable => exact hreq
  | disableCompletely => exact hreq

theorem onlyLog_setRegValue (w : World) (value valueMask : UInt8) (regMask bitShift : UInt32) :
    OnlyLog w (w.setRegValue drv value valueMask regMask bitShift).1 := by
  unfold setRegValue
  split
  · exact .refl w
  · split
    · exact onlyLog_read w _
    · exact (onlyLog_read w _).trans (onlyLog_write _ _ _)

theorem onlyLog_setMPS (w : World) : OnlyLog w (w.setMPS drv).1 := by
  unfold setMPS
  split
  · exact onlyLog_setRegValue w _ _ _ _
  · exact .refl w

/-- A request that the driver refuses, or one to enable the device, changes nothing. -/
theorem onlyLog_requestState {state : NvmeState} (h : w.accepts drv state = false) :
    OnlyLog w (w.requestState drv state).1 := by
  unfold requestState
  split
  · exact (onlyLog_ioctl w _).trans (onlyLog_read _ _)
  · cases state with
    | enable => exact onlyLog_ioctl w _
    | disable => simp [accepts] at h; omega
    | disableCompletely => simp [accepts] at h; omega

theorem setState_refused {state : NvmeState} (h : w.accepts drv state = false) :
    OnlyLog w (w.setState drv state).1 := by
  cases state with
  | enable =>
    by_cases hmps : (w.setMPS drv).2 = true
    · rw [setState, if_pos hmps]
      exact (onlyLog_setMPS w).trans (onlyLog_requestState rfl)
    · rw [setState, if_neg hmps]
      exact onlyLog_setMPS w
  | disable => exact onlyLog_requestState h
  | disableCompletely => exact onlyLog_requestState h

end World

/-! ## Sequences of calls -/

/-- A call of `SetState`, or some other call of the driver. -/
inductive FwCall where
  | setState (state : NvmeState)
  | other (call : Call)
  deriving DecidableEq, Repr

namespace FwCall

variable (drv : Driver)

def run (w : World) : FwCall → World
  | setState state => (w.setState drv state).1
  | other call => w.calling [call]

/-- A complete disable that the driver accepts destroys only what can be destroyed, and a mere one finds nothing to
erase. -/
def Survives (w : World) : FwCall → Prop
  | setState .disableCompletely => w.accepts drv .disableCompletely = true →
      ∀ o ∈ w.objs, o.outlives = false → o.canDie = true
  | setState .disable => w.accepts drv .disable = true → ∀ o ∈ w.mObjGrpLife, o.objType.isAdminQ = true
  | _ => True

/-- The call is a disable that the driver accepts. -/
def disables (w : World) : FwCall → Bool
  | setState state => w.accepts drv state
  | other _ => false

end FwCall

namespace World

variable (drv : Driver)

def calls (cs : List FwCall) (w : World) : World := Runs.run (FwCall.run drv) w cs

/-- One of the calls is a disable that the driver accepts. -/
def callsDisable : List FwCall → World → Bool
  | [], _ => false
  | c :: cs, w => c.disables drv w || callsDisable cs (c.run drv w)

variable {drv} {w w' w'' : World}

theorem onlyLog_run {c : FwCall} (h : c.disables drv w = false) : OnlyLog w (c.run drv w) := by
  cases c with
  | setState state => exact setState_refused h
  | other call => exact onlyLog_calling w _

theorem freed_run {c : FwCall} (h : c.disables drv w = true) : Freed w (c.run drv w) := by
  cases c with
  | setState state => exact setState_accepted h
  | other call => cases h

/-- What a complete disable loses. -/
theorem lost_disableCompletely (h : w.accepts drv .disableCompletely = true) :
    (w.setState drv .disableCompletely).1.lost = false ↔
      w.lost = false ∧ ∀ o ∈ w.objs, o.outlives = false → o.canDie = true := by
  obtain ⟨-, hlost, -⟩ := dtors_spec drv (w.objs.filter fun o => !(false || o.outlives))
    (w.ioctl drv (.deviceState .disableCompletely))
  have hfreed : (w.setState drv .disableCompletely).1.lost =
      ((w.objs.filter fun o => !(false || o.outlives)).foldl (fun w o => w.dtor drv o)
        (w.ioctl drv (.deviceState .disableCompletely))).lost := by
    rw [(setState_update h).2]
    rfl
  rw [hfreed, hlost, Bool.or_eq_false_iff]
  refine and_congr_right fun _ => ?_
  simp [List.any_eq_false]

/-- What a mere disable loses. -/
theorem lost_disable (h : w.accepts drv .disable = true) : (w.setState drv .disable).1.lost = false ↔
    w.lost = false ∧ ∀ o ∈ w.mObjGrpLife, o.objType.isAdminQ = true := by
  rw [(setState_update h).2, update]
  by_cases honly : ∀ o ∈ (w.ioctl drv (.deviceState .disable)).mObjGrpLife, o.objType.isAdminQ = true
  · rw [freeAllObjNotASQACQ_eq honly]
    exact (and_iff_left honly).symm
  · rw [freeAllObjNotASQACQ_lost honly]
    exact iff_of_false (fun h => absurd h.symm Bool.false_ne_true) fun hall => honly hall.2

theorem lost_run_iff (c : FwCall) : (c.run drv w).lost = false ↔ w.lost = false ∧ c.Survives drv w := by
  cases hc : c.disables drv w with
  | false =>
    have hsurvives : c.Survives drv w := by
      cases c with
      | other call => trivial
      | setState state =>
        have hrefused : w.accepts drv state = false := hc
        cases state with
        | enable => trivial
        | disable => exact fun hacc => absurd (hrefused.symm.trans hacc) Bool.false_ne_true
        | disableCompletely => exact fun hacc => absurd (hrefused.symm.trans hacc) Bool.false_ne_true
    rw [(onlyLog_run hc).lost, and_iff_left hsurvives]
  | true =>
    cases c with
    | other call => cases hc
    | setState state =>
      have hacc : w.accepts drv state = true := hc
      cases state with
      | enable => cases hacc
      | disable =>
        exact (lost_disable hacc).trans (and_congr_right' ⟨fun h _ => h, fun h => h hacc⟩)
      | disableCompletely =>
        exact (lost_disableCompletely hacc).trans (and_congr_right' ⟨fun h _ => h, fun h => h hacc⟩)

/-- **The world survives calls exactly if it survives each of them.** -/
theorem lost_calls_iff (cs : List FwCall) : (w.calls drv cs).lost = false ↔
    w.lost = false ∧ ∀ x ∈ Runs.steps (FwCall.run drv) w cs, x.2.Survives drv x.1 := by
  induction cs generalizing w with
  | nil => exact (and_iff_left fun x hx => absurd hx List.not_mem_nil).symm
  | cons c cs ih =>
    rw [Runs.steps, List.forall_mem_cons, ← and_assoc, ← lost_run_iff]
    exact ih

/-- The log only gets longer, and the flag stays. -/
structure Frame (w w' : World) : Prop where
  log : ∃ t, w'.rsrc.log = w.rsrc.log ++ t
  flag : w'.mPrelimProcessingInProgress = w.mPrelimProcessingInProgress

theorem Frame.refl (w : World) : Frame w w := ⟨longer_refl w.rsrc.log, rfl⟩

theorem Frame.trans (h : Frame w w') (h' : Frame w' w'') : Frame w w'' :=
  ⟨longer_trans h.log h'.log, h'.flag.trans h.flag⟩

theorem frame_run (drv : Driver) (w : World) (c : FwCall) : Frame w (c.run drv w) := by
  cases hc : c.disables drv w with
  | true => exact ⟨(freed_run hc).log, (freed_run hc).flag⟩
  | false => exact ⟨(onlyLog_run hc).log, (onlyLog_run hc).flag⟩

theorem frame_calls (drv : Driver) (w : World) (cs : List FwCall) : Frame w (w.calls drv cs) :=
  Runs.inv_run (fun v c hv => hv.trans (frame_run drv v c)) (.refl w) cs

theorem onlyLog_calls {cs : List FwCall} (h : w.callsDisable drv cs = false) : OnlyLog w (w.calls drv cs) := by
  induction cs generalizing w with
  | nil => exact .refl w
  | cons c cs ih =>
    obtain ⟨hc, hcs⟩ := Bool.or_eq_false_iff.1 h
    exact (onlyLog_run hc).trans (ih hcs)

end World

end Tnvme
