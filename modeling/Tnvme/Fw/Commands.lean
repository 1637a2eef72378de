import Tnvme.Fw.SetState

/-!
# Commands and their meta data buffers

`AllocMetaBuffer`, `SetMetaDataPattern` and `SQ::Send` work on the copy of the buffer that a command keeps, and `Init`
gives a queue its memory. `Op` is one operation of the tests and the framework, in any order; `step` carries it out.

The constructor of an exception disables the device, if it can, before anybody sees the exception. What it calls when
`AllocMetaBuffer` throws comes with that operation; the calls of other exceptions follow theirs.

`lost_step_iff` says when the world survives an operation.
-/

namespace Tnvme

namespace Obj

variable (o : Obj)

/-- `GetMetaBitmask() == MASK_MPTR` -/
def getMetaBitmask : Bool := o.mMetaData != .default

/-- Where `SetMetaDataPattern` writes, if it does. The sum of the `uint32_t` wraps. -/
def patternPtr (offset length : Nat) : Option Ptr :=
  if o.mMetaData.buf = .null then none
  else
    let length := if length = 2 ^ 32 - 1 then o.mMetaData.size else length
    if (length + offset) % 2 ^ 32 > o.mMetaData.size then none else some o.mMetaData.buf

end Obj

namespace World

variable (drv : Driver) (w : World)

/-- `ReserveMetaBuf(mMetaData)`, and whether it succeeds; a failed one leaves its marks in `mMetaData`. -/
def reserve (o : Obj) : World × Bool :=
  let r := w.rsrc.reserveMetaBuf drv o.mMetaData
  ((w.store drv (.reserveMetaBuf o.mMetaData)).put { o with
      mMetaData := r.2.1
      allocated := if r.2.2 = .reserved then some w.disables else o.allocated },
    r.2.2 == .reserved)

/-- The world in which `AllocMetaBuffer` is done or throws, and whether it is done. -/
def allocMetaBuffer (o : Obj) : World × Bool := if o.dataDir = .none then (w, false) else w.reserve drv o

/-- `SQ::Send`; the status is only read for a warning. -/
def send (o : Obj) (qId : Nat) : World :=
  (w.read drv .ctlspcCsts).ioctl drv (.send64BCmd qId o.getMetaBitmask o.mMetaData.ID)

/-- The arguments of an `Init`. -/
inductive QInit where
  | cq (i : CQInit)
  | sq (i : SQInit)
  deriving DecidableEq, Repr

namespace QInit

/-- The class has this `Init`. -/
def fits : QInit → ObjType → Bool
  | cq _, .acq | cq _, .iocq | sq _, .asq | sq _, .iosq => true
  | _, _ => false

/-- The queue and the log that are left. What a class has besides its queue is overwritten, or does not matter. -/
def run (q : Queue) (log : List Call) : QInit → Queue × List Call
  | cq i =>
    let r := i.run drv { CQ.new with toQueue := q } log
    (r.obj.toQueue, r.log)
  | sq i =>
    let r := i.run drv { SQ.new with toQueue := q } log
    (r.obj.toQueue, r.log)

end QInit

def initQ (o : Obj) (args : QInit) : World :=
  let r := args.run drv o.mQueue w.rsrc.log
  (w.withLog r.2).put { o with mQueue := r.1 }

/-- `ctor` is what the constructor of the exception calls, if there is one. -/
inductive Op where
  | newObj (handle : Nat) (objType : ObjType) (dataDir : DataDir)
  | allocObj (handle : Nat) (objType : ObjType) (lookupName : String) (dataDir : DataDir)
  | getObj (lookupName : String)
  | drop (handle : Nat)
  | init (handle : Nat) (args : QInit)
  | allocMetaBuffer (handle : Nat) (ctor : List FwCall)
  | setMetaAllocSize (allocSize : Nat)
  | setMetaDataPattern (handle offset length : Nat)
  | send (handle qId : Nat)
  | call (c : FwCall)
  deriving DecidableEq, Repr

/-- The command at an address. -/
def cmd (handle : Nat) : Option Obj := (w.obj handle).filter (·.objType.isCmd)

def step (w : World) : Op → World
  | .newObj handle objType dataDir => w.newObj handle objType dataDir
  | .allocObj handle objType lookupName dataDir => w.allocObj handle objType lookupName dataDir
  | .getObj lookupName => w.getObj lookupName
  | .drop handle => w.drop drv handle
  | .init handle args =>
    match w.obj handle with
    | none => w
    | some o => if args.fits o.objType then w.initQ drv o args else w
  | .allocMetaBuffer handle ctor =>
    match w.cmd handle with
    | none => w
    | some o =>
      if (w.allocMetaBuffer drv o).2 then (w.allocMetaBuffer drv o).1 else (w.allocMetaBuffer drv o).1.calls drv ctor
  | .setMetaAllocSize allocSize => w.store drv (.setMetaAllocSize allocSize)
  -- the contents of the buffers are not followed
  | .setMetaDataPattern _ _ _ => w
  | .send handle qId =>
    match w.cmd handle with
    | none => w
    | some o => w.send drv o qId
  | .call c => c.run drv w

/-- The world survives the operation: no queue without memory is destroyed, and no loop loses its iterator. -/
def Survives (w : World) : Op → Prop
  | .allocObj handle objType lookupName _ => objType.isQueue = true → lookupName ≠ "" → w.obj handle = none →
      ∀ o ∈ w.objs, o.lookupName ≠ some lookupName
  | .drop handle => ∀ o, w.obj handle = some o → o.lookupName = none → o.canDie = true
  | .allocMetaBuffer handle ctor => ∀ o, w.cmd handle = some o →
      o.dataDir = .none ∨ w.rsrc.canReserve drv = false →
        ∀ x ∈ Runs.steps (FwCall.run drv) (w.allocMetaBuffer drv o).1 ctor, x.2.Survives drv x.1
  | .call c => c.Survives drv w
  | _ => True

/-! ## What one operation does -/

/-- What a failed `ReserveMetaBuf` leaves in the record that it is given. -/
def left (o : Obj) : MetaDataBuf :=
  ⟨o.mMetaData.buf, w.rsrc.mMetaAllocSize, (SortedKeys.gap MetaDataBuf.ID 0 w.rsrc.mMetaReserved).1⟩

/-- What one call of `reserve` can do. -/
inductive ReserveStep (w w' : World) (o : Obj) : Bool → Prop
  | reserved (b : MetaDataBuf) : w'.objs = (w.put { o with mMetaData := b, allocated := some w.disables }).objs →
      b ∈ w'.rsrc.mMetaReserved → (∀ c ∈ w.rsrc.mMetaReserved, c ∈ w'.rsrc.mMetaReserved ∧ c.ID ≠ b.ID) →
      w'.disables = w.disables → ReserveStep w w' o true
  | failed : w'.objs = (w.put { o with mMetaData := w.left o }).objs →
      w'.rsrc.mMetaReserved = w.rsrc.mMetaReserved → w'.disables = w.disables → ReserveStep w w' o false

/-- Nothing happens to the reserved buffers, and the objects keep theirs; new objects have none. -/
structure Quiet (w w' : World) : Prop where
  handles : (w.objs.map (·.handle)).Nodup → (w'.objs.map (·.handle)).Nodup
  objs : ∀ o' ∈ w'.objs, o'.mMetaData = .default ∧ o'.allocated = none ∨ ∃ o ∈ w.objs, o'.handle = o.handle ∧
    o'.objType = o.objType ∧ o'.mMetaData = o.mMetaData ∧ o'.allocated = o.allocated
  reserved : w'.rsrc.mMetaReserved = w.rsrc.mMetaReserved
  disables : w'.disables = w.disables

variable {drv : Driver} {w w' : World} {handle : Nat} {o : Obj}

theorem obj_some (h : w.obj handle = some o) : o ∈ w.objs ∧ o.handle = handle :=
  ⟨List.mem_of_find?_eq_some h, by simpa using List.find?_some h⟩

theorem obj_none (h : w.obj handle = none) : ∀ p ∈ w.objs, p.handle ≠ handle := by
  intro p hp
  simpa using List.find?_eq_none.1 h p hp

theorem cmd_some (h : w.cmd handle = some o) : w.obj handle = some o ∧ o.objType.isCmd = true :=
  Option.filter_eq_some_iff.1 h

theorem handles_put (w : World) (o : Obj) : (w.put o).objs.map (·.handle) = w.objs.map (·.handle) := by
  rw [put, List.map_map]
  refine List.map_congr_left fun p _ => ?_
  by_cases hpo : p.handle = o.handle
  · simp [hpo]
  · simp [hpo]

theorem reserve_step (drv : Driver) (w : World) (o : Obj) :
    ReserveStep w (w.reserve drv o).1 o (w.reserve drv o).2 := by
  have hstep := MetaRsrc.reserveMetaBuf_step drv o.mMetaData w.rsrc
  have hrsrc : (w.reserve drv o).1.rsrc = (w.rsrc.reserveMetaBuf drv o.mMetaData).1 := rfl
  have hobjs : (w.reserve drv o).1.objs = (w.put { o with
      mMetaData := (w.rsrc.reserveMetaBuf drv o.mMetaData).2.1
      allocated := if (w.rsrc.reserveMetaBuf drv o.mMetaData).2.2 = .reserved then some w.disables
        else o.allocated }).objs := rfl
  have hret : (w.reserve drv o).2 = ((w.rsrc.reserveMetaBuf drv o.mMetaData).2.2 == .reserved) := rfl
  have hdis : (w.reserve drv o).1.disables = w.disables := rfl
  generalize w.reserve drv o = out at hrsrc hobjs hret hdis ⊢
  generalize w.rsrc.reserveMetaBuf drv o.mMetaData = res at hstep hrsrc hobjs hret
  obtain ⟨s', b, r⟩ := res
  simp only at hstep hrsrc hobjs hret
  by_cases hr : r = .reserved
  · subst hr
    obtain ⟨hb, hmem⟩ := hstep.mem_reserved w.wf
    rw [hret]
    exact .reserved b hobjs (hrsrc ▸ hb) (hrsrc ▸ hmem) hdis
  · obtain ⟨⟨hres, -⟩, hm⟩ := hstep.of_ne hr
    rw [if_neg hr, hm] at hobjs
    rw [hret, beq_eq_false_iff_ne.2 hr]
    exact .failed hobjs (by rw [hrsrc, hres]) hdis

theorem reserve_iff (drv : Driver) (w : World) (o : Obj) : (w.reserve drv o).2 = w.rsrc.canReserve drv := by
  rw [Bool.eq_iff_iff, ← MetaRsrc.reserveMetaBuf_iff drv o.mMetaData]
  exact beq_iff_eq

/-- When `AllocMetaBuffer` is done. -/
theorem allocMetaBuffer_iff (drv : Driver) (w : World) (o : Obj) :
    (w.allocMetaBuffer drv o).2 = true ↔ ¬(o.dataDir = .none ∨ w.rsrc.canReserve drv = false) := by
  unfold allocMetaBuffer
  by_cases hdir : o.dataDir = .none
  · simp [hdir]
  · simp [hdir, reserve_iff]

theorem QInit.longer (drv : Driver) (q : Queue) (log : List Call) (args : QInit) :
    ∃ t, (args.run drv q log).2 = log ++ t := by
  cases args with
  | cq i => exact (i.outcome { CQ.new with toQueue := q } log).longer
  | sq i => exact (i.outcome { SQ.new with toQueue := q } log).longer

/-! ## The frame of an operation -/

theorem frame_newObj (w : World) (handle : Nat) (objType : ObjType) (dataDir : DataDir) :
    Frame w (w.newObj handle objType dataDir) := by
  unfold newObj
  split <;> exact ⟨longer_refl _, rfl⟩

theorem frame_allocObj (w : World) (handle : Nat) (objType : ObjType) (lookupName : String) (dataDir : DataDir) :
    Frame w (w.allocObj handle objType lookupName dataDir) := by
  unfold allocObj
  repeat' split
  all_goals exact ⟨longer_refl _, rfl⟩

theorem frame_store (drv : Driver) (w : World) (op : MetaRsrc.StoreOp) : Frame w (w.store drv op) :=
  ⟨MetaRsrc.step_log drv w.wf op, rfl⟩

theorem frame_destroy (drv : Driver) (w : World) (o : Obj) : Frame w (w.destroy drv o) := by
  obtain ⟨hflag, -, t, hrsrc⟩ := dtor_spec drv w o
  exact ⟨⟨t, congrArg MetaRsrc.log hrsrc⟩, hflag⟩

theorem reserved_destroy (drv : Driver) (w : World) (o : Obj) :
    (w.destroy drv o).rsrc.mMetaReserved = (MetaRsrc.releaseMetaBuf o.mMetaData w.rsrc).mMetaReserved := by
  obtain ⟨-, -, t, hrsrc⟩ := dtor_spec drv w o
  change (w.dtor drv o).rsrc.mMetaReserved = _
  rw [hrsrc]

theorem disables_destroy (drv : Driver) (w : World) (o : Obj) : (w.destroy drv o).disables = w.disables := by
  have hunmap : ∀ (v : World) (q : Queue), (v.unmap q).disables = v.disables := by
    intro v q
    unfold unmap
    split <;> rfl
  change (w.dtor drv o).disables = w.disables
  unfold dtor
  split
  · exact hunmap _ _
  · rfl

theorem frame_allocMetaBuffer (drv : Driver) (w : World) (o : Obj) : Frame w (w.allocMetaBuffer drv o).1 := by
  unfold allocMetaBuffer
  split
  · exact .refl w
  · exact ⟨MetaRsrc.step_log drv w.wf _, rfl⟩

/-- **Every operation only makes the log longer, and leaves the flag.** -/
theorem frame_step (drv : Driver) (w : World) (op : Op) : Frame w (w.step drv op) := by
  cases op with
  | newObj handle objType dataDir => exact frame_newObj w handle objType dataDir
  | allocObj handle objType lookupName dataDir => exact frame_allocObj w handle objType lookupName dataDir
  | getObj lookupName => exact ⟨longer_refl _, rfl⟩
  | drop handle =>
    simp only [step, drop]
    split
    · exact .refl w
    · split
      · exact frame_destroy drv w _
      · exact ⟨longer_refl _, rfl⟩
  | init handle args =>
    simp only [step]
    split
    · exact .refl w
    · split
      · exact ⟨QInit.longer drv _ _ args, rfl⟩
      · exact .refl w
  | allocMetaBuffer handle ctor =>
    simp only [step]
    split
    · exact .refl w
    · split
      · exact frame_allocMetaBuffer drv w _
      · exact (frame_allocMetaBuffer drv w _).trans (frame_calls drv _ ctor)
  | setMetaAllocSize allocSize => exact frame_store drv w _
  | setMetaDataPattern handle offset length => exact .refl w
  | send handle qId =>
    simp only [step]
    split
    · exact .refl w
    · exact ⟨⟨_, List.append_assoc _ _ _⟩, rfl⟩
  | call c => exact frame_run drv w c

/-! ## Quiet steps -/

theorem OnlyLog.quiet (h : OnlyLog w w') : Quiet w w' :=
  ⟨fun hn => by rwa [h.objs], fun o' ho' => Or.inr ⟨o', h.objs ▸ ho', rfl, rfl, rfl, rfl⟩, h.reserved, h.disables⟩

/-- A new object at a free address. -/
theorem quiet_append {objType : ObjType} {lookupName : Option String} {dataDir : DataDir}
    (hfree : (w.obj handle).isSome ≠ true) :
    Quiet w { w with objs := w.objs ++ [.new handle objType lookupName dataDir] } := by
  refine ⟨fun hn => ?_, fun o' ho' => ?_, rfl, rfl⟩
  · rw [List.map_append, List.nodup_append]
    refine ⟨hn, by simp, ?_⟩
    rintro _ ha b hb rfl
    obtain ⟨p, hp, hpa⟩ := List.mem_map.1 ha
    have hnone : w.obj handle = none := by simpa using hfree
    simp only [List.map_cons, List.map_nil, List.mem_singleton, Obj.new] at hb
    exact obj_none hnone p hp (hpa.trans hb)
  · rcases List.mem_append.1 ho' with h | h
    · exact Or.inr ⟨o', h, rfl, rfl, rfl, rfl⟩
    · rw [List.mem_singleton.1 h]
      exact Or.inl ⟨rfl, rfl⟩

theorem quiet_newObj (w : World) (handle : Nat) (objType : ObjType) (dataDir : DataDir) :
    Quiet w (w.newObj handle objType dataDir) := by
  unfold newObj
  split
  · exact (OnlyLog.refl w).quiet
  · rename_i hfree
    exact quiet_append hfree

theorem quiet_allocObj (w : World) (handle : Nat) (objType : ObjType) (lookupName : String) (dataDir : DataDir) :
    Quiet w (w.allocObj handle objType lookupName dataDir) := by
  unfold allocObj
  split
  · exact (OnlyLog.refl w).quiet
  · split
    · exact (OnlyLog.refl w).quiet
    · split
      · exact (OnlyLog.refl w).quiet
      · rename_i hfree
        split
        · exact ⟨id, fun o ho => Or.inr ⟨o, ho, rfl, rfl, rfl, rfl⟩, rfl, rfl⟩
        · exact quiet_append hfree

/-- Changes of the objects that leave their buffers alone. -/
theorem quiet_map {f : Obj → Obj} (hf : ∀ o, (f o).handle = o.handle ∧ (f o).objType = o.objType ∧
    (f o).mMetaData = o.mMetaData ∧ (f o).allocated = o.allocated) : Quiet w { w with objs := w.objs.map f } := by
  refine ⟨fun hn => ?_, fun o' ho' => ?_, rfl, rfl⟩
  · have heq : (w.objs.map f).map (·.handle) = w.objs.map (·.handle) := by
      rw [List.map_map]
      exact List.map_congr_left fun o _ => (hf o).1
    rw [heq]
    exact hn
  · obtain ⟨o, ho, rfl⟩ := List.mem_map.1 ho'
    exact Or.inr ⟨o, ho, hf o⟩

theorem quiet_getObj (w : World) (lookupName : String) : Quiet w (w.getObj lookupName) := by
  refine quiet_map fun o => ?_
  split <;> exact ⟨rfl, rfl, rfl, rfl⟩

theorem quiet_setMetaAllocSize (w : World) (allocSize : Nat) :
    Quiet w (w.store drv (.setMetaAllocSize allocSize)) := by
  obtain ⟨hres, _, _⟩ := MetaRsrc.setMetaAllocSize_cases drv w.rsrc allocSize
  exact ⟨id, fun o ho => Or.inr ⟨o, ho, rfl, rfl, rfl, rfl⟩, hres, rfl⟩

/-- A change of one object that leaves its buffer alone, and perhaps of the log. -/
theorem quiet_put (o' : Obj) (ho : o ∈ w.objs) (hhandle : o'.handle = o.handle) (htype : o'.objType = o.objType)
    (hm : o'.mMetaData = o.mMetaData) (hall : o'.allocated = o.allocated) (log : List Call) :
    Quiet w ((w.withLog log).put o') := by
  refine ⟨fun hn => by rwa [handles_put], fun p hp => Or.inr ?_, rfl, rfl⟩
  rcases mem_put _ hp with rfl | ⟨h, _⟩
  · exact ⟨o, ho, hhandle, htype, hm, hall⟩
  · exact ⟨p, h, rfl, rfl, rfl, rfl⟩

theorem onlyLog_send (w : World) (o : Obj) (qId : Nat) : OnlyLog w (w.send drv o qId) :=
  (onlyLog_read w _).trans (onlyLog_ioctl _ _)

/-! ## The cases of an operation -/

/-- The operation destroys nothing, allocates nothing, and does not ask for a state. -/
def Passive (w : World) : Op → Prop
  | .drop handle => ∀ o, w.obj handle = some o → o.lookupName ≠ none
  | .allocMetaBuffer handle _ => w.cmd handle = none
  | .call _ => False
  | _ => True

/-- What one operation can do. -/
inductive OpStep (drv : Driver) (w : World) : Op → Prop
  | passive {op : Op} : w.Passive op → Quiet w (w.step drv op) → OpStep drv w op
  | destroys {handle : Nat} {o : Obj} : w.obj handle = some o → o.lookupName = none →
      w.step drv (.drop handle) = w.destroy drv o → OpStep drv w (.drop handle)
  | allocates {handle : Nat} {o : Obj} {ctor : List FwCall} : w.cmd handle = some o →
      OpStep drv w (.allocMetaBuffer handle ctor)
  | calls (c : FwCall) : OpStep drv w (.call c)

theorem op_step (drv : Driver) (w : World) (op : Op) : OpStep drv w op := by
  have hsame : Quiet w w := (OnlyLog.refl w).quiet
  cases op with
  | newObj handle objType dataDir => exact .passive trivial (quiet_newObj w handle objType dataDir)
  | allocObj handle objType lookupName dataDir =>
    exact .passive trivial (quiet_allocObj w handle objType lookupName dataDir)
  | getObj lookupName => exact .passive trivial (quiet_getObj w lookupName)
  | drop handle =>
    cases hobj : w.obj handle with
    | none => exact .passive (by simp [Passive, hobj]) (by simpa [step, drop, hobj] using hsame)
    | some o =>
      by_cases hname : o.lookupName = none
      · exact .destroys hobj hname (by simp [step, drop, hobj, hname])
      · have hunhold : Quiet w (w.put { o with held := false }) :=
          quiet_put { o with held := false } (obj_some hobj).1 rfl rfl rfl rfl w.rsrc.log
        exact .passive (by simpa [Passive, hobj] using hname) (by simpa [step, drop, hobj, hname] using hunhold)
  | init handle args =>
    refine .passive trivial ?_
    cases hobj : w.obj handle with
    | none => simpa [step, hobj] using hsame
    | some o =>
      simp only [step, hobj]
      split
      · exact quiet_put { o with mQueue := (args.run drv o.mQueue w.rsrc.log).1 } (obj_some hobj).1 rfl rfl rfl rfl _
      · exact hsame
  | allocMetaBuffer handle ctor =>
    cases hobj : w.cmd handle with
    | none => exact .passive hobj (by simpa [step, hobj] using hsame)
    | some o => exact .allocates hobj
  | setMetaAllocSize allocSize => exact .passive trivial (quiet_setMetaAllocSize w allocSize)
  | setMetaDataPattern handle offset length => exact .passive trivial hsame
  | send handle qId =>
    refine .passive trivial ?_
    simp only [step]
    cases w.cmd handle with
    | none => exact hsame
    | some o => exact (onlyLog_send w o qId).quiet
  | call c => exact .calls c

/-! ## What holds in every run -/

/-- The objects of a run: their addresses differ, none has allocated in the future, and only commands have allocated. -/
structure Sane (w : World) : Prop where
  handles : (w.objs.map (·.handle)).Nodup
  past : ∀ o ∈ w.objs, ∀ n, o.allocated = some n → n ≤ w.disables
  cmds : ∀ o ∈ w.objs, o.objType.isCmd = false → o.mMetaData = .default ∧ o.allocated = none

theorem sane_init : init.Sane := ⟨List.Pairwise.nil, by simp [init], by simp [init]⟩

theorem Quiet.sane (h : w.Sane) (hq : Quiet w w') : w'.Sane where
  handles := hq.handles h.handles
  past := by
    intro o' ho' n hn
    rcases hq.objs o' ho' with ⟨_, hnone⟩ | ⟨o, ho, _, _, _, hall⟩
    · rw [hnone] at hn
      cases hn
    · rw [hq.disables]
      exact h.past o ho n (hall ▸ hn)
  cmds := by
    intro o' ho' hcmd
    rcases hq.objs o' ho' with hnew | ⟨o, ho, _, htype, hm, hall⟩
    · exact hnew
    · rw [hm, hall]
      exact h.cmds o ho (htype ▸ hcmd)

/-- The objects that are left by a disable. -/
theorem Freed.mem_objs (h : Freed w w') {o' : Obj} (ho' : o' ∈ w'.objs) : ∃ o ∈ w.objs, o'.handle = o.handle ∧
    o'.objType = o.objType ∧ o'.mMetaData = o.mMetaData ∧ o'.allocated = o.allocated ∧
      (o.objType.isCmd = true → o.outlives = true ∧ o'.outlives = true) := by
  obtain ⟨keep, hkeep, hobjs⟩ := h.objs
  rw [hobjs] at ho'
  obtain ⟨o, ho, rfl⟩ := List.mem_map.1 ho'
  obtain ⟨ho, hleft⟩ := List.mem_filter.1 ho
  by_cases hk : keep o.objType = true
  · rw [if_pos hk]
    refine ⟨o, ho, rfl, rfl, rfl, rfl, fun hcmd => ?_⟩
    have hadmin := hkeep _ hk
    cases htype : o.objType <;> simp [htype, ObjType.isCmd, ObjType.isAdminQ] at hcmd hadmin
  · rw [if_neg hk]
    refine ⟨o, ho, rfl, rfl, rfl, rfl, fun _ => ⟨?_, rfl⟩⟩
    simpa [hk] using hleft

theorem Freed.sane (h : w.Sane) (hf : Freed w w') : w'.Sane where
  handles := by
    obtain ⟨keep, _, hobjs⟩ := hf.objs
    have heq : w'.objs.map (·.handle) = (w.objs.filter fun o => keep o.objType || o.outlives).map (·.handle) := by
      rw [hobjs, List.map_map]
      refine List.map_congr_left fun o _ => ?_
      by_cases hk : keep o.objType = true <;> simp [hk]
    rw [heq]
    exact h.handles.sublist (List.filter_sublist.map _)
  past := by
    intro o' ho' n hn
    obtain ⟨o, ho, _, _, _, hall, _⟩ := hf.mem_objs ho'
    rw [hf.disables]
    exact Nat.le_succ_of_le (h.past o ho n (hall ▸ hn))
  cmds := by
    intro o' ho' hcmd
    obtain ⟨o, ho, _, htype, hm, hall, _⟩ := hf.mem_objs ho'
    rw [hm, hall]
    exact h.cmds o ho (htype ▸ hcmd)

theorem sane_run (drv : Driver) (h : w.Sane) (c : FwCall) : (c.run drv w).Sane := by
  cases hc : c.disables drv w with
  | true => exact (freed_run hc).sane h
  | false => exact (onlyLog_run hc).quiet.sane h

theorem sane_calls (h : w.Sane) (cs : List FwCall) : (w.calls drv cs).Sane :=
  Runs.inv_run (J := Sane) (fun _ c hs => sane_run drv hs c) h cs

theorem sane_put {o' : Obj} (h : w.Sane) (hcmd : o.objType.isCmd = true)
    (hobjs : w'.objs = (w.put o').objs) (htype : o'.objType = o.objType) (hdis : w'.disables = w.disables)
    (hpast : ∀ n, o'.allocated = some n → n ≤ w.disables) : w'.Sane where
  handles := by
    rw [hobjs, handles_put]
    exact h.handles
  past := by
    intro p hp n hn
    rw [hdis]
    rcases mem_put o' (hobjs ▸ hp) with rfl | ⟨hp, _⟩
    · exact hpast n hn
    · exact h.past p hp n hn
  cmds := by
    intro p hp hnot
    rcases mem_put o' (hobjs ▸ hp) with rfl | ⟨hp, _⟩
    · rw [htype, hcmd] at hnot
      cases hnot
    · exact h.cmds p hp hnot

theorem sane_reserve (drv : Driver) (h : w.Sane) (ho : o ∈ w.objs) (hcmd : o.objType.isCmd = true) :
    (w.reserve drv o).1.Sane := by
  have hstep := reserve_step drv w o
  generalize w.reserve drv o = out at hstep ⊢
  obtain ⟨w', ok⟩ := out
  cases hstep with
  | reserved b hobjs _ _ hdis =>
    refine sane_put h hcmd hobjs rfl hdis ?_
    rintro n ⟨⟩
    exact Nat.le_refl _
  | failed hobjs _ hdis => exact sane_put h hcmd hobjs rfl hdis (h.past o ho)

theorem sane_alloc (drv : Driver) (h : w.Sane) (ho : o ∈ w.objs) (hcmd : o.objType.isCmd = true) :
    (w.allocMetaBuffer drv o).1.Sane := by
  unfold allocMetaBuffer
  split
  · exact h
  · exact sane_reserve drv h ho hcmd

theorem sane_destroy (h : w.Sane) (o : Obj) : (w.destroy drv o).Sane where
  handles := h.handles.sublist (List.filter_sublist.map _)
  past := fun p hp n hn => disables_destroy drv w o ▸ h.past p (List.mem_of_mem_filter hp) n hn
  cmds := fun p hp => h.cmds p (List.mem_of_mem_filter hp)

theorem sane_step (h : w.Sane) (op : Op) : (w.step drv op).Sane := by
  cases op_step drv w op with
  | passive _ hq => exact hq.sane h
  | destroys _ _ hw =>
    rw [hw]
    exact sane_destroy h _
  | @allocates handle o ctor hobj =>
    obtain ⟨hobj', hcmd⟩ := cmd_some hobj
    have halloc := sane_alloc drv h (obj_some hobj').1 hcmd
    simp only [step, hobj]
    split
    · exact halloc
    · exact sane_calls halloc ctor
  | calls c => exact sane_run drv h c

/-! ## What the world survives -/

theorem lost_drop_iff (drv : Driver) (w : World) (handle : Nat) : (w.drop drv handle).lost = false ↔
    w.lost = false ∧ Survives drv w (.drop handle) := by
  cases hobj : w.obj handle with
  | none => simp [drop, Survives, hobj]
  | some o =>
    by_cases hname : o.lookupName = none
    · have hlost : (w.destroy drv o).lost = (w.lost || !o.canDie) := (dtor_spec drv w o).2.1
      simp [drop, Survives, hobj, hname, hlost]
    · simp [drop, Survives, hobj, hname, put]

theorem lost_allocObj_iff (w : World) (handle : Nat) (objType : ObjType) (lookupName : String) (dataDir : DataDir) :
    (w.allocObj handle objType lookupName dataDir).lost = false ↔
      w.lost = false ∧ Survives drv w (.allocObj handle objType lookupName dataDir) := by
  unfold allocObj Survives
  split
  · simp [*]
  · split
    · simp [*, ObjType.isQueue]
    · split
      · rename_i hused
        obtain ⟨p, hp⟩ := Option.isSome_iff_exists.1 hused
        simp [hp]
      · rename_i hname hzero hfree
        have hnone : w.obj handle = none := by simpa using hfree
        split
        · rename_i htaken
          obtain ⟨p, hp, heq⟩ := List.any_eq_true.1 htaken
          have hhas : ¬∀ o ∈ w.objs, o.lookupName ≠ some lookupName := fun h => h p hp (by simpa using heq)
          simp only [Bool.or_eq_false_iff, hname, hnone, hhas, not_false_eq_true, forall_const, imp_false,
            Bool.not_eq_true, ne_eq]
        · rename_i hnew
          have hnew' : ∀ o ∈ w.objs, o.lookupName ≠ some lookupName := by simpa using hnew
          exact (and_iff_left fun _ _ _ => hnew').symm

theorem lost_allocMetaBuffer (drv : Driver) (w : World) (o : Obj) : (w.allocMetaBuffer drv o).1.lost = w.lost := by
  unfold allocMetaBuffer
  split <;> rfl

/-- **The world survives an operation exactly as `Survives` says.** -/
theorem lost_step_iff (drv : Driver) (w : World) (op : Op) :
    (w.step drv op).lost = false ↔ w.lost = false ∧ Survives drv w op := by
  cases op with
  | allocObj handle objType lookupName dataDir => exact lost_allocObj_iff w handle objType lookupName dataDir
  | drop handle => exact lost_drop_iff drv w handle
  | call c => exact lost_run_iff c
  | allocMetaBuffer handle ctor =>
    cases hobj : w.cmd handle with
    | none => simp [step, Survives, hobj]
    | some o =>
      have hok := allocMetaBuffer_iff drv w o
      simp only [step, Survives, hobj, Option.some.injEq, forall_eq']
      by_cases hthrows : o.dataDir = .none ∨ w.rsrc.canReserve drv = false
      · rw [if_neg fun h => hok.1 h hthrows, lost_calls_iff, lost_allocMetaBuffer, forall_prop_of_true hthrows]
      · rw [if_pos (hok.2 hthrows), lost_allocMetaBuffer]
        exact (and_iff_left fun h => absurd h hthrows).symm
  | newObj handle objType dataDir =>
    refine Iff.trans ?_ (and_iff_left trivial).symm
    simp only [step, newObj]
    split <;> rfl
  | init handle args =>
    refine Iff.trans ?_ (and_iff_left trivial).symm
    simp only [step]
    split
    · rfl
    · split <;> rfl
  | send handle qId =>
    refine Iff.trans ?_ (and_iff_left trivial).symm
    simp only [step]
    split <;> rfl
  | getObj lookupName => exact (and_iff_left trivial).symm
  | setMetaAllocSize allocSize => exact (and_iff_left trivial).symm
  | setMetaDataPattern handle offset length => exact (and_iff_left trivial).symm

end World

end Tnvme
