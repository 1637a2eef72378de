import Tnvme.Fw.Stale

/-!
# A meta data buffer that is not granted

`ReserveMetaBuf` writes the ID and the size into the record of the command before it asks for the buffer. A command that
is denied one then looks as if it had it: it is sent with `MASK_MPTR`, and its destructor releases the buffer that has
the ID by then. And if the exception disables the device, the lists of the store are emptied.

An attempt that throws is harmless if there is nothing to write, and, in case the device is disabled, nothing in the
lists (`allocAtomic_iff`).
-/

namespace Tnvme.World

/-- No operation lets the command allocate again. -/
def NoAlloc (handle : Nat) (ops : List Op) : Prop := ∀ ctor, .allocMetaBuffer handle ctor ∉ ops

/-- What a call of `AllocMetaBuffer` for `o` that throws leaves behind when the exception is there: the lists, and a
command that has no buffer if it had none before and whose destruction leaves the buffers of others alone, whatever
happens to it and whatever the driver does from then on. -/
structure Undone (w w' : World) (o : Obj) : Prop where
  lost : w'.lost = false
  lists : w'.rsrc.mMetaReserved = w.rsrc.mMetaReserved ∧ w'.rsrc.mMetaReleased = w.rsrc.mMetaReleased
  none : o.mMetaData = .default → ∀ (drv : Driver) (ops : List Op), NoAlloc o.handle ops →
    (Runs.run (step drv) w' ops).lost = false →
    ∀ p, (Runs.run (step drv) w' ops).obj o.handle = some p → p.getMetaBitmask = false ∧ p.mMetaData.buf = .null
  spares : ∀ (drv : Driver) (ops : List Op), NoAlloc o.handle ops → (Runs.run (step drv) w' ops).lost = false →
    ∀ p, (Runs.run (step drv) w' ops).obj o.handle = some p → ∀ q ∈ (Runs.run (step drv) w' ops).objs,
      q.handle ≠ o.handle → (Runs.run (step drv) w' ops).Owner q →
      q.mMetaData ∈ (Runs.run (step drv) w' ops).rsrc.mMetaReserved →
      q.mMetaData ∈ ((Runs.run (step drv) w' ops).destroy drv p).rsrc.mMetaReserved

def AllocAtomic (drv : Driver) (w : World) (handle : Nat) (ctor : List FwCall) : Prop :=
  ∀ o, w.cmd handle = some o → (w.allocMetaBuffer drv o).2 = false →
    Undone w (w.step drv (.allocMetaBuffer handle ctor)) o

/-- The first ID that no reserved buffer has. -/
def freeID (w : World) : Nat := (SortedKeys.gap MetaDataBuf.ID 0 w.rsrc.mMetaReserved).1

/-- The call does not get to `ReserveMetaBuf`; or what there is to write is the default record; or no ID is left, and a
record was there before. -/
def Unwritten (w : World) (o : Obj) : Prop :=
  o.dataDir = .none ∨ o.mMetaData.buf = .null ∧ w.rsrc.mMetaAllocSize = 0 ∧ w.freeID = 0 ∨
    2 ^ metadataUniqueIdBits ≤ w.freeID ∧ o.mMetaData ≠ .default

/-- If the call throws, the world survives the exception. If this disables the device, the lists are empty anyway, and
the command has no record afterwards, or is destroyed. -/
def Harmless (drv : Driver) (w : World) (o : Obj) (ctor : List FwCall) : Prop :=
  o.dataDir = .none ∨ w.rsrc.canReserve drv = false →
    Survives drv w (.allocMetaBuffer o.handle ctor) ∧
      if (w.allocMetaBuffer drv o).1.callsDisable drv ctor = true then
        w.rsrc.mMetaReserved = [] ∧ w.rsrc.mMetaReleased = [] ∧
          (o.outlives = true → (w.spoilt o).mMetaData = .default)
      else w.Unwritten o

/-! ## What stays true of the objects -/

/-- Something that new objects satisfy and that only an allocation can change. -/
structure Stable (P : Obj → Prop) : Prop where
  new : ∀ handle objType lookupName dataDir, P (.new handle objType lookupName dataDir)
  unnamed : ∀ o, P o → P { o with lookupName := none }
  held : ∀ o b, P o → P { o with held := b }
  queue : ∀ o q, P o → P { o with mQueue := q }

/-- The allocations of a run do not change it, either. -/
def AllocsKeep (P : Obj → Prop) (ops : List Op) : Prop :=
  ∀ handle ctor, .allocMetaBuffer handle ctor ∈ ops → ∀ (o : Obj) m a, o.handle = handle → o.dataDir ≠ .none →
    P { o with mMetaData := m, allocated := a }

variable {drv : Driver} {w w' : World} {handle : Nat} {o : Obj} {P : Obj → Prop}

theorem Stable.call (hP : Stable P) (h : ∀ o ∈ w.objs, P o) (c : FwCall) : ∀ o ∈ (c.run drv w).objs, P o := by
  cases hc : c.disables drv w with
  | false => rwa [(onlyLog_run hc).objs]
  | true =>
    obtain ⟨keep, -, hobjs⟩ := (freed_run hc).objs
    intro o ho
    rw [hobjs] at ho
    obtain ⟨p, hp, rfl⟩ := List.mem_map.1 ho
    have hp := h p (List.mem_of_mem_filter hp)
    split
    · exact hp
    · exact hP.unnamed p hp

theorem Stable.calls (hP : Stable P) (h : ∀ o ∈ w.objs, P o) (cs : List FwCall) : ∀ o ∈ (w.calls drv cs).objs, P o :=
  Runs.inv_run (J := fun w : World => ∀ o ∈ w.objs, P o) (fun _ c h => hP.call h c) h cs

theorem Stable.append (hP : Stable P) (h : ∀ o ∈ w.objs, P o) (objType : ObjType) (lookupName : Option String)
    (dataDir : DataDir) : ∀ o ∈ w.objs ++ [.new handle objType lookupName dataDir], P o := by
  intro o ho
  rcases List.mem_append.1 ho with ho | ho
  · exact h o ho
  · rw [List.mem_singleton.1 ho]
    exact hP.new _ _ _ _

theorem forall_put {q : Obj} (h : ∀ p ∈ w.objs, P p) (hq : P q) : ∀ p ∈ (w.put q).objs, P p := by
  intro p hp
  rcases mem_put q hp with rfl | ⟨hp, -⟩
  · exact hq
  · exact h p hp

/-- A call of `AllocMetaBuffer` changes the record of one command, if at all. -/
theorem forall_alloc (h : ∀ p ∈ w.objs, P p)
    (halloc : o.dataDir ≠ .none → ∀ m a, P { o with mMetaData := m, allocated := a }) :
    ∀ p ∈ (w.allocMetaBuffer drv o).1.objs, P p := by
  unfold allocMetaBuffer
  split
  · exact h
  · rename_i hdir
    exact forall_put (w := w.store drv (.reserveMetaBuf o.mMetaData)) h (halloc hdir _ _)

theorem Stable.step (hP : Stable P) (h : ∀ o ∈ w.objs, P o) {op : Op} (hop : AllocsKeep P [op]) :
    ∀ o ∈ (w.step drv op).objs, P o := by
  cases op with
  | newObj handle objType dataDir =>
    simp only [World.step, newObj]
    split
    · exact h
    · exact hP.append h _ _ _
  | allocObj handle objType lookupName dataDir =>
    simp only [World.step, allocObj]
    repeat' split
    all_goals first | exact h | exact hP.append h _ _ _
  | getObj lookupName =>
    intro o ho
    obtain ⟨p, hp, rfl⟩ := List.mem_map.1 ho
    split
    · exact hP.held p true (h p hp)
    · exact h p hp
  | drop handle =>
    simp only [World.step, drop]
    split
    · exact h
    · rename_i o hobj
      split
      · exact fun p hp => h p (List.mem_of_mem_filter hp)
      · exact forall_put h (hP.held o false (h o (obj_some hobj).1))
  | init handle args =>
    simp only [World.step]
    split
    · exact h
    · rename_i o hobj
      split
      · exact forall_put (w := w.withLog _) h (hP.queue o _ (h o (obj_some hobj).1))
      · exact h
  | allocMetaBuffer handle ctor =>
    simp only [World.step]
    split
    · exact h
    · rename_i o hobj
      have halloc : ∀ p ∈ (w.allocMetaBuffer drv o).1.objs, P p := forall_alloc h fun hdir m a =>
        hop handle ctor (List.mem_singleton.2 rfl) o m a (obj_some (cmd_some hobj).1).2 hdir
      split
      · exact halloc
      · exact hP.calls halloc ctor
  | setMetaAllocSize allocSize => exact h
  | setMetaDataPattern handle offset length => exact h
  | send handle qId =>
    simp only [World.step]
    split
    · exact h
    · exact h
  | call c => exact hP.call h c

theorem Stable.run (hP : Stable P) (h : ∀ o ∈ w.objs, P o) {ops : List Op} (hops : AllocsKeep P ops) :
    ∀ o ∈ (Runs.run (World.step drv) w ops).objs, P o := by
  induction ops generalizing w with
  | nil => exact h
  | cons op ops ih =>
    refine ih (hP.step h fun handle ctor hmem => ?_) fun handle ctor hmem => ?_
    · exact hops handle ctor (List.mem_singleton.1 hmem ▸ List.mem_cons_self)
    · exact hops handle ctor (List.mem_cons_of_mem op hmem)

/-- A command without a data direction never has a buffer. -/
theorem default_of_dataDir (drv : Driver) (ops : List Op) :
    ∀ o ∈ (Runs.run (step drv) init ops).objs, o.dataDir = .none → o.mMetaData = .default := by
  have hstable : Stable fun o => o.dataDir = .none → o.mMetaData = .default :=
    ⟨fun _ _ _ _ _ => rfl, fun _ h => h, fun _ _ h => h, fun _ _ h => h⟩
  exact hstable.run (fun o ho => by cases ho) fun _ _ _ o _ _ _ hdir hnone => absurd hnone hdir

/-- The record of a command that does not allocate again, or of a later one at its address. -/
theorem record_run {r : MetaDataBuf} (h : ∀ p ∈ w.objs, p.handle = handle → p.mMetaData = r) {ops : List Op}
    (hops : NoAlloc handle ops) : ∀ p ∈ (Runs.run (step drv) w ops).objs, p.handle = handle →
      p.mMetaData = r ∨ p.mMetaData = .default := by
  have hstable : Stable fun p => p.handle = handle → p.mMetaData = r ∨ p.mMetaData = .default :=
    ⟨fun _ _ _ _ _ => .inr rfl, fun _ h => h, fun _ _ h => h, fun _ _ h => h⟩
  refine hstable.run (fun p hp hph => .inl (h p hp hph)) fun handle' ctor hmem o m a ho _ hhandle => ?_
  exact absurd (ho.symm.trans hhandle ▸ hmem) (hops ctor)

/-! ## The command that is left -/

theorem obj_of_mem (hs : w.Sane) (ho : o ∈ w.objs) : w.obj o.handle = some o := by
  cases hobj : w.obj o.handle with
  | none => exact absurd rfl (obj_none hobj o ho)
  | some p =>
    obtain ⟨hp, hph⟩ := obj_some hobj
    rw [List.inj_on_of_nodup_map hs.handles hp ho hph]

/-- Calls that disable the device empty the lists. -/
theorem lists_calls {cs : List FwCall} (h : w.callsDisable drv cs = true ∨
    w.rsrc.mMetaReserved = [] ∧ w.rsrc.mMetaReleased = []) :
    (w.calls drv cs).rsrc.mMetaReserved = [] ∧ (w.calls drv cs).rsrc.mMetaReleased = [] := by
  induction cs generalizing w with
  | nil => exact h.resolve_left nofun
  | cons c cs ih =>
    refine ih ?_
    cases hc : c.disables drv w with
    | true => exact Or.inr ⟨(freed_run hc).reserved, (freed_run hc).released⟩
    | false =>
      have hlog := onlyLog_run hc
      refine h.imp (fun hd => by simpa [callsDisable, hc] using hd) fun hlists => ?_
      rw [hlog.reserved, hlog.released]
      exact hlists

/-- Calls create nothing, and change no record. -/
theorem mem_calls (drv : Driver) (w : World) (cs : List FwCall) :
    ∀ p ∈ (w.calls drv cs).objs, ∃ q ∈ w.objs, p.handle = q.handle ∧ p.mMetaData = q.mMetaData := by
  refine Runs.inv_run (J := fun v : World =>
    ∀ p ∈ v.objs, ∃ q ∈ w.objs, p.handle = q.handle ∧ p.mMetaData = q.mMetaData) (fun v c h p hp => ?_)
    (fun p hp => ⟨p, hp, rfl, rfl⟩) cs
  cases hc : c.disables drv v with
  | false => exact h p ((onlyLog_run hc).objs ▸ hp)
  | true =>
    obtain ⟨o, ho, hh, -, hm, -, -⟩ := (freed_run hc).mem_objs hp
    obtain ⟨q, hq, hqh, hqm⟩ := h o ho
    exact ⟨q, hq, hh.trans hqh, hm.trans hqm⟩

/-- What outlives a disable is still there. -/
theorem stays_calls (drv : Driver) (ho : o ∈ w.objs) (hout : o.outlives = true) (cs : List FwCall) :
    ∃ p ∈ (w.calls drv cs).objs, p.handle = o.handle ∧ p.mMetaData = o.mMetaData ∧ p.outlives = true := by
  refine Runs.inv_run (J := fun v : World =>
    ∃ p ∈ v.objs, p.handle = o.handle ∧ p.mMetaData = o.mMetaData ∧ p.outlives = true) (fun v c h => ?_)
    ⟨o, ho, rfl, rfl, hout⟩ cs
  obtain ⟨p, hp, hh, hm, hpout⟩ := h
  cases hc : c.disables drv v with
  | false => exact ⟨p, (onlyLog_run hc).objs.symm ▸ hp, hh, hm, hpout⟩
  | true =>
    obtain ⟨keep, -, hobjs⟩ := (freed_run hc).objs
    refine ⟨if keep p.objType then p else { p with lookupName := none }, ?_, ?_⟩
    · rw [hobjs]
      exact List.mem_map_of_mem (List.mem_filter.2 ⟨hp, by simp [hpout]⟩)
    · split
      · exact ⟨hh, hm, hpout⟩
      · exact ⟨hh, hm, rfl⟩

/-- A command that does not outlive a disable is gone after one. -/
theorem gone_calls (hs : w.Sane) (ho : o ∈ w.objs) (hcmd : o.objType.isCmd = true) (hout : o.outlives = false)
    {cs : List FwCall} (hd : w.callsDisable drv cs = true) : ∀ p ∈ (w.calls drv cs).objs, p.handle ≠ o.handle := by
  induction cs generalizing w with
  | nil => cases hd
  | cons c cs ih =>
    cases hc : c.disables drv w with
    | false =>
      exact ih (sane_run drv hs c) ((onlyLog_run hc).objs.symm ▸ ho) (by simpa [callsDisable, hc] using hd)
    | true =>
      intro p hp hph
      obtain ⟨q, hq, hqh, -⟩ := mem_calls drv (c.run drv w) cs p hp
      obtain ⟨o', ho', hh, -, -, -, hout'⟩ := (freed_run hc).mem_objs hq
      have heq : o' = o := List.inj_on_of_nodup_map hs.handles ho' ho (hh.symm.trans (hqh.symm.trans hph))
      rw [heq] at hout'
      exact absurd ((hout' hcmd).1.symm.trans hout) (by decide)

/-! ## A call that throws -/

/-- What is there before the constructor of the exception runs. -/
structure Threw (w w' : World) (o : Obj) : Prop where
  sane : w'.Sane
  objs : w'.objs = (w.put (w.spoilt o)).objs
  reserved : w'.rsrc.mMetaReserved = w.rsrc.mMetaReserved
  released : w'.rsrc.mMetaReleased = w.rsrc.mMetaReleased

theorem spoilt_handle (w : World) (o : Obj) : (w.spoilt o).handle = o.handle := by
  unfold spoilt
  split <;> rfl

theorem spoilt_objType (w : World) (o : Obj) : (w.spoilt o).objType = o.objType := by
  unfold spoilt
  split <;> rfl

theorem spoilt_outlives (w : World) (o : Obj) : (w.spoilt o).outlives = o.outlives := by
  unfold spoilt
  split <;> rfl

theorem threw_alloc (hs : w.Sane) (ho : o ∈ w.objs) (hcmd : o.objType.isCmd = true)
    (h : (w.allocMetaBuffer drv o).2 = false) : Threw w (w.allocMetaBuffer drv o).1 o := by
  obtain ⟨-, hobjs, -⟩ := allocMetaBuffer_threw hs ho h
  have hlists : (w.allocMetaBuffer drv o).1.rsrc.mMetaReserved = w.rsrc.mMetaReserved ∧
      (w.allocMetaBuffer drv o).1.rsrc.mMetaReleased = w.rsrc.mMetaReleased := by
    by_cases hdir : o.dataDir = .none
    · rw [allocMetaBuffer, if_pos hdir]
      exact ⟨rfl, rfl⟩
    · rw [allocMetaBuffer, if_neg hdir] at h ⊢
      have hne : (w.rsrc.reserveMetaBuf drv o.mMetaData).2.2 ≠ .reserved := beq_eq_false_iff_ne.1 h
      exact ((MetaRsrc.reserveMetaBuf_step drv o.mMetaData w.rsrc).of_ne hne).1
  exact ⟨sane_alloc drv hs ho hcmd, hobjs, hlists.1, hlists.2⟩

theorem Threw.mem (h : Threw w w' o) (ho : o ∈ w.objs) : w.spoilt o ∈ w'.objs := by
  rw [h.objs]
  exact List.mem_map.2 ⟨o, ho, if_pos (spoilt_handle w o).symm⟩

theorem Threw.record (h : Threw w w' o) :
    ∀ p ∈ w'.objs, p.handle = o.handle → p.mMetaData = (w.spoilt o).mMetaData := by
  intro p hp hph
  rw [h.objs] at hp
  rcases mem_put _ hp with rfl | ⟨-, hne⟩
  · rfl
  · exact absurd (hph.trans (spoilt_handle w o).symm) hne

/-- No buffer is waiting to be reserved again when a call is denied one. -/
theorem released_nil (h : w.rsrc.canReserve drv = false) : w.rsrc.mMetaReleased = [] := by
  rw [MetaRsrc.canReserve, Bool.or_eq_false_iff, Bool.not_eq_false'] at h
  exact List.isEmpty_iff.1 h.1

theorem left_eq_default : w.left o = .default ↔ o.mMetaData.buf = .null ∧ w.rsrc.mMetaAllocSize = 0 ∧ w.freeID = 0 := by
  rw [left, MetaDataBuf.default, MetaDataBuf.mk.injEq, freeID]

/-- There is something to write exactly if it is left, and is no record that can be left. -/
theorem unwritten_iff (hdir : o.dataDir = .none → o.mMetaData = .default) : w.Unwritten o ↔
    (w.spoilt o).mMetaData = .default ∨
      2 ^ metadataUniqueIdBits ≤ (w.spoilt o).mMetaData.ID ∧ o.mMetaData ≠ .default := by
  unfold Unwritten spoilt
  by_cases hnone : o.dataDir = .none
  · simp [hnone, hdir hnone]
  · simp only [hnone, if_false, false_or, left_eq_default]
    rfl

/-- A record is left that is the default one, or has an ID that no buffer has. -/
theorem undone_of_record {r : MetaDataBuf} (hlost : w'.lost = false)
    (hlists : w'.rsrc.mMetaReserved = w.rsrc.mMetaReserved ∧ w'.rsrc.mMetaReleased = w.rsrc.mMetaReleased)
    (hrecord : ∀ p ∈ w'.objs, p.handle = o.handle → p.mMetaData = r)
    (hr : r = .default ∨ 2 ^ metadataUniqueIdBits ≤ r.ID ∧ o.mMetaData ≠ .default) : Undone w w' o := by
  refine ⟨hlost, hlists, fun hnone drv ops hops _ p hp => ?_, fun drv ops hops _ p hp q hq hne hown hmem => ?_⟩
  · obtain ⟨hp, hph⟩ := obj_some hp
    have hdefault : p.mMetaData = .default := by
      rcases hr with rfl | ⟨-, hsome⟩
      · exact (record_run hrecord hops p hp hph).elim id id
      · exact absurd hnone hsome
    rw [Obj.getMetaBitmask, hdefault]
    exact ⟨rfl, rfl⟩
  · obtain ⟨hp, hph⟩ := obj_some hp
    rw [reserved_destroy]
    refine (MetaRsrc.mem_releaseMetaBuf (Runs.run (step drv) w' ops).wf).2 ⟨hmem, fun hsome heq => ?_⟩
    rcases record_run hrecord hops p hp hph with hpr | hpr
    · rcases hr with rfl | ⟨hlarge, -⟩
      · exact hsome hpr
      · have hsmall := (Runs.run (step drv) w' ops).wf.range _ (List.mem_append_left _ hmem)
        rw [heq, hpr] at hsmall
        omega
    · exact hsome hpr

/-! ## An ID that is given away -/

theorem obj_put (w : World) (q : Obj) (handle : Nat) :
    (w.put q).obj handle = (w.obj handle).map fun p => if p.handle = q.handle then q else p := by
  have hsame : ((fun p : Obj => p.handle == handle) ∘ fun p => if p.handle = q.handle then q else p) =
      fun p => p.handle == handle := by
    funext p
    by_cases hpq : p.handle = q.handle
    · simp [hpq]
    · simp [hpq]
  rw [put, obj, obj, List.find?_map, hsame]

/-- There is an address that is not in use. -/
theorem exists_free (l : List Nat) : ∃ n, ∀ m ∈ l, m < n := by
  induction l with
  | nil => exact ⟨0, fun m hm => by cases hm⟩
  | cons k l ih =>
    obtain ⟨n, hn⟩ := ih
    refine ⟨max n (k + 1), List.forall_mem_cons.2 ⟨by omega, fun m hm => ?_⟩⟩
    have hlt := hn m hm
    omega

/-- A test can create a command at an address that is not in use. -/
theorem step_newObj (drv : Driver) {n : Nat} (hfree : ∀ p ∈ w.objs, p.handle ≠ n) (hobj : w.obj handle = some o) :
    ((w.step drv (.newObj n .write .toDevice)).cmd n = some (.new n .write none .toDevice) ∧
      (w.step drv (.newObj n .write .toDevice)).obj handle = some o) ∧
      (w.step drv (.newObj n .write .toDevice)).rsrc = w.rsrc := by
  have hnone : w.obj n = none := List.find?_eq_none.2 fun p hp => by simpa using hfree p hp
  have hobjs (m : Nat) : (w.step drv (.newObj n .write .toDevice)).obj m =
      (w.obj m).or ([Obj.new n .write none .toDevice].find? (·.handle == m)) := by
    rw [step, newObj, hnone, if_neg (by decide)]
    exact List.find?_append
  refine ⟨⟨?_, by rw [hobjs, hobj, Option.some_or]⟩, ?_⟩
  · have hself : [Obj.new n .write none .toDevice].find? (·.handle == n) = some (.new n .write none .toDevice) :=
      List.find?_cons_of_pos (by simp [Obj.new])
    rw [cmd, hobjs, hnone, Option.none_or, hself]
    rfl
  · rw [step, newObj, hnone, if_neg (by decide)]

/-- A command that is granted a new buffer has the first ID that is free, and the others stay what they are. -/
theorem step_granted (drv : Driver) {q : Obj} (hcmd : w.cmd q.handle = some q) (hdir : q.dataDir ≠ .none)
    (hrel : w.rsrc.mMetaReleased = [])
    (hID : w.freeID < 2 ^ metadataUniqueIdBits)
    (hrc : ∀ log req, 0 ≤ drv.ioctl log req) (hobj : w.obj handle = some o) (hne : o.handle ≠ q.handle) :
    (w.step drv (.allocMetaBuffer q.handle [])).obj handle = some o ∧
      ∃ p ∈ (w.step drv (.allocMetaBuffer q.handle [])).objs, p.handle = q.handle ∧
        (w.step drv (.allocMetaBuffer q.handle [])).Owner p ∧
        p.mMetaData ∈ (w.step drv (.allocMetaBuffer q.handle [])).rsrc.mMetaReserved ∧
        p.mMetaData.ID = w.freeID := by
  obtain ⟨buf, hgranted⟩ := MetaRsrc.reserveMetaBuf_granted drv q.mMetaData hrel hID (hrc _ _)
  have hok : (w.reserve drv q).2 = true := by
    rw [reserve, hgranted]
    rfl
  have hstep : w.step drv (.allocMetaBuffer q.handle []) = (w.reserve drv q).1 := by
    simp only [step, hcmd, allocMetaBuffer, if_neg hdir, if_pos hok]
  have hrsrc : (w.reserve drv q).1.rsrc = (w.rsrc.reserveMetaBuf drv q.mMetaData).1 := rfl
  have hobjs : (w.reserve drv q).1.objs = (w.put { q with
      mMetaData := (w.rsrc.reserveMetaBuf drv q.mMetaData).2.1
      allocated := if (w.rsrc.reserveMetaBuf drv q.mMetaData).2.2 = .reserved then some w.disables
        else q.allocated }).objs := rfl
  rw [hstep]
  rw [hgranted] at hrsrc hobjs
  constructor
  · rw [obj, hobjs]
    refine (obj_put w _ handle).trans ?_
    rw [hobj]
    exact congrArg some (if_neg hne)
  · refine ⟨{ q with
      mMetaData := ⟨buf, w.rsrc.mMetaAllocSize, w.freeID⟩
      allocated := some w.disables }, ?_, rfl, rfl, ?_, rfl⟩
    · rw [hobjs]
      exact List.mem_map.2 ⟨q, (obj_some (cmd_some hcmd).1).1, if_pos rfl⟩
    · rw [hrsrc]
      exact (List.mem_insertIdx (SortedKeys.gap_le _ _)).2 (.inl rfl)

/-- **A command that is left with the first free ID has the ID of the next command that is granted one.** -/
theorem not_undone {p : Obj} (hobj : w'.obj o.handle = some p) (hne : p.mMetaData ≠ .default)
    (hfreeID : p.mMetaData.ID = w'.freeID) (hID : w'.freeID < 2 ^ metadataUniqueIdBits)
    (hrel : w'.rsrc.mMetaReleased = []) : ¬Undone w w' o := by
  intro hundone
  obtain ⟨n, hn⟩ := exists_free (w'.objs.map (·.handle))
  have hfree : ∀ p ∈ w'.objs, p.handle ≠ n := fun p hp =>
    Nat.ne_of_lt (hn p.handle (List.mem_map_of_mem hp))
  have hnew : o.handle ≠ n := (obj_some hobj).2 ▸ hfree p (obj_some hobj).1
  obtain ⟨⟨hcmd, hkept⟩, hrsrc⟩ := step_newObj MetaRsrc.grantingDriver hfree hobj
  obtain ⟨hlast, q, hq, hqn, hown, hmem, hqID⟩ := step_granted MetaRsrc.grantingDriver
    (w := w'.step MetaRsrc.grantingDriver (.newObj n .write .toDevice)) (q := .new n .write none .toDevice) hcmd
    nofun (by rw [hrsrc, hrel]) (by rwa [freeID, hrsrc, ← freeID])
    (fun _ _ => Int.le_refl 0) hkept ((obj_some hobj).2.trans_ne hnew)
  have hlost : (w'.step MetaRsrc.grantingDriver (.newObj n .write .toDevice)).lost = false :=
    (lost_step_iff MetaRsrc.grantingDriver w' (.newObj n .write .toDevice)).2 ⟨hundone.lost, trivial⟩
  have hlost' : (Runs.run (step MetaRsrc.grantingDriver) w'
      [.newObj n .write .toDevice, .allocMetaBuffer n []]).lost = false :=
    (lost_step_iff _ _ (.allocMetaBuffer n [])).2 ⟨hlost, fun _ _ _ _ hx => absurd hx List.not_mem_nil⟩
  have hspared := hundone.spares MetaRsrc.grantingDriver [.newObj n .write .toDevice, .allocMetaBuffer n []]
    (fun ctor hctor => ?_) hlost' _ hlast q hq (hqn.trans_ne hnew.symm) hown hmem
  · -- its buffer goes when the command that was denied is destroyed
    rw [reserved_destroy] at hspared
    refine ((MetaRsrc.mem_releaseMetaBuf (World.wf _)).1 hspared).2 hne ?_
    rw [hqID, freeID, hrsrc, ← freeID, hfreeID]
  · rcases List.mem_cons.1 hctor with heq | hctor
    · cases heq
    · cases List.mem_singleton.1 hctor
      exact hnew rfl

/-! ## The exception -/

/-- After a disable the lists are empty, and the command has its record if it is there. -/
theorem undone_iff_of_disable {ctor : List FwCall} (hdir : o.dataDir = .none → o.mMetaData = .default)
    (ho : o ∈ w.objs) (hcmd : o.objType.isCmd = true) (h : Threw w w' o) (hlost : (w'.calls drv ctor).lost = false)
    (hd : w'.callsDisable drv ctor = true) : Undone w (w'.calls drv ctor) o ↔
      w.rsrc.mMetaReserved = [] ∧ w.rsrc.mMetaReleased = [] ∧
        (o.outlives = true → (w.spoilt o).mMetaData = .default) := by
  obtain ⟨hres, hrel⟩ := lists_calls (Or.inl hd)
  constructor
  · intro hundone
    have hnil : w.rsrc.mMetaReserved = [] := hundone.lists.1.symm.trans hres
    refine ⟨hnil, hundone.lists.2.symm.trans hrel, fun hout => ?_⟩
    by_contra hne
    obtain ⟨p, hp, hph, hpm, -⟩ := stays_calls drv (h.mem ho) ((spoilt_outlives w o).trans hout) ctor
    have hfreeID : (w'.calls drv ctor).freeID = 0 := by
      rw [freeID, hres]
      rfl
    have hleft : (w.spoilt o).mMetaData.ID = 0 := by
      unfold spoilt
      split
      · rename_i hnone
        rw [hdir hnone]
        rfl
      · rw [left, hnil]
        rfl
    have hobj : (w'.calls drv ctor).obj o.handle = some p := by
      rw [← spoilt_handle w o, ← hph]
      exact obj_of_mem (sane_calls h.sane ctor) hp
    refine not_undone hobj (by rwa [hpm]) ?_ ?_ hrel hundone
    · rw [hpm, hleft, hfreeID]
    · rw [hfreeID]
      exact Nat.two_pow_pos _
  · rintro ⟨hnil, hnil', hleft⟩
    refine undone_of_record (r := .default) hlost ⟨hres.trans hnil.symm, hrel.trans hnil'.symm⟩ (fun p hp hph => ?_)
      (.inl rfl)
    cases hout : o.outlives with
    | true =>
      obtain ⟨q, hq, hqh, hqm⟩ := mem_calls drv w' ctor p hp
      rw [hqm, h.record q hq (hqh.symm.trans hph), hleft hout]
    | false =>
      refine absurd (hph.trans (spoilt_handle w o).symm) (gone_calls h.sane (h.mem ho) ?_ ?_ hd p hp)
      · rwa [spoilt_objType]
      · rwa [spoilt_outlives]

/-- Without a disable it stays with what was written. -/
theorem undone_iff_of_log {ctor : List FwCall} (hdir : o.dataDir = .none → o.mMetaData = .default)
    (hthrows : o.dataDir = .none ∨ w.rsrc.canReserve drv = false) (ho : o ∈ w.objs) (h : Threw w w' o)
    (hlost : (w'.calls drv ctor).lost = false) (hd : w'.callsDisable drv ctor = false) :
    Undone w (w'.calls drv ctor) o ↔ w.Unwritten o := by
  have hlog := onlyLog_calls hd
  have hres := hlog.reserved.trans h.reserved
  have hrel := hlog.released.trans h.released
  rw [unwritten_iff hdir]
  constructor
  · intro hundone
    by_contra hcon
    obtain ⟨hne, hlarge⟩ := not_or.1 hcon
    have hnone : o.dataDir ≠ .none := by
      intro hnone
      rw [spoilt, if_pos hnone] at hne
      exact hne (hdir hnone)
    have hleft : (w.spoilt o).mMetaData = w.left o := by rw [spoilt, if_neg hnone]
    have hobj : (w'.calls drv ctor).obj o.handle = some (w.spoilt o) := by
      rw [← spoilt_handle w o]
      exact obj_of_mem (sane_calls h.sane ctor) (hlog.objs.symm ▸ h.mem ho)
    by_cases hdefault : o.mMetaData = .default
    · -- it had no buffer, and has a mask
      have hmask := (hundone.none hdefault drv [] (fun _ => List.not_mem_nil) hundone.lost _ hobj).1
      exact hne (bne_eq_false_iff_eq.1 hmask)
    · have hfreeID : (w'.calls drv ctor).freeID = w.freeID := by rw [freeID, freeID, hres]
      have hID : (w.spoilt o).mMetaData.ID = w.freeID := by
        rw [hleft]
        rfl
      refine not_undone hobj hne (hID.trans hfreeID.symm) ?_ ?_ hundone
      · rw [hfreeID, ← hID]
        by_contra hge
        exact hlarge ⟨by omega, hdefault⟩
      · rw [hrel, released_nil (hthrows.resolve_left hnone)]
  · intro hr
    refine undone_of_record hlost ⟨hres, hrel⟩ (fun p hp hph => ?_) hr
    exact h.record p (hlog.objs ▸ hp) hph

/-! ## The theorem -/

/-- **A failed `AllocMetaBuffer` is undone exactly if there was nothing to write, and nothing for the exception to take
away.** -/
theorem allocAtomic_iff (drv : Driver) (ops : List Op) (handle : Nat) (ctor : List FwCall) :
    ((Runs.run (step drv) init ops).lost = false → AllocAtomic drv (Runs.run (step drv) init ops) handle ctor) ↔
      ((Runs.run (step drv) init ops).lost = false → ∀ o, (Runs.run (step drv) init ops).cmd handle = some o →
        Harmless drv (Runs.run (step drv) init ops) o ctor) := by
  have hsane : (Runs.run (step drv) init ops).Sane :=
    Runs.inv_run (J := Sane) (fun _ op hs => sane_step hs op) sane_init ops
  have hdirs := default_of_dataDir drv ops
  generalize Runs.run (step drv) init ops = w at hsane hdirs ⊢
  refine forall_congr' fun hlost => forall₂_congr fun o hcmd => ?_
  obtain ⟨ho, rfl⟩ := obj_some (cmd_some hcmd).1
  have hok := allocMetaBuffer_iff drv w o
  have hthrows : (w.allocMetaBuffer drv o).2 = false ↔ (o.dataDir = .none ∨ w.rsrc.canReserve drv = false) := by
    rw [← Bool.not_eq_true, hok, not_not]
  rw [Harmless, hthrows]
  refine forall_congr' fun hwhy => ?_
  have hthrew := threw_alloc hsane ho (cmd_some hcmd).2 (hthrows.2 hwhy)
  have hsurvives := lost_step_iff drv w (.allocMetaBuffer o.handle ctor)
  have hstep : w.step drv (.allocMetaBuffer o.handle ctor) = (w.allocMetaBuffer drv o).1.calls drv ctor := by
    simp only [step, hcmd, hthrows.2 hwhy, Bool.false_eq_true, if_false]
  rw [and_iff_right hlost, hstep] at hsurvives
  rw [hstep, ← hsurvives]
  by_cases hlives : ((w.allocMetaBuffer drv o).1.calls drv ctor).lost = false
  · rw [and_iff_right hlives]
    split
    · rename_i hd
      exact undone_iff_of_disable (hdirs o ho) ho (cmd_some hcmd).2 hthrew hlives hd
    · rename_i hd
      exact undone_iff_of_log (hdirs o ho) hwhy ho hthrew hlives (Bool.eq_false_iff.2 hd)
  · exact iff_of_false (fun hundone => hlives hundone.lost) fun h => hlives h.1

/-- The driver gives the meta data buffers a size, but no memory. -/
def denyMetaBufs : Driver :=
  { MetaRsrc.grantingDriver with
    ioctl := fun _ req => match req with
      | .metabufAlloc _ => -12
      | _ => 0 }

/-- The command is denied a buffer, and would be sent with one. -/
theorem denied_with_mask :
    ¬AllocAtomic denyMetaBufs
      (Runs.run (step denyMetaBufs) init [.setMetaAllocSize 512, .newObj 1 .write .toDevice]) 1 [] := by
  intro h
  have hundone := h (.new 1 .write none .toDevice) (by decide) (by decide)
  have hmask := (hundone.none rfl denyMetaBufs [] (fun _ => List.not_mem_nil) (by decide)
    { Obj.new 1 .write none .toDevice with mMetaData := ⟨.null, 512, 0⟩ } (by decide)).1
  exact absurd hmask (by decide)

end Tnvme.World
