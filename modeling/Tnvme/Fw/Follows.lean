import Tnvme.Fw.Commands

/-!
# How the resource manager follows the controller

`SetState` tells its observers what it has done, and the resource manager frees what a disable takes away. After a
complete disable it holds nothing, if that has not destroyed a queue without memory, and a `SetState` that fails leaves
it alone. A mere disable should leave the admin queues, but the loop of `FreeAllObjNotASQACQ` moves on from an element
that it has just erased. `follows_run_iff` says that a run goes well exactly if neither happens.
-/

namespace Tnvme

namespace World

variable (drv : Driver) (w : World)

/-- The map and the store are the same. -/
structure SameRsrc (w w' : World) : Prop where
  map : w'.mObjGrpLife = w.mObjGrpLife
  reserved : w'.rsrc.mMetaReserved = w.rsrc.mMetaReserved
  released : w'.rsrc.mMetaReleased = w.rsrc.mMetaReleased
  size : w'.rsrc.mMetaAllocSize = w.rsrc.mMetaAllocSize

/-- The map and the store are empty. -/
structure Emptied (w : World) : Prop where
  map : w.mObjGrpLife = []
  reserved : w.rsrc.mMetaReserved = []
  released : w.rsrc.mMetaReleased = []
  size : w.rsrc.mMetaAllocSize = 0

/-- What is to be after a `SetState`. A disable is to get through its loop, and to leave the admin queues in the map
and nothing else. -/
structure Follows (state : NvmeState) : Prop where
  failed : (w.setState drv state).2 = false → SameRsrc w (w.setState drv state).1
  disableCompletely : state = .disableCompletely → (w.setState drv state).2 = true →
    Emptied (w.setState drv state).1
  disable : state = .disable → (w.setState drv state).2 = true →
    ∃ v, (w.ioctl drv (.deviceState .disable)).eraseLoop drv w.byName = some v ∧
      v.mObjGrpLife = w.mObjGrpLife.filter (·.objType.isAdminQ) ∧
      (w.setState drv state).1 = { v.store drv .freeAllMetaBuf with disables := w.disables + 1 }

/-- A disable that succeeds finds nothing but admin queues in the map. -/
def OnlyAdminQs (state : NvmeState) : Prop :=
  state = .disable → w.accepts drv .disable = true → ∀ o ∈ w.mObjGrpLife, o.objType.isAdminQ = true

/-- The calls of `SetState` during an operation, with the worlds that they start from. -/
def setStates : Op → List (World × FwCall)
  | .call c => [(w, c)]
  | .allocMetaBuffer handle ctor =>
    match w.cmd handle with
    | none => []
    | some o =>
      if (w.allocMetaBuffer drv o).2 then []
      else Runs.steps (FwCall.run drv) (w.allocMetaBuffer drv o).1 ctor
  | _ => []

variable {drv} {w} {state : NvmeState} {o : Obj}

/-! ## `SetState` -/

/-- A `SetState` that fails leaves the map and the store alone, whatever it has asked for. -/
theorem sameRsrc_of_fails (h : (w.setState drv state).2 = false) : SameRsrc w (w.setState drv state).1 := by
  have hrefused : w.accepts drv state = false := by
    by_cases hstate : state = .enable
    · rw [hstate]
      rfl
    · exact (setState_ok drv w state hstate).symm.trans h
  have hlog := setState_refused hrefused
  exact ⟨congrArg (List.filter _) hlog.objs, hlog.reserved, hlog.released, hlog.size⟩

theorem emptied_of_disableCompletely (h : w.accepts drv .disableCompletely = true) :
    Emptied (w.setState drv .disableCompletely).1 := by
  have hfreed := setState_accepted h
  refine ⟨?_, hfreed.reserved, hfreed.released, hfreed.size⟩
  rw [(setState_update h).2]
  refine List.filter_eq_nil_iff.2 fun o ho => ?_
  obtain ⟨p, _, rfl⟩ := List.mem_map.1 ho
  simp

/-- **A `SetState` goes well exactly if it need not erase anything from the map one by one.** -/
theorem follows_iff (drv : Driver) (w : World) (state : NvmeState) : w.Follows drv state ↔ w.OnlyAdminQs drv state := by
  have hin : ∀ o ∈ w.byName, o ∈ (w.ioctl drv (.deviceState .disable)).mObjGrpLife := fun o ho => mem_byName.1 ho
  constructor
  · rintro h rfl hacc o ho
    obtain ⟨v, hv, _⟩ := h.disable rfl ((setState_ok drv w .disable nofun).trans hacc)
    exact ((eraseLoop_eq_some_iff hin).1 hv).2 o (mem_byName.2 ho)
  · intro h
    refine ⟨sameRsrc_of_fails, ?_, ?_⟩
    · rintro rfl hok
      exact emptied_of_disableCompletely ((setState_ok drv w .disableCompletely nofun).symm.trans hok)
    · rintro rfl hok
      have hacc : w.accepts drv .disable = true := (setState_ok drv w .disable nofun).symm.trans hok
      have hmap : ∀ o ∈ (w.ioctl drv (.deviceState .disable)).mObjGrpLife, o.objType.isAdminQ = true := h rfl hacc
      refine ⟨w.ioctl drv (.deviceState .disable), (eraseLoop_eq_some_iff hin).2 ⟨rfl, ?_⟩, ?_, ?_⟩
      · exact fun o ho => hmap o (mem_byName.1 ho)
      · exact (List.filter_eq_self.2 hmap).symm
      · rw [(setState_update hacc).2, update, freeAllObjNotASQACQ_eq hmap]
        rfl

/-! ## Runs -/

/-- Every `SetState` of the operation goes well. -/
def OpFollows (drv : Driver) (w : World) (op : Op) : Prop :=
  ∀ x ∈ w.setStates drv op, ∀ state, x.2 = .setState state → x.1.Follows drv state

/-- An operation that the world survives finds nothing to erase. -/
theorem opFollows_of_survives {op : Op} (h : Survives drv w op) : OpFollows drv w op := by
  have hcall : ∀ {v : World} {c : FwCall}, c.Survives drv v → ∀ state, c = .setState state → v.Follows drv state := by
    rintro v _ hv state rfl
    refine (follows_iff drv v state).2 ?_
    rintro rfl
    exact hv
  cases op with
  | call c =>
    intro x hx
    rw [List.mem_singleton.1 hx]
    exact hcall h
  | allocMetaBuffer handle ctor =>
    intro x hx
    simp only [setStates] at hx
    split at hx
    · cases hx
    · rename_i o hobj
      split at hx
      · cases hx
      · rename_i hthrew
        exact hcall (h o hobj (by_contra fun hnot => hthrew ((allocMetaBuffer_iff drv w o).2 hnot)) x hx)
  | _ => exact fun x hx => absurd hx List.not_mem_nil

/-- **The resource manager follows the controller through a run that gets to its end exactly if the world survives every
operation: a disable that is not complete finds nothing but admin queues in the map, and no queue is destroyed that has
no memory.** -/
theorem follows_run_iff (drv : Driver) (ops : List Op) :
    (∀ x ∈ Runs.steps (step drv) init ops, OpFollows drv x.1 x.2 ∧ (step drv x.1 x.2).lost = false) ↔
      ∀ x ∈ Runs.steps (step drv) init ops, Survives drv x.1 x.2 := by
  refine Runs.good_run_iff (J := fun _ => True) (P := fun w : World => w.lost = false) (fun _ _ _ => trivial)
    (fun w op _ hlost => ?_) trivial rfl ops
  rw [lost_step_iff, and_iff_right hlost]
  exact and_iff_right_of_imp opFollows_of_survives

/-- A disable with an I/O queue in the map moves an iterator whose element is gone. -/
theorem disable_moves_erased :
    ¬∀ x ∈ Runs.steps (step MetaRsrc.grantingDriver) init [.allocObj 1 .iocq "IOCQ" .none,
      .call (.setState .disable)], OpFollows MetaRsrc.grantingDriver x.1 x.2 := by
  intro h
  have hfollows := h _ (List.mem_cons_of_mem _ (List.mem_singleton_self _)) _ (List.mem_singleton_self _) _ rfl
  have honly := (follows_iff _ _ _).1 hfollows rfl (by decide) (.new 1 .iocq (some "IOCQ") .none) (by decide)
  exact absurd honly (by decide)

end World

end Tnvme
