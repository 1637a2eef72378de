import Tnvme.Fw.Follows
import Tnvme.Fw.FrmwkEx

/-!
# What an exception leaves in the resource manager

The constructor of an exception either gets the device disabled completely, and then the resource manager holds nothing
any more, or it leaves the objects alone (`construct_objs`).
-/

namespace Tnvme

namespace FrmwkEx

open World

/-- The complete disable that the processing of an exception asks for is accepted; with `--postfail` a snapshot is taken
first. -/
def Accepted (drv : Driver) (su : Setup) (w : World) : Prop :=
  if su.postfail then
    (snapshot drv su w).2 = true ∧ (snapshot drv su w).1.accepts drv .disableCompletely = true
  else w.accepts drv .disableCompletely = true

/-- An exception that has marked the log finds the flag clear, and gets the device disabled. -/
def GetsDisabled (drv : Driver) (su : Setup) (w : World) : Prop :=
  w.mPrelimProcessingInProgress = false ∧ Accepted drv su (enter w)

variable {drv : Driver} {su : Setup} {w w' : World}

/-- An empty map stays empty: nothing is allocated on the way. -/
theorem map_nil_run (h : w.mObjGrpLife = []) (c : FwCall) : (c.run drv w).mObjGrpLife = [] := by
  cases hc : c.disables drv w with
  | false => rw [mObjGrpLife, (onlyLog_run hc).objs]; exact h
  | true =>
    obtain ⟨keep, _, hobjs⟩ := (freed_run hc).objs
    refine List.filter_eq_nil_iff.2 fun o ho => ?_
    rw [hobjs] at ho
    obtain ⟨p, hp, rfl⟩ := List.mem_map.1 ho
    have hnone := List.filter_eq_nil_iff.1 h p (List.mem_filter.1 hp).1
    split
    · exact hnone
    · simp

theorem map_congr {v : World} (h : w.objs = v.objs) : w.mObjGrpLife = v.mObjGrpLife := congrArg (List.filter _) h

/-- While the flag is set, an exception leaves the objects alone. -/
theorem onlyLog_construct_of_flag {fuel : Nat} {e : CtorEnd} (hflag : w.mPrelimProcessingInProgress = true)
    (h : construct drv su fuel w = some (w', e)) : OnlyLog w w' := by
  induction fuel generalizing w e with
  | zero => cases h
  | succ fuel ih =>
    have hmark : OnlyLog w (w.ioctl drv startMark) := onlyLog_ioctl w startMark
    simp only [construct] at h
    split at h
    · obtain ⟨⟨v, e'⟩, hv, heq⟩ := Option.map_eq_some_iff.1 h
      cases heq
      exact hmark.trans (ih (hmark.flag.trans hflag) hv)
    · rw [process, if_pos (hmark.flag.trans hflag)] at h
      cases h
      exact hmark

/-- `DumpStateOfTheSystem`, once the flag is set, asks for a complete disable, or does not get that far. -/
theorem preliminaryProcessing_objs (w : World) :
    if (snapshot drv su w).2 = true ∧ (snapshot drv su w).1.accepts drv .disableCompletely = true then
      (preliminaryProcessing drv su w).1.mObjGrpLife = []
    else (preliminaryProcessing drv su w).1.objs = w.objs ∧ (preliminaryProcessing drv su w).2 = false := by
  have hlog : OnlyLog w (snapshot drv su w).1 := onlyLog_snapshot w
  unfold preliminaryProcessing andThen
  cases hok : (snapshot drv su w).2 with
  | false => simpa [hok] using hlog.objs
  | true =>
    have hres := setState_ok drv (snapshot drv su w).1 .disableCompletely nofun
    cases hacc : (snapshot drv su w).1.accepts drv .disableCompletely with
    | false =>
      rw [hacc] at hres
      simpa [hok, hres] using (setState_refused hacc).objs.trans hlog.objs
    | true =>
      rw [hacc] at hres
      have hgather := onlyLog_gatherIntrusive drv su ((snapshot drv su w).1.setState drv .disableCompletely).1
      simpa [hok, hres] using (map_congr hgather.objs).trans (emptied_of_disableCompletely hacc).map

/-- The processing empties the map, or leaves the objects alone and fails. -/
theorem processing_objs (w : World) : (Accepted drv su w → (processing drv su w).1.mObjGrpLife = []) ∧
    (¬Accepted drv su w → (processing drv su w).1.objs = w.objs ∧ (processing drv su w).2 = false) := by
  unfold Accepted processing
  by_cases hpost : su.postfail = true
  · simp only [if_pos hpost]
    have hpre := @preliminaryProcessing_objs drv su w
    split at hpre
    · rename_i hacc
      exact ⟨fun _ => hpre, fun hno => absurd hacc hno⟩
    · rename_i hno
      exact ⟨fun hacc => absurd hacc hno, fun _ => hpre⟩
  · simp only [if_neg hpost, setState_ok drv w .disableCompletely nofun]
    refine ⟨fun hacc => (emptied_of_disableCompletely hacc).map, fun hno => ?_⟩
    rw [Bool.not_eq_true] at hno
    exact ⟨(setState_refused hno).objs, hno⟩

theorem disableDevice_objs {nested : World → Option (World × CtorEnd)} {e : CtorEnd}
    (hnested : ∀ {v r}, v.mPrelimProcessingInProgress = true → nested v = some r → r.1.objs = v.objs)
    (hflag : w.mPrelimProcessingInProgress = true) (h : disableDevice drv su nested w = some (w', e)) :
    (Accepted drv su w → w'.mObjGrpLife = []) ∧ (¬Accepted drv su w → w'.objs = w.objs) := by
  obtain ⟨hdis, hno⟩ := @processing_objs drv su w
  have hset := (processing_log drv su w).1.trans hflag
  simp only [disableDevice] at h
  split at h
  · cases h
  · split at h
    · rename_i hok
      cases h
      refine ⟨fun hacc => ?_, fun hnot => absurd ((hno hnot).2.symm.trans hok) (by decide)⟩
      split
      · exact map_nil_run (hdis hacc) (.setState .disable)
      · exact hdis hacc
    · exact ⟨fun hacc => (map_congr (hnested hset h)).trans (hdis hacc),
        fun hnot => (hnested hset h).trans (hno hnot).1⟩

/-- **An exception either gets the device disabled, and then nothing is left in the map, or leaves the objects
alone.** -/
theorem construct_objs {fuel : Nat} {e : CtorEnd} (h : construct drv su fuel w = some (w', e)) :
    ∃ v, marked drv fuel w = some v ∧ (GetsDisabled drv su v → w'.mObjGrpLife = []) ∧
      (¬GetsDisabled drv su v → w'.objs = w.objs) := by
  induction fuel generalizing w e with
  | zero => cases h
  | succ fuel ih =>
    have hmark : OnlyLog w (w.ioctl drv startMark) := onlyLog_ioctl w startMark
    simp only [construct] at h
    unfold marked
    split at h
    · rename_i hrc
      rw [if_pos hrc]
      obtain ⟨⟨v', e'⟩, hv', heq⟩ := Option.map_eq_some_iff.1 h
      cases heq
      obtain ⟨v, hv, hdis, hno⟩ := ih hv'
      exact ⟨v, hv, hdis, fun hnot => (hno hnot).trans hmark.objs⟩
    · rename_i hrc
      rw [if_neg hrc]
      refine ⟨_, rfl, ?_⟩
      unfold process at h
      split at h
      · rename_i hflag
        cases h
        exact ⟨fun hdis => absurd (hdis.1.symm.trans hflag) (by simp), fun _ => rfl⟩
      · rename_i hflag
        have hobjs := disableDevice_objs (fun {v r} hv hr => ?_) rfl h
        · obtain ⟨hdis, hno⟩ := hobjs
          exact ⟨fun hgets => hdis hgets.2, fun hnot => hno fun hacc => hnot ⟨Bool.eq_false_iff.2 hflag, hacc⟩⟩
        · obtain ⟨r', hr', rfl⟩ := Option.map_eq_some_iff.1 hr
          exact (onlyLog_construct_of_flag hv hr').objs

end FrmwkEx

end Tnvme
