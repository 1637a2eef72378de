import Tnvme.Fw.FrmwkEx
import Tnvme.Meta.Store

/-!
# Whether a constructor of `FrmwkEx` ends

The flag stops an exception within an exception, but the log of dnvme is marked before the flag is looked at. A refused
mark is an exception of its own, which marks the log first of all; so the recursion goes on until dnvme accepts a mark.

* A constructor that finds the flag set ends as soon as a mark is accepted (`ends_iff_of_flag`).
* Any other one must survive the processing, and needs a second mark if that fails after the first (`ends_iff`).
-/

namespace Tnvme

namespace FrmwkEx

open World

variable (drv : Driver) (su : Setup)

/-- The constructor ends, after finitely many constructions within it. -/
def Ends (w : World) : Prop := ∃ fuel r, construct drv su fuel w = some r

/-- The world after a number of marks. -/
def marks : Nat → World → World
  | 0, w => w
  | n + 1, w => marks n (w.ioctl drv startMark)

/-- Sooner or later dnvme accepts a mark. -/
def AcceptsMark (w : World) : Prop := ∃ n, 0 ≤ drv.ioctl (marks drv n w).rsrc.log startMark

/-- The world in which the processing of an exception fails, if it does: without `--postfail` when the device cannot be
disabled, with it when any part of the processing throws. -/
def givesUp (w : World) : Option World :=
  if w.mPrelimProcessingInProgress || (processing drv su (enter w)).2 then none
  else some (processing drv su (enter w)).1

/-- The processing of an exception, if there is any, does not end the program. -/
def Lives (w : World) : Prop := w.mPrelimProcessingInProgress = false → w.lost = false ∧ Survives drv su (enter w)

variable {drv : Driver} {su : Setup} {w v u : World} {fuel : Nat}

/-! ## Marks -/

theorem acceptsMark_of_accepted (h : ¬drv.ioctl w.rsrc.log startMark < 0) : AcceptsMark drv w :=
  ⟨0, Int.not_lt.1 h⟩

/-- A refused mark is followed by the next one. -/
theorem acceptsMark_of_refused (h : drv.ioctl w.rsrc.log startMark < 0) :
    AcceptsMark drv w ↔ AcceptsMark drv (w.ioctl drv startMark) := by
  constructor
  · rintro ⟨n, hn⟩
    cases n with
    | zero => exact absurd hn (Int.not_le.2 h)
    | succ n => exact ⟨n, hn⟩
  · rintro ⟨n, hn⟩
    exact ⟨n + 1, hn⟩

theorem acceptsMark_of_marked (h : marked drv fuel w = some v) : AcceptsMark drv w := by
  induction fuel generalizing w with
  | zero => cases h
  | succ fuel ih =>
    unfold marked at h
    split at h
    · rename_i hrc
      exact (acceptsMark_of_refused hrc).2 (ih h)
    · rename_i hrc
      exact acceptsMark_of_accepted hrc

theorem marked_of_acceptsMark (h : AcceptsMark drv w) : ∃ fuel v, marked drv fuel w = some v := by
  obtain ⟨n, hn⟩ := h
  refine ⟨n + 1, ?_⟩
  induction n generalizing w with
  | zero => exact ⟨_, if_neg (Int.not_lt.2 hn)⟩
  | succ n ih =>
    unfold marked
    split
    · exact ih hn
    · exact ⟨_, rfl⟩

/-! ## One constructor -/

theorem lives_iff (w : World) : Lives drv su w ↔
    (w.mPrelimProcessingInProgress = false → (processing drv su (enter w)).1.lost = false) :=
  forall_congr' fun _ => (lost_processing_iff drv su (enter w)).symm

/-- Processing that does not fail builds the exception. -/
theorem process_built (hlives : Lives drv su w) (h : givesUp drv su w = none) :
    ∃ w', ∀ nested, process drv su nested w = some (w', .built) := by
  rw [lives_iff] at hlives
  unfold process disableDevice
  cases hflag : w.mPrelimProcessingInProgress with
  | true => exact ⟨w, fun _ => rfl⟩
  | false =>
    have hok : (processing drv su (enter w)).2 = true := by simpa [givesUp, hflag] using h
    simp [hlives hflag, hok]

/-- Processing that fails throws another exception. -/
theorem process_nested (hlives : Lives drv su w) (h : givesUp drv su w = some u)
    (nested : World → Option (World × CtorEnd)) : process drv su nested w = nested u := by
  rw [lives_iff] at hlives
  unfold givesUp at h
  split at h
  · cases h
  · rename_i hfails
    obtain ⟨hflag, hok⟩ : w.mPrelimProcessingInProgress = false ∧ (processing drv su (enter w)).2 = false := by
      simpa using hfails
    cases h
    simp [process, disableDevice, hflag, hok, hlives hflag]

/-- A program that ends in the processing builds nothing. -/
theorem process_none (h : ¬Lives drv su w) (nested : World → Option (World × CtorEnd)) :
    process drv su nested w = none := by
  rw [lives_iff, Classical.not_imp, Bool.not_eq_false] at h
  simp [process, disableDevice, h.1, h.2]

/-- What is thrown while an exception is processed finds the flag set. -/
theorem flag_givesUp (h : givesUp drv su w = some u) : u.mPrelimProcessingInProgress = true := by
  unfold givesUp at h
  split at h
  · cases h
  · cases h
    exact (processing_log drv su (enter w)).1

theorem ends_of_refused (h : drv.ioctl w.rsrc.log startMark < 0) :
    Ends drv su w ↔ Ends drv su (w.ioctl drv startMark) := by
  constructor
  · rintro ⟨fuel, r, hr⟩
    cases fuel with
    | zero => cases hr
    | succ fuel =>
      simp only [construct, if_pos h, Option.map_eq_some_iff] at hr
      obtain ⟨r', hr', _⟩ := hr
      exact ⟨fuel, r', hr'⟩
  · rintro ⟨fuel, r, hr⟩
    exact ⟨fuel + 1, (r.1, .nested), by simp [construct, h, hr]⟩

theorem ends_of_accepted (h : ¬drv.ioctl w.rsrc.log startMark < 0) :
    Ends drv su w ↔ Lives drv su (w.ioctl drv startMark) ∧
      ∀ u, givesUp drv su (w.ioctl drv startMark) = some u → Ends drv su u := by
  constructor
  · rintro ⟨fuel, r, hr⟩
    cases fuel with
    | zero => cases hr
    | succ fuel =>
      simp only [construct, if_neg h] at hr
      have hlives : Lives drv su (w.ioctl drv startMark) := by
        by_contra hdies
        rw [process_none hdies] at hr
        cases hr
      refine ⟨hlives, fun u hu => ?_⟩
      rw [process_nested hlives hu, Option.map_eq_some_iff] at hr
      obtain ⟨r', hr', _⟩ := hr
      exact ⟨fuel, r', hr'⟩
  · rintro ⟨hlives, hends⟩
    cases hup : givesUp drv su (w.ioctl drv startMark) with
    | none =>
      obtain ⟨w', hw'⟩ := process_built hlives hup
      exact ⟨1, (w', .built), by simp only [construct, if_neg h, hw']⟩
    | some u =>
      obtain ⟨fuel, r, hr⟩ := hends u hup
      exact ⟨fuel + 1, (r.1, .nested), by simp [construct, h, process_nested hlives hup, hr]⟩

/-! ## The recursion -/

/-- The constructor that gets through decides how it goes on. -/
theorem ends_of_marked (h : marked drv fuel w = some v) :
    Ends drv su w ↔ Lives drv su v ∧ ∀ u, givesUp drv su v = some u → Ends drv su u := by
  induction fuel generalizing w with
  | zero => cases h
  | succ fuel ih =>
    unfold marked at h
    split at h
    · rename_i hrc
      exact (ends_of_refused hrc).trans (ih h)
    · rename_i hrc
      cases h
      exact ends_of_accepted hrc

/-- No constructor ends without a mark. -/
theorem Ends.acceptsMark (h : Ends drv su w) : AcceptsMark drv w := by
  obtain ⟨fuel, ⟨w', e⟩, hr⟩ := h
  obtain ⟨v, hv, _⟩ := construct_spec hr
  exact acceptsMark_of_marked hv

theorem ends_iff_of_flag (hflag : w.mPrelimProcessingInProgress = true) : Ends drv su w ↔ AcceptsMark drv w := by
  refine ⟨Ends.acceptsMark, fun h => ?_⟩
  obtain ⟨fuel, v, hv⟩ := marked_of_acceptsMark h
  have hset : v.mPrelimProcessingInProgress = true := by
    clear h
    induction fuel generalizing w with
    | zero => cases hv
    | succ fuel ih =>
      unfold marked at hv
      split at hv
      · exact ih (w := w.ioctl drv startMark) hflag hv
      · cases hv
        exact hflag
  rw [ends_of_marked hv]
  refine ⟨fun hclear => absurd (hset.symm.trans hclear) (by decide), fun u hu => ?_⟩
  simp [givesUp, hset] at hu

/-- **When a constructor ends**: dnvme accepts a mark sooner or later, the processing that follows does not end the
program, and should it fail, dnvme accepts a mark once more. -/
theorem ends_iff (drv : Driver) (su : Setup) (w : World) :
    Ends drv su w ↔ ∃ fuel v, marked drv fuel w = some v ∧ Lives drv su v ∧
      ∀ u, givesUp drv su v = some u → AcceptsMark drv u := by
  have hnested : ∀ v, (∀ u, givesUp drv su v = some u → Ends drv su u) ↔
      ∀ u, givesUp drv su v = some u → AcceptsMark drv u :=
    fun v => forall₂_congr fun u hu => ends_iff_of_flag (flag_givesUp hu)
  constructor
  · intro h
    obtain ⟨fuel, v, hv⟩ := marked_of_acceptsMark h.acceptsMark
    obtain ⟨hlives, hends⟩ := (ends_of_marked hv).1 h
    exact ⟨fuel, v, hv, hlives, (hnested v).1 hends⟩
  · rintro ⟨fuel, v, hv, hlives, h⟩
    exact (ends_of_marked hv).2 ⟨hlives, (hnested v).2 h⟩

/-- A driver that fails whatever it is asked for. -/
def refusingDriver : Driver := { MetaRsrc.grantingDriver with ioctl := fun _ _ => -1 }

/-- With such a driver the first exception is never built. -/
theorem refused_marks_recur : ¬Ends refusingDriver ⟨false, "", fun _ => ([], true)⟩ init := by
  intro h
  obtain ⟨n, hn⟩ := h.acceptsMark
  have hrefused : refusingDriver.ioctl (marks refusingDriver n init).rsrc.log startMark = -1 := rfl
  rw [hrefused] at hn
  exact absurd hn (by decide)

end FrmwkEx

end Tnvme
