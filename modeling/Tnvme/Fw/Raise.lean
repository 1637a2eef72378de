import Tnvme.Fw.FrmwkEx

/-!
# Raised exceptions over whole runs

`Test::Run` and `Test::Runnable` catch what the tests throw: `catch (FrmwkEx &ex)` destroys the exception, `catch (...)`
loses the pointer of one that was thrown with `new`. The flag then stays set, and the next exception finds it so and
leaves the device running. `disablesFirst_run_iff` gives the exact condition, and `disablesFirst_of_byValue` says that
all is well without pointers and without `--postfail`.
-/

namespace Tnvme

namespace FrmwkEx

open World

variable (drv : Driver) (su : Setup)

/-- `throw FrmwkEx(..)` or `throw new FrmwkEx(..)` -/
inductive Throw where
  | byValue
  | byPointer
  deriving DecidableEq, Repr

/-- The handler is done with what came out of the constructor. A nested exception is thrown by value. -/
def caught (how : Throw) : CtorEnd → World → World
  | .nested, w => destruct w
  | .built, w =>
    match how with
    | .byValue => destruct w
    | .byPointer => w

/-- A test throws, and the handler catches; `none` if the constructor does not end. -/
def raise (fuel : Nat) (how : Throw) (w : World) : Option World :=
  (construct drv su fuel w).map fun r => caught how r.2 r.1

/-- An exception that is thrown and caught, or anything else; nothing else touches the flag. -/
inductive Event where
  | work (w' : World)
  | raise (how : Throw)

/-- An exception whose constructor does not end leaves the world as it is. -/
def step (fuel : Nat) (w : World) : Event → World
  | .work w' => { w' with mPrelimProcessingInProgress := w.mPrelimProcessingInProgress }
  | .raise how => (raise drv su fuel how w).getD w

/-- The exception asks for a disable before it gets out of its constructor. -/
def DisablesFirst (fuel : Nat) (w : World) : Event → Prop
  | .work _ => True
  | .raise _ => ∀ w' e, construct drv su fuel w = some (w', e) →
      Requested .disable w w' ∨ Requested .disableCompletely w w'

/-- If the constructor ends, it finds the flag clear, and with `--postfail` it can take the snapshot. -/
def Armed (fuel : Nat) (w : World) : Event → Prop
  | .work _ => True
  | .raise _ => ∀ v, marked drv fuel w = some v → (construct drv su fuel w).isSome = true →
      w.mPrelimProcessingInProgress = false ∧ (su.postfail = true → (snapshot drv su (enter v)).2 = true)

variable {drv su} {w : World} {fuel : Nat}

theorem disablesFirst_iff (w : World) (ev : Event) : DisablesFirst drv su fuel w ev ↔ Armed drv su fuel w ev := by
  cases ev with
  | work w' => exact Iff.rfl
  | raise how =>
    cases hctor : construct drv su fuel w with
    | none => simp [DisablesFirst, Armed, hctor]
    | some r =>
      obtain ⟨w', e⟩ := r
      obtain ⟨v, hv, _, hlog, _, hreq, hno⟩ := construct_spec hctor
      have hflag : Disables drv su v ↔ w.mPrelimProcessingInProgress = false ∧
          (su.postfail = true → (snapshot drv su (enter v)).2 = true) := by
        rw [Disables, hlog.flag]
      simp only [DisablesFirst, Armed, hctor, hv, Option.some.injEq, forall_eq', Option.isSome_some, forall_const]
      rw [← hflag]
      constructor
      · intro h
        by_contra hd
        rcases h w' e rfl with hr | hr <;> exact (hno hd).not_requested hr
      · rintro hd _ _ ⟨⟩
        exact Or.inr (hreq hd)

/-- **Every exception of a run disables the device first exactly if each finds the flag clear and gets its
snapshot.** -/
theorem disablesFirst_run_iff (drv : Driver) (su : Setup) (fuel : Nat) (events : List Event) :
    (∀ x ∈ Runs.steps (step drv su fuel) init events, DisablesFirst drv su fuel x.1 x.2) ↔
      ∀ x ∈ Runs.steps (step drv su fuel) init events, Armed drv su fuel x.1 x.2 :=
  forall₂_congr fun x _ => disablesFirst_iff x.1 x.2

/-- An exception from `GetCEStat`, and then any other one, which does not disable the device. -/
theorem flag_left_by_pointer :
    ¬∀ x ∈ Runs.steps (step MetaRsrc.grantingDriver ⟨false, "", fun _ => ([], true)⟩ 1) init
      [.raise .byPointer, .raise .byValue],
      DisablesFirst MetaRsrc.grantingDriver ⟨false, "", fun _ => ([], true)⟩ 1 x.1 x.2 := by
  intro h
  have hsecond := h (step MetaRsrc.grantingDriver ⟨false, "", fun _ => ([], true)⟩ 1 init (.raise .byPointer),
    .raise .byValue) (List.mem_cons_of_mem _ (List.mem_singleton_self _))
  have hset : (step MetaRsrc.grantingDriver ⟨false, "", fun _ => ([], true)⟩ 1 init
    (.raise .byPointer)).mPrelimProcessingInProgress = true := rfl
  generalize step MetaRsrc.grantingDriver ⟨false, "", fun _ => ([], true)⟩ 1 init (.raise .byPointer) = w
    at hsecond hset
  have hctor : (construct MetaRsrc.grantingDriver ⟨false, "", fun _ => ([], true)⟩ 1 w).isSome = true := by
    simp [construct, process, hset, MetaRsrc.grantingDriver, World.ioctl, World.calling]
  obtain ⟨⟨w', e⟩, hw'⟩ := Option.isSome_iff_exists.1 hctor
  obtain ⟨hsilent, _⟩ := construct_of_flag hset hw'
  rcases hsecond w' e hw' with hr | hr <;> exact hsilent.not_requested hr

/-! ## The flag -/

/-- An exception leaves the flag set if it was thrown as a pointer and no other one came out of its constructor. -/
theorem flag_raise {how : Throw} {w' : World} {e : CtorEnd} (h : construct drv su fuel w = some (w', e)) :
    (step drv su fuel w (.raise how)).mPrelimProcessingInProgress = (how == .byPointer && e == .built) := by
  obtain ⟨_, _, _, _, hset, _⟩ := construct_spec h
  simp only [step, raise, h, Option.map_some, Option.getD_some]
  cases e <;> cases how <;> first | rfl | exact hset

/-- What is thrown by value leaves the flag clear. -/
theorem flag_step {ev : Event} (hflag : w.mPrelimProcessingInProgress = false)
    (hev : ∀ how, ev = .raise how → how = .byValue) : (step drv su fuel w ev).mPrelimProcessingInProgress = false := by
  cases ev with
  | work w' => exact hflag
  | raise how =>
    obtain rfl := hev how rfl
    cases hctor : construct drv su fuel w with
    | none => simpa [step, raise, hctor] using hflag
    | some r => exact (flag_raise hctor).trans rfl

/-- **Without pointers and without `--postfail` every exception disables the device first.** -/
theorem disablesFirst_of_byValue (drv : Driver) {su : Setup} (hpost : su.postfail = false) (fuel : Nat)
    {events : List Event} (hevents : ∀ how, .raise how ∈ events → how = .byValue) :
    ∀ x ∈ Runs.steps (step drv su fuel) init events, DisablesFirst drv su fuel x.1 x.2 := by
  intro x hx
  have hflag : x.1.mPrelimProcessingInProgress = false :=
    Runs.inv_steps (J := fun w => w.mPrelimProcessingInProgress = false)
      (fun w ev hev hw => flag_step hw fun how heq => hevents how (heq ▸ hev)) rfl hx
  rw [disablesFirst_iff]
  cases hx2 : x.2 with
  | work w' => trivial
  | raise how => exact fun v _ _ => ⟨hflag, fun hp => absurd hp (by simp [hpost])⟩

end FrmwkEx

end Tnvme
