import Tnvme.Fw.Commands

/-!
# Exclusive meta data buffers

A command that has allocated since the last disable owns its buffer: no other such command has one with the same ID,
and the buffer stays reserved. Two things break this (`exclusive_run_iff`), in a world that is not lost anyway.

* A command from before a disable keeps the ID of a buffer that is long gone, and the IDs start from 0 again. When it
  is destroyed it releases the buffer of the command that has the ID now.
* A second `AllocMetaBuffer` that fails leaves a free ID in the record of the owner, unless the exception disables the
  device.
-/

namespace Tnvme.World

/-- The object has allocated since the last disable. -/
def Owner (w : World) (o : Obj) : Prop := o.allocated = some w.disables

instance (w : World) (o : Obj) : Decidable (w.Owner o) := inferInstanceAs (Decidable (_ = _))

structure Exclusive (w : World) : Prop where
  apart : ∀ o ∈ w.objs, ∀ p ∈ w.objs, o.handle ≠ p.handle → w.Owner o → w.Owner p → o.mMetaData.ID ≠ p.mMetaData.ID
  kept : ∀ o ∈ w.objs, w.Owner o → o.mMetaData ∈ w.rsrc.mMetaReserved

/-- What is destroyed is an owner, or has no buffer, or has one with an ID that no owner has; and where an owner fails
to allocate again, the exception disables the device. -/
def SparesOwners (drv : Driver) (w : World) : Op → Prop
  | .drop handle => ∀ o, w.obj handle = some o → o.lookupName = none → ¬w.Owner o → o.mMetaData ≠ .default →
      ∀ p ∈ w.objs, w.Owner p → p.mMetaData.ID ≠ o.mMetaData.ID
  | .allocMetaBuffer handle ctor => ∀ o, w.cmd handle = some o → w.Owner o → o.dataDir ≠ .none →
      w.rsrc.canReserve drv = false → (w.reserve drv o).1.callsDisable drv ctor = true
  | _ => True

variable {drv : Driver} {w w' : World} {o : Obj}

/-! ## Steps that keep the owners apart -/

theorem Quiet.exclusive (h : w.Exclusive) (hq : Quiet w w') : w'.Exclusive := by
  have howner : ∀ o' ∈ w'.objs, w'.Owner o' → ∃ o ∈ w.objs, o'.handle = o.handle ∧ o'.mMetaData = o.mMetaData ∧
      w.Owner o := by
    intro o' ho' hown
    rw [Owner, hq.disables] at hown
    rcases hq.objs o' ho' with ⟨_, hnone⟩ | ⟨o, ho, hh, _, hm, hall⟩
    · rw [hnone] at hown
      cases hown
    · exact ⟨o, ho, hh, hm, hall.symm.trans hown⟩
  constructor
  · intro o' ho' p' hp' hne hown hown'
    obtain ⟨o, ho, hh, hm, hown⟩ := howner o' ho' hown
    obtain ⟨p, hp, hh', hm', hown'⟩ := howner p' hp' hown'
    rw [hm, hm']
    exact h.apart o ho p hp (by rwa [← hh, ← hh']) hown hown'
  · intro o' ho' hown
    obtain ⟨o, ho, _, hm, hown⟩ := howner o' ho' hown
    rw [hm, hq.reserved]
    exact h.kept o ho hown

theorem OnlyLog.exclusive_iff (h : OnlyLog w w') : w'.Exclusive ↔ w.Exclusive := by
  have howner : ∀ o, w'.Owner o ↔ w.Owner o := fun o => by rw [Owner, Owner, h.disables]
  constructor
  · intro h'
    refine ⟨fun o ho p hp hne hown hown' => ?_, fun o ho hown => ?_⟩
    · exact h'.apart o (h.objs ▸ ho) p (h.objs ▸ hp) hne ((howner o).2 hown) ((howner p).2 hown')
    · exact h.reserved ▸ h'.kept o (h.objs ▸ ho) ((howner o).2 hown)
  · exact fun h' => h.quiet.exclusive h'

/-- Nobody has allocated since the last disable. -/
def NoOwner (w : World) : Prop := ∀ o ∈ w.objs, ¬w.Owner o

theorem NoOwner.exclusive (h : w.NoOwner) : w.Exclusive :=
  ⟨fun o ho _ _ _ hown => absurd hown (h o ho), fun o ho hown => absurd hown (h o ho)⟩

theorem Freed.noOwner (h : w.Sane) (hf : Freed w w') : w'.NoOwner := by
  intro o' ho' hown
  obtain ⟨o, ho, _, _, _, hall, _⟩ := hf.mem_objs ho'
  rw [Owner, hall, hf.disables] at hown
  have := h.past o ho _ hown
  omega

theorem noOwner_calls (h : w.Sane) {cs : List FwCall} (hcs : w.NoOwner ∨ w.callsDisable drv cs = true) :
    (w.calls drv cs).NoOwner := by
  induction cs generalizing w with
  | nil => exact hcs.resolve_right nofun
  | cons c cs ih =>
    refine ih (sane_run drv h c) ?_
    cases hc : c.disables drv w with
    | true => exact Or.inl ((freed_run hc).noOwner h)
    | false =>
      have hlog := onlyLog_run hc
      refine hcs.imp (fun hno o ho => ?_) fun hd => by simpa [callsDisable, hc] using hd
      rw [Owner, hlog.disables]
      exact hno o (hlog.objs ▸ ho)

theorem exclusive_calls (hs : w.Sane) (h : w.Exclusive) (cs : List FwCall) : (w.calls drv cs).Exclusive := by
  cases hcs : w.callsDisable drv cs with
  | true => exact (noOwner_calls hs (Or.inr hcs)).exclusive
  | false => exact (onlyLog_calls hcs).exclusive_iff.2 h

/-! ## Destruction -/

theorem exclusive_destroy_iff (hs : w.Sane) (h : w.Exclusive) (ho : o ∈ w.objs) : (w.destroy drv o).Exclusive ↔
    (¬w.Owner o → o.mMetaData ≠ .default → ∀ p ∈ w.objs, w.Owner p → p.mMetaData.ID ≠ o.mMetaData.ID) := by
  have hmem : ∀ p, p ∈ (w.destroy drv o).objs ↔ p ∈ w.objs ∧ p.handle ≠ o.handle := by
    intro p
    rw [destroy, List.mem_filter, bne_iff_ne]
  have hres : ∀ b, b ∈ (w.destroy drv o).rsrc.mMetaReserved ↔
      b ∈ w.rsrc.mMetaReserved ∧ (o.mMetaData ≠ .default → b.ID ≠ o.mMetaData.ID) := by
    intro b
    rw [reserved_destroy]
    exact MetaRsrc.mem_releaseMetaBuf w.wf
  have howner : ∀ p, (w.destroy drv o).Owner p ↔ w.Owner p := fun p => by rw [Owner, Owner, disables_destroy]
  constructor
  · intro h' hown hne p hp hownp
    have hph : p.handle ≠ o.handle := fun heq =>
      hown (List.inj_on_of_nodup_map hs.handles hp ho heq ▸ hownp)
    exact ((hres _).1 (h'.kept p ((hmem p).2 ⟨hp, hph⟩) ((howner p).2 hownp))).2 hne
  · intro hspare
    refine ⟨fun p hp q hq hne hp' hq' => ?_, fun p hp hownp => (hres _).2 ?_⟩
    · exact h.apart p ((hmem p).1 hp).1 q ((hmem q).1 hq).1 hne ((howner p).1 hp') ((howner q).1 hq')
    · obtain ⟨hp, hph⟩ := (hmem p).1 hp
      replace hownp := (howner p).1 hownp
      refine ⟨h.kept p hp hownp, fun hne => ?_⟩
      by_cases hown : w.Owner o
      · exact h.apart p hp o ho hph hownp hown
      · exact hspare hown hne p hp hownp

/-! ## Allocation -/

/-- The owner of a new buffer is one more, and its ID is new. -/
theorem exclusive_reserved (h : w.Exclusive) {b : MetaDataBuf}
    (hobjs : w'.objs = (w.put { o with mMetaData := b, allocated := some w.disables }).objs)
    (hb : b ∈ w'.rsrc.mMetaReserved) (hres : ∀ c ∈ w.rsrc.mMetaReserved, c ∈ w'.rsrc.mMetaReserved ∧ c.ID ≠ b.ID)
    (hdis : w'.disables = w.disables) : w'.Exclusive := by
  have howner : ∀ p ∈ w'.objs, w'.Owner p → p.handle = o.handle ∧ p.mMetaData = b ∨
      p ∈ w.objs ∧ w.Owner p ∧ p.handle ≠ o.handle := by
    intro p hp hown
    rw [Owner, hdis] at hown
    rcases mem_put _ (hobjs ▸ hp) with rfl | ⟨hp, hph⟩
    · exact Or.inl ⟨rfl, rfl⟩
    · exact Or.inr ⟨hp, hown, hph⟩
  constructor
  · intro p hp q hq hne hownp hownq
    rcases howner p hp hownp with ⟨hph, hpb⟩ | ⟨hp, hownp, _⟩ <;>
      rcases howner q hq hownq with ⟨hqh, hqb⟩ | ⟨hq, hownq, _⟩
    · exact absurd (hph.trans hqh.symm) hne
    · rw [hpb]
      exact (hres _ (h.kept q hq hownq)).2.symm
    · rw [hqb]
      exact (hres _ (h.kept p hp hownp)).2
    · exact h.apart p hp q hq hne hownp hownq
  · intro p hp hown
    rcases howner p hp hown with ⟨_, hpb⟩ | ⟨hp, hown, _⟩
    · rw [hpb]
      exact hb
    · exact (hres _ (h.kept p hp hown)).1

/-- A failed allocation leaves a free ID behind. -/
theorem exclusive_failed_iff (h : w.Exclusive) (ho : o ∈ w.objs)
    (hobjs : w'.objs = (w.put { o with mMetaData := w.left o }).objs)
    (hres : w'.rsrc.mMetaReserved = w.rsrc.mMetaReserved) (hdis : w'.disables = w.disables) :
    w'.Exclusive ↔ ¬w.Owner o := by
  constructor
  · intro h' hown
    have hmem : { o with mMetaData := w.left o } ∈ w'.objs := by
      rw [hobjs]
      exact List.mem_map.2 ⟨o, ho, if_pos rfl⟩
    have hkept := h'.kept _ hmem (by rw [Owner, hdis]; exact hown)
    rw [hres] at hkept
    exact SortedKeys.gap_free w.wf.sorted _ hkept rfl
  · intro hown
    have howner : ∀ p ∈ w'.objs, w'.Owner p → p ∈ w.objs ∧ w.Owner p := by
      intro p hp hownp
      rw [Owner, hdis] at hownp
      rcases mem_put _ (hobjs ▸ hp) with rfl | ⟨hp, _⟩
      · exact absurd hownp hown
      · exact ⟨hp, hownp⟩
    refine ⟨fun p hp q hq hne hownp hownq => ?_, fun p hp hownp => ?_⟩
    · obtain ⟨hp, hownp⟩ := howner p hp hownp
      obtain ⟨hq, hownq⟩ := howner q hq hownq
      exact h.apart p hp q hq hne hownp hownq
    · obtain ⟨hp, hownp⟩ := howner p hp hownp
      rw [hres]
      exact h.kept p hp hownp

theorem exclusive_alloc_iff (hs : w.Sane) (h : w.Exclusive) {handle : Nat} (hobj : w.cmd handle = some o)
    (ctor : List FwCall) : (w.step drv (.allocMetaBuffer handle ctor)).Exclusive ↔
      (w.Owner o → o.dataDir ≠ .none → w.rsrc.canReserve drv = false →
        (w.reserve drv o).1.callsDisable drv ctor = true) := by
  obtain ⟨hobj', hcmd⟩ := cmd_some hobj
  obtain ⟨ho, _⟩ := obj_some hobj'
  simp only [step, hobj]
  by_cases hdir : o.dataDir = .none
  · simp only [allocMetaBuffer, if_pos hdir]
    exact iff_of_true (exclusive_calls hs h ctor) fun _ hne => absurd hdir hne
  · simp only [allocMetaBuffer, if_neg hdir]
    have hsane := sane_reserve drv hs ho hcmd
    have hcan := reserve_iff drv w o
    have hstep := reserve_step drv w o
    generalize w.reserve drv o = out at hsane hcan hstep ⊢
    obtain ⟨w', ok⟩ := out
    cases hstep with
    | reserved b hobjs hb hres hdis =>
      refine iff_of_true (exclusive_reserved h hobjs hb hres hdis) fun _ _ hnot => ?_
      rw [← hcan] at hnot
      cases hnot
    | failed hobjs hres hdis =>
      have hiff := exclusive_failed_iff h ho hobjs hres hdis
      simp only [Bool.false_eq_true, if_false]
      constructor
      · intro hex hown _ _
        cases hd : w'.callsDisable drv ctor with
        | true => rfl
        | false =>
          -- without a disable the failed allocation is still there
          have hback : w'.Exclusive := (onlyLog_calls hd).exclusive_iff.1 hex
          exact absurd hown (hiff.1 hback)
      · intro hspare
        by_cases hown : w.Owner o
        · exact (noOwner_calls hsane (Or.inr (hspare hown hdir hcan.symm))).exclusive
        · exact exclusive_calls hsane (hiff.2 hown) ctor

/-! ## Runs -/

theorem sparesOwners_of_passive {op : Op} (h : w.Passive op) : SparesOwners drv w op := by
  cases op with
  | drop handle => exact fun o hobj hname => absurd hname (h o hobj)
  | allocMetaBuffer handle ctor =>
    intro o hobj
    rw [show w.cmd handle = none from h] at hobj
    cases hobj
  | _ => trivial

theorem exclusive_step_iff (hs : w.Sane) (h : w.Exclusive) (op : Op) :
    (w.step drv op).Exclusive ↔ SparesOwners drv w op := by
  cases op_step drv w op with
  | passive hp hq => exact iff_of_true (hq.exclusive h) (sparesOwners_of_passive hp)
  | destroys hobj hname hw =>
    rw [hw, exclusive_destroy_iff hs h (obj_some hobj).1]
    simp only [SparesOwners, hobj, Option.some.injEq, forall_eq', hname, forall_const]
  | allocates hobj =>
    rw [exclusive_alloc_iff hs h hobj]
    simp only [SparesOwners, hobj, Option.some.injEq, forall_eq']
  | calls c => exact iff_of_true (exclusive_calls hs h [c]) trivial

theorem exclusive_init : init.Exclusive := ⟨by simp [init], by simp [init]⟩

/-- **The owners keep their buffers to themselves, in a world that is not lost, exactly as long as no operation hurts
one, and the world survives.** -/
theorem exclusive_run_iff (drv : Driver) (ops : List Op) :
    (∀ x ∈ Runs.steps (step drv) init ops, (step drv x.1 x.2).Exclusive ∧ (step drv x.1 x.2).lost = false) ↔
      ∀ x ∈ Runs.steps (step drv) init ops, SparesOwners drv x.1 x.2 ∧ Survives drv x.1 x.2 := by
  have hstep : ∀ w op, Sane w → Exclusive w ∧ w.lost = false →
      (True ∧ (step drv w op).Exclusive ∧ (step drv w op).lost = false ↔
        SparesOwners drv w op ∧ Survives drv w op) := by
    rintro w op hs ⟨h, hlost⟩
    rw [true_and, exclusive_step_iff hs h op, lost_step_iff, and_iff_right hlost]
  simpa only [true_and] using Runs.good_run_iff (Q := fun _ _ => True) (P := fun w => Exclusive w ∧ w.lost = false)
    (fun _ op hs => sane_step hs op) hstep sane_init ⟨exclusive_init, rfl⟩ ops

/-- A command survives a disable, and releases the buffer of the next one. -/
theorem old_command_releases :
    ¬∀ x ∈ Runs.steps (step MetaRsrc.grantingDriver) init
      [.setMetaAllocSize 512, .newObj 1 .write .toDevice, .allocMetaBuffer 1 [], .call (.setState .disableCompletely),
        .setMetaAllocSize 512, .newObj 2 .write .toDevice, .allocMetaBuffer 2 [], .drop 1],
      (step MetaRsrc.grantingDriver x.1 x.2).Exclusive := by
  intro h
  have hrun := Runs.run_of_steps exclusive_init h
  refine absurd (hrun.kept ⟨2, .write, none, true, .toDevice, ⟨.mem 2147483648, 512, 0⟩, some 1, .new⟩ ?_ ?_) ?_
  · decide
  · decide
  · decide

end Tnvme.World
