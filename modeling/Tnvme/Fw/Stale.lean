import Tnvme.Fw.Exclusive

/-!
# Stale meta data buffers

A disable frees all buffers, but the commands keep their records. So a command that had a buffer before a disable and is
still there after it goes on to expose the buffer, until it allocates again. `noStale_run_iff` says exactly when this
does not happen.
-/

namespace Tnvme.World

/-- A command that has not allocated since the last disable exposes no buffer. -/
def NoStale (w : World) : Prop :=
  0 < w.disables → ∀ o ∈ w.objs, ¬w.Owner o → o.getMetaBitmask = false ∧ o.mMetaData.buf = .null

/-- A buffer that is written to, or sent with a command, has not been freed. -/
def UsesFresh (w : World) : Op → Prop
  | .setMetaDataPattern handle offset length => ∀ o, w.cmd handle = some o → o.patternPtr offset length ≠ none →
      w.disables = 0 ∨ w.Owner o
  | .send handle _ => ∀ o, w.cmd handle = some o → o.getMetaBitmask = true → w.disables = 0 ∨ w.Owner o
  | _ => True

/-- Only objects that a disable destroys have a buffer. -/
def Bare (w : World) : Prop := ∀ o ∈ w.objs, o.outlives = true → o.mMetaData = .default

/-- A command as an `AllocMetaBuffer` that throws leaves it. -/
def spoilt (w : World) (o : Obj) : Obj := if o.dataDir = .none then o else { o with mMetaData := w.left o }

/-- A disable finds no buffer that would be left; and an `AllocMetaBuffer` that throws leaves no mark on a command that
exposes none. -/
def LeavesNone (drv : Driver) (w : World) : Op → Prop
  | .call c => c.disables drv w = true → w.Bare
  | .allocMetaBuffer handle ctor => ∀ o, w.cmd handle = some o →
      o.dataDir = .none ∨ w.rsrc.canReserve drv = false →
        if (w.allocMetaBuffer drv o).1.callsDisable drv ctor = true then (w.put (w.spoilt o)).Bare
        else w.disables = 0 ∨ w.Owner o ∨ (w.spoilt o).mMetaData = .default
  | _ => True

variable {drv : Driver} {w w' : World} {o : Obj}

theorem exposes_none_iff (o : Obj) :
    o.getMetaBitmask = false ∧ o.mMetaData.buf = .null ↔ o.mMetaData = .default := by
  rw [Obj.getMetaBitmask, bne_eq_false_iff_eq]
  refine and_iff_left_of_imp fun h => ?_
  rw [h]
  rfl

theorem noStale_iff : w.NoStale ↔ (0 < w.disables → ∀ o ∈ w.objs, ¬w.Owner o → o.mMetaData = .default) := by
  simp only [NoStale, exposes_none_iff]

theorem usesFresh (h : w.NoStale) (op : Op) : UsesFresh w op := by
  have hfresh : ∀ o ∈ w.objs, o.mMetaData ≠ .default → w.disables = 0 ∨ w.Owner o := by
    intro o ho hne
    by_contra hcon
    obtain ⟨hpos, hown⟩ := not_or.1 hcon
    exact hne (noStale_iff.1 h (Nat.pos_of_ne_zero hpos) o ho hown)
  cases op with
  | setMetaDataPattern handle offset length =>
    intro o hobj hptr
    refine hfresh o (obj_some (cmd_some hobj).1).1 fun heq => hptr ?_
    rw [Obj.patternPtr, heq]
    rfl
  | send handle qId =>
    intro o hobj hmask
    refine hfresh o (obj_some (cmd_some hobj).1).1 fun heq => ?_
    rw [Obj.getMetaBitmask, heq] at hmask
    exact absurd hmask (by decide)
  | _ => trivial

/-! ## Steps without a disable -/

theorem Quiet.noStale (h : w.NoStale) (hq : Quiet w w') : w'.NoStale := by
  rw [noStale_iff] at h ⊢
  intro hpos o' ho' hown
  rcases hq.objs o' ho' with ⟨hnew, _⟩ | ⟨o, ho, _, _, hm, hall⟩
  · exact hnew
  · rw [hm]
    refine h (hq.disables ▸ hpos) o ho fun hown' => hown ?_
    rw [Owner, hall, hq.disables]
    exact hown'

theorem OnlyLog.noStale_iff (h : OnlyLog w w') : w'.NoStale ↔ w.NoStale := by
  unfold NoStale Owner
  rw [h.objs, h.disables]

theorem noStale_destroy (h : w.NoStale) (o : Obj) : (w.destroy drv o).NoStale := by
  intro hpos p hp hown
  rw [disables_destroy] at hpos
  rw [Owner, disables_destroy] at hown
  exact h hpos p (List.mem_of_mem_filter hp) hown

theorem noStale_reserved (h : w.NoStale) {b : MetaDataBuf}
    (hobjs : w'.objs = (w.put { o with mMetaData := b, allocated := some w.disables }).objs)
    (hdis : w'.disables = w.disables) : w'.NoStale := by
  intro hpos p hp hown
  rw [Owner, hdis] at hown
  rcases mem_put _ (hobjs ▸ hp) with rfl | ⟨hp, _⟩
  · exact absurd rfl hown
  · exact h (hdis ▸ hpos) p hp hown

theorem noStale_put_iff (h : w.NoStale) (ho : o ∈ w.objs) {o' : Obj} (hobjs : w'.objs = (w.put o').objs)
    (hhandle : o'.handle = o.handle) (hall : o'.allocated = o.allocated) (hdis : w'.disables = w.disables) :
    w'.NoStale ↔ w.disables = 0 ∨ w.Owner o ∨ o'.mMetaData = .default := by
  rw [noStale_iff] at h ⊢
  rw [hdis]
  constructor
  · intro h'
    by_contra hcon
    obtain ⟨hpos, hcon⟩ := not_or.1 hcon
    obtain ⟨hown, hne⟩ := not_or.1 hcon
    have hmem : o' ∈ w'.objs := by
      rw [hobjs]
      exact List.mem_map.2 ⟨o, ho, if_pos hhandle.symm⟩
    refine hne (h' (Nat.pos_of_ne_zero hpos) o' hmem ?_)
    rwa [Owner, hall, hdis]
  · intro hor hpos p hp hown
    rw [Owner, hdis] at hown
    rcases mem_put _ (hobjs ▸ hp) with rfl | ⟨hp, _⟩
    · rcases hor with h0 | hown' | hdef
      · omega
      · exact absurd (hall.trans hown') hown
      · exact hdef
    · exact h hpos p hp hown

/-! ## Disables -/

/-- Nobody has a buffer. -/
def AllDefault (w : World) : Prop := ∀ o ∈ w.objs, o.mMetaData = .default

/-- What a disable leaves has a buffer if something that outlives it had one. -/
theorem Freed.allDefault_iff (hs : w.Sane) (hf : Freed w w') : w'.AllDefault ↔ w.Bare := by
  constructor
  · intro h o ho hout
    obtain ⟨keep, _, hobjs⟩ := hf.objs
    have hmem : (if keep o.objType then o else { o with lookupName := none }) ∈ w'.objs := by
      rw [hobjs]
      exact List.mem_map_of_mem (List.mem_filter.2 ⟨ho, by simp [hout]⟩)
    have hdef := h _ hmem
    split at hdef <;> exact hdef
  · intro h o' ho'
    obtain ⟨o, ho, _, _, hm, _, hout⟩ := hf.mem_objs ho'
    rw [hm]
    cases hcmd : o.objType.isCmd with
    | true => exact h o ho (hout hcmd).1
    | false => exact (hs.cmds o ho hcmd).1

/-- The commands that a first disable leaves, further ones leave too. -/
def Lasting (w : World) : Prop := ∀ o ∈ w.objs, o.objType.isCmd = true → o.outlives = true

theorem Freed.lasting (hf : Freed w w') : w'.Lasting := by
  intro o' ho' hcmd
  obtain ⟨o, _, _, htype, _, _, hout⟩ := hf.mem_objs ho'
  exact (hout (htype ▸ hcmd)).2

theorem bare_iff_of_lasting (hs : w.Sane) (hl : w.Lasting) : w.Bare ↔ w.AllDefault := by
  refine ⟨fun h o ho => ?_, fun h o ho _ => h o ho⟩
  cases hcmd : o.objType.isCmd with
  | true => exact h o ho (hl o ho hcmd)
  | false => exact (hs.cmds o ho hcmd).1

theorem allDefault_calls_iff (hs : w.Sane) (hl : w.Lasting) (cs : List FwCall) :
    (w.calls drv cs).AllDefault ↔ w.AllDefault := by
  induction cs generalizing w with
  | nil => rfl
  | cons c cs ih =>
    have hsane := sane_run drv hs c
    cases hc : c.disables drv w with
    | true =>
      have hf := freed_run hc
      exact (ih hsane hf.lasting).trans ((hf.allDefault_iff hs).trans (bare_iff_of_lasting hs hl))
    | false =>
      have hlog := onlyLog_run hc
      have hlast : (c.run drv w).Lasting := fun o ho => hl o (hlog.objs ▸ ho)
      refine (ih hsane hlast).trans ?_
      rw [AllDefault, AllDefault, hlog.objs]

theorem disables_le_calls (drv : Driver) (w : World) (cs : List FwCall) : w.disables ≤ (w.calls drv cs).disables := by
  induction cs generalizing w with
  | nil => exact Nat.le_refl _
  | cons c cs ih =>
    refine Nat.le_trans ?_ (ih (c.run drv w))
    cases hc : c.disables drv w with
    | true => rw [(freed_run hc).disables]; omega
    | false => exact Nat.le_of_eq (onlyLog_run hc).disables.symm

/-- **After calls with a disable, nothing is stale exactly if nothing was left.** -/
theorem noStale_calls_iff (hs : w.Sane) {cs : List FwCall} (h : w.callsDisable drv cs = true) :
    (w.calls drv cs).NoStale ↔ w.Bare := by
  have hno : ∀ {v : World}, v.NoOwner → 0 < v.disables → (v.NoStale ↔ v.AllDefault) := by
    intro v hno hpos
    rw [noStale_iff]
    exact ⟨fun h o ho => h hpos o ho (hno o ho), fun h _ o ho _ => h o ho⟩
  induction cs generalizing w with
  | nil => cases h
  | cons c cs ih =>
    have hsane := sane_run drv hs c
    cases hc : c.disables drv w with
    | true =>
      have hf := freed_run hc
      have hpos : 0 < ((c.run drv w).calls drv cs).disables := by
        have := disables_le_calls drv (c.run drv w) cs
        rw [hf.disables] at this
        omega
      exact (hno (noOwner_calls hsane (Or.inl (hf.noOwner hs))) hpos).trans
        ((allDefault_calls_iff hsane hf.lasting cs).trans (hf.allDefault_iff hs))
    | false =>
      have hlog := onlyLog_run hc
      refine (ih hsane (by simpa [callsDisable, hc] using h)).trans ?_
      rw [Bare, Bare, hlog.objs]

/-! ## Allocation -/

theorem put_self (hs : w.Sane) (ho : o ∈ w.objs) : (w.put o).objs = w.objs := by
  refine (List.map_congr_left fun p hp => ?_).trans (List.map_id w.objs)
  by_cases hpo : p.handle = o.handle
  · rw [if_pos hpo]
    exact (List.inj_on_of_nodup_map hs.handles hp ho hpo).symm
  · rw [if_neg hpo]
    rfl

/-- An `AllocMetaBuffer` that throws changes the record of its command, and nothing else among the objects. -/
theorem allocMetaBuffer_threw (hs : w.Sane) (ho : o ∈ w.objs) (h : (w.allocMetaBuffer drv o).2 = false) :
    (o.dataDir = .none ∨ w.rsrc.canReserve drv = false) ∧
      (w.allocMetaBuffer drv o).1.objs = (w.put (w.spoilt o)).objs ∧
      (w.allocMetaBuffer drv o).1.disables = w.disables := by
  by_cases hdir : o.dataDir = .none
  · simp only [allocMetaBuffer, spoilt, if_pos hdir]
    exact ⟨Or.inl hdir, (put_self hs ho).symm, trivial⟩
  · simp only [allocMetaBuffer, spoilt, if_neg hdir] at h ⊢
    have hcan := reserve_iff drv w o
    have hstep := reserve_step drv w o
    generalize w.reserve drv o = out at h hcan hstep ⊢
    obtain ⟨w', ok⟩ := out
    cases hstep with
    | reserved => cases h
    | failed hobjs _ hdis => exact ⟨Or.inr hcan.symm, hobjs, hdis⟩

theorem noStale_done (h : w.NoStale) (hdone : (w.allocMetaBuffer drv o).2 = true) :
    (w.allocMetaBuffer drv o).1.NoStale ∧ o.dataDir ≠ .none ∧ w.rsrc.canReserve drv = true := by
  by_cases hdir : o.dataDir = .none
  · rw [allocMetaBuffer, if_pos hdir] at hdone
    cases hdone
  · simp only [allocMetaBuffer, if_neg hdir] at hdone ⊢
    have hcan := reserve_iff drv w o
    have hstep := reserve_step drv w o
    generalize w.reserve drv o = out at hdone hcan hstep ⊢
    obtain ⟨w', ok⟩ := out
    cases hstep with
    | reserved b hobjs _ _ hdis => exact ⟨noStale_reserved h hobjs hdis, hdir, hcan.symm⟩
    | failed => cases hdone

theorem noStale_alloc_iff (hs : w.Sane) (h : w.NoStale) {handle : Nat} (hobj : w.cmd handle = some o)
    (ctor : List FwCall) : (w.step drv (.allocMetaBuffer handle ctor)).NoStale ↔
      LeavesNone drv w (.allocMetaBuffer handle ctor) := by
  obtain ⟨hobj', hcmd⟩ := cmd_some hobj
  obtain ⟨ho, _⟩ := obj_some hobj'
  simp only [step, LeavesNone, hobj, Option.some.injEq, forall_eq']
  cases hok : (w.allocMetaBuffer drv o).2 with
  | true =>
    obtain ⟨hnew, hdir, hcan⟩ := noStale_done h hok
    refine iff_of_true (by simpa using hnew) fun hthrew => ?_
    rcases hthrew with hnone | hnot
    · exact absurd hnone hdir
    · rw [hcan] at hnot
      cases hnot
  | false =>
    obtain ⟨hwhy, hobjs, hdis⟩ := allocMetaBuffer_threw hs ho hok
    have hsane := sane_alloc drv hs ho hcmd
    generalize (w.allocMetaBuffer drv o).1 = w' at hobjs hdis hsane ⊢
    simp only [Bool.false_eq_true, if_false]
    rw [forall_prop_of_true hwhy]
    by_cases hd : w'.callsDisable drv ctor = true
    · rw [if_pos hd, noStale_calls_iff hsane hd, Bare, Bare, hobjs]
    · rw [if_neg hd, (onlyLog_calls (by simpa using hd)).noStale_iff]
      refine noStale_put_iff h ho hobjs ?_ ?_ hdis <;> unfold spoilt <;> split <;> rfl

/-! ## Runs -/

theorem leavesNone_of_passive {op : Op} (h : w.Passive op) : LeavesNone drv w op := by
  cases op with
  | call c => exact h.elim
  | allocMetaBuffer handle ctor =>
    intro o hobj
    rw [show w.cmd handle = none from h] at hobj
    cases hobj
  | _ => trivial

theorem noStale_step_iff (hs : w.Sane) (h : w.NoStale) (op : Op) :
    (w.step drv op).NoStale ↔ LeavesNone drv w op := by
  cases op_step drv w op with
  | passive hp hq => exact iff_of_true (hq.noStale h) (leavesNone_of_passive hp)
  | destroys _ _ hw =>
    rw [hw]
    exact iff_of_true (noStale_destroy h _) trivial
  | allocates hobj => exact noStale_alloc_iff hs h hobj _
  | calls c =>
    cases hc : c.disables drv w with
    | true =>
      have hd : w.callsDisable drv [c] = true := by simp [callsDisable, hc]
      exact (noStale_calls_iff hs hd).trans ⟨fun hbare _ => hbare, fun hleave => hleave hc⟩
    | false =>
      refine iff_of_true ((onlyLog_run hc).noStale_iff.2 h) fun hd => ?_
      rw [hc] at hd
      cases hd

theorem noStale_init : init.NoStale := nofun

/-- **No command exposes or uses a freed buffer, and the world is not lost, exactly as long as no operation leaves a
buffer, and the world survives.** -/
theorem noStale_run_iff (drv : Driver) (ops : List Op) :
    (∀ x ∈ Runs.steps (step drv) init ops,
      UsesFresh x.1 x.2 ∧ (step drv x.1 x.2).NoStale ∧ (step drv x.1 x.2).lost = false) ↔
      ∀ x ∈ Runs.steps (step drv) init ops, LeavesNone drv x.1 x.2 ∧ Survives drv x.1 x.2 := by
  have hstep : ∀ w op, Sane w → NoStale w ∧ w.lost = false →
      (UsesFresh w op ∧ (step drv w op).NoStale ∧ (step drv w op).lost = false ↔
        LeavesNone drv w op ∧ Survives drv w op) := by
    rintro w op hs ⟨h, hlost⟩
    rw [and_iff_right (usesFresh h op), noStale_step_iff hs h op, lost_step_iff, and_iff_right hlost]
  exact Runs.good_run_iff (P := fun w => NoStale w ∧ w.lost = false) (fun _ op hs => sane_step hs op) hstep
    sane_init ⟨noStale_init, rfl⟩ ops

/-- A command is sent with its buffer after a disable. -/
theorem stale_buffer_sent :
    ¬∀ x ∈ Runs.steps (step MetaRsrc.grantingDriver) init
      [.setMetaAllocSize 512, .newObj 1 .write .toDevice, .allocMetaBuffer 1 [], .call (.setState .disableCompletely),
        .send 1 1],
      UsesFresh x.1 x.2 ∧ (step MetaRsrc.grantingDriver x.1 x.2).NoStale := by
  intro h
  have hrun := Runs.run_of_steps noStale_init fun x hx => (h x hx).2
  have hstale := hrun (by decide) ⟨1, .write, none, true, .toDevice, ⟨.mem 2147483648, 512, 0⟩, some 0, .new⟩
    (by decide) (by decide)
  exact absurd hstale.1 (by decide)

end Tnvme.World
