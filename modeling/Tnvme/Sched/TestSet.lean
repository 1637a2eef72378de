import Tnvme.Sched.Group

/-!
# The dependency lists of `GetTestSet`

Every accepted target gives one of four lists (`getTestSet_cases`). In all of them the tests go up in the
lexicographic order, and a test comes after everything it requires (`DepList`, `depList_of_ok`).
-/

namespace Tnvme.Sched

variable {g : Group} {target : TestRef}

/-- The sequence of `tr` up to `tr` itself. -/
def TestRef.sequence (tr : TestRef) : List TestRef :=
  (List.range (tr.zLev + 1)).map fun z => ⟨tr.group, tr.xLev, tr.yLev, z⟩

/-- A list of tests that can be run in order. -/
structure DepList (dependencies : List TestRef) : Prop where
  sorted : dependencies.Pairwise TestRef.Lt
  closed : ∀ {pre post b a}, dependencies = pre ++ b :: post → b.Requires a → a ∈ pre

theorem DepList.nodup {dependencies : List TestRef} (h : DepList dependencies) : dependencies.Nodup :=
  h.sorted.imp fun hab => hab.ne

/-! ## The lists -/

/-- An accepted target outside the first y and z levels, or inside a sequence, has its configuration test. -/
theorem configDependency_some {dependencies : List TestRef} (h : g.configDependency target = some dependencies) :
    (target.yLev ≠ 0 ∧ g.testExists target.config = true ∧ dependencies = [target.config]) ∨
      (target.yLev = 0 ∧ dependencies = []) := by
  unfold Group.configDependency at h
  split at h
  · split at h
    · cases h; exact Or.inl ⟨by assumption, by assumption, rfl⟩
    · cases h
  · cases h; exact Or.inr ⟨by omega, rfl⟩

theorem sequence_eq (tr : TestRef) :
    tr.sequence = (List.range tr.zLev).map (fun z => ⟨tr.group, tr.xLev, tr.yLev, z⟩) ++ [tr] := by
  simp [TestRef.sequence, List.range_succ]

/-- The sequence branch: the target exists, and the walk between the two iterators is its sequence. -/
theorem pushSequence_target {seqIter targetIter : Nat} (hz : target.zLev ≠ 0)
    (hs : g.testRefToIterator ⟨target.group, target.xLev, target.yLev, 0⟩ = some seqIter)
    (ht : g.testRefToIterator target = some targetIter) (dependencies : List TestRef) :
    g.testExists target = true ∧ g.pushSequence (targetIter - seqIter) seqIter dependencies =
      (true, dependencies ++ (List.range target.zLev).map fun z => ⟨target.group, target.xLev, target.yLev, z⟩) := by
  rw [Group.testRefToIterator_eq_some] at hs ht
  have hex : g.testExists target = true := by
    cases targetIter with
    | zero => rw [Group.iter_zero] at ht; cases ht; exact absurd rfl hz
    | succ n => exact Group.testExists_of_iter ht
  have hn : targetIter = seqIter + target.zLev :=
    Group.iter_inj ht (Group.iter_sequence hex hs (Nat.le_refl _))
  refine ⟨hex, ?_⟩
  rw [hn, Nat.add_sub_cancel_left]
  exact Group.pushSequence_eq dependencies fun k hk => Group.iter_sequence hex hs (Nat.le_of_lt hk)

/-- What the accepted targets and their lists are. -/
theorem getTestSet_cases (h : (g.getTestSet target).ok = true) :
    target.group = g.mGrpNum ∧ (g.getTestSet target).tstIdx = some 0 ∧
      ((target.Single ∧ target.yLev = 0 ∧ target.zLev = 0 ∧ (g.getTestSet target).dependencies = [target]) ∨
        (target.Single ∧ target.yLev ≠ 0 ∧ target.zLev = 0 ∧ g.testExists target.config = true ∧
          (g.getTestSet target).dependencies = [target.config, target]) ∨
        (target.Single ∧ target.zLev ≠ 0 ∧ g.testExists target = true ∧
          ((target.yLev ≠ 0 ∧ g.testExists target.config = true ∧
              (g.getTestSet target).dependencies = target.config :: target.sequence) ∨
            (target.yLev = 0 ∧ (g.getTestSet target).dependencies = target.sequence))) ∨
        (¬target.Single ∧ (g.getTestSet target).dependencies = g.pushAll (g.refs.length + 2) 0)) := by
  by_cases hg : target.group ≠ g.mGrpNum
  · simp [Group.getTestSet, hg] at h
  rw [not_not] at hg
  refine ⟨hg, ?_⟩
  by_cases hs : target.Single
  · by_cases hyz : target.yLev = 0 ∧ target.zLev = 0
    · simp [Group.getTestSet, hg, hs, hyz]
    · by_cases hz : target.zLev = 0
      · have hy : target.yLev ≠ 0 := fun e => hyz ⟨e, hz⟩
        by_cases hc : g.testExists target.config = true
        · simp [Group.getTestSet, hg, hs, hy, hz, hc]
        · simp [Group.getTestSet, hg, hs, hy, hz, hc] at h
      · simp only [Group.getTestSet, ne_eq, hg, not_true, if_false, hs, if_true, hz] at h ⊢
        cases hc : g.configDependency target with
        | none => simp [hc] at h
        | some dependencies =>
          simp only [hc] at h ⊢
          cases hsi : g.testRefToIterator ⟨g.mGrpNum, target.xLev, target.yLev, 0⟩ with
          | none => simp [hsi] at h
          | some seqIter =>
            simp only [hsi] at h ⊢
            cases hti : g.testRefToIterator target with
            | none => simp [hti] at h
            | some targetIter =>
              obtain ⟨hex, hpush⟩ := pushSequence_target hz (hg ▸ hsi) hti dependencies
              simp only [hti, hpush] at h ⊢
              rcases configDependency_some hc with ⟨hy, hcfg, rfl⟩ | ⟨hy, rfl⟩
              · simp [hex, hy, hcfg, sequence_eq]
              · simp [hex, hy, sequence_eq]
  · simp [Group.getTestSet, hg, hs]

/-! ## They can be run in order -/

theorem TestRef.Requires.cases {a b : TestRef} (h : b.Requires a) :
    (a = b.config ∧ ¬(b.yLev = 0 ∧ b.zLev = 0)) ∨ ∃ z < b.zLev, a = ⟨b.group, b.xLev, b.yLev, z⟩ := h

theorem sequence_sorted (tr : TestRef) : tr.sequence.Pairwise TestRef.Lt := by
  refine List.Pairwise.map _ ?_ List.pairwise_lt_range
  intro i j hij
  simp [TestRef.Lt, hij]

/-- Splitting a sequence at an element: before `z` stand the smaller indices. -/
theorem sequence_split {tr b : TestRef} {pre post : List TestRef} (h : tr.sequence = pre ++ b :: post) :
    b.group = tr.group ∧ b.xLev = tr.xLev ∧ b.yLev = tr.yLev ∧
      ∀ z < b.zLev, (⟨tr.group, tr.xLev, tr.yLev, z⟩ : TestRef) ∈ pre := by
  have hb : b ∈ tr.sequence := by rw [h]; simp
  obtain ⟨n, hn, rfl⟩ := List.mem_map.1 hb
  refine ⟨rfl, rfl, rfl, fun z hz => ?_⟩
  replace hz : z < n := hz
  have hmem : (⟨tr.group, tr.xLev, tr.yLev, z⟩ : TestRef) ∈ tr.sequence :=
    List.mem_map.2 ⟨z, by simp only [List.mem_range] at hn ⊢; omega, rfl⟩
  rw [h, List.mem_append, List.mem_cons] at hmem
  have hs := sequence_sorted tr
  rw [h] at hs
  rcases hmem with hmem | hmem | hmem
  · exact hmem
  · simp at hmem; omega
  · have := (List.pairwise_cons.1 (List.pairwise_append.1 hs).2.1).1 _ hmem
    simp [TestRef.Lt] at this; omega

theorem depList_sequence {tr : TestRef} (hy : tr.yLev = 0) : DepList tr.sequence where
  sorted := sequence_sorted tr
  closed := by
    intro pre post b a h ha
    obtain ⟨hg, hx, hby, hpre⟩ := sequence_split h
    rcases ha with ⟨rfl, hne⟩ | ⟨z, hz, rfl⟩
    · have := hpre 0 (by omega)
      simpa [TestRef.config, hg, hx, hy] using this
    · rw [hg, hx, hby]; exact hpre z hz

theorem depList_config_sequence {tr : TestRef} (hy : tr.yLev ≠ 0) : DepList (tr.config :: tr.sequence) where
  sorted := by
    refine List.pairwise_cons.2 ⟨fun b hb => ?_, sequence_sorted tr⟩
    obtain ⟨n, _, rfl⟩ := List.mem_map.1 hb
    exact Or.inr ⟨rfl, Or.inl (Nat.pos_of_ne_zero hy)⟩
  closed := by
    intro pre post b a h ha
    cases pre with
    | nil =>
      obtain ⟨rfl, _⟩ := List.cons.inj h
      rcases ha with ⟨_, hne⟩ | ⟨z, hz, _⟩
      · exact absurd ⟨rfl, rfl⟩ hne
      · exact absurd hz (Nat.not_lt_zero z)
    | cons c pre =>
      obtain ⟨rfl, hseq⟩ := List.cons.inj h
      replace hseq : tr.sequence = pre ++ b :: post := hseq
      obtain ⟨hg, hx, hby, hpre⟩ := sequence_split hseq
      rcases ha with ⟨rfl, _⟩ | ⟨z, hz, rfl⟩
      · rw [show b.config = tr.config by simp [TestRef.config, hg, hx]]; exact List.mem_cons_self
      · rw [hg, hx, hby]; exact List.mem_cons_of_mem _ (hpre z hz)

/-- The walk of a whole group has passed all that its position requires. -/
theorem iter_requires {n : Nat} {b a : TestRef} (hn : g.iteraterToTestRef n = some b) (ha : b.Requires a) :
    ∃ m < n, g.iteraterToTestRef m = some a := by
  induction n generalizing a b with
  | zero =>
    cases hn
    rcases ha with ⟨_, hne⟩ | ⟨z, hz, _⟩
    · exact absurd ⟨rfl, rfl⟩ hne
    · exact absurd hz (Nat.not_lt_zero z)
  | succ n ih =>
    obtain ⟨p, hp, hpb⟩ := Group.iter_succ_some hn
    have hpg := Group.iter_group hp
    -- what `b` requires is `p` itself or something that `p` requires, except for the next x level
    have key : a = p ∨ p.Requires a := by
      rcases (Group.next_cases hpb).2 with rfl | rfl | rfl
      · rcases ha with ⟨rfl, _⟩ | ⟨z, hz, rfl⟩
        · by_cases h0 : p.yLev = 0 ∧ p.zLev = 0
          · left; rw [TestRef.config]; cases p; simp_all
          · exact Or.inr (Or.inl ⟨by simp [TestRef.config, hpg], h0⟩)
        · rcases Nat.lt_or_eq_of_le (Nat.le_of_lt_succ hz) with hz | rfl
          · exact Or.inr (Or.inr ⟨z, hz, by simp [hpg]⟩)
          · left; cases p; simp_all
      · rcases ha with ⟨rfl, _⟩ | ⟨z, hz, _⟩
        · by_cases h0 : p.yLev = 0 ∧ p.zLev = 0
          · left; rw [TestRef.config]; cases p; simp_all
          · exact Or.inr (Or.inl ⟨by simp [TestRef.config, hpg], h0⟩)
        · exact absurd hz (Nat.not_lt_zero z)
      · rcases ha with ⟨_, hne⟩ | ⟨z, hz, _⟩
        · exact absurd ⟨rfl, rfl⟩ hne
        · exact absurd hz (Nat.not_lt_zero z)
    rcases key with rfl | hpa
    · exact ⟨n, Nat.lt_succ_self n, hp⟩
    · obtain ⟨m, hm, hma⟩ := ih hp hpa
      exact ⟨m, by omega, hma⟩

theorem depList_pushAll : DepList (g.pushAll (g.refs.length + 2) 0) where
  sorted := by
    rw [List.pairwise_iff_getElem]
    intro i j hi hj hij
    exact Group.iter_lt hij (by rw [← Group.pushAll_getElem?, List.getElem?_eq_getElem hi])
      (by rw [← Group.pushAll_getElem?, List.getElem?_eq_getElem hj])
  closed := by
    intro pre post b a h ha
    have hb : g.iteraterToTestRef pre.length = some b := by rw [← Group.pushAll_getElem?, h]; simp
    obtain ⟨m, hm, hma⟩ := iter_requires hb ha
    rw [← Group.pushAll_getElem?, h, List.getElem?_append_left hm] at hma
    exact List.mem_of_getElem? hma

/-- **The list of an accepted target can be run in order.** -/
theorem depList_of_ok (h : (g.getTestSet target).ok = true) : DepList (g.getTestSet target).dependencies := by
  obtain ⟨_, _, hc⟩ := getTestSet_cases h
  rcases hc with ⟨_, hy, hz, e⟩ | ⟨_, hy, hz, _, e⟩ | ⟨_, hz, _, ⟨hy, _, e⟩ | ⟨hy, e⟩⟩ | ⟨_, e⟩ <;> rw [e]
  · have := depList_sequence hy
    rwa [sequence_eq, hz] at this
  · have := depList_config_sequence hy
    rwa [sequence_eq, hz] at this
  · exact depList_config_sequence hy
  · exact depList_sequence hy
  · exact depList_pushAll

/-- A rejected target leaves no index, and at most its configuration test in the list. -/
theorem getTestSet_rejected (h : (g.getTestSet target).ok = false) :
    (g.getTestSet target).tstIdx = none ∧
      ((g.getTestSet target).dependencies = [] ∨ (g.getTestSet target).dependencies = [target.config]) := by
  have hconfig : ∀ {dependencies}, g.configDependency target = some dependencies →
      dependencies = [] ∨ dependencies = [target.config] := fun hc =>
    (configDependency_some hc).elim (fun hc => Or.inr hc.2.2) (fun hc => Or.inl hc.2)
  unfold Group.getTestSet at h ⊢
  split_ifs at h ⊢ with _ _ _ hz
  · exact ⟨rfl, Or.inl rfl⟩
  · exact ⟨rfl, Or.inl rfl⟩
  · cases hc : g.configDependency target with
    | none => exact ⟨rfl, Or.inl rfl⟩
    | some dependencies =>
      simp only [hc] at h ⊢
      cases hs : g.testRefToIterator ⟨target.group, target.xLev, target.yLev, 0⟩ with
      | none => exact ⟨rfl, hconfig hc⟩
      | some seqIter =>
        simp only [hs] at h ⊢
        cases ht : g.testRefToIterator target with
        | none => exact ⟨rfl, hconfig hc⟩
        | some targetIter =>
          simp only [ht, (pushSequence_target hz hs ht dependencies).2] at h
          cases h

/-- **Every list of `GetTestSet` can be run in order.** -/
theorem depList_dependencies (g : Group) (target : TestRef) : DepList (g.getTestSet target).dependencies := by
  cases h : (g.getTestSet target).ok with
  | true => exact depList_of_ok h
  | false =>
    rcases (getTestSet_rejected h).2 with e | e <;> rw [e]
    · exact ⟨List.Pairwise.nil, fun hb => by simp at hb⟩
    · have hy : target.config.yLev = 0 := rfl
      have hz : target.config.zLev = 0 := rfl
      have := depList_sequence hy
      rwa [sequence_eq, hz] at this

end Tnvme.Sched
