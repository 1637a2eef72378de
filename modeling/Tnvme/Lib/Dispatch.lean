import Mathlib.Data.List.Basic
import Mathlib.Data.List.Nodup

/-!
# Working off a list of jobs, with blocking

A list of jobs is worked off from left to right. A job that is reached gets a verdict, which may block some of the
jobs right behind it: `blocks v a` is the test on the followers of `a` after the verdict `v`, and the jobs behind `a`
are dropped as long as they pass it (`dispatch`). The `n`-th job that is reached gets the verdict `verdict n a`.

* The report of a dispatch lists every job exactly once, in order (`map_fst_dispatch`).
* The dispatch by leaps, which drops all blocked followers at once, is the same (`dispatch_cons`).
* If a bad verdict on `a` blocks what requires `a`, if whatever requires a blocked job is blocked with it, and if the
  jobs a verdict blocks are in one piece (`Orderly`), a job is reached only after everything it requires has been
  reached with a good verdict (`dispatch_order`).
-/

namespace Dispatch

variable {α ν : Type*}

section Defs

variable (verdict : Nat → α → ν) (blocks : ν → α → α → Bool)

/-- The report of a dispatch: each job with its verdict, `none` for a dropped one. `blk` is the test of the last
verdict while it still drops jobs. -/
def dispatch : Nat → Option (α → Bool) → List α → List (α × Option ν)
  | _, _, [] => []
  | n, none, a :: l => (a, some (verdict n a)) :: dispatch (n + 1) (some (blocks (verdict n a) a)) l
  | n, some p, a :: l =>
    if p a then (a, none) :: dispatch n (some p) l
    else (a, some (verdict n a)) :: dispatch (n + 1) (some (blocks (verdict n a) a)) l

/-- What the order theorem needs of `good`, `requires` and `blocks` on the jobs of `l`. -/
structure Orderly (good : ν → Prop) (requires : α → α → Prop) (l : List α) : Prop where
  direct : ∀ {a b v}, [a, b].Sublist l → ¬good v → requires b a → blocks v a b = true
  inherit : ∀ {c a b v}, [c, a, b].Sublist l → blocks v c a = true → requires b a → blocks v c b = true
  contiguous : ∀ {c k b v}, [c, k, b].Sublist l → blocks v c b = true → blocks v c k = true

end Defs

variable {verdict : Nat → α → ν} {blocks : ν → α → α → Bool}

/-! ## Every job once -/

theorem map_fst_dispatch (n : Nat) (blk : Option (α → Bool)) (l : List α) :
    (dispatch verdict blocks n blk l).map Prod.fst = l := by
  induction l generalizing n blk with
  | nil => cases blk <;> rfl
  | cons a l ih =>
    cases blk with
    | none => simp [dispatch, ih]
    | some p => by_cases h : p a <;> simp [dispatch, h, ih]

theorem fst_mem_of_mem {n : Nat} {blk : Option (α → Bool)} {l : List α} {x : α × Option ν}
    (h : x ∈ dispatch verdict blocks n blk l) : x.1 ∈ l := by
  have hx : x.1 ∈ (dispatch verdict blocks n blk l).map Prod.fst := List.mem_map_of_mem h
  rwa [map_fst_dispatch] at hx

/-- In a list without repetition a job has one entry in the report. -/
theorem entry_unique {n : Nat} {blk : Option (α → Bool)} {l : List α} (hl : l.Nodup) {a : α} {o o' : Option ν}
    (h : (a, o) ∈ dispatch verdict blocks n blk l) (h' : (a, o') ∈ dispatch verdict blocks n blk l) : o = o' := by
  have hn : ((dispatch verdict blocks n blk l).map Prod.fst).Nodup := by rwa [map_fst_dispatch]
  have := List.inj_on_of_nodup_map hn h h' rfl
  simpa using this

/-! ## Dispatch by leaps -/

/-- A job that the test lets through is reached as if nothing were blocked. -/
theorem dispatch_unblock {p : α → Bool} {a : α} {l : List α} (n : Nat) (h : p a = false) :
    dispatch verdict blocks n (some p) (a :: l) = dispatch verdict blocks n none (a :: l) := by
  simp [dispatch, h]

/-- The blocked jobs are dropped in one piece. -/
theorem dispatch_blocked (p : α → Bool) (n : Nat) (l : List α) :
    dispatch verdict blocks n (some p) l =
      (l.takeWhile p).map (fun a => (a, none)) ++ dispatch verdict blocks n none (l.dropWhile p) := by
  induction l with
  | nil => simp [dispatch]
  | cons a l ih =>
    by_cases h : p a
    · simp [dispatch, h, ih]
    · have h' : p a = false := by simpa using h
      simp [dispatch_unblock n h', h']

/-- One leap: a job is reached, and the followers that its verdict blocks are dropped. -/
theorem dispatch_cons (n : Nat) (a : α) (l : List α) :
    dispatch verdict blocks n none (a :: l) =
      (a, some (verdict n a)) :: ((l.takeWhile (blocks (verdict n a) a)).map (fun b => (b, none)) ++
        dispatch verdict blocks (n + 1) none (l.dropWhile (blocks (verdict n a) a))) := by
  rw [dispatch, dispatch_blocked]

/-! ## The order of the reached jobs -/

/-- While `p` drops the jobs in one piece from the front, no job that is reached passes `p`. -/
theorem not_blocked_of_reached {p : α → Bool} {l : List α}
    (hp : ∀ {k b}, [k, b].Sublist l → p b = true → p k = true) {n : Nat} {b : α} {v : ν}
    (h : (b, some v) ∈ dispatch verdict blocks n (some p) l) : p b = false := by
  induction l generalizing n with
  | nil => simp [dispatch] at h
  | cons a l ih =>
    by_cases ha : p a = true
    · simp only [dispatch, ha, if_true, List.mem_cons, Prod.mk.injEq, reduceCtorEq, and_false, false_or] at h
      exact ih (fun hs => hp (hs.trans (List.sublist_cons_self a l))) h
    · by_contra hb
      have hb' : p b = true := by simpa using hb
      have hmem : b ∈ a :: l := fst_mem_of_mem h
      rcases List.mem_cons.1 hmem with rfl | hmem
      · exact ha hb'
      · exact ha (hp (List.Sublist.cons_cons a (List.singleton_sublist.2 hmem)) hb')

variable {good : ν → Prop} {requires : α → α → Prop}

theorem Orderly.tail {a : α} {l : List α} (h : Orderly blocks good requires (a :: l)) :
    Orderly blocks good requires l where
  direct hs := h.direct (hs.trans (List.sublist_cons_self a l))
  inherit hs := h.inherit (hs.trans (List.sublist_cons_self a l))
  contiguous hs := h.contiguous (hs.trans (List.sublist_cons_self a l))

/-- What is known of a test that is still dropping jobs. -/
structure Blocking (requires : α → α → Prop) (p : α → Bool) (l : List α) : Prop where
  inherit : ∀ {a b}, [a, b].Sublist l → p a = true → requires b a → p b = true
  contiguous : ∀ {k b}, [k, b].Sublist l → p b = true → p k = true

theorem Blocking.tail {p : α → Bool} {a : α} {l : List α} (h : Blocking requires p (a :: l)) :
    Blocking requires p l where
  inherit hs := h.inherit (hs.trans (List.sublist_cons_self a l))
  contiguous hs := h.contiguous (hs.trans (List.sublist_cons_self a l))

/-- The test of a verdict on the head is a blocking test on the tail. -/
theorem Orderly.blocking {a : α} {l : List α} (h : Orderly blocks good requires (a :: l)) (v : ν) :
    Blocking requires (blocks v a) l where
  inherit hs := h.inherit (List.Sublist.cons_cons a hs)
  contiguous hs := h.contiguous (List.Sublist.cons_cons a hs)

theorem reached_cons_iff {x a b : α × Option ν} {l : List (α × Option ν)} :
    [a, b].Sublist (x :: l) ↔ [a, b].Sublist l ∨ (a = x ∧ b ∈ l) := by
  constructor
  · intro h
    cases h with
    | cons _ h => exact Or.inl h
    | cons_cons _ h => exact Or.inr ⟨rfl, List.singleton_sublist.1 h⟩
  · rintro (h | ⟨rfl, h⟩)
    · exact h.trans (List.sublist_cons_self x l)
    · exact List.Sublist.cons_cons a (List.singleton_sublist.2 h)

/-- **A job is reached only after all it requires have been reached with a good verdict.** -/
theorem dispatch_order {l : List α} (hl : Orderly blocks good requires l) {n : Nat} {blk : Option (α → Bool)}
    (hblk : ∀ p, blk = some p → Blocking requires p l) {a b : α} {o : Option ν} {v : ν}
    (h : [(a, o), (b, some v)].Sublist (dispatch verdict blocks n blk l)) (hr : requires b a) :
    ∃ w, o = some w ∧ good w := by
  induction l generalizing n blk with
  | nil => cases blk <;> simp [dispatch] at h
  | cons c l ih =>
    -- the two ways to enter the head: dropped by `p`, or reached with the verdict of this call
    have reached : [(a, o), (b, some v)].Sublist ((c, some (verdict n c)) ::
        dispatch verdict blocks (n + 1) (some (blocks (verdict n c) c)) l) → ∃ w, o = some w ∧ good w := by
      intro h
      rcases reached_cons_iff.1 h with h | ⟨hc, hb⟩
      · exact ih hl.tail (fun p hp => by cases hp; exact hl.blocking _) h
      · obtain ⟨rfl, rfl⟩ := Prod.mk.inj hc
        refine ⟨_, rfl, ?_⟩
        by_contra hbad
        have hfree := not_blocked_of_reached (hl.blocking _).contiguous hb
        have hsub : [a, b].Sublist (a :: l) :=
          List.Sublist.cons_cons a (List.singleton_sublist.2 (fst_mem_of_mem hb))
        rw [hl.direct hsub hbad hr] at hfree
        cases hfree
    cases blk with
    | none => exact reached h
    | some p =>
      have hp := hblk p rfl
      by_cases hpc : p c = true
      · rw [dispatch, if_pos hpc] at h
        rcases reached_cons_iff.1 h with h | ⟨hc, hb⟩
        · exact ih hl.tail (fun q hq => by cases hq; exact hp.tail) h
        · obtain ⟨rfl, rfl⟩ := Prod.mk.inj hc
          have hfree := not_blocked_of_reached hp.tail.contiguous hb
          have hsub : [a, b].Sublist (a :: l) :=
            List.Sublist.cons_cons a (List.singleton_sublist.2 (fst_mem_of_mem hb))
          rw [hp.inherit hsub hpc hr] at hfree
          cases hfree
      · rw [dispatch, if_neg hpc] at h
        exact reached h

end Dispatch
