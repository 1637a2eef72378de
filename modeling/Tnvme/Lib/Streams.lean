import Mathlib.Data.List.Basic

/-!
# Searches in a stream

A stream is read forwards only. `seek` reads up to the first element that satisfies a predicate, `upTo` is what it reads
on the way, and `hits` are all such elements, each with what follows it.

* An element that satisfies the predicate stops a search, which then has not read beyond it (`seek_mono`), and does not
  read what comes later (`seek_append`).
* Elements that do not satisfy the predicate can be skipped (`hits_append`).
-/

namespace Streams

variable {α : Type*} (p : α → Bool)

/-- The first element that satisfies the predicate, and what follows it. -/
def seek : List α → Option (α × List α)
  | [] => none
  | a :: l => if p a then some (a, l) else seek l

/-- What is read up to the first element that satisfies the predicate, with that one. -/
def upTo : List α → List α
  | [] => []
  | a :: l => if p a then [a] else a :: upTo l

/-- What is left behind the first element that satisfies the predicate. -/
def beyond : List α → List α
  | [] => []
  | a :: l => if p a then l else beyond l

/-- All elements that satisfy the predicate, each with what follows it. -/
def hits : List α → List (α × List α)
  | [] => []
  | a :: l => if p a then (a, l) :: hits l else hits l

/-- Successive searches, each in what the one before has left. -/
def seekAll : List (α → Bool) → (α → Bool) → List α → Option (α × List α)
  | [], p, l => seek p l
  | q :: qs, p, l => (seek q l).bind fun found => seekAll qs p found.2

variable {p} {q : α → Bool} {a : α} {l r : List α}

theorem seek_eq_some (h : seek p l = some (a, r)) : p a = true ∧ ∃ l', l = l' ++ a :: r ∧ ∀ b ∈ l', p b = false := by
  induction l with
  | nil => cases h
  | cons b l ih =>
    rw [seek] at h
    split at h
    · rename_i hb
      cases h
      exact ⟨hb, [], rfl, nofun⟩
    · rename_i hb
      obtain ⟨ha, l', rfl, hl'⟩ := ih h
      exact ⟨ha, b :: l', rfl, List.forall_mem_cons.2 ⟨Bool.eq_false_iff.2 hb, hl'⟩⟩

theorem seek_eq_none : seek p l = none ↔ ∀ b ∈ l, p b = false := by
  induction l with
  | nil => exact iff_of_true rfl nofun
  | cons b l ih =>
    rw [seek, List.forall_mem_cons]
    cases hb : p b with
    | true => exact iff_of_false nofun fun h => nomatch h.1
    | false => exact ih.trans (and_iff_right rfl).symm

theorem exists_seek (hmem : a ∈ l) (ha : p a = true) : ∃ b r, seek p l = some (b, r) := by
  cases h : seek p l with
  | none => exact absurd (seek_eq_none.1 h a hmem) (by simp [ha])
  | some br => exact ⟨br.1, br.2, rfl⟩

theorem seek_length (h : seek p l = some (a, r)) : r.length < l.length := by
  obtain ⟨_, l', rfl, _⟩ := seek_eq_some h
  simp only [List.length_append, List.length_cons]
  omega

/-- A search that has ended does not depend on what comes later. -/
theorem seek_append (h : seek p l = some (a, r)) (l' : List α) : seek p (l ++ l') = some (a, r ++ l') := by
  induction l with
  | nil => cases h
  | cons b l ih =>
    rw [seek] at h
    rw [List.cons_append, seek]
    split at h
    · rename_i hb
      cases h
      rw [if_pos hb]
    · rename_i hb
      rw [if_neg hb, ih h]

theorem seekAll_length {qs : List (α → Bool)} (h : seekAll qs p l = some (a, r)) : r.length < l.length := by
  induction qs generalizing l with
  | nil => exact seek_length h
  | cons q qs ih =>
    obtain ⟨⟨b, l₁⟩, hseek, h⟩ := Option.bind_eq_some_iff.1 h
    exact Nat.lt_trans (ih h) (seek_length hseek)

/-- **A search with a weaker predicate does not read further.** -/
theorem seek_mono (hpq : ∀ b, p b = true → q b = true) (h : seek p l = some (a, r)) :
    ∃ b r', seek q l = some (b, r') ∧ r <:+ r' := by
  induction l with
  | nil => cases h
  | cons b l ih =>
    rw [seek] at h
    by_cases hq : q b = true
    · refine ⟨b, l, by rw [seek, if_pos hq], ?_⟩
      split at h
      · cases h
        exact List.suffix_refl _
      · obtain ⟨_, l', rfl, _⟩ := seek_eq_some h
        exact (List.suffix_cons a r).trans (List.suffix_append l' _)
    · rw [if_neg fun hp => hq (hpq b hp)] at h
      obtain ⟨c, r', hc, hr⟩ := ih h
      exact ⟨c, r', by rw [seek, if_neg hq, hc], hr⟩

theorem upTo_cons (ha : p a = false) (l : List α) : upTo p (a :: l) = a :: upTo p l := by
  rw [upTo, ha, if_neg Bool.false_ne_true]

theorem exists_upTo_cons (p : α → Bool) (a : α) (l : List α) : ∃ l', upTo p (a :: l) = a :: l' := by
  rw [upTo]
  split
  · exact ⟨[], rfl⟩
  · exact ⟨upTo p l, rfl⟩

theorem beyond_cons (ha : p a = false) (l : List α) : beyond p (a :: l) = beyond p l := by
  rw [beyond, ha, if_neg Bool.false_ne_true]

theorem upTo_append_beyond (p : α → Bool) (l : List α) : upTo p l ++ beyond p l = l := by
  induction l with
  | nil => rfl
  | cons b l ih =>
    rw [upTo, beyond]
    split
    · rfl
    · rw [List.cons_append, ih]

theorem beyond_length (p : α → Bool) (l : List α) : (beyond p l).length ≤ l.length := by
  have h := congrArg List.length (upTo_append_beyond p l)
  rw [List.length_append] at h
  omega

theorem hits_append (h : ∀ b ∈ l, p b = false) (r : List α) : hits p (l ++ r) = hits p r := by
  induction l with
  | nil => rfl
  | cons b l ih =>
    obtain ⟨hb, hl⟩ := List.forall_mem_cons.1 h
    rw [List.cons_append, hits, hb, if_neg Bool.false_ne_true, ih hl]

/-- A search gets to the first hit. -/
theorem head?_hits (p : α → Bool) (l : List α) : (hits p l).head? = seek p l := by
  induction l with
  | nil => rfl
  | cons b l ih =>
    rw [hits, seek]
    split
    · rfl
    · exact ih

end Streams
