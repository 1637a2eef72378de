import Mathlib.Data.List.Basic
import Mathlib.Data.List.Nodup

/-!
# Lists sorted by a key, and the gaps between their keys

Two searches through a list whose keys go up: for the place of a key (`place`), and for the first key from `k` on that
is free, together with its place (`gap`). What is inserted at the place that was found keeps the list sorted
(`sorted_insert_place`, `sorted_insert_gap`), and the key that was found is free (`gap_free`).
-/

namespace SortedKeys

variable {α : Type*} (key : α → Nat)

/-- The keys go up strictly. -/
def Sorted (l : List α) : Prop := l.Pairwise fun a b => key a < key b

/-- The number of entries before the first one with a key above `k`. -/
def place (k : Nat) : List α → Nat
  | [] => 0
  | a :: l => if k < key a then 0 else place k l + 1

/-- The first free key from `k` on, and the number of entries that were passed on the way. -/
def gap (k : Nat) : List α → Nat × Nat
  | [] => (k, 0)
  | a :: l =>
    if key a = k then ((gap (k + 1) l).1, (gap (k + 1) l).2 + 1)
    else if k < key a then (k, 0)
    else ((gap k l).1, (gap k l).2 + 1)

variable {key} {a : α} {l : List α} {k : Nat}

theorem Sorted.tail (h : Sorted key (a :: l)) : Sorted key l := (List.pairwise_cons.1 h).2

theorem Sorted.head_lt (h : Sorted key (a :: l)) {b : α} (hb : b ∈ l) : key a < key b := (List.pairwise_cons.1 h).1 b hb

theorem Sorted.nodup_keys (h : Sorted key l) : (l.map key).Nodup :=
  (List.Pairwise.map key (fun _ _ hab => hab) h : (l.map key).Pairwise (· < ·)).imp Nat.ne_of_lt

theorem place_le (k : Nat) (l : List α) : place key k l ≤ l.length := by
  induction l with
  | nil => simp [place]
  | cons b l ih => simp only [place]; split <;> simp; omega

theorem gap_le (k : Nat) (l : List α) : (gap key k l).2 ≤ l.length := by
  induction l generalizing k with
  | nil => simp [gap]
  | cons b l ih =>
    have h1 := ih (k + 1)
    have h2 := ih k
    simp only [gap]
    split
    · simp only [List.length_cons]; omega
    · split
      · simp
      · simp only [List.length_cons]; omega

/-- Insertion in front of what is above and behind what is below. -/
theorem sorted_insertIdx_cons {b : α} {n : Nat} (hn : n ≤ l.length) (hb : key b < key a) (h : Sorted key (b :: l))
    (hl : Sorted key (l.insertIdx n a)) : Sorted key ((b :: l).insertIdx (n + 1) a) := by
  rw [List.insertIdx_succ_cons]
  refine List.pairwise_cons.2 ⟨fun c hc => ?_, hl⟩
  rcases (List.mem_insertIdx hn).1 hc with rfl | hc
  · exact hb
  · exact h.head_lt hc

theorem sorted_cons_of_lt (h : Sorted key l) (hlt : ∀ b ∈ l, key a < key b) : Sorted key (a :: l) :=
  List.pairwise_cons.2 ⟨hlt, h⟩

/-- **What is inserted at its place keeps the list sorted.** -/
theorem sorted_insert_place (h : Sorted key l) (hfree : ∀ b ∈ l, key b ≠ key a) :
    Sorted key (l.insertIdx (place key (key a) l) a) := by
  induction l with
  | nil => simp [place, Sorted]
  | cons b l ih =>
    simp only [place]
    split
    · rename_i hlt
      refine sorted_cons_of_lt h fun c hc => ?_
      rcases List.mem_cons.1 hc with rfl | hc
      · exact hlt
      · exact Nat.lt_trans hlt (h.head_lt hc)
    · have hne := hfree b List.mem_cons_self
      have hl := ih h.tail fun c hc => hfree c (List.mem_cons_of_mem b hc)
      exact sorted_insertIdx_cons (place_le _ l) (by omega) h hl

theorem le_gap (k : Nat) (l : List α) : k ≤ (gap key k l).1 := by
  induction l generalizing k with
  | nil => exact Nat.le_refl k
  | cons b l ih =>
    simp only [gap]
    split
    · exact Nat.le_of_succ_le (ih (k + 1))
    · split
      · exact Nat.le_refl k
      · exact ih k

/-- Whatever was inserted into a list that is sorted now has a key of its own. -/
theorem Sorted.ne_of_insertIdx {n : Nat} (h : Sorted key (l.insertIdx n a)) (hn : n ≤ l.length) :
    ∀ b ∈ l, key b ≠ key a := by
  intro b hb heq
  have hnodup := h.nodup_keys
  rw [((List.perm_insertIdx a l hn).map _).nodup_iff, List.map_cons, List.nodup_cons] at hnodup
  exact hnodup.1 (heq ▸ List.mem_map_of_mem hb)

/-- The key that is found is free. -/
theorem gap_free (h : Sorted key l) : ∀ b ∈ l, key b ≠ (gap key k l).1 := by
  induction l generalizing k with
  | nil => simp
  | cons b l ih =>
    intro c hc
    simp only [gap]
    split
    · rcases List.mem_cons.1 hc with rfl | hc
      · have : k + 1 ≤ (gap key (k + 1) l).1 := le_gap (k + 1) l
        simp only; omega
      · exact ih h.tail c hc
    · split
      · rcases List.mem_cons.1 hc with rfl | hc
        · simp only; omega
        · have := h.head_lt hc
          simp only; omega
      · rcases List.mem_cons.1 hc with rfl | hc
        · have : k ≤ (gap key k l).1 := le_gap k l
          simp only; omega
        · exact ih h.tail c hc

/-- Behind keys without a gap the next one is free. -/
theorem gap_of_range' {n : Nat} (h : l.map key = List.range' k n) : gap key k l = (k + n, n) := by
  induction n generalizing k l with
  | zero =>
    rw [List.map_eq_nil_iff.1 h]
    rfl
  | succ n ih =>
    cases l with
    | nil => cases h
    | cons b l =>
      obtain ⟨hb, hl⟩ := List.cons.inj h
      rw [gap, if_pos hb, ih hl]
      exact Prod.ext (by simp only; omega) rfl

/-- **What is inserted with the free key at its place keeps the list sorted.** -/
theorem sorted_insert_gap (h : Sorted key l) (ha : key a = (gap key k l).1) :
    Sorted key (l.insertIdx (gap key k l).2 a) := by
  induction l generalizing k with
  | nil => simp [gap, Sorted]
  | cons b l ih =>
    have hle : k ≤ (gap key k l).1 := le_gap k l
    have hle' : k + 1 ≤ (gap key (k + 1) l).1 := le_gap (k + 1) l
    simp only [gap] at ha ⊢
    split at ha
    · rename_i hbk
      rw [if_pos hbk]
      exact sorted_insertIdx_cons (gap_le _ l) (by simp only at ha; omega) h (ih h.tail ha)
    · rename_i hbk
      rw [if_neg hbk]
      split at ha
      · rename_i hlt
        rw [if_pos hlt]
        refine sorted_cons_of_lt h fun c hc => ?_
        rcases List.mem_cons.1 hc with rfl | hc
        · simp only at ha; omega
        · have := h.head_lt hc
          simp only at ha; omega
      · rename_i hlt
        rw [if_neg hlt]
        exact sorted_insertIdx_cons (gap_le _ l) (by simp only at ha; omega) h (ih h.tail ha)

end SortedKeys
