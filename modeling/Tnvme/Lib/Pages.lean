import Mathlib.Data.List.Nodup

/-!
# Sorted lists in pages

A list is read a page at a time, from a cursor on, and what has been read is taken out of it. The pages are the pieces
of the list as long as the cursor does not pass what is left (`page_eq_take`). A count of what has been read is such a
cursor: distinct numbers in ascending order grow at least as fast (`add_le_of_mem_drop`).
-/

namespace Pages

variable {α : Type*}

/-- At most `size` elements that are behind the cursor. -/
def page (size : Nat) (behind : α → Bool) (l : List α) : List α := (l.filter behind).take size

theorem page_eq_take {size : Nat} {behind : α → Bool} {l : List α} (h : ∀ a ∈ l, behind a = true) :
    page size behind l = l.take size := by
  rw [page, List.filter_eq_self.2 h]

/-- Taking a piece out of a list leaves the rest. -/
theorem filter_not_mem_take [DecidableEq α] {l : List α} (h : l.Nodup) (k : Nat) :
    l.filter (fun a => decide (a ∉ l.take k)) = l.drop k := by
  have hsplit := List.take_append_drop k l
  have hdisjoint : ∀ a ∈ l.drop k, a ∉ l.take k := by
    rw [← hsplit] at h
    intro a hdrop htake
    exact (List.nodup_append.1 h).2.2 a htake a hdrop rfl
  have hfront : (l.take k).filter (fun a => decide (a ∉ l.take k)) = [] :=
    List.filter_eq_nil_iff.2 fun a ha hnot => of_decide_eq_true hnot ha
  have hback : (l.drop k).filter (fun a => decide (a ∉ l.take k)) = l.drop k :=
    List.filter_eq_self.2 fun a ha => decide_eq_true (hdisjoint a ha)
  calc l.filter (fun a => decide (a ∉ l.take k))
      = (l.take k ++ l.drop k).filter (fun a => decide (a ∉ l.take k)) := by rw [hsplit]
    _ = l.drop k := by rw [List.filter_append, hfront, hback, List.nil_append]

/-- What is behind the first `k` of ascending numbers is larger by `k`. -/
theorem add_le_of_mem_drop {f : α → Nat} {l : List α} (hsorted : l.Pairwise fun a b => f a < f b) {c k : Nat}
    (hc : ∀ a ∈ l, c ≤ f a) : ∀ a ∈ l.drop k, c + k ≤ f a := by
  induction k generalizing l c with
  | zero => exact hc
  | succ k ih =>
    cases l with
    | nil => exact fun a ha => by cases ha
    | cons b l =>
      obtain ⟨hfirst, hsorted⟩ := List.pairwise_cons.1 hsorted
      have hb := hc b List.mem_cons_self
      have hrest : ∀ a ∈ l, c + 1 ≤ f a := fun a ha => Nat.lt_of_le_of_lt hb (hfirst a ha)
      intro a ha
      have := ih hsorted hrest a ha
      omega

end Pages
