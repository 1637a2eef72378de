import Mathlib.Data.Nat.ModEq
import Mathlib.Logic.Function.Basic

/-!
# Ring buffers

A ring keeps a queue in slots that are used in the round. One slot is always left empty, so a full ring can be told from
an empty one. `toList` is the queue.

* A push appends to the queue if there is room (`toList_push`), a pop drops from its front (`toList_pop`).
* The slot in front of the head is the empty one: pushes do not write to it (`slot_pushes`). So what has been popped
  last can still be read (`slot_pushes_pop`).
-/

/-- A queue of `count` elements in the slots from `head` on. -/
structure RingBuf (α : Type*) (size : Nat) where
  slot : Nat → α
  head : Nat
  count : Nat
  head_lt : head < size
  count_lt : count < size

namespace RingBuf

variable {α : Type*} {size : Nat}

/-- The slot of the element at a distance from the head. -/
def idx (r : RingBuf α size) (i : Nat) : Nat := (r.head + i) % size

def toList (r : RingBuf α size) : List α := (List.range r.count).map fun i => r.slot (r.idx i)

/-- A full ring stays as it is. -/
def push (r : RingBuf α size) (a : α) : RingBuf α size :=
  if h : r.count + 1 < size then
    { r with slot := Function.update r.slot (r.idx r.count) a, count := r.count + 1, count_lt := h }
  else r

def pushes (r : RingBuf α size) (as : List α) : RingBuf α size := as.foldl push r

/-- Takes elements from the front, as many as there are. -/
def pop (r : RingBuf α size) (n : Nat) : RingBuf α size where
  slot := r.slot
  head := r.idx (min n r.count)
  count := r.count - min n r.count
  head_lt := Nat.mod_lt _ (Nat.zero_lt_of_lt r.head_lt)
  count_lt := Nat.lt_of_le_of_lt (Nat.sub_le _ _) r.count_lt

variable {r : RingBuf α size} {a : α}

theorem idx_inj {i j : Nat} (hi : i < size) (hj : j < size) (h : r.idx i = r.idx j) : i = j :=
  (Nat.ModEq.add_left_cancel' r.head h : i ≡ j [MOD size]).eq_of_lt_of_lt hi hj

theorem length_toList (r : RingBuf α size) : r.toList.length = r.count := by
  rw [toList, List.length_map, List.length_range]

/-- The front of the queue is in the slot of the head. -/
theorem slot_head {as : List α} (h : r.toList = a :: as) : r.slot r.head = a := by
  have hpos : 0 < r.count := by
    rw [← length_toList, h]
    exact Nat.succ_pos _
  have hfront : r.toList[0]? = some (r.slot (r.idx 0)) := by
    rw [toList, List.getElem?_map, List.getElem?_range hpos]
    rfl
  rw [h, List.getElem?_cons_zero, idx, Nat.add_zero, Nat.mod_eq_of_lt r.head_lt] at hfront
  exact (Option.some.inj hfront).symm

theorem push_of_room (h : r.count + 1 < size) : r.push a =
    { r with slot := Function.update r.slot (r.idx r.count) a, count := r.count + 1, count_lt := h } := dif_pos h

theorem push_of_full (h : ¬r.count + 1 < size) : r.push a = r := dif_neg h

@[simp] theorem head_push : (r.push a).head = r.head := by
  by_cases h : r.count + 1 < size
  · rw [push_of_room h]
  · rw [push_of_full h]

/-- A push writes to the slot behind the queue only. -/
theorem slot_push {i : Nat} (hi : i < size) (hne : i ≠ r.count) : (r.push a).slot (r.idx i) = r.slot (r.idx i) := by
  by_cases h : r.count + 1 < size
  · rw [push_of_room h]
    exact Function.update_of_ne (fun heq => hne (idx_inj hi r.count_lt heq)) _ _
  · rw [push_of_full h]

theorem toList_push (r : RingBuf α size) (a : α) :
    (r.push a).toList = if r.toList.length + 1 < size then r.toList ++ [a] else r.toList := by
  rw [length_toList]
  by_cases h : r.count + 1 < size
  · have hkeep : ∀ i ∈ List.range r.count, (r.push a).slot (r.idx i) = r.slot (r.idx i) := by
      intro i hi
      rw [List.mem_range] at hi
      exact slot_push (Nat.lt_trans hi r.count_lt) (Nat.ne_of_lt hi)
    have hlast : (r.push a).slot (r.idx r.count) = a := by
      rw [push_of_room h]
      exact Function.update_self _ _ _
    have hcount : (r.push a).count = r.count + 1 := by rw [push_of_room h]
    have hidx : (r.push a).idx = r.idx := by
      funext i
      rw [idx, head_push, idx]
    rw [if_pos h, toList, hcount, hidx, List.range_succ, List.map_append, List.map_congr_left hkeep, List.map_singleton,
      hlast, toList]
  · rw [if_neg h, push_of_full h]

theorem toList_push_of_empty (hsize : 1 < size) (h : r.count = 0) : (r.push a).toList = [a] := by
  have hlist : r.toList = [] := List.length_eq_zero_iff.1 (r.length_toList.trans h)
  rw [toList_push, hlist, List.length_nil, if_pos (by omega), List.nil_append]

theorem toList_pop (r : RingBuf α size) (n : Nat) : (r.pop n).toList = r.toList.drop (min n r.count) := by
  have hidx : ∀ i, (r.pop n).idx i = r.idx (min n r.count + i) := by
    intro i
    change ((r.head + min n r.count) % size + i) % size = (r.head + (min n r.count + i)) % size
    rw [Nat.mod_add_mod, Nat.add_assoc]
  have hrange : (List.range r.count).drop (min n r.count) =
      (List.range (r.count - min n r.count)).map (min n r.count + ·) := by
    rw [List.range_eq_range', List.drop_range', ← List.range'_eq_map_range]
    simp
  rw [toList, toList, ← List.map_drop, hrange, List.map_map]
  exact List.map_congr_left fun i _ => congrArg r.slot (hidx i)

theorem pushes_append (r : RingBuf α size) (as as' : List α) : r.pushes (as ++ as') = (r.pushes as).pushes as' :=
  List.foldl_append

@[simp] theorem head_pushes (r : RingBuf α size) (as : List α) : (r.pushes as).head = r.head := by
  induction as generalizing r with
  | nil => rfl
  | cons a as ih => exact (ih (r.push a)).trans head_push

/-- Pushes append to the queue. -/
theorem prefix_pushes (r : RingBuf α size) (as : List α) : r.toList <+: (r.pushes as).toList := by
  induction as generalizing r with
  | nil => exact List.prefix_refl _
  | cons a as ih =>
    refine List.IsPrefix.trans ?_ (ih (r.push a))
    rw [toList_push]
    split
    · exact List.prefix_append _ _
    · exact List.prefix_refl _

/-- The slot in front of the head is not written to. -/
theorem slot_pushes (r : RingBuf α size) (as : List α) :
    (r.pushes as).slot (r.idx (size - 1)) = r.slot (r.idx (size - 1)) := by
  induction as generalizing r with
  | nil => rfl
  | cons a as ih =>
    have hidx : (r.push a).idx (size - 1) = r.idx (size - 1) := by rw [idx, head_push, idx]
    have hpos := r.head_lt
    change ((r.push a).pushes as).slot _ = _
    rw [← hidx, ih, hidx]
    by_cases h : r.count + 1 < size
    · exact slot_push (by omega) (by omega)
    · rw [push_of_full h]

/-- What has been popped last can still be read, whatever is pushed then. -/
theorem slot_pushes_pop (r : RingBuf α size) (as : List α) (h : 0 < r.count) :
    ((r.pop 1).pushes as).slot r.head = r.slot r.head := by
  have hone : min 1 r.count = 1 := by omega
  have hpos := r.head_lt
  have hfront : (r.pop 1).idx (size - 1) = r.head := by
    change ((r.head + min 1 r.count) % size + (size - 1)) % size = r.head
    rw [hone, Nat.mod_add_mod, show r.head + 1 + (size - 1) = r.head + size by omega, Nat.add_mod_right,
      Nat.mod_eq_of_lt hpos]
  have hslots := slot_pushes (r.pop 1) as
  rw [hfront] at hslots
  exact hslots

end RingBuf
