import Tnvme.Lib.Shell

/-!
# Texts broken into lines

A text is broken at separators, which are left out. `Wrapped` lists the ways to do this for lines below a width. Where
the width holds no separator at all, the whole rest of the text becomes one line.

* No word is lost, torn apart or moved (`Wrapped.words_eq`).
* The lines that are longer have a single word exactly if all words but the last one are shorter than the width
  (`Wrapped.long_iff`).
* Lines with an end behind each are found again in the text that they make (`ended_flatten`).
-/

namespace Wrapping

open Shell

variable {α : Type*} {sep : α → Bool} {width : Nat} {l : List α} {lines : List (List α)}

/-- The lines of a text. What is left in the end is an element at most. -/
inductive Wrapped (sep : α → Bool) (width : Nat) : List α → List (List α) → Prop
  | stop {l : List α} : l.length ≤ 1 → Wrapped sep width l []
  | cut {line l : List α} {c : α} {lines : List (List α)} : line.length < width → sep c = true →
      Wrapped sep width l lines → Wrapped sep width (line ++ c :: l) (line :: lines)
  | whole {l : List α} {c : α} : width ≤ l.length → (∀ d ∈ l.take width, sep d = false) →
      Wrapped sep width (l ++ [c]) [l]

/-- The last element, if there is one, is a separator. -/
def Closed (sep : α → Bool) (l : List α) : Prop := ∀ c ∈ l.getLast?, sep c = true

theorem closed_concat {c : α} : Closed sep (l ++ [c]) ↔ sep c = true := by
  simp [Closed]

theorem Closed.behind {line : List α} {c : α} (h : Closed sep (line ++ c :: l)) : Closed sep l := by
  intro d hd
  refine h d ?_
  rw [List.getLast?_append, List.getLast?_cons, Option.mem_def.1 hd]
  rfl

theorem Wrapped.mem_of_mem {line : List α} {d : α} (h : Wrapped sep width l lines) (hline : line ∈ lines)
    (hd : d ∈ line) : d ∈ l := by
  induction h with
  | stop => cases hline
  | cut _ _ _ ih =>
    rcases List.mem_cons.1 hline with rfl | hline
    · exact List.mem_append_left _ hd
    · exact List.mem_append_right _ (List.mem_cons_of_mem _ (ih hline))
  | whole =>
    obtain rfl := List.mem_singleton.1 hline
    exact List.mem_append_left _ hd

/-! ## Words -/

theorem words_of_stop (hl : Closed sep l) (hle : l.length ≤ 1) : words sep l = [] := by
  match l with
  | [] => rfl
  | [c] => exact words_eq_nil (List.forall_mem_singleton.2 (hl c rfl))

theorem words_concat {c : α} (hc : sep c = true) (l : List α) : words sep (l ++ [c]) = words sep l := by
  rw [words_append_sep hc]
  exact List.append_nil _

/-- **The words of the lines are those of the text.** -/
theorem Wrapped.words_eq (h : Wrapped sep width l lines) (hl : Closed sep l) :
    lines.flatMap (words sep) = words sep l := by
  induction h with
  | stop hle => exact (words_of_stop hl hle).symm
  | cut _ hc _ ih => rw [List.flatMap_cons, ih hl.behind, words_append_sep hc]
  | whole => rw [List.flatMap_singleton, words_concat (closed_concat.1 hl)]

theorem length_le_of_mem_words {w : List α} (h : w ∈ words sep l) : w.length ≤ l.length := by
  induction hn : l.length using Nat.strong_induction_on generalizing l with
  | _ n ih =>
    rcases exists_word sep l with hall | ⟨blanks, v, r, rfl, hblanks, hne, hv, hr⟩
    · rw [words_eq_nil hall] at h
      cases h
    · rw [words_blanks_append hblanks, words_append hne hv hr] at h
      have hpos := List.length_pos_iff.2 hne
      rw [List.length_append, List.length_append] at hn
      rcases List.mem_cons.1 h with rfl | h
      · omega
      · have hle := ih r.length (by omega) h rfl
        omega

/-- A text that begins without a separator has a first word as long as that. -/
theorem exists_long_word (hpos : 0 < width) (hle : width ≤ l.length) (hfirst : ∀ d ∈ l.take width, sep d = false) :
    ∃ w r, l = w ++ r ∧ words sep l = w :: words sep r ∧ width ≤ w.length := by
  obtain ⟨d, l, rfl⟩ := List.exists_cons_of_length_pos (Nat.lt_of_lt_of_le hpos hle)
  have hd : sep d = false := hfirst d (by rw [← Nat.succ_pred_eq_of_pos hpos]; exact List.mem_cons_self)
  rcases exists_word sep (d :: l) with hall | ⟨blanks, w, r, heq, hblanks, hne, hw, hr⟩
  · exact absurd (hall d List.mem_cons_self) (by simp [hd])
  · obtain rfl : blanks = [] := by
      cases blanks with
      | nil => rfl
      | cons b blanks =>
        obtain rfl := (List.cons.inj heq).1
        exact absurd (hblanks d List.mem_cons_self) (by simp [hd])
    rw [List.nil_append] at heq
    refine ⟨w, r, heq, by rw [heq, words_append hne hw hr], Nat.le_of_not_lt fun hlt => ?_⟩
    rw [heq] at hfirst hle
    cases r with
    | nil =>
      rw [List.append_nil] at hle
      exact Nat.not_lt_of_le hle hlt
    | cons c r =>
      -- the separator behind the word is among the first elements
      have hmem : c ∈ (w ++ c :: r).take width := by
        rw [List.take_append, ← Nat.succ_pred_eq_of_pos (Nat.sub_pos_of_lt hlt)]
        exact List.mem_append_right _ List.mem_cons_self
      exact absurd (hfirst c hmem) (by simp [hr c rfl])

/-- **A line that is too long is a single word exactly if the long words come last.** -/
theorem Wrapped.long_iff (h : Wrapped sep width l lines) (hl : Closed sep l) (hpos : 0 < width) :
    (∀ line ∈ lines, width < line.length → (words sep line).length = 1) ↔
      ∀ w ∈ (words sep l).dropLast, w.length < width := by
  induction h with
  | stop hle =>
    rw [words_of_stop hl hle]
    exact iff_of_true nofun nofun
  | @cut line l c lines hlt hc _ ih =>
    have hshort : ∀ w ∈ words sep line, w.length < width := fun w hw =>
      Nat.lt_of_le_of_lt (length_le_of_mem_words hw) hlt
    rw [List.forall_mem_cons, and_iff_right fun hlong => absurd hlong (Nat.not_lt_of_lt hlt), ih hl.behind,
      words_append_sep hc]
    by_cases hnil : words sep l = []
    · rw [hnil, List.append_nil]
      exact iff_of_true nofun fun w hw => hshort w (List.mem_of_mem_dropLast hw)
    · rw [List.dropLast_append_of_ne_nil hnil]
      refine ⟨fun hall w hw => ?_, fun hall w hw => hall w (List.mem_append_right _ hw)⟩
      rcases List.mem_append.1 hw with hw | hw
      · exact hshort w hw
      · exact hall w hw
  | @whole l c hle hfirst =>
    obtain ⟨w, r, rfl, hwords, hlong⟩ := exists_long_word hpos hle hfirst
    rw [words_concat (closed_concat.1 hl), List.forall_mem_singleton, hwords, List.length_cons]
    by_cases hnil : words sep r = []
    · rw [hnil]
      exact iff_of_true (fun _ => rfl) nofun
    · have hr : 0 < r.length := List.length_pos_iff.2 fun hr => hnil (by rw [hr]; rfl)
      refine iff_of_false (fun hone => ?_) fun hall => ?_
      · have hzero := Nat.succ.inj (hone (by rw [List.length_append]; omega))
        exact hnil (List.length_eq_zero_iff.1 hzero)
      · rw [List.dropLast_cons_of_ne_nil hnil] at hall
        exact absurd (hall w List.mem_cons_self) (Nat.not_lt_of_le hlong)

/-! ## The ends of lines -/

/-- Lines that a text ends with `e` are the parts in front of it. -/
theorem ended_flatten {isEnd : α → Bool} {e : α} (he : isEnd e = true)
    (h : ∀ line ∈ lines, ∀ c ∈ line, isEnd c = false) :
    ((lines.map (· ++ [e])).flatten.splitOnP isEnd).dropLast = lines := by
  induction lines with
  | nil => rfl
  | cons line lines ih =>
    obtain ⟨hline, hlines⟩ := List.forall_mem_cons.1 h
    rw [List.map_cons, List.flatten_cons, List.append_assoc, List.singleton_append, List.splitOnP_append_cons _ _ he,
      List.splitOnP_eq_singleton hline, List.singleton_append,
      List.dropLast_cons_of_ne_nil (List.splitOnP_ne_nil _ _), ih hlines]

end Wrapping
