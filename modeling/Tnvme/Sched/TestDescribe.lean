import Tnvme.Lib.Wrapping

/-!
# Descriptions of tests

`GetLong` breaks the long description of a test into lines of 80 characters with an indent in front. Its loop looks for
the last space that fits into a line. A turn in which it finds the one that ended the line before is taken for the last
turn, and puts all that is left into one line.

The lines are ways to break the text (`wrapLoop_wrapped`), except that with an indent of 79 there are none. So nothing
is lost below that indent, and the lines are as promised unless a word as long as a line has others behind it
(`wrapExact_iff`).
-/

namespace Tnvme

open Shell Wrapping

def isCrLf (c : Char) : Bool := c == '\r' || c == '\n'

/-- A description. `SetLong` leaves out the ends of lines. -/
structure TestDescribe where
  mLongDesc : List Char
  noEol : ∀ c ∈ mLongDesc, isCrLf c = false

namespace TestDescribe

def setLong (desc : List Char) : TestDescribe where
  mLongDesc := desc.filter (!isCrLf ·)
  noEol c hc := by simpa using List.of_mem_filter hc

/-- `s.find_last_of(' ', pos)`. `none` is `npos`. -/
def findLastOf (s : List Char) : Nat → Option Nat
  | 0 => if s[0]? = some ' ' then some 0 else none
  | pos + 1 => if s[pos + 1]? = some ' ' then some (pos + 1) else findLastOf s pos

/-- One more than an index, which is 0 for `npos`. -/
def succIdx : Option Nat → Nat
  | none => 0
  | some i => i + 1

/-- `s.substr(start, last - start)`. A difference below 0 is a large number. -/
def substr (s : List Char) (start : Nat) : Option Nat → List Char
  | none => s.drop start
  | some last => if last < start then s.drop start else (s.drop start).take (last - start)

/-- Where the line that begins at `start` may end. -/
def lineEnd (tmpLongDesc : List Char) (indent start : Nat) : Nat :=
  (if start + (80 - indent) < tmpLongDesc.length then start + (80 - indent) else tmpLongDesc.length) - 1

/-- Where it is broken. -/
def breakIdx (tmpLongDesc : List Char) (startSpaceIdx spaceIdx : Nat) : Option Nat :=
  if succIdx (findLastOf tmpLongDesc spaceIdx) = startSpaceIdx then some (tmpLongDesc.length - 1)
  else findLastOf tmpLongDesc spaceIdx

/-- The loop of `GetLong`. `fuel` turns are left to it. -/
def wrapLoop (tmpLongDesc : List Char) (indent : Nat) : Nat → Nat → List Char → Option (List Char)
  | 0, _, _ => none
  | fuel + 1, startSpaceIdx, work =>
    if startSpaceIdx < lineEnd tmpLongDesc indent startSpaceIdx then
      let spaceIdx := breakIdx tmpLongDesc startSpaceIdx (lineEnd tmpLongDesc indent startSpaceIdx)
      wrapLoop tmpLongDesc indent fuel (succIdx spaceIdx)
        (work ++ List.replicate indent ' ' ++ substr tmpLongDesc startSpaceIdx spaceIdx ++ ['\n'])
    else some work

/-- The indent is below 80. Every turn gets further in the text, so it has less turns than characters. -/
def getLong (d : TestDescribe) (limit80Chars : Bool) (indent : Nat) : Option (List Char) :=
  let tmpLongDesc := d.mLongDesc ++ [' ']
  if limit80Chars then wrapLoop tmpLongDesc indent (tmpLongDesc.length + 1) 0 []
  else some (List.replicate indent ' ' ++ tmpLongDesc)

/-! ## What is expected -/

def isBlank (c : Char) : Bool := c == ' '

/-- The lines of a text of which every line ends with a newline. -/
def lines (text : List Char) : List (List Char) := (text.splitOnP (· == '\n')).dropLast

/-- `GetLong` returns. The words of its lines are those of the text, and a line of more than 80 characters is a single
word. -/
def WrapExact (d : TestDescribe) (indent : Nat) : Prop :=
  ∃ out, d.getLong true indent = some out ∧ (lines out).flatMap (words isBlank) = words isBlank d.mLongDesc ∧
    ∀ line ∈ lines out, 80 < line.length → (words isBlank line).length = 1

variable {s text : List Char} {indent start pos i : Nat}

/-! ## The loop -/

theorem findLastOf_some (h : findLastOf s pos = some i) :
    i ≤ pos ∧ s[i]? = some ' ' ∧ ∀ j, i < j → j ≤ pos → s[j]? ≠ some ' ' := by
  induction pos with
  | zero =>
    rw [findLastOf] at h
    split at h
    · rename_i hs
      cases h
      exact ⟨Nat.le_refl 0, hs, fun j hlt hle => absurd hlt (Nat.not_lt_of_le hle)⟩
    · cases h
  | succ pos ih =>
    rw [findLastOf] at h
    split at h
    · rename_i hs
      cases h
      exact ⟨Nat.le_refl _, hs, fun j hlt hle => absurd hlt (Nat.not_lt_of_le hle)⟩
    · rename_i hs
      obtain ⟨hle, hi, hlast⟩ := ih h
      refine ⟨Nat.le_succ_of_le hle, hi, fun j hlt hj => ?_⟩
      rcases Nat.lt_or_eq_of_le hj with hj | rfl
      · exact hlast j hlt (Nat.le_of_lt_succ hj)
      · exact hs

theorem findLastOf_none (h : findLastOf s pos = none) : ∀ j ≤ pos, s[j]? ≠ some ' ' := by
  induction pos with
  | zero =>
    intro j hj hs
    obtain rfl := Nat.le_zero.1 hj
    rw [findLastOf, if_pos hs] at h
    cases h
  | succ pos ih =>
    rw [findLastOf] at h
    split at h
    · cases h
    · rename_i hs
      intro j hj
      rcases Nat.lt_or_eq_of_le hj with hj | rfl
      · exact ih h j (Nat.le_of_lt_succ hj)
      · exact hs

/-- Where a line can begin: at the begin of the text, or behind a space. -/
def Begins (s : List Char) (start : Nat) : Prop := start ≤ s.length ∧ (start = 0 ∨ s[start - 1]? = some ' ')

/-- **A line is broken at a space in it, or it has none and the rest of the text becomes one.** -/
theorem breakIdx_cases (hs : Begins s start) (hpos : start ≤ pos) :
    (∃ i, breakIdx s start pos = some i ∧ start ≤ i ∧ i ≤ pos ∧ s[i]? = some ' ') ∨
      breakIdx s start pos = some (s.length - 1) ∧ ∀ j, start ≤ j → j ≤ pos → s[j]? ≠ some ' ' := by
  unfold breakIdx
  cases hfind : findLastOf s pos with
  | none =>
    have hnone := findLastOf_none hfind
    have hstart : start = 0 := hs.2.resolve_right (hnone (start - 1) (by omega))
    exact .inr ⟨if_pos hstart.symm, fun j _ hj => hnone j hj⟩
  | some i =>
    obtain ⟨hle, hi, hlast⟩ := findLastOf_some hfind
    by_cases heq : i + 1 = start
    · exact .inr ⟨if_pos heq, fun j hj hjpos => hlast j (by omega) hjpos⟩
    · refine .inl ⟨i, if_neg heq, Nat.le_of_not_lt fun hlt => ?_, hle, hi⟩
      -- the space in front of the line would have been found
      exact hs.2.elim (by omega) (hlast (start - 1) (by omega) (by omega))

theorem lineEnd_of_lt (h : start + (80 - indent) < s.length) : lineEnd s indent start = start + (80 - indent) - 1 := by
  rw [lineEnd, if_pos h]

theorem lineEnd_of_le (h : s.length ≤ start + (80 - indent)) : lineEnd s indent start = s.length - 1 := by
  rw [lineEnd, if_neg (Nat.not_lt_of_le h)]

theorem lineEnd_le (s : List Char) (indent start : Nat) : lineEnd s indent start ≤ s.length - 1 := by
  unfold lineEnd
  split <;> omega

/-- What the loop does with a text whose line ends at a space. -/
theorem drop_break (hi : s[i]? = some ' ') (hle : start ≤ i) :
    s.drop start = substr s start (some i) ++ ' ' :: s.drop (i + 1) := by
  obtain ⟨hlt, hi⟩ := List.getElem?_eq_some_iff.1 hi
  rw [substr, if_neg (Nat.not_lt_of_le hle)]
  have hdrop : (s.drop start).drop (i - start) = ' ' :: s.drop (i + 1) := by
    rw [List.drop_drop, Nat.add_sub_of_le hle, List.drop_eq_getElem_cons hlt, hi]
  rw [← hdrop, List.take_append_drop]

theorem substr_length_lt (hwidth : 2 ≤ 80 - indent) (hle : start ≤ i) (hi : i ≤ lineEnd s indent start) :
    (substr s start (some i)).length < 80 - indent := by
  rw [substr, if_neg (Nat.not_lt_of_le hle), List.length_take]
  unfold lineEnd at hi
  split at hi <;> omega

/-- A line without a space is not the last one, and full. -/
theorem no_space (hnone : ∀ j, start ≤ j → j ≤ lineEnd (text ++ [' ']) indent start → (text ++ [' '])[j]? ≠ some ' ')
    (hstart : start ≤ (text ++ [' ']).length) (hend : start < lineEnd (text ++ [' ']) indent start) :
    80 - indent ≤ (text.drop start).length ∧ ∀ c ∈ (text.drop start).take (80 - indent), isBlank c = false := by
  have hlen : (text ++ [' ']).length = text.length + 1 := by rw [List.length_append, List.length_singleton]
  by_cases hfit : (text ++ [' ']).length ≤ start + (80 - indent)
  · rw [lineEnd_of_le hfit, hlen, Nat.add_sub_cancel] at hnone hend
    exact absurd List.getElem?_concat_length (hnone text.length (Nat.le_of_lt hend) (Nat.le_refl _))
  · rw [lineEnd_of_lt (Nat.lt_of_not_le hfit)] at hnone
    have hlong : 80 - indent ≤ (text.drop start).length := by
      rw [List.length_drop]
      omega
    refine ⟨hlong, fun c hc => ?_⟩
    obtain ⟨j, hj, rfl⟩ := List.mem_iff_getElem.1 hc
    rw [List.length_take, Nat.min_eq_left hlong] at hj
    have hlt : start + j < text.length := by omega
    have hne := hnone (start + j) (by omega) (by omega)
    rw [List.getElem?_append_left hlt, List.getElem?_eq_getElem hlt, Ne, Option.some_inj] at hne
    rw [List.getElem_take, List.getElem_drop]
    exact beq_eq_false_iff_ne.2 hne

/-- Behind the text there is no line. -/
theorem wrapLoop_length (s : List Char) (indent fuel : Nat) (work : List Char) :
    wrapLoop s indent (fuel + 1) s.length work = some work := by
  rw [wrapLoop, if_neg]
  rw [lineEnd_of_le (Nat.le_add_right _ _)]
  omega

/-- **The loop breaks the text into lines.** -/
theorem wrapLoop_wrapped (hwidth : 2 ≤ 80 - indent) {fuel : Nat} (hs : Begins (text ++ [' ']) start)
    (hfuel : (text ++ [' ']).length - start < fuel) (work : List Char) :
    ∃ ls, Wrapped isBlank (80 - indent) ((text ++ [' ']).drop start) ls ∧
      wrapLoop (text ++ [' ']) indent fuel start work =
        some (work ++ (ls.map fun line => List.replicate indent ' ' ++ line ++ ['\n']).flatten) := by
  have hlen : (text ++ [' ']).length = text.length + 1 := by rw [List.length_append, List.length_singleton]
  induction fuel generalizing start work with
  | zero => exact absurd hfuel (Nat.not_lt_zero _)
  | succ fuel ih =>
    rw [wrapLoop]
    by_cases hend : start < lineEnd (text ++ [' ']) indent start
    · have hbehind := lineEnd_le (text ++ [' ']) indent start
      rw [if_pos hend]
      rcases breakIdx_cases hs (Nat.le_of_lt hend) with ⟨i, hbreak, hle, hi, hspace⟩ | ⟨hbreak, hnone⟩
      · obtain ⟨hlt, -⟩ := List.getElem?_eq_some_iff.1 hspace
        obtain ⟨ls, hls, hrun⟩ := @ih (i + 1) ⟨hlt, .inr hspace⟩ (by omega)
          (work ++ List.replicate indent ' ' ++ substr (text ++ [' ']) start (some i) ++ ['\n'])
        refine ⟨substr (text ++ [' ']) start (some i) :: ls, ?_, ?_⟩
        · rw [drop_break hspace hle]
          exact .cut (substr_length_lt hwidth hle hi) rfl hls
        · rw [hbreak]
          dsimp only [succIdx]
          rw [hrun, List.map_cons, List.flatten_cons]
          simp only [List.append_assoc]
      · obtain ⟨hlong, hfirst⟩ := no_space hnone hs.1 hend
        have hdrop : (text ++ [' ']).drop start = text.drop start ++ [' '] :=
          List.drop_append_of_le_length (by omega)
        have hlast : substr (text ++ [' ']) start (some ((text ++ [' ']).length - 1)) = text.drop start := by
          rw [hlen, Nat.add_sub_cancel, substr, if_neg (by omega), hdrop]
          exact List.take_left' List.length_drop
        obtain ⟨fuel, rfl⟩ : ∃ k, fuel = k + 1 := ⟨fuel - 1, by omega⟩
        refine ⟨[text.drop start], ?_, ?_⟩
        · rw [hdrop]
          exact .whole hlong hfirst
        · rw [hbreak]
          dsimp only
          rw [hlast, succIdx, Nat.sub_add_cancel (by omega), wrapLoop_length, List.map_singleton,
            List.flatten_singleton]
          simp only [List.append_assoc]
    · rw [if_neg hend]
      refine ⟨[], .stop ?_, by rw [List.map_nil, List.flatten_nil, List.append_nil]⟩
      rw [List.length_drop]
      unfold lineEnd at hend
      split at hend <;> omega

/-! ## The lines of a description -/

variable {d : TestDescribe} {ls : List (List Char)}

theorem closed_text (text : List Char) : Closed isBlank (text ++ [' ']) := closed_concat.2 rfl

theorem words_text (text : List Char) : words isBlank (text ++ [' ']) = words isBlank text := words_concat rfl text

theorem words_indented (indent : Nat) (line : List Char) :
    words isBlank (List.replicate indent ' ' ++ line) = words isBlank line :=
  words_blanks_append (fun c hc => by rw [List.eq_of_mem_replicate hc]; rfl) line

theorem getLong_wrapped (d : TestDescribe) (hwidth : 2 ≤ 80 - indent) :
    ∃ ls, Wrapped isBlank (80 - indent) (d.mLongDesc ++ [' ']) ls ∧ d.getLong true indent =
      some (ls.map fun line => List.replicate indent ' ' ++ line ++ ['\n']).flatten :=
  wrapLoop_wrapped hwidth ⟨Nat.zero_le _, .inl rfl⟩ (Nat.lt_succ_self _) []

/-- With an indent of 79 no line is begun. -/
theorem getLong_narrow (d : TestDescribe) : d.getLong true 79 = some [] := by
  have hend : ¬0 < lineEnd (d.mLongDesc ++ [' ']) 79 0 := by
    unfold lineEnd
    split <;> omega
  rw [getLong, if_pos rfl, wrapLoop, if_neg hend]

theorem not_newline_of_mem {line : List Char} (hls : Wrapped isBlank (80 - indent) (d.mLongDesc ++ [' ']) ls)
    (hline : line ∈ ls) : ∀ c ∈ line, (c == '\n') = false := by
  intro c hc
  rcases List.mem_append.1 (hls.mem_of_mem hline hc) with hmem | hmem
  · exact (Bool.or_eq_false_iff.1 (d.noEol c hmem)).2
  · rw [List.mem_singleton.1 hmem]
    rfl

/-- The lines are found again in what `GetLong` returns. -/
theorem lines_wrapped (hls : Wrapped isBlank (80 - indent) (d.mLongDesc ++ [' ']) ls) :
    lines (ls.map fun line => List.replicate indent ' ' ++ line ++ ['\n']).flatten =
      ls.map (List.replicate indent ' ' ++ ·) := by
  have hends : ∀ line ∈ ls.map (List.replicate indent ' ' ++ ·), ∀ c ∈ line, (c == '\n') = false := by
    intro _ hline c hc
    obtain ⟨line, hmem, rfl⟩ := List.mem_map.1 hline
    rcases List.mem_append.1 hc with hc | hc
    · rw [List.eq_of_mem_replicate hc]
      rfl
    · exact not_newline_of_mem hls hmem c hc
  have hended := ended_flatten (e := '\n') rfl hends
  rwa [List.map_map] at hended

/-- Below an indent of 79. -/
theorem wrapExact_wide (d : TestDescribe) (hwidth : 2 ≤ 80 - indent) : WrapExact d indent ↔
    ∀ w ∈ (words isBlank d.mLongDesc).dropLast, w.length < 80 - indent := by
  obtain ⟨ls, hls, hout⟩ := getLong_wrapped d hwidth
  have hwords : (ls.map (List.replicate indent ' ' ++ ·)).flatMap (words isBlank) = words isBlank d.mLongDesc := by
    rw [List.flatMap_map]
    simp only [words_indented]
    rw [hls.words_eq (closed_text _), words_text]
  have hlong : (∀ line ∈ ls.map (List.replicate indent ' ' ++ ·), 80 < line.length →
      (words isBlank line).length = 1) ↔ ∀ line ∈ ls, 80 - indent < line.length → (words isBlank line).length = 1 := by
    rw [List.forall_mem_map]
    refine forall₂_congr fun line _ => ?_
    rw [words_indented, List.length_append, List.length_replicate]
    exact imp_congr_left (by omega)
  rw [← words_text, ← hls.long_iff (closed_text _) (by omega), ← hlong, WrapExact, hout]
  constructor
  · rintro ⟨out, heq, -, hlines⟩
    rw [← Option.some.inj heq, lines_wrapped hls] at hlines
    exact hlines
  · intro hlines
    exact ⟨_, rfl, by rw [lines_wrapped hls, hwords], by rwa [lines_wrapped hls]⟩

theorem wrapExact_narrow (d : TestDescribe) : WrapExact d 79 ↔ words isBlank d.mLongDesc = [] := by
  rw [WrapExact, getLong_narrow]
  constructor
  · rintro ⟨out, heq, hwords, -⟩
    rw [← Option.some.inj heq] at hwords
    exact hwords.symm
  · intro hnil
    exact ⟨[], rfl, hnil.symm, nofun⟩

/-- **`GetLong` always returns. It keeps the words, and the width, exactly if the indent is below 79 or there are no
words, and all words but the last one are shorter than a line.** -/
theorem wrapExact_iff (d : TestDescribe) (hindent : indent < 80) : (d.getLong true indent).isSome = true ∧
    (WrapExact d indent ↔ (indent < 79 ∨ words isBlank d.mLongDesc = []) ∧
      ∀ w ∈ (words isBlank d.mLongDesc).dropLast, w.length < 80 - indent) := by
  rcases Nat.lt_or_eq_of_le (Nat.le_of_lt_succ hindent) with hlt | rfl
  · obtain ⟨ls, -, hout⟩ := getLong_wrapped d (show 2 ≤ 80 - indent by omega)
    exact ⟨by rw [hout]; rfl, by rw [wrapExact_wide d (by omega), and_iff_right (.inl hlt)]⟩
  · refine ⟨by rw [getLong_narrow]; rfl, ?_⟩
    rw [wrapExact_narrow, or_iff_right (Nat.lt_irrefl 79)]
    refine ⟨fun hnil => ⟨hnil, ?_⟩, And.left⟩
    rw [hnil]
    nofun

theorem wrapExact_short : 9 < 80 ∧ WrapExact (setLong "Verify that a reset\r\n succeeds".toList) 9 :=
  ⟨by decide, (wrapExact_iff _ (by decide)).2.2 ⟨.inl (by decide), by decide⟩⟩

/-- Behind a word of 71 characters, with the indent that is used, the line is not broken. -/
theorem wrap_not_exact : ¬∀ (d : TestDescribe) (indent : Nat), indent < 80 → WrapExact d indent := by
  intro h
  have hshort := (wrapExact_wide _ (by decide)).1 (h (setLong (List.replicate 71 'x' ++ " is".toList)) 9 (by decide))
  exact absurd hshort (by decide)

end TestDescribe

end Tnvme
