import Tnvme.Cli.Target
import Mathlib.Data.List.Basic

/-!
# The option `--skiptest`

The option names a file with a target on each line. It is read 79 bytes at a time, each time as a C string. Of a line a
comment and what cannot be part of a target is left out. A target is looked at when its line ends. What is taken for
a target that cannot be read any more is left open (`freed`).

The file is read right if one of the lines that end is no target, in which case it is rejected, or if nothing is left of
what follows the last end of a line (`skipExact_iff`). A byte 0 hides the rest of what was read with it.
-/

namespace Tnvme

open Numerals Sched

/-- What the calls of `read` return, one after the other. -/
structure SkipFile where
  chunks : List (List Char)
  sized : ∀ chunk ∈ chunks, 0 < chunk.length ∧ chunk.length ≤ 79

namespace SkipFile

def bytes (file : SkipFile) : List Char := file.chunks.flatten

/-- What is put together of the C strings in `buffer`. -/
def contents (file : SkipFile) : List Char :=
  file.chunks.foldl (fun contents buffer => contents ++ buffer.takeWhile (· ≠ '\x00')) []

end SkipFile

def isEol (c : Char) : Bool := c == '\n' || c == '\r'

/-- What is kept of a line. -/
def isKept (c : Char) : Bool := c.isAlphanum || c == '.' || c == ':'

variable (freed : List Char → Option TestRef)

def parseTarget (line : List Char) : Option TestRef := (takenFor freed (some line)).map (·.t)

def processLine (line : List Char) (skipTest : List TestRef) : Option (List TestRef) :=
  if line.length = 0 then some skipTest
  else do
    let t ← parseTarget freed line
    return skipTest ++ [t]

/-- The loop over the characters. A comment that no end of a line follows is gone through like a line. -/
def parseLines (text line : List Char) (skipTest : List TestRef) : Option (List TestRef) :=
  match text with
  | [] => some skipTest
  | c :: text =>
    if c = '#' then
      if text.dropWhile (!isEol ·) = [] then parseLines text line skipTest
      else do
        let skipTest ← processLine freed line skipTest
        parseLines ((text.dropWhile (!isEol ·)).drop 1) [] skipTest
    else if isEol c then do
      let skipTest ← processLine freed line skipTest
      parseLines text [] skipTest
    else parseLines text (if isKept c then line ++ [c] else line) skipTest
termination_by text.length
decreasing_by
  · exact Nat.lt_succ_self _
  · exact Nat.lt_succ_of_le (((List.drop_suffix 1 _).trans (List.dropWhile_suffix _)).length_le)
  · exact Nat.lt_succ_self _
  · exact Nat.lt_succ_self _

/-- `file` is `none` if it cannot be opened or read. -/
def parseSkipTestCmdLine (skipTest : List TestRef) (file : Option SkipFile) : Option (List TestRef) := do
  let file ← file
  parseLines freed file.contents [] skipTest

namespace SkipTest

/-! ## The lines of a file -/

/-- The line without its comment and what else is not kept. -/
def contentOf (line : List Char) : List Char := (line.takeWhile (· ≠ '#')).filter isKept

/-- The targets of lines, `none` if one of them is not empty and no target. -/
def targets (lines : List (List Char)) : Option (List TestRef) :=
  ((lines.map contentOf).filter (· ≠ [])).mapM (parseTarget freed)

def lines (text : List Char) : List (List Char) := text.splitOnP isEol

/-- The lines that have an end, and what follows the last one. -/
def endedLines (text : List Char) : List (List Char) := (lines text).dropLast

theorem lines_ne_nil (text : List Char) : lines text ≠ [] := List.splitOnP_ne_nil isEol text

def lastLine (text : List Char) : List Char := (lines text).getLast (lines_ne_nil text)

/-- A line that makes the call fail. -/
def IsBad (line : List Char) : Prop := contentOf line ≠ [] ∧ parseTarget freed (contentOf line) = none

/-- What is accepted are the targets of all lines. -/
def SkipExact (skipTest : List TestRef) (file : SkipFile) : Prop :=
  ∀ l, parseSkipTestCmdLine freed skipTest (some file) = some l →
    ∃ ts, targets freed (lines file.bytes) = some ts ∧ l = skipTest ++ ts

variable {freed : List Char → Option TestRef} {text line : List Char} {skipTest : List TestRef}

theorem lines_of_not_eol (h : ∀ c ∈ text, isEol c = false) : lines text = [text] := List.splitOnP_eq_singleton h

theorem lines_append {front : List Char} {e : Char} (h : ∀ c ∈ front, isEol c = false) (he : isEol e = true)
    (text : List Char) : lines (front ++ e :: text) = front :: lines text := by
  rw [lines, List.splitOnP_append_cons _ _ he, List.splitOnP_eq_singleton h]
  rfl

/-- A text has no end of a line, or a first one. -/
theorem exists_line (text : List Char) : (∀ c ∈ text, isEol c = false) ∨
    ∃ front e rest, text = front ++ e :: rest ∧ (∀ c ∈ front, isEol c = false) ∧ isEol e = true := by
  induction text with
  | nil => exact .inl fun c hc => absurd hc List.not_mem_nil
  | cons c text ih =>
    cases hc : isEol c with
    | true => exact .inr ⟨[], c, text, rfl, fun d hd => absurd hd List.not_mem_nil, hc⟩
    | false =>
      rcases ih with hnone | ⟨front, e, rest, rfl, hfront, he⟩
      · exact .inl (List.forall_mem_cons.2 ⟨hc, hnone⟩)
      · exact .inr ⟨c :: front, e, rest, rfl, List.forall_mem_cons.2 ⟨hc, hfront⟩, he⟩

/-- Line by line. -/
theorem lines_induction {motive : List Char → Prop} (last : ∀ text, (∀ c ∈ text, isEol c = false) → motive text)
    (line : ∀ front e text, (∀ c ∈ front, isEol c = false) → isEol e = true → motive text →
      motive (front ++ e :: text)) (text : List Char) : motive text := by
  induction h : text.length using Nat.strong_induction_on generalizing text with
  | _ n ih =>
    rcases exists_line text with hnone | ⟨front, e, rest, rfl, hfront, he⟩
    · exact last text hnone
    · refine line front e rest hfront he (ih rest.length ?_ rest rfl)
      rw [← h, List.length_append, List.length_cons]
      omega

/-! ## What the loop does with a line -/

theorem isEol_ne_hash {c : Char} (h : isEol c = true) : c ≠ '#' := by
  rintro rfl
  cases h

/-- Without an end of a line nothing is looked at. -/
theorem parseLines_last (h : ∀ c ∈ text, isEol c = false) (line : List Char) :
    parseLines freed text line skipTest = some skipTest := by
  induction text generalizing line with
  | nil => rw [parseLines]
  | cons c text ih =>
    obtain ⟨hc, htext⟩ := List.forall_mem_cons.1 h
    have hnone : text.dropWhile (!isEol ·) = [] := List.dropWhile_eq_nil_iff.2 fun d hd => by rw [htext d hd]; rfl
    rw [parseLines, if_pos hnone, hc]
    split
    · exact ih htext line
    · exact ih htext _

/-- The content of a line is collected up to its end. -/
theorem parseLines_line {front : List Char} {e : Char} (h : ∀ c ∈ front, isEol c = false) (he : isEol e = true)
    (rest line : List Char) : parseLines freed (front ++ e :: rest) line skipTest =
      (processLine freed (line ++ contentOf front) skipTest).bind (parseLines freed rest []) := by
  induction front generalizing line with
  | nil =>
    rw [List.nil_append, parseLines, if_neg (isEol_ne_hash he), if_pos he]
    change _ = (processLine freed (line ++ []) skipTest).bind (parseLines freed rest [])
    rw [List.append_nil]
    rfl
  | cons c front ih =>
    obtain ⟨hc, hfront⟩ := List.forall_mem_cons.1 h
    rw [List.cons_append, parseLines]
    by_cases hhash : c = '#'
    · have hdrop : (front ++ e :: rest).dropWhile (!isEol ·) = e :: rest := by
        rw [dropWhile_separator (by rw [he]; rfl), List.dropWhile_eq_nil_iff.2 fun d hd => by rw [hfront d hd]; rfl,
          List.nil_append]
      have hcontent : contentOf (c :: front) = [] := by
        rw [contentOf, List.takeWhile_cons_of_neg (by simp [hhash])]
        rfl
      rw [if_pos hhash, hdrop, if_neg (List.cons_ne_nil _ _), hcontent, List.append_nil]
      rfl
    · have hcontent : contentOf (c :: front) = if isKept c then c :: contentOf front else contentOf front := by
        rw [contentOf, List.takeWhile_cons_of_pos (by simp [hhash]), List.filter_cons]
        rfl
      rw [if_neg hhash, hc, if_neg (by decide), ih hfront, hcontent]
      split
      · rw [List.append_assoc, List.singleton_append]
      · rfl

theorem targets_cons (line : List Char) (ls : List (List Char)) : targets freed (line :: ls) =
    if contentOf line = [] then targets freed ls
    else (parseTarget freed (contentOf line)).bind fun t => (targets freed ls).map (t :: ·) := by
  rw [targets, List.map_cons, List.filter_cons]
  by_cases hline : contentOf line = []
  · rw [if_neg (by simp [hline]), if_pos hline]
    rfl
  · rw [if_pos (by simp [hline]), if_neg hline, List.mapM_cons]
    cases parseTarget freed (contentOf line) with
    | none => rfl
    | some t =>
      change (targets freed ls).bind (fun ts => some (t :: ts)) = (targets freed ls).map (t :: ·)
      rw [Option.map_eq_bind]
      rfl

/-- **The loop takes the targets of the lines that end.** -/
theorem parseLines_eq (text : List Char) (skipTest : List TestRef) :
    parseLines freed text [] skipTest = (targets freed (endedLines text)).map (skipTest ++ ·) := by
  induction text using lines_induction generalizing skipTest with
  | last text h =>
    rw [parseLines_last h, endedLines, lines_of_not_eol h]
    exact congrArg some (List.append_nil _).symm
  | line front e text h he ih =>
    rw [parseLines_line h he, endedLines, lines_append h he,
      List.dropLast_cons_of_ne_nil (lines_ne_nil text), ← endedLines, targets_cons, List.nil_append, processLine]
    by_cases hline : contentOf front = []
    · rw [if_pos (List.length_eq_zero_iff.2 hline), if_pos hline, Option.bind_some, ih]
    · rw [if_neg (fun h => hline (List.length_eq_zero_iff.1 h)), if_neg hline]
      cases parseTarget freed (contentOf front) with
      | none => rfl
      | some t =>
        change parseLines freed text [] (skipTest ++ [t]) = _
        rw [ih]
        change _ = ((targets freed (endedLines text)).map (t :: ·)).map (skipTest ++ ·)
        rw [Option.map_map]
        exact congrArg (Option.map · _) (funext fun ts => List.append_assoc _ _ _)

/-! ## The lines that are lost -/

theorem targets_append (a b : List (List Char)) :
    targets freed (a ++ b) = (targets freed a).bind fun ts => (targets freed b).map (ts ++ ·) := by
  induction a with
  | nil =>
    change targets freed b = (targets freed b).map ([] ++ ·)
    cases targets freed b <;> rfl
  | cons line a ih =>
    rw [List.cons_append, targets_cons, targets_cons, ih]
    split
    · rfl
    · cases parseTarget freed (contentOf line) <;> cases targets freed a <;> cases targets freed b <;> rfl

theorem targets_eq_none_iff {ls : List (List Char)} : targets freed ls = none ↔ ∃ line ∈ ls, IsBad freed line := by
  induction ls with
  | nil => exact iff_of_false (fun h => by cases h) fun ⟨_, h, _⟩ => absurd h List.not_mem_nil
  | cons line ls ih =>
    have hcons : (∃ l ∈ line :: ls, IsBad freed l) ↔ IsBad freed line ∨ ∃ l ∈ ls, IsBad freed l := by simp
    rw [targets_cons, hcons, ← ih, IsBad]
    by_cases hline : contentOf line = []
    · rw [if_pos hline]
      exact (or_iff_right fun h => h.1 hline).symm
    · rw [if_neg hline, and_iff_right hline]
      cases parseTarget freed (contentOf line) <;> simp

/-- The last line adds something exactly if something is left of it. -/
theorem targets_lines {ts : List TestRef} (h : targets freed (endedLines text) = some ts) :
    targets freed (lines text) = some ts ↔ contentOf (lastLine text) = [] := by
  have hlines : lines text = endedLines text ++ [lastLine text] :=
    (List.dropLast_append_getLast (lines_ne_nil text)).symm
  rw [hlines, targets_append, h, Option.bind_some, targets_cons]
  by_cases hlast : contentOf (lastLine text) = []
  · rw [if_pos hlast]
    exact iff_of_true (congrArg some (List.append_nil ts)) hlast
  · rw [if_neg hlast]
    refine iff_of_false (fun heq => ?_) hlast
    cases hparse : parseTarget freed (contentOf (lastLine text)) with
    | none =>
      rw [hparse] at heq
      cases heq
    | some target =>
      rw [hparse] at heq
      have hlen := congrArg List.length (Option.some.inj heq)
      simp at hlen

theorem parseSkipTestCmdLine_eq (skipTest : List TestRef) (file : SkipFile) :
    parseSkipTestCmdLine freed skipTest (some file) = (targets freed (endedLines file.contents)).map (skipTest ++ ·) :=
  parseLines_eq file.contents skipTest

theorem foldl_chunks {chunks : List (List Char)} (h : '\x00' ∉ chunks.flatten) (contents : List Char) :
    chunks.foldl (fun contents buffer => contents ++ buffer.takeWhile (· ≠ '\x00')) contents =
      contents ++ chunks.flatten := by
  induction chunks generalizing contents with
  | nil => exact (List.append_nil contents).symm
  | cons chunk chunks ih =>
    rw [List.flatten_cons, List.mem_append, not_or] at h
    have hchunk : chunk.takeWhile (· ≠ '\x00') = chunk :=
      List.takeWhile_eq_self_iff.2 fun c hc => decide_eq_true fun heq => h.1 (heq ▸ hc)
    rw [List.foldl_cons, ih h.2, hchunk, List.flatten_cons, List.append_assoc]

/-- Without a byte 0 all bytes are read. -/
theorem contents_eq {file : SkipFile} (h : '\x00' ∉ file.bytes) : file.contents = file.bytes := foldl_chunks h []

theorem skipExact_of_contents (skipTest : List TestRef) (file : SkipFile) : SkipExact freed skipTest file ↔
    (∃ line ∈ endedLines file.contents, IsBad freed line) ∨
      targets freed (lines file.bytes) = targets freed (endedLines file.contents) := by
  rw [← targets_eq_none_iff, SkipExact, parseSkipTestCmdLine_eq]
  cases hended : targets freed (endedLines file.contents) with
  | none => exact iff_of_true (fun l h => by cases h) (.inl rfl)
  | some ts =>
    rw [or_iff_right (fun h => by cases h)]
    constructor
    · intro hexact
      obtain ⟨ts', hts', heq⟩ := hexact _ rfl
      rw [hts', List.append_cancel_left heq]
    · intro hlines l hl
      exact ⟨ts, hlines, (Option.some.inj hl).symm⟩

/-- **A file is read right exactly if a line that ends is no target, or else the other lines add nothing.** Without a
byte 0 the only other line is the last one. -/
theorem skipExact_iff (skipTest : List TestRef) (file : SkipFile) :
    (SkipExact freed skipTest file ↔ (∃ line ∈ endedLines file.contents, IsBad freed line) ∨
      targets freed (lines file.bytes) = targets freed (endedLines file.contents)) ∧
    ('\x00' ∉ file.bytes → (SkipExact freed skipTest file ↔
      (∃ line ∈ endedLines file.bytes, IsBad freed line) ∨ contentOf (lastLine file.bytes) = [])) := by
  refine ⟨skipExact_of_contents skipTest file, fun hnul => ?_⟩
  rw [skipExact_of_contents, contents_eq hnul, ← targets_eq_none_iff]
  cases hended : targets freed (endedLines file.bytes) with
  | none => exact iff_of_true (.inl rfl) (.inl rfl)
  | some ts => rw [or_iff_right (fun h => by cases h), or_iff_right (fun h => by cases h), targets_lines hended]

theorem skipExact_line : SkipExact (fun _ => none) [] ⟨["1:0.2.0 # slow\n".toList], by decide⟩ :=
  ((@skipExact_iff (fun _ => none) [] ⟨["1:0.2.0 # slow\n".toList], by decide⟩).2 (by decide)).2 (.inr (by decide))

/-- A target without a newline is not skipped. -/
theorem skip_not_exact : ¬∀ (freed : List Char → Option TestRef) (skipTest : List TestRef) (file : SkipFile),
    SkipExact freed skipTest file := by
  intro h
  have hparse : parseSkipTestCmdLine (fun _ => none) [] (some ⟨["1:0.2.0".toList], by decide⟩) = some [] := by
    rw [parseSkipTestCmdLine_eq]
    decide
  obtain ⟨ts, hts, heq⟩ := h (fun _ => none) [] ⟨["1:0.2.0".toList], by decide⟩ [] hparse
  rw [← List.nil_append ts, ← heq] at hts
  exact absurd hts (by decide)

end SkipTest

end Tnvme
