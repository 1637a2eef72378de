import Tnvme.Lib.HexText

/-!
# Logs and dumps of a buffer

`log` and `dump` print a window of a buffer in rows of 16 bytes. Both shorten a window that goes beyond the end of the
buffer, and find out by a sum of 64 bits whether it does.

* `printBytes_state`: after `i` bytes the rows that are full have been printed, and the begun one waits.
* `dumpLen_eq`: the length that is printed is that of the window, unless the sum wraps; then the loop leaves the buffer.
-/

namespace Tnvme.Buffers

/-- What a call has read of the buffer, has printed, and has thrown. -/
structure Printout where
  reads : List Nat
  printed : List String
  threw : Option String
  deriving DecidableEq, Repr

/-- The state of the loop over the bytes. -/
structure Rows where
  output : String
  printed : List String
  reads : List Nat
  deriving DecidableEq, Repr

/-- The lines are printed with `eol` behind them. -/
def printByte (eol : String) (i : Nat) (data : BitVec 8) (s : Rows) (addr : Nat) : Rows :=
  if i % 16 = 15 then ⟨"", s.printed ++ [s.output ++ (" " ++ HexText.byte data) ++ eol], s.reads ++ [addr]⟩
  else if i % 16 = 0 then
    ⟨s.output ++ ("0x" ++ HexText.word (i % 2 ^ 32) ++ ": " ++ HexText.byte data), s.printed, s.reads ++ [addr]⟩
  else ⟨s.output ++ (" " ++ HexText.byte data), s.printed, s.reads ++ [addr]⟩

/-- The loop for `count` more bytes; `none` is a read outside of the buffer. -/
def printBytes (eol : String) (buf : List (BitVec 8)) (bufOffset : Nat) : Nat → Nat → Rows → Option Rows
  | 0, _, s => some s
  | count + 1, i, s =>
    match buf[bufOffset + i]? with
    | none => none
    | some data => printBytes eol buf bufOffset count (i + 1) (printByte eol i data s (bufOffset + i))

/-- The row that has been begun is printed in the end. -/
def printRest (eol : String) (s : Rows) : Rows :=
  if s.output.length ≠ 0 then { s with printed := s.printed ++ [s.output ++ eol] } else s

def printRows (eol : String) (buf : List (BitVec 8)) (bufOffset dumpLen : Nat) : Option Rows :=
  (printBytes eol buf bufOffset dumpLen 0 ⟨"", [], []⟩).map (printRest eol)

def ulongMax : BitVec 64 := BitVec.allOnes 64

def dumpLen (bufOffset : BitVec 32) (length : BitVec 64) (totalBufSize : BitVec 32) : BitVec 64 :=
  if length = ulongMax then (totalBufSize - bufOffset).setWidth 64
  else if totalBufSize.setWidth 64 ≤ length + bufOffset.setWidth 64 then (totalBufSize - bufOffset).setWidth 64
  else length

def offsetText (bufOffset totalBufSize : BitVec 32) : String :=
  "Offset into buffer 0x" ++ HexText.word bufOffset.toNat ++ " >= to buffer size 0x" ++
    HexText.word totalBufSize.toNat

def logHead (objName : String) : List String := ["Logging " ++ objName ++ " obj contents...."]

/-- `Log`, for all of a buffer; `none` is undefined behaviour. -/
def log (buf : List (BitVec 8)) (bufOffset : BitVec 32) (length : BitVec 64) (totalBufSize : BitVec 32)
    (objName : String) : Option Printout :=
  if totalBufSize ≤ bufOffset then some ⟨[], logHead objName, some (offsetText bufOffset totalBufSize)⟩
  else
    (printRows "" buf bufOffset.toNat (dumpLen bufOffset length totalBufSize).toNat).map fun s =>
      ⟨s.reads, logHead objName ++ s.printed, none⟩

/-- `Dump`, with what it appends to the file; `opened` tells whether the file can be opened. -/
def dump (opened : Bool) (filename : String) (buf : List (BitVec 8)) (bufOffset : BitVec 32) (length : BitVec 64)
    (totalBufSize : BitVec 32) (fileHdr : String) : Option Printout :=
  if !opened then some ⟨[], [], some ("Failed to open file: " ++ filename)⟩
  else if totalBufSize = 0 then some ⟨[], [fileHdr ++ "\n", "0x00000000: BUFFER IS EMPTY\n"], none⟩
  else if totalBufSize ≤ bufOffset then some ⟨[], [fileHdr ++ "\n"], some ""⟩
  else
    (printRows "\n" buf bufOffset.toNat (dumpLen bufOffset length totalBufSize).toNat).map fun s =>
      ⟨s.reads, [fileHdr ++ "\n"] ++ s.printed, none⟩

/-! ## What a printout shows -/

/-- The line of the row `k`; `base` is the label of the first byte of the window. -/
def rowText (base : BitVec 32) (k : Nat) (row : List (BitVec 8)) : String :=
  "0x" ++ HexText.word (base + BitVec.ofNat 32 (16 * k)).toNat ++ ":" ++
    String.join (row.map fun data => " " ++ HexText.byte data)

/-- The lines of a window. -/
def rows (base : BitVec 32) (eol : String) (window : List (BitVec 8)) : List String :=
  (List.range ((window.length + 15) / 16)).map fun k => rowText base k ((window.drop (16 * k)).take 16) ++ eol

/-- The length of the window that is asked for. -/
def windowLen (buf : List (BitVec 8)) (bufOffset : BitVec 32) (length : BitVec 64) : Nat :=
  min length.toNat (buf.length - bufOffset.toNat)

/-- The call reads and prints the window and nothing else, and its labels count from `base`. -/
def PrintsWindow (base : BitVec 32) (head : List String) (eol : String) (buf : List (BitVec 8))
    (bufOffset : BitVec 32) (length : BitVec 64) (out : Option Printout) : Prop :=
  ∃ p, out = some p ∧ p.reads = List.range' bufOffset.toNat (windowLen buf bufOffset length) ∧
    p.printed = head ++ rows base eol ((buf.drop bufOffset.toNat).take (windowLen buf bufOffset length))

/-- What stands in a dump in front of the bytes. -/
def dumpHead (fileHdr : String) (buf : List (BitVec 8)) : List String :=
  if buf = [] then [fileHdr ++ "\n", "0x00000000: BUFFER IS EMPTY\n"] else [fileHdr ++ "\n"]

/-! ## The loop -/

section Loop

variable (eol : String) (buf : List (BitVec 8)) (bufOffset : Nat)

/-- The row that `i` bytes have begun. -/
def begun (i : Nat) : String :=
  if i % 16 = 0 then "" else rowText 0 (i / 16) ((buf.drop (bufOffset + 16 * (i / 16))).take (i % 16))

/-- The state after `i` bytes. -/
def stateAt (i : Nat) : Rows where
  output := begun buf bufOffset i
  printed := (List.range (i / 16)).map fun k => rowText 0 k ((buf.drop (bufOffset + 16 * k)).take 16) ++ eol
  reads := List.range' bufOffset i

theorem label (k : Nat) : (0 + BitVec.ofNat 32 (16 * k)).toNat = 16 * k % 2 ^ 32 := by simp

theorem rowText_append (k : Nat) (row : List (BitVec 8)) (data : BitVec 8) :
    rowText 0 k (row ++ [data]) = rowText 0 k row ++ (" " ++ HexText.byte data) := by
  simp [rowText, String.append_assoc]

theorem rowText_single {i : Nat} (hi : i % 16 = 0) (data : BitVec 8) :
    rowText 0 (i / 16) [data] = "0x" ++ HexText.word (i % 2 ^ 32) ++ ": " ++ HexText.byte data := by
  have hcolon : ":" ++ (" " ++ HexText.byte data) = ": " ++ HexText.byte data := by
    rw [← String.append_assoc]
    rfl
  rw [rowText, label, show 16 * (i / 16) = i by omega]
  simp [String.append_assoc, hcolon]

variable {buf bufOffset} in
/-- A byte goes on with the row that has been begun, or begins one. -/
theorem begun_append {i : Nat} {data : BitVec 8} (hdata : buf[bufOffset + i]? = some data) :
    rowText 0 (i / 16) ((buf.drop (bufOffset + 16 * (i / 16))).take (i % 16 + 1)) =
      begun buf bufOffset i ++ (if i % 16 = 0 then
        "0x" ++ HexText.word (i % 2 ^ 32) ++ ": " ++ HexText.byte data else " " ++ HexText.byte data) := by
  have hget : (buf.drop (bufOffset + 16 * (i / 16)))[i % 16]? = some data := by
    rw [List.getElem?_drop, ← hdata]
    congr 1
    omega
  rw [List.take_add_one, hget, Option.toList_some]
  by_cases hi : i % 16 = 0
  · rw [begun, if_pos hi, if_pos hi, hi, List.take_zero, List.nil_append, rowText_single hi, String.empty_append]
  · rw [begun, if_neg hi, if_neg hi, rowText_append]

theorem printByte_stateAt {i : Nat} {data : BitVec 8} (hdata : buf[bufOffset + i]? = some data) :
    printByte eol i data (stateAt eol buf bufOffset i) (bufOffset + i) = stateAt eol buf bufOffset (i + 1) := by
  have hreads : List.range' bufOffset (i + 1) = List.range' bufOffset i ++ [bufOffset + i] := by
    rw [List.range'_concat]
    simp
  have happend := begun_append hdata
  unfold printByte
  by_cases hlast : i % 16 = 15
  · have hbegun : begun buf bufOffset (i + 1) = "" := if_pos (by omega)
    have hdiv : (i + 1) / 16 = i / 16 + 1 := by omega
    rw [if_neg (by omega), hlast] at happend
    rw [if_pos hlast]
    simp only [stateAt, hbegun, hreads, hdiv, List.range_succ, List.map_append, List.map_cons, List.map_nil, happend]
  · have hdiv : (i + 1) / 16 = i / 16 := by omega
    have hmod : (i + 1) % 16 = i % 16 + 1 := by omega
    have hbegun : begun buf bufOffset (i + 1) =
        rowText 0 (i / 16) ((buf.drop (bufOffset + 16 * (i / 16))).take (i % 16 + 1)) := by
      rw [begun, if_neg (by omega), hdiv, hmod]
    rw [if_neg hlast]
    by_cases hfirst : i % 16 = 0
    · rw [if_pos hfirst] at happend ⊢
      simp only [stateAt, hreads, hdiv, hbegun, happend]
    · rw [if_neg hfirst] at happend ⊢
      simp only [stateAt, hreads, hdiv, hbegun, happend]

/-- **The loop prints as long as there are bytes.** -/
theorem printBytes_state (count i : Nat) (h : bufOffset + i + count ≤ buf.length) :
    printBytes eol buf bufOffset count i (stateAt eol buf bufOffset i) =
      some (stateAt eol buf bufOffset (i + count)) := by
  induction count generalizing i with
  | zero => rfl
  | succ count ih =>
    have hdata : buf[bufOffset + i]? = some buf[bufOffset + i] := List.getElem?_eq_getElem (by omega)
    simp only [printBytes, hdata]
    rw [printByte_stateAt eol buf bufOffset hdata, ih (i + 1) (by omega)]
    congr 2
    omega

/-- It does not end well if it is to go further. -/
theorem printBytes_outside (count i : Nat) (s : Rows) (hi : bufOffset + i ≤ buf.length)
    (h : buf.length < bufOffset + i + count) : printBytes eol buf bufOffset count i s = none := by
  induction count generalizing i s with
  | zero => omega
  | succ count ih =>
    rw [printBytes]
    by_cases hin : bufOffset + i < buf.length
    · rw [List.getElem?_eq_getElem hin]
      exact ih (i + 1) _ hin (by omega)
    · rw [List.getElem?_eq_none (by omega)]

variable {eol buf bufOffset}

/-- The lines of a window that lies in the buffer. -/
theorem printRows_inside {n : Nat} (h : bufOffset + n ≤ buf.length) :
    ∃ s, printRows eol buf bufOffset n = some s ∧ s.reads = List.range' bufOffset n ∧
      s.printed = rows 0 eol ((buf.drop bufOffset).take n) := by
  have hstart : (⟨"", [], []⟩ : Rows) = stateAt eol buf bufOffset 0 := rfl
  have hstate := printBytes_state eol buf bufOffset n 0 h
  have hlen : ((buf.drop bufOffset).take n).length = n := by
    rw [List.length_take, List.length_drop]
    omega
  have hrow (k : Nat) : (((buf.drop bufOffset).take n).drop (16 * k)).take 16 =
      (buf.drop (bufOffset + 16 * k)).take (min 16 (n - 16 * k)) := by
    rw [List.drop_take, List.drop_drop, List.take_take]
  have hfull : (List.range (n / 16)).map (fun k =>
        rowText 0 k ((((buf.drop bufOffset).take n).drop (16 * k)).take 16) ++ eol) =
      (stateAt eol buf bufOffset n).printed := by
    refine List.map_congr_left fun k hk => ?_
    have := List.mem_range.1 hk
    rw [hrow, show min 16 (n - 16 * k) = 16 by omega]
  rw [Nat.zero_add] at hstate
  rw [printRows, hstart, hstate]
  refine ⟨printRest eol (stateAt eol buf bufOffset n), rfl, ?_, ?_⟩
  · unfold printRest
    split <;> rfl
  · rw [rows, hlen, printRest]
    by_cases hn : n % 16 = 0
    · have hbegun : (stateAt eol buf bufOffset n).output = "" := if_pos hn
      rw [hbegun, if_neg (by simp), show (n + 15) / 16 = n / 16 by omega, hfull]
    · have hbegun : (stateAt eol buf bufOffset n).output =
          rowText 0 (n / 16) ((buf.drop (bufOffset + 16 * (n / 16))).take (n % 16)) := if_neg hn
      rw [if_pos (by rw [hbegun]; simp [rowText]), show (n + 15) / 16 = n / 16 + 1 by omega, List.range_succ,
        List.map_append, hfull, hbegun, List.map_singleton, hrow, show min 16 (n - 16 * (n / 16)) = n % 16 by omega]

theorem printRows_outside {n : Nat} (h : bufOffset ≤ buf.length) (hn : buf.length < bufOffset + n) :
    printRows eol buf bufOffset n = none := by
  rw [printRows, printBytes_outside eol buf bufOffset n 0 _ h (by omega)]
  rfl

end Loop

/-! ## The length that is printed -/

/-- The sum of the length and the offset does not wrap, or does not matter. -/
def NoWrap (buf : List (BitVec 8)) (bufOffset : BitVec 32) (length : BitVec 64) : Prop :=
  buf.length ≤ bufOffset.toNat ∨ length = ulongMax ∨ length.toNat + bufOffset.toNat < 2 ^ 64

instance (buf : List (BitVec 8)) (bufOffset : BitVec 32) (length : BitVec 64) :
    Decidable (NoWrap buf bufOffset length) := inferInstanceAs (Decidable (_ ∨ _))

section Window

variable {buf : List (BitVec 8)} {bufOffset : BitVec 32} {length : BitVec 64} {totalBufSize : BitVec 32}

theorem dumpLen_eq (hsize : totalBufSize.toNat = buf.length) (hin : bufOffset.toNat < buf.length)
    (h : NoWrap buf bufOffset length) :
    (dumpLen bufOffset length totalBufSize).toNat = windowLen buf bufOffset length := by
  have hsub : (totalBufSize - bufOffset).toNat = buf.length - bufOffset.toNat := by
    rw [BitVec.toNat_sub_of_le (by rw [BitVec.le_def]; omega), hsize]
  have hmax : ulongMax.toNat = 2 ^ 64 - 1 := rfl
  have htotal := totalBufSize.isLt
  unfold dumpLen windowLen
  by_cases hall : length = ulongMax
  · rw [if_pos hall, BitVec.toNat_setWidth, hsub, hall, hmax]
    omega
  · have hsum : (length + bufOffset.setWidth 64).toNat = length.toNat + bufOffset.toNat := by
      have hwrap : length.toNat + bufOffset.toNat < 2 ^ 64 := by
        rcases h with h | h | h
        · omega
        · exact absurd h hall
        · exact h
      rw [BitVec.toNat_add, BitVec.toNat_setWidth]
      omega
    rw [if_neg hall]
    split
    · rename_i hle
      rw [BitVec.le_def, hsum, BitVec.toNat_setWidth] at hle
      rw [BitVec.toNat_setWidth, hsub]
      omega
    · rename_i hle
      rw [BitVec.le_def, hsum, BitVec.toNat_setWidth] at hle
      omega

/-- A sum that wraps is small, so the length is left as it is. -/
theorem dumpLen_wrapped (hsize : totalBufSize.toNat = buf.length) (h : ¬NoWrap buf bufOffset length) :
    buf.length < bufOffset.toNat + (dumpLen bufOffset length totalBufSize).toNat := by
  obtain ⟨hin, hall, hwrap⟩ : bufOffset.toNat < buf.length ∧ length ≠ ulongMax ∧
      2 ^ 64 ≤ length.toNat + bufOffset.toNat := by
    simpa [NoWrap, not_or] using h
  have hlen := length.isLt
  have hoff := bufOffset.isLt
  have htotal := totalBufSize.isLt
  have hsum : (length + bufOffset.setWidth 64).toNat = length.toNat + bufOffset.toNat - 2 ^ 64 := by
    rw [BitVec.toNat_add, BitVec.toNat_setWidth]
    omega
  unfold dumpLen
  rw [if_neg hall, if_neg]
  · omega
  · rw [BitVec.le_def, hsum, BitVec.toNat_setWidth]
    omega

end Window

/-! ## The labels -/

theorem rows_ne_nil (base : BitVec 32) (eol : String) {window : List (BitVec 8)} (h : window ≠ []) :
    ∃ rest, rows base eol window = (rowText base 0 (window.take 16) ++ eol) :: rest := by
  have hpos := List.length_pos_iff.2 h
  rw [rows, show (window.length + 15) / 16 = (window.length - 1) / 16 + 1 by omega, List.range_succ_eq_map,
    List.map_cons, Nat.mul_zero, List.drop_zero]
  exact ⟨_, rfl⟩

/-- Labels that count from another number are other labels. -/
theorem rows_base_iff (base : BitVec 32) (eol : String) (window : List (BitVec 8)) :
    rows 0 eol window = rows base eol window ↔ window = [] ∨ base = 0 := by
  constructor
  · intro h
    by_cases hwindow : window = []
    · exact Or.inl hwindow
    · right
      obtain ⟨rest, hrest⟩ := rows_ne_nil 0 eol hwindow
      obtain ⟨rest', hrest'⟩ := rows_ne_nil base eol hwindow
      rw [hrest, hrest'] at h
      have hrow := (String.append_left_inj eol).1 (List.cons.inj h).1
      simp only [rowText, String.append_left_inj, String.append_right_inj] at hrow
      have hlabel := HexText.word_inj (BitVec.isLt _) (BitVec.isLt _) hrow
      simpa using (BitVec.eq_of_toNat_eq hlabel).symm
  · rintro (rfl | rfl)
    · rw [rows, rows, List.length_nil, Nat.zero_add, Nat.div_eq_of_lt (by decide), List.range_zero, List.map_nil,
        List.map_nil]
    · rfl

/-! ## Both routines -/

section Both

variable {buf : List (BitVec 8)} {bufOffset : BitVec 32} (length : BitVec 64)
  (base : BitVec 32) (head : List String) (eol : String)

/-- Behind the end of the buffer nothing is printed. -/
theorem nothing_iff (hout : buf.length ≤ bufOffset.toNat) (threw : Option String) :
    PrintsWindow base head eol buf bufOffset length (some ⟨[], head, threw⟩) ↔
      NoWrap buf bufOffset length ∧ (windowLen buf bufOffset length = 0 ∨ base = 0) := by
  have hlen : windowLen buf bufOffset length = 0 := by
    unfold windowLen
    omega
  refine iff_of_true ⟨_, rfl, ?_, ?_⟩ ⟨Or.inl hout, Or.inl hlen⟩
  · simp [hlen]
  · simp [hlen, rows]

variable (hsize : buf.length < 2 ^ 32)

include hsize

theorem loop_iff (hin : bufOffset.toNat < buf.length) :
    PrintsWindow base head eol buf bufOffset length
        ((printRows eol buf bufOffset.toNat (dumpLen bufOffset length (BitVec.ofNat 32 buf.length)).toNat).map
          fun s => ⟨s.reads, head ++ s.printed, none⟩) ↔
      NoWrap buf bufOffset length ∧ (windowLen buf bufOffset length = 0 ∨ base = 0) := by
  have htotal : (BitVec.ofNat 32 buf.length).toNat = buf.length := by
    rw [BitVec.toNat_ofNat, Nat.mod_eq_of_lt hsize]
  by_cases hwrap : NoWrap buf bufOffset length
  · have hle : bufOffset.toNat + windowLen buf bufOffset length ≤ buf.length := by
      unfold windowLen
      omega
    obtain ⟨s, hs, hreads, hprinted⟩ := @printRows_inside eol _ _ _ hle
    have hempty : (buf.drop bufOffset.toNat).take (windowLen buf bufOffset length) = [] ↔
        windowLen buf bufOffset length = 0 := by
      rw [← List.length_eq_zero_iff, List.length_take, List.length_drop]
      omega
    rw [dumpLen_eq htotal hin hwrap, hs, Option.map_some, ← hempty, ← rows_base_iff base eol, ← hprinted]
    constructor
    · rintro ⟨p, hp, -, htext⟩
      cases hp
      exact ⟨hwrap, List.append_cancel_left htext⟩
    · rintro ⟨-, htext⟩
      exact ⟨_, rfl, hreads, by rw [htext]⟩
  · rw [printRows_outside (by omega) (dumpLen_wrapped htotal hwrap)]
    constructor
    · rintro ⟨p, hp, -⟩
      cases hp
    · rintro ⟨h, -⟩
      exact absurd h hwrap

theorem total_le_iff : BitVec.ofNat 32 buf.length ≤ bufOffset ↔ buf.length ≤ bufOffset.toNat := by
  rw [BitVec.le_def, BitVec.toNat_ofNat, Nat.mod_eq_of_lt hsize]

theorem total_ne_zero (h : buf ≠ []) : BitVec.ofNat 32 buf.length ≠ 0 := by
  intro hzero
  have hnat := congrArg BitVec.toNat hzero
  rw [BitVec.toNat_ofNat, Nat.mod_eq_of_lt hsize] at hnat
  exact h (List.length_eq_zero_iff.1 hnat)

end Both

/-- **A log and a dump print their window, each byte once, in order and at its label, exactly if the sum of the length
and the offset does not wrap, and the labels are taken to count from the window (or there are none).** -/
theorem printed_iff (buf : List (BitVec 8)) (hsize : buf.length < 2 ^ 32) (bufOffset : BitVec 32)
    (length : BitVec 64) (base : BitVec 32) (objName filename fileHdr : String) :
    (PrintsWindow base (logHead objName) "" buf bufOffset length
        (log buf bufOffset length (BitVec.ofNat 32 buf.length) objName) ↔
      NoWrap buf bufOffset length ∧ (windowLen buf bufOffset length = 0 ∨ base = 0)) ∧
    (PrintsWindow base (dumpHead fileHdr buf) "\n" buf bufOffset length
        (dump true filename buf bufOffset length (BitVec.ofNat 32 buf.length) fileHdr) ↔
      NoWrap buf bufOffset length ∧ (windowLen buf bufOffset length = 0 ∨ base = 0)) := by
  unfold log dump
  by_cases hout : buf.length ≤ bufOffset.toNat
  · have hle := (total_le_iff hsize).2 hout
    refine ⟨by rw [if_pos hle]; exact nothing_iff length base _ _ hout _, ?_⟩
    rw [if_neg (by decide), if_pos hle]
    by_cases hempty : buf = []
    · subst hempty
      exact nothing_iff length base (dumpHead fileHdr []) _ hout none
    · rw [if_neg (total_ne_zero hsize hempty), dumpHead, if_neg hempty]
      exact nothing_iff length base _ _ hout _
  · have hle := mt (total_le_iff hsize).1 hout
    have hin := Nat.lt_of_not_le hout
    have hempty : buf ≠ [] := by
      rintro rfl
      exact absurd hin (Nat.not_lt_zero _)
    refine ⟨by rw [if_neg hle]; exact loop_iff length base _ _ hsize hin, ?_⟩
    rw [if_neg (by decide), if_neg (total_ne_zero hsize hempty), if_neg hle, dumpHead, if_neg hempty]
    exact loop_iff length base _ _ hsize hin

theorem printed_short : PrintsWindow 0 (logHead "Queue") "" (List.replicate 20 7#8) 2 200
    (log (List.replicate 20 7#8) 2 200 20 "Queue") :=
  ((printed_iff (List.replicate 20 7#8) (by decide) 2 200 0 "Queue" "" "").1).2 (by decide)

/-- The length asks for more than the buffer has, and its sum with the offset is 6. -/
theorem printed_wrapped : ¬∃ base : BitVec 32,
    PrintsWindow base (logHead "Queue") "" (List.replicate 16 0#8) 8 (BitVec.ofNat 64 (2 ^ 64 - 2))
      (log (List.replicate 16 0#8) 8 (BitVec.ofNat 64 (2 ^ 64 - 2)) 16 "Queue") := by
  rintro ⟨base, h⟩
  have hin : BitVec.toNat 8#32 < (List.replicate 16 0#8).length := by decide
  have hlog : log (List.replicate 16 0#8) 8 (BitVec.ofNat 64 (2 ^ 64 - 2)) 16 "Queue" =
      (printRows "" (List.replicate 16 0#8) 8 (dumpLen 8 (BitVec.ofNat 64 (2 ^ 64 - 2)) 16).toNat).map fun s =>
        ⟨s.reads, logHead "Queue" ++ s.printed, none⟩ := if_neg (by decide)
  rw [hlog] at h
  have hsum := ((loop_iff _ base (logHead "Queue") "" (by decide) hin).1 h).1
  exact absurd hsum (by decide)

end Tnvme.Buffers
