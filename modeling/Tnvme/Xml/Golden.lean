import Tnvme.Lib.Outcomes
import Tnvme.Xml.Format

/-!
# The command line option `--golden`

`ParseGoldenCmdLine` reads the Identify commands from a document. For every `cmd` it searches for a `dw1`, a `dw10`, a
`prp` and a `mask`, one behind the other, and goes through what follows each. A search that fails is no error. The bytes
are read from a string that has been destroyed, and so none can be had from a text that is long enough for a payload
(`goldenCmd_ok`).
`CompareGolden` compares the data that these commands return with the payload of the `prp`, under the `mask`.
-/

namespace Tnvme

open Numerals

structure IdentifyDUT where
  nsid : UInt32
  cns : UInt8
  raw : List (BitVec 8)
  mask : List (BitVec 8)
  deriving DecidableEq, Repr

structure Golden where
  req : Bool
  outputFile : List Char
  cmds : List IdentifyDUT
  deriving DecidableEq, Repr

/-- `Identify::IDEAL_DATA_SIZE` -/
def idealDataSize : Nat := 4096

/-- After the `memset`. -/
def IdentifyDUT.zero : IdentifyDUT := ⟨0, 0, [], []⟩

/-- `ExtractIdentifyXMLValue` at a node, with the next one that it reads. -/
def extractIdentifyXMLValue (n next : Node) (cmd : IdentifyDUT) (nodeName : String) : Option IdentifyDUT :=
  if nodeName = "nsid" then
    if n.nodeType = .element ∧ next.nodeType = .text then
      some { cmd with nsid := UInt32.ofNat (strtoul 10 next.text) }
    else none
  else if nodeName = "cns" then
    if n.nodeType = .element ∧ next.nodeType = .text then
      some { cmd with cns := UInt8.ofNat (strtoul 16 next.text) }
    else none
  else none

/-- The loop over the values of a `dw1` or a `dw10`, with what is left to read; `none` if it returns false or throws. -/
def identifyLoop (wellFormed : Bool) (dw : String) : List Node → IdentifyDUT → Option (IdentifyDUT × List Node)
  | [], cmd => if wellFormed then some (cmd, []) else none
  | n :: xmlFile, cmd =>
    match n.nodeType with
    | .comment => identifyLoop wellFormed dw xmlFile cmd
    | .significantWhitespace => identifyLoop wellFormed dw xmlFile cmd
    | .element =>
      match xmlFile with
      | [] => none
      | next :: xmlFile =>
        match extractIdentifyXMLValue n next cmd n.name with
        | none => none
        | some cmd => identifyLoop wellFormed dw xmlFile cmd
    | .endElement => if n.name = dw then some (cmd, xmlFile) else identifyLoop wellFormed dw xmlFile cmd
    | _ => none

/-- The bytes from a pointer on. A number that reaches the end of the text is not taken. -/
def moreBytes (startPtr : List Char) : List (BitVec 8) :=
  if _h : strtoulRest 16 startPtr ≠ [] ∧ strtoulRest 16 startPtr ≠ startPtr then
    BitVec.ofNat 8 (strtoul 16 startPtr) :: moreBytes (strtoulRest 16 startPtr)
  else []
termination_by startPtr.length
decreasing_by
  have hle := (strtoulRest_suffix 16 startPtr).length_le
  have hne : (strtoulRest 16 startPtr).length ≠ startPtr.length := fun heq =>
    _h.2 ((strtoulRest_suffix 16 startPtr).eq_of_length heq)
  omega

/-- The bytes of a text that can be read. The first round of the loop compares with no pointer. -/
def liveBytes (text : List Char) : List (BitVec 8) :=
  if strtoulRest 16 text ≠ [] then BitVec.ofNat 8 (strtoul 16 text) :: moreBytes (strtoulRest 16 text) else []

/-- The bytes of a text. The pointers point into the string that `get_value` returned, which has been destroyed. -/
def payloadBytes (text : List Char) : Except TextFault (List (BitVec 8)) := readCopy text (some (liveBytes text))

/-- The loop over the texts of a `prp` or a `mask`. -/
def payloadLoop (wellFormed : Bool) (name : String) :
    List Node → List (BitVec 8) → Except TextFault (List (BitVec 8) × List Node)
  | [], bytes => if wellFormed then .ok (bytes, []) else .error .rejected
  | n :: xmlFile, bytes =>
    match n.nodeType with
    | .comment => payloadLoop wellFormed name xmlFile bytes
    | .significantWhitespace => payloadLoop wellFormed name xmlFile bytes
    | .endElement => if n.name = name then .ok (bytes, xmlFile) else payloadLoop wellFormed name xmlFile bytes
    | .text =>
      match payloadBytes n.text with
      | .error fault => .error fault
      | .ok more =>
        if (bytes ++ more).length ≠ idealDataSize then .error .rejected
        else payloadLoop wellFormed name xmlFile (bytes ++ more)
    | _ => .error .rejected

def seekValues (wellFormed : Bool) (dw : String) (xmlFile : List Node) (cmd : IdentifyDUT) :
    Option (IdentifyDUT × List Node) :=
  match seekSpecificXMLNode dw 2 xmlFile with
  | (none, xmlFile) => some (cmd, xmlFile)
  | (some _, xmlFile) => identifyLoop wellFormed dw xmlFile cmd

def seekPayload (wellFormed : Bool) (name : String) (xmlFile : List Node) (bytes : List (BitVec 8)) :
    Except TextFault (List (BitVec 8) × List Node) :=
  match seekSpecificXMLNode name 2 xmlFile with
  | (none, xmlFile) => .ok (bytes, xmlFile)
  | (some _, xmlFile) => payloadLoop wellFormed name xmlFile bytes

/-- The body of the loop over the commands; it is left with `rejected` if it returns false or throws. -/
def goldenCmd (wellFormed : Bool) (xmlFile : List Node) : Except TextFault (IdentifyDUT × List Node) := do
  let (cmd, xmlFile) ← orRejected (seekValues wellFormed "dw1" xmlFile .zero)
  let (cmd, xmlFile) ← orRejected (seekValues wellFormed "dw10" xmlFile cmd)
  let (raw, xmlFile) ← seekPayload wellFormed "prp" xmlFile cmd.raw
  let (mask, xmlFile) ← seekPayload wellFormed "mask" xmlFile cmd.mask
  return ({ cmd with raw := raw, mask := mask }, xmlFile)

/-! ## What the loops leave -/

/-- The end of an element of a name, at any depth. -/
def Node.ends (name : String) (n : Node) : Bool := n.nodeType = .endElement && n.name = name

/-- What is left behind a search; nothing, if it fails. -/
def leftBy (found : Option (Node × List Node)) : List Node := found.elim [] Prod.snd

variable {wellFormed : Bool} {name : String} {xmlFile rest : List Node}

theorem extractIdentifyXMLValue_some {n next : Node} {cmd cmd' : IdentifyDUT} {nodeName : String}
    (h : extractIdentifyXMLValue n next cmd nodeName = some cmd') :
    next.nodeType = .text ∧ cmd'.raw = cmd.raw ∧ cmd'.mask = cmd.mask := by
  rw [extractIdentifyXMLValue] at h
  split at h
  · obtain ⟨htype, h⟩ := Option.ite_none_right_eq_some.1 h
    cases h
    exact ⟨htype.2, rfl, rfl⟩
  · split at h
    · obtain ⟨htype, h⟩ := Option.ite_none_right_eq_some.1 h
      cases h
      exact ⟨htype.2, rfl, rfl⟩
    · cases h

theorem seek_ends_cons {n : Node} (hn : n.ends name = false) :
    Streams.seek (·.ends name) (n :: xmlFile) = Streams.seek (·.ends name) xmlFile := by
  rw [Streams.seek, hn, if_neg Bool.false_ne_true]

/-- The loop over values leaves what is behind the end, and does not touch the payload. -/
theorem identifyLoop_some {cmd cmd' : IdentifyDUT} (h : identifyLoop wellFormed name xmlFile cmd = some (cmd', rest)) :
    cmd'.raw = cmd.raw ∧ cmd'.mask = cmd.mask ∧ rest = leftBy (Streams.seek (·.ends name) xmlFile) := by
  fun_induction identifyLoop wellFormed name xmlFile cmd with
  | case1 cmd hwell =>
    cases h
    exact ⟨rfl, rfl, rfl⟩
  | case2 cmd hwell => cases h
  | case3 n xmlFile cmd htype ih => rw [seek_ends_cons (by simp [Node.ends, htype])]; exact ih h
  | case4 n xmlFile cmd htype ih => rw [seek_ends_cons (by simp [Node.ends, htype])]; exact ih h
  | case5 n cmd htype => cases h
  | case6 n cmd htype next xmlFile hextract => cases h
  | case7 n cmd htype next xmlFile cmd1 hextract ih =>
    obtain ⟨hnext, hraw, hmask⟩ := extractIdentifyXMLValue_some hextract
    rw [seek_ends_cons (by simp [Node.ends, htype]), seek_ends_cons (by simp [Node.ends, hnext]), ← hraw, ← hmask]
    exact ih h
  | case8 n xmlFile cmd htype hname =>
    cases h
    rw [Streams.seek, if_pos (by simp [Node.ends, htype, hname])]
    exact ⟨rfl, rfl, rfl⟩
  | case9 n xmlFile cmd htype hname ih => rw [seek_ends_cons (by simp [Node.ends, hname])]; exact ih h
  | case10 n xmlFile cmd _ _ _ _ => cases h

/-! ## The text of a payload -/

/-- A text, or the end of the element. -/
def Node.textOrEnds (name : String) (n : Node) : Bool := n.nodeType = .text || n.ends name

/-- A search that is to end at a text. -/
def atText (found : Option (Node × List Node)) : Option (Node × List Node) := found.filter (·.1.nodeType = .text)

/-- A byte takes up a character. -/
theorem moreBytes_length_le (text : List Char) : (moreBytes text).length ≤ text.length := by
  fun_induction moreBytes text with
  | case1 text h ih =>
    have hle := (strtoulRest_suffix 16 text).length_le
    have hne : (strtoulRest 16 text).length ≠ text.length := fun heq =>
      h.2 ((strtoulRest_suffix 16 text).eq_of_length heq)
    rw [List.length_cons]
    omega
  | case2 text h => exact Nat.zero_le _

theorem liveBytes_length_le (text : List Char) : (liveBytes text).length ≤ text.length + 1 := by
  have hmore := moreBytes_length_le (strtoulRest 16 text)
  have hle := (strtoulRest_suffix 16 text).length_le
  rw [liveBytes]
  split
  · rw [List.length_cons]
    omega
  · exact Nat.zero_le _

/-- **A text that can be read is too short for a payload.** -/
theorem payloadBytes_ne {text : List Char} {bytes : List (BitVec 8)} (h : payloadBytes text = .ok bytes) :
    bytes.length ≠ idealDataSize := by
  obtain ⟨hshort, hbytes⟩ := readCopy_eq_ok.1 h
  have hle := liveBytes_length_le text
  rw [Option.some.inj hbytes] at hle
  rw [idealDataSize]
  rw [inlineCapacity] at hshort
  omega

/-- At a text the loop is left, because it cannot be read, or because there are too few bytes. -/
theorem payloadLoop_text {n : Node} (htype : n.nodeType = .text) : payloadLoop wellFormed name (n :: xmlFile) [] =
    if inlineCapacity < n.text.length then .error .freed else .error .rejected := by
  rw [payloadLoop]
  by_cases hlong : inlineCapacity < n.text.length
  · have hbytes : payloadBytes n.text = .error .freed := readCopy_eq_freed.2 hlong
    simp only [htype, hbytes, if_pos hlong]
  · have hbytes : payloadBytes n.text = .ok (liveBytes n.text) := readCopy_eq_ok.2 ⟨Nat.not_lt.1 hlong, rfl⟩
    simp only [htype, hbytes, List.nil_append, if_neg hlong]
    exact if_pos (payloadBytes_ne hbytes)

/-- **No element is accepted with a text**: the loop gets to the end without any byte. -/
theorem payloadLoop_ok {bytes : List (BitVec 8)} (h : payloadLoop wellFormed name xmlFile [] = .ok (bytes, rest)) :
    bytes = [] ∧ rest = leftBy (Streams.seek (·.ends name) xmlFile) := by
  induction xmlFile with
  | nil =>
    rw [payloadLoop] at h
    split at h <;> cases h
    exact ⟨rfl, rfl⟩
  | cons n xmlFile ih =>
    by_cases htext : n.nodeType = .text
    · rw [payloadLoop_text htext] at h
      split at h <;> cases h
    rw [payloadLoop] at h
    split at h
    · rename_i htype
      rw [seek_ends_cons (by simp [Node.ends, htype])]
      exact ih h
    · rename_i htype
      rw [seek_ends_cons (by simp [Node.ends, htype])]
      exact ih h
    · rename_i htype
      split at h
      · rename_i hname
        cases h
        rw [Streams.seek, if_pos (by simp [Node.ends, htype, hname])]
        exact ⟨rfl, rfl⟩
      · rename_i hname
        rw [seek_ends_cons (by simp [Node.ends, hname])]
        exact ih h
    · exact absurd ‹n.nodeType = .text› htext
    · cases h

/-! ## The stages of a command -/

/-- What is left behind an element at depth 2. -/
def behind (name : String) (xmlFile : List Node) : List Node :=
  leftBy (Streams.seekAll [(·.named name 2)] (·.ends name) xmlFile)

/-- The text of an element at depth 2, with what follows it. -/
def textOf (name : String) (xmlFile : List Node) : Option (Node × List Node) :=
  atText (Streams.seekAll [(·.named name 2)] (·.textOrEnds name) xmlFile)

theorem seekValues_some {cmd cmd' : IdentifyDUT} (h : seekValues wellFormed name xmlFile cmd = some (cmd', rest)) :
    cmd'.raw = cmd.raw ∧ cmd'.mask = cmd.mask ∧ rest = behind name xmlFile := by
  rw [seekValues, seekSpecificXMLNode_eq] at h
  rw [behind, Streams.seekAll]
  cases hseek : Streams.seek (·.named name 2) xmlFile with
  | none =>
    rw [hseek] at h
    cases h
    exact ⟨rfl, rfl, rfl⟩
  | some found =>
    rw [hseek] at h
    exact identifyLoop_some h

theorem seekPayload_ok {bytes : List (BitVec 8)} (h : seekPayload wellFormed name xmlFile [] = .ok (bytes, rest)) :
    bytes = [] ∧ rest = behind name xmlFile := by
  rw [seekPayload, seekSpecificXMLNode_eq] at h
  rw [behind, Streams.seekAll]
  cases hseek : Streams.seek (·.named name 2) xmlFile with
  | none =>
    rw [hseek] at h
    cases h
    exact ⟨rfl, rfl⟩
  | some found =>
    rw [hseek] at h
    exact payloadLoop_ok h

theorem behind_length (name : String) (xmlFile : List Node) : (behind name xmlFile).length ≤ xmlFile.length := by
  rw [behind]
  cases hseek : Streams.seekAll [(·.named name 2)] (·.ends name) xmlFile with
  | none => exact Nat.zero_le _
  | some found => exact Nat.le_of_lt (Streams.seekAll_length hseek)

/-- What is left to read behind a command. -/
def behindCmd (xmlFile : List Node) : List Node := behind "mask" (behind "prp" (behind "dw10" (behind "dw1" xmlFile)))

/-- **A command that is accepted has no byte.** -/
theorem goldenCmd_ok {cmd : IdentifyDUT} (h : goldenCmd wellFormed xmlFile = .ok (cmd, rest)) :
    cmd.raw = [] ∧ cmd.mask = [] ∧ rest = behindCmd xmlFile := by
  obtain ⟨⟨cmd1, rest1⟩, hdw1, h⟩ := Outcomes.bind_eq_ok.1 h
  obtain ⟨⟨cmd2, rest2⟩, hdw10, h⟩ := Outcomes.bind_eq_ok.1 h
  obtain ⟨⟨raw, rest3⟩, hprp, h⟩ := Outcomes.bind_eq_ok.1 h
  obtain ⟨⟨mask, rest4⟩, hmask, h⟩ := Outcomes.bind_eq_ok.1 h
  cases h
  obtain ⟨hraw1, hmask1, rfl⟩ := seekValues_some (orRejected_eq_ok.1 hdw1)
  obtain ⟨hraw2, hmask2, rfl⟩ := seekValues_some (orRejected_eq_ok.1 hdw10)
  have hraw0 : cmd2.raw = [] := hraw2.trans hraw1
  have hmask0 : cmd2.mask = [] := hmask2.trans hmask1
  rw [hraw0] at hprp
  rw [hmask0] at hmask
  obtain ⟨rfl, rfl⟩ := seekPayload_ok hprp
  obtain ⟨rfl, rfl⟩ := seekPayload_ok hmask
  exact ⟨rfl, rfl, rfl⟩

theorem behindCmd_length (xmlFile : List Node) : (behindCmd xmlFile).length ≤ xmlFile.length :=
  (behind_length _ _).trans ((behind_length _ _).trans ((behind_length _ _).trans (behind_length _ _)))

end Tnvme
