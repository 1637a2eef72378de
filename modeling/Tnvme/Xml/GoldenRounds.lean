import Tnvme.Xml.Golden
import Tnvme.Xml.Tree
import Mathlib.Data.List.Forall2

/-!
# The rounds of `--golden`

The searches for a command run forwards through all that is left of the document, and one that fails is no error. The
bytes of a payload are read from freed memory, unless they are too few.

`CompareGolden` compares all the bytes of commands that are complete (`compareFrom_eq`). But no command of an accepted
document has any, and so every data agrees with it (`not_goldenComplete`).
-/

namespace Tnvme

open Numerals

/-! ## The parser -/

/-- The loop over the commands, with the commands so far; the result is `allOK`. -/
def cmdLoop (wellFormed : Bool) (xmlFile : List Node) (cmds : List IdentifyDUT) (allOK : Bool) :
    List IdentifyDUT × Except TextFault Bool :=
  match _hseek : seekSpecificXMLNode "cmd" 1 xmlFile with
  | (none, _) => (cmds, .ok allOK)
  | (some _, nodes) =>
    match _hbody : goldenCmd wellFormed nodes with
    | .error fault => (cmds, .error fault)
    | .ok (cmd, rest) => cmdLoop wellFormed rest (cmds ++ [cmd]) true
termination_by xmlFile.length
decreasing_by
  obtain ⟨-, -, hrest⟩ := goldenCmd_ok _hbody
  exact hrest ▸ (behindCmd_length nodes).trans_lt (seekSpecificXMLNode_lt _hseek)

/-- The name of the file in front of a colon, and what follows for the results. -/
def splitOutputFile (optarg : List Char) : List Char × Option (List Char) :=
  if ':' ∈ optarg ∧ optarg.head? ≠ some ':' then
    (optarg.takeWhile (· ≠ ':'), some ((optarg.dropWhile (· ≠ ':')).drop 1))
  else (optarg, none)

/-- `ParseGoldenCmdLine`; `file` opens a document, or throws. The result is `rejected` if it returns false. -/
def parseGoldenCmdLine (file : List Char → Option XmlFile) (golden : Golden) (optarg : List Char) :
    Golden × Except TextFault Unit :=
  let (inFileName, outputFile) := splitOutputFile optarg
  let golden := { golden with outputFile := outputFile.getD golden.outputFile, req := false, cmds := [] }
  match file inFileName with
  | none => (golden, .error .rejected)
  | some xmlFile =>
    match seekSpecificXMLNode "identify" 0 xmlFile.nodes with
    | (none, _) => (golden, .error .rejected)
    | (some _, nodes) =>
      match cmdLoop xmlFile.wellFormed nodes [] false with
      | (cmds, .ok true) => ({ golden with req := true, cmds := cmds }, .ok ())
      | (cmds, .ok false) => ({ golden with cmds := cmds }, .error .rejected)
      | (cmds, .error fault) => ({ golden with cmds := cmds }, .error fault)

/-! ## The comparison -/

/-- A round of the loop over the bytes of a payload; `none` if it reads beyond one of the buffers. -/
def compareByte (cmd : IdentifyDUT) (identify : List (BitVec 8)) (same : Bool) (j : Nat) : Option Bool := do
  let raw ← cmd.raw[j]?
  let mask ← cmd.mask[j]?
  let dut ← identify[j]?
  return same && (raw &&& mask == dut &&& mask)

def compareCmd (cmd : IdentifyDUT) (identify : List (BitVec 8)) : Option Bool :=
  (List.range cmd.raw.length).foldlM (compareByte cmd identify) true

/-- The loop over the commands from an index on, with the data that each returns (`none` if it fails). A command that
fails and a miscompare throw, and so it returns false. -/
def compareFrom (replies : Nat → Option (List (BitVec 8))) : Nat → List IdentifyDUT → Option Bool
  | _, [] => some true
  | i, cmd :: cmds =>
    match replies i with
    | none => some false
    | some identify => do
      if ← compareCmd cmd identify then compareFrom replies (i + 1) cmds else return false

/-- `CompareGolden`, once the controller is enabled. -/
def compareGolden (replies : Nat → Option (List (BitVec 8))) (cmds : List IdentifyDUT) : Option Bool :=
  compareFrom replies 0 cmds

/-- The data agree with the payload under the mask. -/
def Agree (cmd : IdentifyDUT) (identify : List (BitVec 8)) : Prop :=
  ∀ j < idealDataSize, cmd.raw[j]?.getD 0 &&& cmd.mask[j]?.getD 0 = identify[j]?.getD 0 &&& cmd.mask[j]?.getD 0

/-! ## Commands that are complete -/

/-- The texts that the payload and the mask of a command come from. -/
def prpText (xmlFile : List Node) : Option (Node × List Node) := textOf "prp" (behind "dw10" (behind "dw1" xmlFile))

def maskText (xmlFile : List Node) : Option (Node × List Node) :=
  textOf "mask" (behind "prp" (behind "dw10" (behind "dw1" xmlFile)))

/-- The rounds in which a document is read: what is left behind the start of each `cmd`. -/
def goldenRounds (xmlFile : List Node) : List (List Node) :=
  match _hseek : Streams.seek (·.named "cmd" 1) xmlFile with
  | none => []
  | some found => found.2 :: goldenRounds (behindCmd found.2)
termination_by xmlFile.length
decreasing_by exact (behindCmd_length found.2).trans_lt (Streams.seek_length _hseek)

/-- What is left behind the start of the `identify`. -/
def XmlFile.identify (xmlFile : XmlFile) : List Node := leftBy (Streams.seek (·.named "identify" 0) xmlFile.nodes)

/-- The text lies in an element that is nested in the one of the command. -/
def Own (xmlFile : List Node) (t : Node) (after : List Node) : Prop :=
  (∃ before rest, content 1 xmlFile = before ++ t :: rest ∧ xmlFile = before ++ t :: after) ∧ 2 < t.depth

/-- The payload and the mask are complete, and taken from elements of the command. -/
structure Complete (xmlFile : List Node) (cmd : IdentifyDUT) : Prop where
  rawSize : cmd.raw.length = idealDataSize
  maskSize : cmd.mask.length = idealDataSize
  rawOwn : ∃ t after, prpText xmlFile = some (t, after) ∧ cmd.raw = liveBytes t.text ∧ Own xmlFile t after
  maskOwn : ∃ t after, maskText xmlFile = some (t, after) ∧ cmd.mask = liveBytes t.text ∧ Own xmlFile t after

structure GoldenComplete (xmlFile : XmlFile) (cmds : List IdentifyDUT) : Prop where
  complete : List.Forall₂ Complete (goldenRounds xmlFile.identify) cmds
  inBounds : ∀ replies, (∀ i identify, replies i = some identify → identify.length = idealDataSize) →
    compareGolden replies cmds ≠ none
  verdict : ∀ replies, (∀ i identify, replies i = some identify → identify.length = idealDataSize) →
    (compareGolden replies cmds = some true ↔
      ∀ i cmd, cmds[i]? = some cmd → ∃ identify, replies i = some identify ∧ Agree cmd identify)

/-! ## The comparison of a complete command -/

section Compare

variable {cmd : IdentifyDUT} {identify : List (BitVec 8)}

/-- The bytes below a bound agree. -/
def AgreeBelow (cmd : IdentifyDUT) (identify : List (BitVec 8)) (n : Nat) : Prop :=
  ∀ j < n, cmd.raw[j]?.getD 0 &&& cmd.mask[j]?.getD 0 = identify[j]?.getD 0 &&& cmd.mask[j]?.getD 0

theorem compareByte_eq {j : Nat} (hraw : j < cmd.raw.length) (hmask : j < cmd.mask.length)
    (hidentify : j < identify.length) (same : Bool) : compareByte cmd identify same j =
      some (same && (cmd.raw[j]?.getD 0 &&& cmd.mask[j]?.getD 0 == identify[j]?.getD 0 &&& cmd.mask[j]?.getD 0)) := by
  rw [compareByte, List.getElem?_eq_getElem hraw, List.getElem?_eq_getElem hmask,
    List.getElem?_eq_getElem hidentify]
  rfl

/-- Where all the bytes are there, the loop compares them all. -/
theorem compareBytes_eq (n : Nat) (hraw : n ≤ cmd.raw.length) (hmask : n ≤ cmd.mask.length)
    (hidentify : n ≤ identify.length) :
    ∃ same, (List.range n).foldlM (compareByte cmd identify) true = some same ∧
      (same = true ↔ AgreeBelow cmd identify n) := by
  induction n with
  | zero => exact ⟨true, rfl, iff_of_true rfl fun j hj => absurd hj (Nat.not_lt_zero j)⟩
  | succ n ih =>
    obtain ⟨same, hloop, hsame⟩ := ih (by omega) (by omega) (by omega)
    refine ⟨same && (cmd.raw[n]?.getD 0 &&& cmd.mask[n]?.getD 0 == identify[n]?.getD 0 &&& cmd.mask[n]?.getD 0),
      ?_, ?_⟩
    · rw [List.range_succ, List.foldlM_append, hloop]
      change List.foldlM (compareByte cmd identify) same [n] = _
      rw [List.foldlM_cons, compareByte_eq (by omega) (by omega) (by omega)]
      rfl
    · rw [Bool.and_eq_true, hsame, beq_iff_eq, AgreeBelow, AgreeBelow, Nat.forall_lt_succ_right]

theorem compareCmd_eq (hraw : cmd.raw.length = idealDataSize) (hmask : cmd.mask.length = idealDataSize)
    (hidentify : identify.length = idealDataSize) :
    ∃ same, compareCmd cmd identify = some same ∧ (same = true ↔ Agree cmd identify) := by
  obtain ⟨same, hloop, hsame⟩ := compareBytes_eq idealDataSize hraw.ge hmask.ge hidentify.ge
  refine ⟨same, ?_, hsame⟩
  rw [compareCmd, hraw]
  exact hloop

/-- What holds of each command and its number holds of the first, and of the others with the numbers from the next
on. -/
theorem forall_getElem?_cons {P : Nat → IdentifyDUT → Prop} (cmd : IdentifyDUT) (cmds : List IdentifyDUT) (i : Nat) :
    (∀ k cmd', (cmd :: cmds)[k]? = some cmd' → P (i + k) cmd') ↔
      P i cmd ∧ ∀ k cmd', cmds[k]? = some cmd' → P (i + 1 + k) cmd' := by
  constructor
  · intro h
    refine ⟨h 0 cmd rfl, fun k cmd' hk => ?_⟩
    rw [Nat.add_assoc, Nat.add_comm 1 k]
    exact h (k + 1) cmd' hk
  · rintro ⟨h0, h⟩ (_ | k) cmd' hk
    · obtain rfl : cmd = cmd' := Option.some.inj hk
      exact h0
    · have hk' := h k cmd' hk
      rwa [Nat.add_assoc, Nat.add_comm 1 k] at hk'

/-- **The comparison of complete commands** reads no further than the buffers, and compares all of their bytes. -/
theorem compareFrom_eq {replies : Nat → Option (List (BitVec 8))}
    (hreplies : ∀ i identify, replies i = some identify → identify.length = idealDataSize) {cmds : List IdentifyDUT}
    (hcmds : ∀ cmd ∈ cmds, cmd.raw.length = idealDataSize ∧ cmd.mask.length = idealDataSize) (i : Nat) :
    ∃ same, compareFrom replies i cmds = some same ∧ (same = true ↔
      ∀ k cmd, cmds[k]? = some cmd → ∃ identify, replies (i + k) = some identify ∧ Agree cmd identify) := by
  induction cmds generalizing i with
  | nil => exact ⟨true, rfl, iff_of_true rfl fun k cmd hk => by simp at hk⟩
  | cons cmd cmds ih =>
    obtain ⟨hcmd, hrest⟩ := List.forall_mem_cons.1 hcmds
    rw [@forall_getElem?_cons fun k cmd' => ∃ identify, replies k = some identify ∧ Agree cmd' identify]
    cases hreply : replies i with
    | none =>
      refine ⟨false, by rw [compareFrom, hreply], iff_of_false Bool.false_ne_true ?_⟩
      rintro ⟨⟨identify, h, -⟩, -⟩
      cases h
    | some identify =>
      obtain ⟨same, hsame, hagree⟩ := compareCmd_eq hcmd.1 hcmd.2 (hreplies i identify hreply)
      have hfirst : (∃ identify', some identify = some identify' ∧ Agree cmd identify') ↔ Agree cmd identify :=
        ⟨fun ⟨_, h, hag⟩ => Option.some.inj h ▸ hag, fun h => ⟨identify, rfl, h⟩⟩
      have hstep : compareFrom replies i (cmd :: cmds) =
          if same then compareFrom replies (i + 1) cmds else some false := by
        rw [compareFrom, hreply]
        change (do if ← compareCmd cmd identify then compareFrom replies (i + 1) cmds else return false) = _
        rw [hsame]
        rfl
      rw [hstep, hfirst, ← hagree]
      cases same with
      | false => exact ⟨false, rfl, iff_of_false Bool.false_ne_true fun h => Bool.false_ne_true h.1⟩
      | true =>
        obtain ⟨same', hloop, hiff⟩ := ih hrest (i + 1)
        exact ⟨same', hloop, hiff.trans (and_iff_right rfl).symm⟩

end Compare

/-- Commands without bytes agree with whatever is returned for them. -/
theorem compareFrom_empty {replies : Nat → Option (List (BitVec 8))} {cmds : List IdentifyDUT}
    (hcmds : ∀ cmd ∈ cmds, cmd.raw = []) (i : Nat) (hreplies : ∀ k < cmds.length, (replies (i + k)).isSome) :
    compareFrom replies i cmds = some true := by
  induction cmds generalizing i with
  | nil => rfl
  | cons cmd cmds ih =>
    obtain ⟨hcmd, hrest⟩ := List.forall_mem_cons.1 hcmds
    obtain ⟨identify, hreply⟩ := Option.isSome_iff_exists.1 (hreplies 0 (Nat.succ_pos _))
    have hsame : compareCmd cmd identify = some true := by
      rw [compareCmd, hcmd]
      rfl
    rw [Nat.add_zero] at hreply
    rw [compareFrom, hreply]
    dsimp only
    rw [hsame]
    refine ih hrest (i + 1) fun k hk => ?_
    rw [Nat.add_assoc, Nat.add_comm 1 k]
    exact hreplies (k + 1) (Nat.succ_lt_succ hk)

/-! ## The run of the loop -/

section Loop

variable {wellFormed : Bool} {xmlFile : List Node}

/-- **Each round adds a command without bytes.** -/
theorem cmdLoop_ok {cmds cmds' : List IdentifyDUT} {allOK b : Bool}
    (hcmds : ∀ cmd ∈ cmds, cmd.raw = [] ∧ cmd.mask = []) (hsome : allOK = true → cmds ≠ [])
    (h : cmdLoop wellFormed xmlFile cmds allOK = (cmds', .ok b)) :
    (∀ cmd ∈ cmds', cmd.raw = [] ∧ cmd.mask = []) ∧ (b = true → cmds' ≠ []) := by
  induction hlen : xmlFile.length using Nat.strong_induction_on generalizing xmlFile cmds allOK with
  | _ n ih =>
    rw [cmdLoop] at h
    split at h
    · cases h
      exact ⟨hcmds, hsome⟩
    · rename_i nodes hseek
      split at h
      · cases h
      · rename_i cmd rest hbody
        obtain ⟨hraw, hmask, hrest⟩ := goldenCmd_ok hbody
        have hlt : rest.length < n :=
          hlen ▸ hrest ▸ (behindCmd_length nodes).trans_lt (seekSpecificXMLNode_lt hseek)
        refine ih rest.length hlt ?_ (fun _ => List.append_ne_nil_of_right_ne_nil _ (List.cons_ne_nil _ _)) h rfl
        intro cmd' hmem
        rcases List.mem_append.1 hmem with hmem | hmem
        · exact hcmds cmd' hmem
        · rw [List.mem_singleton.1 hmem]
          exact ⟨hraw, hmask⟩

end Loop

/-- The commands of an accepted document are without bytes, and there is one. -/
theorem parseGoldenCmdLine_ok {file : List Char → Option XmlFile} {golden golden' : Golden} {optarg : List Char}
    (h : parseGoldenCmdLine file golden optarg = (golden', .ok ())) :
    (∀ cmd ∈ golden'.cmds, cmd.raw = [] ∧ cmd.mask = []) ∧ golden'.cmds ≠ [] := by
  cases hsplit : splitOutputFile optarg with | mk inFileName outputFile
  rw [parseGoldenCmdLine, hsplit] at h
  dsimp only at h
  cases hfile : file inFileName with
  | none =>
    rw [hfile] at h
    cases h
  | some xmlFile =>
    rw [hfile] at h
    dsimp only at h
    split at h
    · cases h
    · split at h
      · rename_i cmds hloop
        cases h
        have hstart : ∀ cmd ∈ ([] : List IdentifyDUT), cmd.raw = [] ∧ cmd.mask = [] :=
          fun cmd hmem => absurd hmem List.not_mem_nil
        obtain ⟨hcmds, hsome⟩ := cmdLoop_ok hstart (fun hok => absurd hok Bool.false_ne_true) hloop
        exact ⟨hcmds, hsome rfl⟩
      · cases h
      · cases h

/-- **No accepted document yields complete commands**: none of its commands has a byte, and `CompareGolden` reports a
match for any data. -/
theorem not_goldenComplete {file : List Char → Option XmlFile} {golden golden' : Golden} {optarg : List Char}
    {xmlFile : XmlFile} (_hfile : file (splitOutputFile optarg).1 = some xmlFile)
    (h : parseGoldenCmdLine file golden optarg = (golden', .ok ())) :
    ¬GoldenComplete xmlFile golden'.cmds ∧ (∀ cmd ∈ golden'.cmds, cmd.raw = [] ∧ cmd.mask = []) ∧
      ∀ replies : Nat → Option (List (BitVec 8)), (∀ k < golden'.cmds.length, (replies k).isSome) →
        compareGolden replies golden'.cmds = some true := by
  obtain ⟨hcmds, hne⟩ := parseGoldenCmdLine_ok h
  refine ⟨fun hcomplete => ?_, hcmds, fun replies hreplies => ?_⟩
  · obtain ⟨cmd, cmds, hcons⟩ := List.exists_cons_of_ne_nil hne
    have hrounds := hcomplete.complete
    rw [hcons] at hrounds hcmds
    obtain ⟨r, -, hcmd, -, -⟩ := List.forall₂_cons_right_iff.1 hrounds
    have hsize := hcmd.rawSize
    rw [(hcmds cmd List.mem_cons_self).1] at hsize
    exact absurd hsize (by decide)
  · refine compareFrom_empty (fun cmd hmem => (hcmds cmd hmem).1) 0 fun k hk => ?_
    rw [Nat.zero_add]
    exact hreplies k hk

/-- A document with one `cmd`, which is empty. -/
def emptyCmd : XmlFile where
  nodes := Xml.nodes 0 (.element "identify" [] [.empty "cmd" []])
  wellFormed := true

/-- It is parsed, into a command without any bytes. -/
theorem parse_emptyCmd :
    parseGoldenCmdLine (fun _ => some emptyCmd) ⟨false, [], []⟩ ['x'] = (⟨true, [], [.zero]⟩, .ok ()) := by
  decide +kernel

theorem not_goldenComplete_emptyCmd : ¬GoldenComplete emptyCmd [.zero] :=
  (@not_goldenComplete (fun _ => some emptyCmd) ⟨false, [], []⟩ ⟨true, [], [.zero]⟩ ['x'] emptyCmd rfl
    parse_emptyCmd).1

/-- Not every document that is accepted yields complete commands. -/
theorem goldenComplete_not : ¬∀ (file : List Char → Option XmlFile) (golden golden' : Golden) (optarg : List Char)
    (xmlFile : XmlFile), file (splitOutputFile optarg).1 = some xmlFile →
    parseGoldenCmdLine file golden optarg = (golden', .ok ()) → GoldenComplete xmlFile golden'.cmds := by
  intro hall
  have hcomplete := (hall (fun _ => some emptyCmd) _ _ ['x'] emptyCmd rfl parse_emptyCmd).complete
  obtain ⟨r, -, hcmd, -, -⟩ := List.forall₂_cons_right_iff.1 hcomplete
  exact absurd hcmd.rawSize (by decide)

end Tnvme
