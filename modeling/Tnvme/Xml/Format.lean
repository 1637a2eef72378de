import Tnvme.Lib.Numerals
import Tnvme.Xml.Reader

/-!
# The command line option `--format`

`ParseFormatCmdLine` reads the format commands from a document: it searches for a namespace, for a `cmd` and for a
`dw10`, goes through the values of the `dw10`, and searches for the next namespace.
-/

namespace Tnvme

open Numerals

structure FormatDUT where
  nsid : UInt32
  ses : UInt8
  pi : UInt8
  lbaf : UInt8
  pil : Bool
  ms : Bool
  deriving DecidableEq, Repr

structure Format where
  req : Bool
  cmds : List FormatDUT
  deriving DecidableEq, Repr

/-- The fields of DW10 that can be given. -/
inductive Dw10Field where
  | ses
  | pil
  | pi
  | ms
  | lbaf
  deriving DecidableEq, Repr

namespace FormatDUT

/-- After the `memset`. -/
def zero : FormatDUT := ⟨0, 0, 0, 0, false, false⟩

/-- An assignment converts the number to the type of the field. -/
def set (cmd : FormatDUT) (value : Nat) : Dw10Field → FormatDUT
  | .ses => { cmd with ses := UInt8.ofNat value }
  | .pil => { cmd with pil := value != 0 }
  | .pi => { cmd with pi := UInt8.ofNat value }
  | .ms => { cmd with ms := value != 0 }
  | .lbaf => { cmd with lbaf := UInt8.ofNat value }

end FormatDUT

def Dw10Field.ofName : String → Option Dw10Field
  | "ses" => some .ses
  | "pil" => some .pil
  | "pi" => some .pi
  | "ms" => some .ms
  | "lbaf" => some .lbaf
  | _ => none

def Node.text (n : Node) : List Char := (n.value.getD "").toList

/-- `ExtractFormatXMLValue` at a node, with the next one that it reads. -/
def extractFormatXMLValue (n next : Node) (cmd : FormatDUT) (nodeName : String) : Option FormatDUT :=
  match Dw10Field.ofName nodeName with
  | none => none
  | some field =>
    if n.nodeType = .element then
      if next.nodeType = .text then some (cmd.set (strtoul 16 next.text) field) else none
    else none

/-- The loop over the values of a `dw10`, with what is left to read; `none` if it returns false or throws. -/
def valueLoop (wellFormed : Bool) : List Node → FormatDUT → Option (FormatDUT × List Node)
  | [], cmd => if wellFormed then some (cmd, []) else none
  | n :: xmlFile, cmd =>
    match n.nodeType with
    | .comment => valueLoop wellFormed xmlFile cmd
    | .significantWhitespace => valueLoop wellFormed xmlFile cmd
    | .element =>
      match xmlFile with
      | [] => none
      | next :: xmlFile =>
        match extractFormatXMLValue n next cmd n.name with
        | none => none
        | some cmd => valueLoop wellFormed xmlFile cmd
    | .endElement => if n.name = "dw10" then some (cmd, xmlFile) else valueLoop wellFormed xmlFile cmd
    | _ => none

theorem seekSpecificXMLNode_lt {nodeName : String} {nodeDepth : Nat} {xmlFile rest : List Node}
    {found : String × List AttribXML} (h : seekSpecificXMLNode nodeName nodeDepth xmlFile = (some found, rest)) :
    rest.length < xmlFile.length := by
  rw [seekSpecificXMLNode_eq] at h
  split at h
  · cases h
  · rename_i hseek
    cases h
    exact Streams.seek_length hseek

theorem seekSpecificXMLNode_none {nodeName : String} {nodeDepth : Nat} {xmlFile rest : List Node}
    (h : seekSpecificXMLNode nodeName nodeDepth xmlFile = (none, rest)) : rest = [] := by
  rw [seekSpecificXMLNode_eq] at h
  split at h <;> cases h
  rfl

theorem valueLoop_length {wellFormed : Bool} {xmlFile rest : List Node} {cmd cmd' : FormatDUT}
    (h : valueLoop wellFormed xmlFile cmd = some (cmd', rest)) : rest.length ≤ xmlFile.length := by
  fun_induction valueLoop wellFormed xmlFile cmd <;> grind

/-- The body of the loop over the namespaces, with the command to push and what is left to read; `none` if it returns
false or throws. -/
def formatNamespace (wellFormed : Bool) (attr : List AttribXML) (xmlFile : List Node) :
    Option (Option FormatDUT × List Node) :=
  match attr with
  | [a] =>
    if a.name ≠ "id" then none
    else
      match seekSpecificXMLNode "cmd" 2 xmlFile with
      | (none, xmlFile) => some (none, xmlFile)
      | (some _, xmlFile) =>
        match seekSpecificXMLNode "dw10" 3 xmlFile with
        | (none, xmlFile) => some (none, xmlFile)
        | (some _, xmlFile) =>
          (valueLoop wellFormed xmlFile { FormatDUT.zero with nsid := UInt32.ofNat (strtoul 10 a.value.toList) }).map
            fun r => (some r.1, r.2)
  | _ => none

theorem formatNamespace_length {wellFormed : Bool} {attr : List AttribXML} {xmlFile rest : List Node}
    {cmd : Option FormatDUT} (h : formatNamespace wellFormed attr xmlFile = some (cmd, rest)) :
    rest.length ≤ xmlFile.length := by
  unfold formatNamespace at h
  split at h
  · split at h
    · cases h
    · split at h
      · rename_i hcmd
        cases h
        simp [seekSpecificXMLNode_none hcmd]
      · rename_i hcmd
        split at h
        · rename_i hdw10
          cases h
          simp [seekSpecificXMLNode_none hdw10]
        · rename_i hdw10
          obtain ⟨⟨cmd', rest'⟩, hvalue, heq⟩ := Option.map_eq_some_iff.1 h
          cases heq
          have hlt := (seekSpecificXMLNode_lt hdw10).trans (seekSpecificXMLNode_lt hcmd)
          exact (valueLoop_length hvalue).trans (Nat.le_of_lt hlt)
  · cases h

/-- The loop over the namespaces, with the commands so far; the result is `allOK`, or `none` if it returns false or
throws. -/
def namespaceLoop (wellFormed : Bool) (xmlFile : List Node) (cmds : List FormatDUT) (allOK : Bool) :
    List FormatDUT × Option Bool :=
  match _hseek : seekSpecificXMLNode "namespace" 1 xmlFile with
  | (none, _) => (cmds, some allOK)
  | (some (_, attr), nodes) =>
    match _hbody : formatNamespace wellFormed attr nodes with
    | none => (cmds, none)
    | some (none, rest) => namespaceLoop wellFormed rest cmds allOK
    | some (some cmd, rest) => namespaceLoop wellFormed rest (cmds ++ [cmd]) true
termination_by xmlFile.length
decreasing_by
  all_goals exact (formatNamespace_length _hbody).trans_lt (seekSpecificXMLNode_lt _hseek)

/-- `ParseFormatCmdLine` -/
def parseFormatCmdLine (format : Format) (xmlFile : XmlFile) : Format × Bool :=
  let format := { format with req := false, cmds := [] }
  match seekSpecificXMLNode "format" 0 xmlFile.nodes with
  | (none, _) => (format, false)
  | (some _, nodes) =>
    match namespaceLoop xmlFile.wellFormed nodes [] false with
    | (cmds, none) => ({ format with cmds := cmds }, false)
    | (cmds, some false) => ({ format with cmds := cmds }, false)
    | (cmds, some true) => ({ format with req := true, cmds := cmds }, true)

end Tnvme
