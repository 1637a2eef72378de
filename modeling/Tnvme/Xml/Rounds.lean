import Tnvme.Xml.Format

/-!
# The rounds of `--format`

The searches of `ParseFormatCmdLine` run forwards through all that is left of a document, and so it is read in rounds:
from a namespace on to the next `cmd`, from there to the next `dw10`, and from there to the next end of a `dw10`.
`parseFormatCmdLine_iff` says when the option is parsed, and with which commands: when all rounds pass the checks, with
the commands of the rounds that got to a `dw10`.
-/

namespace Tnvme

open Numerals

/-! ## Values -/

/-- The end of a `dw10`, at any depth. -/
def Node.endsDw10 (n : Node) : Bool := n.nodeType = .endElement && n.name = "dw10"

/-- The nodes that the loop over values passes over. -/
def Node.isSkipped (n : Node) : Bool :=
  n.nodeType = .comment || n.nodeType = .significantWhitespace || n.nodeType = .endElement

/-- The values among the nodes that the loop over values goes through, with their texts; `none` if it meets a node that
it does not support. -/
def values : List Node → Option (List (Dw10Field × List Char))
  | [] => some []
  | n :: nodes =>
    if n.isSkipped then values nodes
    else if n.nodeType = .element then
      match nodes with
      | [] => none
      | next :: nodes =>
        if next.nodeType = .text then
          (Dw10Field.ofName n.name).bind fun field => (values nodes).map ((field, next.text) :: ·)
        else none
    else none

section Values

variable {n next : Node} {nodes : List Node}

theorem values_skipped (h : n.isSkipped = true) : values (n :: nodes) = values nodes := by
  rw [values.eq_def]
  exact if_pos h

theorem not_isSkipped (h : n.nodeType = .element) : n.isSkipped = false := by
  simp [Node.isSkipped, h]

theorem values_element (h : n.nodeType = .element) : values (n :: next :: nodes) =
    if next.nodeType = .text then
      (Dw10Field.ofName n.name).bind fun field => (values nodes).map ((field, next.text) :: ·)
    else none := by
  rw [values, not_isSkipped h, if_neg Bool.false_ne_true, if_pos h]

theorem values_unsupported (h : n.isSkipped = false) (helement : n.nodeType ≠ .element) :
    values (n :: nodes) = none := by
  rw [values.eq_def]
  exact (if_neg (Bool.eq_false_iff.1 h)).trans (if_neg helement)

end Values

/-- The assignments that the values make. -/
def assign (cmd : FormatDUT) (vs : List (Dw10Field × List Char)) : FormatDUT :=
  vs.foldl (fun cmd v => cmd.set (strtoul 16 v.2) v.1) cmd

theorem extractFormatXMLValue_eq_some {n next : Node} {cmd cmd' : FormatDUT} {nodeName : String}
    (h : extractFormatXMLValue n next cmd nodeName = some cmd') : ∃ field, Dw10Field.ofName nodeName = some field ∧
      next.nodeType = .text ∧ cmd.set (strtoul 16 next.text) field = cmd' := by
  unfold extractFormatXMLValue at h
  split at h
  · cases h
  · rename_i field hfield
    obtain ⟨_, h⟩ := Option.ite_none_right_eq_some.1 h
    obtain ⟨htext, h⟩ := Option.ite_none_right_eq_some.1 h
    exact ⟨field, hfield, htext, Option.some.inj h⟩

theorem ofName_eq_none {n next : Node} {cmd : FormatDUT} {nodeName : String} (helement : n.nodeType = .element)
    (htext : next.nodeType = .text) (h : extractFormatXMLValue n next cmd nodeName = none) :
    Dw10Field.ofName nodeName = none := by
  unfold extractFormatXMLValue at h
  split at h
  · assumption
  · rw [if_pos helement, if_pos htext] at h
    cases h

/-- What lies up to the end of a `dw10`, or of the document, with what is left to read behind it. -/
def valueSection (wellFormed : Bool) (xmlFile : List Node) (cmd : FormatDUT) : Option (FormatDUT × List Node) :=
  if wellFormed = true ∨ ∃ n ∈ Streams.upTo Node.endsDw10 xmlFile, n.endsDw10 = true then
    (values (Streams.upTo Node.endsDw10 xmlFile)).map fun vs =>
      (assign cmd vs, Streams.beyond Node.endsDw10 xmlFile)
  else none

theorem valueSection_skipped {n : Node} (hskip : n.isSkipped = true) (hend : n.endsDw10 = false) (wellFormed : Bool)
    (xmlFile : List Node) (cmd : FormatDUT) :
    valueSection wellFormed (n :: xmlFile) cmd = valueSection wellFormed xmlFile cmd := by
  unfold valueSection
  rw [Streams.upTo_cons hend, Streams.beyond_cons hend, values_skipped hskip]
  simp [hend]

/-- **The loop over values goes up to the end of a `dw10`, or of the document.** -/
theorem valueLoop_eq (wellFormed : Bool) (xmlFile : List Node) (cmd : FormatDUT) :
    valueLoop wellFormed xmlFile cmd = valueSection wellFormed xmlFile cmd := by
  fun_induction valueLoop wellFormed xmlFile cmd with
  | case1 cmd h => simp [valueSection, Streams.upTo, Streams.beyond, values, assign, h]
  | case2 cmd h => simp [valueSection, Streams.upTo, h]
  | case3 n xmlFile cmd htype ih =>
    rw [ih, valueSection_skipped (by simp [Node.isSkipped, htype]) (by simp [Node.endsDw10, htype])]
  | case4 n xmlFile cmd htype ih =>
    rw [ih, valueSection_skipped (by simp [Node.isSkipped, htype]) (by simp [Node.endsDw10, htype])]
  | case5 n cmd htype =>
    have hn : n.endsDw10 = false := by simp [Node.endsDw10, htype]
    simp [valueSection, Streams.upTo, values, htype, hn, not_isSkipped htype]
  | case6 n cmd htype next xmlFile hextract =>
    have hn : n.endsDw10 = false := by simp [Node.endsDw10, htype]
    obtain ⟨l, hl⟩ := Streams.exists_upTo_cons Node.endsDw10 next xmlFile
    have hnone : values (n :: next :: l) = none := by
      rw [values_element htype]
      by_cases htext : next.nodeType = .text
      · rw [if_pos htext, ofName_eq_none htype htext hextract, Option.bind_none]
      · exact if_neg htext
    rw [valueSection, Streams.upTo_cons hn, hl, hnone]
    simp
  | case7 n cmd htype next xmlFile cmd' hextract ih =>
    obtain ⟨field, hfield, htext, rfl⟩ := extractFormatXMLValue_eq_some hextract
    have hn : n.endsDw10 = false := by simp [Node.endsDw10, htype]
    have hnext : next.endsDw10 = false := by simp [Node.endsDw10, htext]
    rw [ih, valueSection, valueSection, Streams.upTo_cons hn, Streams.upTo_cons hnext, Streams.beyond_cons hn,
      Streams.beyond_cons hnext, values_element htype, if_pos htext, hfield]
    simp [hn, hnext, Function.comp_def, assign]
  | case8 n xmlFile cmd htype hname =>
    have hn : n.endsDw10 = true := by simp [Node.endsDw10, htype, hname]
    simp [valueSection, Streams.upTo, Streams.beyond, values, assign, htype, hn, Node.isSkipped]
  | case9 n xmlFile cmd htype hname ih =>
    rw [ih, valueSection_skipped (by simp [Node.isSkipped, htype]) (by simp [Node.endsDw10, hname])]
  | case10 n xmlFile cmd hcomment hspace helement hend =>
    have hskip : n.isSkipped = false := by simpa [Node.isSkipped, not_or] using ⟨⟨hcomment, hspace⟩, hend⟩
    have hn : n.endsDw10 = false := by simpa [Node.endsDw10] using fun h => (hend h).elim
    rw [valueSection, Streams.upTo_cons hn, values_unsupported hskip helement]
    simp

/-! ## Rounds -/

/-- What is left to read behind the next `cmd` and the next `dw10`. -/
def findDw10 (xmlFile : List Node) : Option (List Node) :=
  (Streams.seek (·.named "cmd" 2) xmlFile).bind fun r => (Streams.seek (·.named "dw10" 3) r.2).map Prod.snd

/-- A round of the loop over the namespaces: the attributes of the namespace that it begins at, and the nodes that the
loop over values goes through, if the round gets to a `dw10`. -/
structure Round where
  attr : List AttribXML
  dw10 : Option (List Node)

def roundAt (ns : Node × List Node) : Round := ⟨ns.1.attr, (findDw10 ns.2).map (Streams.upTo Node.endsDw10)⟩

/-- What a round leaves to read. -/
def behindRound (xmlFile : List Node) : List Node := (findDw10 xmlFile).elim [] (Streams.beyond Node.endsDw10)

theorem findDw10_length {xmlFile nodes : List Node} (h : findDw10 xmlFile = some nodes) :
    nodes.length < xmlFile.length := by
  obtain ⟨_, hcmd, hfound⟩ := Option.bind_eq_some_iff.1 h
  obtain ⟨_, hdw10, rfl⟩ := Option.map_eq_some_iff.1 hfound
  exact (Streams.seek_length hdw10).trans (Streams.seek_length hcmd)

theorem behindRound_length (xmlFile : List Node) : (behindRound xmlFile).length ≤ xmlFile.length := by
  unfold behindRound
  cases h : findDw10 xmlFile with
  | none => exact Nat.zero_le _
  | some nodes => exact (Streams.beyond_length _ nodes).trans (Nat.le_of_lt (findDw10_length h))

/-- The rounds in which a document is read. -/
def rounds (xmlFile : List Node) : List Round :=
  match _hseek : Streams.seek (·.named "namespace" 1) xmlFile with
  | none => []
  | some ns => roundAt ns :: rounds (behindRound ns.2)
termination_by xmlFile.length
decreasing_by exact (behindRound_length ns.2).trans_lt (Streams.seek_length _hseek)

/-- The checks that a round has to pass. -/
structure Round.Passes (wellFormed : Bool) (r : Round) : Prop where
  id : ∃ v, r.attr = [⟨"id", v⟩]
  values : ∀ nodes, r.dw10 = some nodes → ∃ vs, values nodes = some vs
  ends : ∀ nodes, r.dw10 = some nodes → wellFormed = true ∨ ∃ n ∈ nodes, n.endsDw10 = true

def nsidOf : List AttribXML → UInt32
  | [a] => UInt32.ofNat (strtoul 10 a.value.toList)
  | _ => 0

/-- The command of a round that gets to a `dw10`. -/
def Round.cmd (r : Round) : Option FormatDUT :=
  r.dw10.bind fun nodes => (values nodes).map fun vs => assign { FormatDUT.zero with nsid := nsidOf r.attr } vs

/-! ## The run of the loop -/

section Loop

variable {wellFormed : Bool}

/-- The two searches of a round. -/
theorem formatNamespace_id (wellFormed : Bool) (v : String) (xmlFile : List Node) :
    formatNamespace wellFormed [⟨"id", v⟩] xmlFile =
      match findDw10 xmlFile with
      | none => some (none, [])
      | some nodes =>
        (valueLoop wellFormed nodes { FormatDUT.zero with nsid := nsidOf [⟨"id", v⟩] }).map
          fun r => (some r.1, r.2) := by
  simp only [formatNamespace, findDw10, seekSpecificXMLNode_eq, ne_eq, not_true_eq_false, if_false]
  cases Streams.seek (·.named "cmd" 2) xmlFile with
  | none => rfl
  | some r =>
    dsimp only [Option.bind_some]
    cases Streams.seek (·.named "dw10" 3) r.2 with
    | none => rfl
    | some r' => rfl

theorem formatNamespace_attr {attr : List AttribXML} {xmlFile : List Node} (h : ¬∃ v, attr = [⟨"id", v⟩]) :
    formatNamespace wellFormed attr xmlFile = none := by
  unfold formatNamespace
  split
  · rename_i a
    exact if_pos fun hname => h ⟨a.value, by rw [← hname]⟩
  · rfl

/-- A round that passes the checks is gone through. -/
theorem formatNamespace_of_passes {ns : Node × List Node} (h : (roundAt ns).Passes wellFormed) :
    formatNamespace wellFormed ns.1.attr ns.2 = some ((roundAt ns).cmd, behindRound ns.2) := by
  obtain ⟨⟨v, hid⟩, hvalues, hends⟩ := h
  have hattr : ns.1.attr = [⟨"id", v⟩] := hid
  rw [hattr, formatNamespace_id, behindRound, Round.cmd, hid]
  cases hfind : findDw10 ns.2 with
  | none => simp [roundAt, hfind]
  | some nodes =>
    have hdw10 : (roundAt ns).dw10 = some (Streams.upTo Node.endsDw10 nodes) := by simp [roundAt, hfind]
    obtain ⟨vs, hvs⟩ := hvalues _ hdw10
    dsimp only
    rw [valueLoop_eq, valueSection, if_pos (hends _ hdw10)]
    simp [hdw10, hvs]

/-- A round that does not pass ends the loop. -/
theorem formatNamespace_of_not_passes {ns : Node × List Node} (h : ¬(roundAt ns).Passes wellFormed) :
    formatNamespace wellFormed ns.1.attr ns.2 = none := by
  by_cases hid : ∃ v, ns.1.attr = [⟨"id", v⟩]
  · obtain ⟨v, hattr⟩ := hid
    rw [hattr, formatNamespace_id]
    cases hfind : findDw10 ns.2 with
    | none => exact absurd ⟨⟨v, hattr⟩, by simp [roundAt, hfind], by simp [roundAt, hfind]⟩ h
    | some nodes =>
      dsimp only
      rw [valueLoop_eq, valueSection]
      split
      · rename_i hends
        cases hvs : values (Streams.upTo Node.endsDw10 nodes) with
        | none => rfl
        | some vs =>
          refine absurd ⟨⟨v, hattr⟩, fun nodes' hnodes' => ?_, fun nodes' hnodes' => ?_⟩ h
          · obtain rfl : Streams.upTo Node.endsDw10 nodes = nodes' := by simpa [roundAt, hfind] using hnodes'
            exact ⟨vs, hvs⟩
          · obtain rfl : Streams.upTo Node.endsDw10 nodes = nodes' := by simpa [roundAt, hfind] using hnodes'
            exact hends
      · rfl
  · exact formatNamespace_attr hid

theorem rounds_none {xmlFile : List Node} (h : Streams.seek (·.named "namespace" 1) xmlFile = none) :
    rounds xmlFile = [] := by
  rw [rounds]
  split <;> simp_all

theorem rounds_some {xmlFile : List Node} {ns : Node × List Node}
    (h : Streams.seek (·.named "namespace" 1) xmlFile = some ns) :
    rounds xmlFile = roundAt ns :: rounds (behindRound ns.2) := by
  rw [rounds]
  split <;> simp_all

theorem namespaceLoop_none {xmlFile : List Node} (h : Streams.seek (·.named "namespace" 1) xmlFile = none)
    (cmds : List FormatDUT) (allOK : Bool) : namespaceLoop wellFormed xmlFile cmds allOK = (cmds, some allOK) := by
  have hseek := seekSpecificXMLNode_eq "namespace" 1 xmlFile
  rw [h] at hseek
  rw [namespaceLoop]
  split <;> simp_all

theorem namespaceLoop_some {xmlFile : List Node} {ns : Node × List Node}
    (h : Streams.seek (·.named "namespace" 1) xmlFile = some ns) (cmds : List FormatDUT) (allOK : Bool) :
    namespaceLoop wellFormed xmlFile cmds allOK =
      match formatNamespace wellFormed ns.1.attr ns.2 with
      | none => (cmds, none)
      | some (none, rest) => namespaceLoop wellFormed rest cmds allOK
      | some (some cmd, rest) => namespaceLoop wellFormed rest (cmds ++ [cmd]) true := by
  have hseek := seekSpecificXMLNode_eq "namespace" 1 xmlFile
  rw [h] at hseek
  rw [namespaceLoop]
  split
  · simp_all
  · rename_i attr nodes hfound
    rw [hseek] at hfound
    cases hfound
    split <;> simp_all

/-- **The loop over the namespaces gets to its end if all rounds pass**, and then it has pushed the commands of the
rounds. -/
theorem namespaceLoop_of_passes {xmlFile : List Node} (h : ∀ r ∈ rounds xmlFile, r.Passes wellFormed)
    (cmds : List FormatDUT) (allOK : Bool) : namespaceLoop wellFormed xmlFile cmds allOK =
      (cmds ++ (rounds xmlFile).filterMap Round.cmd, some (allOK || (rounds xmlFile).any (·.cmd.isSome))) := by
  induction xmlFile using rounds.induct generalizing cmds allOK with
  | case1 xmlFile hseek => simp [namespaceLoop_none hseek, rounds_none hseek]
  | case2 xmlFile ns hseek ih =>
    rw [rounds_some hseek, List.forall_mem_cons] at h
    rw [namespaceLoop_some hseek, formatNamespace_of_passes h.1, rounds_some hseek]
    cases hcmd : (roundAt ns).cmd with
    | none =>
      dsimp only
      rw [ih h.2]
      simp [hcmd]
    | some cmd =>
      dsimp only
      rw [ih h.2]
      simp [hcmd]

/-- It does not get to its end otherwise. -/
theorem namespaceLoop_of_not_passes {xmlFile : List Node} (h : ¬∀ r ∈ rounds xmlFile, r.Passes wellFormed)
    (cmds : List FormatDUT) (allOK : Bool) : (namespaceLoop wellFormed xmlFile cmds allOK).2 = none := by
  induction xmlFile using rounds.induct generalizing cmds allOK with
  | case1 xmlFile hseek => exact absurd (by simp [rounds_none hseek]) h
  | case2 xmlFile ns hseek ih =>
    rw [rounds_some hseek, List.forall_mem_cons] at h
    rw [namespaceLoop_some hseek]
    by_cases hns : (roundAt ns).Passes wellFormed
    · have hrest : ¬∀ r ∈ rounds (behindRound ns.2), r.Passes wellFormed := fun hrest => h ⟨hns, hrest⟩
      rw [formatNamespace_of_passes hns]
      cases (roundAt ns).cmd with
      | none => exact ih hrest cmds allOK
      | some cmd => exact ih hrest (cmds ++ [cmd]) true
    · rw [formatNamespace_of_not_passes hns]

end Loop

/-- A round that passes the checks has a command if it got to a `dw10`. -/
theorem Round.Passes.cmd_isSome {wellFormed : Bool} {r : Round} (h : r.Passes wellFormed) :
    r.cmd.isSome = true ↔ ∃ nodes, r.dw10 = some nodes := by
  unfold Round.cmd
  cases hdw10 : r.dw10 with
  | none => simp
  | some nodes =>
    obtain ⟨vs, hvs⟩ := h.values nodes hdw10
    simp [hvs]

/-- What is left to read behind the `format`. -/
def XmlFile.body (xmlFile : XmlFile) : List Node :=
  (Streams.seek (·.named "format" 0) xmlFile.nodes).elim [] Prod.snd

/-- A document that passes the checks: all rounds do, and one of them got to a `dw10`. -/
structure XmlFile.Passes (xmlFile : XmlFile) : Prop where
  passes : ∀ r ∈ rounds xmlFile.body, r.Passes xmlFile.wellFormed
  dw10 : ∃ r ∈ rounds xmlFile.body, ∃ nodes, r.dw10 = some nodes

/-- **When the option is parsed**, and the commands that it gives. -/
theorem parseFormatCmdLine_iff (format format' : Format) (xmlFile : XmlFile) :
    parseFormatCmdLine format xmlFile = (format', true) ↔
      xmlFile.Passes ∧ format' = ⟨true, (rounds xmlFile.body).filterMap Round.cmd⟩ := by
  have hformat := seekSpecificXMLNode_eq "format" 0 xmlFile.nodes
  cases hseek : Streams.seek (·.named "format" 0) xmlFile.nodes with
  | none =>
    have hrounds : rounds xmlFile.body = [] := rounds_none (by rw [XmlFile.body, hseek]; rfl)
    rw [hseek] at hformat
    refine iff_of_false (by simp [parseFormatCmdLine, hformat]) fun ⟨⟨_, r, hr, _⟩, _⟩ => ?_
    rw [hrounds] at hr
    cases hr
  | some found =>
    obtain ⟨n, body⟩ := found
    obtain rfl : xmlFile.body = body := by rw [XmlFile.body, hseek]; rfl
    rw [hseek] at hformat
    by_cases hpasses : ∀ r ∈ rounds xmlFile.body, r.Passes xmlFile.wellFormed
    · have hdw10 : (rounds xmlFile.body).any (·.cmd.isSome) = true ↔
          ∃ r ∈ rounds xmlFile.body, ∃ nodes, r.dw10 = some nodes := by
        rw [List.any_eq_true]
        exact exists_congr fun r => and_congr_right fun hr => (hpasses r hr).cmd_isSome
      have hloop := namespaceLoop_of_passes hpasses [] false
      rw [List.nil_append, Bool.false_or] at hloop
      simp only [parseFormatCmdLine, hformat, hloop]
      cases hany : (rounds xmlFile.body).any (·.cmd.isSome) with
      | false => exact iff_of_false (by simp) fun h => absurd (hdw10.2 h.1.dw10) (by simp [hany])
      | true =>
        constructor
        · intro h
          cases h
          exact ⟨⟨hpasses, hdw10.1 hany⟩, rfl⟩
        · rintro ⟨_, rfl⟩
          rfl
    · have hloop := namespaceLoop_of_not_passes hpasses [] false
      refine iff_of_false ?_ fun h => hpasses h.1.passes
      simp only [parseFormatCmdLine, hformat]
      split <;> simp_all

end Tnvme
