import Tnvme.Lib.Streams

/-!
# The reader of XML documents

A document is read as the sequence of its nodes, in the order of the document, and of every node the reader tells the
depth. So what an element contains are the nodes that follow it and are deeper.
-/

namespace Tnvme

/-- `xmlpp::TextReader::xmlNodeType` -/
inductive NodeType where
  | none
  | element
  | attribute
  | text
  | cdata
  | entityReference
  | entity
  | processingInstruction
  | comment
  | document
  | documentType
  | documentFragment
  | notationNode
  | whitespace
  | significantWhitespace
  | endElement
  | endEntity
  | xmlDeclaration
  deriving DecidableEq, Repr

structure AttribXML where
  name : String
  value : String
  deriving DecidableEq, Repr

/-- What the reader tells of a node. Only tags have attributes. -/
structure Node where
  nodeType : NodeType
  name : String
  depth : Nat
  value : Option String
  attr : List AttribXML
  attr_nil : nodeType ≠ .element → nodeType ≠ .endElement → attr = []

/-- What is left to read. If the document is not well-formed, the reader throws where it can read no further. -/
structure XmlFile where
  nodes : List Node
  wellFormed : Bool

/-- `SeekSpecificXMLNode`, with the value and the attributes of the node, and what is left to read. A reader that
throws ends the search, too. -/
def seekSpecificXMLNode (nodeName : String) (nodeDepth : Nat) :
    List Node → Option (String × List AttribXML) × List Node
  | [] => (none, [])
  | n :: xmlFile =>
    if nodeName = n.name then
      if n.nodeType = .endElement then seekSpecificXMLNode nodeName nodeDepth xmlFile
      else if n.depth = nodeDepth then (some (n.value.getD "", n.attr), xmlFile)
      else seekSpecificXMLNode nodeName nodeDepth xmlFile
    else seekSpecificXMLNode nodeName nodeDepth xmlFile

namespace Node

/-- What `SeekSpecificXMLNode` looks for. Besides an element this may be a processing instruction. -/
def named (name : String) (depth : Nat) (n : Node) : Bool :=
  name = n.name && n.nodeType ≠ .endElement && n.depth = depth

def isElement (name : String) (depth : Nat) (n : Node) : Bool :=
  n.nodeType = .element && n.name = name && n.depth = depth

theorem named_of_isElement {name : String} {depth : Nat} (n : Node) (h : n.isElement name depth = true) :
    n.named name depth = true := by
  simp only [isElement, Bool.and_eq_true, decide_eq_true_eq] at h
  simp [named, h.1.1, h.1.2, h.2]

/-- A tag with attributes that is sought is an element. -/
theorem isElement_of_named {name : String} {depth : Nat} {n : Node} (h : n.named name depth = true)
    (hattr : n.attr ≠ []) : n.isElement name depth = true := by
  simp only [named, Bool.and_eq_true, decide_eq_true_eq] at h
  obtain ⟨⟨hname, hend⟩, hdepth⟩ := h
  have helement : n.nodeType = .element := by
    by_contra hne
    exact hattr (n.attr_nil hne hend)
  simp [isElement, helement, hname, hdepth]

end Node

/-- The nodes of an element at a depth, when they are followed by others. -/
def content (depth : Nat) (xmlFile : List Node) : List Node := xmlFile.takeWhile (depth < ·.depth)

theorem seekSpecificXMLNode_eq (nodeName : String) (nodeDepth : Nat) (xmlFile : List Node) :
    seekSpecificXMLNode nodeName nodeDepth xmlFile =
      match Streams.seek (·.named nodeName nodeDepth) xmlFile with
      | none => (none, [])
      | some (n, xmlFile) => (some (n.value.getD "", n.attr), xmlFile) := by
  induction xmlFile with
  | nil => rfl
  | cons n xmlFile ih =>
    rw [seekSpecificXMLNode, Streams.seek, ih]
    by_cases hname : nodeName = n.name
    · by_cases hend : n.nodeType = .endElement
      · simp [Node.named, hname, hend]
      · by_cases hdepth : n.depth = nodeDepth
        · simp [Node.named, hname, hend, hdepth]
        · simp [Node.named, hname, hend, hdepth]
    · simp [Node.named, hname]

end Tnvme
