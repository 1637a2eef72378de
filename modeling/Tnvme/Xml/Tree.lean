import Tnvme.Xml.Reader

/-!
# Documents as trees

What the reader finds are the nodes of a tree. What an element contains are the nodes of its children
(`content_nodes`), and the elements of a name at a depth are those of the name among siblings (`hits_nodesAll`).
-/

namespace Tnvme

def Node.startTag (depth : Nat) (name : String) (attr : List AttribXML) : Node :=
  ⟨.element, name, depth, none, attr, (absurd rfl ·)⟩

def Node.endTag (depth : Nat) (name : String) (attr : List AttribXML) : Node :=
  ⟨.endElement, name, depth, none, attr, fun _ h => absurd rfl h⟩

/-- A part of a document: text, a comment and the like, an empty tag, or an element with a start and an end tag. -/
inductive Xml where
  | leaf (nodeType : NodeType) (name : String) (value : Option String) (noElement : nodeType ≠ .element)
  | empty (name : String) (attr : List AttribXML)
  | element (name : String) (attr : List AttribXML) (children : List Xml)

namespace Xml

mutual

/-- The nodes that the reader finds. An empty tag has no end. -/
def nodes (depth : Nat) : Xml → List Node
  | leaf nodeType name value _ => [⟨nodeType, name, depth, value, [], fun _ _ => rfl⟩]
  | empty name attr => [.startTag depth name attr]
  | element name attr children =>
    .startTag depth name attr :: (nodesAll (depth + 1) children ++ [.endTag depth name attr])

def nodesAll (depth : Nat) : List Xml → List Node
  | [] => []
  | x :: xs => nodes depth x ++ nodesAll depth xs

end

mutual

theorem le_depth_nodes {depth : Nat} : ∀ (x : Xml), ∀ n ∈ nodes depth x, depth ≤ n.depth
  | leaf _ _ _ _, n, h => by
    rw [nodes, List.mem_singleton] at h
    exact h ▸ Nat.le_refl depth
  | empty _ _, n, h => by
    rw [nodes, List.mem_singleton] at h
    exact h ▸ Nat.le_refl depth
  | element _ _ children, n, h => by
    rw [nodes, List.mem_cons, List.mem_append, List.mem_singleton] at h
    rcases h with rfl | h | rfl
    · exact Nat.le_refl depth
    · exact Nat.le_of_succ_le (le_depth_nodesAll children n h)
    · exact Nat.le_refl depth

/-- The children of an element are deeper than the element. -/
theorem le_depth_nodesAll {depth : Nat} : ∀ (xs : List Xml), ∀ n ∈ nodesAll depth xs, depth ≤ n.depth
  | x :: xs, n, h => by
    rw [nodesAll, List.mem_append] at h
    exact h.elim (le_depth_nodes x n) (le_depth_nodesAll xs n)

end

/-- **What an element contains.** The end tag is no deeper than the start tag, and neither is what follows an empty
one. -/
theorem content_nodes {depth : Nat} (xs : List Xml) {rest : List Node} (h : ∀ n ∈ rest.head?, n.depth ≤ depth) :
    content depth (nodesAll (depth + 1) xs ++ rest) = nodesAll (depth + 1) xs := by
  have hdeep : ∀ n ∈ nodesAll (depth + 1) xs, decide (depth < n.depth) = true := fun n hn =>
    decide_eq_true (le_depth_nodesAll xs n hn)
  rw [content, List.takeWhile_append_of_pos hdeep]
  cases rest with
  | nil => exact List.append_nil _
  | cons n rest =>
    have hn : ¬depth < n.depth := Nat.not_lt.2 (h n rfl)
    simp [hn]

/-! ## Elements of a name -/

/-- The attributes and the children of an element, if it has the name. -/
def tag? (name : String) : Xml → Option (List AttribXML × List Xml)
  | leaf _ _ _ _ => none
  | empty name' attr => if name' = name then some (attr, []) else none
  | element name' attr children => if name' = name then some (attr, children) else none

/-- The children of the first element that has the name. -/
def child? (name : String) (xs : List Xml) : Option (List Xml) := (xs.findSome? (tag? name)).map Prod.snd

variable {depth : Nat} {name : String}

theorem head_nodesAll (xs : List Xml) {rest : List Node} (hrest : ∀ n ∈ rest.head?, n.depth ≤ depth) :
    ∀ n ∈ (nodesAll depth xs ++ rest).head?, n.depth ≤ depth := by
  cases xs with
  | nil => exact hrest
  | cons x xs =>
    intro n hn
    cases x <;> (rw [nodesAll, nodes] at hn; cases hn; exact Nat.le_refl depth)

/-- An element of another name holds none of the name at its own depth. -/
theorem nodes_of_tag?_none {x : Xml} (h : x.tag? name = none) :
    ∀ n ∈ nodes depth x, n.isElement name depth = false := by
  intro n hn
  cases x with
  | leaf nodeType name' value noElement =>
    rw [nodes, List.mem_singleton] at hn
    simp [hn, Node.isElement, noElement]
  | empty name' attr =>
    have hname : name' ≠ name := fun hname => by simp [tag?, hname] at h
    rw [nodes, List.mem_singleton] at hn
    simp [hn, Node.isElement, Node.startTag, hname]
  | element name' attr children =>
    have hname : name' ≠ name := fun hname => by simp [tag?, hname] at h
    rw [nodes, List.mem_cons, List.mem_append, List.mem_singleton] at hn
    rcases hn with rfl | hn | rfl
    · simp [Node.isElement, Node.startTag, hname]
    · have hdepth : n.depth ≠ depth := Nat.ne_of_gt (le_depth_nodesAll children n hn)
      simp [Node.isElement, hdepth]
    · simp [Node.isElement, Node.endTag]

/-- An element of the name begins with its start tag, and the children follow. -/
theorem nodes_of_tag?_some (depth : Nat) {x : Xml} {attr : List AttribXML} {children : List Xml}
    (h : x.tag? name = some (attr, children)) : ∃ inside, nodes depth x = .startTag depth name attr :: inside ∧
      (∀ n ∈ inside, n.isElement name depth = false) ∧ ∀ rest : List Node, (∀ n ∈ rest.head?, n.depth ≤ depth) →
        content depth (inside ++ rest) = nodesAll (depth + 1) children := by
  cases x with
  | leaf nodeType name' value noElement => cases h
  | empty name' attr' =>
    obtain ⟨rfl, heq⟩ := Option.ite_none_right_eq_some.1 h
    cases heq
    exact ⟨[], by rw [nodes], nofun, fun rest hrest => content_nodes [] hrest⟩
  | element name' attr' children' =>
    obtain ⟨rfl, heq⟩ := Option.ite_none_right_eq_some.1 h
    cases heq
    refine ⟨nodesAll (depth + 1) children ++ [.endTag depth name' attr], by rw [nodes], fun n hn => ?_,
      fun rest _ => ?_⟩
    · rw [List.mem_append, List.mem_singleton] at hn
      rcases hn with hn | rfl
      · have hdepth : n.depth ≠ depth := Nat.ne_of_gt (le_depth_nodesAll children n hn)
        simp [Node.isElement, hdepth]
      · simp [Node.isElement, Node.endTag]
    · rw [List.append_assoc]
      refine content_nodes children fun n hn => ?_
      cases hn
      exact Nat.le_refl depth

/-- **The elements of a name among siblings**, each with what it contains. -/
theorem hits_nodesAll (name : String) (xs : List Xml) {rest : List Node} (hhead : ∀ n ∈ rest.head?, n.depth ≤ depth)
    (hrest : ∀ n ∈ rest, n.isElement name depth = false) :
    (Streams.hits (·.isElement name depth) (nodesAll depth xs ++ rest)).map (fun h => (h.1.attr, content depth h.2)) =
      (xs.filterMap (tag? name)).map fun t => (t.1, nodesAll (depth + 1) t.2) := by
  induction xs with
  | nil =>
    have hhits := Streams.hits_append hrest []
    rw [List.append_nil] at hhits
    rw [nodesAll, List.nil_append, hhits]
    rfl
  | cons x xs ih =>
    rw [nodesAll, List.append_assoc]
    cases htag : x.tag? name with
    | none => rw [Streams.hits_append (nodes_of_tag?_none htag), ih, List.filterMap_cons_none htag]
    | some t =>
      obtain ⟨inside, hnodes, hinside, hcontent⟩ := nodes_of_tag?_some depth htag
      have hstart : (Node.startTag depth name t.1).isElement name depth = true := by
        simp [Node.isElement, Node.startTag]
      rw [hnodes, List.cons_append, Streams.hits, if_pos hstart, Streams.hits_append hinside,
        List.filterMap_cons_some htag, List.map_cons, List.map_cons, ih, hcontent _ (head_nodesAll xs hhead)]
      rfl

theorem seek_nodesAll (name : String) (xs : List Xml) :
    (Streams.seek (·.isElement name depth) (nodesAll depth xs)).map (content depth ·.2) =
      (child? name xs).map (nodesAll (depth + 1)) := by
  have hhits := congrArg List.head? (@hits_nodesAll depth name xs [] nofun nofun)
  rw [List.append_nil, List.head?_map, List.head?_map, Streams.head?_hits, List.head?_filterMap] at hhits
  have hsnd := congrArg (Option.map Prod.snd) hhits
  rw [Option.map_map, Option.map_map] at hsnd
  rw [child?, Option.map_map]
  exact hsnd

end Xml

end Tnvme
