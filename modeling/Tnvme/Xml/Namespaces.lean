import Mathlib.Data.List.Forall2
import Mathlib.Logic.Function.Basic
import Tnvme.Xml.Rounds
import Tnvme.Xml.Tree

/-!
# The commands of the namespaces

A document for `--format` is a list of namespaces, each with its own command: the ID in its attribute, and the values in
the `dw10` of its `cmd`. Since the searches of the parser do not stop at the end of a namespace, a namespace without
a `dw10` gets the values of the next one, or is dropped at the end of the document. `maps_iff` says for which documents
the commands are those of the namespaces.
-/

namespace Tnvme

open Numerals

/-- The namespaces of a document, each with the nodes that follow its start tag. -/
def XmlFile.namespaces (xmlFile : XmlFile) : List (Node × List Node) :=
  Streams.hits (·.isElement "namespace" 1) xmlFile.body

/-- The nodes of the first `dw10` in the first `cmd` of a namespace. -/
def ownDw10 (xmlFile : List Node) : Option (List Node) :=
  (Streams.seek (·.isElement "cmd" 2) (content 1 xmlFile)).bind fun cmd =>
    (Streams.seek (·.isElement "dw10" 3) (content 2 cmd.2)).map fun dw10 => content 3 dw10.2

/-- What a field holds is less than this. -/
def Dw10Field.bound : Dw10Field → Nat
  | .ses => 2 ^ 8
  | .pil => 2
  | .pi => 2 ^ 8
  | .ms => 2
  | .lbaf => 2 ^ 8

/-- Comments and white space. -/
def Node.isBlank (n : Node) : Bool := n.nodeType = .comment || n.nodeType = .significantWhitespace

/-- The nodes of a `dw10` give values to fields: every element is one of the fields, and its text is a hexadecimal
number that fits. -/
inductive GivesValues : List Node → List (Dw10Field × Nat) → Prop
  | nil : GivesValues [] []
  | blank {n : Node} {nodes : List Node} {vs : List (Dw10Field × Nat)} : n.isBlank = true → GivesValues nodes vs →
      GivesValues (n :: nodes) vs
  | field {n text e : Node} {blanks nodes : List Node} {field : Dw10Field} {value : Nat}
      {vs : List (Dw10Field × Nat)} : n.nodeType = .element → Dw10Field.ofName n.name = some field →
      text.nodeType = .text → numeral 16 text.text = some value → value < field.bound →
      (∀ b ∈ blanks, b.isBlank = true) → e.nodeType = .endElement → e.name = n.name → GivesValues nodes vs →
      GivesValues (n :: text :: (blanks ++ e :: nodes)) ((field, value) :: vs)

/-- The last value of every field; one that is missing is assumed zero. -/
def lastValues (vs : List (Dw10Field × Nat)) : Dw10Field → Nat :=
  vs.foldl (fun value v => Function.update value v.1 v.2) fun _ => 0

def FormatDUT.get (cmd : FormatDUT) : Dw10Field → Nat
  | .ses => cmd.ses.toNat
  | .pil => cmd.pil.toNat
  | .pi => cmd.pi.toNat
  | .ms => cmd.ms.toNat
  | .lbaf => cmd.lbaf.toNat

/-- The command of a namespace has its ID and the values in its `dw10`. -/
structure IsCmdOf (ns : Node × List Node) (cmd : FormatDUT) : Prop where
  nsid : ∃ v, ⟨"id", v⟩ ∈ ns.1.attr ∧ numeral 10 v.toList = some cmd.nsid.toNat
  dw10 : ∃ nodes vs, ownDw10 ns.2 = some nodes ∧ GivesValues nodes vs ∧ ∀ field, cmd.get field = lastValues vs field

/-- The values that the parser comes to from a namespace on amount to those in the `dw10` of the namespace. -/
def Undisturbed (ns : Node × List Node) : Prop :=
  ∀ nodes own vs ownVs, findDw10 ns.2 = some nodes → values (Streams.upTo Node.endsDw10 nodes) = some vs →
    ownDw10 ns.2 = some own → values own = some ownVs → assign .zero vs = assign .zero ownVs

/-! ## The namespaces of a tree -/

/-- The children of the `dw10` of a namespace. -/
def Xml.dw10? (xs : List Xml) : Option (List Xml) := (Xml.child? "cmd" xs).bind (Xml.child? "dw10")

/-- Only what a namespace contains is looked at. -/
theorem ownDw10_content (xmlFile : List Node) : ownDw10 (content 1 xmlFile) = ownDw10 xmlFile := by
  rw [ownDw10, ownDw10, content, content, List.takeWhile_idem]

theorem ownDw10_nodesAll (xs : List Xml) : ownDw10 (Xml.nodesAll 2 xs) = (Xml.dw10? xs).map (Xml.nodesAll 4) := by
  have hcontent : content 1 (Xml.nodesAll 2 xs) = Xml.nodesAll 2 xs := by
    have h := @Xml.content_nodes 1 xs [] nofun
    rwa [List.append_nil] at h
  calc ownDw10 (Xml.nodesAll 2 xs)
      = ((Streams.seek (·.isElement "cmd" 2) (Xml.nodesAll 2 xs)).map (content 2 ·.2)).bind fun cmd =>
          (Streams.seek (·.isElement "dw10" 3) cmd).map (content 3 ·.2) := by
        rw [ownDw10, hcontent, Option.bind_map]
        rfl
    _ = (Xml.child? "cmd" xs).bind fun cmd => (Xml.child? "dw10" cmd).map (Xml.nodesAll 4) := by
        rw [Xml.seek_nodesAll, Option.bind_map]
        exact congrArg _ (funext fun cmd => Xml.seek_nodesAll "dw10" cmd)
    _ = (Xml.dw10? xs).map (Xml.nodesAll 4) := by rw [Xml.dw10?, Option.map_bind]; rfl

/-- **The namespaces of a document are the children of its `format`**, each with its attributes and its own values. -/
theorem namespaces_nodes {before behind : List Node} {attr : List AttribXML} {xs : List Xml} {wellFormed : Bool}
    (hbefore : ∀ n ∈ before, n.named "format" 0 = false) (hbehind : ∀ n ∈ behind, n.depth = 0) :
    (XmlFile.mk (before ++ Xml.nodes 0 (.element "format" attr xs) ++ behind) wellFormed).namespaces.map
        (fun ns => (ns.1.attr, ownDw10 ns.2)) =
      (xs.filterMap (Xml.tag? "namespace")).map fun t => (t.1, (Xml.dw10? t.2).map (Xml.nodesAll 4)) := by
  have hbody : (XmlFile.mk (before ++ Xml.nodes 0 (.element "format" attr xs) ++ behind) wellFormed).body =
      Xml.nodesAll 1 xs ++ (.endTag 0 "format" attr :: behind) := by
    have hformat : (Node.startTag 0 "format" attr).named "format" 0 = true := by simp [Node.named, Node.startTag]
    rw [XmlFile.body, ← Streams.head?_hits, List.append_assoc, Streams.hits_append hbefore, Streams.head?_hits,
      Xml.nodes, List.cons_append, Streams.seek, if_pos hformat]
    simp
  have hrest : ∀ n ∈ Node.endTag 0 "format" attr :: behind, n.depth = 0 := List.forall_mem_cons.2 ⟨rfl, hbehind⟩
  have hhead : ∀ n ∈ (Node.endTag 0 "format" attr :: behind).head?, n.depth ≤ 1 := by
    intro n hn
    cases hn
    exact Nat.zero_le 1
  have hnone : ∀ n ∈ Node.endTag 0 "format" attr :: behind, n.isElement "namespace" 1 = false := fun n hn => by
    simp [Node.isElement, hrest n hn]
  have hhits := congrArg (List.map fun h => (h.1, ownDw10 h.2)) (Xml.hits_nodesAll "namespace" xs hhead hnone)
  simp only [List.map_map, Function.comp_def, ownDw10_content] at hhits
  rw [XmlFile.namespaces, hbody, hhits]
  exact List.map_congr_left fun t _ => by rw [ownDw10_nodesAll]

/-! ## Commands -/

theorem FormatDUT.ext_get {cmd cmd' : FormatDUT} (hnsid : cmd.nsid = cmd'.nsid)
    (hget : ∀ field, cmd.get field = cmd'.get field) : cmd = cmd' := by
  have hbool : ∀ b b' : Bool, b.toNat = b'.toNat → b = b' := by decide
  have hses := UInt8.toNat_inj.1 (hget .ses)
  have hpil := hbool _ _ (hget .pil)
  have hpi := UInt8.toNat_inj.1 (hget .pi)
  have hms := hbool _ _ (hget .ms)
  have hlbaf := UInt8.toNat_inj.1 (hget .lbaf)
  cases cmd
  cases cmd'
  simp_all

/-- A number that fits stays what it is. -/
theorem get_set {field : Dw10Field} {value : Nat} (h : value < field.bound) (cmd : FormatDUT) :
    (cmd.set value field).get = Function.update cmd.get field value := by
  have hbool : ∀ value < 2, (value != 0).toNat = value := by decide
  have hget : (cmd.set value field).get field = value := by
    cases field with
    | ses => exact UInt8.toNat_ofNat_of_lt' h
    | pil => exact hbool value h
    | pi => exact UInt8.toNat_ofNat_of_lt' h
    | ms => exact hbool value h
    | lbaf => exact UInt8.toNat_ofNat_of_lt' h
  funext field'
  by_cases hne : field' = field
  · subst hne
    rw [Function.update_self, hget]
  · rw [Function.update_of_ne hne]
    cases field <;> cases field' <;> first | rfl | exact absurd rfl hne

theorem assign_nsid (cmd : FormatDUT) (nsid : UInt32) (vs : List (Dw10Field × List Char)) :
    assign { cmd with nsid := nsid } vs = { assign cmd vs with nsid := nsid } := by
  induction vs generalizing cmd with
  | nil => rfl
  | cons v vs ih =>
    have hset : { cmd with nsid := nsid }.set (strtoul 16 v.2) v.1 =
        { cmd.set (strtoul 16 v.2) v.1 with nsid := nsid } := by
      cases v.1 <;> rfl
    exact (congrArg (assign · vs) hset).trans (ih _)

theorem nsid_assign (cmd : FormatDUT) (vs : List (Dw10Field × List Char)) : (assign cmd vs).nsid = cmd.nsid := by
  have h := congrArg FormatDUT.nsid (assign_nsid cmd cmd.nsid vs)
  exact h

theorem get_assign (nsid : UInt32) (cmd : FormatDUT) (vs : List (Dw10Field × List Char)) (field : Dw10Field) :
    (assign { cmd with nsid := nsid } vs).get field = (assign cmd vs).get field := by
  rw [assign_nsid]
  cases field <;> rfl

theorem values_append {blanks : List Node} (h : ∀ b ∈ blanks, b.isSkipped = true) (nodes : List Node) :
    values (blanks ++ nodes) = values nodes := by
  induction blanks with
  | nil => rfl
  | cons b blanks ih =>
    obtain ⟨hb, hblanks⟩ := List.forall_mem_cons.1 h
    rw [List.cons_append, values_skipped hb, ih hblanks]

theorem isSkipped_of_isBlank {n : Node} (h : n.isBlank = true) : n.isSkipped = true := by
  rw [Node.isSkipped]
  exact Bool.or_eq_true_iff.2 (.inl h)

/-- The assignments of the parser give the fields the values of the document. -/
theorem GivesValues.assigned {nodes : List Node} {vs : List (Dw10Field × Nat)} (h : GivesValues nodes vs) :
    ∃ texts, values nodes = some texts ∧
      ∀ cmd, (assign cmd texts).get = vs.foldl (fun value v => Function.update value v.1 v.2) cmd.get := by
  induction h with
  | nil => exact ⟨[], rfl, fun _ => rfl⟩
  | blank hn _ ih =>
    obtain ⟨texts, htexts, hassign⟩ := ih
    exact ⟨texts, (values_skipped (isSkipped_of_isBlank hn)).trans htexts, hassign⟩
  | @field n text e blanks nodes field value vs hn hfield htext hvalue hbound hblanks he _ _ ih =>
    obtain ⟨texts, htexts, hassign⟩ := ih
    have hskip : values (blanks ++ e :: nodes) = some texts := by
      rw [values_append fun b hb => isSkipped_of_isBlank (hblanks b hb), values_skipped (by simp [Node.isSkipped, he]),
        htexts]
    refine ⟨(field, text.text) :: texts, ?_, fun cmd => ?_⟩
    · rw [values_element hn, if_pos htext, hfield, hskip]
      rfl
    · have hlt : value < 2 ^ 64 := hbound.trans (by cases field <;> decide)
      have hset : (cmd.set (strtoul 16 text.text) field).get = Function.update cmd.get field value := by
        rw [strtoul_of_numeral hvalue hlt, get_set hbound]
      exact (hassign _).trans (by rw [hset, List.foldl_cons])

theorem GivesValues.assigned_zero {nodes : List Node} {vs : List (Dw10Field × Nat)} (h : GivesValues nodes vs) :
    ∃ texts, values nodes = some texts ∧ ∀ field, (assign .zero texts).get field = lastValues vs field := by
  obtain ⟨texts, htexts, hassign⟩ := h.assigned
  have hzero : FormatDUT.zero.get = fun _ => 0 := funext fun field => by cases field <;> rfl
  exact ⟨texts, htexts, fun field => by rw [hassign, hzero]; rfl⟩

/-! ## One namespace -/

section Namespace

variable {ns : Node × List Node} {xmlFile nodes own : List Node}

/-- The searches of the parser do not leave a namespace that has a `dw10`. -/
theorem findDw10_of_own (h : ownDw10 xmlFile = some own) :
    ∃ inside nodes, xmlFile = inside ++ nodes ∧ findDw10 xmlFile = some nodes ∧ ∀ n ∈ inside, 1 < n.depth := by
  obtain ⟨⟨cmd, rest⟩, hcmd, hfound⟩ := Option.bind_eq_some_iff.1 h
  obtain ⟨⟨dw10, rest'⟩, hdw10, rfl⟩ := Option.map_eq_some_iff.1 hfound
  obtain ⟨n, l, hn, hsuffix⟩ := Streams.seek_mono Node.named_of_isElement hcmd
  obtain ⟨hisDw10, l', heq, _⟩ := Streams.seek_eq_some hdw10
  have hmem : dw10 ∈ l := by
    have hcontent : dw10 ∈ content 2 rest := heq ▸ List.mem_append_right l' List.mem_cons_self
    exact hsuffix.subset ((List.takeWhile_sublist _).subset hcontent)
  obtain ⟨n', r, hn'⟩ := Streams.exists_seek hmem (Node.named_of_isElement dw10 hisDw10)
  obtain ⟨_, l₁, heq₁, _⟩ := Streams.seek_eq_some hn
  obtain ⟨_, l₂, heq₂, _⟩ := Streams.seek_eq_some hn'
  have hsplit : content 1 xmlFile ++ xmlFile.dropWhile (1 < ·.depth) = xmlFile := List.takeWhile_append_dropWhile
  have hinside : content 1 xmlFile = l₁ ++ n :: (l₂ ++ [n']) ++ r := by rw [heq₁, heq₂]; simp
  refine ⟨l₁ ++ n :: (l₂ ++ [n']), r ++ xmlFile.dropWhile (1 < ·.depth), ?_, ?_, fun m hm => ?_⟩
  · rw [← List.append_assoc, ← hinside, hsplit]
  · have hseek := Streams.seek_append hn (xmlFile.dropWhile (1 < ·.depth))
    rw [hsplit] at hseek
    rw [findDw10, hseek, Option.bind_some, Streams.seek_append hn']
    rfl
  · have hcontent : m ∈ content 1 xmlFile := hinside ▸ List.mem_append_left r hm
    simpa using List.mem_takeWhile_imp hcontent

/-- Nor does the loop over values get past the start of the next one. -/
theorem values_no_namespace {vs : List (Dw10Field × List Char)} (h : values nodes = some vs) :
    ∀ n ∈ nodes, n.isElement "namespace" 1 = false := by
  induction nodes using values.induct generalizing vs with
  | case1 => nofun
  | case2 n nodes hskip ih =>
    rw [values_skipped hskip] at h
    have htype : n.nodeType ≠ .element := fun htype => absurd hskip (by simp [not_isSkipped htype])
    exact List.forall_mem_cons.2 ⟨by simp [Node.isElement, htype], ih h⟩
  | case3 n _ htype => simp [values, htype, not_isSkipped htype] at h
  | case4 n _ htype next nodes htext ih =>
    rw [values_element htype, if_pos htext] at h
    obtain ⟨field, hfield, hrest⟩ := Option.bind_eq_some_iff.1 h
    obtain ⟨vs', hvs', _⟩ := Option.map_eq_some_iff.1 hrest
    have hname : n.name ≠ "namespace" := fun hname => by
      rw [hname] at hfield
      cases hfield
    refine List.forall_mem_cons.2 ⟨by simp [Node.isElement, hname], List.forall_mem_cons.2 ⟨?_, ih hvs'⟩⟩
    simp [Node.isElement, htext]
  | case5 n _ htype next nodes htext =>
    rw [values_element htype, if_neg htext] at h
    cases h
  | case6 n nodes hskip htype =>
    rw [values_unsupported (Bool.eq_false_iff.2 hskip) htype] at h
    cases h

/-- **The command that the parser gives a namespace is its own exactly if the namespace has one**, and no other values
come in between. -/
theorem roundAt_cmd_iff {wellFormed : Bool} (hpasses : (roundAt ns).Passes wellFormed)
    (hown : ownDw10 ns.2 = some own) : (∃ cmd, (roundAt ns).cmd = some cmd ∧ IsCmdOf ns cmd) ↔
      (∃ cmd, IsCmdOf ns cmd) ∧ Undisturbed ns := by
  obtain ⟨_, nodes, _, hfind, _⟩ := findDw10_of_own hown
  have hdw10 : (roundAt ns).dw10 = some (Streams.upTo Node.endsDw10 nodes) := by simp [roundAt, hfind]
  obtain ⟨vs, hvs⟩ := hpasses.values _ hdw10
  have hcmd : (roundAt ns).cmd = some (assign { FormatDUT.zero with nsid := nsidOf ns.1.attr } vs) := by
    rw [Round.cmd, hdw10, Option.bind_some, hvs]
    rfl
  constructor
  · rintro ⟨cmd, hcmd', hns⟩
    refine ⟨⟨cmd, hns⟩, fun nodes' own₂ vs' ownVs hfind' hvs' hown₂ hownVs => ?_⟩
    obtain ⟨own', l, hown', hgives, hget⟩ := hns.dw10
    obtain ⟨texts, htexts, hlast⟩ := hgives.assigned_zero
    obtain rfl := Option.some.inj (hcmd.symm.trans hcmd')
    obtain rfl := Option.some.inj (hfind.symm.trans hfind')
    obtain rfl := Option.some.inj (hvs.symm.trans hvs')
    obtain rfl := Option.some.inj (hown'.symm.trans hown₂)
    obtain rfl := Option.some.inj (htexts.symm.trans hownVs)
    refine FormatDUT.ext_get (by rw [nsid_assign, nsid_assign]) fun field => ?_
    rw [← get_assign (nsidOf ns.1.attr), hget, hlast]
  · rintro ⟨⟨cmd, ⟨v, hv, hnum⟩, own', l, hown', hgives, hget⟩, hund⟩
    obtain ⟨texts, htexts, hlast⟩ := hgives.assigned_zero
    obtain ⟨v', hattr⟩ := hpasses.id
    have hsame : assign .zero vs = assign .zero texts := hund nodes own' vs texts hfind hvs hown' htexts
    have hnsid : nsidOf ns.1.attr = cmd.nsid := by
      replace hattr : ns.1.attr = [⟨"id", v'⟩] := hattr
      obtain rfl : v = v' := by simpa [hattr] using hv
      have hlt : cmd.nsid.toNat < 2 ^ 64 := cmd.nsid.toNat_lt.trans (by decide)
      rw [hattr, nsidOf, strtoul_of_numeral hnum hlt, UInt32.ofNat_toNat]
    have hns : assign { FormatDUT.zero with nsid := nsidOf ns.1.attr } vs = cmd := by
      refine FormatDUT.ext_get (by rw [nsid_assign, hnsid]) fun field => ?_
      rw [get_assign, hsame, hget, hlast]
    exact ⟨cmd, hns ▸ hcmd, ⟨v, hv, hnum⟩, own', l, hown', hgives, hget⟩

/-- The round of a namespace that has a `dw10` does not get past the start of another one. -/
theorem hits_behindRound (hown : ownDw10 xmlFile = some own)
    (hvalues : ∀ nodes, findDw10 xmlFile = some nodes → ∃ vs, values (Streams.upTo Node.endsDw10 nodes) = some vs) :
    Streams.hits (·.isElement "namespace" 1) (behindRound xmlFile) =
      Streams.hits (·.isElement "namespace" 1) xmlFile := by
  obtain ⟨inside, nodes, hsplit, hfind, hdeep⟩ := findDw10_of_own hown
  obtain ⟨vs, hvs⟩ := hvalues nodes hfind
  have hinside : ∀ n ∈ inside, n.isElement "namespace" 1 = false := fun n hn => by
    have hne : n.depth ≠ 1 := Nat.ne_of_gt (hdeep n hn)
    simp [Node.isElement, hne]
  calc Streams.hits (·.isElement "namespace" 1) (behindRound xmlFile)
      = Streams.hits (·.isElement "namespace" 1) (Streams.beyond Node.endsDw10 nodes) := by rw [behindRound, hfind]; rfl
    _ = Streams.hits (·.isElement "namespace" 1) nodes := by
        rw [← Streams.hits_append (values_no_namespace hvs), Streams.upTo_append_beyond]
    _ = Streams.hits (·.isElement "namespace" 1) xmlFile := by rw [hsplit, Streams.hits_append hinside]

end Namespace

/-! ## The document -/

theorem isElement_eq_false {name : String} {depth : Nat} {n : Node} (h : n.named name depth = false) :
    n.isElement name depth = false :=
  Bool.eq_false_iff.2 fun helement => absurd (Node.named_of_isElement n helement) (by simp [h])

section Document

variable {wellFormed : Bool} {body : List Node}

/-- The rounds are those of the namespaces. -/
theorem rounds_eq_map (hpasses : ∀ r ∈ rounds body, r.Passes wellFormed)
    (hown : ∀ ns ∈ Streams.hits (·.isElement "namespace" 1) body, ∃ own, ownDw10 ns.2 = some own) :
    rounds body = (Streams.hits (·.isElement "namespace" 1) body).map roundAt := by
  induction body using rounds.induct with
  | case1 body hseek =>
    have hnone : ∀ n ∈ body, n.isElement "namespace" 1 = false := fun n hn =>
      isElement_eq_false (Streams.seek_eq_none.1 hseek n hn)
    have hhits := Streams.hits_append hnone []
    rw [List.append_nil] at hhits
    rw [rounds_none hseek, hhits]
    rfl
  | case2 body ns hseek ih =>
    rw [rounds_some hseek, List.forall_mem_cons] at hpasses
    obtain ⟨⟨⟨v, hattr⟩, hvalues, _⟩, hrest⟩ := hpasses
    obtain ⟨hnamed, l, hl, hbefore⟩ := Streams.seek_eq_some hseek
    have hns : ns.1.isElement "namespace" 1 = true :=
      Node.isElement_of_named hnamed fun hnil => by simp [roundAt, hnil] at hattr
    have hhits : Streams.hits (·.isElement "namespace" 1) body =
        ns :: Streams.hits (·.isElement "namespace" 1) ns.2 := by
      rw [hl, Streams.hits_append fun n hn => isElement_eq_false (hbefore n hn), Streams.hits, if_pos hns]
    rw [hhits, List.forall_mem_cons] at hown
    obtain ⟨⟨own, hown⟩, hownRest⟩ := hown
    have hbehind := hits_behindRound hown fun nodes hfind => hvalues _ (by simp [roundAt, hfind])
    rw [rounds_some hseek, hhits, List.map_cons, ← hbehind]
    rw [← hbehind] at hownRest
    exact congrArg (roundAt ns :: ·) (ih hrest hownRest)

theorem forall₂_filterMap {α β : Type} {R : α → β → Prop} {g : α → Option β} {l : List α}
    (h : ∀ a ∈ l, ∃ b, g a = some b) : List.Forall₂ R l (l.filterMap g) ↔ ∀ a ∈ l, ∃ b, g a = some b ∧ R a b := by
  induction l with
  | nil => simp
  | cons a l ih =>
    obtain ⟨⟨b, hb⟩, hl⟩ := List.forall_mem_cons.1 h
    rw [List.filterMap_cons_some hb, List.forall₂_cons, ih hl, List.forall_mem_cons]
    simp [hb]

theorem exists_of_forall₂ {α β : Type} {R : α → β → Prop} {l : List α} {l' : List β} (h : List.Forall₂ R l l') :
    ∀ a ∈ l, ∃ b, R a b := by
  induction h with
  | nil => nofun
  | cons hab _ ih => exact List.forall_mem_cons.2 ⟨⟨_, hab⟩, ih⟩

/-- The commands of the rounds are those of the namespaces if every namespace has one that is undisturbed. -/
theorem forall₂_rounds_iff (hpasses : ∀ r ∈ rounds body, r.Passes wellFormed)
    (hown : ∀ ns ∈ Streams.hits (·.isElement "namespace" 1) body, ∃ own, ownDw10 ns.2 = some own) :
    List.Forall₂ IsCmdOf (Streams.hits (·.isElement "namespace" 1) body) ((rounds body).filterMap Round.cmd) ↔
      ∀ ns ∈ Streams.hits (·.isElement "namespace" 1) body, (∃ cmd, IsCmdOf ns cmd) ∧ Undisturbed ns := by
  have hround : ∀ ns ∈ Streams.hits (·.isElement "namespace" 1) body, (roundAt ns).Passes wellFormed :=
    fun ns hns => hpasses (roundAt ns) (rounds_eq_map hpasses hown ▸ List.mem_map_of_mem hns)
  have hcmd : ∀ ns ∈ Streams.hits (·.isElement "namespace" 1) body, ∃ cmd, (roundAt ns).cmd = some cmd :=
    fun ns hns => by
      obtain ⟨own, hown⟩ := hown ns hns
      obtain ⟨_, nodes, _, hfind, _⟩ := findDw10_of_own hown
      exact Option.isSome_iff_exists.1 ((hround ns hns).cmd_isSome.2 ⟨_, by rw [roundAt, hfind]; rfl⟩)
  rw [rounds_eq_map hpasses hown, List.filterMap_map]
  refine (forall₂_filterMap hcmd).trans (forall₂_congr fun ns hns => ?_)
  obtain ⟨own, hown⟩ := hown ns hns
  exact roundAt_cmd_iff (hround ns hns) hown

end Document

theorem IsCmdOf.exists_own {ns : Node × List Node} {cmd : FormatDUT} (h : IsCmdOf ns cmd) :
    ∃ own, ownDw10 ns.2 = some own := by
  obtain ⟨own, _, hown, _⟩ := h.dw10
  exact ⟨own, hown⟩

/-- If the option is parsed, the commands are those of the namespaces, in the order of the document. -/
def XmlFile.Maps (xmlFile : XmlFile) (format : Format) : Prop :=
  ∀ format', parseFormatCmdLine format xmlFile = (format', true) →
    List.Forall₂ IsCmdOf xmlFile.namespaces format'.cmds

/-- **When the commands are those of the namespaces**: every namespace of a document that passes the checks of the
parser has a command, and that is undisturbed. -/
theorem maps_iff (xmlFile : XmlFile) (format : Format) : xmlFile.Maps format ↔
    (xmlFile.Passes → ∀ ns ∈ xmlFile.namespaces, (∃ cmd, IsCmdOf ns cmd) ∧ Undisturbed ns) := by
  have hparsed : xmlFile.Maps format ↔ (xmlFile.Passes →
      List.Forall₂ IsCmdOf xmlFile.namespaces ((rounds xmlFile.body).filterMap Round.cmd)) := by
    simp only [XmlFile.Maps, parseFormatCmdLine_iff]
    exact ⟨fun h hpasses => h _ ⟨hpasses, rfl⟩, fun h _ ⟨hpasses, hformat⟩ => hformat ▸ h hpasses⟩
  rw [hparsed]
  refine forall_congr' fun hpasses => ⟨fun h => ?_, fun h => ?_⟩
  · have hown : ∀ ns ∈ xmlFile.namespaces, ∃ own, ownDw10 ns.2 = some own := fun ns hns => by
      obtain ⟨cmd, hcmd⟩ := exists_of_forall₂ h ns hns
      exact hcmd.exists_own
    exact (forall₂_rounds_iff hpasses.passes hown).1 h
  · have hown : ∀ ns ∈ xmlFile.namespaces, ∃ own, ownDw10 ns.2 = some own := fun ns hns => by
      obtain ⟨⟨cmd, hcmd⟩, _⟩ := h ns hns
      exact hcmd.exists_own
    exact (forall₂_rounds_iff hpasses.passes hown).2 h

/-! ## A document that is parsed wrongly -/

/-- A document whose first namespace has no `cmd`. -/
def withoutCmd : XmlFile where
  nodes := Xml.nodes 0 <| .element "format" [] [
    .element "namespace" [⟨"id", "1"⟩] [],
    .element "namespace" [⟨"id", "2"⟩] [
      .element "cmd" [] [.element "dw10" [] [.element "ses" [] [.leaf .text "#text" (some "0x01") (by decide)]]]]]
  wellFormed := true

/-- It is parsed, and namespace 1 gets the values of namespace 2. -/
theorem withoutCmd_not_maps : ¬withoutCmd.Maps ⟨false, []⟩ := by
  intro hmaps
  have hparse : parseFormatCmdLine ⟨false, []⟩ withoutCmd = (⟨true, [⟨1, 1, 0, 0, false, false⟩]⟩, true) := by
    decide +kernel
  have hlength : withoutCmd.namespaces.length = 2 := by decide
  exact absurd (hmaps _ hparse).length_eq (by simp [hlength])

end Tnvme
