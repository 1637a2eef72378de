import Tnvme.Info.Identify

/-!
# The singleton `gInformative`

`Informative` holds the Identify data of the controller and of its namespaces. Its getters go through the namespaces
from 1 to the number NN that the data of the controller state, and ask `IdentifyNamespace` for the type of each.

If the structures of all these namespaces are there, the getters split the namespaces by type (`seek_eq`), and the lists
are a partition (`namespaces_partition`).
-/

namespace Tnvme

open Fields Identify

/-- A loop that collects what it wants. -/
theorem foldlM_filter {α ε : Type} {p : α → Bool} {body : List α → α → Except ε (List α)} {as : List α}
    (h : ∀ a ∈ as, ∀ acc, body acc a = .ok (if p a then acc ++ [a] else acc)) (acc : List α) :
    as.foldlM body acc = .ok (acc ++ as.filter p) := by
  induction as generalizing acc with
  | nil => simp [pure, Except.pure]
  | cons a as ih =>
    have hbody := h a List.mem_cons_self acc
    rw [List.foldlM_cons, hbody]
    change as.foldlM body (if p a then acc ++ [a] else acc) = _
    rw [ih fun b hb => h b (List.mem_cons_of_mem a hb)]
    cases hp : p a <;> simp [hp]

structure Informative where
  mGetFeaturesNumOfQ : BitVec 32
  mIdentifyCmdCtrlr : Option Identify
  /-- Pointers; `none` is the null pointer. -/
  mIdentifyCmdNamspc : List (Option Identify)
  deriving DecidableEq, Repr

/-- `Informative::Namspc` -/
structure Namspc where
  idCmdNamspc : Option Identify
  id : Nat
  type : NamspcType
  deriving DecidableEq, Repr

namespace Informative

variable (s : Informative)

def getIdentifyCmdCtrlr : Ret Identify :=
  match s.mIdentifyCmdCtrlr with
  | none => .error .threw
  | some idCmdCtrlr => .ok idCmdCtrlr

/-- The null pointer stands for a namespace that is out of range. -/
def getIdentifyCmdNamspc (namspcId : Nat) : Ret (Option Identify) :=
  if namspcId > s.mIdentifyCmdNamspc.length then .ok none
  else if namspcId = 0 then .ok none
  else
    match s.mIdentifyCmdNamspc[namspcId - 1]? with
    | some (some idCmdNamspc) => .ok (some idCmdNamspc)
    | _ => .error .threw

def identifyNamespace (idCmdNamspc : Option Identify) : Ret NamspcType :=
  match idCmdNamspc with
  | none => .error .usedNull
  | some idCmdNamspc => do
    let lbaFmt ← idCmdNamspc.getLBAFormat
    if lbaFmt.MS = 0 then return .bare
    else
      let dps ← idCmdNamspc.getValueNamspc .dps
      let flbas ← idCmdNamspc.getValueNamspc .flbas
      if dps.setWidth 8 &&& 0x07#8 = 0#8 then
        if flbas.setWidth 8 &&& 1#8 <<< 4 = 0#8 then return .metaS else return .metaI
      else
        if flbas.setWidth 8 &&& 1#8 <<< 4 = 0#8 then return .e2eS else return .e2eI

/-- The Number of Namespaces, a `uint32_t`. -/
def getNN : Ret Nat := do
  let idCmdCtrlr ← s.getIdentifyCmdCtrlr
  let nn ← idCmdCtrlr.getValueCtrlr .nn
  return (nn.setWidth 32).toNat

/-- The loop of the getters. -/
def seek (want : NamspcType → Bool) : Ret (List Nat) := do
  let nn ← s.getNN
  (List.range' 1 nn).foldlM (fun ns i => do
    let nsPtr ← s.getIdentifyCmdNamspc i
    let nsType ← identifyNamespace nsPtr
    return if want nsType then ns ++ [i] else ns) []

def getBareNamespaces : Ret (List Nat) := s.seek (· = .bare)

def getMetaNamespaces : Ret (List Nat) := s.seek fun nsType => nsType = .metaI || nsType = .metaS

def getMetaINamespaces : Ret (List Nat) := s.seek (· = .metaI)

def getMetaSNamespaces : Ret (List Nat) := s.seek (· = .metaS)

def getE2eNamespaces : Ret (List Nat) := s.seek fun nsType => nsType = .e2eI || nsType = .e2eS

def getE2eINamespaces : Ret (List Nat) := s.seek (· = .e2eI)

def getE2eSNamespaces : Ret (List Nat) := s.seek (· = .e2eS)

/-- The first one of a list, or else what comes next. -/
def firstOf (namspc : Ret (List Nat)) (type : NamspcType) (next : Ret Namspc) : Ret Namspc := do
  match ← namspc with
  | [] => next
  | id :: _ =>
    let idCmdNamspc ← s.getIdentifyCmdNamspc id
    return ⟨idCmdNamspc, id, type⟩

def get1stBareMetaE2E : Ret Namspc :=
  s.firstOf s.getBareNamespaces .bare <|
  s.firstOf s.getMetaSNamespaces .metaS <|
  s.firstOf s.getMetaINamespaces .metaI <|
  s.firstOf s.getE2eSNamespaces .e2eS <|
  s.firstOf s.getE2eINamespaces .e2eI <|
  .error .threw

/-! ## The types of the namespaces -/

/-- **The classification agrees with the one of the packed structure.** -/
theorem identifyNamespace_eq {cmd : Identify} (h : cmd.IsNamspc) :
    identifyNamespace (some cmd) = .ok (IdNamespcStruct.ofData cmd.data).getNamespaceType := by
  have hdps : cmd.getValueNamspc .dps = .ok ((IdNamespcStruct.ofData cmd.data).DPS.setWidth 64) :=
    (getValueNamspc_eq h (by decide)).trans (congrArg Except.ok (readLE_one cmd.data 29))
  have hflbas : cmd.getValueNamspc .flbas = .ok ((IdNamespcStruct.ofData cmd.data).FLBAS.setWidth 64) :=
    (getValueNamspc_eq h (by decide)).trans (congrArg Except.ok (readLE_one cmd.data 26))
  rw [identifyNamespace, getLBAFormat_eq h, hdps, hflbas]
  generalize IdNamespcStruct.ofData cmd.data = t
  have hpi := isMetaPI_iff t
  have hsep := isMetaDataSeparate_iff t
  change (if t.getLBAFormat.MS = 0 then Except.ok NamspcType.bare
    else if (t.DPS.setWidth 64).setWidth 8 &&& 0x07#8 = 0#8 then
      if (t.FLBAS.setWidth 64).setWidth 8 &&& 1#8 <<< 4 = 0#8 then .ok .metaS else .ok .metaI
    else if (t.FLBAS.setWidth 64).setWidth 8 &&& 1#8 <<< 4 = 0#8 then .ok .e2eS else .ok .e2eI) = _
  rw [IdNamespcStruct.getNamespaceType, IdNamespcStruct.getMetaDataSize]
  by_cases hMS : t.getLBAFormat.MS = 0
  · rw [if_pos hMS, if_pos hMS]
  · rw [if_neg hMS, if_neg hMS]
    simp only [hpi, hsep]
    cases t.isMetaPI <;> cases t.isMetaDataSeparate <;> rfl

/-- The structures of the controller and of all its `nn` namespaces are there. -/
structure Present (nn : Nat) : Prop where
  ctrlr : ∃ cmd, s.mIdentifyCmdCtrlr = some cmd ∧ cmd.IsCtrlr ∧ ((readLE cmd.data 516 4).setWidth 32).toNat = nn
  namspc : ∀ i, 1 ≤ i → i ≤ nn → ∃ cmd, s.mIdentifyCmdNamspc[i - 1]? = some (some cmd) ∧ cmd.IsNamspc

/-- The type that the packed structure of a namespace states. -/
def typeOf (i : Nat) : NamspcType :=
  match s.mIdentifyCmdNamspc[i - 1]? with
  | some (some cmd) => (IdNamespcStruct.ofData cmd.data).getNamespaceType
  | _ => .bare

/-- The namespaces of a type, in increasing order. -/
def inClass (nn : Nat) (t : NamspcType) : List Nat := (List.range' 1 nn).filter (s.typeOf · = t)

variable {s} {nn : Nat}

theorem getNN_eq (h : s.Present nn) : s.getNN = .ok nn := by
  obtain ⟨cmd, hcmd, hctrlr, hnn⟩ := h.ctrlr
  rw [getNN, getIdentifyCmdCtrlr, hcmd]
  change (do let nn ← cmd.getValueCtrlr .nn; return (nn.setWidth 32).toNat) = _
  rw [getValueCtrlr_eq hctrlr (by decide)]
  exact congrArg Except.ok hnn

/-- An identifier in range leads to the structure of its namespace. -/
theorem getIdentifyCmdNamspc_eq {i : Nat} (h1 : 1 ≤ i) {cmd : Identify}
    (hcmd : s.mIdentifyCmdNamspc[i - 1]? = some (some cmd)) : s.getIdentifyCmdNamspc i = .ok (some cmd) := by
  obtain ⟨hlen, -⟩ := List.getElem?_eq_some_iff.1 hcmd
  rw [getIdentifyCmdNamspc, if_neg (by omega), if_neg (by omega), hcmd]

/-- One round of the loop, where the structure is there. -/
theorem seek_body {i : Nat} (h1 : 1 ≤ i) {cmd : Identify} (hcmd : s.mIdentifyCmdNamspc[i - 1]? = some (some cmd))
    (hnamspc : cmd.IsNamspc) (want : NamspcType → Bool) (ns : List Nat) :
    (do
      let nsPtr ← s.getIdentifyCmdNamspc i
      let nsType ← identifyNamespace nsPtr
      return if want nsType then ns ++ [i] else ns) = Except.ok (if want (s.typeOf i) then ns ++ [i] else ns) := by
  have htype : s.typeOf i = (IdNamespcStruct.ofData cmd.data).getNamespaceType := by rw [typeOf, hcmd]
  rw [getIdentifyCmdNamspc_eq h1 hcmd, htype]
  change (do
    let nsType ← identifyNamespace (some cmd)
    return if want nsType then ns ++ [i] else ns) = _
  rw [identifyNamespace_eq hnamspc]
  rfl

theorem seek_eq (h : s.Present nn) (want : NamspcType → Bool) :
    s.seek want = .ok ((List.range' 1 nn).filter fun i => want (s.typeOf i)) := by
  rw [seek, getNN_eq h]
  refine (foldlM_filter (p := fun i => want (s.typeOf i)) (fun i hi acc => ?_) []).trans (by rw [List.nil_append])
  rw [List.mem_range'_1] at hi
  obtain ⟨cmd, hcmd, hnamspc⟩ := h.namspc i (by omega) (by omega)
  exact seek_body (by omega) hcmd hnamspc want acc

theorem mem_inClass {i : Nat} {t : NamspcType} : i ∈ s.inClass nn t ↔ (1 ≤ i ∧ i ≤ nn) ∧ s.typeOf i = t := by
  rw [inClass, List.mem_filter, List.mem_range'_1, decide_eq_true_eq]
  exact and_congr_left fun _ => by omega

theorem range_increasing (p : Nat → Bool) : ((List.range' 1 nn).filter p).Pairwise (· < ·) :=
  List.Pairwise.filter p List.pairwise_lt_range'

/-- A list that joins two classes. -/
theorem seek_union (h : s.Present nn) (t u : NamspcType) :
    ∃ ns, s.seek (fun nsType => nsType = t || nsType = u) = .ok ns ∧ ns.Pairwise (· < ·) ∧
      ∀ i, i ∈ ns ↔ i ∈ s.inClass nn t ∨ i ∈ s.inClass nn u := by
  refine ⟨_, seek_eq h _, range_increasing _, fun i => ?_⟩
  rw [mem_inClass, mem_inClass, ← and_or_left, List.mem_filter, List.mem_range'_1, Bool.or_eq_true, decide_eq_true_eq,
    decide_eq_true_eq]
  exact and_congr_left fun _ => by omega

/-! ## The first namespace of a class -/

/-- The order in which the classes are tried. -/
def priority : List NamspcType := [.bare, .metaS, .metaI, .e2eS, .e2eI]

variable (s nn) in
/-- `Get1stBareMetaE2E` over the classes of a list. -/
def firstIn (ts : List NamspcType) : Ret Namspc :=
  ts.foldr (fun t next => s.firstOf (.ok (s.inClass nn t)) t next) (.error .threw)

theorem get1stBareMetaE2E_eq (h : s.Present nn) : s.get1stBareMetaE2E = s.firstIn nn priority := by
  have hseek : ∀ t, s.seek (· = t) = .ok (s.inClass nn t) := fun t => seek_eq h _
  rw [get1stBareMetaE2E, getBareNamespaces, getMetaSNamespaces, getMetaINamespaces, getE2eSNamespaces,
    getE2eINamespaces]
  simp only [hseek]
  rfl

theorem firstIn_nil {ts : List NamspcType} (h : ∀ t ∈ ts, s.inClass nn t = []) : s.firstIn nn ts = .error .threw := by
  induction ts with
  | nil => rfl
  | cons t ts ih =>
    change s.firstOf (.ok (s.inClass nn t)) t (s.firstIn nn ts) = _
    rw [h t List.mem_cons_self]
    exact ih fun u hu => h u (List.mem_cons_of_mem t hu)

/-- The classes before are empty: the first namespace of the class comes back. -/
theorem firstIn_append (hpres : s.Present nn) {before after : List NamspcType} {t : NamspcType}
    (hbefore : ∀ u ∈ before, s.inClass nn u = []) {id : Nat} {rest : List Nat} (hid : s.inClass nn t = id :: rest) :
    ∃ cmd, s.mIdentifyCmdNamspc[id - 1]? = some (some cmd) ∧
      s.firstIn nn (before ++ t :: after) = .ok ⟨some cmd, id, t⟩ := by
  induction before with
  | nil =>
    obtain ⟨⟨h1, hnn⟩, -⟩ := mem_inClass.1 (hid ▸ List.mem_cons_self : id ∈ s.inClass nn t)
    obtain ⟨cmd, hcmd, -⟩ := hpres.namspc id h1 hnn
    refine ⟨cmd, hcmd, ?_⟩
    change s.firstOf (.ok (s.inClass nn t)) t (s.firstIn nn after) = _
    rw [hid]
    change (do let idCmdNamspc ← s.getIdentifyCmdNamspc id; return (⟨idCmdNamspc, id, t⟩ : Namspc)) = _
    rw [getIdentifyCmdNamspc_eq h1 hcmd]
    rfl
  | cons u before ih =>
    change ∃ cmd, _ ∧ s.firstOf (.ok (s.inClass nn u)) u (s.firstIn nn (before ++ t :: after)) = _
    rw [hbefore u List.mem_cons_self]
    exact ih fun v hv => hbefore v (List.mem_cons_of_mem u hv)

/-- **The classification is a partition.** The lists of the five types are increasing, pairwise disjoint and together
hold exactly the namespaces from 1 to NN. The joint lists are the increasing unions of their parts, the first namespace
is the lowest one of the first class that is not empty, and the type is the one the packed structure states. -/
theorem namespaces_partition {s : Informative} {nn : Nat} (h : s.Present nn) :
    ∃ cls : NamspcType → List Nat,
      (s.getBareNamespaces = .ok (cls .bare) ∧ s.getMetaINamespaces = .ok (cls .metaI) ∧
        s.getMetaSNamespaces = .ok (cls .metaS) ∧ s.getE2eINamespaces = .ok (cls .e2eI) ∧
        s.getE2eSNamespaces = .ok (cls .e2eS)) ∧
      (∀ t, (cls t).Pairwise (· < ·)) ∧ (∀ t u, t ≠ u → (cls t).Disjoint (cls u)) ∧
      (∀ i, (∃ t, i ∈ cls t) ↔ 1 ≤ i ∧ i ≤ nn) ∧
      (∃ ns, s.getMetaNamespaces = .ok ns ∧ ns.Pairwise (· < ·) ∧ ∀ i, i ∈ ns ↔ i ∈ cls .metaI ∨ i ∈ cls .metaS) ∧
      (∃ ns, s.getE2eNamespaces = .ok ns ∧ ns.Pairwise (· < ·) ∧ ∀ i, i ∈ ns ↔ i ∈ cls .e2eI ∨ i ∈ cls .e2eS) ∧
      (∀ before t after id rest, priority = before ++ t :: after → (∀ u ∈ before, cls u = []) → cls t = id :: rest →
        (∀ i ∈ cls t, id ≤ i) ∧ ∃ cmd, s.mIdentifyCmdNamspc[id - 1]? = some (some cmd) ∧
          s.get1stBareMetaE2E = .ok ⟨some cmd, id, t⟩) ∧
      ((∀ t, cls t = []) → s.get1stBareMetaE2E = .error .threw) ∧
      ∀ t, ∀ i ∈ cls t, ∃ cmd, s.mIdentifyCmdNamspc[i - 1]? = some (some cmd) ∧
        identifyNamespace (some cmd) = .ok t ∧ (IdNamespcStruct.ofData cmd.data).getNamespaceType = t := by
  refine ⟨s.inClass nn, ⟨seek_eq h _, seek_eq h _, seek_eq h _, seek_eq h _, seek_eq h _⟩, fun t => range_increasing _,
    fun t u htu i hit hiu => ?_, fun i => ?_, seek_union h _ _, seek_union h _ _,
    fun before t after id rest hsplit hbefore hid => ⟨fun i hi => ?_, ?_⟩, fun hempty => ?_, fun t i hi => ?_⟩
  · exact htu ((mem_inClass.1 hit).2.symm.trans (mem_inClass.1 hiu).2)
  · refine ⟨fun ⟨t, ht⟩ => (mem_inClass.1 ht).1, fun hi => ⟨s.typeOf i, mem_inClass.2 ⟨hi, rfl⟩⟩⟩
  · have hincr : (s.inClass nn t).Pairwise (· < ·) := range_increasing _
    rw [hid] at hincr
    rw [hid, List.mem_cons] at hi
    obtain rfl | hi := hi
    · exact le_rfl
    · exact (List.rel_of_pairwise_cons hincr hi).le
  · rw [get1stBareMetaE2E_eq h, hsplit]
    exact firstIn_append h hbefore hid
  · rw [get1stBareMetaE2E_eq h]
    exact firstIn_nil fun t _ => hempty t
  · obtain ⟨⟨h1, hnn⟩, htype⟩ := mem_inClass.1 hi
    obtain ⟨cmd, hcmd, hnamspc⟩ := h.namspc i h1 hnn
    have hpacked : (IdNamespcStruct.ofData cmd.data).getNamespaceType = t := by rw [← htype, typeOf, hcmd]
    exact ⟨cmd, hcmd, hpacked ▸ identifyNamespace_eq hnamspc, hpacked⟩

/-- The structure of a namespace: its blocks have so much meta data, FLBAS and DPS are the bytes 26 and 29. -/
def namspcWith (flbas dps ms : BitVec 8) : Identify :=
  ⟨0, (((List.replicate 4096 0).set 26 flbas).set 29 dps).set 128 ms⟩

/-- A controller with four namespaces: two bare ones, one with separate meta data, and one with protected interleaved
meta data. -/
def fourNamespaces : Informative :=
  ⟨0, some ⟨put 320 1#8 0, (List.replicate 4096 0).set 516 4⟩,
    [some (namspcWith 0 0 0), some (namspcWith 0 0 8), some (namspcWith 0x10 1 8), some (namspcWith 0 0 0)]⟩

theorem isNamspc_namspcWith (flbas dps ms : BitVec 8) : (namspcWith flbas dps ms).IsNamspc where
  cns := by
    have hcns : (namspcWith flbas dps ms).getCNS = some CNS.namespc.code :=
      (by decide +kernel : Cmd.getByte 0 10 0 = some CNS.namespc.code)
    rw [Identify.containsNamspcDataStruct, hcns]
    decide
  size := by rw [namspcWith, List.length_set, List.length_set, List.length_set, List.length_replicate]

theorem fourNamespaces_present : fourNamespaces.Present 4 where
  ctrlr := ⟨_, rfl, ⟨by decide +kernel, by rw [List.length_set, List.length_replicate]⟩, by decide +kernel⟩
  namspc := fun i h1 hnn => by
    obtain rfl | rfl | rfl | rfl : i = 1 ∨ i = 2 ∨ i = 3 ∨ i = 4 := by omega
    all_goals exact ⟨_, rfl, isNamspc_namspcWith _ _ _⟩

theorem namespaces_partition_four : ∃ cls : NamspcType → List Nat, fourNamespaces.getBareNamespaces = .ok (cls .bare) ∧
    fourNamespaces.getMetaSNamespaces = .ok (cls .metaS) ∧ fourNamespaces.getE2eINamespaces = .ok (cls .e2eI) ∧
    ∀ i, (∃ t, i ∈ cls t) ↔ 1 ≤ i ∧ i ≤ 4 := by
  obtain ⟨cls, hlists, -, -, hall, -⟩ := namespaces_partition fourNamespaces_present
  exact ⟨cls, hlists.1, hlists.2.2.1, hlists.2.2.2.1, hall⟩

/-- All three lists have namespaces. -/
example : fourNamespaces.inClass 4 .bare = [1, 4] ∧ fourNamespaces.inClass 4 .metaS = [2] ∧
    fourNamespaces.inClass 4 .e2eI = [3] := by decide +kernel

end Informative

end Tnvme
