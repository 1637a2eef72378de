import Tnvme.Info.Informative
import Tnvme.Lib.Runs

/-!
# The runs of `gInformative`

`Reinit` clears the singleton and fills it again, one command after the other. Any of them can fail, and what was stored
before stays. `ReinitNSSafe` leaves out the namespaces. The getters take it that the structures of all the namespaces
are there: one that is missing is a null pointer to them, which they use.

A step is complete if it does not store a controller with more namespaces than structures (`Event.Complete`). The
structures are there in all the states of a run exactly if all of its steps are complete (`notMissing_iff`).
-/

namespace Tnvme

open Fields Identify Runs

/-- What a command that succeeds brings back: the identifier that `Send` has put into it, and its buffer of
`IDEAL_DATA_SIZE` bytes. -/
structure Reply where
  uniqueId : BitVec 16
  data : List (BitVec 8)
  size : data.length = 4096

namespace Identify

/-- A new command that asks for a structure. `SetNSID` is for the structure of a namespace only. -/
def request (cns : CNS) (nsid : Option (BitVec 32)) (uniqueId : BitVec 16) : Option Cmd := do
  let c ← Cmd.setByte 0#512 0x06#8 0 0
  let c ← c.setByte cns.code 10 0
  let c ← nsid.elim (some c) (c.setDword · 1)
  c.setWord uniqueId 0 1

/-- The command after `SendAndReapCmd`; `none` if anything has failed, which throws. -/
def sendAndReap (cns : CNS) (nsid : Option (BitVec 32)) (reply : Option Reply) : Option Identify := do
  let reply ← reply
  let cmdBuf ← request cns nsid reply.uniqueId
  return ⟨cmdBuf, reply.data⟩

theorem request_eq (cns : CNS) (nsid : Option (BitVec 32)) (uniqueId : BitVec 16) :
    ∃ c, request cns nsid uniqueId = some c ∧ c.getByte 10 0 = some cns.code := by
  have hset (c : Cmd) (v : BitVec 8) (dw : Nat) (hdw : dw < Cmd.cmdSizeDW) :
      c.setByte v dw 0 = some (put (32 * dw) v c) := Cmd.setByte_eq hdw (by decide) v
  have hcid (c : Cmd) : c.setWord uniqueId 0 1 = some (put 16 uniqueId c) :=
    @Cmd.setWord_eq c 0 1 (by decide) (by decide) uniqueId
  have hget (c : Cmd) : c.getByte 10 0 = some (get 320 8 c) := @Cmd.getByte_eq c 10 0 (by decide) (by decide)
  rw [request, hset _ _ 0 (by decide)]
  generalize put (32 * 0) _ _ = c
  rw [Option.bind_eq_bind, Option.bind_some, hset _ _ 10 (by decide)]
  cases nsid with
  | none =>
    refine ⟨_, hcid _, ?_⟩
    rw [hget, get_put_of_apart (by decide), get_put (by decide)]
  | some nsid =>
    have hnsid (c : Cmd) : c.setDword nsid 1 = some (put 32 nsid c) := @Cmd.setDword_eq c 1 (by decide) nsid
    simp only [Option.elim_some, hnsid, Option.bind_some]
    refine ⟨_, hcid _, ?_⟩
    rw [hget, get_put_of_apart (by decide), get_put_of_apart (by decide), get_put (by decide)]

theorem sendAndReap_some {cns : CNS} {nsid : Option (BitVec 32)} (r : Reply) :
    ∃ cmd, sendAndReap cns nsid (some r) = some cmd ∧ cmd.getCNS = some cns.code ∧ cmd.data = r.data := by
  obtain ⟨c, hc, hcns⟩ := request_eq cns nsid r.uniqueId
  refine ⟨⟨c, r.data⟩, ?_, hcns, rfl⟩
  change (do let cmdBuf ← request cns nsid r.uniqueId; return (⟨cmdBuf, r.data⟩ : Identify)) = _
  rw [hc]
  rfl

end Identify

/-- How the commands of a `Reinit` go. -/
structure Replies where
  /-- `RotateDumpDir` has succeeded. -/
  rotated : Bool
  /-- The registers are dumped. -/
  dumped : Bool
  numOfQ : Option (BitVec 32)
  ctrlr : Option Reply
  namspc : Nat → Option Reply

namespace Informative

/-- `Clear` -/
def clear : Informative := ⟨0, none, []⟩

variable (r : Replies) (s : Informative)

/-- `none`: it throws, and stores nothing. -/
def sendGetFeaturesNumOfQueues : Option Informative := do
  let dw0 ← r.numOfQ
  return { s with mGetFeaturesNumOfQ := dw0 }

def sendIdentifyCtrlrStruct : Option Informative := do
  let idCmdCtrlr ← sendAndReap .controller none r.ctrlr
  return { s with mIdentifyCmdCtrlr := some idCmdCtrlr }

/-- The loop over the namespaces; the first command that fails throws (`false`). -/
def sendIdentifyNamespaces : List Nat → Informative → Bool × Informative
  | [], s => (true, s)
  | namSpc :: rest, s =>
    match sendAndReap .namespc (some (BitVec.ofNat 32 namSpc)) (r.namspc namSpc) with
    | none => (false, s)
    | some idCmdNamSpc =>
      sendIdentifyNamespaces rest { s with mIdentifyCmdNamspc := s.mIdentifyCmdNamspc ++ [some idCmdNamSpc] }

/-- `numNamSpc` is a `uint64_t`. -/
def sendIdentifyNamespaceStruct : Bool × Informative :=
  match (do (← s.getIdentifyCmdCtrlr).getValueCtrlr .nn : Ret (BitVec 64)) with
  | .error _ => (false, s)
  | .ok numNamSpc =>
    if numNamSpc = 0 then (false, s) else sendIdentifyNamespaces r (List.range' 1 numNamSpc.toNat) s

/-- `Reinit`, and `ReinitNSSafe`, which has no last part: whether it returns, and what is stored then. -/
def reinitWith (lastPart : Informative → Bool × Informative) : Bool × Informative :=
  if !r.rotated then (false, s)
  else if !r.dumped then (false, clear)
  else
    match sendGetFeaturesNumOfQueues r clear with
    | none => (false, clear)
    | some s =>
      match sendIdentifyCtrlrStruct r s with
      | none => (false, s)
      | some s => lastPart s

def reinit : Bool × Informative := s.reinitWith r (sendIdentifyNamespaceStruct r)

def reinitNSSafe : Bool × Informative := s.reinitWith r fun s => (true, s)

/-- What is called on the singleton. -/
inductive Event where
  /-- `GetInstance`; the preparations of `Init` have succeeded or not. -/
  | getInstance (prepared : Bool) (r : Replies)
  | killInstance
  | reinit (r : Replies)
  | reinitNSSafe (r : Replies)

/-- The singleton, if there is one. -/
def step (st : Option Informative) : Event → Option Informative
  | .getInstance prepared r =>
    match st with
    | some s => some s
    | none =>
      if !prepared then none
      else
        match clear.reinit r with
        | (true, s) => some s
        | (false, _) => none
  | .killInstance => none
  | .reinit r => st.map fun s => (s.reinit r).2
  | .reinitNSSafe r => st.map fun s => (s.reinitNSSafe r).2

/-- The getters, and `IdentifyNamespace` for the namespaces that the controller has, use no structure that is
missing. -/
structure NotMissing (s : Informative) : Prop where
  bare : s.getBareNamespaces ≠ .error .usedNull
  metaData : s.getMetaNamespaces ≠ .error .usedNull
  e2e : s.getE2eNamespaces ≠ .error .usedNull
  first : s.get1stBareMetaE2E ≠ .error .usedNull
  type : ∀ nn, s.getNN = .ok nn → ∀ i, 1 ≤ i → i ≤ nn →
    (do identifyNamespace (← s.getIdentifyCmdNamspc i)) ≠ .error .usedNull

/-- What is stored are structures of the right kind. -/
structure Stored (s : Informative) : Prop where
  ctrlr : ∀ cmd ∈ s.mIdentifyCmdCtrlr, cmd.IsCtrlr
  namspc : ∀ idCmd ∈ s.mIdentifyCmdNamspc, ∃ cmd, idCmd = some cmd ∧ cmd.IsNamspc

end Informative

/-- The commands get as far as to store a controller with this many namespaces. -/
def Replies.Stores (r : Replies) (nn : Nat) : Prop :=
  r.rotated = true ∧ r.dumped = true ∧ r.numOfQ ≠ none ∧
    ∃ reply, r.ctrlr = some reply ∧ ((readLE reply.data 516 4).setWidth 32).toNat = nn

namespace Informative

/-- The step does not leave a controller with more namespaces than structures. -/
def Complete (st : Option Informative) : Event → Prop
  | .reinit r => st ≠ none → ∀ nn, r.Stores nn → ∀ i, 1 ≤ i → i ≤ nn → r.namspc i ≠ none
  | .reinitNSSafe r => st ≠ none → ∀ nn, r.Stores nn → nn = 0
  | _ => True

end Informative

/-! ## What one command stores -/

namespace Identify

variable {nsid : Option (BitVec 32)}

theorem sendAndReap_none {cns : CNS} : sendAndReap cns nsid none = none := rfl

theorem sendAndReap_namspc (r : Reply) : ∃ cmd, sendAndReap .namespc nsid (some r) = some cmd ∧ cmd.IsNamspc := by
  obtain ⟨cmd, hsend, hcns, hdata⟩ := @sendAndReap_some .namespc nsid r
  refine ⟨cmd, hsend, ?_, hdata ▸ r.size⟩
  rw [containsNamspcDataStruct, hcns]
  rfl

theorem sendAndReap_ctrlr (r : Reply) :
    ∃ cmd, sendAndReap .controller nsid (some r) = some cmd ∧ cmd.IsCtrlr ∧ cmd.data = r.data := by
  obtain ⟨cmd, hsend, hcns, hdata⟩ := @sendAndReap_some .controller nsid r
  refine ⟨cmd, hsend, ⟨?_, hdata ▸ r.size⟩, hdata⟩
  rw [containsCtrlrDataStruct, hcns]
  rfl

end Identify

namespace Informative

variable {r : Replies} {s : Informative} {nn : Nat}

/-- The loop stores valid structures, up to the first command that fails. -/
theorem sendIdentifyNamespaces_spec (is : List Nat) (s : Informative) :
    ∃ done, (sendIdentifyNamespaces r is s).2 = { s with mIdentifyCmdNamspc := s.mIdentifyCmdNamspc ++ done } ∧
      (∀ idCmd ∈ done, ∃ cmd, idCmd = some cmd ∧ cmd.IsNamspc) ∧ done.length ≤ is.length ∧
      (done.length = is.length ↔ ∀ i ∈ is, r.namspc i ≠ none) ∧
      ((sendIdentifyNamespaces r is s).1 = true ↔ ∀ i ∈ is, r.namspc i ≠ none) := by
  induction is generalizing s with
  | nil => exact ⟨[], by simp [sendIdentifyNamespaces], by simp, by simp, by simp, by simp [sendIdentifyNamespaces]⟩
  | cons i is ih =>
    cases hreply : r.namspc i with
    | none =>
      have hsend : sendIdentifyNamespaces r (i :: is) s = (false, s) := by
        rw [sendIdentifyNamespaces, hreply, sendAndReap_none]
      have hnot : ¬∀ j ∈ i :: is, r.namspc j ≠ none := fun h => h i List.mem_cons_self hreply
      refine ⟨[], ?_, by simp, by simp, iff_of_false (by simp) hnot, iff_of_false (by simp [hsend]) hnot⟩
      rw [hsend, List.append_nil]
    | some reply =>
      obtain ⟨cmd, hcmd, hnamspc⟩ := @sendAndReap_namspc (some (BitVec.ofNat 32 i)) reply
      have hsend : sendIdentifyNamespaces r (i :: is) s =
          sendIdentifyNamespaces r is { s with mIdentifyCmdNamspc := s.mIdentifyCmdNamspc ++ [some cmd] } := by
        rw [sendIdentifyNamespaces, hreply, hcmd]
      obtain ⟨done, hstate, hvalid, hlen, hall, hret⟩ :=
        ih { s with mIdentifyCmdNamspc := s.mIdentifyCmdNamspc ++ [some cmd] }
      have hcons : (∀ j ∈ i :: is, r.namspc j ≠ none) ↔ ∀ j ∈ is, r.namspc j ≠ none := by
        rw [List.forall_mem_cons, hreply]
        exact and_iff_right (by simp)
      refine ⟨some cmd :: done, ?_, ?_, ?_, ?_, ?_⟩
      · rw [hsend, hstate, List.append_assoc, List.singleton_append]
      · exact List.forall_mem_cons.2 ⟨⟨cmd, rfl, hnamspc⟩, hvalid⟩
      · simpa using hlen
      · rw [hcons, ← hall, List.length_cons, List.length_cons, Nat.add_right_cancel_iff]
      · rw [hsend, hcons, hret]

/-! ## The states -/

theorem getNN_none (h : s.mIdentifyCmdCtrlr = none) : s.getNN = .error .threw := by
  rw [getNN, getIdentifyCmdCtrlr, h]
  rfl

theorem getNN_some {cmd : Identify} (hcmd : s.mIdentifyCmdCtrlr = some cmd) (hctrlr : cmd.IsCtrlr) :
    s.getNN = .ok ((readLE cmd.data 516 4).setWidth 32).toNat := by
  rw [getNN, getIdentifyCmdCtrlr, hcmd]
  change (do let nn ← cmd.getValueCtrlr .nn; return (nn.setWidth 32).toNat) = _
  rw [getValueCtrlr_eq hctrlr (by decide)]
  rfl

/-- Enough structures are stored. -/
theorem Stored.present (h : s.Stored) (hnn : s.getNN = .ok nn) (hlen : nn ≤ s.mIdentifyCmdNamspc.length) :
    s.Present nn where
  ctrlr := by
    cases hcmd : s.mIdentifyCmdCtrlr with
    | none =>
      rw [getNN_none hcmd] at hnn
      cases hnn
    | some cmd =>
      have hctrlr := h.ctrlr cmd hcmd
      rw [getNN_some hcmd hctrlr] at hnn
      exact ⟨cmd, rfl, hctrlr, Except.ok.inj hnn⟩
  namspc i h1 hi := by
    have hidx : i - 1 < s.mIdentifyCmdNamspc.length := by omega
    obtain ⟨cmd, hcmd, hnamspc⟩ := h.namspc _ (List.getElem_mem hidx)
    exact ⟨cmd, by rw [List.getElem?_eq_getElem hidx, hcmd], hnamspc⟩

/-- The loop of the getters meets the first structure that is missing. -/
theorem seek_usedNull (h : s.Stored) (hnn : s.getNN = .ok nn) (hlen : s.mIdentifyCmdNamspc.length < nn)
    (want : NamspcType → Bool) : s.seek want = .error .usedNull := by
  obtain ⟨k, rfl⟩ : ∃ k, nn = s.mIdentifyCmdNamspc.length + (k + 1) :=
    ⟨nn - s.mIdentifyCmdNamspc.length - 1, by omega⟩
  have hfirst : ∀ i ∈ List.range' 1 s.mIdentifyCmdNamspc.length, ∀ acc : List Nat,
      (do
        let nsPtr ← s.getIdentifyCmdNamspc i
        let nsType ← identifyNamespace nsPtr
        return if want nsType then acc ++ [i] else acc) =
      Except.ok (if want (s.typeOf i) then acc ++ [i] else acc) := by
    intro i hi acc
    rw [List.mem_range'_1] at hi
    have hidx : i - 1 < s.mIdentifyCmdNamspc.length := by omega
    obtain ⟨cmd, hcmd, hnamspc⟩ := h.namspc _ (List.getElem_mem hidx)
    exact seek_body (by omega) (by rw [List.getElem?_eq_getElem hidx, hcmd]) hnamspc want acc
  have hmissing : s.getIdentifyCmdNamspc (1 + s.mIdentifyCmdNamspc.length) = .ok none := by
    rw [getIdentifyCmdNamspc, if_pos (by omega)]
  rw [seek, hnn]
  change List.foldlM _ [] (List.range' 1 _) = _
  rw [← List.range'_append_1, List.range'_succ, List.foldlM_append, foldlM_filter hfirst]
  change List.foldlM _ (_ ++ _) _ = _
  rw [List.foldlM_cons, hmissing]
  rfl

theorem firstIn_ne_usedNull (h : s.Present nn) (ts : List NamspcType) : s.firstIn nn ts ≠ .error .usedNull := by
  induction ts with
  | nil => exact fun h => by cases h
  | cons t ts ih =>
    cases hid : s.inClass nn t with
    | nil =>
      change s.firstOf (.ok (s.inClass nn t)) t (s.firstIn nn ts) ≠ _
      rw [hid]
      exact ih
    | cons id rest =>
      obtain ⟨cmd, -, hfirst⟩ := @firstIn_append s nn h [] ts t (fun _ hu => by cases hu) id rest hid
      rw [List.nil_append] at hfirst
      rw [hfirst]
      exact fun h => by cases h

/-- **The structures are there exactly if there are as many as the controller has namespaces.** -/
theorem notMissing_iff_le (h : s.Stored) :
    s.NotMissing ↔ ∀ nn, s.getNN = .ok nn → nn ≤ s.mIdentifyCmdNamspc.length := by
  constructor
  · intro hnot nn hnn
    by_contra hlen
    exact hnot.bare (seek_usedNull h hnn (Nat.lt_of_not_le hlen) _)
  · intro hle
    cases hcmd : s.mIdentifyCmdCtrlr with
    | none =>
      have hthrew (want : NamspcType → Bool) : s.seek want = .error .threw := by
        rw [seek, getNN_none hcmd]
        rfl
      have hseek (want : NamspcType → Bool) : s.seek want ≠ .error .usedNull := by
        rw [hthrew]
        exact fun h => by cases h
      refine ⟨hseek _, hseek _, hseek _, ?_, fun nn hnn => ?_⟩
      · rw [get1stBareMetaE2E, getBareNamespaces, hthrew]
        exact fun h => by cases h
      · rw [getNN_none hcmd] at hnn
        cases hnn
    | some cmd =>
      obtain ⟨nn, hnn⟩ : ∃ nn, s.getNN = .ok nn := ⟨_, getNN_some hcmd (h.ctrlr cmd hcmd)⟩
      have hpres := h.present hnn (hle nn hnn)
      have hseek (want : NamspcType → Bool) : s.seek want ≠ .error .usedNull := by
        rw [seek_eq hpres]
        exact fun h => by cases h
      refine ⟨hseek _, hseek _, hseek _, ?_, ?_⟩
      · rw [get1stBareMetaE2E_eq hpres]
        exact firstIn_ne_usedNull hpres _
      · intro nn' hnn' i h1 hi
        obtain rfl : nn = nn' := Except.ok.inj (hnn ▸ hnn')
        obtain ⟨cmd, hcmd, hnamspc⟩ := hpres.namspc i h1 hi
        rw [getIdentifyCmdNamspc_eq h1 hcmd]
        change identifyNamespace (some cmd) ≠ _
        rw [identifyNamespace_eq hnamspc]
        exact fun h => by cases h

/-! ## What a step stores -/

theorem stores_unique {r : Replies} {nn nn' : Nat} (h : r.Stores nn) (h' : r.Stores nn') : nn = nn' := by
  obtain ⟨-, -, -, reply, hreply, rfl⟩ := h
  obtain ⟨-, -, -, reply', hreply', rfl⟩ := h'
  obtain rfl : reply = reply' := Option.some.inj (hreply.symm.trans hreply')
  rfl

/-- How far the commands get. -/
theorem reinitWith_cases (r : Replies) (s : Informative) (lastPart : Informative → Bool × Informative) :
    ((∀ nn, ¬r.Stores nn) ∧ (s.reinitWith r lastPart = (false, s) ∨
      ∃ dw0, s.reinitWith r lastPart = (false, ⟨dw0, none, []⟩))) ∨
    ∃ dw0 cmd, cmd.IsCtrlr ∧ r.Stores ((readLE cmd.data 516 4).setWidth 32).toNat ∧
      s.reinitWith r lastPart = lastPart ⟨dw0, some cmd, []⟩ := by
  have hstart (hrot : r.rotated = true) (hdump : r.dumped = true) : s.reinitWith r lastPart =
      match sendGetFeaturesNumOfQueues r clear with
      | none => (false, clear)
      | some s =>
        match sendIdentifyCtrlrStruct r s with
        | none => (false, s)
        | some s => lastPart s := by
    rw [reinitWith, hrot, hdump]
    rfl
  cases hrot : r.rotated with
  | false => exact .inl ⟨fun nn h => absurd (hrot.symm.trans h.1) (by decide), .inl (by rw [reinitWith, hrot]; rfl)⟩
  | true =>
  cases hdump : r.dumped with
  | false =>
    refine .inl ⟨fun nn h => absurd (hdump.symm.trans h.2.1) (by decide), .inr ⟨0, ?_⟩⟩
    rw [reinitWith, hrot, hdump]
    rfl
  | true =>
  rw [hstart hrot hdump]
  cases hnum : r.numOfQ with
  | none =>
    have hthrew : sendGetFeaturesNumOfQueues r clear = none := by rw [sendGetFeaturesNumOfQueues, hnum]; rfl
    rw [hthrew]
    exact .inl ⟨fun nn h => h.2.2.1 hnum, .inr ⟨0, rfl⟩⟩
  | some dw0 =>
  have hfeat : sendGetFeaturesNumOfQueues r clear = some ⟨dw0, none, []⟩ := by
    rw [sendGetFeaturesNumOfQueues, hnum]
    rfl
  rw [hfeat]
  cases hctrlr : r.ctrlr with
  | none =>
    have hthrew : sendIdentifyCtrlrStruct r ⟨dw0, none, []⟩ = none := by rw [sendIdentifyCtrlrStruct, hctrlr]; rfl
    refine .inl ⟨fun nn ⟨_, _, _, reply, hreply, _⟩ => ?_, .inr ⟨dw0, by simp only [hthrew]⟩⟩
    rw [hctrlr] at hreply
    cases hreply
  | some reply =>
    obtain ⟨cmd, hcmd, hvalid, hdata⟩ := @sendAndReap_ctrlr none reply
    have hsend : sendIdentifyCtrlrStruct r ⟨dw0, none, []⟩ = some ⟨dw0, some cmd, []⟩ := by
      rw [sendIdentifyCtrlrStruct, hctrlr, hcmd]
      rfl
    refine .inr ⟨dw0, cmd, hvalid, ⟨hrot, hdump, ?_, reply, hctrlr, by rw [hdata]⟩, ?_⟩
    · rw [hnum]
      exact fun h => by cases h
    · simp only [hsend]

/-- What `SendIdentifyNamespaceStruct` adds to a controller. -/
theorem sendIdentifyNamespaceStruct_spec (r : Replies) (dw0 : BitVec 32) {cmd : Identify} (hcmd : cmd.IsCtrlr)
    (hnn : ((readLE cmd.data 516 4).setWidth 32).toNat = nn) :
    ∃ done, (sendIdentifyNamespaceStruct r ⟨dw0, some cmd, []⟩).2 = ⟨dw0, some cmd, done⟩ ∧
      (∀ idCmd ∈ done, ∃ cmd, idCmd = some cmd ∧ cmd.IsNamspc) ∧
      (nn ≤ done.length ↔ ∀ i, 1 ≤ i → i ≤ nn → r.namspc i ≠ none) ∧
      ((sendIdentifyNamespaceStruct r ⟨dw0, some cmd, []⟩).1 = true → nn ≤ done.length) := by
  have hread : (readLE cmd.data 516 4).toNat = nn := (readLE_four_toNat cmd.data 516).trans hnn
  have hstruct : sendIdentifyNamespaceStruct r ⟨dw0, some cmd, []⟩ =
      if readLE cmd.data 516 4 = 0 then (false, ⟨dw0, some cmd, []⟩)
      else sendIdentifyNamespaces r (List.range' 1 nn) ⟨dw0, some cmd, []⟩ := by
    rw [sendIdentifyNamespaceStruct]
    change (match cmd.getValueCtrlr .nn with | .error _ => _ | .ok numNamSpc => _) = _
    rw [getValueCtrlr_eq hcmd (by decide), ← hread]
    rfl
  rw [hstruct]
  by_cases h0 : readLE cmd.data 516 4 = 0
  · rw [h0] at hread
    obtain rfl : nn = 0 := hread.symm
    rw [if_pos h0]
    exact ⟨[], rfl, by simp, iff_of_true (Nat.le_refl 0) fun i h1 hi => by omega, fun _ => Nat.le_refl 0⟩
  · rw [if_neg h0]
    obtain ⟨done, hstate, hvalid, hlen, hall, hret⟩ :=
      sendIdentifyNamespaces_spec (r := r) (List.range' 1 nn) ⟨dw0, some cmd, []⟩
    have hmem : (∀ i ∈ List.range' 1 nn, r.namspc i ≠ none) ↔ ∀ i, 1 ≤ i → i ≤ nn → r.namspc i ≠ none := by
      refine ⟨fun h i h1 hi => h i (List.mem_range'_1.2 ⟨h1, by omega⟩), fun h i hi => ?_⟩
      obtain ⟨h1, hi⟩ := List.mem_range'_1.1 hi
      exact h i h1 (by omega)
    rw [List.length_range'] at hlen hall
    have hle : nn ≤ done.length ↔ ∀ i, 1 ≤ i → i ≤ nn → r.namspc i ≠ none := by
      rw [← hmem, ← hall]
      omega
    exact ⟨done, hstate, hvalid, hle, fun h => hle.2 (hmem.1 (hret.1 h))⟩

/-- With the controller there, the structures are there if there are enough of them. -/
theorem notMissing_ctrlr {dw0 : BitVec 32} {cmd : Identify} (hcmd : cmd.IsCtrlr)
    (hnn : ((readLE cmd.data 516 4).setWidth 32).toNat = nn) {done : List (Option Identify)}
    (hvalid : ∀ idCmd ∈ done, ∃ cmd, idCmd = some cmd ∧ cmd.IsNamspc) :
    Stored ⟨dw0, some cmd, done⟩ ∧ (NotMissing ⟨dw0, some cmd, done⟩ ↔ nn ≤ done.length) := by
  have hstored : Stored ⟨dw0, some cmd, done⟩ := ⟨fun c hc => by obtain rfl := Option.some.inj hc; exact hcmd, hvalid⟩
  have hget : getNN ⟨dw0, some cmd, done⟩ = .ok nn := hnn ▸ getNN_some rfl hcmd
  refine ⟨hstored, (notMissing_iff_le hstored).trans ⟨fun h => h nn hget, fun h nn' hnn' => ?_⟩⟩
  obtain rfl : nn = nn' := Except.ok.inj (hget.symm.trans hnn')
  exact h

theorem notMissing_cleared (dw0 : BitVec 32) : Stored ⟨dw0, none, []⟩ ∧ NotMissing ⟨dw0, none, []⟩ := by
  have hstored : Stored ⟨dw0, none, []⟩ := ⟨fun _ hc => (by cases hc), fun _ hc => (by cases hc)⟩
  refine ⟨hstored, (notMissing_iff_le hstored).2 fun nn hnn => ?_⟩
  rw [getNN_none rfl] at hnn
  cases hnn

theorem reinit_spec (hs : s.Stored) (r : Replies) :
    (s.reinit r).2.Stored ∧
      (s.NotMissing →
        ((s.reinit r).2.NotMissing ↔ ∀ nn, r.Stores nn → ∀ i, 1 ≤ i → i ≤ nn → r.namspc i ≠ none)) ∧
      ((s.reinit r).1 = true → (s.reinit r).2.NotMissing) := by
  rcases reinitWith_cases r s (sendIdentifyNamespaceStruct r) with
    ⟨hnot, hres | ⟨dw0, hres⟩⟩ | ⟨dw0, cmd, hcmd, hst, hres⟩
  · rw [reinit, hres]
    exact ⟨hs, fun hmiss => iff_of_true hmiss fun nn h => absurd h (hnot nn), fun h => by cases h⟩
  · rw [reinit, hres]
    obtain ⟨hs', hmiss'⟩ := notMissing_cleared dw0
    exact ⟨hs', fun _ => iff_of_true hmiss' fun nn h => absurd h (hnot nn), fun _ => hmiss'⟩
  · rw [reinit, hres]
    obtain ⟨done, hstate, hvalid, hall, hret⟩ := sendIdentifyNamespaceStruct_spec r dw0 hcmd rfl
    obtain ⟨hs', hiff⟩ : Stored ⟨dw0, some cmd, done⟩ ∧ _ := notMissing_ctrlr hcmd rfl hvalid
    rw [hstate]
    refine ⟨hs', fun _ => hiff.trans (hall.trans ⟨fun h nn hnn => ?_, fun h => h _ hst⟩), fun h => hiff.2 (hret h)⟩
    obtain rfl := stores_unique hst hnn
    exact h

theorem reinitNSSafe_spec (hs : s.Stored) (r : Replies) :
    (s.reinitNSSafe r).2.Stored ∧
      (s.NotMissing → ((s.reinitNSSafe r).2.NotMissing ↔ ∀ nn, r.Stores nn → nn = 0)) := by
  rcases reinitWith_cases r s (fun s => (true, s)) with ⟨hnot, hres | ⟨dw0, hres⟩⟩ | ⟨dw0, cmd, hcmd, hst, hres⟩
  · rw [reinitNSSafe, hres]
    exact ⟨hs, fun hmiss => iff_of_true hmiss fun nn h => absurd h (hnot nn)⟩
  · rw [reinitNSSafe, hres]
    obtain ⟨hs', hmiss'⟩ := notMissing_cleared dw0
    exact ⟨hs', fun _ => iff_of_true hmiss' fun nn h => absurd h (hnot nn)⟩
  · rw [reinitNSSafe, hres]
    obtain ⟨hs', hiff⟩ : Stored ⟨dw0, some cmd, []⟩ ∧ _ := notMissing_ctrlr hcmd rfl fun _ hc => by cases hc
    refine ⟨hs', fun _ => hiff.trans ⟨fun h nn hnn => ?_, fun h => Nat.le_of_eq (h _ hst)⟩⟩
    obtain rfl := stores_unique hst hnn
    exact Nat.le_zero.1 h

/-! ## Runs -/

/-- What `GetInstance` has created is stored, and not missing. -/
theorem getInstance_spec (prepared : Bool) (r : Replies) :
    ∀ s ∈ step none (.getInstance prepared r), s.Stored ∧ s.NotMissing := by
  cases prepared with
  | false => exact fun _ h => by cases h
  | true =>
    obtain ⟨hstored, -, hret⟩ := reinit_spec (notMissing_cleared 0).1 r
    have hstep : step none (.getInstance true r) =
        match clear.reinit r with
        | (true, s) => some s
        | (false, _) => none := rfl
    rw [hstep]
    change (clear.reinit r).2.Stored at hstored
    change (clear.reinit r).1 = true → (clear.reinit r).2.NotMissing at hret
    generalize clear.reinit r = res at hstored hret ⊢
    obtain ⟨ret, s⟩ := res
    cases ret with
    | false => exact fun _ h => by cases h
    | true => exact fun s' h => Option.some.inj h ▸ ⟨hstored, hret rfl⟩

theorem step_stored (st : Option Informative) (e : Event) (hs : ∀ s ∈ st, s.Stored) : ∀ s ∈ step st e, s.Stored := by
  cases st with
  | none =>
    cases e with
    | getInstance prepared r => exact fun s h => (getInstance_spec prepared r s h).1
    | killInstance | reinit r | reinitNSSafe r => exact fun _ h => by cases h
  | some s =>
    have hs := hs s rfl
    cases e with
    | getInstance prepared r => exact fun s' h => Option.some.inj h ▸ hs
    | killInstance => exact fun _ h => by cases h
    | reinit r => exact fun s' h => Option.some.inj h ▸ (reinit_spec hs r).1
    | reinitNSSafe r => exact fun s' h => Option.some.inj h ▸ (reinitNSSafe_spec hs r).1

theorem step_notMissing_iff {st : Option Informative} (hs : ∀ s ∈ st, s.Stored) (hmiss : ∀ s ∈ st, s.NotMissing)
    (e : Event) : (∀ s ∈ step st e, s.NotMissing) ↔ Complete st e := by
  cases st with
  | none =>
    cases e with
    | getInstance prepared r => exact iff_of_true (fun s h => (getInstance_spec prepared r s h).2) trivial
    | killInstance => exact iff_of_true (fun _ h => (by cases h)) trivial
    | reinit r | reinitNSSafe r => exact iff_of_true (fun _ h => (by cases h)) fun h => absurd rfl h
  | some s =>
    have hs := hs s rfl
    have hne : (some s : Option Informative) ≠ none := fun h => by cases h
    cases e with
    | getInstance prepared r => exact iff_of_true hmiss trivial
    | killInstance => exact iff_of_true (fun _ h => (by cases h)) trivial
    | reinit r =>
      have hiff := (reinit_spec hs r).2.1 (hmiss s rfl)
      exact ⟨fun h _ => hiff.1 (h _ rfl), fun h s' hs' => Option.some.inj hs' ▸ hiff.2 (h hne)⟩
    | reinitNSSafe r =>
      have hiff := (reinitNSSafe_spec hs r).2 (hmiss s rfl)
      exact ⟨fun h _ => hiff.1 (h _ rfl), fun h s' hs' => Option.some.inj hs' ▸ hiff.2 (h hne)⟩

/-- **The structures are there in every state of a run exactly if all of its steps are complete.** -/
theorem notMissing_iff (es : List Event) :
    (∀ x ∈ steps step none es, ∀ s ∈ step x.1 x.2, s.NotMissing) ↔
      ∀ x ∈ steps step none es, Complete x.1 x.2 := by
  -- `Stored` holds in every run, and with it a complete step is what keeps `NotMissing`.
  have hC (st : Option Informative) (e : Event) (hs : ∀ s ∈ st, s.Stored) (hmiss : ∀ s ∈ st, s.NotMissing) :
      (True ∧ ∀ s ∈ step st e, s.NotMissing) ↔ Complete st e := by
    rw [true_and]
    exact step_notMissing_iff hs hmiss e
  have hs : ∀ s ∈ (none : Option Informative), s.Stored := fun _ h => by cases h
  have hmiss : ∀ s ∈ (none : Option Informative), s.NotMissing := fun _ h => by cases h
  simpa only [true_and] using good_run_iff step_stored hC hs hmiss es

/-- A controller with one namespace. -/
def oneNamspc : Reply := ⟨0, (List.replicate 4096 0).set 516 1, by rw [List.length_set, List.length_replicate]⟩

/-- All the commands succeed. -/
def allSent : Replies := ⟨true, true, some 0, some oneNamspc, fun _ => some oneNamspc⟩

theorem allSent_stores : allSent.Stores 1 :=
  ⟨rfl, rfl, fun h => (by cases h), oneNamspc, rfl, by decide +kernel⟩

/-- The singleton is created, and the namespaces are left out afterwards: the getters use a structure that is
missing. -/
theorem reinitNSSafe_missing : ¬∀ es, ∀ x ∈ steps step none es, ∀ s ∈ step x.1 x.2, s.NotMissing := by
  intro h
  have hsafe (e e' : Event) : ∀ s ∈ step (step none e) e', s.NotMissing :=
    h [e, e'] (step none e, e') (List.mem_cons_of_mem _ List.mem_cons_self)
  have hcreated : step none (.getInstance true allSent) ≠ none := by decide +kernel
  have hinit := getInstance_spec true allSent
  have hcomplete := (step_notMissing_iff (fun s hs => (hinit s hs).1) (fun s hs => (hinit s hs).2) _).1
    (hsafe _ (.reinitNSSafe allSent))
  exact absurd (hcomplete hcreated 1 allSent_stores) (by decide)

end Informative

end Tnvme
