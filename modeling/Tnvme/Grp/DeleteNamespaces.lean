import Tnvme.Lib.Pages
import Tnvme.Lib.SortedKeys
import Tnvme.Queues.Ce

/-!
# Deleting all namespaces

`DeleteAllNamespacesAndVerify` reads the namespaces of a subsystem in pages of 1024. It detaches each namespace from all
its controllers, which it reads in pages of 2047, and deletes it. The cursor of the namespaces is the last one that has
been read, the cursor of the controllers is the number of those that have been detached.

The subsystem does what it should (`Subsystem`), and keeps a log of what becomes of its namespaces. The log of a run is
the list of all there is to do, once and in order (`completes`).
-/

namespace Tnvme

/-- What becomes of a namespace. -/
inductive NsEvent where
  | detached (nsid : BitVec 32) (cntid : BitVec 16)
  | deleted (nsid : BitVec 32)
  deriving DecidableEq, Repr

/-- The namespaces of a subsystem, and the controllers to which each of them is attached. `self` is the controller that
processes the commands. -/
structure Subsystem where
  NN : BitVec 32
  nsids : List (BitVec 32)
  nsids_sorted : SortedKeys.Sorted BitVec.toNat nsids
  nsids_le : ∀ nsid ∈ nsids, nsid ≠ 0 ∧ nsid ≤ NN
  attached : BitVec 32 → List (BitVec 16)
  attached_sorted : ∀ nsid, SortedKeys.Sorted BitVec.toNat (attached nsid)
  self : BitVec 16
  /-- The structure of an active namespace. -/
  idNamespace : BitVec 32 → List (BitVec 8)
  log : List NsEvent

namespace Subsystem

variable (sub : Subsystem)

/-- CNS 0x10: the list of the namespaces behind one of them, in 1024 entries. -/
def namespaceList (nsid : BitVec 32) : List (BitVec 32) :=
  let ids := Pages.page 1024 (fun id => decide (nsid < id)) sub.nsids
  ids ++ List.replicate (1024 - ids.length) 0

/-- CNS 0x12: a list of the controllers to which a namespace is attached, not below one of them, in 2048 entries. -/
def controllerList (nsid : BitVec 32) (cntid : BitVec 16) : List (BitVec 16) :=
  let ids := Pages.page 2047 (fun id => decide (cntid ≤ id)) (sub.attached nsid)
  BitVec.ofNat 16 ids.length :: ids ++ List.replicate (2047 - ids.length) 0

/-- CNS 0x00: zeros for a namespace that is not active. -/
def namespaceStruct (nsid : BitVec 32) : List (BitVec 8) :=
  if sub.self ∈ sub.attached nsid then sub.idNamespace nsid else List.replicate 4096 0

/-- Detaches a namespace from the controllers of a list, all of which it is attached to. -/
def detach (nsid : BitVec 32) (list : List (BitVec 16)) : Subsystem × CEStat :=
  let ids := list.tail.take (list.headD 0).toNat
  if ∀ id ∈ ids, id ∈ sub.attached nsid then
    ({ sub with
      attached := fun n => if n = nsid then (sub.attached n).filter fun id => decide (id ∉ ids) else sub.attached n
      attached_sorted := fun n => by
        split
        · exact (sub.attached_sorted n).filter _
        · exact sub.attached_sorted n
      log := sub.log ++ ids.map (.detached nsid) }, .success)
  else (sub, .nsNotAttached)

def delete (nsid : BitVec 32) : Subsystem × CEStat :=
  if nsid ∈ sub.nsids then
    ({ sub with
      nsids := sub.nsids.filter fun n => decide (n ≠ nsid)
      nsids_sorted := sub.nsids_sorted.filter _
      nsids_le := fun n hn => sub.nsids_le n (List.mem_of_mem_filter hn)
      attached := fun n => if n = nsid then [] else sub.attached n
      attached_sorted := fun n => by
        split
        · exact List.Pairwise.nil
        · exact sub.attached_sorted n
      log := sub.log ++ [.deleted nsid] }, .success)
  else (sub, .invalField)

end Subsystem

namespace DeleteAllNamespaces

/-- The exceptions of the test. -/
inductive Fault where
  /-- A status that is not the expected one. -/
  | status (st : CEStat)
  | notAscending (nsid : BitVec 32)
  | aboveNN (nsid : BitVec 32)
  /-- The namespace is not inactive. -/
  | active (nsid : BitVec 32)
  /-- There are namespaces in the end. -/
  | remaining
  /-- The loops have not come to an end. -/
  | fuel
  deriving DecidableEq, Repr

def expect (status st : CEStat) : Except Fault Unit := if st = status then .ok () else .error (.status st)

/-- The loop that detaches a namespace; `SetCNTID` takes 16 bits of the cursor. -/
def detachAll (nsid : BitVec 32) : Nat → BitVec 32 → Subsystem → Except Fault Subsystem
  | 0, _, _ => .error .fuel
  | fuel + 1, currentControllerId, sub =>
    let list := sub.controllerList nsid (currentControllerId.setWidth 16)
    if list.headD 0 > 0 then do
      expect .success (sub.detach nsid list).2
      let sub := (sub.detach nsid list).1
      -- the same command again
      expect .nsNotAttached (sub.detach nsid list).2
      let sub := (sub.detach nsid list).1
      if list.headD 0 ≠ 2047 then return sub else detachAll nsid fuel (currentControllerId + 2047) sub
    else .ok sub

/-- One namespace is detached and deleted. Identifying it succeeds, and the data are looked at once. -/
def deleteNamespace (fuel : Nat) (nsid : BitVec 32) (sub : Subsystem) : Except Fault Subsystem := do
  let sub ← detachAll nsid fuel 0 sub
  if (sub.namespaceStruct nsid).any fun byte => byte ≠ 0 then .error (.active nsid)
  else
    expect .success (sub.delete nsid).2
    let sub := (sub.delete nsid).1
    expect .invalField (sub.delete nsid).2
    return (sub.delete nsid).1

/-- The loop over the entries of a list, with the cursor, and whether there may be more namespaces. -/
def deleteEntries (fuel : Nat) : List (BitVec 32) → BitVec 32 → Subsystem → Except Fault (Subsystem × BitVec 32 × Bool)
  | [], current, sub => .ok (sub, current, true)
  | nsid :: rest, current, sub =>
    if current > nsid ∧ nsid ≠ 0 then .error (.notAscending nsid)
    else if nsid = 0 then .ok (sub, nsid, false)
    else if nsid > sub.NN then .error (.aboveNN nsid)
    else do
      let sub ← deleteNamespace fuel nsid sub
      deleteEntries fuel rest nsid sub

/-- The main loop; `loops` bounds the other loops. -/
def deleteLists (loops : Nat) : Nat → BitVec 32 → Subsystem → Except Fault Subsystem
  | 0, _, _ => .error .fuel
  | fuel + 1, current, sub => do
    let (sub, current, namespacesRemaining) ← deleteEntries loops (sub.namespaceList current) current sub
    if namespacesRemaining then deleteLists loops fuel current sub else return sub

/-- The bytes of an entry of a list. -/
def entryBytes (entry : BitVec 32) : List (BitVec 8) :=
  [entry.extractLsb' 0 8, entry.extractLsb' 8 8, entry.extractLsb' 16 8, entry.extractLsb' 24 8]

/-- `RunCoreTest`, with as many rounds of each loop as `fuel` says at most. -/
def runCoreTest (fuel : Nat) (sub : Subsystem) : Except Fault Subsystem := do
  let sub ← deleteLists fuel fuel 0 sub
  if ((sub.namespaceList 0).flatMap entryBytes).any fun byte => byte ≠ 0 then .error .remaining else return sub

/-- All that has to be done to a namespace. -/
def eventsOf (sub : Subsystem) (nsid : BitVec 32) : List NsEvent :=
  (sub.attached nsid).map (.detached nsid) ++ [.deleted nsid]

/-- All that has to be done. -/
def events (sub : Subsystem) : List NsEvent := sub.nsids.flatMap (eventsOf sub)

/-- The test ends, leaves no namespace, and does all that has to be done once. -/
def Complete (sub : Subsystem) : Prop :=
  (events sub).Nodup ∧ ∃ n, ∀ fuel ≥ n, ∃ sub', runCoreTest fuel sub = .ok sub' ∧ sub'.nsids = [] ∧
    sub'.log = sub.log ++ events sub

/-! ## Detaching a namespace -/

section Detach

variable {sub sub' : Subsystem} {nsid : BitVec 32}

/-- What has been done to a namespace: the controllers that are left, and the log. -/
structure Detached (nsid : BitVec 32) (left : List (BitVec 16)) (done : List NsEvent) (sub sub' : Subsystem) :
    Prop where
  NN : sub'.NN = sub.NN
  nsids : sub'.nsids = sub.nsids
  attached : sub'.attached nsid = left
  others : ∀ n ≠ nsid, sub'.attached n = sub.attached n
  log : sub'.log = sub.log ++ done

theorem Detached.trans {sub'' : Subsystem} {left left' : List (BitVec 16)} {done done' : List NsEvent}
    (h : Detached nsid left done sub sub') (h' : Detached nsid left' done' sub' sub'') :
    Detached nsid left' (done ++ done') sub sub'' :=
  ⟨h'.NN.trans h.NN, h'.nsids.trans h.nsids, h'.attached, fun n hn => (h'.others n hn).trans (h.others n hn),
    by rw [h'.log, h.log, List.append_assoc]⟩

/-- The controllers of a list, as the subsystem reads them. -/
theorem ids_controllerList (cntid : BitVec 16) :
    ((sub.controllerList nsid cntid).headD 0).toNat =
      (Pages.page 2047 (fun id => decide (cntid ≤ id)) (sub.attached nsid)).length ∧
    (sub.controllerList nsid cntid).tail.take ((sub.controllerList nsid cntid).headD 0).toNat =
      Pages.page 2047 (fun id => decide (cntid ≤ id)) (sub.attached nsid) := by
  have hlen : (Pages.page 2047 (fun id => decide (cntid ≤ id)) (sub.attached nsid)).length ≤ 2047 :=
    List.length_take_le _ _
  have hhead : ((sub.controllerList nsid cntid).headD 0).toNat =
      (Pages.page 2047 (fun id => decide (cntid ≤ id)) (sub.attached nsid)).length := by
    change (BitVec.ofNat 16 _).toNat = _
    rw [BitVec.toNat_ofNat, Nat.mod_eq_of_lt (by omega)]
  refine ⟨hhead, ?_⟩
  rw [hhead]
  exact List.take_left' rfl

theorem attached_nodup (sub : Subsystem) (nsid : BitVec 32) : (sub.attached nsid).Nodup :=
  List.Nodup.of_map _ (sub.attached_sorted nsid).nodup_keys

theorem detach_success {list : List (BitVec 16)} {k : Nat} (hids : list.tail.take (list.headD 0).toNat =
    (sub.attached nsid).take k) :
    (sub.detach nsid list).2 = .success ∧ Detached nsid ((sub.attached nsid).drop k)
      (((sub.attached nsid).take k).map (.detached nsid)) sub (sub.detach nsid list).1 := by
  have hall : ∀ id ∈ (sub.attached nsid).take k, id ∈ sub.attached nsid := fun id hid => List.mem_of_mem_take hid
  unfold Subsystem.detach
  simp only [hids]
  rw [if_pos hall]
  refine ⟨rfl, rfl, rfl, ?_, fun n hn => if_neg hn, rfl⟩
  exact (if_pos rfl).trans (Pages.filter_not_mem_take (attached_nodup sub nsid) k)

theorem detach_again {list : List (BitVec 16)} {id : BitVec 16} (hid : id ∈ list.tail.take (list.headD 0).toNat)
    (hnot : id ∉ sub.attached nsid) : sub.detach nsid list = (sub, .nsNotAttached) :=
  if_neg fun h => hnot (h id hid)

/-- All controllers are detached: by induction on the rounds. The cursor does not pass what is left. -/
theorem detachAll_ok (fuel : Nat) (current : BitVec 32) (sub : Subsystem) (hfuel : (sub.attached nsid).length < fuel)
    (hcurrent : ∀ id ∈ sub.attached nsid, current.toNat ≤ id.toNat) :
    ∃ sub', detachAll nsid fuel current sub = .ok sub' ∧
      Detached nsid [] ((sub.attached nsid).map (.detached nsid)) sub sub' := by
  induction fuel generalizing current sub with
  | zero => exact absurd hfuel (Nat.not_lt_zero _)
  | succ fuel ih =>
    have hbehind : ∀ id ∈ sub.attached nsid, decide (current.setWidth 16 ≤ id) = true := by
      intro id hid
      have := hcurrent id hid
      rw [decide_eq_true_eq, BitVec.le_def, BitVec.toNat_setWidth]
      exact Nat.le_trans (Nat.mod_le _ _) this
    obtain ⟨hhead, hids⟩ := @ids_controllerList sub nsid (current.setWidth 16)
    rw [Pages.page_eq_take hbehind] at hhead hids
    obtain ⟨list, hlist⟩ : ∃ list, list = sub.controllerList nsid (current.setWidth 16) := ⟨_, rfl⟩
    rw [← hlist] at hhead hids
    rw [detachAll, ← hlist]
    cases hattached : sub.attached nsid with
    | nil =>
      have hzero : ¬list.headD 0 > 0 := by
        rw [hattached] at hhead
        rw [gt_iff_lt, BitVec.lt_def, hhead]
        exact Nat.lt_irrefl 0
      exact ⟨sub, if_neg hzero, rfl, rfl, hattached, fun _ _ => rfl, (List.append_nil _).symm⟩
    | cons id ids =>
      have hpos : list.headD 0 > 0 := by
        rw [gt_iff_lt, BitVec.lt_def, hhead, hattached]
        exact Nat.succ_pos _
      obtain ⟨hst, hdetached⟩ := detach_success hids
      have hfirst : id ∈ list.tail.take (list.headD 0).toNat := by
        rw [hids, hattached]
        exact List.mem_cons_self
      have hgone : id ∉ (sub.detach nsid list).1.attached nsid := by
        have hnodup := attached_nodup sub nsid
        rw [hattached] at hnodup
        rw [hdetached.attached, hattached]
        exact fun hmem => (List.nodup_cons.1 hnodup).1 (List.mem_of_mem_drop hmem)
      rw [if_pos hpos, hst]
      change ∃ sub', (expect .nsNotAttached ((sub.detach nsid list).1.detach nsid list).2 >>= fun _ => _) = _ ∧ _
      rw [detach_again hfirst hgone]
      change ∃ sub', (if list.headD 0 ≠ 2047 then Except.ok (sub.detach nsid list).1
        else detachAll nsid fuel (current + 2047) (sub.detach nsid list).1) = _ ∧ _
      rw [← hattached]
      by_cases hfull : list.headD 0 = 2047
      · rw [if_neg (not_not.2 hfull)]
        have hlen : ((sub.detach nsid list).1.attached nsid).length < fuel := by
          have hsome : (sub.attached nsid).length = ids.length + 1 := by rw [hattached, List.length_cons]
          rw [hdetached.attached, List.length_drop]
          omega
        obtain ⟨sub', hrest, hdone⟩ := ih (current + 2047) (sub.detach nsid list).1 hlen fun x hx => by
          rw [hdetached.attached] at hx
          have hle := Pages.add_le_of_mem_drop (sub.attached_sorted nsid) hcurrent x hx
          rw [BitVec.toNat_add]
          exact Nat.le_trans (Nat.mod_le _ _) hle
        refine ⟨sub', hrest, ?_⟩
        have hboth := hdetached.trans hdone
        rwa [hdetached.attached, ← List.map_append, List.take_append_drop] at hboth
      · rw [if_pos hfull]
        -- a page that is not full is the last one
        have hshort : (sub.attached nsid).length ≤ 2047 := by
          by_contra hlong
          refine hfull (BitVec.eq_of_toNat_eq ?_)
          rw [hhead, List.length_take]
          change min 2047 _ = 2047
          omega
        refine ⟨_, rfl, ?_⟩
        rwa [List.drop_eq_nil_of_le hshort, List.take_of_length_le hshort] at hdetached

end Detach

/-! ## Deleting namespaces -/

section Delete

variable {sub : Subsystem} {nsid : BitVec 32} {fuel : Nat}

/-- There are not more controllers than identifiers. -/
theorem length_attached (sub : Subsystem) (nsid : BitVec 32) : (sub.attached nsid).length ≤ 65536 := by
  by_contra hlong
  have hlast : 65536 < (sub.attached nsid).length := by omega
  have hmem : (sub.attached nsid)[65536] ∈ (sub.attached nsid).drop 65536 := by
    rw [List.drop_eq_getElem_cons hlast]
    exact List.mem_cons_self
  have hle := @Pages.add_le_of_mem_drop _ _ _ (sub.attached_sorted nsid) 0 65536 (fun _ _ => Nat.zero_le _) _ hmem
  have := ((sub.attached nsid)[65536]).isLt
  omega

/-- What has been done to some namespaces: the ones that are left, and the log. -/
structure Deleted (left : List (BitVec 32)) (done : List NsEvent) (sub sub' : Subsystem) : Prop where
  NN : sub'.NN = sub.NN
  nsids : sub'.nsids = left
  attached : ∀ n ∈ left, sub'.attached n = sub.attached n
  log : sub'.log = sub.log ++ done

theorem deleteNamespace_ok {rest : List (BitVec 32)} (hfuel : 65536 < fuel) (hnsids : sub.nsids = nsid :: rest) :
    ∃ sub', deleteNamespace fuel nsid sub = .ok sub' ∧ Deleted rest (eventsOf sub nsid) sub sub' := by
  have hlen := length_attached sub nsid
  obtain ⟨sub1, hdetach, hdone⟩ := @detachAll_ok nsid fuel 0 sub (by omega) fun _ _ => Nat.zero_le _
  have hzeros : ((sub1.namespaceStruct nsid).any fun byte => byte ≠ 0) = false := by
    have hinactive : sub1.self ∉ sub1.attached nsid := by
      rw [hdone.attached]
      exact List.not_mem_nil
    rw [Subsystem.namespaceStruct, if_neg hinactive, List.any_eq_false]
    intro byte hbyte
    rw [List.eq_of_mem_replicate hbyte]
    decide
  have hnodup : (nsid :: rest).Nodup := by
    rw [← hnsids]
    exact List.Nodup.of_map _ sub.nsids_sorted.nodup_keys
  obtain ⟨hnot, -⟩ := List.nodup_cons.1 hnodup
  have hmem : nsid ∈ sub1.nsids := by
    rw [hdone.nsids, hnsids]
    exact List.mem_cons_self
  have hdelete : (sub1.delete nsid).2 = .success := by rw [Subsystem.delete, if_pos hmem]
  have hleft : (sub1.delete nsid).1.nsids = rest := by
    rw [Subsystem.delete, if_pos hmem]
    change sub1.nsids.filter _ = rest
    rw [hdone.nsids, hnsids, List.filter_cons_of_neg (by simp), List.filter_eq_self]
    exact fun n hn => decide_eq_true fun heq => hnot (heq ▸ hn)
  have hagain : (sub1.delete nsid).1.delete nsid = ((sub1.delete nsid).1, .invalField) :=
    if_neg (by rwa [hleft])
  refine ⟨(sub1.delete nsid).1, ?_, ?_, hleft, fun n hn => ?_, ?_⟩
  · rw [deleteNamespace, hdetach]
    change (if (sub1.namespaceStruct nsid).any (fun byte => byte ≠ 0) = true then _ else
      (expect .success (sub1.delete nsid).2 >>= fun _ => _)) = _
    rw [hzeros, if_neg (by decide), hdelete]
    change (expect .invalField ((sub1.delete nsid).1.delete nsid).2 >>= fun _ => _) = _
    rw [hagain]
    rfl
  · rw [Subsystem.delete, if_pos hmem]
    exact hdone.NN
  · have hne : n ≠ nsid := fun heq => hnot (heq ▸ hn)
    rw [Subsystem.delete, if_pos hmem]
    exact (if_neg hne).trans (hdone.others n hne)
  · rw [Subsystem.delete, if_pos hmem]
    change sub1.log ++ _ = _
    rw [hdone.log, List.append_assoc]
    rfl

/-- What is done to namespaces that have not been touched. -/
theorem flatMap_eventsOf {sub' : Subsystem} {ids : List (BitVec 32)}
    (h : ∀ n ∈ ids, sub'.attached n = sub.attached n) : ids.flatMap (eventsOf sub') = ids.flatMap (eventsOf sub) :=
  List.flatMap_congr fun n hn => by rw [eventsOf, eventsOf, h n hn]

/-- The namespaces of a list are deleted, and the loop goes on with the entries behind them. -/
theorem deleteEntries_ok (hfuel : 65536 < fuel) {ids rest : List (BitVec 32)} (current : BitVec 32) (sub : Subsystem)
    (hnsids : sub.nsids = ids ++ rest) (hcurrent : ∀ id ∈ ids, current.toNat ≤ id.toNat) :
    ∃ sub', (∀ tail, deleteEntries fuel (ids ++ tail) current sub =
      deleteEntries fuel tail (ids.getLastD current) sub') ∧ Deleted rest (ids.flatMap (eventsOf sub)) sub sub' := by
  induction ids generalizing current sub with
  | nil => exact ⟨sub, fun _ => rfl, rfl, hnsids, fun _ _ => rfl, (List.append_nil _).symm⟩
  | cons nsid ids ih =>
    obtain ⟨sub1, hone, hdone⟩ := deleteNamespace_ok hfuel hnsids
    have hsorted := sub.nsids_sorted
    rw [hnsids] at hsorted
    obtain ⟨hfirst, -⟩ := List.pairwise_cons.1 hsorted
    obtain ⟨sub2, hrest, hall⟩ := ih nsid sub1 hdone.nsids fun id hid =>
      Nat.le_of_lt (hfirst id (List.mem_append_left _ hid))
    have hevents := flatMap_eventsOf fun n hn => hdone.attached n (List.mem_append_left rest hn)
    have hle := sub.nsids_le nsid (hnsids ▸ List.mem_cons_self)
    have hascending : ¬(current > nsid ∧ nsid ≠ 0) := fun h =>
      absurd (hcurrent nsid List.mem_cons_self) (Nat.not_le.2 (BitVec.lt_def.1 h.1))
    have hNN : ¬nsid > sub.NN := fun h => absurd (BitVec.le_def.1 hle.2) (Nat.not_le.2 (BitVec.lt_def.1 h))
    refine ⟨sub2, fun tail => ?_, hall.NN.trans hdone.NN, hall.nsids, fun n hn => ?_, ?_⟩
    · rw [List.cons_append, deleteEntries, if_neg hascending, if_neg hle.1, if_neg hNN, hone, List.getLastD_cons]
      exact hrest tail
    · exact (hall.attached n hn).trans (hdone.attached n (List.mem_append_right _ hn))
    · rw [hall.log, hdone.log, hevents, List.flatMap_cons, List.append_assoc]

/-- All namespaces are deleted: by induction on the lists. The cursor is the last one that has been deleted. -/
theorem deleteLists_ok {loops : Nat} (hloops : 65536 < loops) (fuel : Nat) (current : BitVec 32) (sub : Subsystem)
    (hfuel : sub.nsids.length < fuel) (hcurrent : ∀ id ∈ sub.nsids, current.toNat < id.toNat) :
    ∃ sub', deleteLists loops fuel current sub = .ok sub' ∧ Deleted [] (events sub) sub sub' := by
  induction fuel generalizing current sub with
  | zero => exact absurd hfuel (Nat.not_lt_zero _)
  | succ fuel ih =>
    have hpage : Pages.page 1024 (fun id => decide (current < id)) sub.nsids = sub.nsids.take 1024 :=
      Pages.page_eq_take fun id hid => decide_eq_true (BitVec.lt_def.2 (hcurrent id hid))
    obtain ⟨sub1, hentries, hdone⟩ := deleteEntries_ok hloops current sub (List.take_append_drop 1024 sub.nsids).symm
      fun id hid => Nat.le_of_lt (hcurrent id (List.mem_of_mem_take hid))
    have hevents : (sub.nsids.take 1024).flatMap (eventsOf sub) ++ (sub.nsids.drop 1024).flatMap (eventsOf sub) =
        events sub := by rw [← List.flatMap_append, List.take_append_drop, events]
    rw [deleteLists, Subsystem.namespaceList, hpage, hentries, List.length_take]
    by_cases hfull : 1024 ≤ sub.nsids.length
    · -- a full page is not known to be the last one
      have hlast : ∀ id ∈ sub.nsids.drop 1024, ((sub.nsids.take 1024).getLastD current).toNat < id.toNat := by
        intro id hid
        have hsorted := sub.nsids_sorted
        rw [← List.take_append_drop 1024 sub.nsids] at hsorted
        refine (List.pairwise_append.1 hsorted).2.2 _ ?_ id hid
        have hne : sub.nsids.take 1024 ≠ [] := by
          rw [← List.length_pos_iff, List.length_take]
          omega
        rw [List.getLastD_eq_getLast?, List.getLast?_eq_some_getLast hne]
        exact List.getLast_mem hne
      have hlen : sub1.nsids.length < fuel := by
        rw [hdone.nsids, List.length_drop]
        omega
      obtain ⟨sub2, hrest, hall⟩ := ih ((sub.nsids.take 1024).getLastD current) sub1 hlen (by rwa [hdone.nsids])
      have htail : List.replicate (1024 - min 1024 sub.nsids.length) (0 : BitVec 32) = [] := by
        rw [Nat.min_eq_left hfull]
        rfl
      refine ⟨sub2, ?_, hall.NN.trans hdone.NN, hall.nsids, fun n hn => (by cases hn), ?_⟩
      · rw [htail]
        exact hrest
      · have hleft := flatMap_eventsOf hdone.attached
        rw [hall.log, events, hdone.nsids, hleft, hdone.log, List.append_assoc, hevents]
    · obtain ⟨m, hm⟩ : ∃ m, 1024 - min 1024 sub.nsids.length = m + 1 := ⟨1023 - sub.nsids.length, by omega⟩
      have hdrop : sub.nsids.drop 1024 = [] := List.drop_eq_nil_of_le (by omega)
      have hzero : ¬((sub.nsids.take 1024).getLastD current > 0 ∧ (0 : BitVec 32) ≠ 0) := fun h => h.2 rfl
      refine ⟨sub1, ?_, hdone.NN, hdone.nsids.trans hdrop, fun n hn => (by cases hn), ?_⟩
      · rw [hm, List.replicate_succ, deleteEntries, if_neg hzero, if_pos rfl]
        rfl
      · rw [hdone.log, ← hevents, hdrop, List.flatMap_nil, List.append_nil]

end Delete

theorem nodup_events (sub : Subsystem) : (events sub).Nodup := by
  have hnodup : sub.nsids.Nodup := List.Nodup.of_map _ sub.nsids_sorted.nodup_keys
  refine List.nodup_flatMap.2 ⟨fun nsid _ => ?_, hnodup.imp fun {a b} hne => ?_⟩
  · rw [eventsOf, List.nodup_append]
    refine ⟨(attached_nodup sub nsid).map fun _ _ h => (NsEvent.detached.inj h).2, List.nodup_singleton _, ?_⟩
    intro e he e' he' heq
    obtain ⟨id, -, rfl⟩ := List.mem_map.1 he
    rw [List.mem_singleton.1 he'] at heq
    cases heq
  · intro e hea heb
    -- an event names its namespace
    have hname (n : BitVec 32) (he : e ∈ eventsOf sub n) : (∃ id, e = .detached n id) ∨ e = .deleted n := by
      rcases List.mem_append.1 he with he | he
      · obtain ⟨id, -, rfl⟩ := List.mem_map.1 he
        exact .inl ⟨id, rfl⟩
      · exact .inr (List.mem_singleton.1 he)
    rcases hname a hea with ⟨id, rfl⟩ | rfl
    · rcases hname b heb with ⟨id', h⟩ | h
      · exact hne (NsEvent.detached.inj h).1
      · cases h
    · rcases hname b heb with ⟨id', h⟩ | h
      · cases h
      · exact hne (NsEvent.deleted.inj h)

/-- **All namespaces are deleted, each of them detached before, and the test ends.** -/
theorem completes (sub : Subsystem) : Complete sub := by
  refine ⟨nodup_events sub, sub.nsids.length + 65537, fun fuel hfuel => ?_⟩
  have hbehind : ∀ id ∈ sub.nsids, (0 : BitVec 32).toNat < id.toNat := by
    intro id hid
    have hne := (sub.nsids_le id hid).1
    exact Nat.pos_of_ne_zero fun hzero => hne (BitVec.eq_of_toNat_eq hzero)
  obtain ⟨sub', hrun, hdone⟩ := @deleteLists_ok fuel (by omega) fuel 0 sub (by omega) hbehind
  refine ⟨sub', ?_, hdone.nsids, hdone.log⟩
  have hzeros : ((sub'.namespaceList 0).flatMap entryBytes).any (fun byte => byte ≠ 0) = false := by
    rw [List.any_eq_false, Subsystem.namespaceList, hdone.nsids]
    intro byte hbyte
    obtain ⟨entry, hentry, hbyte⟩ := List.mem_flatMap.1 hbyte
    obtain rfl : entry = 0 := List.eq_of_mem_replicate hentry
    have hall : ∀ b ∈ entryBytes 0, ¬decide (b ≠ 0) = true := by decide
    exact hall byte hbyte
  rw [runCoreTest, hrun]
  change (if ((sub'.namespaceList 0).flatMap entryBytes).any (fun byte => byte ≠ 0) = true then _ else _) = _
  rw [hzeros, if_neg (by decide)]
  rfl

end DeleteAllNamespaces
end Tnvme
