import Mathlib.Data.List.Perm.Subperm
import Tnvme.Grp.DeleteNamespaces
import Tnvme.Lib.Bytes
import Tnvme.Lib.Outcomes

/-!
# Creating namespaces

`CreateAndAttachMaxNamespacesAndVerify` shares out the capacity of a subsystem among as many namespaces as it can have,
and attaches each of them to all controllers. It depends on `DeleteAllNamespacesAndVerify`, which is run before it, and
deletes in the next loop what it has created.

The two tests pass in all loops exactly if the subsystem has what the second one takes for granted (`Suits`). It does
not count which namespaces there are before.
-/

namespace Tnvme

/-- What is requested for a namespace. The reserved bytes are left as they are on the stack. -/
structure NamespaceManagementCreateStruct where
  NSZE : BitVec 64
  NCAP : BitVec 64
  FLBAS : BitVec 8
  DPS : BitVec 8
  NMIC : BitVec 8
  deriving DecidableEq, Repr

/-- What does not change in a subsystem. -/
structure Drive where
  controllers : List (BitVec 16)
  controllers_sorted : SortedKeys.Sorted BitVec.toNat controllers
  /-- In bytes; a `double` has room for it. -/
  TNVMCAP : Nat
  TNVMCAP_le : TNVMCAP ≤ 2 ^ 53
  /-- The bytes that no namespace can have. -/
  reserved : Nat
  /-- Capacity is allocated in multiples of it. -/
  granularity : Nat
  granularity_pos : 0 < granularity
  /-- The data size of each format is this power of two. -/
  LBADS : BitVec 8 → Nat
  LBADS_le : ∀ format, 9 ≤ LBADS format
  /-- The identifier of the next namespace, of all that are not in use. -/
  next : BitVec 32 → List (BitVec 32) → Option (BitVec 32)
  next_free : ∀ {NN nsids nsid}, next NN nsids = some nsid → nsid ≠ 0 ∧ nsid ≤ NN ∧ nsid ∉ nsids
  next_isSome : ∀ {NN nsids}, nsids.length < NN.toNat → (next NN nsids).isSome
  /-- The structure of a namespace, behind its size and its capacity. -/
  idNamespaceRest : NamespaceManagementCreateStruct → List (BitVec 8)

/-- The namespaces of a subsystem, and what has been requested for each of them. -/
structure Storage where
  sub : Subsystem
  created : BitVec 32 → NamespaceManagementCreateStruct

/-- A new namespace, not attached to any controller. -/
def Storage.insert (st : Storage) (nsid : BitVec 32) (hle : nsid ≠ 0 ∧ nsid ≤ st.sub.NN) (hfree : nsid ∉ st.sub.nsids)
    (s : NamespaceManagementCreateStruct) (idNamespace : List (BitVec 8)) : Storage where
  sub := { st.sub with
    nsids := st.sub.nsids.insertIdx (SortedKeys.place BitVec.toNat nsid.toNat st.sub.nsids) nsid
    nsids_sorted := SortedKeys.sorted_insert_place st.sub.nsids_sorted fun n hn heq =>
      hfree (BitVec.eq_of_toNat_eq heq ▸ hn)
    nsids_le := fun n hn => by
      rcases (List.mem_insertIdx (SortedKeys.place_le _ _)).1 hn with rfl | hn
      · exact hle
      · exact st.sub.nsids_le n hn
    attached := fun n => if n = nsid then [] else st.sub.attached n
    attached_sorted := fun n => by
      split
      · exact List.Pairwise.nil
      · exact st.sub.attached_sorted n
    idNamespace := fun n => if n = nsid then idNamespace else st.sub.idNamespace n }
  created := Function.update st.created nsid s

namespace Drive

variable (d : Drive)

/-- The next multiple of the granularity. -/
def rounded (bytes : Nat) : Nat := (bytes + d.granularity - 1) / d.granularity * d.granularity

/-- The bytes of a namespace. -/
def taken (s : NamespaceManagementCreateStruct) : Nat := d.rounded (s.NCAP.toNat * 2 ^ d.LBADS (s.FLBAS &&& 0x0F))

def UNVMCAP (st : Storage) : Nat :=
  d.TNVMCAP - d.reserved - (st.sub.nsids.map fun nsid => d.taken (st.created nsid)).sum

/-- CNS 0x13: a list of the controllers, not below one of them, in 2048 entries. -/
def controllerList (cntid : BitVec 16) : List (BitVec 16) :=
  let ids := Pages.page 2047 (fun id => decide (cntid ≤ id)) d.controllers
  BitVec.ofNat 16 ids.length :: ids ++ List.replicate (2047 - ids.length) 0

def idNamespace (s : NamespaceManagementCreateStruct) : List (BitVec 8) :=
  Bytes.toBytes 8 s.NSZE ++ Bytes.toBytes 8 s.NCAP ++ d.idNamespaceRest s

/-- A namespace is created, and its identifier is returned. -/
def create (s : NamespaceManagementCreateStruct) (st : Storage) : Storage × CEStat × BitVec 32 :=
  match h : d.next st.sub.NN st.sub.nsids with
  | none => (st, .nsIdUnavail, 0)
  | some nsid =>
    if s.NSZE = 0 ∨ s.NSZE < s.NCAP then (st, .invalField, 0)
    else if d.UNVMCAP st < d.taken s then (st, .nsInsuffCapacity, 0)
    else
      have hfree := d.next_free h
      (st.insert nsid ⟨hfree.1, hfree.2.1⟩ hfree.2.2 s (d.idNamespace s), .success, nsid)

/-- Attaches a namespace to the controllers of a list, none of which it is attached to. -/
def attach (nsid : BitVec 32) (list : List (BitVec 16)) (st : Storage) : Storage × CEStat :=
  let ids := list.tail.take (list.headD 0).toNat
  if !st.sub.nsids.contains nsid then (st, .invalNamspc)
  else if ids.any fun id => !d.controllers.contains id then (st, .cntrlListInvalid)
  else if ids.any (st.sub.attached nsid).contains then (st, .nsAlreadyAttached)
  else if (st.created nsid).NMIC.getLsbD 0 = false ∧ 1 < (st.sub.attached nsid).length + ids.length then
    (st, .nsIsPrivate)
  else
    ({ st with sub := { st.sub with
        attached := fun n =>
          if n = nsid then d.controllers.filter fun id => (st.sub.attached nsid).contains id || ids.contains id
          else st.sub.attached n
        attached_sorted := fun n => by
          split
          · exact d.controllers_sorted.filter _
          · exact st.sub.attached_sorted n } }, .success)

end Drive

namespace CreateAndAttachMaxNamespaces

open Outcomes

/-- The exceptions of the test. -/
inductive Fault where
  /-- A status that is not the expected one. -/
  | status (st : CEStat)
  /-- There are namespaces before any has been created. -/
  | present
  | noControllers
  /-- The namespace is not inactive. -/
  | active (nsid : BitVec 32)
  | inactive (nsid : BitVec 32)
  | size (nsid : BitVec 32)
  | capacity (nsid : BitVec 32)
  | unallocated
  deriving DecidableEq, Repr

/-- The share of each namespace in blocks of 512 bytes, a multiple of 1 GB. -/
def individualNamespaceCapacity (UNVMCAP_LOWER : BitVec 64) (NN : BitVec 32) : BitVec 64 :=
  BitVec.ofNat 64 (UNVMCAP_LOWER.toNat / 1024 / 1024 / 1024 / NN.toNat) * 1024 * 1024 * 1024 / 512

/-- One namespace is created and attached. -/
def createNamespace (d : Drive) (capacity total : BitVec 64) (list : List (BitVec 16)) (st : Storage) (current : Nat) :
    Except Fault Storage := do
  let (st, status, nsid) := d.create ⟨capacity, capacity, 0, 0, 1⟩ st
  require (status = .success) (.status status)
  require ((st.sub.namespaceStruct nsid).all fun byte => byte == 0) (.active nsid)
  let (st, status) := d.attach nsid list st
  require (status = .success) (.status status)
  let struct := st.sub.namespaceStruct nsid
  require (struct.any fun byte => byte != 0) (.inactive nsid)
  require (Bytes.littleEndian (struct.take 8) = capacity.toNat) (.size nsid)
  require (Bytes.littleEndian ((struct.drop 8).take 8) = capacity.toNat) (.capacity nsid)
  require (BitVec.ofNat 64 (d.UNVMCAP st) = total - capacity * (BitVec.ofNat 64 current + 1) * 512) .unallocated
  -- the same command again
  let (st, status) := d.attach nsid list st
  require (status = .nsAlreadyAttached) (.status status)
  return st

def runCoreTest (d : Drive) (st : Storage) : Except Fault Storage := do
  let capacity := individualNamespaceCapacity (BitVec.ofNat 64 (d.UNVMCAP st)) st.sub.NN
  require ((st.sub.namespaceList 0).headD 0 = 0) .present
  let list := d.controllerList 0
  require (list.headD 0 ≠ 0) .noControllers
  (List.range st.sub.NN.toNat).foldlM (createNamespace d capacity (BitVec.ofNat 64 d.TNVMCAP) list) st

/-- The tests of the group in one loop. -/
def round (d : Drive) (fuel : Nat) (st : Storage) : Option Storage := do
  let sub ← (DeleteAllNamespaces.runCoreTest fuel st.sub).toOption
  (runCoreTest d { st with sub }).toOption

/-- The loops of a run, up to a test that fails. -/
def rounds (d : Drive) (fuel : Nat) : Nat → Storage → Option Storage
  | 0, st => some st
  | loops + 1, st => round d fuel st >>= rounds d fuel loops

/-! ## Deleting keeps the rest -/

section Keep

open DeleteAllNamespaces

variable {sub : Subsystem} {nsid : BitVec 32} {fuel : Nat}

/-- What no command of the deletion changes. -/
def Keeps (sub sub' : Subsystem) : Prop := sub'.NN = sub.NN ∧ sub'.self = sub.self

theorem Keeps.trans {sub' sub'' : Subsystem} (h : Keeps sub sub') (h' : Keeps sub' sub'') : Keeps sub sub'' :=
  ⟨h'.1.trans h.1, h'.2.trans h.2⟩

theorem expect_ends (status st : CEStat) : Ends (fun _ => True) (fun _ => True) (expect status st) := by
  unfold expect
  split <;> trivial

theorem detach_keeps (sub : Subsystem) (nsid : BitVec 32) (list : List (BitVec 16)) :
    Keeps sub (sub.detach nsid list).1 := by
  unfold Subsystem.detach
  simp only
  split <;> exact ⟨rfl, rfl⟩

theorem delete_keeps (sub : Subsystem) (nsid : BitVec 32) : Keeps sub (sub.delete nsid).1 := by
  unfold Subsystem.delete
  split <;> exact ⟨rfl, rfl⟩

theorem detachAll_keeps (nsid : BitVec 32) (fuel : Nat) (current : BitVec 32) (sub : Subsystem) :
    Ends (fun _ => True) (Keeps sub) (detachAll nsid fuel current sub) := by
  induction fuel generalizing current sub with
  | zero => trivial
  | succ fuel ih =>
    have htwice (list : List (BitVec 16)) : Keeps sub ((sub.detach nsid list).1.detach nsid list).1 :=
      (detach_keeps sub nsid list).trans (detach_keeps _ nsid list)
    rw [detachAll]
    simp only
    split
    · refine (expect_ends _ _).bind fun _ _ => (expect_ends _ _).bind fun _ _ => ?_
      split
      · exact htwice _
      · exact (ih _ _).mono fun _ h => (htwice _).trans h
    · exact ⟨rfl, rfl⟩

theorem deleteNamespace_keeps (fuel : Nat) (nsid : BitVec 32) (sub : Subsystem) :
    Ends (fun _ => True) (Keeps sub) (deleteNamespace fuel nsid sub) := by
  refine (detachAll_keeps nsid fuel 0 sub).bind fun sub' h => ?_
  split
  · trivial
  · refine (expect_ends _ _).bind fun _ _ => (expect_ends _ _).bind fun _ _ => ?_
    exact h.trans ((delete_keeps sub' nsid).trans (delete_keeps _ nsid))

theorem deleteEntries_keeps (fuel : Nat) (ids : List (BitVec 32)) (current : BitVec 32) (sub : Subsystem) :
    Ends (fun _ => True) (fun r => Keeps sub r.1) (deleteEntries fuel ids current sub) := by
  induction ids generalizing current sub with
  | nil => exact ⟨rfl, rfl⟩
  | cons id ids ih =>
    rw [deleteEntries]
    split
    · trivial
    · split
      · exact ⟨rfl, rfl⟩
      · split
        · trivial
        · exact (deleteNamespace_keeps fuel id sub).bind fun sub' h => (ih id sub').mono fun _ h' => h.trans h'

theorem deleteLists_keeps (loops fuel : Nat) (current : BitVec 32) (sub : Subsystem) :
    Ends (fun _ => True) (Keeps sub) (deleteLists loops fuel current sub) := by
  induction fuel generalizing current sub with
  | zero => trivial
  | succ fuel ih =>
    refine (deleteEntries_keeps loops _ current sub).bind fun ⟨sub', current', more⟩ h => ?_
    cases more with
    | true => exact (ih current' sub').mono fun _ h' => h.trans h'
    | false => exact h

theorem eq_zero_of_entryBytes {entry : BitVec 32} (h : ∀ byte ∈ entryBytes entry, byte = 0) : entry = 0 := by
  have hbyte (k : Nat) (hk : entry.extractLsb' (8 * k) 8 ∈ entryBytes entry) :
      entry.toNat / 2 ^ (8 * k) % 2 ^ 8 = 0 := by
    have hzero := congrArg BitVec.toNat (h _ hk)
    rwa [BitVec.extractLsb'_toNat, Nat.shiftRight_eq_div_pow] at hzero
  have h0 := hbyte 0 (by simp [entryBytes])
  have h1 := hbyte 1 (by simp [entryBytes])
  have h2 := hbyte 2 (by simp [entryBytes])
  have h3 := hbyte 3 (by simp [entryBytes])
  apply BitVec.eq_of_toNat_eq
  change entry.toNat = 0
  omega

theorem pos_of_mem {id : BitVec 32} (hid : id ∈ sub.nsids) : (0 : BitVec 32).toNat < id.toNat :=
  Nat.pos_of_ne_zero fun hzero => (sub.nsids_le id hid).1 (BitVec.eq_of_toNat_eq hzero)

/-- The entries of a list of all namespaces. -/
theorem namespaceList_zero (sub : Subsystem) :
    sub.namespaceList 0 = sub.nsids.take 1024 ++ List.replicate (1024 - (sub.nsids.take 1024).length) 0 := by
  have hpage : Pages.page 1024 (fun id => decide (0 < id)) sub.nsids = sub.nsids.take 1024 := by
    apply Pages.page_eq_take
    intro id hid
    exact decide_eq_true (BitVec.lt_def.2 (pos_of_mem hid))
  rw [Subsystem.namespaceList, hpage]

/-- The first entry says whether there are any. -/
theorem namespaceList_head (sub : Subsystem) : (sub.namespaceList 0).headD 0 = 0 ↔ sub.nsids = [] := by
  rw [namespaceList_zero]
  cases hnsids : sub.nsids with
  | nil => exact iff_of_true rfl rfl
  | cons id ids =>
    have hne := (sub.nsids_le id (hnsids ▸ List.mem_cons_self)).1
    exact iff_of_false hne (List.cons_ne_nil id ids)

/-- The last check of the deletion. -/
theorem deleted_of_ok {sub' : Subsystem} (h : DeleteAllNamespaces.runCoreTest fuel sub = .ok sub') :
    sub'.nsids = [] ∧ Keeps sub sub' := by
  have hends : Ends (fun _ => True) (fun sub' => sub'.nsids = [] ∧ Keeps sub sub')
      (DeleteAllNamespaces.runCoreTest fuel sub) := by
    refine (deleteLists_keeps fuel fuel 0 sub).bind fun sub' hkeeps => ?_
    split
    · trivial
    · rename_i hzeros
      refine ⟨(namespaceList_head sub').1 ?_, hkeeps⟩
      simp only [List.any_eq_true, List.mem_flatMap, decide_eq_true_eq] at hzeros
      cases hlist : sub'.namespaceList 0 with
      | nil => rfl
      | cons entry entries =>
        apply eq_zero_of_entryBytes
        intro byte hbyte
        by_contra hne
        exact hzeros ⟨byte, ⟨entry, hlist ▸ List.mem_cons_self, hbyte⟩, hne⟩
  exact hends.of_ok h

/-- Whatever there is can be deleted. -/
theorem deletes (hfuel : sub.nsids.length + 65536 < fuel) :
    ∃ sub', DeleteAllNamespaces.runCoreTest fuel sub = .ok sub' := by
  obtain ⟨sub', hrun, hdone⟩ := @deleteLists_ok fuel (by omega) fuel 0 sub (by omega) fun _ hid => pos_of_mem hid
  refine ⟨sub', ?_⟩
  rw [DeleteAllNamespaces.runCoreTest, hrun]
  refine if_neg ?_
  rw [namespaceList_zero, hdone.nsids]
  intro hany
  obtain ⟨byte, hbyte, hne⟩ := List.any_eq_true.1 hany
  obtain ⟨entry, hentry, hbyte⟩ := List.mem_flatMap.1 hbyte
  obtain rfl : entry = 0 := List.eq_of_mem_replicate hentry
  have hall : ∀ byte ∈ entryBytes 0, ¬decide (byte ≠ 0) = true := by decide
  exact hall byte hbyte hne

end Keep

/-! ## Creating one namespace -/

section Create

variable {d : Drive} {st st' st₂ : Storage} {nsid : BitVec 32} {s : NamespaceManagementCreateStruct}

theorem le_rounded (d : Drive) (bytes : Nat) : bytes ≤ d.rounded bytes := by
  have hdiv := Nat.div_add_mod (bytes + d.granularity - 1) d.granularity
  have hmod := Nat.mod_lt (bytes + d.granularity - 1) d.granularity_pos
  rw [Drive.rounded, Nat.mul_comm]
  omega

theorem rounded_eq_iff (d : Drive) (bytes : Nat) : d.rounded bytes = bytes ↔ d.granularity ∣ bytes := by
  constructor
  · intro h
    exact ⟨_, h.symm.trans (Nat.mul_comm _ _)⟩
  · rintro ⟨m, rfl⟩
    have hpos := d.granularity_pos
    have hlt : (d.granularity - 1) / d.granularity = 0 := Nat.div_eq_of_lt (by omega)
    rw [Drive.rounded, Nat.add_sub_assoc hpos, Nat.mul_add_div hpos, hlt, Nat.add_zero, Nat.mul_comm]

section Insert

variable {hle : nsid ≠ 0 ∧ nsid ≤ st.sub.NN} {hfree : nsid ∉ st.sub.nsids} {data : List (BitVec 8)}

theorem perm_insert : (st.insert nsid hle hfree s data).sub.nsids.Perm (nsid :: st.sub.nsids) :=
  List.perm_insertIdx nsid st.sub.nsids (SortedKeys.place_le _ _)

@[simp] theorem insert_NN : (st.insert nsid hle hfree s data).sub.NN = st.sub.NN := rfl

@[simp] theorem insert_self : (st.insert nsid hle hfree s data).sub.self = st.sub.self := rfl

@[simp] theorem mem_insert {n : BitVec 32} :
    n ∈ (st.insert nsid hle hfree s data).sub.nsids ↔ n = nsid ∨ n ∈ st.sub.nsids := by
  rw [perm_insert.mem_iff, List.mem_cons]

@[simp] theorem length_insert : (st.insert nsid hle hfree s data).sub.nsids.length = st.sub.nsids.length + 1 :=
  perm_insert.length_eq

@[simp] theorem attached_insert : (st.insert nsid hle hfree s data).sub.attached nsid = [] := if_pos rfl

@[simp] theorem created_insert : (st.insert nsid hle hfree s data).created nsid = s := Function.update_self ..

theorem created_insert_of_mem {n : BitVec 32} (hn : n ∈ st.sub.nsids) :
    (st.insert nsid hle hfree s data).created n = st.created n := by
  have hne : n ≠ nsid := fun heq => hfree (heq ▸ hn)
  exact Function.update_of_ne hne s st.created

theorem attached_insert_of_mem {n : BitVec 32} (hn : n ∈ st.sub.nsids) :
    (st.insert nsid hle hfree s data).sub.attached n = st.sub.attached n := by
  have hne : n ≠ nsid := fun heq => hfree (heq ▸ hn)
  exact if_neg hne

theorem UNVMCAP_insert :
    d.UNVMCAP (st.insert nsid hle hfree s data) = d.UNVMCAP st - d.taken s := by
  have hold : (st.sub.nsids.map fun n => d.taken ((st.insert nsid hle hfree s data).created n)) =
      st.sub.nsids.map fun n => d.taken (st.created n) :=
    List.map_congr_left fun n hn => congrArg d.taken (created_insert_of_mem hn)
  rw [Drive.UNVMCAP, (perm_insert.map _).sum_nat, List.map_cons, List.sum_cons, created_insert, hold, Drive.UNVMCAP]
  omega

end Insert

/-- A namespace is created if there is an identifier for it and the capacity suffices. -/
theorem create_success (hroom : st.sub.nsids.length < st.sub.NN.toNat) :
    ∃ nsid hle hfree, d.create s st =
      if s.NSZE = 0 ∨ s.NSZE < s.NCAP then (st, .invalField, 0)
      else if d.UNVMCAP st < d.taken s then (st, .nsInsuffCapacity, 0)
      else (st.insert nsid hle hfree s (d.idNamespace s), .success, nsid) := by
  obtain ⟨nsid, hnext⟩ := Option.isSome_iff_exists.1 (d.next_isSome hroom)
  have hfree := d.next_free hnext
  refine ⟨nsid, ⟨hfree.1, hfree.2.1⟩, hfree.2.2, ?_⟩
  unfold Drive.create
  split
  · rename_i hnone
    rw [hnext] at hnone
    cases hnone
  · rename_i nsid' hsome
    obtain rfl : nsid = nsid' := Option.some.inj (hnext.symm.trans hsome)
    rfl

/-- The controllers of a list, as the subsystem reads them. -/
theorem ids_controllers (d : Drive) :
    (d.controllerList 0).tail.take ((d.controllerList 0).headD 0).toNat = d.controllers.take 2047 := by
  have hpage : Pages.page 2047 (fun id => decide ((0 : BitVec 16) ≤ id)) d.controllers = d.controllers.take 2047 :=
    Pages.page_eq_take fun id _ => decide_eq_true (Nat.zero_le _)
  have hlen := List.length_take_le 2047 d.controllers
  have hhead : (BitVec.ofNat 16 (d.controllers.take 2047).length).toNat = (d.controllers.take 2047).length := by
    rw [BitVec.toNat_ofNat, Nat.mod_eq_of_lt (by omega)]
  rw [Drive.controllerList, hpage]
  change ((d.controllers.take 2047) ++ _).take (BitVec.ofNat 16 (d.controllers.take 2047).length).toNat = _
  rw [hhead, List.take_left' rfl]

/-- A namespace is attached to the controllers of the list. -/
structure Attached (d : Drive) (nsid : BitVec 32) (st st' : Storage) : Prop where
  created : st'.created = st.created
  NN : st'.sub.NN = st.sub.NN
  self : st'.sub.self = st.sub.self
  nsids : st'.sub.nsids = st.sub.nsids
  idNamespace : st'.sub.idNamespace = st.sub.idNamespace
  mem : ∀ id, id ∈ st'.sub.attached nsid ↔ id ∈ d.controllers.take 2047
  others : ∀ n ≠ nsid, st'.sub.attached n = st.sub.attached n

/-- The list names no other controllers. -/
theorem controllers_listed (d : Drive) :
    ¬((d.controllers.take 2047).any fun id => !d.controllers.contains id) = true := by
  simp only [List.any_eq_true, Bool.not_eq_true', List.contains_eq_mem, decide_eq_false_iff_not]
  rintro ⟨id, hid, hnot⟩
  exact hnot (List.mem_of_mem_take hid)

theorem attach_success (hmem : nsid ∈ st.sub.nsids) (hnone : st.sub.attached nsid = [])
    (hshared : (st.created nsid).NMIC.getLsbD 0 = true) :
    ∃ st', d.attach nsid (d.controllerList 0) st = (st', .success) ∧ Attached d nsid st st' := by
  unfold Drive.attach
  simp only [ids_controllers]
  have hprivate {p : Prop} : ¬((st.created nsid).NMIC.getLsbD 0 = false ∧ p) := fun h =>
    absurd (hshared.symm.trans h.1) (by decide)
  rw [if_neg (by simp [hmem]), if_neg (controllers_listed d), if_neg (by simp [hnone]), if_neg hprivate]
  refine ⟨_, rfl, rfl, rfl, rfl, rfl, rfl, fun id => ?_, fun n hn => if_neg hn⟩
  simp only [if_pos, hnone, List.contains_nil, Bool.false_or, List.mem_filter, List.contains_iff_mem]
  exact and_iff_right_of_imp List.mem_of_mem_take

theorem attach_again {id : BitVec 16} (hmem : nsid ∈ st.sub.nsids) (hid : id ∈ d.controllers.take 2047)
    (hattached : id ∈ st.sub.attached nsid) :
    d.attach nsid (d.controllerList 0) st = (st, .nsAlreadyAttached) := by
  unfold Drive.attach
  simp only [ids_controllers]
  rw [if_neg (by simp [hmem]), if_neg (controllers_listed d),
    if_pos (List.any_eq_true.2 ⟨id, hid, List.contains_iff_mem.2 hattached⟩)]

theorem UNVMCAP_attached (h : Attached d nsid st st') : d.UNVMCAP st' = d.UNVMCAP st := by
  rw [Drive.UNVMCAP, h.nsids, h.created, Drive.UNVMCAP]

/-- The size and the capacity are read back. -/
theorem idNamespace_read (d : Drive) (s : NamespaceManagementCreateStruct) :
    Bytes.littleEndian ((d.idNamespace s).take 8) = s.NSZE.toNat ∧
    Bytes.littleEndian (((d.idNamespace s).drop 8).take 8) = s.NCAP.toNat := by
  have htoNat (value : BitVec 64) : Bytes.littleEndian (Bytes.toBytes 8 value) = value.toNat := by
    rw [Bytes.littleEndian_toBytes, Nat.mod_eq_of_lt value.isLt]
  rw [Drive.idNamespace, List.append_assoc]
  constructor
  · rw [List.take_left' (Bytes.length_toBytes ..), htoNat]
  · rw [List.drop_left' (Bytes.length_toBytes ..), List.take_left' (Bytes.length_toBytes ..), htoNat]

theorem idNamespace_some (hsize : s.NSZE ≠ 0) : ((d.idNamespace s).any fun byte => byte != 0) = true := by
  by_contra hnot
  have hall : ∀ byte ∈ d.idNamespace s, byte = 0 := by simpa using hnot
  apply hsize
  apply BitVec.eq_of_toNat_eq
  rw [← (idNamespace_read d s).1]
  exact Bytes.littleEndian_eq_zero_iff.2 fun byte hbyte => hall byte (List.mem_of_mem_take hbyte)

section Inserted

variable {hle : nsid ≠ 0 ∧ nsid ≤ st.sub.NN} {hfree : nsid ∉ st.sub.nsids}

/-- A namespace that is shared can be attached when it has been created. -/
theorem attach_inserted (d : Drive) (hshared : s.NMIC.getLsbD 0 = true) (data : List (BitVec 8)) :
    ∃ st₂, d.attach nsid (d.controllerList 0) (st.insert nsid hle hfree s data) = (st₂, .success) ∧
      Attached d nsid (st.insert nsid hle hfree s data) st₂ :=
  attach_success (mem_insert.2 (Or.inl rfl)) attached_insert (created_insert.symm ▸ hshared)

/-- It is inactive before. -/
theorem struct_insert {data : List (BitVec 8)} :
    ((st.insert nsid hle hfree s data).sub.namespaceStruct nsid).all (fun byte => byte == 0) = true := by
  rw [Subsystem.namespaceStruct, attached_insert, if_neg List.not_mem_nil, List.all_replicate]
  rfl

/-- The controller of the host reads the data of the namespace if it is in the list. -/
theorem struct_attached (h : Attached d nsid (st.insert nsid hle hfree s (d.idNamespace s)) st₂) :
    st₂.sub.namespaceStruct nsid =
      if st.sub.self ∈ d.controllers.take 2047 then d.idNamespace s else List.replicate 4096 0 := by
  rw [Subsystem.namespaceStruct, h.idNamespace, h.self, insert_self]
  simp only [h.mem]
  split
  · exact if_pos rfl
  · rfl

end Inserted

/-- **What it takes to create and to attach one namespace, and what comes of it.** -/
theorem createNamespace_iff {capacity total : BitVec 64} {current : Nat}
    (hroom : st.sub.nsids.length < st.sub.NN.toNat) :
    ∃ nsid hle hfree, ∃ st₂, Attached d nsid (st.insert nsid hle hfree ⟨capacity, capacity, 0, 0, 1⟩
        (d.idNamespace ⟨capacity, capacity, 0, 0, 1⟩)) st₂ ∧ ∀ st',
      createNamespace d capacity total (d.controllerList 0) st current = .ok st' ↔
        capacity ≠ 0 ∧ d.taken ⟨capacity, capacity, 0, 0, 1⟩ ≤ d.UNVMCAP st ∧
        st.sub.self ∈ d.controllers.take 2047 ∧
        BitVec.ofNat 64 (d.UNVMCAP st - d.taken ⟨capacity, capacity, 0, 0, 1⟩) =
          total - capacity * (BitVec.ofNat 64 current + 1) * 512 ∧ st₂ = st' := by
  obtain ⟨s, hs⟩ : ∃ s : NamespaceManagementCreateStruct, s = ⟨capacity, capacity, 0, 0, 1⟩ := ⟨_, rfl⟩
  have hsize : s.NSZE = capacity ∧ s.NCAP = capacity ∧ s.NMIC = 1 := by
    subst hs
    exact ⟨rfl, rfl, rfl⟩
  rw [← hs]
  obtain ⟨nsid, hle, hfree, hcreate⟩ := @create_success d st s hroom
  obtain ⟨st₂, hattach, hattached⟩ := @attach_inserted st nsid s hle hfree d (by rw [hsize.2.2]; rfl) (d.idNamespace s)
  refine ⟨nsid, hle, hfree, st₂, hattached, fun st' => ?_⟩
  rw [createNamespace, ← hs, hcreate]
  by_cases hzero : capacity = 0
  · rw [if_pos (Or.inl (hsize.1.trans hzero))]
    exact iff_of_false (fun h => by cases h) fun h => h.1 hzero
  have hvalid : ¬(s.NSZE = 0 ∨ s.NSZE < s.NCAP) := by
    rw [hsize.1, hsize.2.1]
    exact not_or.2 ⟨hzero, BitVec.lt_irrefl capacity⟩
  rw [if_neg hvalid, and_iff_right hzero]
  by_cases hfits : d.UNVMCAP st < d.taken s
  · rw [if_pos hfits]
    exact iff_of_false (fun h => by cases h) fun h => absurd hfits (Nat.not_lt.2 h.1)
  rw [if_neg hfits, and_iff_right (Nat.not_lt.1 hfits)]
  simp only [require_bind, hattach, struct_insert, true_and]
  rw [struct_attached hattached, UNVMCAP_attached hattached, UNVMCAP_insert]
  by_cases hself : st.sub.self ∈ d.controllers.take 2047
  · have hmem : nsid ∈ st₂.sub.nsids := hattached.nsids ▸ mem_insert.2 (Or.inl rfl)
    have hagain := attach_again hmem hself ((hattached.mem _).2 hself)
    have hread := idNamespace_read d s
    have hok : (pure st₂ : Except Fault Storage) = .ok st' ↔ st₂ = st' := ⟨fun h => Except.ok.inj h, congrArg _⟩
    rw [if_pos hself, hread.1, hread.2, hsize.1, hsize.2.1, hagain, hok,
      and_iff_right (idNamespace_some (hsize.1.symm ▸ hzero))]
    simp [hself]
  · rw [if_neg hself, List.any_replicate]
    exact iff_of_false (fun h => by cases h.1) fun h => hself h.1

end Create

/-! ## All shares -/

section Shares

variable {d : Drive} {st st' : Storage} {capacity : BitVec 64} {k : Nat}

/-- What the test takes for granted. -/
structure Suits (d : Drive) (sub : Subsystem) : Prop where
  /-- There is 1 GB for each namespace. -/
  gigabyte : 0 < d.TNVMCAP / 2 ^ 30 / sub.NN.toNat
  reserved : d.reserved = 0
  /-- The first format has 512 bytes. -/
  format : d.LBADS 0 = 9
  granularity : d.granularity ∣ d.TNVMCAP / 2 ^ 30 / sub.NN.toNat * 2 ^ 30
  /-- The controller is in the first list. -/
  self : sub.self ∈ d.controllers.take 2047

theorem toNat_individualNamespaceCapacity {u : Nat} (hu : u ≤ 2 ^ 53) (NN : BitVec 32) :
    (individualNamespaceCapacity (BitVec.ofNat 64 u) NN).toNat = u / 2 ^ 30 / NN.toNat * 2 ^ 21 := by
  have hshare : u / 2 ^ 30 / NN.toNat ≤ 2 ^ 23 :=
    Nat.le_trans (Nat.div_le_self _ _) (Nat.div_le_of_le_mul (by omega))
  have hu' : (BitVec.ofNat 64 u).toNat / 1024 / 1024 / 1024 = u / 2 ^ 30 := by
    rw [BitVec.toNat_ofNat]
    omega
  rw [individualNamespaceCapacity, hu']
  generalize u / 2 ^ 30 / NN.toNat = GB at *
  rw [BitVec.toNat_udiv, BitVec.toNat_mul, BitVec.toNat_mul, BitVec.toNat_mul, BitVec.toNat_ofNat]
  change GB % 2 ^ 64 * 1024 % 2 ^ 64 * 1024 % 2 ^ 64 * 1024 % 2 ^ 64 / 512 = GB * 2 ^ 21
  omega

/-- The capacity that is expected, without overflow. -/
theorem expected_iff {left : Nat} (hleft : left ≤ 2 ^ 53) (hk : k < 2 ^ 32)
    (hfits : capacity.toNat * (k + 1) * 512 ≤ d.TNVMCAP) :
    BitVec.ofNat 64 left = BitVec.ofNat 64 d.TNVMCAP - capacity * (BitVec.ofNat 64 k + 1) * 512 ↔
      left = d.TNVMCAP - capacity.toNat * (k + 1) * 512 := by
  have htotal := d.TNVMCAP_le
  have hproduct : (capacity * (BitVec.ofNat 64 k + 1) * 512).toNat = capacity.toNat * (k + 1) * 512 := by
    have hcount : (BitVec.ofNat 64 k + 1).toNat = k + 1 := by
      rw [BitVec.toNat_add, BitVec.toNat_ofNat, Nat.mod_eq_of_lt (show k < 2 ^ 64 by omega)]
      exact Nat.mod_eq_of_lt (by change k + 1 < 2 ^ 64; omega)
    rw [BitVec.toNat_mul, BitVec.toNat_mul, hcount]
    generalize capacity.toNat * (k + 1) = product at *
    change product % 2 ^ 64 * 512 % 2 ^ 64 = _
    omega
  rw [← BitVec.toNat_inj, BitVec.toNat_sub, hproduct, BitVec.toNat_ofNat, BitVec.toNat_ofNat]
  omega

/-- Some namespaces have been created. -/
structure Shared (d : Drive) (capacity : BitVec 64) (k : Nat) (st st' : Storage) : Prop where
  NN : st'.sub.NN = st.sub.NN
  self : st'.sub.self = st.sub.self
  length : st'.sub.nsids.length = k
  created : ∀ nsid ∈ st'.sub.nsids, st'.created nsid = ⟨capacity, capacity, 0, 0, 1⟩
  attached : ∀ nsid ∈ st'.sub.nsids, ∀ id, id ∈ st'.sub.attached nsid ↔ id ∈ d.controllers.take 2047

theorem Shared.next (h : Shared d capacity k st st') {nsid : BitVec 32} {hle : nsid ≠ 0 ∧ nsid ≤ st'.sub.NN}
    {hfree : nsid ∉ st'.sub.nsids} {data : List (BitVec 8)} {st₂ : Storage}
    (hattached : Attached d nsid (st'.insert nsid hle hfree ⟨capacity, capacity, 0, 0, 1⟩ data) st₂) :
    Shared d capacity (k + 1) st st₂ := by
  refine ⟨hattached.NN.trans h.NN, hattached.self.trans h.self, ?_, fun n hn => ?_, fun n hn id => ?_⟩
  · rw [hattached.nsids, length_insert, h.length]
  · rw [hattached.nsids, mem_insert] at hn
    rw [hattached.created]
    rcases hn with rfl | hn
    · exact created_insert
    · rw [created_insert_of_mem hn, h.created n hn]
  · rw [hattached.nsids, mem_insert] at hn
    by_cases hne : n = nsid
    · rw [hne, hattached.mem]
    · have hold := hn.resolve_left hne
      rw [hattached.others n hne, attached_insert_of_mem hold, h.attached n hold]

theorem Shared.UNVMCAP_eq (h : Shared d capacity k st st') :
    d.UNVMCAP st' = d.TNVMCAP - d.reserved - k * d.taken ⟨capacity, capacity, 0, 0, 1⟩ := by
  have hmap : (st'.sub.nsids.map fun nsid => d.taken (st'.created nsid)) =
      List.replicate k (d.taken ⟨capacity, capacity, 0, 0, 1⟩) := by
    rw [← h.length, ← List.map_const', List.map_congr_left]
    exact fun nsid hn => by rw [h.created nsid hn]
  rw [Drive.UNVMCAP, hmap, List.sum_replicate_nat]

/-- The share of each namespace if there is none. -/
def eachShare (d : Drive) (sub : Subsystem) : BitVec 64 :=
  individualNamespaceCapacity (BitVec.ofNat 64 (d.TNVMCAP - d.reserved)) sub.NN

theorem toNat_eachShare (d : Drive) (sub : Subsystem) :
    (eachShare d sub).toNat * 512 = (d.TNVMCAP - d.reserved) / 2 ^ 30 / sub.NN.toNat * 2 ^ 30 := by
  have hle := d.TNVMCAP_le
  rw [eachShare, toNat_individualNamespaceCapacity (by omega)]
  omega

theorem shares_le (d : Drive) (sub : Subsystem) :
    sub.NN.toNat * ((eachShare d sub).toNat * 512) ≤ d.TNVMCAP - d.reserved :=
  calc sub.NN.toNat * ((eachShare d sub).toNat * 512)
      = (d.TNVMCAP - d.reserved) / 2 ^ 30 / sub.NN.toNat * sub.NN.toNat * 2 ^ 30 := by
        rw [toNat_eachShare, ← Nat.mul_assoc, Nat.mul_comm sub.NN.toNat]
    _ ≤ (d.TNVMCAP - d.reserved) / 2 ^ 30 * 2 ^ 30 := Nat.mul_le_mul_right _ (Nat.div_mul_le_self _ _)
    _ ≤ d.TNVMCAP - d.reserved := Nat.div_mul_le_self _ _

/-- The bytes that a share takes. -/
theorem taken_share (d : Drive) (capacity : BitVec 64) :
    d.taken ⟨capacity, capacity, 0, 0, 1⟩ = d.rounded (capacity.toNat * 2 ^ d.LBADS 0) := by
  have hformat : (0 : BitVec 8) &&& 0x0F = 0 := by decide
  rw [Drive.taken, hformat]

theorem Suits.taken (h : Suits d st.sub) :
    d.taken ⟨eachShare d st.sub, eachShare d st.sub, 0, 0, 1⟩ = (eachShare d st.sub).toNat * 512 := by
  have hshare := toNat_eachShare d st.sub
  rw [h.reserved, Nat.sub_zero] at hshare
  have hdvd := h.granularity
  rw [← hshare] at hdvd
  rw [taken_share, h.format]
  exact (rounded_eq_iff d _).2 hdvd

/-- One more share is there, and it is what is missing afterwards. -/
theorem Suits.step (h : Suits d st.sub) (hshared : Shared d (eachShare d st.sub) k st st')
    (hk : k < st.sub.NN.toNat) :
    ∃ st₂, createNamespace d (eachShare d st.sub) (BitVec.ofNat 64 d.TNVMCAP) (d.controllerList 0) st' k = .ok st₂ ∧
      Shared d (eachShare d st.sub) (k + 1) st st₂ := by
  have hroom : st'.sub.nsids.length < st'.sub.NN.toNat := by rwa [hshared.length, hshared.NN]
  obtain ⟨nsid, hle, hfree, st₂, hattached, hiff⟩ := @createNamespace_iff d st' (eachShare d st.sub)
    (BitVec.ofNat 64 d.TNVMCAP) k hroom
  have htaken := h.taken
  have htotal := d.TNVMCAP_le
  have hleft := hshared.UNVMCAP_eq
  have hall : (k + 1) * ((eachShare d st.sub).toNat * 512) ≤ d.TNVMCAP := by
    have := shares_le d st.sub
    rw [h.reserved, Nat.sub_zero] at this
    exact Nat.le_trans (Nat.mul_le_mul_right _ hk) this
  rw [Nat.succ_mul] at hall
  rw [htaken, h.reserved, Nat.sub_zero] at hleft
  have hproduct : (eachShare d st.sub).toNat * (k + 1) * 512 =
      k * ((eachShare d st.sub).toNat * 512) + (eachShare d st.sub).toNat * 512 := by
    rw [Nat.mul_right_comm, Nat.mul_succ, Nat.mul_comm _ k]
  refine ⟨st₂, (hiff st₂).2 ⟨fun hzero => ?_, ?_, ?_, ?_, rfl⟩, hshared.next hattached⟩
  · have hshare := toNat_eachShare d st.sub
    have hpos := h.gigabyte
    rw [hzero, h.reserved, Nat.sub_zero] at hshare
    change 0 * 512 = _ at hshare
    omega
  · rw [htaken, hleft]
    omega
  · rw [hshared.self]
    exact h.self
  · have hk' : k < 2 ^ 32 := Nat.lt_trans hk st.sub.NN.isLt
    rw [expected_iff (by omega) hk' (by omega), htaken, hleft, hproduct]
    omega

/-- All namespaces are created, one after the other. -/
theorem Suits.fills (h : Suits d st.sub) (hnsids : st.sub.nsids = []) :
    ∃ st', runCoreTest d st = .ok st' ∧ Shared d (eachShare d st.sub) st.sub.NN.toNat st st' := by
  have hUNVMCAP : d.UNVMCAP st = d.TNVMCAP - d.reserved := by simp [Drive.UNVMCAP, hnsids]
  have hlist : (d.controllerList 0).headD 0 ≠ 0 := by
    intro hzero
    have hself := h.self
    rw [← ids_controllers, hzero] at hself
    cases hself
  have hloop : ∀ k ≤ st.sub.NN.toNat, ∃ st', (List.range k).foldlM (createNamespace d (eachShare d st.sub)
      (BitVec.ofNat 64 d.TNVMCAP) (d.controllerList 0)) st = .ok st' ∧ Shared d (eachShare d st.sub) k st st' := by
    intro k hk
    induction k with
    | zero =>
      have hnone {p : BitVec 32 → Prop} : ∀ nsid ∈ st.sub.nsids, p nsid := by simp [hnsids]
      exact ⟨st, rfl, rfl, rfl, by simp [hnsids], hnone, hnone⟩
    | succ k ih =>
      obtain ⟨st₁, hrun, hshared⟩ := ih (by omega)
      obtain ⟨st₂, hstep, hnext⟩ := h.step hshared hk
      refine ⟨st₂, ?_, hnext⟩
      rw [List.range_succ, List.foldlM_append, hrun]
      change (createNamespace d _ _ _ st₁ k >>= pure) = _
      rw [hstep]
      rfl
  obtain ⟨st', hrun, hshared⟩ := hloop _ (Nat.le_refl _)
  refine ⟨st', ?_, hshared⟩
  rw [runCoreTest, hUNVMCAP]
  exact require_bind.2 ⟨(namespaceList_head st.sub).2 hnsids, require_bind.2 ⟨hlist, hrun⟩⟩

/-- A run that comes to its end has created its first namespace. -/
theorem first_of_ok (hNN : st.sub.NN ≠ 0) (hnsids : st.sub.nsids = []) (h : runCoreTest d st = .ok st') :
    ∃ st₁, createNamespace d (eachShare d st.sub) (BitVec.ofNat 64 d.TNVMCAP) (d.controllerList 0) st 0 = .ok st₁ := by
  have hUNVMCAP : d.UNVMCAP st = d.TNVMCAP - d.reserved := by simp [Drive.UNVMCAP, hnsids]
  have hpos : st.sub.NN.toNat ≠ 0 := fun hzero => hNN (BitVec.eq_of_toNat_eq hzero)
  rw [runCoreTest, hUNVMCAP, ← eachShare] at h
  obtain ⟨-, h⟩ := require_bind.1 h
  obtain ⟨-, h⟩ := require_bind.1 h
  obtain ⟨n, hn⟩ := Nat.exists_eq_succ_of_ne_zero hpos
  rw [hn, List.range_succ_eq_map, List.foldlM_cons] at h
  cases hfirst : createNamespace d (eachShare d st.sub) (BitVec.ofNat 64 d.TNVMCAP) (d.controllerList 0) st 0 with
  | error e =>
    rw [hfirst] at h
    cases h
  | ok st₁ => exact ⟨st₁, rfl⟩

/-- The first namespace needs all that the others do. -/
theorem suits_of_ok (hNN : st.sub.NN ≠ 0) (hnsids : st.sub.nsids = []) (h : runCoreTest d st = .ok st') :
    Suits d st.sub := by
  have hUNVMCAP : d.UNVMCAP st = d.TNVMCAP - d.reserved := by simp [Drive.UNVMCAP, hnsids]
  have hpos : 0 < st.sub.NN.toNat := Nat.pos_of_ne_zero fun hzero => hNN (BitVec.eq_of_toNat_eq hzero)
  obtain ⟨st₁, hfirst⟩ := first_of_ok hNN hnsids h
  obtain ⟨nsid, hle, hfree, st₂, -, hiff⟩ := @createNamespace_iff d st (eachShare d st.sub)
    (BitVec.ofNat 64 d.TNVMCAP) 0 (by rwa [hnsids])
  obtain ⟨hzero, hfits, hself, hexpected, -⟩ := (hiff st₁).1 hfirst
  have htotal := d.TNVMCAP_le
  have hpos : (eachShare d st.sub).toNat ≠ 0 := fun h => hzero (BitVec.eq_of_toNat_eq h)
  have hshare := toNat_eachShare d st.sub
  rw [taken_share, hUNVMCAP] at hfits hexpected
  generalize hblocks : (eachShare d st.sub).toNat = blocks at *
  have hround := le_rounded d (blocks * 2 ^ d.LBADS 0)
  have hle : blocks * 512 ≤ blocks * 2 ^ d.LBADS 0 :=
    Nat.mul_le_mul_left _ (Nat.pow_le_pow_right (Nat.succ_pos 1) (d.LBADS_le 0))
  generalize hbytes : blocks * 2 ^ d.LBADS 0 = bytes at *
  generalize htaken : d.rounded bytes = taken at *
  have hone : (eachShare d st.sub).toNat * (0 + 1) * 512 ≤ d.TNVMCAP := by
    rw [hblocks, Nat.zero_add, Nat.mul_one]
    exact Nat.le_trans hle (Nat.le_trans hround (Nat.le_trans hfits (Nat.sub_le _ _)))
  rw [expected_iff (by omega) (by decide) hone, hblocks] at hexpected
  have hreserved : d.reserved = 0 := by omega
  have hsame : bytes = blocks * 512 := by omega
  have hrounded : taken = bytes := by omega
  rw [hreserved, Nat.sub_zero] at hshare
  refine ⟨?_, hreserved, ?_, ?_, hself⟩
  · apply Nat.pos_of_ne_zero
    intro hnone
    rw [hnone] at hshare
    omega
  · have hformat : blocks * 2 ^ d.LBADS 0 = blocks * 2 ^ 9 := hbytes.trans hsame
    exact Nat.pow_right_injective (Nat.le_refl 2) (Nat.eq_of_mul_eq_mul_left (Nat.pos_of_ne_zero hpos) hformat)
  · rw [← hshare, ← hsame]
    exact (rounded_eq_iff d bytes).1 (htaken.trans hrounded)

end Shares

/-! ## The loops -/

section Rounds

variable {d : Drive} {st st' : Storage} {fuel : Nat}

/-- There are as many namespaces as there can be, of one size, attached to all controllers of the list. -/
structure Filled (d : Drive) (st : Storage) : Prop where
  length : st.sub.nsids.length = st.sub.NN.toNat
  size : ∀ nsid ∈ st.sub.nsids, (st.created nsid).NSZE.toNat * 512 = d.TNVMCAP / 2 ^ 30 / st.sub.NN.toNat * 2 ^ 30
  attached : ∀ nsid ∈ st.sub.nsids, ∀ id, id ∈ st.sub.attached nsid ↔ id ∈ d.controllers.take 2047

theorem suits_congr {sub sub' : Subsystem} (h : Keeps sub sub') : Suits d sub' ↔ Suits d sub := by
  constructor
  · rintro ⟨h1, h2, h3, h4, h5⟩
    rw [h.1] at h1 h4
    rw [h.2] at h5
    exact ⟨h1, h2, h3, h4, h5⟩
  · rintro ⟨h1, h2, h3, h4, h5⟩
    rw [← h.1] at h1 h4
    rw [← h.2] at h5
    exact ⟨h1, h2, h3, h4, h5⟩

/-- One loop, whatever there is before. -/
theorem round_ok (hsuits : Suits d st.sub) (hfuel : st.sub.nsids.length + 65536 < fuel) :
    ∃ st', round d fuel st = some st' ∧ Keeps st.sub st'.sub ∧ Filled d st' := by
  obtain ⟨sub, hdelete⟩ := deletes hfuel
  obtain ⟨hnsids, hkeeps⟩ := deleted_of_ok hdelete
  have hsuits' := (suits_congr hkeeps).2 hsuits
  obtain ⟨st', hrun, hshared⟩ := @Suits.fills d { st with sub } hsuits' hnsids
  refine ⟨st', ?_, hkeeps.trans ⟨hshared.NN, hshared.self⟩, ?_, fun nsid hn => ?_, hshared.attached⟩
  · rw [round, hdelete]
    change (runCoreTest d { st with sub }).toOption = _
    rw [hrun]
    rfl
  · rw [hshared.length, hshared.NN]
  · have hshare := toNat_eachShare d sub
    rw [hsuits.reserved, Nat.sub_zero] at hshare
    rw [hshared.created nsid hn, hshared.NN]
    exact hshare

theorem suits_of_round (hNN : st.sub.NN ≠ 0) (h : round d fuel st = some st') : Suits d st.sub := by
  unfold round at h
  cases hdelete : DeleteAllNamespaces.runCoreTest fuel st.sub with
  | error e =>
    rw [hdelete] at h
    cases h
  | ok sub =>
    rw [hdelete] at h
    change (runCoreTest d { st with sub }).toOption = some st' at h
    obtain ⟨hnsids, hkeeps⟩ := deleted_of_ok hdelete
    cases hrun : runCoreTest d { st with sub } with
    | error e =>
      rw [hrun] at h
      cases h
    | ok st₁ => exact (suits_congr hkeeps).1 (suits_of_ok (hkeeps.1.symm ▸ hNN) hnsids hrun)

theorem rounds_ok (loops : Nat) (hsuits : Suits d st.sub) (hfuel : st.sub.nsids.length + 65536 < fuel)
    (hfuel' : 2 ^ 32 + 65536 < fuel) : ∃ st', rounds d fuel (loops + 1) st = some st' ∧ Filled d st' := by
  induction loops generalizing st with
  | zero =>
    obtain ⟨st', hround, -, hfilled⟩ := round_ok hsuits hfuel
    refine ⟨st', ?_, hfilled⟩
    rw [rounds, hround]
    rfl
  | succ loops ih =>
    obtain ⟨st₁, hround, hkeeps, hfilled⟩ := round_ok hsuits hfuel
    have hNN := st₁.sub.NN.isLt
    have hlength := hfilled.length
    obtain ⟨st', hrounds, hlast⟩ := ih ((suits_congr hkeeps).2 hsuits) (by omega)
    refine ⟨st', ?_, hlast⟩
    rw [rounds, hround]
    exact hrounds

/-- **In a run of any number of loops the two tests pass exactly if they have what they take for granted, whatever
namespaces there are before; and what is left is a subsystem that is shared out.** -/
theorem rounds_pass_iff (d : Drive) (loops : Nat) (st : Storage) (hNN : st.sub.NN ≠ 0) :
    ((∃ fuel st', rounds d fuel (loops + 1) st = some st') ↔ Suits d st.sub) ∧
    (Suits d st.sub → ∃ m, ∀ fuel ≥ m, ∃ st', rounds d fuel (loops + 1) st = some st' ∧ Filled d st') := by
  have hpass (hsuits : Suits d st.sub) :
      ∃ m, ∀ fuel ≥ m, ∃ st', rounds d fuel (loops + 1) st = some st' ∧ Filled d st' :=
    ⟨st.sub.nsids.length + 2 ^ 32 + 65537, fun fuel hfuel => rounds_ok loops hsuits (by omega) (by omega)⟩
  refine ⟨⟨?_, fun hsuits => ?_⟩, hpass⟩
  · rintro ⟨fuel, st', h⟩
    rw [rounds] at h
    obtain ⟨st₁, hround, -⟩ := Option.bind_eq_some_iff.1 h
    exact suits_of_round hNN hround
  · obtain ⟨m, hm⟩ := hpass hsuits
    obtain ⟨st', hrun, -⟩ := hm m (Nat.le_refl m)
    exact ⟨m, st', hrun⟩

/-! ### A drive -/

/-- The first identifier that is free. -/
def firstFree (NN : BitVec 32) (nsids : List (BitVec 32)) : Option (BitVec 32) :=
  ((List.range NN.toNat).map fun n => BitVec.ofNat 32 (n + 1)).find? fun nsid => !nsids.contains nsid

theorem firstFree_free {NN : BitVec 32} {nsids : List (BitVec 32)} {nsid : BitVec 32}
    (h : firstFree NN nsids = some nsid) : nsid ≠ 0 ∧ nsid ≤ NN ∧ nsid ∉ nsids := by
  have hfree := List.find?_some h
  obtain ⟨n, hn, rfl⟩ := List.mem_map.1 (List.mem_of_find?_eq_some h)
  have hNN := NN.isLt
  have hlt := List.mem_range.1 hn
  have htoNat : (BitVec.ofNat 32 (n + 1)).toNat = n + 1 := by
    rw [BitVec.toNat_ofNat, Nat.mod_eq_of_lt (by omega)]
  refine ⟨fun hzero => ?_, ?_, by simpa using hfree⟩
  · rw [hzero] at htoNat
    cases htoNat
  · rw [BitVec.le_def, htoNat]
    exact hlt

theorem firstFree_isSome {NN : BitVec 32} {nsids : List (BitVec 32)} (h : nsids.length < NN.toNat) :
    (firstFree NN nsids).isSome := by
  rw [firstFree, List.find?_isSome]
  by_contra hnone
  push Not at hnone
  have hsubset : ((List.range NN.toNat).map fun n => BitVec.ofNat 32 (n + 1)) ⊆ nsids := by
    intro nsid hn
    simpa using hnone nsid hn
  have hnodup : ((List.range NN.toNat).map fun n => BitVec.ofNat 32 (n + 1)).Nodup := by
    refine List.Nodup.map_on (fun a ha b hb hab => ?_) List.nodup_range
    have hNN := NN.isLt
    rw [List.mem_range] at ha hb
    have htoNat := congrArg BitVec.toNat hab
    rw [BitVec.toNat_ofNat, BitVec.toNat_ofNat] at htoNat
    omega
  have hle := (List.subperm_of_subset hnodup hsubset).length_le
  rw [List.length_map, List.length_range] at hle
  exact absurd h (Nat.not_lt.2 hle)

/-- Two controllers and 4 GB. -/
def Drive.small : Drive where
  controllers := [1, 2]
  controllers_sorted := by simp [SortedKeys.Sorted]
  TNVMCAP := 2 ^ 32
  TNVMCAP_le := by decide
  reserved := 0
  granularity := 2 ^ 20
  granularity_pos := by decide
  LBADS := fun _ => 9
  LBADS_le := fun _ => Nat.le_refl 9
  next := firstFree
  next_free := firstFree_free
  next_isSome := firstFree_isSome
  idNamespaceRest := fun _ => List.replicate 4080 0

/-- The second of three namespaces, attached to the second controller. -/
def Storage.second : Storage where
  sub := {
    NN := 3
    nsids := [2]
    nsids_sorted := by simp [SortedKeys.Sorted]
    nsids_le := by simp
    attached := fun nsid => if nsid = 2 then [2] else []
    attached_sorted := fun nsid => by split <;> simp [SortedKeys.Sorted]
    self := 1
    idNamespace := fun _ => List.replicate 4096 0
    log := [] }
  created := fun _ => ⟨8, 8, 0, 0, 1⟩

theorem rounds_pass_small : ∃ m, ∀ fuel ≥ m, ∃ st', rounds Drive.small fuel 2 Storage.second = some st' ∧
    Filled Drive.small st' :=
  (rounds_pass_iff Drive.small 1 Storage.second (by decide)).2 ⟨by decide, rfl, rfl, by decide, by decide⟩

end Rounds

end CreateAndAttachMaxNamespaces
end Tnvme
