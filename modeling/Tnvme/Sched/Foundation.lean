import Mathlib.Data.List.Nodup
import Tnvme.Lib.Runs

/-!
# The groups of a test run

`BuildTestFoundation` opens the device and makes an object for each group. `DestroyTestFoundation` deletes them from the
back. Its loop counts up to the number of groups that are left, which falls by one each time as well. So it stops
halfway (`destroyTestFoundation_eq`), and what it should do it does for at most one group (`destroysAll_iff`).
-/

namespace Tnvme

namespace Foundation

/-- The classes in the order in which `InstantiateGroups` makes their objects. -/
inductive GroupClass where
  | grpPciRegisters | grpCtrlRegisters | grpBasicInit | grpResets | grpGeneralCmds | grpQueues | grpNVMReadCmd
  | grpNVMWriteCmd | grpNVMWriteReadCombo | grpNVMFlushCmd | grpInterrupts | grpNVMWriteUncorrectCmd
  | grpNVMDatasetMgmtCmd | grpNVMCompareCmd | grpAdminDeleteIOCQCmd | grpAdminDeleteIOSQCmd | grpAdminCreateIOCQCmd
  | grpAdminCreateIOSQCmd | grpAdminCreateIOQCmd | grpAdminGetLogPgCmd | grpAdminIdentifyCmd | grpAdminSetFeatCmd
  | grpAdminGetFeatCmd | grpAdminSetGetFeatCombo | grpAdminAsyncCmd | grpReservationsHostA | grpReservationsHostB
  | grpAdminNamespaceManagement
  deriving DecidableEq, Repr

def groupClasses : List GroupClass :=
  [.grpPciRegisters, .grpCtrlRegisters, .grpBasicInit, .grpResets, .grpGeneralCmds, .grpQueues, .grpNVMReadCmd,
    .grpNVMWriteCmd, .grpNVMWriteReadCombo, .grpNVMFlushCmd, .grpInterrupts, .grpNVMWriteUncorrectCmd,
    .grpNVMDatasetMgmtCmd, .grpNVMCompareCmd, .grpAdminDeleteIOCQCmd, .grpAdminDeleteIOSQCmd, .grpAdminCreateIOCQCmd,
    .grpAdminCreateIOSQCmd, .grpAdminCreateIOQCmd, .grpAdminGetLogPgCmd, .grpAdminIdentifyCmd, .grpAdminSetFeatCmd,
    .grpAdminGetFeatCmd, .grpAdminSetGetFeatCombo, .grpAdminAsyncCmd, .grpReservationsHostA, .grpReservationsHostB,
    .grpAdminNamespaceManagement]

/-- A `Group *`. No two objects have the same address. -/
structure GroupPtr where
  addr : Nat
  cls : GroupClass
  mGrpNum : Nat
  deriving DecidableEq, Repr

structure St where
  groups : List GroupPtr
  /-- What `delete` has been called with. -/
  deleted : List GroupPtr
  /-- `none` is `-1`. -/
  gDutFd : Option Nat
  /-- How often `new` has been called. -/
  made : Nat

/-- What the program starts with. -/
def start : St := ⟨[], [], none, 0⟩

/-- What `BuildTestFoundation` gets to know about the device. -/
structure Env where
  device : String
  /-- `none` if `open` fails. -/
  openDevice : Option Nat
  /-- The version of the driver, `none` if it cannot be asked for. -/
  driverMetrics : Option Nat
  apiVersion : Nat

def noDevices : String := "no devices found"

/-- The loop of `DestroyTestFoundation`. -/
def destroyLoop (i : Nat) (groups deleted : List GroupPtr) : List GroupPtr × List GroupPtr :=
  if h : i < groups.length then
    destroyLoop (i + 1) groups.dropLast (deleted ++ [groups.getLast (List.ne_nil_of_length_pos (Nat.zero_lt_of_lt h))])
  else (groups, deleted)
termination_by groups.length - i
decreasing_by
  rw [List.length_dropLast]
  omega

def destroyTestFoundation (s : St) : St :=
  { s with
    groups := (destroyLoop 0 s.groups s.deleted).1
    deleted := (destroyLoop 0 s.groups s.deleted).2
    gDutFd := none }

/-- `groups.push_back(new Grp(groups.size()))` -/
def pushGroup (s : St) (cls : GroupClass) : St :=
  { s with groups := s.groups ++ [⟨s.made, cls, s.groups.length⟩], made := s.made + 1 }

def instantiateGroups (classes : List GroupClass) (s : St) : St := classes.foldl pushGroup s

/-- The lock is not needed to go on. -/
def buildTestFoundation (classes : List GroupClass) (env : Env) (s : St) : Bool × St :=
  let s := destroyTestFoundation s
  if env.device = noDevices then (false, s)
  else match env.openDevice with
    | none => (false, s)
    | some fd =>
      let s := { s with gDutFd := some fd }
      if env.driverMetrics = some env.apiVersion then (true, instantiateGroups classes s) else (false, s)

inductive Call where
  | build (env : Env)
  | destroy

def step (classes : List GroupClass) (s : St) : Call → St
  | .build env => (buildTestFoundation classes env s).2
  | .destroy => destroyTestFoundation s

/-- The state after calls of the two functions. -/
def reached (classes : List GroupClass) (calls : List Call) : St := Runs.run (step classes) start calls

/-- `DestroyTestFoundation` deletes each group once, and none is left. -/
def DestroysAll (s : St) : Prop :=
  (destroyTestFoundation s).groups = [] ∧ ∀ g ∈ s.groups, (destroyTestFoundation s).deleted.count g = 1

/-! ## The loop -/

variable {classes : List GroupClass} {s : St} {groups deleted : List GroupPtr} {i : Nat}

/-- As many groups are deleted as it takes for the counter to meet the number of those left. -/
theorem destroyLoop_eq (i : Nat) (groups deleted : List GroupPtr) :
    destroyLoop i groups deleted = (groups.take (groups.length - (groups.length - i + 1) / 2),
      deleted ++ (groups.drop (groups.length - (groups.length - i + 1) / 2)).reverse) := by
  induction i, groups, deleted using destroyLoop.induct with
  | case1 i groups deleted h ih =>
    have hne := List.ne_nil_of_length_pos (Nat.zero_lt_of_lt h)
    obtain ⟨init, g, rfl⟩ := (List.eq_nil_or_concat' groups).resolve_left hne
    rw [List.length_append, List.length_singleton] at h
    have hkeep : (init ++ [g]).length - ((init ++ [g]).length - i + 1) / 2 =
        init.length - (init.length - (i + 1) + 1) / 2 := by
      rw [List.length_append, List.length_singleton]
      omega
    have hle : init.length - (init.length - (i + 1) + 1) / 2 ≤ init.length := Nat.sub_le _ _
    rw [List.dropLast_concat] at ih
    rw [destroyLoop, dif_pos (by rwa [List.length_append]), List.dropLast_concat, List.getLast_concat]
    rw [List.getLast_concat] at ih
    rw [ih, hkeep, List.take_append_of_le_length hle, List.drop_append_of_le_length hle, List.reverse_append,
      List.append_assoc]
    rfl
  | case2 i groups deleted h =>
    have hle : groups.length - (groups.length - i + 1) / 2 = groups.length := by omega
    rw [destroyLoop, dif_neg h, hle, List.take_length, List.drop_length, List.reverse_nil, List.append_nil]

/-- **Half of the groups are left.** -/
theorem destroyTestFoundation_eq (s : St) :
    (destroyTestFoundation s).groups = s.groups.take (s.groups.length / 2) ∧
      (destroyTestFoundation s).deleted = s.deleted ++ (s.groups.drop (s.groups.length / 2)).reverse := by
  have hhalf : s.groups.length - (s.groups.length - 0 + 1) / 2 = s.groups.length / 2 := by omega
  have hloop := destroyLoop_eq 0 s.groups s.deleted
  rw [hhalf] at hloop
  exact ⟨congrArg Prod.fst hloop, congrArg Prod.snd hloop⟩

/-! ## Calls of the two functions -/

/-- No object has been deleted twice, or is deleted and still there, and `new` will make another one. -/
structure Sound (s : St) : Prop where
  nodup : (s.groups ++ s.deleted).Nodup
  older : ∀ g ∈ s.groups ++ s.deleted, g.addr < s.made

theorem sound_start : Sound start := ⟨List.nodup_nil, nofun⟩

theorem destroy_perm (s : St) :
    ((destroyTestFoundation s).groups ++ (destroyTestFoundation s).deleted).Perm (s.groups ++ s.deleted) := by
  obtain ⟨hgroups, hdeleted⟩ := destroyTestFoundation_eq s
  have hswap : (s.deleted ++ (s.groups.drop (s.groups.length / 2)).reverse).Perm
      (s.groups.drop (s.groups.length / 2) ++ s.deleted) :=
    List.perm_append_comm.trans ((List.reverse_perm _).append_right _)
  rw [hgroups, hdeleted]
  refine (hswap.append_left _).trans ?_
  rw [← List.append_assoc, List.take_append_drop]

theorem Sound.destroy (h : Sound s) : Sound (destroyTestFoundation s) where
  nodup := (destroy_perm s).nodup_iff.2 h.nodup
  older g hg := h.older g ((destroy_perm s).mem_iff.1 hg)

theorem Sound.push (h : Sound s) (cls : GroupClass) : Sound (pushGroup s cls) := by
  have hperm : ((pushGroup s cls).groups ++ (pushGroup s cls).deleted).Perm
      (⟨s.made, cls, s.groups.length⟩ :: (s.groups ++ s.deleted)) := by
    rw [pushGroup, List.append_assoc, List.singleton_append]
    exact List.perm_middle
  constructor
  · rw [hperm.nodup_iff, List.nodup_cons]
    exact ⟨fun hmem => Nat.lt_irrefl _ (h.older _ hmem), h.nodup⟩
  · intro g hg
    rcases List.mem_cons.1 (hperm.mem_iff.1 hg) with rfl | hg
    · exact Nat.lt_succ_self s.made
    · exact Nat.lt_succ_of_lt (h.older g hg)

theorem Sound.build (h : Sound s) (classes : List GroupClass) (env : Env) :
    Sound (buildTestFoundation classes env s).2 := by
  unfold buildTestFoundation
  dsimp only
  split
  · exact h.destroy
  · split
    · exact h.destroy
    · rename_i fd _
      have hopen : Sound { destroyTestFoundation s with gDutFd := some fd } := ⟨h.destroy.nodup, h.destroy.older⟩
      split
      · exact Runs.inv_run (fun s cls hs => hs.push cls) hopen classes
      · exact hopen

theorem Sound.step (h : Sound s) (classes : List GroupClass) (call : Call) : Sound (step classes s call) := by
  cases call with
  | build env => exact h.build classes env
  | destroy => exact h.destroy

theorem sound_reached (classes : List GroupClass) (calls : List Call) : Sound (reached classes calls) :=
  Runs.inv_run (fun _ call hs => hs.step classes call) sound_start calls

theorem Sound.destroys_iff (h : Sound s) : DestroysAll s ↔ s.groups.length ≤ 1 := by
  obtain ⟨hgroups, hdeleted⟩ := destroyTestFoundation_eq s
  have hempty : (destroyTestFoundation s).groups = [] ↔ s.groups.length ≤ 1 := by
    rw [hgroups, List.take_eq_nil_iff]
    constructor
    · rintro (hhalf | hnil)
      · omega
      · rw [hnil]
        exact Nat.zero_le 1
    · intro hle
      exact .inl (by omega)
  refine ⟨fun hall => hempty.1 hall.1, fun hle => ⟨hempty.2 hle, fun g hg => ?_⟩⟩
  have hperm := destroy_perm s
  rw [hempty.2 hle, List.nil_append] at hperm
  rw [hperm.count_eq]
  exact List.count_eq_one_of_mem h.nodup (List.mem_append_left _ hg)

theorem length_instantiate (classes : List GroupClass) (s : St) :
    (instantiateGroups classes s).groups.length = s.groups.length + classes.length := by
  induction classes generalizing s with
  | nil => rfl
  | cons cls classes ih =>
    change (instantiateGroups classes (pushGroup s cls)).groups.length = _
    rw [ih, pushGroup, List.length_append, List.length_singleton, List.length_cons]
    omega

/-- What `BuildTestFoundation` builds when it succeeds: a group of each class, behind the half that its own call of
`DestroyTestFoundation` leaves. -/
theorem length_build {env : Env} (h : (buildTestFoundation classes env s).1 = true) :
    (buildTestFoundation classes env s).2.groups.length = s.groups.length / 2 + classes.length := by
  have hleft : (destroyTestFoundation s).groups.length = s.groups.length / 2 := by
    rw [(destroyTestFoundation_eq s).1, List.length_take]
    omega
  unfold buildTestFoundation at h ⊢
  dsimp only at h ⊢
  split at h
  · cases h
  · rename_i hdevice
    rw [if_neg hdevice]
    split at h
    · cases h
    · split at h
      · rename_i hversion
        rw [if_pos hversion, length_instantiate, hleft]
      · cases h

/-- **All groups are deleted exactly if there is at most one.** -/
theorem destroysAll_iff (classes : List GroupClass) (calls : List Call) :
    DestroysAll (reached classes calls) ↔ (reached classes calls).groups.length ≤ 1 :=
  (sound_reached classes calls).destroys_iff

/-- Of the groups of the program, 14 are left. -/
theorem not_destroysAll : ¬∀ classes calls, DestroysAll (reached classes calls) := by
  intro h
  have hle := (sound_reached _ _).destroys_iff.1 (h groupClasses [.build ⟨"/dev/nvme0", some 3, some 1, 1⟩])
  have hlength : (reached groupClasses [.build ⟨"/dev/nvme0", some 3, some 1, 1⟩]).groups.length = 0 / 2 + 28 :=
    length_build rfl
  rw [hlength] at hle
  exact absurd hle (by decide)

end Foundation

end Tnvme
