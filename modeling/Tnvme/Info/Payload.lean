import Tnvme.Info.Identify
import Tnvme.Lib.Bytes

/-!
# Reading the payload of an Identify command

Besides the fields of the tables, an entry of a list can be read, a field can be dumped, and the whole payload can be
checked for zeros. `GetValue` of a field checks its bounds, the others go through the payload with a pointer.

* `GetValue` of a field is exact unless the field ends where the payload ends (`fieldExact_iff`). Such a field can be
  dumped.
* The value of an entry is collected in a byte, and an entry is not checked to be there (`entryExact_iff`).
* The check for zeros goes through all fields of a table, one behind the other, and so leaves a payload that consists of
  zeros (`zeroExact_iff`).
-/

namespace Tnvme

open Bytes Fields

/-- How a call ends that does not return: with an exception, or in what the language does not define. -/
inductive Failure where
  | threw
  | undefined
  deriving DecidableEq, Repr

namespace Identify

def containsNamspcList (cmd : Identify) : Bool :=
  cmd.getCNS = some CNS.namespaceListActive.code || cmd.getCNS = some CNS.namespaceListSubsystem.code

def containsCtrlrList (cmd : Identify) : Bool :=
  cmd.getCNS = some CNS.controllerListAttachedToNSID.code || cmd.getCNS = some CNS.controllerListSubsystem.code

/-! ## Entries of a list -/

/-- A byte of the buffer, from which nothing keeps a pointer. -/
def byteAt (cmd : Identify) (i : Nat) : Except Failure (BitVec 8) :=
  match cmd.data[i]? with
  | none => .error .undefined
  | some byte => .ok byte

def entrySize (cmd : Identify) : Option Nat :=
  if cmd.containsNamspcList then some nsListEntrySize
  else if cmd.containsCtrlrList then some ctlrListEntrySize
  else none

/-- The loop over the bytes of an entry. The value is a `uint8_t`. -/
def mergeBytes (cmd : Identify) (offset : Nat) (is : List Nat) (value : BitVec 8) : Except Failure (BitVec 8) :=
  is.foldlM (fun value i => do
    let byte ← cmd.byteAt (offset + i)
    return (value.setWidth 32 ||| byte.setWidth 32 <<< (i * 8)).setWidth 8) value

/-- `GetValue` of an entry. The product of entry and size is one of 32 bits. -/
def getValueEntry (cmd : Identify) (entry : BitVec 32) : Except Failure (BitVec 32) :=
  match cmd.entrySize with
  | none => .error .threw
  | some entrySize => do
    let offset := (entry * BitVec.ofNat 32 entrySize).toNat
    let value ← cmd.mergeBytes offset (List.range entrySize) 0#8
    return value.setWidth 32

/-- The bytes of an entry. -/
def entryBytes (cmd : Identify) (size entry : Nat) : List (BitVec 8) := (cmd.data.drop (entry * size)).take size

/-- The value of an entry that is in the payload is returned, and for any other one an exception is thrown. -/
structure EntryExact (cmd : Identify) (size : Nat) (entry : BitVec 32) : Prop where
  inside : entry.toNat * size + size ≤ cmd.data.length →
    ∃ value, cmd.getValueEntry entry = .ok value ∧ value.toNat = littleEndian (cmd.entryBytes size entry.toNat)
  outside : cmd.data.length < entry.toNat * size + size → cmd.getValueEntry entry = .error .threw

/-! ## Fields -/

/-- The bytes of a field that `Dump` shows. -/
def dump (cmd : Identify) (field : IdentifyDataType) : Ret (List (BitVec 8)) :=
  if field.length + field.offset > cmd.data.length then .error .threw
  else .ok ((cmd.data.drop field.offset).take field.length)

/-- The value of a field that is in the payload is returned, for any other one an exception is thrown, and `Dump` takes
the same fields. -/
structure FieldExact (cmd : Identify) (field : IdentifyDataType) : Prop where
  inside : field.offset + field.length ≤ cmd.data.length → ∃ value, cmd.getValue field = .ok value ∧
    value.toNat = littleEndian ((cmd.data.drop field.offset).take field.length)
  outside : cmd.data.length < field.offset + field.length → cmd.getValue field = .error .threw
  dumped : (∃ value, cmd.getValue field = .ok value) ↔ ∃ bytes, cmd.dump field = .ok bytes

/-! ## The check for zeros -/

/-- A loop over bytes; `none` if one of them is not 0, else what is behind them. -/
def skipZeros : Nat → List (BitVec 8) → Except Failure (Option (List (BitVec 8)))
  | 0, data => .ok (some data)
  | _ + 1, [] => .error .undefined
  | n + 1, byte :: data => if byte ≠ 0 then .ok none else skipZeros n data

/-- The loop over the fields of a table. -/
def skipFields : List Nat → List (BitVec 8) → Except Failure (Option (List (BitVec 8)))
  | [], data => .ok (some data)
  | length :: lengths, data => do
    match ← skipZeros length data with
    | none => return none
    | some data => skipFields lengths data

/-- The lengths of what `isZeroFilled` goes through. -/
def zeroLengths (cmd : Identify) : Option (List Nat) :=
  if cmd.containsCtrlrDataStruct then some IdCtrlrCap.lengths
  else if cmd.containsNamspcDataStruct then some IdNamespc.lengths
  else if cmd.containsNamspcList then some [nsListSize]
  else if cmd.containsCtrlrList then some [ctlrListSize]
  else none

def isZeroFilled (cmd : Identify) : Except Failure Bool :=
  match cmd.zeroLengths with
  | none => .error .threw
  | some lengths => (skipFields lengths cmd.data).map Option.isSome

variable {cmd : Identify}

/-! ## Entries -/

/-- Of the bytes that are merged into a byte only the first one is left. -/
theorem merge_byte (value byte : BitVec 8) (i : Nat) :
    (value.setWidth 32 ||| byte.setWidth 32 <<< (i * 8)).setWidth 8 = if i = 0 then value ||| byte else value := by
  refine BitVec.eq_of_getLsbD_eq fun k hk => ?_
  by_cases hi : i = 0
  · subst hi
    simp [hk]
  · have hbelow : k < i * 8 := by omega
    simp [hi, hk, hbelow]

theorem mergeBytes_cons {offset i : Nat} {byte : BitVec 8} (hbyte : cmd.byteAt (offset + i) = .ok byte)
    (is : List Nat) (value : BitVec 8) : cmd.mergeBytes offset (i :: is) value =
      cmd.mergeBytes offset is (if i = 0 then value ||| byte else value) := by
  rw [← merge_byte, mergeBytes, List.foldlM_cons, hbyte]
  rfl

/-- Bytes behind the first one change nothing. -/
theorem mergeBytes_behind {offset : Nat} {is : List Nat}
    (h : ∀ i ∈ is, i ≠ 0 ∧ ∃ byte, cmd.byteAt (offset + i) = .ok byte) (value : BitVec 8) :
    cmd.mergeBytes offset is value = .ok value := by
  induction is with
  | nil => rfl
  | cons i is ih =>
    obtain ⟨⟨hi, byte, hbyte⟩, hrest⟩ := List.forall_mem_cons.1 h
    rw [mergeBytes_cons hbyte, if_neg hi, ih hrest]

/-- The loop does not throw, wherever it reads. -/
theorem mergeBytes_ne_threw (offset : Nat) (is : List Nat) (value : BitVec 8) :
    cmd.mergeBytes offset is value ≠ .error .threw := by
  induction is generalizing value with
  | nil => exact nofun
  | cons i is ih =>
    cases hbyte : cmd.byteAt (offset + i) with
    | error failure =>
      have hundefined : failure = .undefined := by
        unfold byteAt at hbyte
        split at hbyte
        · exact (Except.error.inj hbyte).symm
        · cases hbyte
      rw [mergeBytes, List.foldlM_cons, hbyte, hundefined]
      exact fun h => by cases h
    | ok byte =>
      rw [mergeBytes_cons hbyte]
      exact ih _

/-- The size of an entry is one of two. -/
theorem entrySize_cases {size : Nat} (h : cmd.entrySize = some size) : size = 4 ∨ size = 2 := by
  unfold entrySize at h
  split at h
  · exact .inl (Option.some.inj h).symm
  · split at h
    · exact .inr (Option.some.inj h).symm
    · cases h

theorem getValueEntry_inside {size : Nat} {entry : BitVec 32} (hlist : cmd.entrySize = some size)
    (hsize : cmd.data.length < 2 ^ 32) (h : entry.toNat * size + size ≤ cmd.data.length) :
    cmd.getValueEntry entry = .ok ((cmd.data[entry.toNat * size]?.getD 0).setWidth 32) := by
  have hpos : 0 < size := by rcases entrySize_cases hlist with rfl | rfl <;> decide
  have hoffset : (entry * BitVec.ofNat 32 size).toNat = entry.toNat * size := by
    have hlt : size < 2 ^ 32 := by omega
    rw [BitVec.toNat_mul, BitVec.toNat_ofNat, Nat.mod_eq_of_lt hlt]
    exact Nat.mod_eq_of_lt (by omega)
  have hbyte {i : Nat} (hi : i < size) :
      cmd.byteAt (entry.toNat * size + i) = .ok (cmd.data[entry.toNat * size + i]?.getD 0) := by
    have hlt : entry.toNat * size + i < cmd.data.length := by omega
    rw [byteAt, List.getElem?_eq_getElem hlt]
    rfl
  have hrange : List.range size = 0 :: List.range' 1 (size - 1) := by
    rcases entrySize_cases hlist with rfl | rfl <;> rfl
  have hloop : cmd.mergeBytes (entry.toNat * size) (List.range size) 0#8 =
      .ok (cmd.data[entry.toNat * size]?.getD 0) := by
    rw [hrange, mergeBytes_cons (hbyte hpos), if_pos rfl, BitVec.zero_or, Nat.add_zero]
    refine mergeBytes_behind (fun i hi => ?_) _
    obtain ⟨h1, hi⟩ := List.mem_range'_1.1 hi
    exact ⟨by omega, _, hbyte (by omega)⟩
  unfold getValueEntry
  rw [hlist]
  simp only [hoffset, hloop]
  rfl

theorem getValueEntry_ne_threw {size : Nat} (hlist : cmd.entrySize = some size) (entry : BitVec 32) :
    cmd.getValueEntry entry ≠ .error .threw := by
  have hloop := @mergeBytes_ne_threw cmd (entry * BitVec.ofNat 32 size).toNat (List.range size) 0#8
  unfold getValueEntry
  rw [hlist]
  dsimp only
  generalize cmd.mergeBytes _ _ _ = result at hloop ⊢
  cases result with
  | error failure => exact fun h => hloop (by cases h; rfl)
  | ok value => exact fun h => by cases h

/-- **An entry is read right exactly if it is in the payload and its value fits into its first byte.** -/
theorem entryExact_iff {size : Nat} (hlist : cmd.entrySize = some size) (hsize : cmd.data.length < 2 ^ 32)
    (entry : BitVec 32) : EntryExact cmd size entry ↔
      entry.toNat * size + size ≤ cmd.data.length ∧ ∀ byte ∈ (cmd.entryBytes size entry.toNat).tail, byte = 0#8 := by
  by_cases hinside : entry.toNat * size + size ≤ cmd.data.length
  · have hvalue := getValueEntry_inside hlist hsize hinside
    have hpos : 0 < size := by rcases entrySize_cases hlist with rfl | rfl <;> decide
    have hlt : entry.toNat * size < cmd.data.length := by omega
    have hbytes : cmd.entryBytes size entry.toNat =
        cmd.data[entry.toNat * size]?.getD 0 :: (cmd.entryBytes size entry.toNat).tail := by
      rw [entryBytes, List.drop_eq_getElem_cons hlt, List.getElem?_eq_getElem hlt, Option.getD_some]
      obtain ⟨n, rfl⟩ := Nat.exists_eq_succ_of_ne_zero hpos.ne'
      rw [List.take_succ_cons, List.tail_cons]
    have hfirst : ((cmd.data[entry.toNat * size]?.getD 0).setWidth 32).toNat =
        (cmd.data[entry.toNat * size]?.getD 0).toNat := BitVec.toNat_setWidth_of_le (by decide)
    rw [and_iff_right hinside, ← littleEndian_eq_zero_iff]
    constructor
    · intro hexact
      obtain ⟨value, hok, hnat⟩ := hexact.inside hinside
      rw [hvalue] at hok
      rw [← Except.ok.inj hok, hfirst, hbytes, littleEndian] at hnat
      omega
    · intro hzero
      refine ⟨fun _ => ⟨_, hvalue, ?_⟩, fun hout => absurd hinside (Nat.not_le_of_lt hout)⟩
      rw [hfirst, hbytes, littleEndian, hzero, Nat.mul_zero, Nat.add_zero]
  · refine iff_of_false (fun hexact => ?_) fun h => hinside h.1
    exact getValueEntry_ne_threw hlist entry (hexact.outside (Nat.lt_of_not_le hinside))

/-- A command that has asked for a data structure, and what was returned. -/
def ofCNS (cns : CNS) (data : List (BitVec 8)) : Identify := ⟨put 320 cns.code 0, data⟩

theorem getCNS_ofCNS (cns : CNS) (data : List (BitVec 8)) : (ofCNS cns data).getCNS = some cns.code := by
  rw [getCNS, Cmd.getByte_eq (by decide) (by decide)]
  exact congrArg some (get_put (by decide) _ _)

theorem entrySize_ofCNS (data : List (BitVec 8)) : (ofCNS .namespaceListActive data).entrySize = some 4 := by
  rw [entrySize, containsNamspcList, getCNS_ofCNS]
  rfl

/-- The second namespace of a list. -/
theorem entryExact_two :
    EntryExact (ofCNS .namespaceListActive [1, 0, 0, 0, 2, 0, 0, 0]) 4 1#32 :=
  (entryExact_iff (entrySize_ofCNS _) (by decide) 1#32).2 ⟨by decide, by decide⟩

/-- The namespace 256 comes out as 0. -/
theorem entry_not_exact : ¬∀ (cmd : Identify) (size : Nat) (entry : BitVec 32), cmd.entrySize = some size →
    cmd.data.length < 2 ^ 32 → EntryExact cmd size entry := by
  intro h
  have hlist := entrySize_ofCNS [0, 1, 0, 0]
  obtain ⟨value, hok, hnat⟩ := (h _ 4 0#32 hlist (by decide)).inside (by decide)
  rw [getValueEntry_inside hlist (by decide) (by decide)] at hok
  rw [← Except.ok.inj hok] at hnat
  exact absurd hnat (by decide)

/-! ## Fields of the tables -/

theorem fieldExact_of_length {field : IdentifyDataType} (hlen : field.length ≤ 8) :
    FieldExact cmd field ↔ field.offset + field.length ≠ cmd.data.length := by
  have hthrew (h : cmd.data.length ≤ field.offset + field.length) : cmd.getValue field = .error .threw := by
    rw [getValue, if_neg (Nat.not_lt_of_le hlen), if_pos (Nat.add_comm _ _ ▸ h)]
  rcases Nat.lt_trichotomy (field.offset + field.length) cmd.data.length with hlt | heq | hgt
  · have hvalue : cmd.getValue field = .ok (readLE cmd.data field.offset field.length) := by
      rw [getValue, if_neg (Nat.not_lt_of_le hlen), if_neg (by omega)]
    refine iff_of_true ⟨fun hin => ⟨_, hvalue, ?_⟩, fun hout => absurd hout (by omega), ?_⟩ hlt.ne
    · rw [← map_getD_eq hin]
      exact toNat_merge (by omega)
    · refine iff_of_true ⟨_, hvalue⟩ ⟨_, if_neg (by omega)⟩
  · refine iff_of_false (fun hexact => ?_) fun h => h heq
    obtain ⟨value, hok, -⟩ := hexact.inside heq.le
    rw [hthrew heq.ge] at hok
    cases hok
  · refine iff_of_true ⟨fun hin => absurd hin (by omega), fun _ => hthrew hgt.le, ?_⟩ hgt.ne'
    have hdump : cmd.dump field = .error .threw := if_pos (by omega)
    rw [hthrew hgt.le, hdump]
    constructor
    · rintro ⟨_, h⟩
      cases h
    · rintro ⟨_, h⟩
      cases h

/-- **A field of 8 bytes at most is read right exactly if it does not end where the payload ends.** -/
theorem fieldExact_iff (cmd : Identify) :
    (∀ field : IdCtrlrCap, field.metrics.length ≤ 8 →
      (FieldExact cmd field.metrics ↔ field.metrics.offset + field.metrics.length ≠ cmd.data.length)) ∧
    ∀ field : IdNamespc, field.metrics.length ≤ 8 →
      (FieldExact cmd field.metrics ↔ field.metrics.offset + field.metrics.length ≠ cmd.data.length) :=
  ⟨fun _ hlen => fieldExact_of_length hlen, fun _ hlen => fieldExact_of_length hlen⟩

/-- The byte before the last one of a buffer. -/
theorem fieldExact_flbas : FieldExact (ofCNS .namespc (List.replicate 28 0)) IdNamespc.flbas.metrics :=
  ((fieldExact_iff _).2 .flbas (by decide)).2 (by decide)

/-- The last byte of a buffer cannot be read. -/
theorem field_not_exact : ¬∀ (cmd : Identify) (field : IdNamespc), field.metrics.length ≤ 8 →
    FieldExact cmd field.metrics := by
  intro h
  have hexact := h (ofCNS .namespc (List.replicate 27 0)) .flbas (by decide)
  exact (fieldExact_of_length (by decide)).1 hexact rfl

/-! ## Zeros -/

theorem skipZeros_add (n m : Nat) (data : List (BitVec 8)) : skipZeros (n + m) data = (do
    match ← skipZeros n data with
    | none => return none
    | some data => skipZeros m data) := by
  induction n generalizing data with
  | zero =>
    rw [Nat.zero_add]
    rfl
  | succ n ih =>
    rw [Nat.succ_add]
    cases data with
    | nil => rfl
    | cons byte data =>
      by_cases hbyte : byte ≠ 0
      · rw [skipZeros, if_pos hbyte, skipZeros, if_pos hbyte]
        rfl
      · rw [skipZeros, if_neg hbyte, skipZeros, if_neg hbyte]
        exact ih data

/-- The fields of a table are gone through as one. -/
theorem skipFields_eq (lengths : List Nat) (data : List (BitVec 8)) :
    skipFields lengths data = skipZeros lengths.sum data := by
  induction lengths generalizing data with
  | nil => rfl
  | cons length lengths ih =>
    rw [List.sum_cons, skipZeros_add, skipFields]
    simp only [ih]

/-- A byte that is not 0 ends the loop. -/
theorem skipZeros_nonzero {n : Nat} {data : List (BitVec 8)} (hle : data.length ≤ n) (h : ∃ byte ∈ data, byte ≠ 0) :
    skipZeros n data = .ok none := by
  induction data generalizing n with
  | nil =>
    obtain ⟨byte, hbyte, -⟩ := h
    cases hbyte
  | cons first data ih =>
    obtain ⟨n, rfl⟩ := Nat.exists_eq_add_one_of_ne_zero (Nat.ne_of_gt (Nat.lt_of_lt_of_le (Nat.succ_pos _) hle))
    by_cases hfirst : first ≠ 0
    · rw [skipZeros, if_pos hfirst]
    · obtain ⟨byte, hmem, hbyte⟩ := h
      rw [skipZeros, if_neg hfirst]
      refine ih (Nat.le_of_succ_le_succ hle) ⟨byte, (List.mem_cons.1 hmem).resolve_left fun heq => ?_, hbyte⟩
      exact hfirst (heq ▸ hbyte)

/-- Zeros are left behind, and then what follows them is read. -/
theorem skipZeros_zeros {n : Nat} {data : List (BitVec 8)} (h : ∀ byte ∈ data, byte = 0) :
    skipZeros n data = if n ≤ data.length then .ok (some (data.drop n)) else .error .undefined := by
  induction n generalizing data with
  | zero => rfl
  | succ n ih =>
    cases data with
    | nil => rfl
    | cons first data =>
      obtain ⟨hfirst, hrest⟩ := List.forall_mem_cons.1 h
      rw [skipZeros, if_neg (not_not.2 hfirst), ih hrest]
      simp

/-- The answer is right, and no byte outside the payload is read. -/
def ZeroExact (cmd : Identify) : Prop := cmd.isZeroFilled = .ok (decide (∀ byte ∈ cmd.data, byte = 0))

/-- What is gone through is at least the payload; the answer is right unless it is more, and nothing else ends it. -/
theorem zeroExact_of_lengths {lengths : List Nat} (hlengths : cmd.zeroLengths = some lengths)
    (hle : cmd.data.length ≤ lengths.sum) :
    ZeroExact cmd ↔ lengths.sum ≤ cmd.data.length ∨ ∃ byte ∈ cmd.data, byte ≠ 0 := by
  have hfilled : cmd.isZeroFilled = (skipZeros lengths.sum cmd.data).map Option.isSome := by
    rw [isZeroFilled, hlengths, ← skipFields_eq]
  by_cases hbyte : ∃ byte ∈ cmd.data, byte ≠ 0
  · refine iff_of_true ?_ (.inr hbyte)
    obtain ⟨byte, hmem, hne⟩ := hbyte
    have hnot : ¬∀ byte ∈ cmd.data, byte = 0 := fun h => hne (h byte hmem)
    rw [ZeroExact, hfilled, skipZeros_nonzero hle ⟨byte, hmem, hne⟩, decide_eq_false hnot]
    rfl
  · have hzero : ∀ byte ∈ cmd.data, byte = 0 := fun byte hmem => by_contra fun hne => hbyte ⟨byte, hmem, hne⟩
    rw [or_iff_left hbyte, ZeroExact, hfilled, skipZeros_zeros hzero, decide_eq_true hzero]
    by_cases hend : lengths.sum ≤ cmd.data.length
    · rw [if_pos hend]
      exact iff_of_true rfl hend
    · rw [if_neg hend]
      exact iff_of_false (fun h => by cases h) hend

/-- The rows of a table are longer than the payload. -/
theorem zeroExact_of_table (hsize : cmd.data.length = 4096) {lengths : List Nat}
    (hlengths : cmd.zeroLengths = some lengths) (hsum : 4096 < lengths.sum) :
    ZeroExact cmd ↔ ∃ byte ∈ cmd.data, byte ≠ 0 := by
  have hlong : ¬lengths.sum ≤ cmd.data.length := by omega
  rw [zeroExact_of_lengths hlengths (by omega), or_iff_right hlong]

theorem zeroLengths_namspc (hcns : cmd.getCNS = some CNS.namespc.code) : cmd.zeroLengths = some IdNamespc.lengths := by
  simp [zeroLengths, containsCtrlrDataStruct, containsNamspcDataStruct, hcns, CNS.code]

theorem IdNamespc.lengths_gt : 4096 < IdNamespc.lengths.sum := by
  rw [IdNamespc.lengths_sum]
  decide

/-- **Zeros are recognized in a list, and else only if they do not fill the payload.** -/
theorem zeroExact_iff {cns : CNS} (hcns : cmd.getCNS = some cns.code) (hsize : cmd.data.length = 4096) :
    ZeroExact cmd ↔ cmd.containsNamspcList = true ∨ cmd.containsCtrlrList = true ∨ ∃ byte ∈ cmd.data, byte ≠ 0 := by
  have htable {lengths : List Nat} (hlengths : cmd.zeroLengths = some lengths) (hsum : 4096 < lengths.sum)
      (hns : cmd.containsNamspcList = false) (hctlr : cmd.containsCtrlrList = false) : ZeroExact cmd ↔
        cmd.containsNamspcList = true ∨ cmd.containsCtrlrList = true ∨ ∃ byte ∈ cmd.data, byte ≠ 0 := by
    rw [zeroExact_of_table hsize hlengths hsum, hns, hctlr]
    simp
  have hlist {size : Nat} (hlengths : cmd.zeroLengths = some [size]) (hlen : size = 4096)
      (hkind : cmd.containsNamspcList = true ∨ cmd.containsCtrlrList = true) : ZeroExact cmd ↔
        cmd.containsNamspcList = true ∨ cmd.containsCtrlrList = true ∨ ∃ byte ∈ cmd.data, byte ≠ 0 := by
    have hsum : [size].sum = cmd.data.length := by rw [List.sum_singleton, hlen, hsize]
    exact iff_of_true ((zeroExact_of_lengths hlengths hsum.ge).2 (.inl hsum.le))
      (hkind.elim .inl fun h => .inr (.inl h))
  have hctrlr : IdCtrlrCap.lengths.sum > 4096 := by rw [IdCtrlrCap.lengths_sum]; decide
  cases cns with
  | controller =>
    refine htable ?_ hctrlr ?_ ?_ <;>
      simp [zeroLengths, containsCtrlrDataStruct, containsNamspcList, containsCtrlrList, hcns, CNS.code]
  | namespc | namespaceStructSubsystem =>
    refine htable ?_ IdNamespc.lengths_gt ?_ ?_ <;>
      simp [zeroLengths, containsCtrlrDataStruct, containsNamspcDataStruct, containsNamspcList, containsCtrlrList,
        hcns, CNS.code]
  | namespaceListActive | namespaceListSubsystem =>
    refine @hlist nsListSize ?_ rfl (.inl ?_) <;>
      simp [zeroLengths, containsCtrlrDataStruct, containsNamspcDataStruct, containsNamspcList, hcns, CNS.code]
  | controllerListAttachedToNSID | controllerListSubsystem =>
    refine @hlist ctlrListSize ?_ rfl (.inr ?_) <;>
      simp [zeroLengths, containsCtrlrDataStruct, containsNamspcDataStruct, containsNamspcList, containsCtrlrList,
        hcns, CNS.code]

theorem zeroExact_list : ZeroExact (ofCNS .namespaceListActive (List.replicate 4096 0)) := by
  refine (zeroExact_iff (getCNS_ofCNS _ _) List.length_replicate).2 (.inl ?_)
  rw [containsNamspcList, getCNS_ofCNS]
  rfl

/-- Of a namespace without data more than the payload is read. -/
theorem zero_not_exact : ¬∀ (cmd : Identify) (cns : CNS), cmd.getCNS = some cns.code → cmd.data.length = 4096 →
    ZeroExact cmd := by
  intro h
  have hcns := getCNS_ofCNS .namespc (List.replicate 4096 0)
  have hexact := h _ .namespc hcns List.length_replicate
  obtain ⟨byte, hmem, hne⟩ :=
    (zeroExact_of_table List.length_replicate (zeroLengths_namspc hcns) IdNamespc.lengths_gt).1 hexact
  exact hne (List.eq_of_mem_replicate hmem)

end Identify

end Tnvme
