import Tnvme.Info.IdentifyDefs
import Tnvme.Lib.Coverings
import Tnvme.Lib.HexText
import Mathlib.Data.List.Nodup

/-!
# The report of a miscompare

`reportCompareResults` looks every miscompared offset up in the table of the controller data, from the front, and
prints the field that it finds if it stands behind the last one that it has printed. Fields overlap, but none begins
behind the end of all that is in front of it (`fields_gapless`); so the fields that are found do not go back, and none
is missed or printed twice (`inv_step`).

A value of a field is formatted into an array of `hexNotationSize` characters, which is one less than it takes.
-/

namespace Tnvme

/-- The last column of `IDCTRLRCAP_TABLE`. -/
def IdCtrlrCap.desc : IdCtrlrCap → String
  | vid => "PCI Vendor ID (VID)"
  | ssvid => "PCI Subsystem Vendor ID (SSVID)"
  | sn => "Serial Number (SN)"
  | mn => "Model Number (MN)"
  | fr => "Firmware Revision (FR)"
  | rab => "Recommend Arbitration Burst (RAB)"
  | ieee => "IEEE OUI Identifier (IEEE)"
  | mic => "Multi-Interface Capabilities (MIC)"
  | cmic => "Ctrlr Multipath IO & Namspc Share Cap (CMIC)"
  | mdts => "Maximum Data Xfer Size (MDTS)"
  | res4E => "Reserved area @ 0x4e"
  | cntlid => "Controller ID (CNTLID)"
  | res50 => "Reserved area @ 0x50"
  | ver => "NVMe Spec Version (VER)"
  | rtd3r => "Resume Latency (RTD3R)"
  | rtd3e => "Entry Latency (RTD3E)"
  | oaes => "Opt Async Events Supported)"
  | res60 => "Reserved area @ 0x60"
  | ctratt => "Controller Attributes (CTRATT)"
  | res64 => "Reserved area @ 0x64"
  | intresF0 => "Reserved area @ 0xF0"
  | mec => "Management Endpoint Capabilities (MEC)"
  | oacs => "Optional Admin Cmd Support (OACS)"
  | acl => "Abort Cmd Limit (ACL)"
  | aerl => "Async Event Req Limit (AERL)"
  | frmw => "Firmware Updates (FRMW)"
  | lpa => "Log Page Atribute (LPA)"
  | elpe => "Error Log Page Entries (ELPE)"
  | npss => "Number of Power States Support (NPSS)"
  | res108 => "Reserved area @ 0x108"
  | avscc => "Admin Vendor Spec Cmd Config (AVSCC)"
  | apsta => "Autonomous PS Transition Attr (APSTA)"
  | res10A => "Reserved area @ 0x10A"
  | wctemp => "Warn Composite Temp Thresh (WCTEMP)"
  | cctemp => "Crit Composite Temp Thresh (CCTEMP)"
  | mtfa => "Max Time for FW Activation (MTFA)"
  | hmpre => "Host Mem Buf Preferred Size (HMPRE)"
  | hmmin => "Host Mem Buffer Minimum Size (HMMIN)"
  | tnvmcapLower => "TNVMCAP_LOWER"
  | tnvmcapUpper => "TNVMCAP_UPPER"
  | unvmcapLower => "UNVMCAP_LOWER"
  | unvmcapUpper => "UNVMCAP_UPPER"
  | rpmbs => "Replay Protected Mem Blk Supp (RPMBS)"
  | res13C => "Reserved area @ 0x13c"
  | res316 => "Reserved area @ 0x13c"
  | kas => "Keep Alive Support (KAS)"
  | res141 => "Reserved area @ 0x141"
  | sqes => "Submission Q Entry Size (SQES)"
  | cqes => "Completion Q Entry Size (CQES)"
  | res202 => "Reserved area @ 0x202"
  | maxcmd => "Maximum Outstanding Commands (MAXCMD)"
  | nn => "Number of Namespaces (NN)"
  | oncs => "Optional NVM Cmd Support (ONCS)"
  | fuses => "Fused Operation Suppot (FUSES)"
  | fna => "Format NVM Attribute (FNA)"
  | vwc => "Volatile Write Cache (VWC)"
  | awun => "Atomic Write Unit Normal (AWUN)"
  | awupf => "Atomic Write Unit Power Fail (AWUPF)"
  | res212 => "Reserved area @ 0x212"
  | nvscc => "NVM Vendor Spec Cmd Config (NVSCC)"
  | res213 => "Reserved area @ 0x213"
  | acwu => "Atomic Compare & Write Unit (ACWU)"
  | res216 => "Reserved area @ 0x216"
  | sgls => "SGL Support (SGLS)"
  | res21C => "Reserved area @ 0x21C"
  | res540 => "Reserved area @ 0x21C"
  | subnqn => "NVM Subsystem NVMe Qualified Name (SUBNQN)"
  | res400 => "Reserved area @ 0x400"
  | ioccsz => "I/O Queue Command Capsule Supported Size(IOCCSZ)"
  | iorcsz => "I/O Queue Response Capsule Supported Size(IORCSZ)"
  | icdoff => "In Capsule Data  Offset (ICDOFF)"
  | ctrattr => "Controller Attributes (CTRATTR)"
  | msdbd => "Maximum SGL Data Block Descriptors (MSDBD)"
  | res70C => "Reserved area @ 1804"
  | res2C0 => "Reserved area @ 2c0"
  | psd k => "Power State " ++ toString k.val ++ " Desc (PSD" ++ toString k.val ++ ")"
  | vs => "Vendor Specific (VS)"

namespace MiscompareReport

open IdCtrlrCap (fields)

/-- What an Identify command reads. -/
abbrev Payload := Vector (BitVec 8) 4096

/-- `%-ws` -/
def padRight (w : Nat) (text : String) : String := text ++ String.ofList (List.replicate (w - text.length) ' ')

/-- `sprintf` into an array of `room` characters; with the zero at its end the text has to fit. -/
def sprintf (room : Nat) (text : String) : Option String := if text.length < room then some text else none

def workingCharBuffSize : Nat := 80

def hexNotationSize : Nat := 3

def lstOffset (field : IdCtrlrCap) : Nat := field.metrics.offset

def nextOffset (field : IdCtrlrCap) : Nat := field.metrics.offset + field.metrics.length

/-- The bytes of a field; all fields end within the data (`nextOffset_le`). -/
def values (data : Payload) (field : IdCtrlrCap) : List (BitVec 8) :=
  (data.toList.drop (lstOffset field)).take field.metrics.length

/-- The loop over the bytes of a field, with `room` characters for the text of one. -/
def printValues (room : Nat) : List (BitVec 8) → String → Nat → Option String
  | [], lineBuffer, printPosition => some ((if printPosition ≠ 0 then lineBuffer ++ "\n" else lineBuffer) ++ "\n")
  | value :: rest, lineBuffer, printPosition =>
    (sprintf room (HexText.byte value ++ " ")).bind fun hexNotation =>
      if printPosition + 1 = 16 then (printValues room rest "    " 0).map (lineBuffer ++ hexNotation ++ "\n" ++ ·)
      else printValues room rest (lineBuffer ++ hexNotation) (printPosition + 1)

def heading (field : IdCtrlrCap) : String :=
  padRight 6 (toString (lstOffset field)) ++ " " ++ padRight 32 field.desc

/-- What is printed of a field. -/
def fieldText (room : Nat) (golden idMem : Payload) (field : IdCtrlrCap) : Option String :=
  (sprintf workingCharBuffSize (heading field)).bind fun workingCharBuff =>
    (printValues room (values golden field) "    " 0).bind fun expected =>
      (printValues room (values idMem field) "    " 0).map fun dut =>
        workingCharBuff ++ "\n    Expected\n" ++ expected ++ "    Device Under Test\n" ++ dut

structure Report where
  lastProcessed : Int
  reported : List IdCtrlrCap
  resultsFile : String
  deriving DecidableEq, Repr

/-- The index of the first field that has the offset. -/
def curOffset (misCompOffset : Nat) : Nat := fields.findIdx (Coverings.has lstOffset nextOffset misCompOffset)

def reportOffset (room : Nat) (golden idMem : Payload) (r : Report) (misCompOffset : Nat) : Option Report :=
  match fields[curOffset misCompOffset]? with
  | none => some r
  | some field =>
    if r.lastProcessed < curOffset misCompOffset then
      (fieldText room golden idMem field).map fun text =>
        ⟨curOffset misCompOffset, r.reported ++ [field], r.resultsFile ++ text⟩
    else some r

/-- The head of the file; `created` is what `ctime` gives. -/
def head (created : String) (misCompList : List Nat) : String :=
  "Created " ++ created ++ "\n" ++ (if misCompList.length = 0 then "No Miscompares found\n" else "")

/-- The report with `room` characters for the text of a value; `none` is undefined behaviour. -/
def reportIn (room : Nat) (created : String) (golden idMem : Payload) (misCompList : List Nat) : Option Report :=
  misCompList.foldlM (reportOffset room golden idMem) ⟨-1, [], head created misCompList⟩

def reportCompareResults (created : String) (golden idMem : Payload) (misCompList : List Nat) : Option Report :=
  reportIn hexNotationSize created golden idMem misCompList

/-! ## The table -/

theorem nextOffset_le (field : IdCtrlrCap) : nextOffset field ≤ 4096 := by
  cases field with
  | psd k => change 2048 + 32 * k.val + 32 ≤ 4096; omega
  | _ => decide

theorem length_pos (field : IdCtrlrCap) : 0 < field.metrics.length := by
  cases field <;> exact Nat.succ_pos _

theorem values_ne_nil (data : Payload) (field : IdCtrlrCap) : values data field ≠ [] := by
  have hpos := length_pos field
  have hle := nextOffset_le field
  unfold nextOffset at hle
  rw [← List.length_pos_iff, values, List.length_take, List.length_drop, Vector.length_toList, lstOffset]
  omega

theorem length_padRight (w : Nat) (text : String) : (padRight w text).length = max w text.length := by
  simp only [padRight, String.length_append, String.length_ofList, List.length_replicate]
  omega

/-- The characters of a literal are counted as a list. -/
theorem length_ofList_le {chars : List Char} {n : Nat} (h : chars.length ≤ n) : (String.ofList chars).length ≤ n := by
  rw [String.length_ofList]
  exact h

theorem desc_length (field : IdCtrlrCap) : field.desc.length ≤ 49 := by
  cases field with
  | psd k =>
    have hk : (toString k.val).length ≤ 2 := (Nat.length_repr_le_iff (by decide)).2 (Nat.lt_trans k.isLt (by decide))
    have hhead : "Power State ".length = 12 := rfl
    have hmid : " Desc (PSD".length = 10 := rfl
    have htail : ")".length = 1 := rfl
    change ("Power State " ++ toString k.val ++ " Desc (PSD" ++ toString k.val ++ ")").length ≤ 49
    simp only [String.length_append, hhead, hmid, htail]
    omega
  | _ => refine length_ofList_le ?_; decide

theorem lstOffset_length (field : IdCtrlrCap) : (toString (lstOffset field)).length ≤ 4 :=
  (Nat.length_repr_le_iff (by decide)).2
    (Nat.lt_of_le_of_lt (Nat.le_add_right _ _) (Nat.lt_of_le_of_lt (nextOffset_le field) (by decide)))

theorem heading_fits (field : IdCtrlrCap) : (heading field).length < workingCharBuffSize := by
  have hdesc := desc_length field
  have hoffset := lstOffset_length field
  have hblank : " ".length = 1 := rfl
  simp only [heading, String.length_append, length_padRight, hblank, workingCharBuffSize]
  omega

theorem fields_gapless : Coverings.Gapless lstOffset nextOffset 0 fields := by decide +kernel

theorem fields_reach : Coverings.reach nextOffset 0 fields = 4096 := by decide +kernel

theorem fields_nodup : fields.Nodup := by decide +kernel

theorem curOffset_mono {n m : Nat} (h : n ≤ m) : curOffset n ≤ curOffset m :=
  Coverings.findIdx_mono fields_gapless (Nat.zero_le n) h

theorem curOffset_lt {n : Nat} (h : n < 4096) : curOffset n < fields.length :=
  Coverings.findIdx_lt fields_gapless (Nat.zero_le n) (by rw [fields_reach]; exact h)

/-- The field has the offset. -/
def Contains (field : IdCtrlrCap) (n : Nat) : Prop := lstOffset field ≤ n ∧ n < nextOffset field

instance (field : IdCtrlrCap) (n : Nat) : Decidable (Contains field n) := inferInstanceAs (Decidable (_ ∧ _))

/-- The field that is found for an offset. -/
theorem exists_field {n : Nat} (h : n < 4096) :
    ∃ field, fields[curOffset n]? = some field ∧ Contains field n := by
  have hlt := curOffset_lt h
  refine ⟨fields[curOffset n], List.getElem?_eq_getElem hlt, ?_⟩
  have hhas : Coverings.has lstOffset nextOffset n fields[curOffset n] = true := List.findIdx_getElem (w := hlt)
  simpa [Coverings.has, Contains] using hhas

/-! ## What is printed of a field -/

theorem sprintf_byte (room : Nat) (value : BitVec 8) :
    sprintf room (HexText.byte value ++ " ") = if 4 ≤ room then some (HexText.byte value ++ " ") else none := by
  have hblank : " ".length = 1 := rfl
  simp only [sprintf, String.length_append, HexText.length_byte, hblank]
  rfl

theorem printValues_isSome {room : Nat} (h : 4 ≤ room) (vs : List (BitVec 8)) (lineBuffer : String)
    (printPosition : Nat) : ∃ text, printValues room vs lineBuffer printPosition = some text := by
  induction vs generalizing lineBuffer printPosition with
  | nil => exact ⟨_, rfl⟩
  | cons value rest ih =>
    simp only [printValues, sprintf_byte, if_pos h, Option.bind_some]
    split
    · obtain ⟨text, htext⟩ := ih "    " 0
      exact ⟨_, by rw [htext]; rfl⟩
    · exact ih _ _

theorem printValues_small {room : Nat} (h : ¬4 ≤ room) {vs : List (BitVec 8)} (hvs : vs ≠ []) (lineBuffer : String)
    (printPosition : Nat) : printValues room vs lineBuffer printPosition = none := by
  obtain ⟨value, rest, rfl⟩ := List.exists_cons_of_ne_nil hvs
  simp only [printValues, sprintf_byte, if_neg h, Option.bind_none]

theorem sprintf_heading (field : IdCtrlrCap) : sprintf workingCharBuffSize (heading field) = some (heading field) :=
  if_pos (heading_fits field)

variable (golden idMem : Payload)

theorem fieldText_isSome {room : Nat} (h : 4 ≤ room) (field : IdCtrlrCap) :
    ∃ text, fieldText room golden idMem field = some text := by
  obtain ⟨expected, hexpected⟩ := printValues_isSome h (values golden field) "    " 0
  obtain ⟨dut, hdut⟩ := printValues_isSome h (values idMem field) "    " 0
  exact ⟨_, by rw [fieldText, sprintf_heading, hexpected, hdut]; rfl⟩

theorem fieldText_small {room : Nat} (h : ¬4 ≤ room) (field : IdCtrlrCap) :
    fieldText room golden idMem field = none := by
  rw [fieldText, sprintf_heading, printValues_small h (values_ne_nil golden field)]
  rfl

/-! ## The pass over the offsets -/

variable {golden idMem}

/-- What holds of the report after the offsets of `done`. -/
structure Inv (room : Nat) (golden idMem : Payload) (start : String) (done : List Nat) (r : Report) : Prop where
  covered : ∀ n ∈ done, ∃ field ∈ r.reported, fields[curOffset n]? = some field
  hit : ∀ field ∈ r.reported, ∃ n ∈ done, fields[curOffset n]? = some field
  nodup : r.reported.Nodup
  behind : ∀ n ∈ done, curOffset n ≤ r.lastProcessed
  last : r.lastProcessed = -1 ∨ ∃ n ∈ done, r.lastProcessed = curOffset n
  text : ∃ texts, r.reported.mapM (fieldText room golden idMem) = some texts ∧
    r.resultsFile = start ++ String.join texts

theorem inv_nil (room : Nat) (start : String) : Inv room golden idMem start [] ⟨-1, [], start⟩ where
  covered _ h := absurd h List.not_mem_nil
  hit _ h := absurd h List.not_mem_nil
  nodup := List.nodup_nil
  behind _ h := absurd h List.not_mem_nil
  last := Or.inl rfl
  text := ⟨[], rfl, by simp⟩

/-- The field of a later offset has been printed already, or stands behind all that have been. -/
theorem inv_step {room : Nat} (hroom : 4 ≤ room) {start : String} {done : List Nat} {r : Report}
    (h : Inv room golden idMem start done r) {n : Nat} (hn : n < 4096) (hafter : ∀ m ∈ done, m < n) :
    ∃ r', reportOffset room golden idMem r n = some r' ∧ Inv room golden idMem start (done ++ [n]) r' := by
  obtain ⟨field, hfield, _⟩ := exists_field hn
  by_cases hnew : r.lastProcessed < curOffset n
  · obtain ⟨text, htext⟩ := fieldText_isSome golden idMem hroom field
    refine ⟨_, by rw [reportOffset, hfield]; simp only [if_pos hnew, htext, Option.map_some]; rfl, ?_⟩
    have hfresh : field ∉ r.reported := by
      intro hmem
      obtain ⟨m, hm, hsame⟩ := h.hit field hmem
      have hle := h.behind m hm
      have hidx : curOffset m = curOffset n :=
        (List.getElem?_inj (List.getElem?_eq_some_iff.1 hsame).1 fields_nodup).1 (hsame.trans hfield.symm)
      omega
    exact
      { covered := by
          intro m hm
          rcases List.mem_append.1 hm with hm | hm
          · obtain ⟨f, hf, hfm⟩ := h.covered m hm
            exact ⟨f, List.mem_append_left _ hf, hfm⟩
          · rw [List.mem_singleton.1 hm]
            exact ⟨field, by simp, hfield⟩
        hit := by
          intro f hf
          rcases List.mem_append.1 hf with hf | hf
          · obtain ⟨m, hm, hfm⟩ := h.hit f hf
            exact ⟨m, List.mem_append_left _ hm, hfm⟩
          · rw [List.mem_singleton.1 hf]
            exact ⟨n, by simp, hfield⟩
        nodup := by
          rw [List.nodup_append]
          refine ⟨h.nodup, List.nodup_singleton _, ?_⟩
          rintro a ha b hb rfl
          exact hfresh (List.mem_singleton.1 hb ▸ ha)
        behind := by
          intro m hm
          rcases List.mem_append.1 hm with hm | hm
          · exact Int.ofNat_le.2 (curOffset_mono (Nat.le_of_lt (hafter m hm)))
          · rw [List.mem_singleton.1 hm]
        last := Or.inr ⟨n, by simp, rfl⟩
        text := by
          obtain ⟨texts, htexts, hfile⟩ := h.text
          refine ⟨texts ++ [text], ?_, ?_⟩
          · simp [List.mapM_append, htexts, htext]
          · simp only [hfile, String.join_append, String.append_assoc]
            simp }
  · refine ⟨r, by rw [reportOffset, hfield]; simp only [if_neg hnew], ?_⟩
    -- the last field was printed for an offset below this one, so it is the same field
    have hsame : ∃ m ∈ done, curOffset m = curOffset n := by
      rcases h.last with hlast | ⟨m, hm, hlast⟩
      · omega
      · have hmono := curOffset_mono (Nat.le_of_lt (hafter m hm))
        exact ⟨m, hm, by omega⟩
    obtain ⟨m, hm, hidx⟩ := hsame
    exact
      { h with
        covered := by
          intro k hk
          rcases List.mem_append.1 hk with hk | hk
          · exact h.covered k hk
          · rw [List.mem_singleton.1 hk, ← hidx]
            exact h.covered m hm
        hit := fun f hf => (h.hit f hf).imp fun _ hk => ⟨List.mem_append_left _ hk.1, hk.2⟩
        behind := by
          intro k hk
          rcases List.mem_append.1 hk with hk | hk
          · exact h.behind k hk
          · rw [List.mem_singleton.1 hk]; omega
        last := h.last.imp id fun ⟨k, hk, hlast⟩ => ⟨k, List.mem_append_left _ hk, hlast⟩ }

theorem inv_run {room : Nat} (hroom : 4 ≤ room) {start : String} {misCompList : List Nat}
    (hlt : ∀ n ∈ misCompList, n < 4096) {done : List Nat} (hsorted : (done ++ misCompList).Pairwise (· < ·))
    {r : Report} (h : Inv room golden idMem start done r) :
    ∃ r', misCompList.foldlM (reportOffset room golden idMem) r = some r' ∧
      Inv room golden idMem start (done ++ misCompList) r' := by
  induction misCompList generalizing done r with
  | nil => exact ⟨r, rfl, by simpa using h⟩
  | cons n rest ih =>
    have hafter : ∀ m ∈ done, m < n := fun m hm => (List.pairwise_append.1 hsorted).2.2 m hm n List.mem_cons_self
    obtain ⟨r1, hr1, h1⟩ := inv_step hroom h (hlt n List.mem_cons_self) hafter
    have hsorted1 : ((done ++ [n]) ++ rest).Pairwise (· < ·) := by simpa using hsorted
    obtain ⟨r', hr', h'⟩ := ih (fun m hm => hlt m (List.mem_cons_of_mem _ hm)) hsorted1 h1
    exact ⟨r', by rw [List.foldlM_cons, hr1]; exact hr', by simpa using h'⟩

/-- The report is printed, it names a field for each of the offsets, and no field twice or without an offset. -/
def Complete (misCompList : List Nat) (report : Option Report) : Prop :=
  ∃ r, report = some r ∧ (∀ n ∈ misCompList, ∃ field ∈ r.reported, Contains field n) ∧ r.reported.Nodup ∧
    ∀ field ∈ r.reported, ∃ n ∈ misCompList, Contains field n

theorem Inv.complete {room : Nat} {start : String} {misCompList : List Nat} {r : Report}
    (h : Inv room golden idMem start misCompList r) (hlt : ∀ n ∈ misCompList, n < 4096) :
    Complete misCompList (some r) := by
  refine ⟨r, rfl, fun n hn => ?_, h.nodup, fun field hfield => ?_⟩
  · obtain ⟨f, hf, hfn⟩ := h.covered n hn
    obtain ⟨f', hf', hcontains⟩ := exists_field (hlt n hn)
    cases hfn.symm.trans hf'
    exact ⟨f, hf, hcontains⟩
  · obtain ⟨n, hn, hfn⟩ := h.hit field hfield
    obtain ⟨f', hf', hcontains⟩ := exists_field (hlt n hn)
    cases hfn.symm.trans hf'
    exact ⟨n, hn, hcontains⟩

/-- With room for a value the report is complete, and its text is that of the fields that it names. -/
theorem reportIn_complete {room : Nat} (hroom : 4 ≤ room) (created : String) {misCompList : List Nat}
    (hsorted : misCompList.Pairwise (· < ·)) (hlt : ∀ n ∈ misCompList, n < 4096) :
    ∃ r, reportIn room created golden idMem misCompList = some r ∧ Complete misCompList (some r) ∧
      ∃ texts, r.reported.mapM (fieldText room golden idMem) = some texts ∧
        r.resultsFile = head created misCompList ++ String.join texts := by
  have hall : ([] ++ misCompList).Pairwise (· < ·) := hsorted
  obtain ⟨r, hr, h⟩ := inv_run hroom hlt hall (inv_nil room (head created misCompList))
  exact ⟨r, hr, h.complete hlt, h.text⟩

/-- Without it the first offset has no report. -/
theorem reportIn_small {room : Nat} (hroom : ¬4 ≤ room) (created : String) {n : Nat} (hn : n < 4096)
    (rest : List Nat) : reportIn room created golden idMem (n :: rest) = none := by
  obtain ⟨field, hfield, _⟩ := exists_field hn
  have hnew : (-1 : Int) < curOffset n := by omega
  rw [reportIn, List.foldlM_cons, reportOffset, hfield]
  simp only [if_pos hnew, fieldText_small golden idMem hroom field]
  rfl

theorem complete_nil (room : Nat) (created : String) : Complete [] (reportIn room created golden idMem []) :=
  ⟨_, rfl, fun _ h => absurd h List.not_mem_nil, List.nodup_nil, fun _ h => absurd h List.not_mem_nil⟩

/-- **A report has a field for every offset, none twice and none without an offset, exactly if there is no offset:
the text of a value does not fit into its array. With one character more every report is so.** -/
theorem report_complete_iff (created : String) (golden idMem : Payload) (misCompList : List Nat)
    (hsorted : misCompList.Pairwise (· < ·)) (hlt : ∀ n ∈ misCompList, n < 4096) :
    (Complete misCompList (reportCompareResults created golden idMem misCompList) ↔ misCompList = []) ∧
      ∀ room, hexNotationSize < room →
        ∃ r, reportIn room created golden idMem misCompList = some r ∧ Complete misCompList (some r) ∧
          ∃ texts, r.reported.mapM (fieldText room golden idMem) = some texts ∧
            r.resultsFile = head created misCompList ++ String.join texts := by
  refine ⟨⟨fun h => ?_, ?_⟩, fun room hroom => reportIn_complete hroom created hsorted hlt⟩
  · cases misCompList with
    | nil => rfl
    | cons n rest =>
      obtain ⟨r, hr, _⟩ := h
      rw [reportCompareResults, reportIn_small (by decide) created (hlt n List.mem_cons_self)] at hr
      cases hr
  · rintro rfl
    exact complete_nil _ _

/-- The bytes of `NN` and the first of `ONCS` miscompare. -/
def someOffsets : List Nat := [516, 517, 518, 519, 520]

def zeros : Payload := Vector.replicate 4096 0#8

theorem report_of_someOffsets :
    ∃ r, reportIn 4 "Thu Jan  1 00:00:00 1970\n" zeros zeros someOffsets = some r ∧ Complete someOffsets (some r) := by
  obtain ⟨r, hr, hcomplete, _⟩ :=
    (report_complete_iff "Thu Jan  1 00:00:00 1970\n" zeros zeros someOffsets (by decide) (by decide)).2 4 (by decide)
  exact ⟨r, hr, hcomplete⟩

theorem report_not_complete : ¬∀ (created : String) (golden idMem : Payload) (misCompList : List Nat),
    misCompList.Pairwise (· < ·) → (∀ n ∈ misCompList, n < 4096) →
      Complete misCompList (reportCompareResults created golden idMem misCompList) := by
  intro h
  obtain ⟨r, hr, _⟩ := h "Thu Jan  1 00:00:00 1970\n" zeros zeros someOffsets (by decide) (by decide)
  rw [reportCompareResults, someOffsets, reportIn_small (by decide) _ (by decide)] at hr
  cases hr

end MiscompareReport
end Tnvme
