import Tnvme.Cmds.Admin
import Tnvme.Xml.Format

/-!
# `FormatDevice`

The option `--format` sends a Format NVM command for each namespace of a document, one after the other. The setters of
the command check three of the values, but not before it is the turn of the namespace.

So all namespaces in front of the first one with a value out of range are formatted (`formatDevice_exact`). A command
that reaches the device carries the values of its namespace (`decode_encode`).
-/

namespace Tnvme

open Fields

namespace FormatNVM

def opcode : BitVec 8 := 0x80

/-- The constructor; `Init` sets the opcode. -/
def new : Option Cmd := Cmd.setByte 0 opcode 0 0

end FormatNVM

/-- What becomes of a command that is handed to `SendAndReapCmd`. -/
inductive Sending where
  /-- It throws before the command is sent. -/
  | kept
  /-- It throws afterwards. -/
  | lost
  | reaped
  deriving DecidableEq, Repr

/-- The command that is made of an entry; `none` when a setter throws. -/
def formatNVM (cmd : FormatDUT) : Option Cmd := do
  let c ← FormatNVM.new
  let c ← Cmd.setDword c cmd.nsid.toBitVec 1
  let c ← FormatNVM.setSES cmd.ses.toBitVec c
  let c ← FormatNVM.setPIL cmd.pil c
  let c ← FormatNVM.setPI cmd.pi.toBitVec c
  let c ← FormatNVM.setMS cmd.ms c
  FormatNVM.setLBAF cmd.lbaf.toBitVec c

/-- The loop over the commands from the `i`-th one on: those that are sent, and whether it gets to its end. -/
def formatFrom (sending : Nat → Sending) : Nat → List FormatDUT → List Cmd × Bool
  | _, [] => ([], true)
  | i, cmd :: cmds =>
    match formatNVM cmd with
    | none => ([], false)
    | some c =>
      match sending i with
      | .kept => ([], false)
      | .lost => ([c], false)
      | .reaped =>
        let (sent, ok) := formatFrom sending (i + 1) cmds
        (c :: sent, ok)

/-- `prepared`: the controller has been disabled, has got its queues and has been enabled again. -/
def formatDevice (prepared : Bool) (sending : Nat → Sending) (format : Format) : List Cmd × Bool :=
  if prepared then formatFrom sending 0 format.cmds else ([], false)

/-! ## What a command carries -/

/-- What the controller reads from DW1 and DW10. -/
def FormatDUT.decode (c : Cmd) : FormatDUT where
  nsid := ⟨get 32 32 c⟩
  ses := ⟨(get (32 * 10 + 9) 3 c).setWidth 8⟩
  pi := ⟨(get (32 * 10 + 5) 3 c).setWidth 8⟩
  lbaf := ⟨(get (32 * 10) 4 c).setWidth 8⟩
  pil := get (32 * 10 + 8) 1 c == 1#1
  ms := get (32 * 10 + 4) 1 c == 1#1

/-- The values fit into their fields. -/
def FormatDUT.InRange (cmd : FormatDUT) : Prop := cmd.ses ≤ 0x07 ∧ cmd.pi ≤ 0x07 ∧ cmd.lbaf ≤ 0x0f

instance (cmd : FormatDUT) : Decidable cmd.InRange := inferInstanceAs (Decidable (_ ∧ _))

/-- The fields, in the order in which they are set. -/
def FormatDUT.encode (cmd : FormatDUT) : Cmd :=
  put (32 * 10) (cmd.lbaf.toBitVec.setWidth 4) <| put (32 * 10 + 4) (BitVec.ofBool cmd.ms) <|
    put (32 * 10 + 5) (cmd.pi.toBitVec.setWidth 3) <| put (32 * 10 + 8) (BitVec.ofBool cmd.pil) <|
    put (32 * 10 + 9) (cmd.ses.toBitVec.setWidth 3) <| put (32 * 1) cmd.nsid.toBitVec <| put 0 FormatNVM.opcode 0

variable {cmd : FormatDUT} {cmds : List FormatDUT} {sending : Nat → Sending} {i : Nat}

/-- The check of a setter, from the other side. -/
theorem ite_checked {α : Type} {v limit : UInt8} {r r' : α} :
    (if decide (limit.toBitVec < v.toBitVec) = true then r else r') = if v ≤ limit then r' else r := by
  by_cases h : v ≤ limit
  · rw [if_pos h, if_neg]
    rw [decide_eq_true_eq, BitVec.not_lt]
    exact UInt8.le_iff_toBitVec_le.1 h
  · rw [if_neg h, if_pos]
    rw [decide_eq_true_eq, ← BitVec.not_le]
    exact mt UInt8.le_iff_toBitVec_le.2 h

/-- **An entry is made a command exactly if its values are in range.** -/
theorem formatNVM_eq (cmd : FormatDUT) : formatNVM cmd = if cmd.InRange then some cmd.encode else none := by
  have hnew : FormatNVM.new = some (put 0 FormatNVM.opcode 0) := Cmd.setByte_eq (by decide) (by decide) _
  have hnsid (c : Cmd) : c.setDword cmd.nsid.toBitVec 1 = some (put (32 * 1) cmd.nsid.toBitVec c) :=
    Cmd.setDword_eq (by decide) _
  have hpil (c : Cmd) : FormatNVM.setPIL cmd.pil c = some (put (32 * 10 + 8) (BitVec.ofBool cmd.pil) c) :=
    Cmd.setBit_eq (by decide) (by decide) _
  have hms (c : Cmd) : FormatNVM.setMS cmd.ms c = some (put (32 * 10 + 4) (BitVec.ofBool cmd.ms) c) :=
    Cmd.setBit_eq (by decide) (by decide) _
  have hses (c : Cmd) : FormatNVM.setSES cmd.ses.toBitVec c =
      if cmd.ses ≤ 0x07 then some (put (32 * 10 + 9) (cmd.ses.toBitVec.setWidth 3) c) else none :=
    (AdminField.set_eq none .ses cmd.ses.toBitVec c).trans ite_checked
  have hpi (c : Cmd) : FormatNVM.setPI cmd.pi.toBitVec c =
      if cmd.pi ≤ 0x07 then some (put (32 * 10 + 5) (cmd.pi.toBitVec.setWidth 3) c) else none :=
    (AdminField.set_eq none .pi cmd.pi.toBitVec c).trans ite_checked
  have hlbaf (c : Cmd) : FormatNVM.setLBAF cmd.lbaf.toBitVec c =
      if cmd.lbaf ≤ 0x0f then some (put (32 * 10) (cmd.lbaf.toBitVec.setWidth 4) c) else none :=
    (AdminField.set_eq none .lbaf cmd.lbaf.toBitVec c).trans ite_checked
  rw [formatNVM, hnew]
  simp only [Option.bind_eq_bind, Option.bind_some, hnsid, hses, hpil, hms, hpi, hlbaf, FormatDUT.InRange]
  by_cases h1 : cmd.ses ≤ 0x07
  · by_cases h2 : cmd.pi ≤ 0x07
    · by_cases h3 : cmd.lbaf ≤ 0x0f
      · simp only [h1, h2, h3, if_true, Option.bind_some, and_self]
        rfl
      · simp [h1, h2, h3]
    · simp [h1, h2]
  · simp [h1]

/-- A value in range is what its field holds. -/
theorem setWidth_setWidth_of_le {v limit : UInt8} {k : Nat} (hk : limit.toNat < 2 ^ k) (h : v ≤ limit) :
    (v.toBitVec.setWidth k).setWidth 8 = v.toBitVec := by
  refine BitVec.eq_of_toNat_eq ?_
  have hv : v.toBitVec.toNat ≤ limit.toNat := UInt8.le_iff_toNat_le.1 h
  have hlt := v.toBitVec.isLt
  rw [BitVec.toNat_setWidth, BitVec.toNat_setWidth, Nat.mod_eq_of_lt (by omega : v.toBitVec.toNat < 2 ^ k),
    Nat.mod_eq_of_lt hlt]

/-- **The round trip.** -/
theorem decode_encode (h : cmd.InRange) : FormatDUT.decode cmd.encode = cmd := by
  obtain ⟨hses, hpi, hlbaf⟩ := h
  have hbool (b : Bool) : (BitVec.ofBool b == 1#1) = b := by
    revert b
    decide
  have hnsid : get 32 32 cmd.encode = cmd.nsid.toBitVec := by
    unfold FormatDUT.encode
    iterate 5 rw [get_put_of_apart (by decide)]
    exact get_put (by decide) _ _
  have hses' : get (32 * 10 + 9) 3 cmd.encode = cmd.ses.toBitVec.setWidth 3 := by
    unfold FormatDUT.encode
    iterate 4 rw [get_put_of_apart (by decide)]
    exact get_put (by decide) _ _
  have hpil : get (32 * 10 + 8) 1 cmd.encode = BitVec.ofBool cmd.pil := by
    unfold FormatDUT.encode
    iterate 3 rw [get_put_of_apart (by decide)]
    exact get_put (by decide) _ _
  have hpi' : get (32 * 10 + 5) 3 cmd.encode = cmd.pi.toBitVec.setWidth 3 := by
    unfold FormatDUT.encode
    iterate 2 rw [get_put_of_apart (by decide)]
    exact get_put (by decide) _ _
  have hms : get (32 * 10 + 4) 1 cmd.encode = BitVec.ofBool cmd.ms := by
    unfold FormatDUT.encode
    rw [get_put_of_apart (by decide)]
    exact get_put (by decide) _ _
  have hlbaf' : get (32 * 10) 4 cmd.encode = cmd.lbaf.toBitVec.setWidth 4 := get_put (by decide) _ _
  rw [FormatDUT.decode, hnsid, hses', hpil, hpi', hms, hlbaf', hbool, hbool,
    setWidth_setWidth_of_le (by decide) hses, setWidth_setWidth_of_le (by decide) hpi,
    setWidth_setWidth_of_le (by decide) hlbaf]

/-! ## The loop -/

/-- The loop gets to its end. -/
def Goes (sending : Nat → Sending) (i : Nat) (cmds : List FormatDUT) : Prop :=
  (∀ cmd ∈ cmds, cmd.InRange) ∧ ∀ k < cmds.length, sending (i + k) = .reaped

theorem goes_cons : Goes sending i (cmd :: cmds) ↔
    cmd.InRange ∧ sending i = .reaped ∧ Goes sending (i + 1) cmds := by
  rw [Goes, Goes, List.forall_mem_cons, List.length_cons]
  constructor
  · rintro ⟨⟨hcmd, hcmds⟩, h⟩
    refine ⟨hcmd, h 0 (Nat.succ_pos _), hcmds, fun k hk => ?_⟩
    have hnext := h (k + 1) (Nat.succ_lt_succ hk)
    rwa [show i + (k + 1) = i + 1 + k by omega] at hnext
  · rintro ⟨hcmd, hfirst, hcmds, h⟩
    refine ⟨⟨hcmd, hcmds⟩, fun k hk => ?_⟩
    cases k with
    | zero => exact hfirst
    | succ k =>
      rw [show i + (k + 1) = i + 1 + k by omega]
      exact h k (Nat.lt_of_succ_lt_succ hk)

theorem formatFrom_ok : (formatFrom sending i cmds).2 = true ↔ Goes sending i cmds := by
  induction cmds generalizing i with
  | nil => exact iff_of_true rfl ⟨fun _ h => absurd h List.not_mem_nil, fun _ h => absurd h (Nat.not_lt_zero _)⟩
  | cons cmd cmds ih =>
    rw [goes_cons, formatFrom, formatNVM_eq]
    by_cases hcmd : cmd.InRange
    · rw [if_pos hcmd]
      cases hsend : sending i with
      | kept | lost => simp
      | reaped => simpa [hcmd] using ih
    · simp [hcmd]

/-- What is sent are commands of entries in range, from the first entry on. All entries in front of the last of them
have been formatted. -/
theorem formatFrom_sent (sending : Nat → Sending) (i : Nat) (cmds : List FormatDUT) :
    ∃ n ≤ cmds.length, (formatFrom sending i cmds).1 = (cmds.take n).map FormatDUT.encode ∧
      (∀ cmd ∈ cmds.take n, cmd.InRange) ∧ ∀ k, k + 1 < n → sending (i + k) = .reaped := by
  induction cmds generalizing i with
  | nil => exact ⟨0, Nat.le_refl 0, rfl, fun _ h => absurd h List.not_mem_nil, fun _ h => absurd h (Nat.not_lt_zero _)⟩
  | cons cmd cmds ih =>
    rw [formatFrom, formatNVM_eq]
    by_cases hcmd : cmd.InRange
    · rw [if_pos hcmd]
      cases hsend : sending i with
      | kept => exact ⟨0, Nat.zero_le _, rfl, by simp, by simp⟩
      | lost => exact ⟨1, by simp, rfl, by simpa using hcmd, by simp⟩
      | reaped =>
        obtain ⟨n, hn, hsent, hrange, hreaped⟩ := ih (i + 1)
        refine ⟨n + 1, Nat.succ_le_succ hn, ?_, ?_, fun k hk => ?_⟩
        · rw [List.take_succ_cons, List.map_cons, ← hsent]
        · rw [List.take_succ_cons]
          exact List.forall_mem_cons.2 ⟨hcmd, hrange⟩
        · cases k with
          | zero => exact hsend
          | succ k =>
            rw [show i + (k + 1) = i + 1 + k by omega]
            exact hreaped k (Nat.lt_of_succ_lt_succ hk)
    · exact ⟨0, Nat.zero_le _, by simp [hcmd], by simp, by simp⟩

theorem formatFrom_whole (hrange : ∀ cmd ∈ cmds, cmd.InRange) (hsend : ∀ k < cmds.length, sending (i + k) = .reaped) :
    (formatFrom sending i cmds).1 = cmds.map FormatDUT.encode := by
  induction cmds generalizing i with
  | nil => rfl
  | cons cmd cmds ih =>
    obtain ⟨hcmd, hfirst, hgoes⟩ := goes_cons.1 ⟨hrange, hsend⟩
    rw [formatFrom, formatNVM_eq, if_pos hcmd, hfirst, List.map_cons, ← ih hgoes.1 hgoes.2]

/-- If the device reaps everything, it is the first entry out of range that ends the loop. -/
theorem formatFrom_reaped (hreaped : ∀ k, sending k = .reaped) (i : Nat) (cmds : List FormatDUT) :
    (formatFrom sending i cmds).1 = (cmds.takeWhile (·.InRange)).map FormatDUT.encode := by
  induction cmds generalizing i with
  | nil => rfl
  | cons cmd cmds ih =>
    rw [formatFrom, formatNVM_eq, hreaped i, List.takeWhile_cons]
    by_cases hcmd : cmd.InRange
    · rw [if_pos hcmd, if_pos (decide_eq_true hcmd), List.map_cons, ← ih (i + 1)]
    · rw [if_neg hcmd, if_neg (by simpa using hcmd), List.map_nil]

theorem map_decode_encode (h : ∀ cmd ∈ cmds, cmd.InRange) :
    (cmds.map FormatDUT.encode).map FormatDUT.decode = cmds := by
  rw [List.map_map]
  exact (List.map_congr_left fun cmd hcmd => decode_encode (h cmd hcmd)).trans (List.map_id' cmds)

/-- What reaches the device, and what the return value says. -/
structure FormatExact (prepared : Bool) (sending : Nat → Sending) (cmds : List FormatDUT) (sent : List Cmd)
    (ok : Bool) : Prop where
  /-- The device is asked for what the first entries say, and each command but the last one has been reaped. -/
  asked : sent.map FormatDUT.decode <+: cmds ∧ ∀ k, k + 1 < sent.length → sending k = .reaped
  /-- Success means that it has been asked for all of them. -/
  all : ok = true ↔ prepared = true ∧ (∀ cmd ∈ cmds, cmd.InRange) ∧ ∀ k < cmds.length, sending k = .reaped
  whole : ok = true → sent.map FormatDUT.decode = cmds
  /-- An entry out of range does not keep the ones in front of it from being formatted. -/
  partly : prepared = true → (∀ k, sending k = .reaped) → sent.map FormatDUT.decode = cmds.takeWhile (·.InRange)

/-- **What is formatted are the namespaces in front of the first one that is out of range or fails.** -/
theorem formatDevice_exact (prepared : Bool) (sending : Nat → Sending) (format : Format) :
    FormatExact prepared sending format.cmds (formatDevice prepared sending format).1
      (formatDevice prepared sending format).2 := by
  cases prepared with
  | false => exact ⟨⟨List.nil_prefix, by simp [formatDevice]⟩, by simp [formatDevice], nofun, nofun⟩
  | true =>
    change FormatExact true sending format.cmds (formatFrom sending 0 format.cmds).1
      (formatFrom sending 0 format.cmds).2
    obtain ⟨n, hn, hsent, hrange, hreaped⟩ := formatFrom_sent sending 0 format.cmds
    have hdecode : (formatFrom sending 0 format.cmds).1.map FormatDUT.decode = format.cmds.take n := by
      rw [hsent, map_decode_encode hrange]
    have hok : (formatFrom sending 0 format.cmds).2 = true ↔
        (∀ cmd ∈ format.cmds, cmd.InRange) ∧ ∀ k < format.cmds.length, sending k = .reaped := by
      have hgoes : (formatFrom sending 0 format.cmds).2 = true ↔ Goes sending 0 format.cmds := formatFrom_ok
      simpa [Goes] using hgoes
    refine ⟨⟨hdecode ▸ List.take_prefix n _, fun k hk => ?_⟩, by simpa using hok, fun h => ?_, fun _ hall => ?_⟩
    · rw [hsent, List.length_map, List.length_take, Nat.min_eq_left hn] at hk
      simpa using hreaped k hk
    · obtain ⟨hall, hsend⟩ := hok.1 h
      have hgoes : (formatFrom sending 0 format.cmds).1 = format.cmds.map FormatDUT.encode :=
        formatFrom_whole hall (by simpa using hsend)
      rw [hgoes, map_decode_encode hall]
    · have hin : ∀ cmd ∈ format.cmds.takeWhile (·.InRange), cmd.InRange := fun cmd hcmd => by
        simpa using List.mem_takeWhile_imp hcmd
      rw [formatFrom_reaped hall, map_decode_encode hin]

end Tnvme
