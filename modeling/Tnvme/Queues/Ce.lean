/-!
# Completion entries and their status

`ReapCE` accepts an entry if its status is one of a list, `ReapCENot` is meant to refuse it then. Both go through the
list and ask `ProcessCE`: `ValidatePeek` compares the entry with the row of the status that it is given,
`InvalidatePeek` compares it with the row of success, whatever it is given.

So the two forms complement each other exactly if the entry is a success just when the list has its status
(`accept_reject_iff`).
-/

namespace Tnvme

/-- Status Code Type. -/
inductive SCT where
  | generic
  | cmd
  | media
  | vendor
  | ignore
  deriving DecidableEq, Repr

def SCT.code : SCT → Nat
  | generic => 0x00
  | cmd => 0x01
  | media => 0x02
  | vendor => 0x07
  | ignore => 0xFE

/-- The enumeration of `CESTAT_TABLE`. -/
inductive CEStat where
  | success | invalOpcode | invalField | idConflict | xferErr | abrtPwrLoss | internErr | abrtReq | abrtSqDel
  | abrtFailFuse | abrtMissFuse | invalNamspc | cmdSeqError | invalSglSegDesc | invalSglNumDesc | invalSglDataLen
  | invalSglMetaLen | invalSglDescType | invalCntlrBufUse | invalPrpOffset | atomicWrtExceed | lbaOutRange
  | capExceeded | namspcNotRdy | rsrvConflict | formatInProgress | cqInvalid | invalidQid | maxQSizeExceed
  | abortCmdLimit | rsvdSctValue | asyncReqExceed | invalFirmSlot | invalFirmImage | invalIntVec | invalLogPage
  | invalFormat | fwAppReq | invalQueueDel | fidNotSaveable | fidNotChangable | fidNotNsSpec | fwActReqSsReset
  | fwActReqReset | fwActReqMaxTimeVio | fwActProhibited | overlapRange | nsInsuffCapacity | nsIdUnavail
  | reservedX17 | nsAlreadyAttached | nsIsPrivate | nsNotAttached | thinProvNotSupp | cntrlListInvalid | conflictAttr
  | invalProtInfo | writeIntoRo | writeFault | unrecoverRdErr | e2eGuardChkErr | e2eAppTagErr | e2eRefTagErr
  | compareFail | accessDenied | deallocUnwrittenLb | ignore
  deriving DecidableEq, Repr

namespace CEStat

/-- `mCEStatMetrics`: the Status Code Type and the Status Code. -/
def metrics : CEStat → SCT × BitVec 8
  | success => (.generic, 0x00)
  | invalOpcode => (.generic, 0x01)
  | invalField => (.generic, 0x02)
  | idConflict => (.generic, 0x03)
  | xferErr => (.generic, 0x04)
  | abrtPwrLoss => (.generic, 0x05)
  | internErr => (.generic, 0x06)
  | abrtReq => (.generic, 0x07)
  | abrtSqDel => (.generic, 0x08)
  | abrtFailFuse => (.generic, 0x09)
  | abrtMissFuse => (.generic, 0x0a)
  | invalNamspc => (.generic, 0x0b)
  | cmdSeqError => (.generic, 0x0c)
  | invalSglSegDesc => (.generic, 0x0d)
  | invalSglNumDesc => (.generic, 0x0e)
  | invalSglDataLen => (.generic, 0x0f)
  | invalSglMetaLen => (.generic, 0x10)
  | invalSglDescType => (.generic, 0x11)
  | invalCntlrBufUse => (.generic, 0x12)
  | invalPrpOffset => (.generic, 0x13)
  | atomicWrtExceed => (.generic, 0x14)
  | lbaOutRange => (.generic, 0x80)
  | capExceeded => (.generic, 0x81)
  | namspcNotRdy => (.generic, 0x82)
  | rsrvConflict => (.generic, 0x83)
  | formatInProgress => (.generic, 0x84)
  | cqInvalid => (.cmd, 0x00)
  | invalidQid => (.cmd, 0x01)
  | maxQSizeExceed => (.cmd, 0x02)
  | abortCmdLimit => (.cmd, 0x03)
  | rsvdSctValue => (.cmd, 0x04)
  | asyncReqExceed => (.cmd, 0x05)
  | invalFirmSlot => (.cmd, 0x06)
  | invalFirmImage => (.cmd, 0x07)
  | invalIntVec => (.cmd, 0x08)
  | invalLogPage => (.cmd, 0x09)
  | invalFormat => (.cmd, 0x0a)
  | fwAppReq => (.cmd, 0x0b)
  | invalQueueDel => (.cmd, 0x0c)
  | fidNotSaveable => (.cmd, 0x0d)
  | fidNotChangable => (.cmd, 0x0e)
  | fidNotNsSpec => (.cmd, 0x0f)
  | fwActReqSsReset => (.cmd, 0x10)
  | fwActReqReset => (.cmd, 0x11)
  | fwActReqMaxTimeVio => (.cmd, 0x12)
  | fwActProhibited => (.cmd, 0x13)
  | overlapRange => (.cmd, 0x14)
  | nsInsuffCapacity => (.cmd, 0x15)
  | nsIdUnavail => (.cmd, 0x16)
  | reservedX17 => (.cmd, 0x17)
  | nsAlreadyAttached => (.cmd, 0x18)
  | nsIsPrivate => (.cmd, 0x19)
  | nsNotAttached => (.cmd, 0x1a)
  | thinProvNotSupp => (.cmd, 0x1b)
  | cntrlListInvalid => (.cmd, 0x1c)
  | conflictAttr => (.cmd, 0x80)
  | invalProtInfo => (.cmd, 0x81)
  | writeIntoRo => (.cmd, 0x82)
  | writeFault => (.media, 0x80)
  | unrecoverRdErr => (.media, 0x81)
  | e2eGuardChkErr => (.media, 0x82)
  | e2eAppTagErr => (.media, 0x83)
  | e2eRefTagErr => (.media, 0x84)
  | compareFail => (.media, 0x85)
  | accessDenied => (.media, 0x86)
  | deallocUnwrittenLb => (.media, 0x87)
  | ignore => (.ignore, 0xfe)

def sct (status : CEStat) : SCT := status.metrics.1

def sc (status : CEStat) : BitVec 8 := status.metrics.2

/-- The rows of `CESTAT_TABLE`, in order. -/
def table : List CEStat := [
  .success, .invalOpcode, .invalField, .idConflict, .xferErr, .abrtPwrLoss, .internErr, .abrtReq, .abrtSqDel,
  .abrtFailFuse, .abrtMissFuse, .invalNamspc, .cmdSeqError, .invalSglSegDesc, .invalSglNumDesc, .invalSglDataLen,
  .invalSglMetaLen, .invalSglDescType, .invalCntlrBufUse, .invalPrpOffset, .atomicWrtExceed, .lbaOutRange,
  .capExceeded, .namspcNotRdy, .rsrvConflict, .formatInProgress, .cqInvalid, .invalidQid, .maxQSizeExceed,
  .abortCmdLimit, .rsvdSctValue, .asyncReqExceed, .invalFirmSlot, .invalFirmImage, .invalIntVec, .invalLogPage,
  .invalFormat, .fwAppReq, .invalQueueDel, .fidNotSaveable, .fidNotChangable, .fidNotNsSpec, .fwActReqSsReset,
  .fwActReqReset, .fwActReqMaxTimeVio, .fwActProhibited, .overlapRange, .nsInsuffCapacity, .nsIdUnavail,
  .reservedX17, .nsAlreadyAttached, .nsIsPrivate, .nsNotAttached, .thinProvNotSupp, .cntrlListInvalid, .conflictAttr,
  .invalProtInfo, .writeIntoRo, .writeFault, .unrecoverRdErr, .e2eGuardChkErr, .e2eAppTagErr, .e2eRefTagErr,
  .compareFail, .accessDenied, .deallocUnwrittenLb, .ignore]

theorem mem_table (status : CEStat) : status ∈ table := by cases status <;> decide

end CEStat

/-- Completion element, by name. -/
structure CE where
  cmdSpec : BitVec 32
  reserved : BitVec 32
  SQHD : BitVec 16
  SQID : BitVec 16
  CID : BitVec 16
  /-- `StatbyBits`: P, SC in 8 bits, SCT in 3, 2 reserved, M and DNR. -/
  SF : BitVec 16
  deriving DecidableEq, Repr

def CE.SC (ce : CE) : BitVec 8 := ce.SF.extractLsb' 1 8

def CE.SCT (ce : CE) : BitVec 3 := ce.SF.extractLsb' 9 3

def CE.M (ce : CE) : Bool := ce.SF.getLsbD 14

namespace ProcessCE

/-- `SCT` and `SC` of the entry are those of the row. -/
def rowMatches (ce : CE) (status : CEStat) : Bool := ce.SCT.toNat = status.sct.code && ce.SC = status.sc

def validatePeek (ce : CE) (status : CEStat) : Bool :=
  if !rowMatches ce status then false
  else if rowMatches ce .success then
    if ce.M then false else true
  else true

def invalidatePeek (ce : CE) (_status : CEStat) : Bool := if rowMatches ce .success then false else true

/-- `none`: it throws, as the status is unknown. -/
def getCEStat (ce : CE) : Option CEStat := CEStat.table.find? fun status => rowMatches ce status

end ProcessCE

/-- The exceptions of the verification; what is printed is the number of statuses. -/
inductive CEFault where
  /-- "Internal Programming Error; Must supply >= 1 status" -/
  | noStatus
  /-- "%d CeStat's compared to device status, but no match found" -/
  | noMatch (size : Nat)
  /-- "%d CeStat's compared to device status, and match found" -/
  | matchFound (size : Nat)
  /-- "CE has unknown status" -/
  | unknownStatus
  deriving DecidableEq, Repr

open ProcessCE

/-- `VerifyCE`, to which `ReapCE` hands the entry it has retrieved: the first status that fits comes back. -/
def verifyCE (ce : CE) (status : List CEStat) : Except CEFault CEStat :=
  if status.isEmpty then .error .noStatus
  else
    match status.find? fun st => st = .ignore || validatePeek ce st with
    | some st => .ok st
    | none => .error (.noMatch status.length)

/-- `ReapCENot`, for the entry it has retrieved. -/
def reapCENot (ce : CE) (status : List CEStat) : Except CEFault CEStat :=
  if status.isEmpty then .error .noStatus
  else if status.any fun st => !invalidatePeek ce st then .error (.matchFound status.length)
  else
    match getCEStat ce with
    | some st => .ok st
    | none => .error .unknownStatus

/-- The entry has the Status Code Type and the Status Code of a status. -/
def Matches (ce : CE) (status : CEStat) : Prop := ce.SCT.toNat = status.sct.code ∧ ce.SC = status.sc

/-- What the forms of verification are for. -/
structure Verifies (ce : CE) (status : List CEStat) : Prop where
  accepts : (∃ st, verifyCE ce status = .ok st) ↔
    ∃ st ∈ status, Matches ce st ∧ ¬(Matches ce .success ∧ ce.M = true)
  rejects : (∃ size, reapCENot ce status = .error (.matchFound size)) ↔ ∃ st ∈ status, Matches ce st
  known : ∀ st, getCEStat ce = some st → Matches ce st
  unknown : getCEStat ce = none ↔ ∀ st, ¬Matches ce st

variable {ce : CE} {status : List CEStat}

namespace ProcessCE

theorem rowMatches_iff {st : CEStat} : rowMatches ce st = true ↔ Matches ce st := by
  rw [rowMatches, Bool.and_eq_true, decide_eq_true_eq, decide_eq_true_eq, Matches]

theorem validatePeek_iff {st : CEStat} :
    validatePeek ce st = true ↔ Matches ce st ∧ ¬(Matches ce .success ∧ ce.M = true) := by
  rw [validatePeek, ← rowMatches_iff, ← rowMatches_iff]
  cases rowMatches ce st <;> cases rowMatches ce .success <;> cases ce.M <;> simp

theorem invalidatePeek_iff {st : CEStat} : invalidatePeek ce st = false ↔ Matches ce .success := by
  rw [invalidatePeek, ← rowMatches_iff]
  cases rowMatches ce .success <;> simp

theorem getCEStat_some {st : CEStat} (h : getCEStat ce = some st) : Matches ce st :=
  rowMatches_iff.1 (List.find?_some h)

theorem getCEStat_none : getCEStat ce = none ↔ ∀ st, ¬Matches ce st := by
  rw [getCEStat, List.find?_eq_none]
  simp only [rowMatches_iff]
  exact ⟨fun h st => h st st.mem_table, fun h st _ => h st⟩

end ProcessCE

/-- The accepting form compares the entry with each status. -/
theorem verifyCE_ok (hne : status ≠ []) (hignore : CEStat.ignore ∉ status) :
    (∃ st, verifyCE ce status = .ok st) ↔ ∃ st ∈ status, Matches ce st ∧ ¬(Matches ce .success ∧ ce.M = true) := by
  have hfits : ∀ st ∈ status, (st = .ignore || validatePeek ce st) = validatePeek ce st := by
    intro st hst
    rw [decide_eq_false fun h : st = .ignore => hignore (h ▸ hst), Bool.false_or]
  rw [verifyCE, if_neg (by simpa using hne)]
  cases hfind : status.find? fun st => st = .ignore || validatePeek ce st with
  | some st =>
    have hst := List.mem_of_find?_eq_some hfind
    have hfit := List.find?_some hfind
    rw [hfits st hst] at hfit
    exact iff_of_true ⟨st, rfl⟩ ⟨st, hst, validatePeek_iff.1 hfit⟩
  | none =>
    rw [List.find?_eq_none] at hfind
    refine iff_of_false (fun ⟨_, h⟩ => by cases h) fun ⟨st, hst, hfit⟩ => hfind st hst ?_
    rw [hfits st hst]
    exact validatePeek_iff.2 hfit

/-- The rejecting form finds a match exactly if the entry is a success. -/
theorem reapCENot_matchFound (hne : status ≠ []) :
    (∃ size, reapCENot ce status = .error (.matchFound size)) ↔ Matches ce .success := by
  obtain ⟨st, hst⟩ := List.exists_mem_of_ne_nil status hne
  have hany : (status.any fun st => !invalidatePeek ce st) = true ↔ Matches ce .success := by
    rw [List.any_eq_true]
    simp only [Bool.not_eq_true', invalidatePeek_iff]
    exact ⟨fun ⟨_, _, h⟩ => h, fun h => ⟨st, hst, h⟩⟩
  rw [reapCENot, if_neg (by simpa using hne)]
  by_cases h : Matches ce .success
  · rw [if_pos (hany.2 h)]
    exact iff_of_true ⟨_, rfl⟩ h
  · rw [if_neg (mt hany.1 h)]
    refine iff_of_false (fun ⟨_, heq⟩ => ?_) h
    cases hstat : getCEStat ce with
    | some st => simp [hstat] at heq
    | none => simp [hstat] at heq

/-- **The accepting and the rejecting form complement each other exactly if the entry is a success just when its status
is in the list.** -/
theorem accept_reject_iff (ce : CE) {status : List CEStat} (hne : status ≠ []) (hignore : CEStat.ignore ∉ status) :
    Verifies ce status ↔ (Matches ce .success ↔ ∃ st ∈ status, Matches ce st) := by
  refine ⟨fun h => (reapCENot_matchFound hne).symm.trans h.rejects, fun h => ⟨verifyCE_ok hne hignore, ?_, ?_, ?_⟩⟩
  · exact (reapCENot_matchFound hne).trans h
  · exact fun st => getCEStat_some
  · exact getCEStat_none

/-- An entry with the status Success. -/
def successCE : CE := ⟨0, 0, 0, 0, 0, 0⟩

/-- An entry with the status Invalid Field. -/
def invalFieldCE : CE := ⟨0, 0, 0, 0, 0, 0x0004⟩

/-- Neither of the two statuses is that of the entry. -/
theorem accept_reject_invalField :
    CEStat.ignore ∉ [CEStat.invalOpcode, CEStat.lbaOutRange] ∧
      Verifies invalFieldCE [.invalOpcode, .lbaOutRange] := by
  refine ⟨by decide, (accept_reject_iff invalFieldCE (by decide) (by decide)).2 (iff_of_false ?_ ?_)⟩
  · exact fun h => absurd (ProcessCE.rowMatches_iff.2 h) (by decide)
  · rintro ⟨st, hst, h⟩
    have hrow := ProcessCE.rowMatches_iff.2 h
    clear h
    revert st
    decide

/-- The rejecting form does not find the status that it is given, and returns it. -/
theorem reapCENot_misses : ¬∀ ce status, status ≠ [] → CEStat.ignore ∉ status → Verifies ce status := by
  intro h
  have hreturns : reapCENot invalFieldCE [.invalField] = .ok .invalField := rfl
  obtain ⟨size, hsize⟩ := (h invalFieldCE [.invalField] (by decide) (by decide)).rejects.2
    ⟨.invalField, List.mem_cons_self, by decide, by decide⟩
  rw [hreturns] at hsize
  cases hsize

end Tnvme
