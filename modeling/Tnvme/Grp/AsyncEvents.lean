import Tnvme.Lib.Fields
import Tnvme.Lib.Outcomes
import Tnvme.Queues.Ce
import Tnvme.Regs.Mmap

/-!
# The tests of asynchronous events

The tests of `GrpAdminAsyncCmd` send Asynchronous Event Requests, and write to the doorbell of a submission queue that
does not exist, which is an event. The device answers a request when there is an event to report, and masks further ones
until its log page is read (`AerSt`).

The limit of requests that a device reports is one less than what it takes, in a byte; the tests keep the limit in a
byte as well. So two of the tests go wrong for the greatest limits, and for these only (`verifyMaxEvents_iff`,
`verifyMasking_iff`). The offset of the doorbell has 16 bits in `Registers::Write`, which is not enough for the widest
strides (`doorbell_iff`).
-/

namespace Tnvme

open Fields Outcomes

/-- `EVENT_TYPE_ERROR_STS` -/
def eventTypeErrorSts : BitVec 3 := 0

/-- `ERR_STS_INVALID_SQ` -/
def errStsInvalidSq : BitVec 8 := 0

namespace CE

/-! `AsyncEventReqs` -/

def asyncEventType (ce : CE) : BitVec 3 := get 0 3 ce.cmdSpec

def asyncEventInfo (ce : CE) : BitVec 8 := get 8 8 ce.cmdSpec

def assocLogPage (ce : CE) : BitVec 8 := get 16 8 ce.cmdSpec

end CE

/-! ## The tests -/

/-- The device behind the driver. What it does is done when the host looks for it next. -/
structure AerDut (σ : Type) where
  /-- The register CAP, if it can be read. -/
  cap : Option (BitVec 64)
  /-- The controller is disabled completely, gets admin queues of that many entries, and is enabled. -/
  reset : Nat → σ → Option σ
  /-- The controller is disabled and enabled, with the admin queues that it has. -/
  restart : σ → Option σ
  /-- An Asynchronous Event Request is sent, and the doorbell is rung. -/
  request : σ → σ
  write : RwGeneric → σ → Option σ
  getLogPage : BitVec 8 → σ → σ
  /-- The entries in the ACQ. -/
  waiting : σ → List CE
  reap : Nat → σ → σ

/-- Why a test throws. -/
inductive AerFault where
  | device
  | expected (numTil numCE : Nat)
  | reaped (numReaped : Nat)
  | notEmpty (numCE : Nat)
  | unexpected (numCE : Nat)
  | status
  | eventType (received : BitVec 3)
  | eventInfo (received : BitVec 8)
  deriving DecidableEq, Repr

/-- The doorbell of the submission queue 1, `SQ0TBDL + (2 * 4 << capDstrd)`. -/
def sq1Doorbell (cap : BitVec 64) : BitVec 32 :=
  let capDstrd : BitVec 32 := ((cap &&& 0x0000000f00000000) >>> 32).setWidth 32
  0x1000 + 8 <<< capDstrd.toNat

/-- What reaches the driver: the parameter for the offset has 16 bits. -/
def sq1Write (cap : BitVec 64) : RwGeneric := rwGeneric .bar01 4 ((sq1Doorbell cap).setWidth 16) .dwordLen

namespace AerDut

variable {σ : Type} (dut : AerDut σ)

def orThrow {α : Type} (r : Option α) : Except AerFault α := r.elim (.error .device) .ok

def invalidSQWriteDoorbell (s : σ) : Except AerFault σ := do
  let cap ← orThrow dut.cap
  orThrow (dut.write (sq1Write cap) s)

def sendAsyncEventRequests : Nat → σ → σ
  | 0, s => s
  | nCmds + 1, s => sendAsyncEventRequests nCmds (dut.request s)

/-- `ReapInquiryWaitSpecify`, with the number of entries that it finds. -/
def inquire (numTil : Nat) (s : σ) : Bool × Nat :=
  let numCE := (dut.waiting s).length
  (numCE ≠ 0 ∧ numCE ≥ numTil, numCE)

/-- All entries that are found are reaped, and there has to be one. -/
def takeCE (s : σ) : Except AerFault (CE × σ) :=
  match dut.inquire 1 s with
  | (false, numCE) => .error (.expected 1 numCE)
  | (true, numCE) =>
    match dut.waiting s with
    | [ce] => .ok (ce, dut.reap numCE s)
    | _ => .error (.reaped numCE)

def checkEvent (ce : CE) : Except AerFault Unit :=
  if ce.asyncEventType ≠ eventTypeErrorSts then .error (.eventType ce.asyncEventType)
  else if ce.asyncEventInfo ≠ errStsInvalidSq then .error (.eventInfo ce.asyncEventInfo)
  else .ok ()

/-- `ReadLogPage`, of which the command is sent with `SendAndReapCmd`. -/
def readLogPage (logId : BitVec 8) (s : σ) : Except AerFault σ := do
  if dut.waiting s ≠ [] then throw (.notEmpty (dut.waiting s).length)
  let (ce, s) ← dut.takeCE (dut.getLogPage logId s)
  if ProcessCE.validatePeek ce .success then return s else throw .status

/-- The loop of `VerifyMaxEvents`, for the rounds that are left. -/
def maxEventsLoop : Nat → σ → Except AerFault σ
  | 0, s => .ok s
  | n + 1, s => do
    let s ← dut.invalidSQWriteDoorbell s
    let (ce, s) ← dut.takeCE s
    checkEvent ce
    let s ← dut.readLogPage ce.assocLogPage s
    maxEventsLoop n s

def verifyMaxEvents (aerl : UInt8) (s : σ) : Except AerFault σ := do
  let nAerlimit : UInt8 := aerl + 1
  let s ← orThrow (dut.reset (nAerlimit.toNat + 2) s)
  let s := dut.sendAsyncEventRequests (nAerlimit.toNat + 1) s
  let (ce, s) ← dut.takeCE s
  if !ProcessCE.validatePeek ce .asyncReqExceed then throw .status
  dut.maxEventsLoop nAerlimit.toNat s

/-- A round of `VerifyMasking`. -/
def maskingRound (nAer : UInt8) (s : σ) : Except AerFault σ := do
  let s ← dut.invalidSQWriteDoorbell s
  if nAer = 1 then
    let (ce, s) ← dut.takeCE s
    checkEvent ce
    return s
  else if (dut.inquire 2 s).1 then throw (.unexpected (dut.inquire 2 s).2)
  else return s

/-- The loop of `VerifyMasking`; `none` when the fuel is used up. -/
def maskingLoop (nAerlimit : UInt8) : Nat → UInt8 → σ → Option (Except AerFault σ)
  | 0, _, _ => none
  | fuel + 1, nAer, s =>
    if nAer ≤ nAerlimit then
      match dut.maskingRound nAer s with
      | .error e => some (.error e)
      | .ok s => maskingLoop nAerlimit fuel (nAer + 1) s
    else some (.ok s)

def verifyMasking (fuel : Nat) (aerl : UInt8) (s : σ) : Option (Except AerFault σ) :=
  let nAerlimit : UInt8 := aerl + 1
  match dut.reset (nAerlimit.toNat + 1) s with
  | none => some (.error .device)
  | some s =>
    (dut.maskingLoop nAerlimit fuel 1 (dut.sendAsyncEventRequests nAerlimit.toNat s)).map fun r => do
      let s ← r
      orThrow (dut.reset (nAerlimit.toNat + 1) s)

def verifyEventQueueing (s : σ) : Except AerFault σ := do
  let s ← orThrow (dut.reset 5 s)
  let s ← dut.invalidSQWriteDoorbell s
  if (dut.inquire 1 s).1 then throw (.unexpected (dut.inquire 1 s).2)
  let s := dut.sendAsyncEventRequests 1 s
  let (ce, s) ← dut.takeCE s
  checkEvent ce
  return s

def abortByReset (s : σ) : Except AerFault σ := do
  let s ← orThrow (dut.reset 5 s)
  let s := dut.sendAsyncEventRequests 1 s
  if (dut.inquire 1 s).1 then throw (.unexpected (dut.inquire 1 s).2)
  let s ← orThrow (dut.restart s)
  let s ← dut.invalidSQWriteDoorbell s
  if (dut.inquire 1 s).1 then throw (.unexpected (dut.inquire 1 s).2)
  orThrow (dut.restart s)

end AerDut

/-! ## What a device is to do -/

/-- What an entry of the ACQ is about. -/
inductive AerAnswer where
  | event
  | exceeded
  | success
  deriving DecidableEq, Repr

/-- An entry says what it is about. -/
def AerAnswer.Says (ce : CE) : AerAnswer → Prop
  | .event => ce.asyncEventType = eventTypeErrorSts ∧ ce.asyncEventInfo = errStsInvalidSq
  | .exceeded => ProcessCE.validatePeek ce .asyncReqExceed = true
  | .success => ProcessCE.validatePeek ce .success = true

/-- Requests that are not answered yet, events that are not reported yet, whether events are masked, and the entries
that the host has not reaped. -/
structure AerSt where
  outstanding : Nat
  retained : Nat
  masked : Bool
  waiting : List AerAnswer
  deriving DecidableEq, Repr

/-- What a device does or fails to do. -/
structure AerPolicy where
  /-- It masks events that have been reported. -/
  masks : Bool
  /-- It retains events that are masked. -/
  retains : Bool
  /-- It keeps an event until there is a request. -/
  queues : Bool
  /-- It aborts the requests when it is reset. -/
  aborts : Bool
  deriving DecidableEq, Repr

namespace AerSt

def fresh : AerSt := ⟨0, 0, false, []⟩

variable (p : AerPolicy) (limit : Nat) (st : AerSt)

/-- An event is reported if there is a request for it. -/
def deliver : AerSt :=
  if 0 < st.outstanding ∧ 0 < st.retained ∧ st.masked = false then
    ⟨st.outstanding - 1, st.retained - 1, p.masks, st.waiting ++ [.event]⟩
  else st

def request : AerSt :=
  if st.outstanding = limit then { st with waiting := st.waiting ++ [.exceeded] }
  else deliver p { st with outstanding := st.outstanding + 1 }

def event : AerSt :=
  if st.masked ∧ p.retains = false then st
  else if st.outstanding = 0 ∧ p.queues = false then st
  else deliver p { st with retained := st.retained + 1 }

def restart : AerSt := if p.aborts then fresh else { st with waiting := [] }

/-- The log page is read, and events are no longer masked. -/
def unmask : AerSt := deliver p { st with masked := false, waiting := st.waiting ++ [.success] }

end AerSt

/-- The stride of the doorbells, CAP.DSTRD. -/
def dstrd (cap : BitVec 64) : BitVec 4 := get 32 4 cap

/-- The tail doorbell of a submission queue. -/
def sqTail (cap : BitVec 64) (y : Nat) : Nat := 0x1000 + 2 * y * (4 <<< (dstrd cap).toNat)

/-- The device does what the states say. The submission queue 1 does not exist, so that a write to its doorbell is an
event. -/
structure AerDut.Conforms {σ : Type} (dut : AerDut σ) (p : AerPolicy) (limit : Nat) (cap : BitVec 64)
    (abs : σ → AerSt) : Prop where
  cap_eq : dut.cap = some cap
  reset : ∀ n s, 2 ≤ n → ∃ s', dut.reset n s = some s' ∧ abs s' = .fresh
  restart : ∀ s, ∃ s', dut.restart s = some s' ∧ abs s' = (abs s).restart p
  request : ∀ s, abs (dut.request s) = (abs s).request p limit
  write : ∀ io s, io.type = .bar01 → io.offset = sqTail cap 1 →
    ∃ s', dut.write io s = some s' ∧ abs s' = (abs s).event p
  getLogPage : ∀ logId s, abs (dut.getLogPage logId s) = (abs s).unmask p
  waiting : ∀ s, List.Forall₂ AerAnswer.Says (dut.waiting s) (abs s).waiting
  reap : ∀ n s, abs (dut.reap n s) = { abs s with waiting := (abs s).waiting.drop n }

/-! ## A device -/

def AerAnswer.entry : AerAnswer → CE
  | .event => { cmdSpec := 0x00010000, reserved := 0, SQHD := 0, SQID := 0, CID := 0, SF := 0 }
  | .exceeded => { cmdSpec := 0, reserved := 0, SQHD := 0, SQID := 0, CID := 0, SF := 0x020a }
  | .success => { cmdSpec := 0, reserved := 0, SQHD := 0, SQID := 0, CID := 0, SF := 0 }

/-- A device whose states are the states, with a driver that makes queues of two and more entries. -/
def AerDut.reference (p : AerPolicy) (limit : Nat) (cap : BitVec 64) : AerDut AerSt where
  cap := some cap
  reset n _ := if 2 ≤ n then some .fresh else none
  restart st := some (st.restart p)
  request st := st.request p limit
  write io st := some (if io.offset = sqTail cap 1 then st.event p else st)
  getLogPage _ st := st.unmask p
  waiting st := st.waiting.map AerAnswer.entry
  reap n st := { st with waiting := st.waiting.drop n }

theorem AerAnswer.says_entry (a : AerAnswer) : a.Says a.entry := by
  cases a with
  | event => exact ⟨by decide, by decide⟩
  | exceeded => exact (by decide : ProcessCE.validatePeek (AerAnswer.entry .exceeded) .asyncReqExceed = true)
  | success => exact (by decide : ProcessCE.validatePeek (AerAnswer.entry .success) .success = true)

theorem AerDut.reference_conforms (p : AerPolicy) (limit : Nat) (cap : BitVec 64) :
    (AerDut.reference p limit cap).Conforms p limit cap id where
  cap_eq := rfl
  reset n s hn := ⟨.fresh, if_pos hn, rfl⟩
  restart s := ⟨_, rfl, rfl⟩
  request s := rfl
  write io s _ hoffset := ⟨_, rfl, if_pos hoffset⟩
  getLogPage _ s := rfl
  waiting s := by
    change List.Forall₂ AerAnswer.Says (s.waiting.map AerAnswer.entry) s.waiting
    rw [List.forall₂_map_left_iff]
    exact List.forall₂_same.2 fun a _ => a.says_entry
  reap n s := rfl

/-- A device that does everything right. -/
def goodPolicy : AerPolicy := ⟨true, true, true, true⟩

def goodDut : AerDut AerSt := AerDut.reference goodPolicy 4 0

theorem goodDut_conforms : goodDut.Conforms goodPolicy ((3 : UInt8).toNat + 1) 0 id :=
  AerDut.reference_conforms goodPolicy 4 0

/-! ## The doorbell -/

/-- **The write goes to the doorbell of the submission queue 1 exactly if the stride is at most 12.** For a wider one
the offset does not fit, and it is the doorbell of the ASQ that is written. -/
theorem doorbell_iff (cap : BitVec 64) :
    ((sq1Write cap).offset = sqTail cap 1 ↔ (dstrd cap).toNat ≤ 12) ∧
      (12 < (dstrd cap).toNat → (sq1Write cap).offset = sqTail cap 0) := by
  have hshift : ((cap &&& 0x0000000f00000000) >>> 32).setWidth 32 = (dstrd cap).setWidth 32 := by
    refine BitVec.eq_of_getLsbD_eq fun i hi => ?_
    have hmask : (0x0000000f00000000 : BitVec 64) = mask 64 32 4 := by decide
    simp only [dstrd, hmask, BitVec.getLsbD_setWidth, BitVec.getLsbD_ushiftRight, BitVec.getLsbD_and, getLsbD_get,
      getLsbD_mask]
    grind
  have hwrite : (sq1Write cap).offset =
      ((0x1000 + 8 <<< ((dstrd cap).setWidth 32).toNat : BitVec 32).setWidth 16).toNat := by
    rw [← hshift]
    rfl
  rw [hwrite, sqTail, sqTail]
  generalize dstrd cap = d
  revert d
  decide

namespace AerDut

variable {σ : Type} {dut : AerDut σ} {p : AerPolicy} {limit : Nat} {cap : BitVec 64} {abs : σ → AerSt} {s : σ}

theorem Conforms.doorbell (h : dut.Conforms p limit cap abs) (hcap : (dstrd cap).toNat ≤ 12) (s : σ) :
    ∃ s', dut.invalidSQWriteDoorbell s = .ok s' ∧ abs s' = (abs s).event p := by
  obtain ⟨s', hwrite, habs⟩ := h.write (sq1Write cap) s rfl ((doorbell_iff cap).1.2 hcap)
  refine ⟨s', ?_, habs⟩
  rw [invalidSQWriteDoorbell, h.cap_eq]
  change orThrow (dut.write (sq1Write cap) s) = _
  rw [hwrite]
  rfl

/-- Requests within the limit are not answered without an event. -/
theorem Conforms.requests (h : dut.Conforms p limit cap abs) {k m : Nat} (hs : abs s = ⟨m, 0, false, []⟩)
    (hle : m + k ≤ limit) : abs (dut.sendAsyncEventRequests k s) = ⟨m + k, 0, false, []⟩ := by
  induction k generalizing s m with
  | zero => exact hs
  | succ k ih =>
    have hstep : abs (dut.request s) = ⟨m + 1, 0, false, []⟩ := by
      rw [h.request, hs, AerSt.request, if_neg (by simp; omega), AerSt.deliver, if_neg (by simp)]
    rw [sendAsyncEventRequests, ih hstep (by omega), Nat.add_right_comm, Nat.add_assoc]

theorem Conforms.length_waiting (h : dut.Conforms p limit cap abs) (s : σ) :
    (dut.waiting s).length = (abs s).waiting.length := (h.waiting s).length_eq

theorem Conforms.waiting_nil (h : dut.Conforms p limit cap abs) (hs : (abs s).waiting = []) : dut.waiting s = [] :=
  List.length_eq_zero_iff.1 (by rw [h.length_waiting, hs, List.length_nil])

theorem Conforms.inquire_nil (h : dut.Conforms p limit cap abs) (hs : (abs s).waiting = []) (numTil : Nat) :
    dut.inquire numTil s = (false, 0) := by
  rw [inquire, h.waiting_nil hs]
  rfl

theorem Conforms.takeCE_nil (h : dut.Conforms p limit cap abs) (hs : (abs s).waiting = []) :
    dut.takeCE s = .error (.expected 1 0) := by
  rw [takeCE, h.inquire_nil hs]

theorem Conforms.takeCE_one (h : dut.Conforms p limit cap abs) {a : AerAnswer} (hs : (abs s).waiting = [a]) :
    ∃ ce s', dut.takeCE s = .ok (ce, s') ∧ a.Says ce ∧ abs s' = { abs s with waiting := [] } := by
  have hsays := h.waiting s
  rw [hs] at hsays
  obtain ⟨ce, l, hce, hl, hwait⟩ := List.forall₂_cons_right_iff.1 hsays
  rw [List.forall₂_nil_right_iff.1 hl] at hwait
  refine ⟨ce, dut.reap 1 s, ?_, hce, ?_⟩
  · simp [takeCE, inquire, hwait]
  · rw [h.reap, hs]
    rfl

/-! ## A round with its log page -/

theorem checkEvent_event {ce : CE} (h : AerAnswer.Says ce .event) : checkEvent ce = .ok () := by
  rw [checkEvent, if_neg (not_not.2 h.1), if_neg (not_not.2 h.2)]

/-- Reading the log page ends the masking. -/
theorem Conforms.readLogPage_ok (h : dut.Conforms p limit cap abs) {k : Nat} {masked : Bool}
    (hs : abs s = ⟨k, 0, masked, []⟩) (logId : BitVec 8) :
    ∃ s', dut.readLogPage logId s = .ok s' ∧ abs s' = ⟨k, 0, false, []⟩ := by
  have hlog : abs (dut.getLogPage logId s) = ⟨k, 0, false, [.success]⟩ := by
    rw [h.getLogPage, hs, AerSt.unmask, AerSt.deliver, if_neg (by simp)]
    rfl
  obtain ⟨ce, s', htake, hce, hs'⟩ := h.takeCE_one (s := dut.getLogPage logId s) (by rw [hlog])
  refine ⟨s', ?_, by rw [hs', hlog]⟩
  rw [readLogPage, if_neg (not_not.2 (h.waiting_nil (by rw [hs])))]
  change (dut.takeCE _ >>= _) = _
  rw [htake]
  exact if_pos hce

theorem event_ready (p : AerPolicy) (k : Nat) (w : List AerAnswer) :
    (⟨k + 1, 0, false, w⟩ : AerSt).event p = ⟨k, 0, p.masks, w ++ [.event]⟩ := by
  rw [AerSt.event, if_neg (by simp), if_neg (by simp), AerSt.deliver, if_pos (by simp)]
  rfl

/-- **An event is reported**, if there is a request for it. -/
theorem Conforms.reported (h : dut.Conforms p limit cap abs) (hcap : (dstrd cap).toNat ≤ 12) {k : Nat}
    (hs : abs s = ⟨k + 1, 0, false, []⟩) : ∃ s₁ ce s₂, dut.invalidSQWriteDoorbell s = .ok s₁ ∧
      dut.takeCE s₁ = .ok (ce, s₂) ∧ checkEvent ce = .ok () ∧ abs s₂ = ⟨k, 0, p.masks, []⟩ := by
  obtain ⟨s₁, hwrite, hs₁⟩ := h.doorbell hcap s
  have hevent : abs s₁ = ⟨k, 0, p.masks, [.event]⟩ := by rw [hs₁, hs, event_ready, List.nil_append]
  obtain ⟨ce, s₂, htake, hce, hs₂⟩ := h.takeCE_one (s := s₁) (by rw [hevent])
  exact ⟨s₁, ce, s₂, hwrite, htake, checkEvent_event hce, by rw [hs₂, hevent]⟩

/-- As many rounds as there are requests. -/
theorem Conforms.maxEventsLoop_ok (h : dut.Conforms p limit cap abs) (hcap : (dstrd cap).toNat ≤ 12) {n : Nat}
    (hs : abs s = ⟨n, 0, false, []⟩) : ∃ s', dut.maxEventsLoop n s = .ok s' := by
  induction n generalizing s with
  | zero => exact ⟨s, rfl⟩
  | succ n ih =>
    obtain ⟨s₁, ce, s₂, hwrite, htake, hcheck, hs₂⟩ := h.reported hcap hs
    obtain ⟨s₃, hlog, hs₃⟩ := h.readLogPage_ok hs₂ ce.assocLogPage
    obtain ⟨s', hloop⟩ := ih hs₃
    refine ⟨s', ?_⟩
    rw [maxEventsLoop, hwrite]
    change (dut.takeCE s₁ >>= _) = _
    rw [htake]
    change (checkEvent ce >>= _) = _
    rw [hcheck]
    change (dut.readLogPage ce.assocLogPage s₂ >>= _) = _
    rw [hlog]
    exact hloop

theorem toNat_add_one {aerl : UInt8} (h : aerl ≠ 255) : (aerl + 1).toNat = aerl.toNat + 1 := by
  have hlt := aerl.toNat_lt
  have hne : aerl.toNat ≠ 255 := fun heq => h (UInt8.toNat_inj.1 heq)
  rw [UInt8.toNat_add]
  exact Nat.mod_eq_of_lt (by omega : aerl.toNat + 1 < 256)

theorem sendAsyncEventRequests_succ (n : Nat) (s : σ) :
    dut.sendAsyncEventRequests (n + 1) s = dut.request (dut.sendAsyncEventRequests n s) := by
  induction n generalizing s with
  | zero => rfl
  | succ n ih => exact ih (dut.request s)

/-- One request beyond the limit is answered. -/
theorem Conforms.exceeded (h : dut.Conforms p limit cap abs) (hs : abs s = .fresh) :
    abs (dut.sendAsyncEventRequests (limit + 1) s) = ⟨limit, 0, false, [.exceeded]⟩ := by
  have hall := h.requests (k := limit) hs (by omega)
  rw [sendAsyncEventRequests_succ, h.request, hall, AerSt.request, if_pos (by simp)]
  simp

/-- **`VerifyMaxEvents` passes each device that conforms, unless its limit is 256.** -/
theorem verifyMaxEvents_iff {aerl : UInt8} (h : dut.Conforms p (aerl.toNat + 1) cap abs)
    (hcap : (dstrd cap).toNat ≤ 12) (s : σ) : (∃ s', dut.verifyMaxEvents aerl s = .ok s') ↔ aerl ≠ 255 := by
  obtain ⟨s₀, hreset, hs₀⟩ := h.reset ((aerl + 1).toNat + 2) s (by omega)
  have hstart : dut.verifyMaxEvents aerl s =
      (dut.takeCE (dut.sendAsyncEventRequests ((aerl + 1).toNat + 1) s₀) >>= fun x =>
        if !ProcessCE.validatePeek x.1 .asyncReqExceed then throw .status
        else dut.maxEventsLoop (aerl + 1).toNat x.2) := by
    rw [verifyMaxEvents, hreset]
    rfl
  rw [hstart]
  by_cases haerl : aerl = 255
  · -- the limit has wrapped to 0, and the only request is within the limit of the device
    subst haerl
    have hone := h.requests (k := 1) hs₀ (by decide)
    refine iff_of_false ?_ (not_not.2 rfl)
    rintro ⟨s', hs'⟩
    change (dut.takeCE (dut.sendAsyncEventRequests 1 s₀) >>= _) = _ at hs'
    rw [h.takeCE_nil (by rw [hone])] at hs'
    cases hs'
  · refine iff_of_true ?_ haerl
    have hmore := h.exceeded hs₀
    obtain ⟨ce, s₁, htake, hce, hs₁⟩ := h.takeCE_one (a := .exceeded) (by rw [hmore])
    rw [hmore] at hs₁
    obtain ⟨s', hloop⟩ := h.maxEventsLoop_ok hcap hs₁
    refine ⟨s', ?_⟩
    rw [toNat_add_one haerl, htake]
    change (if (!ProcessCE.validatePeek ce .asyncReqExceed) = true then _ else _) = _
    rw [if_neg (by rw [show ProcessCE.validatePeek ce .asyncReqExceed = true from hce]; decide)]
    exact hloop

theorem verifyMaxEvents_four : (∃ s', goodDut.verifyMaxEvents 3 .fresh = .ok s') ↔ (3 : UInt8) ≠ 255 :=
  verifyMaxEvents_iff goodDut_conforms (by decide) .fresh

/-! ## The masking -/

/-- Events are masked, and nothing is waiting. -/
def Quiet (st : AerSt) : Prop := st.masked = true ∧ st.waiting = []

theorem quiet_event {st : AerSt} (h : Quiet st) : Quiet (st.event p) := by
  obtain ⟨hmasked, hwaiting⟩ := h
  rw [AerSt.event, AerSt.deliver, if_neg (by simp [hmasked] : ¬(_ ∧ _ ∧ st.masked = false))]
  split_ifs <;> exact ⟨hmasked, hwaiting⟩

theorem maskingRound_one (s : σ) : dut.maskingRound 1 s =
    dut.invalidSQWriteDoorbell s >>= fun s => dut.takeCE s >>= fun x => checkEvent x.1 >>= fun _ => pure x.2 := rfl

theorem maskingRound_other {nAer : UInt8} (hne : nAer ≠ 1) (s : σ) : dut.maskingRound nAer s =
    dut.invalidSQWriteDoorbell s >>= fun s =>
      if (dut.inquire 2 s).1 then throw (.unexpected (dut.inquire 2 s).2) else pure s := by
  rw [maskingRound]
  congr 1
  funext s
  exact if_neg hne

theorem Conforms.quiet_round (h : dut.Conforms p limit cap abs) (hcap : (dstrd cap).toNat ≤ 12)
    (hs : Quiet (abs s)) {nAer : UInt8} (hne : nAer ≠ 1) :
    ∃ s', dut.maskingRound nAer s = .ok s' ∧ Quiet (abs s') := by
  obtain ⟨s', hwrite, hs'⟩ := h.doorbell hcap s
  have hquiet : Quiet (abs s') := hs' ▸ quiet_event hs
  refine ⟨s', ?_, hquiet⟩
  rw [maskingRound_other hne, hwrite]
  change (if (dut.inquire 2 s').1 then _ else _) = _
  rw [h.inquire_nil hquiet.2]
  rfl

/-- Rounds in which nothing happens. -/
theorem Conforms.quiet_rounds (h : dut.Conforms p limit cap abs) (hcap : (dstrd cap).toNat ≤ 12)
    {nAerlimit nAer : UInt8} {n : Nat} (hs : Quiet (abs s))
    (hn : ∀ i < n, nAer + .ofNat i ≠ 1 ∧ nAer + .ofNat i ≤ nAerlimit) (fuel : Nat) :
    ∃ s', Quiet (abs s') ∧ dut.maskingLoop nAerlimit (n + fuel) nAer s =
      dut.maskingLoop nAerlimit fuel (nAer + .ofNat n) s' := by
  induction n generalizing nAer s with
  | zero => exact ⟨s, hs, by simp⟩
  | succ n ih =>
    obtain ⟨hne, hle⟩ := hn 0 (Nat.succ_pos n)
    rw [show nAer + .ofNat 0 = nAer from UInt8.add_zero nAer] at hne hle
    have hnext (i : Nat) : nAer + 1 + .ofNat i = nAer + .ofNat (i + 1) := by
      rw [UInt8.ofNat_add, UInt8.add_assoc, UInt8.add_comm (.ofNat i)]
      rfl
    obtain ⟨s₁, hround, hs₁⟩ := h.quiet_round hcap hs hne
    have hrest : ∀ i < n, nAer + 1 + .ofNat i ≠ 1 ∧ nAer + 1 + .ofNat i ≤ nAerlimit := fun i hi => by
      rw [hnext]
      exact hn (i + 1) (Nat.succ_lt_succ hi)
    obtain ⟨s', hs', hloop⟩ := ih hs₁ hrest
    refine ⟨s', hs', ?_⟩
    rw [Nat.add_right_comm, maskingLoop, if_pos hle, hround, ← hnext]
    exact hloop

/-- The first round reports an event. -/
theorem Conforms.first_round (h : dut.Conforms p limit cap abs) (hcap : (dstrd cap).toNat ≤ 12) {k : Nat}
    (hs : abs s = ⟨k + 1, 0, false, []⟩) :
    ∃ s', dut.maskingRound 1 s = .ok s' ∧ abs s' = ⟨k, 0, p.masks, []⟩ := by
  obtain ⟨s₁, ce, s₂, hwrite, htake, hcheck, hs₂⟩ := h.reported hcap hs
  refine ⟨s₂, ?_, hs₂⟩
  rw [maskingRound_one, hwrite]
  change (dut.takeCE s₁ >>= _) = _
  rw [htake]
  change (checkEvent ce >>= _) = _
  rw [hcheck]
  rfl

/-- The counter, so many rounds after the second one. -/
theorem toNat_counter (i : Nat) : ((2 : UInt8) + .ofNat i).toNat = (i + 2) % 256 := by
  rw [UInt8.toNat_add, UInt8.toNat_ofNat']
  change (2 + i % 256) % 256 = _
  omega

theorem counter_ne_one {i : Nat} (hi : i < 255) : (2 : UInt8) + .ofNat i ≠ 1 := by
  intro heq
  have hval := toNat_counter i
  rw [heq] at hval
  change 1 = _ at hval
  omega

/-- The counter never gets beyond the limit 255: it goes on at 0, and then another event is expected. -/
theorem Conforms.masks_wraps (h : dut.Conforms p limit cap abs) (hcap : (dstrd cap).toNat ≤ 12) (hs : Quiet (abs s))
    (fuel : Nat) : dut.maskingLoop 255 (fuel + 257) 2 s = some (.error (.expected 1 0)) := by
  have hrounds : ∀ i < 255, (2 : UInt8) + .ofNat i ≠ 1 ∧ (2 : UInt8) + .ofNat i ≤ 255 := fun i hi =>
    ⟨counter_ne_one hi, UInt8.le_iff_toNat_le.2 (Nat.le_of_lt_succ (UInt8.toNat_lt _))⟩
  obtain ⟨s₁, hs₁, hloop⟩ := h.quiet_rounds hcap hs hrounds (fuel + 2)
  obtain ⟨s₂, hwrite, hs₂⟩ := h.doorbell hcap s₁
  have hquiet : Quiet (abs s₂) := hs₂ ▸ quiet_event hs₁
  have hround : dut.maskingRound 1 s₁ = .error (.expected 1 0) := by
    rw [maskingRound_one, hwrite]
    change (dut.takeCE s₂ >>= _) = _
    rw [h.takeCE_nil hquiet.2]
    rfl
  rw [show fuel + 257 = 255 + (fuel + 2) by omega, hloop]
  change dut.maskingLoop 255 (fuel + 1 + 1) 1 s₁ = _
  rw [maskingLoop, if_pos (by decide), hround]

/-- A device that masks passes, unless the counter wraps before it gets beyond the limit. -/
theorem Conforms.masks_iff (h : dut.Conforms p limit cap abs) (hcap : (dstrd cap).toNat ≤ 12) {nAerlimit : UInt8}
    (hlimit : 2 ≤ nAerlimit.toNat) (hs : Quiet (abs s)) {fuel : Nat} (hfuel : 257 ≤ fuel) :
    ∃ r, dut.maskingLoop nAerlimit fuel 2 s = some r ∧ ((∃ s', r = .ok s') ↔ nAerlimit ≠ 255) := by
  by_cases hwrap : nAerlimit = 255
  · subst hwrap
    obtain ⟨f, rfl⟩ := Nat.exists_eq_add_of_le' hfuel
    exact ⟨_, h.masks_wraps hcap hs f, iff_of_false (by simp) (by simp)⟩
  · have hlt := nAerlimit.toNat_lt
    have hsmall : nAerlimit.toNat ≠ 255 := fun heq => hwrap (UInt8.toNat_inj.1 heq)
    have hrounds : ∀ i < nAerlimit.toNat - 1, (2 : UInt8) + .ofNat i ≠ 1 ∧ (2 : UInt8) + .ofNat i ≤ nAerlimit := by
      intro i hi
      have hval := toNat_counter i
      exact ⟨counter_ne_one (by omega), UInt8.le_iff_toNat_le.2 (by omega)⟩
    obtain ⟨s₁, hs₁, hloop⟩ := h.quiet_rounds hcap hs hrounds (fuel - (nAerlimit.toNat - 1))
    obtain ⟨f, hf⟩ := Nat.exists_eq_succ_of_ne_zero (by omega : fuel - (nAerlimit.toNat - 1) ≠ 0)
    have hend : ¬(2 : UInt8) + .ofNat (nAerlimit.toNat - 1) ≤ nAerlimit := by
      rw [UInt8.le_iff_toNat_le, toNat_counter]
      omega
    refine ⟨.ok s₁, ?_, iff_of_true ⟨s₁, rfl⟩ hwrap⟩
    rw [show fuel = nAerlimit.toNat - 1 + (fuel - (nAerlimit.toNat - 1)) by omega, hloop, hf, maskingLoop, if_neg hend]

/-- A device that does not mask reports one more event. One entry goes unnoticed, two do not. -/
theorem Conforms.unmasked_round (h : dut.Conforms p limit cap abs) (hcap : (dstrd cap).toNat ≤ 12)
    (hmasks : p.masks = false) {k : Nat} {w : List AerAnswer} (hs : abs s = ⟨k + 1, 0, false, w⟩) {nAer : UInt8}
    (hne : nAer ≠ 1) : ∃ s', abs s' = ⟨k, 0, false, w ++ [.event]⟩ ∧
      dut.maskingRound nAer s = if w = [] then .ok s' else .error (.unexpected (w.length + 1)) := by
  obtain ⟨s', hwrite, hs'⟩ := h.doorbell hcap s
  rw [hs, event_ready, hmasks] at hs'
  have hfound : dut.inquire 2 s' = (decide (w ≠ []), w.length + 1) := by
    rw [inquire, h.length_waiting, hs', List.length_append, List.length_singleton]
    cases w with
    | nil => rfl
    | cons a w => simp
  refine ⟨s', hs', ?_⟩
  rw [maskingRound_other hne, hwrite]
  change (if (dut.inquire 2 s').1 then throw (.unexpected (dut.inquire 2 s').2) else pure s' : Except AerFault σ) = _
  rw [hfound]
  by_cases hw : w = []
  · rw [if_pos hw, if_neg (by simpa using hw)]
    rfl
  · rw [if_neg hw, if_pos (by simpa using hw)]
    rfl

/-- A device that does not mask is found out in the third round. -/
theorem Conforms.unmasked_iff (h : dut.Conforms p limit cap abs) (hcap : (dstrd cap).toNat ≤ 12)
    (hmasks : p.masks = false) {nAerlimit : UInt8} {m : Nat} (hlimit : nAerlimit.toNat = m + 2)
    (hs : abs s = ⟨m + 1, 0, false, []⟩) {fuel : Nat} (hfuel : 2 ≤ fuel) :
    ∃ r, dut.maskingLoop nAerlimit fuel 2 s = some r ∧ ((∃ s', r = .ok s') ↔ m = 0) := by
  obtain ⟨f, rfl⟩ := Nat.exists_eq_add_of_le' hfuel
  have hle : (2 : UInt8) ≤ nAerlimit := UInt8.le_iff_toNat_le.2 (hlimit ▸ Nat.le_add_left 2 m)
  obtain ⟨s₁, hs₁, hsecond⟩ := h.unmasked_round hcap hmasks hs (show (2 : UInt8) ≠ 1 by decide)
  rw [maskingLoop, if_pos hle, hsecond, if_pos rfl]
  change ∃ r, dut.maskingLoop nAerlimit (f + 1) 3 s₁ = some r ∧ _
  rw [maskingLoop]
  cases m with
  | zero =>
    refine ⟨.ok s₁, if_neg ?_, iff_of_true ⟨s₁, rfl⟩ rfl⟩
    rw [UInt8.le_iff_toNat_le, hlimit]
    decide
  | succ m =>
    obtain ⟨s₂, -, hthird⟩ := h.unmasked_round hcap hmasks hs₁ (show (3 : UInt8) ≠ 1 by decide)
    refine ⟨.error (.unexpected 2), ?_, iff_of_false (by simp) (Nat.succ_ne_zero m)⟩
    rw [if_pos (UInt8.le_iff_toNat_le.2 (by rw [hlimit]; change 3 ≤ _; omega)), hthird]
    rfl

/-- Whether `VerifyMasking` passes a device with that policy. With a limit of 256 nothing is tested, and it depends on
whether there are queues of one entry. -/
def PassesMasking (dut : AerDut σ) (p : AerPolicy) (aerl : UInt8) (s : σ) : Prop :=
  if aerl = 255 then ∃ s₁ s₂, dut.reset 1 s = some s₁ ∧ dut.reset 1 s₁ = some s₂
  else if p.masks then aerl ≠ 254
  else aerl = 1

/-- The rounds after the first one, when its entry is reaped. -/
theorem Conforms.rest_iff {aerl : UInt8} (h : dut.Conforms p limit cap abs) (hcap : (dstrd cap).toNat ≤ 12)
    (hmax : aerl ≠ 255) {m : Nat} (hm : aerl.toNat = m + 1) (hs : abs s = ⟨m + 1, 0, p.masks, []⟩) {fuel : Nat}
    (hfuel : 257 ≤ fuel) :
    ∃ r, dut.maskingLoop (aerl + 1) fuel 2 s = some r ∧
      ((∃ s', r = .ok s') ↔ if p.masks then aerl ≠ 254 else aerl = 1) := by
  have hlimit := toNat_add_one hmax
  cases hmasks : p.masks with
  | true =>
    have hquiet : Quiet (abs s) := by
      rw [hs, hmasks]
      exact ⟨rfl, rfl⟩
    obtain ⟨r, hr, hiff⟩ := h.masks_iff hcap (show 2 ≤ (aerl + 1).toNat by omega) hquiet hfuel
    refine ⟨r, hr, hiff.trans ?_⟩
    rw [if_pos rfl, not_iff_not, ← UInt8.toNat_inj, ← UInt8.toNat_inj, hlimit]
    change aerl.toNat + 1 = 255 ↔ aerl.toNat = 254
    omega
  | false =>
    rw [hmasks] at hs
    obtain ⟨r, hr, hiff⟩ := h.unmasked_iff hcap hmasks (show (aerl + 1).toNat = m + 2 by omega) hs
      (show 2 ≤ fuel by omega)
    refine ⟨r, hr, hiff.trans ?_⟩
    rw [if_neg (by decide), ← UInt8.toNat_inj]
    change m = 0 ↔ aerl.toNat = 1
    omega

/-- The reset at the end changes nothing about the outcome. -/
theorem Conforms.reset_iff (h : dut.Conforms p limit cap abs) {n : Nat} (hn : 2 ≤ n) (r : Except AerFault σ) :
    (∃ s', (r >>= fun s => orThrow (dut.reset n s)) = .ok s') ↔ ∃ s', r = .ok s' := by
  cases r with
  | error e => simp [bind, Except.bind]
  | ok s' =>
    obtain ⟨s'', hreset, -⟩ := h.reset n s' hn
    refine iff_of_true ⟨s'', ?_⟩ ⟨s', rfl⟩
    change orThrow (dut.reset n s') = _
    rw [hreset]
    rfl

/-- With the greatest limit there are no requests and no rounds. -/
theorem verifyMasking_max (s : σ) (fuel : Nat) : ∃ r, dut.verifyMasking (fuel + 1) 255 s = some r ∧
    ((∃ s', r = .ok s') ↔ ∃ s₁ s₂, dut.reset 1 s = some s₁ ∧ dut.reset 1 s₁ = some s₂) := by
  have hlimit : ((255 : UInt8) + 1).toNat = 0 := rfl
  cases hreset : dut.reset 1 s with
  | none => exact ⟨.error .device, by simp [verifyMasking, hreset], by simp⟩
  | some s₁ =>
    have hloop : dut.maskingLoop (255 + 1) (fuel + 1) 1 s₁ = some (.ok s₁) := by
      rw [maskingLoop, if_neg (by decide)]
    refine ⟨orThrow (dut.reset 1 s₁), ?_, ?_⟩
    · simp only [verifyMasking, hlimit, Nat.zero_add, hreset, sendAsyncEventRequests, hloop]
      rfl
    · cases hagain : dut.reset 1 s₁ with
      | none => simp [orThrow, hagain]
      | some s₂ => simp [orThrow, hagain]

/-- **`VerifyMasking` comes to an end. It passes each device that masks events, unless its limit is 255; and it passes
one that does not if its limit is 2.** -/
theorem verifyMasking_iff {aerl : UInt8} (h : dut.Conforms p (aerl.toNat + 1) cap abs) (hcap : (dstrd cap).toNat ≤ 12)
    (haerl : 1 ≤ aerl) (s : σ) {fuel : Nat} (hfuel : 258 ≤ fuel) :
    ∃ r, dut.verifyMasking fuel aerl s = some r ∧ ((∃ s', r = .ok s') ↔ PassesMasking dut p aerl s) := by
  obtain ⟨f, rfl⟩ := Nat.exists_eq_add_of_le' hfuel
  by_cases hmax : aerl = 255
  · subst hmax
    rw [PassesMasking, if_pos rfl]
    exact verifyMasking_max s (f + 257)
  · rw [PassesMasking, if_neg hmax]
    have hlimit := toNat_add_one hmax
    have hpos := UInt8.le_iff_toNat_le.1 haerl
    change 1 ≤ aerl.toNat at hpos
    obtain ⟨m, hm⟩ := Nat.exists_eq_add_of_le' hpos
    obtain ⟨s₀, hreset, hs₀⟩ := h.reset ((aerl + 1).toNat + 1) s (by omega)
    have hall := h.requests (k := m + 1 + 1) hs₀ (by omega)
    rw [Nat.zero_add] at hall
    obtain ⟨s₁, hfirst, hs₁⟩ := h.first_round hcap hall
    have hstart : dut.maskingLoop (aerl + 1) (f + 258) 1 (dut.sendAsyncEventRequests (aerl + 1).toNat s₀) =
        dut.maskingLoop (aerl + 1) (f + 257) 2 s₁ := by
      rw [hlimit, hm, maskingLoop, if_pos (UInt8.le_iff_toNat_le.2 (by rw [hlimit]; change 1 ≤ _; omega)), hfirst]
      rfl
    obtain ⟨r, hr, hiff⟩ := h.rest_iff hcap hmax hm hs₁ (show 257 ≤ f + 257 by omega)
    refine ⟨_, ?_, (h.reset_iff (show 2 ≤ (aerl + 1).toNat + 1 by omega) r).trans hiff⟩
    rw [verifyMasking, hreset]
    change Option.map _ (dut.maskingLoop (aerl + 1) (f + 258) 1 _) = _
    rw [hstart, hr]
    rfl

theorem verifyMasking_four : ∃ r, goodDut.verifyMasking 258 3 .fresh = some r ∧
    ((∃ s', r = .ok s') ↔ PassesMasking goodDut goodPolicy 3 .fresh) :=
  verifyMasking_iff goodDut_conforms (by decide) (by decide) .fresh (by decide)

/-! ## Queueing and aborting -/

theorem event_unrequested (p : AerPolicy) : ∃ retained, AerSt.fresh.event p = ⟨0, retained, false, []⟩ ∧
    (0 < retained ↔ p.queues = true) := by
  rw [AerSt.event, if_neg (by simp [AerSt.fresh])]
  cases hqueues : p.queues with
  | false => exact ⟨0, by rw [if_pos ⟨rfl, rfl⟩]; rfl, by simp⟩
  | true => exact ⟨1, by rw [if_neg (by simp), AerSt.deliver, if_neg (by simp [AerSt.fresh])]; rfl, by simp⟩

/-- **`VerifyEventQueueing` passes exactly the devices that keep an event until there is a request.** -/
theorem verifyEventQueueing_iff (h : dut.Conforms p limit cap abs) (hcap : (dstrd cap).toNat ≤ 12)
    (hlimit : limit ≠ 0) (s : σ) : (∃ s', dut.verifyEventQueueing s = .ok s') ↔ p.queues = true := by
  obtain ⟨s₀, hreset, hs₀⟩ := h.reset 5 s (by decide)
  obtain ⟨s₁, hwrite, hs₁⟩ := h.doorbell hcap s₀
  obtain ⟨retained, hevent, hpos⟩ := event_unrequested p
  rw [hs₀, hevent] at hs₁
  have hstart : dut.verifyEventQueueing s =
      (dut.takeCE (dut.request s₁) >>= fun x => checkEvent x.1 >>= fun _ => pure x.2) := by
    rw [verifyEventQueueing, hreset]
    change (dut.invalidSQWriteDoorbell s₀ >>= _) = _
    rw [hwrite]
    change (if (dut.inquire 1 s₁).1 = true then _ else _) = _
    rw [h.inquire_nil (by rw [hs₁])]
    rfl
  have hrequest : abs (dut.request s₁) = AerSt.deliver p ⟨1, retained, false, []⟩ := by
    rw [h.request, hs₁, AerSt.request, if_neg (Ne.symm hlimit)]
  rw [hstart, ← hpos]
  rcases Nat.eq_zero_or_pos retained with rfl | hretained
  · rw [AerSt.deliver, if_neg (by simp)] at hrequest
    rw [h.takeCE_nil (by rw [hrequest])]
    exact iff_of_false (by rintro ⟨_, h⟩; cases h) (Nat.lt_irrefl 0)
  · rw [AerSt.deliver, if_pos ⟨Nat.one_pos, hretained, rfl⟩] at hrequest
    obtain ⟨ce, s₂, htake, hce, -⟩ := h.takeCE_one (a := .event) (by rw [hrequest]; rfl)
    rw [htake]
    refine iff_of_true ⟨s₂, ?_⟩ hretained
    change (checkEvent ce >>= _) = _
    rw [checkEvent_event hce]
    rfl

theorem verifyEventQueueing_four :
    (∃ s', goodDut.verifyEventQueueing .fresh = .ok s') ↔ goodPolicy.queues = true :=
  verifyEventQueueing_iff goodDut_conforms (by decide) (by decide) .fresh

/-- **`AbortByReset` passes exactly the devices that abort the requests.** -/
theorem abortByReset_iff (h : dut.Conforms p limit cap abs) (hcap : (dstrd cap).toNat ≤ 12) (hlimit : limit ≠ 0)
    (s : σ) : (∃ s', dut.abortByReset s = .ok s') ↔ p.aborts = true := by
  obtain ⟨s₀, hreset, hs₀⟩ := h.reset 5 s (by decide)
  have hrequest := h.requests (k := 1) hs₀ (by omega)
  obtain ⟨s₁, hrestart, hs₁⟩ := h.restart (dut.sendAsyncEventRequests 1 s₀)
  rw [hrequest, Nat.zero_add] at hs₁
  obtain ⟨s₂, hwrite, hs₂⟩ := h.doorbell hcap s₁
  have hstart : dut.abortByReset s =
      if (dut.inquire 1 s₂).1 then throw (.unexpected (dut.inquire 1 s₂).2) else orThrow (dut.restart s₂) := by
    rw [abortByReset, hreset]
    change (if (dut.inquire 1 (dut.sendAsyncEventRequests 1 s₀)).1 = true then _ else _) = _
    rw [h.inquire_nil (by rw [hrequest])]
    change (orThrow (dut.restart (dut.sendAsyncEventRequests 1 s₀)) >>= _) = _
    rw [hrestart]
    change (dut.invalidSQWriteDoorbell s₁ >>= _) = _
    rw [hwrite]
    rfl
  rw [hstart]
  cases haborts : p.aborts with
  | true =>
    rw [AerSt.restart, haborts, if_pos rfl] at hs₁
    obtain ⟨retained, hevent, -⟩ := event_unrequested p
    rw [hs₁, hevent] at hs₂
    obtain ⟨s₃, hagain, -⟩ := h.restart s₂
    rw [h.inquire_nil (by rw [hs₂]), hagain]
    exact iff_of_true ⟨s₃, rfl⟩ rfl
  | false =>
    -- the request of the time before the reset is answered
    rw [AerSt.restart, haborts, if_neg (by decide)] at hs₁
    rw [hs₁, event_ready] at hs₂
    have hone : dut.inquire 1 s₂ = (true, 1) := by
      rw [inquire, h.length_waiting, hs₂]
      rfl
    rw [hone]
    exact iff_of_false (by rintro ⟨_, h⟩; cases h) (by decide)

theorem abortByReset_four :
    (∃ s', goodDut.abortByReset .fresh = .ok s') ↔ goodPolicy.aborts = true :=
  abortByReset_iff goodDut_conforms (by decide) (by decide) .fresh

end AerDut

end Tnvme
