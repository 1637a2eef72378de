import Tnvme.Lib.Doubling
import Tnvme.Lib.Loops
import Tnvme.Lib.Outcomes
import Tnvme.Queues.Exchange
import Tnvme.Queues.QidVariations

/-!
# Illegal identifiers and sizes

`InvalidQID_r10b` creates queues with identifiers that are too large, and `MaxQSizeExceed_r10b` queues with too many
entries; the controller is to refuse all of them. Both have a form for completion queues and one for submission queues.
As there are too many values, the tests take those next to a value that is doubled, and the last ones.

* `illegalValues_spec`: the least value that is tested, and the greatest.
* `invalidQID_iff`: a controller that takes identifiers up to a limit passes exactly if it takes none beyond the number
  of queues that it reports, or reports so many that nothing is tested.
* `maxQSizeExceed_iff`: the same of the sizes, where one size is left out; for submission queues the controller has to
  take the largest size, too.
-/

namespace Tnvme
namespace IllegalValues

open CQDriver Outcomes

def maxIOQId : Nat := 0xffff

def maxQEntries : Nat := 0x10000

/-! ## The values -/

/-- The values that are added in one turn. -/
def around (max v : Nat) : List Nat := if v < max then [v - 1, v, v + 1] else []

/-- The two functions that list illegal values; `above` is their argument. The last values are removed first, so that
they are in the list once. -/
def illegalValues (fuel max above start : Nat) (lasts : List Nat) : Option (List Nat) := do
  let vs ← Doubling.walk (2 ^ 32) (max + 1) fuel (start % 2 ^ 32)
  let illegal := vs.flatMap (around max)
  if above < max then return illegal.filter (!lasts.contains ·) ++ lasts else return illegal

def getIllegalQIDs (fuel maxQIdsSupported : Nat) : Option (List Nat) :=
  illegalValues fuel maxIOQId maxQIdsSupported (maxQIdsSupported + 1) [maxIOQId - 1, maxIOQId]

def getIllegalQSizes (fuel maxIOQEntries : Nat) : Option (List Nat) :=
  illegalValues fuel maxQEntries maxIOQEntries (maxIOQEntries + 2) [maxQEntries]

/-! ## The tests -/

inductive Fault where
  | init (v : Nat)
  | io (fault : IOFault)

/-- What happens when a queue with a value is created: whether `Init` of the queue and the command return, and the
course of the command. -/
structure Probe where
  init : Bool
  course : Course

section Model

variable {σ : Type} (drv : CQDriver σ)

/-- One command, which is to end with this status. -/
def sendProbe (status : CEStat) (probe : Nat → Probe) (s : σ) (v : Nat) : Except Fault σ := do
  require ((probe v).init = true) (.init v)
  let (s, _) ← (drv.sendAndTake (probe v).course (calcTimeout 1) [status] s).mapError .io
  return s

def sendProbes (status : CEStat) (probe : Nat → Probe) (vs : List Nat) (s : σ) : Except Fault σ :=
  vs.foldlM (sendProbe drv status probe) s

/-- `RunCoreTest` of `InvalidQID_r10b`; `none` if the loop has not ended. -/
def InvalidQID.runCoreTest (fuel numOfQs : Nat) (probe : Nat → Probe) (s : σ) : Option (Except Fault σ) :=
  (getIllegalQIDs fuel (numOfQs + 1)).map fun qIds => sendProbes drv .invalidQid probe qIds s

def CreateIOCQ.InvalidQID.runCoreTest (fuel : Nat) (numOfQ : BitVec 32) : (Nat → Probe) → σ → Option (Except Fault σ) :=
  IllegalValues.InvalidQID.runCoreTest drv fuel (Informative.getFeaturesNumOfIOCQs numOfQ)

def CreateIOSQ.InvalidQID.runCoreTest (fuel : Nat) (numOfQ : BitVec 32) : (Nat → Probe) → σ → Option (Except Fault σ) :=
  IllegalValues.InvalidQID.runCoreTest drv fuel (Informative.getFeaturesNumOfIOSQs numOfQ)

def CreateIOCQ.MaxQSizeExceed.runCoreTest (fuel : Nat) (mqes : BitVec 16) (probe : Nat → Probe) (s : σ) :
    Option (Except Fault σ) :=
  (getIllegalQSizes fuel (mqes.toNat + 1)).map fun qSizes => sendProbes drv .maxQSizeExceed probe qSizes s

/-- The largest legal size comes last. -/
def CreateIOSQ.MaxQSizeExceed.runCoreTest (fuel : Nat) (mqes : BitVec 16) (probe : Nat → Probe) (s : σ) :
    Option (Except Fault σ) :=
  (getIllegalQSizes fuel (mqes.toNat + 1)).map fun qSizes => do
    let s ← sendProbes drv .maxQSizeExceed probe qSizes s
    sendProbe drv .success probe s (mqes.toNat + 1)

end Model

/-! ## The bounds of the values -/

section Values

variable {fuel max above start first : Nat} {lasts : List Nat}

theorem mem_around {v x : Nat} : x ∈ around max v ↔ v < max ∧ (x = v - 1 ∨ x = v ∨ x = v + 1) := by
  rw [around]
  split
  next h => simp [h]
  next h => simp [h]

/-- The values next to those that are walked. -/
theorem mem_flatMap_around {vs : List Nat} (hle : ∀ v ∈ vs, start ≤ v) {x : Nat} (hx : x ∈ vs.flatMap (around max)) :
    start < max ∧ start ≤ x + 1 ∧ x ≤ max := by
  obtain ⟨v, hv, hx⟩ := List.mem_flatMap.1 hx
  have hv' := hle v hv
  obtain ⟨hlt, hx⟩ := mem_around.1 hx
  omega

/-- Sixteen doublings are enough. -/
theorem walk_values (hstart : 3 ≤ start) (hmax : max ≤ 65536) (fuel : Nat) :
    ∃ vs, Doubling.walk (2 ^ 32) (max + 1) (fuel + 16) start = some vs ∧ (∀ v ∈ vs, start ≤ v) ∧
      (start < max → start - 1 ∈ vs.flatMap (around max)) := by
  have hpow : 2 ^ 15 ≤ 2 ^ (fuel + 15) := Nat.pow_le_pow_right Nat.two_pos (Nat.le_add_left 15 fuel)
  have hbound : max + 1 < 2 ^ (fuel + 15) * start := by
    have hmul : 2 ^ 15 * 3 ≤ 2 ^ (fuel + 15) * start := Nat.mul_le_mul hpow hstart
    omega
  have hW : 2 * (max + 1) < 2 ^ 32 := by omega
  obtain ⟨vs, hvs⟩ := Doubling.walk_ends hW hbound
  refine ⟨vs, hvs, fun v hv => Doubling.le_of_mem_walk hW hvs hv, fun hlt => ?_⟩
  exact List.mem_flatMap.2 ⟨start, Doubling.start_mem_walk hW hvs (by omega), mem_around.2 ⟨hlt, Or.inl rfl⟩⟩

/-- The values lie between the first and the largest one, and the first is among them, unless there are none. -/
theorem illegalValues_spec (hstart : 3 ≤ start) (hlt : start < 2 ^ 32) (hmax : max ≤ 65536)
    (hfirst : above < max → if start < max then first + 1 = start else first ∈ lasts)
    (hlasts : above < max → ∀ v ∈ lasts, first ≤ v ∧ v ≤ max) (habove : max ≤ above → max ≤ start) (fuel : Nat) :
    ∃ l, illegalValues (fuel + 16) max above start lasts = some l ∧
      (above < max → first ∈ l ∧ ∀ v ∈ l, first ≤ v ∧ v ≤ max) ∧ (max ≤ above → l = []) := by
  obtain ⟨vs, hvs, hle, hbefore⟩ := walk_values hstart hmax fuel
  rw [illegalValues, Nat.mod_eq_of_lt hlt, hvs]
  by_cases hlow : above < max
  · have hfirst := hfirst hlow
    refine ⟨_, if_pos hlow, fun _ => ⟨?_, ?_⟩, fun hge => absurd hlow (Nat.not_lt.2 hge)⟩
    · rw [List.mem_append, List.mem_filter]
      by_cases hlast : first ∈ lasts
      · exact Or.inr hlast
      · -- then it is next to the value at which the loop starts
        by_cases hstart' : start < max
        · rw [if_pos hstart'] at hfirst
          obtain rfl : first = start - 1 := by omega
          exact Or.inl ⟨hbefore hstart', by simpa using hlast⟩
        · rw [if_neg hstart'] at hfirst
          exact absurd hfirst hlast
    · intro v hv
      rcases List.mem_append.1 hv with hv | hv
      · obtain ⟨hstart', hv⟩ := mem_flatMap_around hle (List.mem_filter.1 hv).1
        rw [if_pos hstart'] at hfirst
        omega
      · exact hlasts hlow v hv
  · refine ⟨_, if_neg hlow, fun h => absurd h hlow, fun hge => ?_⟩
    refine List.eq_nil_iff_forall_not_mem.2 fun x hx => ?_
    have hx' := mem_flatMap_around hle hx
    have hge' := habove hge
    omega

end Values

/-! ## A controller with a limit -/

/-- The controller takes the values up to a limit, and refuses the others with the status. `Init` returns from the least
value on: 1 for identifiers, as 0 is an admin queue, and 2 for sizes. -/
structure Limits (least limit : Nat) (status : CEStat) (probe : Nat → Probe) : Prop where
  init : ∀ v, (probe v).init = true ↔ least ≤ v
  answer : ∀ v, ∃ ce, (probe v).course.Answers ce ∧ (ProcessCE.validatePeek ce status = true ↔ limit < v) ∧
    (ProcessCE.validatePeek ce .success = true ↔ v ≤ limit)

theorem verifyCE_single {ce : CE} {status : CEStat} (hignore : status ≠ .ignore) :
    (∃ st, verifyCE ce [status] = .ok st) ↔ ProcessCE.validatePeek ce status = true := by
  rw [verifyCE_ok (List.cons_ne_nil _ _) (by simpa using hignore.symm), ProcessCE.validatePeek_iff]
  simp

section Controller

variable {size least limit : Nat} {status : CEStat} {probe : Nat → Probe} {ring : RingBuf CE size}

/-- What one command makes of the entry that answers it. -/
theorem sendProbe_answer {expected : CEStat} (hignore : expected ≠ .ignore) {v : Nat} {ce : CE}
    (hanswer : (probe v).course.Answers ce) (hsize : 2 ≤ size) (hempty : ring.count = 0) :
    (∃ ring', sendProbe (ringDriver size) expected probe ring v = .ok ring') ↔
      (probe v).init = true ∧ ProcessCE.validatePeek ce expected = true := by
  have hms : calcTimeout 1 ≤ 86400000 := by decide
  obtain ⟨ring₁, -, htake⟩ := sendAndTake_answer hanswer hsize hempty hms [expected]
  simp only [sendProbe, require_bind, exists_and_left, htake]
  rw [← verifyCE_single hignore]
  refine and_congr_right fun _ => ?_
  cases verifyCE ce [expected] with
  | error fault => exact iff_of_false (fun ⟨_, h⟩ => by cases h) fun ⟨_, h⟩ => by cases h
  | ok st => exact iff_of_true ⟨ring₁, rfl⟩ ⟨st, rfl⟩

theorem sendProbe_keeps {expected : CEStat} {v : Nat} {ce : CE} {ring' : RingBuf CE size}
    (hanswer : (probe v).course.Answers ce) (hsize : 2 ≤ size) (hempty : ring.count = 0)
    (h : sendProbe (ringDriver size) expected probe ring v = .ok ring') : ring'.count = 0 := by
  have hms : calcTimeout 1 ≤ 86400000 := by decide
  obtain ⟨ring₁, hemptied, htake⟩ := sendAndTake_answer hanswer hsize hempty hms [expected]
  rw [sendProbe] at h
  obtain ⟨-, h⟩ := require_bind.1 h
  rw [htake] at h
  cases hverify : verifyCE ce [expected] with
  | error fault =>
    rw [hverify] at h
    cases h
  | ok st =>
    rw [hverify] at h
    cases h
    exact hemptied.count

/-- All commands are refused exactly if all values are beyond the limit. -/
theorem sendProbes_iff (h : Limits least limit status probe) (hignore : status ≠ .ignore) (hsize : 2 ≤ size)
    (hempty : ring.count = 0) (vs : List Nat) :
    (∃ ring', sendProbes (ringDriver size) status probe vs ring = .ok ring') ↔
      ∀ v ∈ vs, least ≤ v ∧ limit < v := by
  refine Loops.foldlM_iff (J := fun r : RingBuf CE size => r.count = 0) ?_ ?_ hempty
  · intro r v hr hv
    obtain ⟨ce, hanswer, hstatus, -⟩ := h.answer v
    exact (sendProbe_answer hignore hanswer hsize hr).2 ⟨(h.init v).2 hv.1, hstatus.2 hv.2⟩
  · intro r v r' hr hr'
    obtain ⟨ce, hanswer, hstatus, -⟩ := h.answer v
    obtain ⟨hinit, hrefused⟩ := (sendProbe_answer hignore hanswer hsize hr).1 ⟨r', hr'⟩
    exact ⟨⟨(h.init v).1 hinit, hstatus.1 hrefused⟩, sendProbe_keeps hanswer hsize hr hr'⟩

theorem sendProbes_keeps (h : Limits least limit status probe) (hsize : 2 ≤ size) (hempty : ring.count = 0)
    {vs : List Nat} {ring' : RingBuf CE size}
    (hok : sendProbes (ringDriver size) status probe vs ring = .ok ring') : ring'.count = 0 := by
  refine Loops.foldlM_keeps (J := fun r : RingBuf CE size => r.count = 0) ?_ hempty hok
  intro r v r' hr hr'
  obtain ⟨ce, hanswer, -⟩ := h.answer v
  exact sendProbe_keeps hanswer hsize hr hr'

end Controller

/-! ## The four tests -/

section Tests

variable {size least limit : Nat} {status : CEStat} {probe : Nat → Probe} {ring : RingBuf CE size}

/-- The first value decides. -/
theorem forall_beyond_iff {l : List Nat} {first max : Nat} (h : first ∈ l ∧ ∀ v ∈ l, first ≤ v ∧ v ≤ max)
    (hleast : least ≤ first) : (∀ v ∈ l, least ≤ v ∧ limit < v) ↔ limit < first :=
  ⟨fun hl => (hl first h.1).2, fun hlt v hv =>
    ⟨Nat.le_trans hleast (h.2 v hv).1, Nat.lt_of_lt_of_le hlt (h.2 v hv).1⟩⟩

/-- All identifiers beyond the number of queues are illegal, and the first one is tested. -/
theorem getIllegalQIDs_spec {numOfQs : Nat} (hpos : 0 < numOfQs) (hle : numOfQs ≤ 65536) (fuel : Nat) :
    ∃ l, getIllegalQIDs (fuel + 16) (numOfQs + 1) = some l ∧
      (numOfQs + 1 < maxIOQId → numOfQs + 1 ∈ l ∧ ∀ v ∈ l, numOfQs + 1 ≤ v ∧ v ≤ maxIOQId) ∧
      (maxIOQId ≤ numOfQs + 1 → l = []) := by
  have hmax : maxIOQId = 65535 := rfl
  refine illegalValues_spec (by omega) (by omega) (by omega) ?_ ?_ (by omega) fuel
  · intro hlow
    split
    · rfl
    · exact List.mem_cons.2 (Or.inl (by omega))
  · intro hlow v hv
    rcases List.mem_pair.1 hv with rfl | rfl <;> omega

/-- The least size that is tested. -/
def firstIllegalQSize (maxIOQEntries : Nat) : Nat := if maxIOQEntries = 0xfffe then 0x10000 else maxIOQEntries + 1

theorem getIllegalQSizes_spec {maxIOQEntries : Nat} (hpos : 0 < maxIOQEntries) (hle : maxIOQEntries ≤ 65536)
    (fuel : Nat) : ∃ l, getIllegalQSizes (fuel + 16) maxIOQEntries = some l ∧
      (maxIOQEntries < maxQEntries → firstIllegalQSize maxIOQEntries ∈ l ∧
        ∀ v ∈ l, firstIllegalQSize maxIOQEntries ≤ v ∧ v ≤ maxQEntries) ∧ (maxQEntries ≤ maxIOQEntries → l = []) := by
  have hmax : maxQEntries = 65536 := rfl
  refine illegalValues_spec (by omega) (by omega) (by omega) ?_ ?_ (by omega) fuel
  · intro hlow
    rw [firstIllegalQSize]
    split
    · rw [if_neg (by omega)]
    · refine List.mem_singleton.2 ?_
      split <;> omega
  · intro hlow v hv
    obtain rfl := List.mem_singleton.1 hv
    rw [firstIllegalQSize]
    split <;> omega

theorem invalidQID_passes (h : Limits 1 limit .invalidQid probe) (hsize : 2 ≤ size) (hempty : ring.count = 0)
    {numOfQs : Nat} (hpos : 0 < numOfQs) (hle : numOfQs ≤ 65536) (fuel : Nat) :
    ∃ res, InvalidQID.runCoreTest (ringDriver size) (fuel + 16) numOfQs probe ring = some res ∧
      ((∃ ring', res = .ok ring') ↔ limit ≤ numOfQs ∨ 0xfffe ≤ numOfQs) := by
  have hmax : maxIOQId = 65535 := rfl
  obtain ⟨l, hl, hlow, hhigh⟩ := getIllegalQIDs_spec hpos hle fuel
  refine ⟨_, by rw [InvalidQID.runCoreTest, hl, Option.map_some], ?_⟩
  rw [sendProbes_iff h (by decide) hsize hempty]
  by_cases hfew : numOfQs + 1 < maxIOQId
  · rw [forall_beyond_iff (hlow hfew) (Nat.succ_pos numOfQs)]
    omega
  · rw [hhigh (by omega)]
    exact iff_of_true (fun v hv => absurd hv List.not_mem_nil) (Or.inr (by omega))

/-- **Which controllers pass `InvalidQID_r10b`.** -/
theorem invalidQID_iff (h : Limits 1 limit .invalidQid probe) (hsize : 2 ≤ size) (hempty : ring.count = 0)
    (numOfQ : BitVec 32) (fuel : Nat) :
    (∃ res, CreateIOCQ.InvalidQID.runCoreTest (ringDriver size) (fuel + 16) numOfQ probe ring = some res ∧
      ((∃ ring', res = .ok ring') ↔
        limit ≤ Informative.getFeaturesNumOfIOCQs numOfQ ∨ 0xfffe ≤ Informative.getFeaturesNumOfIOCQs numOfQ)) ∧
    ∃ res, CreateIOSQ.InvalidQID.runCoreTest (ringDriver size) (fuel + 16) numOfQ probe ring = some res ∧
      ((∃ ring', res = .ok ring') ↔
        limit ≤ Informative.getFeaturesNumOfIOSQs numOfQ ∨ 0xfffe ≤ Informative.getFeaturesNumOfIOSQs numOfQ) := by
  have hcq : (numOfQ >>> 16).toNat < 65536 := by
    rw [BitVec.toNat_ushiftRight, Nat.shiftRight_eq_div_pow]
    omega
  have hsq : (numOfQ &&& 0xffff).toNat < 65536 := by
    rw [BitVec.toNat_and]
    exact Nat.and_lt_two_pow _ (show (0xffff#32).toNat < 2 ^ 16 by decide)
  exact ⟨invalidQID_passes h hsize hempty (Nat.succ_pos _) hcq fuel,
    invalidQID_passes h hsize hempty (Nat.succ_pos _) hsq fuel⟩

/-- All sizes that are listed are refused. -/
theorem illegalQSizes_refused (h : Limits 2 limit .maxQSizeExceed probe) (hlimit : limit ≤ 65536) (hsize : 2 ≤ size)
    (hempty : ring.count = 0) (mqes : BitVec 16) (fuel : Nat) :
    ∃ l, getIllegalQSizes (fuel + 16) (mqes.toNat + 1) = some l ∧
      ((∃ ring', sendProbes (ringDriver size) .maxQSizeExceed probe l ring = .ok ring') ↔
        limit ≤ mqes.toNat + 1 ∨ mqes.toNat + 1 = 0xfffe ∧ limit = 0xffff) := by
  have hmax : maxQEntries = 65536 := rfl
  obtain ⟨l, hl, hlow, hhigh⟩ := getIllegalQSizes_spec (Nat.succ_pos _) mqes.isLt fuel
  refine ⟨l, hl, ?_⟩
  rw [sendProbes_iff h (by decide) hsize hempty]
  by_cases hfew : mqes.toNat + 1 < maxQEntries
  · have hleast : 2 ≤ firstIllegalQSize (mqes.toNat + 1) := by
      rw [firstIllegalQSize]
      split <;> omega
    rw [forall_beyond_iff (hlow hfew) hleast, firstIllegalQSize]
    split <;> omega
  · rw [hhigh (by omega)]
    exact iff_of_true (fun v hv => absurd hv List.not_mem_nil) (Or.inl (by omega))

/-- The legal size after them is taken, too. -/
theorem legalQSize_taken (h : Limits least limit status probe) (hsize : 2 ≤ size) (hempty : ring.count = 0)
    (vs : List Nat) (v : Nat) :
    (∃ ring', (sendProbes (ringDriver size) status probe vs ring >>= fun s =>
      sendProbe (ringDriver size) .success probe s v) = .ok ring') ↔
      (∃ ring', sendProbes (ringDriver size) status probe vs ring = .ok ring') ∧ least ≤ v ∧ v ≤ limit := by
  obtain ⟨ce, hanswer, -, hsuccess⟩ := h.answer v
  have hignore : CEStat.success ≠ .ignore := by decide
  cases hsent : sendProbes (ringDriver size) status probe vs ring with
  | error fault => exact iff_of_false (fun ⟨_, h⟩ => by cases h) fun ⟨⟨_, h⟩, _⟩ => by cases h
  | ok ring₁ =>
    have hlegal := sendProbe_answer hignore hanswer hsize (sendProbes_keeps h hsize hempty hsent)
    rw [h.init, hsuccess] at hlegal
    exact hlegal.trans (and_iff_right ⟨ring₁, rfl⟩).symm

/-- **Which controllers pass `MaxQSizeExceed_r10b`.** A queue has 65536 entries at most. -/
theorem maxQSizeExceed_iff (h : Limits 2 limit .maxQSizeExceed probe) (hlimit : limit ≤ 65536) (hsize : 2 ≤ size)
    (hempty : ring.count = 0) (mqes : BitVec 16) (fuel : Nat) :
    (∃ res, CreateIOCQ.MaxQSizeExceed.runCoreTest (ringDriver size) (fuel + 16) mqes probe ring = some res ∧
      ((∃ ring', res = .ok ring') ↔ limit ≤ mqes.toNat + 1 ∨ mqes.toNat + 1 = 0xfffe ∧ limit = 0xffff)) ∧
    ∃ res, CreateIOSQ.MaxQSizeExceed.runCoreTest (ringDriver size) (fuel + 16) mqes probe ring = some res ∧
      ((∃ ring', res = .ok ring') ↔
        2 ≤ mqes.toNat + 1 ∧ limit = mqes.toNat + 1 ∨ mqes.toNat + 1 = 0xfffe ∧ limit = 0xffff) := by
  obtain ⟨l, hl, hrefused⟩ := illegalQSizes_refused h hlimit hsize hempty mqes fuel
  refine ⟨⟨_, by rw [CreateIOCQ.MaxQSizeExceed.runCoreTest, hl, Option.map_some], hrefused⟩,
    ⟨_, by rw [CreateIOSQ.MaxQSizeExceed.runCoreTest, hl, Option.map_some], ?_⟩⟩
  refine (legalQSize_taken h hsize hempty l (mqes.toNat + 1)).trans ?_
  rw [hrefused]
  omega

/-! ### Controllers -/

/-- A controller that answers at the first inquiry. -/
def limited (least limit : Nat) (refusal : CE) : Nat → Probe := fun v =>
  ⟨least ≤ v, noPosts, noPosts, 0, noPosts, [⟨[if v ≤ limit then successCE else refusal], false⟩], noPosts, noPosts, []⟩

theorem limits_limited {status : CEStat} {refusal : CE} (hrefusal : ProcessCE.validatePeek refusal status = true)
    (hfails : ProcessCE.validatePeek refusal .success = false)
    (hdiffers : ProcessCE.validatePeek successCE status = false) (least limit : Nat) :
    Limits least limit status (limited least limit refusal) where
  init v := decide_eq_true_iff
  answer v := by
    have hok : ProcessCE.validatePeek successCE .success = true := by decide
    refine ⟨if v ≤ limit then successCE else refusal, ⟨rfl, rfl, rfl, ?_, List.cons_ne_nil _ _, rfl, rfl, rfl, rfl⟩, ?_⟩
    · intro stage hstage
      obtain rfl := List.mem_singleton.1 hstage
      rfl
    · by_cases hv : v ≤ limit
      · rw [if_pos hv, hdiffers, hok]
        exact ⟨iff_of_false Bool.false_ne_true (Nat.not_lt.2 hv), iff_of_true rfl hv⟩
      · rw [if_neg hv, hrefusal, hfails]
        exact ⟨iff_of_true rfl (Nat.lt_of_not_le hv), iff_of_false Bool.false_ne_true hv⟩

/-- Four queues of each kind, and a controller that takes a fifth one. -/
theorem invalidQID_fifth : ∃ res, CreateIOCQ.InvalidQID.runCoreTest (ringDriver 4) (0 + 16) 0x00030003
    (limited 1 5 ⟨0, 0, 0, 0, 0, 0x0202⟩) emptyRing = some res ∧ ¬∃ ring', res = .ok ring' := by
  have hempty : emptyRing.count = 0 := rfl
  have hlimits : Limits 1 5 .invalidQid (limited 1 5 ⟨0, 0, 0, 0, 0, 0x0202⟩) :=
    limits_limited (by decide) (by decide) (by decide) 1 5
  obtain ⟨⟨res, hres, hiff⟩, -⟩ := invalidQID_iff hlimits (by decide) hempty 0x00030003 0
  refine ⟨res, hres, ?_⟩
  rw [hiff]
  decide

theorem maxQSizeExceed_eight : ∃ ring', CreateIOSQ.MaxQSizeExceed.runCoreTest (ringDriver 4) (0 + 16) 7
    (limited 2 8 ⟨0, 0, 0, 0, 0, 0x0204⟩) emptyRing = some (.ok ring') := by
  have hempty : emptyRing.count = 0 := rfl
  have hlimits : Limits 2 8 .maxQSizeExceed (limited 2 8 ⟨0, 0, 0, 0, 0, 0x0204⟩) :=
    limits_limited (by decide) (by decide) (by decide) 2 8
  obtain ⟨-, res, hres, hiff⟩ := maxQSizeExceed_iff hlimits (by decide) (by decide) hempty 7 0
  obtain ⟨ring', rfl⟩ := hiff.2 (Or.inl (by decide))
  exact ⟨ring', hres⟩

end Tests

end IllegalValues
end Tnvme
