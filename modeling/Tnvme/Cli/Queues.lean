import Tnvme.Cli.ErrorRegs
import Tnvme.Grp.SetGetFeat

/-!
# The option `--queues`

The option names the numbers of completion and of submission queues, in hexadecimal digits, that a Set Features command
asks for. `strtoul` takes them off the text, so what is no number is taken for 0, as long as something stands behind the
colon. The text is looked at in a copy that has been destroyed.

Numbers that are printed are sent as they are, and what is sent is what the text denotes exactly if the text is short
and neither part is lax (`queuesSent_iff`).
-/

namespace Tnvme

open Fields Numerals

structure NumQueues where
  req : Bool
  ncqr : BitVec 16
  nsqr : BitVec 16
  deriving DecidableEq, Repr

/-- The two numbers have 16 bits, like the masks of `--error`. -/
def parseNumbers (optarg : List Char) : Option NumQueues := do
  let ncqr ← parseMask optarg (some ':')
  let swork := after ':' optarg
  if swork.length = 0 then none
  else
    let nsqr ← parseMask swork none
    return ⟨true, ncqr, nsqr⟩

/-- Each number is looked at in a copy, of which the first one is the longest. -/
def parseQueuesCmdLine (optarg : List Char) : Except TextFault NumQueues := readCopy optarg (parseNumbers optarg)

/-- `FID[FID_NUM_QUEUES]` -/
def fidNumQueues : BitVec 8 := 0x07

/-- The command that `SetFeaturesNumberOfQueues` sends. -/
def setFeaturesNumberOfQueues (numQueues : NumQueues) : Option Cmd := do
  let sfNumOfQ ← SetFeatures.new
  let sfNumOfQ ← BaseFeatures.setFID fidNumQueues sfNumOfQ
  SetFeatures.setNumberOfQueues numQueues.ncqr numQueues.nsqr sfNumOfQ

/-- What is sent for an option, if it is accepted. -/
def queuesSent (optarg : List Char) : Option Cmd :=
  (parseQueuesCmdLine optarg).toOption.bind setFeaturesNumberOfQueues

/-! ## What a text denotes -/

/-- A Set Features command for the numbers, of which DW11 has the number of completion queues on top. All other bits
are 0. -/
def queuesCmd (ncqr nsqr : BitVec 16) : Cmd :=
  put (32 * 11) (ncqr ++ nsqr) (put (32 * 10) fidNumQueues (put 0 SetFeatures.opcode 0))

inductive DenotesQueues : List Char → BitVec 16 → BitVec 16 → Prop
  | numbers {a b : List Char} {ncqr nsqr : BitVec 16} :
      Mask a ncqr → Mask b nsqr → DenotesQueues (a ++ ':' :: b) ncqr nsqr

def printQueues (ncqr nsqr : BitVec 16) : List Char := printMask ncqr ++ ':' :: printMask nsqr

/-- What is sent for the text asks for the numbers that it denotes; and no freed memory is read. -/
structure SendsDenoted (optarg : List Char) : Prop where
  defined : parseQueuesCmdLine optarg ≠ .error .freed
  sent : ∀ c, queuesSent optarg = some c → ∃ ncqr nsqr, DenotesQueues optarg ncqr nsqr ∧ c = queuesCmd ncqr nsqr

/-! ## What is accepted -/

inductive TakesQueues : List Char → BitVec 16 → BitVec 16 → Prop
  | numbers {a b : List Char} {ncqr nsqr : BitVec 16} :
      ReadsMask a ncqr → ReadsMask b nsqr → b ≠ [] → TakesQueues (a ++ ':' :: b) ncqr nsqr

/-- Parts that are taken, and one of them is lax. -/
inductive SloppyQueues : List Char → Prop
  | numbers {a b : List Char} {ncqr nsqr : BitVec 16} :
      ReadsMask a ncqr → ReadsMask b nsqr → b ≠ [] → Lax a ∨ Lax b → SloppyQueues (a ++ ':' :: b)

variable {optarg a b : List Char} {ncqr nsqr : BitVec 16} {numQueues : NumQueues}

theorem parseNumbers_some : parseNumbers optarg = some numQueues ↔
    numQueues.req = true ∧ TakesQueues optarg numQueues.ncqr numQueues.nsqr := by
  constructor
  · intro h
    obtain ⟨ncqr, hncqr, h⟩ := Option.bind_eq_some_iff.1 h
    obtain ⟨a, b, rfl, ha⟩ := parseMask_colon.1 hncqr
    rw [after_append ha.not_mem] at h
    obtain ⟨hlen, h⟩ := Option.ite_none_left_eq_some.1 h
    obtain ⟨nsqr, hnsqr, h⟩ := Option.bind_eq_some_iff.1 h
    cases h
    exact ⟨rfl, .numbers ha (parseMask_none.1 hnsqr) (mt List.length_eq_zero_iff.2 hlen)⟩
  · obtain ⟨req, ncqr, nsqr⟩ := numQueues
    rintro ⟨hreq, htakes⟩
    dsimp only at hreq htakes
    cases htakes with
    | @numbers a b _ _ ha hb hne =>
      have hncqr := parseMask_colon.2 ⟨a, b, rfl, ha⟩
      rw [parseNumbers, hncqr]
      simp only [Option.bind_eq_bind, Option.bind_some, after_append ha.not_mem, List.length_eq_zero_iff, hne,
        if_false, parseMask_none.2 hb, hreq]
      rfl

theorem parseQueuesCmdLine_ok : parseQueuesCmdLine optarg = .ok numQueues ↔ optarg.length ≤ inlineCapacity ∧
    numQueues.req = true ∧ TakesQueues optarg numQueues.ncqr numQueues.nsqr := by
  rw [parseQueuesCmdLine, readCopy_eq_ok, parseNumbers_some]

/-- One word behind the other is both of them. -/
theorem put_append_word (hi lo : BitVec 16) (c : Cmd) :
    put (32 * 11) lo (put (32 * 11 + 16) hi c) = put (32 * 11) (hi ++ lo) c := by
  refine BitVec.eq_of_getLsbD_eq fun i hi' => ?_
  simp only [getLsbD_put, BitVec.getLsbD_append]
  grind

/-- **What is sent for numbers.** -/
theorem setFeaturesNumberOfQueues_eq (numQueues : NumQueues) :
    setFeaturesNumberOfQueues numQueues = some (queuesCmd numQueues.ncqr numQueues.nsqr) := by
  have hnew : SetFeatures.new = some (put 0 SetFeatures.opcode 0) := Cmd.setByte_eq (by decide) (by decide) _
  have hfid (c : Cmd) : BaseFeatures.setFID fidNumQueues c = some (put (32 * 10) fidNumQueues c) :=
    Cmd.setByte_eq (by decide) (by decide) _
  have hncqr (c : Cmd) : SetFeatures.setNumberOfQueuesNCQR numQueues.ncqr c =
      some (put (32 * 11 + 16) numQueues.ncqr c) := Cmd.setWord_eq (by decide) (by decide) _
  have hnsqr (c : Cmd) : SetFeatures.setNumberOfQueuesNSQR numQueues.nsqr c =
      some (put (32 * 11) numQueues.nsqr c) := Cmd.setWord_eq (by decide) (by decide) _
  simp only [setFeaturesNumberOfQueues, SetFeatures.setNumberOfQueues, hnew, hfid, hncqr, hnsqr, Option.bind_eq_bind,
    Option.bind_some, put_append_word]
  rfl

theorem queuesSent_some {c : Cmd} : queuesSent optarg = some c ↔
    optarg.length ≤ inlineCapacity ∧ ∃ ncqr nsqr, TakesQueues optarg ncqr nsqr ∧ c = queuesCmd ncqr nsqr := by
  rw [queuesSent, Option.bind_eq_some_iff]
  constructor
  · rintro ⟨numQueues, hparse, hsend⟩
    obtain ⟨hshort, -, htakes⟩ := parseQueuesCmdLine_ok.1 (toOption_eq_some.1 hparse)
    rw [setFeaturesNumberOfQueues_eq, Option.some_inj] at hsend
    exact ⟨hshort, _, _, htakes, hsend.symm⟩
  · rintro ⟨hshort, ncqr, nsqr, htakes, rfl⟩
    exact ⟨⟨true, ncqr, nsqr⟩, toOption_eq_some.2 (parseQueuesCmdLine_ok.2 ⟨hshort, rfl, htakes⟩),
      setFeaturesNumberOfQueues_eq _⟩

theorem plain_ne_nil (h : Plain 16 b) : b ≠ [] := by
  rintro rfl
  exact h.not_lax (by simp [Lax])

theorem DenotesQueues.takes (h : DenotesQueues optarg ncqr nsqr) : TakesQueues optarg ncqr nsqr := by
  cases h with
  | numbers ha hb => exact .numbers (mask_iff.1 ha).1 (mask_iff.1 hb).1 (plain_ne_nil hb.plain)

theorem denotes_printQueues (ncqr nsqr : BitVec 16) : DenotesQueues (printQueues ncqr nsqr) ncqr nsqr :=
  .numbers (mask_printMask _) (mask_printMask _)

theorem TakesQueues.denotes (h : TakesQueues optarg ncqr nsqr) (hnot : ¬SloppyQueues optarg) :
    DenotesQueues optarg ncqr nsqr := by
  cases h with
  | numbers ha hb hne =>
    obtain ⟨hlaxa, hlaxb⟩ := not_or.1 fun hlax => hnot (.numbers ha hb hne hlax)
    exact .numbers (mask_iff.2 ⟨ha, hlaxa⟩) (mask_iff.2 ⟨hb, hlaxb⟩)

theorem SloppyQueues.takes (h : SloppyQueues optarg) : ∃ ncqr nsqr, TakesQueues optarg ncqr nsqr := by
  cases h with
  | numbers ha hb hne _ => exact ⟨_, _, .numbers ha hb hne⟩

theorem SloppyQueues.not_denotes (h : SloppyQueues optarg) (ncqr nsqr : BitVec 16) :
    ¬DenotesQueues optarg ncqr nsqr := by
  intro hdenotes
  cases h with
  | numbers ha hb hne hlax =>
    generalize heq : _ ++ ':' :: _ = text at hdenotes
    cases hdenotes with
    | numbers ma mb =>
      obtain ⟨rfl, rfl⟩ := append_separator_inj ha.not_mem ma.not_mem heq
      rcases hlax with hlax | hlax
      · exact ma.plain.not_lax hlax
      · exact mb.plain.not_lax hlax

/-- Two masks and a colon have up to 9 characters. -/
theorem length_printQueues (ncqr nsqr : BitVec 16) : (printQueues ncqr nsqr).length ≤ inlineCapacity := by
  have hmask (mask : BitVec 16) : (printMask mask).length ≤ 4 :=
    (Nat.length_toDigits_le_iff (by decide) (by decide)).2 mask.isLt
  have hncqr := hmask ncqr
  have hnsqr := hmask nsqr
  rw [printQueues, List.length_append, List.length_cons, inlineCapacity]
  omega

/-- **Numbers that are printed reach the device as they are; and what reaches the device is what the text denotes
exactly if it is short and no part is lax.** -/
theorem queuesSent_iff (ncqr nsqr : BitVec 16) (optarg : List Char) :
    queuesSent (printQueues ncqr nsqr) = some (queuesCmd ncqr nsqr) ∧
      (SendsDenoted optarg ↔ optarg.length ≤ inlineCapacity ∧ ¬SloppyQueues optarg) := by
  refine ⟨queuesSent_some.2 ⟨length_printQueues ncqr nsqr, ncqr, nsqr, (denotes_printQueues ncqr nsqr).takes, rfl⟩,
    fun hsends => ?_, fun ⟨hshort, hnot⟩ => ⟨fun hfreed => ?_, fun c h => ?_⟩⟩
  · have hshort : optarg.length ≤ inlineCapacity :=
      Nat.not_lt.1 fun hlong => hsends.defined (readCopy_eq_freed.2 hlong)
    refine ⟨hshort, fun hsloppy => ?_⟩
    obtain ⟨n, m, htakes⟩ := hsloppy.takes
    obtain ⟨n', m', hdenotes, -⟩ := hsends.sent _ (queuesSent_some.2 ⟨hshort, n, m, htakes, rfl⟩)
    exact hsloppy.not_denotes n' m' hdenotes
  · exact Nat.not_lt.2 hshort (readCopy_eq_freed.1 hfreed)
  · obtain ⟨-, n, m, htakes, hc⟩ := queuesSent_some.1 h
    exact ⟨n, m, htakes.denotes hnot, hc⟩

/-- Nothing in front of the colon is 0. -/
example : parseQueuesCmdLine ":5".toList = .ok ⟨true, 0, 5⟩ := by decide

end Tnvme
