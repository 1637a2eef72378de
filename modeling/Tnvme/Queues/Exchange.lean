import Tnvme.Queues.Pairs

/-!
# One command at a time

Tests that look at the pointers of queues send a command and wait for its completion before they send the next one. A
controller answers the command with one entry while the test waits (`Course.Answers`).

* `sendWait_found`: the entry is found.
* `takeCE_answer`, `reapMem_answer`: reaping it empties the ring, whose head moves by one slot.
* `sendAndTake_answer`: the same of `SendAndReapCmd`.
-/

namespace Tnvme

/-- The controller answers the command in time with this entry. It posts nothing else, and no call fails. -/
structure Course.Answers (course : Course) (answer : CE) : Prop where
  inquiry : course.inquiry = noPosts
  send : course.send.fails = false
  ring : course.ring.fails = false
  polls : ∀ stage ∈ course.polls, stage.fails = false
  some : course.polls ≠ []
  awaited : course.awaited = [answer]
  metrics : course.metrics = noPosts
  reap : course.reap = noPosts
  peek : course.peek = []

namespace CQDriver

variable {σ : Type} (drv : CQDriver σ)

/-- `SQ::Send` and `SQ::Ring`. -/
def sendRing (course : Course) (s : σ) : Except IOFault σ := do
  let s ← drv.enter course.send s
  drv.enter course.ring s

/-- `CQ::Reap`, with the entries that the driver copies into the buffer. -/
def reapMem (stage : Stage) (ceDesire : Nat) (s : σ) : Except IOFault (σ × List CE) := do
  let ceDesire := if ceDesire = 0 ∨ ceDesire > drv.numEntries - 1 then drv.numEntries - 1 else ceDesire
  let s ← drv.enter stage s
  let (s', numReaped) := drv.reap s ceDesire
  return (s', (List.range numReaped).map fun i => drv.mem s ((drv.headPtr s + i) % drv.numEntries))

/-- `SendAndReapCmd`, with the state that it leaves. -/
def sendAndTake (course : Course) (ms : Nat) (status : List CEStat) (s : σ) : Except IOFault (σ × CEStat) := do
  let (s, _) ← drv.sendCmd course s
  let (s, numCE) ← drv.waitForReap course ms s
  let (s, ce) ← drv.takeCE course.metrics course.reap course.peek numCE s
  let st ← (verifyCE ce status).mapError .status
  return (s, st)

variable {drv}

theorem sendAndReapCmd_eq (course : Course) (ms : Nat) (status : List CEStat) (s : σ) :
    drv.sendAndReapCmd course ms status s = (drv.sendAndTake course ms status s).map (·.2) := by
  rw [sendAndReapCmd, sendAndTake]
  cases drv.sendCmd course s with
  | error fault => rfl
  | ok sent =>
    change (drv.waitForReap course ms sent.1 >>= _) = (drv.waitForReap course ms sent.1 >>= _).map _
    cases drv.waitForReap course ms sent.1 with
    | error fault => rfl
    | ok waited =>
      change (drv.retrieveCE course waited.2 waited.1 >>= _) = (drv.takeCE _ _ _ _ _ >>= _).map _
      rw [retrieveCE_eq]
      cases drv.takeCE course.metrics course.reap course.peek waited.2 waited.1 with
      | error fault => rfl
      | ok taken =>
        change (verifyCE taken.2 status).mapError _ = ((verifyCE taken.2 status).mapError _ >>= _).map _
        cases verifyCE taken.2 status <;> rfl

theorem enter_noPosts (s : σ) : drv.enter noPosts s = .ok s := rfl

end CQDriver

/-- The status that is listed. -/
theorem verifyCE_success {ce : CE} (h : ProcessCE.validatePeek ce .success = true) :
    verifyCE ce [.success] = .ok .success := by
  have hfind : [CEStat.success].find? (fun st => st = .ignore || ProcessCE.validatePeek ce st) = some .success := by
    rw [List.find?_cons_of_pos]
    rw [h, Bool.or_true]
  rw [verifyCE, if_neg (by decide), hfind]

section Ring

open CQDriver

variable {size : Nat} {ring : RingBuf CE size} {course : Course} {ce : CE}

/-- The command is sent. -/
theorem sendRing_answer (h : course.Answers ce) :
    (ringDriver size).sendRing course ring = .ok (ring.pushes (course.send.posted ++ course.ring.posted)) := by
  rw [sendRing, enter_calm h.send]
  change (ringDriver size).enter course.ring _ = _
  rw [enter_calm h.ring, ← posts_append]
  rfl

theorem pushes_singleton (ring : RingBuf CE size) (ce : CE) : ring.pushes [ce] = ring.push ce := rfl

theorem count_push (hsize : 2 ≤ size) (hempty : ring.count = 0) : (ring.push ce).count = 1 := by
  rw [← RingBuf.length_toList, RingBuf.toList_push_of_empty hsize hempty, List.length_singleton]

/-- The answer is found, and nothing else. -/
theorem sendWait_found (h : course.Answers ce) (hsize : 2 ≤ size) (hempty : ring.count = 0) :
    (ringDriver size).poll 1 course.polls (ring.pushes (course.send.posted ++ course.ring.posted)) =
      .ok (some (ring.push ce, 1)) := by
  obtain ⟨sent, hsent⟩ : ∃ sent, sent = course.send.posted ++ course.ring.posted := ⟨_, rfl⟩
  have hposted : sent ++ (course.polls.map (·.posted)).flatten = [ce] := hsent ▸ h.awaited
  have hpolled : (ringDriver size).polled course.polls (ring.pushes sent) = ring.push ce := by
    change (ring.pushes sent).pushes _ = _
    rw [← RingBuf.pushes_append, hposted, pushes_singleton]
  have hone : (ringDriver size).inquiry ((ringDriver size).polled course.polls (ring.pushes sent)) = 1 := by
    rw [hpolled]
    exact count_push hsize hempty
  obtain ⟨ces, hpoll, hpos, -⟩ := poll_found h.polls h.some (by rw [hone]; exact Nat.one_ne_zero)
    (Nat.le_of_eq hone.symm)
  obtain ⟨-, ces', hprefix, hces'⟩ := poll_ok hpoll
  -- what has been posted by then is something, hence all
  have hall : (ringDriver size).posts (ring.pushes sent) ces = ring.push ce := by
    rw [hces']
    change (ring.pushes sent).pushes ces' = _
    rw [← RingBuf.pushes_append]
    have hle : sent ++ ces' <+: [ce] := hposted ▸ (List.prefix_append_right_inj sent).2 hprefix
    cases hpushed : sent ++ ces' with
    | nil =>
      exfalso
      apply hpos
      rw [hces']
      change ((ring.pushes sent).pushes ces').count = 0
      rw [← RingBuf.pushes_append, hpushed]
      exact hempty
    | cons ce' rest =>
      rw [hpushed] at hle
      obtain ⟨rfl, hrest⟩ := List.cons_prefix_cons.1 hle
      rw [List.prefix_nil.1 hrest, pushes_singleton]
  rw [← hsent, hpoll, hall]
  change Except.ok (some (ring.push ce, (ring.push ce).count)) = _
  rw [count_push hsize hempty]

/-- The head of a ring when its only entry has been reaped, and the slot behind it. -/
structure Emptied (ring ring' : RingBuf CE size) (ce : CE) : Prop where
  count : ring'.count = 0
  head : ring'.head = (ring.head + 1) % size
  slot : ring'.slot ring.head = ce

theorem slot_push_head (hsize : 2 ≤ size) (hempty : ring.count = 0) : (ring.push ce).slot ring.head = ce := by
  rw [← RingBuf.head_push (a := ce)]
  exact RingBuf.slot_head (RingBuf.toList_push_of_empty hsize hempty)

theorem emptied_pop (hsize : 2 ≤ size) (hempty : ring.count = 0) : Emptied ring ((ring.push ce).pop 1) ce := by
  have hcount : (ring.push ce).count = 1 := count_push hsize hempty
  have hmin : min 1 (ring.push ce).count = 1 := by rw [hcount]; rfl
  refine ⟨?_, ?_, slot_push_head hsize hempty⟩
  · change (ring.push ce).count - min 1 (ring.push ce).count = 0
    rw [hmin, hcount]
  · change ((ring.push ce).head + min 1 (ring.push ce).count) % size = _
    rw [hmin, RingBuf.head_push]

theorem takeCE_answer (h : course.Answers ce) (hsize : 2 ≤ size) (hempty : ring.count = 0) :
    ∃ ring', (ringDriver size).takeCE course.metrics course.reap course.peek 1 (ring.push ce) = .ok (ring', ce) ∧
      Emptied ring ring' ce := by
  have hmin : min 1 (ring.push ce).count = 1 := by rw [count_push hsize hempty]; rfl
  have hdesire : ¬((1 : Nat) = 0 ∨ 1 > (ringDriver size).numEntries - 1) := by
    change ¬(_ ∨ 1 > size - 1)
    omega
  have hreap : (ringDriver size).cqReap noPosts 1 (ring.push ce) = .ok ((ring.push ce).pop 1, 1) := by
    rw [cqReap, if_neg hdesire]
    change Except.ok ((ring.push ce).pop 1, min 1 (ring.push ce).count) = _
    rw [hmin]
  have hpeek : (ringDriver size).peekCE (ring.push ce).head ((ring.push ce).pop 1) = .ok ce := by
    refine (if_pos (ring.push ce).head_lt).trans ?_
    rw [RingBuf.head_push]
    exact congrArg Except.ok (slot_push_head hsize hempty)
  refine ⟨(ring.push ce).pop 1, ?_, emptied_pop hsize hempty⟩
  rw [h.metrics, h.reap, h.peek]
  exact Outcomes.bind_eq_ok.2
    ⟨_, enter_noPosts _, Outcomes.bind_eq_ok.2 ⟨_, hreap, Outcomes.bind_eq_ok.2 ⟨_, hpeek, rfl⟩⟩⟩

theorem reapMem_answer (h : course.Answers ce) (hsize : 2 ≤ size) (hempty : ring.count = 0) :
    (ringDriver size).reapMem course.reap 1 (ring.push ce) = .ok ((ring.push ce).pop 1, [ce]) := by
  have hmin : min 1 (ring.push ce).count = 1 := by rw [count_push hsize hempty]; rfl
  have hdesire : ¬((1 : Nat) = 0 ∨ 1 > (ringDriver size).numEntries - 1) := by
    change ¬(_ ∨ 1 > size - 1)
    omega
  rw [h.reap, reapMem, if_neg hdesire]
  change Except.ok ((ring.push ce).pop 1, (List.range (min 1 (ring.push ce).count)).map fun i =>
    (ring.push ce).slot (((ring.push ce).head + i) % size)) = _
  rw [hmin, RingBuf.head_push, List.range_one, List.map_singleton, Nat.add_zero, Nat.mod_eq_of_lt ring.head_lt,
    slot_push_head hsize hempty]

theorem sendCmd_answer (h : course.Answers ce) (hempty : ring.count = 0) :
    (ringDriver size).sendCmd course ring =
      .ok (ring.pushes (course.send.posted ++ course.ring.posted), course.uniqueId) := by
  have hanswer : (ringDriver size).sendRing course ring = _ := sendRing_answer h
  obtain ⟨sent, hsend, hring⟩ := Outcomes.bind_eq_ok.1 hanswer
  rw [sendCmd, h.inquiry, reapInquiry, enter_noPosts]
  refine (if_neg (not_not_intro hempty)).trans ?_
  rw [hsend]
  change ((ringDriver size).enter course.ring sent >>= _) = _
  rw [hring]
  rfl

/-- What `SendAndReapCmd` makes of an answer. -/
theorem sendAndTake_answer (h : course.Answers ce) (hsize : 2 ≤ size) (hempty : ring.count = 0) {ms : Nat}
    (hms : ms ≤ 86400000) (status : List CEStat) :
    ∃ ring', Emptied ring ring' ce ∧ (ringDriver size).sendAndTake course ms status ring =
      ((verifyCE ce status).mapError .status).map fun st => (ring', st) := by
  obtain ⟨ring', htake, hemptied⟩ := takeCE_answer h hsize hempty
  have hwait : (ringDriver size).waitForReap course ms (ring.pushes (course.send.posted ++ course.ring.posted)) =
      .ok (ring.push ce, 1) := by
    rw [waitForReap, doReapInquiry, if_neg (Nat.not_lt.2 hms), sendWait_found h hsize hempty]
    rfl
  refine ⟨ring', hemptied, ?_⟩
  rw [sendAndTake, sendCmd_answer h hempty]
  change ((ringDriver size).waitForReap course ms (ring.pushes _) >>= _) = _
  rw [hwait]
  change ((ringDriver size).takeCE course.metrics course.reap course.peek 1 (ring.push ce) >>= _) = _
  rw [htake]
  change ((verifyCE ce status).mapError _ >>= _) = _
  cases verifyCE ce status <;> rfl

end Ring
end Tnvme
