import Mathlib.Tactic.IntervalCases
import Tnvme.Grp.Reservations

/-!
# Two hosts and one namespace

The turns of the two hosts come in any order (`afterTurns`). A relies on its identifier, its key and the reservation
(`PhaseA`), B on its identifier and its key (`PhaseB`). Its own turn takes a host on (`PhaseA.own`, `PhaseB.own`), and
the turn of the other one leaves it where it is (`PhaseA.other`, `PhaseB.other`); so both hold after any turns
(`twoHosts_afterTurns`).

The tests of A pass in any order, and read back what A has written, exactly if nobody else has the reservation at the
beginning (`hostA_passes_iff`). Those of B pass exactly in the orders in which each access of B comes while A has the
reservation (`hostB_passes_iff`); in a second round A gives it up for seven commands.
-/

namespace Tnvme

open Fields

/-! ## A turn of a host -/

/-- What the test makes of an answer. -/
def verdict (status : List CEStat) (expected : Option Bytes) (answer : CEStat) (buf : Bytes) : Bool :=
  match status.find? fun st => st = .ignore || st = answer with
  | none => false
  | some retStat => if retStat = .success then expected.all (· = buf) else true

/-- A step, on the states of the namespace. -/
def RsvStep.Plays (h : Host) (st : Rsv) (ok : Bool) (st' : Rsv) : RsvStep → Prop
  | .createResources => ok = true ∧ ∃ id, st' = { st with hostId := Function.update st.hostId h id }
  | .op o status expected =>
    st' = (st.exec h o).2 ∧ ∃ buf, (∀ data, (st.exec h o).1.data = some data → buf = data) ∧
      ok = verdict status expected (st.exec h o).1.status buf

variable {σ : Type} {dut : RsvDut σ} {abs : σ → Rsv}

/-- The two statuses that the states give have rows of their own. -/
theorem validatePeek_answer {ce : CE} {answer : RsvAnswer} (h : ProcessCE.validatePeek ce answer.status = true)
    (st : CEStat) : ProcessCE.validatePeek ce st = decide (st = answer.status) := by
  have hrows : ∀ st ∈ CEStat.table, ∀ granted : Bool,
      st.sct.code = (RsvAnswer.status ⟨granted, none⟩).sct.code → st.sc = (RsvAnswer.status ⟨granted, none⟩).sc →
        st = RsvAnswer.status ⟨granted, none⟩ := by decide +kernel
  by_cases heq : st = answer.status
  · rw [decide_eq_true heq, heq, h]
  · rw [decide_eq_false heq]
    by_contra hst
    have hm := (ProcessCE.validatePeek_iff.1 h).1
    have hm' := (ProcessCE.validatePeek_iff.1 (Bool.eq_true_of_not_eq_false hst)).1
    exact heq (hrows st (CEStat.mem_table st) answer.granted (hm'.1.symm.trans hm.1) (hm'.2.symm.trans hm.2))

theorem Exchange.passes_eq {e : Exchange} {reply : RsvReply σ} {ce : CE} {answer : RsvAnswer}
    (hce : reply.ce = some ce) (h : ProcessCE.validatePeek ce answer.status = true) :
    e.passes reply = verdict e.status e.expected answer.status reply.buf := by
  have hfind : (fun st => decide (st = CEStat.ignore) || ProcessCE.validatePeek ce st) =
      fun st => decide (st = CEStat.ignore) || decide (st = answer.status) :=
    funext fun st => by rw [validatePeek_answer h]
  rw [Exchange.passes, hce, verdict]
  dsimp only
  rw [verifyCE, hfind]
  cases e.status with
  | nil => rfl
  | cons st l =>
    rw [if_neg (by simp)]
    cases (st :: l).find? fun st => decide (st = CEStat.ignore) || decide (st = answer.status) <;> rfl

theorem RsvDut.Conforms.play (hc : dut.Conforms abs) {h : Host} {t : TestStep} {r : RsvStep}
    (ht : t.decode = some r) (s : σ) : r.Plays h (abs s) (dut.play h t s).1 (abs (dut.play h t s).2) := by
  cases t with
  | createResources =>
    cases ht
    obtain ⟨s', id, hs', habs⟩ := hc.createResources h s
    rw [RsvDut.play, hs']
    exact ⟨rfl, id, habs⟩
  | exchange e =>
    obtain ⟨op, hop, rfl⟩ := Option.map_eq_some_iff.1 ht
    obtain ⟨ce, hce, hpeek⟩ := hc.ce h e.admin e.cmd e.buf s op hop
    exact ⟨hc.dev h e.admin e.cmd e.buf s op hop, _, fun data hdata => hc.buf h e.admin e.cmd e.buf s op data hop hdata,
      Exchange.passes_eq hce hpeek⟩

theorem exists_tests (h : Host) : ∃ tests, h.tests = some tests ∧ tests.map TestStep.decode = h.script.map some :=
  Option.map_eq_some_iff.1 (tests_decode h)

/-- **The turn of a host that has not thrown.** -/
theorem RsvSys.step_turn (hc : dut.Conforms abs) {sys : RsvSys σ} {h : Host} (hthrew : sys.threw h = false) :
    ∃ r ok, h.script[sys.pc h % h.script.length]? = some r ∧
      r.Plays h (abs sys.dev) ok (abs (sys.step dut h).dev) ∧
      (sys.step dut h).pc = Function.update sys.pc h (sys.pc h + 1) ∧
      (sys.step dut h).threw = Function.update sys.threw h !ok := by
  obtain ⟨tests, htests, hmap⟩ := exists_tests h
  have hlen : tests.length = h.script.length := by
    have := congrArg List.length hmap
    rwa [List.length_map, List.length_map] at this
  have hpos : 0 < h.script.length := by cases h <;> decide
  have hlt : sys.pc h % h.script.length < h.script.length := Nat.mod_lt _ hpos
  have hget : (tests[sys.pc h % h.script.length]?).map TestStep.decode =
      (h.script[sys.pc h % h.script.length]?).map some := by
    rw [← List.getElem?_map, hmap, List.getElem?_map]
  obtain ⟨r, hr⟩ : ∃ r, h.script[sys.pc h % h.script.length]? = some r := ⟨_, List.getElem?_eq_getElem hlt⟩
  rw [hr] at hget
  obtain ⟨t, ht, hdecode⟩ := Option.map_eq_some_iff.1 hget
  refine ⟨r, (dut.play h t sys.dev).1, hr, ?_⟩
  have hstep : sys.step dut h = ⟨(dut.play h t sys.dev).2, Function.update sys.pc h (sys.pc h + 1),
      Function.update sys.threw h !(dut.play h t sys.dev).1⟩ := by
    rw [RsvSys.step, if_neg (by simp [hthrew]), htests]
    dsimp only
    rw [hlen, ht]
  rw [hstep]
  exact ⟨hc.play hdecode sys.dev, rfl, rfl⟩

/-! ## What a command changes -/

namespace Rsv

/-- All that a command of a host can do. -/
inductive Change (st : Rsv) (h : Host) (op : RsvOp) : Rsv → Prop
  | same : Change st h op st
  | hostId (id : Bytes) (hop : op = .setHostId id) :
      Change st h op { st with hostId := Function.update st.hostId h id }
  | key (nrkey : Bytes) : Change st h op (st.setKey (st.hostId h) nrkey)
  | unregister : Change st h op (st.unregister (st.hostId h))
  | holder (iekey : Bool) (crkey : Bytes) (rtype : RType) (hop : op = .acquire iekey crkey rtype)
      (hkey : st.key (st.hostId h) ≠ none) (hfree : st.holder.all (· = (st.hostId h, rtype)) = true) :
      Change st h op { st with holder := some (st.hostId h, rtype) }
  | lba (slba : BitVec 64) (data : Bytes) (hallows : st.allows h true = true) :
      Change st h op { st with lba := Function.update st.lba slba data }

variable {st st' : Rsv} {h h' : Host} {op : RsvOp}

theorem grantIf_neg {p : Prop} [Decidable p] (hp : ¬p) (st' : Rsv) : st.grantIf p st' = (⟨false, none⟩, st) := if_neg hp

theorem Change.grantIf {p : Prop} [Decidable p] (hst' : p → Change st h op st') :
    Change st h op (st.grantIf p st').2 := by
  unfold Rsv.grantIf
  split
  next hp => exact hst' hp
  next => exact .same

theorem exec_change (st : Rsv) (h : Host) (op : RsvOp) : Change st h op (st.exec h op).2 := by
  cases op with
  | setHostId id => exact .hostId id rfl
  | getHostId => exact .same
  | register action iekey crkey nrkey =>
    cases action with
    | register | replace => exact .grantIf fun _ => .key nrkey
    | unregister => exact .grantIf fun _ => .unregister
  | acquire iekey crkey rtype => exact .grantIf fun ⟨hkey, _, hfree⟩ => .holder iekey crkey rtype rfl hkey hfree
  | write slba data => exact .grantIf fun hallows => .lba slba data hallows
  | read slba =>
    rw [exec]
    split <;> exact .same

theorem Change.hostId_of_ne (hc : Change st h op st') (hne : h' ≠ h) : st'.hostId h' = st.hostId h' := by
  cases hc with
  | hostId id hop => exact Function.update_of_ne hne _ _
  | _ => rfl

theorem Change.key_of_ne (hc : Change st h op st') {id : Bytes} (hne : id ≠ st.hostId h) : st'.key id = st.key id := by
  cases hc with
  | key nrkey => exact Function.update_of_ne hne _ _
  | unregister => exact Function.update_of_ne hne _ _
  | _ => rfl

theorem Change.lba_eq (hc : Change st h op st') (hno : st.allows h true = false) : st'.lba = st.lba := by
  cases hc with
  | lba slba data hallows => exact absurd hallows (by simp [hno])
  | _ => rfl

/-- A host sets its identifier on purpose only. -/
theorem Change.hostId_eq (hc : Change st h op st') (hop : ∀ id, op ≠ .setHostId id) : st'.hostId = st.hostId := by
  cases hc with
  | hostId id hset => exact absurd hset (hop id)
  | _ => rfl

/-- The reservation of somebody else stays. -/
theorem Change.holder_of_ne (hc : Change st h op st') {id : Bytes} {rtype : RType}
    (hst : st.holder = some (id, rtype)) (hne : id ≠ st.hostId h) : st'.holder = some (id, rtype) := by
  cases hc with
  | unregister => simp [Rsv.unregister, hst, hne]
  | holder iekey crkey rtype' hop hkey hfree => simp [hst, hne] at hfree
  | _ => exact hst

/-- Without an acquisition there is no new reservation. -/
theorem Change.holder_none (hc : Change st h op st') (hst : st.holder = none)
    (hop : ∀ iekey crkey rtype, op ≠ .acquire iekey crkey rtype) : st'.holder = none := by
  cases hc with
  | unregister => simp [Rsv.unregister, hst]
  | holder iekey crkey rtype hacq hkey hfree => exact absurd hacq (hop iekey crkey rtype)
  | _ => exact hst

theorem exec_acquire_of_ne {id crkey : Bytes} {rtype rtype' : RType} {iekey : Bool} (hst : st.holder = some (id, rtype))
    (hne : id ≠ st.hostId h) : st.exec h (.acquire iekey crkey rtype') = (⟨false, none⟩, st) :=
  grantIf_neg (fun hp => absurd hp.2.2 (by simp [hst, hne])) _

/-- **The holder stays registered.** -/
theorem Change.registered (hc : Change st h op st') (hst : st.Registered) : st'.Registered := by
  intro id rtype hholder
  cases hc with
  | key nrkey =>
    have hkey := hst id rtype hholder
    rw [setKey]
    dsimp only
    by_cases hid : id = st.hostId h
    · simp [hid]
    · rwa [Function.update_of_ne hid]
  | unregister =>
    obtain ⟨hst', hne⟩ := Option.filter_eq_some_iff.1 hholder
    have hne' : id ≠ st.hostId h := of_decide_eq_true hne
    rw [Rsv.unregister]
    dsimp only
    rw [Function.update_of_ne hne']
    exact hst id rtype hst'
  | holder iekey crkey rtype' hop hkey hfree =>
    cases hholder
    exact hkey
  | _ => exact hst id rtype hholder

end Rsv

@[simp] theorem fill_inj {a b : BitVec 8} : fill a = fill b ↔ a = b := List.replicate_right_inj (by decide)

/-- A command whose answer is not compared with anything. -/
theorem RsvStep.Plays.op_eq {st st' st₁ : Rsv} {h : Host} {ok : Bool} {o : RsvOp} {status : List CEStat} {a : RsvAnswer}
    (hp : (RsvStep.op o status none).Plays h st ok st') (hexec : st.exec h o = (a, st₁)) :
    ok = verdict status none a.status [] ∧ st' = st₁ := by
  obtain ⟨rfl, buf, -, rfl⟩ := hp
  rw [hexec]
  refine ⟨?_, rfl⟩
  unfold verdict
  cases status.find? fun st => decide (st = CEStat.ignore) || decide (st = a.status) <;> rfl

@[simp] theorem Rsv.setKey_hostId (st : Rsv) (id nrkey : Bytes) : (st.setKey id nrkey).hostId = st.hostId := rfl

@[simp] theorem Rsv.setKey_holder (st : Rsv) (id nrkey : Bytes) : (st.setKey id nrkey).holder = st.holder := rfl

/-! ## Where the hosts are -/

/-- The key of A, after so many steps of a round. -/
def keyA (i : Nat) : Option Bytes :=
  if i = 4 then none else if i = 5 then some (fill 0xAE#8) else if i ≤ 7 then some (fill 0xAF#8) else some (fill 0xAD#8)

/-- The reservation, in a round of A. In the first one it is what it was, until A unregisters. -/
def holding (holder : Option (Bytes × RType)) (round i : Nat) : Option (Bytes × RType) :=
  if 4 ≤ i ∧ i ≤ 10 then none
  else if i ≤ 3 ∧ round = 0 then holder
  else some (fill 0xAA#8, .exclusiveAccess)

/-- What A relies on. -/
structure PhaseA (holder : Option (Bytes × RType)) (round i : Nat) (st : Rsv) : Prop where
  hostId : 2 ≤ i → st.hostId .A = fill 0xAA#8
  key : 4 ≤ i → st.key (fill 0xAA#8) = keyA i
  holder : st.holder = holding holder round i
  written : i = 12 → st.lba 5#64 = block 0xCC#8
  registered : st.Registered

/-- What B relies on. -/
structure PhaseB (j : Nat) (st : Rsv) : Prop where
  hostId : 2 ≤ j → st.hostId .B = fill 0xBB#8
  key : 4 ≤ j → st.key (fill 0xBB#8) = if j = 4 then none else some (fill 0xBD#8)

variable {st st' : Rsv} {ok : Bool} {r : RsvStep} {holder : Option (Bytes × RType)} {round i j : Nat}

theorem holding_some {id : Bytes} {rtype : RType}
    (hholder : ∀ id rtype, holder = some (id, rtype) → id = fill 0xAA#8)
    (h : holding holder round i = some (id, rtype)) : id = fill 0xAA#8 := by
  unfold holding at h
  split at h
  next => cases h
  next =>
    split at h
    next => exact hholder id rtype h
    next =>
      cases h
      rfl

/-! ### The turns of A -/

theorem Rsv.Registered.of_exec (h : st.Registered) {host : Host} {op : RsvOp} {a : RsvAnswer} {st₁ : Rsv}
    (hexec : st.exec host op = (a, st₁)) : st₁.Registered := by
  have hst := (Rsv.exec_change st host op).registered h
  rwa [hexec] at hst

/-- A has no reservation after the first command of the round that unregisters it, whether it is granted or not. -/
theorem PhaseA.unregister (h : PhaseA holder round 3 st)
    (hholder : ∀ id rtype, holder = some (id, rtype) → id = fill 0xAA#8)
    (hp : (RsvStep.op (.register .unregister true (fill 0x00#8) (fill 0x00#8)) [.success, .rsrvConflict, .ignore]
      none).Plays .A st ok st') : ok = true ∧ PhaseA holder round 4 st' := by
  have hid := h.hostId (by decide)
  have hown (x : Bytes × RType) (hx : st.holder = some x) : x.1 = fill 0xAA#8 :=
    holding_some hholder (h.holder.symm.trans hx)
  have hgone : st.holder.filter (·.1 ≠ fill 0xAA#8) = none := by
    cases hst : st.holder with
    | none => rfl
    | some x => simp [hown x hst]
  by_cases hnone : st.key (fill 0xAA#8) = none
  · have hexec : st.exec .A (.register .unregister true (fill 0x00#8) (fill 0x00#8)) = (⟨false, none⟩, st) := by
      simp [Rsv.exec, Rsv.grantIf, hid, hnone]
    have hfree : st.holder = none := by
      cases hst : st.holder with
      | none => rfl
      | some x => exact absurd (hown x hst ▸ hnone) (h.registered x.1 x.2 hst)
    obtain ⟨rfl, rfl⟩ := hp.op_eq hexec
    exact ⟨rfl, fun _ => hid, fun _ => hnone, by simpa [holding] using hfree, by simp, h.registered⟩
  · have hexec : st.exec .A (.register .unregister true (fill 0x00#8) (fill 0x00#8)) =
        (⟨true, none⟩, st.unregister (fill 0xAA#8)) := by
      simp [Rsv.exec, Rsv.grantIf, hid, hnone]
    obtain ⟨rfl, rfl⟩ := hp.op_eq hexec
    exact ⟨rfl, fun _ => hid, by simp [Rsv.unregister, keyA], by simpa [Rsv.unregister, holding] using hgone,
      by simp, h.registered.of_exec hexec⟩

theorem PhaseA.register (h : PhaseA holder round i st)
    (hholder : ∀ id rtype, holder = some (id, rtype) → id = fill 0xAA#8) (hi : i < 5)
    (hr : Host.A.script[i]? = some r) (hp : r.Plays .A st ok st') : ok = true ∧ PhaseA holder round (i + 1) st' := by
  obtain ⟨hid, hkey, hhold, hwritten, hreg⟩ := h
  interval_cases i <;> cases hr
  -- `CreateResources_r11`
  · obtain ⟨rfl, id, rfl⟩ := hp
    exact ⟨rfl, by simp, by simp, by simpa [holding] using hhold, by simp, hreg⟩
  -- `RegisterReservation`
  · obtain ⟨rfl, rfl⟩ := hp.op_eq rfl
    exact ⟨rfl, by simp, by simp, by simpa [holding] using hhold, by simp, hreg⟩
  · obtain ⟨rfl, buf, hbuf, rfl⟩ := hp
    rw [hbuf _ rfl, hid (by decide)]
    exact ⟨by simp [verdict, Rsv.exec, RsvAnswer.status], fun _ => hid (by decide), by simp,
      by simpa [holding] using hhold, by simp, hreg⟩
  · have h : PhaseA holder round 3 st := ⟨hid, hkey, hhold, hwritten, hreg⟩
    exact h.unregister hholder hp
  · have hexec : st.exec .A (.register .register true (fill 0xAE#8) (fill 0xAE#8)) =
        (⟨true, none⟩, st.setKey (fill 0xAA#8) (fill 0xAE#8)) := by
      simp [Rsv.exec, Rsv.grantIf, hid, hkey, keyA]
    obtain ⟨rfl, rfl⟩ := hp.op_eq hexec
    exact ⟨rfl, fun _ => hid (by decide), by simp [Rsv.setKey, keyA], by simpa [holding] using hhold, by simp,
      hreg.of_exec hexec⟩

theorem PhaseA.replace (h : PhaseA holder round i st) (hlo : 5 ≤ i) (hi : i < 9)
    (hr : Host.A.script[i]? = some r) (hp : r.Plays .A st ok st') : ok = true ∧ PhaseA holder round (i + 1) st' := by
  obtain ⟨hid, hkey, hhold, hwritten, hreg⟩ := h
  interval_cases i <;> cases hr
  · have hexec : st.exec .A (.register .replace false (fill 0xAE#8) (fill 0xAF#8)) =
        (⟨true, none⟩, st.setKey (fill 0xAA#8) (fill 0xAF#8)) := by
      simp [Rsv.exec, Rsv.grantIf, hid, hkey, keyA]
    obtain ⟨rfl, rfl⟩ := hp.op_eq hexec
    exact ⟨rfl, fun _ => hid (by decide), by simp [Rsv.setKey, keyA], by simpa [holding] using hhold, by simp,
      hreg.of_exec hexec⟩
  · have hexec : st.exec .A (.register .replace false (fill 0xAA#8) (fill 0xAD#8)) = (⟨false, none⟩, st) := by
      simp [Rsv.exec, Rsv.grantIf, hid, hkey, keyA]
    obtain ⟨rfl, rfl⟩ := hp.op_eq hexec
    exact ⟨rfl, fun _ => hid (by decide), fun _ => hkey (by decide), by simpa [holding] using hhold, by simp, hreg⟩
  · have hexec : st.exec .A (.register .replace true (fill 0xAA#8) (fill 0xAD#8)) =
        (⟨true, none⟩, st.setKey (fill 0xAA#8) (fill 0xAD#8)) := by
      simp [Rsv.exec, Rsv.grantIf, hid]
    obtain ⟨rfl, rfl⟩ := hp.op_eq hexec
    exact ⟨rfl, fun _ => hid (by decide), by simp [Rsv.setKey, keyA], by simpa [holding] using hhold, by simp,
      hreg.of_exec hexec⟩
  · have hexec : st.exec .A (.register .unregister false (fill 0xAA#8) (fill 0x00#8)) = (⟨false, none⟩, st) := by
      simp [Rsv.exec, Rsv.grantIf, hid, hkey, keyA]
    obtain ⟨rfl, rfl⟩ := hp.op_eq hexec
    exact ⟨rfl, fun _ => hid (by decide), fun _ => hkey (by decide), by simpa [holding] using hhold, by simp, hreg⟩

theorem PhaseA.acquire (h : PhaseA holder round i st) (hlo : 9 ≤ i) (hi : i < 13)
    (hr : Host.A.script[i]? = some r) (hp : r.Plays .A st ok st') :
    ok = true ∧ PhaseA holder (if i = 12 then round + 1 else round) (if i = 12 then 0 else i + 1) st' := by
  obtain ⟨hid, hkey, hhold, hwritten, hreg⟩ := h
  interval_cases i <;> cases hr
  · have hexec : st.exec .A (.acquire false (fill 0xFA#8) .exclusiveAccess) = (⟨false, none⟩, st) := by
      simp [Rsv.exec, Rsv.grantIf, hid, hkey, keyA]
    obtain ⟨rfl, rfl⟩ := hp.op_eq hexec
    exact ⟨rfl, fun _ => hid (by decide), fun _ => hkey (by decide), by simpa [holding] using hhold, by simp, hreg⟩
  · have hfree : st.holder = none := by simpa [holding] using hhold
    have hexec : st.exec .A (.acquire false (fill 0xAD#8) .exclusiveAccess) =
        (⟨true, none⟩, { st with holder := some (fill 0xAA#8, .exclusiveAccess) }) := by
      simp [Rsv.exec, Rsv.grantIf, hid, hkey, keyA, hfree]
    obtain ⟨rfl, rfl⟩ := hp.op_eq hexec
    exact ⟨rfl, fun _ => hid (by decide), fun _ => hkey (by decide), by simp [holding], by simp, hreg.of_exec hexec⟩
  · have hheld : st.holder = some (fill 0xAA#8, .exclusiveAccess) := by simpa [holding] using hhold
    have hexec : st.exec .A (.write 5#64 (block 0xCC#8)) =
        (⟨true, none⟩, { st with lba := Function.update st.lba 5#64 (block 0xCC#8) }) := by
      simp [Rsv.exec, Rsv.grantIf, Rsv.allows, hid, hheld]
    obtain ⟨rfl, rfl⟩ := hp.op_eq hexec
    exact ⟨rfl, fun _ => hid (by decide), fun _ => hkey (by decide), by simpa [holding] using hhold, by simp,
      hreg.of_exec hexec⟩
  · have hheld : st.holder = some (fill 0xAA#8, .exclusiveAccess) := by simpa [holding] using hhold
    have hexec : st.exec .A (.read 5#64) = (⟨true, some (block 0xCC#8)⟩, st) := by
      simp [Rsv.exec, Rsv.allows, hid, hheld, hwritten]
    obtain ⟨rfl, buf, hbuf, rfl⟩ := hp
    rw [hexec] at hbuf ⊢
    rw [hbuf _ rfl]
    exact ⟨by simp [verdict, RsvAnswer.status], by simp, by simp, by simpa [holding] using hheld, by simp, hreg⟩

/-- **A goes on, and is where it should be.** -/
theorem PhaseA.own (h : PhaseA holder round i st)
    (hholder : ∀ id rtype, holder = some (id, rtype) → id = fill 0xAA#8) (hr : Host.A.script[i]? = some r)
    (hp : r.Plays .A st ok st') :
    ok = true ∧ PhaseA holder (if i = 12 then round + 1 else round) (if i = 12 then 0 else i + 1) st' := by
  have hi : i < 13 := (List.getElem?_eq_some_iff.1 hr).1
  by_cases hlast : 9 ≤ i
  · exact h.acquire hlast hi hr hp
  · rw [if_neg (by omega), if_neg (by omega)]
    by_cases hfirst : i < 5
    · exact h.register hholder hfirst hr hp
    · exact h.replace (by omega) (by omega) hr hp

/-! ### The turns of B -/

theorem PhaseB.own (h : PhaseB j st) (hr : Host.B.script[j]? = some r) (hp : r.Plays .B st ok st') :
    PhaseB (if j = 6 then 0 else j + 1) st' ∧
      ok = if j = 5 then !st.allows .B true else if j = 6 then !st.allows .B false else true := by
  have hj : j < 7 := (List.getElem?_eq_some_iff.1 hr).1
  obtain ⟨hid, hkey⟩ := h
  interval_cases j <;> cases hr
  · obtain ⟨rfl, id, rfl⟩ := hp
    exact ⟨⟨by simp, by simp⟩, rfl⟩
  · obtain ⟨rfl, rfl⟩ := hp.op_eq rfl
    exact ⟨⟨by simp, by simp⟩, rfl⟩
  · obtain ⟨rfl, buf, hbuf, rfl⟩ := hp
    rw [hbuf _ rfl, hid (by decide)]
    exact ⟨⟨fun _ => hid (by decide), by simp⟩, by simp [verdict, Rsv.exec, RsvAnswer.status]⟩
  · have hid := hid (by decide)
    by_cases hnone : st.key (fill 0xBB#8) = none
    · have hexec : st.exec .B (.register .unregister true (fill 0x00#8) (fill 0x00#8)) = (⟨false, none⟩, st) := by
        simp [Rsv.exec, Rsv.grantIf, hid, hnone]
      obtain ⟨rfl, rfl⟩ := hp.op_eq hexec
      exact ⟨⟨fun _ => hid, fun _ => hnone⟩, rfl⟩
    · have hexec : st.exec .B (.register .unregister true (fill 0x00#8) (fill 0x00#8)) =
          (⟨true, none⟩, st.unregister (fill 0xBB#8)) := by
        simp [Rsv.exec, Rsv.grantIf, hid, hnone]
      obtain ⟨rfl, rfl⟩ := hp.op_eq hexec
      exact ⟨⟨fun _ => hid, by simp [Rsv.unregister]⟩, rfl⟩
  · have hexec : st.exec .B (.register .register true (fill 0xBD#8) (fill 0xBD#8)) =
        (⟨true, none⟩, st.setKey (fill 0xBB#8) (fill 0xBD#8)) := by
      simp [Rsv.exec, Rsv.grantIf, hid, hkey]
    obtain ⟨rfl, rfl⟩ := hp.op_eq hexec
    exact ⟨⟨fun _ => hid (by decide), by simp [Rsv.setKey]⟩, rfl⟩
  · cases hallows : st.allows .B true with
    | true =>
      have hexec : st.exec .B (.write 5#64 (block 0xDD#8)) =
          (⟨true, none⟩, { st with lba := Function.update st.lba 5#64 (block 0xDD#8) }) := by
        simp [Rsv.exec, Rsv.grantIf, hallows]
      obtain ⟨rfl, rfl⟩ := hp.op_eq hexec
      exact ⟨⟨fun _ => hid (by decide), fun _ => hkey (by decide)⟩, rfl⟩
    | false =>
      have hexec : st.exec .B (.write 5#64 (block 0xDD#8)) = (⟨false, none⟩, st) := by
        simp [Rsv.exec, Rsv.grantIf, hallows]
      obtain ⟨rfl, rfl⟩ := hp.op_eq hexec
      exact ⟨⟨fun _ => hid (by decide), fun _ => hkey (by decide)⟩, rfl⟩
  · refine ⟨⟨by simp, by simp⟩, ?_⟩
    cases hallows : st.allows .B false with
    | true =>
      have hexec : st.exec .B (.read 5#64) = (⟨true, some (st.lba 5#64)⟩, st) := by simp [Rsv.exec, hallows]
      exact (hp.op_eq hexec).1
    | false =>
      have hexec : st.exec .B (.read 5#64) = (⟨false, none⟩, st) := by simp [Rsv.exec, hallows]
      exact (hp.op_eq hexec).1

/-! ### The turns of the other host -/

/-- The first three steps of a round have nothing to do with the keys. -/
def RsvStep.Keyless : RsvStep → Prop
  | .createResources | .op (.setHostId _) _ _ | .op .getHostId _ _ => True
  | _ => False

theorem script_keyless (h : Host) (hi : i < 3) (hr : h.script[i]? = some r) : r.Keyless := by
  cases h <;> interval_cases i <;> cases hr <;> trivial

/-- B never acquires. -/
theorem script_B_acquire {iekey : Bool} {crkey : Bytes} {rtype : RType} {status : List CEStat} {expected : Option Bytes}
    (hr : Host.B.script[j]? = some r) : r ≠ .op (.acquire iekey crkey rtype) status expected := by
  have hj : j < 7 := (List.getElem?_eq_some_iff.1 hr).1
  interval_cases j <;> cases hr <;> simp

namespace RsvStep.Plays

variable {h : Host}

/-- Each turn is one of the changes. -/
theorem change (hp : r.Plays h st ok st') : ∃ op, Rsv.Change st h op st' ∧
    ∀ iekey crkey rtype, op = .acquire iekey crkey rtype → ∃ status expected, r = .op op status expected := by
  cases r with
  | createResources =>
    obtain ⟨-, id, rfl⟩ := hp
    exact ⟨.setHostId id, .hostId id rfl, fun _ _ _ hop => absurd hop (by simp)⟩
  | op o status expected =>
    obtain ⟨rfl, -⟩ := hp
    exact ⟨o, Rsv.exec_change st h o, fun _ _ _ _ => ⟨status, expected, rfl⟩⟩

theorem keyless (hp : r.Plays h st ok st') (hr : r.Keyless) :
    st' = st ∨ ∃ id, st' = { st with hostId := Function.update st.hostId h id } := by
  match r, hr with
  | .createResources, _ => exact .inr hp.2
  | .op (.setHostId id) _ _, _ => exact .inr ⟨id, hp.1⟩
  | .op .getHostId _ _, _ => exact .inl hp.1

theorem key_eq (hp : r.Plays h st ok st') {id : Bytes} (hr : r.Keyless ∨ id ≠ st.hostId h) :
    st'.key id = st.key id := by
  rcases hr with hr | hne
  · rcases hp.keyless hr with rfl | ⟨id', rfl⟩ <;> rfl
  · obtain ⟨op, hc, -⟩ := hp.change
    exact hc.key_of_ne hne

theorem hostId_eq {h' : Host} (hp : r.Plays h st ok st') (hne : h' ≠ h) : st'.hostId h' = st.hostId h' := by
  obtain ⟨op, hc, -⟩ := hp.change
  exact hc.hostId_of_ne hne

end RsvStep.Plays

theorem fill_ne_hostId {a b : BitVec 8} {id : Bytes} (hab : a ≠ b) (hid : 2 ≤ i → id = fill b) (hi : ¬i < 3) :
    fill a ≠ id := by
  rw [hid (by omega)]
  exact mt fill_inj.1 hab

theorem PhaseB.other (h : PhaseB j st) (hA : PhaseA holder round i st) (hr : Host.A.script[i]? = some r)
    (hp : r.Plays .A st ok st') : PhaseB j st' := by
  have hkey : st'.key (fill 0xBB#8) = st.key (fill 0xBB#8) := by
    refine hp.key_eq ?_
    by_cases hi : i < 3
    · exact .inl (script_keyless .A hi hr)
    · exact .inr (fill_ne_hostId (by decide) hA.hostId hi)
  exact ⟨fun hj => (hp.hostId_eq (by decide)).trans (h.hostId hj), fun hj => hkey.trans (h.key hj)⟩

theorem PhaseA.other (h : PhaseA holder round i st)
    (hholder : ∀ id rtype, holder = some (id, rtype) → id = fill 0xAA#8) (hB : PhaseB j st)
    (hr : Host.B.script[j]? = some r) (hp : r.Plays .B st ok st') : PhaseA holder round i st' := by
  obtain ⟨op, hc, hop⟩ := hp.change
  have hhostId : st'.hostId .A = st.hostId .A := hp.hostId_eq (by decide)
  have hreg : st'.Registered := hc.registered h.registered
  by_cases hj : j < 3
  · rcases hp.keyless (script_keyless .B hj hr) with rfl | ⟨id, rfl⟩
    · exact h
    · exact ⟨fun hi => hhostId.trans (h.hostId hi), h.key, h.holder, h.written, hreg⟩
  · have hne : fill 0xAA#8 ≠ st.hostId .B := fill_ne_hostId (by decide) hB.hostId hj
    have hhold : st'.holder = st.holder := by
      cases hst : st.holder with
      | none =>
        refine hc.holder_none hst fun iekey crkey rtype hacq => ?_
        obtain ⟨status, expected, rfl⟩ := hop iekey crkey rtype hacq
        subst hacq
        exact script_B_acquire hr rfl
      | some x =>
        have hx : x.1 = fill 0xAA#8 := holding_some hholder (h.holder.symm.trans hst)
        exact hc.holder_of_ne hst (hx ▸ hne)
    refine ⟨fun hi => hhostId.trans (h.hostId hi), fun hi => (hc.key_of_ne hne).trans (h.key hi),
      hhold.trans h.holder, fun hi => ?_, hreg⟩
    subst hi
    have hheld : st.holder = some (fill 0xAA#8, .exclusiveAccess) := h.holder
    rw [hc.lba_eq (by simp [Rsv.allows, hheld, hne, RType.grants])]
    exact h.written rfl

/-! ## Any order of turns -/

/-- What holds whenever it is somebody's turn. -/
structure TwoHosts (holder : Option (Bytes × RType)) (abs : σ → Rsv) (sys : RsvSys σ) : Prop where
  calm : sys.threw .A = false
  a : PhaseA holder (sys.pc .A / 13) (sys.pc .A % 13) (abs sys.dev)
  b : PhaseB (sys.pc .B % 7) (abs sys.dev)

theorem TwoHosts.step (hc : dut.Conforms abs) (hholder : ∀ id rtype, holder = some (id, rtype) → id = fill 0xAA#8)
    {sys : RsvSys σ} (h : Host) (hsys : TwoHosts holder abs sys) : TwoHosts holder abs (sys.step dut h) := by
  cases hthrew : sys.threw h with
  | true =>
    rw [RsvSys.step, if_pos hthrew]
    exact hsys
  | false =>
    obtain ⟨r, ok, hr, hp, hpc, hthrew'⟩ := RsvSys.step_turn hc hthrew
    cases h with
    | A =>
      obtain ⟨rfl, ha⟩ := hsys.a.own hholder hr hp
      refine ⟨by simp [hthrew'], ?_, ?_⟩
      · rw [hpc, Function.update_self]
        convert ha using 1 <;> split <;> omega
      · rw [hpc, Function.update_of_ne (by decide)]
        exact hsys.b.other hsys.a hr hp
    | B =>
      refine ⟨by simp [hthrew', hsys.calm], ?_, ?_⟩
      · rw [hpc, Function.update_of_ne (by decide)]
        exact hsys.a.other hholder hsys.b hr hp
      · rw [hpc, Function.update_self]
        convert (hsys.b.own hr hp).1 using 1
        split <;> omega

/-! ### Throwing and counting -/

theorem RsvSys.threw_step {sys : RsvSys σ} {h h' : Host} (hne : h ≠ h') :
    (sys.step dut h').threw h = sys.threw h := by
  unfold RsvSys.step
  split
  next => rfl
  next =>
    split
    next => exact Function.update_of_ne hne _ _
    next =>
      split
      next => rfl
      next => exact Function.update_of_ne hne _ _

theorem RsvSys.threw_mono {sys : RsvSys σ} {h h' : Host} (hthrew : (sys.step dut h').threw h = false) :
    sys.threw h = false := by
  by_cases hne : h = h'
  · subst hne
    by_contra hbefore
    have hstay : sys.step dut h = sys := if_pos (Bool.eq_true_of_not_eq_false hbefore)
    exact hbefore (hstay ▸ hthrew)
  · rwa [threw_step hne] at hthrew

section Runs

variable {s : σ} {hs : List Host}

/-- The state after the turns of a list. -/
abbrev afterTurns (dut : RsvDut σ) (s : σ) (hs : List Host) : RsvSys σ := Runs.run (RsvSys.step dut) (.fresh s) hs

theorem afterTurns_concat (hs : List Host) (h : Host) :
    afterTurns dut s (hs ++ [h]) = (afterTurns dut s hs).step dut h :=
  Runs.run_append (RsvSys.fresh s) hs [h]

/-- A host that has not thrown has taken all its turns. -/
theorem pc_afterTurns (hc : dut.Conforms abs) {h : Host} (hthrew : (afterTurns dut s hs).threw h = false) :
    (afterTurns dut s hs).pc h = hs.count h := by
  induction hs using List.reverseRecOn with
  | nil => rfl
  | append_singleton hs h' ih =>
    rw [afterTurns_concat] at hthrew ⊢
    have hbefore := RsvSys.threw_mono hthrew
    by_cases hne : h = h'
    · subst hne
      obtain ⟨r, ok, -, -, hpc, -⟩ := RsvSys.step_turn hc hbefore
      rw [hpc, Function.update_self, ih hbefore, List.count_append, List.count_singleton_self]
    · have hpc : ((afterTurns dut s hs).step dut h').pc h = (afterTurns dut s hs).pc h := by
        cases hthrew' : (afterTurns dut s hs).threw h' with
        | true => rw [RsvSys.step, if_pos hthrew']
        | false =>
          obtain ⟨r, ok, -, -, hpc, -⟩ := RsvSys.step_turn hc hthrew'
          rw [hpc, Function.update_of_ne hne]
      rw [hpc, ih hbefore, List.count_append, List.count_singleton, if_neg (by simpa using Ne.symm hne), Nat.add_zero]

/-- The hosts start on a namespace in any state that a device can be in. -/
theorem twoHosts_fresh (hreg : (abs s).Registered) : TwoHosts (abs s).holder abs (.fresh s) where
  calm := rfl
  a := ⟨fun h => absurd h (by simp [RsvSys.fresh]), fun h => absurd h (by simp [RsvSys.fresh]),
    by simp [RsvSys.fresh, holding], fun h => absurd h (by simp [RsvSys.fresh]), hreg⟩
  b := ⟨fun h => absurd h (by simp [RsvSys.fresh]), fun h => absurd h (by simp [RsvSys.fresh])⟩

theorem twoHosts_afterTurns (hc : dut.Conforms abs) (hreg : (abs s).Registered)
    (hholder : ∀ id rtype, (abs s).holder = some (id, rtype) → id = fill 0xAA#8) (hs : List Host) :
    TwoHosts (abs s).holder abs (afterTurns dut s hs) :=
  Runs.inv_run (fun _ h hsys => hsys.step hc hholder h) (twoHosts_fresh hreg) hs

/-! ### A -/

/-- The reservation is somebody else's, and A is in its first round. -/
structure Foreign (id : Bytes) (rtype : RType) (k : Nat) (abs : σ → Rsv) (sys : RsvSys σ) : Prop where
  pc : sys.pc .A = k
  hostId : 2 ≤ k → (abs sys.dev).hostId .A = fill 0xAA#8
  holder : (abs sys.dev).holder = some (id, rtype)

/-- From the third step on, A keeps its identifier. -/
theorem script_A_hostId (hi : 2 ≤ i) (hlt : i < 13) (hr : Host.A.script[i]? = some r) (hp : r.Plays .A st ok st') :
    st'.hostId .A = st.hostId .A := by
  have hop : ∃ o status expected, r = .op o status expected ∧ ∀ id, o ≠ .setHostId id := by
    interval_cases i <;> cases hr <;> exact ⟨_, _, _, rfl, by simp⟩
  obtain ⟨o, status, expected, rfl, hset⟩ := hop
  obtain ⟨rfl, -⟩ := hp
  exact congrFun ((Rsv.exec_change st .A o).hostId_eq hset) .A

theorem foreign_step (hc : dut.Conforms abs) {id : Bytes} {rtype : RType} {k : Nat} {sys : RsvSys σ}
    (h : Foreign id rtype k abs sys) (hne : id ≠ fill 0xAA#8) (hk : k < 13) (hthrew : sys.threw .A = false) :
    Foreign id rtype (k + 1) abs (sys.step dut .A) := by
  obtain ⟨r, ok, hr, hp, hpc, -⟩ := RsvSys.step_turn hc hthrew
  have hmod : k % Host.A.script.length = k := Nat.mod_eq_of_lt hk
  rw [h.pc, hmod] at hr
  refine ⟨by rw [hpc, Function.update_self, h.pc], fun hle => ?_, ?_⟩
  · by_cases h1 : k = 1
    · subst h1
      cases hr
      rw [hp.1]
      simp [Rsv.exec]
    · rw [script_A_hostId (by omega) hk hr hp, h.hostId (by omega)]
  · by_cases hearly : k < 3
    · rcases hp.keyless (script_keyless .A hearly hr) with hst | ⟨id', hst⟩ <;> rw [hst] <;> exact h.holder
    · obtain ⟨op, hchange, -⟩ := hp.change
      exact hchange.holder_of_ne h.holder (by rwa [h.hostId (by omega)])

theorem foreign_afterTurns (hc : dut.Conforms abs) {id : Bytes} {rtype : RType}
    (hst : (abs s).holder = some (id, rtype)) (hne : id ≠ fill 0xAA#8) {k : Nat} (hk : k ≤ 10)
    (hthrew : (afterTurns dut s (List.replicate k .A)).threw .A = false) :
    Foreign id rtype k abs (afterTurns dut s (List.replicate k .A)) := by
  induction k with
  | zero => exact ⟨rfl, fun h => absurd h (by decide), hst⟩
  | succ k ih =>
    rw [List.replicate_succ', afterTurns_concat] at hthrew ⊢
    have hbefore := RsvSys.threw_mono hthrew
    exact foreign_step hc (ih (by omega) hbefore) hne (by omega) hbefore

/-- The acquisition is refused. -/
theorem foreign_throws (hc : dut.Conforms abs) {id : Bytes} {rtype : RType} (hst : (abs s).holder = some (id, rtype))
    (hne : id ≠ fill 0xAA#8) : (afterTurns dut s (List.replicate 11 .A)).threw .A = true := by
  by_contra hthrew
  have hthrew : (afterTurns dut s (List.replicate 10 .A ++ [.A])).threw .A = false :=
    Bool.eq_false_of_not_eq_true hthrew
  rw [afterTurns_concat] at hthrew
  have hbefore := RsvSys.threw_mono hthrew
  have h := foreign_afterTurns hc hst hne (by decide) hbefore
  obtain ⟨r, ok, hr, hp, -, hthrew'⟩ := RsvSys.step_turn hc hbefore
  rw [h.pc] at hr
  cases hr
  obtain ⟨rfl, -⟩ := hp.op_eq (Rsv.exec_acquire_of_ne h.holder (by rwa [h.hostId (by decide)]))
  rw [hthrew', Function.update_self] at hthrew
  exact absurd hthrew (by decide)

/-- **The tests of A pass in any order exactly if nobody else has the reservation before.** -/
theorem hostA_passes_iff (hc : dut.Conforms abs) (hreg : (abs s).Registered) :
    (∀ hs, (afterTurns dut s hs).threw .A = false) ↔
      ∀ id rtype, (abs s).holder = some (id, rtype) → id = fill 0xAA#8 := by
  constructor
  · intro h id rtype hst
    by_contra hne
    exact absurd ((h _).symm.trans (foreign_throws hc hst hne)) Bool.false_ne_true
  · exact fun hholder hs => (twoHosts_afterTurns hc hreg hholder hs).calm

/-- The identifier of A has the reservation, and a key. -/
def Rsv.heldByA : Rsv :=
  { Rsv.empty with
    key := fun id => if id = fill 0xAA#8 then some (fill 0x01#8) else none
    holder := some (fill 0xAA#8, RType.writeExclusive) }

theorem hostA_passes_held : Rsv.heldByA.holder = some (fill 0xAA#8, RType.writeExclusive) ∧
    ∀ hs, (afterTurns RsvDut.reference Rsv.heldByA hs).threw .A = false := by
  refine ⟨rfl, (hostA_passes_iff RsvDut.reference_conforms fun id rtype h => ?_).2 fun id rtype h => ?_⟩
  · obtain ⟨rfl, -⟩ : fill 0xAA#8 = id ∧ RType.writeExclusive = rtype := by simpa [Rsv.heldByA] using h
    simp [Rsv.heldByA]
  · obtain ⟨rfl, -⟩ : fill 0xAA#8 = id ∧ RType.writeExclusive = rtype := by simpa [Rsv.heldByA] using h
    rfl

/-! ### B -/

/-- A has the reservation after so many steps. -/
def Held (n : Nat) : Prop := 11 ≤ n ∧ (n % 13 ≤ 3 ∨ 11 ≤ n % 13)

instance (n : Nat) : Decidable (Held n) := inferInstanceAs (Decidable (_ ∧ _))

/-- B is at one of its accesses. -/
def Accesses (n : Nat) : Prop := n % 7 = 5 ∨ n % 7 = 6

instance (n : Nat) : Decidable (Accesses n) := inferInstanceAs (Decidable (_ ∨ _))

theorem holding_cases (n : Nat) : Held n ∧ holding none (n / 13) (n % 13) = some (fill 0xAA#8, .exclusiveAccess) ∨
    ¬Held n ∧ holding none (n / 13) (n % 13) = none := by
  unfold holding Held
  split
  next h => exact .inr ⟨by omega, rfl⟩
  next h =>
    split
    next h' => exact .inr ⟨by omega, rfl⟩
    next h' => exact .inl ⟨by omega, rfl⟩

/-- The access of B is refused if A has the reservation. -/
theorem allows_iff {n : Nat} (hA : PhaseA none (n / 13) (n % 13) st) (hB : PhaseB j st) (hj : 2 ≤ j) (write : Bool) :
    st.allows .B write = false ↔ Held n := by
  rcases holding_cases n with ⟨hheld, hhold⟩ | ⟨hheld, hhold⟩
  · refine iff_of_true ?_ hheld
    simp [Rsv.allows, hA.holder, hhold, hB.hostId hj, RType.grants]
  · refine iff_of_false ?_ hheld
    simp [Rsv.allows, hA.holder, hhold]

/-- The turn of B. -/
theorem TwoHosts.threw_B_iff (hc : dut.Conforms abs) {sys : RsvSys σ} (hsys : TwoHosts none abs sys)
    (hthrew : sys.threw .B = false) :
    (sys.step dut .B).threw .B = false ↔ (Accesses (sys.pc .B) → Held (sys.pc .A)) := by
  obtain ⟨r, ok, hr, hp, -, hthrew'⟩ := RsvSys.step_turn hc hthrew
  have hok := (hsys.b.own hr hp).2
  rw [hthrew', Function.update_self, Bool.not_eq_false', hok]
  unfold Accesses
  split
  next h5 => simp [h5, allows_iff hsys.a hsys.b (by omega : 2 ≤ sys.pc .B % 7)]
  next h5 =>
    split
    next h6 => simp [h6, allows_iff hsys.a hsys.b (by omega : 2 ≤ sys.pc .B % 7)]
    next h6 => simp [h5, h6]

/-- **The orders in which the tests of B pass**, on a namespace without a reservation: at each access of B, A has the
reservation. -/
theorem hostB_passes_iff (hc : dut.Conforms abs) (hfree : (abs s).holder = none) (hs : List Host) :
    (afterTurns dut s hs).threw .B = false ↔
      ∀ pre, pre ++ [.B] <+: hs → Accesses (pre.count .B) → Held (pre.count .A) := by
  have hreg : (abs s).Registered := fun id rtype h => absurd (hfree.symm.trans h) (by simp)
  have hinv (hs : List Host) : TwoHosts none abs (afterTurns dut s hs) :=
    hfree ▸ twoHosts_afterTurns hc hreg (fun id rtype h => absurd (hfree.symm.trans h) (by simp)) hs
  induction hs using List.reverseRecOn with
  | nil =>
    refine iff_of_true rfl fun pre hpre => ?_
    simp at hpre
  | append_singleton hs h ih =>
    rw [afterTurns_concat]
    cases h with
    | A =>
      rw [RsvSys.threw_step (by decide)]
      refine ih.trans (forall_congr' fun pre => imp_congr_left ?_)
      rw [List.prefix_concat_iff]
      simp
    | B =>
      have hpre (pre : List Host) : pre ++ [.B] <+: hs ++ [.B] ↔ pre = hs ∨ pre ++ [.B] <+: hs := by
        rw [List.prefix_concat_iff]
        simp
      simp only [hpre, or_imp, forall_and, forall_eq]
      refine Iff.trans ?_ (and_congr_right' ih)
      cases hthrew : (afterTurns dut s hs).threw .B with
      | true =>
        refine iff_of_false (fun h => ?_) (by simp)
        rw [RsvSys.threw_mono h] at hthrew
        cases hthrew
      | false =>
        rw [(hinv hs).threw_B_iff hc hthrew, pc_afterTurns hc hthrew, pc_afterTurns hc (hinv hs).calm]
        simp

/-- B comes when A has acquired. -/
theorem hostB_passes_late :
    (afterTurns RsvDut.reference .empty (List.replicate 11 .A ++ List.replicate 7 .B)).threw .B = false := by
  refine (hostB_passes_iff RsvDut.reference_conforms rfl _).2 fun pre hpre => ?_
  have hall : ∀ x ∈ (List.replicate 11 Host.A ++ List.replicate 7 Host.B).inits,
      Accesses (x.dropLast.count .B) → Held (x.dropLast.count .A) := by decide
  have h := hall _ ((List.mem_inits _ _).2 hpre)
  rwa [List.dropLast_concat] at h

end Runs

end Tnvme
