import Tnvme.Lib.Numerals
import Tnvme.Sched.Group

/-!
# The options `--test` and `--detail`

An option names a group, or a test of a group as `<grp>:<x>.<y>.<z>`. `strtol` takes the numbers off the text, one
behind the other, and has to reach what separates them. So it takes numbers that are no plain ones, and a missing number
for 0. A text with a colon is looked at in a copy that has been destroyed.

* A text is accepted if `strtol` takes its parts whole (`parseTargetCmdLine_ok`), and the copy was a short one.
* What is accepted is a target exactly if it is so short, and none of the parts is lax or too large; a target that is
  printed is accepted as what it is if it is so short (`targetExact_iff`).
-/

namespace Tnvme

open Numerals Sched

structure TestTarget where
  req : Bool
  t : TestRef
  deriving DecidableEq, Repr

/-- A number up to `stop`, at which `*endptr` is looked at; `none` is the end of the text. -/
def parseLevel (swork : List Char) (stop : Option Char) : Option Nat :=
  if (strtoulRest 10 swork).head? ≠ stop then none
  else if strtol 10 swork < 0 then none
  else some (strtol 10 swork).toNat

/-- What is taken from a text, as long as it can be read. -/
def parseRef (optarg : List Char) : Option TestRef :=
  if ':' ∉ optarg then do
    let group ← parseLevel optarg none
    return ⟨group, uintMax, uintMax, uintMax⟩
  else do
    let group ← parseLevel optarg (some ':')
    let swork := after ':' optarg
    if swork.length = 0 then none
    else
      let xLev ← parseLevel swork (some '.')
      let swork := after '.' swork
      if swork.length = 0 then none
      else
        let yLev ← parseLevel swork (some '.')
        let swork := after '.' swork
        if swork.length = 0 then none
        else
          let zLev ← parseLevel swork none
          return ⟨group, xLev, yLev, zLev⟩

/-- The levels are all given, or none is. -/
def Checked (t : TestRef) : Prop :=
  t.group ≠ uintMax ∧
    (t.xLev = uintMax ∧ t.yLev = uintMax ∧ t.zLev = uintMax ∨
      t.xLev ≠ uintMax ∧ t.yLev ≠ uintMax ∧ t.zLev ≠ uintMax)

instance (t : TestRef) : Decidable (Checked t) := inferInstanceAs (Decidable (_ ∧ _))

def checkRef (t : TestRef) : Option TestTarget := if Checked t then some ⟨true, t⟩ else none

/-- `optarg` is `none` if the option has no argument. A group alone is looked at where it is, and the parts of a test in
copies, of which the first one is the longest. -/
def parseTargetCmdLine : Option (List Char) → Except TextFault TestTarget
  | none => .ok ⟨true, ⟨uintMax, uintMax, uintMax, uintMax⟩⟩
  | some optarg =>
    if ':' ∉ optarg then orRejected ((parseRef optarg).bind checkRef)
    else readCopy optarg ((parseRef optarg).bind checkRef)

/-- What an option is taken for. If freed memory is read this may be any target, or none. -/
def takenFor (freed : List Char → Option TestRef) (optarg : Option (List Char)) : Option TestTarget :=
  match parseTargetCmdLine optarg with
  | .ok target => some target
  | .error .rejected => none
  | .error .freed => (freed (optarg.getD [])).map (⟨true, ·⟩)

/-! ## What a text denotes -/

/-- A number in digits, which does not mean "all". -/
structure Number (part : List Char) (n : Nat) : Prop where
  plain : Plain 10 part
  value : ofDigits 10 part = n
  small : n < uintMax

inductive Denotes : List Char → TestRef → Prop
  | group {g : List Char} {group : Nat} : Number g group → Denotes g ⟨group, uintMax, uintMax, uintMax⟩
  | test {g x y z : List Char} {group xLev yLev zLev : Nat} :
      Number g group → Number x xLev → Number y yLev → Number z zLev →
      Denotes (g ++ ':' :: (x ++ '.' :: (y ++ '.' :: z))) ⟨group, xLev, yLev, zLev⟩

/-- The text is accepted exactly if it denotes a target, and as this target; and no freed memory is read. -/
structure TargetExact (optarg : List Char) : Prop where
  defined : parseTargetCmdLine (some optarg) ≠ .error .freed
  accepted : ∀ target, parseTargetCmdLine (some optarg) = .ok target ↔ ∃ t, Denotes optarg t ∧ target = ⟨true, t⟩

/-- A test is short enough to be read in a copy that is gone. -/
def Short (optarg : List Char) : Prop := ':' ∈ optarg → optarg.length ≤ inlineCapacity

instance (optarg : List Char) : Decidable (Short optarg) := inferInstanceAs (Decidable (_ → _))

/-! ## What is accepted -/

/-- A number that `strtol` takes from a part, and the part is taken whole. -/
structure Reads (part : List Char) (n : Nat) : Prop where
  whole : strtoulRest 10 part = []
  nonneg : 0 ≤ strtol 10 part
  value : (strtol 10 part).toNat = n

inductive Takes : List Char → TestRef → Prop
  | group {g : List Char} {group : Nat} : Reads g group → Takes g ⟨group, uintMax, uintMax, uintMax⟩
  | test {g x y z : List Char} {group xLev yLev zLev : Nat} :
      Reads g group → Reads x xLev → Reads y yLev → Reads z zLev → z ≠ [] →
      Takes (g ++ ':' :: (x ++ '.' :: (y ++ '.' :: z))) ⟨group, xLev, yLev, zLev⟩

/-- A part that is no number, or too large a one. -/
def Loose (part : List Char) (n : Nat) : Prop := Lax part ∨ uintMax ≤ n

/-- Parts that are taken and pass the checks, and one of them is loose. -/
inductive Sloppy : List Char → Prop
  | group {g : List Char} {group : Nat} : Reads g group → group ≠ uintMax → Loose g group → Sloppy g
  | test {g x y z : List Char} {group xLev yLev zLev : Nat} :
      Reads g group → Reads x xLev → Reads y yLev → Reads z zLev → z ≠ [] → Checked ⟨group, xLev, yLev, zLev⟩ →
      (Loose g group ∨ Loose x xLev ∨ Loose y yLev ∨ Loose z zLev) →
      Sloppy (g ++ ':' :: (x ++ '.' :: (y ++ '.' :: z)))

variable {part optarg : List Char} {n : Nat} {sep : Char}

theorem separator_colon : Separator 10 ':' :=
  ⟨⟨by decide, by decide, ⟨by decide, by decide⟩, by decide, by decide⟩, by decide⟩

theorem separator_dot : Separator 10 '.' :=
  ⟨⟨by decide, by decide, ⟨by decide, by decide⟩, by decide, by decide⟩, by decide⟩

theorem Reads.not_mem (h : Reads part n) (hsep : Separator 10 sep) : sep ∉ part := not_mem_of_whole hsep h.whole

theorem parseLevel_eq (swork : List Char) (stop : Option Char) : parseLevel swork stop = some n ↔
    (strtoulRest 10 swork).head? = stop ∧ 0 ≤ strtol 10 swork ∧ (strtol 10 swork).toNat = n := by
  rw [parseLevel, Option.ite_none_left_eq_some, Option.ite_none_left_eq_some, not_not, Int.not_lt, Option.some_inj]

theorem reads_iff : Reads part n ↔ strtoulRest 10 part = [] ∧ 0 ≤ strtol 10 part ∧ (strtol 10 part).toNat = n :=
  ⟨fun h => ⟨h.whole, h.nonneg, h.value⟩, fun ⟨hwhole, hnonneg, hvalue⟩ => ⟨hwhole, hnonneg, hvalue⟩⟩

/-- Up to the end a number is the whole text. -/
theorem parseLevel_none : parseLevel part none = some n ↔ Reads part n := by
  rw [parseLevel_eq, List.head?_eq_none_iff, reads_iff]

/-- Up to a separator it is all that stands before. -/
theorem parseLevel_separator (hsep : Separator 10 sep) {swork : List Char} : parseLevel swork (some sep) = some n ↔
    ∃ part rest, swork = part ++ sep :: rest ∧ Reads part n := by
  simp only [parseLevel_eq, reads_iff]
  exact head_separator hsep (strtol_separator hsep) fun value => 0 ≤ value ∧ value.toNat = n

theorem parseRef_takes {t : TestRef} (h : parseRef optarg = some t) : Takes optarg t := by
  unfold parseRef at h
  split at h
  · obtain ⟨group, hlevel, h⟩ := Option.bind_eq_some_iff.1 h
    cases h
    exact .group (parseLevel_none.1 hlevel)
  · obtain ⟨group, hlevel, h⟩ := Option.bind_eq_some_iff.1 h
    obtain ⟨g, rest, rfl, hg⟩ := (parseLevel_separator separator_colon).1 hlevel
    rw [after_append (hg.not_mem separator_colon)] at h
    obtain ⟨-, h⟩ := Option.ite_none_left_eq_some.1 h
    obtain ⟨xLev, hlevel, h⟩ := Option.bind_eq_some_iff.1 h
    obtain ⟨x, rest, rfl, hx⟩ := (parseLevel_separator separator_dot).1 hlevel
    rw [after_append (hx.not_mem separator_dot)] at h
    obtain ⟨-, h⟩ := Option.ite_none_left_eq_some.1 h
    obtain ⟨yLev, hlevel, h⟩ := Option.bind_eq_some_iff.1 h
    obtain ⟨y, z, rfl, hy⟩ := (parseLevel_separator separator_dot).1 hlevel
    rw [after_append (hy.not_mem separator_dot)] at h
    obtain ⟨hlen, h⟩ := Option.ite_none_left_eq_some.1 h
    obtain ⟨zLev, hlevel, h⟩ := Option.bind_eq_some_iff.1 h
    cases h
    exact .test hg hx hy (parseLevel_none.1 hlevel) fun hnil => hlen (by rw [hnil]; rfl)

theorem parseRef_of_takes {t : TestRef} (h : Takes optarg t) : parseRef optarg = some t := by
  cases h with
  | group hg =>
    rw [parseRef, if_pos (hg.not_mem separator_colon), parseLevel_none.2 hg]
    rfl
  | @test g x y z group xLev yLev zLev hg hx hy hzLev hz =>
    have hcolon : ¬(':' ∉ g ++ ':' :: (x ++ '.' :: (y ++ '.' :: z))) :=
      not_not.2 (List.mem_append_right _ List.mem_cons_self)
    have hgroup := (parseLevel_separator separator_colon).2 ⟨g, x ++ '.' :: (y ++ '.' :: z), rfl, hg⟩
    have hxLev := (parseLevel_separator separator_dot).2 ⟨x, y ++ '.' :: z, rfl, hx⟩
    have hyLev := (parseLevel_separator separator_dot).2 ⟨y, z, rfl, hy⟩
    have hlen (a b : List Char) : ¬(a ++ '.' :: b).length = 0 := by simp
    have hafter := after_append (hg.not_mem separator_colon) (x ++ '.' :: (y ++ '.' :: z))
    have hafterx := after_append (hx.not_mem separator_dot) (y ++ '.' :: z)
    have haftery := after_append (hy.not_mem separator_dot) z
    rw [parseRef, if_neg hcolon, hgroup]
    simp only [Option.bind_eq_bind, Option.bind_some, hafter, hafterx, haftery, if_neg (hlen _ _), hxLev, hyLev,
      parseLevel_none.2 hzLev, if_neg (fun h => hz (List.length_eq_zero_iff.1 h))]
    rfl

theorem bind_checkRef {target : TestTarget} : (parseRef optarg).bind checkRef = some target ↔
    ∃ t, (Takes optarg t ∧ Checked t) ∧ target = ⟨true, t⟩ := by
  constructor
  · intro h
    obtain ⟨t, ht, h⟩ := Option.bind_eq_some_iff.1 h
    obtain ⟨hchecked, h⟩ := Option.ite_none_right_eq_some.1 h
    exact ⟨t, ⟨parseRef_takes ht, hchecked⟩, (Option.some.inj h).symm⟩
  · rintro ⟨t, ⟨ht, hchecked⟩, rfl⟩
    rw [parseRef_of_takes ht]
    exact if_pos hchecked

/-- **A text is accepted if it is short, `strtol` takes its parts whole and the levels pass the check.** -/
theorem parseTargetCmdLine_ok {target : TestTarget} : parseTargetCmdLine (some optarg) = .ok target ↔
    Short optarg ∧ ∃ t, (Takes optarg t ∧ Checked t) ∧ target = ⟨true, t⟩ := by
  rw [parseTargetCmdLine, ← bind_checkRef, Short]
  split
  · rename_i hcolon
    rw [orRejected_eq_ok, and_iff_right fun h => absurd h hcolon]
  · rename_i hcolon
    rw [readCopy_eq_ok, forall_prop_of_true (not_not.1 hcolon)]

/-- Freed memory is read exactly if a test is not short. -/
theorem parseTargetCmdLine_freed : parseTargetCmdLine (some optarg) = .error .freed ↔ ¬Short optarg := by
  rw [parseTargetCmdLine, Short]
  split
  · rename_i hcolon
    exact iff_of_false (orRejected_ne_freed _) (not_not.2 fun h => absurd h hcolon)
  · rename_i hcolon
    rw [readCopy_eq_freed, forall_prop_of_true (not_not.1 hcolon), Nat.not_le]

/-! ## Accepted texts and targets -/

theorem dropPrefix_ten (text : List Char) : dropPrefix 10 text = text := by
  unfold dropPrefix
  split
  · exact if_neg fun h => absurd h.1 (by decide)
  · rfl

/-- **A number is what is taken and not loose.** -/
theorem number_iff : Number part n ↔ Reads part n ∧ ¬Loose part n := by
  constructor
  · rintro ⟨hplain, hvalue, hsmall⟩
    obtain ⟨hwhole, hlax⟩ := plain_iff.1 hplain
    have hstrtol : strtol 10 part = n := by
      have hmax : n < 4294967295 := hsmall
      rw [strtol, hplain.signed_eq, dropPrefix_ten, hvalue]
      omega
    refine ⟨⟨hwhole, by omega, by omega⟩, fun h => h.elim hlax fun hle => ?_⟩
    exact absurd hsmall (Nat.not_lt.2 hle)
  · rintro ⟨⟨hwhole, hnonneg, hvalue⟩, hloose⟩
    obtain ⟨hlax, hsmall⟩ := not_or.1 hloose
    have hplain := plain_iff.2 ⟨hwhole, hlax⟩
    have hmax : n < 4294967295 := Nat.lt_of_not_le hsmall
    refine ⟨hplain, ?_, Nat.lt_of_not_le hsmall⟩
    rw [strtol, hplain.signed_eq, dropPrefix_ten] at hvalue
    omega

theorem Number.reads (h : Number part n) : Reads part n := (number_iff.1 h).1

theorem Number.not_loose (h : Number part n) : ¬Loose part n := (number_iff.1 h).2

theorem Number.ne_uintMax (h : Number part n) : n ≠ uintMax := h.small.ne

theorem Number.ne_nil (h : Number part n) : part ≠ [] := dropPrefix_ten part ▸ h.plain.1

/-- A text that denotes a target is accepted. -/
theorem Denotes.takes {t : TestRef} (h : Denotes optarg t) : Takes optarg t ∧ Checked t := by
  cases h with
  | group hg => exact ⟨.group hg.reads, hg.ne_uintMax, .inl ⟨rfl, rfl, rfl⟩⟩
  | test hg hx hy hz =>
    exact ⟨.test hg.reads hx.reads hy.reads hz.reads hz.ne_nil, hg.ne_uintMax,
      .inr ⟨hx.ne_uintMax, hy.ne_uintMax, hz.ne_uintMax⟩⟩

/-- What is accepted and is not sloppy denotes the target. -/
theorem Takes.denotes {t : TestRef} (h : Takes optarg t) (hchecked : Checked t) (hnot : ¬Sloppy optarg) :
    Denotes optarg t := by
  cases h with
  | group hg => exact .group (number_iff.2 ⟨hg, fun hloose => hnot (.group hg hchecked.1 hloose)⟩)
  | test hg hx hy hzLev hz =>
    have hloose := fun h => hnot (.test hg hx hy hzLev hz hchecked h)
    obtain ⟨hg', hloose⟩ := not_or.1 hloose
    obtain ⟨hx', hloose⟩ := not_or.1 hloose
    obtain ⟨hy', hz'⟩ := not_or.1 hloose
    exact .test (number_iff.2 ⟨hg, hg'⟩) (number_iff.2 ⟨hx, hx'⟩) (number_iff.2 ⟨hy, hy'⟩) (number_iff.2 ⟨hzLev, hz'⟩)

/-- A sloppy text is accepted. -/
theorem Sloppy.takes (h : Sloppy optarg) : ∃ t, Takes optarg t ∧ Checked t := by
  cases h with
  | group hg hmax _ => exact ⟨_, .group hg, hmax, .inl ⟨rfl, rfl, rfl⟩⟩
  | test hg hx hy hzLev hz hchecked _ => exact ⟨_, .test hg hx hy hzLev hz, hchecked⟩

theorem Reads.unique {m : Nat} (h : Reads part n) (h' : Reads part m) : n = m := h.value.symm.trans h'.value

/-- A sloppy text denotes nothing, as its parts are determined. -/
theorem Sloppy.not_denotes (h : Sloppy optarg) (t : TestRef) : ¬Denotes optarg t := by
  intro hdenotes
  cases h with
  | group hg _ hloose =>
    cases hdenotes with
    | group hn => exact hn.not_loose (hg.unique hn.reads ▸ hloose)
    | test => exact hg.not_mem separator_colon (List.mem_append_right _ List.mem_cons_self)
  | test hg hx hy hzLev hz _ hloose =>
    generalize heq : _ ++ ':' :: _ = text at hdenotes
    cases hdenotes with
    | group hn =>
      refine hn.reads.not_mem separator_colon ?_
      rw [← heq]
      exact List.mem_append_right _ List.mem_cons_self
    | test ng nx ny nz =>
      obtain ⟨rfl, hlevels⟩ :=
        append_separator_inj (hg.not_mem separator_colon) (ng.reads.not_mem separator_colon) heq
      obtain ⟨rfl, hyz⟩ := append_separator_inj (hx.not_mem separator_dot) (nx.reads.not_mem separator_dot) hlevels
      obtain ⟨rfl, rfl⟩ := append_separator_inj (hy.not_mem separator_dot) (ny.reads.not_mem separator_dot) hyz
      rcases hloose with hloose | hloose | hloose | hloose
      · exact ng.not_loose (hg.unique ng.reads ▸ hloose)
      · exact nx.not_loose (hx.unique nx.reads ▸ hloose)
      · exact ny.not_loose (hy.unique ny.reads ▸ hloose)
      · exact nz.not_loose (hzLev.unique nz.reads ▸ hloose)

/-! ## Printed targets -/

/-- `%ld` -/
def printLevel (n : Nat) : List Char := Nat.toDigits 10 n

def printTarget (t : TestRef) : List Char :=
  if t.xLev = uintMax then printLevel t.group
  else printLevel t.group ++ ':' :: (printLevel t.xLev ++ '.' :: (printLevel t.yLev ++ '.' :: printLevel t.zLev))

/-- A group, or a test of a group. -/
def IsTarget (t : TestRef) : Prop :=
  t.group < uintMax ∧
    (t.xLev = uintMax ∧ t.yLev = uintMax ∧ t.zLev = uintMax ∨ t.xLev < uintMax ∧ t.yLev < uintMax ∧ t.zLev < uintMax)

theorem number_printLevel (h : n < uintMax) : Number (printLevel n) n := by
  obtain ⟨hplain, hvalue⟩ := plain_toDigits (by decide : 1 < 10) (by decide) n
  exact ⟨hplain, by rwa [dropPrefix_ten] at hvalue, h⟩

theorem denotes_printTarget {t : TestRef} (h : IsTarget t) : Denotes (printTarget t) t := by
  obtain ⟨group, xLev, yLev, zLev⟩ := t
  obtain ⟨hg, ⟨hx, hy, hz⟩ | ⟨hx, hy, hz⟩⟩ := h
  · dsimp only at hg hx hy hz
    subst hx hy hz
    rw [printTarget, if_pos rfl]
    exact .group (number_printLevel hg)
  · rw [printTarget, if_neg hx.ne]
    exact .test (number_printLevel hg) (number_printLevel hx) (number_printLevel hy) (number_printLevel hz)

/-- A group has no colon, however many digits it has. -/
theorem short_printTarget {t : TestRef} : Short (printTarget t) ↔
    t.xLev = uintMax ∨ (printTarget t).length ≤ inlineCapacity := by
  by_cases hx : t.xLev = uintMax
  · have hnot : ':' ∉ printTarget t := by
      rw [printTarget, if_pos hx]
      exact not_mem_of_whole separator_colon (plain_iff.1 (plain_toDigits (by decide) (by decide) _).1).1
    exact iff_of_true (fun h => absurd h hnot) (.inl hx)
  · have hcolon : ':' ∈ printTarget t := by
      rw [printTarget, if_neg hx]
      exact List.mem_append_right _ List.mem_cons_self
    rw [Short, forall_prop_of_true hcolon, or_iff_right hx]

/-- **A text is parsed right exactly if it is short and not sloppy; and a target that is printed is parsed as what it is
exactly if it is a group, or short.** -/
theorem targetExact_iff (optarg : List Char) (t : TestRef) : (TargetExact optarg ↔ Short optarg ∧ ¬Sloppy optarg) ∧
    (IsTarget t → (parseTargetCmdLine (some (printTarget t)) = .ok ⟨true, t⟩ ↔
      t.xLev = uintMax ∨ (printTarget t).length ≤ inlineCapacity)) := by
  refine ⟨⟨fun hexact => ?_, fun ⟨hshort, hnot⟩ => ⟨?_, fun target => ?_⟩⟩, fun ht => ?_⟩
  · have hshort : Short optarg := not_not.1 fun hlong => hexact.defined (parseTargetCmdLine_freed.2 hlong)
    refine ⟨hshort, fun hsloppy => ?_⟩
    obtain ⟨t, ht⟩ := hsloppy.takes
    obtain ⟨t', ht', -⟩ := (hexact.accepted ⟨true, t⟩).1 (parseTargetCmdLine_ok.2 ⟨hshort, t, ht, rfl⟩)
    exact hsloppy.not_denotes t' ht'
  · exact fun hfreed => parseTargetCmdLine_freed.1 hfreed hshort
  · rw [parseTargetCmdLine_ok]
    constructor
    · rintro ⟨-, t, ⟨ht, hchecked⟩, rfl⟩
      exact ⟨t, ht.denotes hchecked hnot, rfl⟩
    · rintro ⟨t, ht, rfl⟩
      exact ⟨hshort, t, ht.takes, rfl⟩
  · rw [parseTargetCmdLine_ok, ← short_printTarget]
    exact and_iff_left ⟨t, (denotes_printTarget ht).takes, rfl⟩

/-- A target that is printed as `1:0.2.0`. -/
theorem targetExact_one : parseTargetCmdLine (some (printTarget ⟨1, 0, 2, 0⟩)) = .ok ⟨true, ⟨1, 0, 2, 0⟩⟩ ↔
    (0 = uintMax ∨ (printTarget ⟨1, 0, 2, 0⟩).length ≤ inlineCapacity) :=
  (targetExact_iff [] ⟨1, 0, 2, 0⟩).2 ⟨by decide, by decide⟩

/-- A missing group is the group 0. -/
theorem target_not_exact : ¬∀ optarg, TargetExact optarg := by
  intro h
  have hparse : parseTargetCmdLine (some ":1.2.3".toList) = .ok ⟨true, ⟨0, 1, 2, 3⟩⟩ := by decide
  have hsloppy : Sloppy ([] ++ ':' :: ("1".toList ++ '.' :: ("2".toList ++ '.' :: "3".toList))) :=
    .test ⟨rfl, by decide, rfl⟩ ⟨rfl, by decide, rfl⟩ ⟨rfl, by decide, rfl⟩ ⟨rfl, by decide, rfl⟩ (by decide)
      (by decide) (.inl (.inl rfl))
  obtain ⟨t, ht, -⟩ := ((h _).accepted _).1 hparse
  exact hsloppy.not_denotes t ht

end Tnvme
