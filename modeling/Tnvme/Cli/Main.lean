import Tnvme.Cli.FwImage
import Tnvme.Cli.Queues
import Tnvme.Cli.SkipTest
import Tnvme.Lib.Commuting
import Tnvme.Regs.Access
import Tnvme.Sched.Foundation
import Tnvme.Xml.GoldenRounds

/-!
# `main`

The options of the command line are worked off one after the other, into the record `gCmdLine`. Then the test foundation
is built, and unless `--summary` or `--detail` has been given, the singletons are. At last one of nine actions is
carried out, the first one in a fixed order that has been asked for.
-/

namespace Tnvme

open Numerals Sched

namespace Main

/-- What `getopt_long` returns, with `optarg`. -/
inductive Opt where
  | rev (optarg : String)
  | detail (optarg : Option String)
  | test (optarg : Option String)
  | skiptest (optarg : String)
  | golden (optarg : String)
  | fwimage (optarg : String)
  | format (optarg : String)
  | rmmap (optarg : String)
  | wmmap (optarg : String)
  | error (optarg : String)
  | device (optarg : String)
  | loop (optarg : String)
  | list
  | queues (optarg : String)
  | summary
  | dump (optarg : String)
  | help
  /-- `'?'` -/
  | unknown
  | reset
  | ignore
  | preserve
  | postfail
  | rsvdfields
  | setad
  | restore
  deriving DecidableEq, Repr

structure CmdLine where
  summary : Bool
  ignore : Bool
  reset : Bool
  restore : Bool
  postfail : Bool
  rsvdfields : Bool
  preserve : Bool
  setAD : Bool
  loop : Nat
  rev : SpecRev
  detail : TestTarget
  test : TestTarget
  device : String
  skiptest : List TestRef
  format : Format
  golden : Golden
  fwImage : FWImage
  /-- `none` if it has not been asked for. -/
  rmmap : Option RmmapIo
  wmmap : Option WmmapIo
  numQueues : NumQueues
  errRegs : ErrorRegs
  dump : String

/-- What the options refer to: the devices that have been found, and the files by their names. A file is `none` if it
cannot be opened. -/
structure System where
  /-- What is taken for a target that is read after it has been freed. -/
  freed : List Char → Option TestRef
  devices : List String
  skipFile : String → Option SkipFile
  document : List Char → Option XmlFile
  image : String → Option ImageFile

/-- The variables of `main` while the options are worked off. -/
structure ParseSt where
  cl : CmdLine
  deviceFound : Bool
  accessingHdw : Bool

def stsErrors : BitVec 16 := 0x4000 ||| 0x0800 ||| 0x2000 ||| 0x1000

def pxdsErrors : BitVec 16 := 0x0040 ||| 0x0004

/-- A global has zeros where `main` assigns nothing. -/
def CmdLine.defaults (sys : System) : CmdLine where
  summary := false
  ignore := false
  reset := false
  restore := false
  postfail := false
  rsvdfields := false
  preserve := false
  setAD := false
  loop := 1
  rev := .rev10b
  detail := ⟨false, ⟨0, 0, 0, 0⟩⟩
  test := ⟨false, ⟨0, 0, 0, 0⟩⟩
  device := sys.devices.head?.getD Foundation.noDevices
  skiptest := []
  format := ⟨false, []⟩
  golden := ⟨false, [], []⟩
  fwImage := ⟨false, []⟩
  rmmap := none
  wmmap := none
  numQueues := ⟨false, 0, 0⟩
  errRegs := ⟨stsErrors, pxdsErrors, 0, 0x00000002⟩
  dump := "./Logs"

def ParseSt.start (sys : System) : ParseSt := ⟨CmdLine.defaults sys, false, true⟩

/-- A revision that is not known changes nothing. -/
def parseRev (rev : SpecRev) : String → SpecRev
  | "1.0" | "1.0a" | "1.0b" => .rev10b
  | "1.1" | "1.1b" => .rev11
  | "1.2" => .rev12
  | "1.2.1" | "121" | "1.21" => .rev121
  | "1.3" | "13" => .rev13
  | _ => rev

def parseLoop (optarg : List Char) : Option Nat :=
  if strtoulRest 10 optarg ≠ [] then none
  else if strtol 10 optarg ≤ 0 then none
  else some (strtol 10 optarg).toNat

/-- What a parser returns; if it fails the program is left with 1. -/
def orExit {α β : Type} (r : Option α) (k : α → β) : Except Nat β := r.elim (.error 1) (.ok ∘ k)

/-- A turn of the loop around `getopt_long`; the error is the exit status. -/
def parseOpt (sys : System) (s : ParseSt) : Opt → Except Nat ParseSt
  | .rev optarg => .ok { s with cl.rev := parseRev s.cl.rev optarg }
  | .detail optarg =>
    orExit (takenFor sys.freed (optarg.map String.toList)) fun t => { s with cl.detail := t, accessingHdw := false }
  | .test optarg => orExit (takenFor sys.freed (optarg.map String.toList)) fun t => { s with cl.test := t }
  | .skiptest optarg =>
    orExit (parseSkipTestCmdLine sys.freed s.cl.skiptest (sys.skipFile optarg)) fun trs => { s with cl.skiptest := trs }
  | .golden optarg =>
    orExit (some (parseGoldenCmdLine sys.document s.cl.golden optarg.toList) |>.filter (·.2.isOk)) fun g =>
      { s with cl.golden := g.1 }
  | .fwimage optarg =>
    orExit (some (parseFWImageCmdLine s.cl.fwImage (sys.image optarg)) |>.filter (·.1)) fun fw =>
      { s with cl.fwImage := fw.2 }
  | .format optarg =>
    orExit ((sys.document optarg.toList).map (parseFormatCmdLine s.cl.format) |>.filter (·.2)) fun f =>
      { s with cl.format := f.1 }
  | .rmmap optarg => orExit (parseRmmapCmdLine optarg.toList) fun io => { s with cl.rmmap := some io }
  | .wmmap optarg => orExit (parseWmmapCmdLine optarg.toList) fun io => { s with cl.wmmap := some io }
  | .error optarg => orExit (parseErrorCmdLine optarg.toList).toOption fun regs => { s with cl.errRegs := regs }
  | .device optarg =>
    -- `deviceFound` is not cleared for a second option
    if optarg ∈ sys.devices then .ok { s with cl.device := optarg, deviceFound := true }
    else if s.deviceFound then .ok s
    else .error 1
  | .loop optarg => orExit (parseLoop optarg.toList) fun n => { s with cl.loop := n }
  | .list => .error 0
  | .queues optarg => orExit (parseQueuesCmdLine optarg.toList).toOption fun q => { s with cl.numQueues := q }
  | .summary => .ok { s with cl.summary := true, accessingHdw := false }
  | .dump optarg => .ok { s with cl.dump := optarg }
  | .help => .error 0
  | .unknown => .error 1
  | .reset => .ok { s with cl.reset := true }
  | .ignore => .ok { s with cl.ignore := true }
  | .preserve => .ok { s with cl.preserve := true }
  | .postfail => .ok { s with cl.postfail := true }
  | .rsvdfields => .ok { s with cl.rsvdfields := true }
  | .setad => .ok { s with cl.setAD := true }
  | .restore => .ok { s with cl.restore := true }

/-- The options one behind the other, up to one with which the program is left. -/
def parseOpts (sys : System) (s : ParseSt) (opts : List Opt) : Except Nat ParseSt := opts.foldlM (parseOpt sys) s

/-! ## Settings

Each option has a setting of its own. The state is what the settings say, and an option changes its own one. -/

/-- The options without their arguments. -/
inductive Letter where
  | rev | detail | test | skiptest | golden | fwimage | format | rmmap | wmmap | error | device | loop | list | queues
  | summary | dump | help | unknown | reset | ignore | preserve | postfail | rsvdfields | setad | restore
  deriving DecidableEq, Repr

def Opt.letter : Opt → Letter
  | .rev _ => .rev
  | .detail _ => .detail
  | .test _ => .test
  | .skiptest _ => .skiptest
  | .golden _ => .golden
  | .fwimage _ => .fwimage
  | .format _ => .format
  | .rmmap _ => .rmmap
  | .wmmap _ => .wmmap
  | .error _ => .error
  | .device _ => .device
  | .loop _ => .loop
  | .list => .list
  | .queues _ => .queues
  | .summary => .summary
  | .dump _ => .dump
  | .help => .help
  | .unknown => .unknown
  | .reset => .reset
  | .ignore => .ignore
  | .preserve => .preserve
  | .postfail => .postfail
  | .rsvdfields => .rsvdfields
  | .setad => .setad
  | .restore => .restore

abbrev Setting : Letter → Type
  | .rev => SpecRev
  | .detail | .test => TestTarget
  | .skiptest => List TestRef
  | .golden => Golden
  | .fwimage => FWImage
  | .format => Format
  | .rmmap => Option RmmapIo
  | .wmmap => Option WmmapIo
  | .error => ErrorRegs
  | .device => String × Bool
  | .loop => Nat
  | .queues => NumQueues
  | .dump => String
  | .list | .help | .unknown => Unit
  | .summary | .reset | .ignore | .preserve | .postfail | .rsvdfields | .setad | .restore => Bool

/-- What an option does to its setting, `none` if the program is left. -/
def own (sys : System) : (o : Opt) → Setting o.letter → Option (Setting o.letter)
  | .rev optarg, rev => some (parseRev rev optarg)
  | .detail optarg, _ | .test optarg, _ => takenFor sys.freed (optarg.map String.toList)
  | .skiptest optarg, trs => parseSkipTestCmdLine sys.freed trs (sys.skipFile optarg)
  | .golden optarg, (g : Golden) =>
    (some (parseGoldenCmdLine sys.document g optarg.toList) |>.filter (·.2.isOk)).map (·.1)
  | .fwimage optarg, (fw : FWImage) => (some (parseFWImageCmdLine fw (sys.image optarg)) |>.filter (·.1)).map (·.2)
  | .format optarg, (f : Format) =>
    ((sys.document optarg.toList).map (parseFormatCmdLine f) |>.filter (·.2)).map (·.1)
  | .rmmap optarg, _ => (parseRmmapCmdLine optarg.toList).map some
  | .wmmap optarg, _ => (parseWmmapCmdLine optarg.toList).map some
  | .error optarg, _ => (parseErrorCmdLine optarg.toList).toOption
  | .device optarg, (device : String × Bool) =>
    if optarg ∈ sys.devices then some (optarg, true) else if device.2 then some device else none
  | .loop optarg, _ => parseLoop optarg.toList
  | .list, _ | .help, _ | .unknown, _ => none
  | .queues optarg, _ => (parseQueuesCmdLine optarg.toList).toOption
  | .dump optarg, _ => some optarg
  | .summary, _ | .reset, _ | .ignore, _ | .preserve, _ | .postfail, _ | .rsvdfields, _ | .setad, _ | .restore, _ =>
    some true

abbrev Settings := (l : Letter) → Setting l

/-- The hardware is accessed unless a description has been asked for. -/
def Settings.state (p : Settings) : ParseSt where
  cl :=
    { summary := p .summary, ignore := p .ignore, reset := p .reset, restore := p .restore, postfail := p .postfail
      rsvdfields := p .rsvdfields, preserve := p .preserve, setAD := p .setad, loop := p .loop, rev := p .rev
      detail := p .detail, test := p .test, device := (p .device).1, skiptest := p .skiptest, format := p .format
      golden := p .golden, fwImage := p .fwimage, rmmap := p .rmmap, wmmap := p .wmmap, numQueues := p .queues
      errRegs := p .error, dump := p .dump }
  deviceFound := (p .device).2
  accessingHdw := !(p .summary || (p .detail : TestTarget).req)

variable {sys : System} {s : ParseSt}

/-- A turn, without the exit status. -/
def turn (sys : System) (s : ParseSt) (o : Opt) : Option ParseSt := (parseOpt sys s o).toOption

theorem toOption_orExit {α β : Type} (r : Option α) (k : α → β) : (orExit r k).toOption = r.map k := by
  cases r <;> rfl

/-- A target has been asked for. -/
theorem takenFor_req {freed : List Char → Option TestRef} {optarg : Option (List Char)} {t : TestTarget}
    (h : takenFor freed optarg = some t) : t.req = true := by
  unfold takenFor at h
  split at h
  · rename_i target hparse
    cases h
    cases optarg with
    | none =>
      cases hparse
      rfl
    | some optarg =>
      obtain ⟨-, t', -, rfl⟩ := parseTargetCmdLine_ok.1 hparse
      rfl
  · cases h
  · obtain ⟨t', -, rfl⟩ := Option.map_eq_some_iff.1 h
    rfl

/-- An option whose argument is parsed. -/
theorem orExit_state {α : Type} {p : Settings} {o : Opt} {r : Option α} {k : α → ParseSt} (g : α → Setting o.letter)
    (hown : own sys o (p o.letter) = r.map g)
    (hk : ∀ x, r = some x → k x = Settings.state (Function.update p o.letter (g x))) :
    (orExit r k).toOption = (Commuting.stepCells (own sys) p o).map Settings.state := by
  rw [toOption_orExit, Commuting.stepCells, hown, Option.map_map, Option.map_map]
  exact Option.map_congr hk

/-- **An option changes its setting.** -/
theorem turn_state (p : Settings) (o : Opt) :
    turn sys p.state o = (Commuting.stepCells (own sys) p o).map Settings.state := by
  cases o with
  | detail optarg =>
    refine orExit_state id Option.map_id'.symm fun t ht => ?_
    -- a description has been asked for
    have hreq : (!(p .summary || t.req)) = false := by
      rw [takenFor_req ht, Bool.or_true, Bool.not_true]
    rw [← hreq]
    rfl
  | device optarg =>
    by_cases hfound : optarg ∈ sys.devices
    · have hown : own sys (.device optarg) (p .device) = some (optarg, true) := if_pos hfound
      have hturn : turn sys p.state (.device optarg) =
          some (Settings.state (Function.update p .device (optarg, true))) := congrArg Except.toOption (if_pos hfound)
      exact hturn.trans (congrArg (Option.map Settings.state ∘ Option.map (Function.update p .device)) hown).symm
    · have hown : own sys (.device optarg) (p .device) = if (p .device).2 then some (p .device) else none :=
        if_neg hfound
      have hturn : turn sys p.state (.device optarg) = if (p .device).2 then some p.state else none := by
        rw [turn, parseOpt, if_neg hfound]
        exact apply_ite Except.toOption _ _ _
      refine hturn.trans (.trans ?_
        (congrArg (Option.map Settings.state ∘ Option.map (Function.update p .device)) hown).symm)
      by_cases hdev : (p .device).2 = true
      · rw [if_pos hdev, if_pos hdev]
        exact congrArg (some ∘ Settings.state) (Function.update_eq_self Letter.device p).symm
      · rw [if_neg hdev, if_neg hdev]
        rfl
  | test optarg | skiptest optarg | error optarg | loop optarg | queues optarg =>
    exact orExit_state id Option.map_id'.symm fun _ _ => rfl
  | golden optarg | fwimage optarg | format optarg | rmmap optarg | wmmap optarg =>
    exact orExit_state _ rfl fun _ _ => rfl
  | _ => rfl

/-- The settings before the first option. -/
def Settings.start (sys : System) : Settings
  | .rev => .rev10b
  | .detail | .test => ⟨false, ⟨0, 0, 0, 0⟩⟩
  | .skiptest => []
  | .golden => ⟨false, [], []⟩
  | .fwimage => ⟨false, []⟩
  | .format => ⟨false, []⟩
  | .rmmap => none
  | .wmmap => none
  | .error => ⟨stsErrors, pxdsErrors, 0, 0x00000002⟩
  | .device => (sys.devices.head?.getD Foundation.noDevices, false)
  | .loop => (1 : Nat)
  | .queues => ⟨false, 0, 0⟩
  | .dump => "./Logs"
  | .list | .help | .unknown => ()
  | .summary | .reset | .ignore | .preserve | .postfail | .rsvdfields | .setad | .restore => false

theorem toOption_parseOpts (sys : System) (s : ParseSt) (opts : List Opt) :
    (parseOpts sys s opts).toOption = Commuting.run (turn sys) s opts := by
  induction opts generalizing s with
  | nil => rfl
  | cons o opts ih =>
    rw [Commuting.run_cons, parseOpts, List.foldlM_cons, turn]
    cases parseOpt sys s o with
    | error status => rfl
    | ok s => exact ih s

/-- What the options leave is what they leave of their settings. -/
theorem parseOpts_eq (sys : System) (opts : List Opt) : (parseOpts sys (.start sys) opts).toOption =
    (Commuting.run (Commuting.stepCells (own sys)) (Settings.start sys) opts).map Settings.state := by
  have hstart : ParseSt.start sys = (Settings.start sys).state := rfl
  rw [toOption_parseOpts, hstart]
  exact Commuting.run_map turn_state _ opts

/-- **The order of different options does not matter.** -/
theorem parseOpts_order {opts opts' : List Opt}
    (h : ∀ l, Commuting.ofKey Opt.letter l opts = Commuting.ofKey Opt.letter l opts') (sys : System) :
    (parseOpts sys (.start sys) opts).toOption = (parseOpts sys (.start sys) opts').toOption := by
  rw [parseOpts_eq, parseOpts_eq, Commuting.run_eq_of_ofKey (Commuting.stepCells_commutes (own sys)) h]

/-- A system with nothing in it. -/
def bare : System := ⟨fun _ => none, [], fun _ => none, fun _ => none, fun _ => none⟩

/-- The last `--test` counts. -/
theorem parseOpts_order_test :
    (parseOpts bare (.start bare) [.test none, .loop "3", .test (some "0")]).toOption =
      (parseOpts bare (.start bare) [.loop "3", .test none, .test (some "0")]).toOption :=
  parseOpts_order (fun l => by cases l <;> rfl) bare

/-! ## What is done -/

inductive Action where
  | golden (golden : Golden)
  | format (format : Format)
  | queues (numQueues : NumQueues)
  | summary
  | detail (t : TestRef)
  | rmmap (rmmap : RmmapIo)
  | wmmap (wmmap : WmmapIo)
  | reset
  | test
  | nothing

/-- The chain of `else if`. -/
def action (cl : CmdLine) : Action :=
  if cl.golden.req then .golden cl.golden
  else if cl.format.req then .format cl.format
  else if cl.numQueues.req then .queues cl.numQueues
  else if cl.summary then .summary
  else if cl.detail.req then .detail cl.detail.t
  else
    match cl.rmmap, cl.wmmap with
    | some rmmap, _ => .rmmap rmmap
    | none, some wmmap => .wmmap wmmap
    | none, none =>
      if cl.reset then .reset
      else if cl.test.req then .test
      else .nothing

/-- What a function answers that carries out an action. -/
inductive Answer where
  | returned (ok : Bool)
  | threw
  deriving DecidableEq, Repr

/-- The rest of the command line: that there is one, and that something else than options is on it. -/
structure Args where
  opts : List Opt
  leftover : Bool

/-- The device and the file system, as they answer. -/
structure Outside where
  devDir : Bool
  openDevice : String → Option Nat
  driverMetrics : Option Nat
  apiVersion : Nat
  setRootDumpDir : String → Bool
  buildSingletons : Bool
  /-- The register PMCS, if it can be read. -/
  pmcs : Option Nat
  answer : CmdLine → Action → Answer

inductive End where
  | exit (status : Nat)
  /-- A method is called of a singleton that does not exist. -/
  | nullSingleton
  deriving DecidableEq, Repr

namespace Action

/-- The first thing that is done calls `gCtrlrConfig` or `gRegisters`. -/
def callsSingleton : Action → Bool
  | summary | detail _ | nothing => false
  | _ => true

/-- What the function returns becomes the exit status. -/
def reports : Action → Bool
  | golden _ | format _ | queues _ | reset | test => true
  | _ => false

end Action

/-- The end of `main`. An exception is caught, and leaves the exit status as it is. -/
def finish (out : Outside) (cl : CmdLine) (singletons : Bool) : End :=
  if (action cl).callsSingleton ∧ singletons = false then .nullSingleton
  else if (action cl).reports ∧ out.answer cl (action cl) = .returned false then .exit 1
  else .exit 0

/-- `BuildTestFoundation` -/
def Outside.foundation (out : Outside) (cl : CmdLine) : Bool :=
  (Foundation.buildTestFoundation Foundation.groupClasses
    ⟨cl.device, out.openDevice cl.device, out.driverMetrics, out.apiVersion⟩ Foundation.start).1

/-- The `try` block. -/
def execute (out : Outside) (s : ParseSt) : End :=
  if out.foundation s.cl = false then .exit 1
  else if s.accessingHdw then
    if out.setRootDumpDir s.cl.dump = false then .exit 1
    else if out.buildSingletons = false then .exit 1
    else if out.pmcs = none then .exit 1
    else finish out s.cl true
  else finish out s.cl false

/-- `args` is `none` if there are no arguments at all. -/
def main (sys : System) (out : Outside) : Option Args → End
  | none => .exit 0
  | some args =>
    if out.devDir = false then .exit 1
    else
      match parseOpts sys (.start sys) args.opts with
      | .error status => .exit status
      | .ok s => if args.leftover then .exit 1 else execute out s

/-! ## Which action it is -/

/-- The options that ask for an action, the one that is looked at first in front. -/
def priority : List Letter := [.golden, .format, .queues, .summary, .detail, .rmmap, .wmmap, .reset, .test]

def Action.letter : Action → Option Letter
  | golden _ => some .golden
  | format _ => some .format
  | queues _ => some .queues
  | summary => some .summary
  | detail _ => some .detail
  | rmmap _ => some .rmmap
  | wmmap _ => some .wmmap
  | reset => some .reset
  | test => some .test
  | nothing => none

/-- Whether an action has been asked for. -/
def asked : (l : Letter) → Setting l → Bool
  | .golden, (g : Golden) => g.req
  | .format, (f : Format) => f.req
  | .queues, (q : NumQueues) => q.req
  | .summary, b | .reset, b => b
  | .detail, (t : TestTarget) | .test, (t : TestTarget) => t.req
  | .rmmap, (io : Option RmmapIo) => io.isSome
  | .wmmap, (io : Option WmmapIo) => io.isSome
  | _, _ => false

theorem find?_ite {α : Type} (f : α → Bool) (a : α) (l : List α) :
    (a :: l).find? f = if f a then some a else l.find? f := by
  rw [List.find?_cons]
  cases f a <;> rfl

theorem find?_congr {α : Type} {f g : α → Bool} {l : List α} (h : ∀ a ∈ l, f a = g a) : l.find? f = l.find? g := by
  induction l with
  | nil => rfl
  | cons a l ih =>
    rw [find?_ite, find?_ite, h a List.mem_cons_self, ih fun b hb => h b (List.mem_cons_of_mem a hb)]

/-- **The first one in the order of `else if` that has been asked for.** -/
theorem action_state (p : Settings) : (action p.state.cl).letter = priority.find? fun l => asked l (p l) := by
  simp only [action, apply_ite Action.letter, priority, find?_ite]
  iterate 5 refine ite_congr rfl (fun _ => rfl) fun _ => ?_
  have hrmmap : asked .rmmap (p .rmmap) = p.state.cl.rmmap.isSome := rfl
  have hwmmap : asked .wmmap (p .wmmap) = p.state.cl.wmmap.isSome := rfl
  rw [hrmmap, hwmmap]
  cases p.state.cl.rmmap with
  | some rmmap => rfl
  | none =>
    cases p.state.cl.wmmap with
    | some wmmap => rfl
    | none => simp only [apply_ite Action.letter, Option.isSome_none, Bool.false_eq_true, if_false]; rfl

theorem parseGoldenCmdLine_req {file : List Char → Option XmlFile} {golden : Golden} {optarg : List Char}
    (h : (parseGoldenCmdLine file golden optarg).2.isOk = true) :
    (parseGoldenCmdLine file golden optarg).1.req = true := by
  unfold parseGoldenCmdLine at h ⊢
  dsimp only at h ⊢
  repeat' split at h
  all_goals first | rfl | cases h

theorem parseFormatCmdLine_req {format : Format} {xmlFile : XmlFile}
    (h : (parseFormatCmdLine format xmlFile).2 = true) : (parseFormatCmdLine format xmlFile).1.req = true := by
  unfold parseFormatCmdLine at h ⊢
  grind

/-- An option that is accepted has asked for its action. -/
theorem asked_own {o : Opt} {p p' : Settings} (ho : o.letter ∈ priority)
    (h : Commuting.stepCells (own sys) p o = some p') : asked o.letter (p' o.letter) = true := by
  obtain ⟨v, hv, rfl⟩ := Option.map_eq_some_iff.1 h
  cases o with
  | golden optarg =>
    obtain ⟨g, hg, rfl⟩ := Option.map_eq_some_iff.1 hv
    obtain ⟨hg, hok⟩ := Option.filter_eq_some_iff.1 hg
    cases hg
    exact parseGoldenCmdLine_req hok
  | format optarg =>
    obtain ⟨f, hf, rfl⟩ := Option.map_eq_some_iff.1 hv
    obtain ⟨hf, hok⟩ := Option.filter_eq_some_iff.1 hf
    obtain ⟨xmlFile, -, rfl⟩ := Option.map_eq_some_iff.1 hf
    exact parseFormatCmdLine_req hok
  | queues optarg => exact (parseQueuesCmdLine_ok.1 (toOption_eq_some.1 hv)).2.1
  | detail optarg | test optarg => exact takenFor_req hv
  | rmmap optarg | wmmap optarg =>
    obtain ⟨io, -, rfl⟩ := Option.map_eq_some_iff.1 hv
    rfl
  | summary | reset =>
    cases hv
    rfl
  | _ => simp [Opt.letter, priority] at ho

theorem asked_start (sys : System) (l : Letter) : asked l (Settings.start sys l) = false := by
  cases l <;> rfl

theorem asked_run {opts : List Opt} {p : Settings} {l : Letter} (hl : l ∈ priority)
    (h : Commuting.run (Commuting.stepCells (own sys)) (Settings.start sys) opts = some p) :
    asked l (p l) = true ↔ ∃ o ∈ opts, o.letter = l := by
  have hown : ∀ o : Opt, o.letter = l → ∀ p p', Commuting.stepCells (own sys) p o = some p' →
      asked l (p' l) = true := by
    rintro o rfl p p' hstep
    exact asked_own hl hstep
  have hiff := Commuting.stepCells_iff (own sys) (P := fun v => asked l v = true) hown h
  rwa [asked_start, or_iff_right Bool.false_ne_true] at hiff

variable {opts : List Opt}

/-- What has been asked for are the options of the command line. -/
theorem parseOpts_ok (h : parseOpts sys (.start sys) opts = .ok s) :
    ∃ p : Settings, s = p.state ∧ ∀ l ∈ priority, asked l (p l) = opts.any (·.letter = l) := by
  have hrun := parseOpts_eq sys opts
  rw [h] at hrun
  obtain ⟨p, hp, hs⟩ := Option.map_eq_some_iff.1 hrun.symm
  refine ⟨p, hs.symm, fun l hl => ?_⟩
  rw [Bool.eq_iff_iff, asked_run hl hp, List.any_eq_true]
  simp only [decide_eq_true_eq]

/-- **The action is the first one in the order of `else if` whose option is on the command line.** -/
theorem action_letter (h : parseOpts sys (.start sys) opts = .ok s) :
    (action s.cl).letter = priority.find? fun l => opts.any (·.letter = l) := by
  obtain ⟨p, rfl, hasked⟩ := parseOpts_ok h
  rw [action_state]
  exact find?_congr hasked

/-- Options that ask for a description. -/
def describes (o : Opt) : Bool := o.letter = .summary || o.letter = .detail

/-- Options whose actions come before the descriptions. -/
def precedes (o : Opt) : Bool := o.letter = .golden || o.letter = .format || o.letter = .queues

theorem accessingHdw_iff (h : parseOpts sys (.start sys) opts = .ok s) :
    s.accessingHdw = false ↔ opts.any describes = true := by
  obtain ⟨p, rfl, hasked⟩ := parseOpts_ok h
  have hsummary : p .summary = opts.any (·.letter = .summary) := hasked .summary (by decide)
  have hdetail : (p .detail : TestTarget).req = opts.any (·.letter = .detail) := hasked .detail (by decide)
  have hstate : p.state.accessingHdw = !(p .summary || (p .detail : TestTarget).req) := rfl
  rw [hstate, hsummary, hdetail, Bool.not_eq_false', Bool.or_eq_true]
  simp only [List.any_eq_true]
  simp only [describes, Bool.or_eq_true, ← exists_or, ← and_or_left]

theorem callsSingleton_eq (a : Action) :
    a.callsSingleton = a.letter.any fun l => l ≠ .summary && l ≠ .detail := by
  cases a <;> rfl

/-- With a description asked for, it is the options that precede it whose actions call a singleton. -/
theorem callsSingleton_iff (h : parseOpts sys (.start sys) opts = .ok s) (hdesc : opts.any describes = true) :
    (action s.cl).callsSingleton = opts.any precedes := by
  have hsplit (f g : Opt → Bool) : opts.any (fun o => f o || g o) = (opts.any f || opts.any g) := by
    rw [Bool.eq_iff_iff, Bool.or_eq_true, List.any_eq_true, List.any_eq_true, List.any_eq_true]
    simp only [Bool.or_eq_true, and_or_left, exists_or]
  unfold describes at hdesc
  unfold precedes
  rw [hsplit] at hdesc
  rw [hsplit, hsplit, callsSingleton_eq, action_letter h]
  simp only [priority, find?_ite]
  generalize opts.any (fun o => decide (o.letter = .golden)) = golden
  generalize opts.any (fun o => decide (o.letter = .format)) = format
  generalize opts.any (fun o => decide (o.letter = .queues)) = queues
  generalize opts.any (fun o => decide (o.letter = .summary)) = summary at hdesc ⊢
  generalize opts.any (fun o => decide (o.letter = .detail)) = detail at hdesc ⊢
  cases golden <;> cases format <;> cases queues <;> cases summary <;> cases detail <;> first | rfl | cases hdesc

theorem finish_null {out : Outside} {cl : CmdLine} {b : Bool} :
    finish out cl b = .nullSingleton ↔ (action cl).callsSingleton = true ∧ b = false := by
  unfold finish
  split
  · rename_i h
    exact iff_of_true rfl h
  · rename_i h
    exact iff_of_false (by split <;> simp) h

theorem execute_null {out : Outside} : execute out s = .nullSingleton ↔
    out.foundation s.cl = true ∧ s.accessingHdw = false ∧ (action s.cl).callsSingleton = true := by
  unfold execute
  cases out.foundation s.cl with
  | false => simp
  | true =>
    cases s.accessingHdw with
    | false => simp [finish_null]
    | true =>
      have hfinish : finish out s.cl true ≠ .nullSingleton := fun h => by simpa using (finish_null.1 h).2
      refine iff_of_false (fun h => ?_) (by simp)
      simp only [Bool.true_eq_false, if_false, if_true] at h
      split_ifs at h
      exact hfinish h

/-- **When a method of a singleton is called that does not exist**: a description has been asked for, and in front of it
comes an action on the device. -/
theorem main_null_iff (sys : System) (out : Outside) (args : Args) : main sys out (some args) = .nullSingleton ↔
    out.devDir = true ∧ args.leftover = false ∧
      (∃ s, parseOpts sys (.start sys) args.opts = .ok s ∧ out.foundation s.cl = true) ∧
      args.opts.any describes = true ∧ args.opts.any precedes = true := by
  unfold main
  cases out.devDir with
  | false => simp
  | true =>
    cases hparse : parseOpts sys (.start sys) args.opts with
    | error status => simp [hparse]
    | ok s =>
      cases hleft : args.leftover with
      | true => simp [hparse, hleft]
      | false =>
        have hexec : execute out s = .nullSingleton ↔ out.foundation s.cl = true ∧ args.opts.any describes = true ∧
            args.opts.any precedes = true := by
          rw [execute_null, accessingHdw_iff hparse]
          exact and_congr_right fun _ => and_congr_right fun hdesc => by rw [callsSingleton_iff hparse hdesc]
        simpa [hparse, hleft] using hexec

end Main

end Tnvme
