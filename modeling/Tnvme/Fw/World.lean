import Mathlib.Data.List.Sort
import Tnvme.Meta.Store
import Tnvme.Queues.Init

/-!
# The framework's world

What the tests share: the meta data store, the objects that are alive, with the names under which the resource manager
holds some of them, and the flag of the exceptions. Commands keep a copy of their meta data buffer, and their
destructor releases it. The destructor of a queue unmaps its memory, and throws if there is none.

An object lives as long as the resource manager or a test holds a pointer to it. `CtrlrConfig::SetState` makes the
resource manager drop its pointers and free the store.

The world is lost when an exception leaves a destructor, which ends the program, or when an iterator is moved whose
element has been erased. What it holds from then on says nothing.
-/

namespace Tnvme

/-- `Trackable::ObjType`, without its fence. -/
inductive ObjType where
  | memBuffer
  | acq
  | asq
  | iocq
  | iosq
  | adminCmd
  | identify
  | createIOCQ
  | createIOSQ
  | deleteIOCQ
  | deleteIOSQ
  | getFeatures
  | setFeatures
  | getLogPage
  | fwActivate
  | fwImgDnld
  | formatNVM
  | asyncEventReq
  | securitySend
  | securityRcv
  | nvmCmd
  | write
  | read
  | flush
  | datasetMgmt
  | writeZeroes
  | reservationRegister
  | reservationReport
  | reservationAcquire
  | reservationRelease
  | namespaceAttach
  | namespaceManagement
  deriving DecidableEq, Repr

namespace ObjType

def isAdminQ : ObjType → Bool
  | acq | asq => true
  | _ => false

def isQueue : ObjType → Bool
  | acq | asq | iocq | iosq => true
  | _ => false

def isCmd : ObjType → Bool
  | memBuffer | acq | asq | iocq | iosq => false
  | _ => true

end ObjType

inductive DataDir where
  | none
  | fromDevice
  | toDevice
  | bidirectional
  deriving DecidableEq, Repr

/-- An object that is alive. `lookupName` is its entry in `mObjGrpLife`, `held` says whether a test holds a pointer to
it; `mQueue` is the part that matters of a queue. `allocated` is not in the source: it is the number of disables before
the last successful `AllocMetaBuffer`. -/
structure Obj where
  handle : Nat
  objType : ObjType
  lookupName : Option String
  held : Bool
  dataDir : DataDir
  mMetaData : MetaDataBuf
  allocated : Option Nat
  mQueue : Queue
  deriving DecidableEq, Repr

/-- An object as its constructor leaves it. -/
def Obj.new (handle : Nat) (objType : ObjType) (lookupName : Option String) (dataDir : DataDir) : Obj :=
  ⟨handle, objType, lookupName, true, dataDir, .default, none, .new⟩

/-- The object outlives its removal from the map. -/
def Obj.outlives (o : Obj) : Bool := o.lookupName.isNone || o.held

/-- The destructor of an object does not throw. -/
def Obj.canDie (o : Obj) : Bool := !o.objType.isQueue || o.mQueue.getIsContig.isSome

/-- `disables` and `lost` are not in the source: the first counts the disables that have succeeded. -/
structure World where
  rsrc : MetaRsrc
  wf : rsrc.Wf
  objs : List Obj
  mPrelimProcessingInProgress : Bool
  disables : Nat
  lost : Bool

namespace World

def init : World := ⟨MetaRsrc.init, MetaRsrc.wf_init, [], false, 0, false⟩

variable (drv : Driver) (w : World)

/-- The object at an address. -/
def obj (handle : Nat) : Option Obj := w.objs.find? (·.handle == handle)

/-- The objects that the resource manager holds. -/
def mObjGrpLife : List Obj := w.objs.filter (·.lookupName.isSome)

def withLog (log : List Call) : World := { w with rsrc := { w.rsrc with log := log }, wf := w.wf.congr rfl rfl }

/-- More calls in the log. -/
def calling (t : List Call) : World :=
  { w with rsrc := { w.rsrc with log := w.rsrc.log ++ t }, wf := w.wf.congr rfl rfl }

def ioctl (req : Ioctl) : World := w.calling [.ioctl req (drv.ioctl w.rsrc.log req)]

def read (reg : Reg) : World := w.calling [.read reg (drv.read w.rsrc.log reg)]

def write (reg : Reg) (value : Nat) : World := w.calling [.write reg value (drv.write w.rsrc.log reg value)]

/-- An operation of the store. `FreeAllMetaBuf` ends and does not throw, because the store is well formed. -/
def store (op : MetaRsrc.StoreOp) : World :=
  { w with rsrc := MetaRsrc.step drv w.rsrc op, wf := MetaRsrc.wf_step op w.wf }

/-- An object is put in the place of the one at its address. -/
def put (o : Obj) : World := { w with objs := w.objs.map fun p => if p.handle = o.handle then o else p }

/-! ## Objects -/

/-- `SharedPtr(new T())` in a test. An address that is in use is not given out again. -/
def newObj (handle : Nat) (objType : ObjType) (dataDir : DataDir) : World :=
  if (w.obj handle).isSome then w else { w with objs := w.objs ++ [.new handle objType none dataDir] }

/-- The pointer that is returned goes to a test. -/
def allocObj (handle : Nat) (objType : ObjType) (lookupName : String) (dataDir : DataDir) : World :=
  if lookupName = "" then w
  -- `AllocWorker` knows no such object, and throws
  else if objType = .writeZeroes then w
  else if (w.obj handle).isSome then w
  -- the new object does not get into the map, and dies on the way out
  else if w.objs.any (·.lookupName == some lookupName) then { w with lost := w.lost || objType.isQueue }
  else { w with objs := w.objs ++ [.new handle objType (some lookupName) dataDir] }

/-- `GetObj`, into a pointer of a test. -/
def getObj (lookupName : String) : World :=
  { w with objs := w.objs.map fun o => if o.lookupName = some lookupName then { o with held := true } else o }

/-- The cleanup of `CQ::~CQ` and of `SQ::~SQ`. -/
def unmap (q : Queue) : World :=
  match q.getIsContig with
  | none => { w with lost := true }
  | some true => w.calling [.munmap q.mContigBuf q.getQSize]
  | some false => w

/-- The destructor, with `MetaData::~MetaData`; what is no command has no buffer to release. -/
def dtor (o : Obj) : World :=
  if o.objType.isQueue then (w.store drv (.releaseMetaBuf o.mMetaData)).unmap o.mQueue
  else w.store drv (.releaseMetaBuf o.mMetaData)

def destroy (o : Obj) : World := { w.dtor drv o with objs := w.objs.filter (·.handle != o.handle) }

/-- The last pointer to an object that a test holds goes away. -/
def drop (handle : Nat) : World :=
  match w.obj handle with
  | none => w
  | some o => if o.lookupName = none then w.destroy drv o else w.put { o with held := false }

/-! ## The resource manager -/

/-- The map loses all objects but those to `keep`; the order in which `clear` destroys them is not specified, and here
it is that of their allocation. -/
def freeObjs (keep : ObjType → Bool) : World :=
  let dying := w.objs.filter fun o => !(keep o.objType || o.outlives)
  { dying.foldl (fun w o => w.dtor drv o) w with
    objs := (w.objs.filter fun o => keep o.objType || o.outlives).map fun o =>
      if keep o.objType then o else { o with lookupName := none } }

def freeAllObj : World := w.freeObjs drv fun _ => false

/-- The elements of `mObjGrpLife` from `begin()` on. -/
def byName : List Obj := w.mObjGrpLife.insertionSort fun o p => o.lookupName.getD "" ≤ p.lookupName.getD ""

/-- `mObjGrpLife.erase`; the object lives on if a test holds it. -/
def erase (o : Obj) : World := if o.held then w.put { o with lookupName := none } else w.destroy drv o

/-- The loop of `FreeAllObjNotASQACQ` from an element on. It comes to nothing when it moves an iterator whose element
is no longer in the map. -/
def eraseLoop : World → List Obj → Option World
  | w, [] => some w
  | w, o :: rest =>
    let w := if o.objType.isAdminQ then w else w.erase drv o
    -- `item++`
    if o ∈ w.mObjGrpLife then eraseLoop w rest else none

/-- A world that is lost here holds what the loop is meant to leave. -/
def freeAllObjNotASQACQ : World :=
  (w.eraseLoop drv w.byName).getD { w.freeObjs drv ObjType.isAdminQ with lost := true }

/-- `RsrcMngr::Update` -/
def update : NvmeState → World
  | .enable => w
  | .disable => { (w.freeAllObjNotASQACQ drv).store drv .freeAllMetaBuf with disables := w.disables + 1 }
  | .disableCompletely => { (w.freeAllObj drv).store drv .freeAllMetaBuf with disables := w.disables + 1 }

/-! ## The controller -/

def setRegValue (value valueMask : UInt8) (regMask bitShift : UInt32) : World × Bool :=
  if value &&& ~~~valueMask ≠ 0 then (w, false)
  else
    match drv.read w.rsrc.log .ctlspcCc with
    | none => (w.read drv .ctlspcCc, false)
    | some regVal =>
      let regVal := regVal.toUInt32 &&& ~~~regMask ||| value.toUInt32 <<< bitShift
      ((w.read drv .ctlspcCc).write drv .ctlspcCc regVal.toNat,
        drv.write (w.read drv .ctlspcCc).rsrc.log .ctlspcCc regVal.toNat)

def setMPS : World × Bool :=
  if drv.pageSize = 4096 then w.setRegValue drv 0 0x0f 0x780 7 else (w, false)

/-- The request for a state, and what it entails. -/
def requestState (state : NvmeState) : World × Bool :=
  if drv.ioctl w.rsrc.log (.deviceState state) < 0 then
    ((w.ioctl drv (.deviceState state)).read drv .ctlspcCsts, false)
  else ((w.ioctl drv (.deviceState state)).update drv state, true)

def setState : NvmeState → World × Bool
  | .enable =>
    if (w.setMPS drv).2 then (w.setMPS drv).1.requestState drv .enable else ((w.setMPS drv).1, false)
  | .disable => w.requestState drv .disable
  | .disableCompletely => w.requestState drv .disableCompletely

end World

end Tnvme
