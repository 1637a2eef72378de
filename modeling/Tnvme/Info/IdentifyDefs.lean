import Mathlib.Algebra.Ring.Nat
import Mathlib.Data.List.FinRange

/-!
# The tables of the Identify command

A table gives the offset and the length of each field of a data structure. The fields of several revisions of the
specification stand side by side, so some of them overlap. Taken one behind the other they are longer than the data
(`lengths_sum`).
-/

namespace Tnvme

/-- The data structures that an Identify command can ask for, `CNS_..`. -/
inductive CNS where
  | namespc
  | controller
  | namespaceListActive
  | namespaceListSubsystem
  | namespaceStructSubsystem
  | controllerListAttachedToNSID
  | controllerListSubsystem
  deriving DecidableEq, Repr

def CNS.code : CNS → BitVec 8
  | namespc => 0x00
  | controller => 0x01
  | namespaceListActive => 0x02
  | namespaceListSubsystem => 0x10
  | namespaceStructSubsystem => 0x11
  | controllerListAttachedToNSID => 0x12
  | controllerListSubsystem => 0x13

/-- What is used of `IdentifyDataType`. -/
structure IdentifyDataType where
  offset : Nat
  length : Nat
  deriving DecidableEq, Repr

/-- `IDCTRLRCAP_..`; `psd k` is `IDCTRLRCAP_PSD0 + k`. -/
inductive IdCtrlrCap where
  | vid | ssvid | sn | mn | fr | rab | ieee | mic | cmic | mdts | res4E | cntlid | res50 | ver | rtd3r | rtd3e
  | oaes | res60 | ctratt | res64 | intresF0 | mec | oacs | acl | aerl | frmw | lpa | elpe | npss | res108
  | avscc | apsta | res10A | wctemp | cctemp | mtfa | hmpre | hmmin | tnvmcapLower | tnvmcapUpper | unvmcapLower
  | unvmcapUpper | rpmbs | res13C | res316 | kas | res141 | sqes | cqes | res202 | maxcmd | nn | oncs | fuses
  | fna | vwc | awun | awupf | res212 | nvscc | res213 | acwu | res216 | sgls | res21C | res540 | subnqn
  | res400 | ioccsz | iorcsz | icdoff | ctrattr | msdbd | res70C | res2C0 | psd (k : Fin 32) | vs
  deriving DecidableEq, Repr

/-- `IDNAMESPC_..`; `lbaf k` is `IDNAMESPC_LBAF0 + k`. -/
inductive IdNamespc where
  | nsze | ncap | nuse | nsfeat | nlbaf | flbas | mc | dpc | dps | nmic | rescap | res1E | res20 | fpi | res21
  | nawun | nawupf | nacwu | nabsn | nabo | nabspf | res2E | nvmcap | res40 | nguid | eui64 | lbaf (k : Fin 16)
  | resC0 | vs
  deriving DecidableEq, Repr

/-- `IDCTRLRCAP_TABLE` -/
def IdCtrlrCap.metrics : IdCtrlrCap → IdentifyDataType
  | vid => ⟨0, 2⟩
  | ssvid => ⟨2, 2⟩
  | sn => ⟨4, 20⟩
  | mn => ⟨24, 40⟩
  | fr => ⟨64, 8⟩
  | rab => ⟨72, 1⟩
  | ieee => ⟨73, 3⟩
  | mic => ⟨76, 1⟩
  | cmic => ⟨76, 1⟩
  | mdts => ⟨77, 1⟩
  | res4E => ⟨78, 178⟩
  | cntlid => ⟨78, 2⟩
  | res50 => ⟨80, 176⟩
  | ver => ⟨80, 4⟩
  | rtd3r => ⟨84, 4⟩
  | rtd3e => ⟨88, 4⟩
  | oaes => ⟨92, 4⟩
  | res60 => ⟨96, 160⟩
  | ctratt => ⟨96, 4⟩
  | res64 => ⟨100, 140⟩
  | intresF0 => ⟨250, 15⟩
  | mec => ⟨255, 1⟩
  | oacs => ⟨256, 2⟩
  | acl => ⟨258, 1⟩
  | aerl => ⟨259, 1⟩
  | frmw => ⟨260, 1⟩
  | lpa => ⟨261, 1⟩
  | elpe => ⟨262, 1⟩
  | npss => ⟨263, 1⟩
  | res108 => ⟨264, 248⟩
  | avscc => ⟨264, 1⟩
  | apsta => ⟨265, 1⟩
  | res10A => ⟨266, 246⟩
  | wctemp => ⟨266, 2⟩
  | cctemp => ⟨268, 2⟩
  | mtfa => ⟨270, 2⟩
  | hmpre => ⟨272, 4⟩
  | hmmin => ⟨276, 4⟩
  | tnvmcapLower => ⟨280, 8⟩
  | tnvmcapUpper => ⟨288, 8⟩
  | unvmcapLower => ⟨296, 8⟩
  | unvmcapUpper => ⟨304, 8⟩
  | rpmbs => ⟨312, 4⟩
  | res13C => ⟨316, 196⟩
  | res316 => ⟨316, 4⟩
  | kas => ⟨320, 2⟩
  | res141 => ⟨322, 190⟩
  | sqes => ⟨512, 1⟩
  | cqes => ⟨513, 1⟩
  | res202 => ⟨514, 2⟩
  | maxcmd => ⟨514, 2⟩
  | nn => ⟨516, 4⟩
  | oncs => ⟨520, 2⟩
  | fuses => ⟨522, 2⟩
  | fna => ⟨524, 1⟩
  | vwc => ⟨525, 1⟩
  | awun => ⟨526, 2⟩
  | awupf => ⟨528, 2⟩
  | res212 => ⟨530, 174⟩
  | nvscc => ⟨530, 1⟩
  | res213 => ⟨531, 1⟩
  | acwu => ⟨532, 2⟩
  | res216 => ⟨534, 2⟩
  | sgls => ⟨536, 4⟩
  | res21C => ⟨540, 164⟩
  | res540 => ⟨540, 228⟩
  | subnqn => ⟨768, 256⟩
  | res400 => ⟨1024, 768⟩
  | ioccsz => ⟨1792, 4⟩
  | iorcsz => ⟨1796, 4⟩
  | icdoff => ⟨1800, 2⟩
  | ctrattr => ⟨1802, 1⟩
  | msdbd => ⟨1803, 1⟩
  | res70C => ⟨1804, 244⟩
  | res2C0 => ⟨704, 1344⟩
  | psd k => ⟨2048 + 32 * k, 32⟩
  | vs => ⟨3072, 1024⟩

/-- `IDNAMESPC_TABLE` -/
def IdNamespc.metrics : IdNamespc → IdentifyDataType
  | nsze => ⟨0, 8⟩
  | ncap => ⟨8, 8⟩
  | nuse => ⟨16, 8⟩
  | nsfeat => ⟨24, 1⟩
  | nlbaf => ⟨25, 1⟩
  | flbas => ⟨26, 1⟩
  | mc => ⟨27, 1⟩
  | dpc => ⟨28, 1⟩
  | dps => ⟨29, 1⟩
  | nmic => ⟨30, 1⟩
  | rescap => ⟨31, 1⟩
  | res1E => ⟨30, 98⟩
  | res20 => ⟨32, 88⟩
  | fpi => ⟨32, 1⟩
  | res21 => ⟨33, 1⟩
  | nawun => ⟨34, 2⟩
  | nawupf => ⟨36, 2⟩
  | nacwu => ⟨38, 2⟩
  | nabsn => ⟨40, 2⟩
  | nabo => ⟨42, 2⟩
  | nabspf => ⟨44, 2⟩
  | res2E => ⟨46, 2⟩
  | nvmcap => ⟨48, 16⟩
  | res40 => ⟨64, 40⟩
  | nguid => ⟨104, 16⟩
  | eui64 => ⟨120, 8⟩
  | lbaf k => ⟨128 + 4 * k, 4⟩
  | resC0 => ⟨192, 192⟩
  | vs => ⟨384, 3712⟩

/-- The fields in the order of the table. -/
def IdCtrlrCap.fields : List IdCtrlrCap :=
  [vid, ssvid, sn, mn, fr, rab, ieee, mic, cmic, mdts, res4E, cntlid, res50, ver, rtd3r, rtd3e,
    oaes, res60, ctratt, res64, intresF0, mec, oacs, acl, aerl, frmw, lpa, elpe, npss, res108,
    avscc, apsta, res10A, wctemp, cctemp, mtfa, hmpre, hmmin, tnvmcapLower, tnvmcapUpper, unvmcapLower,
    unvmcapUpper, rpmbs, res13C, res316, kas, res141, sqes, cqes, res202, maxcmd, nn, oncs, fuses,
    fna, vwc, awun, awupf, res212, nvscc, res213, acwu, res216, sgls, res21C, res540, subnqn, res400,
    ioccsz, iorcsz, icdoff, ctrattr, msdbd, res70C, res2C0] ++
    (List.finRange 32).map psd ++ [vs]

/-- The fields in the order of the table. -/
def IdNamespc.fields : List IdNamespc :=
  [nsze, ncap, nuse, nsfeat, nlbaf, flbas, mc, dpc, dps, nmic, rescap, res1E, res20, fpi, res21,
    nawun, nawupf, nacwu, nabsn, nabo, nabspf, res2E, nvmcap, res40, nguid, eui64] ++
    (List.finRange 16).map lbaf ++ [resC0, vs]

/-- `NS_LIST_ENTRY_SIZE` -/
def nsListEntrySize : Nat := 4

/-- `NS_LIST_SIZE` -/
def nsListSize : Nat := 1024 * nsListEntrySize

/-- `CTLR_LIST_ENTRY_SIZE` -/
def ctlrListEntrySize : Nat := 2

/-- `CTLR_LIST_SIZE` -/
def ctlrListSize : Nat := 2047 * ctlrListEntrySize + 2

/-! ## What the tables say -/

/-- A field that fits into 64 bits ends in front of the end of the data. -/
theorem IdCtrlrCap.metrics_fit (field : IdCtrlrCap) (hlen : field.metrics.length ≤ 8) :
    field.metrics.length + field.metrics.offset < 4096 := by
  cases field with
  | psd k => exact absurd hlen (by simp [metrics])
  | vs => exact absurd hlen (by decide)
  | _ => decide

theorem IdNamespc.metrics_fit (field : IdNamespc) (hlen : field.metrics.length ≤ 8) :
    field.metrics.length + field.metrics.offset < 4096 := by
  cases field with
  | lbaf k =>
    change 4 + (128 + 4 * k.val) < 4096
    omega
  | vs => exact absurd hlen (by decide)
  | _ => decide

/-- The bytes of all fields of a table. -/
def IdCtrlrCap.lengths : List Nat := fields.map (·.metrics.length)

def IdNamespc.lengths : List Nat := fields.map (·.metrics.length)

theorem IdCtrlrCap.lengths_sum : lengths.sum = 6985 := by decide

theorem IdNamespc.lengths_sum : lengths.sum = 4282 := by decide

end Tnvme
