import Mathlib.Algebra.Ring.Nat
import Mathlib.Data.List.Basic
import Mathlib.Logic.Function.Basic

/-!
# The registers of the PCI space

The table of the metrics of the registers. Registers of a capability have no known offset until the capability has been
found in the list of the device.
-/

namespace Tnvme

/-- `PciCapabilities`, without its fence. -/
inductive PciCapabilities where
  | pmcap
  | msicap
  | msixcap
  | pxcap
  | aercap
  deriving DecidableEq, Repr

/-- `PciSpc`, without its fence. -/
inductive PciSpc where
  | id | cmd | sts | rid | cc | cls | mlt | htype | bist | bar0 | bar1 | bar2
  | bar3 | bar4 | bar5 | ccptr | ss | erom | cap | res0 | intr | mgnt | mlat | pid
  | pc | pmcs | mid | mc | ma | mua | md | mmask | mpend | mxid | mxc | mtab
  | mpba | pxid | pxcap | pxdcap | pxdc | pxds | pxlcap | pxlc | pxls | res1 | pxdcap2 | pxdc2
  | aerid | aeruces | aerucem | aerucesev | aercs | aercem | aercc | aerhl | aertlp
  deriving DecidableEq, Repr

/-- What is used of `PciSpcType`; `cap` is `none` for `PCICAP_FENCE`. -/
structure PciSpcType where
  cap : Option PciCapabilities
  offset : Nat
  size : Nat
  deriving DecidableEq, Repr

/-- `USHRT_MAX`, an offset that is not known. -/
def ushrtMax : Nat := 0xffff

namespace PciSpc

/-- `PCISPC_TABLE` -/
def metrics : PciSpc → PciSpcType
  | .id => ⟨none, 0x00, 4⟩
  | .cmd => ⟨none, 0x04, 2⟩
  | .sts => ⟨none, 0x06, 2⟩
  | .rid => ⟨none, 0x08, 1⟩
  | .cc => ⟨none, 0x09, 3⟩
  | .cls => ⟨none, 0x0c, 1⟩
  | .mlt => ⟨none, 0x0d, 1⟩
  | .htype => ⟨none, 0x0e, 1⟩
  | .bist => ⟨none, 0x0f, 1⟩
  | .bar0 => ⟨none, 0x10, 4⟩
  | .bar1 => ⟨none, 0x14, 4⟩
  | .bar2 => ⟨none, 0x18, 4⟩
  | .bar3 => ⟨none, 0x1c, 4⟩
  | .bar4 => ⟨none, 0x20, 4⟩
  | .bar5 => ⟨none, 0x24, 4⟩
  | .ccptr => ⟨none, 0x28, 4⟩
  | .ss => ⟨none, 0x2c, 4⟩
  | .erom => ⟨none, 0x30, 4⟩
  | .cap => ⟨none, 0x34, 1⟩
  | .res0 => ⟨none, 0x35, 7⟩
  | .intr => ⟨none, 0x3c, 2⟩
  | .mgnt => ⟨none, 0x3e, 1⟩
  | .mlat => ⟨none, 0x3f, 1⟩
  | .pid => ⟨some .pmcap, ushrtMax, 2⟩
  | .pc => ⟨some .pmcap, ushrtMax, 2⟩
  | .pmcs => ⟨some .pmcap, ushrtMax, 2⟩
  | .mid => ⟨some .msicap, ushrtMax, 2⟩
  | .mc => ⟨some .msicap, ushrtMax, 2⟩
  | .ma => ⟨some .msicap, ushrtMax, 4⟩
  | .mua => ⟨some .msicap, ushrtMax, 4⟩
  | .md => ⟨some .msicap, ushrtMax, 2⟩
  | .mmask => ⟨some .msicap, ushrtMax, 4⟩
  | .mpend => ⟨some .msicap, ushrtMax, 4⟩
  | .mxid => ⟨some .msixcap, ushrtMax, 2⟩
  | .mxc => ⟨some .msixcap, ushrtMax, 2⟩
  | .mtab => ⟨some .msixcap, ushrtMax, 4⟩
  | .mpba => ⟨some .msixcap, ushrtMax, 4⟩
  | .pxid => ⟨some .pxcap, ushrtMax, 2⟩
  | .pxcap => ⟨some .pxcap, ushrtMax, 2⟩
  | .pxdcap => ⟨some .pxcap, ushrtMax, 4⟩
  | .pxdc => ⟨some .pxcap, ushrtMax, 2⟩
  | .pxds => ⟨some .pxcap, ushrtMax, 2⟩
  | .pxlcap => ⟨some .pxcap, ushrtMax, 4⟩
  | .pxlc => ⟨some .pxcap, ushrtMax, 2⟩
  | .pxls => ⟨some .pxcap, ushrtMax, 2⟩
  | .res1 => ⟨some .pxcap, ushrtMax, 16⟩
  | .pxdcap2 => ⟨some .pxcap, ushrtMax, 4⟩
  | .pxdc2 => ⟨some .pxcap, ushrtMax, 2⟩
  | .aerid => ⟨some .aercap, ushrtMax, 4⟩
  | .aeruces => ⟨some .aercap, ushrtMax, 4⟩
  | .aerucem => ⟨some .aercap, ushrtMax, 4⟩
  | .aerucesev => ⟨some .aercap, ushrtMax, 4⟩
  | .aercs => ⟨some .aercap, ushrtMax, 4⟩
  | .aercem => ⟨some .aercap, ushrtMax, 4⟩
  | .aercc => ⟨some .aercap, ushrtMax, 4⟩
  | .aerhl => ⟨some .aercap, ushrtMax, 16⟩
  | .aertlp => ⟨some .aercap, ushrtMax, 16⟩

def capability (r : PciSpc) : Option PciCapabilities := r.metrics.cap

def size (r : PciSpc) : Nat := r.metrics.size

/-- The registers in the order of the table. -/
def all : List PciSpc :=
   [.id, .cmd, .sts, .rid, .cc, .cls, .mlt, .htype, .bist, .bar0, .bar1, .bar2,
    .bar3, .bar4, .bar5, .ccptr, .ss, .erom, .cap, .res0, .intr, .mgnt, .mlat, .pid,
    .pc, .pmcs, .mid, .mc, .ma, .mua, .md, .mmask, .mpend, .mxid, .mxc, .mtab,
    .mpba, .pxid, .pxcap, .pxdcap, .pxdc, .pxds, .pxlcap, .pxlc, .pxls, .res1, .pxdcap2, .pxdc2,
    .aerid, .aeruces, .aerucem, .aerucesev, .aercs, .aercem, .aercc, .aerhl, .aertlp]

theorem mem_all (r : PciSpc) : r ∈ all := by
  cases r <;> decide

/-- The registers from the next one on. -/
def after (r : PciSpc) : List PciSpc := (all.dropWhile (· ≠ r)).tail

end PciSpc

end Tnvme
