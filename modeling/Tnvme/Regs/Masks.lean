import Tnvme.Regs.Access

/-!
# The bits of the registers

`maskRO` are the bits that are read-only, `impSpec` those that are up to the implementation, and `dfltValue` is what the
others hold.
-/

namespace Tnvme

structure RoMasks where
  maskRO : BitVec 64
  impSpec : BitVec 64
  dfltValue : BitVec 64
  deriving DecidableEq, Repr

/-- What the tests of the bits read of `PciSpcType` and `CtlSpcType`. A register has a byte. -/
structure RoMetrics extends RegMetrics, RoMasks where
  sized : 0 < size

structure PciRoMetrics extends RoMetrics where
  cap : Option PciCapabilities

/-- The tables, and the revision of the controller. -/
structure RoTables where
  pciMetrics : PciSpc → PciRoMetrics
  ctlMetrics : CtlSpc → RoMetrics
  mSpecRev : SpecRev

/-- What `Registers` uses of the tables. -/
def RoTables.regs (t : RoTables) : RegTables where
  mPciSpcMetrics reg := (t.pciMetrics reg).toRegMetrics
  mCtlSpcMetrics reg := (t.ctlMetrics reg).toRegMetrics
  mSpecRev := t.mSpecRev

/-- `PCISPC_TABLE` -/
def PciSpc.masks : PciSpc → RoMasks
  | .id => ⟨0xffffffff, 0xffffffff, 0⟩
  | .cmd => ⟨0xfab8, 0x40, 0⟩
  | .sts => ⟨0x4eff, 0x6a0, 0x10⟩
  | .rid => ⟨0xff, 0xff, 0⟩
  | .cc => ⟨0xffffff, 0, 0x10802⟩
  | .cls => ⟨0xff, 0xff, 0⟩
  | .mlt => ⟨0xff, 0, 0⟩
  | .htype => ⟨0xff, 0x80, 0⟩
  | .bist => ⟨0xbf, 0x80, 0⟩
  | .bar0 => ⟨0x3fff, 0, 0x4⟩
  | .bar1 => ⟨0, 0, 0⟩
  | .bar2 => ⟨0x7, 0, 0x1⟩
  | .bar3 => ⟨0, 0, 0⟩
  | .bar4 => ⟨0, 0xffffffff, 0⟩
  | .bar5 => ⟨0, 0xffffffff, 0⟩
  | .ccptr => ⟨0xffffffff, 0, 0⟩
  | .ss => ⟨0xffffffff, 0xffffffff, 0⟩
  | .erom => ⟨0, 0xffffffff, 0⟩
  | .cap => ⟨0xff, 0xff, 0⟩
  | .res0 => ⟨0xffffffffffffff, 0, 0⟩
  | .intr => ⟨0xff00, 0xff00, 0⟩
  | .mgnt => ⟨0xff, 0, 0⟩
  | .mlat => ⟨0xff, 0, 0⟩
  | .pid => ⟨0xffff, 0xfffe, 0x1⟩
  | .pc => ⟨0xb7ff, 0x27, 0⟩
  | .pmcs => ⟨0x60fc, 0, 0x8⟩
  | .mid => ⟨0xffff, 0xff00, 0x5⟩
  | .mc => ⟨0xfe8e, 0xe, 0x80⟩
  | .ma => ⟨0x3, 0, 0⟩
  | .mua => ⟨0, 0, 0⟩
  | .md => ⟨0, 0, 0⟩
  | .mmask => ⟨0, 0, 0⟩
  | .mpend => ⟨0, 0, 0⟩
  | .mxid => ⟨0xffff, 0xff00, 0x11⟩
  | .mxc => ⟨0x3fff, 0x7ff, 0⟩
  | .mtab => ⟨0xffffffff, 0xffffffff, 0⟩
  | .mpba => ⟨0xffffffff, 0xffffffff, 0⟩
  | .pxid => ⟨0xffff, 0xff00, 0x10⟩
  | .pxcap => ⟨0xffff, 0x3e00, 0x2⟩
  | .pxdcap => ⟨0xffffffff, 0xffc0fff, 0x10008000⟩
  | .pxdc => ⟨0, 0xfff0, 0⟩
  | .pxds => ⟨0xfff0, 0x10, 0⟩
  | .pxlcap => ⟨0xffffffff, 0xff47ffff, 0⟩
  | .pxlc => ⟨0xfc34, 0x200, 0⟩
  | .pxls => ⟨0xffff, 0x13ff, 0⟩
  | .res1 => ⟨0xffffffffffffffff, 0, 0⟩
  | .pxdcap2 => ⟨0xffffffff, 0xfc3b8f, 0x10⟩
  | .pxdc2 => ⟨0xffff9b0f, 0x700f, 0⟩
  | .aerid => ⟨0xffffffff, 0xfff00000, 0x20001⟩
  | .aeruces => ⟨0xfc0007ef, 0x3fff0f, 0⟩
  | .aerucem => ⟨0xfc000fcf, 0xf1c1, 0x400000⟩
  | .aerucesev => ⟨0xfc000fcf, 0x3eaa000, 0x462010⟩
  | .aercs => ⟨0xffff0e3e, 0xc000, 0⟩
  | .aercem => ⟨0xffff0e3e, 0xc000, 0⟩
  | .aercc => ⟨0xfffff8af, 0x7e0, 0⟩
  | .aerhl => ⟨0xffffffffffffffff, 0, 0⟩
  | .aertlp => ⟨0xffffffffffffffff, 0, 0⟩

/-- `CTLSPC_TABLE` -/
def CtlSpc.masks : CtlSpc → RoMasks
  | .cap => ⟨0xffffffffffffffff, 0xff1fffff07ffff, 0⟩
  | .vs => ⟨0xffffffff, 0, 0x10000⟩
  | .vs11 => ⟨0xffffffff, 0, 0x10100⟩
  | .vs12 => ⟨0xffffffff, 0, 0x10200⟩
  | .intms => ⟨0, 0, 0⟩
  | .intmc => ⟨0, 0, 0⟩
  | .cc => ⟨0xff00000e, 0, 0⟩
  | .res0 => ⟨0, 0, 0⟩
  | .csts => ⟨0xffffffff, 0, 0⟩
  | .csts11 => ⟨0xffffffef, 0x12, 0⟩
  | .res1 => ⟨0xffffffff, 0, 0⟩
  | .nssr => ⟨0, 0, 0⟩
  | .aqa => ⟨0xf000f000, 0, 0⟩
  | .asq => ⟨0xfff, 0xfffff000, 0⟩
  | .acq => ⟨0xfff, 0xfffff000, 0⟩
  | .res2 => ⟨0xffffffffffffffff, 0, 0⟩
  | .res3 => ⟨0xffffffffffffffff, 0, 0⟩

theorem PciSpc.sized (reg : PciSpc) : 0 < reg.metrics.size := by
  cases reg <;> decide

theorem CtlSpc.sized (reg : CtlSpc) : 0 < reg.metrics.size := by
  cases reg <;> decide

/-- The tables with the offsets of a discovery. -/
def Registers.tables (regs : Registers) (mSpecRev : SpecRev) : RoTables where
  pciMetrics reg :=
    { offset := regs.offset reg
      size := reg.metrics.size
      specRev := [.rev10b, .rev11, .rev12, .rev121, .rev13]
      toRoMasks := reg.masks
      sized := reg.sized
      cap := reg.metrics.cap }
  ctlMetrics reg := { toRegMetrics := reg.metrics, toRoMasks := reg.masks, sized := reg.sized }
  mSpecRev := mSpecRev

end Tnvme
