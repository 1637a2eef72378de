import Tnvme.Fw.TestRun
import Tnvme.Fw.Stale
import Tnvme.Fw.Terminates
import Tnvme.Fw.Follows
import Tnvme.Queues.Offsets
import Tnvme.Meta.Store
import Tnvme.Sched.Order
import Tnvme.Sched.Accounts
import Tnvme.Sched.Targets
import Tnvme.Sched.Brackets
import Tnvme.Sched.Fresh
import Tnvme.Queues.Atomic
import Tnvme.Queues.CreateToHdw
import Tnvme.Regs.Layout
import Tnvme.Xml.Namespaces
import Tnvme.Cmds.ReadWrite
import Tnvme.Cmds.Admin
import Tnvme.Cmds.CreateIOQ
import Tnvme.Info.Reinit
import Tnvme.Queues.SendAndReap
import Tnvme.Regs.Mmap
import Tnvme.Xml.GoldenRounds
import Tnvme.Dump.Escapes
import Tnvme.Info.PowerState
import Tnvme.Info.Sizes
import Tnvme.Cli.Target
import Tnvme.Cli.ErrorRegs
import Tnvme.Cli.SkipTest
import Tnvme.Xml.Payload
import Tnvme.Fw.FailedAlloc
import Tnvme.Mem.Pattern
import Tnvme.Queues.Memory
import Tnvme.Queues.PeekCid
import Tnvme.Regs.Access
import Tnvme.Regs.CtrlrConfig
import Tnvme.Grp.SetGetFeat
import Tnvme.Grp.StartingLBA
import Tnvme.Info.MiscompareReport
import Tnvme.Dump.Buffers
import Tnvme.Cmds.PrpData
import Tnvme.Grp.PrpOffset
import Tnvme.Queues.ManySQtoCQ
import Tnvme.Sched.Iterators
import Tnvme.Queues.Pairs
import Tnvme.Queues.IoqFull
import Tnvme.Queues.QidVariations
import Tnvme.Grp.DeleteNamespaces
import Tnvme.Lib.Effects
import Tnvme.Regs.Masks
import Tnvme.Grp.AllRegs
import Tnvme.Regs.OffendingBit
import Tnvme.Cli.FwImage
import Tnvme.Sched.Foundation
import Tnvme.Cmds.CmdBuf
import Tnvme.Sched.TestDescribe
import Tnvme.Lib.Commuting
import Tnvme.Cli.Queues
import Tnvme.Cmds.FormatDevice
import Tnvme.Cli.Main
import Tnvme.Grp.AsyncEvents
import Tnvme.Cmds.Reservation
import Tnvme.Grp.Reservations
import Tnvme.Grp.TwoHosts
import Tnvme.Grp.CreateNamespaces
import Tnvme.Lib.Loops
import Tnvme.Queues.Exchange
import Tnvme.Grp.RollOver
import Tnvme.Grp.CidAccepted
import Tnvme.Grp.DeleteAll
import Tnvme.Lib.Doubling
import Tnvme.Grp.IllegalValues
