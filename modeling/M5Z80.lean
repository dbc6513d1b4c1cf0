import M5Z80.Machine
import M5Z80.Clock
import M5Z80.Mmio
import M5Z80.Bus
import M5Z80.Z80.Alu
import M5Z80.Z80.Cpu
import M5Z80.Z80.Ops
import M5Z80.Z80.Opcodes
import M5Z80.Frame
import M5Z80.Lib.Run
import M5Z80.Z80.Execute
import M5Z80.Bounds
import M5Z80.Speed
import M5Z80.Banks
import M5Z80.ByteClean
import M5Z80.Loader
import M5Z80.Snapshot
import M5Z80.Lib.Chunks
import M5Z80.Lib.Staged
import M5Z80.TapeCodec
import M5Z80.Lib.Window
import M5Z80.TapePlay
import M5Z80.Interrupts
import M5Z80.Lib.Budget
import M5Z80.Lib.Programs
import M5Z80.Z80.Built
import M5Z80.Charge
import M5Z80.Execution
import M5Z80.Channels
import M5Z80.Passes
import M5Z80.MonitorRom
import M5Z80.Mounting
import M5Z80.System
import M5Z80.PortC
import M5Z80.Records
import M5Z80.Containers
import M5Z80.Regions
import M5Z80.Position
import M5Z80.TapeWindow
import M5Z80.Pending
import M5Z80.Halted
import M5Z80.Lib.Counter
import M5Z80.Timing
import M5Z80.Lib.Backlog
import M5Z80.Pace
import M5Z80.TapeLength
import M5Z80.Truncated
import M5Z80.FailedMount
import M5Z80.Lib.Overlay
import M5Z80.MultiLoad
import M5Z80.Counters
import M5Z80.CounterLoad
import M5Z80.CounterLatch
import M5Z80.Lib.Divider
import M5Z80.Cascade
import M5Z80.Lib.Carry
import M5Z80.Z80.Arithmetic
import M5Z80.KeyTables
import M5Z80.Keyboard
import M5Z80.Lib.Guarded
import M5Z80.KeySources
import M5Z80.KeyUses
import M5Z80.KeyRange
import M5Z80.Lib.BitRows
import M5Z80.Pressed
import M5Z80.HidMirror
import M5Z80.Lib.Holding
import M5Z80.TypedStrings
import M5Z80.SerialPolls
import M5Z80.Glyphs
import M5Z80.JoyPadKeys
import M5Z80.PcgPicture
import M5Z80.PcgCopy
import M5Z80.FileList
import M5Z80.TapeMenu
import M5Z80.Lib.StepLoop
import M5Z80.UsbWalk
import M5Z80.HidServer.PacketQ
import M5Z80.HidServer.Stack
import M5Z80.HidServer.Sdp
import M5Z80.HidServer.SdpWalk
import M5Z80.HidServer.LinkKey
import M5Z80.HidServer.Host
import M5Z80.HidServer.Events
import M5Z80.HidServer.Changes
import M5Z80.HidServer.Tables
import M5Z80.HidServer.Pairing
import M5Z80.HidServer.Reassembly
import M5Z80.Lib.BlockCopy
import M5Z80.Guest
import M5Z80.BlockMove
import M5Z80.Lib.Columns
import M5Z80.Z80.Decimal
import M5Z80.Lib.Mailbox
import M5Z80.HidServer.Arrivals
import M5Z80.HidServer.Connected
import M5Z80.HidServer.Search
import M5Z80.HidFrames
