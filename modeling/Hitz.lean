import Hitz.Api.Health
import Hitz.Api.Metrics
import Hitz.Api.Prometheus
import Hitz.Api.Types
import Hitz.Boot.Acpi
import Hitz.Boot.AcpiChecksums
import Hitz.Boot.Cpio
import Hitz.Boot.ElfChecked
import Hitz.Boot.KernelImage
import Hitz.Boot.Loader
import Hitz.Boot.PageTables
import Hitz.Boot.Params
import Hitz.Boot.ZeroPage
import Hitz.Cli.Analyzer
import Hitz.Cli.Commands
import Hitz.Daemon.Agent
import Hitz.Daemon.Atomicity
import Hitz.Daemon.Credit
import Hitz.Daemon.FileStore
import Hitz.Daemon.Lifecycle
import Hitz.Daemon.Metrics
import Hitz.Daemon.OtelExport
import Hitz.Daemon.Persistence
import Hitz.Daemon.PortForwarding
import Hitz.Daemon.Recovery
import Hitz.Daemon.Relays
import Hitz.Daemon.Restart
import Hitz.Daemon.Router
import Hitz.Daemon.Server
import Hitz.Daemon.Shutdown
import Hitz.Daemon.StateStore
import Hitz.Daemon.VmManager
import Hitz.Devices.Block
import Hitz.Devices.BlockStore
import Hitz.Devices.BringUp
import Hitz.Devices.ChainWalk
import Hitz.Devices.Confinement
import Hitz.Devices.DiskDriver
import Hitz.Devices.Drain
import Hitz.Devices.Driver
import Hitz.Devices.MmioBus
import Hitz.Devices.MmioTransport
import Hitz.Devices.Net
import Hitz.Devices.Queue
import Hitz.Devices.QueueConfig
import Hitz.Devices.QueueFifo
import Hitz.Devices.Receive
import Hitz.Devices.RegisterFile
import Hitz.Devices.SharedBus
import Hitz.Devices.Termination
import Hitz.Devices.Transmit
import Hitz.Devices.UsedLength
import Hitz.Devices.Vsock
import Hitz.Devices.VsockHeader
import Hitz.GuestAgent.CpuUsage
import Hitz.GuestAgent.ProcStat
import Hitz.GuestAgent.ProcTables
import Hitz.Hal.SpecialRegs
import Hitz.Hal.Types
import Hitz.Lib.BinarySearch
import Hitz.Lib.BitFields
import Hitz.Lib.ByteStore
import Hitz.Lib.Bytes
import Hitz.Lib.Channel
import Hitz.Lib.Checksum
import Hitz.Lib.CommandLine
import Hitz.Lib.Counters
import Hitz.Lib.Exposition
import Hitz.Lib.FileTree
import Hitz.Lib.Framing
import Hitz.Lib.Intervals
import Hitz.Lib.Layout
import Hitz.Lib.Newc
import Hitz.Lib.Numeral
import Hitz.Lib.Packed
import Hitz.Lib.RingLog
import Hitz.Lib.Runs
import Hitz.Lib.Words
import Hitz.Lib.WrappingSum
import Hitz.Lib.WriteLog
import Hitz.Lib.X86Operand
import Hitz.Lib.X86Paging
import Hitz.Net.AddressText
import Hitz.Net.Arp
import Hitz.Net.Bridge
import Hitz.Net.Ethernet
import Hitz.Net.Frames
import Hitz.Net.WintunIo
import Hitz.Vmm.Boot
import Hitz.Vmm.BootImage
import Hitz.Vmm.BootIntegrity
import Hitz.Vmm.BootProgress
import Hitz.Vmm.BootRam
import Hitz.Vmm.BootRegs
import Hitz.Vmm.Cmdline
import Hitz.Vmm.Config
import Hitz.Vmm.DeviceSetup
import Hitz.Vmm.ExitEffects
import Hitz.Vmm.GuestEntry
import Hitz.Vmm.HostMemory
import Hitz.Vmm.Interrupts
import Hitz.Vmm.Memory
import Hitz.Vmm.MemoryRegions
import Hitz.Vmm.MmioDecode
import Hitz.Vmm.MmioGrammar
import Hitz.Vmm.MmioSemantics
import Hitz.Vmm.MultiVcpu
import Hitz.Vmm.RunLoop
import Hitz.Vmm.SerialBuf
import Hitz.Vmm.SerialWakeup
import Hitz.Vmm.Watchdog
import Hitz.Vmm.ZeroFill
import Hitz.Whp.Convert
import Hitz.Whp.Vcpu
import Hitz.Devices.SendDriver
