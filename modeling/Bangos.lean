import Bangos.Lib.Runs
import Bangos.Lib.RingBuf
import Bangos.Lib.IndexRing
import Bangos.Lib.ByteMem
import Bangos.Lib.Bitmap
import Bangos.Lib.Stores
import Bangos.Lib.Span
import Bangos.Lib.PathTree
import Bangos.Lib.Threads
import Bangos.Lib.OnesComplement
import Bangos.Net.Tcp
import Bangos.Net.TcpStream
import Bangos.Net.TcpCalls
import Bangos.Net.TcpRing
import Bangos.Net.TcpAcks
import Bangos.Net.TcpPorts
import Bangos.Net.Socket
import Bangos.Net.Wire
import Bangos.Net.Packet
import Bangos.Net.Stack
import Bangos.Net.Transmit
import Bangos.Net.Delivery
import Bangos.Net.UdpDelivery
import Bangos.Net.ArpCache
import Bangos.Net.Addresses
import Bangos.Net.Dns
import Bangos.Net.DnsQuery
import Bangos.Net.DnsSafety
import Bangos.Net.Checksums
import Bangos.Net.StackRuns
import Bangos.Net.TcpSend
import Bangos.Mm.Memory
import Bangos.Mm.Vma
import Bangos.Mm.VmaTable
import Bangos.Mm.Frames
import Bangos.Mm.FramePool
import Bangos.Mm.FirstFit
import Bangos.Mm.PageTable
import Bangos.Mm.MapPage
import Bangos.Mm.UserPages
import Bangos.Mm.DataFrames
import Bangos.Mm.BootTables
import Bangos.Mm.AreaPages
import Bangos.Mm.AreaMap
import Bangos.Mm.AreaPieces
import Bangos.Mm.AreaSlots
import Bangos.Mm.ProtectSlots
import Bangos.Mm.AreaProtect
import Bangos.Syscall.Memory
import Bangos.Syscall.MmapFresh
import Bangos.Drivers.Block
import Bangos.Drivers.VirtioRx
import Bangos.Drivers.VirtioTx
import Bangos.Fs.Descriptors
import Bangos.Fs.Tarfs
import Bangos.Fs.Vfs
import Bangos.Fs.MountTable
import Bangos.Fs.PathBuffers
import Bangos.Fs.TarfsVfs
import Bangos.Fs.TarArchive
import Bangos.Fs.Ext2
import Bangos.Fs.Ext2Disk
import Bangos.Fs.Ext2Alloc
import Bangos.Fs.Ext2Exact
import Bangos.Fs.Ext2Dir
import Bangos.Fs.DirScan
import Bangos.Fs.Ext2Create
import Bangos.Fs.Ext2File
import Bangos.Fs.Ext2Handles
import Bangos.Fs.Ext2Write
import Bangos.Fs.Ext2Persist
import Bangos.Fs.Ext2Mount
import Bangos.Fs.Ext2Lookup
import Bangos.Fs.FileReads
import Bangos.Fs.DirListing
import Bangos.Fs.Ext2Faults
import Bangos.Fs.WriteTurns
import Bangos.Fs.BlockMap
import Bangos.Fs.WriteFrame
import Bangos.Loader.Elf
import Bangos.Loader.LoadTables
import Bangos.Loader.ElfAccess
import Bangos.Process.Process
import Bangos.Process.Lifecycle
import Bangos.Process.Scheduler
import Bangos.Process.System
import Bangos.Syscall.UserPointers
import Bangos.Syscall.Getdents
import Bangos.Process.Steps
import Bangos.Process.Wakeup
import Bangos.Process.SocketLifetime
import Bangos.Process.MmapWindows
import Bangos.Process.PageSteps
import Bangos.Process.KernelTables
import Bangos.Process.IdentityMap
import Bangos.Process.Break
import Bangos.Process.WriteRights
import Bangos.Process.Switch
import Bangos.Process.ExecveFailure
import Bangos.Process.Slots
import Bangos.Process.NodeRefs
import Bangos.Process.Dispatch
import Bangos.Process.Wait
import Bangos.Process.FrameLeak
import Bangos.Process.OutOfFrames
import Bangos.Userland.Mutex
import Bangos.Userland.Semaphore
