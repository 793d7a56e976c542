import OxideOS.Lib.Prog
import OxideOS.Lib.RefCount
import OxideOS.Lib.Bytes
import OxideOS.Lib.Run
import OxideOS.Lib.Table
import OxideOS.Lib.Ring
import OxideOS.Lib.Words
import OxideOS.Lib.SlotMap
import OxideOS.Lib.Path
import OxideOS.Lib.Decimal
import OxideOS.Lib.Chain
import OxideOS.Lib.Radix
import OxideOS.Lib.Rotation
import OxideOS.Lib.Search
import OxideOS.Lib.Text
import OxideOS.Mem.Entry
import OxideOS.Mem.FrameAllocator
import OxideOS.Mem.Paging
import OxideOS.Mem.Access
import OxideOS.Mem.AddressSpaces
import OxideOS.Mem.Accounting
import OxideOS.Mem.Invariant
import OxideOS.Mem.Mapping
import OxideOS.Mem.Teardown
import OxideOS.Mem.Fork
import OxideOS.Mem.Translation
import OxideOS.Mem.CowFault
import OxideOS.Mem.Machine
import OxideOS.Mem.NoExecute
import OxideOS.Mem.SharedFrames
import OxideOS.Mem.Exhaustion
import OxideOS.Mem.FrameRuns
import OxideOS.Mem.OnePage
import OxideOS.Mem.SparseFork
import OxideOS.Ipc.Shm
import OxideOS.Ipc.Pipe
import OxideOS.Ipc.Channel
import OxideOS.Ipc.Messages
import OxideOS.Disk.Device
import OxideOS.Disk.RecordStore
import OxideOS.Disk.StoreMap
import OxideOS.Disk.Mbr
import OxideOS.Fat.Volume
import OxideOS.Disk.Placement
import OxideOS.Fs.FdTable
import OxideOS.Fs.RamFs
import OxideOS.Fs.RamTree
import OxideOS.Fs.RamDescriptors
import OxideOS.Fs.DiskFs
import OxideOS.Fs.StoreViews
import OxideOS.Fat.Table
import OxideOS.Fat.Directory
import OxideOS.Fs.WorkingDir
import OxideOS.Fs.RamMoves
import OxideOS.Fat.Driver
import OxideOS.Fat.Mirror
import OxideOS.Fat.Allocation
import OxideOS.Fat.Freeing
import OxideOS.Fat.Listing
import OxideOS.Fat.Walks
import OxideOS.Install.Partitions
import OxideOS.Fat.FreeSearch
import OxideOS.Ext2.Volume
import OxideOS.Proc.Task
import OxideOS.Proc.Scheduler
import OxideOS.Proc.Spawn
import OxideOS.Proc.Lifecycle
import OxideOS.Proc.Lineage
import OxideOS.Proc.Burial
import OxideOS.Proc.Loading
import OxideOS.Proc.Fitting
import OxideOS.Proc.Env
import OxideOS.Net.Socket
import OxideOS.Net.SocketCalls
import OxideOS.Net.SocketOwners
import OxideOS.Gui.WindowManager
import OxideOS.Gui.Desk
import OxideOS.Gui.Focus
import OxideOS.Gui.Session
import OxideOS.Gui.Ownership
import OxideOS.Gui.Notepad
import OxideOS.User.Browser
import OxideOS.User.Shell
import OxideOS.Sys.UserBuffer
import OxideOS.User.Paths
import OxideOS.Sys.Process
import OxideOS.Sys.Outline
import OxideOS.Sys.TaskLife
import OxideOS.Sys.Events
import OxideOS.Sys.Preemption
import OxideOS.Sys.Waiting
import OxideOS.Sys.Death
import OxideOS.Sys.Delivery
import OxideOS.Sys.SlotReuse
import OxideOS.Sys.Readiness
import OxideOS.Sys.Spaces
import OxideOS.Sys.Layout
import OxideOS.Sys.Simulation
import OxideOS.Sys.SharedSegments
import OxideOS.Sys.ExecTrace
import OxideOS.Sys.Signals
import OxideOS.Sys.Failures
import OxideOS.Sys.Fates
import OxideOS.Sys.Attention
import OxideOS.Sys.SharedMemory
import OxideOS.Sys.DescriptorCalls
import OxideOS.Sys.SegmentContract
import OxideOS.Sys.Ranges
import OxideOS.Sys.Fairness
import OxideOS.Sys.Pids
