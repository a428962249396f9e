import MorionOS.Kernel.FrameCounter
import MorionOS.Kernel.Unmapping
import MorionOS.Kernel.DeviceBindings
import MorionOS.Kernel.Permissions
import MorionOS.Kernel.Elf
import MorionOS.Kernel.Orphans
import MorionOS.Kernel.Runs
import MorionOS.Kernel.UserPointers
import MorionOS.Kernel.IrqVectors
import MorionOS.Mfs.Completion
import MorionOS.Mfs.DirectoryMap
import MorionOS.Mfs.Allocator
import MorionOS.Mfs.Batches
import MorionOS.Mfs.Switching
import MorionOS.Mfs.Normalize
import MorionOS.Net.ByteStream
import MorionOS.Net.Retransmission
import MorionOS.Net.RemotePeer
import MorionOS.Net.Datagrams
import MorionOS.Blk.Completions
import MorionOS.Blk.Confinement
import MorionOS.Blk.VolumeNumbers
import MorionOS.Blk.Attached
import MorionOS.Vfs.ClosedDescriptors
import MorionOS.Vfs.PathDelivery
import MorionOS.Tmpfs.Refinement
import MorionOS.Geometry.OwnVolume
import MorionOS.Calendar
