import Kandelo.ForkInstrument.DispatchTree
import Kandelo.ForkInstrument.RefRestore
import Kandelo.ForkInstrument.TableRuns
import Kandelo.Kernel.Audio
import Kandelo.Kernel.Descriptor.AllOrNothing
import Kandelo.Kernel.Descriptor.Dup
import Kandelo.Kernel.Descriptor.EpollRuns
import Kandelo.Kernel.Descriptor.FdAllocation
import Kandelo.Kernel.Descriptor.FifoRuns
import Kandelo.Kernel.Descriptor.HandleRuns
import Kandelo.Kernel.Descriptor.IteratorRuns
import Kandelo.Kernel.Directory.Enumeration
import Kandelo.Kernel.Directory.Seek
import Kandelo.Kernel.Dri.Lifetime
import Kandelo.Kernel.File.SharedOffset
import Kandelo.Kernel.File.SizeLimit
import Kandelo.Kernel.Ipc.Receive
import Kandelo.Kernel.Limits
import Kandelo.Kernel.Lock.ByteMap
import Kandelo.Kernel.Memory.Alignment
import Kandelo.Kernel.Memory.Pages
import Kandelo.Kernel.Mouse
import Kandelo.Kernel.Mqueue.Notification
import Kandelo.Kernel.Mqueue.Order
import Kandelo.Kernel.PShared.Barrier
import Kandelo.Kernel.PShared.Cond
import Kandelo.Kernel.PShared.Failure
import Kandelo.Kernel.Path.Search
import Kandelo.Kernel.Pipe.Select
import Kandelo.Kernel.Pty
import Kandelo.Kernel.Rights.Attached
import Kandelo.Kernel.Rights.Drained
import Kandelo.Kernel.Rights.Received
import Kandelo.Kernel.Signal.TimerRuns
import Kandelo.Kernel.Signal.Unblockable
import Kandelo.Kernel.Socket.Ephemeral
import Kandelo.Kernel.Socket.Rename
import Kandelo.Kernel.Spawn.Marshal
import Kandelo.Kernel.File.Positioned
