import Rvvm.Ata.Faults
import Rvvm.Ata.Transfer
import Rvvm.Ata.Identify
import Rvvm.Ata.TaskFile
import Rvvm.Hart.Privilege
import Rvvm.Hart.Events
import Rvvm.Hart.Trap
import Rvvm.Hart.Interrupts
import Rvvm.Hart.Vector
import Rvvm.Hart.Masking
import Rvvm.Hart.Posting
import Rvvm.Registry.Wiring
import Rvvm.Registry.Irq
import Rvvm.Registry.Concurrent
import Rvvm.Atomic
import Rvvm.Spinlock
