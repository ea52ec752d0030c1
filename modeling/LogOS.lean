import LogOS.Package.Versions
import LogOS.Storage.Catalog.Retry
import LogOS.StorageService.Coherence
import LogOS.StorageService.Restore
import LogOS.Kernel.Teardown
import LogOS.Kernel.Wakeups
import LogOS.Kernel.ServiceManager
import LogOS.Flow.Transactions
import LogOS.User.Image
import LogOS.User.Authority
import LogOS.Memory.Shards
import LogOS.Memory.PageMap
import LogOS.Memory.LoadedProgram
import LogOS.Flow.WellFormed
import LogOS.Flow.Check
import LogOS.Graphics.Gpu
import LogOS.Terminal.Replica
import LogOS.Terminal.Sheet
import LogOS.Kernel.Heartbeats
import LogOS.User.LockScreen
import LogOS.StorageService.Overlay
