import Sledge.Core.Isolation
import Sledge.Native.Locker
import Sledge.Native.Correlation
import Sledge.Native.Notifications
import Sledge.Native.OutputRecovery
import Sledge.Native.CausalTiming
import Sledge.Native.StreamOrder
import Sledge.Linux.ProcessStat
import Sledge.Linux.ReleaseWindow
import Sledge.Linux.Catalogue
import Sledge.Native.Framing
import Sledge.Link.Codecs
import Sledge.Broker.Teardown
import Sledge.Config.Aliases
import Sledge.Config.FirstMatch
import Sledge.Broker.Ownership
import Sledge.Daemon.HoldTracking
import Sledge.Macos.Tap
import Sledge.Link.Reconciliation
