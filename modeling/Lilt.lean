import Lilt.Lib.Transition
import Lilt.Lib.Device
import Lilt.Lib.Atomic
import Lilt.Lib.Ring
import Lilt.Lib.Probing
import Lilt.Lib.Ledger
import Lilt.Lib.Checks
import Lilt.Lib.Stages
import Lilt.Lib.Keyed
import Lilt.Lib.Survival
import Lilt.Lib.Walks
import Lilt.Lib.Greedy
import Lilt.Lib.CInt
import Lilt.Lib.Binary64
import Lilt.Lib.Gate
import Lilt.Lib.Meter
import Lilt.Lib.Pipe
import Lilt.Lib.Leftmost
import Lilt.Lib.Permit
import Lilt.Driver.Handles
import Lilt.Driver.Launches
import Lilt.Driver.Priorities
import Lilt.Config.Settings
import Lilt.Config.Launcher
import Lilt.Config.Names
import Lilt.Config.Numerals
import Lilt.Config.Isolation
import Lilt.Activity.Shared
import Lilt.Activity.Session
import Lilt.Activity.Registrants
import Lilt.Activity.Recovery
import Lilt.Activity.Leaving
import Lilt.Hp.Safety
import Lilt.Hp.Wakeup
import Lilt.Hp.Pass
import Lilt.Hp.Streams
import Lilt.Hp.Hooks
import Lilt.Config.Agreement
import Lilt.Be.Config
import Lilt.Be.Memory
import Lilt.Be.Reports
import Lilt.Be.MemoryThreads
import Lilt.Be.Survival
import Lilt.Be.Monotone
import Lilt.Be.InFlight
import Lilt.Be.Predicted
import Lilt.Be.Blocks
import Lilt.Be.Profiles
import Lilt.Be.ProfileMap
import Lilt.Be.Sampling
import Lilt.Be.Estimates
import Lilt.Be.Group
import Lilt.Be.Limits
import Lilt.Graph.Layering
import Lilt.Graph.LayerLoop
import Lilt.Graph.Grouping
import Lilt.Graph.CudaGraph
import Lilt.Graph.Optimal
import Lilt.Graph.Build
import Lilt.Graph.Launch
import Lilt.Graph.Symbols
import Lilt.Graph.Interception
import Lilt.Graph.Registry
import Lilt.Graph.Objects
import Lilt.Graph.Ownership
import Lilt.Graph.Process
import Lilt.Graph.Fresh
import Lilt.Be.Hooks
import Lilt.Be.Threads
import Lilt.Be.Singleton
import Lilt.Be.Boundary
import Lilt.Driver.Capture
import Lilt.Driver.Version
import Lilt.Be.Doubles
import Lilt.Be.Snapshot
import Lilt.Tgs.Rates
import Lilt.Tgs.Manager
import Lilt.Tgs.Response
import Lilt.Tgs.Service
import Lilt.Tgs.Counting
import Lilt.Tgs.Connection
import Lilt.Tgs.Socket
import Lilt.Tgs.Workers
import Lilt.Colocation.Processes
import Lilt.Colocation.Launches
import Lilt.Colocation.Waiting
import Lilt.Hp.WindDown
