import Llumnix.Coroutine.Basic
import Llumnix.Coroutine.Safe
import Llumnix.Coroutine.Run
import Llumnix.V1.Protocol
import Llumnix.V1.Migrate
import Llumnix.V1.Footprint
import Llumnix.V1.Ledger
import Llumnix.V1.Stranding
import Llumnix.V1.Doubling
import Llumnix.V1.CommitOrder
import Llumnix.Balance.Turns
import Llumnix.Cache.Affinity
import Llumnix.Cache.PrefixHashes
import Llumnix.Client.Abort
import Llumnix.Client.Basic
import Llumnix.Client.Blade
import Llumnix.Client.Handlers
import Llumnix.Client.Ledger
import Llumnix.Client.Streams
import Llumnix.Client.Translation
import Llumnix.Coroutine.Blind
import Llumnix.Coroutine.Iterate
import Llumnix.Coroutine.Product
import Llumnix.Coroutine.Replay
import Llumnix.Coroutine.Segment
import Llumnix.Exclusion.Basic
import Llumnix.Generate.Basic
import Llumnix.Generate.Cancel
import Llumnix.Generate.Ends
import Llumnix.Generate.Outcome
import Llumnix.Hash.Chain
import Llumnix.Legacy.BlockCopy
import Llumnix.Legacy.Callback
import Llumnix.Legacy.Conserve
import Llumnix.Legacy.Coordinator
import Llumnix.Legacy.DataPlane
import Llumnix.Legacy.FreshBlocks
import Llumnix.Legacy.LiveCopy
import Llumnix.Legacy.MigrateOut
import Llumnix.Legacy.NoLeak
import Llumnix.Legacy.Ranks
import Llumnix.Legacy.Recovery
import Llumnix.Legacy.Request
import Llumnix.Legacy.Rounds
import Llumnix.Legacy.Scheduler
import Llumnix.Legacy.Selection
import Llumnix.Legacy.Stages
import Llumnix.Legacy.Workers
import Llumnix.Log.LastWrite
import Llumnix.Machine.Link
import Llumnix.Machine.Progress
import Llumnix.Machine.Run
import Llumnix.Output.BackQueue
import Llumnix.Output.FanOut
import Llumnix.Output.Order
import Llumnix.Pool.Basic
import Llumnix.Python.Dict
import Llumnix.Python.Grouped
import Llumnix.Python.Json
import Llumnix.Python.Number
import Llumnix.Python.Raise
import Llumnix.Python.Slices
import Llumnix.Python.Sorted
import Llumnix.Python.Text
import Llumnix.Queue.Zmq
import Llumnix.Routing
import Llumnix.Routing.Fanout
import Llumnix.Routing.Reconcile
import Llumnix.Rpc.Basic
import Llumnix.Rpc.Linear
import Llumnix.Rpc.Service
import Llumnix.Scaling.Awaits
import Llumnix.Scaling.Capacity
import Llumnix.Scaling.Deploy
import Llumnix.Scaling.Fleet
import Llumnix.Scaling.Launcher
import Llumnix.Scaling.Loop
import Llumnix.Scaling.PdStates
import Llumnix.Scaling.Ports
import Llumnix.Scaling.Ratio
import Llumnix.Scaling.Slots
import Llumnix.Scaling.Watch
import Llumnix.Scaling.WatchRuns
import Llumnix.Scheduler.Cluster
import Llumnix.Scheduler.Confined
import Llumnix.Scheduler.Dispatch
import Llumnix.Scheduler.Fair
import Llumnix.Scheduler.Guard
import Llumnix.Scheduler.Info
import Llumnix.Scheduler.Load
import Llumnix.Scheduler.LoadOrder
import Llumnix.Scheduler.Pairing
import Llumnix.Scheduler.Poll
import Llumnix.Scheduler.Pools
import Llumnix.Scheduler.Quiesce
import Llumnix.Scheduler.Rebuild
import Llumnix.Scheduler.Registries
import Llumnix.Scheduler.TopK
import Llumnix.Simulator.Executor
import Llumnix.Simulator.Profiling
import Llumnix.Transfer.Endpoint
import Llumnix.Transfer.Engine
import Llumnix.Transfer.Lifecycle
import Llumnix.Transfer.RequestId
import Llumnix.V1.Adapter
import Llumnix.V1.Checksum
import Llumnix.V1.CleanUp
import Llumnix.V1.Coordinator
import Llumnix.V1.Coverage
import Llumnix.V1.Delivery
import Llumnix.V1.EpochReplay
import Llumnix.V1.ImportShape
import Llumnix.V1.PairTasks
import Llumnix.V1.Rollback
import Llumnix.V1.Selection
import Llumnix.V1.Server
import Llumnix.V1.StaleEpochs
