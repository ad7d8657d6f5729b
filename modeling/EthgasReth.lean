import EthgasReth.Lib.System
import EthgasReth.Lib.Result
import EthgasReth.Lib.OrderedGroups
import EthgasReth.Lib.CellWrites
import EthgasReth.Primitives
import EthgasReth.Validation
import EthgasReth.Cache
import EthgasReth.BlockAssembler
import EthgasReth.Execution
import EthgasReth.Pending
import EthgasReth.Build
import EthgasReth.Processor
import EthgasReth.Run
import EthgasReth.Ledger
import EthgasReth.BuildSpec
import EthgasReth.Snapshots
import EthgasReth.Contiguous
import EthgasReth.Reference
import EthgasReth.Payloads
import EthgasReth.Broadcast
import EthgasReth.Reconcile
import EthgasReth.Recovery
import EthgasReth.Replay
import EthgasReth.Incremental
import EthgasReth.Coherence
import EthgasReth.FullReplay
import EthgasReth.Lockstep
import EthgasReth.Reordering
import EthgasReth.Lib.Words
import EthgasReth.Simulator.Payment
import EthgasReth.Simulator.PaymentChecks
import EthgasReth.Simulator.ProposerPayment
import EthgasReth.Lib.KeyedSet
import EthgasReth.Simulator.InclusionProducer
import EthgasReth.Rpc.PipeLatest
import EthgasReth.Simulator.InclusionList
import EthgasReth.BlockNumbers
import EthgasReth.Simulator.DisallowList
import EthgasReth.Rpc.GetLogs
import EthgasReth.Publication
import EthgasReth.Staleness
import EthgasReth.Rpc.SubscribeThenRead
import EthgasReth.Lib.ReadCache
import EthgasReth.Simulator.BlockValidation
import EthgasReth.Simulator.SharedCache
import EthgasReth.CacheHistory
import EthgasReth.Rpc.ConnectionSlots
import EthgasReth.Simulator.Multisend
import EthgasReth.Simulator.InclusionConstraint
import EthgasReth.Recutting
import EthgasReth.StalenessGuards
import EthgasReth.Rpc.BlockViews
import EthgasReth.Ingress
import EthgasReth.Rpc.InclusionFee
import EthgasReth.Lib.Json
import EthgasReth.Wire
import EthgasReth.Lib.Hex
import EthgasReth.WireFormat
import EthgasReth.Lib.Trace
import EthgasReth.Subscription
import EthgasReth.Lib.BroadcastRing
import EthgasReth.Rpc.Pipes
import EthgasReth.Rpc.Subscriptions
import EthgasReth.Rpc.PendingView
import EthgasReth.Simulator.Acceptance
import EthgasReth.Simulator.Submissions
import EthgasReth.Lib.Watch
import EthgasReth.Simulator.InclusionFeed
