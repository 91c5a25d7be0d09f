import Mercury.Core.MessageId
import Mercury.Crdt.ClockRuns
import Mercury.Crdt.Convergence
import Mercury.Crdt.CounterRuns
import Mercury.Crdt.DotRuns
import Mercury.Crdt.LogRuns
import Mercury.Crdt.MergeBounds
import Mercury.Crdt.MergeLaws
import Mercury.Crdt.ReactionCounts
import Mercury.Crdt.RegisterRuns
import Mercury.Gateway.Announcements
import Mercury.Gateway.BroadcastOrder
import Mercury.Gateway.CollectorRuns
import Mercury.Gateway.CorruptEntries
import Mercury.Gateway.CrashFreedom
import Mercury.Gateway.FailedReads
import Mercury.Gateway.GenuineReads
import Mercury.Gateway.HistoryOrder
import Mercury.Gateway.MemberRemoval
import Mercury.Gateway.Noninterference
import Mercury.Gateway.OrderFreeBatches
import Mercury.Gateway.RateLimits
import Mercury.Gateway.Revocation
import Mercury.Gateway.RowRuns
import Mercury.Gateway.SyncFanout
import Mercury.Gateway.SyncSubscriptions
import Mercury.Gateway.Uuids
import Mercury.Mls.ChannelKeys
import Mercury.Mls.GroupCreation
import Mercury.Mls.Joining
import Mercury.Mls.MemberRuns
import Mercury.Mls.Removal
import Mercury.Persistence.KeyPackageRuns
import Mercury.Persistence.MemberRuns
import Mercury.Sdk.ConcurrentQueue
import Mercury.Sdk.Delivery
import Mercury.Sdk.DialerRuns
import Mercury.Sdk.FleetDelivery
import Mercury.Sdk.FleetStores
import Mercury.Sdk.HandPacked
import Mercury.Sdk.HexStrings
import Mercury.Sdk.MessageRoutes
import Mercury.Sdk.Outages
import Mercury.Sdk.QueueRefinement
import Mercury.Sdk.Rejoin
import Mercury.Sdk.ReplyRuns
import Mercury.Sdk.Tokens
import Mercury.Sdk.WasmBridge
