import OutboxNet.Core.Models
import OutboxNet.Core.Encoding
import OutboxNet.Core.Options
import OutboxNet.Core.ServiceCollection
import OutboxNet.Lib.Prog
import OutboxNet.Lib.Protocol
import OutboxNet.Lib.Parallel
import OutboxNet.Lib.Interleave
import OutboxNet.Lib.ListSchedule
import OutboxNet.Lib.Numbering
import OutboxNet.Lib.Ranking
import OutboxNet.Lib.Retry
import OutboxNet.Lib.Runs
import OutboxNet.Lib.Table
import OutboxNet.Lib.Alike
import OutboxNet.Lib.Restrict
import OutboxNet.Lib.PushPop
import OutboxNet.Lib.Buffer
import OutboxNet.Lib.Threads
import OutboxNet.Lib.Traces
import OutboxNet.Lib.ExpiringCache
import OutboxNet.Lib.Replace
import OutboxNet.Lib.DropOldest
import OutboxNet.Lib.FirstSeen
import OutboxNet.Store.Sql
import OutboxNet.Core.Registrations
import OutboxNet.Store.OutboxStore
import OutboxNet.Store.AttemptStore
import OutboxNet.Store.AttemptNumbers
import OutboxNet.Store.AttemptQueries
import OutboxNet.Store.Eligibility
import OutboxNet.Store.BatchPartition
import OutboxNet.Store.BulkSave
import OutboxNet.Store.Operations
import OutboxNet.Store.EfSchema
import OutboxNet.Store.RowInvariant
import OutboxNet.Store.LockExclusion
import OutboxNet.Store.LockDuration
import OutboxNet.Store.LockMaintenance
import OutboxNet.Store.Backlog
import OutboxNet.Store.TenantSharding
import OutboxNet.Store.Providers
import OutboxNet.Store.PublishRoundTrip
import OutboxNet.Store.SubscriptionStore
import OutboxNet.Store.SubscriptionRegistry
import OutboxNet.Store.SubscriptionRoundTrip
import OutboxNet.Delivery.AzureStorageQueue
import OutboxNet.Delivery.Identifiers
import OutboxNet.Delivery.Signature
import OutboxNet.Store.TenantSecrets
import OutboxNet.Delivery.HttpWebhookDeliverer
import OutboxNet.Delivery.RetryPolicy
import OutboxNet.Processor.DeliveryId
import OutboxNet.Processor.Calls
import OutboxNet.Processor.Pipeline
import OutboxNet.Processor.Batch
import OutboxNet.Processor.RetrySchedule
import OutboxNet.Processor.Round
import OutboxNet.Processor.Conformance
import OutboxNet.Processor.Database
import OutboxNet.Processor.Bookkeeping
import OutboxNet.Processor.Frame
import OutboxNet.Processor.Queued
import OutboxNet.Processor.Host
import OutboxNet.Processor.Rehearsal
import OutboxNet.Processor.SubscriptionCache
import OutboxNet.Processor.Isolation
import OutboxNet.Processor.Containment
import OutboxNet.Processor.Faultless
import OutboxNet.Processor.Conduct
import OutboxNet.Processor.Confluence
import OutboxNet.Processor.FailedRounds
import OutboxNet.Processor.HotCold
import OutboxNet.Processor.FaultIsolation
import OutboxNet.Processor.Handover
import OutboxNet.Processor.Noninterference
import OutboxNet.Processor.Service
import OutboxNet.Processor.InFlight
import OutboxNet.Processor.VisibilityTimeout
import OutboxNet.Processor.FanOut
import OutboxNet.Processor.LockRelease
import OutboxNet.Processor.DeliveryKeys
import OutboxNet.System.World
import OutboxNet.System.Fencing
import OutboxNet.System.Recorded
import OutboxNet.System.Rehearsal
import OutboxNet.System.Redelivery
import OutboxNet.System.Counters
import OutboxNet.System.ExactlyOnce
import OutboxNet.System.Overlap
import OutboxNet.System.RetryBudget
import OutboxNet.System.Backoff
import OutboxNet.System.FreshIds
import OutboxNet.System.AttemptLog
import OutboxNet.System.Duplicates
import OutboxNet.System.Receivers
import OutboxNet.System.Lifetime
import OutboxNet.System.LiveLock
import OutboxNet.System.Outbox
import OutboxNet.System.Committed
import OutboxNet.System.Refinement
import OutboxNet.System.PartitionOrder
import OutboxNet.System.QueueHandover
