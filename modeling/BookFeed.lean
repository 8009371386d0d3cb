import BookFeed.Advisory
import BookFeed.Binary64.Basic
import BookFeed.Binary64.Text
import BookFeed.Book.Basic
import BookFeed.Book.Json
import BookFeed.Book.State
import BookFeed.Counters
import BookFeed.Decimal.Arith
import BookFeed.Decimal.Basic
import BookFeed.Decimal.Text
import BookFeed.Error
import BookFeed.Json.Basic
import BookFeed.Json.Decode
import BookFeed.Json.Number
import BookFeed.Json.Read
import BookFeed.Json.Value
import BookFeed.Message.Basic
import BookFeed.Message.Frame
import BookFeed.Message.Json
import BookFeed.Orders.Resting
import BookFeed.PowerOfTen
import BookFeed.Proofs.Message.Order
import BookFeed.Proofs.Orders.Snapshot
import BookFeed.Proofs.Synchronizer.Arrival
import BookFeed.Proofs.Synchronizer.Highest
import BookFeed.Proofs.Synchronizer.History
import BookFeed.Proofs.Synchronizer.Keeps
import BookFeed.Proofs.Synchronizer.Replay
import BookFeed.Proofs.Synchronizer.Retention
import BookFeed.Proofs.Synchronizer.Step
import BookFeed.Proofs.Synchronizer.Window
import BookFeed.Proofs.Throttler.Capacity
import BookFeed.Proofs.Throttler.Charges
import BookFeed.Proofs.Throttler.Interleaving
import BookFeed.Proofs.Throttler.Queue
import BookFeed.Proofs.Throttler.Settings
import BookFeed.RateLimit.Basic
import BookFeed.RateLimit.Text
import BookFeed.Registry
import BookFeed.Rounding
import BookFeed.Schedule
import BookFeed.Settings.Basic
import BookFeed.Settings.LogFormat
import BookFeed.Sorted
import BookFeed.Source.Feed
import BookFeed.Source.Kind
import BookFeed.Source.Peer
import BookFeed.Source.Polled
import BookFeed.Source.TrackedPairs
import BookFeed.Synchronizer
import BookFeed.Text.Blank
import BookFeed.Text.Upper
import BookFeed.Text.Urlencoded
import BookFeed.Text.Utf8
import BookFeed.Throttler.Basic
import BookFeed.Throttler.Queue
import BookFeed.Time
import BookFeed.Tracker.Basic
import BookFeed.Tracker.Inbox
import BookFeed.Tracker.Run
import BookFeed.Tracker.Settings
import BookFeed.Tracker.Step
import BookFeed.Tracker.TradeStream
import BookFeed.UserStream.Basic
import BookFeed.UserStream.Client
import BookFeed.UserStream.Connection
import BookFeed.UserStream.Session
import BookFeed.Proofs.Book.Ladder
import BookFeed.Proofs.Orders.Totals
import BookFeed.Proofs.Synchronizer.Rollback
import BookFeed.Proofs.Synchronizer.Agreement
import BookFeed.Proofs.Registry
import BookFeed.Proofs.Synchronizer.InOrder
import BookFeed.Proofs.Tracker.Pipeline
import BookFeed.Proofs.Tracker.Interleaving
import BookFeed.Proofs.Tracker.Delivery
import BookFeed.Proofs.Tracker.Rest
import BookFeed.Proofs.Tracker.Independence
import BookFeed.Proofs.Synchronizer.FailedSnapshot
import BookFeed.Proofs.Synchronizer.Redelivery
import BookFeed.Proofs.Throttler.Linkage
import BookFeed.Proofs.Tracker.Calls
import BookFeed.Proofs.Tracker.Shelf
import BookFeed.Proofs.Tracker.Tracking
import BookFeed.Proofs.Throttler.Pruning
import BookFeed.Proofs.Throttler.Stopping
import BookFeed.Proofs.UserStream.Delivery
import BookFeed.Proofs.UserStream.Settling
import BookFeed.Proofs.UserStream.Listeners
import BookFeed.Proofs.Orders.Residue
import BookFeed.Proofs.Synchronizer.Residue
import BookFeed.Proofs.Decimal.Range
import BookFeed.Proofs.Decimal.Exact
import BookFeed.Proofs.Synchronizer.Advance
import BookFeed.Proofs.Orders.Sums
import BookFeed.Proofs.Tracker.Audit
import BookFeed.Proofs.Tracker.Accounts
import BookFeed.Proofs.Tracker.Handover
import BookFeed.Proofs.Tracker.Balance
import BookFeed.Proofs.Tracker.Backlog
import BookFeed.Proofs.Tracker.AtDesks
import BookFeed.Proofs.Orders.Rows
import BookFeed.Proofs.Orders.Faults
import BookFeed.Proofs.Synchronizer.Ids
import BookFeed.Proofs.Tracker.Behind
import BookFeed.Proofs.Tracker.Emission
import BookFeed.Proofs.Tracker.Closing
import BookFeed.Proofs.Tracker.Closed
import BookFeed.Proofs.Tracker.Restart
import BookFeed.Proofs.Orders.Survivors
import BookFeed.Proofs.Orders.Memory
import BookFeed.Proofs.Synchronizer.Duplicates
import BookFeed.Proofs.Message.Made
import BookFeed.Proofs.Synchronizer.Overflow
import BookFeed.Proofs.Book.Writes
import BookFeed.Proofs.Book.States
import BookFeed.Proofs.Book.Merge
import BookFeed.Proofs.Decimal.Quotient
import BookFeed.Proofs.Throttler.Share
import BookFeed.Proofs.Throttler.Words
import BookFeed.Proofs.Decimal.Sign
import BookFeed.Proofs.Decimal.Total
import BookFeed.Proofs.Book.Health
import BookFeed.Proofs.Source.Replies
import BookFeed.Proofs.Source.Listening
import BookFeed.Proofs.Source.Forwarding
import BookFeed.Proofs.Source.Rounds
import BookFeed.Proofs.Tracker.Unrouted
import BookFeed.Proofs.Tracker.Stopped
import BookFeed.Proofs.Book.Imbalance
import BookFeed.Proofs.Book.Figures
import BookFeed.Proofs.UserStream.Sessions
import BookFeed.Proofs.Json.Grammar
import BookFeed.Proofs.Json.Elements
import BookFeed.Proofs.Message.Batch
import BookFeed.Proofs.Binary64.Value
import BookFeed.Proofs.Message.Preorder
import BookFeed.Proofs.RateLimit.Text
import BookFeed.Proofs.Registry.Handles
import BookFeed.Proofs.Decimal.Text
import BookFeed.Proofs.Json.Writing
import BookFeed.Proofs.Book.Published
