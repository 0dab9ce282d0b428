import DataGrid.Entity.Basic
import DataGrid.Entity.Delta
import DataGrid.Entity.ScoreTable
import DataGrid.Entity.SetValue
import DataGrid.Entity.Snapshot
import DataGrid.Entity.StringValue
import DataGrid.Event.Compact
import DataGrid.Event.Error
import DataGrid.Event.EventId
import DataGrid.Event.IdentityCache
import DataGrid.Event.MembershipId
import DataGrid.Event.Producer
import DataGrid.Event.Tracker
import DataGrid.Fabric.Basic
import DataGrid.Fabric.Config
import DataGrid.Fabric.Delivery
import DataGrid.Fabric.Error
import DataGrid.Fabric.Membership
import DataGrid.Fabric.Network
import DataGrid.Fabric.TaskQueue
import DataGrid.Frame.Basic
import DataGrid.Frame.Message
import DataGrid.Json.Decode
import DataGrid.Json.Encode
import DataGrid.Json.Numeral
import DataGrid.Json.Place
import DataGrid.Json.Reader
import DataGrid.Json.Value
import DataGrid.Json.Writer
import DataGrid.Member
import DataGrid.Number.Binary64
import DataGrid.Number.Shortest
import DataGrid.Ordered.Map
import DataGrid.Ordered.Set
import DataGrid.Proofs.Cluster.Agreement
import DataGrid.Proofs.Cluster.Consistency
import DataGrid.Proofs.Cluster.Convergence
import DataGrid.Proofs.Cluster.Crash
import DataGrid.Proofs.Cluster.Distributing
import DataGrid.Proofs.Cluster.Doubt
import DataGrid.Proofs.Cluster.Exchange
import DataGrid.Proofs.Cluster.Interleaving
import DataGrid.Proofs.Cluster.Launching
import DataGrid.Proofs.Cluster.Letters
import DataGrid.Proofs.Cluster.Parties
import DataGrid.Proofs.Cluster.Pushing
import DataGrid.Proofs.Cluster.Repair
import DataGrid.Proofs.Cluster.Replicating
import DataGrid.Proofs.Cluster.Reporting
import DataGrid.Proofs.Cluster.Rounds
import DataGrid.Proofs.Cluster.Seats
import DataGrid.Proofs.Cluster.Settling
import DataGrid.Proofs.Cluster.Sites
import DataGrid.Proofs.Cluster.Start
import DataGrid.Proofs.Cluster.Stopped
import DataGrid.Proofs.Cluster.Tidiness
import DataGrid.Proofs.Cluster.Traffic
import DataGrid.Proofs.Cluster.Turns
import DataGrid.Proofs.Cluster.Upkeep
import DataGrid.Proofs.Cluster.Writing
import DataGrid.Proofs.Entity.Alike
import DataGrid.Proofs.Entity.Appends
import DataGrid.Proofs.Entity.Effects
import DataGrid.Proofs.Entity.Faithful
import DataGrid.Proofs.Entity.Grammar
import DataGrid.Proofs.Entity.Ranking
import DataGrid.Proofs.Entity.Redelivery
import DataGrid.Proofs.Entity.Refusals
import DataGrid.Proofs.Entity.Signs
import DataGrid.Proofs.Entity.Told
import DataGrid.Proofs.Entity.Undoing
import DataGrid.Proofs.Entity.Wire
import DataGrid.Proofs.Event.Derived
import DataGrid.Proofs.Event.Equality
import DataGrid.Proofs.Event.Essential
import DataGrid.Proofs.Event.Identity
import DataGrid.Proofs.Event.Numbering
import DataGrid.Proofs.Event.Padding
import DataGrid.Proofs.Event.Passage
import DataGrid.Proofs.Event.Pinned
import DataGrid.Proofs.Event.Remembered
import DataGrid.Proofs.Event.Reserved
import DataGrid.Proofs.Event.Stripped
import DataGrid.Proofs.Event.Unseen
import DataGrid.Proofs.Event.Widths
import DataGrid.Proofs.Event.Wire
import DataGrid.Proofs.Fabric.Attached
import DataGrid.Proofs.Fabric.Departures
import DataGrid.Proofs.Fabric.Listening
import DataGrid.Proofs.Fabric.Queueing
import DataGrid.Proofs.Fabric.Sending
import DataGrid.Proofs.Fabric.Wiring
import DataGrid.Proofs.Frame.Extent
import DataGrid.Proofs.Json.Exceptions
import DataGrid.Proofs.Json.Floats
import DataGrid.Proofs.Json.Numerals
import DataGrid.Proofs.Json.Scalars
import DataGrid.Proofs.Json.Values
import DataGrid.Proofs.Number.Rounding
import DataGrid.Proofs.Number.Shortest
import DataGrid.Proofs.Number.TotalOrder
import DataGrid.Proofs.Ordered.Lookup
import DataGrid.Proofs.Ordered.Pairing
import DataGrid.Proofs.Ordered.Setting
import DataGrid.Proofs.Region.Alone
import DataGrid.Proofs.Region.Answers
import DataGrid.Proofs.Region.Comparing
import DataGrid.Proofs.Region.Failures
import DataGrid.Proofs.Region.History
import DataGrid.Proofs.Region.Mending
import DataGrid.Proofs.Region.Passage
import DataGrid.Proofs.Region.Reference
import DataGrid.Proofs.Region.Repeating
import DataGrid.Proofs.Region.Replicas
import DataGrid.Proofs.Region.Reports
import DataGrid.Proofs.Region.Schedules
import DataGrid.Proofs.Region.Simulation
import DataGrid.Proofs.Region.Wire
import DataGrid.Proofs.Reply.Calls
import DataGrid.Proofs.Reply.Fate
import DataGrid.Proofs.Reply.Holding
import DataGrid.Proofs.Reply.Numbers
import DataGrid.Proofs.Reply.Passage
import DataGrid.Proofs.Reply.Present
import DataGrid.Proofs.Reply.Records
import DataGrid.Proofs.Reply.Resolution
import DataGrid.Proofs.Reply.Reuse
import DataGrid.Proofs.Reply.Roll
import DataGrid.Proofs.Reply.Run
import DataGrid.Proofs.Reply.Search
import DataGrid.Proofs.Reply.Tenure
import DataGrid.Proofs.Reply.Verdict
import DataGrid.Proofs.Reply.Wire
import DataGrid.Proofs.Store.Mirror
import DataGrid.Proofs.Store.Replay
import DataGrid.Proofs.Store.Staging
import DataGrid.Proofs.Wire.Canonical
import DataGrid.Proofs.Wire.Forms
import DataGrid.Proofs.Wire.Incremental
import DataGrid.Proofs.Wire.Reads
import DataGrid.Proofs.Wire.Values
import DataGrid.Region.Cluster
import DataGrid.Region.Command
import DataGrid.Region.Replication
import DataGrid.Region.State
import DataGrid.Region.Update
import DataGrid.Reply.Basic
import DataGrid.Reply.Exception
import DataGrid.Reply.Keeper
import DataGrid.Reply.Processor
import DataGrid.Reply.UuidText
import DataGrid.Store.Commit
import DataGrid.Store.Memory
import DataGrid.Wire.Bytes
import DataGrid.Wire.Draft
import DataGrid.Wire.Fault
import DataGrid.Wire.Hex
import DataGrid.Wire.Reader
import DataGrid.Wire.Utf8
import DataGrid.Wire.Version
