import TupleSpace.Bench
import TupleSpace.Bench.Report
import TupleSpace.Calendar
import TupleSpace.Calendar.Rfc3339
import TupleSpace.Call
import TupleSpace.CommandLine
import TupleSpace.CommandLine.Response
import TupleSpace.Config
import TupleSpace.Config.Document
import TupleSpace.Decimal.Binary64
import TupleSpace.Decimal.Shortest
import TupleSpace.Digest.Blake3
import TupleSpace.Directory
import TupleSpace.Directory.Uri
import TupleSpace.Engine
import TupleSpace.Engine.PerKey
import TupleSpace.Engine.SingleLock
import TupleSpace.Entry
import TupleSpace.Error
import TupleSpace.Files
import TupleSpace.Generations
import TupleSpace.Json.Described
import TupleSpace.Json.Reading
import TupleSpace.Json.Value
import TupleSpace.Json.Writing
import TupleSpace.Json.Written
import TupleSpace.KeyQueue
import TupleSpace.Listener.Registry
import TupleSpace.Listing
import TupleSpace.Main
import TupleSpace.Metrics
import TupleSpace.Monitor
import TupleSpace.Snapshot
import TupleSpace.Snapshot.Reading
import TupleSpace.Space
import TupleSpace.Sweeper
import TupleSpace.Template
import TupleSpace.Text.Blank
import TupleSpace.Text.Quoted
import TupleSpace.Text.Visible
import TupleSpace.Time
import TupleSpace.World
import TupleSpace.World.Calls
import TupleSpace.World.Closing
import TupleSpace.World.Futures
import TupleSpace.World.Insertion
import TupleSpace.World.Lookup
import TupleSpace.Yaml.Cursor
import TupleSpace.Yaml.Layout
import TupleSpace.Yaml.Node
import TupleSpace.Yaml.Scalar
import TupleSpace.Yaml.Token
import TupleSpace.Proofs.KeyQueue.Walks
import TupleSpace.Proofs.Store
import TupleSpace.Proofs.Engine.Lawful
import TupleSpace.Proofs.Engine.Keyed
import TupleSpace.Proofs.Engine.SingleLock
import TupleSpace.Proofs.Engine.PerKey.Books
import TupleSpace.Proofs.Engine.PerKey
import TupleSpace.Proofs.Run
import TupleSpace.Proofs.Run.Blocked
import TupleSpace.Proofs.Run.Orderly
import TupleSpace.Proofs.Run.Spaces
import TupleSpace.Proofs.Wakeups
import TupleSpace.Proofs.RecordLifeCycle
import TupleSpace.Proofs.Eager
import TupleSpace.Proofs.EagerExpiry
import TupleSpace.Proofs.Lazy
import TupleSpace.Proofs.Eager.Keys
import TupleSpace.Proofs.Ledger
import TupleSpace.Proofs.Ledger.Accounts
import TupleSpace.Proofs.Conservation
import TupleSpace.Proofs.Run.Program
import TupleSpace.Proofs.Engine.Settings
import TupleSpace.Proofs.Run.Turns
import TupleSpace.Proofs.Drains
import TupleSpace.Proofs.Calendar
import TupleSpace.Proofs.Snapshot
import TupleSpace.Proofs.Files
import TupleSpace.Proofs.Storing
import TupleSpace.Proofs.Restart
import TupleSpace.Proofs.Store.Volume
import TupleSpace.Proofs.Generations
import TupleSpace.Proofs.Engine.Exact
import TupleSpace.Proofs.Engine.SingleLock.Exact
import TupleSpace.Proofs.Engine.PerKey.Exact
import TupleSpace.Proofs.Picture
import TupleSpace.Proofs.Ticks
import TupleSpace.Proofs.Session
import TupleSpace.Proofs.Session.Engines
import TupleSpace.Proofs.Solo
import TupleSpace.Proofs.Session.Worlds
import TupleSpace.Proofs.Session.Waits
import TupleSpace.Proofs.Session.Errands
import TupleSpace.Proofs.Agreement
import TupleSpace.Proofs.Engine.Housekeeping
import TupleSpace.Proofs.Run.Awaiting
import TupleSpace.Proofs.PendingSweeps
import TupleSpace.Proofs.SweepReach
import TupleSpace.Proofs.Outcomes
import TupleSpace.Proofs.Run.Rest
import TupleSpace.Proofs.Delivery
import TupleSpace.Proofs.Run.Intact
import TupleSpace.Proofs.Worlds.Spaces
import TupleSpace.Proofs.Worlds.Leads
import TupleSpace.Proofs.Worlds.Operations
import TupleSpace.Proofs.Directory.Uri
import TupleSpace.Proofs.Directory.Lookups
import TupleSpace.Proofs.Worlds.Deeds
import TupleSpace.Proofs.Worlds.Unnumbered
import TupleSpace.Proofs.Closing
import TupleSpace.Proofs.Refusals
import TupleSpace.Proofs.Directory.Histories
import TupleSpace.Proofs.Directory
import TupleSpace.Proofs.Drains.Staleness
import TupleSpace.Proofs.Lazy.Cancellation
import TupleSpace.Proofs.Worlds.Settling
import TupleSpace.Proofs.Cancellation
import TupleSpace.Proofs.Engine.Discreet
import TupleSpace.Proofs.Listeners.Registrations
import TupleSpace.Proofs.Listeners.Untold
import TupleSpace.Proofs.Listeners.Operations
import TupleSpace.Proofs.Abandonment
import TupleSpace.Proofs.Listeners.Nesting
import TupleSpace.Proofs.Listeners.Accounts
import TupleSpace.Proofs.Listeners.Chronicle
import TupleSpace.Proofs.Listeners.Notes
import TupleSpace.Proofs.Listeners
import TupleSpace.Proofs.Directory.Failures
import TupleSpace.Proofs.Cadence
import TupleSpace.Proofs.SweepCounts
import TupleSpace.Proofs.Files.Disks
import TupleSpace.Proofs.FailedWrites
import TupleSpace.Proofs.CallCounts
import TupleSpace.Proofs.NonBlocking
import TupleSpace.Proofs.RejectedTimeouts
import TupleSpace.Proofs.Text.Lines
import TupleSpace.Proofs.Listing
import TupleSpace.Proofs.Json.Compact
import TupleSpace.Proofs.Json.Fields
import TupleSpace.Proofs.Digests
import TupleSpace.Proofs.Bench.Shares
import TupleSpace.Proofs.Bench.Threads
import TupleSpace.Proofs.Bench.Engines
import TupleSpace.Proofs.Bench.Runs
import TupleSpace.Proofs.Bench.Checksum
import TupleSpace.Proofs.Bench
import TupleSpace.Proofs.KeyQueue
import TupleSpace.Proofs.Run.Timers
import TupleSpace.Proofs.Run.WakeUps
import TupleSpace.Proofs.Run.Crowds
import TupleSpace.Proofs.Spinning
