import Literstream.Lib.Machine
import Literstream.Lib.Cover
import Literstream.Lib.OrderedMap
import Literstream.Ltx.Compactor
import Literstream.Storage
import Literstream.Restore.Plan
import Literstream.Restore.Greedy
import Literstream.Restore.Command
import Literstream.Levels.Replication
import Literstream.Levels.Specs
import Literstream.Levels.Compact
import Literstream.Levels.Durations
import Literstream.Wal.Overlay
import Literstream.Db.Sqlite
import Literstream.Sync.Build
import Literstream.Sync.Captured
import Literstream.Sync.Aligned
import Literstream.Sync.Machine
import Literstream.Db.Operations
import Literstream.Sync.Total
import Literstream.Sync.Effects
import Literstream.Sync.Keeps
import Literstream.Sync.Follows
import Literstream.Sync.Checkpoints
import Literstream.Sync.Retries
import Literstream.Restore.Agreement
import Literstream.Restore.Gaps
import Literstream.Storage.Writers
import Literstream.Levels.Cascade
import Literstream.Restore.Reader
import Literstream.Restore.PointInTime
import Literstream.Levels.Effects
import Literstream.Levels.Targets
import Literstream.Levels.Frontiers
import Literstream.Levels.Progress
import Literstream.Levels.Timestamps
import Literstream.Levels.Stall
import Literstream.Restore.Handover
import Literstream.Sync.Lifetime
import Literstream.Sync.Equivocation
import Literstream.Sync.Recovery
import Literstream.Storage.Multipart
import Literstream.Ltx.Wire.Checksum
import Literstream.Ltx.Wire.Encoder
import Literstream.Ltx.Wire.Reader
import Literstream.Ltx.Wire.Written
import Literstream.Ltx.Wire.Refines
import Literstream.Ltx.Wire.Panics
import Literstream.Ltx.Wire.Unverified
import Literstream.Db.ReadLock
import Literstream.Wal.Format
import Literstream.Wal.Reader
import Literstream.Wal.Written
import Literstream.Wal.Generation
import Literstream.Db.Transactions
import Literstream.Driver.Tick
import Literstream.Driver.Schedule
import Literstream.Driver.Skipped
import Literstream.Sync.Index
import Literstream.Sync.Covered
import Literstream.Sync.Overfold
import Literstream.Driver.Machine
import Literstream.Driver.StaleGate
import Literstream.Driver.Owes
import Literstream.Driver.Idle
import Literstream.Sync.OnDisk
import Literstream.Sync.Prefixes
import Literstream.Sync.Downtime
import Literstream.Sync.Tail
import Literstream.Levels.Snapshots
import Literstream.Storage.Names
import Literstream.Ltx.Wire.Decoder
import Literstream.Ltx.Wire.Snapshot
import Literstream.Ltx.Wire.Merge
import Literstream.Ltx.Wire.Newest
import Literstream.Ltx.Wire.Complete
import Literstream.Sync.Afterlife
import Literstream.Restore.Racing
import Literstream.Levels.WriteOnce
import Literstream.Restore.Browsing
import Literstream.Restore.Followers
import Literstream.Storage.Tenants
import Literstream.Restore.Objects
import Literstream.Restore.ObjectCopies
