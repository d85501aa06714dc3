import MetricRegistry.Bytes.Word
import MetricRegistry.Bytes.Hex
import MetricRegistry.Text.Utf8
import MetricRegistry.Hash.Fx
import MetricRegistry.Hash.Crc32
import MetricRegistry.Disk.Error
import MetricRegistry.Table.Rounding
import MetricRegistry.Table.Prime
import MetricRegistry.Record.Identity
import MetricRegistry.Store.Error
import MetricRegistry.Record.Codec
import MetricRegistry.Text.Shortest
import MetricRegistry.Json.Basic
import MetricRegistry.Json.Print
import MetricRegistry.Json.Parse
import MetricRegistry.Table.Basic
import MetricRegistry.Table.Cache
import MetricRegistry.Disk.Basic
import MetricRegistry.Log.Header
import MetricRegistry.Log.Region
import MetricRegistry.Log.Basic
import MetricRegistry.Text.Lowercase
import MetricRegistry.Store.Config
import MetricRegistry.Store.Resolve
import MetricRegistry.Store.Recovery
import MetricRegistry.Store.Basic
import MetricRegistry.Store.Compaction
import MetricRegistry.Text.Quoted
import MetricRegistry.Time.Rfc3339
import MetricRegistry.Api.Dto
import MetricRegistry.Text.Decimal
import MetricRegistry.Toml.Value
import MetricRegistry.Toml.Scalar
import MetricRegistry.Toml.Tree
import MetricRegistry.Toml.Parse
import MetricRegistry.Settings.Basic
import MetricRegistry.Settings.Load
import MetricRegistry.Settings.Template
import MetricRegistry.Store.Schedule
import MetricRegistry.Store.Workload
import MetricRegistry.Sync.SpinLock
import MetricRegistry.Text.Failure
import MetricRegistry.Net.Url
import MetricRegistry.Http.Message
import MetricRegistry.Api.Backend
import MetricRegistry.Api.Body
import MetricRegistry.Api.Cors
import MetricRegistry.Api.Service
import MetricRegistry.Cli.Args
import MetricRegistry.Cli.Run
import MetricRegistry.Server.Filter
import MetricRegistry.Server.Startup
import MetricRegistry.Settings.View
import MetricRegistry.Store.View
import MetricRegistry.Store.Threads
import MetricRegistry.Main
import MetricRegistry.Proofs.Bytes
import MetricRegistry.Proofs.Utf8
import MetricRegistry.Proofs.Record
import MetricRegistry.Proofs.Table
import MetricRegistry.Proofs.Disk
import MetricRegistry.Proofs.Header
import MetricRegistry.Proofs.LogImage
import MetricRegistry.Proofs.LogFiles
import MetricRegistry.Proofs.Indexing
import MetricRegistry.Proofs.Resolution
import MetricRegistry.Proofs.Opening
import MetricRegistry.Proofs.Compaction
import MetricRegistry.Proofs.Lookups
import MetricRegistry.Proofs.Defragment
import MetricRegistry.Proofs.Session
import MetricRegistry.Proofs.Reopen
import MetricRegistry.Proofs.LogSession
import MetricRegistry.Proofs.Access
import MetricRegistry.Proofs.Serializable
import MetricRegistry.Proofs.CompactionReads
import MetricRegistry.Proofs.Failures
import MetricRegistry.Proofs.Outcomes
import MetricRegistry.Proofs.Probing
import MetricRegistry.Proofs.TableMap
import MetricRegistry.Proofs.Deletion
import MetricRegistry.Proofs.Repair
import MetricRegistry.Proofs.Decoding
import MetricRegistry.Proofs.CrashAtomicity
import MetricRegistry.Proofs.Checksum
import MetricRegistry.Proofs.Tombstones
import MetricRegistry.Proofs.Sizing
import MetricRegistry.Proofs.Growth
import MetricRegistry.Proofs.LeastPrime
import MetricRegistry.Proofs.Replay
import MetricRegistry.Proofs.Representation
import MetricRegistry.Proofs.LoadFactor
import MetricRegistry.Proofs.RebuildRoom
import MetricRegistry.Proofs.Interrupted
import MetricRegistry.Proofs.Recovery
import MetricRegistry.Proofs.CompactionCrash
