import ProtoIceberg.Catalog.Attach
import ProtoIceberg.Catalog.Concurrency
import ProtoIceberg.Catalog.IcebergSecret
import ProtoIceberg.Catalog.SchemaEntry
import ProtoIceberg.Catalog.SignedStore
import ProtoIceberg.Catalog.TableEntry
import ProtoIceberg.Catalog.TableRegistry
import ProtoIceberg.Catalog.Theorems.Attach
import ProtoIceberg.Catalog.Theorems.AttachOptions
import ProtoIceberg.Catalog.Theorems.Concurrency
import ProtoIceberg.Catalog.Theorems.ConcurrentLookups
import ProtoIceberg.Catalog.Theorems.Evolution
import ProtoIceberg.Catalog.Theorems.Failure
import ProtoIceberg.Catalog.Theorems.Interleaving
import ProtoIceberg.Catalog.Theorems.Listing
import ProtoIceberg.Catalog.Theorems.Naming
import ProtoIceberg.Catalog.Theorems.Readable
import ProtoIceberg.Catalog.Theorems.Retention
import ProtoIceberg.Catalog.Theorems.Settled
import ProtoIceberg.Catalog.Theorems.Step
import ProtoIceberg.Catalog.Theorems.TableListing
import ProtoIceberg.Catalog.Theorems.TransactionManager
import ProtoIceberg.Catalog.Theorems.Transparent
import ProtoIceberg.Catalog.Transaction
import ProtoIceberg.Catalog.TransactionManager
import ProtoIceberg.Conversion.Columns
import ProtoIceberg.Conversion.Expression
import ProtoIceberg.Conversion.Planner
import ProtoIceberg.Conversion.S3
import ProtoIceberg.Conversion.Theorems.Decimal
import ProtoIceberg.Conversion.Theorems.Pruning
import ProtoIceberg.Conversion.Theorems.RoundTrip
import ProtoIceberg.Conversion.Theorems.S3
import ProtoIceberg.Conversion.Theorems.Sound
import ProtoIceberg.Conversion.Theorems.Typing
import ProtoIceberg.Conversion.Translate
import ProtoIceberg.Extensions.BitVec
import ProtoIceberg.Extensions.Except
import ProtoIceberg.Extensions.FixedPoint
import ProtoIceberg.Extensions.Ieee
import ProtoIceberg.Extensions.List
import ProtoIceberg.Extensions.Locking
import ProtoIceberg.Extensions.Machine
import ProtoIceberg.Extensions.Program
import ProtoIceberg.Extensions.Refinement
import ProtoIceberg.Extensions.Timeline
import ProtoIceberg.Extensions.Truth
import ProtoIceberg.Objects.Decimal
import ProtoIceberg.Objects.Exception
import ProtoIceberg.Objects.Filter
import ProtoIceberg.Objects.Schema
import ProtoIceberg.Objects.Table
import ProtoIceberg.Objects.Value
import ProtoIceberg.Scan.MultiFileList
import ProtoIceberg.Scan.MultiFileReader
import ProtoIceberg.Scan.Plan
import ProtoIceberg.Scan.Theorems.Columns
import ProtoIceberg.Scan.Theorems.Lakehouse
import ProtoIceberg.Scan.Theorems.Plan
import ProtoIceberg.Scan.Theorems.Pushdown
import ProtoIceberg.Scan.Theorems.Query
import ProtoIceberg.Scan.Theorems.Replan
import ProtoIceberg.Scan.Theorems.Typing
import ProtoIceberg.Scan.Theorems.Widening
import ProtoIceberg.Secrets.DatabaseInstance
import ProtoIceberg.Secrets.ScopedSecrets
import ProtoIceberg.Secrets.SecretLookup
import ProtoIceberg.Secrets.Theorems.Containment
import ProtoIceberg.Secrets.Theorems.LifeCycle
import ProtoIceberg.Secrets.Theorems.Selection
import ProtoIceberg.Snapshot.Lake
import ProtoIceberg.Snapshot.Lakehouse
import ProtoIceberg.Snapshot.Metadata
import ProtoIceberg.Snapshot.Theorems.Consistent
import ProtoIceberg.Snapshot.Theorems.Isolation
