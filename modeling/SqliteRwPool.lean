import SqliteRwPool.Library.Transition
import SqliteRwPool.Library.Ledger
import SqliteRwPool.Pool.Holder
import SqliteRwPool.Pool.Call
import SqliteRwPool.Pool.State
import SqliteRwPool.Pool.Ownership
import SqliteRwPool.Pool.ReleaseOrder
import SqliteRwPool.Pool.Borrowing
import SqliteRwPool.Library.SnapshotStore
import SqliteRwPool.Pool.Closures
import SqliteRwPool.Pool.Isolation
import SqliteRwPool.Library.Programs
import SqliteRwPool.Pool.Serial
import SqliteRwPool.Library.Clients
import SqliteRwPool.Pool.Clients
import SqliteRwPool.Pool.Requests
import SqliteRwPool.Pool.Linearizability
import SqliteRwPool.Pool.Progress
import SqliteRwPool.Library.Allocation
import SqliteRwPool.Pool.Nested
import SqliteRwPool.Library.TypeMap
import SqliteRwPool.Library.Fallible
import SqliteRwPool.Rocket.Error
import SqliteRwPool.Rocket.Config
import SqliteRwPool.Rocket.Instance
import SqliteRwPool.Rocket.StartUp
import SqliteRwPool.Rocket.Guards
import SqliteRwPool.Rocket.Fairing
import SqliteRwPool.Rocket.Launch
import SqliteRwPool.Library.Statements
import SqliteRwPool.Rocket.Pragmas
import SqliteRwPool.Library.Text
import SqliteRwPool.Library.Encoding
import SqliteRwPool.Migration.Source
import SqliteRwPool.Migration.Folder
import SqliteRwPool.Migration.Errors
import SqliteRwPool.Migration.Plan
import SqliteRwPool.Migration.Targets
import SqliteRwPool.Migration.Dropped
import SqliteRwPool.Migration.Written
import SqliteRwPool.Library.Reversible
import SqliteRwPool.Migration.Deployments
import SqliteRwPool.Library.Chunks
import SqliteRwPool.Batched.Clause
import SqliteRwPool.Batched.Engine
import SqliteRwPool.Batched.Bulk
import SqliteRwPool.Batched.Exact
import SqliteRwPool.Library.Separated
import SqliteRwPool.Batched.Shape
import SqliteRwPool.Query.Rows
import SqliteRwPool.Batched.Query
import SqliteRwPool.Batched.Panics
import SqliteRwPool.Library.AtomicBatches
import SqliteRwPool.Batched.Refinement
import SqliteRwPool.Batched.Atomic
import SqliteRwPool.Query.Helpers
import SqliteRwPool.Query.Execute
