import SurrealPg.Basic
import SurrealPg.Classification
import SurrealPg.Config.Documented
import SurrealPg.Config.Duration
import SurrealPg.Config.Identifier
import SurrealPg.Config.Independence
import SurrealPg.Config.PercentDecode
import SurrealPg.Config.PgConfig
import SurrealPg.Config.PoolSize
import SurrealPg.Config.Ranges
import SurrealPg.Config.Redaction
import SurrealPg.Config.Startup
import SurrealPg.Config.StripParams
import SurrealPg.Config.Text
import SurrealPg.Config.Tune
import SurrealPg.Config.Utf8
import SurrealPg.Error
import SurrealPg.PgTx.Accounting
import SurrealPg.PgTx.Basic
import SurrealPg.PgTx.Closing
import SurrealPg.PgTx.CompareAndSwap
import SurrealPg.PgTx.Contract
import SurrealPg.PgTx.Draft
import SurrealPg.PgTx.Memory
import SurrealPg.PgTx.MultiGet
import SurrealPg.PgTx.Paging
import SurrealPg.PgTx.Protocol
import SurrealPg.PgTx.Refinement
import SurrealPg.Postgres.Block
import SurrealPg.Postgres.Branches
import SurrealPg.Postgres.Catalog
import SurrealPg.Postgres.Lexer
import SurrealPg.Postgres.Mvcc
import SurrealPg.Postgres.Namesakes
import SurrealPg.Postgres.Table
import SurrealPg.Schema.Ddl
import SurrealPg.Schema.Injection
import SurrealPg.Schema.Layout
import SurrealPg.Schema.Lookup
import SurrealPg.Schema.Partitions
import SurrealPg.Schema.SqlText
import SurrealPg.Schema.Start
import SurrealPg.Schema.Timeouts
import SurrealPg.Semantics.BinarySearch
import SurrealPg.Semantics.Dialogue
import SurrealPg.Semantics.FiniteMap
import SurrealPg.Semantics.Loop
import SurrealPg.Semantics.Machine
import SurrealPg.Semantics.Paging
import SurrealPg.Semantics.Pool
import SurrealPg.Semantics.Retry
import SurrealPg.Semantics.Roster
import SurrealPg.Semantics.Typestate
import SurrealPg.Sql
import SurrealPg.Store.Active
import SurrealPg.Store.Admission
import SurrealPg.Store.Backoff
import SurrealPg.Store.Begin
import SurrealPg.Store.Closed
import SurrealPg.Store.Cluster
import SurrealPg.Store.Collect
import SurrealPg.Store.Heartbeat
import SurrealPg.Store.HeartbeatTask
import SurrealPg.Store.Hooks
import SurrealPg.Store.Isolation
import SurrealPg.Store.Life
import SurrealPg.Store.Metrics
import SurrealPg.Store.New
import SurrealPg.Store.Pooler
import SurrealPg.Store.ReadOnly
import SurrealPg.Store.Retry
import SurrealPg.Store.Service
import SurrealPg.Store.Session
import SurrealPg.Store.Shutdown
import SurrealPg.Store.Update
import SurrealPg.Store.Winner
import SurrealPg.Transaction.Basic
import SurrealPg.Transaction.Batches
import SurrealPg.Transaction.Ledger
import SurrealPg.Transaction.Operation
import SurrealPg.Transaction.Outcome
import SurrealPg.Transaction.Quiet
import SurrealPg.Transaction.Savepoints
import SurrealPg.Transaction.Setm
