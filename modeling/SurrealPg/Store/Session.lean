import Mathlib.Data.Rat.Defs
import SurrealPg.Basic

/-!
# What a store sends outside prepared statements

The isolation level of `BEGIN`, and the `SET` statements every new connection is given. The text
of a `SET` keeps the form of its value (`30s` and `500ms` are different texts), while what the
server stores is the duration, so both readings of a value are here.
-/

namespace SurrealPg

/-- PostgreSQL transaction isolation level -/
inductive PgIsolation
  | readCommitted
  | repeatableRead
  | serializable
  deriving DecidableEq

namespace PgIsolation

instance : Inhabited PgIsolation := ⟨readCommitted⟩

/-- The SQL fragment for `BEGIN ISOLATION LEVEL ...` -/
def asSql : PgIsolation → String
  | readCommitted => "READ COMMITTED"
  | repeatableRead => "REPEATABLE READ"
  | serializable => "SERIALIZABLE"

end PgIsolation

/-- The value of a `SET`, in the form it is written. -/
inductive Guc
  | seconds (n : ℕ)
  | millis (n : ℕ)
  | text (s : String)
  | int (n : ℤ)
  | num (q : ℚ)
  deriving DecidableEq

/-- The value as the server stores it: a duration is a number of milliseconds. -/
def Guc.stored : Guc → Guc
  | seconds n => millis (n * 1000)
  | g => g

/-- SQL sent by the simple query protocol outside a transaction block, or to open one. -/
inductive RawSql
  /-- `SET tcp_keepalives_idle = ..; ...`, one message. -/
  | keepalive (assignments : List (String × Guc))
  /-- `SET statement_timeout = ..; ...`, one message. -/
  | session (assignments : List (String × Guc))
  /-- `BEGIN ISOLATION LEVEL ..` -/
  | begin (level : String)
  | rollback
  deriving DecidableEq

/-- The tuning parameters the `SET` statements are made of. A cost that is not finite, which the
source asserts away, is not a value of the field. -/
structure PgTuneConfig where
  keepaliveIdle : Duration
  keepaliveInterval : Duration
  keepaliveCount : UInt32
  statementTimeout : Duration
  idleTxnTimeout : Duration
  lockTimeout : Duration
  statsTarget : ℤ
  serverWorkMem : String
  serverMaintenanceWorkMem : String
  serverRandomPageCost : ℚ
  serverEffectiveCacheSize : String

/-- The characters `str::trim` strips: those with the Unicode property `White_Space`. -/
def isWhiteSpace (c : Char) : Bool :=
  let n := c.toNat
  (9 ≤ n && n ≤ 13) || (0x2000 ≤ n && n ≤ 0x200A) ||
    [0x20, 0x85, 0xA0, 0x1680, 0x2028, 0x2029, 0x202F, 0x205F, 0x3000].contains n

/-- `str::trim` -/
def trim (v : List Char) : List Char :=
  ((v.dropWhile isWhiteSpace).reverse.dropWhile isWhiteSpace).reverse

/-- Validate a PG memory size string: `^[0-9]+(kB|MB|GB|TB)$` or a plain integer. -/
def validatePgMemorySize (s : String) : Bool :=
  let v := trim s.toList
  if v.isEmpty then false
  else if v.all Char.isDigit then true
  else match ["TB", "GB", "MB", "kB"].find? fun suffix ↦ suffix.toList.isSuffixOf v with
    | none => false
    | some _ =>
      -- Every suffix has two characters.
      let stem := v.take (v.length - 2)
      !stem.isEmpty && stem.all Char.isDigit

/-- Exact seconds as `Ns`, anything with a sub-second part as `Nms`. -/
def fmtDur (d : Duration) : Guc :=
  if d.subsecMillis = 0 then .seconds d.asSecs else .millis d.asMillis

/-- Whole seconds, but at least one for a duration that is not zero. -/
def fmtKeepaliveSecs (d : Duration) : Guc :=
  if d.asSecs = 0 && !d.isZero then .int 1 else .int d.asSecs

namespace PgTuneConfig

/-- The assertions of `session_sql`, which panics unless all of them hold. -/
def sessionAsserts (t : PgTuneConfig) : Bool :=
  validatePgMemorySize t.serverWorkMem && validatePgMemorySize t.serverMaintenanceWorkMem &&
    validatePgMemorySize t.serverEffectiveCacheSize && decide (0 < t.serverRandomPageCost) &&
    decide (-1 ≤ t.statsTarget) && decide (t.statsTarget ≤ 10000)

/-- What `session_sql` sets, in the order of its text. -/
def sessionSettings (t : PgTuneConfig) : List (String × Guc) :=
  [("statement_timeout", fmtDur t.statementTimeout),
   ("idle_in_transaction_session_timeout", fmtDur t.idleTxnTimeout),
   ("lock_timeout", fmtDur t.lockTimeout),
   ("default_statistics_target", .int t.statsTarget),
   ("work_mem", .text t.serverWorkMem),
   ("maintenance_work_mem", .text t.serverMaintenanceWorkMem),
   ("random_page_cost", .num t.serverRandomPageCost),
   ("effective_cache_size", .text t.serverEffectiveCacheSize)]

/-- The session-level `SET` statements; `none` where the assertions panic. -/
def sessionSql (t : PgTuneConfig) : Option RawSql :=
  if t.sessionAsserts then some (.session t.sessionSettings) else none

/-- The TCP keepalive `SET` statements, which `PgStore::new` writes out. -/
def keepaliveSql (t : PgTuneConfig) : RawSql :=
  .keepalive
    [("tcp_keepalives_idle", fmtKeepaliveSecs t.keepaliveIdle),
     ("tcp_keepalives_interval", fmtKeepaliveSecs t.keepaliveInterval),
     ("tcp_keepalives_count", .int t.keepaliveCount.toNat)]

/-- `PgTuneConfig::default()` -/
instance : Inhabited PgTuneConfig where
  default := {
    keepaliveIdle := .fromSecs 60
    keepaliveInterval := .fromSecs 10
    keepaliveCount := 5
    statementTimeout := .fromSecs 30
    idleTxnTimeout := .fromSecs 60
    lockTimeout := .fromSecs 10
    statsTarget := 500
    serverWorkMem := "64MB"
    serverMaintenanceWorkMem := "256MB"
    serverRandomPageCost := 11 / 10
    serverEffectiveCacheSize := "1GB" }

/-- The defaults pass their own assertions. -/
theorem default_sessionSql :
    (default : PgTuneConfig).sessionSql =
      some (.session (default : PgTuneConfig).sessionSettings) :=
  if_pos (by decide +kernel)

end PgTuneConfig

end SurrealPg
