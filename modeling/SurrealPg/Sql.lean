import SurrealPg.Error
import SurrealPg.Postgres.Block
import SurrealPg.Postgres.Table

/-!
# The prepared statements

The statements `Sql::new` prepares, with the parameters bound to them, and what each does to the
key-value table. A statement is refused only for a reason of its own: `setm` over repeated keys is
a cardinality violation. Refusals of the server's choosing are added by the block rules.
-/

namespace SurrealPg

open Postgres

/-- A prepared statement with its bound parameters. -/
inductive Stmt
  /-- `SELECT 1 AS exists_flag FROM t WHERE key = $1` -/
  | existsFlag (key : Key)
  /-- `SELECT val FROM t WHERE key = $1` -/
  | get (key : Key)
  /-- `SELECT key, val FROM t WHERE key = ANY($1)` -/
  | getm (keys : List Key)
  /-- `INSERT INTO t (key, val) VALUES ($1, $2) ON CONFLICT (key) DO UPDATE SET val = …` -/
  | set (key : Key) (val : Val)
  /-- `INSERT INTO t (key, val) SELECT * FROM UNNEST($1, $2) ON CONFLICT (key) DO UPDATE …` -/
  | setm (keys : List Key) (vals : List Val)
  /-- `INSERT INTO t (key, val) VALUES ($1, $2) ON CONFLICT (key) DO NOTHING` -/
  | put (key : Key) (val : Val)
  /-- `UPDATE t SET val = $2 WHERE key = $1 AND val = $3` -/
  | putc (key : Key) (val : Val) (expected : Val)
  /-- `DELETE FROM t WHERE key = $1` -/
  | del (key : Key)
  /-- `DELETE FROM t WHERE key = $1 AND val = $2` -/
  | delc (key : Key) (expected : Val)
  /-- `DELETE FROM t WHERE key >= $1 AND key < $2` -/
  | delr (start stop : Key)
  /-- `SELECT count(*) AS cnt FROM t WHERE key >= $1 AND key < $2` -/
  | count (start stop : Key)
  /-- `SELECT key FROM t WHERE key >= $1 AND key < $2 ORDER BY key ASC LIMIT $3 OFFSET $4` -/
  | rangeKeysAsc (start stop : Key) (limit offset : ℕ)
  /-- The same, `ORDER BY key DESC`. -/
  | rangeKeysDesc (start stop : Key) (limit offset : ℕ)
  /-- `SELECT key, val FROM t WHERE … ORDER BY key ASC LIMIT $3 OFFSET $4` -/
  | rangeKvAsc (start stop : Key) (limit offset : ℕ)
  /-- The same, `ORDER BY key DESC`. -/
  | rangeKvDesc (start stop : Key) (limit offset : ℕ)
  /-- `SELECT key, val FROM t WHERE key >= $1 AND key < $2 ORDER BY key ASC` -/
  | rangeKvAll (start stop : Key)
  /-- `SELECT reltuples::bigint AS approx_cnt FROM pg_class WHERE relname = $1 AND …` -/
  | countApprox (relname : String)
  deriving DecidableEq

/-- A result row, by the columns its statement selects. -/
inductive Row
  | flag
  | val (v : Val)
  | key (k : Key)
  | pair (k : Key) (v : Val)
  | num (n : ℤ)
  deriving DecidableEq

namespace Row

/-- `r.get("key")`. A row without the column never meets this accessor. -/
def getKey : Row → Key
  | key k | pair k _ => k
  | _ => []

/-- `r.get("val")`. -/
def getVal : Row → Val
  | val v | pair _ v => v
  | _ => []

/-- `r.get("cnt")` and `r.get("approx_cnt")`. -/
def getNum : Row → ℤ
  | num n => n
  | _ => 0

end Row

/-- What the server sends back: the rows, and how many it inserted, updated or deleted. -/
structure Reply where
  rows : List Row
  rowsAffected : ℕ
  deriving DecidableEq

/-- What the statements read and write: the table, and the `pg_class` rows by name. -/
structure Database where
  kv : Table Key Val
  /-- `relname` and `reltuples` of the relations in the catalog. -/
  pgClass : List (String × ℤ)

/-- `key >= start AND key < stop` -/
def inRange (start stop : Key) (k : Key) : Bool := decide (start ≤ k) && decide (k < stop)

/-- `LIMIT limit OFFSET offset` -/
def page {α : Type} (limit offset : ℕ) (rows : List α) : List α := (rows.drop offset).take limit

/-- The rows of a range, in ascending key order. -/
def rangeRows (t : Table Key Val) (start stop : Key) : List (Key × Val) :=
  (t.filter (inRange start stop)).rows

namespace Stmt

private def answer (d : Database) (rows : List Row) : Except SqlxError (Reply × Database) :=
  .ok (⟨rows, 0⟩, d)

private def changed (d : Database) (n : ℕ) (t : Table Key Val) :
    Except SqlxError (Reply × Database) :=
  .ok (⟨[], n⟩, { d with kv := t })

/-- The effect of a statement that the server does not refuse for a reason of its own. -/
def exec (d : Database) : Stmt → Except SqlxError (Reply × Database)
  | existsFlag k => answer d (if (d.kv.get? k).isSome then [.flag] else [])
  | get k => answer d ((d.kv.get? k).toList.map .val)
  | getm keys => answer d ((d.kv.filter fun k ↦ keys.contains k).rows.map fun r ↦ .pair r.1 r.2)
  | set k v => changed d 1 (d.kv.upsert k v)
  | setm keys vals =>
    if keys.Nodup then changed d keys.length (d.kv.upsertAll (keys.zip vals))
    else .error (.database (some "21000")
      "ON CONFLICT DO UPDATE command cannot affect row a second time")
  | put k v =>
    if (d.kv.get? k).isSome then changed d 0 d.kv else changed d 1 (d.kv.upsert k v)
  | putc k v expected =>
    if d.kv.get? k = some expected then changed d 1 (d.kv.upsert k v) else changed d 0 d.kv
  | del k => changed d (if (d.kv.get? k).isSome then 1 else 0) (d.kv.erase k)
  | delc k expected =>
    if d.kv.get? k = some expected then changed d 1 (d.kv.erase k) else changed d 0 d.kv
  | delr start stop =>
    changed d (rangeRows d.kv start stop).length (d.kv.filter fun k ↦ !inRange start stop k)
  | count start stop => answer d [.num (rangeRows d.kv start stop).length]
  | rangeKeysAsc start stop limit offset =>
    answer d ((page limit offset (rangeRows d.kv start stop)).map fun r ↦ .key r.1)
  | rangeKeysDesc start stop limit offset =>
    answer d ((page limit offset (rangeRows d.kv start stop).reverse).map fun r ↦ .key r.1)
  | rangeKvAsc start stop limit offset =>
    answer d ((page limit offset (rangeRows d.kv start stop)).map fun r ↦ .pair r.1 r.2)
  | rangeKvDesc start stop limit offset =>
    answer d ((page limit offset (rangeRows d.kv start stop).reverse).map fun r ↦ .pair r.1 r.2)
  | rangeKvAll start stop =>
    answer d ((rangeRows d.kv start stop).map fun r ↦ .pair r.1 r.2)
  | countApprox relname =>
    answer d ((d.pgClass.filter fun r ↦ r.1 = relname ∧ 0 ≤ r.2).map fun r ↦ .num r.2)

/-- Whether the statement only selects. -/
def isRead : Stmt → Bool
  | set .. | setm .. | put .. | putc .. | del .. | delc .. | delr .. => false
  | _ => true

theorem exec_of_isRead {s : Stmt} (h : s.isRead = true) (d : Database) :
    ∃ r, s.exec d = .ok (r, d) := by
  cases s <;> first | exact ⟨_, rfl⟩ | exact absurd h Bool.false_ne_true

end Stmt

/-- PostgreSQL over the key-value table. -/
def engine : Engine Database Stmt Reply SqlxError where
  exec s d := s.exec d
  ack := ⟨[], 0⟩
  inFailed := .database (some "25P02")
    "current transaction is aborted, commands ignored until end of transaction block"
  noTransaction := .database (some "25P01") "there is no transaction in progress"
  noSavepoint name := .database (some "3B001") s!"savepoint {name} does not exist"

@[simp] theorem engine_exec (s : Stmt) (d : Database) : engine.exec s d = s.exec d := rfl

end SurrealPg
