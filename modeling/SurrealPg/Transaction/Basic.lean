import SurrealPg.Semantics.Dialogue
import SurrealPg.Sql

/-!
# `PgTransaction`

Every key-value operation as the statements it sends and the reading of their replies. An
operation is a dialogue with the connection, so what it does when a statement fails, and what it
leaves behind when its future is dropped at an `.await`, is part of the program.

A `&mut self` method returns the new `self` beside its result. Where a future can be dropped, the
request carries the `self` that stays behind and whether a `TxActiveGuard` is alive to run.
-/

namespace SurrealPg

open Postgres Semantics

/-- The connection under a transaction. -/
inductive TxConn
  /-- sqlx's `Transaction` over a pooled connection. -/
  | pooled
  /-- A raw connection on which `BEGIN` was sent by hand. -/
  | direct
  deriving DecidableEq

/-- A transaction backed by a single PostgreSQL connection. -/
structure PgTransaction where
  /-- `none` after commit or cancel. -/
  conn : Option TxConn
  writeable : Bool
  savepointCounter : UInt32
  /-- Active savepoint names; the head is the end of the source's `Vec`, where it pushes. -/
  savepoints : List String
  deriving DecidableEq

/-- What an operation asks for. -/
inductive Request
  /-- A statement or block command on the connection. -/
  | sql (c : Command Stmt)
  /-- `tx_active.fetch_sub(1)` -/
  | releaseActive
  deriving DecidableEq

abbrev Request.Answer : Request → Type
  | .sql _ => Except SqlxError Reply
  | .releaseActive => Unit

/-- What is left when the future is dropped, or panics, at an await point. -/
structure Unwound where
  self : PgTransaction
  /-- A live `TxActiveGuard`, whose destructor decrements `tx_active`. -/
  guard : Bool

/-- The future of an `async fn` of `PgTransaction`. -/
abbrev Async (α : Type) := Dialogue Request Request.Answer Unwound α

/-- Send a command and wait for the server, leaving `left` if the wait is cut short. -/
def sendCommand (c : Command Stmt) (left : Unwound) : Async (Except SqlxError Reply) :=
  .ask (.sql c) (some left) .done

/-- `release_active` -/
def releaseActive : Async Unit := .ask .releaseActive none .done

/-- The iteration order of a `HashMap`: any order of its entries. -/
structure HashOrder where
  order : List (Key × Val) → List (Key × Val)
  perm : ∀ entries, (order entries).Perm entries

/-- Maximum number of key-value pairs per `setm` batch. -/
def SETM_MAX_PAIRS : ℕ := 32000

namespace PgTransaction

def newPooled (writeable : Bool) : PgTransaction := ⟨some .pooled, writeable, 0, []⟩

def newDirect (writeable : Bool) : PgTransaction := ⟨some .direct, writeable, 0, []⟩

/-! ## Internal helpers -/

def checkWriteable (tx : PgTransaction) : Result Unit :=
  if !tx.writeable then .error .txReadOnly else .ok ()

/-- Pop the last savepoint name. -/
def popSavepointName (tx : PgTransaction) : Option String × PgTransaction :=
  (tx.savepoints.head?, { tx with savepoints := tx.savepoints.tail })

/-- Build the next savepoint name and push it; the counter wraps at `u32::MAX`. -/
def pushSavepointName (tx : PgTransaction) : String × PgTransaction :=
  let counter := tx.savepointCounter + 1
  let name := s!"sp_{counter}"
  (name, { tx with savepointCounter := counter, savepoints := name :: tx.savepoints })

/-- Execute a parameterless statement via the simple query protocol. -/
def executeSimple (tx : PgTransaction) (c : Statement Stmt) (keyForErr : Option Key) :
    Async (Result Unit) :=
  match tx.conn with
  | none => pure (.error .txClosed)
  | some _ => do
    match ← sendCommand (.run c) ⟨tx, false⟩ with
    | .error e => return .error (.fromSqlx keyForErr e)
    | .ok _ => return .ok ()

/-- The body shared by the prepared statements: take the open connection, send, map the driver's
error under `keyForErr`, and read the reply. -/
def query {α : Type} (tx : PgTransaction) (stmt : Stmt) (keyForErr : Option Key)
    (decode : Reply → Result α) : Async (Result α) :=
  match tx.conn with
  | none => pure (.error .txClosed)
  | some _ => do
    match ← sendCommand (.run (.data stmt)) ⟨tx, false⟩ with
    | .error e => return .error (.fromSqlx keyForErr e)
    | .ok r => return decode r

/-- The same behind `check_writeable()?`. -/
def writeQuery {α : Type} (tx : PgTransaction) (stmt : Stmt) (keyForErr : Option Key)
    (decode : Reply → Result α) : Async (Result α) :=
  match tx.checkWriteable with
  | .error e => pure (.error e)
  | .ok _ => tx.query stmt keyForErr decode

/-! ## Transaction control -/

/-- `Transaction::commit` on a pooled connection, a raw `COMMIT` on a direct one. The connection
is consumed by now, and the guard that counts it off is alive. -/
def commitInner (tx : PgTransaction) : TxConn → Async (Result Unit)
  | .pooled | .direct => do
    match ← sendCommand .commit ⟨tx, true⟩ with
    | .error e => return .error (.fromSqlx none e)
    | .ok _ => return .ok ()

def cancelInner (tx : PgTransaction) : TxConn → Async (Result Unit)
  | .pooled | .direct => do
    match ← sendCommand .rollback ⟨tx, true⟩ with
    | .error e => return .error (.fromSqlx none e)
    | .ok _ => return .ok ()

/-- Take the connection, forget the savepoints, run `inner`, and let the `TxActiveGuard` go. -/
def close (tx : PgTransaction) (inner : PgTransaction → TxConn → Async (Result Unit)) :
    Async (Result Unit × PgTransaction) :=
  match tx.conn with
  | none => pure (.error .txClosed, tx)
  | some conn => do
    let tx' := { tx with conn := none, savepoints := [] }
    let result ← inner tx' conn
    releaseActive
    return (result, tx')

def commit (tx : PgTransaction) : Async (Result Unit × PgTransaction) := tx.close commitInner

def cancel (tx : PgTransaction) : Async (Result Unit × PgTransaction) := tx.close cancelInner

theorem close_of_none {tx : PgTransaction} {inner : PgTransaction → TxConn → Async (Result Unit)}
    (hconn : tx.conn = none) : tx.close inner = .done (.error .txClosed, tx) := by
  rw [close, hconn]
  rfl

/-- `inner` sends the single command `c`, whichever kind of connection it is given. -/
def EndsBy (c : Command Stmt) (inner : PgTransaction → TxConn → Async (Result Unit)) : Prop :=
  ∀ tx conn, inner tx conn = sendCommand c ⟨tx, true⟩ >>= fun r ↦ match r with
    | .error e => pure (.error (.fromSqlx none e))
    | .ok _ => pure (.ok ())

theorem endsBy_commitInner : EndsBy .commit commitInner := by
  intro tx conn
  cases conn <;> rfl

theorem endsBy_cancelInner : EndsBy .rollback cancelInner := by
  intro tx conn
  cases conn <;> rfl

/-- An open transaction is closed by one command, and the guard goes whatever the answer is. -/
theorem EndsBy.close_eq {c : Command Stmt} {inner : PgTransaction → TxConn → Async (Result Unit)}
    (h : EndsBy c inner) {tx : PgTransaction} {conn : TxConn} (hconn : tx.conn = some conn) :
    tx.close inner = do
      let tx' := { tx with conn := none, savepoints := [] }
      let r ← sendCommand c ⟨tx', true⟩
      releaseActive
      return ((r.mapError (.fromSqlx none)).map fun _ ↦ (), tx') := by
  rw [close, hconn]
  dsimp only
  rw [h]
  refine congrArg (Dialogue.ask _ _) (funext fun r ↦ ?_)
  rcases r with e | p <;> rfl

def isOpen (tx : PgTransaction) : Bool := tx.conn.isSome

/-- How often the destructor of a transaction value decrements `tx_active`. -/
def dropReleases (tx : PgTransaction) : ℕ := if tx.conn.isSome then 1 else 0

/-! ## Read operations -/

def «exists» (tx : PgTransaction) (key : Key) : Async (Result Bool) :=
  tx.query (.existsFlag key) (some key) fun r ↦ .ok r.rows.head?.isSome

def get (tx : PgTransaction) (key : Key) : Async (Result (Option Val)) :=
  tx.query (.get key) (some key) fun r ↦ .ok (r.rows.head?.map Row.getVal)

/-- `rows_to_keys` -/
def rowsToKeys (rows : List Row) : List Key := rows.map Row.getKey

/-- `rows_to_pairs` -/
def rowsToPairs (rows : List Row) : List (Key × Val) := rows.map fun r ↦ (r.getKey, r.getVal)

/-- The values found for `keys`: by a linear scan of few rows, else through a hash map. -/
def collectValues (rows : List Row) (keys : List Key) : List (Option Val) :=
  let extracted := rowsToPairs rows
  if rows.length ≤ 64 ∧ rows.length * keys.length ≤ 8192 then
    keys.map fun k ↦ (extracted.find? fun r ↦ r.1 == k).map Prod.snd
  else
    let map := (∅ : Table Key Val).upsertAll extracted
    keys.map fun k ↦ map.get? k

def getm (tx : PgTransaction) (keys : List Key) : Async (Result (List (Option Val))) :=
  if keys.isEmpty then pure (.ok [])
  else tx.query (.getm keys) none fun r ↦ .ok (collectValues r.rows keys)

/-! ## Write operations -/

def set (tx : PgTransaction) (key : Key) (val : Val) : Async (Result Unit) :=
  tx.writeQuery (.set key val) (some key) fun _ ↦ .ok ()

/-- The linear scan: overwrite the value of a key already met, else push the pair. -/
def dedupInsert (p : Key × Val) : List (Key × Val) → List (Key × Val)
  | [] => [p]
  | q :: rest => if q.1 = p.1 then (q.1, p.2) :: rest else q :: dedupInsert p rest

/-- Deduplicate key-value pairs, keeping the last value for each key: nothing to do for at most
one pair, a linear scan for at most 32, a hash map for more. -/
def dedupPairs (o : HashOrder) (pairs : List (Key × Val)) : List (Key × Val) :=
  if pairs.length ≤ 1 then pairs
  else if pairs.length ≤ 32 then pairs.foldl (fun result p ↦ dedupInsert p result) []
  else o.order ((∅ : Table Key Val).upsertAll pairs).rows

/-- Execute a single `setm` batch. -/
def setmBatch (tx : PgTransaction) (pairs : List (Key × Val)) : Async (Result Unit) :=
  tx.query (.setm (pairs.map Prod.fst) (pairs.map Prod.snd)) none fun _ ↦ .ok ()

/-- The chunk loop: `pairs[start..end]` while `start < total`, stopping at the first error. -/
def setmChunks (tx : PgTransaction) (pairs : List (Key × Val)) : Async (Result Unit) :=
  if _h : pairs = [] then pure (.ok ())
  else do
    match ← tx.setmBatch (pairs.take SETM_MAX_PAIRS) with
    | .error e => return .error e
    | .ok _ => tx.setmChunks (pairs.drop SETM_MAX_PAIRS)
termination_by pairs.length
decreasing_by
  rw [List.length_drop, SETM_MAX_PAIRS]
  have := List.length_pos_iff.mpr _h
  omega

/-- Batch-set multiple key-value pairs. -/
def setm (tx : PgTransaction) (o : HashOrder) (pairs : List (Key × Val)) : Async (Result Unit) :=
  if tx.conn.isNone then pure (.error .txClosed)
  else match tx.checkWriteable with
    | .error e => pure (.error e)
    | .ok _ =>
      if pairs.isEmpty then pure (.ok ())
      else
        let pairs := dedupPairs o pairs
        if pairs.length ≤ SETM_MAX_PAIRS then tx.setmBatch pairs else tx.setmChunks pairs

/-- Set a key only if it does not already exist. -/
def put (tx : PgTransaction) (key : Key) (val : Val) : Async (Result Unit) :=
  tx.writeQuery (.put key val) (some key) fun r ↦
    if r.rowsAffected = 0 then .error (.keyAlreadyExists key) else .ok ()

/-- Compare-and-swap; without a condition it delegates to `put`. -/
def putc (tx : PgTransaction) (key : Key) (val : Val) (chk : Option Val) : Async (Result Unit) :=
  match tx.checkWriteable with
  | .error e => pure (.error e)
  | .ok _ =>
    match chk with
    | none => tx.put key val
    | some expected =>
      tx.query (.putc key val expected) (some key) fun r ↦
        if r.rowsAffected = 0 then .error (.conditionNotMet key) else .ok ()

def del (tx : PgTransaction) (key : Key) : Async (Result Unit) :=
  tx.writeQuery (.del key) (some key) fun _ ↦ .ok ()

/-- Compare-and-delete; without a condition it delegates to `del`. -/
def delc (tx : PgTransaction) (key : Key) (chk : Option Val) : Async (Result Unit) :=
  match tx.checkWriteable with
  | .error e => pure (.error e)
  | .ok _ =>
    match chk with
    | none => tx.del key
    | some expected =>
      tx.query (.delc key expected) (some key) fun r ↦
        if r.rowsAffected = 0 then .error (.conditionNotMet key) else .ok ()

/-- Delete all keys in a range; an empty range is answered without asking the server. -/
def delr (tx : PgTransaction) (start stop : Key) : Async (Result Unit) :=
  match tx.checkWriteable with
  | .error e => pure (.error e)
  | .ok _ =>
    if stop ≤ start then pure (.ok ())
    else tx.query (.delr start stop) none fun _ ↦ .ok ()

/-! ## Range scans -/

/-- An offset-based range scan; the connection is taken before the range is looked at. -/
def rangeQueryOffset {α : Type} (tx : PgTransaction) (stmt : Stmt) (start stop : Key)
    (decode : List Row → List α) : Async (Result (List α)) :=
  match tx.conn with
  | none => pure (.error .txClosed)
  | some _ =>
    if stop ≤ start then pure (.ok (decode []))
    else tx.query stmt none fun r ↦ .ok (decode r.rows)

def keys (tx : PgTransaction) (start stop : Key) (limit skip : UInt32) :
    Async (Result (List Key)) :=
  tx.rangeQueryOffset (.rangeKeysAsc start stop limit.toNat skip.toNat) start stop rowsToKeys

def keysr (tx : PgTransaction) (start stop : Key) (limit skip : UInt32) :
    Async (Result (List Key)) :=
  tx.rangeQueryOffset (.rangeKeysDesc start stop limit.toNat skip.toNat) start stop rowsToKeys

def scan (tx : PgTransaction) (start stop : Key) (limit skip : UInt32) :
    Async (Result (List (Key × Val))) :=
  tx.rangeQueryOffset (.rangeKvAsc start stop limit.toNat skip.toNat) start stop rowsToPairs

def scanr (tx : PgTransaction) (start stop : Key) (limit skip : UInt32) :
    Async (Result (List (Key × Val))) :=
  tx.rangeQueryOffset (.rangeKvDesc start stop limit.toNat skip.toNat) start stop rowsToPairs

/-- Fetch all key-value pairs in a range; here the range is looked at first. -/
def getr (tx : PgTransaction) (start stop : Key) : Async (Result (List (Key × Val))) :=
  if stop ≤ start then pure (.ok [])
  else tx.query (.rangeKvAll start stop) none fun r ↦ .ok (rowsToPairs r.rows)

/-- Count keys in a range; a negative count never comes, and would read as zero. -/
def count (tx : PgTransaction) (start stop : Key) : Async (Result ℕ) :=
  if stop ≤ start then pure (.ok 0)
  else tx.query (.count start stop) none fun r ↦ .ok ((r.rows.head?.map Row.getNum).getD 0).toNat

/-- Approximate row count of the whole table, by the name it was configured with. -/
def countApprox (tx : PgTransaction) (tableName : String) : Async (Result (Option ℕ)) :=
  tx.query (.countApprox tableName) none fun r ↦
    .ok (r.rows.head?.map fun row ↦ row.getNum.toNat)

/-! ## Savepoints -/

/-- Create a new savepoint; if the server refuses, the name comes off the stack again. -/
def newSavePoint (tx : PgTransaction) : Async (Result Unit × PgTransaction) := do
  let (name, tx') := tx.pushSavepointName
  match ← tx'.executeSimple (.savepoint name) none with
  | .error e => return (.error e, { tx' with savepoints := tx'.savepoints.tail })
  | .ok _ => return (.ok (), tx')

/-- Release the last savepoint; if the server refuses, the name goes back on the stack. -/
def releaseLastSavePoint (tx : PgTransaction) : Async (Result Unit × PgTransaction) :=
  match tx.popSavepointName with
  | (none, tx') => pure (.ok (), tx')
  | (some name, tx') => do
    match ← tx'.executeSimple (.release name) none with
    | .error e => return (.error e, { tx' with savepoints := name :: tx'.savepoints })
    | .ok _ => return (.ok (), tx')

/-- Roll back to the last savepoint and release it; the name goes back on the stack whichever of
the two statements the server refuses. -/
def rollbackToSavePoint (tx : PgTransaction) : Async (Result Unit × PgTransaction) :=
  match tx.popSavepointName with
  | (none, tx') => pure (.ok (), tx')
  | (some name, tx') => do
    match ← tx'.executeSimple (.rollbackTo name) none with
    | .error e => return (.error e, { tx' with savepoints := name :: tx'.savepoints })
    | .ok _ =>
      match ← tx'.executeSimple (.release name) none with
      | .error e => return (.error e, { tx' with savepoints := name :: tx'.savepoints })
      | .ok _ => return (.ok (), tx')

end PgTransaction

end SurrealPg
