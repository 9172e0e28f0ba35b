import SurrealPg.Store.Session
import SurrealPg.Transaction.Basic
import SurrealPg.Semantics.Typestate

/-!
# `PgStore::begin` and `PgStore::shutdown`

The store hands out transactions from a connection pool, or, behind a pooler, over a fresh
connection for each of them. Both ways of beginning are dialogues with what the store shares: the
shutdown flag, the counters, the pool. A failed attempt that is worth it is retried twice after a
growing pause, and the flag is read again before every attempt.
-/

namespace SurrealPg

open Semantics

/-- Pooled or direct (per-transaction connect). -/
inductive ConnectionMode
  | pooled
  | direct
  deriving DecidableEq

/-- What `begin` and `shutdown` read of a store. -/
structure PgStore where
  mode : ConnectionMode
  isolationLevel : PgIsolation
  tune : PgTuneConfig
  sessionSql : RawSql
  /-- `new` has run `session_sql`, and it did not panic. -/
  session_eq : tune.sessionSql = some sessionSql
  connectTimeout : Duration

namespace PgStore

/-- Pre-built BEGIN SQL. -/
def beginSql (s : PgStore) : RawSql := .begin s.isolationLevel.asSql

def keepaliveSql (s : PgStore) : RawSql := s.tune.keepaliveSql

/-- The store of the default configuration. The connect timeout is used in direct mode only. -/
def withDefaults (mode : ConnectionMode) : PgStore where
  mode := mode
  isolationLevel := default
  tune := default
  sessionSql := .session (default : PgTuneConfig).sessionSettings
  session_eq := PgTuneConfig.default_sessionSql
  connectTimeout := match mode with
    | .pooled => ⟨0⟩
    | .direct => .fromSecs 30

end PgStore

/-- One access to what a store shares, or a message on a connection being set up. -/
inductive StoreReq
  /-- `self.shutting_down.load(Acquire)` -/
  | loadShuttingDown
  /-- `pool.acquire()`, with which `pool.begin_with(..)` starts. -/
  | acquire
  /-- `timeout(connect_timeout, opts.connect())` -/
  | connect
  | execute (sql : RawSql)
  /-- `timeout(connect_timeout, execute(..))` -/
  | executeTimed (sql : RawSql)
  /-- A pooled connection is dropped, and so returned. -/
  | returnConn
  /-- `self.pool_size()`: size and idle. -/
  | poolSize
  /-- `self.tx_active.load(..)` -/
  | loadActive
  | sleep (ms : ℕ)
  /-- `self.tx_started.fetch_add(1, ..)` -/
  | addStarted
  /-- `self.tx_active.fetch_add(1, ..)` -/
  | addActive
  /-- `self.shutting_down.store(true, Release)` -/
  | storeShuttingDown
  /-- `cancel.cancel()` -/
  | cancelHeartbeat
  /-- `self.heartbeat_handle.lock().await.take()`: whether there was a handle. -/
  | takeHeartbeat
  /-- `timeout(HEARTBEAT_SHUTDOWN_TIMEOUT, handle)`; the three outcomes are only logged. -/
  | joinHeartbeat
  /-- `pool.close()`: from here on the pool is closed. -/
  | closePool
  /-- `timeout(POOL_CLOSE_TIMEOUT, ..)` of the future of `pool.close()`: whether it completed. -/
  | awaitPool
  /-- `Instant::now() >= deadline` -/
  | deadlinePassed
  deriving DecidableEq

abbrev StoreReq.Answer : StoreReq → Type
  | .loadShuttingDown | .takeHeartbeat | .awaitPool | .deadlinePassed => Bool
  | .acquire | .execute _ => Except SqlxError Unit
  | .connect | .executeTimed _ => Option (Except SqlxError Unit)
  | .poolSize => ℕ × ℕ
  | .loadActive => UInt64
  | .returnConn | .sleep _ | .addStarted | .addActive | .storeShuttingDown | .cancelHeartbeat
  | .joinHeartbeat | .closePool => Unit

/-- The connection that is dropped with the future. -/
inductive StoreNote
  | unconnected
  | pooled
  | direct
  deriving DecidableEq

/-- The future of a `PgStore` method. -/
abbrev StoreAsync (α : Type) := Dialogue StoreReq StoreReq.Answer StoreNote α

def SHUTTING_DOWN_MSG : String := "PgStore is shutting down — new transactions are refused"

namespace PgStore

/-! ## The accesses -/

def loadShuttingDown : StoreAsync Bool := .ask .loadShuttingDown none .done

def poolSize : StoreAsync (ℕ × ℕ) := .ask .poolSize none .done

def loadActive : StoreAsync UInt64 := .ask .loadActive none .done

def addStarted : StoreAsync Unit := .ask .addStarted none .done

def addActive : StoreAsync Unit := .ask .addActive none .done

def sleep (ms : ℕ) (held : StoreNote) : StoreAsync Unit := .ask (.sleep ms) (some held) .done

def execute (sql : RawSql) (held : StoreNote) : StoreAsync (Except SqlxError Unit) :=
  .ask (.execute sql) (some held) .done

def executeTimed (sql : RawSql) (held : StoreNote) :
    StoreAsync (Option (Except SqlxError Unit)) :=
  .ask (.executeTimed sql) (some held) .done

/-! ## Beginning -/

/-- The delay before the next attempt, in milliseconds. -/
def backoff (base max attempt : ℕ) : ℕ := min (base * 2 ^ (attempt - 1)) max

/-- What is reported once no attempt is left; only a retried failure says how often. -/
def gaveUp (what : String) (attempt : ℕ) (e : PgStoreError) : PgStoreError :=
  if attempt > 1 then .other s!"{what} failed after {attempt} attempts (last: {e.display})" else e

/-- `again` is the next attempt, if there is one. Where it is worth it, pause and make it. -/
def retry (worth : Bool) (ms : ℕ) (held : StoreNote) (e : PgStoreError)
    (again : Option (StoreAsync (Result PgTransaction))) : StoreAsync (Result PgTransaction) :=
  match again with
  | none => pure (.error e)
  | some next => if worth then do sleep ms held; next else pure (.error e)

/-- The counters are raised and the transaction is built without a pause. -/
def started (tx : PgTransaction) : StoreAsync (Result PgTransaction) := do
  addStarted
  addActive
  return .ok tx

/-- sqlx's `Pool::begin_with`: a connection that does not get into the block is given back. -/
def beginWith (s : PgStore) : StoreAsync (Except SqlxError Unit) :=
  .ask .acquire (some .unconnected) fun
    | .error e => return .error e
    | .ok _ => do
      match ← execute s.beginSql .pooled with
      | .ok _ => return .ok ()
      | .error e => .ask .returnConn none fun _ ↦ return .error e

def BEGIN_MAX_RETRIES : ℕ := 2

/-- One round of the loop of `begin_pooled`. -/
def pooledAttempt (s : PgStore) (write : Bool) (attempt : ℕ) (zombieDetected : Bool)
    (again : Bool → Option (StoreAsync (Result PgTransaction))) :
    StoreAsync (Result PgTransaction) := do
  if ← loadShuttingDown then return .error (.other SHUTTING_DOWN_MSG)
  match ← s.beginWith with
  | .ok _ => started (.newPooled write)
  | .error e => do
    let pgErr := .fromSqlx none e
    let (size, idle) ← poolSize
    let active ← loadActive
    let zombieDetected := zombieDetected || (idle == 0 && active == 0 && decide (0 < size))
    let delay := if zombieDetected then backoff 5000 15000 attempt else backoff 200 2000 attempt
    retry pgErr.isTransient delay .unconnected (gaveUp "begin_pooled" attempt pgErr)
      (again zombieDetected)

/-- The loop of `begin_pooled`, by the number of retries left. -/
def beginPooledFrom (s : PgStore) (write : Bool) : ℕ → Bool → StoreAsync (Result PgTransaction)
  | 0, zombie => s.pooledAttempt write (BEGIN_MAX_RETRIES + 1) zombie fun _ ↦ none
  | left + 1, zombie => s.pooledAttempt write (BEGIN_MAX_RETRIES - left) zombie fun zombie ↦
    some (s.beginPooledFrom write left zombie)

/-- Pool-mode begin. -/
def beginPooled (s : PgStore) (write : Bool) : StoreAsync (Result PgTransaction) :=
  s.beginPooledFrom write BEGIN_MAX_RETRIES false

/-- `connect_direct` -/
def connectDirect (connectTimeout : Duration) : StoreAsync (Result Unit) :=
  if connectTimeout.isZero then
    pure (.error (.other
      "connect_direct: connect_timeout must be > 0 (pool mode sets it to ZERO — caller bug)"))
  else .ask .connect (some .unconnected) fun
    | some (.ok _) => return .ok ()
    | some (.error e) => return .error (.fromSqlx none e)
    | none => return .error (.connectTimeout connectTimeout)

def MAX_RETRIES : ℕ := 2

/-- One round of the loop of `begin_direct`: keepalive, session SQL, `BEGIN`. Whatever becomes of
the keepalive settings is only logged. The connection lives through the pause before a retry. -/
def directAttempt (s : PgStore) (write : Bool) (attempt : ℕ)
    (again : Option (StoreAsync (Result PgTransaction))) : StoreAsync (Result PgTransaction) := do
  let delay := backoff 500 5000 attempt
  if ← loadShuttingDown then return .error (.other SHUTTING_DOWN_MSG)
  match ← connectDirect s.connectTimeout with
  | .error e =>
    retry e.isTransient delay .unconnected (gaveUp "begin_direct: TCP connect" attempt e) again
  | .ok _ => do
    let _ ← executeTimed s.keepaliveSql .direct
    match ← executeTimed s.sessionSql .direct with
    | none => retry true delay .direct (.connectTimeout s.connectTimeout) again
    | some (.error e) =>
      let pgErr := .fromSqlx none e
      retry pgErr.isTransient delay .direct
        (gaveUp "begin_direct: session SQL" attempt pgErr) again
    | some (.ok _) => do
      match ← execute s.beginSql .direct with
      | .error e => do
        let _ ← execute .rollback .direct
        let pgErr := .fromSqlx none e
        retry pgErr.isTransient delay .direct (gaveUp "begin_direct: BEGIN" attempt pgErr) again
      | .ok _ => started (.newDirect write)

/-- The loop of `begin_direct`, by the number of retries left. -/
def beginDirectFrom (s : PgStore) (write : Bool) : ℕ → StoreAsync (Result PgTransaction)
  | 0 => s.directAttempt write (MAX_RETRIES + 1) none
  | left + 1 => s.directAttempt write (MAX_RETRIES - left) (some (s.beginDirectFrom write left))

/-- Direct-mode begin. -/
def beginDirect (s : PgStore) (write : Bool) : StoreAsync (Result PgTransaction) :=
  s.beginDirectFrom write MAX_RETRIES

/-- Begin a new transaction. -/
def begin (s : PgStore) (write : Bool) : StoreAsync (Result PgTransaction) := do
  if ← loadShuttingDown then return .error (.other SHUTTING_DOWN_MSG)
  match s.mode with
  | .pooled => s.beginPooled write
  | .direct => s.beginDirect write

/-! ## Shutting down -/

/-- Number of `DIRECT_SHUTDOWN_POLL` pauses of 100 ms in the `DIRECT_SHUTDOWN_GRACE` of 3 s. -/
def GRACE_POLLS : ℕ := 30

/-- The grace period: leave when nothing is active or the deadline has passed, as it has after
`GRACE_POLLS` pauses. -/
def drain : ℕ → StoreAsync Unit
  | 0 => do
    let _ ← loadActive
    return ()
  | polls + 1 => do
    let remaining ← loadActive
    if remaining = 0 then return ()
    if ← .ask .deadlinePassed none .done then return ()
    sleep 100 .unconnected
    drain polls

/-- The mode's own part of `shutdown`. -/
def quiesce (s : PgStore) : StoreAsync Unit :=
  match s.mode with
  | .pooled => .ask .closePool none fun _ ↦ .ask .awaitPool (some .unconnected) fun _ ↦ return ()
  | .direct => do
    let active ← loadActive
    if 0 < active then drain GRACE_POLLS

/-- The heartbeat task of direct mode is told to stop and waited for. -/
def stopHeartbeat (s : PgStore) : StoreAsync Unit := do
  match s.mode with
  | .direct => .ask .cancelHeartbeat none .done
  | .pooled => pure ()
  let handle ← .ask .takeHeartbeat (some .unconnected) .done
  if handle then .ask .joinHeartbeat (some .unconnected) .done else pure ()

/-- Shut down gracefully. -/
def shutdown (s : PgStore) : StoreAsync Unit :=
  .ask .storeShuttingDown none fun _ ↦ do
    s.stopHeartbeat
    s.quiesce
    let _ ← loadActive
    return ()

end PgStore

end SurrealPg
