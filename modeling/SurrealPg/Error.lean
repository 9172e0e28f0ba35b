import SurrealPg.Basic

/-!
# Errors, from the driver to the engine

A driver error becomes a `PgStoreError`, which keeps what a caller may want to know (whether the
failure is worth a retry, which key was in the way), and that becomes the engine's `KvsError`.
-/

namespace SurrealPg

/-- `sqlx::Error`, as far as `from_sqlx` distinguishes it. -/
inductive SqlxError
  | database (code : Option String) (message : String)
  | poolTimedOut
  | poolClosed
  | io (e : String)
  | tls (e : String)
  | protocol (msg : String)
  | workerCrashed
  /-- Any other variant, as its `Display` text. -/
  | other (display : String)
  deriving DecidableEq

/-- All errors produced by the PostgreSQL storage backend. -/
inductive PgStoreError
  | keyAlreadyExists (key : Key)
  | conditionNotMet (key : Key)
  | txClosed
  | txReadOnly
  | unsupportedVersionedQueries
  | deadlock (msg : String)
  | serializationFailure (msg : String)
  | poolTimeout
  | connectTimeout (d : Duration)
  | io (msg : String)
  | poolClosed
  | postgres (msg : String)
  | other (msg : String)
  deriving DecidableEq

/-- `surrealdb_core::kvs::Error`, as far as the backend produces it. -/
inductive KvsError
  | transactionKeyAlreadyExists
  | transactionConditionNotMet
  | transactionFinished
  | transactionReadonly
  | unsupportedVersionedQueries
  | transactionConflict (msg : String)
  | connectionFailed (msg : String)
  | transaction (msg : String)
  deriving DecidableEq

abbrev Result (α : Type) := Except PgStoreError α

abbrev KvsResult (α : Type) := Except KvsError α

namespace PgStoreError

/-- Whether this error is likely transient and worth retrying. -/
def isTransient : PgStoreError → Bool
  | poolTimeout | connectTimeout _ | io _ => true
  | postgres msg => msg.startsWith "connection error [08"
  | deadlock _ | serializationFailure _ => true
  | _ => false

/-- The mapping of a server error: its SQLSTATE, `58000` where the server gave none, decides. The
source's own arm for `25P01` has the text of the last one. -/
def fromDatabase (key : Option Key) (code : Option String) (msg : String) : PgStoreError :=
  let c := code.getD "58000"
  if c = "23505" then
    match key with
    | some k => keyAlreadyExists k
    | none => other s!"unique violation: {msg}"
  else if c.startsWith "08" then postgres s!"connection error [{c}]: {msg}"
  else if c = "40P01" then deadlock msg
  else if c = "40001" then serializationFailure msg
  else postgres s!"[{c}]: {msg}"

/-- Map a driver error, preserving semantics for well-known SQLSTATE codes. -/
def fromSqlx (key : Option Key) : SqlxError → PgStoreError
  | .database code message => fromDatabase key code message
  | .poolTimedOut => poolTimeout
  | .poolClosed => poolClosed
  | .io e => io e
  | .tls e => io s!"TLS error: {e}"
  | .protocol msg => io s!"protocol error: {msg}"
  | .workerCrashed => io "connection pool worker task crashed"
  | .other display => postgres display

/-- The `Display` text. -/
def display : PgStoreError → String
  | keyAlreadyExists key => s!"key already exists: {key}"
  | conditionNotMet key => s!"condition not met for key: {key}"
  | txClosed => "transaction already closed"
  | txReadOnly => "transaction is read-only"
  | unsupportedVersionedQueries =>
    "versioned queries are not supported by the PostgreSQL backend"
  | deadlock msg => s!"deadlock detected: {msg}"
  | serializationFailure msg => s!"serialization failure: {msg}"
  | poolTimeout => "connection pool timeout"
  | connectTimeout d => "connection timeout: failed to connect within " ++ d.debug
  | io msg => s!"I/O error: {msg}"
  | poolClosed => "connection pool closed"
  | postgres msg => s!"postgres error: {msg}"
  | other msg => msg

end PgStoreError

/-- `From<PgStoreError> for kvs::Error`. -/
def KvsError.ofPgStoreError : PgStoreError → KvsError
  | .keyAlreadyExists _ => .transactionKeyAlreadyExists
  | .conditionNotMet _ => .transactionConditionNotMet
  | .txClosed => .transactionFinished
  | .txReadOnly => .transactionReadonly
  | .unsupportedVersionedQueries => .unsupportedVersionedQueries
  | .deadlock msg => .transactionConflict msg
  | .serializationFailure msg => .transactionConflict msg
  | .poolTimeout => .connectionFailed "connection pool timeout"
  | .connectTimeout d =>
    .connectionFailed ("connection timeout: failed to connect within " ++ d.debug)
  | .io msg => .connectionFailed msg
  | .poolClosed => .connectionFailed "connection pool closed"
  | .postgres msg => .transaction msg
  | .other msg => .transaction msg

/-! ## What a driver error never becomes

The close protocol of a transaction reports `TxClosed` itself and never because of something the
server said, so a caller can take that answer to mean that the transaction was closed before. -/

theorem PgStoreError.fromSqlx_ne_txClosed (key : Option Key) (e : SqlxError) :
    fromSqlx key e ≠ txClosed := by
  cases e with
  | database code message =>
    simp only [fromSqlx, fromDatabase]
    split_ifs
    · cases key <;> exact fun h ↦ nomatch h
    all_goals exact fun h ↦ nomatch h
  | _ => exact fun h ↦ nomatch h

theorem KvsError.ofPgStoreError_eq_transactionFinished {e : PgStoreError} :
    ofPgStoreError e = .transactionFinished ↔ e = .txClosed := by
  cases e <;> simp [ofPgStoreError]

end SurrealPg
