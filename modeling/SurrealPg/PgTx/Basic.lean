import SurrealPg.Transaction.Operation
import Mathlib.Algebra.GroupWithZero.Nat

/-!
# `PgTx`

The engine's view of a transaction: a `PgTransaction` behind a mutex, and a `done` flag that is
read without it. Its methods take `&self`, so any number of calls may be under way on one `PgTx`;
each is a dialogue with the shared memory, step by step, in which the statements of the inner
transaction appear between taking the lock and giving it back.

Dropping a call's future gives back the lock if the call holds it. A closing call owns the inner
transaction from the moment it took it out, so dropping that call drops the transaction too.
-/

namespace SurrealPg

open Postgres Semantics

/-- One access to the memory of a `PgTx`, or a request of the inner transaction. -/
inductive TxReq
  /-- `self.done.load(..)` -/
  | loadDone
  /-- `self.inner.lock().await` -/
  | lock
  /-- `guard.is_none()` and `guard.as_mut()` -/
  | readInner
  /-- What a `&mut` method of the inner transaction leaves behind the guard. -/
  | writeInner (tx : PgTransaction)
  /-- The guard goes out of scope, or `drop(guard)`. -/
  | unlock
  /-- `self.done.swap(true, ..)` -/
  | swapDone
  /-- `guard.take()` -/
  | takeInner
  /-- `self.tx_committed.fetch_add(1, ..)` -/
  | addCommitted
  /-- `self.tx_rolled_back.fetch_add(1, ..)` -/
  | addRolledBack
  | tx (r : Request)
  deriving DecidableEq

abbrev TxReq.Answer : TxReq → Type
  | .loadDone | .swapDone => Bool
  | .readInner | .takeInner => Option PgTransaction
  | .lock | .writeInner _ | .unlock | .addCommitted | .addRolledBack => Unit
  | .tx r => r.Answer

/-- What dropping the call leaves behind. -/
inductive TxNote
  /-- Still in the mutex's queue. -/
  | waiting
  /-- Under the guard, which is given back. -/
  | guarded (left : Unwound)
  /-- Owning the transaction, which is dropped. -/
  | owning (left : Unwound)

/-- The future of a `PgTx` method. -/
abbrev TxAsync (α : Type) := Dialogue TxReq TxReq.Answer TxNote α

structure KeysResult where
  keys : List Key
  keyBytes : ℕ

structure ScanResult where
  values : List (Key × Val)
  keyBytes : ℕ
  valueBytes : ℕ

structure GetMultiResult where
  values : List (Option Val)
  records : ℕ
  valueBytes : ℕ

namespace PgTx

/-! ## The accesses -/

def loadDone : TxAsync Bool := .ask .loadDone none .done

def lockInner : TxAsync Unit := .ask .lock (some .waiting) .done

def readInner : TxAsync (Option PgTransaction) := .ask .readInner none .done

def writeInner (tx : PgTransaction) : TxAsync Unit := .ask (.writeInner tx) none .done

def unlock : TxAsync Unit := .ask .unlock none .done

def swapDone : TxAsync Bool := .ask .swapDone none .done

def takeInner : TxAsync (Option PgTransaction) := .ask .takeInner none .done

def addCommitted : TxAsync Unit := .ask .addCommitted none .done

def addRolledBack : TxAsync Unit := .ask .addRolledBack none .done

/-- An operation of the inner transaction, run through the guard. -/
def underGuard {α : Type} (a : Async α) : TxAsync α := a.embed .tx (fun _ r ↦ r) .guarded

/-- An operation of a transaction that the call owns. -/
def onOwned {α : Type} (a : Async α) : TxAsync α := a.embed .tx (fun _ r ↦ r) .owning

/-! ## Taking the lock -/

/-- Versioned queries are rejected before anything else. -/
def checkVersion (version : Option UInt64) : KvsResult Unit :=
  if version.isSome then .error .unsupportedVersionedQueries else .ok ()

/-- Acquire the inner transaction, returning an error if already closed. -/
def lock : TxAsync (KvsResult PgTransaction) := do
  if ← loadDone then return .error .transactionFinished
  lockInner
  match ← readInner with
  | none => do
    unlock
    return .error .transactionFinished
  | some tx => return .ok tx

/-- Like `lock`, but also checks that the transaction is writable. -/
def lockWrite (write : Bool) : TxAsync (KvsResult PgTransaction) := do
  if ← loadDone then return .error .transactionFinished
  if !write then return .error .transactionReadonly
  lockInner
  match ← readInner with
  | none => do
    unlock
    return .error .transactionFinished
  | some tx => return .ok tx

/-- The body of every operation: take the guard, run on the transaction behind it, give the
guard back, and translate the error. -/
def withTx {α : Type} (guard : TxAsync (KvsResult PgTransaction))
    (body : PgTransaction → Async (Result α × PgTransaction)) : TxAsync (KvsResult α) := do
  match ← guard with
  | .error e => return .error e
  | .ok tx => do
    let r ← underGuard (body tx)
    writeInner r.2
    unlock
    return r.1.mapError .ofPgStoreError

/-- An operation that leaves the transaction value alone. -/
def reading {α : Type} (f : PgTransaction → Async (Result α)) (tx : PgTransaction) :
    Async (Result α × PgTransaction) :=
  (fun r ↦ (r, tx)) <$> f tx

/-- A read at the present version. -/
def read {α : Type} (version : Option UInt64) (f : PgTransaction → Async (Result α)) :
    TxAsync (KvsResult α) :=
  match checkVersion version with
  | .error e => pure (.error e)
  | .ok _ => withTx lock (reading f)

/-! ## Operations -/

def «exists» (key : Key) (version : Option UInt64) : TxAsync (KvsResult Bool) :=
  read version fun tx ↦ tx.exists key

def get (key : Key) (version : Option UInt64) : TxAsync (KvsResult (Option Val)) :=
  read version fun tx ↦ tx.get key

def set (write : Bool) (key : Key) (val : Val) : TxAsync (KvsResult Unit) :=
  withTx (lockWrite write) (reading fun tx ↦ tx.set key val)

def put (write : Bool) (key : Key) (val : Val) : TxAsync (KvsResult Unit) :=
  withTx (lockWrite write) (reading fun tx ↦ tx.put key val)

def putc (write : Bool) (key : Key) (val : Val) (chk : Option Val) : TxAsync (KvsResult Unit) :=
  withTx (lockWrite write) (reading fun tx ↦ tx.putc key val chk)

def del (write : Bool) (key : Key) : TxAsync (KvsResult Unit) :=
  withTx (lockWrite write) (reading fun tx ↦ tx.del key)

def delc (write : Bool) (key : Key) (chk : Option Val) : TxAsync (KvsResult Unit) :=
  withTx (lockWrite write) (reading fun tx ↦ tx.delc key chk)

def keyBytes (ks : List Key) : ℕ := (ks.map List.length).sum

def keysResult (ks : List Key) : KeysResult := ⟨ks, keyBytes ks⟩

def scanResult (values : List (Key × Val)) : ScanResult :=
  ⟨values, keyBytes (values.map Prod.fst), (values.map fun r ↦ r.2.length).sum⟩

def getMultiResult (values : List (Option Val)) : GetMultiResult :=
  ⟨values, values.countP Option.isSome, (values.map fun v ↦ v.elim 0 List.length).sum⟩

def keys (start stop : Key) (limit skip : UInt32) (version : Option UInt64) :
    TxAsync (KvsResult KeysResult) :=
  (Except.map keysResult) <$> read version fun tx ↦ tx.keys start stop limit skip

def keysr (start stop : Key) (limit skip : UInt32) (version : Option UInt64) :
    TxAsync (KvsResult KeysResult) :=
  (Except.map keysResult) <$> read version fun tx ↦ tx.keysr start stop limit skip

def scan (start stop : Key) (limit skip : UInt32) (version : Option UInt64) :
    TxAsync (KvsResult ScanResult) :=
  (Except.map scanResult) <$> read version fun tx ↦ tx.scan start stop limit skip

def scanr (start stop : Key) (limit skip : UInt32) (version : Option UInt64) :
    TxAsync (KvsResult ScanResult) :=
  (Except.map scanResult) <$> read version fun tx ↦ tx.scanr start stop limit skip

def getm (ks : List Key) (version : Option UInt64) : TxAsync (KvsResult GetMultiResult) :=
  (Except.map getMultiResult) <$> read version fun tx ↦ tx.getm ks

def getr (start stop : Key) (version : Option UInt64) : TxAsync (KvsResult ScanResult) :=
  (Except.map scanResult) <$> read version fun tx ↦ tx.getr start stop

def delr (write : Bool) (start stop : Key) : TxAsync (KvsResult Unit) :=
  withTx (lockWrite write) (reading fun tx ↦ tx.delr start stop)

/-- Delegates to `delr`. -/
def clrr (write : Bool) (start stop : Key) : TxAsync (KvsResult Unit) := delr write start stop

def count (start stop : Key) (version : Option UInt64) : TxAsync (KvsResult ℕ) :=
  read version fun tx ↦ tx.count start stop

def newSavePoint : TxAsync (KvsResult Unit) := withTx lock PgTransaction.newSavePoint

def releaseLastSavePoint : TxAsync (KvsResult Unit) :=
  withTx lock PgTransaction.releaseLastSavePoint

def rollbackToSavePoint : TxAsync (KvsResult Unit) :=
  withTx lock PgTransaction.rollbackToSavePoint

/-! ## Closing -/

/-- The close protocol: look, take the lock, claim with a swap, take the transaction out, give
the lock back, and only then talk to the server; `settle` counts the outcome. -/
def close (inner : PgTransaction → Async (Result Unit × PgTransaction))
    (settle : Result Unit → TxAsync Unit) : TxAsync (KvsResult Unit) := do
  if ← loadDone then return .error .transactionFinished
  lockInner
  if ← swapDone then
    unlock
    return .error .transactionFinished
  let txOpt ← takeInner
  unlock
  match txOpt with
  | none => return .ok ()
  | some tx => do
    let r ← onOwned (inner tx)
    settle r.1
    return r.1.mapError .ofPgStoreError

/-- A successful commit counts as committed, a failed one as rolled back. -/
def settleCommit : Result Unit → TxAsync Unit
  | .ok _ => addCommitted
  | .error _ => addRolledBack

def commit : TxAsync (KvsResult Unit) := close PgTransaction.commit settleCommit

/-- Every cancel counts as rolled back, whatever the server said. -/
def cancel : TxAsync (KvsResult Unit) := close PgTransaction.cancel fun _ ↦ addRolledBack

end PgTx

/-! ## One caller

With a single call at a time the mutex is always free, and a call is its body. -/

/-- The memory of a `PgTx` that nobody else uses, with its connection. -/
structure Solo where
  inner : Option PgTransaction
  done : Bool
  wire : Wire

def Solo.answer (faults : ℕ → Option SqlxError) (s : Solo) : (q : TxReq) → q.Answer × Solo
  | .loadDone => (s.done, s)
  | .swapDone => (s.done, { s with done := true })
  | .readInner => (s.inner, s)
  | .writeInner tx => ((), { s with inner := some tx })
  | .takeInner => (s.inner, { s with inner := none })
  | .lock | .unlock | .addCommitted | .addRolledBack => ((), s)
  | .tx r => ((s.wire.answer faults r).1, { s with wire := (s.wire.answer faults r).2 })

variable {faults : ℕ → Option SqlxError} {α : Type}

theorem PgTx.underGuard_eval (a : Async α) (i : Option PgTransaction) (d : Bool) (w : Wire) :
    (PgTx.underGuard a).eval (Solo.answer faults) ⟨i, d, w⟩ =
      ((a.eval (Wire.answer faults) w).1, ⟨i, d, (a.eval (Wire.answer faults) w).2⟩) :=
  Dialogue.eval_embed (Solo.mk i d) (fun _ _ ↦ rfl) a w

theorem PgTx.onOwned_eval (a : Async α) (i : Option PgTransaction) (d : Bool) (w : Wire) :
    (PgTx.onOwned a).eval (Solo.answer faults) ⟨i, d, w⟩ =
      ((a.eval (Wire.answer faults) w).1, ⟨i, d, (a.eval (Wire.answer faults) w).2⟩) :=
  Dialogue.eval_embed (Solo.mk i d) (fun _ _ ↦ rfl) a w

/-- **A call that takes the lock** runs its operation on the transaction and the connection, and
puts back what the operation made of the transaction. -/
theorem PgTx.withTx_eval {guard : TxAsync (KvsResult PgTransaction)} {tx : PgTransaction}
    {w : Wire} (hguard : guard.eval (Solo.answer faults) ⟨some tx, false, w⟩ =
      (.ok tx, ⟨some tx, false, w⟩))
    (body : PgTransaction → Async (Result α × PgTransaction)) :
    (PgTx.withTx guard body).eval (Solo.answer faults) ⟨some tx, false, w⟩ =
      (((body tx).eval (Wire.answer faults) w).1.1.mapError .ofPgStoreError,
        ⟨some ((body tx).eval (Wire.answer faults) w).1.2, false,
          ((body tx).eval (Wire.answer faults) w).2⟩) := by
  rw [PgTx.withTx, Dialogue.eval_bind, hguard]
  dsimp only
  rw [Dialogue.eval_bind, PgTx.underGuard_eval]
  rfl

theorem PgTx.read_eval (f : PgTransaction → Async (Result α)) (tx : PgTransaction) (w : Wire) :
    (PgTx.read none f).eval (Solo.answer faults) ⟨some tx, false, w⟩ =
      (((f tx).eval (Wire.answer faults) w).1.mapError .ofPgStoreError,
        ⟨some tx, false, ((f tx).eval (Wire.answer faults) w).2⟩) := by
  have hlock : PgTx.lock.eval (Solo.answer faults) ⟨some tx, false, w⟩ =
      (.ok tx, ⟨some tx, false, w⟩) := rfl
  have heval := PgTx.withTx_eval hlock (PgTx.reading f)
  rw [PgTx.reading, Dialogue.eval_map] at heval
  exact heval

variable (faults) in
theorem PgTx.lockWrite_eval (tx : PgTransaction) (w : Wire) :
    (PgTx.lockWrite true).eval (Solo.answer faults) ⟨some tx, false, w⟩ =
      (.ok tx, ⟨some tx, false, w⟩) := rfl

theorem PgTx.close_eval (inner : PgTransaction → Async (Result Unit × PgTransaction))
    {settle : Result Unit → TxAsync Unit}
    (hsettle : ∀ r s, (settle r).eval (Solo.answer faults) s = ((), s)) (tx : PgTransaction)
    (w : Wire) :
    (PgTx.close inner settle).eval (Solo.answer faults) ⟨some tx, false, w⟩ =
      (((inner tx).eval (Wire.answer faults) w).1.1.mapError .ofPgStoreError,
        ⟨none, true, ((inner tx).eval (Wire.answer faults) w).2⟩) := by
  have htail : (PgTx.close inner settle).eval (Solo.answer faults) ⟨some tx, false, w⟩ =
      ((PgTx.onOwned (inner tx) >>= fun r ↦ settle r.1 >>= fun _ ↦
        pure (r.1.mapError KvsError.ofPgStoreError)).eval (Solo.answer faults)
          ⟨none, true, w⟩) := rfl
  rw [htail, Dialogue.eval_bind, PgTx.onOwned_eval, Dialogue.eval_bind, hsettle]
  rfl

theorem PgTx.settleCommit_eval (r : Result Unit) (s : Solo) :
    (PgTx.settleCommit r).eval (Solo.answer faults) s = ((), s) := by
  cases r <;> rfl

end SurrealPg
