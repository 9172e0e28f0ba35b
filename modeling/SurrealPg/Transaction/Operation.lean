import SurrealPg.Transaction.Basic

/-!
# Operations against a server

The operations of an open transaction as one type, and what happens when they are performed one
after another on a connection whose server follows the transaction-block rules. A fault pattern
says which of the commands sent the server refuses for reasons of its own; everything about a run
is then a function of the pattern and of the list of operations.
-/

namespace SurrealPg

open Postgres Semantics

/-- The key-value and savepoint operations, with their arguments. -/
inductive Op
  | «exists» (key : Key)
  | get (key : Key)
  | getm (keys : List Key)
  | set (key : Key) (val : Val)
  | setm (o : HashOrder) (pairs : List (Key × Val))
  | put (key : Key) (val : Val)
  | putc (key : Key) (val : Val) (chk : Option Val)
  | del (key : Key)
  | delc (key : Key) (chk : Option Val)
  | delr (start stop : Key)
  | keys (start stop : Key) (limit skip : UInt32)
  | keysr (start stop : Key) (limit skip : UInt32)
  | scan (start stop : Key) (limit skip : UInt32)
  | scanr (start stop : Key) (limit skip : UInt32)
  | getr (start stop : Key)
  | count (start stop : Key)
  | countApprox (tableName : String)
  | newSavePoint
  | releaseLastSavePoint
  | rollbackToSavePoint

/-- What an operation returns. -/
inductive Answer
  | unit
  | bool (b : Bool)
  | val (v : Option Val)
  | vals (vs : List (Option Val))
  | keys (ks : List Key)
  | pairs (ps : List (Key × Val))
  | count (n : ℕ)
  | countApprox (n : Option ℕ)
  deriving DecidableEq

/-- An operation that leaves `self` alone. -/
def keeping {α : Type} (tx : PgTransaction) (f : α → Answer) (a : Async (Result α)) :
    Async (Result Answer × PgTransaction) :=
  (fun r ↦ (r.map f, tx)) <$> a

def Op.run (tx : PgTransaction) : Op → Async (Result Answer × PgTransaction)
  | .exists key => keeping tx .bool (tx.exists key)
  | .get key => keeping tx .val (tx.get key)
  | .getm ks => keeping tx .vals (tx.getm ks)
  | .set key val => keeping tx (fun _ ↦ .unit) (tx.set key val)
  | .setm o pairs => keeping tx (fun _ ↦ .unit) (tx.setm o pairs)
  | .put key val => keeping tx (fun _ ↦ .unit) (tx.put key val)
  | .putc key val chk => keeping tx (fun _ ↦ .unit) (tx.putc key val chk)
  | .del key => keeping tx (fun _ ↦ .unit) (tx.del key)
  | .delc key chk => keeping tx (fun _ ↦ .unit) (tx.delc key chk)
  | .delr start stop => keeping tx (fun _ ↦ .unit) (tx.delr start stop)
  | .keys start stop limit skip => keeping tx .keys (tx.keys start stop limit skip)
  | .keysr start stop limit skip => keeping tx .keys (tx.keysr start stop limit skip)
  | .scan start stop limit skip => keeping tx .pairs (tx.scan start stop limit skip)
  | .scanr start stop limit skip => keeping tx .pairs (tx.scanr start stop limit skip)
  | .getr start stop => keeping tx .pairs (tx.getr start stop)
  | .count start stop => keeping tx .count (tx.count start stop)
  | .countApprox tableName => keeping tx .countApprox (tx.countApprox tableName)
  | .newSavePoint => (fun r ↦ (r.1.map fun _ ↦ .unit, r.2)) <$> tx.newSavePoint
  | .releaseLastSavePoint => (fun r ↦ (r.1.map fun _ ↦ .unit, r.2)) <$> tx.releaseLastSavePoint
  | .rollbackToSavePoint => (fun r ↦ (r.1.map fun _ ↦ .unit, r.2)) <$> tx.rollbackToSavePoint

/-! ## One connection -/

/-- The server's end of a connection, and how many commands it has been sent. -/
structure Wire where
  session : Session Database
  sent : ℕ

/-- The server answers by the block rules; `faults n` is its own reason to refuse the `n`-th
command. Counting a transaction off is not the connection's business. -/
def Wire.answer (faults : ℕ → Option SqlxError) (w : Wire) : (q : Request) → q.Answer × Wire
  | .sql c =>
    ((w.session.step engine (faults w.sent) c).1,
      ⟨(w.session.step engine (faults w.sent) c).2, w.sent + 1⟩)
  | .releaseActive => ((), w)

/-- A transaction value and its connection. -/
structure Client where
  tx : PgTransaction
  wire : Wire

namespace Client

/-- A write transaction just begun on the committed contents `d`. -/
def opened (conn : TxConn) (d : Database) : Client where
  tx := ⟨some conn, true, 0, []⟩
  wire := ⟨.inBlock (Block.begin d), 0⟩

variable (faults : ℕ → Option SqlxError)

/-- Perform one operation to its end. -/
def perform (c : Client) (op : Op) : Result Answer × Client :=
  let r := (op.run c.tx).eval (Wire.answer faults) c.wire
  (r.1.1, ⟨r.1.2, r.2⟩)

/-- Commit the transaction. -/
def commit (c : Client) : Result Unit × Client :=
  let r := c.tx.commit.eval (Wire.answer faults) c.wire
  (r.1.1, ⟨r.1.2, r.2⟩)

end Client

/-! ## One statement

Everything an operation learns about the block comes from these: a prepared statement that fails
leaves an aborted block, and one that succeeds found the block in order and ran. -/

variable {faults : ℕ → Option SqlxError} {tx : PgTransaction} {conn : TxConn} {w : Wire}
  {b : Block Database}

theorem Wire.answer_run (hw : w.session = .inBlock b) (c : Statement Stmt) :
    w.answer faults (.sql (.run c)) =
      ((b.run engine (faults w.sent) c).1,
        ⟨.inBlock (b.run engine (faults w.sent) c).2, w.sent + 1⟩) := by
  rw [Wire.answer, hw]
  rfl

variable (faults) in
theorem PgTransaction.query_cases {α : Type} (stmt : Stmt) (key : Option Key)
    (decode : Reply → Result α) (hconn : tx.conn = some conn) (hw : w.session = .inBlock b) :
    ∃ r w' b', (tx.query stmt key decode).eval (Wire.answer faults) w = (r, w') ∧
      w'.session = .inBlock b' ∧
      ((∃ e, r = .error e ∧ b' = { b with aborted := true }) ∨
        (∃ p d, b.aborted = false ∧ stmt.exec b.cur = .ok (p, d) ∧ r = decode p ∧
          b' = { b with cur := d })) := by
  rw [query, hconn]
  simp only [sendCommand, Dialogue.ask_bind, Dialogue.done_bind, Dialogue.eval_ask,
    Wire.answer_run hw]
  cases hr : (b.run engine (faults w.sent) (.data stmt)).1 with
  | error e =>
    exact ⟨_, _, _, rfl, rfl, Or.inl ⟨_, rfl, Block.run_error hr⟩⟩
  | ok p =>
    obtain ⟨-, hatt⟩ := Block.run_ok hr
    obtain ⟨hab, d, hexec, hb⟩ := Block.attempt_data_ok hatt
    exact ⟨_, _, _, rfl, rfl, Or.inr ⟨p, d, hab, hexec, rfl, hb⟩⟩

variable (faults) in
theorem PgTransaction.executeSimple_cases (tx : PgTransaction) (c : Statement Stmt)
    (key : Option Key) (hconn : tx.conn = some conn) (hw : w.session = .inBlock b) :
    ∃ r w' b', (tx.executeSimple c key).eval (Wire.answer faults) w = (r, w') ∧
      w'.session = .inBlock b' ∧
      ((∃ e, r = .error e ∧ b' = { b with aborted := true }) ∨
        (∃ p, r = .ok () ∧ b.attempt engine c = .ok (p, b'))) := by
  rw [executeSimple, hconn]
  simp only [sendCommand, Dialogue.ask_bind, Dialogue.done_bind, Dialogue.eval_ask,
    Wire.answer_run hw]
  cases hr : (b.run engine (faults w.sent) c).1 with
  | error e => exact ⟨_, _, _, rfl, rfl, Or.inl ⟨_, rfl, Block.run_error hr⟩⟩
  | ok p => exact ⟨_, _, _, rfl, rfl, Or.inr ⟨p, rfl, (Block.run_ok hr).2⟩⟩

end SurrealPg
