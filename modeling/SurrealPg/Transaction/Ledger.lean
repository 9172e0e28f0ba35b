import SurrealPg.PgTx.Basic
import SurrealPg.Transaction.Outcome

/-!
# What a successful commit keeps

A caller can write down which of its operations returned `Ok`, undoing with every successful
rollback to a savepoint what was written down since. The question is when a commit that returns
`Ok` has made exactly that permanent.

## The invariant

The ledger and the server's block move together: each savepoint the server remembers restores the
table the ledger had when it was made, under the name the transaction has on its stack, and as
long as the block is not aborted the contents it sees are the ledger applied to the table at
`BEGIN`. Each operation keeps this, whether it succeeds, is refused by the server half way, or
reports an error of its own. What the invariant does not say is anything about the contents of an
aborted block, and `COMMIT` of an aborted block reports success.
-/

namespace SurrealPg

open Postgres Semantics

/-! ## The ledger -/

/-- The acknowledged operations that have not been undone, oldest first, and the same list as it
stood when each savepoint still open was made, most recent first. -/
structure Ledger where
  writes : List Op
  saved : List (List Op)

namespace Ledger

def empty : Ledger := ⟨[], []⟩

/-- Write down an operation that returned `Ok`. -/
def acknowledge (l : Ledger) : Op → Ledger
  | .newSavePoint => { l with saved := l.writes :: l.saved }
  | .releaseLastSavePoint => { l with saved := l.saved.tail }
  | .rollbackToSavePoint => ⟨l.saved.head?.getD l.writes, l.saved.tail⟩
  | op => { l with writes := l.writes ++ [op] }

/-- Write down what an operation returned; an error leaves no trace. -/
def record (l : Ledger) (op : Op) : Result Answer → Ledger
  | .error _ => l
  | .ok _ => l.acknowledge op

/-- Operations applied in order to a table. -/
def applied (t : Table Key Val) (ops : List Op) : Table Key Val := ops.foldl Op.effect t

theorem applied_append_singleton (t : Table Key Val) (ops : List Op) (op : Op) :
    applied t (ops ++ [op]) = op.effect (applied t ops) := by
  rw [applied, List.foldl_append, List.foldl_cons, List.foldl_nil, applied]

end Ledger

namespace Client

variable (faults : ℕ → Option SqlxError)

/-- Perform one operation and write down its answer. -/
def recorded (s : Client × Ledger) (op : Op) : Client × Ledger :=
  ((s.1.perform faults op).2, s.2.record op (s.1.perform faults op).1)

/-- Perform operations one after another on a transaction just begun on `d`. -/
def performAll (conn : TxConn) (d : Database) (ops : List Op) : Client × Ledger :=
  ops.foldl (recorded faults) (opened conn d, .empty)

end Client

/-- What every other transaction sees. -/
def Wire.committed (w : Wire) : Database :=
  match w.session with
  | .inBlock b => b.base
  | .idle d => d

/-- Whether the connection is inside a block in the aborted state. -/
def Wire.aborted (w : Wire) : Bool :=
  match w.session with
  | .inBlock b => b.aborted
  | .idle _ => false

/-! ## Ledger and block in step -/

/-- The block a transaction runs in, the transaction's own bookkeeping and the caller's ledger
agree about a transaction begun on `d`. -/
structure InStep (d : Database) (l : Ledger) (tx : PgTransaction) (b : Block Database) : Prop where
  base : b.base = d
  names : b.marks.map Prod.fst = tx.savepoints
  saved : b.marks.map (fun m ↦ m.2.kv) = l.saved.map (Ledger.applied d.kv)
  /-- Nothing is known about the contents of an aborted block. -/
  cur : b.aborted = false → b.cur.kv = Ledger.applied d.kv l.writes

/-- An open write transaction in step with its ledger. -/
def Synced (conn : TxConn) (d : Database) (s : Client × Ledger) : Prop :=
  s.1.tx.conn = some conn ∧ s.1.tx.writeable = true ∧
    ∃ b, s.1.wire.session = .inBlock b ∧ InStep d s.2 s.1.tx b

section Runs

variable {faults : ℕ → Option SqlxError} {conn : TxConn} {d : Database} {l : Ledger}
  {tx : PgTransaction} {b b' : Block Database}

theorem Ledger.acknowledge_of_not_isSavepoint {op : Op} (h : op.isSavepoint = false) :
    l.acknowledge op = { l with writes := l.writes ++ [op] } := by
  cases op <;> first | rfl | exact absurd h Bool.true_eq_false.mp

/-- A key-value operation keeps the agreement, however it ends. -/
theorem InStep.keyValue (h : InStep d l tx b) {op : Op} (hop : op.isSavepoint = false)
    {r : Result Answer} (hout : Outcome op.effect b r b') : InStep d (l.record op r) tx b' := by
  cases hout with
  | refused e d' => exact ⟨h.base, h.names, h.saved, fun hab ↦ absurd hab Bool.true_eq_false.mp⟩
  | unmet e d' hd => exact ⟨h.base, h.names, h.saved, fun hab ↦ hd.trans (h.cur hab)⟩
  | done a d' hd =>
    rw [Ledger.record, Ledger.acknowledge_of_not_isSavepoint hop]
    refine ⟨h.base, h.names, h.saved, fun hab ↦ ?_⟩
    rw [Ledger.applied_append_singleton, ← h.cur hab]
    exact hd

/-- A refused savepoint operation leaves the stack of names and aborts the block. -/
theorem InStep.refused (h : InStep d l tx b) {tx' : PgTransaction} {d' : Database}
    (hnames : tx'.savepoints = tx.savepoints) :
    InStep d l tx' { b with cur := d', aborted := true } :=
  ⟨h.base, h.names.trans hnames.symm, h.saved, fun hab ↦ absurd hab Bool.true_eq_false.mp⟩

theorem InStep.newSavePoint (h : InStep d l tx b) {tx' : PgTransaction} {name : String}
    (hnames : tx'.savepoints = name :: tx.savepoints) (hab : b.aborted = false) :
    InStep d (l.acknowledge .newSavePoint) tx' { b with marks := (name, b.cur) :: b.marks } := by
  refine ⟨h.base, ?_, ?_, h.cur⟩
  · rw [List.map_cons, h.names, hnames]
  · rw [Ledger.acknowledge, List.map_cons, List.map_cons, h.saved, h.cur hab]

theorem InStep.releaseLastSavePoint (h : InStep d l tx b) {tx' : PgTransaction}
    (hnames : tx'.savepoints = tx.savepoints.tail) :
    InStep d (l.acknowledge .releaseLastSavePoint) tx' { b with marks := b.marks.tail } := by
  refine ⟨h.base, ?_, ?_, h.cur⟩
  · rw [List.map_tail, h.names, hnames]
  · rw [List.map_tail, h.saved, Ledger.acknowledge, List.map_tail]

theorem InStep.rollbackToSavePoint (h : InStep d l tx b) {tx' : PgTransaction}
    (hnames : tx'.savepoints = tx.savepoints.tail) :
    InStep d (l.acknowledge .rollbackToSavePoint) tx' (b.marks.head?.elim b fun m ↦
      { b with cur := m.2, marks := b.marks.tail, aborted := false }) := by
  obtain ⟨base, cur, marks, ab⟩ := b
  obtain ⟨writes, saved⟩ := l
  obtain ⟨rfl, hn, hs, hc⟩ := h
  cases marks with
  | nil =>
    obtain rfl : saved = [] := List.map_eq_nil_iff.mp hs.symm
    exact ⟨rfl, by rw [hnames, ← hn]; rfl, rfl, hc⟩
  | cons m marks =>
    cases saved with
    | nil => exact absurd hs (List.cons_ne_nil _ _)
    | cons ws saved =>
      obtain ⟨hm, hms⟩ := List.cons.inj hs
      exact ⟨rfl, by rw [hnames, ← hn]; rfl, hms, fun _ ↦ hm⟩

/-- **One step.** Performing any operation and writing down its answer keeps a transaction in step
with its ledger, whatever the server refuses. -/
theorem Synced.recorded {s : Client × Ledger} (h : Synced conn d s) (op : Op) :
    Synced conn d (Client.recorded faults s op) := by
  obtain ⟨⟨tx, w⟩, l⟩ := s
  obtain ⟨hconn, hwr, b, hw, hstep⟩ := h
  cases hop : op.isSavepoint with
  | false =>
    obtain ⟨r, w', b', hev, hs, hout⟩ := Op.run_cases faults hconn hwr hw hop
    rw [Client.recorded, Client.perform, hev]
    exact ⟨hconn, hwr, b', hs, hstep.keyValue hop hout⟩
  | true =>
    cases op with
    | newSavePoint =>
      obtain ⟨r, tx', w', b', hev, hs, hconn', hwr', hcases⟩ :=
        PgTransaction.newSavePoint_cases faults hconn hw
      rw [Client.recorded, Client.perform, Op.run, Dialogue.eval_map, hev]
      refine ⟨hconn', hwr'.trans hwr, b', hs, ?_⟩
      rcases hcases with ⟨e, rfl, hnames, rfl⟩ | ⟨name, rfl, hnames, hab, rfl⟩
      · exact hstep.refused hnames
      · exact hstep.newSavePoint hnames hab
    | releaseLastSavePoint =>
      obtain ⟨r, tx', w', b', hev, hs, hconn', hwr', hcases⟩ :=
        PgTransaction.releaseLastSavePoint_cases faults hconn hw hstep.names
      rw [Client.recorded, Client.perform, Op.run, Dialogue.eval_map, hev]
      refine ⟨hconn', hwr'.trans hwr, b', hs, ?_⟩
      rcases hcases with ⟨e, rfl, hnames, rfl⟩ | ⟨rfl, hnames, rfl⟩
      · exact hstep.refused hnames
      · exact hstep.releaseLastSavePoint hnames
    | rollbackToSavePoint =>
      obtain ⟨r, tx', w', b', hev, hs, hconn', hwr', hcases⟩ :=
        PgTransaction.rollbackToSavePoint_cases faults hconn hw hstep.names
      rw [Client.recorded, Client.perform, Op.run, Dialogue.eval_map, hev]
      refine ⟨hconn', hwr'.trans hwr, b', hs, ?_⟩
      rcases hcases with ⟨e, d', rfl, hnames, rfl⟩ | ⟨rfl, hnames, rfl⟩
      · exact hstep.refused hnames
      · exact hstep.rollbackToSavePoint hnames
    | _ => exact absurd hop.symm Bool.true_eq_false.mp

theorem synced_opened (conn : TxConn) (d : Database) :
    Synced conn d (Client.opened conn d, .empty) :=
  ⟨rfl, rfl, Block.begin d, rfl, ⟨rfl, rfl, rfl, fun _ ↦ rfl⟩⟩

/-- **Every run.** After any operations, with any refusals, the transaction is in step. -/
theorem synced_performAll (faults : ℕ → Option SqlxError) (conn : TxConn) (d : Database)
    (ops : List Op) : Synced conn d (Client.performAll faults conn d ops) := by
  suffices ∀ s, Synced conn d s → Synced conn d (ops.foldl (Client.recorded faults) s) from
    this _ (synced_opened conn d)
  induction ops with
  | nil => exact fun s hs ↦ hs
  | cons op ops ih => exact fun s hs ↦ ih _ (hs.recorded op)

/-! ## Committing -/

/-- Commit through a `PgTx` that nobody else is using. -/
def Client.commitPgTx (faults : ℕ → Option SqlxError) (c : Client) : KvsResult Unit × Wire :=
  let r := PgTx.commit.eval (Solo.answer faults) ⟨some c.tx, false, c.wire⟩
  (r.1, r.2.wire)

/-- What a commit of a transaction begun on `d` promises: where it returns `Ok`, the committed
table is the table at `BEGIN` with the acknowledged writes that were not undone, in order. -/
def CommitKeepsAcknowledged (faults : ℕ → Option SqlxError) (d : Database)
    (s : Client × Ledger) : Prop :=
  ((s.1.commit faults).1 = .ok () →
    (s.1.commit faults).2.wire.committed.kv = Ledger.applied d.kv s.2.writes) ∧
  ((s.1.commitPgTx faults).1 = .ok () →
    (s.1.commitPgTx faults).2.committed.kv = Ledger.applied d.kv s.2.writes)

theorem Client.commitPgTx_eq (c : Client) :
    c.commitPgTx faults =
      ((c.commit faults).1.mapError .ofPgStoreError, (c.commit faults).2.wire) := by
  rw [commitPgTx, PgTx.commit, PgTx.close_eval _ PgTx.settleCommit_eval, commit]

private theorem mapError_eq_ok {α ε ε' : Type} {f : ε → ε'} {r : Except ε α} {a : α} :
    r.mapError f = .ok a ↔ r = .ok a := by
  cases r <;> simp [Except.mapError]

private theorem commitKeepsAcknowledged_iff_commit {s : Client × Ledger} :
    CommitKeepsAcknowledged faults d s ↔ ((s.1.commit faults).1 = .ok () →
      (s.1.commit faults).2.wire.committed.kv = Ledger.applied d.kv s.2.writes) := by
  rw [CommitKeepsAcknowledged, Client.commitPgTx_eq, mapError_eq_ok, and_self]

/-- A refused `COMMIT` promises nothing; an answered one makes the outcome of the block
permanent. -/
private theorem Synced.commitKeepsAcknowledged_iff {s : Client × Ledger} (h : Synced conn d s) :
    CommitKeepsAcknowledged faults d s ↔ faults s.1.wire.sent ≠ none ∨
      s.1.wire.aborted = false ∨ Ledger.applied d.kv s.2.writes = d.kv := by
  obtain ⟨⟨tx, w⟩, l⟩ := s
  obtain ⟨hconn, -, b, hw, hstep⟩ := h
  have haborted : w.aborted = b.aborted := by rw [Wire.aborted, hw]
  rw [commitKeepsAcknowledged_iff_commit, Client.commit, PgTransaction.commit_eval hconn hw,
    haborted]
  cases hf : faults w.sent with
  | some e => exact iff_of_true (fun hr ↦ nomatch hr) (Or.inl (Option.some_ne_none e))
  | none =>
    rw [or_iff_right (not_not.mpr rfl)]
    dsimp only [Wire.committed, Block.outcome]
    cases hab : b.aborted with
    | false => exact iff_of_true (fun _ ↦ hstep.cur hab) (Or.inl rfl)
    | true =>
      rw [if_pos rfl, hstep.base, or_iff_right Bool.true_eq_false.mp]
      exact (imp_iff_right rfl).trans eq_comm

/-- **When a successful commit keeps the acknowledged writes.** Exactly when it cannot report
success, or the block it commits is not aborted, or there is nothing to lose: the acknowledged
writes leave the table as it was at `BEGIN`. -/
theorem commitKeepsAcknowledged_performAll_iff (faults : ℕ → Option SqlxError) (conn : TxConn)
    (d : Database) (ops : List Op) :
    CommitKeepsAcknowledged faults d (Client.performAll faults conn d ops) ↔
      faults (Client.performAll faults conn d ops).1.wire.sent ≠ none ∨
        (Client.performAll faults conn d ops).1.wire.aborted = false ∨
        Ledger.applied d.kv (Client.performAll faults conn d ops).2.writes = d.kv :=
  (synced_performAll faults conn d ops).commitKeepsAcknowledged_iff

/-- The second statement runs into `statement_timeout`. -/
private def timeoutAt (n : ℕ) (m : ℕ) : Option SqlxError :=
  if m = n then some (.database (some "57014") "canceling statement due to statement timeout")
  else none

/-- A `set` that returned `Ok`, a `setm` that failed, and a commit that returns `Ok` over an
empty table. -/
theorem not_commitKeepsAcknowledged_after_failed_setm :
    ¬CommitKeepsAcknowledged (timeoutAt 1) ⟨∅, []⟩
      (Client.performAll (timeoutAt 1) .direct ⟨∅, []⟩
        [.set [1] [10], .setm ⟨id, fun _ ↦ .rfl⟩ [([2], [20])]]) := by
  rintro ⟨hcommit, -⟩
  have hkeys := congrArg (fun t ↦ (t.get? [1]).isSome) (hcommit rfl)
  exact Bool.false_ne_true hkeys

end Runs

end SurrealPg
