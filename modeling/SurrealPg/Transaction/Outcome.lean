import SurrealPg.Transaction.Setm

/-!
# What one operation does to the block

For every operation on an open write transaction: what it may return, and what it leaves of the
transaction value and of the server's block. A key-value operation leaves the value alone, and a
failure either aborts the block or has changed nothing; the savepoint operations keep the names on
the transaction's stack equal to the names of the server's savepoints, whatever is refused.
-/

namespace SurrealPg

open Postgres Semantics

/-- What an acknowledged operation does to the table. -/
def Op.effect (t : Table Key Val) : Op → Table Key Val
  | .set key val | .put key val | .putc key val _ => t.upsert key val
  | .setm _ pairs => t.upsertAll pairs
  | .del key | .delc key _ => t.erase key
  | .delr start stop => t.filter fun k ↦ !inRange start stop k
  | _ => t

/-! ## Key-value operations -/

/-- How an operation that changes the table by `f` may leave the block it ran in. -/
inductive Outcome {α : Type} (f : Table Key Val → Table Key Val) (b : Block Database) :
    Result α → Block Database → Prop
  /-- The server refused one of its statements, after answering some or none. -/
  | refused (e : PgStoreError) (d : Database) :
    Outcome f b (.error e) { b with cur := d, aborted := true }
  /-- The statements were answered and the operation read an error off the replies. -/
  | unmet (e : PgStoreError) (d : Database) :
    d.kv = b.cur.kv → Outcome f b (.error e) { b with cur := d }
  | done (a : α) (d : Database) : d.kv = f b.cur.kv → Outcome f b (.ok a) { b with cur := d }

namespace Outcome

variable {α β : Type} {f : Table Key Val → Table Key Val} {b b' : Block Database}

theorem silent (a : α) (h : f b.cur.kv = b.cur.kv) : Outcome f b (.ok a) b :=
  done a b.cur h.symm

theorem map {r : Result α} (h : Outcome f b r b') (g : α → β) : Outcome f b (r.map g) b' := by
  cases h with
  | refused e d => exact refused e d
  | unmet e d hd => exact unmet e d hd
  | done a d hd => exact done (g a) d hd

end Outcome

section Operations

variable {faults : ℕ → Option SqlxError} {tx : PgTransaction} {conn : TxConn} {w : Wire}
  {b : Block Database}

/-- Inside the block `b`, the program `a` ends inside a block, as `Outcome` allows. -/
def Ends {α : Type} (faults : ℕ → Option SqlxError) (w : Wire) (b : Block Database)
    (f : Table Key Val → Table Key Val) (a : Async (Result α)) : Prop :=
  ∃ r w' b', a.eval (Wire.answer faults) w = (r, w') ∧ w'.session = .inBlock b' ∧ Outcome f b r b'

namespace PgTransaction

theorem ends_pure {α : Type} {f : Table Key Val → Table Key Val} (hw : w.session = .inBlock b)
    (a : α) (h : f b.cur.kv = b.cur.kv) : Ends faults w b f (pure (.ok a)) :=
  ⟨_, _, b, rfl, hw, .silent a h⟩

/-- A prepared statement ends as allowed if reading its reply either succeeds, on the contents
`f` gives, or fails on unchanged contents. -/
theorem ends_query {α : Type} {f : Table Key Val → Table Key Val} {stmt : Stmt}
    {key : Option Key} {decode : Reply → Result α} (hconn : tx.conn = some conn)
    (hw : w.session = .inBlock b)
    (hread : ∀ p d, stmt.exec b.cur = .ok (p, d) →
      (∃ a, decode p = .ok a ∧ d.kv = f b.cur.kv) ∨
        (∃ e, decode p = .error e ∧ d.kv = b.cur.kv)) :
    Ends faults w b f (tx.query stmt key decode) := by
  obtain ⟨r, w', b', hev, hs, ⟨e, rfl, rfl⟩ | ⟨p, d, -, hexec, rfl, rfl⟩⟩ :=
    query_cases faults stmt key decode hconn hw
  · exact ⟨_, w', _, hev, hs, .refused e b.cur⟩
  · obtain ⟨a, ha, hd⟩ | ⟨e, he, hd⟩ := hread p d hexec
    · exact ⟨_, w', _, hev, hs, ha ▸ .done a d hd⟩
    · exact ⟨_, w', _, hev, hs, he ▸ .unmet e d hd⟩

theorem ends_select {α : Type} {stmt : Stmt} {key : Option Key} {g : Reply → α}
    (hread : stmt.isRead = true) (hconn : tx.conn = some conn) (hw : w.session = .inBlock b) :
    Ends faults w b id (tx.query stmt key fun r ↦ .ok (g r)) := by
  refine ends_query hconn hw fun p d hexec ↦ Or.inl ⟨g p, rfl, ?_⟩
  obtain ⟨q, hq⟩ := Stmt.exec_of_isRead hread b.cur
  rw [hq] at hexec
  obtain ⟨-, rfl⟩ := Prod.mk.inj (Except.ok.inj hexec)
  rfl

theorem writeQuery_of_writeable {α : Type} (hwr : tx.writeable = true) (stmt : Stmt)
    (key : Option Key) (decode : Reply → Result α) :
    tx.writeQuery stmt key decode = tx.query stmt key decode := by
  rw [writeQuery, checkWriteable, hwr]
  rfl

theorem ends_rangeQueryOffset {α : Type} {stmt : Stmt} (start stop : Key)
    {decode : List Row → List α} (hread : stmt.isRead = true) (hconn : tx.conn = some conn)
    (hw : w.session = .inBlock b) :
    Ends faults w b id (tx.rangeQueryOffset stmt start stop decode) := by
  rw [rangeQueryOffset, hconn]
  dsimp only
  split_ifs
  · exact ends_pure hw _ rfl
  · exact ends_select hread hconn hw

theorem ends_getm (hconn : tx.conn = some conn) (hw : w.session = .inBlock b) (ks : List Key) :
    Ends faults w b id (tx.getm ks) := by
  rw [getm]
  split_ifs
  · exact ends_pure hw _ rfl
  · exact ends_select rfl hconn hw

theorem ends_getr (hconn : tx.conn = some conn) (hw : w.session = .inBlock b) (start stop : Key) :
    Ends faults w b id (tx.getr start stop) := by
  rw [getr]
  split_ifs
  · exact ends_pure hw _ rfl
  · exact ends_select rfl hconn hw

theorem ends_count (hconn : tx.conn = some conn) (hw : w.session = .inBlock b)
    (start stop : Key) : Ends faults w b id (tx.count start stop) := by
  rw [count]
  split_ifs
  · exact ends_pure hw _ rfl
  · exact ends_select rfl hconn hw

/-- The writing operations that read the number of affected rows: they succeed having changed the
table, or report `err` having changed nothing. -/
theorem ends_counted {f : Table Key Val → Table Key Val} {stmt : Stmt} {key : Option Key}
    {err : PgStoreError} (hconn : tx.conn = some conn) (hw : w.session = .inBlock b)
    (hexec : ∀ p d, stmt.exec b.cur = .ok (p, d) →
      (p.rowsAffected = 1 ∧ d.kv = f b.cur.kv) ∨ (p.rowsAffected = 0 ∧ d.kv = b.cur.kv)) :
    Ends faults w b f (tx.query stmt key fun r ↦
      if r.rowsAffected = 0 then .error err else .ok ()) := by
  refine ends_query hconn hw fun p d h ↦ ?_
  obtain ⟨hp, hd⟩ | ⟨hp, hd⟩ := hexec p d h
  · exact Or.inl ⟨(), by rw [if_neg (by rw [hp]; exact Nat.one_ne_zero)], hd⟩
  · exact Or.inr ⟨err, if_pos hp, hd⟩

theorem ends_write {f : Table Key Val → Table Key Val} {stmt : Stmt} {key : Option Key}
    (hconn : tx.conn = some conn) (hw : w.session = .inBlock b)
    (hexec : ∀ p d, stmt.exec b.cur = .ok (p, d) → d.kv = f b.cur.kv) :
    Ends faults w b f (tx.query stmt key fun _ ↦ .ok ()) :=
  ends_query hconn hw fun p d h ↦ Or.inl ⟨(), rfl, hexec p d h⟩

end PgTransaction

theorem exec_put (d : Database) (key : Key) (val : Val) (p : Reply) (d' : Database)
    (h : (Stmt.put key val).exec d = .ok (p, d')) :
    (p.rowsAffected = 1 ∧ d'.kv = d.kv.upsert key val) ∨ (p.rowsAffected = 0 ∧ d'.kv = d.kv) := by
  simp only [Stmt.exec] at h
  split_ifs at h <;> obtain ⟨rfl, rfl⟩ := Prod.mk.inj (Except.ok.inj h)
  · exact Or.inr ⟨rfl, rfl⟩
  · exact Or.inl ⟨rfl, rfl⟩

theorem exec_putc (d : Database) (key : Key) (val expected : Val) (p : Reply) (d' : Database)
    (h : (Stmt.putc key val expected).exec d = .ok (p, d')) :
    (p.rowsAffected = 1 ∧ d'.kv = d.kv.upsert key val) ∨ (p.rowsAffected = 0 ∧ d'.kv = d.kv) := by
  simp only [Stmt.exec] at h
  split_ifs at h <;> obtain ⟨rfl, rfl⟩ := Prod.mk.inj (Except.ok.inj h)
  · exact Or.inl ⟨rfl, rfl⟩
  · exact Or.inr ⟨rfl, rfl⟩

theorem exec_delc (d : Database) (key : Key) (expected : Val) (p : Reply) (d' : Database)
    (h : (Stmt.delc key expected).exec d = .ok (p, d')) :
    (p.rowsAffected = 1 ∧ d'.kv = d.kv.erase key) ∨ (p.rowsAffected = 0 ∧ d'.kv = d.kv) := by
  simp only [Stmt.exec] at h
  split_ifs at h <;> obtain ⟨rfl, rfl⟩ := Prod.mk.inj (Except.ok.inj h)
  · exact Or.inl ⟨rfl, rfl⟩
  · exact Or.inr ⟨rfl, rfl⟩

theorem filter_not_inRange_of_le (t : Table Key Val) {start stop : Key} (h : stop ≤ start) :
    (t.filter fun k ↦ !inRange start stop k) = t := by
  refine Table.ext_get? fun k ↦ ?_
  have hout : inRange start stop k = false := by
    rw [inRange, Bool.and_eq_false_iff, decide_eq_false_iff_not, decide_eq_false_iff_not,
      not_le, not_lt]
    exact (lt_or_ge k start).imp_right h.trans
  rw [Table.get?_filter, hout]
  rfl

namespace Op

/-- Whether the operation is one on savepoints. -/
def isSavepoint : Op → Bool
  | newSavePoint | releaseLastSavePoint | rollbackToSavePoint => true
  | _ => false

theorem keeping_ends {α : Type} {f : Table Key Val → Table Key Val} (g : α → Answer)
    {a : Async (Result α)} (h : Ends faults w b f a) :
    ∃ r w' b', (keeping tx g a).eval (Wire.answer faults) w = ((r, tx), w') ∧
      w'.session = .inBlock b' ∧ Outcome f b r b' := by
  obtain ⟨r, w', b', hev, hs, hout⟩ := h
  refine ⟨r.map g, w', b', ?_, hs, hout.map g⟩
  rw [keeping, Dialogue.eval_map, hev]

variable (faults) in
/-- **One operation.** Every key-value operation of an open write transaction leaves the value of
the transaction alone and the block as `Outcome` allows. -/
theorem run_cases (hconn : tx.conn = some conn) (hwr : tx.writeable = true)
    (hw : w.session = .inBlock b) {op : Op} (hop : op.isSavepoint = false) :
    ∃ r w' b', (op.run tx).eval (Wire.answer faults) w = ((r, tx), w') ∧
      w'.session = .inBlock b' ∧ Outcome op.effect b r b' := by
  have hcheck : tx.checkWriteable = .ok () := by rw [PgTransaction.checkWriteable, hwr]; rfl
  have hput : ∀ key val, Ends faults w b (fun t ↦ t.upsert key val) (tx.put key val) :=
    fun key val ↦ by
      rw [PgTransaction.put, PgTransaction.writeQuery_of_writeable hwr]
      exact PgTransaction.ends_counted hconn hw (exec_put _ _ _)
  have hdel : ∀ key, Ends faults w b (fun t ↦ t.erase key) (tx.del key) := fun key ↦ by
    rw [PgTransaction.del, PgTransaction.writeQuery_of_writeable hwr]
    refine PgTransaction.ends_write hconn hw fun p d h ↦ ?_
    obtain ⟨-, rfl⟩ := Prod.mk.inj (Except.ok.inj h)
    rfl
  cases op with
  | «exists» key => exact keeping_ends _ (PgTransaction.ends_select rfl hconn hw)
  | get key => exact keeping_ends _ (PgTransaction.ends_select rfl hconn hw)
  | getm ks => exact keeping_ends _ (PgTransaction.ends_getm hconn hw ks)
  | set key val =>
    refine keeping_ends _ ?_
    rw [PgTransaction.set, PgTransaction.writeQuery_of_writeable hwr]
    refine PgTransaction.ends_write hconn hw fun p d h ↦ ?_
    obtain ⟨-, rfl⟩ := Prod.mk.inj (Except.ok.inj h)
    rfl
  | setm o pairs =>
    refine keeping_ends _ ?_
    obtain ⟨r, w', b', hev, hs, ⟨e, d, rfl, rfl⟩ | ⟨rfl, d, rfl, hd⟩⟩ :=
      PgTransaction.setm_cases faults hconn hwr hw o pairs
    · exact ⟨_, w', _, hev, hs, .refused e d⟩
    · exact ⟨_, w', _, hev, hs, .done () d hd⟩
  | put key val => exact keeping_ends _ (hput key val)
  | putc key val chk =>
    refine keeping_ends _ ?_
    cases chk with
    | none =>
      rw [PgTransaction.putc, hcheck]
      exact hput key val
    | some expected =>
      rw [PgTransaction.putc, hcheck]
      exact PgTransaction.ends_counted hconn hw (exec_putc _ _ _ _)
  | del key => exact keeping_ends _ (hdel key)
  | delc key chk =>
    refine keeping_ends _ ?_
    cases chk with
    | none =>
      rw [PgTransaction.delc, hcheck]
      exact hdel key
    | some expected =>
      rw [PgTransaction.delc, hcheck]
      exact PgTransaction.ends_counted hconn hw (exec_delc _ _ _)
  | delr start stop =>
    refine keeping_ends _ ?_
    rw [PgTransaction.delr, hcheck]
    dsimp only
    split_ifs with hle
    · exact PgTransaction.ends_pure hw _ (filter_not_inRange_of_le _ hle)
    · refine PgTransaction.ends_write hconn hw fun p d h ↦ ?_
      obtain ⟨-, rfl⟩ := Prod.mk.inj (Except.ok.inj h)
      rfl
  | keys | keysr | scan | scanr =>
    exact keeping_ends _ (PgTransaction.ends_rangeQueryOffset _ _ rfl hconn hw)
  | getr start stop => exact keeping_ends _ (PgTransaction.ends_getr hconn hw start stop)
  | count start stop => exact keeping_ends _ (PgTransaction.ends_count hconn hw start stop)
  | countApprox => exact keeping_ends _ (PgTransaction.ends_select rfl hconn hw)
  | newSavePoint | releaseLastSavePoint | rollbackToSavePoint =>
    exact absurd hop Bool.true_eq_false.mp

end Op

/-! ## Savepoint operations

Each comes back with the same transaction value but for the savepoint stack and the counter of
names. As long as the stack and the server agree on the names, the name on top resolves to the
server's most recent savepoint, even where the counter has wrapped around and names repeat. -/

namespace PgTransaction

variable (faults) in
theorem newSavePoint_cases (hconn : tx.conn = some conn) (hw : w.session = .inBlock b) :
    ∃ r tx' w' b', tx.newSavePoint.eval (Wire.answer faults) w = ((r, tx'), w') ∧
      w'.session = .inBlock b' ∧ tx'.conn = some conn ∧ tx'.writeable = tx.writeable ∧
      ((∃ e, r = .error e ∧ tx'.savepoints = tx.savepoints ∧ b' = { b with aborted := true }) ∨
        (∃ name, r = .ok () ∧ tx'.savepoints = name :: tx.savepoints ∧ b.aborted = false ∧
          b' = { b with marks := (name, b.cur) :: b.marks })) := by
  rw [newSavePoint]
  obtain ⟨r, w', b', hev, hs, ⟨e, rfl, rfl⟩ | ⟨p, rfl, hatt⟩⟩ :=
    executeSimple_cases faults tx.pushSavepointName.2
      (.savepoint tx.pushSavepointName.1) none hconn hw
  · refine ⟨_, { tx.pushSavepointName.2 with savepoints := tx.savepoints }, w', _, ?_, hs, hconn,
      rfl, Or.inl ⟨e, rfl, rfl, rfl⟩⟩
    rw [Dialogue.eval_bind, hev]
    rfl
  · obtain ⟨hab, hb⟩ := Block.attempt_savepoint_ok hatt
    refine ⟨_, tx.pushSavepointName.2, w', _, ?_, hs, hconn, rfl, Or.inr ⟨_, rfl, rfl, hab, hb⟩⟩
    rw [Dialogue.eval_bind, hev]
    rfl

variable (faults) in
theorem releaseLastSavePoint_cases (hconn : tx.conn = some conn) (hw : w.session = .inBlock b)
    (hnames : b.marks.map Prod.fst = tx.savepoints) :
    ∃ r tx' w' b', tx.releaseLastSavePoint.eval (Wire.answer faults) w = ((r, tx'), w') ∧
      w'.session = .inBlock b' ∧ tx'.conn = some conn ∧ tx'.writeable = tx.writeable ∧
      ((∃ e, r = .error e ∧ tx'.savepoints = tx.savepoints ∧ b' = { b with aborted := true }) ∨
        (r = .ok () ∧ tx'.savepoints = tx.savepoints.tail ∧
          b' = { b with marks := b.marks.tail })) := by
  obtain ⟨_, wr, n, names⟩ := tx
  obtain ⟨base, cur, marks, ab⟩ := b
  obtain rfl : marks.map Prod.fst = names := hnames
  cases marks with
  | nil => exact ⟨_, _, w, _, rfl, hw, hconn, rfl, Or.inr ⟨rfl, rfl, rfl⟩⟩
  | cons m marks =>
    obtain ⟨r, w', b', hev, hs, ⟨e, rfl, rfl⟩ | ⟨p, rfl, hatt⟩⟩ :=
      executeSimple_cases faults ⟨_, wr, n, marks.map Prod.fst⟩
        (.release m.1) none hconn hw
    · refine ⟨_, _, w', _, ?_, hs, hconn, rfl, Or.inl ⟨e, rfl, rfl, rfl⟩⟩
      simp only [releaseLastSavePoint, popSavepointName, List.map_cons, List.head?_cons,
        List.tail_cons]
      rw [Dialogue.eval_bind, hev]
      rfl
    · obtain ⟨-, hb⟩ := Block.attempt_release_ok rfl hatt
      refine ⟨_, ⟨_, wr, n, marks.map Prod.fst⟩, w', _, ?_, hs, hconn, rfl,
        Or.inr ⟨rfl, rfl, hb⟩⟩
      simp only [releaseLastSavePoint, popSavepointName, List.map_cons, List.head?_cons,
        List.tail_cons]
      rw [Dialogue.eval_bind, hev]
      rfl

variable (faults) in
/-- Rolling back asks twice, and the second refusal leaves the contents restored but the block
aborted again. -/
theorem rollbackToSavePoint_cases (hconn : tx.conn = some conn) (hw : w.session = .inBlock b)
    (hnames : b.marks.map Prod.fst = tx.savepoints) :
    ∃ r tx' w' b', tx.rollbackToSavePoint.eval (Wire.answer faults) w = ((r, tx'), w') ∧
      w'.session = .inBlock b' ∧ tx'.conn = some conn ∧ tx'.writeable = tx.writeable ∧
      ((∃ e d, r = .error e ∧ tx'.savepoints = tx.savepoints ∧
          b' = { b with cur := d, aborted := true }) ∨
        (r = .ok () ∧ tx'.savepoints = tx.savepoints.tail ∧
          b' = b.marks.head?.elim b fun m ↦
            { b with cur := m.2, marks := b.marks.tail, aborted := false })) := by
  obtain ⟨_, wr, n, names⟩ := tx
  obtain ⟨base, cur, marks, ab⟩ := b
  obtain rfl : marks.map Prod.fst = names := hnames
  cases marks with
  | nil => exact ⟨_, _, w, _, rfl, hw, hconn, rfl, Or.inr ⟨rfl, rfl, rfl⟩⟩
  | cons m marks =>
    simp only [rollbackToSavePoint, popSavepointName, List.map_cons, List.head?_cons,
      List.tail_cons]
    obtain ⟨r, w₁, b₁, hev, hs, ⟨e, rfl, rfl⟩ | ⟨p, rfl, hatt⟩⟩ :=
      executeSimple_cases faults ⟨_, wr, n, marks.map Prod.fst⟩
        (.rollbackTo m.1) none hconn hw
    -- `ROLLBACK TO` is refused: the contents stay as they are
    · refine ⟨_, _, w₁, _, ?_, hs, hconn, rfl, Or.inl ⟨e, cur, rfl, rfl, rfl⟩⟩
      rw [Dialogue.eval_bind, hev]
      rfl
    -- it is answered: the contents are restored, and the savepoint has still to be released
    · obtain rfl := Block.attempt_rollbackTo_ok rfl hatt
      obtain ⟨r, w₂, b₂, hev₂, hs₂, ⟨e, rfl, rfl⟩ | ⟨p₂, rfl, hatt₂⟩⟩ :=
        executeSimple_cases faults ⟨_, wr, n, marks.map Prod.fst⟩
          (.release m.1) none hconn hs
      · refine ⟨_, _, w₂, _, ?_, hs₂, hconn, rfl, Or.inl ⟨e, m.2, rfl, rfl, rfl⟩⟩
        rw [Dialogue.eval_bind, hev]
        dsimp only
        rw [Dialogue.eval_bind, hev₂]
        rfl
      · obtain ⟨-, hb⟩ := Block.attempt_release_ok rfl hatt₂
        refine ⟨_, ⟨_, wr, n, marks.map Prod.fst⟩, w₂, _, ?_, hs₂, hconn, rfl,
          Or.inr ⟨rfl, rfl, hb⟩⟩
        rw [Dialogue.eval_bind, hev]
        dsimp only
        rw [Dialogue.eval_bind, hev₂]
        rfl

/-! ## Closing -/

/-- What the transaction value is once it has been closed. -/
def closed (tx : PgTransaction) : PgTransaction := { tx with conn := none, savepoints := [] }

/-- **Commit.** One `COMMIT` is sent. Refused, it discards the block; answered, it reports success
whatever state the block was in. -/
theorem commit_eval (hconn : tx.conn = some conn) (hw : w.session = .inBlock b) :
    tx.commit.eval (Wire.answer faults) w =
      match faults w.sent with
      | some e => ((.error (.fromSqlx none e), tx.closed), ⟨.idle b.base, w.sent + 1⟩)
      | none => ((.ok (), tx.closed), ⟨.idle b.outcome, w.sent + 1⟩) := by
  have hans : w.answer faults (.sql .commit) = match faults w.sent with
      | some e => (.error e, ⟨.idle b.base, w.sent + 1⟩)
      | none => (.ok engine.ack, ⟨.idle b.outcome, w.sent + 1⟩) := by
    rw [Wire.answer, hw]
    cases hf : faults w.sent <;> rfl
  rw [commit, endsBy_commitInner.close_eq hconn]
  simp only [sendCommand, Dialogue.ask_bind, Dialogue.done_bind, Dialogue.eval_ask, hans]
  cases hf : faults w.sent <;> rfl

end PgTransaction

end Operations

end SurrealPg
