import SurrealPg.Transaction.Operation

/-!
# What operations send

An operation that is not a commit or a cancel sends statements and nothing else: no `COMMIT`, no
`ROLLBACK`, nothing that would count the transaction off. It comes back with the connection and the
mode it was given, and so does its transaction when its future is dropped at any of its await
points. What would change the table is sent by a write operation in a write transaction only.
-/

namespace SurrealPg

open Postgres Semantics

/-- A statement sent on an open connection, which the transaction keeps, while no guard is
alive. -/
inductive Quiet (conn : Option TxConn) : Request → Option Unwound → Prop
  | statement (c : Statement Stmt) (left : Unwound) : conn.isSome = true →
    left.self.conn = conn → left.guard = false → Quiet conn (.sql (.run c)) (some left)

/-- Whether the request is an `INSERT`, an `UPDATE` or a `DELETE`. -/
def Request.isWrite : Request → Bool
  | .sql (.run (.data s)) => !s.isRead
  | _ => false

/-- The operations that are there to change the table. -/
def Op.isWrite : Op → Bool
  | .set .. | .setm .. | .put .. | .putc .. | .del .. | .delc .. | .delr .. => true
  | _ => false

/-- What no operation changes of its transaction. -/
structure PgTransaction.SameMode (tx' tx : PgTransaction) : Prop where
  conn : tx'.conn = tx.conn
  writeable : tx'.writeable = tx.writeable

theorem PgTransaction.SameMode.refl (tx : PgTransaction) : tx.SameMode tx := ⟨rfl, rfl⟩

/-- A statement on the connection of `tx`, which writes only if it may, and leaves the transaction
as it is up to its savepoints. -/
inductive Sends (tx : PgTransaction) (may : Bool) : Request → Option Unwound → Prop
  | statement (c : Statement Stmt) (left : Unwound) : tx.conn.isSome = true →
    left.self.SameMode tx → left.guard = false →
    (may = true ∨ Request.isWrite (.sql (.run c)) = false) →
    Sends tx may (.sql (.run c)) (some left)

variable {tx tx' : PgTransaction} {may : Bool}

theorem Sends.quiet {q : Request} {u : Option Unwound} (h : Sends tx may q u) :
    Quiet tx.conn q u := by
  obtain ⟨c, left, hconn, hleft, hguard, -⟩ := h
  exact .statement c left hconn hleft.conn hguard

theorem Sends.mono {may' : Bool} (hmay : may = true → may' = true) {q : Request}
    {u : Option Unwound} (h : Sends tx may q u) : Sends tx may' q u := by
  obtain ⟨c, left, hconn, hleft, hguard, hwrite⟩ := h
  exact .statement c left hconn hleft hguard (hwrite.imp_left hmay)

theorem Sends.isWrite_eq_false {q : Request} {u : Option Unwound} (h : Sends tx false q u) :
    q.isWrite = false := by
  obtain ⟨c, left, -, -, -, hwrite⟩ := h
  exact hwrite.resolve_left Bool.false_ne_true

namespace PgTransaction

variable {α : Type}

theorem query_sends {stmt : Stmt} {key : Option Key} {decode : Reply → Result α}
    (h : may = true ∨ stmt.isRead = true) :
    (tx.query stmt key decode).All (Sends tx may) fun _ ↦ True := by
  cases hconn : tx.conn with
  | none =>
    rw [query, hconn]
    trivial
  | some conn =>
    rw [query, hconn]
    have hwrite : may = true ∨ Request.isWrite (.sql (.run (.data stmt))) = false :=
      h.imp_right fun hread ↦ by rw [Request.isWrite, hread, Bool.not_true]
    have hsome : tx.conn.isSome = true := by rw [hconn, Option.isSome_some]
    refine ⟨.statement _ ⟨tx, false⟩ hsome (.refl tx) rfl hwrite, fun x ↦ ?_⟩
    rcases x with e | r <;> trivial

theorem writeQuery_sends {stmt : Stmt} {key : Option Key} {decode : Reply → Result α} :
    (tx.writeQuery stmt key decode).All (Sends tx tx.writeable) fun _ ↦ True := by
  rw [writeQuery, checkWriteable]
  cases hw : tx.writeable with
  | false => trivial
  | true => exact query_sends (Or.inl rfl)

theorem executeSimple_sends {c : Statement Stmt} {key : Option Key} (htx : tx'.SameMode tx)
    (hc : Request.isWrite (.sql (.run c)) = false) :
    (tx'.executeSimple c key).All (Sends tx may) fun _ ↦ True := by
  cases hconn : tx'.conn with
  | none =>
    rw [executeSimple, hconn]
    trivial
  | some conn =>
    rw [executeSimple, hconn]
    have hsome : tx.conn.isSome = true := by rw [← htx.conn, hconn, Option.isSome_some]
    refine ⟨.statement _ ⟨tx', false⟩ hsome htx rfl (Or.inr hc), fun x ↦ ?_⟩
    rcases x with e | r <;> trivial

theorem setmChunks_sends (pairs : List (Key × Val)) :
    (tx.setmChunks pairs).All (Sends tx true) fun _ ↦ True := by
  induction pairs using setmChunks.induct with
  | case1 => rw [setmChunks, dif_pos rfl]; trivial
  | case2 pairs hne ih =>
    rw [setmChunks, dif_neg hne]
    refine Dialogue.All.bind (query_sends (Or.inl rfl)) fun r _ ↦ ?_
    rcases r with e | u
    · trivial
    · exact ih

theorem setm_sends (o : HashOrder) (pairs : List (Key × Val)) :
    (tx.setm o pairs).All (Sends tx tx.writeable) fun _ ↦ True := by
  rw [setm, checkWriteable]
  cases hw : tx.writeable with
  | false =>
    simp only [Bool.not_false, if_true]
    split_ifs <;> trivial
  | true =>
    simp only [Bool.not_true, Bool.false_eq_true, if_false]
    split_ifs
    · trivial
    · trivial
    · exact query_sends (Or.inl rfl)
    · exact setmChunks_sends _

theorem getm_sends (ks : List Key) : (tx.getm ks).All (Sends tx may) fun _ ↦ True := by
  rw [getm]
  split_ifs
  · trivial
  · exact query_sends (Or.inr rfl)

theorem putc_sends (key : Key) (val : Val) (chk : Option Val) :
    (tx.putc key val chk).All (Sends tx tx.writeable) fun _ ↦ True := by
  rw [putc.eq_def, checkWriteable]
  cases hw : tx.writeable with
  | false => trivial
  | true =>
    cases chk with
    | none => exact writeQuery_sends.mono (fun _ _ ↦ Sends.mono fun _ ↦ rfl) fun _ ↦ id
    | some expected => exact query_sends (Or.inl rfl)

theorem delc_sends (key : Key) (chk : Option Val) :
    (tx.delc key chk).All (Sends tx tx.writeable) fun _ ↦ True := by
  rw [delc.eq_def, checkWriteable]
  cases hw : tx.writeable with
  | false => trivial
  | true =>
    cases chk with
    | none => exact writeQuery_sends.mono (fun _ _ ↦ Sends.mono fun _ ↦ rfl) fun _ ↦ id
    | some expected => exact query_sends (Or.inl rfl)

theorem delr_sends (start stop : Key) :
    (tx.delr start stop).All (Sends tx tx.writeable) fun _ ↦ True := by
  rw [delr, checkWriteable]
  cases hw : tx.writeable with
  | false => trivial
  | true =>
    simp only [Bool.not_true, Bool.false_eq_true, if_false]
    split_ifs
    · trivial
    · exact query_sends (Or.inl rfl)

theorem rangeQueryOffset_sends {stmt : Stmt} {start stop : Key} {decode : List Row → List α}
    (h : stmt.isRead = true) :
    (tx.rangeQueryOffset stmt start stop decode).All (Sends tx may) fun _ ↦ True := by
  rw [rangeQueryOffset]
  cases hconn : tx.conn with
  | none => trivial
  | some conn =>
    dsimp only
    split_ifs
    · trivial
    · exact query_sends (Or.inr h)

theorem getr_sends (start stop : Key) : (tx.getr start stop).All (Sends tx may) fun _ ↦ True := by
  rw [getr]
  split_ifs
  · trivial
  · exact query_sends (Or.inr rfl)

theorem count_sends (start stop : Key) :
    (tx.count start stop).All (Sends tx may) fun _ ↦ True := by
  rw [count]
  split_ifs
  · trivial
  · exact query_sends (Or.inr rfl)

theorem newSavePoint_sends :
    tx.newSavePoint.All (Sends tx may) fun r ↦ r.2.SameMode tx := by
  refine Dialogue.All.bind (executeSimple_sends ⟨rfl, rfl⟩ rfl) fun r _ ↦ ?_
  rcases r with e | u
  · exact ⟨rfl, rfl⟩
  · exact ⟨rfl, rfl⟩

theorem releaseLastSavePoint_sends :
    tx.releaseLastSavePoint.All (Sends tx may) fun r ↦ r.2.SameMode tx := by
  rw [releaseLastSavePoint, popSavepointName]
  rcases tx.savepoints.head? with _ | name
  · exact ⟨rfl, rfl⟩
  · refine Dialogue.All.bind (executeSimple_sends ⟨rfl, rfl⟩ rfl) fun r _ ↦ ?_
    rcases r with e | u
    · exact ⟨rfl, rfl⟩
    · exact ⟨rfl, rfl⟩

theorem rollbackToSavePoint_sends :
    tx.rollbackToSavePoint.All (Sends tx may) fun r ↦ r.2.SameMode tx := by
  rw [rollbackToSavePoint, popSavepointName]
  rcases tx.savepoints.head? with _ | name
  · exact ⟨rfl, rfl⟩
  · refine Dialogue.All.bind (executeSimple_sends ⟨rfl, rfl⟩ rfl) fun r _ ↦ ?_
    rcases r with e | u
    · exact ⟨rfl, rfl⟩
    · refine Dialogue.All.bind (executeSimple_sends ⟨rfl, rfl⟩ rfl) fun r _ ↦ ?_
      rcases r with e | u
      · exact ⟨rfl, rfl⟩
      · exact ⟨rfl, rfl⟩

end PgTransaction

theorem keeping_sends {α : Type} {f : α → Answer} {a : Async (Result α)}
    (h : a.All (Sends tx may) fun _ ↦ True) :
    (keeping tx f a).All (Sends tx may) fun r ↦ r.2.SameMode tx :=
  Dialogue.All.map (h.mono (fun _ _ hq ↦ hq) fun _ _ ↦ .refl tx)

/-- **What an operation sends**: it writes only if it is there to write and the transaction may. -/
theorem Op.run_sends (tx : PgTransaction) (op : Op) :
    (op.run tx).All (Sends tx (op.isWrite && tx.writeable)) fun r ↦ r.2.SameMode tx := by
  cases op with
  | «exists» | get | countApprox => exact keeping_sends (PgTransaction.query_sends (Or.inr rfl))
  | set | put | del => exact keeping_sends PgTransaction.writeQuery_sends
  | getm => exact keeping_sends (PgTransaction.getm_sends _)
  | setm => exact keeping_sends (PgTransaction.setm_sends _ _)
  | putc => exact keeping_sends (PgTransaction.putc_sends _ _ _)
  | delc => exact keeping_sends (PgTransaction.delc_sends _ _)
  | delr => exact keeping_sends (PgTransaction.delr_sends _ _)
  | keys | keysr | scan | scanr =>
    exact keeping_sends (PgTransaction.rangeQueryOffset_sends rfl)
  | getr => exact keeping_sends (PgTransaction.getr_sends _ _)
  | count => exact keeping_sends (PgTransaction.count_sends _ _)
  | newSavePoint => exact Dialogue.All.map PgTransaction.newSavePoint_sends
  | releaseLastSavePoint => exact Dialogue.All.map PgTransaction.releaseLastSavePoint_sends
  | rollbackToSavePoint => exact Dialogue.All.map PgTransaction.rollbackToSavePoint_sends

/-- **Every operation is quiet.** -/
theorem Op.run_quiet (tx : PgTransaction) (op : Op) :
    (op.run tx).All (Quiet tx.conn) fun r ↦ r.2.conn = tx.conn :=
  (op.run_sends tx).mono (fun _ _ ↦ Sends.quiet) fun _ ↦ PgTransaction.SameMode.conn

/-! ## Closing -/

namespace PgTransaction

/-- What a commit or cancel makes of an open transaction as soon as it is polled. -/
def shut (tx : PgTransaction) : PgTransaction := { tx with conn := none, savepoints := [] }

/-- A request of a commit or cancel of `tx`: it writes nothing, and finds the transaction shut. -/
structure Shuts (tx : PgTransaction) (q : Request) (u : Option Unwound) : Prop where
  isWrite : q.isWrite = false
  left : ∀ left, u = some left → left.self = tx.shut

theorem close_shuts {inner : PgTransaction → TxConn → Async (Result Unit)} {c : Command Stmt}
    (hc : Request.isWrite (.sql c) = false) (hinner : EndsBy c inner) {conn : TxConn}
    (hconn : tx.conn = some conn) : (tx.close inner).All (Shuts tx) fun r ↦ r.2 = tx.shut := by
  rw [hinner.close_eq hconn]
  refine ⟨⟨hc, fun left hleft ↦ ?_⟩, fun r ↦ ⟨⟨rfl, fun left hleft ↦ ?_⟩, fun _ ↦ rfl⟩⟩
  · rw [← Option.some.inj hleft, shut]
  · exact absurd hleft (Option.some_ne_none left).symm

theorem commit_shuts {conn : TxConn} (hconn : tx.conn = some conn) :
    tx.commit.All (Shuts tx) fun r ↦ r.2 = tx.shut :=
  close_shuts rfl endsBy_commitInner hconn

theorem cancel_shuts {conn : TxConn} (hconn : tx.conn = some conn) :
    tx.cancel.All (Shuts tx) fun r ↦ r.2 = tx.shut :=
  close_shuts rfl endsBy_cancelInner hconn

theorem close_writes_nothing {inner : PgTransaction → TxConn → Async (Result Unit)}
    {c : Command Stmt} (hc : Request.isWrite (.sql c) = false) (hinner : EndsBy c inner) :
    (tx.close inner).All (fun q _ ↦ q.isWrite = false) fun _ ↦ True := by
  cases hconn : tx.conn with
  | none =>
    rw [close_of_none hconn]
    trivial
  | some conn =>
    exact (close_shuts hc hinner hconn).mono (fun _ _ ↦ Shuts.isWrite) fun _ _ ↦ trivial

theorem commit_writes_nothing (tx : PgTransaction) :
    tx.commit.All (fun q _ ↦ q.isWrite = false) fun _ ↦ True :=
  close_writes_nothing rfl endsBy_commitInner

theorem cancel_writes_nothing (tx : PgTransaction) :
    tx.cancel.All (fun q _ ↦ q.isWrite = false) fun _ ↦ True :=
  close_writes_nothing rfl endsBy_cancelInner

end PgTransaction

end SurrealPg
