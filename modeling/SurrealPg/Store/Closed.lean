import SurrealPg.Store.Active

/-!
# Closed transactions

A commit or cancel takes the connection and clears the savepoints with its first poll, and whatever
becomes of it, nothing brings them back: every later call finds the transaction as the closing one
has left it. Most of them learn from the missing connection that it is closed. Those that have
nothing to do answer before they look: a list of no keys, a range that is empty, a savepoint to
release or to go back to where there is none.
-/

namespace SurrealPg

open Semantics

/-- Whether the call is answered before the connection is looked at: with no keys, an empty range,
or no savepoint, of which a closed transaction has none. -/
def Method.isVacuous : Method → Bool
  | .op (.getm ks) => ks.isEmpty
  | .op (.delr start stop) | .op (.getr start stop) | .op (.count start stop) =>
    decide (stop ≤ start)
  | .op .releaseLastSavePoint | .op .rollbackToSavePoint => true
  | _ => false

/-! ## One call -/

/-- What a closed write transaction is like. -/
structure PgTransaction.Shut (tx : PgTransaction) : Prop where
  conn : tx.conn = none
  savepoints : tx.savepoints = []
  writeable : tx.writeable = true

namespace PgTransaction

variable {tx : PgTransaction} {α : Type}

theorem query_of_none {stmt : Stmt} {key : Option Key} {decode : Reply → Result α}
    (h : tx.conn = none) : tx.query stmt key decode = .done (.error .txClosed) := by
  rw [query, h]
  rfl

theorem Shut.checkWriteable (h : tx.Shut) : tx.checkWriteable = .ok () := by
  rw [PgTransaction.checkWriteable, h.writeable]
  rfl

theorem Shut.writeQuery {stmt : Stmt} {key : Option Key} {decode : Reply → Result α}
    (h : tx.Shut) : tx.writeQuery stmt key decode = .done (.error .txClosed) := by
  rw [PgTransaction.writeQuery, h.checkWriteable]
  exact query_of_none h.conn

theorem rangeQueryOffset_of_none {stmt : Stmt} {start stop : Key} {decode : List Row → List α}
    (h : tx.conn = none) :
    tx.rangeQueryOffset stmt start stop decode = .done (.error .txClosed) := by
  rw [rangeQueryOffset, h]
  rfl

theorem Shut.newSavePoint (h : tx.Shut) :
    ∃ tx', tx.newSavePoint = .done (.error .txClosed, tx') ∧ tx'.Shut := by
  refine ⟨{ tx with savepointCounter := tx.savepointCounter + 1 }, ?_,
    h.conn, h.savepoints, h.writeable⟩
  have hsimple (c) : ({ tx with savepointCounter := tx.savepointCounter + 1
                                savepoints := s!"sp_{tx.savepointCounter + 1}" :: tx.savepoints } :
      PgTransaction).executeSimple c none = .done (.error .txClosed) := by
    rw [executeSimple.eq_def]
    dsimp only
    rw [h.conn]
    rfl
  rw [PgTransaction.newSavePoint, pushSavepointName]
  dsimp only
  rw [hsimple]
  rfl

theorem Shut.popSavepointName (h : tx.Shut) : tx.popSavepointName = (none, tx) := by
  rw [PgTransaction.popSavepointName, h.savepoints]
  exact congrArg (Prod.mk none) (by rw [List.tail_nil, ← h.savepoints])

end PgTransaction

/-- The call is over at once, and is refused exactly if it had something to do. -/
def Method.Ends (m : Method) (tx : PgTransaction) : Prop :=
  ∃ r tx', m.run tx = .done (r, tx') ∧ tx'.Shut ∧ (r = .error .txClosed ↔ m.isVacuous = false)

section

variable {α : Type} {tx : PgTransaction} {m : Method} {f : α → Answer} {a : Async (Result α)}

theorem Method.ends_of_refused (h : tx.Shut) (hrun : m.run tx = keeping tx f a)
    (ha : a = .done (.error .txClosed)) (hm : m.isVacuous = false) : m.Ends tx := by
  refine ⟨.error .txClosed, tx, ?_, h, iff_of_true rfl hm⟩
  rw [hrun, ha]
  rfl

theorem Method.ends_of_answered {x : α} (h : tx.Shut) (hrun : m.run tx = keeping tx f a)
    (ha : a = .done (.ok x)) (hm : m.isVacuous = true) : m.Ends tx := by
  refine ⟨.ok (f x), tx, ?_, h, iff_of_false (by simp) (by simp [hm])⟩
  rw [hrun, ha]
  rfl

end

/-- **A call of a closed transaction** is over at once. It is refused unless there is nothing to
do, and the transaction stays closed. -/
theorem Method.ends_of_shut {tx : PgTransaction} (h : tx.Shut) (m : Method) : m.Ends tx := by
  cases m with
  | commit =>
    refine ⟨.error .txClosed, tx, ?_, h, iff_of_true rfl rfl⟩
    rw [run, PgTransaction.commit, PgTransaction.close_of_none h.conn]
    rfl
  | cancel =>
    refine ⟨.error .txClosed, tx, ?_, h, iff_of_true rfl rfl⟩
    rw [run, PgTransaction.cancel, PgTransaction.close_of_none h.conn]
    rfl
  | op o =>
    cases o with
    | «exists» | get | countApprox =>
      exact ends_of_refused h rfl (PgTransaction.query_of_none h.conn) rfl
    | set | put | del => exact ends_of_refused h rfl h.writeQuery rfl
    | keys | keysr | scan | scanr =>
      exact ends_of_refused h rfl (PgTransaction.rangeQueryOffset_of_none h.conn) rfl
    | setm o pairs =>
      refine ends_of_refused h rfl ?_ rfl
      rw [PgTransaction.setm, h.conn]
      rfl
    | putc key val chk =>
      refine ends_of_refused h rfl ?_ rfl
      rw [PgTransaction.putc.eq_def, h.checkWriteable]
      cases chk with
      | none => exact h.writeQuery
      | some expected => exact PgTransaction.query_of_none h.conn
    | delc key chk =>
      refine ends_of_refused h rfl ?_ rfl
      rw [PgTransaction.delc.eq_def, h.checkWriteable]
      cases chk with
      | none => exact h.writeQuery
      | some expected => exact PgTransaction.query_of_none h.conn
    -- from here on the source looks at the arguments first, and may not ask for the connection
    | getm ks =>
      cases hks : ks.isEmpty with
      | true => exact ends_of_answered h rfl (if_pos hks) hks
      | false =>
        refine ends_of_refused h rfl ?_ hks
        rw [PgTransaction.getm, hks]
        exact PgTransaction.query_of_none h.conn
    | delr start stop =>
      have hdelr : tx.delr start stop = if stop ≤ start then .done (.ok ()) else
          tx.query (.delr start stop) none fun _ ↦ .ok () := by
        rw [PgTransaction.delr, h.checkWriteable]
        rfl
      by_cases hle : stop ≤ start
      · exact ends_of_answered h rfl (hdelr.trans (if_pos hle)) (decide_eq_true hle)
      · refine ends_of_refused h rfl ?_ (decide_eq_false hle)
        rw [hdelr, if_neg hle, PgTransaction.query_of_none h.conn]
    | getr start stop =>
      by_cases hle : stop ≤ start
      · exact ends_of_answered h rfl (if_pos hle) (decide_eq_true hle)
      · refine ends_of_refused h rfl ?_ (decide_eq_false hle)
        rw [PgTransaction.getr, if_neg hle, PgTransaction.query_of_none h.conn]
    | count start stop =>
      by_cases hle : stop ≤ start
      · exact ends_of_answered h rfl (if_pos hle) (decide_eq_true hle)
      · refine ends_of_refused h rfl ?_ (decide_eq_false hle)
        rw [PgTransaction.count, if_neg hle, PgTransaction.query_of_none h.conn]
    | newSavePoint =>
      obtain ⟨tx', hrun, hshut⟩ := h.newSavePoint
      refine ⟨.error .txClosed, tx', ?_, hshut, iff_of_true rfl rfl⟩
      rw [run, Op.run, hrun]
      rfl
    -- closing has emptied the stack, and an empty stack is not looked up on the server
    | releaseLastSavePoint =>
      refine ⟨.ok .unit, tx, ?_, h, iff_of_false (by simp) Bool.true_eq_false.mp⟩
      rw [run, Op.run, PgTransaction.releaseLastSavePoint, h.popSavepointName]
      rfl
    | rollbackToSavePoint =>
      refine ⟨.ok .unit, tx, ?_, h, iff_of_false (by simp) Bool.true_eq_false.mp⟩
      rw [run, Op.run, PgTransaction.rollbackToSavePoint, h.popSavepointName]
      rfl

/-! ## Every run -/

namespace Value

/-- What a transaction is like between two calls: open, or closed by an earlier call. -/
def Stands (closed : Bool) (tx : PgTransaction) : Prop :=
  if closed then tx.Shut else tx.conn.isSome = true ∧ tx.writeable = true

/-- A future leaves the transaction as it stands, whether it returns or is dropped. -/
def Leaves (closed : Bool) (d : Async (Result Answer × PgTransaction)) : Prop :=
  d.All (fun _ u ↦ ∀ left, u = some left → Stands closed left.self) fun r ↦ Stands closed r.2

/-- What holds of a write transaction at every point of its life. -/
def Kept (v : Value) : Prop :=
  match v.use with
  | .idle tx | .unpolled tx _ => Stands v.closed tx
  | .running m d => Leaves (v.closed || m.isCloser) d
  | .dropped => True

theorem leaves_run {closed : Bool} {tx : PgTransaction} (h : Stands closed tx) (m : Method) :
    Leaves (closed || m.isCloser) (m.run tx) := by
  cases closed with
  | true =>
    -- a call of a closed transaction
    obtain ⟨r, tx', hrun, hshut, -⟩ := m.ends_of_shut h
    rw [hrun]
    exact hshut
  | false =>
    obtain ⟨hconn, hwriteable⟩ : tx.conn.isSome = true ∧ tx.writeable = true := h
    obtain ⟨conn, hconn'⟩ := Option.isSome_iff_exists.mp hconn
    have hshut {tx' : PgTransaction} (htx' : tx' = tx.shut) : Stands true tx' :=
      htx' ▸ ⟨rfl, rfl, hwriteable⟩
    have hopen {tx' : PgTransaction} (htx' : tx'.SameMode tx) : Stands false tx' :=
      ⟨htx'.conn ▸ hconn, htx'.writeable ▸ hwriteable⟩
    cases m with
    | commit =>
      refine Dialogue.All.map ((PgTransaction.commit_shuts hconn').mono ?_ fun _ ↦ hshut)
      exact fun q u hq left hleft ↦ hshut (hq.left left hleft)
    | cancel =>
      refine Dialogue.All.map ((PgTransaction.cancel_shuts hconn').mono ?_ fun _ ↦ hshut)
      exact fun q u hq left hleft ↦ hshut (hq.left left hleft)
    | op o =>
      refine (o.run_sends tx).mono (fun q u hq left hleft ↦ ?_) fun _ ↦ hopen
      obtain ⟨c, left', -, hmode, -, -⟩ := hq
      exact hopen (Option.some.inj hleft ▸ hmode)

theorem Kept.step {v v' : Value} {e : Deed} (h : v.Kept) (hstep : Step v e v') : v'.Kept := by
  cases hstep with
  | call m => exact h
  | forget => exact h
  | poll => exact leaves_run h _
  | answer r => exact h.2 r
  | «return» => exact h
  | abandon => exact h.1 _ rfl
  | drop => exact trivial

theorem kept_of_run {conn : TxConn} {tr : List Deed} {v : Value}
    (hrun : Run Step (opened true ⟨some conn, true, 0, []⟩) tr v) : v.Kept :=
  hrun.invariant (I := fun _ v ↦ v.Kept) ⟨rfl, rfl⟩ fun h hstep ↦ h.step hstep

end Value

/-- **A closed transaction refuses** every call that has something to do, and no other; it sends
nothing in any case. -/
theorem Method.run_eq_txClosed_iff {conn : TxConn} {tr : List Deed} {tx : PgTransaction}
    {m : Method}
    (hrun : Run Value.Step (.opened true ⟨some conn, true, 0, []⟩) tr ⟨.unpolled tx m, true⟩) :
    (∃ tx', m.run tx = .done (.error .txClosed, tx')) ↔ m.isVacuous = false := by
  have hshut : tx.Shut := Value.kept_of_run hrun
  obtain ⟨r, tx', hends, -, hiff⟩ := m.ends_of_shut hshut
  rw [← hiff, hends]
  constructor
  · rintro ⟨tx'', h⟩
    injection h with h
    exact (Prod.mk.inj h).1
  · rintro rfl
    exact ⟨tx', rfl⟩

/-- A `get` after a commit that the server has refused. -/
theorem Method.run_get_of_closed : ∃ tx', (Method.op (.get [1])).run ⟨none, true, 0, []⟩ =
    .done (.error .txClosed, tx') := by
  have h : Run Value.Step (.opened true ⟨some .pooled, true, 0, []⟩) []
      (.opened true ⟨some .pooled, true, 0, []⟩) := .nil
  have h := h.snoc (.call .commit)
  have h := h.snoc .poll
  have h := h.snoc (.answer (q := .sql .commit) (.error .poolTimedOut))
  have h := h.snoc (.answer (q := .releaseActive) ())
  have h := h.snoc .return
  have h := h.snoc (.call (.op (.get [1])))
  exact (Method.run_eq_txClosed_iff h).mpr rfl

/-- A `getm` of no keys after a commit. -/
theorem not_run_eq_txClosed : ¬∀ (conn : TxConn) tr tx m,
    Run Value.Step (.opened true ⟨some conn, true, 0, []⟩) tr ⟨.unpolled tx m, true⟩ →
    ∃ tx', m.run tx = .done (.error .txClosed, tx') := by
  intro hlaw
  have h : Run Value.Step (.opened true ⟨some .pooled, true, 0, []⟩) []
      (.opened true ⟨some .pooled, true, 0, []⟩) := .nil
  have h := h.snoc (.call .commit)
  have h := h.snoc .poll
  have h := h.snoc (.answer (q := .sql .commit) (.ok ⟨[], 0⟩))
  have h := h.snoc (.answer (q := .releaseActive) ())
  have h := h.snoc .return
  have h := h.snoc (.call (.op (.getm [])))
  obtain ⟨tx', hrun⟩ := hlaw .pooled _ _ _ h
  have hgetm : (Method.op (.getm [])).run ⟨none, true, 0, []⟩ =
      .done (.ok (.vals []), ⟨none, true, 0, []⟩) := rfl
  injection hgetm.symm.trans hrun with hr
  exact nomatch (Prod.mk.inj hr).1

end SurrealPg
